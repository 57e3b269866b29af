import ProtocolTypings.Proofs.Text.Capital
import ProtocolTypings.Proofs.Text.Lines

/-!
# Plain texts

Braces and stars mean something to the check of a module text, and blanks and line boundaries to its layout. Each of
them is the capital of itself alone, so a text without them has none in its capital letters.
-/

namespace ProtocolTypings.Text

def isMarker (c : Char) : Bool :=
  c == '\x7b' || c == '\x7d' || c == '*'

/-- A text without braces and stars. -/
def Plain (s : String) : Prop :=
  ∀ c ∈ s.toList, isMarker c = false

instance (s : String) : Decidable (Plain s) :=
  List.decidableBAll (fun c => isMarker c = false) s.toList

/-! ## The tables -/

/-- The codes of the markers and of all blanks, among which are the line boundaries. -/
def layoutCodes : List Nat :=
  [0x2A, 0x7B, 0x7D, 0x85, 0xA0, 0x1680, 0x2028, 0x2029, 0x202F, 0x205F, 0x3000] ++ List.range' 0x09 5 ++
    List.range' 0x1C 5 ++ List.range' 0x2000 11

theorem toNat_mem_of_isMarker {c : Char} (h : isMarker c = true) : c.toNat ∈ layoutCodes := by
  simp only [isMarker, Bool.or_eq_true, beq_iff_eq] at h
  rcases h with (rfl | rfl) | rfl <;> decide

theorem toNat_mem_of_isBlank {c : Char} (h : isBlank c = true) : c.toNat ∈ layoutCodes := by
  simp only [isBlank, Bool.or_eq_true, Bool.and_eq_true, decide_eq_true_eq, beq_iff_eq] at h
  simp only [layoutCodes, List.mem_append, List.mem_range'_1, List.mem_cons, List.not_mem_nil, or_false]
  omega

theorem isBlank_of_endsLine {c : Char} (h : endsLine c = true) : isBlank c = true := by
  simp only [endsLine, isBlank, Bool.or_eq_true, Bool.and_eq_true, decide_eq_true_eq, beq_iff_eq] at h ⊢
  omega

/-- The capitals of the run go past the character. -/
def CapitalRun.Misses (r : CapitalRun) (n : Nat) : Prop :=
  (n : Int) < r.first + r.shift ∨ r.last + r.shift < n

instance (r : CapitalRun) (n : Nat) : Decidable (r.Misses n) :=
  inferInstanceAs (Decidable (_ ∨ _))

theorem capitalRuns_miss : ∀ r ∈ capitalRuns, ∀ n ∈ layoutCodes, r.Misses n := by
  decide +kernel

theorem longCapitals_miss : ∀ p ∈ longCapitals, ∀ n ∈ p.2, n ∉ layoutCodes := by
  decide +kernel

theorem toUpper_miss : ∀ n < 0x80, (Char.ofNat n).toUpper.toNat ∈ layoutCodes →
    (Char.ofNat n).toUpper = Char.ofNat n := by
  decide +kernel

theorem CapitalRun.not_mem_layoutCodes {r : CapitalRun} (h : ∀ m ∈ layoutCodes, r.Misses m) {n : Nat}
    (hn : r.holds n = true) : (n + r.shift).toNat ∉ layoutCodes := by
  intro hmem
  simp only [CapitalRun.holds, Bool.and_eq_true, decide_eq_true_eq] at hn
  obtain ⟨⟨hfirst, hlast⟩, -⟩ := hn
  have hpos : 0 < (n + r.shift).toNat := by
    rw [Nat.pos_iff_ne_zero]
    intro hzero
    rw [hzero] at hmem
    exact absurd hmem (by decide)
  rcases h _ hmem with hlow | hhigh <;> omega

theorem ofNat_not_mem {n : Nat} (h : n ∉ layoutCodes) : (Char.ofNat n).toNat ∉ layoutCodes := by
  rcases toNat_ofNat n with hcode | hcode
  · rwa [hcode]
  · rw [hcode]
    decide

/-- What means something to the layout is the capital of itself alone. -/
theorem eq_of_mem_capital {c d : Char} (hd : d ∈ capital c) (hlayout : d.toNat ∈ layoutCodes) : d = c := by
  unfold capital at hd
  split at hd
  · rename_i hascii
    rw [List.mem_singleton.1 hd] at hlayout ⊢
    have hupper := toUpper_miss c.toNat hascii
    rw [Char.ofNat_toNat] at hupper
    exact hupper hlayout
  · split at hd
    · rename_i codes hcodes
      obtain ⟨n, hn, rfl⟩ := List.mem_map.1 hd
      obtain ⟨before, after, hlist, -⟩ := List.lookup_eq_some_iff.1 hcodes
      have hmem : (c.toNat, codes) ∈ longCapitals := by rw [hlist]; simp
      exact absurd hlayout (ofNat_not_mem (longCapitals_miss _ hmem n hn))
    · split at hd
      · rename_i r hr
        rw [List.mem_singleton.1 hd] at hlayout
        have hholds : r.holds c.toNat = true := by simpa using List.find?_some hr
        have hmiss := CapitalRun.not_mem_layoutCodes (capitalRuns_miss r (List.mem_of_find?_eq_some hr)) hholds
        exact absurd hlayout (ofNat_not_mem hmiss)
      · exact List.mem_singleton.1 hd

/-! ## Plain texts -/

/-- The characters of a text with a capital letter are those of the text or capitals of its first. -/
theorem mem_capitalize {s : String} {d : Char} (hd : d ∈ (Text.capitalize s).toList) :
    (∃ c ∈ s.toList.head?, d ∈ capital c) ∨ d ∈ s.toList := by
  unfold Text.capitalize at hd
  split at hd
  · cases hd
  · rename_i c rest hs
    rw [String.toList_ofList] at hd
    rw [hs]
    rcases List.mem_append.1 hd with hd | hd
    · exact .inl ⟨c, rfl, hd⟩
    · exact .inr (List.mem_cons_of_mem _ hd)

/-- A text without certain characters that mean something to the layout has none in its capital letters. -/
theorem capitalize_without {bad : Char → Bool} (hbad : ∀ c, bad c = true → c.toNat ∈ layoutCodes) {s : String}
    (h : ∀ c ∈ s.toList, bad c = false) : ∀ c ∈ (Text.capitalize s).toList, bad c = false := by
  intro d hd
  rw [Bool.eq_false_iff]
  intro hlayout
  have hown : d ∈ s.toList := by
    rcases mem_capitalize hd with ⟨c, hc, hd⟩ | hd
    · rw [eq_of_mem_capital hd (hbad d hlayout)]
      exact List.mem_of_mem_head? hc
    · exact hd
  rw [h d hown] at hlayout
  cases hlayout

theorem Plain.append {s t : String} (hs : Plain s) (ht : Plain t) : Plain (s ++ t) := by
  intro c hc
  rw [String.toList_append] at hc
  rcases List.mem_append.1 hc with hc | hc
  · exact hs c hc
  · exact ht c hc

theorem Plain.capitalize {s : String} (h : Plain s) : Plain (Text.capitalize s) :=
  capitalize_without (fun _ => toNat_mem_of_isMarker) h

theorem OneLine.capitalize {s : String} (h : OneLine s) : OneLine (Text.capitalize s) :=
  capitalize_without (fun _ hc => toNat_mem_of_isBlank (isBlank_of_endsLine hc)) h

/-! ## Neat texts -/

/-- A plain text that is within one line. -/
structure Neat (s : String) : Prop where
  plain : Plain s
  oneLine : OneLine s

instance (s : String) : Decidable (Neat s) :=
  decidable_of_iff (Plain s ∧ OneLine s) ⟨fun ⟨hplain, hline⟩ => ⟨hplain, hline⟩, fun h => ⟨h.plain, h.oneLine⟩⟩

theorem Neat.append {s t : String} (hs : Neat s) (ht : Neat t) : Neat (s ++ t) :=
  ⟨hs.plain.append ht.plain, hs.oneLine.append ht.oneLine⟩

theorem Neat.capitalize {s : String} (h : Neat s) : Neat (Text.capitalize s) :=
  ⟨h.plain.capitalize, h.oneLine.capitalize⟩

/-! ## The start of a text -/

/-- The text does not start with a blank. -/
def Flush (s : String) : Prop :=
  ∀ c ∈ s.toList.head?, isBlank c = false

instance (s : String) : Decidable (Flush s) :=
  decidable_of_iff ((s.toList.head?.all fun c => !isBlank c) = true) (by
    rw [Flush]
    cases s.toList.head? <;> simp)

/-- The text starts with a character that is no blank. -/
def Headed (s : String) : Prop :=
  ∃ c ∈ s.toList.head?, isBlank c = false

theorem Headed.append {s : String} (hs : Headed s) (t : String) : Headed (s ++ t) := by
  obtain ⟨c, hc, hblank⟩ := hs
  refine ⟨c, ?_, hblank⟩
  rw [String.toList_append, List.head?_append, Option.mem_def.1 hc]
  rfl

theorem Headed.flush {s : String} (hs : Headed s) : Flush s := by
  obtain ⟨c, hc, hblank⟩ := hs
  intro d hd
  rwa [Option.mem_unique hd hc]

theorem Flush.headed {s t : String} (hs : Flush s) (ht : Headed t) : Headed (s ++ t) := by
  cases hhead : s.toList.head? with
  | some c => exact Headed.append ⟨c, hhead, hs c hhead⟩ t
  | none =>
      rw [String.toList_eq_nil_iff.1 (List.head?_eq_none_iff.1 hhead), String.empty_append]
      exact ht

theorem Flush.capitalize {s : String} (h : Flush s) : Flush (Text.capitalize s) := by
  intro d hd
  unfold Text.capitalize at hd
  split at hd
  · cases hd
  · rename_i c rest hs
    obtain ⟨e, tail, hcapital, -⟩ := capital_head c
    rw [hcapital, String.toList_ofList] at hd
    obtain rfl : e = d := Option.some.inj hd
    rw [Bool.eq_false_iff]
    intro hblank
    have hown := eq_of_mem_capital (hcapital ▸ List.mem_cons_self) (toNat_mem_of_isBlank hblank)
    rw [hown, h c (by rw [hs]; rfl)] at hblank
    cases hblank

end ProtocolTypings.Text
