import ProtocolTypings.Text.Capital

/-!
# Capitals of capitals

The first character of a capital is its own capital, so that nothing more changes when a text is given a capital
letter twice.
-/

namespace ProtocolTypings.Text

/-- A number that belongs to no character gives the first one. -/
theorem toNat_ofNat (n : Nat) : (Char.ofNat n).toNat = n ∨ (Char.ofNat n).toNat = 0 := by
  by_cases h : n.isValidChar
  · rw [Char.ofNat, dif_pos h]
    exact .inl rfl
  · rw [Char.ofNat, dif_neg h]
    exact .inr rfl

/-! ## The tables -/

/-- No code from `lo` to `hi`, taken by the step, is held by the run. -/
def CapitalRun.apart (lo hi step : Nat) (q : CapitalRun) : Bool :=
  q.last.blt lo || hi.blt q.first ||
    (q.step.beq 2 && (step.beq 2 || lo.beq hi) && !(lo % 2).beq (q.first % 2))

/-- No character with such a code has another capital. -/
def fixedCodes (lo hi step : Nat) : Bool :=
  (0x80 ≤ lo || (lo == hi && (Char.ofNat lo).toUpper == Char.ofNat lo)) &&
    longCapitals.all (fun p => p.1.blt lo || hi.blt p.1) && capitalRuns.all (·.apart lo hi step)

/-- The capitals of a run are fixed. -/
def CapitalRun.fixed (r : CapitalRun) : Bool :=
  0 ≤ (r.first : Int) + r.shift && fixedCodes (r.first + r.shift).toNat (r.last + r.shift).toNat r.step

theorem capitalRuns_fixed : capitalRuns.all (·.fixed) = true := by
  decide +kernel

theorem longCapitals_fixed : longCapitals.all (fun p => p.2.head?.any fun n => fixedCodes n n 1) = true := by
  decide +kernel

theorem toUpper_fixed : ∀ n < 0x80, capital (Char.ofNat n).toUpper = [(Char.ofNat n).toUpper] := by
  decide +kernel

theorem CapitalRun.holds_eq_false {q : CapitalRun} {lo hi step n : Nat} (h : q.apart lo hi step = true)
    (hlo : lo ≤ n) (hhi : n ≤ hi) (hstep : (n - lo) % step = 0) : q.holds n = false := by
  rw [Bool.eq_false_iff]
  intro hholds
  simp only [CapitalRun.holds, CapitalRun.apart, Bool.and_eq_true, Bool.or_eq_true, decide_eq_true_eq, beq_iff_eq,
    Nat.blt_eq, Nat.beq_eq, Bool.not_eq_true'] at h hholds
  obtain ⟨⟨hfirst, hlast⟩, hq⟩ := hholds
  rcases h with (h | h) | ⟨⟨hq2, hs | hs⟩, hparity⟩
  · omega
  · omega
  · have hparity := Nat.ne_of_beq_eq_false hparity
    rw [hq2] at hq
    rw [hs] at hstep
    omega
  · have hparity := Nat.ne_of_beq_eq_false hparity
    rw [hq2] at hq
    omega

theorem capital_of_fixedCodes {lo hi step n : Nat} (h : fixedCodes lo hi step = true) (hlo : lo ≤ n) (hhi : n ≤ hi)
    (hstep : (n - lo) % step = 0) : capital (Char.ofNat n) = [Char.ofNat n] := by
  simp only [fixedCodes, Bool.and_eq_true, Bool.or_eq_true, decide_eq_true_eq, beq_iff_eq, List.all_eq_true,
    Nat.blt_eq] at h
  obtain ⟨⟨hascii, hlong⟩, hruns⟩ := h
  rcases toNat_ofNat n with hcode | hcode
  · unfold capital
    split
    · rcases hascii with hbeyond | ⟨hsame, hupper⟩
      · omega
      · rw [show n = lo by omega, hupper]
    · have hlookup : longCapitals.lookup (Char.ofNat n).toNat = none := by
        rw [hcode, List.lookup_eq_none_iff]
        intro p hp
        rw [bne_iff_ne]
        rcases hlong p hp with hlow | hhigh <;> omega
      have hfind : capitalRuns.find? (·.holds (Char.ofNat n).toNat) = none := by
        rw [hcode, List.find?_eq_none]
        intro q hq
        rw [CapitalRun.holds_eq_false (hruns q hq) hlo hhi hstep]
        exact Bool.false_ne_true
      rw [hlookup, hfind]
  · have hzero : Char.ofNat n = Char.ofNat 0 := by rw [← Char.ofNat_toNat (Char.ofNat n), hcode]
    rw [hzero]
    rfl

theorem CapitalRun.capital_shifted {r : CapitalRun} (h : r ∈ capitalRuns) {n : Nat} (hn : r.holds n = true) :
    capital (Char.ofNat (n + r.shift).toNat) = [Char.ofNat (n + r.shift).toNat] := by
  have hfixed := List.all_eq_true.1 capitalRuns_fixed r h
  simp only [CapitalRun.fixed, CapitalRun.holds, Bool.and_eq_true, decide_eq_true_eq, beq_iff_eq] at hfixed hn
  obtain ⟨hpositive, hcodes⟩ := hfixed
  obtain ⟨⟨hfirst, hlast⟩, hstep⟩ := hn
  refine capital_of_fixedCodes hcodes (by omega) (by omega) ?_
  rw [show (n + r.shift).toNat - (r.first + r.shift).toNat = n - r.first by omega]
  exact hstep

/-- A capital begins with a character that is its own capital. -/
theorem capital_head (c : Char) : ∃ d rest, capital c = d :: rest ∧ capital d = [d] := by
  by_cases hascii : c.toNat < 0x80
  · refine ⟨c.toUpper, [], by simp [capital, hascii], ?_⟩
    have h := toUpper_fixed c.toNat hascii
    rwa [Char.ofNat_toNat] at h
  cases hlookup : longCapitals.lookup c.toNat with
  | some codes =>
      obtain ⟨before, after, hlist, -⟩ := List.lookup_eq_some_iff.1 hlookup
      have hmem : (c.toNat, codes) ∈ longCapitals := by rw [hlist]; simp
      have hfixed := List.all_eq_true.1 longCapitals_fixed _ hmem
      cases codes with
      | nil => cases hfixed
      | cons n codes =>
          refine ⟨Char.ofNat n, codes.map Char.ofNat, by simp [capital, hascii, hlookup], ?_⟩
          exact capital_of_fixedCodes hfixed (Nat.le_refl n) (Nat.le_refl n) (by simp)
  | none =>
      cases hfind : capitalRuns.find? (·.holds c.toNat) with
      | some r =>
          refine ⟨Char.ofNat (c.toNat + r.shift).toNat, [], by simp [capital, hascii, hlookup, hfind], ?_⟩
          have hholds : r.holds c.toNat = true := by simpa using List.find?_some hfind
          exact CapitalRun.capital_shifted (List.mem_of_find?_eq_some hfind) hholds
      | none =>
          have hown : capital c = [c] := by simp [capital, hascii, hlookup, hfind]
          exact ⟨c, [], hown, hown⟩

/-! ## Texts -/

theorem capitalize_append {s : String} (hs : s ≠ "") (t : String) : capitalize (s ++ t) = capitalize s ++ t := by
  rw [← String.toList_inj]
  cases hchars : s.toList with
  | nil => exact absurd (String.toList_eq_nil_iff.1 hchars) hs
  | cons c rest => simp [capitalize, hchars]

/-- A text with its capital letter stays as it is, whatever follows. -/
theorem capitalize_append_eq_self {s : String} (hs : s ≠ "") (t : String) :
    capitalize (s ++ t) = s ++ t ↔ capitalize s = s := by
  rw [capitalize_append hs]
  exact ⟨fun h => String.append_left_inj t |>.1 h, fun h => by rw [h]⟩

theorem capitalize_capitalize (s : String) : capitalize (capitalize s) = capitalize s := by
  cases hchars : s.toList with
  | nil => simp [capitalize, hchars]
  | cons c rest =>
      obtain ⟨d, tail, hcapital, hown⟩ := capital_head c
      rw [← String.toList_inj]
      simp [capitalize, hchars, hcapital, hown]

end ProtocolTypings.Text
