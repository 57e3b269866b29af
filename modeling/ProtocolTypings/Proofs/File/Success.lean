import ProtocolTypings.Proofs.File.Requests

/-!
# Requests that succeed

When a request is sure to succeed. A temporary file can be made beside a path wherever one could be made before, as
long as one of the shortest names for it is free.
-/

namespace ProtocolTypings

/-! ## Permission bits -/

namespace Mode

theorem testBit_drop (m : Mode) (i j : Nat) : (m.drop i).bits.testBit j = (m.bits.testBit j && decide (j ≠ i)) := by
  rw [drop]
  split
  · rename_i hset
    -- the number above the bit, and below it
    obtain ⟨high, low, hlow, hbits⟩ : ∃ high low, low < 2 ^ i ∧ m.bits = 2 ^ (i + 1) * high + (2 ^ i + low) := by
      have hmod : m.bits / 2 ^ i % 2 = 1 := by simpa [Nat.testBit_eq_decide_div_mod_eq] using hset
      refine ⟨m.bits / 2 ^ i / 2, m.bits % 2 ^ i, Nat.mod_lt _ (Nat.two_pow_pos i), ?_⟩
      have hhalf := Nat.div_add_mod (m.bits / 2 ^ i) 2
      rw [hmod] at hhalf
      calc m.bits = 2 ^ i * (m.bits / 2 ^ i) + m.bits % 2 ^ i := (Nat.div_add_mod _ _).symm
        _ = 2 ^ i * (2 * (m.bits / 2 ^ i / 2) + 1) + m.bits % 2 ^ i := by rw [hhalf]
        _ = _ := by rw [Nat.pow_succ, Nat.mul_add, ← Nat.mul_assoc, Nat.mul_one, Nat.add_assoc]
    have hrest : m.bits - Nat.pow 2 i = 2 ^ (i + 1) * high + low := by
      show m.bits - 2 ^ i = _
      omega
    have hsucc : 2 ^ (i + 1) = 2 * 2 ^ i := Nat.pow_succ'
    rw [hrest, hbits, Nat.testBit_two_pow_mul_add _ (by omega), Nat.testBit_two_pow_mul_add _ (by omega)]
    rcases Nat.lt_trichotomy j i with hj | rfl | hj
    · rw [if_pos (by omega), if_pos (by omega), Nat.testBit_two_pow_add_gt hj]
      simp [Nat.ne_of_lt hj]
    · rw [if_pos (by omega)]
      simp [Nat.testBit_lt_two_pow hlow]
    · rw [if_neg (by omega), if_neg (by omega)]
      simp [Nat.ne_of_gt hj]
  · rename_i hclear
    by_cases hj : j = i
    · subst hj
      simp [hclear]
    · simp [hj]

theorem drop_of_clear {m : Mode} {i : Nat} (h : m.bits.testBit i = false) : m.drop i = m := by
  rw [drop, if_neg (by simp [h])]

theorem testBit_written (m : Mode) {i : Nat} (hi : i ≠ 10) (hi' : i ≠ 11) :
    m.written.bits.testBit i = m.bits.testBit i := by
  rw [written]
  split <;> simp [testBit_drop, hi, hi']

theorem readable_written (m : Mode) : m.written.readable = m.readable :=
  m.testBit_written (by decide) (by decide)

theorem writable_written (m : Mode) : m.written.writable = m.writable :=
  m.testBit_written (by decide) (by decide)

/-- A file that has been written keeps its mode when it is written again. -/
theorem written_written (m : Mode) : m.written.written = m.written := by
  have hfirst : m.written.drop 11 = m.written := by
    refine drop_of_clear ?_
    rw [written]
    split <;> simp [testBit_drop]
  rw [written, hfirst]
  split
  · rename_i hruns
    rw [m.testBit_written (by decide) (by decide)] at hruns
    refine drop_of_clear ?_
    rw [written, if_pos (by simp [testBit_drop, hruns])]
    simp [testBit_drop]
  · rfl

end Mode

namespace FileTree

variable {root root' : FileTree} {p : Path} {l : List String}

/-! ## Files -/

theorem find_of_locate {tree : FileTree} (hl : root.locate p = .ok l) (htree : root.entryAt l = some tree) :
    root.find p = .ok tree := by
  rw [find, hl, ok_bind, htree]

theorem find_eq_ok {tree : FileTree} (h : root.find p = .ok tree) :
    ∃ l, root.locate p = .ok l ∧ root.entryAt l = some tree := by
  obtain ⟨l, hl, h⟩ := bind_eq_ok.1 h
  refine ⟨l, hl, ?_⟩
  split at h
  · rename_i hentry
    cases h
    exact hentry
  · cases h

theorem read_of_file {f : StoredFile} (hl : root.locate p = .ok l) (hfile : root.nodeAt l = some (.file f)) :
    root.read p = if f.mode.readable then .ok f.bytes else .error .notPermitted := by
  rw [read, find_of_locate hl (nodeAt_eq_file.1 hfile), ok_bind]

theorem makeFolder_of_folder {mode : Mode} (hl : root.locate p = .ok l)
    (hfolder : root.nodeAt l = some (.folder mode)) : root.makeFolder p = .error .exists := by
  obtain ⟨entries, hentry⟩ := nodeAt_eq_folder.1 hfolder
  rw [makeFolder, hl, ok_bind, hentry]
  rfl

theorem write_of_writable {f : StoredFile} (bytes : ByteArray) (hl : root.locate p = .ok l)
    (hfile : root.nodeAt l = some (.file f)) (hwritable : f.mode.writable = true) :
    ∃ root', root.write p bytes = .ok root' ∧ WithFile l ⟨f.mode.written, bytes⟩ root root' := by
  refine ⟨_, ?_, nodeAt_put_file (rooted_locate hl) (by simp [hfile]) _⟩
  rw [write, hl, ok_bind, nodeAt_eq_file.1 hfile]
  exact if_pos hwritable

theorem setMode_of_file {f : StoredFile} (mode : Mode) (hl : root.locate p = .ok l)
    (hfile : root.nodeAt l = some (.file f)) :
    ∃ root', root.setMode p mode = .ok root' ∧ WithFile l { f with mode } root root' := by
  refine ⟨_, ?_, nodeAt_put_file (rooted_locate hl) (by simp [hfile]) _⟩
  rw [setMode, hl, ok_bind, nodeAt_eq_file.1 hfile]

theorem move_of_replaceable {source : Path} {s : List String} {f : StoredFile} (hs : root.locate source = .ok s)
    (hfile : root.nodeAt s = some (.file f)) (hmay : root.mayChange s = true) (hl : root.locate p = .ok l)
    (hreplaceable : root.Replaceable p l) : ∃ root', root.move source p = .ok root' := by
  have hbusy : ¬ (p.name = ".." || p.components.isEmpty) = true := by
    simp [hreplaceable.name, hreplaceable.components]
  rw [move, hs, ok_bind, hl, ok_bind, nodeAt_eq_file.1 hfile]
  dsimp only
  rw [if_neg hbusy, hmay, hreplaceable.mayChange]
  cases hentry : root.entryAt l with
  | none => exact ⟨_, rfl⟩
  | some tree =>
      cases tree with
      | file g => exact ⟨_, rfl⟩
      | folder mode entries => exact absurd (nodeAt_eq_folder.2 ⟨entries, hentry⟩) (hreplaceable.noFolder mode)

/-! ## Names of temporary files -/

theorem utf8ByteSize_of_digits {cs : List Char} (h : ∀ c ∈ cs, c.isDigit) :
    (String.ofList cs).utf8ByteSize = cs.length := by
  induction cs with
  | nil => rfl
  | cons c cs ih =>
      have hsize : c.utf8Size = 1 := by
        have hc := h c List.mem_cons_self
        simp only [Char.isDigit, Bool.and_eq_true, decide_eq_true_eq] at hc
        exact Char.utf8Size_eq_one_iff.2 (UInt32.le_trans hc.2 (by decide))
      rw [String.ofList_cons, String.utf8ByteSize_append, String.utf8ByteSize_singleton, hsize,
        ih fun d hd => h d (List.mem_cons_of_mem c hd), List.length_cons, Nat.add_comm]

theorem isDigit_of_mem {i n : Nat} {c : Char} (h : c ∈ List.replicate n '0' ++ Nat.toDigits 10 i) :
    c.isDigit := by
  rcases List.mem_append.1 h with h | h
  · rw [List.eq_of_mem_replicate h]
    rfl
  · exact Nat.isDigit_of_mem_toDigits (by decide) (by decide) h

theorem utf8ByteSize_temporaryName (label : String) (i : Nat) :
    (temporaryName label i).utf8ByteSize = label.utf8ByteSize + 6 + max 8 (Nat.toDigits 10 i).length := by
  have hdigits : ∀ n, (String.ofList (List.replicate n '0' ++ Nat.toDigits 10 i)).utf8ByteSize =
      n + (Nat.toDigits 10 i).length := by
    intro n
    rw [utf8ByteSize_of_digits fun c hc => isDigit_of_mem hc, List.length_append, List.length_replicate]
  have hpoint : ".".utf8ByteSize = 1 := by decide
  have hending : ".tmp".utf8ByteSize = 4 := by decide
  simp only [temporaryName, String.utf8ByteSize_append, hdigits, hpoint, hending]
  omega

/-- There are no shorter names than those with eight digits. -/
theorem utf8ByteSize_temporaryName_le {i : Nat} (hi : i < 100000000) (label : String) (j : Nat) :
    (temporaryName label i).utf8ByteSize ≤ (temporaryName label j).utf8ByteSize := by
  have hlength : (Nat.toDigits 10 i).length ≤ 8 := (Nat.length_toDigits_le_iff (by decide) (by decide)).2 hi
  rw [utf8ByteSize_temporaryName, utf8ByteSize_temporaryName]
  omega

theorem null_mem_temporaryName {label : String} {i : Nat} :
    '\x00' ∈ (temporaryName label i).toList ↔ '\x00' ∈ label.toList := by
  have hdigits : '\x00' ∉ List.replicate (8 - (Nat.toDigits 10 i).length) '0' ++ Nat.toDigits 10 i := by
    intro h
    exact absurd (isDigit_of_mem h) (by decide)
  rw [List.mem_append, not_or] at hdigits
  simp [temporaryName, hdigits.2]

/-- The name that is taken has no greater number than any other that is free. -/
theorem exists_freeName {label : String} {entries : List (String × FileTree)} {i : Nat}
    (hfree : entries.lookup (temporaryName label i) = none) :
    ∃ j, j ≤ i ∧ freeName label entries = temporaryName label j := by
  rw [freeName, List.find?_map]
  cases hfind : List.find? _ _ with
  | none => exact ⟨0, Nat.zero_le i, rfl⟩
  | some j =>
      refine ⟨j, Decidable.byContradiction fun hlt => ?_, rfl⟩
      have htaken := (List.find?_range_eq_some.1 hfind).2.2 i (by omega)
      simp [hfree] at htaken

/-! ## Making temporary files -/

theorem utf8ByteSize_intercalate_concat (separator a b : String) (cs : List String) :
    (separator.intercalate (cs ++ [a])).utf8ByteSize + b.utf8ByteSize =
      (separator.intercalate (cs ++ [b])).utf8ByteSize + a.utf8ByteSize := by
  induction cs with
  | nil => simp [Nat.add_comm]
  | cons c cs ih =>
      cases cs with
      | nil =>
          simp
          omega
      | cons d ds =>
          simp only [List.cons_append, String.intercalate_cons_cons, String.utf8ByteSize_append] at ih ⊢
          omega

theorem utf8ByteSize_text_extend (folder : Path) (a b : String) :
    (folder.extend [a]).text.utf8ByteSize + b.utf8ByteSize =
      (folder.extend [b]).text.utf8ByteSize + a.utf8ByteSize := by
  have hsize := utf8ByteSize_intercalate_concat "/" a b folder.components
  simp only [Path.text, Path.extend, String.utf8ByteSize_append]
  omega

section

variable {folder : Path} {c : String} {s : List String} (hl : root.locate folder = .ok l) (hpair : c ≠ "..")
  (h : root.locate (folder.extend [c]) = .ok s)

include hl hpair h

theorem fits_of_locate : c.utf8ByteSize ≤ maxName ∧ (folder.extend [c]).text.utf8ByteSize ≤ maxPath := by
  obtain ⟨-, -, hlfollow⟩ := locate_eq_ok.1 hl
  obtain ⟨-, htext, hfollow⟩ := locate_eq_ok.1 h
  refine ⟨?_, htext⟩
  rw [Path.extend, follow_append, hlfollow, ok_bind, follow] at hfollow
  split at hfollow
  · cases hfollow
  · cases hfollow
  · rw [if_neg hpair] at hfollow
    split at hfollow
    · cases hfollow
    · split at hfollow
      · cases hfollow
      · omega

/-- Where a path with one more component leads somewhere, so does the one with another name that is not too long. -/
theorem locate_extend_of_fits {other : String} (hpair' : other ≠ "..") (hname : other.utf8ByteSize ≤ maxName)
    (htext : (folder.extend [other]).text.utf8ByteSize ≤ maxPath) (hnull : '\x00' ∈ other.toList → '\x00' ∈ c.toList) :
    root.locate (folder.extend [other]) = .ok (l ++ [other]) := by
  obtain ⟨hlnull, -, hlfollow⟩ := locate_eq_ok.1 hl
  obtain ⟨hnull', -, hfollow⟩ := locate_eq_ok.1 h
  refine locate_eq_ok.2 ⟨?_, htext, ?_⟩
  · simp only [Path.hasNull, Path.extend, List.any_append, Bool.or_eq_false_iff] at hlnull hnull' ⊢
    have hlast : '\x00' ∉ c.toList := by simpa using hnull'.2
    refine ⟨hlnull, ?_⟩
    simpa using mt hnull hlast
  · rw [Path.extend, follow_append, hlfollow, ok_bind, follow] at hfollow ⊢
    split at hfollow
    · cases hfollow
    · cases hfollow
    · split at hfollow
      · cases hfollow
      · rename_i hsearchable
        rw [if_neg hsearchable, if_neg hpair', if_neg (by omega)]
        rfl

end

/-- One of the shortest names for temporary files is free beside the path. -/
def HasRoom (root : FileTree) (p : Path) : Prop :=
  ∃ l, root.locate p.parent = .ok l ∧ ∃ i < 100000000, root.nodeAt (l ++ [temporaryName p.name i]) = none

/-- A temporary file could have been made beside the path. -/
def Allows (root : FileTree) (p : Path) : Prop :=
  ∃ l mode, root.locate p.parent = .ok l ∧ root.nodeAt l = some (.folder mode) ∧ mode.writable = true ∧
    ∃ i s, root.locate (p.parent.extend [temporaryName p.name i]) = .ok s

theorem allows_of_makeTemporary {q : Path} (h : root.makeTemporary p.parent p.name = .ok (root', q)) :
    root.Allows p := by
  obtain ⟨l, hl, h⟩ := bind_eq_ok.1 h
  split at h
  · rename_i mode entries hentry
    obtain ⟨s, hs, h⟩ := bind_eq_ok.1 h
    obtain ⟨tree, hmake, -⟩ := bind_eq_ok.1 h
    obtain ⟨mode', hfolder, hwritable⟩ := mayChange_iff.1 (make_eq_ok hmake).1
    obtain rfl := locate_extend (freeName_ne_pair p.name entries) hl hs
    rw [List.dropLast_concat] at hfolder
    obtain ⟨i, hname⟩ := freeName_eq_temporaryName p.name entries
    rw [hname] at hs
    exact ⟨l, mode', hl, hfolder, hwritable, i, _, hs⟩
  · cases h
  · cases h

theorem makeTemporary_of_hasRoom (hallows : root.Allows p) (hroom : root.HasRoom p) :
    ∃ root' temporary, root.makeTemporary p.parent p.name = .ok (root', temporary) := by
  obtain ⟨l, mode, hl, hfolder, hwritable, i, s, hs⟩ := hallows
  obtain ⟨l', hl', j, hj, hfree⟩ := hroom
  obtain rfl : l = l' := Except.ok.inj (hl.symm.trans hl')
  obtain ⟨entries, hentry⟩ := nodeAt_eq_folder.1 hfolder
  have hlookup : entries.lookup (temporaryName p.name j) = none := by
    rwa [nodeAt_concat hentry, Option.map_eq_none_iff] at hfree
  obtain ⟨k, hk, hname⟩ := exists_freeName hlookup
  have hshort := utf8ByteSize_temporaryName_le (i := k) (by omega) p.name i
  have hfits := fits_of_locate hl (temporaryName_ne_pair _ _) hs
  have htext := utf8ByteSize_text_extend p.parent (temporaryName p.name k) (temporaryName p.name i)
  have hlocate : root.locate (p.parent.extend [temporaryName p.name k]) = .ok (l ++ [temporaryName p.name k]) :=
    locate_extend_of_fits hl (temporaryName_ne_pair _ _) hs (temporaryName_ne_pair _ _) (by omega) (by omega) fun h =>
      null_mem_temporaryName.2 (null_mem_temporaryName.1 h)
  have hmay : root.mayChange (l ++ [temporaryName p.name k]) = true := by
    rw [mayChange_iff, List.dropLast_concat]
    exact ⟨mode, hfolder, hwritable⟩
  rw [makeTemporary, hl, ok_bind, hentry]
  dsimp only
  rw [hname, hlocate, ok_bind, make, if_pos hmay, ok_bind, pure_eq_ok]
  exact ⟨_, _, rfl⟩

end FileTree

end ProtocolTypings
