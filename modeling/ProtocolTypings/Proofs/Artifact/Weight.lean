import ProtocolTypings.Artifact.Validation
import ProtocolTypings.Proofs.Text.Lines
import ProtocolTypings.Proofs.Text.Plain
import ProtocolTypings.Typing.Sheet

/-!
# What a text weighs in the check

How often a brace counts in a text. The counts of texts that end in a line feed add up. In a text without stars every
line is code; a line that starts like a comment counts for nothing.
-/

namespace ProtocolTypings

open Artifact
open Text (endsLine isMarker Plain OneLine)

/-- How often a character counts in the code of a text. -/
def weight (c : Char) (s : String) : Nat :=
  countIn c (codeLines s)

theorem countIn_eq (c : Char) (lines : List String) : countIn c lines = (lines.flatMap String.toList).count c := by
  induction lines with
  | nil => rfl
  | cons line rest ih => rw [countIn, ih, List.flatMap_cons, List.count_append]

theorem countIn_append (c : Char) (lines more : List String) :
    countIn c (lines ++ more) = countIn c lines + countIn c more := by
  rw [countIn_eq, countIn_eq, countIn_eq, List.flatMap_append, List.count_append]

/-- A text of whole lines. -/
def Whole (s : String) : Prop :=
  s = "" ∨ ∃ t, s = t ++ "\n"

theorem Whole.append {s t : String} (hs : Whole s) (ht : Whole t) : Whole (s ++ t) := by
  rcases ht with rfl | ⟨t, rfl⟩
  · rwa [String.append_empty]
  · exact .inr ⟨s ++ t, by rw [String.append_assoc]⟩

/-- The lines behind whole lines follow them. -/
theorem Whole.lines_append {s : String} (hs : Whole s) (t : String) :
    Text.lines (s ++ t) = Text.lines s ++ Text.lines t := by
  rcases hs with rfl | ⟨s, rfl⟩
  · rw [String.empty_append]
    rfl
  · have hfeed : "\n".toList = ['\n'] := rfl
    simp only [Text.lines, String.toList_append, hfeed, List.append_assoc, List.singleton_append,
      Text.linesFrom_append [] s.toList t.toList, List.map_append]

theorem lines_line {line : String} (h : OneLine line) : Text.lines (line ++ "\n") = [line] := by
  rw [Text.lines, String.toList_append]
  show (Text.linesFrom [] (line.toList ++ ['\n'])).map String.ofList = _
  rw [Text.linesFrom_of_noBoundary h []]
  simp

theorem Whole.codeLines_append {s : String} (hs : Whole s) (t : String) :
    codeLines (s ++ t) = codeLines s ++ codeLines t := by
  rw [codeLines, hs.lines_append, List.filter_append]
  rfl

/-- What stands behind whole lines counts for itself. -/
theorem weight_append {s : String} (hs : Whole s) (c : Char) (t : String) :
    weight c (s ++ t) = weight c s + weight c t := by
  rw [weight, hs.codeLines_append, countIn_append]
  rfl

/-! ## Code -/

theorem isCommentLine_eq_false {line : String} (h : '*' ∉ line.toList) : isCommentLine line = false := by
  have hdrop : '*' ∉ Text.dropBlanks line.toList := fun hmem => h ((List.dropWhile_sublist _).subset hmem)
  unfold isCommentLine
  split
  · rename_i heq
    rw [heq] at hdrop
    simp at hdrop
  · rename_i heq
    rw [heq] at hdrop
    simp at hdrop
  · rfl

/-- Where no star is, every line is code. -/
theorem weight_of_noStar {s : String} (hs : '*' ∉ s.toList) {c : Char} (hc : endsLine c = false) :
    weight c s = s.toList.count c := by
  have hcode : codeLines s = Text.lines s := by
    refine List.filter_eq_self.2 fun line hline => ?_
    obtain ⟨chars, hchars, rfl⟩ := List.mem_map.1 hline
    have hstar : '*' ∉ (String.ofList chars).toList := by
      intro hmem
      rw [String.toList_ofList] at hmem
      rcases Text.mem_of_mem_linesFrom hchars '*' hmem with hnil | htext
      · cases hnil
      · exact hs htext
    rw [isCommentLine_eq_false hstar]
    rfl
  have hcount := Text.count_linesFrom hc [] s.toList
  rw [List.count_nil, Nat.zero_add] at hcount
  rw [weight, hcode, countIn_eq, Text.lines, List.flatMap_map, ← hcount]
  simp

/-! ## Comments -/

/-- A text of spaces and tabs. -/
def Margin (s : String) : Prop :=
  ∀ c ∈ s.toList, c = ' ' ∨ c = '\t'

instance (s : String) : Decidable (Margin s) :=
  List.decidableBAll (fun c => c = ' ' ∨ c = '\t') s.toList

theorem Margin.isBlank {s : String} (h : Margin s) : ∀ c ∈ s.toList, Text.isBlank c = true := by
  intro c hc
  rcases h c hc with rfl | rfl <;> decide

theorem Margin.oneLine {s : String} (h : Margin s) : OneLine s := by
  intro c hc
  rcases h c hc with rfl | rfl <;> decide

/-- The margin of a line with so many open blocks around it. -/
def margin (indent : String) (k : Nat) : String :=
  String.ofList (copies k indent.toList)

theorem margin_zero (indent : String) : margin indent 0 = "" := by
  rw [← String.toList_inj, margin, String.toList_ofList, copies_eq_flatten]
  rfl

theorem margin_add (indent : String) (k d : Nat) : margin indent (k + d) = margin indent k ++ margin indent d := by
  rw [← String.toList_inj, String.toList_append]
  simp only [margin, String.toList_ofList, copies_eq_flatten]
  rw [← List.replicate_append_replicate, List.flatten_append]

theorem mem_of_mem_margin {indent : String} {k : Nat} {c : Char} (h : c ∈ (margin indent k).toList) :
    c ∈ indent.toList := by
  rw [margin, String.toList_ofList, copies_eq_flatten] at h
  obtain ⟨chars, hchars, hc⟩ := List.mem_flatten.1 h
  rwa [List.eq_of_mem_replicate hchars] at hc

theorem margin_margin {indent : String} (h : Margin indent) (k : Nat) : Margin (margin indent k) :=
  fun c hc => h c (mem_of_mem_margin hc)

theorem isCommentLine_margin {margin : String} (h : Margin margin) (text : String) :
    isCommentLine (margin ++ text) = isCommentLine text := by
  simp only [isCommentLine, String.toList_append, Text.dropBlanks, List.dropWhile_append_of_pos h.isBlank]

theorem isCommentLine_starred (text : String) : isCommentLine (" * " ++ text) = true := by
  simp [isCommentLine, Text.dropBlanks, Text.isBlank]

theorem oneLine_starred {text : String} (h : OneLine text) : OneLine (" * " ++ text) := by
  have hstart : OneLine " * " := by decide
  exact hstart.append h

/-- Whole lines without any code. -/
structure Commentary (s : String) : Prop where
  whole : Whole s
  noCode : codeLines s = []

theorem Commentary.empty : Commentary "" :=
  ⟨.inl rfl, rfl⟩

theorem Commentary.append {s t : String} (hs : Commentary s) (ht : Commentary t) : Commentary (s ++ t) :=
  ⟨hs.whole.append ht.whole, by rw [hs.whole.codeLines_append, hs.noCode, ht.noCode, List.append_nil]⟩

/-- A line that starts like a comment is no code. -/
theorem Commentary.line {margin text : String} (hmargin : Margin margin) (hcomment : isCommentLine text = true)
    (htext : OneLine text) : Commentary (margin ++ text ++ "\n") where
  whole := .inr ⟨_, rfl⟩
  noCode := by
    rw [codeLines, lines_line (hmargin.oneLine.append htext), List.filter_cons, isCommentLine_margin hmargin, hcomment]
    rfl

/-! ## Weights -/

/-- Whole lines in the code of which there are so many opening and closing braces. -/
structure Weighs (s : String) (opened closed : Nat) : Prop where
  whole : Whole s
  opened : weight '\x7b' s = opened
  closed : weight '\x7d' s = closed

theorem Weighs.empty : Weighs "" 0 0 :=
  ⟨.inl rfl, by decide, by decide⟩

theorem Weighs.append {s t : String} {m n m' n' : Nat} (hs : Weighs s m n) (ht : Weighs t m' n') :
    Weighs (s ++ t) (m + m') (n + n') where
  whole := hs.whole.append ht.whole
  opened := by rw [weight_append hs.whole, hs.opened, ht.opened]
  closed := by rw [weight_append hs.whole, hs.closed, ht.closed]

theorem Weighs.line {margin text : String} (hmargin : Margin margin) (htext : '*' ∉ text.toList) :
    Weighs (margin ++ text ++ "\n") (text.toList.count '\x7b') (text.toList.count '\x7d') := by
  have hstar : '*' ∉ (margin ++ text ++ "\n").toList := by
    intro hmem
    simp only [String.toList_append, List.mem_append] at hmem
    rcases hmem with (hmem | hmem) | hmem
    · rcases hmargin _ hmem with h | h <;> exact absurd h (by decide)
    · exact htext hmem
    · exact absurd hmem (by decide)
  have hcount (c : Char) (hc : c ≠ ' ' ∧ c ≠ '\t' ∧ c ≠ '\n') :
      (margin ++ text ++ "\n").toList.count c = text.toList.count c := by
    obtain ⟨hspace, htab, hfeed⟩ := hc
    have hzero : margin.toList.count c = 0 := by
      rw [List.count_eq_zero]
      intro hmem
      rcases hmargin c hmem with rfl | rfl
      · exact hspace rfl
      · exact htab rfl
    have hend : "\n".toList.count c = 0 := by
      rw [List.count_eq_zero]
      intro hmem
      exact hfeed (List.mem_singleton.1 hmem)
    rw [String.toList_append, String.toList_append, List.count_append, List.count_append, hzero, hend]
    omega
  exact {
    whole := .inr ⟨_, rfl⟩
    opened := by rw [weight_of_noStar hstar (by decide), hcount _ (by decide)]
    closed := by rw [weight_of_noStar hstar (by decide), hcount _ (by decide)] }

theorem Commentary.weighs {s : String} (h : Commentary s) : Weighs s 0 0 :=
  ⟨h.whole, by rw [weight, h.noCode]; rfl, by rw [weight, h.noCode]; rfl⟩

theorem count_eq_zero_of_plain {s : String} (h : Plain s) {c : Char} (hc : isMarker c = true) : s.toList.count c = 0 := by
  rw [List.count_eq_zero]
  intro hmem
  rw [h c hmem] at hc
  cases hc

theorem Weighs.opening {margin text : String} (hmargin : Margin margin) (h : Plain text) :
    Weighs (margin ++ (text ++ " \x7b") ++ "\n") 1 0 := by
  have hstar : '*' ∉ (text ++ " \x7b").toList := by
    rw [String.toList_append]
    intro hmem
    rcases List.mem_append.1 hmem with hmem | hmem
    · exact absurd (h _ hmem) (by decide)
    · exact absurd hmem (by decide)
  have hline := Weighs.line hmargin hstar
  rwa [String.toList_append, List.count_append, List.count_append, count_eq_zero_of_plain h (by decide),
    count_eq_zero_of_plain h (by decide)] at hline

theorem Weighs.closing {margin : String} (hmargin : Margin margin) : Weighs (margin ++ "\x7d" ++ "\n") 0 1 :=
  Weighs.line hmargin (by decide)

/-! ## Even texts -/

/-- A text without stars that closes every brace that it opens. -/
structure Even (s : String) : Prop where
  noStar : '*' ∉ s.toList
  braces : s.toList.count '\x7b' = s.toList.count '\x7d'

instance (s : String) : Decidable (Even s) :=
  decidable_of_iff ('*' ∉ s.toList ∧ s.toList.count '\x7b' = s.toList.count '\x7d')
    ⟨fun ⟨hstar, hbraces⟩ => ⟨hstar, hbraces⟩, fun h => ⟨h.noStar, h.braces⟩⟩

namespace Even

theorem append {s t : String} (hs : Even s) (ht : Even t) : Even (s ++ t) where
  noStar := by
    rw [String.toList_append]
    intro hmem
    rcases List.mem_append.1 hmem with hmem | hmem
    · exact hs.noStar hmem
    · exact ht.noStar hmem
  braces := by
    rw [String.toList_append, List.count_append, List.count_append, hs.braces, ht.braces]

theorem braced {s : String} (hs : Even s) : Even ("\x7b\n" ++ s ++ "\x7d") where
  noStar := by
    simp only [String.toList_append, List.mem_append]
    rintro ((h | h) | h)
    · exact absurd h (by decide)
    · exact hs.noStar h
    · exact absurd h (by decide)
  braces := by
    have hopen : "\x7b\n".toList.count '\x7b' = 1 ∧ "\x7b\n".toList.count '\x7d' = 0 := by decide
    have hclose : "\x7d".toList.count '\x7b' = 0 ∧ "\x7d".toList.count '\x7d' = 1 := by decide
    have hbraces := hs.braces
    simp only [String.toList_append, List.count_append]
    omega

theorem of_plain {s : String} (h : Plain s) : Even s where
  noStar := fun hmem => absurd (h _ hmem) (by decide)
  braces := by rw [count_eq_zero_of_plain h (by decide), count_eq_zero_of_plain h (by decide)]

theorem of_margin {s : String} (h : Margin s) : Even s :=
  of_plain fun c hc => by rcases h c hc with rfl | rfl <;> decide

theorem weighs_line {margin text : String} (h : Even text) (hmargin : Margin margin) :
    ∃ n, Weighs (margin ++ text ++ "\n") n n := by
  have hline := Weighs.line hmargin h.noStar
  rw [h.braces] at hline
  exact ⟨_, hline⟩

end Even

end ProtocolTypings
