import ProtocolTypings.Proofs.Artifact.Weight

/-!
# Lines that stand where their braces say

A line of code stands as many steps from the margin as blocks are open before it, and one less if it starts with the
brace that closes one. A line of a comment stands with the code around it.
-/

namespace ProtocolTypings

open Artifact
open Text (OneLine Neat Headed)

/-- How many blocks the code in the lines opens and leaves open. -/
def rise (lines : List String) : Int :=
  let code := lines.filter (!isCommentLine ·)
  countIn '\x7b' code - countIn '\x7d' code

/-- The line stands at a depth. -/
def Aligned (indent : String) (depth : Int) (line : String) : Prop :=
  ∃ k text, line = margin indent k ++ text ∧
    depth = k + (if text.toList.head? = some '\x7d' then 1 else 0) ∧
    if isCommentLine line then ∃ rest, text = "/**" ++ rest ∨ text = " *" ++ rest else Headed text

/-- Whole lines that lead from one depth to another, and stand where their braces say. -/
structure Lays (indent text : String) (d d' : Nat) : Prop where
  whole : Whole text
  rises : d + rise (Text.lines text) = d'
  aligned : ∀ before line after, Text.lines text = before ++ line :: after → line ≠ "" →
    Aligned indent (d + rise before) line

theorem rise_append (lines more : List String) : rise (lines ++ more) = rise lines + rise more := by
  simp only [rise, List.filter_append, countIn_append]
  omega

namespace Lays

variable {indent s t : String} {d d' d'' : Nat}

theorem empty : Lays indent "" d d where
  whole := .inl rfl
  rises := by simp [rise, Text.lines, Text.linesFrom, countIn]
  aligned := by
    intro before line after h
    simp [Text.lines, Text.linesFrom] at h

theorem append (hs : Lays indent s d d') (ht : Lays indent t d' d'') : Lays indent (s ++ t) d d'' where
  whole := hs.whole.append ht.whole
  rises := by
    have hfirst := hs.rises
    have hsecond := ht.rises
    rw [hs.whole.lines_append, rise_append]
    omega
  aligned := by
    intro before line after h hline
    rw [hs.whole.lines_append] at h
    rcases List.append_eq_append_iff.1 h with ⟨more, rfl, hmore⟩ | ⟨more, hmore, hrest⟩
    · have hrises := hs.rises
      rw [rise_append, ← Int.add_assoc, hrises]
      exact ht.aligned more line after hmore hline
    · cases more with
      | nil =>
          have hrises := hs.rises
          rw [hmore, List.append_nil] at hrises
          rw [hrises]
          have haligned := ht.aligned [] line after hrest.symm hline
          rwa [show rise [] = 0 from rfl, Int.add_zero] at haligned
      | cons first more =>
          obtain ⟨rfl, rfl⟩ := List.cons.inj hrest
          exact hs.aligned before line more hmore hline

theorem single (hline : OneLine s) (hrise : d + rise [s] = d') (haligned : s ≠ "" → Aligned indent d s) :
    Lays indent (s ++ "\n") d d' where
  whole := .inr ⟨s, rfl⟩
  rises := by rwa [lines_line hline]
  aligned := by
    intro before line after h hne
    rw [lines_line hline] at h
    rcases List.append_eq_singleton_iff.1 h.symm with ⟨rfl, hrest⟩ | ⟨-, hrest⟩
    · obtain ⟨rfl, -⟩ := List.cons.inj hrest
      rw [show rise [] = 0 from rfl, Int.add_zero]
      exact haligned hne
    · cases hrest

theorem feed : Lays indent "\n" d d := by
  have h := @single indent "" d d (by decide) (by simp [rise, isCommentLine, Text.dropBlanks, countIn]) (absurd rfl)
  rwa [String.empty_append] at h

end Lays

/-! ## Lines -/

section

variable {indent text : String} (hindent : Margin indent) {k d d' : Nat}
include hindent

theorem rise_commentLine (hcomment : isCommentLine text = true) : rise [margin indent k ++ text] = 0 := by
  simp [rise, isCommentLine_margin (margin_margin hindent k), hcomment, countIn]

theorem rise_codeLine (hstar : '*' ∉ text.toList) :
    rise [margin indent k ++ text] = text.toList.count '\x7b' - text.toList.count '\x7d' := by
  have hmargin := margin_margin hindent k
  have hzero (c : Char) (hc : c ≠ ' ' ∧ c ≠ '\t') : (margin indent k).toList.count c = 0 := by
    rw [List.count_eq_zero]
    intro hmem
    rcases hmargin c hmem with rfl | rfl
    · exact hc.1 rfl
    · exact hc.2 rfl
  simp [rise, isCommentLine_margin hmargin, isCommentLine_eq_false hstar, countIn, String.toList_append,
    List.count_append, hzero]

theorem Lays.comment (hcomment : isCommentLine text = true) (hline : OneLine text)
    (hstart : ∃ rest, text = "/**" ++ rest ∨ text = " *" ++ rest) :
    Lays indent (margin indent d ++ text ++ "\n") d d := by
  have hmargin := margin_margin hindent d
  refine .single (hmargin.oneLine.append hline) (by rw [rise_commentLine hindent hcomment, Int.add_zero]) fun _ => ?_
  refine ⟨d, text, rfl, ?_, ?_⟩
  · obtain ⟨rest, rfl | rfl⟩ := hstart <;> simp
  · rwa [isCommentLine_margin hmargin, hcomment, if_pos rfl]

theorem Lays.code (hstar : '*' ∉ text.toList) (hline : OneLine text) (hhead : Headed text)
    (hbefore : d = k + if text.toList.head? = some '\x7d' then 1 else 0)
    (hafter : (d : Int) + (text.toList.count '\x7b' - text.toList.count '\x7d') = d') :
    Lays indent (margin indent k ++ text ++ "\n") d d' := by
  have hmargin := margin_margin hindent k
  refine .single (hmargin.oneLine.append hline) (by rw [rise_codeLine hindent hstar, hafter]) fun _ => ?_
  refine ⟨k, text, rfl, by rw [hbefore]; split <;> rfl, ?_⟩
  rwa [isCommentLine_margin hmargin, isCommentLine_eq_false hstar, if_neg Bool.false_ne_true]

theorem Lays.flat (h : Neat text) (hhead : Headed text) : Lays indent (margin indent d ++ text ++ "\n") d d := by
  have hbrace : text.toList.head? ≠ some '\x7d' := fun hhead =>
    absurd (h.plain _ (List.mem_of_mem_head? hhead)) (by decide)
  refine .code hindent (fun hmem => absurd (h.plain _ hmem) (by decide)) h.oneLine hhead (by rw [if_neg hbrace]; rfl) ?_
  rw [count_eq_zero_of_plain h.plain (by decide), count_eq_zero_of_plain h.plain (by decide)]
  omega

theorem Lays.opening (h : Neat text) (hhead : Headed text) :
    Lays indent (margin indent d ++ (text ++ "\x7b") ++ "\n") d (d + 1) := by
  have hopened := count_eq_zero_of_plain h.plain (c := '\x7b') (by decide)
  have hclosed := count_eq_zero_of_plain h.plain (c := '\x7d') (by decide)
  refine .code hindent ?_ (h.oneLine.append (by decide)) (hhead.append _) ?_ ?_
  · rw [String.toList_append, List.mem_append, not_or]
    exact ⟨fun hmem => absurd (h.plain _ hmem) (by decide), by decide⟩
  · obtain ⟨c, hc, hblank⟩ := hhead
    have hbrace : (text ++ "\x7b").toList.head? ≠ some '\x7d' := by
      rw [String.toList_append, List.head?_append, Option.mem_def.1 hc, Option.some_or]
      rintro ⟨⟩
      exact absurd (h.plain _ (List.mem_of_mem_head? hc)) (by decide)
    rw [if_neg hbrace]
    rfl
  · rw [String.toList_append, List.count_append, List.count_append, hopened, hclosed]
    rfl

theorem Lays.closing (h : Neat text) : Lays indent (margin indent d ++ ("\x7d" ++ text) ++ "\n") (d + 1) d := by
  have hopened := count_eq_zero_of_plain h.plain (c := '\x7b') (by decide)
  have hclosed := count_eq_zero_of_plain h.plain (c := '\x7d') (by decide)
  have hbrace : OneLine "\x7d" := by decide
  refine .code hindent ?_ (hbrace.append h.oneLine) (.append ⟨'\x7d', rfl, by decide⟩ _) ?_ ?_
  · rw [String.toList_append, List.mem_append, not_or]
    exact ⟨by decide, fun hmem => absurd (h.plain _ hmem) (by decide)⟩
  · rw [String.toList_append]
    rfl
  · have hopening : "\x7d".toList.count '\x7b' = 0 := rfl
    have hclosing : "\x7d".toList.count '\x7d' = 1 := rfl
    rw [String.toList_append, List.count_append, List.count_append, hopened, hclosed, hopening, hclosing]
    omega

end

end ProtocolTypings
