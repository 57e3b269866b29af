import Mathlib.Data.List.DropRight
import ProtocolTypings.Proofs.Artifact.Descriptions
import ProtocolTypings.Proofs.Typing.Comment
import ProtocolTypings.Typing.Step

/-!
# Runs of steps

Steps may fail and a sheet may be cleared on the way. What a run leaves depends on the steps since the last clearing
that did not fail, and the depth counts the blocks among them. A run inside more blocks adds the same lines, each that
much further to the right.
-/

namespace ProtocolTypings

namespace Sheet

/-! ## Lines and steps -/

/-- What goes onto a sheet: a text as it is, or a line at a depth. -/
inductive Piece where
  | raw (text : String)
  | line (depth : Nat) (text : String)

namespace Piece

/-- An empty line has no margin. -/
def ofLine (depth : Nat) (text : String) : Piece :=
  if text = "" then .raw "\n" else .line depth text

/-- The text of a piece that is written with `k` more blocks around it. -/
def text (indent : String) (k : Nat) : Piece → String
  | .raw text => text
  | .line depth text => margin indent k ++ (margin indent depth ++ text ++ "\n")

end Piece

def piecesText (indent : String) (k : Nat) (pieces : List Piece) : String :=
  String.join (pieces.map (·.text indent k))

namespace Step

def isClear : Step → Bool
  | .clear => true
  | _ => false

def opens : Step → Bool
  | .beginBlock _ _ => true
  | _ => false

def closes : Step → Bool
  | .endBlock _ => true
  | _ => false

/-- A comment is given a description. -/
def Given : Step → Prop
  | .comment description => Describes description
  | _ => True

/-- The lines of a comment. -/
def commentPieces (depth : Nat) : Json → List Piece
  | .str text =>
    if text = "" then []
    else (("/**" :: (Text.lines text).map (" * " ++ ·)) ++ [" */"]).map (.line depth)
  | _ => []

/-- What a step adds at a depth. -/
def pieces (depth : Nat) : Step → List Piece
  | .add text => [.raw text]
  | .line text => [.ofLine depth text]
  | .beginBlock header opening => [.ofLine depth (header ++ opening)]
  | .endBlock closing => [.ofLine (depth - 1) closing]
  | .comment description => commentPieces depth description
  | .indent _ | .clear => []

def depthAfter (depth : Nat) : Step → Nat
  | .beginBlock _ _ => depth + 1
  | .endBlock _ => depth - 1
  | _ => depth

end Step

/-- What the steps add one after the other. -/
def piecesOf (depth : Nat) : List Step → List Piece
  | [] => []
  | step :: rest => step.pieces depth ++ piecesOf (step.depthAfter depth) rest

theorem piecesText_append (indent : String) (k : Nat) (ps qs : List Piece) :
    piecesText indent k (ps ++ qs) = piecesText indent k ps ++ piecesText indent k qs := by
  simp [piecesText]

/-! ## One step -/

section

variable {memory : Nat} {indent : String} {s : Sheet}

theorem line_eq (hunit : s.unit = .str indent) (text : String) :
    s.line text = .ok (s.add (piecesText indent 0 [.ofLine s.depth text])) := by
  have hmargin : indentation (.str indent) s.depth = .ok (margin indent s.depth) := rfl
  rw [line, Piece.ofLine]
  split
  · simp [piecesText, Piece.text]
  · simp [hunit, hmargin, piecesText, Piece.text, margin_zero]

theorem add_nothing (s : Sheet) : s.add "" = s := by
  rw [add, String.append_empty]

theorem comment_eq (hunit : s.unit = .str indent) {description : Json} (h : Describes description) :
    s.comment description = .ok (s.add (piecesText indent 0 (Step.commentPieces s.depth description))) := by
  have hnothing : description.truthy = false →
      s.comment description = .ok (s.add (piecesText indent 0 (Step.commentPieces s.depth description))) := by
    intro hfalsy
    have hpieces : Step.commentPieces s.depth description = [] := by
      cases description with
      | str text =>
          have htext : text = "" := by simpa [Json.truthy] using hfalsy
          exact if_pos htext
      | _ => rfl
    rw [comment, hfalsy, hpieces]
    exact congrArg Except.ok s.add_nothing.symm
  rcases h with hfalsy | ⟨text, rfl⟩
  · exact hnothing hfalsy
  · by_cases htext : text = ""
    · exact hnothing (by simp [Json.truthy, htext])
    · have hrows : rowsText (commentRows (margin indent s.depth) text) =
          piecesText indent 0 (Step.commentPieces s.depth (.str text)) := by
        simp [rowsText, commentRows, piecesText, Step.commentPieces, htext, Piece.text, margin_zero, Function.comp_def,
          String.append_assoc]
      rw [comment_eq_rows htext hunit, hrows]

theorem endBlock_eq (hunit : s.unit = .str indent) (hdepth : s.depth ≠ 0) (closing : String) :
    s.endBlock closing =
      .ok { s with depth := s.depth - 1, text := s.text ++ piecesText indent 0 [.ofLine (s.depth - 1) closing] } := by
  obtain ⟨depth, hdepth⟩ := Nat.exists_eq_succ_of_ne_zero hdepth
  obtain ⟨unit, _, text⟩ := s
  cases hdepth
  exact @line_eq indent ⟨unit, depth, text⟩ hunit closing

/-- Everything that a step can do to a sheet. -/
inductive Performed (memory : Nat) (indent : String) (s : Sheet) : Step → Sheet × Except Fault Json → Prop
  | written {step : Step} : step.isClear = false → (step.closes = true → s.depth ≠ 0) →
      Performed memory indent s step
        (⟨.str indent, step.depthAfter s.depth, s.text ++ piecesText indent 0 (step.pieces s.depth)⟩, .ok .null)
  | asked {depth : Option Int} {answer : Except Fault Json} :
      ((∀ d, depth = some d → repetitionFault? memory s.unit d = none) → ∃ v, answer = .ok v) →
      Performed memory indent s (.indent depth) (s, answer)
  | refused {closing : String} : s.depth = 0 →
      Performed memory indent s (.endBlock closing) (s, .error (.refusal (.layout (.closeAtTop closing))))
  | cleared : Performed memory indent s .clear (s.clear, .ok .null)

theorem performed (memory : Nat) (hunit : s.unit = .str indent) {step : Step} (hgiven : step.Given) :
    Performed memory indent s step (s.perform memory step) := by
  have hfree {other : Step} (h : other.closes = false) (hcloses : other.closes = true) : s.depth ≠ 0 :=
    absurd (h.symm.trans hcloses) Bool.false_ne_true
  cases step with
  | add text =>
      have hadd : s.perform memory (.add text) =
          (⟨.str indent, s.depth, s.text ++ piecesText indent 0 [.raw text]⟩, .ok .null) := by
        rw [perform, add, hunit]
        simp [piecesText, Piece.text]
      rw [hadd]
      exact .written rfl (hfree rfl)
  | line text =>
      rw [perform, line_eq hunit, attempt, add, hunit]
      exact .written rfl (hfree rfl)
  | beginBlock header opening =>
      rw [perform, beginBlock, line_eq hunit, ok_bind, add, hunit]
      exact .written rfl (hfree rfl)
  | endBlock closing =>
      by_cases hdepth : s.depth = 0
      · have hrefused : s.perform memory (.endBlock closing) =
            (s, .error (.refusal (.layout (.closeAtTop closing)))) := by
          obtain ⟨unit, depth, text⟩ := s
          cases hdepth
          rfl
        rw [hrefused]
        exact .refused hdepth
      · rw [perform, endBlock_eq hunit hdepth, attempt, hunit]
        exact .written rfl fun _ => hdepth
  | comment description =>
      rw [perform, comment_eq hunit hgiven, attempt, add, hunit]
      exact .written rfl (hfree rfl)
  | indent depth =>
      cases depth with
      | none =>
          refine .asked fun _ => ?_
          rw [hunit]
          exact ⟨_, rfl⟩
      | some depth =>
          refine .asked fun hdepth => ?_
          rw [repeatedAt, hdepth depth rfl, hunit]
          exact ⟨_, rfl⟩
  | clear => exact .cleared

namespace Performed

variable {step : Step} {r : Sheet × Except Fault Json}

theorem unit_eq (hunit : s.unit = .str indent) (h : Performed memory indent s step r) : r.1.unit = .str indent := by
  cases h with
  | written => rfl
  | _ => exact hunit

/-- A step that fails changes nothing. -/
theorem eq_of_failed (h : Performed memory indent s step r) (hfailed : r.2.isOk = false) : r.1 = s := by
  cases h with
  | written => cases hfailed
  | asked => rfl
  | refused => rfl
  | cleared => cases hfailed

theorem depth_ne_zero (h : Performed memory indent s step r) (hcloses : step.closes = true) (hok : r.2.isOk = true) :
    s.depth ≠ 0 := by
  cases h with
  | written _ hdepth => exact hdepth hcloses
  | asked => cases hcloses
  | refused => cases hok
  | cleared => cases hcloses

/-- Unless it clears the sheet or closes a block in vain, a step adds its pieces. -/
theorem sheet_eq (hunit : s.unit = .str indent) (h : Performed memory indent s step r) (hclear : step.isClear = false)
    (hcloses : step.closes = true → s.depth ≠ 0) :
    r.1 = ⟨.str indent, step.depthAfter s.depth, s.text ++ piecesText indent 0 (step.pieces s.depth)⟩ := by
  cases h with
  | written => rfl
  | asked =>
      show s = ⟨.str indent, s.depth, s.text ++ ""⟩
      rw [String.append_empty, ← hunit]
  | refused hdepth => exact absurd hdepth (hcloses rfl)
  | cleared => cases hclear

theorem keeps_text (h : Performed memory indent s step r) (hclear : step.isClear = false) :
    s.text.toList <+: r.1.text.toList := by
  cases h with
  | written => simp
  | asked => exact List.prefix_rfl
  | refused => exact List.prefix_rfl
  | cleared => cases hclear

/-- The depth counts what is opened, less what is closed. -/
theorem depth_add (h : Performed memory indent s step r) (hclear : step.isClear = false) :
    r.1.depth + (step.closes && r.2.isOk).toNat = s.depth + step.opens.toNat := by
  cases h with
  | written _ hdepth =>
      cases step with
      | endBlock closing =>
          have hpos := hdepth rfl
          show s.depth - 1 + 1 = s.depth + 0
          omega
      | _ => rfl
  | asked => rfl
  | refused => rfl
  | cleared => cases hclear

end Performed

end

/-! ## Runs -/

/-- The sheet after the steps. -/
def run (memory : Nat) (s : Sheet) (steps : List Step) : Sheet :=
  steps.foldl (fun s step => (s.perform memory step).1) s

/-- A step of a run with the way in which it ended. -/
abbrev Entry := Step × Except Fault Json

def trace (memory : Nat) (s : Sheet) : List Step → List Entry
  | [] => []
  | step :: rest => (step, (s.perform memory step).2) :: (s.perform memory step).1.trace memory rest

/-- What is there of a trace since the sheet was cleared for the last time. -/
def sinceClear (entries : List Entry) : List Entry :=
  entries.rtakeWhile fun e => !e.1.isClear

/-- The steps that did not fail. -/
def succeeded (entries : List Entry) : List Step :=
  (entries.filter (·.2.isOk)).map (·.1)

/-- How many blocks were opened. -/
def blocksOpened (entries : List Entry) : Nat :=
  entries.countP (·.1.opens)

/-- How many blocks were closed. -/
def blocksClosed (entries : List Entry) : Nat :=
  entries.countP fun e => e.1.closes && e.2.isOk

/-- An empty sheet with a text as indentation. -/
def fresh (indent : String) : Sheet :=
  { unit := .str indent }

section

variable {memory : Nat} {indent : String} {s : Sheet}

theorem run_append (s : Sheet) (steps more : List Step) :
    s.run memory (steps ++ more) = (s.run memory steps).run memory more :=
  List.foldl_append

theorem trace_append (s : Sheet) (steps more : List Step) :
    s.trace memory (steps ++ more) = s.trace memory steps ++ (s.run memory steps).trace memory more := by
  induction steps generalizing s with
  | nil => rfl
  | cons step rest ih => exact congrArg _ (ih _)

theorem run_concat (s : Sheet) (steps : List Step) (step : Step) :
    s.run memory (steps ++ [step]) = ((s.run memory steps).perform memory step).1 :=
  List.foldl_append

theorem trace_concat (s : Sheet) (steps : List Step) (step : Step) :
    s.trace memory (steps ++ [step]) = s.trace memory steps ++ [(step, ((s.run memory steps).perform memory step).2)] :=
  trace_append s steps [step]

theorem unit_run (hunit : s.unit = .str indent) {steps : List Step} (hgiven : ∀ step ∈ steps, step.Given) :
    (s.run memory steps).unit = .str indent := by
  induction steps generalizing s with
  | nil => exact hunit
  | cons step rest ih =>
      rw [List.forall_mem_cons] at hgiven
      exact ih ((performed memory hunit hgiven.1).unit_eq hunit) hgiven.2

section

variable (entries : List Entry) (step : Step) (answer : Except Fault Json)

theorem sinceClear_concat : sinceClear (entries ++ [(step, answer)]) =
    if step.isClear then [] else sinceClear entries ++ [(step, answer)] := by
  rw [sinceClear, List.rtakeWhile_concat]
  cases step.isClear <;> rfl

theorem succeeded_concat : succeeded (entries ++ [(step, answer)]) =
    if answer.isOk then succeeded entries ++ [step] else succeeded entries := by
  rw [succeeded, List.filter_append, List.map_append, List.filter_singleton]
  cases answer.isOk
  · exact List.append_nil _
  · rfl

theorem blocksOpened_concat : blocksOpened (entries ++ [(step, answer)]) = blocksOpened entries + step.opens.toNat := by
  rw [blocksOpened, List.countP_append, List.countP_singleton]
  cases step.opens <;> rfl

theorem blocksClosed_concat : blocksClosed (entries ++ [(step, answer)]) =
    blocksClosed entries + (step.closes && answer.isOk).toNat := by
  rw [blocksClosed, List.countP_append, List.countP_singleton]
  cases step.closes && answer.isOk <;> rfl

end

theorem clear_eq_fresh (hunit : s.unit = .str indent) : s.clear = fresh indent := by
  rw [clear, hunit]
  rfl

/-- The depth is the number of the blocks opened and not closed since the last clearing. -/
theorem depth_run {steps : List Step} (hgiven : ∀ step ∈ steps, step.Given) :
    ((fresh indent).run memory steps).depth + blocksClosed (sinceClear ((fresh indent).trace memory steps)) =
      blocksOpened (sinceClear ((fresh indent).trace memory steps)) := by
  -- From the end: whether a step counts depends on the steps behind it.
  induction steps using List.reverseRecOn with
  | nil => rfl
  | append_singleton steps step ih =>
      rw [List.forall_mem_append, List.forall_mem_singleton] at hgiven
      have hunit := @unit_run memory indent (fresh indent) rfl steps hgiven.1
      have hstep := performed memory hunit hgiven.2
      rw [run_concat, trace_concat, sinceClear_concat]
      cases hclear : step.isClear with
      | true =>
          cases step with
          | clear => rfl
          | _ => cases hclear
      | false =>
          have hbefore := ih hgiven.1
          have hdepth := hstep.depth_add hclear
          rw [if_neg Bool.false_ne_true, blocksOpened_concat, blocksClosed_concat]
          omega

/-- The steps since the last clearing that did not fail leave the same sheet. -/
theorem run_succeeded {steps : List Step} (hgiven : ∀ step ∈ steps, step.Given) :
    (fresh indent).run memory (succeeded (sinceClear ((fresh indent).trace memory steps))) =
      (fresh indent).run memory steps := by
  induction steps using List.reverseRecOn with
  | nil => rfl
  | append_singleton steps step ih =>
      rw [List.forall_mem_append, List.forall_mem_singleton] at hgiven
      have hunit := @unit_run memory indent (fresh indent) rfl steps hgiven.1
      have hstep := performed memory hunit hgiven.2
      rw [run_concat, trace_concat, sinceClear_concat]
      cases hclear : step.isClear with
      | true =>
          cases step with
          | clear => exact (clear_eq_fresh hunit).symm
          | _ => cases hclear
      | false =>
          rw [if_neg Bool.false_ne_true, succeeded_concat]
          cases hanswer : (((fresh indent).run memory steps).perform memory step).2.isOk with
          | false => rw [if_neg Bool.false_ne_true, ih hgiven.1, hstep.eq_of_failed hanswer]
          | true => rw [if_pos rfl, run_concat, ih hgiven.1]

/-! ## Runs inside more blocks -/

/-- Begin a block with each of the headers, and with what stands behind it. -/
def beginBlocks (headers : List (String × String)) : List Step :=
  headers.map fun h => .beginBlock h.1 h.2

/-- The steps clear nothing and close no block in vain. -/
def Balanced (entries : List Entry) : Prop :=
  ∀ e ∈ entries, e.1.isClear = false ∧ (e.1.closes = true → e.2.isOk = true)

theorem pieces_shifted {step : Step} {depth : Nat} (hcloses : step.closes = true → depth ≠ 0) (k : Nat) :
    piecesText indent 0 (step.pieces (k + depth)) = piecesText indent k (step.pieces depth) ∧
      step.depthAfter (k + depth) = k + step.depthAfter depth := by
  have hline (d : Nat) (text : String) :
      (Piece.line (k + d) text).text indent 0 = (Piece.line d text).text indent k := by
    rw [Piece.text, Piece.text, margin_zero, String.empty_append, margin_add]
    simp only [String.append_assoc]
  have hofLine (d : Nat) (text : String) :
      piecesText indent 0 [.ofLine (k + d) text] = piecesText indent k [.ofLine d text] := by
    rw [Piece.ofLine, Piece.ofLine]
    split
    · rfl
    · simp only [piecesText, List.map_cons, hline]
      rfl
  have hlines (rows : List String) :
      piecesText indent 0 (rows.map (.line (k + depth))) = piecesText indent k (rows.map (.line depth)) := by
    simp only [piecesText, List.map_map]
    exact congrArg String.join (List.map_congr_left fun row _ => hline depth row)
  cases step with
  | line text => exact ⟨hofLine depth text, rfl⟩
  | beginBlock header opening => exact ⟨hofLine depth _, Nat.add_assoc ..⟩
  | endBlock closing =>
      have hpos := hcloses rfl
      have hdepth : k + depth - 1 = k + (depth - 1) := by omega
      refine ⟨?_, hdepth⟩
      rw [Step.pieces, hdepth]
      exact hofLine (depth - 1) closing
  | comment description =>
      refine ⟨?_, rfl⟩
      rw [Step.pieces, Step.pieces]
      unfold Step.commentPieces
      split
      · split
        · rfl
        · exact hlines _
      · rfl
  | _ => exact ⟨rfl, rfl⟩

/-- Inside `k` more blocks the same steps add the same pieces, with `k` more indents. -/
theorem run_shifted {steps : List Step} (hgiven : ∀ step ∈ steps, step.Given) (hunit : s.unit = .str indent)
    (hbalanced : Balanced (s.trace memory steps)) {inner : Sheet} {k : Nat} (hinner : inner.unit = .str indent)
    (hdepth : inner.depth = k + s.depth) :
    inner.run memory steps =
      ⟨.str indent, k + (s.run memory steps).depth, inner.text ++ piecesText indent k (piecesOf s.depth steps)⟩ := by
  induction steps generalizing s inner with
  | nil =>
      show inner = ⟨.str indent, k + s.depth, inner.text ++ ""⟩
      rw [String.append_empty, ← hinner, ← hdepth]
  | cons step rest ih =>
      rw [List.forall_mem_cons] at hgiven
      obtain ⟨⟨hclear, hcloses⟩, hrest⟩ := List.forall_mem_cons.1 hbalanced
      have hstep := performed memory hunit hgiven.1
      have hpos (h : step.closes = true) : s.depth ≠ 0 := hstep.depth_ne_zero h (hcloses h)
      have houter := hstep.sheet_eq hunit hclear hpos
      have hinnerStep := performed memory hinner hgiven.1
      have hinnerPos (h : step.closes = true) : inner.depth ≠ 0 := by
        have := hpos h
        omega
      have hshifted := hinnerStep.sheet_eq hinner hclear hinnerPos
      obtain ⟨hpieces, hafter⟩ := @pieces_shifted indent step s.depth hpos k
      rw [hdepth, hpieces, hafter] at hshifted
      have hinnerDepth : (inner.perform memory step).1.depth = k + (s.perform memory step).1.depth := by
        rw [hshifted, houter]
      have hlast := ih hgiven.2 (hstep.unit_eq hunit) hrest (hinnerStep.unit_eq hinner) hinnerDepth
      have hrun : s.run memory (step :: rest) = (s.perform memory step).1.run memory rest := rfl
      calc inner.run memory (step :: rest)
          = (inner.perform memory step).1.run memory rest := rfl
        _ = ⟨.str indent, k + ((s.perform memory step).1.run memory rest).depth,
              (inner.perform memory step).1.text ++
                piecesText indent k (piecesOf (s.perform memory step).1.depth rest)⟩ := hlast
        _ = ⟨.str indent, k + (s.run memory (step :: rest)).depth,
              inner.text ++ piecesText indent k (piecesOf s.depth (step :: rest))⟩ := by
            rw [hrun, hshifted, houter, piecesOf, piecesText_append, String.append_assoc]

theorem depth_run_beginBlocks (memory : Nat) (hunit : s.unit = .str indent) (headers : List (String × String)) :
    (s.run memory (beginBlocks headers)).depth = s.depth + headers.length := by
  induction headers generalizing s with
  | nil => rfl
  | cons header rest ih =>
      have hstep : Performed memory indent s (.beginBlock header.1 header.2) _ := performed memory hunit trivial
      have hdepth : (s.perform memory (.beginBlock header.1 header.2)).1.depth = s.depth + 1 := hstep.depth_add rfl
      show ((s.perform memory (.beginBlock header.1 header.2)).1.run memory (beginBlocks rest)).depth = _
      rw [ih (hstep.unit_eq hunit), hdepth, List.length_cons]
      omega

/-! ## All runs -/

/-- What the next step does to a sheet. -/
structure Steady (memory : Nat) (s : Sheet) : Prop where
  closing : ∀ closing, (∃ fault, (s.perform memory (.endBlock closing)).2 = .error fault) ↔ s.depth = 0
  refused : ∀ closing fault, (s.perform memory (.endBlock closing)).2 = .error fault →
    fault = .refusal (.layout (.closeAtTop closing)) ∧ (s.perform memory (.endBlock closing)).1 = s
  /-- The indentation at a depth that is asked for may be too long. -/
  others : ∀ step : Step, step.Given → step.closes = false →
    (∀ depth, step = .indent (some depth) → repetitionFault? memory s.unit depth = none) →
    ∃ answer, (s.perform memory step).2 = .ok answer
  keeps : ∀ step : Step, step.Given → step.isClear = false → s.text.toList <+: (s.perform memory step).1.text.toList

theorem steady (hunit : s.unit = .str indent) : s.Steady memory where
  closing := by
    intro closing
    have hstep : Performed memory indent s (.endBlock closing) _ := performed memory hunit trivial
    generalize s.perform memory (.endBlock closing) = r at hstep
    cases hstep with
    | written _ hdepth => exact ⟨nofun, fun h => absurd h (hdepth rfl)⟩
    | refused hdepth => exact ⟨fun _ => hdepth, fun _ => ⟨_, rfl⟩⟩
  refused := by
    intro closing fault
    have hstep : Performed memory indent s (.endBlock closing) _ := performed memory hunit trivial
    generalize s.perform memory (.endBlock closing) = r at hstep
    cases hstep with
    | written => nofun
    | refused => rintro ⟨⟩; exact ⟨rfl, rfl⟩
  others := by
    intro step hgiven hcloses hindent
    have hstep := performed memory hunit hgiven
    generalize s.perform memory step = r at hstep
    cases hstep with
    | written => exact ⟨_, rfl⟩
    | asked hanswer => exact hanswer fun depth h => hindent depth (congrArg Step.indent h)
    | refused => cases hcloses
    | cleared => exact ⟨_, rfl⟩
  keeps := fun _ hgiven hclear => (performed memory hunit hgiven).keeps_text hclear

/-- The depth of a sheet that was empty is the number of the blocks opened and not closed since it was cleared for the
last time, and the steps since then that did not fail leave the same sheet. If nothing was cleared and no block closed
in vain, the same steps inside further blocks add the same pieces, each line with an indent more for every block. -/
theorem run_fresh (memory : Nat) (indent : String) {steps : List Step} (hgiven : ∀ step ∈ steps, step.Given) :
    let s := (fresh indent).run memory steps
    let entries := sinceClear ((fresh indent).trace memory steps)
    s.depth + blocksClosed entries = blocksOpened entries ∧
    (fresh indent).run memory (succeeded entries) = s ∧
    s.Steady memory ∧
    (Balanced ((fresh indent).trace memory steps) →
      s.text = piecesText indent 0 (piecesOf 0 steps) ∧
      ∀ headers : List (String × String),
        (fresh indent).run memory (beginBlocks headers ++ steps) =
          ⟨.str indent, headers.length + s.depth,
            ((fresh indent).run memory (beginBlocks headers)).text ++
              piecesText indent headers.length (piecesOf 0 steps)⟩) := by
  have hfresh : (fresh indent).unit = .str indent := rfl
  refine ⟨depth_run hgiven, run_succeeded hgiven, steady (unit_run hfresh hgiven), fun hbalanced => ?_⟩
  refine ⟨?_, fun headers => ?_⟩
  · have hrun := run_shifted hgiven hfresh hbalanced hfresh (Nat.zero_add _).symm
    rw [hrun]
    exact String.empty_append
  · have hopened : ∀ step ∈ beginBlocks headers, step.Given := List.forall_mem_map.2 fun _ _ => trivial
    have hdepth := depth_run_beginBlocks memory hfresh headers
    rw [Nat.add_comm] at hdepth
    rw [run_append]
    exact run_shifted hgiven hfresh hbalanced (unit_run hfresh hopened) hdepth

end

/-- A block is closed in vain before the sheet is cleared, and another one at the end. -/
def stumblingSteps : List Step :=
  [.endBlock "\x7d", .add "lost", .clear, .beginBlock "namespace A" " \x7b", .indent none, .endBlock "\x7d", .line "x;",
    .endBlock "]"]

/-- A comment, an empty line and a text that is no line. -/
def quietSteps : List Step :=
  [.comment (.str "One\nTwo"), .line "", .line "x;", .add "// y\n"]

theorem run_fresh_stumbling :
    (∀ step ∈ stumblingSteps, step.Given) ∧ (∀ step ∈ quietSteps, step.Given) ∧
      (fresh "\t").run 4096 [.beginBlock "namespace A" " \x7b", .indent none, .endBlock "\x7d", .line "x;"] =
        (fresh "\t").run 4096 stumblingSteps ∧
      ((fresh "\t").run 4096 stumblingSteps).text = "namespace A \x7b\n\x7d\nx;\n" ∧
      ((fresh "\t").run 4096 quietSteps).text = "/**\n * One\n * Two\n */\n\nx;\n// y\n" ∧
      ((fresh "\t").run 4096 (.beginBlock "namespace A" " \x7b" :: quietSteps)).text =
        "namespace A \x7b\n\t/**\n\t * One\n\t * Two\n\t */\n\n\tx;\n// y\n" := by
  have hstumbling : ∀ step ∈ stumblingSteps, step.Given := by
    simp [stumblingSteps, Step.Given]
  have hquiet : ∀ step ∈ quietSteps, step.Given := by
    simp [quietSteps, Step.Given, Describes]
  obtain ⟨-, hsucceeded, -, -⟩ := run_fresh 4096 "\t" hstumbling
  obtain ⟨-, -, -, hshifted⟩ := run_fresh 4096 "\t" hquiet
  have hbalanced : Balanced ((fresh "\t").trace 4096 quietSteps) := by
    unfold Balanced
    decide +kernel
  obtain ⟨htext, hinner⟩ := hshifted hbalanced
  refine ⟨hstumbling, hquiet, hsucceeded, by decide +kernel, ?_, ?_⟩
  · rw [htext]
    decide +kernel
  · have hheader := hinner [("namespace A", " \x7b")]
    refine (congrArg Sheet.text hheader).trans ?_
    decide +kernel

end Sheet

end ProtocolTypings
