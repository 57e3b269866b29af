import ProtocolTypings.Proofs.Typing.Laid

/-!
# Where a comment ends

A description is written between the beginning and the end of a comment, its own lines one below the other. The
comment ends where the first end of a comment stands. That is at the end of the text, unless the description has an
end of a comment in it: the lines of the description are copied as they are.
-/

namespace ProtocolTypings

open Artifact
open Text (endsLine OneLine linesFrom)

/-! ## Ends of comments -/

def closing : List Char :=
  ['*', '/']

/-- How often the end of a comment stands in a text. -/
def closings : List Char → Nat
  | [] => 0
  | c :: rest => closings rest + if closing.isPrefixOf (c :: rest) then 1 else 0

def closingsIn : List String → Nat
  | [] => 0
  | line :: rest => closings line.toList + closingsIn rest

/-- One comment with nothing behind it: it ends for the first time at the end of the text. -/
def BlockComment (text : List Char) : Prop :=
  ∃ rest, text = '/' :: '*' :: rest ∧ closing <:+ rest ∧ closings rest = 1

theorem closings_eq_zero_iff {text : List Char} : closings text = 0 ↔ occursIn closing text = false := by
  induction text with
  | nil => simp [closings, occursIn, closing]
  | cons c rest ih => simp only [closings, occursIn, Nat.add_eq_zero_iff, ih, Bool.or_eq_false_iff, ite_eq_right_iff,
      Nat.one_ne_zero, imp_false, Bool.not_eq_true, and_comm]

theorem closings_cons {c : Char} (hc : c ≠ '*') (rest : List Char) : closings (c :: rest) = closings rest := by
  simp [closings, closing, List.isPrefixOf, hc.symm]

theorem closings_skip {front : List Char} (hfront : '*' ∉ front) (rest : List Char) :
    closings (front ++ rest) = closings rest := by
  induction front with
  | nil => rfl
  | cons c front ih =>
      rw [List.mem_cons, not_or] at hfront
      rw [List.cons_append, closings_cons (Ne.symm hfront.1), ih hfront.2]

/-- No end of a comment reaches over a character other than a slash from the left. -/
theorem closings_append_cons {c : Char} (hc : c ≠ '/') (front rest : List Char) :
    closings (front ++ c :: rest) = closings front + closings (c :: rest) := by
  induction front with
  | nil => simp [closings]
  | cons d front ih =>
      have hprefix : closing.isPrefixOf (d :: (front ++ c :: rest)) = closing.isPrefixOf (d :: front) := by
        cases front with
        | nil => simp [closing, List.isPrefixOf, hc.symm]
        | cons e front => simp [closing, List.isPrefixOf]
      rw [List.cons_append, closings, closings, hprefix, ih]
      omega

/-- A boundary of a line divides the ends of comments among its two sides. -/
theorem closings_boundary {c : Char} (hc : endsLine c = true) (front rest : List Char) :
    closings (front ++ c :: rest) = closings front + closings rest := by
  have hslash : c ≠ '/' := by rintro rfl; exact absurd hc (by decide)
  have hstar : c ≠ '*' := by rintro rfl; exact absurd hc (by decide)
  rw [closings_append_cons hslash, closings_cons hstar]

theorem closingsIn_append (lines more : List String) : closingsIn (lines ++ more) = closingsIn lines + closingsIn more := by
  induction lines with
  | nil => simp [closingsIn]
  | cons line rest ih =>
      rw [List.cons_append, closingsIn, closingsIn, ih]
      omega

theorem closings_linesFrom (current text : List Char) :
    closingsIn ((linesFrom current text).map String.ofList) = closings (current.reverse ++ text) := by
  fun_induction linesFrom current text with
  | case1 current h => simp_all [closings, closingsIn]
  | case2 current h => simp [closingsIn]
  | case3 current rest ih =>
      rw [List.map_cons, closingsIn, ih, closings_boundary (by decide), closings_cons (by decide), String.toList_ofList]
      rfl
  | case4 current c rest hboth hends ih =>
      rw [List.map_cons, closingsIn, ih, closings_boundary hends, String.toList_ofList]
      rfl
  | case5 current c rest hboth hends ih =>
      rw [ih, List.reverse_cons, List.append_assoc]
      rfl

/-- No end of a comment reaches over the end of a line. -/
theorem closings_lines (text : String) : closingsIn (Text.lines text) = closings text.toList :=
  closings_linesFrom [] text.toList

/-! ## Rows -/

/-- Lines one below the other. -/
def rowsText (rows : List String) : String :=
  String.join (rows.map (· ++ "\n"))

theorem rowsText_cons (row : String) (rows : List String) : rowsText (row :: rows) = row ++ "\n" ++ rowsText rows := by
  simp [rowsText]

theorem rowsText_append (rows more : List String) : rowsText (rows ++ more) = rowsText rows ++ rowsText more := by
  simp [rowsText]

theorem lines_rowsText {rows : List String} (h : ∀ row ∈ rows, OneLine row) : Text.lines (rowsText rows) = rows := by
  induction rows with
  | nil => rfl
  | cons row rows ih =>
      have hrow : Whole (row ++ "\n") := .inr ⟨row, rfl⟩
      rw [List.forall_mem_cons] at h
      rw [rowsText_cons, hrow.lines_append, lines_line h.1, ih h.2]
      rfl

theorem closings_rowsText (rows : List String) : closings (rowsText rows).toList = closingsIn rows := by
  induction rows with
  | nil => rfl
  | cons row rows ih =>
      have hfeed : "\n".toList = ['\n'] := rfl
      rw [rowsText_cons, String.toList_append, String.toList_append, List.append_assoc, hfeed, List.singleton_append,
        closings_boundary (by decide), ih, closingsIn]

/-! ## Comments on a sheet -/

/-- The lines of a comment: its beginning, those of the description and its end, each behind the margin. -/
def commentRows (margin description : String) : List String :=
  (margin ++ "/**") :: ((Text.lines description).map (margin ++ " * " ++ ·) ++ [margin ++ " */"])

section

variable {indent : String}

theorem commentLinesText_eq (d : Nat) (lines : List String) :
    commentLinesText (.str indent) d lines = .ok (rowsText (lines.map (margin indent d ++ " * " ++ ·))) := by
  induction lines with
  | nil => rfl
  | cons line rest ih =>
      rw [commentLinesText_cons, lineText_margin, ih, List.map_cons, rowsText_cons]
      simp [String.append_assoc]

theorem comment_eq_rows {description : String} (hdescription : description ≠ "") {s : Sheet}
    (hunit : s.unit = .str indent) :
    s.comment (.str description) = .ok (s.add (rowsText (commentRows (margin indent s.depth) description))) := by
  have htext : Item.text (.str indent) s.depth (.comment (.str description)) =
      .ok (rowsText (commentRows (margin indent s.depth) description)) := by
    rw [Item.text_comment_str _ _ hdescription, lineText_margin, lineText_margin, commentLinesText_eq, commentRows,
      rowsText_cons, rowsText_append, rowsText_cons]
    simp [rowsText]
  rw [Sheet.Blind.eq_written (Sheet.blind_comment _) (Sheet.moves_comment _), hunit]
  exact congrArg (Except.map s.add) htext

theorem Margin.noStar (h : Margin indent) : '*' ∉ indent.toList := by
  intro hmem
  rcases h _ hmem with hstar | hstar <;> exact absurd hstar (by decide)

theorem oneLine_commentRows (h : Margin indent) (description : String) :
    ∀ row ∈ commentRows indent description, OneLine row := by
  intro row hrow
  simp only [commentRows, List.mem_cons, List.mem_append, List.mem_map, List.not_mem_nil,
    or_false] at hrow
  obtain rfl | ⟨line, hline, rfl⟩ | rfl := hrow
  · exact h.oneLine.append (by decide)
  · exact (h.oneLine.append (by decide)).append (Text.oneLine_of_mem_lines hline)
  · exact h.oneLine.append (by decide)

/-- What stands between the star at the margin and the line is no slash. -/
theorem closings_commentRow (h : Margin indent) (line : String) :
    closings (indent ++ " * " ++ line).toList = closings line.toList := by
  have hstar : " * ".toList = [' ', '*', ' '] := rfl
  rw [String.toList_append, String.toList_append, List.append_assoc, closings_skip h.noStar, hstar]
  simp [closings, closing, List.isPrefixOf]

theorem closingsIn_commentRow (h : Margin indent) (lines : List String) :
    closingsIn (lines.map (indent ++ " * " ++ ·)) = closingsIn lines := by
  induction lines with
  | nil => rfl
  | cons line rest ih => rw [List.map_cons, closingsIn, closingsIn, ih, closings_commentRow h]

theorem closings_commentRows (h : Margin indent) (description : String) :
    closings (rowsText (commentRows indent description)).toList = closings description.toList + 1 := by
  have hfirst : closings (indent ++ "/**").toList = 0 := by
    rw [String.toList_append, closings_skip h.noStar]
    decide
  have hlast : closings (indent ++ " */").toList = 1 := by
    rw [String.toList_append, closings_skip h.noStar]
    decide
  rw [closings_rowsText, commentRows, closingsIn, closingsIn_append, closingsIn_commentRow h, closings_lines, hfirst,
    closingsIn, hlast, closingsIn]
  omega

/-- What stands between the margin and the last line end. -/
def commentText (margin description : String) : String :=
  "/**\n" ++ rowsText ((Text.lines description).map (margin ++ " * " ++ ·)) ++ margin ++ " */"

theorem rowsText_commentRows (description : String) :
    rowsText (commentRows indent description) = indent ++ commentText indent description ++ "\n" := by
  have hfeed : "/**\n" = "/**" ++ "\n" := rfl
  rw [commentRows, rowsText_cons, rowsText_append, commentText, hfeed]
  simp [rowsText, String.append_assoc]

theorem closings_within (h : Margin indent) (text : String) :
    closings (indent ++ text ++ "\n").toList = closings text.toList := by
  have hfeed : "\n".toList = ['\n'] := rfl
  rw [String.toList_append, String.toList_append, List.append_assoc, closings_skip h.noStar, hfeed,
    closings_boundary (by decide)]
  rfl

/-- The beginning and the end of the comment share no character. -/
theorem commentText_parts (margin description : String) :
    ∃ rest, (commentText margin description).toList = '/' :: '*' :: '*' :: '\n' :: rest ∧ closing <:+ rest := by
  refine ⟨(rowsText ((Text.lines description).map (margin ++ " * " ++ ·)) ++ margin ++ " */").toList, ?_, ?_⟩
  · simp [commentText, String.append_assoc]
  · rw [String.toList_append]
    exact (List.suffix_append [' '] closing).trans (List.suffix_append _ " */".toList)

theorem blockComment_iff {rest : List Char} (h : closing <:+ rest) :
    BlockComment ('/' :: '*' :: '*' :: '\n' :: rest) ↔ closings ('/' :: '*' :: '*' :: '\n' :: rest) = 1 := by
  have hbeginning : closings ('/' :: '*' :: '*' :: '\n' :: rest) = closings ('*' :: '\n' :: rest) := by
    simp [closings, closing, List.isPrefixOf]
  rw [hbeginning]
  constructor
  · rintro ⟨_, heq, -, hone⟩
    obtain ⟨⟩ := heq
    exact hone
  · exact fun hone => ⟨_, rfl, h.trans (List.suffix_append ['*', '\n'] rest), hone⟩

/-- A description is written as a comment whose lines are its own, and the ends of comments in it are those that it
brings along and the last one. So the comment is closed at its end, and not before, exactly if the description has no
end of a comment in it. -/
theorem Sheet.comment_closed_iff (hindent : Margin indent) {description : String} (hdescription : description ≠ "")
    {s : Sheet} (hunit : s.unit = .str indent) :
    ∃ comment : String,
      s.comment (.str description) = .ok (s.add (margin indent s.depth ++ comment ++ "\n")) ∧
      "/**".toList <+: comment.toList ∧ closing <:+ comment.toList ∧
      Text.lines (margin indent s.depth ++ comment ++ "\n") =
        (margin indent s.depth ++ "/**") ::
          ((Text.lines description).map (margin indent s.depth ++ " * " ++ ·) ++ [margin indent s.depth ++ " */"]) ∧
      closings (margin indent s.depth ++ comment ++ "\n").toList = closings description.toList + 1 ∧
      (BlockComment comment.toList ↔ occursIn closing description.toList = false) := by
  have hmargin := margin_margin hindent s.depth
  have hcount := closings_commentRows hmargin description
  have hlines := lines_rowsText (oneLine_commentRows hmargin description)
  rw [rowsText_commentRows] at hcount hlines
  obtain ⟨rest, hrest, hend⟩ := commentText_parts (margin indent s.depth) description
  refine ⟨commentText (margin indent s.depth) description, ?_, ?_, ?_, hlines, hcount, ?_⟩
  · rw [comment_eq_rows hdescription hunit, rowsText_commentRows]
  · rw [hrest]
    exact List.prefix_append ['/', '*', '*'] ('\n' :: rest)
  · rw [hrest]
    exact hend.trans (List.suffix_append ['/', '*', '*', '\n'] rest)
  · rw [closings_within hmargin] at hcount
    rw [hrest, blockComment_iff hend, ← hrest, hcount, ← closings_eq_zero_iff]
    omega

/-- Two lines of a description inside a block. -/
theorem Sheet.comment_closed_iff_twoLines :
    Margin "\t" ∧ ∃ comment : String,
      ({ unit := .str "\t", depth := 1, text := "A \x7b\n" } : Sheet).comment (.str "a *\r\n/ b") =
        .ok (Sheet.add { unit := .str "\t", depth := 1, text := "A \x7b\n" } (margin "\t" 1 ++ comment ++ "\n")) ∧
      "/**".toList <+: comment.toList ∧ closing <:+ comment.toList ∧
      Text.lines (margin "\t" 1 ++ comment ++ "\n") =
        (margin "\t" 1 ++ "/**") ::
          ((Text.lines "a *\r\n/ b").map (margin "\t" 1 ++ " * " ++ ·) ++ [margin "\t" 1 ++ " */"]) ∧
      closings (margin "\t" 1 ++ comment ++ "\n").toList = closings "a *\r\n/ b".toList + 1 ∧
      (BlockComment comment.toList ↔ occursIn closing "a *\r\n/ b".toList = false) :=
  ⟨by decide, Sheet.comment_closed_iff (by decide) (by decide) rfl⟩

/-- A description that closes its own comment: what stands behind the first end is no comment any more. -/
theorem Sheet.comment_closed_early :
    ({} : Sheet).comment (.str "a */ b") = .ok { text := "/**\n * a */ b\n */\n" } ∧
      closings "/**\n * a */ b\n */\n".toList = 2 ∧ ¬ BlockComment "/**\n * a */ b\n */".toList := by
  refine ⟨by rfl, by decide, ?_⟩
  rintro ⟨rest, heq, -, hone⟩
  obtain ⟨⟩ := heq
  exact absurd hone (by decide)

end

end ProtocolTypings
