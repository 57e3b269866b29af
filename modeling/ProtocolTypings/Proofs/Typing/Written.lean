import ProtocolTypings.Proofs.Outcome
import ProtocolTypings.Typing.Declaration

/-!
# What is written on a sheet

Writing never looks at the text that is there already. What an item adds therefore depends on the indentation unit
and on the number of open blocks alone, and it is the text that the item writes on an empty sheet.
-/

namespace ProtocolTypings

namespace Sheet

/-- The sheet with a text before its own. -/
def prepend (t : String) (s : Sheet) : Sheet :=
  { s with text := t ++ s.text }

/-! ## Writing without looking -/

/-- A way of writing that never looks at the text that is there. -/
def Blind (f : Sheet → Except Fault Sheet) : Prop :=
  ∀ t s, f (s.prepend t) = (f s).map (prepend t)

theorem Blind.bind {f g : Sheet → Except Fault Sheet} (hf : Blind f) (hg : Blind g) :
    Blind fun s => f s >>= g := by
  intro t s
  simp only [hf t s]
  cases f s with
  | error fault => rfl
  | ok s' => exact hg t s'

theorem Blind.pure (f : Sheet → Sheet) (hf : ∀ t s, f (s.prepend t) = (f s).prepend t) :
    Blind fun s => .ok (f s) := by
  intro t s
  simp [hf]

/-- The unit and the depth may be looked at. -/
theorem Blind.reading {α : Type} (read : Json → Nat → Except Fault α) {f : α → Sheet → Except Fault Sheet}
    (hf : ∀ a, Blind (f a)) : Blind fun s => read s.unit s.depth >>= (f · s) := by
  intro t s
  simp only [prepend]
  cases read s.unit s.depth with
  | error fault => rfl
  | ok a => exact hf a t s

theorem blind_line (text : String) : Blind (·.line text) := by
  intro t s
  unfold line
  by_cases h : text = ""
  · simp [h, add, prepend, String.append_assoc]
  · simp only [h, ↓reduceIte, prepend]
    cases indentation s.unit s.depth with
    | error fault => rfl
    | ok margin => simp [add, prepend, String.append_assoc]

theorem blind_beginBlock (header opening : String) : Blind (·.beginBlock header opening) :=
  (blind_line _).bind (Blind.pure _ fun _ _ => rfl)

theorem blind_endBlock (closing : String) : Blind (·.endBlock closing) := by
  intro t s
  obtain ⟨unit, depth, text⟩ := s
  cases depth with
  | zero => rfl
  | succ depth => exact blind_line closing t ⟨unit, depth, text⟩

theorem blind_commentLines (lines : List String) : Blind (·.commentLines lines) := by
  induction lines with
  | nil => exact Blind.pure _ fun _ _ => rfl
  | cons line rest ih => exact (blind_line _).bind ih

theorem blind_comment (description : Json) : Blind (·.comment description) := by
  unfold comment
  cases description.truthy with
  | false => exact Blind.pure _ fun _ _ => rfl
  | true =>
      refine (blind_line _).bind ?_
      cases description with
      | str text => exact (blind_commentLines _).bind (blind_line _)
      | _ => exact fun _ _ => rfl

end Sheet

mutual
theorem Item.blind_write : (item : Item) → Sheet.Blind item.write
  | .blank => Sheet.blind_line _
  | .comment _ => Sheet.blind_comment _
  | .integerAlias => Sheet.blind_line _
  | .typeAlias _ shape => Sheet.Blind.reading (shape.typeText · ·) fun _ => Sheet.blind_line _
  | .property p => Sheet.Blind.reading (p.typeText · ·) fun _ => Sheet.blind_line _
  | .openProperties => Sheet.blind_line _
  | .field _ _ => Sheet.blind_line _
  | .method _ _ _ => Sheet.blind_line _
  | .listener _ _ => Sheet.blind_line _
  | .block _ _ body =>
      (Sheet.blind_beginBlock _ _).bind ((blind_writeItems body).bind (Sheet.blind_endBlock _))

theorem blind_writeItems : (items : List Item) → Sheet.Blind (writeItems · items)
  | [] => Sheet.Blind.pure _ fun _ _ => rfl
  | item :: rest => (Item.blind_write item).bind (blind_writeItems rest)
end

/-! ## The depth afterwards -/

namespace Sheet

/-- A way of writing after which the unit is the same and the depth is changed as by `move`. -/
def Moves (move : Nat → Nat) (f : Sheet → Except Fault Sheet) : Prop :=
  ∀ s s', f s = .ok s' → s'.unit = s.unit ∧ s'.depth = move s.depth

theorem Moves.bind {f g : Sheet → Except Fault Sheet} {a b : Nat → Nat} (hf : Moves a f) (hg : Moves b g) :
    Moves (fun n => b (a n)) fun s => f s >>= g := by
  intro s s'' h
  obtain ⟨s', h1, h2⟩ := bind_eq_ok.1 h
  obtain ⟨hu, hd⟩ := hf s s' h1
  obtain ⟨hu', hd'⟩ := hg s' s'' h2
  exact ⟨hu'.trans hu, by rw [hd', hd]⟩

theorem moves_line (text : String) : Moves id (·.line text) := by
  intro s s' h
  simp only [line] at h
  split at h
  · cases h; exact ⟨rfl, rfl⟩
  · obtain ⟨_, _, h⟩ := bind_eq_ok.1 h
    cases h; exact ⟨rfl, rfl⟩

theorem moves_beginBlock (header opening : String) : Moves (· + 1) (·.beginBlock header opening) := by
  intro s s' h
  obtain ⟨s₁, h1, h2⟩ := bind_eq_ok.1 h
  obtain ⟨hu, hd⟩ := moves_line _ s s₁ h1
  cases h2
  exact ⟨hu, by simp [hd]⟩

theorem moves_endBlock (closing : String) : Moves (· - 1) (·.endBlock closing) := by
  intro s s' h
  obtain ⟨unit, depth, text⟩ := s
  cases depth with
  | zero => simp [endBlock] at h
  | succ depth => exact moves_line closing ⟨unit, depth, text⟩ s' h

theorem moves_commentLines (lines : List String) : Moves id (·.commentLines lines) := by
  induction lines with
  | nil => intro s s' h; cases h; exact ⟨rfl, rfl⟩
  | cons line rest ih => exact (moves_line _).bind ih

theorem moves_comment (description : Json) : Moves id (·.comment description) := by
  unfold comment
  cases description.truthy with
  | false => intro s s' h; cases h; exact ⟨rfl, rfl⟩
  | true =>
      refine (moves_line _).bind (b := id) ?_
      cases description with
      | str text => exact (moves_commentLines _).bind (moves_line _)
      | _ => intro s s' h; cases h

end Sheet

mutual
/-- An item closes the blocks that it opens. -/
theorem Item.moves_write : (item : Item) → Sheet.Moves id item.write
  | .blank => Sheet.moves_line _
  | .comment _ => Sheet.moves_comment _
  | .integerAlias => Sheet.moves_line _
  | .typeAlias _ _ => by
      intro s s' h
      obtain ⟨_, _, h⟩ := bind_eq_ok.1 h
      exact Sheet.moves_line _ s s' h
  | .property _ => by
      intro s s' h
      obtain ⟨_, _, h⟩ := bind_eq_ok.1 h
      exact Sheet.moves_line _ s s' h
  | .openProperties => Sheet.moves_line _
  | .field _ _ => Sheet.moves_line _
  | .method _ _ _ => Sheet.moves_line _
  | .listener _ _ => Sheet.moves_line _
  | .block _ _ body =>
      (Sheet.moves_beginBlock _ _).bind ((moves_writeItems body).bind (Sheet.moves_endBlock _))

theorem moves_writeItems : (items : List Item) → Sheet.Moves id (writeItems · items)
  | [] => by intro s s' h; cases h; exact ⟨rfl, rfl⟩
  | item :: rest => (Item.moves_write item).bind (moves_writeItems rest)
end

/-! ## The text that is added -/

namespace Sheet

/-- What is written on an empty sheet. -/
def written (f : Sheet → Except Fault Sheet) (unit : Json) (depth : Nat) : Except Fault String :=
  (f { unit, depth, text := "" }).map (·.text)

theorem Blind.eq_written {f : Sheet → Except Fault Sheet} (hf : Blind f) (hm : Moves id f) (s : Sheet) :
    f s = (written f s.unit s.depth).map s.add := by
  have h := hf s.text { s with text := "" }
  simp only [prepend, String.append_empty] at h
  rw [h, written]
  cases h1 : f { s with text := "" } with
  | error fault => rfl
  | ok s' =>
      obtain ⟨hu, hd⟩ := hm _ _ h1
      simp only [id_eq] at hd
      simp [prepend, add, hu, hd]

/-- What is written one after the other is put together. -/
theorem Blind.written_bind {f g : Sheet → Except Fault Sheet} {move : Nat → Nat} (hf : Moves move f)
    (hg : Blind g) (unit : Json) (depth : Nat) :
    written (fun s => f s >>= g) unit depth =
      (do return (← written f unit depth) ++ (← written g unit (move depth))) := by
  simp only [written]
  cases h : f { unit, depth, text := "" } with
  | error fault => rfl
  | ok s =>
      obtain ⟨hu, hd⟩ := hf _ _ h
      have hs : s = prepend s.text { unit, depth := move depth, text := "" } := by
        cases s; cases hu; cases hd; simp [prepend]
      have hgs := hg s.text { unit, depth := move depth, text := "" }
      rw [← hs] at hgs
      show (g s).map (·.text) = _
      rw [hgs]
      cases g { unit, depth := move depth, text := "" } <;> rfl

end Sheet

/-- A text between its margin and a line end. -/
def lineText (unit : Json) (depth : Nat) (text : String) : Except Fault String := do
  return (← indentation unit depth) ++ text ++ "\n"

theorem written_line {text : String} (h : text ≠ "") (unit : Json) (depth : Nat) :
    Sheet.written (·.line text) unit depth = lineText unit depth text := by
  simp only [Sheet.written, Sheet.line, h, ↓reduceIte, lineText]
  cases indentation unit depth with
  | error fault => rfl
  | ok margin => simp [Sheet.add]

/-- What an item adds to a sheet with `depth` open blocks. -/
def Item.text (unit : Json) (depth : Nat) (item : Item) : Except Fault String :=
  Sheet.written item.write unit depth

def itemsText (unit : Json) (depth : Nat) (items : List Item) : Except Fault String :=
  Sheet.written (writeItems · items) unit depth

theorem writeItems_eq (s : Sheet) (items : List Item) :
    writeItems s items = (itemsText s.unit s.depth items).map s.add :=
  (blind_writeItems items).eq_written (moves_writeItems items) s

section
variable (unit : Json) (depth : Nat)

theorem itemsText_cons (item : Item) (rest : List Item) :
    itemsText unit depth (item :: rest) =
      (do return (← item.text unit depth) ++ (← itemsText unit depth rest)) :=
  Sheet.Blind.written_bind item.moves_write (blind_writeItems rest) unit depth

theorem Item.text_blank : Item.text unit depth .blank = .ok "\n" := rfl

theorem Item.text_comment_of_not_truthy {description : Json} (h : description.truthy = false) :
    Item.text unit depth (.comment description) = .ok "" := by
  simp [Item.text, Sheet.written, Item.write, Sheet.comment, h]

/-- The lines of a comment between its first and its last. -/
def commentLinesText (unit : Json) (depth : Nat) (lines : List String) : Except Fault String :=
  Sheet.written (·.commentLines lines) unit depth

theorem commentLinesText_cons (line : String) (rest : List String) :
    commentLinesText unit depth (line :: rest) =
      (do return (← lineText unit depth (" * " ++ line)) ++ (← commentLinesText unit depth rest)) := by
  rw [← written_line (by simp)]
  exact Sheet.Blind.written_bind (Sheet.moves_line _) (Sheet.blind_commentLines rest) unit depth

theorem Item.text_comment_str {s : String} (h : s ≠ "") :
    Item.text unit depth (.comment (.str s)) =
      (do return (← lineText unit depth "/**") ++
        ((← commentLinesText unit depth (Text.lines s)) ++ (← lineText unit depth " */"))) := by
  rw [← written_line (by decide), ← written_line (by decide)]
  have htruthy : (Json.str s).truthy = true := by simp [Json.truthy, h]
  have hinner := Sheet.Blind.written_bind (Sheet.moves_commentLines (Text.lines s)) (Sheet.blind_line " */") unit depth
  have houter := Sheet.Blind.written_bind (Sheet.moves_line "/**")
    ((Sheet.blind_commentLines (Text.lines s)).bind (Sheet.blind_line " */")) unit depth
  simp only [id_eq] at hinner houter
  rw [hinner] at houter
  simp only [Item.text, Item.write, Sheet.comment, htruthy, ↓reduceIte]
  exact houter.trans (by simp only [commentLinesText, bind_assoc, pure_bind])

theorem Item.text_integerAlias :
    Item.text unit depth .integerAlias = lineText unit depth "export type integer = number" :=
  written_line (by decide) unit depth

theorem Item.text_openProperties :
    Item.text unit depth .openProperties = lineText unit depth "[key: string]: string;" :=
  written_line (by decide) unit depth

theorem Item.text_field (name type : String) :
    Item.text unit depth (.field name type) = lineText unit depth (name ++ ": " ++ type ++ ";") :=
  written_line (by simp) unit depth

theorem Item.text_method (name : String) (payload result : Option String) :
    Item.text unit depth (.method name payload result) = lineText unit depth (methodText name payload result) :=
  written_line (by simp [methodText]) unit depth

theorem Item.text_listener (event payload : String) :
    Item.text unit depth (.listener event payload) = lineText unit depth (listenerText event payload) :=
  written_line (by simp [listenerText]) unit depth

theorem Item.text_typeAlias (name : String) (shape : Shape) :
    Item.text unit depth (.typeAlias name shape) =
      (do lineText unit depth ("export type " ++ name ++ " = " ++ (← shape.typeText unit depth) ++ ";")) := by
  show Sheet.written (fun s => shape.typeText s.unit s.depth >>= _) unit depth = _
  simp only [Sheet.written]
  cases shape.typeText unit depth with
  | error fault => rfl
  | ok text => exact @written_line ("export type " ++ name ++ " = " ++ text ++ ";") (by simp) unit depth

theorem Item.text_property (p : Property) :
    Item.text unit depth (.property p) = (do lineText unit depth ((← p.typeText unit depth) ++ ";")) := by
  show Sheet.written (fun s => p.typeText s.unit s.depth >>= _) unit depth = _
  simp only [Sheet.written]
  cases p.typeText unit depth with
  | error fault => rfl
  | ok text => exact @written_line (text ++ ";") (by simp) unit depth

theorem Item.text_block (kind : BlockKind) (name : String) (body : List Item) :
    Item.text unit depth (.block kind name body) =
      (do return (← lineText unit depth (kind.keyword ++ name ++ " \x7b")) ++
        ((← itemsText unit (depth + 1) body) ++ (← lineText unit depth "\x7d"))) := by
  have hopen := Sheet.moves_beginBlock (kind.keyword ++ name) " \x7b"
  have hbody := moves_writeItems body
  have hclose : Sheet.written (·.endBlock) unit (depth + 1) = lineText unit depth "\x7d" :=
    written_line (by decide) unit depth
  have hline : Sheet.written (·.beginBlock (kind.keyword ++ name)) unit depth =
      lineText unit depth (kind.keyword ++ name ++ " \x7b") := by
    rw [← written_line (by simp) unit depth]
    simp only [Sheet.written, Sheet.beginBlock]
    cases Sheet.line _ _ <;> rfl
  rw [← hline, ← hclose, itemsText]
  exact (Sheet.Blind.written_bind hopen ((blind_writeItems body).bind (Sheet.blind_endBlock _)) unit depth).trans
    (by rw [Sheet.Blind.written_bind hbody (Sheet.blind_endBlock _)]
        simp only [id_eq, bind_assoc, pure_bind])

end

/-! ## Modules -/

theorem exportText_eq (name : String) : exportText name = "\nexport default " ++ name ++ ";\n" := rfl

/-- The text of a module is that of its items between a head and an export. -/
theorem DeclarationModule.text_eq (m : DeclarationModule) (unit : Json) (banner : Bool) :
    m.text unit banner = (itemsText unit 0 m.items).map fun t =>
      headText banner m.imports ++ (if m.imports.isEmpty then "" else "\n") ++ t ++ exportText m.name := by
  rw [DeclarationModule.text]
  split
  · simp only [ok_bind, writeItems_eq, String.append_empty]
    show Except.map _ (itemsText unit 0 m.items) >>= _ = _
    cases itemsText unit 0 m.items <;> rfl
  · simp only [Sheet.line, ↓reduceIte, ok_bind, writeItems_eq]
    show Except.map _ (itemsText unit 0 m.items) >>= _ = _
    cases itemsText unit 0 m.items <;> rfl

end ProtocolTypings
