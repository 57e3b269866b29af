import ProtocolTypings.Proofs.Artifact.Composition
import ProtocolTypings.Proofs.Artifact.Descriptions
import ProtocolTypings.Proofs.Typing.Comment

/-!
# Interfaces and objects

The properties of an object are written in two ways: as the body of an interface, line after line on a sheet, and as a
type expression in the middle of a line. Both give the same lines at the same depths, and the interface has the comments
of its properties in between.
-/

namespace ProtocolTypings

/-- What stands for a property in an interface: its comment, and the line with its name. The line may go on over the
lines of an object. -/
structure MemberText where
  comment : String
  line : String

/-- The comment is what the description adds to a sheet at that depth, the line is the property as it is written there. -/
structure Property.WrittenAs (unit : Json) (depth : Nat) (p : Property) (m : MemberText) : Prop where
  comment : ∀ s : Sheet, s.unit = unit → s.depth = depth → s.comment p.description = .ok (s.add m.comment)
  bare : p.description.truthy = false → m.comment = ""
  line : ∃ start text, indentation unit depth = .ok start ∧ p.typeText unit depth = .ok text ∧
    m.line = start ++ text ++ ";\n"

/-- Lines between braces. The closing brace stands behind the margin. -/
def braced (start : String) (lines : List String) : String :=
  "\x7b\n" ++ String.join lines ++ start ++ "\x7d"

section

variable {indent : String}

theorem exists_commentText (indent : String) {description : Json} (h : Describes description) (depth : Nat) :
    ∃ comment, Item.text (.str indent) depth (.comment description) = .ok comment ∧
      (description.truthy = false → comment = "") := by
  rcases h with hnone | ⟨text, rfl⟩
  · exact ⟨"", Item.text_comment_of_not_truthy _ depth hnone, fun _ => rfl⟩
  · by_cases htext : text = ""
    · subst htext
      exact ⟨"", rfl, fun _ => rfl⟩
    · have hrows := comment_eq_rows htext (s := ⟨.str indent, depth, ""⟩) rfl
      refine ⟨_, congrArg (Except.map Sheet.text) hrows, fun hfalsy => ?_⟩
      simp [Json.truthy, htext] at hfalsy

theorem Sheet.comment_eq_text {description : Json} {comment : String} {s : Sheet}
    (h : Item.text s.unit s.depth (.comment description) = .ok comment) :
    s.comment description = .ok (s.add comment) := by
  rw [Sheet.Blind.eq_written (Sheet.blind_comment description) (Sheet.moves_comment description)]
  exact congrArg (Except.map s.add) h

/-- The two items of a property are its comment and its line. -/
theorem Property.exists_writtenAs (indent : String) {p : Property} (h : Describes p.description) (depth : Nat) :
    ∃ m : MemberText, p.WrittenAs (.str indent) depth m ∧
      Item.text (.str indent) depth (.comment p.description) = .ok m.comment ∧
      Item.text (.str indent) depth (.property p) = .ok m.line := by
  obtain ⟨comment, hcomment, hbare⟩ := exists_commentText indent h depth
  obtain ⟨text, htext⟩ := p.exists_typeText indent depth
  have hline : Item.text (.str indent) depth (.property p) = .ok (margin indent depth ++ text ++ ";\n") := by
    have hend : ";\n" = ";" ++ "\n" := rfl
    rw [Item.text_property, htext, ok_bind, lineText_margin, hend]
    simp [String.append_assoc]
  refine ⟨⟨comment, margin indent depth ++ text ++ ";\n"⟩, ⟨?_, hbare, ?_⟩, hcomment, hline⟩
  · intro s hunit hdepth
    apply Sheet.comment_eq_text
    rw [hunit, hdepth, hcomment]
  · exact ⟨margin indent depth, text, rfl, htext, rfl⟩

theorem Property.WrittenAs.membersText_cons {depth : Nat} {p : Property} {m : MemberText}
    (h : p.WrittenAs (.str indent) depth m) (ps : List Property) :
    membersText (.str indent) depth (p :: ps) = (membersText (.str indent) depth ps).map (m.line ++ ·) := by
  obtain ⟨start, text, hstart, htext, hline⟩ := h.line
  rw [membersText, hstart, htext, hline]
  cases membersText (.str indent) depth ps <;> rfl

/-- The items of an interface are written as the lines of an object with the comments in between. -/
theorem exists_members (indent : String) {ps : List Property} (h : ∀ p ∈ ps, Describes p.description) (depth : Nat) :
    ∃ ms : List MemberText, List.Forall₂ (Property.WrittenAs (.str indent) depth) ps ms ∧
      membersText (.str indent) depth ps = .ok (String.join (ms.map (·.line))) ∧
      itemsText (.str indent) depth (ps.flatMap fun p => [.comment p.description, .property p]) =
        .ok (String.join (ms.map fun m => m.comment ++ m.line)) := by
  induction ps with
  | nil => exact ⟨[], .nil, rfl, rfl⟩
  | cons p ps ih =>
      rw [List.forall_mem_cons] at h
      obtain ⟨ms, hms, hlines, hitems⟩ := ih h.2
      obtain ⟨m, hm, hcomment, hline⟩ := Property.exists_writtenAs indent h.1 depth
      refine ⟨m :: ms, .cons hm hms, ?_, ?_⟩
      · rw [hm.membersText_cons, hlines, List.map_cons, String.join_cons]
        rfl
      · rw [List.flatMap_cons, itemsText_append, itemsText_cons, itemsText_cons, hcomment, hline, itemsText_nil, hitems,
          List.map_cons, String.join_cons]
        simp

theorem Shape.typeText_object {depth : Nat} {ps : List Property} {lines : List String}
    (h : membersText (.str indent) (depth + 1 : Nat) ps = .ok (String.join lines)) (place : Place) :
    (Shape.object place ps).typeText (.str indent) depth = .ok (braced (margin indent depth) lines) := by
  rw [Int.natCast_add, Int.natCast_one] at h
  rw [Shape.typeText, h]
  rfl

theorem Item.text_record {depth : Nat} {body : List Item} {lines : List String}
    (h : itemsText (.str indent) (depth + 1) body = .ok (String.join lines)) (name : String) :
    Item.text (.str indent) depth (.block .record name body) =
      .ok (margin indent depth ++ "export interface " ++ name ++ " " ++ braced (margin indent depth) lines ++ "\n") := by
  rw [Item.text_block, lineText_margin, lineText_margin, h]
  simp only [ok_bind, pure_eq_ok, BlockKind.keyword, braced, Except.ok.injEq, ← String.toList_inj]
  simp

/-- An interface on a sheet is the object of its properties behind a header: line for line the same text at the same
depth, but each property comes after the comment of its description. The depth is the same again afterwards. -/
theorem interfaceItem_write (name : String) {ps : List Property} (hps : ∀ p ∈ ps, Describes p.description) {s : Sheet}
    (hunit : s.unit = .str indent) (place : Place) :
    ∃ ms : List MemberText, List.Forall₂ (Property.WrittenAs s.unit (s.depth + 1)) ps ms ∧
      (Shape.object place ps).typeText s.unit s.depth = .ok (braced (margin indent s.depth) (ms.map (·.line))) ∧
      ∃ s', (interfaceItem name (some ps)).write s = .ok s' ∧ s'.depth = s.depth ∧
        s'.text = s.text ++ (margin indent s.depth ++ "export interface " ++ name ++ " " ++
          braced (margin indent s.depth) (ms.map fun m => m.comment ++ m.line) ++ "\n") := by
  obtain ⟨ms, hms, hlines, hitems⟩ := exists_members indent hps (s.depth + 1)
  have htext := Item.text_record hitems name
  rw [hunit]
  refine ⟨ms, hms, Shape.typeText_object hlines place, ?_⟩
  rw [Sheet.Blind.eq_written (Item.blind_write _) (Item.moves_write _) s, hunit]
  exact ⟨_, congrArg (Except.map s.add) htext, rfl, rfl⟩

end

/-- A property with two lines of description that holds an object. The property of that object is described as well. -/
def frameProperties : List Property :=
  [⟨"parent.id", .ref default "Page.FrameId", true, .null, default⟩,
    ⟨"size", .object default [⟨"width", .primitive default "number" none, false, .str "In pixels", default⟩], false,
      .str "As shown,\nwithout bars", default⟩]

/-- In a block of a module: the comment of a property in an object is not written. -/
theorem interfaceItem_write_frame :
    (∀ p ∈ frameProperties, Describes p.description) ∧
    (∃ ms : List MemberText, List.Forall₂ (Property.WrittenAs (.str "  ") (1 + 1)) frameProperties ms ∧
      (Shape.object default frameProperties).typeText (.str "  ") (1 : Nat) =
        .ok (braced (margin "  " 1) (ms.map (·.line))) ∧
      ∃ s', (interfaceItem "Frame" (some frameProperties)).write ⟨.str "  ", 1, "export namespace Page \x7b\n"⟩ = .ok s' ∧
        s'.depth = 1 ∧
        s'.text = "export namespace Page \x7b\n" ++ (margin "  " 1 ++ "export interface " ++ "Frame" ++ " " ++
          braced (margin "  " 1) (ms.map fun m => m.comment ++ m.line) ++ "\n")) ∧
    ((interfaceItem "Frame" (some frameProperties)).write ⟨.str "  ", 1, ""⟩).toOption.map (·.text) = some
      ("  export interface Frame \x7b\n    'parent.id'?: Page.FrameId;\n    /**\n     * As shown,\n     * without bars\n" ++
        "     */\n    size: \x7b\n      width: number;\n    \x7d;\n  \x7d\n") := by
  have hdescribed : ∀ p ∈ frameProperties, Describes p.description := by
    simp [frameProperties, Describes, Json.truthy]
  refine ⟨hdescribed, ?_, by decide +kernel⟩
  exact interfaceItem_write "Frame" hdescribed (s := ⟨.str "  ", 1, "export namespace Page \x7b\n"⟩) rfl default

end ProtocolTypings
