import ProtocolTypings.Proofs.Artifact.Weight
import ProtocolTypings.Proofs.Outcome
import ProtocolTypings.Typing.TypeText

/-!
# What a type expression says

Shapes that are written alike have one form: it keeps the names, the values of unions, lists and the members of objects
in their order, and forgets the places and what any value at all is called for. The text of a shape is that of its form.
-/

namespace ProtocolTypings

inductive TypeForm where
  | name (text : String)
  | union (values : List String)
  | array (items : TypeForm)
  /-- The members by name, whether they are optional, and their forms. -/
  | object (members : List (String × Bool × TypeForm))

mutual
def Shape.form : Shape → TypeForm
  | .ref _ target => .name target
  | .array _ items => .array items.form
  | .bareArray _ => .array (.name "any")
  | .object _ properties => .object (memberForms properties)
  | .openObject _ => .name "any"
  | .primitive _ "string" (some values) => .union values
  | .primitive _ kind _ => .name kind
  | .unknown _ => .name "any"

def memberForms : List Property → List (String × Bool × TypeForm)
  | [] => []
  | p :: ps => p.form :: memberForms ps

def Property.form : Property → String × Bool × TypeForm
  | ⟨name, shape, optional, _, _⟩ => (name, optional, shape.form)
end

/-! ## Text -/

/-- The margin at a depth, in characters. -/
def marginChars (indent : String) (depth : Int) : List Char :=
  (margin indent depth.toNat).toList

/-- A member up to its type. -/
def labelChars (name : String) (optional : Bool) : List Char :=
  (Name.property name).toList ++ (if optional then ['?'] else []) ++ [':', ' ']

section

variable (indent : String)

mutual
def TypeForm.chars (depth : Int) : TypeForm → List Char
  | .name text => text.toList
  | .union values => (unionText values).toList
  | .array items => items.chars depth ++ ['[', ']']
  | .object members =>
    ['\x7b', '\n'] ++ memberChars (depth + 1) members ++ (marginChars indent depth ++ ['\x7d'])

def memberChars (depth : Int) : List (String × Bool × TypeForm) → List Char
  | [] => []
  | (name, optional, form) :: rest =>
    marginChars indent depth ++ labelChars name optional ++ form.chars depth ++ [';', '\n'] ++ memberChars depth rest
end

theorem indentation_eq (depth : Int) :
    indentation (.str indent) depth = .ok (String.ofList (marginChars indent depth)) := by
  rw [marginChars, String.ofList_toList]
  rfl

theorem labelChars_eq (name : String) (optional : Bool) :
    Name.property name ++ (if optional then "?" else "") ++ ": " = String.ofList (labelChars name optional) := by
  rw [← String.toList_inj]
  cases optional <;> simp [labelChars]

mutual
theorem Shape.typeText_eq (depth : Int) :
    (s : Shape) → s.typeText (.str indent) depth = .ok (String.ofList (s.form.chars indent depth))
  | .ref _ target => by simp [Shape.typeText, Shape.form, TypeForm.chars]
  | .array _ items => by
      rw [Shape.typeText, Shape.typeText_eq depth items]
      simp [Shape.form, TypeForm.chars]
  | .bareArray _ => by simp [Shape.typeText, Shape.form, TypeForm.chars]
  | .object _ properties => by
      rw [Shape.typeText, membersText_eq (depth + 1) properties, indentation_eq]
      simp only [ok_bind, pure_eq_ok, Shape.form, TypeForm.chars, Except.ok.injEq, ← String.toList_inj]
      simp
  | .openObject _ => by simp [Shape.typeText, Shape.form, TypeForm.chars]
  | .primitive _ kind none => by simp [Shape.typeText, Shape.form, TypeForm.chars]
  | .primitive _ kind (some values) => by
      by_cases hkind : kind = "string"
      · subst hkind
        simp [Shape.typeText, Shape.form, TypeForm.chars]
      · simp [Shape.typeText, Shape.form, TypeForm.chars, hkind]
  | .unknown _ => by simp [Shape.typeText, Shape.form, TypeForm.chars]

theorem membersText_eq (depth : Int) :
    (ps : List Property) →
      membersText (.str indent) depth ps = .ok (String.ofList (memberChars indent depth (memberForms ps)))
  | [] => by simp [membersText, memberForms, memberChars]
  | ⟨name, shape, optional, _, _⟩ :: ps => by
      rw [membersText, Property.typeText, Shape.typeText_eq depth shape, indentation_eq, membersText_eq depth ps]
      simp only [ok_bind, pure_eq_ok, labelChars_eq, memberForms, Property.form, memberChars, Except.ok.injEq,
        ← String.toList_inj]
      simp
end

/-- Under a text as indentation every shape is written. -/
theorem Shape.exists_typeText (depth : Int) (s : Shape) : ∃ t, s.typeText (.str indent) depth = .ok t :=
  ⟨_, s.typeText_eq indent depth⟩

theorem Property.exists_typeText (depth : Int) (p : Property) : ∃ t, p.typeText (.str indent) depth = .ok t := by
  obtain ⟨name, shape, optional, description, marks⟩ := p
  obtain ⟨t, ht⟩ := shape.exists_typeText indent depth
  exact ⟨_, by rw [Property.typeText, ht]; rfl⟩

end

end ProtocolTypings
