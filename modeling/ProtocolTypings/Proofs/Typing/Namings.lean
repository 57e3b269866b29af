import ProtocolTypings.Proofs.Typing.Marked
import ProtocolTypings.Schema.Reference

/-!
# Names in a marked text

Read from front to back, a marked text tells every name together with the blocks around it. What is read is what the
tree of its items names.
-/

namespace ProtocolTypings

/-- A name in a module text, what it stands for, and the names of the blocks around it from the outermost on. -/
structure Naming where
  scope : List String
  mark : Mark
  name : String
deriving DecidableEq

namespace Naming

def qualified (n : Naming) : String :=
  ".".intercalate (n.scope ++ [n.name])

/-- Names that all stand for the same in the same block. -/
def each (scope : List String) (mark : Mark) (names : List String) : List Naming :=
  names.map (⟨scope, mark, ·⟩)

/-- The names with a mark, in order. -/
def names (mark : Mark) (ns : List Naming) : List String :=
  (ns.filter (·.mark = mark)).map (·.name)

/-- The names with a mark that stand directly in a block. -/
def namesUnder (scope : List String) (mark : Mark) (ns : List Naming) : List String :=
  names mark (ns.filter (·.scope = scope))

/-- The names of the records as seen from outside all blocks. -/
def records (ns : List Naming) : List String :=
  (ns.filter (·.mark = .record)).map (·.qualified)

end Naming

/-- The names in a marked text that starts inside the blocks `path`. -/
def Marked.namings (path : List String) : Marked → List Naming
  | [] => []
  | stretch :: rest =>
    match stretch.mark with
    | none => namings path rest
    | some .closing => namings path.dropLast rest
    | some .scope => ⟨path, .scope, stretch.text⟩ :: namings (path ++ [stretch.text]) rest
    | some .record => ⟨path, .record, stretch.text⟩ :: namings (path ++ [stretch.text]) rest
    | some mark => ⟨path, mark, stretch.text⟩ :: namings path rest

mutual
/-- The names in an item that stands inside the blocks `path`. -/
def Item.namings (path : List String) : Item → List Naming
  | .typeAlias _ shape => Naming.each path .reference shape.references
  | .property p => Naming.each path .reference p.references
  | .field _ type => [⟨path, .field, type⟩]
  | .method _ payload result => Naming.each path .payload (payload.toList ++ result.toList)
  | .listener _ payload => [⟨path, .payload, payload⟩]
  | .block kind name body => ⟨path, kind.mark, name⟩ :: namingsIn (path ++ [name]) body
  | .blank | .comment _ | .integerAlias | .openProperties => []

def namingsIn (path : List String) : List Item → List Naming
  | [] => []
  | item :: rest => item.namings path ++ namingsIn path rest
end

theorem namingsIn_eq_flatMap (path : List String) (items : List Item) :
    namingsIn path items = items.flatMap (·.namings path) := by
  induction items with
  | nil => rfl
  | cons item rest ih => rw [namingsIn, ih, List.flatMap_cons]

/-- A name of an item. The blocks around it are those around the item and further ones, and it is neither imported nor
exported. -/
def Naming.Within (path : List String) (n : Naming) : Prop :=
  path <+: n.scope ∧ n.mark ≠ .imported ∧ n.mark ≠ .exported

theorem within_each {path : List String} {mark : Mark} (h : mark ≠ .imported ∧ mark ≠ .exported) (all : List String) :
    ∀ n ∈ Naming.each path mark all, n.Within path := by
  intro n hn
  obtain ⟨name, -, rfl⟩ := List.mem_map.1 hn
  exact ⟨List.prefix_refl path, h⟩

mutual
theorem Item.within_namings (path : List String) : (item : Item) → ∀ n ∈ item.namings path, n.Within path
  | .typeAlias _ _ => within_each (by decide) _
  | .property _ => within_each (by decide) _
  | .field _ _ => within_each (by decide) [_]
  | .method _ _ _ => within_each (by decide) _
  | .listener _ _ => within_each (by decide) [_]
  | .block kind name body => by
      intro n hn
      rcases List.mem_cons.1 hn with rfl | hn
      · exact ⟨List.prefix_refl path, by cases kind <;> simp [BlockKind.mark]⟩
      · obtain ⟨hscope, hmark⟩ := within_namingsIn (path ++ [name]) body n hn
        exact ⟨(List.prefix_append path [name]).trans hscope, hmark⟩
  | .blank => by simp [Item.namings]
  | .comment _ => by simp [Item.namings]
  | .integerAlias => by simp [Item.namings]
  | .openProperties => by simp [Item.namings]

theorem within_namingsIn (path : List String) : (items : List Item) → ∀ n ∈ namingsIn path items, n.Within path
  | [] => by simp [namingsIn]
  | item :: rest => by
      intro n hn
      rcases List.mem_append.1 hn with hn | hn
      · exact Item.within_namings path item n hn
      · exact within_namingsIn path rest n hn
end

/-! ## Reading shapes -/

@[simp] theorem namings_filler (path : List String) (text : String) (rest : Marked) :
    Marked.namings path (filler text :: rest) = Marked.namings path rest := rfl

mutual
/-- A shape names the targets of its references and opens no block. -/
theorem Shape.namings_marked (path : List String) {unit : Json} {depth : Int} :
    (s : Shape) → {m : Marked} → s.marked unit depth = .ok m → (rest : Marked) →
    Marked.namings path (m ++ rest) = Naming.each path .reference s.references ++ Marked.namings path rest
  | .ref _ target, m, h, rest => by
      cases h
      rfl
  | .array _ items, m, h, rest => by
      obtain ⟨inner, hinner, h⟩ := bind_eq_ok.1 h
      cases h
      rw [List.append_assoc, Shape.namings_marked path items hinner, Shape.references]
      rfl
  | .object _ properties, m, h, rest => by
      obtain ⟨members, hmembers, h⟩ := bind_eq_ok.1 h
      obtain ⟨margin, -, h⟩ := bind_eq_ok.1 h
      cases h
      rw [List.append_assoc, List.cons_append, namings_filler, namings_markedMembers path properties hmembers,
        Shape.references]
      rfl
  | .bareArray _, m, h, rest => by
      cases h
      rfl
  | .openObject _, m, h, rest => by
      cases h
      rfl
  | .primitive _ _ _, m, h, rest => by
      obtain ⟨text, -, h⟩ := bind_eq_ok.1 h
      cases h
      rfl
  | .unknown _, m, h, rest => by
      cases h
      rfl

theorem namings_markedMembers (path : List String) {unit : Json} {depth : Int} :
    (ps : List Property) → {m : Marked} → markedMembers unit depth ps = .ok m → (rest : Marked) →
    Marked.namings path (m ++ rest) = Naming.each path .reference (referencesOfAll ps) ++ Marked.namings path rest
  | [], m, h, rest => by
      cases h
      rfl
  | p :: ps, m, h, rest => by
      obtain ⟨margin, -, h⟩ := bind_eq_ok.1 h
      obtain ⟨first, hfirst, h⟩ := bind_eq_ok.1 h
      obtain ⟨others, hothers, h⟩ := bind_eq_ok.1 h
      cases h
      simp only [List.cons_append, List.append_assoc, List.nil_append, namings_filler,
        Property.namings_marked path p hfirst, namings_markedMembers path ps hothers]
      simp [referencesOfAll, Naming.each]

theorem Property.namings_marked (path : List String) {unit : Json} {depth : Int} :
    (p : Property) → {m : Marked} → p.marked unit depth = .ok m → (rest : Marked) →
    Marked.namings path (m ++ rest) = Naming.each path .reference p.references ++ Marked.namings path rest
  | ⟨_, shape, _, _, _⟩, m, h, rest => by
      obtain ⟨inner, hinner, h⟩ := bind_eq_ok.1 h
      cases h
      exact Shape.namings_marked path shape hinner rest
end

/-! ## Reading items -/

theorem namings_markedLine {path : List String} {unit : Json} {depth : Nat} {stretches m : Marked} {ns : List Naming}
    (h : markedLine unit depth stretches = .ok m)
    (hs : ∀ rest, Marked.namings path (stretches ++ rest) = ns ++ Marked.namings path rest) (rest : Marked) :
    Marked.namings path (m ++ rest) = ns ++ Marked.namings path rest := by
  obtain ⟨margin, -, h⟩ := bind_eq_ok.1 h
  cases h
  rw [List.append_assoc, List.cons_append, namings_filler, hs]
  rfl

theorem namings_markedMethod (path : List String) (name : String) (payload result : Option String) (rest : Marked) :
    Marked.namings path (markedMethod name payload result ++ rest) =
      Naming.each path .payload (payload.toList ++ result.toList) ++ Marked.namings path rest := by
  cases payload <;> cases result <;> rfl

/-- An item without a name in it is a stretch without a mark. -/
theorem namings_of_filler {path : List String} {t : Except Fault String} {m : Marked}
    (h : (do return [filler (← t)]) = Except.ok m) (rest : Marked) :
    Marked.namings path (m ++ rest) = Marked.namings path rest := by
  obtain ⟨text, -, h⟩ := bind_eq_ok.1 h
  cases h
  rfl

mutual
theorem Item.namings_marked (path : List String) {unit : Json} {depth : Nat} :
    (item : Item) → {m : Marked} → item.marked unit depth = .ok m → (rest : Marked) →
    Marked.namings path (m ++ rest) = item.namings path ++ Marked.namings path rest
  | .typeAlias _ shape, m, h, rest => by
      obtain ⟨inner, hinner, h⟩ := bind_eq_ok.1 h
      refine namings_markedLine h (fun rest => ?_) rest
      rw [List.append_assoc, List.cons_append, namings_filler, Shape.namings_marked path shape hinner]
      rfl
  | .property p, m, h, rest => by
      obtain ⟨inner, hinner, h⟩ := bind_eq_ok.1 h
      refine namings_markedLine h (fun rest => ?_) rest
      rw [List.append_assoc, Property.namings_marked path p hinner]
      rfl
  | .field _ _, m, h, rest => namings_markedLine h (fun _ => rfl) rest
  | .method name payload result, m, h, rest => namings_markedLine h (namings_markedMethod path name payload result) rest
  | .listener _ _, m, h, rest => namings_markedLine h (fun _ => rfl) rest
  | .block kind name body, m, h, rest => by
      obtain ⟨header, hheader, h⟩ := bind_eq_ok.1 h
      obtain ⟨inner, hinner, h⟩ := bind_eq_ok.1 h
      obtain ⟨closing, hclosing, h⟩ := bind_eq_ok.1 h
      obtain ⟨margin, -, hheader⟩ := bind_eq_ok.1 hheader
      obtain ⟨margin', -, hclosing⟩ := bind_eq_ok.1 hclosing
      cases h
      cases hheader
      cases hclosing
      -- behind the header the block is on the path, and its closing takes it off again
      have hbody := namings_markedItems (path ++ [name]) body hinner
        (filler margin' :: ⟨some .closing, "\x7d"⟩ :: filler "\n" :: rest)
      have hclose : Marked.namings (path ++ [name])
          (filler margin' :: ⟨some .closing, "\x7d"⟩ :: filler "\n" :: rest) = Marked.namings path rest := by
        show Marked.namings (path ++ [name]).dropLast rest = _
        rw [List.dropLast_concat]
      rw [hclose] at hbody
      simp only [List.cons_append, List.append_assoc, List.nil_append, namings_filler, Item.namings, ← hbody]
      cases kind <;> rfl
  | .blank, m, h, rest => namings_of_filler h rest
  | .comment _, m, h, rest => namings_of_filler h rest
  | .integerAlias, m, h, rest => namings_of_filler h rest
  | .openProperties, m, h, rest => namings_of_filler h rest

theorem namings_markedItems (path : List String) {unit : Json} {depth : Nat} :
    (items : List Item) → {m : Marked} → markedItems unit depth items = .ok m → (rest : Marked) →
    Marked.namings path (m ++ rest) = namingsIn path items ++ Marked.namings path rest
  | [], m, h, rest => by
      cases h
      rfl
  | item :: others, m, h, rest => by
      obtain ⟨first, hfirst, h⟩ := bind_eq_ok.1 h
      obtain ⟨second, hsecond, h⟩ := bind_eq_ok.1 h
      cases h
      rw [List.append_assoc, Item.namings_marked path item hfirst, namings_markedItems path others hsecond,
        namingsIn, List.append_assoc]
end

/-! ## Reading modules -/

theorem namings_markedImports (imports : List String) (rest : Marked) :
    Marked.namings [] (imports.flatMap markedImport ++ rest) =
      Naming.each [] .imported (imports.map Text.capitalize) ++ Marked.namings [] rest := by
  induction imports with
  | nil => rfl
  | cons module others ih =>
      rw [List.flatMap_cons, List.append_assoc]
      exact congrArg (⟨[], .imported, Text.capitalize module⟩ :: ·) ih

/-- What a module names. -/
def DeclarationModule.namings (m : DeclarationModule) : List Naming :=
  Naming.each [] .imported (m.imports.map Text.capitalize) ++ (namingsIn [] m.items ++ [⟨[], .exported, m.name⟩])

theorem DeclarationModule.namings_marked {m : DeclarationModule} {unit : Json} {banner : Bool} {marked : Marked}
    (h : m.marked unit banner = .ok marked) : marked.namings [] = m.namings := by
  obtain ⟨items, hitems, h⟩ := bind_eq_ok.1 h
  cases h
  rw [List.append_assoc, List.cons_append, namings_filler, namings_markedImports, List.cons_append, namings_filler,
    namings_markedItems [] m.items hitems]
  rfl

end ProtocolTypings
