import ProtocolTypings.Artifact.Edition
import ProtocolTypings.Proofs.Typing.Written

/-!
# Modules of several domains

Every domain contributes pieces of its own to a module. They depend on that domain alone and stand between fixed texts
in the order of the domains.
-/

namespace ProtocolTypings

/-! ## Pieces -/

/-- What is emitted for a list of domains is a text put together of fixed texts and of one piece or more for each domain.
It is made when it can be made for no domain and for each of them alone. -/
structure Composes (emit : List Domain → Except Fault String) (text : List Domain → String) : Prop where
  accepts : ∀ ds, (∃ t, emit ds = .ok t) ↔ (∃ t, emit [] = .ok t) ∧ ∀ d ∈ ds, ∃ t, emit [d] = .ok t
  text : ∀ ds t, emit ds = .ok t → t = text ds

/-- The text that is made, or an empty one. -/
def madeText (made : Except Fault String) : String :=
  made.toOption.getD ""

theorem exists_append_eq_ok {x y : Except Fault String} :
    (∃ t, (do return (← x) ++ (← y)) = Except.ok t) ↔ (∃ s, x = .ok s) ∧ ∃ t, y = .ok t := by
  cases x <;> cases y <;> simp

namespace Composes

variable {f g : List Domain → Except Fault String} {s t : List Domain → String}

theorem fixed (made : Except Fault String) : Composes (fun _ => made) fun _ => madeText made where
  accepts := fun _ => ⟨fun h => ⟨h, fun _ _ => h⟩, fun h => h.1⟩
  text := by
    rintro ds t rfl
    rfl

/-- What is never made is put together in any way. -/
theorem of_error (fault : Fault) (text : List Domain → String) : Composes (fun _ => .error fault) text where
  accepts := fun _ => ⟨fun h => ⟨h, fun _ _ => h⟩, fun h => h.1⟩
  text := nofun

theorem append (hf : Composes f s) (hg : Composes g t) :
    Composes (fun ds => do return (← f ds) ++ (← g ds)) fun ds => s ds ++ t ds where
  accepts := by
    intro ds
    simp only [exists_append_eq_ok]
    rw [hf.accepts ds, hg.accepts ds]
    constructor
    · rintro ⟨⟨hf, hfs⟩, hg, hgs⟩
      exact ⟨⟨hf, hg⟩, fun d hd => ⟨hfs d hd, hgs d hd⟩⟩
    · rintro ⟨⟨hf, hg⟩, h⟩
      exact ⟨⟨hf, fun d hd => (h d hd).1⟩, hg, fun d hd => (h d hd).2⟩
  text := by
    intro ds r h
    obtain ⟨u, hu, h⟩ := bind_eq_ok.1 h
    obtain ⟨v, hv, h⟩ := bind_eq_ok.1 h
    cases h
    rw [hf.text ds u hu, hg.text ds v hv]

theorem map (hf : Composes f s) (k : String → String) : Composes (fun ds => (f ds).map k) fun ds => k (s ds) where
  accepts := by
    intro ds
    have hmade (x : Except Fault String) : (∃ t, x.map k = .ok t) ↔ ∃ t, x = .ok t := by cases x <;> simp
    simp only [hmade]
    exact hf.accepts ds
  text := by
    intro ds t h
    obtain ⟨u, hu, rfl⟩ := map_eq_ok.1 h
    rw [hf.text ds u hu]

theorem congr (hf : Composes f s) (h : ∀ ds, s ds = t ds) : Composes f t :=
  ⟨hf.accepts, fun ds u hu => (hf.text ds u hu).trans (h ds)⟩

end Composes

/-! ## Items one after the other -/

section

variable (unit : Json) (depth : Nat)

theorem itemsText_nil : itemsText unit depth [] = .ok "" := rfl

theorem madeText_nil : madeText (itemsText unit depth []) = "" := rfl

theorem itemsText_append (items rest : List Item) :
    itemsText unit depth (items ++ rest) =
      (do return (← itemsText unit depth items) ++ (← itemsText unit depth rest)) := by
  induction items with
  | nil =>
      rw [List.nil_append, itemsText_nil]
      cases itemsText unit depth rest <;> simp
  | cons item items ih =>
      rw [List.cons_append, itemsText_cons, itemsText_cons, ih]
      cases item.text unit depth <;> cases itemsText unit depth items <;> cases itemsText unit depth rest <;>
        simp [String.append_assoc]

/-- The piece that a domain contributes by some of its items. -/
def pieceOf (items : Domain → List Item) (d : Domain) : String :=
  madeText (itemsText unit depth (items d))

/-- The items of one domain are written apart from those of the others. -/
theorem composes_flatMap (items : Domain → List Item) :
    Composes (fun ds => itemsText unit depth (ds.flatMap items))
      fun ds => String.join (ds.map (pieceOf unit depth items)) where
  accepts := by
    intro ds
    simp only [List.flatMap_nil, List.flatMap_singleton, itemsText_nil]
    induction ds with
    | nil => simp [itemsText_nil]
    | cons d ds ih =>
        rw [List.flatMap_cons, itemsText_append, exists_append_eq_ok, ih, List.forall_mem_cons, and_left_comm]
  text := by
    intro ds t h
    induction ds generalizing t with
    | nil =>
        cases h
        rfl
    | cons d ds ih =>
        rw [List.flatMap_cons, itemsText_append] at h
        obtain ⟨first, hfirst, h⟩ := bind_eq_ok.1 h
        obtain ⟨others, hothers, h⟩ := bind_eq_ok.1 h
        cases h
        rw [ih others hothers, List.map_cons, String.join_cons, pieceOf, hfirst]
        rfl

variable {unit depth}

theorem Composes.cons {item : List Domain → Item} {rest : List Domain → List Item} {s t : List Domain → String}
    (hitem : Composes (fun ds => (item ds).text unit depth) s)
    (hrest : Composes (fun ds => itemsText unit depth (rest ds)) t) :
    Composes (fun ds => itemsText unit depth (item ds :: rest ds)) fun ds => s ds ++ t ds := by
  simp only [itemsText_cons]
  exact hitem.append hrest

/-- The line with which a block starts. -/
def openingText (unit : Json) (depth : Nat) (kind : BlockKind) (name : String) : String :=
  madeText (lineText unit depth (kind.keyword ++ name ++ " \x7b"))

def closingText (unit : Json) (depth : Nat) : String :=
  madeText (lineText unit depth "\x7d")

theorem Composes.block {body : List Domain → List Item} {text : List Domain → String}
    (h : Composes (fun ds => itemsText unit (depth + 1) (body ds)) text) (kind : BlockKind) (name : String) :
    Composes (fun ds => Item.text unit depth (.block kind name (body ds))) fun ds =>
      openingText unit depth kind name ++ text ds ++ closingText unit depth := by
  have hlines := (Composes.fixed (lineText unit depth (kind.keyword ++ name ++ " \x7b"))).append
    (h.append (.fixed (lineText unit depth "\x7d")))
  simp only [Item.text_block]
  simp only [bind_assoc, pure_bind] at hlines ⊢
  exact hlines.congr fun ds => (String.append_assoc ..).symm

/-- What stands before the items of a module. -/
def preambleText (imports : List String) (banner : Bool) : String :=
  headText banner imports ++ (if imports.isEmpty then "" else "\n")

theorem Composes.module {items : List Domain → List Item} {text : List Domain → String}
    (h : Composes (fun ds => itemsText unit 0 (items ds)) text) (imports : List String) (name : String)
    (banner : Bool) :
    Composes (fun ds => DeclarationModule.text { imports, items := items ds, name } unit banner) fun ds =>
      preambleText imports banner ++ text ds ++ exportText name := by
  simp only [DeclarationModule.text_eq]
  exact h.map fun t => preambleText imports banner ++ t ++ exportText name

/-! ## Modules -/

variable (unit) (name protocol : String) (banner : Bool)

/-- The protocol module has a piece for each domain. -/
theorem composes_protocolModule :
    Composes (fun ds => (protocolModule name ds).text unit banner) fun ds =>
      preambleText [] banner ++ openingText unit 0 .scope name ++ madeText (itemsText unit 1 [.blank, .integerAlias]) ++
        String.join (ds.map (pieceOf unit 1 (·.protocolItems))) ++
        (closingText unit 0 ++ exportText name) := by
  have hbody := (Composes.fixed (itemsText unit 1 [.blank, .integerAlias])).append
    (composes_flatMap unit 1 (·.protocolItems))
  simp only [← itemsText_append] at hbody
  have hitems := (hbody.block .scope name).cons (.fixed (itemsText unit 0 []))
  refine (hitems.module [] name banner).congr fun ds => ?_
  simp only [madeText_nil, String.append_empty, String.append_assoc]

/-- The API module has a field and an interface for each domain. -/
theorem composes_apiModule :
    Composes (fun ds => (apiModule name protocol ds).text unit banner) fun ds =>
      preambleText [protocol] banner ++ madeText (Item.text unit 0 (.comment (.str apiSummary))) ++
        openingText unit 0 .scope name ++ madeText (Item.text unit 1 .blank) ++
        openingText unit 1 .record "ProtocolApi" ++
        String.join (ds.map (pieceOf unit 2 (·.apiField))) ++
        (closingText unit 1 ++ madeText (itemsText unit 1 [.blank])) ++
        String.join (ds.map (pieceOf unit 1 (·.apiItems (Text.capitalize protocol)))) ++
        (closingText unit 0 ++ exportText name) := by
  have hfields := (composes_flatMap unit 2 (·.apiField)).block .record "ProtocolApi"
  have hlist := (Composes.fixed (Item.text unit 1 .blank)).cons (hfields.cons (.fixed (itemsText unit 1 [.blank])))
  have hbody := hlist.append (composes_flatMap unit 1 (·.apiItems (Text.capitalize protocol)))
  simp only [← itemsText_append] at hbody
  have hscope := (hbody.block .scope name).cons (.fixed (itemsText unit 0 []))
  have hitems := (Composes.fixed (Item.text unit 0 (.comment (.str apiSummary)))).cons hscope
  refine (hitems.module [protocol] name banner).congr fun ds => ?_
  simp only [madeText_nil, String.append_empty, String.append_assoc]

/-- What the properties of an interface add to it, each under its description. -/
def membersOf (entries : Domain → List Property) (d : Domain) : List Item :=
  (entries d).flatMap fun p => [.comment p.description, .property p]

theorem composes_interfaceItem (depth : Nat) (entries : Domain → List Property) :
    Composes (fun ds => Item.text unit depth (interfaceItem name (some (ds.flatMap entries)))) fun ds =>
      openingText unit depth .record name ++ String.join (ds.map (pieceOf unit (depth + 1) (membersOf entries))) ++
        closingText unit depth := by
  have hmembers := (composes_flatMap unit (depth + 1) (membersOf entries)).block .record name
  simp only [interfaceItem, List.flatMap_assoc]
  exact hmembers

/-- The mapping module has the entries of the events and those of the commands of each domain. -/
theorem composes_mappingModule :
    Composes (fun ds => (mappingModule name protocol ds).text unit banner) fun ds =>
      preambleText [protocol] banner ++ madeText (Item.text unit 0 (.comment (.str mappingSummary))) ++
        openingText unit 0 .scope name ++ openingText unit 1 .record "Events" ++
        String.join (ds.map (pieceOf unit 2 (membersOf (·.eventEntries (Text.capitalize protocol))))) ++
        (closingText unit 1 ++ madeText (Item.text unit 1 .blank) ++ openingText unit 1 .record "Commands") ++
        String.join (ds.map (pieceOf unit 2 (membersOf (·.commandEntries (Text.capitalize protocol))))) ++
        (closingText unit 1 ++ closingText unit 0 ++ exportText name) := by
  have hevents := composes_interfaceItem unit "Events" 1 (·.eventEntries (Text.capitalize protocol))
  have hcommands := composes_interfaceItem unit "Commands" 1 (·.commandEntries (Text.capitalize protocol))
  have hbody := hevents.cons ((Composes.fixed (Item.text unit 1 .blank)).cons
    (hcommands.cons (.fixed (itemsText unit 1 []))))
  have hscope := (hbody.block .scope name).cons (.fixed (itemsText unit 0 []))
  have hitems := (Composes.fixed (Item.text unit 0 (.comment (.str mappingSummary)))).cons hscope
  refine (hitems.module [protocol] name banner).congr fun ds => ?_
  simp only [madeText_nil, String.append_empty, String.append_assoc]

end

/-! ## Editions -/

namespace Edition

/-- The same edition of other domains. -/
def withDomains (e : Edition) (domains : List Domain) : Edition :=
  { e with domains }

/-- Each module of an edition is put together of fixed texts and of the pieces of its domains: the protocol module of one
piece for each domain, the mapping module of the entries for events and of those for commands, the API module of the
fields and of the interfaces. The pieces of a domain are those of the edition of that domain alone. -/
theorem modules_compose (e : Edition) :
    (∃ top piece bottom, Composes (fun ds => (e.withDomains ds).protocolText) fun ds =>
      top ++ String.join (ds.map piece) ++ bottom) ∧
    (∃ top events middle commands bottom, Composes (fun ds => (e.withDomains ds).mappingText) fun ds =>
      top ++ String.join (ds.map events) ++ middle ++ String.join (ds.map commands) ++ bottom) ∧
    ∃ top field middle interface bottom, Composes (fun ds => (e.withDomains ds).apiText) fun ds =>
      top ++ String.join (ds.map field) ++ middle ++ String.join (ds.map interface) ++ bottom := by
  refine ⟨⟨_, _, _, composes_protocolModule e.settings.indent (Text.capitalize e.protocol) e.settings.banner.truthy⟩,
    ?_, ?_⟩
  · simp only [mappingText, withDomains]
    cases namespaceOf e.settings.mappingModule with
    | error fault => exact ⟨"", fun _ => "", "", fun _ => "", "", .of_error fault _⟩
    | ok name =>
        exact ⟨_, _, _, _, _, composes_mappingModule e.settings.indent name e.protocol e.settings.banner.truthy⟩
  · simp only [apiText, withDomains]
    cases namespaceOf e.settings.apiModule with
    | error fault => exact ⟨"", fun _ => "", "", fun _ => "", "", .of_error fault _⟩
    | ok name => exact ⟨_, _, _, _, _, composes_apiModule e.settings.indent name e.protocol e.settings.banner.truthy⟩

end Edition

end ProtocolTypings
