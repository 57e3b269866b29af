import ProtocolTypings.Proofs.Artifact.Weight
import ProtocolTypings.Proofs.Typing.MadeOf
import ProtocolTypings.Proofs.Typing.Written

/-!
# Modules that pass the check

Where the names that go into an item are plain texts, the item is written, and it closes every brace that it opens.
What a comment says does not matter. So are the items of a module over domains with plain names.
-/

namespace ProtocolTypings

open Artifact
open Text (Plain OneLine)

theorem exists_indentation {indent : String} (h : Margin indent) (depth : Int) :
    ∃ margin, indentation (.str indent) depth = .ok margin ∧ Margin margin :=
  ⟨margin indent depth.toNat, rfl, margin_margin h _⟩

theorem nameKind_plain : NameKind Plain fun _ => True where
  append := .append
  capitalize := .capitalize
  fixed := by decide
  member := fun _ => trivial
  entry := ⟨trivial, trivial⟩

/-! ## Type expressions -/

variable {indent : String}

mutual
theorem Shape.even_typeText (hindent : Margin indent) (depth : Int) :
    (s : Shape) → (∀ t ∈ s.strings, Plain t) → ∃ t, s.typeText (.str indent) depth = .ok t ∧ Even t
  | .ref _ target, h => ⟨target, by simp [Shape.typeText], .of_plain (h target (by simp [Shape.strings]))⟩
  | .array _ items, h => by
      obtain ⟨t, ht, heven⟩ := Shape.even_typeText hindent depth items (by simpa [Shape.strings] using h)
      exact ⟨t ++ "[]", by simp [Shape.typeText, ht], heven.append (by decide)⟩
  | .bareArray _, _ => ⟨"any[]", by simp [Shape.typeText], by decide⟩
  | .object _ properties, h => by
      obtain ⟨members, hmembers, heven⟩ :=
        even_membersText hindent (depth + 1) properties (by simpa [Shape.strings] using h)
      obtain ⟨margin, hmargin, hmarginOk⟩ := exists_indentation hindent depth
      refine ⟨"\x7b\n" ++ (members ++ margin) ++ "\x7d", ?_, (heven.append (.of_margin hmarginOk)).braced⟩
      simp [Shape.typeText, hmembers, hmargin, String.append_assoc]
  | .openObject _, _ => ⟨"any", by simp [Shape.typeText], by decide⟩
  | .primitive _ kind none, h => ⟨kind, by simp [Shape.typeText], .of_plain (h kind (by simp [Shape.strings]))⟩
  | .primitive _ kind (some values), h => by
      by_cases hkind : kind = "string"
      · subst hkind
        have hvalues : ∀ v ∈ values, Plain v := fun v hv => h v (by simp [Shape.strings, hv])
        exact ⟨unionText values, by simp [Shape.typeText], Even.of_plain (nameKind_plain.unionText hvalues)⟩
      · exact ⟨kind, by simp [Shape.typeText, hkind], .of_plain (h kind (by simp [Shape.strings]))⟩
  | .unknown _, _ => ⟨"any", by simp [Shape.typeText], by decide⟩

theorem even_membersText (hindent : Margin indent) (depth : Int) :
    (ps : List Property) → (∀ t ∈ stringsOfAll ps, Plain t) →
    ∃ t, membersText (.str indent) depth ps = .ok t ∧ Even t
  | [], _ => ⟨"", by simp [membersText], by decide⟩
  | p :: ps, h => by
      have hp : ∀ t ∈ p.strings, Plain t := fun t ht => h t (by simp [stringsOfAll, ht])
      have hps : ∀ t ∈ stringsOfAll ps, Plain t := fun t ht => h t (by simp [stringsOfAll, ht])
      obtain ⟨first, hfirst, hevenFirst⟩ := Property.even_typeText hindent depth p hp
      obtain ⟨others, hothers, hevenOthers⟩ := even_membersText hindent depth ps hps
      obtain ⟨margin, hmargin, hmarginOk⟩ := exists_indentation hindent depth
      refine ⟨margin ++ first ++ ";\n" ++ others, by simp [membersText, hmargin, hfirst, hothers], ?_⟩
      exact (((Even.of_margin hmarginOk).append hevenFirst).append (by decide)).append hevenOthers

theorem Property.even_typeText (hindent : Margin indent) (depth : Int) :
    (p : Property) → (∀ t ∈ p.strings, Plain t) → ∃ t, p.typeText (.str indent) depth = .ok t ∧ Even t
  | ⟨name, shape, optional, _, _⟩, h => by
      have hname : Plain name := h name (by simp [Property.strings])
      obtain ⟨t, ht, heven⟩ := Shape.even_typeText hindent depth shape fun t ht => h t (by simp [Property.strings, ht])
      have hmark : Even (if optional then "?" else "") := by cases optional <;> decide
      refine ⟨Name.property name ++ (if optional then "?" else "") ++ ": " ++ t, by simp [Property.typeText, ht], ?_⟩
      exact (((Even.of_plain (nameKind_plain.property hname)).append hmark).append (by decide)).append heven
end

/-! ## Items -/

/-- The item is written at any depth, and closes what it opens. -/
def Item.Sound (indent : String) (item : Item) : Prop :=
  ∀ depth, ∃ t n, item.text (.str indent) depth = .ok t ∧ Weighs t n n

theorem sound_itemsText {items : List Item} (h : ∀ item ∈ items, item.Sound indent) (depth : Nat) :
    ∃ t n, itemsText (.str indent) depth items = .ok t ∧ Weighs t n n := by
  induction items with
  | nil => exact ⟨"", 0, rfl, .empty⟩
  | cons item rest ih =>
      obtain ⟨t, m, ht, hm⟩ := h item List.mem_cons_self depth
      obtain ⟨u, n, hu, hn⟩ := ih fun other hother => h other (List.mem_cons_of_mem _ hother)
      exact ⟨t ++ u, m + n, by rw [itemsText_cons, ht, hu]; rfl, hm.append hn⟩

theorem sound_lineText (hindent : Margin indent) {text : String} (h : Even text) (depth : Nat) :
    ∃ t n, lineText (.str indent) depth text = .ok t ∧ Weighs t n n := by
  obtain ⟨margin, hmargin, hmarginOk⟩ := exists_indentation hindent depth
  obtain ⟨n, hn⟩ := h.weighs_line hmarginOk
  exact ⟨margin ++ text ++ "\n", n, by rw [lineText, hmargin]; rfl, hn⟩

theorem commentary_lineText (hindent : Margin indent) {text : String} (hcomment : isCommentLine text = true)
    (htext : OneLine text) (depth : Nat) : ∃ t, lineText (.str indent) depth text = .ok t ∧ Commentary t := by
  obtain ⟨margin, hmargin, hmarginOk⟩ := exists_indentation hindent depth
  exact ⟨margin ++ text ++ "\n", by rw [lineText, hmargin]; rfl, .line hmarginOk hcomment htext⟩

theorem commentary_commentLinesText (hindent : Margin indent) {lines : List String}
    (hlines : ∀ line ∈ lines, OneLine line) (depth : Nat) :
    ∃ t, commentLinesText (.str indent) depth lines = .ok t ∧ Commentary t := by
  induction lines with
  | nil => exact ⟨"", rfl, .empty⟩
  | cons line rest ih =>
      have hline := oneLine_starred (hlines line List.mem_cons_self)
      obtain ⟨t, ht, htNone⟩ := commentary_lineText hindent (isCommentLine_starred line) hline depth
      obtain ⟨u, hu, huNone⟩ := ih fun other hother => hlines other (List.mem_cons_of_mem _ hother)
      exact ⟨t ++ u, by rw [commentLinesText_cons, ht, hu]; rfl, htNone.append huNone⟩

/-- Whatever a description says, it stands in lines that start like a comment. -/
theorem commentary_comment (hindent : Margin indent) {v : Json} (h : v.truthy = false ∨ ∃ s, v = .str s) (depth : Nat) :
    ∃ t, Item.text (.str indent) depth (.comment v) = .ok t ∧ Commentary t := by
  by_cases htruthy : v.truthy = false
  · exact ⟨"", Item.text_comment_of_not_truthy _ _ htruthy, .empty⟩
  · obtain ⟨s, rfl⟩ := h.resolve_left htruthy
    have hs : s ≠ "" := fun hs => htruthy (by simp [Json.truthy, hs])
    have hlines : ∀ line ∈ Text.lines s, OneLine line := fun line hline => Text.oneLine_of_mem_lines hline
    obtain ⟨first, hfirst, hfirstNone⟩ := @commentary_lineText indent hindent "/**" (by decide) (by decide) depth
    obtain ⟨inner, hinner, hinnerNone⟩ := commentary_commentLinesText hindent hlines depth
    obtain ⟨last, hlast, hlastNone⟩ := @commentary_lineText indent hindent " */" (by decide) (by decide) depth
    refine ⟨first ++ (inner ++ last), ?_, hfirstNone.append (hinnerNone.append hlastNone)⟩
    rw [Item.text_comment_str _ _ hs, hfirst, hinner, hlast]
    rfl

namespace Item

theorem sound_comment (hindent : Margin indent) {description : Json}
    (h : IsDescription description) : Item.Sound indent (.comment description) := by
  intro depth
  obtain ⟨t, ht, hnone⟩ := commentary_comment hindent (h.imp_left fun hnull => by rw [hnull]; rfl) depth
  exact ⟨t, 0, ht, hnone.weighs⟩

theorem sound_blank : Item.Sound indent .blank :=
  fun _ => ⟨"\n", 0, Item.text_blank _ _, .inr ⟨"", rfl⟩, by decide, by decide⟩

theorem sound_integerAlias (hindent : Margin indent) : Item.Sound indent .integerAlias := by
  intro depth
  rw [Item.text_integerAlias]
  exact sound_lineText hindent (by decide) depth

theorem sound_openProperties (hindent : Margin indent) : Item.Sound indent .openProperties := by
  intro depth
  rw [Item.text_openProperties]
  exact sound_lineText hindent (by decide) depth

theorem sound_typeAlias (hindent : Margin indent) {name : String} {shape : Shape} (hname : Plain name)
    (hshape : ∀ t ∈ shape.strings, Plain t) : Item.Sound indent (.typeAlias name shape) := by
  intro depth
  obtain ⟨t, ht, heven⟩ := shape.even_typeText hindent depth hshape
  rw [Item.text_typeAlias, ht]
  refine sound_lineText hindent ?_ depth
  exact ((((by decide : Even "export type ").append (.of_plain hname)).append (by decide)).append heven).append
    (by decide)

theorem sound_property (hindent : Margin indent) {p : Property} (hp : ∀ t ∈ p.strings, Plain t) :
    Item.Sound indent (.property p) := by
  intro depth
  obtain ⟨t, ht, heven⟩ := p.even_typeText hindent depth hp
  rw [Item.text_property, ht]
  exact sound_lineText hindent (heven.append (by decide)) depth

theorem sound_field (hindent : Margin indent) {name type : String} (hname : Plain name) (htype : Plain type) :
    Item.Sound indent (.field name type) := by
  intro depth
  rw [Item.text_field]
  refine sound_lineText hindent ?_ depth
  exact (((Even.of_plain hname).append (by decide)).append (.of_plain htype)).append (by decide)

theorem sound_method (hindent : Margin indent) {name : String} {payload result : Option String} (hname : Plain name)
    (hpayload : ∀ t ∈ payload, Plain t) (hresult : ∀ t ∈ result, Plain t) :
    Item.Sound indent (.method name payload result) := by
  intro depth
  rw [Item.text_method]
  refine sound_lineText hindent ?_ depth
  have hparams : Even (payload.elim "" ("params: " ++ ·)) := by
    cases payload with
    | none => exact (by decide : Even "")
    | some t => exact (by decide : Even "params: ").append (.of_plain (hpayload t rfl))
  have hpromised : Even (result.getD "void") := by
    cases result with
    | none => exact (by decide : Even "void")
    | some t => exact .of_plain (hresult t rfl)
  exact (((((Even.of_plain hname).append (by decide)).append hparams).append (by decide)).append hpromised).append
    (by decide)

theorem sound_listener (hindent : Margin indent) {event payload : String} (hevent : Plain event)
    (hpayload : Plain payload) : Item.Sound indent (.listener event payload) := by
  intro depth
  rw [Item.text_listener]
  refine sound_lineText hindent ?_ depth
  exact ((((by decide : Even "on(event: '").append (.of_plain hevent)).append (by decide)).append
    (.of_plain hpayload)).append (by decide)

/-- The lines around a block open and close one brace. -/
theorem sound_block (hindent : Margin indent) {kind : BlockKind} {name : String} {body : List Item} (hname : Plain name)
    (hbody : ∀ item ∈ body, item.Sound indent) : Item.Sound indent (.block kind name body) := by
  intro depth
  obtain ⟨margin, hmargin, hmarginOk⟩ := exists_indentation hindent depth
  obtain ⟨t, n, ht, hn⟩ := sound_itemsText hbody (depth + 1)
  have hkeyword : Plain kind.keyword := by cases kind <;> decide
  have hopening := Weighs.opening hmarginOk (hkeyword.append hname)
  have hweighs := hopening.append (hn.append (Weighs.closing hmarginOk))
  rw [show 0 + (n + 1) = 1 + (n + 0) by omega] at hweighs
  refine ⟨_, _, ?_, hweighs⟩
  rw [Item.text_block, ht, lineText, lineText, hmargin]
  rfl

end Item

theorem Item.MadeOf.sound (hindent : Margin indent) {item : Item} {L : String → Prop} (h : item.MadeOf Plain L) :
    item.Sound indent := by
  induction h with
  | blank => exact Item.sound_blank
  | comment hdescription => exact Item.sound_comment hindent hdescription
  | integerAlias => exact Item.sound_integerAlias hindent
  | typeAlias hname hstrings _ => exact Item.sound_typeAlias hindent hname hstrings
  | property hstrings _ => exact Item.sound_property hindent hstrings
  | openProperties => exact Item.sound_openProperties hindent
  | field hname _ htype => exact Item.sound_field hindent hname htype
  | method hname _ hpayload hresult => exact Item.sound_method hindent hname hpayload hresult
  | listener hevent hpayload => exact Item.sound_listener hindent hevent hpayload
  | block hname _ ih => exact Item.sound_block hindent hname ih

/-! ## Modules -/

/-- The names are plain, and the descriptions are texts. -/
structure Domain.Clean (d : Domain) : Prop where
  strings : ∀ s ∈ d.strings, Plain s
  descriptions : ∀ v ∈ d.descriptions, IsDescription v

theorem Domain.Clean.madeOf {d : Domain} (h : d.Clean) : d.MadeOf Plain fun _ => True :=
  ⟨h.strings, fun _ _ => trivial, h.descriptions⟩

section

variable {indent : String} (hindent : Margin indent) {name protocol : String} {domains : List Domain}
include hindent

theorem sound_protocolModule (hname : Plain name) (h : ∀ d ∈ domains, d.Clean) :
    ∀ item ∈ (protocolModule name domains).items, item.Sound indent := fun item hitem =>
  (madeOf_protocolModule nameKind_plain hname (fun d hd => (h d hd).madeOf) item hitem).sound hindent

theorem sound_apiModule (hname : Plain name) (hprotocol : Plain protocol) (h : ∀ d ∈ domains, d.Clean) :
    ∀ item ∈ (apiModule name protocol domains).items, item.Sound indent := fun item hitem =>
  (madeOf_apiModule nameKind_plain hname hprotocol (fun d hd => (h d hd).madeOf) item hitem).sound hindent

theorem sound_mappingModule (hname : Plain name) (hprotocol : Plain protocol) (h : ∀ d ∈ domains, d.Clean) :
    ∀ item ∈ (mappingModule name protocol domains).items, item.Sound indent := fun item hitem =>
  (madeOf_mappingModule nameKind_plain hname hprotocol (fun d hd => (h d hd).madeOf) item hitem).sound hindent

end

end ProtocolTypings
