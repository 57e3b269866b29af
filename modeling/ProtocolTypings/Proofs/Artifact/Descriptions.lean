import ProtocolTypings.Proofs.Artifact.Composition
import ProtocolTypings.Proofs.Artifact.Soundness
import ProtocolTypings.Proofs.Typing.Alike
import ProtocolTypings.Proofs.Typing.Form

/-!
# Descriptions do not change the code

Whatever the descriptions of a protocol say, they stand on lines of their own that are no code. Where two protocols
differ in their descriptions only, the modules of both have the same code and fare alike in the check, even if the names
in them spread over several lines.
-/

namespace ProtocolTypings

open Artifact
open Text (Plain)

theorem exists_lineText (indent : String) (depth : Nat) (text : String) :
    ∃ t, lineText (.str indent) depth text = .ok t ∧ Whole t :=
  ⟨_, rfl, .inr ⟨_, rfl⟩⟩

/-! ## Items with the same code -/

/-- Whole lines with the same code. -/
structure SameLines (s t : String) : Prop where
  left : Whole s
  right : Whole t
  code : codeLines s = codeLines t

namespace SameLines

variable {s t s' t' : String}

theorem refl (h : Whole s) : SameLines s s :=
  ⟨h, h, rfl⟩

theorem of_commentary (hs : Commentary s) (ht : Commentary t) : SameLines s t :=
  ⟨hs.whole, ht.whole, by rw [hs.noCode, ht.noCode]⟩

theorem append (h : SameLines s t) (h' : SameLines s' t') : SameLines (s ++ s') (t ++ t') where
  left := h.left.append h'.left
  right := h.right.append h'.right
  code := by rw [h.left.codeLines_append, h.right.codeLines_append, h.code, h'.code]

end SameLines

/-- A description: a value that counts as no, or a text. -/
def Describes (v : Json) : Prop :=
  v.truthy = false ∨ ∃ s, v = .str s

/-- Two descriptions, whatever they say. -/
abbrev BothDescribe (v w : Json) : Prop :=
  Describes v ∧ Describes w

section

variable {indent : String}

theorem exists_text_of_eq {a b : Item} {depth : Nat} (h : b.text (.str indent) depth = a.text (.str indent) depth)
    (ha : ∃ t, a.text (.str indent) depth = .ok t ∧ Whole t) :
    ∃ s t, a.text (.str indent) depth = .ok s ∧ b.text (.str indent) depth = .ok t ∧ SameLines s t := by
  obtain ⟨t, ht, hwhole⟩ := ha
  exact ⟨t, t, ht, h.trans ht, .refl hwhole⟩

mutual
/-- Items that differ in their comments only are written with the same code. -/
theorem Item.Alike.sameLines (hindent : Margin indent) : {a b : Item} → a.Alike BothDescribe b → (depth : Nat) →
    ∃ s t, a.text (.str indent) depth = .ok s ∧ b.text (.str indent) depth = .ok t ∧ SameLines s t
  | _, _, .blank, _ => exists_text_of_eq rfl ⟨_, Item.text_blank _ _, .inr ⟨"", rfl⟩⟩
  | _, _, .comment h, depth => by
      obtain ⟨s, hs, hsNone⟩ := commentary_comment hindent h.1 depth
      obtain ⟨t, ht, htNone⟩ := commentary_comment hindent h.2 depth
      exact ⟨s, t, hs, ht, .of_commentary hsNone htNone⟩
  | _, _, .integerAlias, depth => by
      refine exists_text_of_eq rfl ?_
      rw [Item.text_integerAlias]
      exact exists_lineText indent depth _
  | _, _, @Item.Alike.typeAlias _ name s t h, depth => by
      obtain ⟨text, htext⟩ := s.exists_typeText indent depth
      refine exists_text_of_eq ?_ ?_
      · rw [Item.text_typeAlias, Item.text_typeAlias, Shape.typeText_congr h]
      · rw [Item.text_typeAlias, htext]
        exact exists_lineText indent depth _
  | _, _, @Item.Alike.property _ p q h, depth => by
      obtain ⟨text, htext⟩ := p.exists_typeText indent depth
      refine exists_text_of_eq ?_ ?_
      · rw [Item.text_property, Item.text_property, Property.typeText_congr h]
      · rw [Item.text_property, htext]
        exact exists_lineText indent depth _
  | _, _, .openProperties, depth => by
      refine exists_text_of_eq rfl ?_
      rw [Item.text_openProperties]
      exact exists_lineText indent depth _
  | _, _, .field, depth => by
      refine exists_text_of_eq rfl ?_
      rw [Item.text_field]
      exact exists_lineText indent depth _
  | _, _, .method, depth => by
      refine exists_text_of_eq rfl ?_
      rw [Item.text_method]
      exact exists_lineText indent depth _
  | _, _, .listener, depth => by
      refine exists_text_of_eq rfl ?_
      rw [Item.text_listener]
      exact exists_lineText indent depth _
  | _, _, @Item.Alike.block _ kind name _ _ h, depth => by
      obtain ⟨opening, hopening, hopeningWhole⟩ := exists_lineText indent depth (kind.keyword ++ name ++ " \x7b")
      obtain ⟨closing, hclosing, hclosingWhole⟩ := exists_lineText indent depth "\x7d"
      obtain ⟨s, t, hs, ht, hst⟩ := sameLines_itemsText hindent h (depth + 1)
      refine ⟨opening ++ (s ++ closing), opening ++ (t ++ closing), ?_, ?_,
        (SameLines.refl hopeningWhole).append (hst.append (.refl hclosingWhole))⟩
      · rw [Item.text_block, hopening, hs, hclosing]
        rfl
      · rw [Item.text_block, hopening, ht, hclosing]
        rfl

theorem sameLines_itemsText (hindent : Margin indent) :
    {as bs : List Item} → List.Forall₂ (Item.Alike BothDescribe) as bs → (depth : Nat) →
    ∃ s t, itemsText (.str indent) depth as = .ok s ∧ itemsText (.str indent) depth bs = .ok t ∧ SameLines s t
  | _, _, .nil, _ => ⟨"", "", rfl, rfl, .refl (.inl rfl)⟩
  | _, _, .cons h hs, depth => by
      obtain ⟨s, t, hs₁, ht₁, hst₁⟩ := Item.Alike.sameLines hindent h depth
      obtain ⟨s', t', hs₂, ht₂, hst₂⟩ := sameLines_itemsText hindent hs depth
      exact ⟨s ++ s', t ++ t', by rw [itemsText_cons, hs₁, hs₂]; rfl, by rw [itemsText_cons, ht₁, ht₂]; rfl,
        hst₁.append hst₂⟩
end

end

/-! ## Modules with the same code -/

/-- Two texts are made that have the same lines of code. Braces occur in them equally often, and they pass the check or
fail it in the same way. -/
def SameCode (x y : Except Fault String) : Prop :=
  ∃ s t, x = .ok s ∧ y = .ok t ∧ codeLines s = codeLines t ∧
    (∀ c, countIn c (codeLines s) = countIn c (codeLines t)) ∧ validate s = validate t

theorem whole_importTexts (imports : List String) : Whole (String.join (imports.map importText)) := by
  induction imports with
  | nil => exact .inl rfl
  | cons module rest ih =>
      rw [List.map_cons, String.join_cons]
      refine Whole.append (.inr ⟨"import " ++ Text.capitalize module ++ " from './" ++ module ++ "'", ?_⟩) ih
      exact (@String.append_assoc ("import " ++ Text.capitalize module ++ " from './" ++ module) "'" "\n").symm

theorem whole_headText (banner : Bool) (imports : List String) : Whole (headText banner imports) := by
  refine Whole.append ?_ (whole_importTexts imports)
  cases banner with
  | false => exact .inl rfl
  | true => exact weighs_bannerText.whole

theorem validate_congr {s t : String} (hcode : codeLines s = codeLines t)
    (hs : occursIn defaultExport.toList s.toList = true) (ht : occursIn defaultExport.toList t.toList = true) :
    validate s = validate t := by
  simp only [validate, hcode, hs, ht]

/-- Modules of the same name with items that differ in their comments only have the same code. -/
theorem DeclarationModule.sameCode {m n : DeclarationModule} {indent : String} (hindent : Margin indent)
    (hitems : List.Forall₂ (Item.Alike BothDescribe) m.items n.items) (himports : m.imports = n.imports)
    (hname : m.name = n.name) (banner : Bool) :
    SameCode (m.text (.str indent) banner) (n.text (.str indent) banner) := by
  obtain ⟨s, t, hs, ht, hst⟩ := sameLines_itemsText hindent hitems 0
  have hgap : Whole (if n.imports.isEmpty then "" else "\n") := by
    split
    · exact .inl rfl
    · exact .inr ⟨"", rfl⟩
  have hfront := SameLines.refl ((whole_headText banner n.imports).append hgap)
  have hlines := hfront.append hst
  have hcode (m' n' : String) (h : SameLines m' n') : codeLines (m' ++ exportText n.name) =
      codeLines (n' ++ exportText n.name) := by
    rw [h.left.codeLines_append, h.right.codeLines_append, h.code]
  refine ⟨_, _, by rw [DeclarationModule.text_eq, hs, himports, hname]; rfl, by rw [DeclarationModule.text_eq, ht]; rfl,
    hcode _ _ hlines, fun c => by rw [hcode _ _ hlines], ?_⟩
  exact validate_congr (hcode _ _ hlines) (occursIn_exportText _ _) (occursIn_exportText _ _)

/-! ## Editions -/

namespace Edition

theorem bothDescribe_str (s : String) : BothDescribe (.str s) (.str s) :=
  ⟨.inr ⟨s, rfl⟩, .inr ⟨s, rfl⟩⟩

/-- With blank indentation the three modules of two lists of domains that differ in their descriptions only have the same
code. The mapping and the API module are made if the settings name their namespaces. -/
theorem descriptions_keep_code (e : Edition) {indent : String} (hindent : e.settings.indent = .str indent)
    (hmargin : Margin indent) {ds es : List Domain} (h : List.Forall₂ (Domain.Alike BothDescribe) ds es) :
    SameCode (e.withDomains ds).protocolText (e.withDomains es).protocolText ∧
    (∀ name, namespaceOf e.settings.mappingModule = .ok name →
      SameCode (e.withDomains ds).mappingText (e.withDomains es).mappingText) ∧
    ∀ name, namespaceOf e.settings.apiModule = .ok name → SameCode (e.withDomains ds).apiText (e.withDomains es).apiText := by
  refine ⟨?_, fun name hname => ?_, fun name hname => ?_⟩
  · simp only [protocolText, moduleText, withDomains, hindent]
    exact DeclarationModule.sameCode hmargin (alike_protocolModule h) rfl rfl _
  · simp only [mappingText, moduleText, withDomains, hindent, hname, ok_bind]
    exact DeclarationModule.sameCode hmargin (alike_mappingModule (bothDescribe_str _) h) rfl rfl _
  · simp only [apiText, moduleText, withDomains, hindent, hname, ok_bind]
    exact DeclarationModule.sameCode hmargin (alike_apiModule (bothDescribe_str _) h) rfl rfl _

/-- A domain with names over several lines, and one description everywhere. -/
def spreadDomain (v : Json) : Domain where
  name := "page\n* \x7b"
  description := v
  types := [⟨"Box", .object default [⟨"size\r", .primitive default "\x7d\u2028" none, true, v, ⟨false, false⟩⟩], v,
    ⟨false, false⟩⟩]
  commands := [⟨"close\n/*", v, none, some [⟨"box", .ref default "Box\n", false, v, ⟨false, false⟩⟩], .null,
    ⟨false, false⟩⟩]
  events := [⟨"closed", v, some [], ⟨false, false⟩⟩]
  dependencies := []
  marks := ⟨false, false⟩

theorem alike_spreadDomain {R : Json → Json → Prop} {v w : Json} (h : R v w) :
    (spreadDomain v).Alike R (spreadDomain w) where
  name := rfl
  description := h
  types := .cons ⟨rfl, h, rfl, .cons ⟨rfl, h⟩ .nil⟩ .nil
  commands := .cons ⟨rfl, h, .none, .some (.cons ⟨rfl, h⟩ .nil)⟩ .nil
  events := .cons ⟨rfl, h, .some .nil⟩ .nil

def ofSpread : Edition where
  domains := []
  settings := { indent := .str " \t" }
  protocol := "protocol"

/-- The description of one protocol closes its comment and opens braces on lines of its own; the other has none. -/
theorem descriptions_keep_code_ofSpread :
    List.Forall₂ (Domain.Alike BothDescribe) [spreadDomain (.str "*/\x7b\r\x7b\u2028/*\x7d")] [spreadDomain .null] ∧
      SameCode (ofSpread.withDomains [spreadDomain (.str "*/\x7b\r\x7b\u2028/*\x7d")]).protocolText
        (ofSpread.withDomains [spreadDomain .null]).protocolText ∧
      SameCode (ofSpread.withDomains [spreadDomain (.str "*/\x7b\r\x7b\u2028/*\x7d")]).mappingText
        (ofSpread.withDomains [spreadDomain .null]).mappingText ∧
      SameCode (ofSpread.withDomains [spreadDomain (.str "*/\x7b\r\x7b\u2028/*\x7d")]).apiText
        (ofSpread.withDomains [spreadDomain .null]).apiText := by
  have halike : List.Forall₂ (Domain.Alike BothDescribe) [spreadDomain (.str "*/\x7b\r\x7b\u2028/*\x7d")]
      [spreadDomain .null] := .cons (alike_spreadDomain ⟨.inr ⟨_, rfl⟩, .inl rfl⟩) .nil
  obtain ⟨mapping, hmapping, -⟩ := exists_namespaceOf nameKind_plain (by decide +kernel : Plain "ProtocolMapping")
  obtain ⟨api, hapi, -⟩ := exists_namespaceOf nameKind_plain (by decide +kernel : Plain "ProtocolProxyApi")
  obtain ⟨hprotocolCode, hmappingCode, hapiCode⟩ := descriptions_keep_code ofSpread rfl (by decide) halike
  exact ⟨halike, hprotocolCode, hmappingCode mapping hmapping, hapiCode api hapi⟩

end Edition

end ProtocolTypings
