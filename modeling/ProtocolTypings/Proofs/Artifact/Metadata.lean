import ProtocolTypings.Artifact.Edition
import ProtocolTypings.Proofs.Schema.Pruning

/-!
# Metadata does not change the artifacts

What marks a record as experimental or deprecated, where a command is redirected to, what a domain depends on, the
version of a document and every field without a meaning may be dropped from the documents of a protocol. The edition
made of them is made with the same records in the log, and its artifacts are the same.
-/

namespace ProtocolTypings

open Schema (pruneDocument)
open Logged (Follows)

/-- Modules of the same name whose items differ in nothing that is written have the same text. -/
theorem DeclarationModule.text_congr {m n : DeclarationModule} (hitems : List.Forall₂ (Item.Alike Eq) m.items n.items)
    (himports : m.imports = n.imports) (hname : m.name = n.name) (unit : Json) (banner : Bool) :
    m.text unit banner = n.text unit banner := by
  rw [DeclarationModule.text_eq, DeclarationModule.text_eq, itemsText_eq_of_alike unit hitems 0, himports, hname]

namespace Edition

/-- The editions have the same settings and name, and the same domains but for what is not written of them. -/
structure Alike (e e' : Edition) : Prop where
  settings : e.settings = e'.settings
  protocol : e.protocol = e'.protocol
  domains : List.Forall₂ (Domain.Alike Eq) e.domains e'.domains

namespace Alike

variable {e e' : Edition}

theorem protocolText (h : e.Alike e') : e.protocolText = e'.protocolText := by
  rw [Edition.protocolText, Edition.protocolText, moduleText, moduleText, h.settings, h.protocol]
  exact DeclarationModule.text_congr (alike_protocolModule h.domains) rfl rfl _ _

theorem mappingText (h : e.Alike e') : e.mappingText = e'.mappingText := by
  simp only [Edition.mappingText, moduleText, h.settings, h.protocol]
  refine congrArg _ (funext fun name => ?_)
  exact DeclarationModule.text_congr (alike_mappingModule rfl h.domains) rfl rfl _ _

theorem apiText (h : e.Alike e') : e.apiText = e'.apiText := by
  simp only [Edition.apiText, moduleText, h.settings, h.protocol]
  refine congrArg _ (funext fun name => ?_)
  exact DeclarationModule.text_congr (alike_apiModule rfl h.domains) rfl rfl _ _

theorem artifacts (h : e.Alike e') : e.artifacts = e'.artifacts := by
  rw [Edition.artifacts, Edition.artifacts, h.protocolText, h.mappingText, h.apiText, h.settings]

end Alike

theorem follows_ofDocuments (settings : Settings) (documents : List Json) :
    Follows Alike (ofDocuments settings documents) (ofDocuments settings (documents.map pruneDocument)) := by
  refine (Schema.follows_readProtocol settings.strict.truthy documents).bind fun ds es h => ?_
  cases hfile : settings.protocolFile with
  | str path =>
      rw [ofDomains, ofDomains, hfile]
      exact .pure ⟨rfl, rfl, h⟩
  | _ =>
      rw [ofDomains, hfile]
      exact .of_error rfl

/-- Documents that make an edition still make one after they are pruned, with the same records in the log, and the
artifacts of both are the same, or fail to be made for the same reason. -/
theorem artifacts_of_pruned (settings : Settings) (documents : List Json) (e : Edition)
    (h : (ofDocuments settings documents).result = .ok e) :
    ∃ e', (ofDocuments settings (documents.map pruneDocument)).result = .ok e' ∧
      (ofDocuments settings (documents.map pruneDocument)).log = (ofDocuments settings documents).log ∧
      e'.artifacts = e.artifacts := by
  obtain ⟨e', hmade, halike⟩ := follows_ofDocuments settings documents e h
  rw [hmade]
  exact ⟨e', rfl, rfl, halike.artifacts.symm⟩

/-- A document with metadata and unknown fields in records of every kind. What stands beside a reference is not looked
at. -/
def markedDocument : Json :=
  .obj [
    ("version", .str "1.3"),
    ("domains", .arr [.obj [
      ("experimental", .bool true),
      ("domain", .str "Page"),
      ("dependencies", .arr [.str "Runtime"]),
      ("types", .arr [.obj [
        ("deprecated", .bool true),
        ("id", .str "Frame"),
        ("type", .str "object"),
        ("properties", .arr [.obj [
          ("name", .str "children"),
          ("since", .int 2),
          ("type", .str "array"),
          ("items", .obj [
            ("$ref", .str "Frame"),
            ("experimental", .bool true),
            ("items", .obj [("since", .int 2)])])]])]]),
      ("commands", .arr [.obj [
        ("name", .str "close"),
        ("redirect", .str "Target"),
        ("returns", .arr [])]]),
      ("events", .arr [.obj [
        ("name", .str "closed"),
        ("deprecated", .bool false),
        ("returns", .null)]])]])]

/-- The same document without them. -/
def plainDocument : Json :=
  .obj [
    ("domains", .arr [.obj [
      ("domain", .str "Page"),
      ("types", .arr [.obj [
        ("id", .str "Frame"),
        ("type", .str "object"),
        ("properties", .arr [.obj [
          ("name", .str "children"),
          ("type", .str "array"),
          ("items", .obj [
            ("$ref", .str "Frame"),
            ("items", .obj [("since", .int 2)])])]])]]),
      ("commands", .arr [.obj [
        ("name", .str "close"),
        ("returns", .arr [])]]),
      ("events", .arr [.obj [
        ("name", .str "closed")]])]])]

theorem artifacts_of_pruned_markedDocument :
    pruneDocument markedDocument = plainDocument ∧
      ∃ e e', (ofDocuments {} [markedDocument]).result = .ok e ∧
        (ofDocuments {} [pruneDocument markedDocument]).result = .ok e' ∧
        (ofDocuments {} [pruneDocument markedDocument]).log = (ofDocuments {} [markedDocument]).log ∧
        e'.artifacts = e.artifacts := by
  refine ⟨by decide +kernel, ?_⟩
  have hmade : (ofDocuments {} [markedDocument]).result.toOption.isSome = true := by decide +kernel
  cases h : (ofDocuments {} [markedDocument]).result with
  | error fault =>
      rw [h] at hmade
      cases hmade
  | ok e =>
      obtain ⟨e', hmade', hlog, hartifacts⟩ := artifacts_of_pruned {} [markedDocument] e h
      exact ⟨e, e', rfl, hmade', hlog, hartifacts⟩

end Edition

end ProtocolTypings
