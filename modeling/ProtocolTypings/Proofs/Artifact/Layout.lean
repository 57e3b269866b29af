import ProtocolTypings.Proofs.Artifact.Soundness
import ProtocolTypings.Proofs.Typing.Laid

/-!
# The layout of artifacts

Over domains with neat names all three modules are written without a block left open, and each line of theirs stands
where the braces before it say.
-/

namespace ProtocolTypings

open Artifact
open Text (OneLine Neat Flush Headed)

/-! ## Around the items -/

section

variable {indent : String} (hindent : Margin indent)

include hindent

theorem lays_topComment {text : String} (hcomment : isCommentLine text = true) (hline : OneLine text)
    (hstart : ∃ rest, text = "/**" ++ rest ∨ text = " *" ++ rest) : Lays indent (text ++ "\n") 0 0 := by
  have hlays := Lays.comment (d := 0) hindent hcomment hline hstart
  rwa [margin_zero, String.empty_append] at hlays

theorem lays_bannerText : Lays indent bannerText 0 0 := by
  have hslash : OneLine "/" := by decide
  have hspace : OneLine " " := by decide
  have hopen : OneLine "* " := by decide
  have hfirst (n : Nat) : "/" ++ stars (n + 2) = "/**" ++ stars n := by
    rw [← String.toList_inj]
    simp [stars, List.replicate_succ]
  have hinner (t : String) : " " ++ ("* " ++ t ++ " *") = " *" ++ (" " ++ t ++ " *") := by
    rw [← String.toList_inj]
    simp
  have hlast (n : Nat) : " " ++ (stars (n + 1) ++ "/") = " *" ++ (stars n ++ "/") := by
    rw [← String.toList_inj]
    simp [stars, List.replicate_succ]
  have htop := lays_topComment hindent
    (by simp [isCommentLine, stars, List.replicate_succ, Text.dropBlanks, Text.isBlank])
    (hslash.append (oneLine_stars (generationMessage.length + 4))) ⟨_, .inl (hfirst _)⟩
  have hmiddle := @lays_topComment indent hindent (" " ++ ("* " ++ generationMessage ++ " *"))
    (by simp [isCommentLine, Text.dropBlanks, Text.isBlank])
    (hspace.append ((hopen.append oneLine_generationMessage).append (by decide))) ⟨_, .inr (hinner _)⟩
  have hbottom := lays_topComment hindent
    (by simp [isCommentLine, stars, List.replicate_succ, Text.dropBlanks, Text.isBlank])
    (hspace.append ((oneLine_stars (generationMessage.length + 3)).append hslash)) ⟨_, .inr (hlast _)⟩
  rw [bannerText_eq, String.empty_append]
  exact ((htop.append hmiddle).append hbottom).append .feed

theorem lays_importText {module : String} (h : Neat module) : Lays indent (importText module) 0 0 := by
  have hkeyword : Neat "import " ∧ Headed "import " := ⟨by decide, 'i', rfl, by decide⟩
  have hpath := ((hkeyword.1.append h.capitalize).append (by decide : Neat " from './")).append h
  have hline := Lays.flat (d := 0) hindent (hpath.append (by decide : Neat "'"))
    ((((hkeyword.2.append _).append _).append _).append _)
  rw [margin_zero, String.empty_append] at hline
  have hfeed : "'\n" = "'" ++ "\n" := rfl
  rw [importText, hfeed]
  simpa only [String.append_assoc] using hline

theorem lays_importTexts {imports : List String} (h : ∀ module ∈ imports, Neat module) :
    Lays indent (String.join (imports.map importText)) 0 0 := by
  induction imports with
  | nil => exact .empty
  | cons module rest ih =>
      rw [List.map_cons, String.join_cons]
      exact (lays_importText hindent (h module List.mem_cons_self)).append
        (ih fun other hother => h other (List.mem_cons_of_mem _ hother))

theorem lays_headText {imports : List String} (h : ∀ module ∈ imports, Neat module) (banner : Bool) :
    Lays indent (headText banner imports) 0 0 := by
  have himports := lays_importTexts hindent h
  cases banner with
  | false => exact Lays.empty.append himports
  | true => exact (lays_bannerText hindent).append himports

theorem lays_exportText {name : String} (h : Neat name) : Lays indent (exportText name) 0 0 := by
  have hkeyword : Neat "export default " ∧ Headed "export default " := ⟨by decide, 'e', rfl, by decide⟩
  have hline := Lays.flat (d := 0) hindent ((hkeyword.1.append h).append (by decide : Neat ";"))
    ((hkeyword.2.append _).append _)
  rw [margin_zero, String.empty_append] at hline
  have hfeed : ";\n" = ";" ++ "\n" := rfl
  have hstart : "\nexport default " = "\n" ++ "export default " := rfl
  rw [exportText_eq, hfeed, hstart]
  simpa only [String.append_assoc] using Lays.feed.append hline

end

/-! ## Modules -/

/-- The sheet with the whole module on it. -/
def DeclarationModule.sheet (m : DeclarationModule) (unit : Json) (banner : Bool) : Except Fault Sheet :=
  let head : Sheet := { unit, text := headText banner m.imports }
  ((if m.imports.isEmpty then .ok head else head.line "") >>= (writeItems · m.items)).map (·.add (exportText m.name))

theorem DeclarationModule.text_eq_sheet (m : DeclarationModule) (unit : Json) (banner : Bool) :
    m.text unit banner = (m.sheet unit banner).map (·.text) := by
  rw [DeclarationModule.text, DeclarationModule.sheet]
  split
  · simp only [ok_bind]
    cases writeItems _ m.items <;> rfl
  · cases Sheet.line _ "" with
    | error fault => rfl
    | ok s =>
        simp only [ok_bind]
        cases writeItems s m.items <;> rfl

/-- The blocks that are opened on a sheet are closed again. -/
theorem DeclarationModule.depth_sheet {m : DeclarationModule} {unit : Json} {banner : Bool} {s : Sheet}
    (h : m.sheet unit banner = .ok s) : s.depth = 0 := by
  obtain ⟨body, hbody, rfl⟩ := map_eq_ok.1 h
  obtain ⟨head, hhead, hbody⟩ := bind_eq_ok.1 hbody
  have hitems := (moves_writeItems m.items head body hbody).2
  split at hhead
  · cases hhead
    exact hitems
  · exact hitems.trans (Sheet.moves_line "" _ head hhead).2

/-- What is made is the text of a sheet on which the module is written and no block left open, and every line of it
stands at the depth to which the code before it leads. -/
def DeclarationModule.LaidOut (m : DeclarationModule) (indent : String) (banner : Bool) (made : Except Fault String) :
    Prop :=
  ∃ s, m.sheet (.str indent) banner = .ok s ∧ made = .ok s.text ∧ s.depth = 0 ∧
    ∀ before line after, Text.lines s.text = before ++ line :: after → line ≠ "" → Aligned indent (rise before) line

theorem DeclarationModule.laidOut {m : DeclarationModule} {indent : String} (hindent : Margin indent)
    (himports : ∀ module ∈ m.imports, Neat module) (hitems : ∀ item ∈ m.items, item.Laid indent) (hname : Neat m.name)
    (banner : Bool) : m.LaidOut indent banner (m.text (.str indent) banner) := by
  obtain ⟨t, ht, hlays⟩ := laid_itemsText hitems 0
  have htext : m.text (.str indent) banner =
      .ok (headText banner m.imports ++ (if m.imports.isEmpty then "" else "\n") ++ t ++ exportText m.name) := by
    rw [DeclarationModule.text_eq, ht]
    rfl
  have hgap : Lays indent (if m.imports.isEmpty then "" else "\n") 0 0 := by
    split
    · exact .empty
    · exact .feed
  have hwhole := (((lays_headText hindent himports banner).append hgap).append hlays).append
    (lays_exportText hindent hname)
  rw [DeclarationModule.text_eq_sheet, map_eq_ok] at htext
  obtain ⟨s, hs, hstext⟩ := htext
  refine ⟨s, hs, ?_, ?_, fun before line after hlines hline => ?_⟩
  · rw [DeclarationModule.text_eq_sheet, hs]
    rfl
  · exact DeclarationModule.depth_sheet hs
  · rw [hstext] at hlines
    have haligned := hwhole.aligned before line after hlines hline
    rwa [Int.natCast_zero, Int.zero_add] at haligned

/-! ## Editions -/

namespace Edition

/-- The indentation is of spaces and tabs. No name in the protocol or the settings has a brace, a star or a line boundary
in it, and none that may stand at the start of a line starts with a blank. -/
structure Tidy (e : Edition) (indent : String) : Prop where
  unit : e.settings.indent = .str indent
  margin : Margin indent
  protocol : Neat e.protocol
  mappingModule : ∃ name, e.settings.mappingModule = .str name ∧ Neat name
  apiModule : ∃ name, e.settings.apiModule = .str name ∧ Neat name
  domains : ∀ d ∈ e.domains, d.MadeOf Neat Flush

/-- The three modules of a tidy edition are written with every block closed, and each line of theirs stands as many
steps from the margin as the code before it has left blocks open. -/
theorem Tidy.modules_laidOut {e : Edition} {indent : String} (h : e.Tidy indent) :
    (protocolModule (Text.capitalize e.protocol) e.domains).LaidOut indent e.settings.banner.truthy e.protocolText ∧
    (∃ name, namespaceOf e.settings.mappingModule = .ok name ∧
      (ProtocolTypings.mappingModule name e.protocol e.domains).LaidOut indent e.settings.banner.truthy e.mappingText) ∧
    ∃ name, namespaceOf e.settings.apiModule = .ok name ∧
      (ProtocolTypings.apiModule name e.protocol e.domains).LaidOut indent e.settings.banner.truthy e.apiText := by
  obtain ⟨mappingName, hmappingName, hmappingNeat⟩ := h.mappingModule
  obtain ⟨mapping, hmapping, hmappingNeat⟩ := exists_namespaceOf nameKind_neat hmappingNeat
  obtain ⟨apiName, hapiName, hapiNeat⟩ := h.apiModule
  obtain ⟨api, hapi, hapiNeat⟩ := exists_namespaceOf nameKind_neat hapiNeat
  have hprotocol := h.protocol
  refine ⟨?_, ⟨mapping, by rw [hmappingName, hmapping], ?_⟩, api, by rw [hapiName, hapi], ?_⟩
  · have hitems := madeOf_protocolModule nameKind_neat hprotocol.capitalize h.domains
    rw [protocolText, moduleText, h.unit]
    exact DeclarationModule.laidOut h.margin (by simp [protocolModule])
      (fun item hitem => (hitems item hitem).laid h.margin) hprotocol.capitalize _
  · have hitems := madeOf_mappingModule nameKind_neat hmappingNeat hprotocol h.domains
    rw [mappingText, hmappingName, hmapping, ok_bind, moduleText, h.unit]
    exact DeclarationModule.laidOut h.margin (by simpa [ProtocolTypings.mappingModule] using hprotocol)
      (fun item hitem => (hitems item hitem).laid h.margin) hmappingNeat _
  · have hitems := madeOf_apiModule nameKind_neat hapiNeat hprotocol h.domains
    rw [apiText, hapiName, hapi, ok_bind, moduleText, h.unit]
    exact DeclarationModule.laidOut h.margin (by simpa [ProtocolTypings.apiModule] using hprotocol)
      (fun item hitem => (hitems item hitem).laid h.margin) hapiNeat _

/-- A protocol whose type alias and parameters hold objects in objects. -/
def ofNested : Edition where
  domains := [{
    name := "page"
    description := .str "Frames\nin \x7b frames"
    types := [⟨"Frames", .array default (.object default [⟨"size", .object default [
      ⟨"width", .primitive default "number" none, false, .null, ⟨false, false⟩⟩], true, .null, ⟨false, false⟩⟩]),
      .null, ⟨false, false⟩⟩]
    commands := [⟨"close", .str "\x7d", some [⟨"reason", .object default [
      ⟨"text", .primitive default "string" (some ["user", "script"]), false, .null, ⟨false, false⟩⟩], false,
      .str "Why", ⟨false, false⟩⟩], none, .null, ⟨false, false⟩⟩]
    events := []
    dependencies := []
    marks := ⟨false, false⟩ }]
  settings := { indent := .str "  " }
  protocol := "protocol"

theorem ofNested_tidy : ofNested.Tidy "  " where
  unit := rfl
  margin := by decide
  protocol := by decide +kernel
  mappingModule := ⟨"ProtocolMapping", rfl, by decide +kernel⟩
  apiModule := ⟨"ProtocolProxyApi", rfl, by decide +kernel⟩
  domains := by
    intro d hd
    rw [List.mem_singleton.1 hd]
    refine ⟨by decide +kernel, by decide +kernel, ?_⟩
    simp [Domain.descriptions, TypeDecl.descriptions, Command.descriptions, descriptionsOf, IsDescription]

theorem modules_laidOut_ofNested : ofNested.Tidy "  " ∧
    (protocolModule (Text.capitalize ofNested.protocol) ofNested.domains).LaidOut "  "
      ofNested.settings.banner.truthy ofNested.protocolText ∧
    (∃ name, namespaceOf ofNested.settings.mappingModule = .ok name ∧
      (ProtocolTypings.mappingModule name ofNested.protocol ofNested.domains).LaidOut "  "
        ofNested.settings.banner.truthy ofNested.mappingText) ∧
    ∃ name, namespaceOf ofNested.settings.apiModule = .ok name ∧
      (ProtocolTypings.apiModule name ofNested.protocol ofNested.domains).LaidOut "  "
        ofNested.settings.banner.truthy ofNested.apiText :=
  ⟨ofNested_tidy, Tidy.modules_laidOut ofNested_tidy⟩

end Edition

end ProtocolTypings
