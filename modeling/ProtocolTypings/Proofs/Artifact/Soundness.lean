import ProtocolTypings.Artifact.Delivery
import ProtocolTypings.Proofs.Artifact.Collecting
import ProtocolTypings.Proofs.File.Run
import ProtocolTypings.Proofs.File.Writing
import ProtocolTypings.Proofs.Typing.Sound

/-!
# Artifacts that pass the check

Over domains with plain names all three artifacts are made, and each passes the check that is made before it is
written. Nothing that is written is refused.
-/

namespace ProtocolTypings

open Artifact
open Text (Plain OneLine)

/-! ## The check -/

theorem occursIn_append (word before after : List Char) : occursIn word (before ++ (word ++ after)) = true := by
  induction before with
  | nil =>
      cases word with
      | nil => cases after <;> rfl
      | cons c word =>
          have hprefix : (c :: word).isPrefixOf (c :: (word ++ after)) = true := by
            rw [List.isPrefixOf_iff_prefix]
            exact List.prefix_append (c :: word) after
          rw [List.nil_append, List.cons_append, occursIn, hprefix, Bool.true_or]
  | cons c before ih => rw [List.cons_append, occursIn, ih, Bool.or_true]

theorem validate_eq_ok {s : String} {n : Nat} (h : Weighs s n n)
    (hexport : occursIn defaultExport.toList s.toList = true) : validate s = .ok () := by
  have hopened : countIn '\x7b' (codeLines s) = n := h.opened
  have hclosed : countIn '\x7d' (codeLines s) = n := h.closed
  simp [validate, hopened, hclosed, hexport]

/-! ## Around the items -/

theorem margin_empty : Margin "" := by
  intro c hc
  cases hc

/-- A row of stars in the box around the message. -/
def stars (n : Nat) : String :=
  String.ofList (List.replicate n '*')

theorem oneLine_stars (n : Nat) : OneLine (stars n) := by
  intro c hc
  rw [stars, String.toList_ofList] at hc
  rw [List.eq_of_mem_replicate hc]
  decide

theorem oneLine_generationMessage : OneLine generationMessage := by
  decide +kernel

theorem bannerText_eq :
    bannerText = "" ++ ("/" ++ stars (generationMessage.length + 4)) ++ "\n" ++
      (" " ++ ("* " ++ generationMessage ++ " *") ++ "\n") ++
      (" " ++ (stars (generationMessage.length + 3) ++ "/") ++ "\n") ++ "\n" := by
  rw [← String.toList_inj]
  simp [bannerText, stars]

/-- All lines of the banner start like a comment. -/
theorem weighs_bannerText : Weighs bannerText 0 0 := by
  have hspace : Margin " " := by decide
  have hslash : OneLine "/" := by decide
  have hopen : OneLine "* " := by decide
  have hfirst : OneLine ("/" ++ stars (generationMessage.length + 4)) := hslash.append (oneLine_stars _)
  have hlast : OneLine (stars (generationMessage.length + 3) ++ "/") := (oneLine_stars _).append hslash
  have htop := Commentary.line margin_empty
    (by simp [isCommentLine, stars, List.replicate_succ, Text.dropBlanks, Text.isBlank]) hfirst
  have hmiddle := @Commentary.line " " ("* " ++ generationMessage ++ " *") hspace
    (by simp [isCommentLine, Text.dropBlanks, Text.isBlank])
    ((hopen.append oneLine_generationMessage).append (by decide))
  have hbottom := Commentary.line hspace
    (by simp [isCommentLine, stars, List.replicate_succ, Text.dropBlanks, Text.isBlank]) hlast
  have hfeed : Weighs "\n" 0 0 := ⟨.inr ⟨"", rfl⟩, by decide, by decide⟩
  rw [bannerText_eq]
  exact ((htop.append hmiddle).append hbottom).weighs.append hfeed

theorem Even.weighs {s : String} (h : Even s) : ∃ n, Weighs (s ++ "\n") n n := by
  obtain ⟨n, hn⟩ := h.weighs_line margin_empty
  rw [String.empty_append] at hn
  exact ⟨n, hn⟩

theorem weighs_importText {module : String} (h : Plain module) : ∃ n, Weighs (importText module) n n := by
  have heven : Even ("import " ++ Text.capitalize module ++ " from './" ++ module ++ "'") :=
    ((((by decide : Even "import ").append (.of_plain h.capitalize)).append (by decide)).append
      (.of_plain h)).append (by decide)
  obtain ⟨n, hn⟩ := heven.weighs
  exact ⟨n, by rwa [String.append_assoc] at hn⟩

theorem weighs_importTexts {imports : List String} (h : ∀ module ∈ imports, Plain module) :
    ∃ n, Weighs (String.join (imports.map importText)) n n := by
  induction imports with
  | nil => exact ⟨0, .empty⟩
  | cons module rest ih =>
      obtain ⟨m, hm⟩ := weighs_importText (h module List.mem_cons_self)
      obtain ⟨n, hn⟩ := ih fun other hother => h other (List.mem_cons_of_mem _ hother)
      rw [List.map_cons, String.join_cons]
      exact ⟨m + n, hm.append hn⟩

theorem weighs_headText {imports : List String} (h : ∀ module ∈ imports, Plain module) (banner : Bool) :
    ∃ n, Weighs (headText banner imports) n n := by
  obtain ⟨n, hn⟩ := weighs_importTexts h
  cases banner with
  | false => exact ⟨0 + n, Weighs.empty.append hn⟩
  | true => exact ⟨0 + n, weighs_bannerText.append hn⟩

theorem weighs_exportText {name : String} (h : Plain name) : ∃ n, Weighs (exportText name) n n := by
  have heven : Even ("\nexport default " ++ name ++ ";") :=
    ((by decide : Even "\nexport default ").append (.of_plain h)).append (by decide)
  obtain ⟨n, hn⟩ := heven.weighs
  exact ⟨n, by rwa [String.append_assoc] at hn⟩

theorem occursIn_exportText (text name : String) :
    occursIn defaultExport.toList (text ++ exportText name).toList = true := by
  have htext : (text ++ exportText name).toList =
      (text.toList ++ ['\n']) ++ (defaultExport.toList ++ (name.toList ++ ";\n".toList)) := by
    rw [exportText_eq, String.toList_append, String.toList_append, String.toList_append]
    simp [defaultExport]
  rw [htext]
  exact occursIn_append _ _ _

/-- A module with plain names around sound items is written and passes the check. -/
theorem DeclarationModule.text_sound {m : DeclarationModule} {indent : String}
    (himports : ∀ module ∈ m.imports, Plain module) (hitems : ∀ item ∈ m.items, item.Sound indent)
    (hname : Plain m.name) (banner : Bool) :
    ∃ text, m.text (.str indent) banner = .ok text ∧ validate text = .ok () := by
  obtain ⟨k, hhead⟩ := weighs_headText himports banner
  obtain ⟨t, n, ht, hn⟩ := sound_itemsText hitems 0
  obtain ⟨l, hexport⟩ := weighs_exportText hname
  have hgap : Weighs (if m.imports.isEmpty then "" else "\n") 0 0 := by
    split
    · exact .empty
    · exact ⟨.inr ⟨"", rfl⟩, by decide, by decide⟩
  refine ⟨_, by rw [DeclarationModule.text_eq, ht]; rfl, ?_⟩
  exact validate_eq_ok (((hhead.append hgap).append hn).append hexport) (occursIn_exportText _ _)

/-! ## Editions -/

namespace Edition

/-- The indentation is blank, and no name in the protocol or the settings has a brace or a star in it. -/
structure Clean (e : Edition) : Prop where
  indent : ∃ indent, e.settings.indent = .str indent ∧ Margin indent
  protocol : Plain e.protocol
  mappingModule : ∃ name, e.settings.mappingModule = .str name ∧ Plain name
  apiModule : ∃ name, e.settings.apiModule = .str name ∧ Plain name
  domains : ∀ d ∈ e.domains, d.Clean

theorem exists_namespaceOf {P L : String → Prop} (hkind : NameKind P L) {name : String} (h : P name) :
    ∃ module, namespaceOf (.str name) = .ok module ∧ P module := by
  unfold namespaceOf
  split
  · exact ⟨_, rfl, hkind.capitalize h⟩
  · exact ⟨"", rfl, hkind.fixed "" (by decide)⟩

variable {e : Edition}

theorem Clean.protocolText (h : e.Clean) : ∃ text, e.protocolText = .ok text ∧ validate text = .ok () := by
  obtain ⟨indent, hindent, hmargin⟩ := h.indent
  rw [Edition.protocolText, moduleText, hindent]
  exact DeclarationModule.text_sound (by simp [protocolModule])
    (sound_protocolModule hmargin h.protocol.capitalize h.domains) h.protocol.capitalize _

theorem Clean.mappingText (h : e.Clean) : ∃ text, e.mappingText = .ok text ∧ validate text = .ok () := by
  obtain ⟨indent, hindent, hmargin⟩ := h.indent
  obtain ⟨name, hname, hplain⟩ := h.mappingModule
  obtain ⟨module, hmodule, hplain⟩ := exists_namespaceOf nameKind_plain hplain
  rw [Edition.mappingText, hname, hmodule, ok_bind, moduleText, hindent]
  exact DeclarationModule.text_sound (by simpa [ProtocolTypings.mappingModule] using h.protocol)
    (sound_mappingModule hmargin hplain h.protocol h.domains) hplain _

theorem Clean.apiText (h : e.Clean) : ∃ text, e.apiText = .ok text ∧ validate text = .ok () := by
  obtain ⟨indent, hindent, hmargin⟩ := h.indent
  obtain ⟨name, hname, hplain⟩ := h.apiModule
  obtain ⟨module, hmodule, hplain⟩ := exists_namespaceOf nameKind_plain hplain
  rw [Edition.apiText, hname, hmodule, ok_bind, moduleText, hindent]
  exact DeclarationModule.text_sound (by simpa [ProtocolTypings.apiModule] using h.protocol)
    (sound_apiModule hmargin hplain h.protocol h.domains) hplain _

end Edition

/-! ## Writing -/

/-- A fault that carries no message for the user. -/
def NoRefusal (fault : Fault) : Prop :=
  ∀ refusal, fault ≠ .refusal refusal

theorem noRefusal_file (fault : FileFault) : NoRefusal (.file fault) := by
  intro refusal h
  cases h

namespace Action

theorem failsIn_unlessFolder (p : Path) (fault : FileFault) : (unlessFolder p fault).FailsIn NoRefusal := by
  intro answer
  dsimp only
  split
  · trivial
  · exact noRefusal_file fault

theorem failsIn_makeFolder (p : Path) : (makeFolder p).FailsIn NoRefusal := by
  intro answer
  dsimp only
  split
  · trivial
  · exact failsIn_unlessFolder p _

theorem failsIn_makeFoldersTo (p : Path) (components : List String) :
    (makeFoldersTo p components).FailsIn NoRefusal := by
  induction components with
  | nil => exact failsIn_makeFolder _
  | cons c above ih =>
      intro answer
      dsimp only
      split
      · trivial
      · exact FailsIn.bind ih fun _ => failsIn_makeFolder _
      · exact failsIn_unlessFolder _ _

theorem failsIn_targetMode (p : Path) : (targetMode p).FailsIn NoRefusal := by
  intro answer
  dsimp only
  split
  · trivial
  · trivial
  · exact noRefusal_file _

theorem failsIn_request (r : FileRequest) : (request r).FailsIn NoRefusal :=
  FailsIn.request noRefusal_file r

theorem failsIn_writeContent (p : Path) (content : Content) : (writeContent p content).FailsIn NoRefusal := by
  unfold writeContent
  split
  · exact failsIn_request _
  · rename_i fault hencode
    rw [Content.encode_eq_error hencode]
    exact FailsIn.bind (failsIn_request _) fun _ _ => nofun

theorem failsIn_writeDirectly (p : Path) (content : Content) : (writeDirectly p content).FailsIn NoRefusal :=
  FailsIn.bind (failsIn_makeFoldersTo _ _) fun _ => failsIn_writeContent p content

theorem failsIn_writeAtomically (p : Path) {content : Content} {check : Content → Except Fault Unit}
    (h : check content = .ok ()) : (writeAtomically p content check).FailsIn NoRefusal := by
  refine FailsIn.bind (failsIn_makeFoldersTo _ _) fun _ => FailsIn.bind (failsIn_request _) fun temporary => ?_
  refine FailsIn.onFailure ?_ (failsIn_request _)
  refine FailsIn.bind (failsIn_writeContent _ _) fun _ => FailsIn.bind ?_ fun _ => ?_
  · exact FailsIn.ofExcept fun fault hfault => by rw [h] at hfault; cases hfault
  · exact FailsIn.bind (failsIn_targetMode p) fun _ => FailsIn.bind (failsIn_request _) fun _ => failsIn_request _

end Action

namespace Artifact

theorem failsIn_write (output : OutputSetting) (folder : Path) {a : Artifact} (h : validate a.text = .ok ()) :
    (a.write output folder).FailsIn NoRefusal := by
  have hpath : (Action.ofExcept (a.pathIn folder)).FailsIn NoRefusal := by
    refine Action.FailsIn.ofExcept fun fault hfault refusal hrefusal => ?_
    subst hrefusal
    unfold pathIn at hfault
    split at hfault <;> cases hfault
  refine Action.FailsIn.bind hpath fun p => Action.FailsIn.bind trivial fun _ => ?_
  cases output with
  | other | missing =>
      intro refusal hrefusal
      cases hrefusal
  | of output =>
      have hcheck : checkIf output.validate.truthy (.ofString a.text) = .ok () := by
        rw [checkIf, Content.text_ofString, h, ite_self]
      dsimp only
      split
      · exact Action.FailsIn.bind (Action.failsIn_writeAtomically p hcheck) fun _ => trivial
      · refine Action.FailsIn.bind ?_ fun _ =>
          Action.FailsIn.bind (Action.failsIn_writeDirectly p _) fun _ => trivial
        exact Action.FailsIn.ofExcept fun fault hfault => by rw [hcheck] at hfault; cases hfault

theorem failsIn_writeAll (output : OutputSetting) (folder : Path) {as : List Artifact}
    (h : ∀ a ∈ as, validate a.text = .ok ()) : (writeAll output folder as).FailsIn NoRefusal := by
  induction as with
  | nil => trivial
  | cons a rest ih =>
      refine Action.FailsIn.bind (failsIn_write output folder (h a List.mem_cons_self)) fun p => ?_
      exact Action.FailsIn.bind (ih fun b hb => h b (List.mem_cons_of_mem _ hb)) fun _ => trivial

end Artifact

namespace Edition

theorem presentOutput_noRefusal {s : Settings} {fault : Fault} (h : s.presentOutput = .error fault) :
    NoRefusal fault := by
  unfold Settings.presentOutput at h
  split at h
  · cases h
    exact nofun
  · cases h

theorem collect_noRefusal {done as : List Artifact} {fault : Fault} (h : collect done as = .error fault) :
    NoRefusal fault := by
  induction as generalizing done with
  | nil => cases h
  | cons a rest ih =>
      rw [collect] at h
      split at h
      · intro refusal hrefusal
        subst hrefusal
        cases h
      · intro refusal hrefusal
        subst hrefusal
        cases h
      · exact ih h

/-- The texts of a clean edition are made, and they and the artifacts made of them pass the check. Writing them fails
with no refusal, whatever the files are. -/
theorem Clean.validates {e : Edition} (h : e.Clean) :
    (∃ protocol mapping api, e.protocolText = .ok protocol ∧ e.mappingText = .ok mapping ∧ e.apiText = .ok api ∧
      validate protocol = .ok () ∧ validate mapping = .ok () ∧ validate api = .ok ()) ∧
    (∀ artifacts, e.artifacts = .ok artifacts → ∀ a ∈ artifacts, validate a.text = .ok ()) ∧
    ∀ folder root refusal, ((e.write folder).run root).2.result ≠ .error (.refusal refusal) := by
  obtain ⟨protocol, hprotocol, hprotocolSound⟩ := h.protocolText
  obtain ⟨mapping, hmapping, hmappingSound⟩ := h.mappingText
  obtain ⟨api, hapi, hapiSound⟩ := h.apiText
  have hcollect : e.artifacts = collect [] [⟨e.settings.protocolFile, protocol⟩, ⟨e.settings.mappingFile, mapping⟩,
      ⟨e.settings.apiFile, api⟩] := by
    rw [artifacts, hprotocol, hmapping, hapi]
    rfl
  have hartifacts : ∀ artifacts, e.artifacts = .ok artifacts → ∀ a ∈ artifacts, validate a.text = .ok () := by
    intro artifacts hok a ha
    obtain ⟨-, b, hb, htext⟩ := mem_of_collect (hcollect.symm.trans hok) a ha
    simp only [List.nil_append, List.mem_cons, List.not_mem_nil, or_false] at hb
    rcases hb with rfl | rfl | rfl
    · rw [htext, hprotocolSound]
    · rw [htext, hmappingSound]
    · rw [htext, hapiSound]
  refine ⟨⟨protocol, mapping, api, hprotocol, hmapping, hapi, hprotocolSound, hmappingSound, hapiSound⟩,
    hartifacts, fun folder root refusal hrun => ?_⟩
  have hwrite : (e.write folder).FailsIn NoRefusal := by
    have hpresent : (Action.ofExcept e.settings.presentOutput).FailsIn NoRefusal :=
      Action.FailsIn.ofExcept fun _ habsent => presentOutput_noRefusal habsent
    refine Action.FailsIn.bind hpresent fun output => ?_
    cases hmade : e.artifacts with
    | error fault => exact collect_noRefusal (hcollect.symm.trans hmade)
    | ok artifacts => exact failsIn_writeAll output folder (hartifacts artifacts hmade)
  exact hwrite.run hrun refusal rfl

/-- A protocol with one command, of which the descriptions hold braces, stars and a line separator. -/
def ofBraces : Edition where
  domains := [{
    name := "page"
    description := .str "Opens \x7b and\u2028* never closes \x7d*/"
    types := [⟨"Box", .object default [⟨"size", .primitive default "number" none, true, .str "\x7b", ⟨false, false⟩⟩],
      .null, ⟨false, false⟩⟩]
    commands := [⟨"close", .str "\x7b\x7b", none, some [⟨"box", .ref default "Box", false, .null, ⟨false, false⟩⟩],
      .null, ⟨false, false⟩⟩]
    events := []
    dependencies := []
    marks := ⟨false, false⟩ }]
  settings := {}
  protocol := "protocol"

theorem ofBraces_clean : ofBraces.Clean where
  indent := ⟨"    ", rfl, by decide +kernel⟩
  protocol := by decide +kernel
  mappingModule := ⟨"ProtocolMapping", rfl, by decide +kernel⟩
  apiModule := ⟨"ProtocolProxyApi", rfl, by decide +kernel⟩
  domains := by
    intro d hd
    rw [List.mem_singleton.1 hd]
    refine ⟨by decide +kernel, ?_⟩
    simp [Domain.descriptions, TypeDecl.descriptions, Command.descriptions, descriptionsOf, IsDescription]

theorem validates_ofBraces :
    ofBraces.Clean ∧
      (∃ protocol mapping api, ofBraces.protocolText = .ok protocol ∧ ofBraces.mappingText = .ok mapping ∧
        ofBraces.apiText = .ok api ∧
        validate protocol = .ok () ∧ validate mapping = .ok () ∧ validate api = .ok ()) ∧
      ∀ folder root refusal, ((ofBraces.write folder).run root).2.result ≠ .error (.refusal refusal) := by
  obtain ⟨htexts, -, hwrite⟩ := Clean.validates ofBraces_clean
  exact ⟨ofBraces_clean, htexts, hwrite⟩

end Edition

end ProtocolTypings
