import ProtocolTypings.Proofs.Artifact.Comparison
import ProtocolTypings.Proofs.Artifact.Delivery
import ProtocolTypings.Proofs.File.Components
import ProtocolTypings.Proofs.Typing.Written

/-!
# Where imports lead

The mapping module and the API module import the protocol module by the name of its file alone, as if it lay beside
them. The import leads to the protocol exactly if it does: a folder in the name of the protocol file, or in that of an
importing one, is not made up for.
-/

namespace ProtocolTypings

/-- The file that is meant by a specifier, as seen from the folder in which the importing file lies. -/
def Path.imported (importer : Path) (specifier : String) : Path :=
  importer.parent.resolve (specifier ++ ".d.ts")

/-- After the banner, if there is one, the text begins with an import. -/
def ImportsFrom (banner : Bool) (name specifier text : String) : Prop :=
  ∃ rest, text = (if banner then bannerText else "") ++
    ("import " ++ name ++ " from '" ++ specifier ++ "'\n") ++ rest

/-! ## Names of declaration files -/

section

variable {file m : String}

theorem component_declarationFile (h : (Path.componentsOf file).getLast? = some (m ++ ".d.ts")) :
    Path.Component (m ++ ".d.ts") :=
  Path.component_of_mem (List.mem_of_getLast? h)

theorem declarationFile_ne_pair (m : String) : m ++ ".d.ts" ≠ ".." := by
  intro h
  have hlength := congrArg String.length h
  have hend : ".d.ts".length = 5 := rfl
  have hpair : "..".length = 2 := rfl
  rw [String.length_append] at hlength
  omega

theorem moduleOf_declarationFile (h : (Path.componentsOf file).getLast? = some (m ++ ".d.ts")) :
    Name.moduleOf file = m := by
  have htext : (m ++ ".d.ts").toList = m.toList ++ Name.declarationExtension := by
    rw [String.toList_append]
    rfl
  have hsuffix : Name.declarationExtension.isSuffixOf (m.toList ++ Name.declarationExtension) = true := by
    rw [List.isSuffixOf_iff_suffix]
    exact List.suffix_append _ _
  have hlength : (m ++ ".d.ts").length - Name.declarationExtension.length = m.toList.length := by
    have hend : ".d.ts".length = 5 := rfl
    simp [Name.declarationExtension, hend, String.length_toList]
  rw [Name.moduleOf, List.getLastD_eq_getLast?, h, Option.getD_some, htext, if_pos hsuffix, hlength, List.take_left,
    String.ofList_toList]

/-- The specifier of a neighbour leads to the folder in which the importing file lies. -/
theorem Path.imported_neighbour (h : Path.Component (m ++ ".d.ts")) (p : Path) :
    p.imported ("./" ++ m) = p.parent.extend [m ++ ".d.ts"] := by
  rw [imported, String.append_assoc, h.resolve_here]

end

/-! ## Import lines -/

theorem importText_eq (module : String) :
    importText module = "import " ++ Text.capitalize module ++ " from '" ++ ("./" ++ module) ++ "'\n" := by
  have hopen : " from './" = " from '" ++ "./" := rfl
  simp only [importText, hopen, String.append_assoc]

theorem DeclarationModule.importsFrom {d : DeclarationModule} {module : String} (himports : d.imports = [module])
    {unit : Json} {banner : Bool} {text : String} (h : d.text unit banner = .ok text) :
    ImportsFrom banner (Text.capitalize module) ("./" ++ module) text := by
  rw [d.text_eq] at h
  obtain ⟨items, -, rfl⟩ := map_eq_ok.1 h
  refine ⟨"\n" ++ items ++ exportText d.name, ?_⟩
  rw [himports, ← importText_eq]
  simp [headText, String.append_assoc]

namespace Edition

variable {e : Edition} {artifacts : List Artifact}

/-- What stands in the file of the mapping or of the API imports the protocol. -/
theorem NamesFiles.importsFrom (hnames : e.NamesFiles) (h : e.artifacts = .ok artifacts) {a : Artifact}
    (ha : a ∈ artifacts) (hfile : a.file = e.settings.mappingFile ∨ a.file = e.settings.apiFile) :
    ImportsFrom e.settings.banner.truthy (Text.capitalize e.protocol) ("./" ++ e.protocol) a.text := by
  obtain ⟨protocol, -, h⟩ := bind_eq_ok.1 h
  obtain ⟨mapping, hmapping, h⟩ := bind_eq_ok.1 h
  obtain ⟨api, hapi, h⟩ := bind_eq_ok.1 h
  obtain ⟨mappingName, -, hmapping⟩ := bind_eq_ok.1 hmapping
  obtain ⟨apiName, -, hapi⟩ := bind_eq_ok.1 hapi
  obtain ⟨file, hprotocol⟩ := hnames.protocol
  -- the protocol has been entered, and the two modules that import it are entered after it
  rw [Artifact.collect, hprotocol] at h
  have htexts : ∀ b ∈ [(⟨e.settings.mappingFile, mapping⟩ : Artifact), ⟨e.settings.apiFile, api⟩],
      ∃ name, b.file = .str name :=
    List.forall_mem_cons.2 ⟨hnames.mapping, List.forall_mem_cons.2 ⟨hnames.api, List.forall_mem_nil _⟩⟩
  have hentered : ((Artifact.put (.str file) protocol []).map (·.file)).Nodup := Artifact.nodup_put List.nodup_nil
  rcases Artifact.text_of_collect htexts hentered h ha with ⟨b, hb, -, htext⟩ | ⟨-, hnone⟩
  · rw [← htext]
    simp only [List.mem_cons, List.not_mem_nil, or_false] at hb
    rcases hb with rfl | rfl
    · exact DeclarationModule.importsFrom rfl hmapping
    · exact DeclarationModule.importsFrom rfl hapi
  · rw [List.forall_mem_cons, List.forall_mem_cons] at hnone
    rcases hfile with hfile | hfile
    · exact absurd hfile.symm hnone.1
    · exact absurd hfile.symm hnone.2.1

theorem NamesFiles.exists_artifact (hnames : e.NamesFiles) (h : e.artifacts = .ok artifacts) {name : String}
    (hname : .str name ∈ e.files) : ∃ a ∈ artifacts, a.file = .str name := by
  obtain ⟨as, -, hfiles, hcollect⟩ := exists_collect h
  rw [← hfiles] at hname
  obtain ⟨b, hb, hfile⟩ := List.mem_map.1 hname
  obtain ⟨a, ha, heq⟩ := Artifact.exists_of_collect (hnames.named hfiles) hcollect b (by simpa using hb)
  exact ⟨a, ha, heq.trans hfile⟩

/-- Every file that the settings name gets an artifact. Those of the mapping and of the API import the protocol from
beside them: what they import is the protocol file if and only if it lies in the same folder as they do, be it that the
paths are compared as they are written or as what they lead to. -/
theorem imports_meet_protocol_iff {domains : List Domain} {settings : Settings}
    (hmade : ofDomains domains settings = .ok e) (hnames : e.NamesFiles) {file m : String}
    (hprotocol : settings.protocolFile = .str file)
    (hlast : (Path.componentsOf file).getLast? = some (m ++ ".d.ts")) (hartifacts : e.artifacts = .ok artifacts)
    (folder : Path) :
    (∀ name, .str name ∈ [settings.protocolFile, settings.mappingFile, settings.apiFile] →
      ∃ a ∈ artifacts, a.file = .str name ∧ a.pathIn folder = .ok (folder.resolve name)) ∧
    ∀ a ∈ artifacts, a.file = settings.mappingFile ∨ a.file = settings.apiFile →
      ImportsFrom settings.banner.truthy (Text.capitalize m) ("./" ++ m) a.text ∧
      ∃ p, a.pathIn folder = .ok p ∧
        (p.imported ("./" ++ m) = folder.resolve file ↔ p.parent = (folder.resolve file).parent) ∧
        ((p.imported ("./" ++ m)).straighten = (folder.resolve file).straighten ↔
          p.parent.straighten = (folder.resolve file).parent.straighten) := by
  rw [ofDomains, hprotocol] at hmade
  obtain ⟨⟩ := hmade
  constructor
  · intro name hname
    obtain ⟨a, ha, hfile⟩ := hnames.exists_artifact hartifacts hname
    exact ⟨a, ha, hfile, Artifact.pathIn_eq_ok.2 ⟨name, hfile, rfl⟩⟩
  · intro a ha hfile
    have himports := hnames.importsFrom hartifacts ha hfile
    rw [moduleOf_declarationFile hlast] at himports
    obtain ⟨p, hp⟩ := hnames.exists_path hartifacts folder a ha
    have hcomponent := component_declarationFile hlast
    have htarget := Path.extend_parent (Path.getLast?_resolve hlast folder)
    refine ⟨himports, p, hp, ?_, ?_⟩
    · rw [Path.imported_neighbour hcomponent, ← htarget, Path.extend_inj, htarget]
    · rw [Path.imported_neighbour hcomponent, ← htarget, Path.straighten_extend _ (declarationFile_ne_pair m),
        Path.straighten_extend _ (declarationFile_ne_pair m), Path.extend_inj, htarget]

/-- Names of files, two of them in a folder. -/
def foldered : Settings where
  protocolFile := .str "types/protocol.d.ts"
  mappingFile := .str "./types//mapping.d.ts"
  apiFile := .str "api.d.ts"

/-- An edition without domains in files of these names. -/
def folderedEdition : Edition where
  domains := []
  settings := foldered
  protocol := "protocol"

theorem namesFiles_folderedEdition : folderedEdition.NamesFiles :=
  ⟨⟨_, rfl⟩, ⟨_, rfl⟩, ⟨_, rfl⟩⟩

theorem exists_artifacts_folderedEdition : ∃ artifacts, folderedEdition.artifacts = .ok artifacts :=
  exists_eq_ok (by decide +kernel)

theorem imports_meet_protocol_iff_foldered :
    ofDomains [] foldered = .ok folderedEdition ∧ folderedEdition.NamesFiles ∧
      foldered.protocolFile = .str "types/protocol.d.ts" ∧
      (Path.componentsOf "types/protocol.d.ts").getLast? = some ("protocol" ++ ".d.ts") ∧
      ∃ artifacts, folderedEdition.artifacts = .ok artifacts ∧
        (∀ name, .str name ∈ [foldered.protocolFile, foldered.mappingFile, foldered.apiFile] →
          ∃ a ∈ artifacts, a.file = .str name ∧ a.pathIn ⟨["out"], .one⟩ = .ok ((⟨["out"], .one⟩ : Path).resolve name)) ∧
        ∀ a ∈ artifacts, a.file = foldered.mappingFile ∨ a.file = foldered.apiFile →
          ImportsFrom foldered.banner.truthy (Text.capitalize "protocol") ("./" ++ "protocol") a.text ∧
          ∃ p, a.pathIn ⟨["out"], .one⟩ = .ok p ∧
            (p.imported ("./" ++ "protocol") = (⟨["out"], .one⟩ : Path).resolve "types/protocol.d.ts" ↔
              p.parent = ((⟨["out"], .one⟩ : Path).resolve "types/protocol.d.ts").parent) ∧
            ((p.imported ("./" ++ "protocol")).straighten =
                ((⟨["out"], .one⟩ : Path).resolve "types/protocol.d.ts").straighten ↔
              p.parent.straighten = ((⟨["out"], .one⟩ : Path).resolve "types/protocol.d.ts").parent.straighten) := by
  have hmade : ofDomains [] foldered = .ok folderedEdition := by rfl
  have hlast : (Path.componentsOf "types/protocol.d.ts").getLast? = some ("protocol" ++ ".d.ts") := by decide
  obtain ⟨artifacts, hartifacts⟩ := exists_artifacts_folderedEdition
  exact ⟨hmade, namesFiles_folderedEdition, rfl, hlast, artifacts, hartifacts,
    imports_meet_protocol_iff hmade namesFiles_folderedEdition rfl hlast hartifacts ⟨["out"], .one⟩⟩

/-- The API lies above the folder of the protocol, and imports it from a file that is not there. -/
theorem import_misses_protocol :
    ∃ artifacts, folderedEdition.artifacts = .ok artifacts ∧ ∃ a ∈ artifacts, a.file = foldered.apiFile ∧
      ImportsFrom true "Protocol" "./protocol" a.text ∧
      a.pathIn ⟨["out"], .one⟩ = .ok ⟨["out", "api.d.ts"], .one⟩ ∧
      (⟨["out", "api.d.ts"], .one⟩ : Path).imported "./protocol" = ⟨["out", "protocol.d.ts"], .one⟩ ∧
      (⟨["out"], .one⟩ : Path).resolve "types/protocol.d.ts" = ⟨["out", "types", "protocol.d.ts"], .one⟩ ∧
      ∀ b ∈ artifacts, b.pathIn ⟨["out"], .one⟩ ≠ .ok ⟨["out", "protocol.d.ts"], .one⟩ := by
  obtain ⟨artifacts, hartifacts⟩ := exists_artifacts_folderedEdition
  obtain ⟨a, ha, hfile⟩ : ∃ a ∈ artifacts, a.file = .str "api.d.ts" :=
    namesFiles_folderedEdition.exists_artifact hartifacts (by decide)
  have himports := namesFiles_folderedEdition.importsFrom hartifacts ha (.inr hfile)
  refine ⟨artifacts, hartifacts, a, ha, hfile, himports, ?_, by decide, by decide, ?_⟩
  · rw [Artifact.pathIn, hfile]
    decide
  · intro b hb
    have hmem := file_mem_files hartifacts hb
    have hother : ∀ file ∈ folderedEdition.files,
        (Artifact.mk file "").pathIn ⟨["out"], .one⟩ ≠ .ok ⟨["out", "protocol.d.ts"], .one⟩ := by decide
    exact hother b.file hmem

end Edition

end ProtocolTypings
