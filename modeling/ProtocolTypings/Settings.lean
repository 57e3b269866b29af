import ProtocolTypings.Fault

/-!
# Settings

Settings are taken from an object as they are; a value of the wrong kind fails where it is used, not here. Only the
name of an output mode is checked. Unknown keys are passed over, but for the names of four parts that all settings have
besides their values: what encodes them, the table that the values are kept in, their class, and the references to
them. The first two may be replaced.
-/

namespace ProtocolTypings

inductive OutputMode where
  /-- Write the artifacts. -/
  | force
  /-- Compare the artifacts with the files that are there, and write nothing. -/
  | check
deriving DecidableEq

def OutputMode.name : OutputMode → String
  | .force => "force"
  | .check => "check"

def OutputMode.ofName? : String → Option OutputMode
  | "force" => some .force
  | "check" => some .check
  | _ => none

/-- A mode, or a value in place of one that is not a text. -/
inductive ModeSetting where
  | named (mode : OutputMode)
  | other (value : Json)
deriving DecidableEq

structure OutputSection where
  mode : ModeSetting := .named .force
  validate : Json := .bool true
  atomic : Json := .bool true
deriving DecidableEq

/-- How artifacts are written, or a value in place of that. -/
inductive OutputSetting where
  | of (output : OutputSection)
  | other (value : Json)
  /-- There is none. -/
  | missing
deriving DecidableEq

structure Settings where
  protocolFile : Json := .str "protocol.d.ts"
  mappingFile : Json := .str "protocol-mapping.d.ts"
  apiFile : Json := .str "protocol-proxy-api.d.ts"
  mappingModule : Json := .str "ProtocolMapping"
  apiModule : Json := .str "ProtocolProxyApi"
  indent : Json := .str "    "
  strict : Json := .bool false
  banner : Json := .bool true
  output : OutputSetting := .of {}
  /-- A value in the place of what encodes the settings. -/
  encoder : Option Json := none
deriving DecidableEq

namespace Settings

/-! ## Decoding -/

def decodeMode : Json → Except Fault ModeSetting
  | .str name =>
    match OutputMode.ofName? name with
    | some mode => .ok (.named mode)
    | none => .error (.refusal (.settings (.unknownMode name)))
  | other => .ok (.other other)

def decodeOutput : Json → Except Fault OutputSetting
  | .obj fields => do
    let mode ← decodeMode ((fields.lookup "mode").getD (.str "force"))
    return .of {
      mode
      validate := (fields.lookup "validate_before_write").getD (.bool true)
      atomic := (fields.lookup "atomic_write").getD (.bool true) }
  | other => .ok (.other other)

/-- The settings with another output section. One that is not there is not made by a value in place of it. -/
def setOutput (s : Settings) (output : OutputSetting) : Settings :=
  match s.output, output with
  | .missing, .other _ => s
  | _, output => { s with output }

/-- The settings with the values that stand under their names in the fields, and with the given output section. -/
def filled (s : Settings) (fields : List (String × Json)) (output : OutputSetting) : Settings :=
  { s with
    protocolFile := (fields.lookup "protocol_file_name").getD s.protocolFile
    mappingFile := (fields.lookup "mapping_file_name").getD s.mappingFile
    apiFile := (fields.lookup "api_file_name").getD s.apiFile
    mappingModule := (fields.lookup "mapping_module_name").getD s.mappingModule
    apiModule := (fields.lookup "api_module_name").getD s.apiModule
    indent := (fields.lookup "indent").getD s.indent
    strict := (fields.lookup "strict").getD s.strict
    banner := (fields.lookup "add_generation_comment").getD s.banner
    output }

/-- The settings whose table of values is replaced. Those that are not in it are the default ones, except for the
output section, which has none. -/
def ofTable (fields : List (String × Json)) : Settings :=
  { filled {} fields ((fields.lookup "output").elim .missing .other) with encoder := fields.lookup "to_dict" }

/-- The settings with one field of the object entered. -/
def enter (s : Settings) (key : String) (value : Json) : Except Fault Settings :=
  match key with
  | "protocol_file_name" => .ok { s with protocolFile := value }
  | "mapping_file_name" => .ok { s with mappingFile := value }
  | "api_file_name" => .ok { s with apiFile := value }
  | "mapping_module_name" => .ok { s with mappingModule := value }
  | "api_module_name" => .ok { s with apiModule := value }
  | "indent" => .ok { s with indent := value }
  | "strict" => .ok { s with strict := value }
  | "add_generation_comment" => .ok { s with banner := value }
  | "output" => (decodeOutput value).map s.setOutput
  | "to_dict" => .ok { s with encoder := some value }
  | "__dict__" =>
    match value with
    | .obj fields => .ok (ofTable fields)
    | _ => .error (.misuse .tableNotObject)
  | "__class__" => .error (.misuse .classFixed)
  | "__weakref__" => .error (.misuse .referencesFixed)
  | _ => .ok s

def enterAll (s : Settings) : List (String × Json) → Except Fault Settings
  | [] => .ok s
  | (key, value) :: rest => do (← s.enter key value).enterAll rest

def decode : Json → Except Fault Settings
  | .obj fields => enterAll {} fields
  | _ => .error (.misuse .settingsNotObject)

/-! ## Encoding -/

def encodeMode : ModeSetting → Except Fault Json
  | .named mode => .ok (.str mode.name)
  | .other _ => .error (.misuse .modeWithoutName)

def encodeOutput : OutputSetting → Except Fault Json
  | .of output => do
    return .obj [
      ("mode", ← encodeMode output.mode),
      ("validate_before_write", output.validate),
      ("atomic_write", output.atomic)]
  | .other _ | .missing => .error (.misuse .outputNotSection)

def encode (s : Settings) : Except Fault Json :=
  match s.encoder with
  | some _ => .error (.misuse .encoderReplaced)
  | none => do
    return .obj [
      ("protocol_file_name", s.protocolFile),
      ("mapping_file_name", s.mappingFile),
      ("api_file_name", s.apiFile),
      ("mapping_module_name", s.mappingModule),
      ("api_module_name", s.apiModule),
      ("indent", s.indent),
      ("strict", s.strict),
      ("add_generation_comment", s.banner),
      ("output", ← encodeOutput s.output)]

/-! ## Use -/

/-- The section on output, where there has to be one. -/
def outputSection (s : Settings) : Except Fault OutputSection :=
  match s.output with
  | .of output => .ok output
  | .other _ | .missing => .error (.misuse .outputNotSection)

/-- What is there in the place of the section on output. -/
def presentOutput (s : Settings) : Except Fault OutputSetting :=
  match s.output with
  | .missing => .error (.misuse .outputNotSection)
  | output => .ok output

/-- The settings with the mode changed. -/
def withMode (s : Settings) (mode : OutputMode) : Except Fault Settings := do
  return { s with output := .of { (← s.outputSection) with mode := .named mode } }

end Settings

end ProtocolTypings
