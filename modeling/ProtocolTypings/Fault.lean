import ProtocolTypings.Json.Basic
import ProtocolTypings.Json.Reader
import ProtocolTypings.Schema.Place

/-!
# Faults

Everything that can stop the work. A refusal has a message for the user; the other faults are told apart by their
cause alone.
-/

namespace ProtocolTypings

/-- What a document gets wrong at one place. -/
inductive SchemaFault where
  | expectedObject (found : Json.Kind)
  | expectedList (found : Json.Kind)
  | missingKey (key : String)
  | untypedShape
  | arrayWithoutItems
  | unknownKind (kind : String)
  | unresolved (references : List String)
  | worded (message : String)
deriving DecidableEq

inductive LayoutFault where
  | closeAtTop (closing : String)
  | worded (message : String)
deriving DecidableEq

inductive ArtifactFault where
  | unbalanced (opened closed : Nat)
  | noDefaultExport
  | outOfDate (paths : List String)
  | worded (message : String)
deriving DecidableEq

inductive SettingsFault where
  | unknownMode (mode : String)
  | worded (message : String)
deriving DecidableEq

inductive Refusal where
  | schema (place : Place) (cause : SchemaFault)
  | layout (cause : LayoutFault)
  | artifact (cause : ArtifactFault)
  | settings (cause : SettingsFault)
  | other (message : String)
deriving DecidableEq

/-- A value of a kind with which an operation cannot work. -/
inductive Misuse where
  | kindNotScalar
  | descriptionNotText
  | indentNotRepeatable
  /-- An indentation that is a number of more digits than are written. -/
  | indentTooLong
  /-- An indentation that no memory holds. -/
  | indentTooLarge
  | depthTooLarge
  | fileNameNotText
  | fileNameNotAKey
  | moduleNameNotText
  /-- A list in place of a module name, the first item of which is not a text. -/
  | moduleNameListOfOther
  | moduleNameObject
  | settingsNotObject
  /-- A value that is no table in place of the one that the settings are kept in. -/
  | tableNotObject
  | classFixed
  | referencesFixed
  /-- A value in place of what encodes the settings. -/
  | encoderReplaced
  | outputNotSection
  | modeWithoutName
deriving DecidableEq

inductive FileFault where
  | missing
  | exists
  | isFolder
  | notFolder
  | busy
  | notPermitted
  | nameTooLong
  | nameWithNull
  /-- Whatever else a file system may answer. -/
  | other (details : String)
deriving DecidableEq

inductive Fault where
  | refusal (refusal : Refusal)
  | misuse (misuse : Misuse)
  | file (fault : FileFault)
  | json (fault : Json.ReadFault)
  | notUtf8
  /-- A text that no file can hold. -/
  | notEncodable
deriving DecidableEq

/-! ## Messages -/

def SchemaFault.message : SchemaFault → String
  | .expectedObject found => "Expected an object, got " ++ found.name
  | .expectedList found => "Expected a list, got " ++ found.name
  | .missingKey key => "Missing required key '" ++ key ++ "'"
  | .untypedShape => "Shape has neither '$ref' nor 'type'"
  | .arrayWithoutItems => "Array shape has no 'items'"
  | .unknownKind kind => "Unknown primitive kind '" ++ kind ++ "'"
  | .unresolved references => "Unresolved references: " ++ ", ".intercalate references
  | .worded message => message

def LayoutFault.message : LayoutFault → String
  | .closeAtTop closing => "Cannot close block '" ++ closing ++ "' at depth 0"
  | .worded message => message

def ArtifactFault.message : ArtifactFault → String
  | .unbalanced opened closed =>
    "Generated declarations have unbalanced braces: " ++ toString opened ++ " open, " ++ toString closed ++ " close"
  | .noDefaultExport => "Generated declarations are missing a default export"
  | .outOfDate paths => "Generated declarations are out of date: " ++ ", ".intercalate paths
  | .worded message => message

def SettingsFault.message : SettingsFault → String
  | .unknownMode mode => "Invalid output mode '" ++ mode ++ "', expected one of: force, check"
  | .worded message => message

/-- The message of a schema fault starts with its place, unless that has no text. -/
def Refusal.message : Refusal → String
  | .schema place cause => if place.text = "" then cause.message else place.text ++ ": " ++ cause.message
  | .layout cause => cause.message
  | .artifact cause => cause.message
  | .settings cause => cause.message
  | .other message => message

end ProtocolTypings
