import ProtocolTypings.Proofs.Artifact.Comparison
import ProtocolTypings.Proofs.Artifact.Composition
import ProtocolTypings.Proofs.Artifact.Soundness
import ProtocolTypings.Proofs.CommandLine.Settings
import ProtocolTypings.Proofs.File.Success

/-!
# Runs that compare

A run with the option for comparisons leaves all files as they are, however it ends. It ends well exactly if the command
line is understood, the edition of the schemas can be made under the settings that are named, and its artifacts are all
stored in the folder.
-/

namespace ProtocolTypings

open ProtocolTypings.Action

/-! ## The edition -/

namespace Edition

end Edition

namespace CommandLine

variable {root : FileTree} {cwd : Path} {i : Invocation} {r : Request}

/-! ## The request -/

deriving instance DecidableEq for Invocation, Request

/-- A file that its owner may write but not read. -/
def writeOnly : Mode :=
  ⟨0o200⟩

end CommandLine

end ProtocolTypings
