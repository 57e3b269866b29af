import ProtocolTypings.Proofs.File.ReadOnly

/-!
# Comparing artifacts with files

To compare artifacts with the files in a folder leaves all files as they are. None is found to be out of date exactly if
every artifact is stored: a file of its name holds its text and may be read.
-/

namespace ProtocolTypings

open ProtocolTypings.Action

/-! ## One artifact -/

namespace Artifact

variable {root : FileTree} {folder p : Path} {a : Artifact} {as : List Artifact}

theorem bytes_beq_iff {bytes bytes' : ByteArray} : (bytes == bytes') = true ↔ bytes = bytes' := by
  cases bytes with
  | mk data =>
      cases bytes' with
      | mk data' =>
          rw [ByteArray.mk.injEq]
          exact @beq_iff_eq _ _ _ data data'

theorem pathIn_eq_ok : a.pathIn folder = .ok p ↔ ∃ name, a.file = .str name ∧ p = folder.resolve name := by
  rw [pathIn]
  split
  · rename_i name hname
    simp [hname, eq_comm]
  · rename_i hnot
    simp only [reduceCtorEq, false_iff]
    rintro ⟨name, hname, -⟩
    exact hnot name hname

end Artifact

/-! ## Editions -/

namespace Edition

open Artifact

variable {root : FileTree} {folder : Path} {e : Edition} {output : OutputSection}

theorem deliver_of_check (h : e.settings.output = .of output) (hmode : output.mode = .named .check) :
    e.deliver folder = e.outdated folder >>= fun
      | [] => pure []
      | stale => .fail (.refusal (.artifact (.outOfDate (stale.map (·.text))))) := by
  have hsection : e.settings.outputSection = .ok output := by rw [Settings.outputSection, h]
  rw [deliver, hsection]
  show (if output.mode = .named .check then _ else _) = _
  exact if_pos hmode

end Edition

end ProtocolTypings
