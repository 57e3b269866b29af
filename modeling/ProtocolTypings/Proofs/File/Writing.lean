import ProtocolTypings.File.Writing
import ProtocolTypings.Proofs.File.Requests
import ProtocolTypings.Proofs.File.Run

/-!
# What writing leaves behind

Both ways of writing end in one of two ways: the path leads to a file with the text, or the writing has failed and
every file is as it was. Folders may have been made in either case. Only a text that cannot be encoded leaves a file
behind that it has been written into directly.
-/

namespace ProtocolTypings

/-! ## Contents -/

namespace Content

theorem encode_ofString (s : String) : (ofString s).encode = .ok s.toUTF8 :=
  rfl

theorem text_ofString (s : String) : (ofString s).text = s :=
  String.append_empty

theorem encode_eq_error {content : Content} {fault : Fault} (h : content.encode = .error fault) :
    fault = .notEncodable := by
  unfold encode at h
  split at h
  · cases h
  · cases h
    rfl

end Content

namespace Action

open FileTree

variable {α β : Type} {root root' : FileTree} {log : List Log.Record}

/-! ## Making folders -/

/-- However it ends, the action reports nothing and does no more to the tree than make folders. -/
def Gentle (a : Action α) : Prop :=
  ∀ ⦃root root' log result⦄, run root a = (root', ⟨log, result⟩) → log = [] ∧ Grows [] root root'

theorem gentle_done (a : α) : Gentle (.done a) := by
  intro root root' log result h
  cases h
  exact ⟨rfl, Grows.refl [] root⟩

theorem gentle_fail (fault : Fault) : Gentle (.fail (α := α) fault) := by
  intro root root' log result h
  cases h
  exact ⟨rfl, Grows.refl [] root⟩

theorem gentle_ofExcept (x : Except Fault α) : Gentle (ofExcept x) := by
  cases x with
  | ok a => exact gentle_done a
  | error fault => exact gentle_fail fault

theorem Gentle.bind {a : Action α} {f : α → Action β} (ha : Gentle a) (hf : ∀ b, Gentle (f b)) :
    Gentle (a >>= f) := by
  intro root root' log result h
  rcases run_bind_cases h with ⟨fault, hrun, -⟩ | ⟨mid, before, b, after, hrun, hrest, rfl⟩
  · exact ha hrun
  · obtain ⟨rfl, hgrows⟩ := ha hrun
    obtain ⟨rfl, hgrows'⟩ := hf b hrest
    exact ⟨rfl, hgrows.trans hgrows'⟩

theorem Gentle.status {p : Path} {next : Except FileFault EntryStatus → Action α} (h : ∀ answer, Gentle (next answer)) :
    Gentle (.ask (.status p) next) := by
  intro root root' log result hrun
  exact h _ hrun

theorem Gentle.makeFolder {p : Path} {next : Except FileFault Unit → Action α} (h : ∀ answer, Gentle (next answer)) :
    Gentle (.ask (.makeFolder p) next) := by
  intro root root' log result hrun
  rw [run_ask] at hrun
  obtain ⟨hlog, hgrows⟩ := h _ hrun
  refine ⟨hlog, Grows.trans ?_ hgrows⟩
  rcases hmade : root.makeFolder p with fault | tree
  · simp only [perform, hmade, changed]
    exact Grows.refl [] root
  · simp only [perform, hmade, changed]
    exact grows_makeFolder hmade

theorem gentle_unlessFolder (p : Path) (fault : FileFault) : Gentle (unlessFolder p fault) := by
  refine Gentle.status fun answer => ?_
  split
  · exact gentle_done ()
  · exact gentle_fail _

theorem gentle_makeFolder (p : Path) : Gentle (Action.makeFolder p) := by
  refine Gentle.makeFolder fun answer => ?_
  cases answer with
  | ok made => exact gentle_done ()
  | error fault => exact gentle_unlessFolder p fault

theorem gentle_makeFoldersTo (p : Path) (cs : List String) : Gentle (makeFoldersTo p cs) := by
  induction cs with
  | nil => exact gentle_makeFolder _
  | cons c above ih =>
      refine Gentle.makeFolder fun answer => ?_
      split
      · exact gentle_done ()
      · exact ih.bind fun _ => gentle_makeFolder _
      · exact gentle_unlessFolder _ _

theorem gentle_makeFolders (p : Path) : Gentle (makeFolders p) :=
  gentle_makeFoldersTo p _

/-! ## Files -/

/-- The path leads to a file with the bytes, and no other file has changed. -/
def Written (p : Path) (bytes : ByteArray) (root root' : FileTree) : Prop :=
  ∃ l mode, root'.locate p = .ok l ∧ root'.nodeAt l = some (.file ⟨mode, bytes⟩) ∧ Grows [l] root root'

/-- However it ends, the action reports nothing, and the bytes have been written unless there is a failure. A failure
leaves all files as they were. -/
def Writes (p : Path) (bytes : ByteArray) (a : Action α) : Prop :=
  ∀ ⦃root root' log result⦄, run root a = (root', ⟨log, result⟩) → log = [] ∧
    ((∃ fault, result = .error fault ∧ Grows [] root root') ∨ ∃ b, result = .ok b ∧ Written p bytes root root')

/-- What comes before the writing makes folders at most. -/
theorem Gentle.writes {p : Path} {bytes : ByteArray} {a : Action α} {f : α → Action β} (ha : Gentle a)
    (hf : ∀ b, Writes p bytes (f b)) : Writes p bytes (a >>= f) := by
  intro root root' log result h
  rcases run_bind_cases h with ⟨fault, hrun, rfl⟩ | ⟨mid, before, b, after, hrun, hrest, rfl⟩
  · obtain ⟨hlog, hgrows⟩ := ha hrun
    exact ⟨hlog, .inl ⟨fault, rfl, hgrows⟩⟩
  · obtain ⟨rfl, hgrows⟩ := ha hrun
    obtain ⟨rfl, ⟨fault, rfl, hgrows'⟩ | ⟨c, rfl, l, mode, hl, hfile, hgrows'⟩⟩ := hf b hrest
    · exact ⟨rfl, .inl ⟨fault, rfl, hgrows.trans hgrows'⟩⟩
    · exact ⟨rfl, .inr ⟨c, rfl, l, mode, hl, hfile, (hgrows.mono (List.nil_subset [l])).trans hgrows'⟩⟩

/-- What is returned does not matter to the writing. -/
theorem Writes.andThen {p : Path} {bytes : ByteArray} {a : Action α} (ha : Writes p bytes a) (f : α → β) :
    Writes p bytes (a >>= fun b => pure (f b)) := by
  intro root root' log result h
  rcases run_bind_cases h with ⟨fault, hrun, rfl⟩ | ⟨mid, before, b, after, hrun, hpure, rfl⟩
  · obtain ⟨rfl, ⟨-, -, hgrows⟩ | ⟨b, hok, -⟩⟩ := ha hrun
    · exact ⟨rfl, .inl ⟨fault, rfl, hgrows⟩⟩
    · cases hok
  · cases hpure
    obtain ⟨rfl, ⟨fault, herror, -⟩ | ⟨b, -, hwritten⟩⟩ := ha hrun
    · cases herror
    · exact ⟨rfl, .inr ⟨_, rfl, hwritten⟩⟩

theorem writes_request (p : Path) (bytes : ByteArray) : Writes p bytes (request (.write p bytes)) := by
  intro root root' log result h
  obtain ⟨rfl, ⟨rfl, cause, rfl⟩ | ⟨answer, hperform, rfl⟩⟩ := run_request_cases h
  · exact ⟨rfl, .inl ⟨_, rfl, Grows.refl [] _⟩⟩
  · obtain ⟨l, mode, hl, hmode, hwith⟩ := write_eq_ok (changed_eq_ok hperform)
    have hgrows := hwith.grows hmode.ne_folder
    exact ⟨rfl, .inr ⟨answer, rfl, l, mode, hgrows.locate hl, hwith.self, hgrows⟩⟩

section

variable {p : Path} {content : Content} {bytes : ByteArray}

theorem writeContent_of_encode (h : content.encode = .ok bytes) (p : Path) :
    writeContent p content = request (.write p bytes) := by
  rw [writeContent, h]

theorem writes_writeDirectly (h : content.encode = .ok bytes) (p : Path) : Writes p bytes (writeDirectly p content) :=
  (gentle_makeFolders p.parent).writes fun _ => by
    rw [writeContent_of_encode h]
    exact writes_request p bytes

/-- The file cannot be opened; or its bytes are those of the content, or none if the content cannot be encoded. -/
theorem run_writeContent_cases {result : Except Fault Unit}
    (h : run root (writeContent p content) = (root', ⟨log, result⟩)) :
    log = [] ∧ ((root' = root ∧ ∃ cause, result = .error (.file cause)) ∨
      ∃ written, perform root (.write p written) = (root', .ok ()) ∧
        (content.encode = .ok written ∧ result = .ok () ∨
          ∃ fault, content.encode = .error fault ∧ written = .empty ∧ result = .error fault)) := by
  unfold writeContent at h
  split at h
  · rename_i written hencode
    obtain ⟨rfl, hstop | ⟨⟨⟩, hperform, hok⟩⟩ := run_request_cases h
    · exact ⟨rfl, .inl hstop⟩
    · exact ⟨rfl, .inr ⟨written, hperform, .inl ⟨hencode, hok⟩⟩⟩
  · rename_i fault hencode
    rcases run_request_bind_cases h with ⟨hroot, rfl, hstop⟩ | ⟨mid, ⟨⟩, hperform, hfail⟩
    · exact ⟨rfl, .inl ⟨hroot, hstop⟩⟩
    · cases hfail
      exact ⟨rfl, .inr ⟨.empty, hperform, .inr ⟨fault, hencode, rfl, rfl⟩⟩⟩

theorem run_writeContent_eq_ok (h : run root (writeContent p content) = (root', ⟨log, .ok ()⟩)) :
    ∃ bytes, content.encode = .ok bytes ∧ perform root (.write p bytes) = (root', .ok ()) := by
  obtain ⟨-, ⟨-, cause, herror⟩ | ⟨bytes, hperform, ⟨hencode, -⟩ | ⟨fault, -, -, herror⟩⟩⟩ := run_writeContent_cases h
  · cases herror
  · exact ⟨bytes, hencode, hperform⟩
  · cases herror

end

/-! ## Through a temporary file -/

theorem run_targetMode (p : Path) (root : FileTree) : ∃ result, run root (targetMode p) = (root, ⟨[], result⟩) := by
  rw [targetMode, run_ask]
  split
  · exact ⟨_, rfl⟩
  · exact ⟨_, rfl⟩
  · exact ⟨_, rfl⟩

theorem grows_move {p : Path} {s t : List String} {f : StoredFile} (hs : root.nodeAt s = some (.file f))
    (ht : root.Replaceable p t)
    (hnodes : ∀ other, root'.nodeAt other =
      if other = t then some (.file f) else if other = s then none else root.nodeAt other) :
    Grows [t, s] root root' := by
  constructor
  · intro other mode hother
    rw [hnodes other, if_neg, if_neg, hother]
    · rintro rfl
      rw [hs] at hother
      cases hother
    · rintro rfl
      exact ht.noFolder mode hother
  · intro other hother g
    simp only [List.mem_cons, List.not_mem_nil, or_false, not_or] at hother
    rw [hnodes other, if_neg hother.1, if_neg hother.2]

/-- The move of a temporary file into the place of a target. -/
theorem written_of_move {temporary p : Path} {s : List String} {f : StoredFile} {mid : FileTree}
    (hnone : root.nodeAt s = none) (hs : mid.locate temporary = .ok s) (hwith : WithFile s f root mid)
    (h : mid.move temporary p = .ok root') : Written p f.bytes root root' := by
  obtain ⟨t, ht, hreplaceable, hnodes⟩ := move_eq_ok hs hwith.self h
  have hmoved := grows_move hwith.self hreplaceable hnodes
  refine ⟨t, f.mode, hmoved.locate ht, by rw [hnodes t, if_pos rfl], ?_, fun other hother g => ?_⟩
  · intro other mode hother
    refine hmoved.folders other mode ?_
    rw [hwith.of_ne, hother]
    rintro rfl
    rw [hnone] at hother
    cases hother
  · rw [hnodes other, if_neg fun heq => hother (List.mem_singleton.2 heq)]
    by_cases heq : other = s
    · rw [if_pos heq, heq, hnone]
    · rw [if_neg heq, hwith.of_ne heq]

/-- Either the temporary file has taken the place of the target, or there is a failure and the temporary file is all
that differs. -/
def Replaces (s : List String) (p : Path) (bytes : ByteArray) (root root' : FileTree) (result : Except Fault Unit) :
    Prop :=
  (∃ fault f, result = .error fault ∧ WithFile s f root root') ∨ result = .ok () ∧ Written p bytes root root'

section Replacing

variable {temporary p : Path} {s : List String} {mid : FileTree} {result : Except Fault Unit}
  (hs : root.locate temporary = .ok s) (hnone : root.nodeAt s = none)

include hs hnone

theorem locate_temporary {f : StoredFile} (hwith : WithFile s f root mid) : mid.locate temporary = .ok s :=
  (hwith.grows_of_none hnone).locate hs

theorem replaces_move {f : StoredFile} (hwith : WithFile s f root mid)
    (h : run mid (request (.move temporary p)) = (root', ⟨log, result⟩)) :
    log = [] ∧ Replaces s p f.bytes root root' result := by
  obtain ⟨rfl, ⟨rfl, cause, rfl⟩ | ⟨answer, hperform, rfl⟩⟩ := run_request_cases h
  · exact ⟨rfl, .inl ⟨_, f, rfl, hwith⟩⟩
  · have hmid := locate_temporary hs hnone hwith
    exact ⟨rfl, .inr ⟨rfl, written_of_move hnone hmid hwith (changed_eq_ok hperform)⟩⟩

theorem replaces_setMode {f : StoredFile} {mode : Mode} (hwith : WithFile s f root mid)
    (h : run mid (request (.setMode temporary mode) >>= fun _ => request (.move temporary p)) =
      (root', ⟨log, result⟩)) :
    log = [] ∧ Replaces s p f.bytes root root' result := by
  rcases run_request_bind_cases h with ⟨rfl, rfl, cause, rfl⟩ | ⟨mid', answer, hperform, hmove⟩
  · exact ⟨rfl, .inl ⟨_, f, rfl, hwith⟩⟩
  · have hmid := locate_temporary hs hnone hwith
    have hwith' := setMode_eq_ok hmid hwith.self (changed_eq_ok hperform)
    obtain ⟨rfl, hreplaces⟩ := replaces_move hs hnone (hwith.overwrite hwith') hmove
    exact ⟨rfl, hreplaces⟩

theorem replaces_check {f : StoredFile} {x : Except Fault Unit} (hwith : WithFile s f root mid)
    (h : run mid (ofExcept x >>= fun _ => targetMode p >>= fun mode =>
      request (.setMode temporary mode) >>= fun _ => request (.move temporary p)) = (root', ⟨log, result⟩)) :
    log = [] ∧ Replaces s p f.bytes root root' result := by
  rcases run_ofExcept_bind_cases h with ⟨rfl, rfl, fault, -, rfl⟩ | ⟨checked, -, hrest⟩
  · exact ⟨rfl, .inl ⟨fault, f, rfl, hwith⟩⟩
  · obtain ⟨outcome, hmode⟩ := run_targetMode p mid
    rcases run_bind_cases hrest with ⟨fault, hrun, rfl⟩ | ⟨mid', before, mode, rest, hrun, hset, rfl⟩
    · rw [hmode] at hrun
      cases hrun
      exact ⟨rfl, .inl ⟨_, f, rfl, hwith⟩⟩
    · rw [hmode] at hrun
      cases hrun
      exact replaces_setMode hs hnone hwith hset

theorem replaces_replaceBy {f : StoredFile} {content : Content} {check : Content → Except Fault Unit}
    (hwith : WithFile s f root mid) (h : run mid (replaceBy temporary p content check) = (root', ⟨log, result⟩)) :
    log = [] ∧ ((∃ fault f, result = .error fault ∧ WithFile s f root root') ∨
      result = .ok () ∧ ∃ bytes, content.encode = .ok bytes ∧ Written p bytes root root') := by
  have hopened {bytes : ByteArray} {tree : FileTree}
      (hperform : perform mid (.write temporary bytes) = (tree, .ok ())) : ∃ mode, WithFile s ⟨mode, bytes⟩ root tree := by
    obtain ⟨l, mode, hl, -, hwith'⟩ := write_eq_ok (changed_eq_ok hperform)
    obtain rfl : s = l := Except.ok.inj ((locate_temporary hs hnone hwith).symm.trans hl)
    exact ⟨mode, hwith.overwrite hwith'⟩
  rcases run_bind_cases h with ⟨fault, hwrite, rfl⟩ | ⟨mid', before, ⟨⟩, after, hwrite, hrest, rfl⟩
  · obtain ⟨rfl, ⟨rfl, -⟩ | ⟨written, hperform, -⟩⟩ := run_writeContent_cases hwrite
    · exact ⟨rfl, .inl ⟨_, f, rfl, hwith⟩⟩
    · obtain ⟨mode, hwith'⟩ := hopened hperform
      exact ⟨rfl, .inl ⟨_, _, rfl, hwith'⟩⟩
  · obtain ⟨rfl, -⟩ := run_writeContent_cases hwrite
    obtain ⟨bytes, hencode, hperform⟩ := run_writeContent_eq_ok hwrite
    obtain ⟨mode, hwith'⟩ := hopened hperform
    obtain ⟨rfl, hfails | ⟨hok, hwritten⟩⟩ := replaces_check hs hnone hwith' hrest
    · exact ⟨rfl, .inl hfails⟩
    · exact ⟨rfl, .inr ⟨hok, bytes, hencode, hwritten⟩⟩

/-- The folder of the temporary file is as it was, so the file can be removed. -/
theorem run_remove {f : StoredFile} (hwith : WithFile s f root mid) (hmay : root.mayChange s = true) :
    ∃ root', run mid (request (.remove temporary)) = (root', ⟨[], .ok ()⟩) ∧
      ∀ l, root'.nodeAt l = root.nodeAt l := by
  obtain ⟨mode, hfolder, hwritable⟩ := mayChange_iff.1 hmay
  have hne : s.dropLast ≠ s := by
    intro heq
    rw [heq, hnone] at hfolder
    cases hfolder
  have hmid : mid.mayChange s = true := mayChange_iff.2 ⟨mode, (hwith.of_ne hne).trans hfolder, hwritable⟩
  obtain ⟨root', hremove, hnodes⟩ := remove_of_file (locate_temporary hs hnone hwith) hwith.self hmid
  refine ⟨root', ?_, fun l => ?_⟩
  · rw [request, run_ask, perform, hremove]
    rfl
  · rw [hnodes l]
    by_cases hl : l = s
    · rw [if_pos hl, hl, hnone]
    · rw [if_neg hl, hwith.of_ne hl]

end Replacing

theorem makeTemporary_of_perform {folder temporary : Path} {label : String}
    (h : perform root (.makeTemporary folder label) = (root', .ok temporary)) :
    root.makeTemporary folder label = .ok (root', temporary) := by
  simp only [perform] at h
  split at h
  · rename_i hmade
    cases h
    exact hmade
  · cases h

section

variable {p : Path} {content : Content} {check : Content → Except Fault Unit}

/-- The temporary file is gone in the end, for it has been moved or removed. -/
theorem run_temporary_cases {result : Except Fault Unit}
    (h : run root (request (.makeTemporary p.parent p.name) >>= fun temporary =>
      (replaceBy temporary p content check).onFailure (request (.remove temporary))) = (root', ⟨log, result⟩)) :
    log = [] ∧ ((∃ fault, result = .error fault ∧ ∀ l, root'.nodeAt l = root.nodeAt l) ∨
      result = .ok () ∧ ∃ bytes, content.encode = .ok bytes ∧ Written p bytes root root') := by
  rcases run_request_bind_cases h with ⟨rfl, rfl, cause, rfl⟩ | ⟨made, temporary, hperform, hrest⟩
  · exact ⟨rfl, .inl ⟨_, rfl, fun _ => rfl⟩⟩
  · obtain ⟨s, hs, hnone, hmay, hwith⟩ := makeTemporary_eq_ok (makeTemporary_of_perform hperform)
    rcases hreplace : run made (replaceBy temporary p content check) with ⟨mid, before, outcome⟩
    obtain ⟨rfl, ⟨fault, f, rfl, hmid⟩ | ⟨rfl, hencoded⟩⟩ := replaces_replaceBy hs hnone hwith hreplace
    · obtain ⟨last, hremove, hnodes⟩ := run_remove hs hnone hmid hmay
      rw [run_onFailure_of_error hreplace, run_bind_of_ok hremove] at hrest
      cases hrest
      exact ⟨rfl, .inl ⟨fault, rfl, hnodes⟩⟩
    · rw [run_onFailure_of_ok hreplace] at hrest
      cases hrest
      exact ⟨rfl, .inr ⟨rfl, hencoded⟩⟩

theorem writes_temporary {bytes : ByteArray} (hbytes : content.encode = .ok bytes) (p : Path)
    (check : Content → Except Fault Unit) :
    Writes p bytes (request (.makeTemporary p.parent p.name) >>= fun temporary =>
      (replaceBy temporary p content check).onFailure (request (.remove temporary))) := by
  intro root root' log result h
  obtain ⟨rfl, ⟨fault, rfl, hnodes⟩ | ⟨rfl, written, hencode, hwritten⟩⟩ := run_temporary_cases h
  · exact ⟨rfl, .inl ⟨fault, rfl, Grows.of_nodeAt_eq hnodes⟩⟩
  · cases hbytes.symm.trans hencode
    exact ⟨rfl, .inr ⟨(), rfl, hwritten⟩⟩

theorem writes_writeAtomically {bytes : ByteArray} (hbytes : content.encode = .ok bytes) (p : Path)
    (check : Content → Except Fault Unit) : Writes p bytes (writeAtomically p content check) :=
  (gentle_makeFolders p.parent).writes fun _ => writes_temporary hbytes p check

end

end Action

end ProtocolTypings
