import DistributedFilesystem.DirectCalls

/-!
# Deletions that fail

`delete_file` erases everything that the client knows of a path before it calls
the server, and takes nothing back when the call fails.  So a deletion that
fails leaves the client as it was only if the client knew nothing of the path.
-/

namespace DistributedFilesystem

namespace Client

/-- No map of the client has an entry for the path. -/
structure Forgotten (client : Client) (path : Path) : Prop where
  cache : client.cache path = none
  openedFiles : client.openedFiles path = none
  fileMutexes : path ∉ client.fileMutexes
  cachedAttr : client.cachedAttr path = none

/-- When `delete_file` returns false, it leaves the client's maps, its streams
and its disk as they were. -/
def DeletesAtomically {σ : Type*} (remote : Remote σ) (path : Path)
    (client : Client) (r : σ) : Prop :=
  (client.deleteFile remote path r).2 = false →
    (client.deleteFile remote path r).1.1 = client

variable {σ : Type*} {path : Path} {client : Client}

theorem forgotten_beginDelete : (client.beginDelete path).Forgotten path := by
  constructor <;> simp [beginDelete, eraseOpened, eraseCache, eraseAttr]

/-- Erasing everything changes nothing if and only if there was nothing. -/
theorem beginDelete_eq_self_iff :
    client.beginDelete path = client ↔ client.Forgotten path := by
  constructor
  · intro same
    rw [← same]
    exact forgotten_beginDelete
  · intro forgotten
    have noMutex : client.fileMutexes.erase path = client.fileMutexes :=
      Finset.erase_eq_of_notMem forgotten.fileMutexes
    have noStreams : Function.update client.openedFiles path none =
        client.openedFiles :=
      Function.update_eq_self_iff.mpr forgotten.openedFiles.symm
    have noInfo : Function.update client.cache path none = client.cache :=
      Function.update_eq_self_iff.mpr forgotten.cache.symm
    have noAttr : Function.update client.cachedAttr path none =
        client.cachedAttr :=
      Function.update_eq_self_iff.mpr forgotten.cachedAttr.symm
    simp only [beginDelete, eraseOpened, eraseCache, eraseAttr, noMutex,
      noStreams, noInfo, noAttr]

/-- What `delete_file` returns is what its call answered, and a call that
failed leaves the erased entries erased. -/
theorem deleteFile_result (remote : Remote σ) (path : Path) (client : Client)
    (r : σ) :
    (client.deleteFile remote path r).2 =
        (remote.unlinkCall r path client.clientId).2.isOk ∧
      ((remote.unlinkCall r path client.clientId).2.isOk = false →
        (client.deleteFile remote path r).1.1 = client.beginDelete path) := by
  have sameId : (client.beginDelete path).clientId = client.clientId := rfl
  unfold deleteFile
  simp only [sameId]
  cases ok : (remote.unlinkCall r path client.clientId).2.isOk with
  | true => simp
  | false => simp

end Client

open Client

/-- A deletion is undone when it fails if and only if its call succeeds or the
client had no entry for the path. -/
theorem deletesAtomically_iff {σ : Type*} (remote : Remote σ) (path : Path)
    (client : Client) (r : σ) :
    client.DeletesAtomically remote path r ↔
      (remote.unlinkCall r path client.clientId).2.isOk = true ∨
        client.Forgotten path := by
  obtain ⟨result, whenFailed⟩ := deleteFile_result remote path client r
  unfold DeletesAtomically
  rw [result, ← beginDelete_eq_self_iff]
  cases ok : (remote.unlinkCall r path client.clientId).2.isOk with
  | true => simp
  | false => simp [whenFailed ok]

/-- A client that has created a file, written a byte into it, and not uploaded
it yet. -/
private def unsavedByte : Client :=
  (((Client.launch "writer").createFile (.success 0) "/srv/new").1.writeFile
    (.success 0) "/srv/new" [7] 0).1

/-- A client creates a file, writes into it and deletes it before it is on the
server: the deletion fails, the file is not open any more, and neither reading
nor closing it works. -/
theorem deleteFile_loses_unsaved_byte :
    ¬ unsavedByte.DeletesAtomically .direct "/srv/new"
        (Server.launch "/srv" .empty 0) ∧
      ∃ client s,
        unsavedByte.deleteFile .direct "/srv/new"
            (Server.launch "/srv" .empty 0) = ((client, s), false) ∧
          (client.readFile "/srv/new" 1 0).2 = none ∧
          client.closeFile .direct (.success 0) "/srv/new" s =
            ((client, s), false) := by
  constructor
  · intro atomic
    have unchanged := atomic (by decide)
    have kept := congrArg (fun client => client.openedFiles "/srv/new") unchanged
    exact absurd kept (by decide)
  · exact ⟨_, _, rfl, by decide, rfl⟩

end DistributedFilesystem
