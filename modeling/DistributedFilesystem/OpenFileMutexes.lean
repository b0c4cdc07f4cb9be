import DistributedFilesystem.ModifiedCopies

/-!
# The mutex of an open file

Every operation but `rename_file` inserts into and erases from `opened_files`
and `file_mutexes` together.  A rename re-keys `opened_files` only.  So the two
maps have the same keys exactly as long as no rename moves an open file.
-/

namespace DistributedFilesystem

open TransitionRuns

/-- The path is open if and only if it has a mutex. -/
def CacheEntry.MutexAgrees (entry : CacheEntry) : Prop :=
  entry.streams.isSome ↔ entry.hasMutex = true

/-- `opened_files` and `file_mutexes` have the same keys. -/
def Client.SameKeys (client : Client) : Prop :=
  ∀ path, (client.openedFiles path).isSome ↔ path ∈ client.fileMutexes

/-- A rename that gets past its checks moves no open file. -/
def ClientEvent.MovesClosed {σ : Type*} :
    ClientEvent → Client × σ → Prop
  | .call (.renameFile oldPath newPath) answers, state =>
      state.1.Renames answers oldPath newPath →
        ∀ path, (suffixBelow oldPath path).isSome →
          state.1.openedFiles path = none
  | _, _ => True

theorem sameKeys_iff {client : Client} :
    client.SameKeys ↔ ∀ path, (client.entry path).MutexAgrees := by
  simp [Client.SameKeys, CacheEntry.MutexAgrees, Client.entry]

theorem mutexAgrees_of_entryStep {refused : Prop} {entry entry' : CacheEntry}
    (step : EntryStep refused entry entry') (agrees : entry.MutexAgrees) :
    entry'.MutexAgrees := by
  unfold CacheEntry.MutexAgrees at agrees ⊢
  cases step with
  | adjusted change keeps => simpa using agrees
  | written timestamp cached opened => exact agrees
  | downloaded i timestamp notCached => simp
  | notDownloaded node notCached => exact agrees
  | reopened i cached closed refers => simp
  | created i notCached closed => simp
  | closed timestamp cached hadMutex opened => simp
  | dropped notCached => simp
  | uploadRefused reason => simpa using agrees
  | deleted node => simp
  | evicted closed => exact agrees

/-- A rename keeps the keys of the two maps the same exactly when it moves no
open file. -/
theorem sameKeys_renameResult_iff {answers : LocalAnswers}
    {oldPath newPath : Path} {client client' : Client}
    (separate : Separate oldPath newPath)
    (result : Client.RenameResult answers oldPath newPath client client')
    (sameKeys : client.SameKeys) :
    client'.SameKeys ↔
      (client.Renames answers oldPath newPath →
        ∀ path, (suffixBelow oldPath path).isSome →
          client.openedFiles path = none) := by
  cases result with
  | refused notRenamed nonempty =>
      exact ⟨fun _ renames => (notRenamed renames).elim, fun _ => sameKeys⟩
  | failed notRenamed fails =>
      exact ⟨fun _ renames => (notRenamed renames).elim, fun _ => sameKeys⟩
  | moved renames =>
      constructor
      · intro sameKeys' _ path below
        obtain ⟨suffix, belowOld⟩ := Option.isSome_iff_exists.mp below
        have notNew : suffixBelow newPath path = none := by
          by_contra belowNew
          have notOld := suffixBelow_eq_none_of_separate separate
            (Option.isSome_iff_ne_none.mpr belowNew)
          simp [belowOld] at notOld
        have noMutex : path ∉ client.fileMutexes := by
          have erased := updateMapKeys_source client.openedFiles belowOld notNew
          have agrees := sameKeys' path
          simp only [erased, Option.isSome_none, Bool.false_eq_true,
            false_iff] at agrees
          exact agrees
        have closed := (sameKeys path).not.mpr noMutex
        simpa using closed
      · intro allClosed path
        have closed := allClosed renames
        cases renameRole_of_separate separate path with
        | target suffix belowNew notOld =>
            have isBelow := (eq_append_of_suffixBelow belowNew).2
            have closedSource : client.openedFiles (oldPath ++ suffix) = none := by
              apply closed
              rw [suffixBelow_append oldPath isBelow]
              rfl
            simp only [updateMapKeys_target _ belowNew notOld, closedSource,
              Option.none_or]
            exact sameKeys path
        | source suffix belowOld notNew =>
            have closedHere : client.openedFiles path = none :=
              closed path (by rw [belowOld]; rfl)
            have agrees := sameKeys path
            simp only [updateMapKeys_source _ belowOld notNew]
            rwa [closedHere] at agrees
        | bystander notOld notNew =>
            simp only [updateMapKeys_bystander _ notOld notNew]
            exact sameKeys path

section Runs

variable {σ : Type*} {remote : Remote σ} {client : ClientId} {r : σ}

theorem sameKeys_step_iff {event : ClientEvent} {state next : Client × σ}
    (separates : event.Separates) (sameKeys : state.1.SameKeys)
    (steps : event.step remote state = some next) :
    next.1.SameKeys ↔ event.MovesClosed state := by
  by_cases isRename : ∃ oldPath newPath answers,
      event = .call (.renameFile oldPath newPath) answers
  · obtain ⟨oldPath, newPath, answers, rfl⟩ := isRename
    obtain ⟨result, renamed, rfl⟩ := Option.map_eq_some_iff.mp steps
    exact sameKeys_renameResult_iff separates
      (Client.renameResult_of_renameFile renamed) sameKeys
  · have after : next.1.SameKeys := by
      rw [sameKeys_iff] at sameKeys ⊢
      apply forall_entry_of_step CacheEntry.MutexAgrees _ _ sameKeys steps
      · exact fun _ _ step => mutexAgrees_of_entryStep step
      · intro oldPath newPath answers eq
        exact (isRename ⟨oldPath, newPath, answers, eq⟩).elim
    have movesClosed : event.MovesClosed state := by
      unfold ClientEvent.MovesClosed
      split
      · next oldPath newPath answers =>
          exact (isRename ⟨oldPath, newPath, answers, rfl⟩).elim
      · trivial
    exact ⟨fun _ => movesClosed, fun _ => after⟩

/-- Whatever the server and the local file system answer: in a run of one
client, the keys of `opened_files` and `file_mutexes` are the same in every
state if and only if no rename moves an open file. -/
theorem sameKeys_throughout_iff {events : List ClientEvent}
    {final : Client × σ} (separates : ∀ event ∈ events, event.Separates)
    (reaches : run (ClientEvent.step remote) events (Client.launch client, r) =
      some final) :
    Throughout (ClientEvent.step remote) (fun state => state.1.SameKeys)
        events (Client.launch client, r) ↔
      Along (ClientEvent.step remote) ClientEvent.MovesClosed
        events (Client.launch client, r) := by
  have suits : Along (ClientEvent.step remote) (fun event _ => event.Separates)
      events (Client.launch client, r) :=
    along_of_forall (fun event member _ => separates event member) _
  apply throughout_iff_along (fun _ => True) _ _ reaches suits trivial
  · intro path
    simp [Client.launch]
  · exact fun _ _ _ _ _ _ => trivial
  · intro event state next separate _ sameKeys steps
    exact sameKeys_step_iff separate sameKeys steps

end Runs

/-- A file is created and written, and renamed while it is open. -/
private def renamedWhileOpen : List ClientEvent :=
  [.call (.createFile "/srv/a") (.success 0),
    .call (.writeFile "/srv/a" [97] 0) (.success 1),
    .call (.renameFile "/srv/a" "/srv/b") (.success 2)]

/-- A file is created, written, closed and then renamed. -/
private def renamedAfterClose : List ClientEvent :=
  [.call (.createFile "/srv/a") (.success 0),
    .call (.writeFile "/srv/a" [97] 0) (.success 1),
    .call (.closeFile "/srv/a") (.success 2),
    .call (.renameFile "/srv/a" "/srv/b") (.success 3)]

private theorem separate_a_b : Separate "/srv/a" "/srv/b" := by
  constructor <;> decide

/-- Every state of a run that closes the file first has the same keys. -/
theorem sameKeys_throughout_closed :
    Throughout (ClientEvent.step .direct) (fun state => state.1.SameKeys)
      renamedAfterClose
      (Client.launch "writer", Server.launch "/srv" .empty 0) := by
  have separates : ∀ event ∈ renamedAfterClose, event.Separates := by
    simp [renamedAfterClose, ClientEvent.Separates, separate_a_b]
  apply (sameKeys_throughout_iff separates rfl).mpr
  refine ⟨trivial, fun _ created => ?_⟩
  obtain rfl := Option.some.inj created
  refine ⟨trivial, fun _ written => ?_⟩
  obtain rfl := Option.some.inj written
  refine ⟨trivial, fun _ closed => ?_⟩
  obtain rfl := Option.some.inj closed
  refine ⟨fun _ path _ => ?_, fun _ _ => trivial⟩
  by_cases same : path = "/srv/a"
  · subst same
    rfl
  · change Function.update (Function.update (Function.update (fun _ => none)
      "/srv/a" _) "/srv/a" _) "/srv/a" _ path = none
    simp [same]

/-- After the rename of an open file nothing can be done at its new name: the
file is open and modified there, but it has no mutex, and reading, writing and
closing it fail. -/
theorem renamed_open_file_stranded :
    ∃ final : Client × Server,
      run (ClientEvent.step .direct) renamedWhileOpen
        (Client.launch "writer", Server.launch "/srv" .empty 0) = some final ∧
      (final.1.openedFiles "/srv/b").isSome ∧
      "/srv/b" ∉ final.1.fileMutexes ∧
      final.1.cache "/srv/b" = some ⟨true, 0⟩ ∧
      (final.1.readFile "/srv/b" 1 0).2 = none ∧
      (final.1.writeFile (.success 3) "/srv/b" [98] 0).2 = false ∧
      (final.1.closeFile .direct (.success 3) "/srv/b" final.2).2 = false ∧
      (final.1.closeFile .direct (.success 3) "/srv/b" final.2).1.2.disk.read
        "/srv/b" = none :=
  ⟨_, rfl, rfl, by decide, rfl, rfl, rfl, rfl, rfl⟩

end DistributedFilesystem
