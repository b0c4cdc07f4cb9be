import DistributedFilesystem.ModifiedCopies
import DistributedFilesystem.OpenFileNotifications

/-!
# Edits that have yet to be uploaded

A notification drops the copy of a file that is not open.  In every state the
copies that are marked as modified belong to open files, but not every changed
copy is marked: `truncate_file` marks none, and neither does a `write_file` that
fails midway.  So the changes of a run survive all notifications exactly if no
copy is truncated while its file is not open, and no file is closed with changes
that are not marked.
-/

namespace DistributedFilesystem

open TransitionRuns

/-- A client, the server it is connected to, and the paths whose copies have
changed since they were last transferred. -/
abbrev EditedClient (σ : Type*) := (Client × σ) × (Path → Bool)

instance (answers : LocalAnswers) (oldPath newPath : Path) (client : Client) :
    Decidable (client.Renames answers oldPath newPath) :=
  inferInstanceAs (Decidable (_ ∧ (_ → _)))

/-- Record whether a call has changed the copy at the path. -/
def recordChange (path : Path) (before after : Client) (edited : Path → Bool) :
    Path → Bool :=
  Function.update edited path
    (edited path || decide (after.disk.read path ≠ before.disk.read path))

/-- The close took the mark from the entry, so it has uploaded the copy. -/
def uploadedCopy (path : Path) (before after : Client) : Bool :=
  (before.cache path).any FileInfo.locallyModified &&
    (after.cache path).any fun info => !info.locallyModified

/-- The paths with untransferred changes after an event.  Writing and truncating
change a copy, a new file was never transferred, a download replaces the copy,
an upload transfers it, and a rename moves it. -/
def ClientEvent.edits (before after : Client) (edited : Path → Bool) :
    ClientEvent → Path → Bool
  | .call (.writeFile path _ _) _ => recordChange path before after edited
  | .call (.truncateFile directory filename _) _ =>
      recordChange (directory ++ filename) before after edited
  | .call (.createFile path) _ =>
      if before.cache path = none then Function.update edited path true
      else edited
  | .call (.openFile path) _ =>
      if before.cache path = none then Function.update edited path false
      else edited
  | .call (.closeFile path) _ =>
      if uploadedCopy path before after then Function.update edited path false
      else edited
  | .call (.renameFile oldPath newPath) answers =>
      if before.Renames answers oldPath newPath then
        fun path =>
          (updateMapKeys oldPath newPath
            (fun path => (before.cache path).map fun _ => edited path) path).getD
              false
      else edited
  | _ => edited

/-- An event, and the record of what it changed. -/
def ClientEvent.stepEdits {σ : Type*} (remote : Remote σ) (event : ClientEvent)
    (state : EditedClient σ) : Option (EditedClient σ) :=
  (event.step remote state.1).map fun next =>
    (next, event.edits state.1.1 next.1 state.2)

/-- Open files are cached, entries marked as modified belong to open files, and
no notification drops an entry with changes that were not uploaded. -/
structure EditsKept {σ : Type*} (state : EditedClient σ) : Prop where
  cached : ∀ path, (state.1.1.openedFiles path).isSome →
    (state.1.1.cache path).isSome
  opened : ∀ path info, state.1.1.cache path = some info →
    info.locallyModified → (state.1.1.openedFiles path).isSome
  kept : ∀ note path info, state.1.1.cache path = some info →
    (info.locallyModified ∨ state.2 path) →
    (state.1.1.processNotification note).cache path = some info

/-- A truncation leaves the length of a copy whose file is not open as it is,
and a close that uploads nothing finds no changes to upload. -/
def ClientEvent.KeepsEdits {σ : Type*} : ClientEvent → EditedClient σ → Prop
  | .call (.truncateFile directory filename size) answers, ((client, _), _) =>
      client.openedFiles (directory ++ filename) = none →
        (client.cache (directory ++ filename)).isSome →
        ∀ contents, client.disk.read (directory ++ filename) = some contents →
          answers.resize = true → 0 ≤ size → (contents.length : Int) = size
  | .call (.closeFile path) _, ((client, _), edited) =>
      ∀ info, client.cache path = some info → info.locallyModified = false →
        (client.openedFiles path).isSome → path ∈ client.fileMutexes →
        edited path = false
  | _, _ => True

/-- Copies with untransferred changes belong to open files. -/
def EditedOpen {σ : Type*} (state : EditedClient σ) : Prop :=
  ∀ path, state.2 path = true → (state.1.1.cache path).isSome →
    (state.1.1.openedFiles path).isSome

theorem editsKept_iff {σ : Type*} {state : EditedClient σ}
    (inStep : ∀ path, (state.1.1.entry path).InStep) :
    EditsKept state ↔ EditedOpen state := by
  constructor
  · intro keeps path isEdited cached
    obtain ⟨info, isInfo⟩ := Option.isSome_iff_exists.mp cached
    by_contra closed
    rw [Option.not_isSome_iff_eq_none] at closed
    have dropped : (state.1.1.processNotification
        (Server.updateNotification path 0)).cache path = none :=
      Client.cache_processNotification_of_closed closed
    have stays := keeps.kept (Server.updateNotification path 0) path info isInfo
      (.inr isEdited)
    cases dropped.symm.trans stays
  · intro editedOpen
    refine ⟨fun path => (inStep path).cached, fun path => (inStep path).opened, ?_⟩
    intro note path info cached changed
    have isOpen : (state.1.1.openedFiles path).isSome := by
      rcases changed with modified | isEdited
      · exact (inStep path).opened info cached modified
      · exact editedOpen path isEdited (by simp [cached])
    by_cases about : note.directory = path
    · rw [Client.processNotification_of_open (by rw [about]; exact isOpen)]
      exact cached
    · rw [(Client.sameElsewhere_processNotification _ note).cache path
        (Ne.symm about)]
      exact cached

/-- A file is cached and not open only if it was so before or was closed. -/
theorem opened_of_entryStep {refused : Prop} {entry entry' : CacheEntry}
    (step : EntryStep refused entry entry')
    (wasOpen : entry.info.isSome → entry.streams.isSome)
    (stays : entry.streams.isSome → entry'.streams.isSome)
    (cached : entry'.info.isSome) : entry'.streams.isSome := by
  by_cases wasCached : entry.info.isSome
  · exact stays (wasOpen wasCached)
  · cases step with
    | downloaded i timestamp notCached => rfl
    | created i notCached closed => rfl
    | adjusted change keeps => exact (wasCached cached).elim
    | written timestamp isCached opened => exact opened
    | notDownloaded node notCached => exact (wasCached cached).elim
    | reopened i isCached closed refers => rfl
    | closed timestamp isCached hadMutex opened => exact (wasCached isCached).elim
    | dropped notCached => exact (wasCached cached).elim
    | uploadRefused reason => exact (wasCached cached).elim
    | deleted node => simp at cached
    | evicted closed => simp at cached

section Steps

variable {σ : Type*} {remote : Remote σ} {answers : LocalAnswers}
variable {path : Path} {client client' : Client} {r r' : σ}
variable {edited edited' : Path → Bool}

/-- It suffices to look at the path whose entries changed. -/
theorem editedOpen_of_entryChange
    (editedOpen : EditedOpen ((client, r), edited))
    (change : Client.EntryChange True path client client')
    (record : ∀ other, other ≠ path → edited' other = edited other)
    (here : edited' path = true → (client'.cache path).isSome →
      (client'.openedFiles path).isSome) :
    EditedOpen ((client', r'), edited') := by
  intro other isEdited cached
  by_cases same : other = path
  · subst same
    exact here isEdited cached
  · have sameEntry := change.elsewhere other same
    have sameInfo := congrArg CacheEntry.info sameEntry
    have sameStreams := congrArg CacheEntry.streams sameEntry
    simp only [Client.entry] at sameInfo sameStreams
    dsimp only at isEdited cached ⊢
    rw [sameInfo] at cached
    rw [sameStreams]
    rw [record other same] at isEdited
    exact editedOpen other isEdited cached

/-- Events that leave the open files open keep the copies with changes open. -/
theorem editedOpen_of_staysOpen
    (editedOpen : EditedOpen ((client, r), edited))
    (change : Client.EntryChange True path client client')
    (record : ∀ other, other ≠ path → edited' other = edited other)
    (stays : (client.openedFiles path).isSome →
      (client'.openedFiles path).isSome)
    (here : edited' path = true → (client.cache path).isSome →
      (client.openedFiles path).isSome) :
    EditedOpen ((client', r'), edited') := by
  apply editedOpen_of_entryChange editedOpen change record
  intro isEdited
  exact opened_of_entryStep change.here (here isEdited) stays

theorem writeFile_of_closed (closed : client.openedFiles path = none)
    (data : Bytes) (position : Int) :
    (client.writeFile answers path data position).1 = client := by
  have unusable : client.usableStreams path = none := by
    unfold Client.usableStreams
    rw [closed]
    split <;> rfl
  simp [Client.writeFile, unusable]

theorem editedOpen_openFile (editedOpen : EditedOpen ((client, r), edited)) :
    EditedOpen ((client.openFile remote answers path r).1,
      ClientEvent.edits client (client.openFile remote answers path r).1.1 edited
        (.call (.openFile path) answers)) := by
  simp only [ClientEvent.edits]
  split_ifs with notCached
  · apply editedOpen_of_entryChange editedOpen
      Client.entryChange_openFile
    · exact fun other apart => Function.update_of_ne apart _ _
    · simp
  · exact editedOpen_of_staysOpen editedOpen
      Client.entryChange_openFile (fun _ _ => rfl) Client.isSome_openFile
      (editedOpen path)

theorem editedOpen_writeFile (editedOpen : EditedOpen ((client, r), edited))
    (data : Bytes) (position : Int) :
    EditedOpen (((client.writeFile answers path data position).1, r),
      ClientEvent.edits client (client.writeFile answers path data position).1
        edited (.call (.writeFile path data position) answers)) := by
  apply editedOpen_of_staysOpen editedOpen
    (Client.entryChange_writeFile data position)
    (fun other apart => Function.update_of_ne apart _ _)
    (Client.isSome_writeFile data position)
  intro isEdited cached
  by_contra closed
  rw [Option.not_isSome_iff_eq_none] at closed
  rw [writeFile_of_closed closed] at isEdited
  have wasEdited : edited path = true := by
    simpa [ClientEvent.edits, recordChange] using isEdited
  have isOpen := editedOpen path wasEdited cached
  simp [closed] at isOpen

theorem editedOpen_createFile (editedOpen : EditedOpen ((client, r), edited)) :
    EditedOpen (((client.createFile answers path).1, r),
      ClientEvent.edits client (client.createFile answers path).1 edited
        (.call (.createFile path) answers)) := by
  simp only [ClientEvent.edits]
  split_ifs with notCached
  · apply editedOpen_of_staysOpen editedOpen
      Client.entryChange_createFile
      (fun other apart => Function.update_of_ne apart _ _)
      Client.isSome_createFile
    simp [notCached]
  · exact editedOpen_of_staysOpen editedOpen
      Client.entryChange_createFile (fun _ _ => rfl) Client.isSome_createFile
      (editedOpen path)

theorem editedOpen_deleteFile (editedOpen : EditedOpen ((client, r), edited)) :
    EditedOpen ((client.deleteFile remote path r).1, edited) := by
  apply editedOpen_of_entryChange editedOpen
    Client.entryChange_deleteFile (fun _ _ => rfl)
  obtain ⟨client', status, eq, result⟩ := Client.deleteFile_eq remote path client r
  rw [eq]
  simp [result.cache]

theorem read_truncateFile_ne_iff {directory filename : Path} {size : Int} :
    (client.truncateFile answers directory filename size).1.disk.read
        (directory ++ filename) ≠ client.disk.read (directory ++ filename) ↔
      ∃ contents, client.disk.read (directory ++ filename) = some contents ∧
        answers.resize = true ∧ 0 ≤ size ∧ (contents.length : Int) ≠ size := by
  unfold Client.truncateFile
  split
  · next i refers resizes =>
      have read : client.disk.read (directory ++ filename) =
          some (client.disk.nodes i).contents := by
        simp [FileStore.read, refers]
      split
      · next negative =>
          simp only [ne_eq, not_true_eq_false, false_iff]
          rintro ⟨_, -, -, nonneg, -⟩
          omega
      next nonneg =>
      rw [not_lt] at nonneg
      simp only [FileStore.read_resize _ refers read, read, Option.some.injEq,
        exists_eq_left', resizes, nonneg, true_and]
      rw [not_iff_not]
      constructor
      · intro same
        have sameLength := congrArg List.length (Option.some.inj same)
        simp only [List.length_append, List.length_take, List.length_replicate]
          at sameLength
        omega
      · intro isLength
        have fits : size.toNat = (client.disk.nodes i).contents.length := by omega
        simp [fits]
  · next fails =>
      simp only [ne_eq, not_true_eq_false, false_iff]
      rintro ⟨contents, read, resizes, -⟩
      obtain ⟨i, refers, -⟩ := Option.map_eq_some_iff.mp read
      exact fails i refers resizes

/-- A truncation keeps the copies with changes open exactly when it leaves the
length of a copy whose file is not open as it is. -/
theorem editedOpen_truncateFile_iff {directory filename : Path} {size : Int}
    (editedOpen : EditedOpen ((client, r), edited)) :
    EditedOpen (((client.truncateFile answers directory filename size).1, r),
        ClientEvent.edits client
          (client.truncateFile answers directory filename size).1 edited
          (.call (.truncateFile directory filename size) answers)) ↔
      ClientEvent.KeepsEdits
        (.call (.truncateFile directory filename size) answers)
        ((client, r), edited) := by
  have sameEntries (other : Path) :
      (client.truncateFile answers directory filename size).1.entry other =
        client.entry other :=
    Client.entry_truncateFile directory filename size
  have sameCache : (client.truncateFile answers directory filename size).1.cache
      (directory ++ filename) = client.cache (directory ++ filename) :=
    congrArg CacheEntry.info (sameEntries _)
  have sameOpened :
      (client.truncateFile answers directory filename size).1.openedFiles
        (directory ++ filename) = client.openedFiles (directory ++ filename) :=
    congrArg CacheEntry.streams (sameEntries _)
  constructor
  · intro editedOpen' closed cached contents read resizes nonneg
    by_contra otherLength
    have changes := read_truncateFile_ne_iff.mpr
      ⟨contents, read, resizes, nonneg, otherLength⟩
    have isOpen := editedOpen' (directory ++ filename)
      (by simp [ClientEvent.edits, recordChange, changes])
      (by rwa [sameCache])
    rw [sameOpened, closed] at isOpen
    simp at isOpen
  · intro keeps
    apply editedOpen_of_entryChange editedOpen
      (Client.entryChange_of_entry_eq sameEntries)
      (fun other apart => Function.update_of_ne apart _ _)
    rw [sameCache, sameOpened]
    intro isEdited cached
    by_contra closed
    simp only [ClientEvent.edits, recordChange, Function.update_self,
      Bool.or_eq_true, decide_eq_true_iff] at isEdited
    rcases isEdited with wasEdited | changes
    · exact closed (editedOpen _ wasEdited cached)
    · obtain ⟨contents, read, resizes, nonneg, otherLength⟩ :=
        read_truncateFile_ne_iff.mp changes
      exact otherLength (keeps (by simpa using closed) cached contents read resizes
        nonneg)

theorem edits_closeFile_of_ne {other : Path} (apart : other ≠ path) :
    ClientEvent.edits client client' edited (.call (.closeFile path) answers)
      other = edited other := by
  simp only [ClientEvent.edits]
  split_ifs
  · exact Function.update_of_ne apart _ _
  · rfl

/-- A close of a marked copy uploads it or leaves the file open. -/
theorem editedOpen_closeFile_of_modified {info : FileInfo}
    (inStep : (client.entry path).InStep)
    (editedOpen : EditedOpen ((client, r), edited))
    (cached : client.cache path = some info) (modified : info.locallyModified) :
    EditedOpen ((client.closeFile remote answers path r).1,
      ClientEvent.edits client (client.closeFile remote answers path r).1.1
        edited (.call (.closeFile path) answers)) := by
  have change : Client.EntryChange True path client
      (client.closeFile remote answers path r).1.1 :=
    Client.entryChange_closeFile fun _ _ => trivial
  apply editedOpen_of_entryChange editedOpen change
    (fun other apart => edits_closeFile_of_ne apart)
  intro isEdited stillCached
  have wasOpen := inStep.opened info cached modified
  by_contra closed
  -- The file was closed, so the mark is gone.
  have unmarked : ∃ timestamp, (client.closeFile remote answers path r).1.1.cache
      path = some ⟨false, timestamp⟩ := by
    have here := change.here
    generalize isEntry : (client.closeFile remote answers path r).1.1.entry path =
      entry' at here
    have isInfo := congrArg CacheEntry.info isEntry
    have isStreams := congrArg CacheEntry.streams isEntry
    simp only [Client.entry] at isInfo isStreams
    rw [isInfo] at stillCached ⊢
    rw [isStreams] at closed
    cases here with
    | closed timestamp _ _ _ => exact ⟨timestamp, rfl⟩
    | adjusted adjust _ =>
        simp only [Option.isSome_map] at closed
        exact (closed wasOpen).elim
    | written timestamp _ _ => exact (closed wasOpen).elim
    | downloaded i timestamp _ => simp at closed
    | notDownloaded node _ => exact (closed wasOpen).elim
    | reopened i _ _ _ => simp at closed
    | created i _ _ => simp at closed
    | dropped notCached => simp [Client.entry, cached] at notCached
    | uploadRefused _ =>
        simp only [Option.isSome_map] at closed
        exact (closed wasOpen).elim
    | deleted node => simp at stillCached
    | evicted _ => simp at stillCached
  obtain ⟨timestamp, after⟩ := unmarked
  simp [ClientEvent.edits, uploadedCopy, cached, modified, after] at isEdited

/-- A close keeps the copies with changes open exactly when it finds no changes
in a copy that is not marked. -/
theorem editedOpen_closeFile_iff (inStep : (client.entry path).InStep)
    (editedOpen : EditedOpen ((client, r), edited)) :
    EditedOpen ((client.closeFile remote answers path r).1,
        ClientEvent.edits client (client.closeFile remote answers path r).1.1
          edited (.call (.closeFile path) answers)) ↔
      ClientEvent.KeepsEdits (.call (.closeFile path) answers)
        ((client, r), edited) := by
  cases cached : client.cache path with
  | none =>
      have closed : client.openedFiles path = none := inStep.closed cached
      have same : client.closeFile remote answers path r = ((client, r), false) := by
        simp [Client.closeFile, closed]
      constructor
      · intro _ info isInfo
        simp [cached] at isInfo
      · intro _
        simpa [same, ClientEvent.edits, uploadedCopy, cached] using editedOpen
  | some info =>
      cases modified : info.locallyModified with
      | true =>
          constructor
          · intro _ other isInfo unmodified
            obtain rfl := Option.some.inj (cached.symm.trans isInfo)
            simp [modified] at unmodified
          · exact fun _ =>
              editedOpen_closeFile_of_modified inStep editedOpen cached modified
      | false =>
          have sameRecord (after : Client) : ClientEvent.edits client after edited
              (.call (.closeFile path) answers) = edited := by
            simp [ClientEvent.edits, uploadedCopy, cached, modified]
          rw [sameRecord]
          by_cases usable : (client.openedFiles path).isSome ∧
              path ∈ client.fileMutexes
          · obtain ⟨streams, opened⟩ := Option.isSome_iff_exists.mp usable.1
            have closes : client.closeFile remote answers path r =
                ((client.eraseOpened path, r), true) := by
              simp [Client.closeFile, opened, usable.2, cached, modified]
            rw [closes]
            constructor
            · intro editedOpen' other isInfo _ _ _
              by_contra isEdited
              have isOpen := editedOpen' path (by simpa using isEdited)
                (by simp [Client.eraseOpened, cached])
              simp [Client.eraseOpened] at isOpen
            · intro keeps
              have unedited := keeps info cached modified usable.1 usable.2
              intro other isEdited isCached
              have apart : other ≠ path := by
                rintro rfl
                simp [unedited] at isEdited
              have wasOpen := editedOpen other isEdited isCached
              simpa [Client.eraseOpened, apart] using wasOpen
          · have same : (client.closeFile remote answers path r).1 = (client, r) := by
              rw [not_and] at usable
              unfold Client.closeFile
              split
              · rfl
              · next streams opened =>
                  rw [if_pos (usable (by simp [opened]))]
            rw [same]
            constructor
            · intro _ other _ _ isOpen hasMutex
              exact (usable ⟨isOpen, hasMutex⟩).elim
            · exact fun _ => editedOpen

theorem editedOpen_renameResult {oldPath newPath : Path}
    (separate : Separate oldPath newPath)
    (result : Client.RenameResult answers oldPath newPath client client')
    (editedOpen : EditedOpen ((client, r), edited)) :
    EditedOpen ((client', r'), ClientEvent.edits client client' edited
      (.call (.renameFile oldPath newPath) answers)) := by
  cases result with
  | refused notRenamed nonempty =>
      simp only [ClientEvent.edits, if_neg notRenamed]
      exact editedOpen
  | failed notRenamed fails =>
      simp only [ClientEvent.edits, if_neg notRenamed]
      exact editedOpen
  | moved renames =>
      simp only [ClientEvent.edits, if_pos renames]
      intro path isEdited cached
      dsimp only at isEdited cached ⊢
      cases renameRole_of_separate separate path with
      | target suffix belowNew notOld =>
          rw [updateMapKeys_target _ belowNew notOld] at isEdited cached ⊢
          rw [Option.isSome_or, Bool.or_eq_true]
          cases moved : client.cache (oldPath ++ suffix) with
          | some info =>
              left
              apply editedOpen (oldPath ++ suffix)
              · simpa [moved] using isEdited
              · simp [moved]
          | none =>
              right
              rw [moved, Option.none_or] at cached
              obtain ⟨info, isInfo⟩ := Option.isSome_iff_exists.mp cached
              apply editedOpen path
              · simpa [moved, isInfo] using isEdited
              · exact cached
      | source suffix belowOld notNew =>
          rw [updateMapKeys_source _ belowOld notNew] at cached
          simp at cached
      | bystander notOld notNew =>
          rw [updateMapKeys_bystander _ notOld notNew] at isEdited cached ⊢
          obtain ⟨info, isInfo⟩ := Option.isSome_iff_exists.mp cached
          apply editedOpen path
          · simpa [isInfo] using isEdited
          · exact cached

theorem editedOpen_step_iff {event : ClientEvent} {state next : EditedClient σ}
    (separates : event.Separates)
    (inStep : ∀ path, (state.1.1.entry path).InStep)
    (editedOpen : EditedOpen state)
    (steps : event.stepEdits remote state = some next) :
    EditedOpen next ↔ event.KeepsEdits state := by
  obtain ⟨⟨client, r⟩, edited⟩ := state
  obtain ⟨after, stepsTo, rfl⟩ := Option.map_eq_some_iff.mp steps
  cases event with
  | notified note =>
      obtain rfl := Option.some.inj stepsTo
      refine ⟨fun _ => trivial, fun _ => ?_⟩
      apply editedOpen_of_staysOpen editedOpen
        (Client.entryChange_processNotification note) (fun _ _ => rfl)
      · simp
      · exact editedOpen note.directory
  | call operation answers =>
      cases operation with
      | openFile path =>
          obtain rfl := Option.some.inj stepsTo
          exact ⟨fun _ => trivial, fun _ => editedOpen_openFile editedOpen⟩
      | readFile path size offset =>
          obtain rfl := Option.some.inj stepsTo
          refine ⟨fun _ => trivial, fun _ => ?_⟩
          exact editedOpen_of_staysOpen editedOpen
            (Client.entryChange_readFile size offset) (fun _ _ => rfl)
            (Client.isSome_readFile size offset) (editedOpen path)
      | writeFile path data position =>
          obtain rfl := Option.some.inj stepsTo
          exact ⟨fun _ => trivial,
            fun _ => editedOpen_writeFile editedOpen data position⟩
      | createFile path =>
          obtain rfl := Option.some.inj stepsTo
          exact ⟨fun _ => trivial, fun _ => editedOpen_createFile editedOpen⟩
      | closeFile path =>
          obtain rfl := Option.some.inj stepsTo
          exact editedOpen_closeFile_iff (inStep path) editedOpen
      | deleteFile path =>
          obtain rfl := Option.some.inj stepsTo
          exact ⟨fun _ => trivial, fun _ => editedOpen_deleteFile editedOpen⟩
      | getAttributes path =>
          obtain rfl := Option.some.inj stepsTo
          refine ⟨fun _ => trivial, fun _ => ?_⟩
          have sameEntries (other : Path) :
              (client.getAttributes remote path r).1.1.entry other =
                client.entry other :=
            Client.entry_getAttributes
          apply editedOpen_of_entryChange editedOpen
            (Client.entryChange_of_entry_eq sameEntries) (fun _ _ => rfl)
          have sameInfo := congrArg CacheEntry.info (sameEntries path)
          have sameStreams := congrArg CacheEntry.streams (sameEntries path)
          simp only [Client.entry] at sameInfo sameStreams
          rw [sameInfo, sameStreams]
          exact editedOpen path
      | truncateFile directory filename size =>
          obtain rfl := Option.some.inj stepsTo
          exact editedOpen_truncateFile_iff editedOpen
      | renameFile oldPath newPath =>
          obtain ⟨result, renamed, rfl⟩ := Option.map_eq_some_iff.mp stepsTo
          refine ⟨fun _ => trivial, fun _ => ?_⟩
          exact editedOpen_renameResult separates
            (Client.renameResult_of_renameFile renamed) editedOpen

end Steps

/-- Whatever the server and the local file system answer: in every state of a
run of one client, open files are cached, entries marked as modified belong to
open files and no notification drops changes that were not uploaded, if and only
if no truncation changes the length of a copy whose file is not open, and every
close that uploads nothing finds no changes. -/
theorem editsKept_throughout_iff {σ : Type*} (remote : Remote σ)
    (client : ClientId) (r : σ) {events : List ClientEvent}
    {final : EditedClient σ} (separates : ∀ event ∈ events, event.Separates)
    (reaches : run (ClientEvent.stepEdits remote) events
      ((Client.launch client, r), fun _ => false) = some final) :
    Throughout (ClientEvent.stepEdits remote) EditsKept events
        ((Client.launch client, r), fun _ => false) ↔
      Along (ClientEvent.stepEdits remote) ClientEvent.KeepsEdits events
        ((Client.launch client, r), fun _ => false) := by
  have separate : Along (ClientEvent.stepEdits remote)
      (fun event _ => event.Separates) events
      ((Client.launch client, r), fun _ => false) :=
    along_of_forall (fun event member _ => separates event member) _
  have preserved (event : ClientEvent) (state next : EditedClient σ)
      (separates : event.Separates)
      (inStep : ∀ path, (state.1.1.entry path).InStep)
      (steps : event.stepEdits remote state = some next) :
      ∀ path, (next.1.1.entry path).InStep := by
    obtain ⟨after, stepsTo, rfl⟩ := Option.map_eq_some_iff.mp steps
    exact inStep_of_step separates inStep stepsTo
  apply throughout_iff_along (fun state => ∀ path, (state.1.1.entry path).InStep)
    preserved _ reaches separate (inStep_launch client)
  · rw [editsKept_iff (inStep_launch client)]
    simp [EditedOpen]
  · intro event state next separates inStep kept steps
    rw [editsKept_iff (preserved event state next separates inStep steps)]
    exact editedOpen_step_iff separates inStep
      ((editsKept_iff inStep).mp kept) steps

/-- A file is created, written, and renamed while it is open. -/
private def renamedWhileModified : List ClientEvent :=
  [.call (.createFile "/srv/a") (.success 0),
    .call (.writeFile "/srv/a" [97] 0) (.success 1),
    .notified (Server.updateNotification "/srv/a" 1),
    .call (.renameFile "/srv/a" "/srv/b") (.success 2)]

/-- The changes of the new name survive a notification. -/
theorem editsKept_throughout_renamed :
    Throughout (ClientEvent.stepEdits .direct) EditsKept renamedWhileModified
      ((Client.launch "writer", Server.launch "/srv" .empty 0),
        fun _ => false) := by
  have separates : ∀ event ∈ renamedWhileModified, event.Separates := by
    have separate : Separate "/srv/a" "/srv/b" := by
      constructor <;> decide
    simp [renamedWhileModified, ClientEvent.Separates, separate]
  apply (editsKept_throughout_iff .direct "writer"
    (Server.launch "/srv" .empty 0) separates rfl).mpr
  exact ⟨trivial, fun _ _ => ⟨trivial, fun _ _ => ⟨trivial, fun _ _ =>
    ⟨trivial, fun _ _ => trivial⟩⟩⟩⟩

/-- A file is opened, cut and closed. -/
private def cutThenClosed : List ClientEvent :=
  [.call (.openFile "/srv/a") (.success 1),
    .call (.truncateFile "/srv/" "a" 0) (.success 2),
    .call (.closeFile "/srv/a") (.success 3)]

/-- All three calls succeed; the copy is empty, the server has the byte that was
cut off, and a notification drops the copy. -/
theorem cut_copy_dropped :
    ∃ final : EditedClient Server,
      run (ClientEvent.stepEdits .direct) cutThenClosed
        ((Client.launch "writer",
          Server.launch "/srv" (FileStore.empty.replace "/srv/a" [[97]] 0) 0),
          fun _ => false) = some final ∧
      (∃ info, final.1.1.cache "/srv/a" = some info ∧
        info.locallyModified = false) ∧
      final.2 "/srv/a" = true ∧
      final.1.1.disk.read "/srv/a" = some [] ∧
      final.1.2.disk.read "/srv/a" = some [97] ∧
      (final.1.1.processNotification
        (Server.updateNotification "/srv/a" 1)).cache "/srv/a" = none ∧
      ¬ EditsKept final := by
  refine ⟨_, rfl, ⟨_, rfl, rfl⟩, rfl, rfl, rfl, rfl, ?_⟩
  intro keeps
  have stays := keeps.kept (Server.updateNotification "/srv/a" 1) "/srv/a" _ rfl
    (.inr rfl)
  cases stays

end DistributedFilesystem
