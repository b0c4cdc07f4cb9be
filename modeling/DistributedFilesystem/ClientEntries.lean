import DistributedFilesystem.ClientEffects
import DistributedFilesystem.RenamedPaths

/-!
# What an event does to the entries of a path

For each path a client may hold an entry of `cache`, streams in `openedFiles`,
a mutex in `fileMutexes` and a local file.  Every event but a rename changes
these for one path only, in one of the ways that `EntryStep` lists; a rename
moves them from path to path.  What holds of the entries in every run is
derived from these statements.
-/

namespace DistributedFilesystem

/-- What a client holds for one path. -/
@[ext]
structure CacheEntry where
  info : Option FileInfo
  streams : Option FileStreams
  hasMutex : Bool
  node : Option Nat

/-- The stream is on the same file, and open if it was. -/
structure FileStream.Keeps (stream stream' : FileStream) : Prop where
  node : stream'.node = stream.node
  isOpen : stream'.isOpen = stream.isOpen

/-- The change of the streams sets or clears fail bits only. -/
structure KeepsOpen (change : FileStreams → FileStreams) : Prop where
  readStream : ∀ streams : FileStreams,
    streams.readStream.Keeps (change streams).readStream
  writeStream : ∀ streams : FileStreams,
    streams.writeStream.Keeps (change streams).writeStream

/-- Both streams of a file are closed. -/
def FileStreams.close (streams : FileStreams) : FileStreams :=
  ⟨streams.readStream.close, streams.writeStream.close⟩

/-- What a path's own entries can become in one event.  `refused` is the
condition under which an upload may fail although the copy is there. -/
inductive EntryStep (refused : Prop) : CacheEntry → CacheEntry → Prop
  | adjusted (entry : CacheEntry) (change : FileStreams → FileStreams)
      (keeps : KeepsOpen change) :
      EntryStep refused entry { entry with streams := entry.streams.map change }
  | written (entry : CacheEntry) (timestamp : Int) (cached : entry.info.isSome)
      (opened : entry.streams.isSome) :
      EntryStep refused entry { entry with info := some ⟨true, timestamp⟩ }
  | downloaded (entry : CacheEntry) (i : Nat) (timestamp : Int)
      (notCached : entry.info = none) :
      EntryStep refused entry
        ⟨some ⟨false, timestamp⟩, some ⟨.fresh i, .fresh i⟩, true, some i⟩
  | notDownloaded (entry : CacheEntry) (node : Option Nat)
      (notCached : entry.info = none) :
      EntryStep refused entry { entry with node := node }
  | reopened (entry : CacheEntry) (i : Nat) (cached : entry.info.isSome)
      (closed : entry.streams = none) (refers : entry.node = some i) :
      EntryStep refused entry
        { entry with streams := some ⟨.fresh i, .fresh i⟩, hasMutex := true }
  | created (entry : CacheEntry) (i : Nat) (notCached : entry.info = none)
      (closed : entry.streams = none) :
      EntryStep refused entry
        ⟨some ⟨true, 0⟩, some ⟨.fresh i, .fresh i⟩, true, some i⟩
  | closed (entry : CacheEntry) (timestamp : Int) (cached : entry.info.isSome)
      (hadMutex : entry.hasMutex = true) (opened : entry.streams.isSome) :
      EntryStep refused entry
        { entry with
          info := some ⟨false, timestamp⟩, streams := none, hasMutex := false }
  | dropped (entry : CacheEntry) (notCached : entry.info = none) :
      EntryStep refused entry { entry with streams := none, hasMutex := false }
  | uploadRefused (entry : CacheEntry) (reason : refused ∨ entry.node = none) :
      EntryStep refused entry
        { entry with streams := entry.streams.map FileStreams.close }
  | deleted (entry : CacheEntry) (node : Option Nat) :
      EntryStep refused entry ⟨none, none, false, node⟩
  | evicted (entry : CacheEntry) (closed : entry.streams = none) :
      EntryStep refused entry { entry with info := none }

theorem EntryStep.same (refused : Prop) (entry : CacheEntry) :
    EntryStep refused entry entry := by
  have keeps : KeepsOpen id := by
    constructor <;> intro streams <;> constructor <;> rfl
  have step : EntryStep refused entry
      { entry with streams := entry.streams.map id } :=
    .adjusted entry id keeps
  simpa using step

theorem keepsOpen_setReadFailed (failed : Bool) :
    KeepsOpen fun streams =>
      { streams with
        readStream := { streams.readStream with failed := failed } } := by
  constructor <;> intro streams <;> constructor <;> rfl

theorem keepsOpen_setWriteFailed (failed : Bool) :
    KeepsOpen fun streams =>
      { streams with
        writeStream := { streams.writeStream with failed := failed } } := by
  constructor <;> intro streams <;> constructor <;> rfl

/-- The server answers every upload with OK. -/
def Remote.AcceptsUploads {σ : Type*} (remote : Remote σ) : Prop :=
  ∀ r stream, stream ≠ [] → (remote.closeCall r stream).2.2.isOk

namespace Client

/-- The entries of a path. -/
def entry (client : Client) (path : Path) : CacheEntry where
  info := client.cache path
  streams := client.openedFiles path
  hasMutex := decide (path ∈ client.fileMutexes)
  node := client.disk.node path

/-- The entries of one path change, by an `EntryStep`. -/
structure EntryChange (refused : Prop) (path : Path) (client client' : Client) :
    Prop where
  elsewhere : ∀ other, other ≠ path → client'.entry other = client.entry other
  here : EntryStep refused (client.entry path) (client'.entry path)

variable {σ : Type*} {remote : Remote σ} {answers : LocalAnswers}
variable {path other : Path} {client client' : Client} {r r' : σ}
variable {refused : Prop}

theorem SameElsewhere.entry (same : SameElsewhere path client client')
    (apart : other ≠ path) : client'.entry other = client.entry other := by
  ext1
  · exact same.cache other apart
  · exact same.openedFiles other apart
  · simp only [Client.entry]
    simp [same.fileMutexes other apart]
  · exact same.node other apart

theorem entryChange_refl (refused : Prop) (path : Path) (client : Client) :
    EntryChange refused path client client where
  elsewhere _ _ := rfl
  here := .same refused _

theorem entryChange_of_entry_eq
    (same : ∀ other, client'.entry other = client.entry other) :
    EntryChange refused path client client' where
  elsewhere other _ := same other
  here := by
    rw [same]
    exact .same refused _

theorem entry_setStreams (change : FileStreams → FileStreams) :
    (client.setStreams path change).entry path =
      { client.entry path with
        streams := (client.entry path).streams.map change } := by
  ext1
  · rfl
  · simp [setStreams, Client.entry]
  · rfl
  · rfl

theorem entryChange_setStreams {change : FileStreams → FileStreams}
    (keeps : KeepsOpen change) :
    EntryChange refused path client (client.setStreams path change) where
  elsewhere _ apart := (sameElsewhere_setStreams change).entry apart
  here := by
    rw [entry_setStreams]
    exact .adjusted _ change keeps

theorem entryChange_openFile :
    EntryChange refused path client
      (client.openFile remote answers path r).1.1 := by
  unfold openFile
  cases cached : client.cache path with
  | none =>
      dsimp only
      cases opens : client.openUncached remote answers path r with
      | mk state opened =>
          obtain ⟨client', r'⟩ := state
          cases opened with
          | true =>
              obtain ⟨_, responses, _, -, -, -, copy⟩ :=
                freshCopy_of_openUncached (fun _ => True) (fun _ _ => trivial)
                  trivial opens
              obtain ⟨timestamp, cache⟩ := copy.cache
              obtain ⟨i, refers, streams⟩ := copy.justOpened.streams
              have after : client'.entry path =
                  ⟨some ⟨false, timestamp⟩, some ⟨.fresh i, .fresh i⟩, true,
                    some i⟩ := by
                simp [Client.entry, cache, streams, refers,
                  copy.justOpened.mutex]
              constructor
              · exact fun other apart => copy.elsewhere.entry apart
              · rw [after]
                exact .downloaded _ i timestamp cached
          | false =>
              have noCopy := noCopy_of_openUncached cached opens
              have after : client'.entry path =
                  { client.entry path with node := client'.disk.node path } := by
                simp [Client.entry, noCopy.cache, noCopy.openedFiles,
                  noCopy.fileMutexes, cached]
              constructor
              · exact fun other apart => noCopy.elsewhere.entry apart
              · rw [after]
                exact .notDownloaded _ _ cached
  | some info =>
      dsimp only
      unfold openCached
      split
      · exact entryChange_refl ..
      · next closed =>
          split
          · next streams opens =>
              have justOpened := justOpened_insertOpened opens
              obtain ⟨i, refers, opened⟩ := justOpened.streams
              have after : (client.insertOpened path streams).entry path =
                  { client.entry path with
                    streams := some ⟨.fresh i, .fresh i⟩, hasMutex := true } := by
                ext1
                · rfl
                · exact opened
                · simp [Client.entry, justOpened.mutex]
                · rfl
              constructor
              · exact fun other apart =>
                  (sameElsewhere_insertOpened streams).entry apart
              · rw [after]
                exact .reopened _ i (by simp [Client.entry, cached]) closed refers
          · exact entryChange_refl ..

theorem entryChange_readFile (size : Nat) (offset : Int) :
    EntryChange refused path client (client.readFile path size offset).1 := by
  rcases readFile_eq client path size offset with eq | eq
  · rw [eq]
    exact entryChange_refl ..
  · rw [eq]
    exact entryChange_setStreams (keepsOpen_setReadFailed true)

theorem entryChange_writeFile (data : Bytes) (position : Int) :
    EntryChange refused path client
      (client.writeFile answers path data position).1 := by
  unfold writeFile
  dsimp only
  split
  · exact entryChange_refl ..
  next readStream stream usable =>
  obtain ⟨cached, opened, -⟩ := usableStreams_eq_some.mp usable
  split
  · exact entryChange_setStreams (keepsOpen_setWriteFailed false)
  split
  · -- The write error leaves part of the data in the file.
    next amount _ =>
    have others : EntryChange refused path
        { client with
          disk := client.disk.writeAt stream.node position.toNat
            (data.take amount) answers.now } _ :=
      entryChange_setStreams (keepsOpen_setWriteFailed true)
    have sameNodes : ∀ other, Client.entry { client with
        disk := client.disk.writeAt stream.node position.toNat
          (data.take amount) answers.now } other = client.entry other := by
      intro other
      ext1 <;> simp [Client.entry]
    constructor
    · intro other apart
      rw [← sameNodes other]
      exact others.elsewhere other apart
    · rw [← sameNodes path]
      exact others.here
  · constructor
    · intro other apart
      ext1
      · simp [Client.entry, syncWrite, updateAttr, markModified, enterCache, apart]
      · rfl
      · rfl
      · simp [Client.entry, syncWrite, updateAttr, markModified, enterCache]
    · have after : (((({ client with
          disk := client.disk.writeAt stream.node position.toNat data
            answers.now } : Client).markModified path).syncWrite answers
              path).entry path) =
          { client.entry path with
            info := some ⟨true, ((client.cache path).getD ⟨false, 0⟩).timestamp⟩ } := by
        ext1
        · simp [Client.entry, syncWrite, updateAttr, markModified, enterCache]
        · rfl
        · rfl
        · simp [Client.entry, syncWrite, updateAttr, markModified, enterCache]
      rw [after]
      exact .written _ _ cached (by simp [Client.entry, opened])

/-- `create_file` enters the new file; a failure afterwards removes the entry
again. -/
theorem entryChange_createFile :
    EntryChange refused path client (client.createFile answers path).1 := by
  unfold createFile
  split
  · next begun begins =>
      unfold beginCreate at begins
      split_ifs at begins with exists' fails
      push Not at exists'
      obtain rfl := Option.some.inj begins
      have notCached : client.cache path = none := by
        simpa using exists'.1
      have closed : client.openedFiles path = none := by
        simpa using exists'.2
      have created : SameElsewhere path client
          { client with disk := client.disk.openTruncated path answers.now } :=
        sameElsewhere_disk (fun _ apart => FileStore.node_openTruncated_ne apart)
          (fun _ apart => FileStore.read_openTruncated_ne apart)
      have entered : SameElsewhere path client (Client.enterCache { client with
          disk := client.disk.openTruncated path answers.now } path ⟨true, 0⟩) :=
        created.trans (sameElsewhere_enterCache ⟨true, 0⟩)
      unfold finishCreate
      split
      · have after : (({ client with
            disk := client.disk.openTruncated path answers.now } : Client).enterCache
              path ⟨true, 0⟩ |>.eraseCache path).entry path =
            { client.entry path with
              node := (client.disk.openTruncated path answers.now).node path } := by
          ext1
          · simp [Client.entry, eraseCache, notCached]
          · rfl
          · rfl
          · rfl
        constructor
        · exact fun other apart =>
            (entered.trans sameElsewhere_eraseCache).entry apart
        · rw [after]
          exact .notDownloaded _ _ notCached
      · next streams opens =>
          have justOpened := justOpened_insertOpened opens
          obtain ⟨i, refers, opened⟩ := justOpened.streams
          have result : EntryChange refused path client
              (({ client with
                disk := client.disk.openTruncated path answers.now } : Client).enterCache
                  path ⟨true, 0⟩ |>.insertOpened path streams) := by
            constructor
            · exact fun other apart =>
                (entered.trans (sameElsewhere_insertOpened _)).entry apart
            · have after : (({ client with
                  disk := client.disk.openTruncated path answers.now } :
                    Client).enterCache path ⟨true, 0⟩ |>.insertOpened path
                      streams).entry path =
                  ⟨some ⟨true, 0⟩, some ⟨.fresh i, .fresh i⟩, true, some i⟩ := by
                ext1
                · simp [Client.entry, insertOpened, enterCache]
                · exact opened
                · simp [Client.entry, insertOpened]
                · exact refers
              rw [after]
              exact .created _ i notCached closed
          dsimp only
          split
          · exact ⟨result.elsewhere, result.here⟩
          · exact result
  · exact entryChange_refl ..

theorem entryChange_eraseOpened (cached : client.cache path = none) :
    EntryChange refused path client (client.eraseOpened path) where
  elsewhere _ apart := sameElsewhere_eraseOpened.entry apart
  here := by
    have after : (client.eraseOpened path).entry path =
        { client.entry path with streams := none, hasMutex := false } := by
      ext1 <;> simp [Client.entry, eraseOpened]
    rw [after]
    exact .dropped _ cached

/-- `close_file` gets as far as opening the local copy again for an upload. -/
structure Uploads (answers : LocalAnswers) (path : Path) (client : Client) :
    Prop where
  modified : ∃ info, client.cache path = some info ∧ info.locallyModified
  hasMutex : path ∈ client.fileMutexes
  flushes : ∃ streams, client.openedFiles path = some streams ∧
    ¬ (streams.writeStream.failed ∨ answers.flush = false)

/-- Before its call, `close_file` of a modified file leaves the streams open, or
closes them. -/
theorem entryChange_beginUpload {streams : FileStreams}
    (begins : client.beginUpload answers path streams = (client', none))
    (mayRefuse : ¬ (streams.writeStream.failed ∨ answers.flush = false) →
      answers.reopen = false → refused) :
    EntryChange refused path client client' := by
  unfold beginUpload at begins
  dsimp only at begins
  split at begins
  · obtain ⟨rfl, -⟩ := Prod.mk.inj begins
    exact entryChange_setStreams (keepsOpen_setWriteFailed true)
  next flushes =>
  split at begins
  · simp at begins
  next cannot =>
  obtain ⟨rfl, -⟩ := Prod.mk.inj begins
  have reason : refused ∨ (client.entry path).node = none := by
    cases reopens : answers.reopen with
    | false => exact .inl (mayRefuse flushes reopens)
    | true =>
        right
        cases node : client.disk.node path with
        | none => exact node
        | some i =>
            exact (cannot (client.disk.nodes i).contents reopens
              (by simp [FileStore.read, setStreams, node])).elim
  constructor
  · exact fun other apart => (sameElsewhere_setStreams _).entry apart
  · change EntryStep refused _
      ((client.setStreams path FileStreams.close).entry path)
    rw [entry_setStreams]
    exact .uploadRefused _ reason

theorem flushes_of_beginUpload {streams : FileStreams}
    {requests : List FileRequest}
    (begins : client.beginUpload answers path streams =
      (client', some requests)) :
    ¬ (streams.writeStream.failed ∨ answers.flush = false) := by
  intro fails
  simp [beginUpload, fails] at begins

/-- An upload to a server that answers every upload with OK ends with OK. -/
theorem isOk_of_retry_uploadAttempt {requests : List FileRequest}
    (nonempty : requests ≠ [])
    (accepts : remote.AcceptsUploads) (state : σ × FileResponse) :
    ∃ after status, retry (uploadAttempt remote requests) maxTries .initial state =
      (after, some status) ∧ status.isOk := by
  have ok := accepts state.1 requests nonempty
  have first : retry (uploadAttempt remote requests) maxTries .initial state =
      retry (uploadAttempt remote requests) 2
        (remote.closeCall state.1 requests).2.2
        ((remote.closeCall state.1 requests).1,
          (remote.closeCall state.1 requests).2.1) :=
    rfl
  exact ⟨_, _, first.trans (retry_of_ok ok), ok⟩

/-- A `close_file` that returned false for a modified file has left its streams
open, or closed them. -/
theorem entryChange_closeModified {streams : FileStreams}
    (fails : client.closeModified remote answers path streams r =
      ((client', r'), false))
    (mayRefuse : ¬ (streams.writeStream.failed ∨ answers.flush = false) →
      answers.reopen = false ∨ ¬ remote.AcceptsUploads → refused) :
    EntryChange refused path client client' := by
  unfold closeModified at fails
  cases begins : client.beginUpload answers path streams with
  | mk flushed result =>
      simp only [begins] at fails
      cases result with
      | none =>
          obtain ⟨rfl, -⟩ : flushed = client' ∧ r = r' := by simpa using fails
          apply entryChange_beginUpload begins
          exact fun flushes cannot => mayRefuse flushes (.inl cannot)
      | some requests =>
          have flushes := flushes_of_beginUpload begins
          obtain ⟨contents, read, rfl, rfl⟩ := beginUpload_eq_some begins
          have isRefused : refused := by
            apply mayRefuse flushes
            right
            intro accepts
            obtain ⟨after, status, uploads, ok⟩ := isOk_of_retry_uploadAttempt
              (uploadRequests_ne_nil client path contents) accepts (r, ⟨[], 0, 0⟩)
            simp [uploads, ok] at fails
          have closed : EntryChange refused path client
              (client.setStreams path FileStreams.close) := by
            constructor
            · exact fun other apart => (sameElsewhere_setStreams _).entry apart
            · rw [entry_setStreams]
              exact .uploadRefused _ (.inl isRefused)
          dsimp only at fails
          split at fails
          · split at fails
            · simp at fails
            · obtain ⟨rfl, -⟩ := by simpa using fails
              exact closed
          · obtain ⟨rfl, -⟩ := by simpa using fails
            exact closed

/-- How `close_file` leaves the entries of its path; `refused` holds when it
comes to an upload and the local copy cannot be opened again or the upload is
not answered with OK. -/
theorem entryChange_closeFile
    (mayRefuse : client.Uploads answers path →
      answers.reopen = false ∨ ¬ remote.AcceptsUploads → refused) :
    EntryChange refused path client
      (client.closeFile remote answers path r).1.1 := by
  cases closes : client.closeFile remote answers path r with
  | mk state returned =>
  obtain ⟨client', r'⟩ := state
  cases returned with
  | true =>
      obtain ⟨result, -⟩ := closeFile_eq_true (fun _ => True)
        (fun _ _ _ _ => trivial) trivial closes
      have clean : ∃ timestamp,
          client'.cache path = some ⟨false, timestamp⟩ := by
        obtain ⟨info, cached, ⟨unmodified, same⟩ | ⟨-, timestamp, after⟩⟩ :=
          result.cache
        · exact ⟨info.timestamp, by rw [same, cached, ← unmodified]⟩
        · exact ⟨timestamp, after⟩
      obtain ⟨timestamp, cache⟩ := clean
      have hadMutex : path ∈ client.fileMutexes := by
        by_contra noMutex
        unfold closeFile at closes
        split at closes
        · simp at closes
        · simp [noMutex] at closes
      have after : client'.entry path =
          { client.entry path with
            info := some ⟨false, timestamp⟩, streams := none,
            hasMutex := false } := by
        ext1
        · exact cache
        · exact result.openedFiles
        · simp [Client.entry, result.fileMutexes]
        · simp [Client.entry, result.disk]
      obtain ⟨info, cached, -⟩ := result.cache
      constructor
      · exact fun other apart => result.elsewhere.entry apart
      · rw [after]
        exact .closed _ timestamp (by simp [Client.entry, cached])
          (by simp [Client.entry, hadMutex]) result.wasOpen
  | false =>
      unfold closeFile at closes
      split at closes
      · obtain ⟨rfl, -⟩ : client = client' ∧ r = r' := by simpa using closes
        exact entryChange_refl ..
      next streams opened =>
      split at closes
      · obtain ⟨rfl, -⟩ : client = client' ∧ r = r' := by simpa using closes
        exact entryChange_refl ..
      next hasMutex =>
      split at closes
      · next notCached =>
          obtain ⟨rfl, -⟩ : client.eraseOpened path = client' ∧ r = r' := by
            simpa using closes
          exact entryChange_eraseOpened notCached
      next info cached =>
      split at closes
      · next modified =>
          apply entryChange_closeModified closes
          intro flushes
          apply mayRefuse
          exact ⟨⟨info, cached, modified⟩, by simpa using hasMutex,
            streams, opened, flushes⟩
      · simp at closes

theorem entryChange_deleteFile :
    EntryChange refused path client
      (client.deleteFile remote path r).1.1 := by
  obtain ⟨client', status, eq, result⟩ := deleteFile_eq remote path client r
  rw [eq]
  have after : client'.entry path =
      ⟨none, none, false, client'.disk.node path⟩ := by
    simp [Client.entry, result.cache, result.openedFiles, result.fileMutexes]
  constructor
  · exact fun other apart => result.elsewhere.entry apart
  · rw [after]
    exact .deleted _ _

theorem entryChange_processNotification (note : Notification) :
    EntryChange refused note.directory client
      (client.processNotification note) := by
  constructor
  · exact fun other apart =>
      (sameElsewhere_processNotification client note).entry apart
  · cases opened : client.openedFiles note.directory with
    | some streams =>
        rw [processNotification_of_open (by simp [opened])]
        exact .same refused _
    | none =>
        have after : (client.processNotification note).entry note.directory =
            { client.entry note.directory with info := none } := by
          ext1
          · exact cache_processNotification_of_closed opened
          · simp [Client.entry]
          · simp [Client.entry]
          · simp [Client.entry]
        rw [after]
        exact .evicted _ opened

theorem entry_getAttributes :
    (client.getAttributes remote path r).1.1.entry other =
      client.entry other := by
  unfold getAttributes
  split
  · rfl
  · dsimp only
    split <;> rfl

theorem entry_truncateFile (directory filename : Path) (size : Int) :
    (client.truncateFile answers directory filename size).1.entry other =
      client.entry other := by
  unfold truncateFile
  split
  · split
    · rfl
    · simp [Client.entry, FileStore.resize]
  · rfl

end Client

/-- The event is a `close_file` whose upload may fail although the local copy is
there. -/
def ClientEvent.MayRefuse {σ : Type*} (remote : Remote σ) (client : Client) :
    ClientEvent → Prop
  | .call (.closeFile path) answers =>
      client.Uploads answers path ∧
        (answers.reopen = false ∨ ¬ remote.AcceptsUploads)
  | _ => False

/-- An event that is no rename changes the entries of one path. -/
theorem exists_entryChange_of_step {σ : Type*} {remote : Remote σ}
    {event : ClientEvent} {state next : Client × σ}
    (noRename : ∀ oldPath newPath answers,
      event ≠ .call (.renameFile oldPath newPath) answers)
    (steps : event.step remote state = some next) :
    ∃ path, Client.EntryChange (event.MayRefuse remote state.1) path state.1 next.1 := by
  cases event with
  | notified note =>
      obtain rfl := Option.some.inj steps
      exact ⟨_, Client.entryChange_processNotification note⟩
  | call operation answers =>
      cases operation with
      | openFile path =>
          obtain rfl := Option.some.inj steps
          exact ⟨path, Client.entryChange_openFile⟩
      | readFile path size offset =>
          obtain rfl := Option.some.inj steps
          exact ⟨path, Client.entryChange_readFile size offset⟩
      | writeFile path data position =>
          obtain rfl := Option.some.inj steps
          exact ⟨path, Client.entryChange_writeFile data position⟩
      | createFile path =>
          obtain rfl := Option.some.inj steps
          exact ⟨path, Client.entryChange_createFile⟩
      | closeFile path =>
          obtain rfl := Option.some.inj steps
          exact ⟨path, Client.entryChange_closeFile And.intro⟩
      | deleteFile path =>
          obtain rfl := Option.some.inj steps
          exact ⟨path, Client.entryChange_deleteFile⟩
      | getAttributes path =>
          obtain rfl := Option.some.inj steps
          exact ⟨path, Client.entryChange_of_entry_eq fun _ =>
            Client.entry_getAttributes⟩
      | truncateFile directory filename size =>
          obtain rfl := Option.some.inj steps
          exact ⟨directory, Client.entryChange_of_entry_eq fun _ =>
            Client.entry_truncateFile directory filename size⟩
      | renameFile oldPath newPath =>
          exact (noRename oldPath newPath answers rfl).elim

/-! ## Renaming -/

namespace Client

/-- `rename_file` gets past its checks and moves the local files. -/
def Renames (answers : LocalAnswers) (oldPath newPath : Path) (client : Client) :
    Prop :=
  answers.directoryAt newPath ≠ some false ∧
    ((client.disk.remove newPath).node oldPath ≠ none ∨
      answers.directoryAt oldPath ≠ none → answers.rename = true)

/-- The local files after a rename that got past its checks. -/
def renamedDisk (answers : LocalAnswers) (oldPath newPath : Path)
    (client : Client) : FileStore Path Byte :=
  let disk := client.disk.remove newPath
  if (disk.node oldPath).isSome ∨ (answers.directoryAt oldPath).isSome then
    moveTree disk oldPath newPath
  else disk

/-- What `rename_file` does to the entries: nothing, only the target's local
file is removed, or they are moved. -/
inductive RenameResult (answers : LocalAnswers) (oldPath newPath : Path)
    (client : Client) : Client → Prop
  | refused (notRenamed : ¬ client.Renames answers oldPath newPath)
      (nonempty : answers.directoryAt newPath = some false) :
      RenameResult answers oldPath newPath client client
  | failed (notRenamed : ¬ client.Renames answers oldPath newPath)
      (fails : answers.rename = false) :
      RenameResult answers oldPath newPath client
        { client with disk := client.disk.remove newPath }
  | moved (renames : client.Renames answers oldPath newPath) :
      RenameResult answers oldPath newPath client
        { client with
          disk := client.renamedDisk answers oldPath newPath
          cache := updateMapKeys oldPath newPath client.cache
          openedFiles := updateMapKeys oldPath newPath client.openedFiles
          cachedAttr := updateMapKeys oldPath newPath client.cachedAttr }

theorem renameResult_of_renameFile {σ : Type*} {remote : Remote σ}
    {answers : LocalAnswers} {oldPath newPath : Path} {client : Client} {r : σ}
    {result : (Client × σ) × Bool}
    (renames : client.renameFile remote answers oldPath newPath r = some result) :
    RenameResult answers oldPath newPath client result.1.1 := by
  unfold renameFile at renames
  dsimp only at renames
  split at renames
  · next nonempty =>
      obtain rfl := Option.some.inj renames
      apply RenameResult.refused _ nonempty
      simp [Renames, nonempty]
  · next vacant =>
      split at renames
      · next fails =>
          obtain rfl := Option.some.inj renames
          apply RenameResult.failed _ fails.2
          simp only [Renames, not_and, fails.2]
          intro _ works
          simp only [Bool.false_eq_true, imp_false, not_or, not_not] at works
          simp [works.1, works.2] at fails
      · next works =>
          obtain ⟨answer, -, rfl⟩ := Option.map_eq_some_iff.mp renames
          apply RenameResult.moved
          refine ⟨vacant, fun isLocal => ?_⟩
          by_contra fails
          apply works
          simpa [Option.isSome_iff_ne_none, isLocal] using fails

end Client

/-- A property of the entries of each path by itself survives an event that is
no rename, and a rename if it survives that. -/
theorem forall_entry_of_step {σ : Type*} {remote : Remote σ}
    {event : ClientEvent} {state next : Client × σ}
    (property : CacheEntry → Prop)
    (changes : ∀ entry entry',
      EntryStep (event.MayRefuse remote state.1) entry entry' →
      property entry → property entry')
    (renames : ∀ oldPath newPath answers,
      event = .call (.renameFile oldPath newPath) answers → ∀ client',
      Client.RenameResult answers oldPath newPath state.1 client' →
      ∀ path, property (client'.entry path))
    (holds : ∀ path, property (state.1.entry path))
    (steps : event.step remote state = some next) (path : Path) :
    property (next.1.entry path) := by
  by_cases isRename : ∃ oldPath newPath answers,
      event = .call (.renameFile oldPath newPath) answers
  · obtain ⟨oldPath, newPath, answers, rfl⟩ := isRename
    obtain ⟨result, renamed, rfl⟩ := Option.map_eq_some_iff.mp steps
    exact renames oldPath newPath answers rfl _
      (Client.renameResult_of_renameFile renamed) path
  · push Not at isRename
    obtain ⟨changed, change⟩ := exists_entryChange_of_step isRename steps
    by_cases same : path = changed
    · rw [same]
      exact changes _ _ change.here (holds changed)
    · rw [change.elsewhere path same]
      exact holds path

end DistributedFilesystem
