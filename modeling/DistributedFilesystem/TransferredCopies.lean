import DistributedFilesystem.RecordedTransfers

/-!
# Clean copies are what was transferred

A copy that is not marked as modified should hold the bytes last transferred
for its path, so that closing the file loses nothing.  Opening, reading,
writing, creating and closing keep this; `truncate_file` changes the copy
without marking it.
-/

namespace DistributedFilesystem

open TransitionRuns Remote

/-- A client, the server it is connected to with the faults of the next calls,
and the record of what was transferred. -/
abbrev Session := Client × Link × Transfers

/-- The event is a call of a function that opens, reads, writes, creates,
truncates or closes a file, and it returns true. -/
def ClientEvent.Succeeds {σ : Type*} (remote : Remote σ) :
    ClientEvent → Client × σ → Prop
  | .call (.openFile path) answers, (client, r) =>
      (client.openFile remote answers path r).2 = true
  | .call (.readFile path size offset) _, (client, _) =>
      (client.readFile path size offset).2.isSome
  | .call (.writeFile path data position) answers, (client, _) =>
      (client.writeFile answers path data position).2 = true
  | .call (.createFile path) answers, (client, _) =>
      (client.createFile answers path).2 = true
  | .call (.closeFile path) answers, (client, r) =>
      (client.closeFile remote answers path r).2 = true
  | .call (.truncateFile directory filename size) answers, (client, _) =>
      (client.truncateFile answers directory filename size).2 = true
  | _, _ => False

/-- A truncation leaves the length of a clean copy as it is. -/
def ClientEvent.TruncatesModified {σ : Type*} :
    ClientEvent → Client × σ → Prop
  | .call (.truncateFile directory filename size) _, (client, _) =>
      ∀ info contents, client.cache (directory ++ filename) = some info →
        info.locallyModified = false →
        client.disk.read (directory ++ filename) = some contents →
        (contents.length : Int) = size
  | _, _ => True

/-- The copies that are not marked as modified are what was last
transferred. -/
def CleanTransferred (state : Session) : Prop :=
  ∀ path info, state.1.cache path = some info → info.locallyModified = false →
    ∃ bytes, state.1.disk.read path = some bytes ∧ state.2.2 path = some bytes

/-- The copies that are not marked as modified are what was last transferred,
and a close that returns true leaves the local contents on the server. -/
structure ChangesUploaded (state : Session) : Prop where
  clean : CleanTransferred state
  closes : ∀ path answers after,
    state.1.closeFile faulty.recording answers path state.2 = (after, true) →
    ∃ bytes, state.1.disk.read path = some bytes ∧
      after.1.disk.read path = some bytes ∧
      after.2.1.server.disk.read path = some bytes

/-- What these calls keep whatever truncations do. -/
structure SessionSound (state : Session) : Prop where
  inStep : ∀ path, (state.1.entry path).InStep
  onNode : ∀ path streams, state.1.openedFiles path = some streams →
    state.1.disk.node path = some streams.writeStream.node
  stored : ∀ path bytes, state.2.2 path = some bytes →
    state.2.1.server.disk.read path = some bytes

/-! ## The streams stay on their file -/

/-- The write stream of the path is on its local file. -/
def CacheEntry.OnNode (entry : CacheEntry) : Prop :=
  ∀ streams, entry.streams = some streams →
    entry.node = some streams.writeStream.node

theorem onNode_of_entryStep {refused : Prop} {entry entry' : CacheEntry}
    (step : EntryStep refused entry entry') (inStep : entry.InStep)
    (onNode : entry.OnNode) : entry'.OnNode := by
  cases step with
  | adjusted change keeps =>
      intro streams isStreams
      obtain ⟨before, opened, rfl⟩ := Option.map_eq_some_iff.mp isStreams
      rw [(keeps.writeStream before).node]
      exact onNode before opened
  | written timestamp cached opened => exact onNode
  | downloaded i timestamp notCached =>
      intro streams isStreams
      obtain rfl := Option.some.inj isStreams
      rfl
  | notDownloaded node notCached =>
      intro streams opened
      simp [inStep.closed notCached] at opened
  | reopened i cached closed refers =>
      intro streams isStreams
      obtain rfl := Option.some.inj isStreams
      exact refers
  | created i notCached closed =>
      intro streams isStreams
      obtain rfl := Option.some.inj isStreams
      rfl
  | closed timestamp cached hadMutex opened => simp [CacheEntry.OnNode]
  | dropped notCached => simp [CacheEntry.OnNode]
  | uploadRefused reason =>
      intro streams isStreams
      obtain ⟨before, opened, rfl⟩ := Option.map_eq_some_iff.mp isStreams
      have keepsNode : before.close.writeStream.node =
          before.writeStream.node := by
        simp only [FileStreams.close, FileStream.close]
        split <;> rfl
      rw [keepsNode]
      exact onNode before opened
  | deleted node => simp [CacheEntry.OnNode]
  | evicted closed => exact onNode

section Calls

variable {answers : LocalAnswers} {path : Path} {client client' : Client}
variable {state state' : Link × Transfers}

/-- The server's files and the transfers at all other paths are the same. -/
structure TransfersAt (path : Path) (state state' : Link × Transfers) : Prop where
  read : ∀ other, other ≠ path → state'.1.server.disk.read other =
    state.1.server.disk.read other
  record : ∀ other, other ≠ path → state'.2 other = state.2 other

theorem transfersAt_refl (path : Path) (state : Link × Transfers) :
    TransfersAt path state state where
  read _ _ := rfl
  record _ _ := rfl

theorem transfersAt_closeCall {before : Link × Transfers}
    (same : TransfersAt path state before) (client : Client) (contents : Bytes) :
    TransfersAt path state (faulty.recording.closeCall before
      (client.uploadRequests path contents)).1 := by
  cases call : faulty.recording.closeCall before
      (client.uploadRequests path contents) with
  | mk after rest =>
      obtain ⟨response, status⟩ := rest
      have samePath : ∀ request ∈ client.uploadRequests path contents,
          request.path = path :=
        fun request member => (Client.of_mem_uploadRequests member).1
      obtain ⟨answer, recorded⟩ := recording_closeCall_eq
        (client.uploadRequests_ne_nil path contents) samePath call
      have server : after.1 = (faulty.closeCall before.1
          (client.uploadRequests path contents)).1 := by rw [answer]
      constructor
      · intro other apart
        rw [← same.read other apart]
        dsimp only
        rw [server]
        exact read_faulty_closeCall_ne samePath apart
      · intro other apart
        rw [← same.record other apart]
        dsimp only
        rw [recorded]
        exact record_ne apart

/-- What `close_file` transferred when it returned true. -/
structure CloseTransfer (path : Path) (client : Client)
    (state : Link × Transfers) (client' : Client)
    (state' : Link × Transfers) : Prop where
  result : Client.CloseResult path client client'
  elsewhere : TransfersAt path state state'
  here : (∃ info, client.cache path = some info ∧
      info.locallyModified = false) ∧ state' = state ∨
    ∃ bytes, client.disk.read path = some bytes ∧
      state'.2 path = some bytes ∧
      state'.1.server.disk.read path = some bytes

theorem closeTransfer_of_closeFile
    (closes : client.closeFile faulty.recording answers path state =
      ((client', state'), true)) :
    CloseTransfer path client state client' state' := by
  obtain ⟨result, info, cached, ⟨clean, rfl⟩ |
    ⟨modified, before, contents, response, status, kept, read, call, ok⟩⟩ :=
    Client.closeFile_eq_true (TransfersAt path state)
      (fun r contents kept _ => transfersAt_closeCall kept client contents)
      (transfersAt_refl path state) closes
  · exact ⟨result, transfersAt_refl path _, .inl ⟨⟨info, cached, clean⟩, rfl⟩⟩
  · have samePath : ∀ request ∈ client.uploadRequests path contents,
        request.path = path :=
      fun request member => (Client.of_mem_uploadRequests member).1
    have after := transfersAt_closeCall kept client contents
    rw [call] at after
    obtain ⟨answer, recorded⟩ := recording_closeCall_eq
      (client.uploadRequests_ne_nil path contents) samePath call
    refine ⟨result, after, .inr ⟨contents, read, ?_, ?_⟩⟩
    · rw [recorded, record_ok ok, Client.contents_uploadRequests]
    · rw [Server.read_closeHandler samePath
        (closeHandler_of_closeCall answer ok) ok, Client.contents_uploadRequests]

theorem transfersAt_openCall {before after : Link × Transfers}
    {responses : List FileResponse} {status : Status} {client : ClientId}
    (call : faulty.recording.openCall before ⟨path, client, []⟩ =
      (after, responses, status)) :
    (∀ other, after.1.server.disk.read other =
      before.1.server.disk.read other) ∧
      ∀ other, other ≠ path → after.2 other = before.2 other := by
  obtain ⟨answer, recorded⟩ := recording_openCall_eq call
  have unchanged := faulty_openCall_disk before.1 ⟨path, client, []⟩
  rw [answer] at unchanged
  constructor
  · intro other
    rw [unchanged]
  · intro other apart
    rw [recorded]
    exact record_ne apart

/-- What `open_file` transferred when it returned true. -/
structure OpenTransfer (path : Path) (client : Client)
    (state : Link × Transfers) (client' : Client)
    (state' : Link × Transfers) : Prop where
  elsewhere : Client.SameElsewhere path client client'
  read : ∀ other, state'.1.server.disk.read other =
    state.1.server.disk.read other
  record : ∀ other, other ≠ path → state'.2 other = state.2 other
  here : client'.cache = client.cache ∧ client'.disk = client.disk ∧
      state' = state ∨
    ∃ bytes, client'.disk.read path = some bytes ∧
      state'.2 path = some bytes ∧
      state'.1.server.disk.read path = some bytes

theorem openTransfer_of_openFile
    (opens : client.openFile faulty.recording answers path state =
      ((client', state'), true)) :
    OpenTransfer path client state client' state' := by
  unfold Client.openFile at opens
  split at opens
  · obtain ⟨before, responses, status, ⟨sameRead, sameRecord⟩, call, ok, copy⟩ :=
      Client.freshCopy_of_openUncached
        (fun other : Link × Transfers =>
          (∀ name, other.1.server.disk.read name =
            state.1.server.disk.read name) ∧
          ∀ name, name ≠ path → other.2 name = state.2 name)
        (fun other kept => by
          have step := transfersAt_openCall (rfl : faulty.recording.openCall other
            ⟨path, client.clientId, []⟩ = (_, _, _))
          exact ⟨fun name => (step.1 name).trans (kept.1 name),
            fun name apart => (step.2 name apart).trans (kept.2 name apart)⟩)
        ⟨fun _ => rfl, fun _ _ => rfl⟩ opens
    obtain ⟨answer, recorded⟩ := recording_openCall_eq call
    obtain ⟨sameRead', sameRecord'⟩ := transfersAt_openCall call
    obtain ⟨contents, stored, rfl⟩ :=
      Server.openHandler_ok (openHandler_of_openCall answer ok) ok
    rw [Client.downloaded_openResponses] at copy
    refine ⟨copy.elsewhere, fun other => (sameRead' other).trans (sameRead other),
      fun other apart =>
        (sameRecord' other apart).trans (sameRecord other apart),
      .inr ⟨contents, copy.read, ?_, ?_⟩⟩
    · rw [recorded, record_ok ok, Server.flatten_openResponses]
    · rw [sameRead' path]
      exact stored
  · obtain ⟨⟨rfl, rfl⟩, returned⟩ : (_ = client' ∧ state = state') ∧ _ = true := by
      simpa using opens
    have copy : Client.CachedCopy path client
        (client.openCached answers path).1 :=
      Client.cachedCopy_of_openCached (Prod.ext rfl returned)
    exact ⟨copy.elsewhere, fun _ => rfl, fun _ _ => rfl,
      .inl ⟨copy.cache, copy.disk, rfl⟩⟩

end Calls

/-! ## Steps -/

section Steps

variable {event : ClientEvent} {state next : Session}

theorem not_rename_of_succeeds {σ : Type*} {remote : Remote σ}
    {event : ClientEvent} {state : Client × σ}
    (succeeds : event.Succeeds remote state) :
    (∀ oldPath newPath answers,
      event ≠ .call (.renameFile oldPath newPath) answers) ∧
      event.Separates := by
  constructor
  · rintro oldPath newPath answers rfl
    exact succeeds
  · unfold ClientEvent.Separates
    split
    · exact succeeds.elim
    · trivial

theorem onNode_of_step {σ : Type*} {remote : Remote σ} {event : ClientEvent}
    {state next : Client × σ} (succeeds : event.Succeeds remote state)
    (inStep : ∀ path, (state.1.entry path).InStep)
    (onNode : ∀ path, (state.1.entry path).OnNode)
    (steps : event.step remote state = some next) (path : Path) :
    (next.1.entry path).OnNode := by
  obtain ⟨changed, change⟩ :=
    exists_entryChange_of_step (not_rename_of_succeeds succeeds).1 steps
  by_cases same : path = changed
  · rw [same]
    exact onNode_of_entryStep change.here (inStep changed) (onNode changed)
  · rw [change.elsewhere path same]
    exact onNode path

theorem changesUploaded_iff (sound : SessionSound state) :
    ChangesUploaded state ↔ CleanTransferred state := by
  refine ⟨ChangesUploaded.clean, fun clean => ⟨clean, ?_⟩⟩
  rintro path answers ⟨client', state'⟩ closes
  have transfer := closeTransfer_of_closeFile closes
  have sameDisk := transfer.result.disk
  dsimp only
  rw [sameDisk]
  obtain ⟨⟨info, cached, unmodified⟩, rfl⟩ | ⟨bytes, read, -, stored⟩ :=
    transfer.here
  · obtain ⟨bytes, read, transferred⟩ := clean path info cached unmodified
    exact ⟨bytes, read, read, sound.stored path bytes transferred⟩
  · exact ⟨bytes, read, read, stored⟩

theorem stored_of_step (sound : SessionSound state)
    (succeeds : event.Succeeds faulty.recording state)
    (steps : event.step faulty.recording state = some next)
    (path : Path) (bytes : Bytes) (transferred : next.2.2 path = some bytes) :
    next.2.1.server.disk.read path = some bytes := by
  obtain ⟨client, remoteState⟩ := state
  cases event with
  | notified note => exact succeeds.elim
  | call operation answers =>
      cases operation with
      | openFile opened =>
          obtain rfl := Option.some.inj steps
          have transfer := openTransfer_of_openFile (Prod.ext rfl succeeds)
          by_cases same : path = opened
          · subst same
            obtain ⟨-, -, unchanged⟩ | ⟨contents, -, isLast, stored⟩ :=
              transfer.here
            · rw [unchanged] at transferred ⊢
              exact sound.stored path bytes transferred
            · rwa [stored, ← isLast]
          · rw [transfer.record path same] at transferred
            rw [transfer.read path]
            exact sound.stored path bytes transferred
      | closeFile closed =>
          obtain rfl := Option.some.inj steps
          have transfer := closeTransfer_of_closeFile (Prod.ext rfl succeeds)
          by_cases same : path = closed
          · subst same
            obtain ⟨-, unchanged⟩ | ⟨contents, -, isLast, stored⟩ :=
              transfer.here
            · rw [unchanged] at transferred ⊢
              exact sound.stored path bytes transferred
            · rwa [stored, ← isLast]
          · rw [transfer.elsewhere.record path same] at transferred
            rw [transfer.elsewhere.read path same]
            exact sound.stored path bytes transferred
      | readFile other size offset =>
          obtain rfl := Option.some.inj steps
          exact sound.stored path bytes transferred
      | writeFile other data position =>
          obtain rfl := Option.some.inj steps
          exact sound.stored path bytes transferred
      | createFile other =>
          obtain rfl := Option.some.inj steps
          exact sound.stored path bytes transferred
      | truncateFile directory filename size =>
          obtain rfl := Option.some.inj steps
          exact sound.stored path bytes transferred
      | deleteFile other => exact succeeds.elim
      | getAttributes other => exact succeeds.elim
      | renameFile oldPath newPath => exact succeeds.elim

theorem sessionSound_of_step (sound : SessionSound state)
    (succeeds : event.Succeeds faulty.recording state)
    (steps : event.step faulty.recording state = some next) :
    SessionSound next where
  inStep := inStep_of_step (not_rename_of_succeeds succeeds).2 sound.inStep steps
  onNode := onNode_of_step succeeds sound.inStep sound.onNode steps
  stored := stored_of_step sound succeeds steps

variable {client client' : Client} {server server' : Link × Transfers}
variable {answers : LocalAnswers} {path : Path}

theorem clean_of_openTransfer (clean : CleanTransferred (client, server))
    (transfer : OpenTransfer path client server client' server') :
    CleanTransferred (client', server') := by
  intro other info cached unmodified
  by_cases same : other = path
  · subst same
    obtain ⟨cache, disk, rfl⟩ | ⟨bytes, read, transferred, -⟩ := transfer.here
    · dsimp only at cached ⊢
      rw [cache] at cached
      rw [disk]
      exact clean other info cached unmodified
    · exact ⟨bytes, read, transferred⟩
  · dsimp only at cached ⊢
    rw [transfer.elsewhere.cache other same] at cached
    rw [transfer.elsewhere.read other same, transfer.record other same]
    exact clean other info cached unmodified

theorem clean_of_closeTransfer (clean : CleanTransferred (client, server))
    (transfer : CloseTransfer path client server client' server') :
    CleanTransferred (client', server') := by
  intro other info cached unmodified
  dsimp only at cached ⊢
  rw [transfer.result.disk]
  by_cases same : other = path
  · subst same
    obtain ⟨⟨before, cachedBefore, wasClean⟩, rfl⟩ |
      ⟨bytes, read, transferred, -⟩ := transfer.here
    · exact clean other before cachedBefore wasClean
    · exact ⟨bytes, read, transferred⟩
  · rw [transfer.result.elsewhere.cache other same] at cached
    rw [transfer.elsewhere.record other same]
    exact clean other info cached unmodified

theorem clean_of_writeResult {data : Bytes} {position now : Int}
    (onNode : ∀ path streams, client.openedFiles path = some streams →
      client.disk.node path = some streams.writeStream.node)
    (clean : CleanTransferred (client, server))
    (result : Client.WriteResult path data position now client client') :
    CleanTransferred (client', server) := by
  intro other info cached unmodified
  obtain ⟨timestamp, cache⟩ := result.cache
  obtain ⟨streams, opened, disk⟩ := result.disk
  dsimp only at cached ⊢
  rw [cache] at cached
  by_cases same : other = path
  · subst same
    obtain rfl : _ = info := Option.some.inj (by simpa using cached)
    simp at unmodified
  · rw [Function.update_of_ne same] at cached
    rw [disk, FileStore.read_writeAt_ne _ _ (onNode path streams opened) same]
    exact clean other info cached unmodified

theorem clean_of_createResult (clean : CleanTransferred (client, server))
    (result : Client.CreateResult path client client') :
    CleanTransferred (client', server) := by
  intro other info cached unmodified
  dsimp only at cached ⊢
  by_cases same : other = path
  · subst same
    obtain rfl := Option.some.inj (result.cache.symm.trans cached)
    simp at unmodified
  · rw [result.elsewhere.cache other same] at cached
    rw [result.elsewhere.read other same]
    exact clean other info cached unmodified

theorem clean_of_readFile (clean : CleanTransferred (client, server))
    (size : Nat) (offset : Int) :
    CleanTransferred ((client.readFile path size offset).1, server) := by
  rcases Client.readFile_eq client path size offset with eq | eq
  · rw [eq]
    exact clean
  · rw [eq]
    exact clean

/-- A truncation keeps the clean copies exactly when it leaves the length of a
clean copy as it is. -/
theorem clean_truncateFile_iff {directory filename : Path} {size : Int}
    (clean : CleanTransferred (client, server))
    (truncates : client.truncateFile answers directory filename size =
      (client', true)) :
    CleanTransferred (client', server) ↔
      ∀ info contents, client.cache (directory ++ filename) = some info →
        info.locallyModified = false →
        client.disk.read (directory ++ filename) = some contents →
        (contents.length : Int) = size := by
  unfold Client.truncateFile at truncates
  split at truncates
  · next i refers _ =>
      split at truncates
      · simp at truncates
      next nonneg =>
      obtain ⟨rfl, -⟩ := Prod.mk.inj truncates
      constructor
      · intro clean' info contents cached unmodified read
        obtain ⟨bytes, before, transferred⟩ := clean _ info cached unmodified
        obtain ⟨bytes', after, transferred'⟩ := clean' _ info cached unmodified
        obtain rfl := Option.some.inj (transferred.symm.trans transferred')
        obtain rfl := Option.some.inj (before.symm.trans read)
        dsimp only at after
        rw [FileStore.read_resize _ refers read] at after
        have sameLength := congrArg List.length (Option.some.inj after)
        simp only [List.length_append, List.length_take,
          List.length_replicate] at sameLength
        omega
      · intro keepsLength other info cached unmodified
        dsimp only at cached ⊢
        obtain ⟨bytes, read, transferred⟩ := clean other info cached unmodified
        by_cases same : other = directory ++ filename
        · subst same
          have isLength := keepsLength info bytes cached unmodified read
          have fits : size.toNat = bytes.length := by omega
          refine ⟨bytes, ?_, transferred⟩
          rw [FileStore.read_resize _ refers read, fits]
          simp
        · rw [FileStore.read_resize_ne _ refers same]
          exact ⟨bytes, read, transferred⟩
  · simp at truncates

theorem clean_step_iff (sound : SessionSound state)
    (clean : CleanTransferred state)
    (succeeds : event.Succeeds faulty.recording state)
    (steps : event.step faulty.recording state = some next) :
    CleanTransferred next ↔ event.TruncatesModified state := by
  obtain ⟨client, server⟩ := state
  cases event with
  | notified note => exact succeeds.elim
  | call operation answers =>
      cases operation with
      | openFile path =>
          obtain rfl := Option.some.inj steps
          have transfer := openTransfer_of_openFile (Prod.ext rfl succeeds)
          exact ⟨fun _ => trivial, fun _ => clean_of_openTransfer clean transfer⟩
      | readFile path size offset =>
          obtain rfl := Option.some.inj steps
          exact ⟨fun _ => trivial, fun _ => clean_of_readFile clean size offset⟩
      | writeFile path data position =>
          obtain rfl := Option.some.inj steps
          have result := Client.writeResult_of_writeFile (Prod.ext rfl succeeds)
          exact ⟨fun _ => trivial,
            fun _ => clean_of_writeResult sound.onNode clean result⟩
      | createFile path =>
          obtain rfl := Option.some.inj steps
          have result := Client.createResult_of_createFile
            (Prod.ext rfl succeeds)
          exact ⟨fun _ => trivial, fun _ => clean_of_createResult clean result⟩
      | closeFile path =>
          obtain rfl := Option.some.inj steps
          have transfer := closeTransfer_of_closeFile (Prod.ext rfl succeeds)
          exact ⟨fun _ => trivial, fun _ => clean_of_closeTransfer clean transfer⟩
      | truncateFile directory filename size =>
          obtain rfl := Option.some.inj steps
          exact clean_truncateFile_iff clean (Prod.ext rfl succeeds)
      | deleteFile path => exact succeeds.elim
      | getAttributes path => exact succeeds.elim
      | renameFile oldPath newPath => exact succeeds.elim

end Steps

/-- Whatever RPCs fail on the way to calls that return true: in every state of
a run, the copies that are not marked as modified hold what was last
transferred for them, and closing a file leaves its local contents on the
server, if and only if every truncation leaves the length of a clean copy as it
is. -/
theorem changesUploaded_throughout_iff {client : ClientId} {link : Link}
    {events : List ClientEvent} {final : Session}
    (succeeds : Along (ClientEvent.step faulty.recording)
      (ClientEvent.Succeeds faulty.recording) events
      (Client.launch client, link, fun _ => none))
    (reaches : run (ClientEvent.step faulty.recording) events
      (Client.launch client, link, fun _ => none) = some final) :
    Throughout (ClientEvent.step faulty.recording) ChangesUploaded events
        (Client.launch client, link, fun _ => none) ↔
      Along (ClientEvent.step faulty.recording) ClientEvent.TruncatesModified
        events (Client.launch client, link, fun _ => none) := by
  have initially : SessionSound (Client.launch client, link, fun _ => none) := by
    constructor
    · exact inStep_launch client
    · simp [Client.launch]
    · simp
  apply throughout_iff_along SessionSound _ _ reaches succeeds initially
  · rw [changesUploaded_iff initially]
    intro path info cached
    simp [Client.launch] at cached
  · intro event state next succeeds sound steps
    exact sessionSound_of_step sound succeeds steps
  · intro event state next succeeds sound uploaded steps
    rw [changesUploaded_iff (sessionSound_of_step sound succeeds steps)]
    exact clean_step_iff sound uploaded.clean succeeds steps

/-- A server with a file of one byte; the first two calls to it fail. -/
private def faultyServer : Link :=
  ⟨Server.launch "/srv" (FileStore.empty.replace "/srv/a" [[97]] 0) 0,
    [some ⟨0, .success, Status.initial, rfl⟩,
      some ⟨0, .success, Status.initial, rfl⟩]⟩

/-- A file is opened, written, cut and closed. -/
private def writtenThenCut : List ClientEvent :=
  [.call (.openFile "/srv/a") (.success 1),
    .call (.writeFile "/srv/a" [98] 1) (.success 2),
    .call (.truncateFile "/srv/" "a" 1) (.success 3),
    .call (.closeFile "/srv/a") (.success 4)]

/-- A file is opened and cut. -/
private def openedThenCut : List ClientEvent :=
  [.call (.openFile "/srv/a") (.success 1),
    .call (.truncateFile "/srv/" "a" 0) (.success 2)]

theorem changesUploaded_throughout_written :
    Throughout (ClientEvent.step faulty.recording) ChangesUploaded
      writtenThenCut (Client.launch "writer", faultyServer, fun _ => none) := by
  have succeeds : Along (ClientEvent.step faulty.recording)
      (ClientEvent.Succeeds faulty.recording) writtenThenCut
      (Client.launch "writer", faultyServer, fun _ => none) := by
    refine ⟨rfl, fun _ opened => ?_⟩
    obtain rfl := Option.some.inj opened
    refine ⟨rfl, fun _ written => ?_⟩
    obtain rfl := Option.some.inj written
    refine ⟨rfl, fun _ cut => ?_⟩
    obtain rfl := Option.some.inj cut
    exact ⟨rfl, fun _ _ => trivial⟩
  apply (changesUploaded_throughout_iff succeeds rfl).mpr
  refine ⟨trivial, fun _ opened => ?_⟩
  obtain rfl := Option.some.inj opened
  refine ⟨trivial, fun _ written => ?_⟩
  obtain rfl := Option.some.inj written
  refine ⟨?_, fun _ _ => ⟨trivial, fun _ _ => trivial⟩⟩
  intro info contents cached unmodified
  obtain rfl : ⟨true, 0⟩ = info := Option.some.inj cached
  simp at unmodified

/-- All calls return true, but the copy is cut without being marked: closing it
returns true and leaves the old contents on the server. -/
theorem truncated_copy_not_uploaded :
    Along (ClientEvent.step faulty.recording)
      (ClientEvent.Succeeds faulty.recording) openedThenCut
      (Client.launch "writer", faultyServer, fun _ => none) ∧
    ∃ final : Session,
      run (ClientEvent.step faulty.recording) openedThenCut
        (Client.launch "writer", faultyServer, fun _ => none) = some final ∧
      (∃ info, final.1.cache "/srv/a" = some info ∧
        info.locallyModified = false) ∧
      final.2.2 "/srv/a" = some [97] ∧
      final.1.disk.read "/srv/a" = some [] ∧
      (final.1.closeFile faulty.recording (.success 3) "/srv/a" final.2).2 =
        true ∧
      (final.1.closeFile faulty.recording (.success 3) "/srv/a"
        final.2).1.2.1.server.disk.read "/srv/a" = some [97] := by
  constructor
  · refine ⟨rfl, fun _ opened => ?_⟩
    obtain rfl := Option.some.inj opened
    exact ⟨rfl, fun _ _ => trivial⟩
  · exact ⟨_, rfl, ⟨_, rfl, rfl⟩, rfl, rfl, rfl, rfl⟩

end DistributedFilesystem
