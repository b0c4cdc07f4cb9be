import DistributedFilesystem.DirectCalls
import DistributedFilesystem.FuseCallbacks
import DistributedFilesystem.LocalCopies

/-!
# Several handles on one file

All handles of a file share the streams in `opened_files`: the first `afs_open`
makes them, and the first `afs_release` takes them away from all handles.  Once
a read came to the end of the file, its fail bit stays set as long as the
streams are shared.  These are the only causes for which a read or a write of an
open handle is refused, apart from sizes and offsets that the conversions make
negative.
-/

namespace DistributedFilesystem

open TransitionRuns

/-- What became of the streams of a file. -/
inductive StreamHistory where
  /-- Released by a handle, or not opened yet. -/
  | closed
  /-- No read came to the end of the file since they were opened. -/
  | intact
  /-- A read came to the end of the file. -/
  | spent
deriving DecidableEq

/-- A handle opens the file. -/
def StreamHistory.opened : StreamHistory → StreamHistory
  | .closed => .intact
  | history => history

/-- A read returns fewer bytes than it was asked for. -/
def StreamHistory.shortened : StreamHistory → StreamHistory
  | .intact => .spent
  | history => history

/-- How far a handle has come; `finished` is also what a handle is that could
not be opened. -/
inductive HandleState where
  | unopened
  | opened (path : String)
  | finished
deriving DecidableEq

/-- A mount with its server, its handles, and what became of the streams of
each file. -/
structure MountState (Handle : Type*) where
  client : Client
  server : Server
  handles : Handle → HandleState
  history : Path → StreamHistory

/-- A call on a handle, and the local clock where the call looks at it. -/
inductive HandleCall (Handle : Type*) where
  | afsOpen (handle : Handle) (path : String) (truncate : Bool) (now : Int)
  | afsRead (handle : Handle) (size : Nat) (offset : Int)
  | afsWrite (handle : Handle) (data : Bytes) (offset : Int) (now : Int)
  | afsRelease (handle : Handle) (now : Int)

/-- A mount without handles. -/
def MountState.start (Handle : Type*) (clientId : ClientId) (server : Server) :
    MountState Handle where
  client := .launch clientId
  server := server
  handles _ := .unopened
  history _ := .closed

section Steps

variable {Handle : Type*} [DecidableEq Handle] (mount : Mount)

/-- The read returned fewer bytes than it was asked for. -/
def isShort (size : Nat) : Option (Bytes × Int) → Bool
  | some (buffer, returned) =>
      decide (0 ≤ returned ∧ buffer.length < (intOf size).toNat)
  | none => false

/-- A handle is opened once, used while it is open, and released once; no other
call is made.  The server is reached and no local operation fails. -/
def HandleCall.step :
    HandleCall Handle → MountState Handle → Option (MountState Handle)
  | .afsOpen handle path truncate now, m =>
      let key := mount.callbackKey path
      match m.handles handle with
      | .unopened =>
          let result := mount.afsOpen .direct (.success now) path truncate
            m.client m.server
          some {
            client := result.1.1
            server := result.1.2
            handles := Function.update m.handles handle
              (if result.2 = 0 then .opened path else .finished)
            history :=
              if result.2 = 0 then
                Function.update m.history key (m.history key).opened
              else m.history }
      | _ => none
  | .afsRead handle size offset, m =>
      match m.handles handle with
      | .opened path =>
          let key := mount.callbackKey path
          let result := mount.afsRead path size offset m.client
          some { m with
            client := result.1
            history :=
              if isShort size result.2 then
                Function.update m.history key (m.history key).shortened
              else m.history }
      | _ => none
  | .afsWrite handle data offset now, m =>
      match m.handles handle with
      | .opened path =>
          let result := mount.afsWrite (.success now) path data offset m.client
          some { m with client := result.1 }
      | _ => none
  | .afsRelease handle now, m =>
      match m.handles handle with
      | .opened path =>
          let key := mount.callbackKey path
          let result := mount.afsRelease .direct (.success now) path
            m.client m.server
          some {
            client := result.1
            server := result.2
            handles := Function.update m.handles handle .finished
            history := Function.update m.history key .closed }
      | _ => none

/-- If the call is a read or a write of an open handle, then it does not return
an error. -/
def HandleCall.Accepted : HandleCall Handle → MountState Handle → Prop
  | .afsRead handle size offset, m => ∀ path, m.handles handle = .opened path →
      ∃ buffer returned, 0 ≤ returned ∧
        (mount.afsRead path size offset m.client).2 = some (buffer, returned)
  | .afsWrite handle data offset now, m => ∀ path,
      m.handles handle = .opened path →
        0 ≤ (mount.afsWrite (.success now) path data offset m.client).2
  | _, _ => True

/-- If the call is a read or a write of an open handle, then no handle has
released the file since it was last opened, a read finds that no earlier one
came to the end of the file, and the conversions give no negative number. -/
def HandleCall.Spared : HandleCall Handle → MountState Handle → Prop
  | .afsRead handle size offset, m => ∀ path, m.handles handle = .opened path →
      m.history (mount.callbackKey path) = .intact ∧ 0 ≤ intOf size ∧
        0 ≤ intOf offset
  | .afsWrite handle data offset _, m => ∀ path,
      m.handles handle = .opened path →
        m.history (mount.callbackKey path) ≠ .closed ∧
          0 ≤ intOf data.length ∧ 0 ≤ offset
  | _, _ => True

end Steps

/-- The streams of the path can be used, the read stream unless it failed. -/
structure CacheEntry.Streaming (readFailed : Bool) (entry : CacheEntry) :
    Prop where
  cached : entry.info.isSome
  hasMutex : entry.hasMutex = true
  streams : ∃ i, entry.node = some i ∧
    entry.streams =
      some ⟨{ FileStream.fresh i with failed := readFailed }, .fresh i⟩

/-- The entries of a path are what became of its streams. -/
def StreamHistory.Tracks : StreamHistory → CacheEntry → Prop
  | .closed, entry => entry.streams = none
  | .intact, entry => entry.Streaming false
  | .spent, entry => entry.Streaming true

section Tracking

variable {history : StreamHistory} {path : Path} {client : Client}
variable {s : Server} {now : Int} {entry : CacheEntry}

theorem streaming_of_tracks (tracks : history.Tracks entry)
    (notClosed : history ≠ .closed) :
    entry.Streaming (decide (history = .spent)) := by
  cases history with
  | closed => exact absurd rfl notClosed
  | intact => exact tracks
  | spent => exact tracks

theorem closed_of_tracks (tracks : history.Tracks entry)
    (noStreams : entry.streams = none) : history = .closed := by
  by_contra notClosed
  obtain ⟨i, -, streams⟩ := (streaming_of_tracks tracks notClosed).streams
  simp [noStreams] at streams

theorem usableStreams_of_streaming {failed : Bool}
    (streaming : (client.entry path).Streaming failed) :
    ∃ i, (client.entry path).node = some i ∧
      client.usableStreams path =
        some ⟨{ FileStream.fresh i with failed := failed }, .fresh i⟩ := by
  obtain ⟨i, refers, streams⟩ := streaming.streams
  refine ⟨i, refers, Client.usableStreams_eq_some.mpr ⟨?_, streams, ?_⟩⟩
  · exact streaming.cached
  · simpa [Client.entry] using streaming.hasMutex

/-- A read through a stream that did not fail returns what is there, and the
stream fails if this is less than what was asked for. -/
theorem readFile_of_streaming {failed : Bool}
    (streaming : (client.entry path).Streaming failed) (size : Nat)
    (offset : Int) :
    (client.readFile path size offset).2 = none ∧ (failed = true ∨ offset < 0) ∨
      ∃ bytes, (client.readFile path size offset).2 = some bytes ∧
        failed = false ∧ 0 ≤ offset ∧
          ((client.readFile path size offset).1.entry path).Streaming
            (decide (bytes.length < size)) := by
  obtain ⟨i, refers, usable⟩ := usableStreams_of_streaming streaming
  unfold Client.readFile
  simp only [usable]
  split
  · next refused =>
      left
      exact ⟨rfl, by simpa [FileStream.fresh] using refused⟩
  · next accepted =>
      right
      simp only [FileStream.fresh, Bool.true_eq_false, false_or, not_or,
        Bool.not_eq_true, not_lt] at accepted
      obtain ⟨notFailed, nonneg⟩ := accepted
      split
      · next short =>
          refine ⟨_, rfl, notFailed, nonneg, ?_⟩
          rw [decide_eq_true short, Client.entry_setStreams]
          obtain ⟨j, refers', streams⟩ := streaming.streams
          constructor
          case cached => exact streaming.cached
          case hasMutex => exact streaming.hasMutex
          case streams => exact ⟨j, refers', by simp [streams]⟩
      · next long =>
          refine ⟨_, rfl, notFailed, nonneg, ?_⟩
          rw [decide_eq_false long, ← notFailed]
          exact streaming

/-- A write is accepted if its position is not negative, and leaves the streams
as they are. -/
theorem writeFile_of_streaming {failed : Bool} (now : Int)
    (streaming : (client.entry path).Streaming failed) (data : Bytes)
    (offset : Int) :
    (client.writeFile (.success now) path data offset).2 = decide (0 ≤ offset) ∧
      ((client.writeFile (.success now) path data offset).1.entry path).Streaming
        failed := by
  obtain ⟨i, refers, usable⟩ := usableStreams_of_streaming streaming
  obtain ⟨j, refers', streams⟩ := streaming.streams
  unfold Client.writeFile
  simp only [usable]
  split
  · next refused =>
      simp only [FileStream.fresh, Bool.false_eq_true, Bool.true_eq_false,
        false_or] at refused
      refine ⟨by simpa using refused, ?_⟩
      rw [Client.entry_setStreams]
      constructor
      case cached => exact streaming.cached
      case hasMutex => exact streaming.hasMutex
      case streams => exact ⟨j, refers', by simp [streams, FileStream.fresh]⟩
  · next accepted =>
      simp only [FileStream.fresh, Bool.false_eq_true, Bool.true_eq_false,
        false_or, not_lt] at accepted
      refine ⟨by simpa [LocalAnswers.success] using accepted, ?_⟩
      constructor
      case cached =>
        simp [LocalAnswers.success, Client.entry, Client.syncWrite,
          Client.updateAttr, Client.markModified, Client.enterCache]
      case hasMutex => exact streaming.hasMutex
      case streams =>
        refine ⟨j, ?_, streams⟩
        simpa [LocalAnswers.success, Client.entry, Client.syncWrite,
          Client.updateAttr, Client.markModified, Client.enterCache] using refers'

/-- Opening a file makes streams, or uses those that are there. -/
theorem tracks_openFile (now : Int) (s : Server)
    (tracks : history.Tracks (client.entry path)) :
    (if (client.openFile .direct (.success now) path s).2 then history.opened
        else history).Tracks
      ((client.openFile .direct (.success now) path s).1.1.entry path) := by
  unfold Client.openFile
  cases cached : client.cache path with
  | none =>
      have isClosed : history = .closed := by
        by_contra notClosed
        have streaming := streaming_of_tracks tracks notClosed
        simpa [Client.entry, cached] using streaming.cached
      subst isClosed
      cases opens : client.openUncached .direct (.success now) path s with
      | mk state opened =>
          obtain ⟨client', s'⟩ := state
          cases opened with
          | true =>
              obtain ⟨_, _, _, -, -, -, copy⟩ :=
                Client.freshCopy_of_openUncached (fun _ => True)
                  (fun _ _ => trivial) trivial opens
              obtain ⟨timestamp, cache⟩ := copy.cache
              obtain ⟨i, refers, streams⟩ := copy.justOpened.streams
              constructor
              case cached => simp [Client.entry, cache]
              case hasMutex => simp [Client.entry, copy.justOpened.mutex]
              case streams => exact ⟨i, refers, streams⟩
          | false =>
              have noCopy := Client.noCopy_of_openUncached cached opens
              have sameStreams : (client'.entry path).streams =
                  (client.entry path).streams :=
                congrFun noCopy.openedFiles path
              exact sameStreams.trans tracks
  | some info =>
      unfold Client.openCached
      cases opened : client.openedFiles path with
      | some streams =>
          have notClosed : history ≠ .closed := by
            rintro rfl
            simp [StreamHistory.Tracks, Client.entry, opened] at tracks
          have same : history.opened = history := by
            cases history with
            | closed => exact absurd rfl notClosed
            | intact => rfl
            | spent => rfl
          simpa [same] using tracks
      | none =>
          obtain rfl := closed_of_tracks tracks opened
          dsimp only
          split
          · next streams opens =>
              have justOpened := Client.justOpened_insertOpened opens
              obtain ⟨i, refers, isFresh⟩ := justOpened.streams
              constructor
              case cached =>
                simp [Client.entry, Client.insertOpened, cached]
              case hasMutex => simp [Client.entry, justOpened.mutex]
              case streams => exact ⟨i, refers, isFresh⟩
          · exact tracks

/-- The streams of a file that can be used are closed, after an upload if the
copy was modified. -/
theorem closeFile_of_streaming {failed : Bool} (now : Int) (s : Server)
    (streaming : (client.entry path).Streaming failed) :
    (client.closeFile .direct (.success now) path s).2 = true := by
  obtain ⟨i, refers, streams⟩ := streaming.streams
  obtain ⟨info, cached⟩ := Option.isSome_iff_exists.mp streaming.cached
  have opened : client.openedFiles path =
      some ⟨{ FileStream.fresh i with failed := failed }, .fresh i⟩ := streams
  have hasMutex : path ∈ client.fileMutexes := by
    simpa [Client.entry] using streaming.hasMutex
  have inCache : client.cache path = some info := cached
  have present : client.disk.read path = some (client.disk.nodes i).contents := by
    have node : client.disk.node path = some i := refers
    simp [FileStore.read, node]
  unfold Client.closeFile
  simp only [opened, hasMutex, not_true_eq_false, if_false, inCache]
  split
  · obtain ⟨after, status, uploads, ok⟩ := Client.isOk_of_retry_uploadAttempt
      (client.uploadRequests_ne_nil path (client.disk.nodes i).contents)
      acceptsUploads_direct (s, ⟨[], 0, 0⟩)
    have begins : ∃ flushed, client.beginUpload (.success now) path
        ⟨{ FileStream.fresh i with failed := failed }, .fresh i⟩ =
          (flushed, some
            (client.uploadRequests path (client.disk.nodes i).contents)) := by
      simp [Client.beginUpload, LocalAnswers.success, FileStream.fresh,
        Client.setStreams, present, Client.uploadRequests]
    obtain ⟨flushed, begins⟩ := begins
    simp [Client.closeModified, begins, uploads, ok]
  · rfl

/-- Closing a file takes its streams away. -/
theorem tracks_closeFile (tracks : history.Tracks (client.entry path)) :
    StreamHistory.closed.Tracks
      ((client.closeFile .direct (.success now) path s).1.1.entry path) := by
  by_cases isClosed : history = .closed
  · subst isClosed
    have noStreams : client.openedFiles path = none := tracks
    unfold Client.closeFile
    simp only [noStreams]
    exact noStreams
  · have streaming := streaming_of_tracks tracks isClosed
    have returned := closeFile_of_streaming now s streaming
    cases closes : client.closeFile .direct (.success now) path s with
    | mk state result =>
        obtain ⟨client', s'⟩ := state
        rw [closes] at returned
        subst returned
        exact (Client.closeFile_direct_eq_true closes).1.openedFiles

theorem usableStreams_of_closed
    (tracks : StreamHistory.closed.Tracks (client.entry path)) :
    client.usableStreams path = none := by
  have noStreams : client.openedFiles path = none := tracks
  rw [Option.eq_none_iff_forall_ne_some]
  intro streams usable
  obtain ⟨-, opened, -⟩ := Client.usableStreams_eq_some.mp usable
  simp [noStreams] at opened

end Tracking

section Callbacks

variable {history : StreamHistory} {mount : Mount} {path : String}
variable {client : Client} {s : Server} {now : Int}

/-- What `afs_open` leaves of the client before it opens the file. -/
theorem afsOpen_eq (truncate : Bool) :
    mount.afsOpen .direct (.success now) path truncate client s =
        ((client, s), -noEntry) ∨
      ∃ client' : Client, (∀ other, client'.entry other = client.entry other) ∧
        mount.afsOpen .direct (.success now) path truncate client s =
          ((client'.openFile .direct (.success now)
              (mount.callbackKey path) s).1,
            if (client'.openFile .direct (.success now)
              (mount.callbackKey path) s).2 then 0 else -accessDenied) := by
  unfold Mount.afsOpen
  cases truncate with
  | false => exact .inr ⟨client, fun _ => rfl, rfl⟩
  | true =>
      have same : ∀ other, (client.truncateFile (.success now)
          (mount.resolveServerPath (callbackDirectory path))
          (callbackFilename path) 0).1.entry other = client.entry other :=
        fun other => Client.entry_truncateFile _ _ 0
      cases truncates : client.truncateFile (.success now)
          (mount.resolveServerPath (callbackDirectory path))
          (callbackFilename path) 0 with
      | mk client' truncated =>
          rw [truncates] at same
          cases truncated with
          | true => exact .inr ⟨client', same, by simp⟩
          | false =>
              left
              have unchanged : client' = client := by
                unfold Client.truncateFile at truncates
                split at truncates
                · simp at truncates
                · exact (Prod.mk.inj truncates).1.symm
              simp [unchanged]

theorem entry_afsOpen_ne {other : Path} (apart : other ≠ mount.callbackKey path)
    (truncate : Bool) :
    (mount.afsOpen .direct (.success now) path truncate client s).1.1.entry
      other = client.entry other := by
  rcases afsOpen_eq truncate with fails | ⟨client', same, opens⟩
  · rw [fails]
  · have change : Client.EntryChange True (mount.callbackKey path) client'
        (client'.openFile .direct (.success now) (mount.callbackKey path)
          s).1.1 := Client.entryChange_openFile
    rw [opens]
    exact (change.elsewhere other apart).trans (same other)

theorem tracks_afsOpen (now : Int) (s : Server)
    (tracks : history.Tracks (client.entry (mount.callbackKey path)))
    (truncate : Bool) :
    (if (mount.afsOpen .direct (.success now) path truncate client s).2 = 0 then
        history.opened else history).Tracks
      ((mount.afsOpen .direct (.success now) path truncate client s).1.1.entry
        (mount.callbackKey path)) := by
  rcases afsOpen_eq truncate with fails | ⟨client', same, opens⟩
  · rw [fails]
    simpa [noEntry] using tracks
  · rw [← same] at tracks
    have after := tracks_openFile now s tracks
    rw [opens]
    cases opened : (client'.openFile .direct (.success now)
        (mount.callbackKey path) s).2 with
    | true => simpa [opened] using after
    | false => simpa [opened, accessDenied] using after

/-- A read is accepted exactly when the streams are there, no earlier read came
to the end of the file, and its size and offset are not negative. -/
theorem afsRead_accepted_iff
    (tracks : history.Tracks (client.entry (mount.callbackKey path)))
    (size : Nat) (offset : Int) :
    (∃ buffer returned, 0 ≤ returned ∧
        (mount.afsRead path size offset client).2 = some (buffer, returned)) ↔
      history = .intact ∧ 0 ≤ intOf size ∧ 0 ≤ intOf offset := by
  by_cases isClosed : history = .closed
  · subst isClosed
    have unusable := usableStreams_of_closed tracks
    have refuses : client.readFile (mount.callbackKey path)
        (intOf size).toNat (intOf offset) = (client, none) := by
      unfold Client.readFile
      simp only [unusable]
    constructor
    · rintro ⟨buffer, returned, nonneg, reads⟩
      simp only [Mount.afsRead, refuses] at reads
      obtain ⟨-, rfl⟩ := Prod.mk.inj (Option.some.inj reads)
      simp [accessDenied] at nonneg
    · rintro ⟨isIntact, -⟩
      cases isIntact
  · have streaming := streaming_of_tracks tracks isClosed
    cases reads : client.readFile (mount.callbackKey path)
        (intOf size).toNat (intOf offset) with
    | mk client' result =>
        have outcome := readFile_of_streaming streaming (intOf size).toNat
          (intOf offset)
        rw [reads] at outcome
        rcases outcome with ⟨rfl, refused⟩ | ⟨bytes, rfl, notSpent, nonneg, -⟩
        · constructor
          · rintro ⟨buffer, returned, nonneg, reads'⟩
            simp only [Mount.afsRead, reads] at reads'
            obtain ⟨-, rfl⟩ := Prod.mk.inj (Option.some.inj reads')
            simp [accessDenied] at nonneg
          · rintro ⟨rfl, -, nonneg⟩
            rcases refused with isSpent | negative
            · simp at isSpent
            · omega
        · have isIntact : history = .intact := by
            cases history with
            | closed => exact absurd rfl isClosed
            | intact => rfl
            | spent => simp at notSpent
          simp only [Mount.afsRead, reads]
          by_cases negative : intOf size < 0
          · simp [negative]
          · simp [negative, isIntact, nonneg]
            omega

theorem entry_afsRelease_ne {other : Path} (now : Int) (s : Server)
    (apart : other ≠ mount.callbackKey path) :
    (mount.afsRelease .direct (.success now) path client s).1.entry other =
      client.entry other := by
  rw [Mount.afsRelease_eq]
  have mayRefuse : client.Uploads (.success now) (mount.callbackKey path) →
      (LocalAnswers.success now).reopen = false ∨
        ¬ Remote.direct.AcceptsUploads → True :=
    fun _ _ => trivial
  exact (Client.entryChange_closeFile mayRefuse).elsewhere other apart

theorem tracks_afsRelease (now : Int) (s : Server)
    (tracks : history.Tracks (client.entry (mount.callbackKey path))) :
    StreamHistory.closed.Tracks
      ((mount.afsRelease .direct (.success now) path client s).1.entry
        (mount.callbackKey path)) := by
  rw [Mount.afsRelease_eq]
  exact tracks_closeFile tracks

theorem entry_afsRead_ne {other : Path} (apart : other ≠ mount.callbackKey path)
    (size : Nat) (offset : Int) :
    (mount.afsRead path size offset client).1.entry other =
      client.entry other := by
  have change : Client.EntryChange True (mount.callbackKey path) client
      (client.readFile (mount.callbackKey path) (intOf size).toNat
        (intOf offset)).1 := Client.entryChange_readFile _ _
  have same := change.elsewhere other apart
  unfold Mount.afsRead
  split
  · next client' buffer reads =>
      rw [reads] at same
      split
      · rfl
      · exact same
  · next client' reads =>
      rw [reads] at same
      exact same

theorem tracks_afsRead
    (tracks : StreamHistory.intact.Tracks
      (client.entry (mount.callbackKey path)))
    {size : Nat} {offset : Int} (sizeNonneg : 0 ≤ intOf size)
    (offsetNonneg : 0 ≤ intOf offset) :
    (if isShort size (mount.afsRead path size offset client).2 then
        StreamHistory.spent else .intact).Tracks
      ((mount.afsRead path size offset client).1.entry
        (mount.callbackKey path)) := by
  cases reads : client.readFile (mount.callbackKey path)
      (intOf size).toNat (intOf offset) with
  | mk client' result =>
      have outcome := readFile_of_streaming tracks (intOf size).toNat
        (intOf offset)
      rw [reads] at outcome
      rcases outcome with ⟨-, isSpent | negative⟩ | ⟨bytes, rfl, -, -, streaming⟩
      · cases isSpent
      · omega
      · have notNegative : ¬ intOf size < 0 := by omega
        simp only [Mount.afsRead, reads, notNegative, if_false, isShort,
          Int.natCast_nonneg, true_and]
        cases short : decide (bytes.length < (intOf size).toNat) with
        | true =>
            rw [short] at streaming
            exact streaming
        | false =>
            rw [short] at streaming
            exact streaming

/-- A write is accepted exactly when the streams are there and its size and
offset are not negative. -/
theorem afsWrite_accepted_iff
    (tracks : history.Tracks (client.entry (mount.callbackKey path)))
    (data : Bytes) (offset : Int) :
    0 ≤ (mount.afsWrite (.success now) path data offset client).2 ↔
      history ≠ .closed ∧ 0 ≤ intOf data.length ∧ 0 ≤ offset := by
  by_cases isClosed : history = .closed
  · subst isClosed
    have unusable := usableStreams_of_closed tracks
    simp [Mount.afsWrite, Client.writeFile, unusable, accessDenied]
  · have streaming := streaming_of_tracks tracks isClosed
    have written := (writeFile_of_streaming now streaming data offset).1
    by_cases nonneg : 0 ≤ offset
    · simp [Mount.afsWrite, written, nonneg, isClosed]
    · simp [Mount.afsWrite, written, nonneg, accessDenied]

theorem tracks_afsWrite
    (tracks : history.Tracks (client.entry (mount.callbackKey path)))
    (data : Bytes) (offset : Int) :
    history.Tracks ((mount.afsWrite (.success now) path data offset client).1.entry
      (mount.callbackKey path)) := by
  cases history with
  | closed =>
      have unusable := usableStreams_of_closed tracks
      simpa [Mount.afsWrite, Client.writeFile, unusable] using tracks
  | intact => exact (writeFile_of_streaming now tracks data offset).2
  | spent => exact (writeFile_of_streaming now tracks data offset).2

end Callbacks

section Runs

variable {Handle : Type*} {mount : Mount}
variable {call : HandleCall Handle} {m next : MountState Handle}

/-- The entries of every path are what became of its streams. -/
def MountState.Tracked (m : MountState Handle) : Prop :=
  ∀ path, (m.history path).Tracks (m.client.entry path)

theorem tracked_of_change (key : Path)
    (elsewhere : ∀ other, other ≠ key →
      next.client.entry other = m.client.entry other)
    (sameHistory : ∀ other, other ≠ key → next.history other = m.history other)
    (here : (next.history key).Tracks (next.client.entry key))
    (tracked : m.Tracked) : next.Tracked := by
  intro path
  by_cases isKey : path = key
  · rw [isKey]
    exact here
  · rw [elsewhere path isKey, sameHistory path isKey]
    exact tracked path

theorem accepted_iff_spared (tracked : m.Tracked) :
    call.Accepted mount m ↔ call.Spared mount m := by
  cases call with
  | afsOpen handle path truncate now => exact Iff.rfl
  | afsRelease handle now => exact Iff.rfl
  | afsRead handle size offset =>
      apply forall_congr'
      intro path
      apply imp_congr_right
      intro isOpen
      exact afsRead_accepted_iff (tracked _) size offset
  | afsWrite handle data offset now =>
      apply forall_congr'
      intro path
      apply imp_congr_right
      intro isOpen
      exact afsWrite_accepted_iff (tracked _) data offset

variable [DecidableEq Handle]

theorem tracked_of_afsOpen {handle : Handle} {path : String} {truncate : Bool}
    {now : Int} (tracked : m.Tracked)
    (steps : (HandleCall.afsOpen handle path truncate now).step mount m =
      some next) : next.Tracked := by
  simp only [HandleCall.step] at steps
  split at steps
  next isUnopened =>
    obtain rfl := Option.some.inj steps
    refine tracked_of_change (mount.callbackKey path) ?_ ?_ ?_ tracked
    · exact fun other apart => entry_afsOpen_ne apart truncate
    · intro other apart
      dsimp only
      split
      · exact Function.update_of_ne apart _ _
      · rfl
    · have after := tracks_afsOpen now m.server
        (tracked (mount.callbackKey path)) truncate
      dsimp only
      split
      · next isOpen =>
          rw [if_pos isOpen] at after
          rw [Function.update_self]
          exact after
      · next fails =>
          rw [if_neg fails] at after
          exact after
  next => simp at steps

theorem tracked_of_afsRead {handle : Handle} {size : Nat} {offset : Int}
    (spared : (HandleCall.afsRead handle size offset).Spared mount m)
    (tracked : m.Tracked)
    (steps : (HandleCall.afsRead handle size offset).step mount m = some next) :
    next.Tracked := by
  simp only [HandleCall.step] at steps
  split at steps
  next path isOpen =>
    obtain rfl := Option.some.inj steps
    obtain ⟨isIntact, sizeNonneg, offsetNonneg⟩ := spared path isOpen
    have here := tracked (mount.callbackKey path)
    rw [isIntact] at here
    have after := tracks_afsRead here sizeNonneg offsetNonneg
    refine tracked_of_change (mount.callbackKey path) ?_ ?_ ?_ tracked
    · exact fun other apart => entry_afsRead_ne apart size offset
    · intro other apart
      dsimp only
      split
      · exact Function.update_of_ne apart _ _
      · rfl
    · dsimp only
      split
      · next short =>
          rw [short] at after
          rw [Function.update_self, isIntact]
          exact after
      · next long =>
          rw [Bool.not_eq_true] at long
          rw [long] at after
          rw [isIntact]
          exact after
  next => simp at steps

theorem tracked_of_step (spared : call.Spared mount m) (tracked : m.Tracked)
    (steps : call.step mount m = some next) : next.Tracked := by
  cases call with
  | afsOpen handle path truncate now => exact tracked_of_afsOpen tracked steps
  | afsRead handle size offset => exact tracked_of_afsRead spared tracked steps
  | afsWrite handle data offset now =>
      simp only [HandleCall.step] at steps
      split at steps
      next path isOpen =>
        obtain rfl := Option.some.inj steps
        have change : Client.EntryChange True (mount.callbackKey path) m.client
            (m.client.writeFile (.success now) (mount.callbackKey path) data
              offset).1 := Client.entryChange_writeFile data offset
        refine tracked_of_change (mount.callbackKey path) change.elsewhere
          (fun _ _ => rfl) ?_ tracked
        exact tracks_afsWrite (tracked _) data offset
      next => simp at steps
  | afsRelease handle now =>
      simp only [HandleCall.step] at steps
      split at steps
      next path isOpen =>
        obtain rfl := Option.some.inj steps
        refine tracked_of_change (mount.callbackKey path) ?_ ?_ ?_ tracked
        · intro other apart
          dsimp only
          exact entry_afsRelease_ne now m.server apart
        · intro other apart
          dsimp only
          exact Function.update_of_ne apart _ _
        · dsimp only
          rw [Function.update_self]
          exact tracks_afsRelease now m.server (tracked _)
      next => simp at steps

/-- In a run of calls on handles, no read or write of an open handle returns an
error if and only if each of them is spared. -/
theorem accepted_along_iff (mount : Mount) (clientId : ClientId)
    (server : Server) (calls : List (HandleCall Handle)) :
    Along (HandleCall.step mount) (HandleCall.Accepted mount) calls
        (.start Handle clientId server) ↔
      Along (HandleCall.step mount) (HandleCall.Spared mount) calls
        (.start Handle clientId server) := by
  apply along_congr MountState.Tracked
  · intro call m tracked
    exact accepted_iff_spared tracked
  · intro call m next spared tracked steps
    exact tracked_of_step spared tracked steps
  · intro path
    rfl

/-- A mount of a server with one file of one byte. -/
private def mountedServer : Mount × Server where
  fst := ⟨"/srv", "/cache"⟩
  snd := Server.launch "/srv" (FileStore.empty.replace "/srv/a" [[97]] 0) 0

/-- After one of two handles released the file, the other one cannot read
it. -/
theorem read_after_other_release :
    ¬ Along (HandleCall.step mountedServer.1)
      (HandleCall.Accepted mountedServer.1)
      [.afsOpen 0 "/a" false 1, .afsOpen 1 "/a" false 2, .afsRelease 0 3,
        .afsRead 1 1 0]
      (.start Nat "reader" mountedServer.2) := by
  intro accepted
  obtain ⟨buffer, returned, nonneg, reads⟩ :=
    (((accepted.2 _ rfl).2 _ rfl).2 _ rfl).1 "/a" rfl
  have refused : some ([], -accessDenied) = some (buffer, returned) := reads
  obtain ⟨-, rfl⟩ := Prod.mk.inj (Option.some.inj refused)
  exact absurd nonneg (by decide)

end Runs

end DistributedFilesystem
