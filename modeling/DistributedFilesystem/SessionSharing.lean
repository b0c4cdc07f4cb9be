import DistributedFilesystem.FileSessions
import DistributedFilesystem.SequentialSharing

/-!
# Sequential sharing in sessions

Clients that take turns answer their users as a store of files with sessions
does: the copies in the caches, the registrations and the notifications cannot
be told from files that are kept in one place.
-/

namespace DistributedFilesystem

open FileSessions TransitionRuns

/-- The client has the file open, in such a session. -/
structure Client.InSession (client : Client) (path : Path)
    (session : FileSessions.Session Byte) : Prop where
  streams : ∃ i, client.openedFiles path =
      some ⟨⟨i, true, session.exhausted⟩, .fresh i⟩ ∧
    client.disk.node path = some i
  read : client.disk.read path = some session.contents
  cached : ∃ timestamp,
    client.cache path = some ⟨session.modified, timestamp⟩

/-- The client has the file open in this session, or not open. -/
def Client.SessionIs (client : Client) (path : Path) :
    Option (FileSessions.Session Byte) → Prop
  | none => client.openedFiles path = none
  | some session => client.InSession path session

/-- The server has the files of the store, and the clients its sessions. -/
structure System.Represents (members : Set ClientId) (σ : System)
    (store : Store ClientId Path Byte) : Prop where
  files : ∀ path, σ.server.disk.read path = store.files path
  sessions : ∀ client ∈ members, ∀ path,
    (σ.clients client).SessionIs path (store.sessions client path)

/-- What the user of a client asks for. -/
def SystemEvent.request :
    SystemEvent → Option (FileSessions.Request ClientId Path Byte)
  | .openFile client path _ => some (.openFile client path)
  | .readFile client path size offset =>
      some (.readFile client path size offset)
  | .writeFile client path data position _ =>
      some (.writeFile client path data position)
  | .closeFile client path _ => some (.closeFile client path)
  | .deleteFile client path => some (.deleteFile client path)
  | .send _ | .deliver _ | .tick _ => none

/-- What the call of an event returns. -/
def SystemEvent.answers : SystemEvent → System → List (Answer Byte)
  | .openFile client path now, σ =>
      [.done ((σ.clients client).openFile .direct (.success now) path σ.server).2]
  | .readFile client path size offset, σ =>
      [.bytes ((σ.clients client).readFile path size offset).2]
  | .writeFile client path data position now, σ =>
      [.done ((σ.clients client).writeFile (.success now) path data position).2]
  | .closeFile client path now, σ =>
      [.done
        ((σ.clients client).closeFile .direct (.success now) path σ.server).2]
  | .deleteFile client path, σ =>
      [.done ((σ.clients client).deleteFile .direct path σ.server).2]
  | .send _, _ | .deliver _, _ | .tick _, _ => []

section Sessions

variable {members : Set ClientId} {initial : Path → Option Bytes}
variable {σ σ' : System} {store store' : Store ClientId Path Byte}
variable {client : ClientId} {path other : Path} {now : Int}

theorem sessionIs_of_sameElsewhere {before after : Client}
    {session : Option (FileSessions.Session Byte)}
    (same : Client.SameElsewhere other before after) (apart : path ≠ other)
    (isSession : before.SessionIs path session) :
    after.SessionIs path session := by
  cases session with
  | none => exact (same.openedFiles path apart).trans isSession
  | some session =>
      constructor
      · rw [same.openedFiles path apart, same.node path apart]
        exact isSession.streams
      · rw [same.read path apart]
        exact isSession.read
      · rw [same.cache path apart]
        exact isSession.cached

/-- A call of one client for one file. -/
theorem represents_setClient {client' : Client} {s : Server}
    {session : Option (FileSessions.Session Byte)}
    (represents : σ.Represents members store)
    (elsewhere : Client.SameElsewhere path (σ.clients client) client')
    (files : ∀ path, s.disk.read path = store'.files path)
    (sessions : store'.sessions = store.sessions)
    (own : client'.SessionIs path session) :
    (σ.setClient client (client', s)).Represents members
      (store'.setSession client path session) where
  files := files
  sessions user member name := by
    by_cases isUser : user = client
    · subst isUser
      by_cases isPath : name = path
      · subst isPath
        simpa [System.setClient] using own
      · rw [Store.sessions_setSession_ne _ _ _ _ (.inr isPath), sessions]
        simpa [System.setClient] using sessionIs_of_sameElsewhere elsewhere isPath
          (represents.sessions user member name)
    · rw [Store.sessions_setSession_ne _ _ _ _ (.inl isUser), sessions]
      simpa [System.setClient, isUser] using represents.sessions user member name

/-- The session is what it was. -/
theorem represents_of_same {client' : Client} {s : Server}
    (represents : σ.Represents members store)
    (elsewhere : Client.SameElsewhere path (σ.clients client) client')
    (disk : s.disk = σ.server.disk)
    (own : client'.SessionIs path (store.sessions client path)) :
    (σ.setClient client (client', s)).Represents members store := by
  have files : ∀ path, s.disk.read path = store.files path := by
    rw [disk]
    exact represents.files
  simpa using represents_setClient represents elsewhere files rfl own

/-- What one event does and answers, the store does and answers. -/
def Matches (members : Set ClientId) (store : Store ClientId Path Byte)
    (event : SystemEvent) (σ σ' : System) : Prop :=
  σ'.Represents members (store.serve event.request.toList).1 ∧
    event.answers σ = (store.serve event.request.toList).2

/-- A request that the store answers so. -/
theorem matches_of_serve {event : SystemEvent}
    {request : FileSessions.Request ClientId Path Byte} {answer : Answer Byte}
    (requests : event.request = some request)
    (serves : request.serve store = (store', answer))
    (represents : σ'.Represents members store')
    (answers : event.answers σ = [answer]) :
    Matches members store event σ σ' := by
  simp [Matches, requests, Store.serve, serves, represents, answers]

/-- An event that nobody asked for. -/
theorem matches_of_silent {event : SystemEvent}
    (requests : event.request = none) (answers : event.answers σ = [])
    (represents : σ'.Represents members store) :
    Matches members store event σ σ' := by
  simp [Matches, requests, Store.serve, represents, answers]

theorem matches_openFile (turns : TurnsTaken members initial σ)
    (represents : σ.Represents members store)
    (allowed : (SystemEvent.openFile client path now).Allowed members σ) :
    Matches members store (.openFile client path now) σ (σ.setClient client
      ((σ.clients client).openFile .direct (.success now) path σ.server).1) := by
  obtain ⟨client', s, opened, opens, elsewhere, registers, result⟩ :=
    openResult_of_allowed turns allowed
  obtain ⟨isMember, allClosed, -⟩ := allowed
  have own := represents.sessions client isMember path
  have noSession : store.sessions client path = none := by
    cases session : store.sessions client path with
    | none => rfl
    | some session' =>
        rw [session] at own
        obtain ⟨i, isOpen, -⟩ := own.streams
        simp [allClosed client isMember] at isOpen
  have answer : (SystemEvent.openFile client path now).answers σ =
      [.done opened] := by
    simp [SystemEvent.answers, opens]
  have files : ∀ path, s.disk.read path = store.files path := by
    rw [registers.disk]
    exact represents.files
  rw [opens]
  cases result with
  | opened present read justOpened info cached clean registered =>
      obtain ⟨contents, stored⟩ := Option.isSome_iff_exists.mp present
      have serves : (Request.openFile client path).serve store =
          (store.setSession client path (some ⟨contents, false, false⟩),
            .done true) := by
        simp [Request.serve, noSession, ← represents.files, stored]
      refine matches_of_serve rfl serves ?_ answer
      refine represents_setClient represents elsewhere files rfl ?_
      obtain ⟨i, refers, isOpen⟩ := justOpened.streams
      obtain ⟨modified, timestamp⟩ := info
      obtain rfl : modified = false := clean
      exact ⟨⟨i, isOpen, refers⟩, read.trans stored, timestamp, cached⟩
  | missing absent notCached closed noMutex =>
      have serves : (Request.openFile client path).serve store =
          (store, .done false) := by
        simp [Request.serve, noSession, ← represents.files, absent]
      refine matches_of_serve rfl serves ?_ answer
      refine represents_of_same represents elsewhere registers.disk ?_
      rw [noSession]
      exact closed

/-- In a session `read_file` and `write_file` have streams to work on. -/
theorem usableStreams_of_inSession (turns : TurnsTaken members initial σ)
    (isMember : client ∈ members) {session : FileSessions.Session Byte}
    (isSession : (σ.clients client).InSession path session) :
    ∃ i, (σ.clients client).usableStreams path =
        some ⟨⟨i, true, session.exhausted⟩, .fresh i⟩ ∧
      (σ.clients client).disk.node path = some i ∧
      ((σ.clients client).disk.nodes i).contents = session.contents := by
  obtain ⟨i, isOpen, refers⟩ := isSession.streams
  obtain ⟨timestamp, cached⟩ := isSession.cached
  have mutex : path ∈ (σ.clients client).fileMutexes :=
    (turns.sound client isMember path).mutex.mpr (by simp [isOpen])
  refine ⟨i, ?_, refers, ?_⟩
  · simp [Client.usableStreams, cached, isOpen, mutex]
  · simpa [FileStore.read, refers] using isSession.read

theorem usableStreams_of_noSession {client : Client}
    (closed : client.openedFiles path = none) :
    client.usableStreams path = none := by
  unfold Client.usableStreams
  split
  · rfl
  · simp [closed]

/-- The read stream of a session fails. -/
theorem inSession_failRead {client : Client} {session : FileSessions.Session Byte}
    (isSession : client.InSession path session) :
    (client.setStreams path fun streams =>
      { streams with readStream := { streams.readStream with failed := true }
      }).InSession path { session with exhausted := true } := by
  obtain ⟨i, isOpen, refers⟩ := isSession.streams
  refine ⟨⟨i, ?_, refers⟩, isSession.read, isSession.cached⟩
  simp [Client.setStreams, isOpen]

theorem matches_readFile (turns : TurnsTaken members initial σ)
    (represents : σ.Represents members store) (isMember : client ∈ members)
    (size : Nat) (offset : Int) :
    Matches members store (.readFile client path size offset) σ
      (σ.setClient client
        (((σ.clients client).readFile path size offset).1, σ.server)) := by
  have own := represents.sessions client isMember path
  cases session : store.sessions client path with
  | none =>
      rw [session] at own
      have reads : (σ.clients client).readFile path size offset =
          (σ.clients client, none) := by
        simp [Client.readFile, usableStreams_of_noSession own]
      have serves : (Request.readFile client path size offset).serve store =
          (store, .bytes none) := by
        simp [Request.serve, session]
      refine matches_of_serve rfl serves ?_ (by simp [SystemEvent.answers, reads])
      rw [reads]
      exact represents_of_same represents (Client.SameElsewhere.refl path _) rfl
        (session ▸ own)
  | some session' =>
      rw [session] at own
      obtain ⟨i, usable, -, contents⟩ :=
        usableStreams_of_inSession turns isMember own
      have exhaust : ∀ client', client' = (σ.clients client).setStreams path
            (fun streams => { streams with
              readStream := { streams.readStream with failed := true } }) →
          (σ.setClient client (client', σ.server)).Represents members
            (store.setSession client path
              (some { session' with exhausted := true })) := by
        rintro _ rfl
        exact represents_setClient represents
          (Client.sameElsewhere_setStreams _) represents.files rfl
          (inSession_failRead own)
      by_cases fails : session'.exhausted = true ∨ offset < 0
      · have serves : (Request.readFile client path size offset).serve store =
            (store.setSession client path
              (some { session' with exhausted := true }), .bytes none) := by
          simp [Request.serve, session, fails]
        refine matches_of_serve rfl serves (exhaust _ ?_) ?_
        · simp [Client.readFile, usable, fails]
        · simp [SystemEvent.answers, Client.readFile, usable, fails]
      · obtain ⟨bytes, read⟩ : ∃ bytes,
            (session'.contents.drop offset.toNat).take size = bytes := ⟨_, rfl⟩
        have answer : (SystemEvent.readFile client path size offset).answers σ =
            [.bytes (some bytes)] := by
          simp only [SystemEvent.answers, Client.readFile, usable, Bool.true_eq_false,
            false_or, fails, if_false, contents, read]
          split <;> rfl
        by_cases short : bytes.length < size
        · have serves : (Request.readFile client path size offset).serve store =
              (store.setSession client path
                (some { session' with exhausted := true }),
                .bytes (some bytes)) := by
            simp [Request.serve, session, fails, read, short]
          refine matches_of_serve rfl serves (exhaust _ ?_) answer
          simp [Client.readFile, usable, fails, contents, read, short]
        · have serves : (Request.readFile client path size offset).serve store =
              (store, .bytes (some bytes)) := by
            simp [Request.serve, session, fails, read, short]
          refine matches_of_serve rfl serves ?_ answer
          have same : ((σ.clients client).readFile path size offset).1 =
              σ.clients client := by
            simp [Client.readFile, usable, fails, contents, read, short]
          rw [same]
          exact represents_of_same represents
            (Client.SameElsewhere.refl path _) rfl (session ▸ own)

theorem matches_writeFile (turns : TurnsTaken members initial σ)
    (represents : σ.Represents members store) (isMember : client ∈ members)
    (data : Bytes) (position : Int) :
    Matches members store (.writeFile client path data position now) σ
      (σ.setClient client
        (((σ.clients client).writeFile (.success now) path data position).1,
          σ.server)) := by
  have own := represents.sessions client isMember path
  have refused : ∀ client', (σ.clients client).writeFile (.success now) path data
        position = (client', false) →
      Client.SameElsewhere path (σ.clients client) client' →
      client'.SessionIs path (store.sessions client path) →
      (Request.writeFile client path data position).serve store =
        (store, .done false) →
      Matches members store (.writeFile client path data position now) σ
        (σ.setClient client
          (((σ.clients client).writeFile (.success now) path data position).1,
            σ.server)) := by
    intro client' writes elsewhere same serves
    refine matches_of_serve rfl serves ?_ (by simp [SystemEvent.answers, writes])
    rw [writes]
    exact represents_of_same represents elsewhere rfl same
  cases session : store.sessions client path with
  | none =>
      rw [session] at own refused
      refine refused (σ.clients client) ?_ (Client.SameElsewhere.refl path _) own ?_
      · simp [Client.writeFile, usableStreams_of_noSession own]
      · simp [Request.serve, session]
  | some session' =>
      rw [session] at own refused
      obtain ⟨i, usable, refers, contents⟩ :=
        usableStreams_of_inSession turns isMember own
      by_cases negative : position < 0
      · refine refused _ (by simp [Client.writeFile, usable, negative]; rfl)
          (Client.sameElsewhere_setStreams _) ?_ ?_
        · obtain ⟨j, isOpen, refers⟩ := own.streams
          refine ⟨⟨j, ?_, refers⟩, own.read, own.cached⟩
          simp [Client.setStreams, isOpen, FileStream.fresh]
        · simp [Request.serve, session, negative]
      · obtain ⟨client', writes⟩ : ∃ client',
            (σ.clients client).writeFile (.success now) path data position =
              (client', true) := by
          simp [Client.writeFile, usable, negative, FileStream.fresh,
            LocalAnswers.success]
        have serves : (Request.writeFile client path data position).serve store =
            (store.setSession client path (some { session' with
              contents := ByteContents.overlay session'.contents position.toNat data
              modified := true }), .done true) := by
          simp [Request.serve, session, negative]
        refine matches_of_serve rfl serves ?_ (by simp [SystemEvent.answers, writes])
        rw [writes]
        have result := Client.writeResult_of_writeFile writes
        obtain ⟨j, isOpen, refers'⟩ := own.streams
        obtain rfl : i = j := Option.some.inj (refers.symm.trans refers')
        obtain ⟨streams, isOpen', disk⟩ := result.disk
        obtain rfl := Option.some.inj (isOpen.symm.trans isOpen')
        obtain ⟨timestamp, cache⟩ := result.cache
        refine represents_setClient represents
          (Client.sameElsewhere_of_writeResult result isOpen refers)
          represents.files rfl ⟨⟨i, ?_, ?_⟩, ?_, timestamp, ?_⟩
        · rw [result.openedFiles]
          exact isOpen
        · rw [disk, FileStore.node_writeAt]
          exact refers
        · rw [disk, ← contents]
          exact FileStore.read_writeAt _ _ refers
        · simp [cache]

/-- In a session `close_file` succeeds. -/
theorem closeFile_of_inSession (turns : TurnsTaken members initial σ)
    (isMember : client ∈ members) {session : FileSessions.Session Byte}
    (isSession : (σ.clients client).InSession path session) :
    ∃ client' s, (σ.clients client).closeFile .direct (.success now) path
      σ.server = ((client', s), true) := by
  obtain ⟨i, isOpen, refers⟩ := isSession.streams
  obtain ⟨timestamp, cached⟩ := isSession.cached
  have mutex : path ∈ (σ.clients client).fileMutexes :=
    (turns.sound client isMember path).mutex.mpr (by simp [isOpen])
  cases modified : session.modified with
  | false => simp [Client.closeFile, isOpen, mutex, cached, modified]
  | true =>
      obtain ⟨s, response, call, -⟩ :=
        Client.stores_of_closeCall (σ.clients client) path σ.server
          session.contents
      have begins : (σ.clients client).beginUpload (.success now) path
          ⟨⟨i, true, session.exhausted⟩, .fresh i⟩ =
            ((σ.clients client).setStreams path fun streams =>
              ⟨streams.readStream.close, streams.writeStream.close⟩,
            some ((σ.clients client).uploadRequests path session.contents)) := by
        have read := isSession.read
        simp [Client.beginUpload, FileStream.fresh, LocalAnswers.success,
          Client.setStreams, read, Client.uploadRequests]
      have attempt : Client.uploadAttempt Remote.direct
          ((σ.clients client).uploadRequests path session.contents) 2
          (σ.server, ⟨[], 0, 0⟩) = ((s, response), some Status.OK) := by
        simp only [Client.uploadAttempt, call]
      simp [Client.closeFile, isOpen, mutex, cached, modified,
        Client.closeModified, begins, maxTries, retry, attempt, Status.initial,
        Status.isOk, Status.OK]

theorem matches_closeFile (turns : TurnsTaken members initial σ)
    (represents : σ.Represents members store) (isMember : client ∈ members)
    (steps : SystemEvent.step (.closeFile client path now) σ = some σ') :
    Matches members store (.closeFile client path now) σ σ' := by
  have own := represents.sessions client isMember path
  obtain ⟨⟨⟨client', s⟩, closed⟩, closes⟩ : ∃ result,
      (σ.clients client).closeFile .direct (.success now) path σ.server =
        result := ⟨_, rfl⟩
  have answer : (SystemEvent.closeFile client path now).answers σ =
      [.done closed] := by
    simp [SystemEvent.answers, closes]
  -- The uploads that the system records are not part of what it represents.
  have ends : ∀ {store'}, (σ.setClient client (client', s)).Represents members
      store' → σ'.Represents members store' := by
    intro store' after
    simp only [SystemEvent.step, closes, Option.some.injEq] at steps
    subst steps
    exact ⟨after.files, after.sessions⟩
  cases session : store.sessions client path with
  | none =>
      rw [session] at own
      have same : (σ.clients client).closeFile .direct (.success now) path
          σ.server = ((σ.clients client, σ.server), false) := by
        simp [Client.closeFile, show (σ.clients client).openedFiles path = none
          from own]
      rw [same] at closes
      obtain ⟨⟨rfl, rfl⟩, rfl⟩ := by simpa only [Prod.mk.injEq] using closes
      have serves : (Request.closeFile client path).serve store =
          (store, .done false) := by
        simp [Request.serve, session]
      refine matches_of_serve rfl serves (ends ?_) answer
      exact represents_of_same represents (Client.SameElsewhere.refl path _) rfl
        (session ▸ own)
  | some session' =>
      rw [session] at own
      obtain rfl : closed = true := by
        obtain ⟨_, _, succeeds⟩ := closeFile_of_inSession turns isMember own
        exact (Prod.mk.inj (closes.symm.trans succeeds)).2
      obtain ⟨result, info, cached, change⟩ :=
        Client.closeFile_direct_eq_true closes
      obtain ⟨timestamp, cached'⟩ := own.cached
      obtain rfl := Option.some.inj (cached.symm.trans cached')
      have noSession : client'.SessionIs path none := result.openedFiles
      rcases change with ⟨clean, rfl⟩ | ⟨modified, contents, read, stores⟩
      · have serves : (Request.closeFile client path).serve store =
            (store.setSession client path none, .done true) := by
          have clean : session'.modified = false := clean
          simp [Request.serve, session, clean]
        refine matches_of_serve rfl serves (ends ?_) answer
        exact represents_setClient represents result.elsewhere represents.files
          rfl noSession
      · obtain rfl : session'.contents = contents :=
          Option.some.inj (own.read.symm.trans read)
        have serves : (Request.closeFile client path).serve store =
            ((store.setFile path (some session'.contents)).setSession client path
              none, .done true) := by
          have modified : session'.modified = true := modified
          simp [Request.serve, session, modified]
        refine matches_of_serve rfl serves (ends ?_) answer
        refine represents_setClient represents result.elsewhere ?_ rfl noSession
        intro name
        by_cases isPath : name = path
        · subst isPath
          simp [stores.read]
        · rw [stores.read_ne name isPath, Store.files_setFile_ne _ _ _ isPath]
          exact represents.files name

/-- What `delete_file` returns. -/
theorem deleteFile_returns (client : Client) (path : Path) (s : Server) :
    (client.deleteFile .direct path s).2 = (s.disk.node path).isSome := by
  have sameId : (client.beginDelete path).clientId = client.clientId := rfl
  unfold Client.deleteFile
  cases present : s.disk.node path with
  | none =>
      simp [Remote.direct, Server.unlinkHandler, present, Status.isOk]
  | some i =>
      simp [Remote.direct, Server.unlinkHandler, present, Status.isOk, Status.OK]

/-- An `unlink` leaves the other files. -/
theorem read_unlinkCall (s : Server) (path : Path) (client : ClientId)
    (name : Path) :
    (Remote.direct.unlinkCall s path client).1.disk.read name =
      Function.update s.disk.read path none name := by
  cases present : s.disk.node path with
  | none =>
      have same : (Remote.direct.unlinkCall s path client).1 = s := by
        simp [Remote.direct, Server.unlinkHandler, present]
      have absent : s.disk.read path = none := by simp [FileStore.read, present]
      rw [same, ← absent, Function.update_eq_self]
  | some i =>
      obtain ⟨s', unlinks, removes⟩ := Server.removes_of_unlinkHandler client
        (show (s.disk.node path).isSome by simp [present])
      have removed : (Remote.direct.unlinkCall s path client).1 = s' := by
        simp [Remote.direct, unlinks]
      rw [removed]
      by_cases isPath : name = path
      · subst isPath
        simp [removes.read]
      · rw [removes.read_ne name isPath, Function.update_of_ne isPath]

theorem matches_deleteFile (represents : σ.Represents members store) :
    Matches members store (.deleteFile client path) σ (σ.setClient client
      ((σ.clients client).deleteFile .direct path σ.server).1) := by
  have returns := deleteFile_returns (σ.clients client) path σ.server
  have isPresent : (σ.server.disk.node path).isSome = (store.files path).isSome := by
    rw [← represents.files, Bool.eq_iff_iff, FileStore.read_isSome_iff]
  obtain ⟨client', returned, deletes, result⟩ :=
    Client.deleteFile_eq .direct path (σ.clients client) σ.server
  have serves : (Request.deleteFile client path).serve store =
      ((store.setFile path none).setSession client path none,
        .done (store.files path).isSome) := rfl
  refine matches_of_serve rfl serves ?_
    (by simp [SystemEvent.answers, returns, isPresent])
  rw [deletes]
  refine represents_setClient represents result.elsewhere ?_ rfl
    result.openedFiles
  intro name
  rw [read_unlinkCall, Store.setFile, ← funext represents.files]

/-- A notification ends no session. -/
theorem sessionIs_processNotification {client : Client}
    {session : Option (FileSessions.Session Byte)} (note : Notification)
    (isSession : client.SessionIs path session) :
    (client.processNotification note).SessionIs path session := by
  by_cases about : path = note.directory
  · subst about
    cases session with
    | none =>
        have closed : client.openedFiles note.directory = none := isSession
        simpa [Client.SessionIs] using closed
    | some session =>
        obtain ⟨i, isOpen, -⟩ := isSession.streams
        rwa [Client.processNotification_of_open (by simp [isOpen])]
  · exact sessionIs_of_sameElsewhere
      (Client.sameElsewhere_processNotification client note) about isSession

theorem matches_of_step {event : SystemEvent}
    (turns : TurnsTaken members initial σ)
    (represents : σ.Represents members store)
    (allowed : event.Allowed members σ) (steps : event.step σ = some σ') :
    Matches members store event σ σ' := by
  cases event with
  | openFile client path now =>
      obtain rfl := Option.some.inj steps
      exact matches_openFile turns represents allowed
  | readFile client path size offset =>
      obtain rfl := Option.some.inj steps
      exact matches_readFile turns represents allowed size offset
  | writeFile client path data position now =>
      obtain rfl := Option.some.inj steps
      exact matches_writeFile turns represents allowed data position
  | closeFile client path now =>
      exact matches_closeFile turns represents allowed steps
  | deleteFile client path =>
      obtain rfl := Option.some.inj steps
      exact matches_deleteFile represents
  | send client =>
      obtain ⟨⟨note, s⟩, pops, rfl⟩ := Option.map_eq_some_iff.mp steps
      obtain ⟨disk, -⟩ := Server.popNotification_eq_some pops
      refine matches_of_silent rfl rfl ⟨?_, represents.sessions⟩
      intro path
      dsimp only
      rw [disk]
      exact represents.files path
  | deliver client =>
      simp only [SystemEvent.step] at steps
      split at steps
      · simp at steps
      next note notes inFlight =>
      obtain rfl := Option.some.inj steps
      refine matches_of_silent rfl rfl ⟨represents.files, ?_⟩
      intro user member path
      have own := represents.sessions user member path
      by_cases isUser : user = client
      · subst isUser
        simpa [System.setClient] using sessionIs_processNotification note own
      · simpa [System.setClient, isUser] using own
  | tick now =>
      obtain rfl := Option.some.inj steps
      exact matches_of_silent rfl rfl ⟨represents.files, represents.sessions⟩

/-- What a run of clients that take turns answers, the store answers. -/
theorem serves_of_run {events : List SystemEvent}
    (turns : TurnsTaken members initial σ)
    (represents : σ.Represents members store)
    (reaches : run SystemEvent.step events σ = some σ')
    (allowed : Along SystemEvent.step (SystemEvent.Allowed members) events σ) :
    σ'.Represents members
        (store.serve (events.filterMap SystemEvent.request)).1 ∧
      trace SystemEvent.step SystemEvent.answers events σ =
        (store.serve (events.filterMap SystemEvent.request)).2 := by
  induction events generalizing σ store with
  | nil =>
      obtain rfl : σ = σ' := by simpa using reaches
      exact ⟨represents, rfl⟩
  | cons event events ih =>
      obtain ⟨next, steps, later⟩ := run_cons_eq_some.mp reaches
      obtain ⟨allowedNow, allowedLater⟩ := allowed
      obtain ⟨after, answer⟩ := matches_of_step turns represents allowedNow steps
      obtain ⟨final, answers⟩ := ih
        (turnsTaken_of_step allowedNow turns steps) after later
        (allowedLater next steps)
      have requests : (event :: events).filterMap SystemEvent.request =
          event.request.toList ++ events.filterMap SystemEvent.request := by
        cases request : event.request <;> simp [request]
      rw [requests, serve_append]
      refine ⟨final, ?_⟩
      simp [trace, steps, answer, answers]

end Sessions

/-- In every run in which the clients take turns, their calls return what the
requests of their users return at a store of files with sessions, and the
server ends with the files of that store. -/
theorem sharing_refines_sessions (members : Set ClientId) {σ σ' : System}
    (starts : σ.Starts members) (events : List SystemEvent)
    (reaches : run SystemEvent.step events σ = some σ')
    (allowed : Along SystemEvent.step (SystemEvent.Allowed members) events σ) :
    let served := (Store.closed σ.server.disk.read).serve
      (events.filterMap SystemEvent.request)
    trace SystemEvent.step SystemEvent.answers events σ = served.2 ∧
      σ'.server.disk.read = served.1.files := by
  have represents : σ.Represents members (Store.closed σ.server.disk.read) :=
    ⟨fun _ => rfl, fun client member path => (starts.empty client member path).2.1⟩
  obtain ⟨final, answers⟩ := serves_of_run (turnsTaken_of_starts starts)
    represents reaches allowed
  exact ⟨answers, funext final.files⟩

/-- A server with one file of two bytes and two subscribed clients. -/
def twoBytes : System where
  server :=
    { Server.launch "/srv"
        ((FileStore.empty.create "/srv/a" 0).setContents 0 [97, 98] 0) 0 with
      subscribers client :=
        if client = "reader" then some 0
        else if client = "writer" then some 1 else none
      queues q := if q < 2 then some ⟨[], false⟩ else none }
  clients := Client.launch
  inFlight _ := []
  uploads := []

theorem twoBytes_starts : twoBytes.Starts {"reader", "writer"} where
  clientIds _ _ := rfl
  subscribed := by
    rintro client (rfl | rfl)
    · exact ⟨0, ⟨[], false⟩, rfl, rfl⟩
    · exact ⟨1, ⟨[], false⟩, rfl, rfl⟩
  ownQueues client other q isFirst isSecond := by
    simp only [twoBytes] at isFirst isSecond
    split_ifs at isFirst isSecond <;> simp_all <;> cases isFirst <;>
      cases isSecond
  empty _ _ _ := ⟨rfl, rfl, by simp [twoBytes, Client.launch]⟩
  noUploads := rfl

/-- The reader reads past the end, and again after the writer's change. -/
private def readTwice : List SystemEvent :=
  [.openFile "reader" "/srv/a" 1, .readFile "reader" "/srv/a" 4 0,
    .readFile "reader" "/srv/a" 1 0, .closeFile "reader" "/srv/a" 2,
    .openFile "writer" "/srv/a" 3, .writeFile "writer" "/srv/a" [99] 0 4,
    .closeFile "writer" "/srv/a" 5, .send "reader", .deliver "reader",
    .openFile "reader" "/srv/a" 6, .readFile "reader" "/srv/a" 2 0]

private theorem readTwice_allowed :
    Along SystemEvent.step (SystemEvent.Allowed {"reader", "writer"}) readTwice
      twoBytes := by
  have reader : "reader" ∈ ({"reader", "writer"} : Set ClientId) := .inl rfl
  have writer : "writer" ∈ ({"reader", "writer"} : Set ClientId) := .inr rfl
  refine ⟨⟨reader, by rintro other (rfl | rfl) <;> rfl, by rintro _ ⟨⟩⟩, ?_⟩
  rintro _ ⟨⟩
  refine ⟨reader, ?_⟩
  rintro _ ⟨⟩
  refine ⟨reader, ?_⟩
  rintro _ ⟨⟩
  refine ⟨reader, ?_⟩
  rintro _ ⟨⟩
  refine ⟨⟨writer, by rintro other (rfl | rfl) <;> rfl, by rintro _ ⟨⟩⟩, ?_⟩
  rintro _ ⟨⟩
  refine ⟨writer, ?_⟩
  rintro _ ⟨⟩
  refine ⟨writer, ?_⟩
  rintro _ ⟨⟩
  refine ⟨reader, ?_⟩
  rintro _ ⟨⟩
  refine ⟨reader, ?_⟩
  rintro _ ⟨⟩
  refine ⟨⟨reader, by rintro other (rfl | rfl) <;> rfl, by rintro _ ⟨⟩⟩, ?_⟩
  rintro _ ⟨⟩
  refine ⟨reader, ?_⟩
  rintro _ ⟨⟩
  trivial

/-- The first session ends with a read that fails, the last one has the change. -/
theorem sharing_refines_sessions_readTwice :
    trace SystemEvent.step SystemEvent.answers readTwice twoBytes =
      [.done true, .bytes (some [97, 98]), .bytes none, .done true, .done true,
        .done true, .done true, .done true, .bytes (some [99, 98])] :=
  (sharing_refines_sessions {"reader", "writer"} twoBytes_starts readTwice rfl
    readTwice_allowed).1

end DistributedFilesystem
