import DistributedFilesystem.DirectCalls
import DistributedFilesystem.InterleavedCalls
import DistributedFilesystem.TransitionRuns

/-!
# Calls without interruption

The sections of a call, one after the other with nothing in between, do what the
function does in one go on a server that answers all calls.
-/

namespace DistributedFilesystem

open TransitionRuns

/-- The function of a call, on a server that answers. -/
def FileCall.whole (answers : LocalAnswers) (path : Path) (client : Client)
    (s : Server) : FileCall → Client × Server
  | .openFile => (client.openFile .direct answers path s).1
  | .createFile => ((client.createFile answers path).1, s)
  | .writeFile data position =>
      ((client.writeFile answers path data position).1, s)
  | .closeFile => (client.closeFile .direct answers path s).1
  | .deleteFile => (client.deleteFile .direct path s).1

section Sections

variable (answers : LocalAnswers) (path : Path)

/-- So many sections of a call, one after the other. -/
def sections : Nat → Client × Server × CallPhase →
    Option (Client × Server × CallPhase)
  | 0, result => some result
  | n + 1, (client, s, phase) =>
      (phase.advance answers path client s).bind (sections n)

/-- The call comes to its end there. -/
def Settles (start : Client × Server × CallPhase) (result : Client × Server) :
    Prop :=
  ∃ n, sections answers path n start = some (result.1, result.2, .idle)

/-- What `open_file` does with the outcome of its retry loop. -/
def afterRetry : (Client × Server) × Option Status → Client × Server
  | ((client, s), some status) =>
      if status.isOk then
        (finishOpen answers path (fun client => client.eraseCache path) client, s)
      else ({ client with disk := client.disk.remove path }, s)
  | (state, none) => state

variable {answers path} {client client' : Client} {s : Server} {phase : CallPhase}
variable {next : Client × Server × CallPhase} {result : Client × Server}
variable {status : Status}

theorem settles_idle : Settles answers path (client, s, .idle) (client, s) :=
  ⟨0, rfl⟩

theorem settles_of_advance
    (advances : phase.advance answers path client s = some next)
    (settles : Settles answers path next result) :
    Settles answers path (client, s, phase) result := by
  obtain ⟨n, ends⟩ := settles
  exact ⟨n + 1, by simp [sections, advances, ends]⟩

/-! ## `open_file` -/

/-- A turn of the retry loop of `open_file`, up to the answer. -/
theorem settles_turn {left : Nat} {responses : List FileResponse}
    (answer : (s.registerOpen path client.clientId).sendFile path .success =
      (responses, status))
    (stores : storeAnswer answers path client left responses status =
      (client', phase))
    (settles : Settles answers path
      (client', s.registerOpen path client.clientId, phase) result) :
    Settles answers path (client, s, .opening left) result := by
  have answered : Settles answers path (client,
      s.registerOpen path client.clientId, .answered left responses status)
      result :=
    settles_of_advance (by simp [CallPhase.advance, stores]) settles
  have reading : Settles answers path (client,
      s.registerOpen path client.clientId, .reading left) result :=
    settles_of_advance (by simp [CallPhase.advance, answer]) answered
  exact settles_of_advance rfl reading

/-- The retry loop of `open_file` from a request on. -/
theorem settles_opening (client : Client) (s : Server) (left : Nat)
    (notYet : status.isOk = false) :
    Settles answers path (client, s, .opening left)
      (afterRetry answers path
        (retry (Client.downloadAttempt .direct answers path) (left + 1) status
          (client, s))) := by
  induction left using Nat.strong_induction_on generalizing client s status with
  | _ left ih =>
      obtain ⟨⟨responses, status'⟩, answer⟩ : ∃ sent,
          (s.registerOpen path client.clientId).sendFile path .success = sent :=
        ⟨_, rfl⟩
      obtain ⟨⟨client', outcome⟩, stores⟩ : ∃ stored,
          client.storeDownload answers path left responses status' = stored :=
        ⟨_, rfl⟩
      have attempt : Client.downloadAttempt .direct answers path left (client, s) =
          ((client', s.registerOpen path client.clientId), outcome) := by
        simp [Client.downloadAttempt, Remote.direct, Server.openHandler, answer,
          stores]
      simp only [retry, notYet, Bool.false_eq_true, if_false, attempt]
      cases outcome with
      | none =>
          have ended : storeAnswer answers path client left responses status' =
              (client', .idle) := by
            simp [storeAnswer, stores]
          exact settles_turn answer ended settles_idle
      | some code =>
          cases ok : code.isOk with
          | true =>
              have enters : storeAnswer answers path client left responses
                  status' = (client', .entered) := by
                simp [storeAnswer, stores, ok]
              dsimp only
              rw [retry_of_ok ok]
              simp only [afterRetry, ok, if_true]
              exact settles_turn answer enters
                (settles_of_advance rfl settles_idle)
          | false =>
              cases left with
              | zero =>
                  have givesUp : storeAnswer answers path client 0 responses
                      status' =
                        ({ client' with disk := client'.disk.remove path },
                          .idle) := by
                    simp [storeAnswer, stores, ok]
                  simp only [retry, afterRetry, ok, Bool.false_eq_true, if_false]
                  exact settles_turn answer givesUp settles_idle
              | succ left =>
                  have again : storeAnswer answers path client (left + 1)
                      responses status' = (client', .opening left) := by
                    simp [storeAnswer, stores, ok]
                  exact settles_turn answer again
                    (ih left (Nat.lt_succ_self left) _ _ ok)

theorem openUncached_eq_afterRetry (client : Client) (s : Server)
    (directories : answers.directories = true) :
    (client.openUncached .direct answers path s).1 =
      afterRetry answers path
        (retry (Client.downloadAttempt .direct answers path) maxTries .initial
          (client, s)) := by
  simp only [Client.openUncached, directories, Bool.true_eq_false, if_false]
  obtain ⟨⟨⟨client', s'⟩, outcome⟩, ends⟩ : ∃ ended,
      retry (Client.downloadAttempt .direct answers path) maxTries .initial
        (client, s) = ended := ⟨_, rfl⟩
  rw [ends]
  cases outcome with
  | none => rfl
  | some code =>
      simp only [afterRetry, finishOpen]
      cases code.isOk with
      | true => cases client'.openStreams answers path <;> rfl
      | false => rfl

theorem settles_openFile (client : Client) (s : Server) :
    Settles answers path
      ((FileCall.openFile.begin answers path client).1, s,
        (FileCall.openFile.begin answers path client).2)
      (client.openFile .direct answers path s).1 := by
  unfold FileCall.begin Client.openFile
  cases cached : client.cache path with
  | none =>
      cases directories : answers.directories with
      | false =>
          simp only [Client.openUncached, directories, if_true, Bool.false_eq_true,
            if_false]
          exact settles_idle
      | true =>
          simp only [openUncached_eq_afterRetry client s directories, if_true]
          exact settles_opening client s (maxTries - 1) rfl
  | some info =>
      cases opened : client.openedFiles path with
      | some streams =>
          simp only [Client.openCached, opened]
          exact settles_idle
      | none =>
          refine settles_of_advance rfl ?_
          simp only [Client.openCached, opened, finishOpen]
          cases client.openStreams answers path with
          | none => exact settles_idle
          | some streams => exact settles_idle

/-! ## The other functions -/

theorem settles_createFile (client : Client) (s : Server) :
    Settles answers path
      ((FileCall.createFile.begin answers path client).1, s,
        (FileCall.createFile.begin answers path client).2)
      ((client.createFile answers path).1, s) := by
  unfold FileCall.begin Client.createFile
  cases client.beginCreate answers path with
  | none => exact settles_idle
  | some created => exact settles_of_advance rfl settles_idle

/-- What `close` answers to messages of one client for one file. -/
theorem closeCall_of_sent {stream : List FileRequest} {clientId : ClientId}
    (s : Server) (nonempty : stream ≠ [])
    (sent : ∀ request ∈ stream,
      request.path = path ∧ request.clientId = clientId) :
    Remote.direct.closeCall s stream =
      ((s.receiveFile path stream).finishClose path clientId
          (getFileTimestamp (s.receiveFile path stream).disk path),
        ⟨[], 0, getFileTimestamp (s.receiveFile path stream).disk path⟩,
        Status.OK) := by
  cases stream with
  | nil => exact absurd rfl nonempty
  | cons first later =>
      have isPath : first.path = path := (sent first List.mem_cons_self).1
      have isClient : ((first :: later).getLast (by simp)).clientId = clientId :=
        (sent _ (List.getLast_mem _)).2
      simp only [Remote.direct, Server.closeHandler, isPath, isClient]

/-- The branch of `close_file` for a modified file, from the request on. -/
theorem settles_upload {streams : FileStreams} {requests : List FileRequest}
    (begins : client.beginUpload answers path streams =
      (client', some requests)) (s : Server) :
    Settles answers path (client', s, .uploading requests)
      (client.closeModified .direct answers path streams s).1 := by
  obtain ⟨contents, -, isUpload, isClosed⟩ := Client.beginUpload_eq_some begins
  have sameId : client'.clientId = client.clientId := by
    rw [isClosed]
    rfl
  have sent : ∀ request ∈ requests,
      request.path = path ∧ request.clientId = client.clientId := by
    intro request member
    rw [isUpload] at member
    exact Client.of_mem_uploadRequests member
  have call := closeCall_of_sent s
    (isUpload ▸ client.uploadRequests_ne_nil path contents) sent
  have attempt : Client.uploadAttempt Remote.direct requests 2 (s, ⟨[], 0, 0⟩) =
      (((s.receiveFile path requests).finishClose path client.clientId
          (getFileTimestamp (s.receiveFile path requests).disk path),
        ⟨[], 0, getFileTimestamp (s.receiveFile path requests).disk path⟩),
        some Status.OK) := by
    simp only [Client.uploadAttempt, call]
  have ends : (client.closeModified .direct answers path streams s).1 =
      (client'.finishUpload path
          (getFileTimestamp (s.receiveFile path requests).disk path),
        (s.receiveFile path requests).finishClose path client'.clientId
          (getFileTimestamp (s.receiveFile path requests).disk path)) := by
    simp [Client.closeModified, begins, maxTries, retry, attempt,
      Status.initial, Status.isOk, Status.OK, sameId]
  rw [ends]
  exact settles_of_advance rfl (settles_of_advance rfl
    (settles_of_advance rfl settles_idle))

theorem settles_closeFile (client : Client) (s : Server) :
    Settles answers path
      ((FileCall.closeFile.begin answers path client).1, s,
        (FileCall.closeFile.begin answers path client).2)
      (client.closeFile .direct answers path s).1 := by
  simp only [FileCall.begin]
  unfold beginClose Client.closeFile
  cases client.openedFiles path with
  | none => exact settles_idle
  | some streams =>
      by_cases locked : path ∈ client.fileMutexes
      · simp only [locked, not_true_eq_false, if_false]
        cases client.cache path with
        | none => exact settles_idle
        | some info =>
            cases modified : info.locallyModified with
            | false =>
                simp only [modified, Bool.false_eq_true, if_false]
                exact settles_idle
            | true =>
                simp only [modified, if_true]
                cases begins : client.beginUpload answers path streams with
                | mk client' result =>
                    cases result with
                    | none =>
                        simp only [Client.closeModified, begins]
                        exact settles_idle
                    | some requests => exact settles_upload begins s
      · simp only [locked, not_false_eq_true, if_true]
        exact settles_idle

theorem settles_deleteFile (client : Client) (s : Server) :
    Settles answers path
      ((FileCall.deleteFile.begin answers path client).1, s,
        (FileCall.deleteFile.begin answers path client).2)
      (client.deleteFile .direct path s).1 := by
  cases present : s.disk.node path with
  | none =>
      have answers' : Remote.direct.unlinkCall s path
          (client.beginDelete path).clientId =
            (s, ⟨.notFound, "Source file not found"⟩) := by
        simp [Remote.direct, Server.unlinkHandler, present]
      have refused : CallPhase.removing.advance answers path
          (client.beginDelete path) s = some (client.beginDelete path, s,
            .deleted ⟨.notFound, "Source file not found"⟩) := by
        simp [CallPhase.advance, present]
      have ends : (client.deleteFile .direct path s).1 =
          (client.beginDelete path, s) := by
        simp only [Client.deleteFile, answers']
        rfl
      rw [ends]
      exact settles_of_advance refused (settles_of_advance rfl settles_idle)
  | some i =>
      have answers' : Remote.direct.unlinkCall s path
          (client.beginDelete path).clientId =
            ((Server.fileChangeCallbackUnlink
              { s with disk := s.disk.remove path } path
              (client.beginDelete path).clientId
              (Server.deleteNotification path)), Status.OK) := by
        simp [Remote.direct, Server.unlinkHandler, present]
      have removes : CallPhase.removing.advance answers path
          (client.beginDelete path) s = some (client.beginDelete path,
            { s with disk := s.disk.remove path }, .removed) := by
        simp [CallPhase.advance, present]
      have ends : (client.deleteFile .direct path s).1 =
          ({ client.beginDelete path with
              disk := (client.beginDelete path).disk.remove path },
            Server.fileChangeCallbackUnlink
              { s with disk := s.disk.remove path } path
              (client.beginDelete path).clientId
              (Server.deleteNotification path)) := by
        simp only [Client.deleteFile, answers']
        rfl
      rw [ends]
      exact settles_of_advance removes (settles_of_advance rfl
        (settles_of_advance rfl settles_idle))

/-- Every call comes to its end where its function does. -/
theorem settles_begin (call : FileCall) (client : Client) (s : Server) :
    Settles answers path
      ((call.begin answers path client).1, s,
        (call.begin answers path client).2)
      (call.whole answers path client s) := by
  cases call with
  | openFile => exact settles_openFile client s
  | createFile => exact settles_createFile client s
  | writeFile data position => exact settles_idle
  | closeFile => exact settles_closeFile client s
  | deleteFile => exact settles_deleteFile client s

end Sections

section Cluster

variable {σ : Cluster} {client : ClientId} {path : Path}
variable {answers : LocalAnswers}

/-- Sections of one call are events of the cluster. -/
theorem run_advances {n : Nat} {start last : Client × Server × CallPhase}
    (ends : sections answers path n start = some last) :
    run ClusterEvent.step
        (List.replicate n (.advance client path answers))
        (σ.afterSection client path start) =
      some (σ.afterSection client path last) := by
  induction n generalizing start with
  | zero =>
      obtain rfl := Option.some.inj ends
      rfl
  | succ n ih =>
      obtain ⟨next, advances, later⟩ := Option.bind_eq_some_iff.mp ends
      refine run_cons_eq_some.mpr ⟨σ.afterSection client path next, ?_, ih later⟩
      simp [ClusterEvent.step, Cluster.afterSection, advances]

/-- A call that nothing interrupts ends where its function does. -/
theorem exists_run_of_call (idle : σ.calls client path = .idle)
    (call : FileCall) :
    ∃ events, run ClusterEvent.step events σ =
      some (σ.afterSection client path
        ((call.whole answers path (σ.clients client) σ.server).1,
          (call.whole answers path (σ.clients client) σ.server).2, .idle)) := by
  obtain ⟨n, ends⟩ := @settles_begin answers path call (σ.clients client)
    σ.server
  refine ⟨.start client path call answers ::
    List.replicate n (.advance client path answers), ?_⟩
  refine run_cons_eq_some.mpr ⟨_, ?_, run_advances ends⟩
  simp [ClusterEvent.step, idle]

end Cluster

/-- What happens when calls take turns: a call from its start to its end, or
one of the other events. -/
inductive TurnEvent where
  | call (client : ClientId) (path : Path) (call : FileCall)
      (answers : LocalAnswers)
  | send (client : ClientId)
  | deliver (client : ClientId)
  | tick (now : Int)

/-- One event, between two calls. -/
def TurnEvent.step : TurnEvent → Cluster → Option Cluster
  | .call client path function answers, σ =>
      match σ.calls client path with
      | .idle =>
          let (after, s) :=
            function.whole answers path (σ.clients client) σ.server
          some { σ with
            server := s
            clients := Function.update σ.clients client after }
      | _ => none
  | .send client, σ => (ClusterEvent.send client).step σ
  | .deliver client, σ => (ClusterEvent.deliver client).step σ
  | .tick now, σ => (ClusterEvent.tick now).step σ

section Turns

variable {σ σ' : Cluster}

theorem exists_run_of_turn {event : TurnEvent}
    (steps : event.step σ = some σ') :
    ∃ events, run ClusterEvent.step events σ = some σ' := by
  have one : ∀ other : ClusterEvent, other.step σ = some σ' →
      ∃ events, run ClusterEvent.step events σ = some σ' :=
    fun other takes => ⟨[other], run_cons_eq_some.mpr ⟨σ', takes, rfl⟩⟩
  cases event with
  | call client path function answers =>
      simp only [TurnEvent.step] at steps
      split at steps
      · next idle =>
          obtain rfl := Option.some.inj steps
          obtain ⟨events, ends⟩ :=
            @exists_run_of_call σ client path answers idle function
          refine ⟨events, ends.trans ?_⟩
          simp [Cluster.afterSection, ← idle]
      · simp at steps
  | send client => exact one (.send client) steps
  | deliver client => exact one (.deliver client) steps
  | tick now => exact one (.tick now) steps

/-- Calls that take turns are one of the ways in which calls interleave: what a
run of whole calls, with any answers of the local file systems, does to the
cluster, some run of their sections does. -/
theorem turns_interleave {events : List TurnEvent}
    (runs : run TurnEvent.step events σ = some σ') :
    ∃ events', run ClusterEvent.step events' σ = some σ' := by
  induction events generalizing σ with
  | nil => exact ⟨[], runs⟩
  | cons event events ih =>
      obtain ⟨next, steps, later⟩ := run_cons_eq_some.mp runs
      obtain ⟨first, reaches⟩ := exists_run_of_turn steps
      obtain ⟨second, ends⟩ := ih later
      exact ⟨first ++ second, run_append reaches ends⟩

end Turns

/-- A server with one empty file and clients that have called nothing. -/
private def clusterWithFile : Cluster where
  server := Server.launch "/srv" (FileStore.empty.create "/srv/a" 0) 0
  clients := Client.launch
  inFlight _ := []
  calls _ _ := .idle

/-- A client writes one byte to the file and closes it, which fails because the
file cannot be opened again.  Then another client opens the file. -/
private def byteWritten : List TurnEvent :=
  [.call "writer" "/srv/a" .openFile (.success 1),
    .call "writer" "/srv/a" (.writeFile [97] 0) (.success 2),
    .call "writer" "/srv/a" .closeFile
      { LocalAnswers.success 3 with reopen := false },
    .call "reader" "/srv/a" .openFile (.success 4)]

/-- The sections of these calls leave the server with the old file. -/
theorem turns_interleave_unsaved :
    ∃ events σ, run ClusterEvent.step events clusterWithFile = some σ ∧
      (σ.clients "writer").disk.read "/srv/a" = some [97] ∧
      (σ.clients "reader").disk.read "/srv/a" = some [] := by
  have runs : run TurnEvent.step byteWritten clusterWithFile = some _ := rfl
  obtain ⟨events, ends⟩ := turns_interleave runs
  exact ⟨events, _, ends, rfl, rfl⟩

end DistributedFilesystem
