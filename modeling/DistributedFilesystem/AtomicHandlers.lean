import DistributedFilesystem.HandlerRuns
import DistributedFilesystem.ServerThreadsAlone

/-!
# Threads and atomic handlers

The threads of the handlers refine the handlers as functions: when a handler
runs alone, the function gives the server that it leaves, what it sends and its
status.
-/

namespace DistributedFilesystem

open LockedThreads TransitionRuns

/-- The responses of an `open` handler. -/
def HandlerLocals.responses (t : HandlerLocals) : List FileResponse :=
  t.sent.map fun block => ⟨block, block.length, t.timestamp⟩

/-- The handler of the request has taken the server from one state to another,
as the function of the same name does for some answer of the operating system. -/
def Request.Handled (s s' : Server) (t : HandlerLocals) : Request → Prop
  | .requestDir code client =>
      ∃ status, t.status = some status ∧
        s.requestDirHandler code client = (s', t.rootPath, status)
  | .open path client => ∃ outcome status, t.status = some status ∧
      s.openHandler ⟨path, client, []⟩ outcome = (s', t.responses, status)
  | .close path client stream => ∃ outcome status, t.status = some status ∧
      s.closeHandler (stream.map fun content => ⟨path, client, content⟩) outcome =
        (s', ⟨[], 0, t.timestamp⟩, status)
  | .rename oldPath newPath client => ∃ outcome status,
      t.status = some status ∧
        s.renameHandler oldPath newPath client outcome = some (s', status)
  | .unlink path client => ∃ outcome status, t.status = some status ∧
      s.unlinkHandler path client outcome = (s', status)
  | .getStatus => s' = s ∧ t.status = some Status.OK ∧
      s.getStatusHandler = ⟨t.connectedClients, t.fileToClients⟩
  | .subscribe _ => False
  | .monitor q => s' = s.cancel q

section Programs

variable {held : Set Lock} {s : Server} {log : List Event} {w' : Recorded}
variable {t t' : HandlerLocals} {path : Path} {client : ClientId}

/-- The callback of `close` and what comes after it. -/
theorem alone_closeCallback
    (alone : Alone exec held ⟨s, log⟩ t (closeCallback path client) w' t') :
    w'.server = s.finishClose path client t.timestamp ∧
      t' = { t with status := some Status.OK } := by
  obtain ⟨fresh, c, s₁, t₁, after, finds, later⟩ := Alone.guarded_iff.mp alone
  have finished : ∃ log', Alone exec held
      ⟨s.fileChangeCallbackClose path client
        (Server.updateNotification path t.timestamp), log'⟩ t
      [.lock .fileMapOpenMutex, .act (.eraseFileMapOpen path client),
        .unlock .fileMapOpenMutex, .act (.answer Status.OK)] w' t' := by
    simp only [exec] at finds
    split at finds
    · next clients entry =>
        simp only [Option.some.injEq, Prod.mk.injEq] at finds
        obtain ⟨rfl, rfl, rfl⟩ := finds
        obtain ⟨freshSubscribers, looping⟩ := Alone.lock_iff.mp later
        obtain ⟨log', notified⟩ := alone_notifyEach looping
        refine ⟨log', ?_⟩
        rw [Server.fileChangeCallbackClose, entry]
        exact (Alone.released_iff fresh).mp
          ((Alone.released_iff freshSubscribers).mp notified)
    · next entry =>
        simp only [Option.some.injEq, Prod.mk.injEq] at finds
        obtain ⟨rfl, rfl, rfl⟩ := finds
        refine ⟨log, ?_⟩
        rw [Server.fileChangeCallbackClose, entry]
        exact (Alone.released_iff fresh).mp later
  obtain ⟨log', erases⟩ := finished
  have answers := Alone.of_guarded (fun _ => rfl) erases
  obtain ⟨rfl, rfl⟩ := Alone.nil_iff.mp (Alone.of_act (fun _ => rfl) answers)
  exact ⟨rfl, rfl⟩

theorem alone_open
    (alone : Alone exec held ⟨s, log⟩ .start (openProgram path client) w' t')
    (sends : t'.status ≠ some ⟨.internal, "Server failed to create the file."⟩) :
    (Request.open path client).Handled s w'.server t' := by
  have registered := Alone.of_guarded (fun _ => rfl)
    (Alone.of_guarded (fun _ => rfl) alone)
  obtain ⟨c, s₁, t₁, after, opens, later⟩ := Alone.act_iff.mp registered
  simp only [exec] at opens
  split at opens
  · next i node =>
      simp only [Option.some.injEq, Prod.mk.injEq] at opens
      obtain ⟨rfl, rfl, rfl⟩ := opens
      have stamped := Alone.of_act (fun _ => rfl) later
      obtain ⟨input, sent⟩ := (alone_sendChunks rfl (by simp)
        stamped).resolve_left sends
      obtain ⟨rfl, rfl⟩ := Alone.nil_iff.mp sent
      have read : s.disk.read path = some (s.disk.nodes i).contents := by
        have refers : s.disk.node path = some i := node
        simp [FileStore.read, refers]
      refine ⟨.success, Status.OK, rfl, ?_⟩
      simp [Server.openHandler, Server.sendFile, Server.registerOpen, read,
        HandlerLocals.responses, Server.openResponses, HandlerLocals.start]
  · next node =>
      simp only [Option.some.injEq, Prod.mk.injEq] at opens
      obtain ⟨rfl, rfl, rfl⟩ := opens
      obtain ⟨rfl, rfl⟩ := Alone.nil_iff.mp later
      have read : s.disk.read path = none := by
        simpa [FileStore.read] using node
      refine ⟨.success, _, rfl, ?_⟩
      simp [Server.openHandler, Server.sendFile, Server.registerOpen, read,
        HandlerLocals.responses, HandlerLocals.start]
  · simp only [Option.some.injEq, Prod.mk.injEq] at opens
    obtain ⟨rfl, rfl, rfl⟩ := opens
    obtain ⟨rfl, rfl⟩ := Alone.nil_iff.mp later
    refine ⟨.failure, _, rfl, ?_⟩
    simp [Server.openHandler, Server.sendFile, Server.registerOpen,
      HandlerLocals.responses, HandlerLocals.start]
  · simp at opens

theorem alone_close {stream : List Bytes}
    (alone : Alone exec held ⟨s, log⟩ .start (closeProgram path client stream)
      w' t') :
    (Request.close path client stream).Handled s w'.server t' := by
  cases stream with
  | nil =>
      obtain ⟨c, s₁, t₁, after, receives, later⟩ := Alone.act_iff.mp alone
      have nothing : s₁ = ⟨s, log⟩ ∧ t₁ = .start ∧
          after = .act .closeOutput :: .act (.stamp path) ::
            closeCallback path client := by
        cases c <;> simp [exec, HandlerLocals.start] at receives
        exact ⟨receives.1.symm, receives.2.1.symm, receives.2.2.symm⟩
      obtain ⟨rfl, rfl, rfl⟩ := nothing
      obtain ⟨c, s₁, t₁, after, closes, later⟩ := Alone.act_iff.mp later
      simp only [exec, HandlerLocals.start, Option.some.injEq, Prod.mk.injEq]
        at closes
      obtain ⟨rfl, rfl, rfl⟩ := closes
      obtain ⟨rfl, rfl⟩ := Alone.nil_iff.mp later
      exact ⟨.success, _, rfl, rfl⟩
  | cons message messages =>
      obtain ⟨c, s₁, t₁, after, receives, later⟩ := Alone.act_iff.mp alone
      cases c with
      | go =>
          obtain ⟨i, refers, empty⟩ :=
            FileStore.exists_node_openTruncated s.disk path s.clock
          simp only [exec, HandlerLocals.start, refers, Option.some.injEq,
            Prod.mk.injEq] at receives
          obtain ⟨rfl, rfl, rfl⟩ := receives
          obtain ⟨log', received⟩ := alone_receive rfl rfl (by simp [empty]) later
          have stored : (s.disk.openTruncated path s.clock).writeAt i 0
              (message ++ messages.flatten) s.clock =
                s.disk.replace path (message :: messages) s.clock := by
            simp only [FileStore.replace, refers]
            rw [FileStore.writeBlocks_eq_writeAt (by simp [empty]),
              List.flatten_cons]
          dsimp only at received
          rw [stored] at received
          obtain ⟨server, rfl⟩ :=
            alone_closeCallback (Alone.of_act (fun _ => rfl) received)
          refine ⟨.success, Status.OK, rfl, ?_⟩
          rw [server]
          have last : ((message :: messages).map fun content =>
              (⟨path, client, content⟩ : FileRequest)).getLast (by simp) =
                ⟨path, client, (message :: messages).getLast (by simp)⟩ := by
            rw [List.getLast_map]
          simp only [Server.closeHandler, List.map_cons]
          simp only [List.map_cons] at last
          rw [last]
          simp [Server.receiveFile, Function.comp_def]
      | fail =>
          simp only [exec, HandlerLocals.start, if_true, Option.some.injEq,
            Prod.mk.injEq] at receives
          obtain ⟨rfl, rfl, rfl⟩ := receives
          obtain ⟨rfl, rfl⟩ := Alone.nil_iff.mp later
          exact ⟨.failure, _, rfl, rfl⟩
      | _ => simp [exec, HandlerLocals.start] at receives

theorem alone_rename {oldPath newPath : Path}
    (alone : Alone exec held ⟨s, log⟩ .start
      (renameProgram oldPath newPath client) w' t') :
    (Request.rename oldPath newPath client).Handled s w'.server t' := by
  obtain ⟨c, s₁, t₁, after, renames, later⟩ := Alone.act_iff.mp alone
  simp only [exec] at renames
  split at renames
  · next i node =>
      have refers : s.disk.node oldPath = some i := node
      simp only [Option.some.injEq, Prod.mk.injEq] at renames
      obtain ⟨rfl, rfl, rfl⟩ := renames
      have stamped := Alone.of_act (fun _ => rfl) later
      obtain ⟨fresh, c, s₂, t₂, after, finds, later⟩ :=
        Alone.guarded_iff.mp stamped
      simp only [exec] at finds
      split at finds
      · next clients entry =>
          have entry : s.fileMap oldPath = some clients := entry
          simp only [Option.some.injEq, Prod.mk.injEq] at finds
          obtain ⟨rfl, rfl, rfl⟩ := finds
          obtain ⟨freshSubscribers, looping⟩ := Alone.lock_iff.mp later
          obtain ⟨log', notified⟩ := alone_notifyEach looping
          have moved := Alone.of_act (fun _ => rfl)
            ((Alone.released_iff freshSubscribers).mp notified)
          have answers := Alone.of_act (fun _ => rfl)
            ((Alone.released_iff fresh).mp moved)
          obtain ⟨rfl, rfl⟩ := Alone.nil_iff.mp answers
          refine ⟨.success, Status.OK, rfl, ?_⟩
          simp [Server.renameHandler, Server.fileChangeCallbackRename, refers,
            entry]
      · -- The handler waits for the mutex that it holds.
        simp only [Option.some.injEq, Prod.mk.injEq] at finds
        obtain ⟨rfl, rfl, rfl⟩ := finds
        have again := (Alone.lock_iff.mp later).1
        simp at again
  · next node =>
      have refers : s.disk.node oldPath = none := node
      simp only [Option.some.injEq, Prod.mk.injEq] at renames
      obtain ⟨rfl, rfl, rfl⟩ := renames
      obtain ⟨rfl, rfl⟩ := Alone.nil_iff.mp later
      exact ⟨.success, _, rfl, by simp [Server.renameHandler, refers]⟩
  · simp only [Option.some.injEq, Prod.mk.injEq] at renames
    obtain ⟨rfl, rfl, rfl⟩ := renames
    obtain ⟨rfl, rfl⟩ := Alone.nil_iff.mp later
    exact ⟨.failure, _, rfl, by simp [Server.renameHandler]⟩
  · simp at renames

theorem alone_unlink
    (alone : Alone exec held ⟨s, log⟩ .start (unlinkProgram path client) w' t') :
    (Request.unlink path client).Handled s w'.server t' := by
  obtain ⟨c, s₁, t₁, after, removes, later⟩ := Alone.act_iff.mp alone
  simp only [exec] at removes
  split at removes
  · next i node =>
      have refers : s.disk.node path = some i := node
      simp only [Option.some.injEq, Prod.mk.injEq] at removes
      obtain ⟨rfl, rfl, rfl⟩ := removes
      obtain ⟨fresh, c, s₂, t₂, after, finds, later⟩ :=
        Alone.guarded_iff.mp later
      refine ⟨.success, Status.OK, ?_⟩
      simp only [exec] at finds
      split at finds
      · next clients entry =>
          have entry : s.fileMap path = some clients := entry
          simp only [Option.some.injEq, Prod.mk.injEq] at finds
          obtain ⟨rfl, rfl, rfl⟩ := finds
          obtain ⟨freshSubscribers, looping⟩ := Alone.lock_iff.mp later
          obtain ⟨log', notified⟩ := alone_notifyEach looping
          have erased := Alone.of_act (fun _ => rfl)
            ((Alone.released_iff freshSubscribers).mp notified)
          have answers := Alone.of_act (fun _ => rfl)
            ((Alone.released_iff fresh).mp erased)
          obtain ⟨rfl, rfl⟩ := Alone.nil_iff.mp answers
          refine ⟨rfl, ?_⟩
          simp [Server.unlinkHandler, Server.fileChangeCallbackUnlink, refers,
            entry]
      · next entry =>
          have entry : s.fileMap path = none := entry
          simp only [Option.some.injEq, Prod.mk.injEq] at finds
          obtain ⟨rfl, rfl, rfl⟩ := finds
          have answers := Alone.of_act (fun _ => rfl)
            ((Alone.released_iff fresh).mp later)
          obtain ⟨rfl, rfl⟩ := Alone.nil_iff.mp answers
          refine ⟨rfl, ?_⟩
          simp [Server.unlinkHandler, Server.fileChangeCallbackUnlink, refers,
            entry]
  · next i node =>
      have refers : s.disk.node path = some i := node
      simp only [Option.some.injEq, Prod.mk.injEq] at removes
      obtain ⟨rfl, rfl, rfl⟩ := removes
      obtain ⟨rfl, rfl⟩ := Alone.nil_iff.mp later
      exact ⟨.permissionDenied, _, rfl, by simp [Server.unlinkHandler, refers]⟩
  · next i node =>
      have refers : s.disk.node path = some i := node
      simp only [Option.some.injEq, Prod.mk.injEq] at removes
      obtain ⟨rfl, rfl, rfl⟩ := removes
      obtain ⟨rfl, rfl⟩ := Alone.nil_iff.mp later
      exact ⟨.failure, _, rfl, by simp [Server.unlinkHandler, refers]⟩
  · next node =>
      have refers : s.disk.node path = none := node
      simp only [Option.some.injEq, Prod.mk.injEq] at removes
      obtain ⟨rfl, rfl, rfl⟩ := removes
      obtain ⟨rfl, rfl⟩ := Alone.nil_iff.mp later
      exact ⟨.success, _, rfl, by simp [Server.unlinkHandler, refers]⟩
  · simp at removes

theorem alone_requestDir {code : String}
    (alone : Alone exec held ⟨s, log⟩ .start (requestDirProgram code client)
      w' t') :
    (Request.requestDir code client).Handled s w'.server t' := by
  obtain ⟨c, s₁, t₁, after, requests, later⟩ := Alone.act_iff.mp alone
  simp only [exec] at requests
  split at requests
  · next right =>
      simp only [Option.some.injEq, Prod.mk.injEq] at requests
      obtain ⟨rfl, rfl, rfl⟩ := requests
      obtain ⟨rfl, rfl⟩ := Alone.nil_iff.mp later
      by_cases anonymous : client = "" <;>
        simp [Request.Handled, Server.requestDirHandler, right, anonymous]
  · next wrong =>
      simp only [Option.some.injEq, Prod.mk.injEq] at requests
      obtain ⟨rfl, rfl, rfl⟩ := requests
      obtain ⟨rfl, rfl⟩ := Alone.nil_iff.mp later
      simp [Request.Handled, Server.requestDirHandler, HandlerLocals.start, wrong]

theorem alone_getStatus
    (alone : Alone exec held ⟨s, log⟩ .start getStatusProgram w' t') :
    Request.getStatus.Handled s w'.server t' := by
  have reported := Alone.of_guarded (fun _ => rfl)
    (Alone.of_guarded (fun _ => rfl) alone)
  obtain ⟨rfl, rfl⟩ := Alone.nil_iff.mp (Alone.of_act (fun _ => rfl) reported)
  exact ⟨rfl, rfl, rfl⟩

theorem alone_monitor {q : QueueId}
    (alone : Alone exec held ⟨s, log⟩ .start (monitorProgram q) w' t') :
    (Request.monitor q).Handled s w'.server t' := by
  obtain ⟨c, s₁, t₁, after, waits, later⟩ := Alone.act_iff.mp alone
  simp only [exec] at waits
  split at waits
  · simp only [Option.some.injEq, Prod.mk.injEq] at waits
    obtain ⟨rfl, rfl, rfl⟩ := waits
    have cancelled := Alone.of_guarded (fun _ => rfl) later
    obtain ⟨rfl, rfl⟩ := Alone.nil_iff.mp cancelled
    rfl
  · simp at waits

/-- Alone a `subscribe` handler waits forever for a first notification. -/
theorem not_alone_subscribe :
    ¬ Alone exec held ⟨s, log⟩ .start (subscribeProgram client) w' t' := by
  intro alone
  obtain ⟨c, s₁, t₁, after, creates, later⟩ := Alone.act_iff.mp alone
  simp only [exec, Option.some.injEq, Prod.mk.injEq] at creates
  obtain ⟨rfl, rfl, rfl⟩ := creates
  have inserted := Alone.of_guarded (fun _ => rfl) later
  obtain ⟨c, s₁, t₁, after, waits, -⟩ := Alone.act_iff.mp inserted
  simp [exec, Server.setQueue] at waits

/-- `cleanup_client`, which `subscribe` runs when it leaves its loop. -/
theorem alone_cleanup
    (alone : Alone exec held ⟨s, log⟩ t (cleanupProgram client) w' t') :
    w'.server = s.cleanupClient client ∧ t' = t := by
  have swept := Alone.of_guarded (fun _ => rfl)
    (Alone.of_guarded (fun _ => rfl) alone)
  obtain ⟨fresh, c, s₁, t₁, after, finds, later⟩ := Alone.guarded_iff.mp swept
  simp only [exec] at finds
  split at finds
  · next q subscriber =>
      have subscriber : s.subscribers client = some q := subscriber
      simp only [Option.some.injEq, Prod.mk.injEq] at finds
      obtain ⟨rfl, rfl, rfl⟩ := finds
      have cancelled := Alone.of_guarded (fun _ => rfl) later
      have erased := Alone.of_act (fun _ => rfl) cancelled
      obtain ⟨rfl, rfl⟩ := Alone.nil_iff.mp ((Alone.released_iff fresh).mp erased)
      simp [Server.cleanupClient, subscriber]
  · next subscriber =>
      have subscriber : s.subscribers client = none := subscriber
      simp only [Option.some.injEq, Prod.mk.injEq] at finds
      obtain ⟨rfl, rfl, rfl⟩ := finds
      obtain ⟨rfl, rfl⟩ := Alone.nil_iff.mp ((Alone.released_iff fresh).mp later)
      simp [Server.cleanupClient, subscriber]

end Programs

/-- When a handler runs alone from its start to its return, and the file that it
sends does not fail, the server is what the function of the same name gives for
some answer of the operating system, and so are what it sends and its status. -/
theorem handlers_refine_functions {ι : Type*} [DecidableEq ι]
    (σ τ : Handlers ι) (i : ι) (request : Request)
    (started : σ.threads i = ⟨.start, request.program⟩) (choices : List Choice)
    (reaches : run (step exec) (choices.map fun choice => (i, choice)) σ =
      some τ)
    (ended : (τ.threads i).code = [])
    (sends : (τ.threads i).locals.status ≠
      some ⟨.internal, "Server failed to create the file."⟩) :
    request.Handled σ.shared.server τ.shared.server (τ.threads i).locals := by
  have alone := alone_of_run reaches ended
  rw [started] at alone
  cases request with
  | requestDir code client => exact alone_requestDir alone
  | «open» path client => exact alone_open alone sends
  | close path client stream => exact alone_close alone
  | rename oldPath newPath client => exact alone_rename alone
  | unlink path client => exact alone_unlink alone
  | getStatus => exact alone_getStatus alone
  | subscribe client => exact (not_alone_subscribe alone).elim
  | monitor q => exact alone_monitor alone

/-- The first message of an upload is written out before the second one comes. -/
private def earlyFlush : List Choice :=
  [.go, .flush 1] ++ List.replicate 11 .go

private def uploadAlone : Handlers Unit :=
  Handlers.start (Server.launch "/srv" FileStore.empty 0) fun _ =>
    .close "/srv/a" "writer" [[1, 2], [3]]

theorem handlers_refine_functions_upload :
    ∃ τ : Handlers Unit,
      run (step exec) (earlyFlush.map fun choice => ((), choice)) uploadAlone =
          some τ ∧
        (Request.close "/srv/a" "writer" [[1, 2], [3]]).Handled
          (Server.launch "/srv" FileStore.empty 0) τ.shared.server
          (τ.threads ()).locals := by
  obtain ⟨τ, reaches, ended, answered⟩ : ∃ τ,
      run (step exec) (earlyFlush.map fun choice => ((), choice)) uploadAlone =
          some τ ∧
        (τ.threads ()).code = [] ∧
        (τ.threads ()).locals.status = some Status.OK :=
    ⟨_, rfl, rfl, rfl⟩
  exact ⟨τ, reaches, handlers_refine_functions uploadAlone τ () _ rfl earlyFlush
    reaches ended (by simp [answered, Status.OK])⟩

end DistributedFilesystem
