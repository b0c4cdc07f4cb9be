import DistributedFilesystem.SubscribeLoop

/-!
# Streams of notifications

The queue of a client that subscribes once is pushed to by the callbacks of the
other clients' calls, popped by its `subscribe` handler, and may be cancelled at
any time.  What the handler has popped, followed by what is in the queue, is
always what was pushed to the client, and the handler leaves its loop only when a
write failed or when the queue is shut down and empty.
-/

namespace DistributedFilesystem

open LockedThreads TransitionRuns

section Steps

variable {ι : Type*} {i : ι} {client : ClientId}
variable {history : List QueueUse} {label : ι × Choice} {σ σ' : Handlers ι}
variable {a : Action} {rest after : Code} {locals : HandlerLocals}

/-- Thread `i` has popped what the client was sent before what is in its
queue. -/
structure Streams (i : ι) (client : ClientId) (history : List QueueUse)
    (σ : Handlers ι) : Prop
    extends OwnsQueue i client (createdQueue history) σ where
  stage : SubscribeStage client (poppedNotes history) (σ.threads i).locals
    (createdQueue history) (queuePart (σ.threads i).code)
  continues : ∀ a, .act a ∈ (σ.threads i).code → ¬ a.Returns
  faithful : poppedNotes history ++
      contentOf σ.shared.server.queues (createdQueue history) =
    pushesTo client σ.shared.log

/-- Only the handler that has not registered its queue yet creates one. -/
theorem Streams.creating (streams : Streams i client history σ)
    {c : ClientId} (code : (σ.threads i).code = .act (.createQueue c) :: rest) :
    c = client ∧ createdQueue history = none := by
  have stage := streams.stage
  rw [code, queuePart_act] at stage
  simp only [Action.UsesQueue, if_true] at stage
  generalize createdEq : createdQueue history = created at stage
  generalize partEq : Instr.act (.createQueue c) :: queuePart rest = part at stage
  cases stage with
  | registering nothing notWritten noNote =>
      cases (List.cons.inj partEq).1
      exact ⟨rfl, rfl⟩
  | waiting | popping | writing | left => simp at partEq

/-- The handler pops from the queue it created. -/
theorem Streams.popping (streams : Streams i client history σ)
    {c : ClientId} {q : QueueId}
    (code : (σ.threads i).code = .act (.pop c q) :: rest) :
    createdQueue history = some q := by
  have stage := streams.stage
  rw [code, queuePart_act] at stage
  simp only [Action.UsesQueue, if_true] at stage
  generalize createdEq : createdQueue history = created at stage
  generalize partEq : Instr.act (.pop c q) :: queuePart rest = part at stage
  cases stage with
  | popping r written noNote =>
      cases (List.cons.inj partEq).1
      rfl
  | registering | waiting | writing | left => simp at partEq

/-- An action that neither creates nor pops the queue appends what it pushes to
the client. -/
theorem faithful_of_other (streams : Streams i client history σ)
    (executes : exec a label.2 σ.shared (σ.threads label.1).locals rest =
      some (σ'.shared, locals, after))
    (code : (σ.threads label.1).code = .act a :: rest)
    (notPopping : ∀ receiver q, a = .pop receiver q →
      createdQueue history ≠ some q) :
    poppedNotes history ++
        contentOf σ'.shared.server.queues (createdQueue history) =
      pushesTo client σ'.shared.log := by
  have unchanged : contentOf (a.queuesAfter σ.shared.server)
        (createdQueue history) =
      contentOf σ.shared.server.queues (createdQueue history) ++
        a.pushes client := by
    apply content_of_other
    · intro q created
      have ⟨old, isSome⟩ := streams.exists_queue q created
      exact ⟨isSome, Nat.ne_of_lt old⟩
    · intro receiver q addresses
      have inCode : .act a ∈ (σ.threads label.1).code := by
        rw [code]
        exact List.mem_cons_self
      exact (streams.addressed label.1 _ inCode receiver q addresses).same
    · exact notPopping
  rw [queuesAfter_of_exec executes, pushesTo_of_exec client executes, unchanged,
    ← streams.faithful, List.append_assoc]

theorem faithful_of_create (streams : Streams i client history σ) {c : ClientId}
    (executes : exec (.createQueue c) label.2 σ.shared
      (σ.threads i).locals rest = some (σ'.shared, locals, after))
    (code : (σ.threads i).code = .act (.createQueue c) :: rest) :
    poppedNotes (history ++ [.created σ.shared.server.unusedQueue]) ++
        contentOf σ'.shared.server.queues (createdQueue
          (history ++ [.created σ.shared.server.unusedQueue])) =
      pushesTo client σ'.shared.log := by
  have noQueue := (streams.creating code).2
  have faithful := streams.faithful
  rw [noQueue] at faithful
  rw [createdQueue_append_created noQueue, queuesAfter_of_exec executes,
    pushesTo_of_exec client executes, ← faithful]
  simp [contentOf, Action.queuesAfter, Server.setQueue, Action.pushes]

theorem faithful_of_pop (streams : Streams i client history σ) {c : ClientId}
    {q : QueueId}
    (executes : exec (.pop c q) label.2 σ.shared (σ.threads i).locals rest =
      some (σ'.shared, locals, after))
    (code : (σ.threads i).code = .act (.pop c q) :: rest) :
    poppedNotes (history ++ (Action.pop c q).queueUse σ.shared.server) ++
        contentOf σ'.shared.server.queues (createdQueue history) =
      pushesTo client σ'.shared.log := by
  have created := streams.popping code
  have faithful := streams.faithful
  rw [queuesAfter_of_exec executes, pushesTo_of_exec client executes,
    ← faithful, created]
  rcases entry : σ.shared.server.queues q with
    _ | ⟨_ | ⟨note, notes⟩, shutdown⟩
  · simp [contentOf, Action.queuesAfter, Action.queueUse, entry, Action.pushes]
  · simp [contentOf, Action.queuesAfter, Action.queueUse, entry, Action.pushes]
  · simp [contentOf, Action.queuesAfter, Action.queueUse, entry,
      Server.setQueue, Action.pushes]

variable [DecidableEq ι]

/-- What a step of thread `i` does with queues. -/
def queueUses (i : ι) (label : ι × Choice) (σ : Handlers ι) : List QueueUse :=
  if label.1 = i then
    match (σ.threads i).code with
    | .act a :: _ => a.queueUse σ.shared.server
    | _ => []
  else []

theorem queueUses_of_ne (other : label.1 ≠ i) : queueUses i label σ = [] := by
  simp [queueUses, other]

theorem queueUses_of_act (code : (σ.threads label.1).code = .act a :: rest) :
    queueUses label.1 label σ = a.queueUse σ.shared.server := by
  simp [queueUses, code]

theorem queueUses_of_quiet {instr : Instr Lock Action}
    (notAct : ∀ a, instr ≠ .act a)
    (code : (σ.threads label.1).code = instr :: rest) :
    queueUses label.1 label σ = [] := by
  cases instr with
  | act a => exact absurd rfl (notAct a)
  | lock l => simp [queueUses, code]
  | unlock l => simp [queueUses, code]

theorem queuePart_of_quiet {instr : Instr Lock Action}
    (notAct : ∀ a, instr ≠ .act a) (rest : Code) :
    queuePart (instr :: rest) = queuePart rest := by
  cases instr with
  | act a => exact absurd rfl (notAct a)
  | lock l => simp
  | unlock l => simp

theorem createdQueue_append_queueUses
    (notCreating : label.1 = i → ¬ Creates (σ.threads i).code) :
    createdQueue (history ++ queueUses i label σ) = createdQueue history := by
  by_cases self : label.1 = i
  · have notHead := notCreating self
    rw [queueUses, if_pos self]
    split
    · next a rest code =>
        cases a with
        | createQueue c => exact absurd ⟨c, rest, code⟩ notHead
        | pop c q =>
            simp only [Action.queueUse]
            split
            · simp
            · simp
        | _ => simp [Action.queueUse]
    · simp
  · rw [queueUses_of_ne self, List.append_nil]

theorem ownsQueue_of_streams (streams : Streams i client history σ)
    (steps : step exec label σ = some σ') :
    OwnsQueue i client (createdQueue (history ++ queueUses i label σ)) σ' := by
  by_cases creating : label.1 = i ∧ Creates (σ.threads i).code
  · obtain ⟨rfl, c, rest, code⟩ := creating
    obtain ⟨rfl, noQueue⟩ := streams.creating code
    have owns := streams.toOwnsQueue
    rw [noQueue] at owns
    rw [queueUses_of_act code, Action.queueUse,
      createdQueue_append_created noQueue]
    exact ownsQueue_of_create owns steps code
  · have notCreating : label.1 = i → ¬ Creates (σ.threads i).code :=
      fun self creates => creating ⟨self, creates⟩
    rw [createdQueue_append_queueUses notCreating]
    exact ownsQueue_of_step streams.toOwnsQueue steps notCreating

theorem stage_of_streams (streams : Streams i client history σ)
    (steps : step exec label σ = some σ') :
    SubscribeStage client (poppedNotes (history ++ queueUses i label σ))
      (σ'.threads i).locals (createdQueue (history ++ queueUses i label σ))
      (queuePart (σ'.threads i).code) := by
  have moved := moved_of_step steps
  have stage := streams.stage
  by_cases self : label.1 = i
  · subst self
    cases moved.advanced with
    | quiet instr rest notAct code shared thread =>
        rw [code, queuePart_of_quiet notAct] at stage
        rw [queueUses_of_quiet notAct code, List.append_nil, thread]
        exact stage
    | act a rest after locals code executes thread =>
        rw [queueUses_of_act code, thread]
        rw [code] at stage
        cases uses : a.UsesQueue with
        | true => exact stage_of_use uses stage executes
        | false =>
            have continues := streams.continues a
              (code ▸ List.mem_cons_self)
            have nothing : a.queueUse σ.shared.server = [] := by
              cases a <;> first | rfl | cases uses
            rw [nothing, List.append_nil]
            exact stage_of_other uses continues stage executes
  · rw [queueUses_of_ne self, List.append_nil,
      moved.threads_ne (Ne.symm self)]
    exact stage

theorem continues_of_streams (streams : Streams i client history σ)
    (steps : step exec label σ = some σ') :
    ∀ a, .act a ∈ (σ'.threads i).code → ¬ a.Returns := by
  have moved := moved_of_step steps
  intro later member
  by_cases self : label.1 = i
  · subst self
    cases moved.advanced with
    | quiet instr rest notAct code shared thread =>
        rw [thread] at member
        exact streams.continues later
          (code ▸ List.mem_cons_of_mem _ member)
    | act a rest after locals code executes thread =>
        have continues := streams.continues a (code ▸ List.mem_cons_self)
        rcases later_of_exec code executes thread moved _ _ member with
          earlier | ⟨-, front, expansion, inFront⟩
        · exact streams.continues later earlier
        · exact not_returns_of_expands continues expansion later inFront
  · rw [moved.threads_ne (Ne.symm self)] at member
    exact streams.continues later member

theorem faithful_of_streams (streams : Streams i client history σ)
    (steps : step exec label σ = some σ') :
    poppedNotes (history ++ queueUses i label σ) ++
        contentOf σ'.shared.server.queues
          (createdQueue (history ++ queueUses i label σ)) =
      pushesTo client σ'.shared.log := by
  cases (moved_of_step steps).advanced with
  | quiet instr rest notAct code shared thread =>
      have nothing : queueUses i label σ = [] := by
        by_cases self : label.1 = i
        · subst self
          exact queueUses_of_quiet notAct code
        · exact queueUses_of_ne self
      rw [nothing, List.append_nil, shared]
      exact streams.faithful
  | act a rest after locals code executes thread =>
      by_cases self : label.1 = i
      · subst self
        rw [queueUses_of_act code]
        cases a with
        | createQueue c => exact faithful_of_create streams executes code
        | pop c q =>
            have created : createdQueue (history ++
                (Action.pop c q).queueUse σ.shared.server) =
                  createdQueue history := by
              rw [← queueUses_of_act code]
              apply createdQueue_append_queueUses
              rintro - ⟨other, later, creates⟩
              rw [code] at creates
              cases creates
            rw [created]
            exact faithful_of_pop streams executes code
        | _ =>
            simp only [Action.queueUse, List.append_nil]
            exact faithful_of_other streams executes code (by simp)
      · rw [queueUses_of_ne self, List.append_nil]
        apply faithful_of_other streams executes code
        rintro receiver q rfl
        exact (streams.receiving label.1 self _ (code ▸ List.mem_cons_self) q
          (.pop receiver)).2

/-- Every step keeps the stream faithful. -/
theorem streams_of_step (streams : Streams i client history σ)
    (steps : step exec label σ = some σ') :
    Streams i client (history ++ queueUses i label σ) σ' where
  toOwnsQueue := ownsQueue_of_streams streams steps
  stage := stage_of_streams streams steps
  continues := continues_of_streams streams steps
  faithful := faithful_of_streams streams steps

/-- The handler leaves its loop only when a write fails or when the queue is shut
down and empty, so that all that was pushed is popped. -/
theorem leaves_of_streams (streams : Streams i client history σ)
    {choice : Choice} (steps : step exec (i, choice) σ = some σ')
    (inLoop : InLoop (σ.threads i).code)
    (hasLeft : ¬ InLoop (σ'.threads i).code) :
    FailsToWrite choice (σ.threads i).code ∨
      (∃ q, createdQueue history = some q ∧
        σ.shared.server.queues q = some ⟨[], true⟩) ∧
      poppedNotes history = pushesTo client σ.shared.log := by
  rw [InLoop, not_not] at hasLeft
  cases (moved_of_step steps).advanced with
  | quiet instr rest notAct code shared thread =>
      rw [InLoop, code, queuePart_of_quiet notAct] at inLoop
      rw [thread] at hasLeft
      exact absurd hasLeft inLoop
  | act a rest after locals code executes thread =>
      rw [thread] at hasLeft
      cases uses : a.UsesQueue with
      | false =>
          have continues := streams.continues a (code ▸ List.mem_cons_self)
          rw [InLoop, code,
            ← queuePart_of_other uses continues executes] at inLoop
          exact absurd hasLeft inLoop
      | true =>
          rcases leaves_of_use uses executes hasLeft with
            ⟨⟨other, q, rfl⟩, failed⟩ | ⟨other, q, rfl, queue⟩
          · exact .inl ⟨other, q, rest, code, failed⟩
          · have created := streams.popping code
            have faithful := streams.faithful
            rw [created] at faithful
            refine .inr ⟨⟨q, created, queue⟩, ?_⟩
            simpa [contentOf, queue] using faithful

theorem pushesTo_prefix_of_step (steps : step exec label σ = some σ') :
    pushesTo client σ.shared.log <+: pushesTo client σ'.shared.log := by
  cases (moved_of_step steps).advanced with
  | quiet instr rest notAct code shared thread => rw [shared]
  | act a rest after locals code executes thread =>
      rw [pushesTo_of_exec client executes]
      exact List.prefix_append _ _

end Steps

section Runs

variable {ι : Type*} {i : ι} {client : ClientId} {history : List QueueUse}
variable {root : Path} {disk : FileStore Path Byte} {clock : Int}
variable {requests : ι → Request}

theorem not_addresses_program (request : Request) {instr : Instr Lock Action}
    (member : instr ∈ request.program) (receiver : ClientId) (q : QueueId) :
    ¬ Addresses receiver q instr := by
  intro addresses
  cases addresses <;> cases request <;>
    simp [Request.program, requestDirProgram, openProgram, closeProgram,
      closeCallback, renameProgram, unlinkProgram, getStatusProgram,
      subscribeProgram, cleanupProgram, monitorProgram] at member

theorem not_receives_program (request : Request) {instr : Instr Lock Action}
    (member : instr ∈ request.program) (q : QueueId) : ¬ Receives q instr := by
  intro receives
  cases receives <;> cases request <;>
    simp [Request.program, requestDirProgram, openProgram, closeProgram,
      closeCallback, renameProgram, unlinkProgram, getStatusProgram,
      subscribeProgram, cleanupProgram, monitorProgram] at member

theorem subscribe_of_creates {request : Request}
    (member : .act (.createQueue client) ∈ request.program) :
    request = .subscribe client := by
  cases request <;>
    simp_all [Request.program, requestDirProgram, openProgram, closeProgram,
      closeCallback, renameProgram, unlinkProgram, getStatusProgram,
      subscribeProgram, cleanupProgram, monitorProgram]

/-- Before the handlers start, nothing is pushed or popped. -/
theorem streams_start (subscribes : requests i = .subscribe client)
    (once : ∀ j, requests j = .subscribe client → j = i) :
    Streams i client []
      (Handlers.start (Server.launch root disk clock) requests) := by
  constructor
  case toOwnsQueue =>
    constructor
    case addressed =>
      intro j instr member receiver q addresses
      exact absurd addresses (not_addresses_program _ member receiver q)
    case subscribed =>
      intro receiver q isSubscribed
      simp [Handlers.start, Server.launch] at isSubscribed
    case notCreating =>
      intro j other member
      exact other (once j (subscribe_of_creates member))
    case receiving =>
      intro j other instr member q receives
      exact absurd receives (not_receives_program _ member q)
    case exists_queue =>
      intro q created
      simp [createdQueue] at created
  case stage =>
    have part : queuePart (requests i).program =
        [.act (.createQueue client)] := by
      rw [subscribes]
      rfl
    have stage : SubscribeStage client [] HandlerLocals.start none
        [.act (.createQueue client)] := .registering rfl rfl rfl
    rw [← part] at stage
    exact stage
  case continues =>
    intro a member
    have inProgram : .act a ∈ subscribeProgram client := by
      simpa [Handlers.start, subscribes, Request.program] using member
    simp [subscribeProgram, cleanupProgram] at inProgram
    rcases inProgram with rfl | rfl | rfl | rfl | rfl <;> exact id
  case faithful => rfl

/-- What the stream of a client's notifications satisfies in a state that was
reached with this history. -/
structure FaithfulStream [DecidableEq ι] (i : ι) (client : ClientId)
    (history : List QueueUse) (σ : Handlers ι) : Prop where
  faithful : poppedNotes history ++
      contentOf σ.shared.server.queues (createdQueue history) =
    pushesTo client σ.shared.log
  written : (σ.threads i).locals.delivered <+: pushesTo client σ.shared.log
  leaves : ∀ choice σ', step exec (i, choice) σ = some σ' →
    InLoop (σ.threads i).code → ¬ InLoop (σ'.threads i).code →
      FailsToWrite choice (σ.threads i).code ∨
        (∃ q, createdQueue history = some q ∧
          σ.shared.server.queues q = some ⟨[], true⟩) ∧
        poppedNotes history = pushesTo client σ.shared.log

variable [DecidableEq ι] {σ : Handlers ι}

theorem faithfulStream_of_streams (streams : Streams i client history σ) :
    FaithfulStream i client history σ where
  faithful := streams.faithful
  written :=
    streams.stage.delivered_prefix.trans ⟨_, streams.faithful⟩
  leaves _ _ steps inLoop hasLeft :=
    leaves_of_streams streams steps inLoop hasLeft

theorem streams_of_run (subscribes : requests i = .subscribe client)
    (once : ∀ j, requests j = .subscribe client → j = i)
    {labels : List (ι × Choice)}
    (reaches : run (step exec) labels
      (Handlers.start (Server.launch root disk clock) requests) = some σ) :
    Streams i client (trace (step exec) (queueUses i) labels
      (Handlers.start (Server.launch root disk clock) requests)) σ := by
  have always : Along (step exec) (fun _ _ => True) labels
      (Handlers.start (Server.launch root disk clock) requests) :=
    along_of_forall (fun _ _ _ => trivial) _
  exact invariant_of_trace
    (fun _ _ _ _ _ streams steps => streams_of_step streams steps)
    reaches always (streams_start subscribes once)

/-- A step of thread `i` is not a write that fails. -/
def WritesSucceed (i : ι) (label : ι × Choice) (σ : Handlers ι) : Prop :=
  label.1 = i → ¬ FailsToWrite label.2 (σ.threads i).code

/-- Thread `i` has popped these notifications or has not left its loop, and they
have been pushed. -/
structure Draining (i : ι) (client : ClientId) (earlier : List Notification)
    (history : List QueueUse) (σ : Handlers ι) : Prop where
  streams : Streams i client history σ
  pushed : earlier <+: pushesTo client σ.shared.log
  popped : InLoop (σ.threads i).code ∨ earlier <+: poppedNotes history

theorem draining_of_step {earlier : List Notification} {label : ι × Choice}
    {σ' : Handlers ι}
    (writes : WritesSucceed i label σ)
    (draining : Draining i client earlier history σ)
    (steps : step exec label σ = some σ') :
    Draining i client earlier (history ++ queueUses i label σ) σ' where
  streams := streams_of_step draining.streams steps
  pushed := draining.pushed.trans (pushesTo_prefix_of_step steps)
  popped := by
    have grows : poppedNotes history <+:
        poppedNotes (history ++ queueUses i label σ) := by
      rw [poppedNotes_append]
      exact List.prefix_append _ _
    rcases draining.popped with inLoop | popped
    · by_cases stays : InLoop (σ'.threads i).code
      · exact .inl stays
      right
      by_cases self : label.1 = i
      · subst self
        rcases leaves_of_streams draining.streams steps inLoop stays with
          failed | ⟨-, popped⟩
        · exact absurd failed (writes rfl)
        · exact draining.pushed.trans (popped ▸ grows)
      · rw [(moved_of_step steps).threads_ne (Ne.symm self)] at stays
        exact absurd inLoop stays
    · exact .inr (popped.trans grows)

/-- What was pushed while the handler was in its loop has been popped when it has
left, if none of its writes failed. -/
theorem popped_of_run {τ : Handlers ι} {labels : List (ι × Choice)}
    (streams : Streams i client history σ)
    (inLoop : InLoop (σ.threads i).code)
    (reaches : run (step exec) labels σ = some τ)
    (writes : Along (step exec) (WritesSucceed i) labels σ)
    (hasLeft : ¬ InLoop (τ.threads i).code) :
    pushesTo client σ.shared.log <+:
      poppedNotes (history ++ trace (step exec) (queueUses i) labels σ) := by
  have initially : Draining i client (pushesTo client σ.shared.log) history σ :=
    ⟨streams, List.prefix_refl _, .inl inLoop⟩
  have draining : Draining i client (pushesTo client σ.shared.log)
      (history ++ trace (step exec) (queueUses i) labels σ) τ :=
    invariant_of_trace
      (fun _ _ _ _ writes draining steps =>
        draining_of_step writes draining steps) reaches writes initially
  exact draining.popped.resolve_left hasLeft

/-- In every run in which a client subscribes once, what its handler has popped
followed by what is in the queue is what was pushed to the client, and the
handler leaves its loop only after a failed write or with the queue shut down and
empty.  So what was pushed before the handler left, in particular before a
cancellation, is popped unless a write failed. -/
theorem subscription_faithful (root : Path) (disk : FileStore Path Byte)
    (clock : Int) (requests : ι → Request)
    (subscribes : requests i = .subscribe client)
    (once : ∀ j, requests j = .subscribe client → j = i)
    (labels : List (ι × Choice))
    (reaches : run (step exec) labels
      (Handlers.start (Server.launch root disk clock) requests) = some σ) :
    FaithfulStream i client (trace (step exec) (queueUses i) labels
        (Handlers.start (Server.launch root disk clock) requests)) σ ∧
      ∀ earlier later τ, labels = earlier ++ later →
        run (step exec) earlier
            (Handlers.start (Server.launch root disk clock) requests) =
          some τ →
        InLoop (τ.threads i).code →
        Along (step exec) (WritesSucceed i) later τ →
        ¬ InLoop (σ.threads i).code →
        pushesTo client τ.shared.log <+:
          poppedNotes (trace (step exec) (queueUses i) labels
            (Handlers.start (Server.launch root disk clock) requests)) := by
  refine ⟨faithfulStream_of_streams
    (streams_of_run subscribes once reaches), ?_⟩
  intro earlier later τ isSplit halfway inLoop writes hasLeft
  subst isSplit
  have streams := streams_of_run subscribes once halfway
  have rest := run_of_append reaches halfway
  rw [trace_append halfway]
  exact popped_of_run streams inLoop rest writes hasLeft

/-- A client subscribes and opens a file that another one closes. -/
private def readerAndCloser : Fin 3 → Request
  | 0 => .subscribe "reader"
  | 1 => .open "/srv/a" "reader"
  | 2 => .close "/srv/a" "writer" [[1]]

theorem subscription_faithful_reader :
    ∃ labels σ, run (step exec) labels (Handlers.start
        (Server.launch "/srv" FileStore.empty 0) readerAndCloser) = some σ ∧
      FaithfulStream 0 "reader" (trace (step exec) (queueUses 0) labels
        (Handlers.start (Server.launch "/srv" FileStore.empty 0)
          readerAndCloser)) σ ∧
      (σ.threads 0).locals.delivered =
        [Server.updateNotification "/srv/a" 0] := by
  have subscribes : readerAndCloser 0 = .subscribe "reader" := rfl
  have once : ∀ j, readerAndCloser j = .subscribe "reader" → j = 0 := by
    intro j isSubscribe
    match j with
    | 0 => rfl
    | 1 => cases isSubscribe
    | 2 => cases isSubscribe
  refine ⟨List.replicate 4 (0, .go) ++ List.replicate 3 (1, .go) ++
    List.replicate 7 (2, .go) ++ (2, .pick "reader") ::
      List.replicate 3 (2, .go) ++ List.replicate 5 (0, .go), _, rfl, ?_, rfl⟩
  exact (subscription_faithful "/srv" FileStore.empty 0 readerAndCloser
    subscribes once _ rfl).1

end Runs

end DistributedFilesystem
