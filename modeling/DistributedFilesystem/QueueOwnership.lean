import DistributedFilesystem.QueueEffects

/-!
# Who uses a notification queue

A client that subscribes once gets one queue.  Only the callbacks of the other
clients' calls, which find it under the client's name, push to that queue, and
only the handler that created it pops from it.
-/

namespace DistributedFilesystem

open LockedThreads TransitionRuns

variable {ι : Type*}

section Ownership

/-- A client's callbacks know the queue, which is the created one exactly if the
client is the one that created it. -/
structure Reserved (client : ClientId) (created : Option QueueId)
    (unused : QueueId) (receiver : ClientId) (q : QueueId) : Prop where
  old : q < unused
  same : receiver = client ↔ created = some q

/-- Thread `i` alone serves the client and the queue it created. -/
structure OwnsQueue (i : ι) (client : ClientId) (created : Option QueueId)
    (σ : Handlers ι) : Prop where
  addressed : ∀ j instr, instr ∈ (σ.threads j).code → ∀ receiver q,
    Addresses receiver q instr →
      Reserved client created σ.shared.server.unusedQueue receiver q
  subscribed : ∀ receiver q, σ.shared.server.subscribers receiver = some q →
    Reserved client created σ.shared.server.unusedQueue receiver q
  notCreating : ∀ j, j ≠ i →
    .act (.createQueue client) ∉ (σ.threads j).code
  receiving : ∀ j, j ≠ i → ∀ instr ∈ (σ.threads j).code, ∀ q,
    Receives q instr →
      q < σ.shared.server.unusedQueue ∧ created ≠ some q
  exists_queue : ∀ q, created = some q →
    q < σ.shared.server.unusedQueue ∧ (σ.shared.server.queues q).isSome

variable {client receiver : ClientId} {created createdNext : Option QueueId}
variable {unused later q : QueueId} {s : Server} {t t' : HandlerLocals}
variable {a : Action} {front rest after : Code} {w w' : Recorded} {c : Choice}

theorem Reserved.mono (reserved : Reserved client created unused receiver q)
    (le : unused ≤ later)
    (kept : q < unused → (createdNext = some q ↔ created = some q)) :
    Reserved client createdNext later receiver q where
  old := lt_of_lt_of_le reserved.old le
  same := reserved.same.trans (kept reserved.old).symm

theorem le_unusedQueueAfter (a : Action) (unused : QueueId) :
    unused ≤ a.unusedQueueAfter unused := by
  cases a <;> simp [Action.unusedQueueAfter]

/-- A queue that exists goes on to exist. -/
theorem isSome_queuesAfter (a : Action) (exists_q : (s.queues q).isSome) :
    (a.queuesAfter s q).isSome := by
  have updated (r : QueueId) (queue : Option NotificationQueue)
      (isSome : r = q → queue.isSome) :
      (Function.update s.queues r queue q).isSome := by
    by_cases same : q = r
    · subst same
      simpa using isSome rfl
    · simpa [same] using exists_q
  cases a with
  | push receiver r notif =>
      exact updated r _ fun same => by simpa [same] using exists_q
  | createQueue c => exact updated _ _ fun _ => rfl
  | pop c r =>
      rcases entry : s.queues r with _ | ⟨_ | ⟨note, notes⟩, shutdown⟩
      · simpa [Action.queuesAfter, entry] using exists_q
      · simpa [Action.queuesAfter, entry] using exists_q
      · simpa [Action.queuesAfter, entry, Server.setQueue] using
          updated r (some ⟨notes, shutdown⟩) fun _ => rfl
  | cancel r => exact updated r _ fun same => by simpa [same] using exists_q
  | _ => exact exists_q

theorem addresses_of_expands (expansion : Expands s t a front)
    {instr : Instr Lock Action} (member : instr ∈ front)
    (addresses : Addresses receiver q instr) :
    s.subscribers receiver = some q ∨
      a = .createQueue receiver ∧ q = s.unusedQueue := by
  cases addresses with
  | insertSubscriber =>
      cases expansion <;> simp at member
      next => simp [member]
  | push notif =>
      cases expansion <;> simp at member
      next queue =>
        obtain ⟨rfl, rfl, -⟩ := member
        exact .inl queue

theorem receives_of_expands (expansion : Expands s t a front)
    {instr : Instr Lock Action} (member : instr ∈ front)
    (receives : Receives q instr) :
    Receives q (.act a) ∨ ∃ c, a = .createQueue c ∧ q = s.unusedQueue := by
  cases receives with
  | awaitNotification =>
      cases expansion <;> simp at member
      next => simp [member]
      next =>
        obtain ⟨-, rfl⟩ := member
        exact .inl (.pop _)
      next =>
        obtain ⟨-, rfl⟩ := member
        exact .inl (.writeNote _)
  | pop =>
      cases expansion <;> simp at member
      next =>
        obtain ⟨-, rfl⟩ := member
        exact .inl (.awaitNotification _)
  | writeNote =>
      cases expansion <;> simp at member
      next =>
        obtain ⟨-, rfl⟩ := member
        exact .inl (.pop _)

/-- A subscription after an action was one before, or the action makes it. -/
theorem subscribed_of_subscribersAfter
    {subscribers : ClientId → Option QueueId}
    (isSubscribed : a.subscribersAfter subscribers receiver = some q) :
    subscribers receiver = some q ∨ Addresses receiver q (.act a) := by
  cases a with
  | insertSubscriber c r =>
      by_cases same : receiver = c
      · subst same
        obtain rfl : r = q := by
          simpa [Action.subscribersAfter] using isSubscribed
        exact .inr .insertSubscriber
      · left
        simpa [Action.subscribersAfter, same] using isSubscribed
  | eraseSubscriber c =>
      by_cases same : receiver = c
      · simp [Action.subscribersAfter, same] at isSubscribed
      · left
        simpa [Action.subscribersAfter, same] using isSubscribed
  | _ => exact .inl isSubscribed

theorem not_creates_of_expands (expansion : Expands s t a front) :
    .act (.createQueue client) ∉ front := by
  cases expansion <;> simp

variable [DecidableEq ι] {i : ι} {label : ι × Choice} {σ σ' : Handlers ι}

/-- After an action, its thread has its rest left or what the action put in
front, and the other threads have what they had. -/
theorem later_of_exec {locals : HandlerLocals}
    (code : (σ.threads label.1).code = .act a :: rest)
    (executes : exec a label.2 σ.shared (σ.threads label.1).locals rest =
      some (σ'.shared, locals, after))
    (thread : σ'.threads label.1 = ⟨locals, after⟩)
    (moved : Moved exec label.1 label.2 σ σ') :
    ∀ j instr, instr ∈ (σ'.threads j).code →
      instr ∈ (σ.threads j).code ∨
        j = label.1 ∧ ∃ front,
          Expands σ.shared.server (σ.threads label.1).locals a front ∧
            instr ∈ front := by
  intro j instr member
  by_cases self : j = label.1
  · subst self
    rw [thread] at member
    rw [code]
    rcases leaves_of_exec executes with ⟨-, rfl⟩ | ⟨front, expansion, rfl⟩
    · simp at member
    · rcases List.mem_append.mp member with inFront | inRest
      · exact .inr ⟨rfl, front, expansion, inFront⟩
      · exact .inl (List.mem_cons_of_mem _ inRest)
  · rw [moved.threads_ne self] at member
    exact .inl member

theorem ownsQueue_of_act {locals : HandlerLocals}
    (owns : OwnsQueue i client created σ)
    (moved : Moved exec label.1 label.2 σ σ')
    (code : (σ.threads label.1).code = .act a :: rest)
    (executes : exec a label.2 σ.shared (σ.threads label.1).locals rest =
      some (σ'.shared, locals, after))
    (thread : σ'.threads label.1 = ⟨locals, after⟩)
    (kept : ∀ q, q < σ.shared.server.unusedQueue →
      (createdNext = some q ↔ created = some q))
    (fresh : ∀ c, a = .createQueue c →
      (c = client ↔ createdNext = some σ.shared.server.unusedQueue))
    (existsNext : ∀ q, createdNext = some q →
      q < σ'.shared.server.unusedQueue ∧
        (σ'.shared.server.queues q).isSome) :
    OwnsQueue i client createdNext σ' := by
  have unused := unusedQueue_of_exec executes
  have grows := le_unusedQueueAfter a σ.shared.server.unusedQueue
  rw [← unused] at grows
  have inCode : .act a ∈ (σ.threads label.1).code := by
    rw [code]
    exact List.mem_cons_self
  have isNew : ∀ c, a = .createQueue c →
      σ.shared.server.unusedQueue < σ'.shared.server.unusedQueue := by
    rintro c rfl
    rw [unused]
    exact Nat.lt_succ_self _
  have isLater := later_of_exec code executes thread moved
  constructor
  case addressed =>
    intro j instr member receiver q addresses
    rcases isLater j instr member with
      earlier | ⟨rfl, front, expansion, inFront⟩
    · exact (owns.addressed j instr earlier receiver q addresses).mono grows
        (kept q)
    · rcases addresses_of_expands expansion inFront addresses with
        known | ⟨isCreating, rfl⟩
      · exact (owns.subscribed receiver q known).mono grows (kept q)
      · exact ⟨isNew receiver isCreating, fresh receiver isCreating⟩
  case subscribed =>
    intro receiver q isSubscribed
    rw [subscribers_of_exec executes] at isSubscribed
    rcases subscribed_of_subscribersAfter isSubscribed with known | addresses
    · exact (owns.subscribed receiver q known).mono grows (kept q)
    · exact (owns.addressed label.1 _ inCode receiver q addresses).mono grows
        (kept q)
  case notCreating =>
    intro j other member
    rcases isLater j _ member with earlier | ⟨rfl, front, expansion, inFront⟩
    · exact owns.notCreating j other earlier
    · exact not_creates_of_expands expansion inFront
  case receiving =>
    intro j other instr member q receives
    have ofOld (old : q < σ.shared.server.unusedQueue)
        (different : created ≠ some q) :
        q < σ'.shared.server.unusedQueue ∧ createdNext ≠ some q :=
      ⟨Nat.lt_of_lt_of_le old grows,
        fun same => different ((kept q old).mp same)⟩
    rcases isLater j instr member with
      earlier | ⟨rfl, front, expansion, inFront⟩
    · have ⟨old, different⟩ := owns.receiving j other instr earlier q receives
      exact ofOld old different
    · rcases receives_of_expands expansion inFront receives with
        receiving | ⟨c, rfl, rfl⟩
      · have ⟨old, different⟩ := owns.receiving _ other _ inCode q receiving
        exact ofOld old different
      · refine ⟨isNew c rfl, fun same => ?_⟩
        obtain rfl : c = client := (fresh c rfl).mpr same
        exact owns.notCreating _ other inCode
  case exists_queue => exact existsNext

/-- The thread is about to create a queue. -/
def Creates (code : Code) : Prop :=
  ∃ client rest, code = .act (.createQueue client) :: rest

/-- A step by which thread `i` does not create a queue leaves its queue to
it. -/
theorem ownsQueue_of_step (owns : OwnsQueue i client created σ)
    (steps : step exec label σ = some σ')
    (notCreating : label.1 = i → ¬ Creates (σ.threads i).code) :
    OwnsQueue i client created σ' := by
  have moved := moved_of_step steps
  cases moved.advanced with
  | quiet instr rest notAct code shared thread =>
      have subset : ∀ j, ∀ later ∈ (σ'.threads j).code,
          later ∈ (σ.threads j).code := by
        intro j later member
        by_cases self : j = label.1
        · subst self
          rw [thread] at member
          rw [code]
          exact List.mem_cons_of_mem _ member
        · rwa [moved.threads_ne self] at member
      constructor
      case addressed =>
        intro j instr member receiver q addresses
        rw [shared]
        exact owns.addressed j instr (subset j instr member) receiver q
          addresses
      case subscribed =>
        rw [shared]
        exact owns.subscribed
      case notCreating =>
        intro j other member
        exact owns.notCreating j other (subset j _ member)
      case receiving =>
        intro j other instr member q receives
        rw [shared]
        exact owns.receiving j other instr (subset j instr member) q receives
      case exists_queue =>
        rw [shared]
        exact owns.exists_queue
  | act a rest after locals code executes thread =>
      have grows := le_unusedQueueAfter a σ.shared.server.unusedQueue
      rw [← unusedQueue_of_exec executes] at grows
      refine ownsQueue_of_act owns moved code executes thread
        (fun _ _ => Iff.rfl) ?_ ?_
      · rintro c rfl
        have isOther : label.1 ≠ i := by
          intro self
          exact notCreating self ⟨c, rest, self ▸ code⟩
        have notClient : c ≠ client := by
          rintro rfl
          exact owns.notCreating _ isOther (code ▸ List.mem_cons_self)
        have notCreated : created ≠ some σ.shared.server.unusedQueue := by
          intro isCreated
          exact Nat.lt_irrefl _ (owns.exists_queue _ isCreated).1
        exact iff_of_false notClient notCreated
      · intro q isCreated
        have ⟨old, exists_q⟩ := owns.exists_queue q isCreated
        refine ⟨Nat.lt_of_lt_of_le old grows, ?_⟩
        rw [queuesAfter_of_exec executes]
        exact isSome_queuesAfter a exists_q

/-- When thread `i` creates a queue, that becomes its own. -/
theorem ownsQueue_of_create (owns : OwnsQueue i client none σ)
    (steps : step exec label σ = some σ')
    (code : (σ.threads label.1).code = .act (.createQueue client) :: rest) :
    OwnsQueue i client (some σ.shared.server.unusedQueue) σ' := by
  have moved := moved_of_step steps
  cases moved.advanced with
  | quiet instr _ notAct quietCode _ _ =>
      rw [code] at quietCode
      exact absurd (List.cons.inj quietCode).1.symm (notAct _)
  | act a _ after locals actCode executes thread =>
      rw [code] at actCode
      obtain ⟨⟨rfl⟩, rfl⟩ := List.cons.inj actCode
      refine ownsQueue_of_act owns moved code executes thread ?_ ?_ ?_
      · intro q old
        have different : σ.shared.server.unusedQueue ≠ q := Nat.ne_of_gt old
        simp [different]
      · intro c isCreating
        cases isCreating
        simp
      · intro q isCreated
        obtain rfl := Option.some.inj isCreated
        rw [unusedQueue_of_exec executes, queuesAfter_of_exec executes]
        constructor
        · exact Nat.lt_succ_self _
        · simp [Action.queuesAfter, Server.setQueue]

end Ownership

end DistributedFilesystem
