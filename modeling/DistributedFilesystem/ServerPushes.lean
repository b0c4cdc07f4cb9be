import DistributedFilesystem.ServerObligations

/-!
# What downloads and uploads do to the queues

The handlers of downloads and uploads append to the queues of the clients, and
a notification that they push to a client arrives in its queue.
-/

namespace DistributedFilesystem

open LockedThreads

/-- The loops push to the queue that the client subscribed with. -/
def PushesToQueue (client : ClientId)
    (subscribers : ClientId → Option QueueId) (code : Code) : Prop :=
  ∀ q notif, .act (.push client q notif) ∈ code → subscribers client = some q

variable {client : ClientId} {a : Action} {c : Choice} {w w' : Recorded}
variable {t t' : HandlerLocals} {rest after : Code}

theorem pushesToQueue_of_exec
    (pushes : PushesToQueue client w.server.subscribers (.act a :: rest))
    (executes : exec a c w t rest = some (w', t', after)) :
    PushesToQueue client w.server.subscribers after := by
  rcases leaves_of_exec executes with ⟨-, rfl⟩ | ⟨front, expansion, rfl⟩
  · intro q notif member
    simp at member
  · intro q notif member
    rcases List.mem_append.mp member with inFront | inRest
    · cases expansion with
      | pushNext origin receiver r note remaining isMember other queue =>
          obtain ⟨rfl, rfl, -⟩ : client = receiver ∧ q = r ∧ notif = note := by
            simpa using inFront
          exact queue
      | _ => simp at inFront
    · exact pushes q notif (List.mem_cons_of_mem _ inRest)

/-- Downloads and uploads change queues by pushes only. -/
theorem queues_of_exec (only : a.OnlyRegisters)
    (executes : exec a c w t rest = some (w', t', after)) :
    w'.server.queues = w.server.queues ∨
      ∃ receiver q notif, a = .push receiver q notif ∧
        w'.server = w.server.push q notif := by
  cases a <;> simp only [exec] at executes
  all_goals repeat' split at executes
  all_goals first
    | (simp only [Option.some.injEq, Prod.mk.injEq] at executes
       obtain ⟨rfl, -, -⟩ := executes
       first
         | exact .inl rfl
         | exact .inr ⟨_, _, _, rfl, rfl⟩
         | exact only.elim)
    | simp at executes

/-- A push that the log records was made. -/
theorem push_of_log {notif : Notification}
    (executes : exec a c w t rest = some (w', t', after))
    (log : w'.log = .pushed client notif :: w.log) :
    ∃ q, a = .push client q notif ∧ w'.server = w.server.push q notif := by
  cases a <;> simp only [exec] at executes
  all_goals repeat' split at executes
  all_goals first
    | (simp only [Option.some.injEq, Prod.mk.injEq] at executes
       obtain ⟨rfl, -, -⟩ := executes
       first
         | (simp at log; done)
         | (obtain ⟨rfl, rfl⟩ := by simpa using log
            exact ⟨_, rfl, rfl⟩))
    | simp at executes

variable {ι : Type*} [DecidableEq ι] {path : Path} {participants : ι → Participant}
variable {label : ι × Choice} {σ σ' : Handlers ι}

/-- The queue of a subscribed client grows with the steps of downloads and
uploads. -/
theorem pending_of_step (stages : InStages path participants σ)
    (steps : step exec label σ = some σ')
    (subscribed : σ.shared.server.Subscribed client) :
    σ'.shared.server.Subscribed client ∧
      ∃ later, σ'.shared.server.pending client =
        σ.shared.server.pending client ++ later := by
  have stage := stages label.1
  have subscribers := subscribers_of_step stages steps
  have unchanged (queues : σ'.shared.server.queues = σ.shared.server.queues) :
      σ'.shared.server.Subscribed client ∧
        ∃ later, σ'.shared.server.pending client =
          σ.shared.server.pending client ++ later := by
    constructor
    · unfold Server.Subscribed
      rw [queues, subscribers]
      exact subscribed
    · refine ⟨[], ?_⟩
      unfold Server.pending
      rw [queues, subscribers, List.append_nil]
  cases (moved_of_step steps).advanced with
  | quiet instr rest notAct code shared thread =>
      exact unchanged (by rw [shared])
  | act a rest after locals code executes thread =>
      rw [code] at stage
      rcases queues_of_exec (onlyRegisters_of_stage stage) executes with
        queues | ⟨receiver, q, notif, -, server⟩
      · exact unchanged queues
      · rw [server]
        exact ⟨(Server.subscribed_push q).mpr subscribed, _,
          Server.pending_push subscribed q⟩

/-- A notification that a step pushed is in the client's queue. -/
theorem pending_of_pushed {notif : Notification}
    (steps : step exec label σ = some σ')
    (subscribed : σ.shared.server.Subscribed client)
    (pushes : PushesToQueue client σ.shared.server.subscribers
      (σ.threads label.1).code)
    (log : σ'.shared.log = .pushed client notif :: σ.shared.log) :
    notif ∈ σ'.shared.server.pending client := by
  cases (moved_of_step steps).advanced with
  | quiet instr rest notAct code shared thread =>
      rw [shared] at log
      simp at log
  | act a rest after locals code executes thread =>
      obtain ⟨q, rfl, server⟩ := push_of_log executes log
      rw [code] at pushes
      have queue := pushes q notif List.mem_cons_self
      rw [server, Server.pending_push subscribed, if_pos queue]
      simp

theorem pushesToQueue_of_step (stages : InStages path participants σ)
    (steps : step exec label σ = some σ')
    (pushes : ∀ i, PushesToQueue client σ.shared.server.subscribers
      (σ.threads i).code) (i : ι) :
    PushesToQueue client σ'.shared.server.subscribers (σ'.threads i).code := by
  rw [subscribers_of_step stages steps]
  by_cases self : i = label.1
  · subst self
    have before := pushes label.1
    cases (moved_of_step steps).advanced with
    | quiet instr rest notAct code shared thread =>
        rw [code] at before
        rw [thread]
        exact fun q notif member =>
          before q notif (List.mem_cons_of_mem _ member)
    | act a rest after locals code executes thread =>
        rw [code] at before
        rw [thread]
        exact pushesToQueue_of_exec before executes
  · rw [(moved_of_step steps).threads_ne self]
    exact pushes i

end DistributedFilesystem
