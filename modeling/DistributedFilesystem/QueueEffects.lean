import DistributedFilesystem.ServerThreadEffects

/-!
# What actions do to the notification queues

The queues after an action are a function of the action and of the server
before.  A queue is created, popped and written to its client by the handler of
one `subscribe` call, whose place in its loop is the part of its code that works
on the queue.
-/

namespace DistributedFilesystem

open LockedThreads

/-- The queues after an action. -/
def Action.queuesAfter (s : Server) : Action → QueueId → Option NotificationQueue
  | .push _ q notif => (s.push q notif).queues
  | .createQueue _ => (s.setQueue s.unusedQueue ⟨[], false⟩).queues
  | .pop _ q =>
      match s.queues q with
      | some ⟨_ :: notes, shutdown⟩ => (s.setQueue q ⟨notes, shutdown⟩).queues
      | _ => s.queues
  | .cancel q => (s.cancel q).queues
  | _ => s.queues

/-- The identity of the next queue after an action. -/
def Action.unusedQueueAfter (unused : QueueId) : Action → QueueId
  | .createQueue _ => unused + 1
  | _ => unused

/-- The notification that an event pushes to the client. -/
def Event.pushTo (client : ClientId) : Event → Option Notification
  | .pushed receiver notif => if receiver = client then some notif else none
  | .modified _ => none

/-- The notifications that were pushed to the client, in order. -/
def pushesTo (client : ClientId) (log : List Event) : List Notification :=
  log.reverse.filterMap (Event.pushTo client)

/-- What an action pushes to the client. -/
def Action.pushes (client : ClientId) : Action → List Notification
  | .push receiver _ notif => if receiver = client then [notif] else []
  | _ => []

/-- What the handler of a `subscribe` call does with queues. -/
inductive QueueUse where
  | created (q : QueueId)
  | popped (note : Notification)
deriving DecidableEq

def QueueUse.queue : QueueUse → Option QueueId
  | .created q => some q
  | .popped _ => none

def QueueUse.note : QueueUse → Option Notification
  | .created _ => none
  | .popped note => some note

/-- The queue that was created. -/
def createdQueue (history : List QueueUse) : Option QueueId :=
  (history.filterMap QueueUse.queue).head?

/-- The notifications that were popped, in order. -/
def poppedNotes (history : List QueueUse) : List Notification :=
  history.filterMap QueueUse.note

def Action.queueUse (s : Server) : Action → List QueueUse
  | .createQueue _ => [.created s.unusedQueue]
  | .pop _ q =>
      match s.queues q with
      | some ⟨note :: _, _⟩ => [.popped note]
      | _ => []
  | _ => []

/-- The action creates a queue or is part of the loop that empties it. -/
def Action.UsesQueue : Action → Bool
  | .createQueue _ | .awaitNotification _ _ | .pop _ _ | .writeNote _ _ => true
  | _ => false

def UsesQueue : Instr Lock Action → Bool
  | .act a => a.UsesQueue
  | _ => false

/-- What is left to do with queues. -/
def queuePart (code : Code) : Code := code.filter UsesQueue

/-- The instruction hands the queue to the client's callbacks. -/
inductive Addresses (client : ClientId) (q : QueueId) : Instr Lock Action → Prop
  | insertSubscriber : Addresses client q (.act (.insertSubscriber client q))
  | push (notif : Notification) : Addresses client q (.act (.push client q notif))

/-- The instruction is part of the loop that empties the queue. -/
inductive Receives (q : QueueId) : Instr Lock Action → Prop
  | awaitNotification (client : ClientId) :
      Receives q (.act (.awaitNotification client q))
  | pop (client : ClientId) : Receives q (.act (.pop client q))
  | writeNote (client : ClientId) : Receives q (.act (.writeNote client q))

section Histories

@[simp]
theorem pushesTo_cons (client : ClientId) (event : Event) (log : List Event) :
    pushesTo client (event :: log) =
      pushesTo client log ++ (event.pushTo client).toList := by
  cases pushed : event.pushTo client with
  | none => simp [pushesTo, pushed]
  | some notif => simp [pushesTo, pushed]

@[simp]
theorem pushTo_modified (client : ClientId) (path : Path) :
    (Event.modified path).pushTo client = none :=
  rfl

@[simp]
theorem toList_pushTo_pushed (client receiver : ClientId)
    (notif : Notification) :
    ((Event.pushed receiver notif).pushTo client).toList =
      if receiver = client then [notif] else [] := by
  by_cases same : receiver = client <;> simp [Event.pushTo, same]

@[simp]
theorem poppedNotes_append (past later : List QueueUse) :
    poppedNotes (past ++ later) = poppedNotes past ++ poppedNotes later := by
  simp [poppedNotes]

@[simp]
theorem poppedNotes_created (q : QueueId) : poppedNotes [.created q] = [] :=
  rfl

@[simp]
theorem poppedNotes_popped (note : Notification) :
    poppedNotes [.popped note] = [note] :=
  rfl

@[simp]
theorem createdQueue_append_popped (past : List QueueUse) (note : Notification) :
    createdQueue (past ++ [.popped note]) = createdQueue past := by
  simp [createdQueue, QueueUse.queue]

theorem createdQueue_append_created {past : List QueueUse} {q : QueueId}
    (fresh : createdQueue past = none) :
    createdQueue (past ++ [.created q]) = some q := by
  have noQueue : past.filterMap QueueUse.queue = [] :=
    List.head?_eq_none_iff.mp fresh
  simp [createdQueue, QueueUse.queue, noQueue]

@[simp]
theorem queuePart_lock (l : Lock) (rest : Code) :
    queuePart (.lock l :: rest) = queuePart rest := by
  simp [queuePart, UsesQueue]

@[simp]
theorem queuePart_unlock (l : Lock) (rest : Code) :
    queuePart (.unlock l :: rest) = queuePart rest := by
  simp [queuePart, UsesQueue]

theorem queuePart_act (a : Action) (rest : Code) :
    queuePart (.act a :: rest) =
      if a.UsesQueue then .act a :: queuePart rest else queuePart rest := by
  rw [queuePart, List.filter_cons]
  rfl

@[simp]
theorem queuePart_append (front rest : Code) :
    queuePart (front ++ rest) = queuePart front ++ queuePart rest := by
  simp [queuePart]

end Histories

section Exec

variable {a : Action} {c : Choice} {w w' : Recorded} {t t' : HandlerLocals}
variable {rest after : Code}

theorem queuesAfter_of_exec
    (executes : exec a c w t rest = some (w', t', after)) :
    w'.server.queues = a.queuesAfter w.server := by
  cases a <;> simp only [exec] at executes
  all_goals repeat' split at executes
  all_goals first
    | (simp only [Option.some.injEq, Prod.mk.injEq] at executes
       obtain ⟨rfl, -, -⟩ := executes
       first
         | rfl
         | simp_all [Action.queuesAfter])
    | simp at executes

theorem unusedQueue_of_exec
    (executes : exec a c w t rest = some (w', t', after)) :
    w'.server.unusedQueue = a.unusedQueueAfter w.server.unusedQueue := by
  cases a <;> simp only [exec] at executes
  all_goals repeat' split at executes
  all_goals first
    | (simp only [Option.some.injEq, Prod.mk.injEq] at executes
       obtain ⟨rfl, -, -⟩ := executes
       rfl)
    | simp at executes

theorem pushesTo_of_exec (client : ClientId)
    (executes : exec a c w t rest = some (w', t', after)) :
    pushesTo client w'.log = pushesTo client w.log ++ a.pushes client := by
  cases a <;> simp only [exec] at executes
  all_goals repeat' split at executes
  all_goals first
    | (simp only [Option.some.injEq, Prod.mk.injEq] at executes
       obtain ⟨rfl, -, -⟩ := executes
       simp [Action.pushes])
    | simp at executes

/-- An action that does not use queues leaves the notes of its handler. -/
theorem notes_of_exec (other : a.UsesQueue = false)
    (executes : exec a c w t rest = some (w', t', after)) :
    t'.note = t.note ∧ t'.delivered = t.delivered := by
  cases a <;> simp only [exec] at executes
  all_goals repeat' split at executes
  all_goals first
    | (simp only [Option.some.injEq, Prod.mk.injEq] at executes
       obtain ⟨-, rfl, -⟩ := executes
       exact ⟨rfl, rfl⟩)
    | (cases other; done)
    | simp at executes

end Exec

section Expansion

variable {s : Server} {t : HandlerLocals} {a : Action} {front : Code}

theorem queuePart_of_expands (other : a.UsesQueue = false)
    (expansion : Expands s t a front) : queuePart front = [] := by
  cases expansion <;>
    simp_all [queuePart, UsesQueue, Action.UsesQueue]

theorem not_returns_of_expands (continues : ¬ a.Returns)
    (expansion : Expands s t a front) :
    ∀ later, .act later ∈ front → ¬ later.Returns := by
  cases expansion <;> simp_all [Action.Returns]

end Expansion

end DistributedFilesystem
