import DistributedFilesystem.QueueOwnership

/-!
# The loop of `subscribe`

The handler of a `subscribe` call waits for a notification, pops it and writes it
to its client, until a write fails or the queue is shut down and empty.
-/

namespace DistributedFilesystem

open LockedThreads

/-- The content of the created queue. -/
def contentOf (queues : QueueId → Option NotificationQueue)
    (created : Option QueueId) : List Notification :=
  ((created.bind queues).map NotificationQueue.queue).getD []

/-- The handler has not left its loop. -/
def InLoop (code : Code) : Prop := queuePart code ≠ []

/-- A write to the client's stream fails. -/
def FailsToWrite (choice : Choice) (code : Code) : Prop :=
  ∃ client q rest, code = .act (.writeNote client q) :: rest ∧ choice = .fail

/-- How far the `subscribe` handler of a client is, by what it has left to do
with queues. -/
inductive SubscribeStage (client : ClientId) (popped : List Notification)
    (t : HandlerLocals) : Option QueueId → Code → Prop
  | registering (nothing : popped = []) (notWritten : t.delivered = [])
      (noNote : t.note = none) :
      SubscribeStage client popped t none [.act (.createQueue client)]
  | waiting (q : QueueId) (written : popped = t.delivered)
      (noNote : t.note = none) :
      SubscribeStage client popped t (some q)
        [.act (.awaitNotification client q)]
  | popping (q : QueueId) (written : popped = t.delivered)
      (noNote : t.note = none) :
      SubscribeStage client popped t (some q) [.act (.pop client q)]
  | writing (q : QueueId) (note : Notification)
      (written : popped = t.delivered ++ [note]) (isNote : t.note = some note) :
      SubscribeStage client popped t (some q) [.act (.writeNote client q)]
  | left (q : QueueId) (written : t.delivered <+: popped) :
      SubscribeStage client popped t (some q) []

section Exec

variable {client : ClientId} {created : Option QueueId} {q : QueueId}
variable {popped : List Notification} {history : List QueueUse}
variable {s : Server} {a : Action} {c : Choice} {w w' : Recorded}
variable {t t' : HandlerLocals} {rest after code : Code}

/-- What is written is a prefix of what was popped. -/
theorem SubscribeStage.delivered_prefix
    (stage : SubscribeStage client popped t created code) :
    t.delivered <+: popped := by
  cases stage with
  | registering nothing notWritten noNote => simp [notWritten]
  | waiting q written noNote => simp [written]
  | popping q written noNote => simp [written]
  | writing q note written isNote => simp [written]
  | left q written => exact written

theorem SubscribeStage.congr
    (stage : SubscribeStage client popped t created code)
    (note : t'.note = t.note) (delivered : t'.delivered = t.delivered) :
    SubscribeStage client popped t' created code := by
  cases stage with
  | registering nothing notWritten noNote =>
      exact .registering nothing (delivered.trans notWritten)
        (note.trans noNote)
  | waiting q written noNote =>
      exact .waiting q (written.trans delivered.symm) (note.trans noNote)
  | popping q written noNote =>
      exact .popping q (written.trans delivered.symm) (note.trans noNote)
  | writing q n written isNote =>
      exact .writing q n (delivered ▸ written) (note.trans isNote)
  | left q written => exact .left q (delivered ▸ written)

/-- The pushes to the client go to its queue, and nobody else's pops come from
there. -/
theorem content_of_other
    (exists_queue : ∀ q, created = some q →
      (s.queues q).isSome ∧ q ≠ s.unusedQueue)
    (addressed : ∀ receiver q, Addresses receiver q (.act a) →
      (receiver = client ↔ created = some q))
    (notPopping : ∀ receiver q, a = .pop receiver q → created ≠ some q) :
    contentOf (a.queuesAfter s) created =
      contentOf s.queues created ++ a.pushes client := by
  have apart (q r : QueueId) (queue : Option NotificationQueue)
      (different : q ≠ r) :
      contentOf (Function.update s.queues r queue) (some q) =
        contentOf s.queues (some q) := by
    simp [contentOf, different]
  cases created with
  | none =>
      have noPush : a.pushes client = [] := by
        cases a with
        | push receiver q notif =>
            have notClient : receiver ≠ client := by
              intro same
              have isCreated := (addressed receiver q (.push notif)).mp same
              simp at isCreated
            simp [Action.pushes, notClient]
        | _ => rfl
      simp [contentOf, noPush]
  | some q =>
      obtain ⟨isSome, notUnused⟩ := exists_queue q rfl
      cases a with
      | push receiver r notif =>
          have isReceiver := addressed receiver r (.push notif)
          by_cases same : receiver = client
          · obtain rfl : q = r := Option.some.inj (isReceiver.mp same)
            obtain ⟨queue, entry⟩ := Option.isSome_iff_exists.mp isSome
            simp [contentOf, Action.queuesAfter, Server.push, entry,
              NotificationQueue.push, Action.pushes, same]
          · have different : q ≠ r := by
              rintro rfl
              exact same (isReceiver.mpr rfl)
            have unchanged := apart q r
              ((s.queues r).map fun queue => queue.push notif) different
            simpa [Action.queuesAfter, Server.push, Action.pushes, same]
              using unchanged
      | createQueue c =>
          have unchanged := apart q s.unusedQueue (some ⟨[], false⟩) notUnused
          simpa [Action.queuesAfter, Server.setQueue, Action.pushes]
            using unchanged
      | pop c r =>
          have different : q ≠ r := by
            rintro rfl
            exact notPopping c q rfl rfl
          rcases entry : s.queues r with _ | ⟨_ | ⟨note, notes⟩, shutdown⟩
          · simp [Action.queuesAfter, entry, Action.pushes]
          · simp [Action.queuesAfter, entry, Action.pushes]
          · have unchanged := apart q r (some ⟨notes, shutdown⟩) different
            simpa [Action.queuesAfter, entry, Server.setQueue, Action.pushes]
              using unchanged
      | cancel r =>
          by_cases same : q = r
          · subst same
            obtain ⟨queue, entry⟩ := Option.isSome_iff_exists.mp isSome
            simp [contentOf, Action.queuesAfter, Server.cancel, entry,
              NotificationQueue.cancel, Action.pushes]
          · have unchanged := apart q r
              ((s.queues r).map NotificationQueue.cancel) same
            simpa [Action.queuesAfter, Server.cancel, Action.pushes]
              using unchanged
      | _ => simp [Action.queuesAfter, Action.pushes]

theorem queuePart_of_other (other : a.UsesQueue = false)
    (continues : ¬ a.Returns)
    (executes : exec a c w t rest = some (w', t', after)) :
    queuePart after = queuePart (.act a :: rest) := by
  rcases leaves_of_exec executes with ⟨returns, -⟩ | ⟨front, expansion, rfl⟩
  · exact absurd returns continues
  · have noPart := queuePart_of_expands other expansion
    simp [noPart, queuePart_act, other]

/-- An action that does not use queues keeps the handler's stage. -/
theorem stage_of_other (other : a.UsesQueue = false) (continues : ¬ a.Returns)
    (stage : SubscribeStage client popped t created (queuePart (.act a :: rest)))
    (executes : exec a c w t rest = some (w', t', after)) :
    SubscribeStage client popped t' created (queuePart after) := by
  have ⟨note, delivered⟩ := notes_of_exec other executes
  rw [queuePart_of_other other continues executes]
  exact stage.congr note delivered

/-- An action after which nothing is left to do with queues failed to write, or
found the queue empty and shut down. -/
theorem leaves_of_use (uses : a.UsesQueue = true)
    (executes : exec a c w t rest = some (w', t', after))
    (left : queuePart after = []) :
    (∃ client q, a = .writeNote client q) ∧ c = .fail ∨
      ∃ client q, a = .pop client q ∧
        w.server.queues q = some ⟨[], true⟩ := by
  cases a with
  | createQueue client =>
      cases executes
      simp [queuePart_act, Action.UsesQueue] at left
  | awaitNotification client q =>
      simp only [exec] at executes
      repeat' split at executes
      · cases executes
        simp [queuePart_act, Action.UsesQueue] at left
      · simp at executes
      · simp at executes
  | pop client q =>
      simp only [exec] at executes
      split at executes
      · cases executes
        simp [queuePart_act, Action.UsesQueue] at left
      · next queue => exact .inr ⟨client, q, rfl, queue⟩
      · cases executes
        simp [queuePart_act, Action.UsesQueue] at left
  | writeNote client q =>
      simp only [exec] at executes
      split at executes
      · cases executes
        simp [queuePart_act, Action.UsesQueue] at left
      · exact .inl ⟨⟨client, q, rfl⟩, rfl⟩
      · simp at executes
  | _ => cases uses

/-- An action that uses queues takes the handler to the next stage. -/
theorem stage_of_use (uses : a.UsesQueue = true)
    (stage : SubscribeStage client (poppedNotes history) t
      (createdQueue history) (queuePart (.act a :: rest)))
    (executes : exec a c w t rest = some (w', t', after)) :
    SubscribeStage client (poppedNotes (history ++ a.queueUse w.server)) t'
      (createdQueue (history ++ a.queueUse w.server)) (queuePart after) := by
  rw [queuePart_act, if_pos uses] at stage
  generalize createdEq : createdQueue history = created at stage
  generalize codeEq : Instr.act a :: queuePart rest = code at stage
  cases stage with
  | registering nothing notWritten noNote =>
      obtain ⟨⟨rfl⟩, noRest⟩ := List.cons.inj codeEq
      cases executes
      rw [Action.queueUse, createdQueue_append_created createdEq]
      simp only [queuePart_lock, queuePart_unlock, queuePart_act,
        Action.UsesQueue, noRest]
      exact .waiting _ (by simp [nothing, notWritten]) noNote
  | waiting q written noNote =>
      obtain ⟨⟨rfl⟩, noRest⟩ := List.cons.inj codeEq
      simp only [exec] at executes
      repeat' split at executes
      · cases executes
        simp only [Action.queueUse, List.append_nil, createdEq, queuePart_lock,
          queuePart_act, Action.UsesQueue, noRest]
        exact .popping q written noNote
      · simp at executes
      · simp at executes
  | popping q written noNote =>
      obtain ⟨⟨rfl⟩, noRest⟩ := List.cons.inj codeEq
      simp only [exec] at executes
      split at executes
      · next note notes shutdown queue =>
          cases executes
          simp only [Action.queueUse, queue, createdQueue_append_popped,
            poppedNotes_append, poppedNotes_popped, createdEq,
            queuePart_unlock, queuePart_act, Action.UsesQueue, noRest]
          exact .writing q note (by simp [written]) rfl
      · next queue =>
          cases executes
          simp only [Action.queueUse, queue, List.append_nil, createdEq,
            queuePart_unlock, noRest]
          exact .left q (written ▸ List.prefix_refl _)
      · next notNext notEnd =>
          cases executes
          have nothing : (Action.pop client q).queueUse w.server = [] := by
            simp only [Action.queueUse]
          simp only [nothing, List.append_nil, createdEq, queuePart_unlock,
            queuePart_act, Action.UsesQueue, noRest]
          exact .waiting q written noNote
  | writing q note written isNote =>
      obtain ⟨⟨rfl⟩, noRest⟩ := List.cons.inj codeEq
      simp only [exec] at executes
      split at executes
      · cases executes
        simp only [Action.queueUse, List.append_nil, createdEq, queuePart_act,
          Action.UsesQueue, noRest]
        exact .waiting q (by simp [written, isNote]) rfl
      · cases executes
        simp only [Action.queueUse, List.append_nil, createdEq, noRest]
        exact .left q (by simp [written])
      · simp at executes
  | left q written => simp at codeEq

end Exec

end DistributedFilesystem
