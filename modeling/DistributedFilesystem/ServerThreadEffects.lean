import DistributedFilesystem.ServerThreads

/-!
# What an action of a handler can do

An action either ends its handler or puts some instructions in front of the
rest; `Expands` lists them.  The file map and the subscribers after an action
are functions of the action and of what they were before.
-/

namespace DistributedFilesystem

open LockedThreads

/-- The actions after which a handler may return early. -/
def Action.Returns : Action → Prop
  | .openInput _ | .sendChunks | .receive _ _ | .closeOutput
  | .renameFile _ _ | .removeFile _ => True
  | _ => False

/-- The instructions that an action may put in front of the rest. -/
inductive Expands (s : Server) (t : HandlerLocals) : Action → Code → Prop
  | done (a : Action) (finishes : ∀ client q, a ≠ .pop client q) :
      Expands s t a []
  | sendAgain : Expands s t .sendChunks [.act .sendChunks]
  | receiveAgain (path : Path) (messages later : List Bytes)
      (suffix : later <:+ messages) :
      Expands s t (.receive path messages) [.act (.receive path later)]
  | notifyClose (path : Path) (client : ClientId) (clients : Finset ClientId)
      (entry : s.fileMap path = some clients) :
      Expands s t (.findClose path client)
        [.lock .subscriberMutex,
          .act (.notifyEach client (Server.updateNotification path t.timestamp)
            clients),
          .unlock .subscriberMutex]
  | notifyRename (oldPath newPath : Path) (client : ClientId)
      (clients : Finset ClientId) (entry : s.fileMap oldPath = some clients) :
      Expands s t (.findRename oldPath newPath client)
        [.lock .subscriberMutex,
          .act (.notifyEach client
            (Server.renameNotification oldPath newPath t.timestamp) clients),
          .unlock .subscriberMutex, .act (.moveEntry oldPath newPath clients)]
  | renameMissing (oldPath newPath : Path) (client : ClientId)
      (entry : s.fileMap oldPath = none) :
      Expands s t (.findRename oldPath newPath client)
        [.lock .fileMapMutex, .act (.insertFileMap newPath client),
          .unlock .fileMapMutex]
  | notifyUnlink (path : Path) (client : ClientId) (clients : Finset ClientId)
      (entry : s.fileMap path = some clients) :
      Expands s t (.findUnlink path client)
        [.lock .subscriberMutex,
          .act (.notifyEach client (Server.deleteNotification path) clients),
          .unlock .subscriberMutex, .act (.eraseEntry path)]
  | pushNext (client receiver : ClientId) (q : QueueId) (notif : Notification)
      (remaining : Finset ClientId) (member : receiver ∈ remaining)
      (other : receiver ≠ client) (queue : s.subscribers receiver = some q) :
      Expands s t (.notifyEach client notif remaining)
        [.lock (.queueMu q), .act (.push receiver q notif),
          .unlock (.queueMu q),
          .act (.notifyEach client notif (remaining.erase receiver))]
  | skipNext (client receiver : ClientId) (notif : Notification)
      (remaining : Finset ClientId) (member : receiver ∈ remaining)
      (skipped : receiver = client ∨ s.subscribers receiver = none) :
      Expands s t (.notifyEach client notif remaining)
        [.act (.notifyEach client notif (remaining.erase receiver))]
  | subscription (client : ClientId) :
      Expands s t (.createQueue client)
        [.lock .subscriberMutex,
          .act (.insertSubscriber client s.unusedQueue),
          .unlock .subscriberMutex,
          .act (.awaitNotification client s.unusedQueue)]
  | wake (client : ClientId) (q : QueueId) :
      Expands s t (.awaitNotification client q)
        [.lock (.queueMu q), .act (.pop client q)]
  | popped (client : ClientId) (q : QueueId) :
      Expands s t (.pop client q)
        [.unlock (.queueMu q), .act (.writeNote client q)]
  | popShutdown (client : ClientId) (q : QueueId) :
      Expands s t (.pop client q) [.unlock (.queueMu q)]
  | popAgain (client : ClientId) (q : QueueId) :
      Expands s t (.pop client q)
        [.unlock (.queueMu q), .act (.awaitNotification client q)]
  | awaitAgain (client : ClientId) (q : QueueId) :
      Expands s t (.writeNote client q) [.act (.awaitNotification client q)]
  | cancelQueue (client : ClientId) (q : QueueId) :
      Expands s t (.findSubscriber client)
        [.lock (.queueMu q), .act (.cancel q), .unlock (.queueMu q),
          .act (.eraseSubscriber client)]

/-- What an action leaves to be executed. -/
def Leaves (s : Server) (t : HandlerLocals) (a : Action) (rest after : Code) :
    Prop :=
  (a.Returns ∧ after = []) ∨ ∃ front, Expands s t a front ∧ after = front ++ rest

namespace Leaves

variable {s : Server} {t : HandlerLocals} {a : Action} {rest : Code}

theorem done (finishes : ∀ client q, a ≠ .pop client q) :
    Leaves s t a rest rest :=
  .inr ⟨[], .done a finishes, rfl⟩

theorem returns (mayReturn : a.Returns) : Leaves s t a rest [] :=
  .inl ⟨mayReturn, rfl⟩

theorem expands {front : Code} (expansion : Expands s t a front) :
    Leaves s t a rest (front ++ rest) :=
  .inr ⟨front, expansion, rfl⟩

end Leaves

section Exec

variable {a : Action} {c : Choice} {w w' : Recorded} {t t' : HandlerLocals}
variable {rest after : Code}

theorem leaves_of_exec (executes : exec a c w t rest = some (w', t', after)) :
    Leaves w.server t a rest after := by
  cases a <;> simp only [exec] at executes
  all_goals repeat' split at executes
  all_goals first
    | (simp only [Option.some.injEq, Prod.mk.injEq] at executes
       obtain ⟨-, -, rfl⟩ := executes)
    | simp at executes
  all_goals first
    | exact .done (by simp)
    | exact .returns trivial
    | exact .expands .sendAgain
    | exact .expands (.receiveAgain _ _ _ (List.suffix_refl _))
    | exact .expands (.receiveAgain _ _ _ (List.suffix_cons _ _))
    | exact .expands (.notifyClose _ _ _ ‹_›)
    | exact .expands (.notifyRename _ _ _ _ ‹_›)
    | exact .expands (.renameMissing _ _ _ ‹_›)
    | exact .expands (.notifyUnlink _ _ _ ‹_›)
    | exact .expands (.pushNext _ _ _ _ _ ‹_› ‹_› ‹_›)
    | exact .expands (.skipNext _ _ _ _ ‹_› (.inl ‹_›))
    | exact .expands (.skipNext _ _ _ _ ‹_› (.inr ‹_›))
    | exact .expands (.subscription _)
    | exact .expands (.wake _ _)
    | exact .expands (.popped _ _)
    | exact .expands (.popShutdown _ _)
    | exact .expands (.popAgain _ _)
    | exact .expands (.awaitAgain _ _)
    | exact .expands (.cancelQueue _ _)

/-- The file map after an action. -/
def Action.fileMapAfter (map : ClientMap) : Action → ClientMap
  | .insertFileMap path client => map.insertClient path client
  | .findClose path client =>
      match map path with
      | some _ => map
      | none => map.insertClient path client
  | .moveEntry oldPath newPath clients =>
      Function.update (Function.update map newPath (some clients)) oldPath none
  | .eraseEntry path => Function.update map path none
  | .sweepFileMap client => map.sweepClient client
  | _ => map

/-- The subscribers after an action. -/
def Action.subscribersAfter (subscribers : ClientId → Option QueueId) :
    Action → ClientId → Option QueueId
  | .insertSubscriber client q => Function.update subscribers client (some q)
  | .eraseSubscriber client => Function.update subscribers client none
  | _ => subscribers

theorem fileMap_of_exec (executes : exec a c w t rest = some (w', t', after)) :
    w'.server.fileMap = a.fileMapAfter w.server.fileMap := by
  cases a <;> simp only [exec] at executes
  all_goals repeat' split at executes
  all_goals first
    | (simp only [Option.some.injEq, Prod.mk.injEq] at executes
       obtain ⟨rfl, -, -⟩ := executes
       first
         | rfl
         | simp_all [Action.fileMapAfter])
    | simp at executes

theorem subscribers_of_exec
    (executes : exec a c w t rest = some (w', t', after)) :
    w'.server.subscribers = a.subscribersAfter w.server.subscribers := by
  cases a <;> simp only [exec] at executes
  all_goals repeat' split at executes
  all_goals first
    | (simp only [Option.some.injEq, Prod.mk.injEq] at executes
       obtain ⟨rfl, -, -⟩ := executes
       rfl)
    | simp at executes

/-- What the log records about an action that does not touch files. -/
def Action.logAfter (log : List Event) : Action → List Event
  | .push receiver _ notif => .pushed receiver notif :: log
  | _ => log

/-- The actions after which the handler cannot return early do not touch files
or file streams. -/
theorem frame_of_exec (continues : ¬ a.Returns)
    (executes : exec a c w t rest = some (w', t', after)) :
    w'.server.disk = w.server.disk ∧ w'.log = a.logAfter w.log ∧
      t'.path = t.path ∧ t'.input = t.input ∧ t'.output = t.output ∧
      t'.sent = t.sent := by
  cases a <;> simp only [exec] at executes
  all_goals repeat' split at executes
  all_goals first
    | (simp only [Option.some.injEq, Prod.mk.injEq] at executes
       obtain ⟨rfl, rfl, -⟩ := executes
       first
         | exact ⟨rfl, rfl, rfl, rfl, rfl, rfl⟩
         | exact (continues trivial).elim)
    | simp at executes

end Exec

end DistributedFilesystem
