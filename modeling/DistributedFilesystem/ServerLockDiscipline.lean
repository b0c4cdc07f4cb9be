import DistributedFilesystem.ServerThreadEffects

/-!
# The lock discipline of the handlers

Every action that touches a shared map runs under the mutex of that map, and
every handler returns with all its mutexes released.  Except for the second
request in the callback of `rename`, mutexes are requested in the order
`file_map_mutex`, `subscriber_mutex`, the mutex of a queue.  The discipline
is stated once with the order as a switch.
-/

namespace DistributedFilesystem

open LockedThreads

/-- The place of a mutex in the order of requests. -/
def Lock.rank : Lock → Nat
  | .fileMapMutex => 0
  | .fileMapOpenMutex => 0
  | .clientDbMutex => 0
  | .subscriberMutex => 1
  | .queueMu _ => 2

theorem Lock.rank_le (l : Lock) : l.rank ≤ 2 := by
  cases l <;> simp [Lock.rank]

/-- Every held mutex ranks below `level`. -/
def Below (held : Set Lock) (level : Nat) : Prop :=
  ∀ l ∈ held, l.rank < level

theorem below_empty (level : Nat) : Below ∅ level := by
  simp [Below]

theorem Below.insert {held : Set Lock} {l : Lock} {level : Nat}
    (below : Below held level) (lower : l.rank < level) :
    Below (insert l held) level := by
  rintro m (rfl | member)
  · exact lower
  · exact below m member

theorem Below.mono {held : Set Lock} {level level' : Nat}
    (below : Below held level) (le : level ≤ level') : Below held level' :=
  fun l member => lt_of_lt_of_le (below l member) le

/-- The mutexes an action needs, and those it must not run under. -/
def Action.Needs (ordered : Prop) (held : Set Lock) : Action → Prop
  | .insertFileMap _ _ | .moveEntry _ _ _ | .eraseEntry _
  | .sweepFileMap _ => .fileMapMutex ∈ held
  | .findClose _ _ | .findRename _ _ _ | .findUnlink _ _ =>
      .fileMapMutex ∈ held ∧ (ordered → Below held 1)
  | .insertFileMapOpen _ _ | .eraseFileMapOpen _ _ | .reportOpen =>
      .fileMapOpenMutex ∈ held
  | .eraseClientsDb _ | .reportClients => .clientDbMutex ∈ held
  | .insertSubscriber _ _ | .eraseSubscriber _ => .subscriberMutex ∈ held
  | .notifyEach _ _ _ | .findSubscriber _ =>
      .subscriberMutex ∈ held ∧ (ordered → Below held 2)
  | .push _ q _ | .cancel q => .queueMu q ∈ held
  | .pop _ q => .queueMu q ∈ held ∧ held \ {.queueMu q} = ∅
  | .requestDir _ _ | .stamp _ | .answer _ => True
  | .openInput _ | .sendChunks | .receive _ _ | .closeOutput
  | .renameFile _ _ | .removeFile _ | .createQueue _
  | .awaitNotification _ _ | .writeNote _ _ | .awaitCancelled _ => held = ∅

/-- The mutexes under which the instructions after an action run; every
branch of `pop` first releases the queue's mutex. -/
def Action.heldAfter (held : Set Lock) : Action → Set Lock
  | .pop _ q => held \ {.queueMu q}
  | _ => held

/-- The program suits a handler that holds these mutexes. -/
def Suited (ordered : Prop) : Set Lock → Code → Prop
  | held, [] => held = ∅
  | held, .lock l :: rest =>
      (ordered → Below held l.rank) ∧
        (l ∉ held → Suited ordered (insert l held) rest)
  | held, .unlock l :: rest => l ∈ held ∧ Suited ordered (held \ {l}) rest
  | held, .act a :: rest =>
      a.Needs ordered held ∧ (a = .sendChunks → rest = []) ∧
        Suited ordered (a.heldAfter held) rest

section Expansion

variable {ordered : Prop} {held : Set Lock} {rest : Code} {l : Lock}

/-- Releasing a mutex that was not held before gives back what was held. -/
theorem suited_unlock (fresh : l ∉ held) (later : Suited ordered held rest) :
    Suited ordered (insert l held) (.unlock l :: rest) := by
  refine ⟨Set.mem_insert l held, ?_⟩
  rwa [Set.insert_sdiff_self_of_notMem fresh]

theorem suited_notify {client : ClientId} {notif : Notification}
    {clients : Finset ClientId} (below : ordered → Below held 1)
    (later : Suited ordered held rest) :
    Suited ordered held (.lock .subscriberMutex ::
      .act (.notifyEach client notif clients) ::
      .unlock .subscriberMutex :: rest) := by
  refine ⟨below, fun fresh => ⟨⟨Set.mem_insert _ _, fun isOrdered => ?_⟩, ?_, ?_⟩⟩
  · exact ((below isOrdered).mono (by decide)).insert (by decide)
  · simp
  · exact suited_unlock fresh later

/-- The mutex of a queue, requested around one action on the queue. -/
theorem suited_queue {q : QueueId} {a : Action}
    (below : ordered → Below held 2)
    (needs : ∀ held : Set Lock, .queueMu q ∈ held → a.Needs ordered held)
    (notSend : a ≠ .sendChunks) (keeps : ∀ held, a.heldAfter held = held)
    (later : Suited ordered held rest) :
    Suited ordered held (.lock (.queueMu q) :: .act a ::
      .unlock (.queueMu q) :: rest) := by
  refine ⟨below, fun fresh => ⟨needs _ (Set.mem_insert _ _), ?_, ?_⟩⟩
  · exact fun isSend => (notSend isSend).elim
  · rw [keeps]
    exact suited_unlock fresh later

variable {a : Action} {s : Server} {t : HandlerLocals} {front : Code}

/-- What an action puts in front of the rest suits the mutexes it runs
under. -/
theorem suited_of_expands (suited : Suited ordered held (.act a :: rest))
    (registered : ordered → ∀ oldPath newPath client,
      a = .findRename oldPath newPath client → s.fileMap oldPath ≠ none)
    (expansion : Expands s t a front) :
    Suited ordered held (front ++ rest) := by
  obtain ⟨needs, last, later⟩ := suited
  cases expansion with
  | done _ finishes =>
      have same : a.heldAfter held = held := by
        cases a <;> first | rfl | exact (finishes _ _ rfl).elim
      rwa [same] at later
  | sendAgain => exact ⟨needs, last, later⟩
  | receiveAgain path messages _ _ => exact ⟨needs, by simp, later⟩
  | notifyClose path client clients entry =>
      exact suited_notify needs.2 later
  | notifyRename oldPath newPath client clients entry =>
      exact suited_notify needs.2 ⟨needs.1, by simp, later⟩
  | renameMissing oldPath newPath client entry =>
      refine ⟨fun isOrdered => ?_, fun fresh => (fresh needs.1).elim⟩
      exact (registered isOrdered _ _ _ rfl entry).elim
  | notifyUnlink path client clients entry =>
      exact suited_notify needs.2 ⟨needs.1, by simp, later⟩
  | pushNext client receiver q notif remaining member other queue =>
      exact suited_queue needs.2 (fun _ => id) (by simp) (fun _ => rfl)
        ⟨needs, by simp, later⟩
  | skipNext client receiver notif remaining member skipped =>
      exact ⟨needs, by simp, later⟩
  | subscription client =>
      obtain rfl : held = ∅ := needs
      refine ⟨fun _ => below_empty _, fun fresh => ?_⟩
      refine ⟨Set.mem_insert _ _, by simp, suited_unlock fresh ?_⟩
      exact ⟨rfl, by simp, later⟩
  | wake client q =>
      obtain rfl : held = ∅ := needs
      refine ⟨fun _ => below_empty _, fun fresh => ?_⟩
      have released : insert (Lock.queueMu q) (∅ : Set Lock) \ {.queueMu q} = ∅ :=
        Set.insert_sdiff_self_of_notMem fresh
      refine ⟨⟨Set.mem_insert _ _, released⟩, by simp, ?_⟩
      rw [Action.heldAfter, released]
      exact later
  | popped client q => exact ⟨needs.1, needs.2, by simp, later⟩
  | popShutdown client q => exact ⟨needs.1, later⟩
  | popAgain client q => exact ⟨needs.1, needs.2, by simp, later⟩
  | awaitAgain client q => exact ⟨needs, by simp, later⟩
  | cancelQueue client q =>
      exact suited_queue needs.2 (fun _ => id) (by simp) (fun _ => rfl)
        ⟨needs.1, by simp, later⟩

theorem suited_of_leaves {after : Code}
    (suited : Suited ordered held (.act a :: rest))
    (registered : ordered → ∀ oldPath newPath client,
      a = .findRename oldPath newPath client → s.fileMap oldPath ≠ none)
    (leaves : Leaves s t a rest after) : Suited ordered held after := by
  rcases leaves with ⟨returns, rfl⟩ | ⟨front, expansion, rfl⟩
  · cases a <;> first | exact suited.1 | exact returns.elim
  · exact suited_of_expands suited registered expansion

end Expansion

/-- The action is the lookup of `rename`, so it needs the old path to be
registered if the order of requests is to be kept. -/
def RenameFinds (ordered : Prop) (a : Action) (w : Recorded)
    (_ : HandlerLocals) : Prop :=
  ordered → ∀ oldPath newPath client,
    a = .findRename oldPath newPath client → w.server.fileMap oldPath ≠ none

/-- The discipline of the handlers. -/
def lockDiscipline (ordered : Prop) :
    Discipline exec (RenameFinds ordered) where
  Suits held _ code := Suited ordered held code
  nil := id
  lock suited fresh := suited.2 fresh
  unlock := id
  act suited registered executes :=
    suited_of_leaves suited registered (leaves_of_exec executes)

theorem ranked_lockDiscipline : (lockDiscipline True).Ranked Lock.rank :=
  fun suited => suited.1 trivial

/-- Every handler's program suits a handler that holds no mutex. -/
theorem suited_program (ordered : Prop) (request : Request) :
    Suited ordered ∅ request.program := by
  cases request <;>
    simp [Request.program, requestDirProgram, openProgram, closeProgram,
      closeCallback, renameProgram, unlinkProgram, getStatusProgram,
      subscribeProgram, cleanupProgram, monitorProgram, Suited, Action.Needs,
      Action.heldAfter, Below, Lock.rank]

theorem holds_start {ι : Type*} (ordered : Prop) (s : Server)
    (requests : ι → Request) :
    (lockDiscipline ordered).Holds (Handlers.start s requests) := by
  intro i
  have free : (Handlers.start s requests).held i = ∅ := by
    simp [State.held, Handlers.start]
  rw [free]
  exact suited_program ordered (requests i)

end DistributedFilesystem
