import DistributedFilesystem.NotificationFanOut
import DistributedFilesystem.SweptMaps
import DistributedFilesystem.TransitionRuns

/-!
# The handlers, one after the other

A run takes any handlers in any order, each from its start to its return; the
handler of `subscribe` runs until its loop, and each turn of the loop is a step.
Every run keeps the two maps of clients free of empty sets, and gives every
subscribed client a queue of its own.
-/

namespace DistributedFilesystem

open TransitionRuns

namespace Server

/-- `request_dir` -/
def requestDirHandler (s : Server) (code : String) (clientId : ClientId) :
    Server × Path × Status :=
  if code = "I want input/output directory" then
    let clientsDb :=
      if clientId ≠ "" then insert clientId s.clientsDb else s.clientsDb
    ({ s with clientsDb := clientsDb }, s.rootDir, Status.OK)
  else
    (s, "", ⟨.permissionDenied,
      "You need the correct code to retrieve requested data."⟩)

/-- `subscribe` up to its loop. -/
def registerSubscriber (s : Server) (clientId : ClientId) : Server :=
  { s with
    queues := Function.update s.queues s.unusedQueue (some ⟨[], false⟩)
    unusedQueue := s.unusedQueue + 1
    subscribers :=
      Function.update s.subscribers clientId (some s.unusedQueue) }

/-- One turn of the loop of `subscribe`, which pops from the queue. -/
def popQueue (s : Server) (q : QueueId) : Option Server :=
  match s.queues q with
  | some ⟨_ :: notes, shutdown⟩ =>
      some { s with
        queues := Function.update s.queues q (some ⟨notes, shutdown⟩) }
  | _ => none

end Server

/-- What the server does next, with the answer of the operating system. -/
inductive ServerCall where
  | requestDir (code : String) (clientId : ClientId)
  | subscribe (clientId : ClientId)
  | pop (q : QueueId)
  /-- The monitor thread of `subscribe`. -/
  | cancel (q : QueueId)
  | open (request : FileRequest) (outcome : DiskOutcome)
  | close (stream : List FileRequest) (outcome : DiskOutcome)
  | unlink (path : Path) (clientId : ClientId) (outcome : DiskOutcome)
  | rename (oldPath newPath : Path) (clientId : ClientId)
      (outcome : DiskOutcome)
  | cleanupClient (clientId : ClientId)
  /-- Time passes, and the files change in any other way. -/
  | elsewhere (disk : FileStore Path Byte) (clock : Int)

/-- The handlers run one after the other; a `rename` of a path that is not
registered does not return. -/
def ServerCall.step : ServerCall → Server → Option Server
  | .requestDir code clientId, s => some (s.requestDirHandler code clientId).1
  | .subscribe clientId, s => some (s.registerSubscriber clientId)
  | .pop q, s => s.popQueue q
  | .cancel q, s => some (s.cancel q)
  | .open request outcome, s => some (s.openHandler request outcome).1
  | .close stream outcome, s => some (s.closeHandler stream outcome).1
  | .unlink path clientId outcome, s =>
      some (s.unlinkHandler path clientId outcome).1
  | .rename oldPath newPath clientId outcome, s =>
      (s.renameHandler oldPath newPath clientId outcome).map Prod.fst
  | .cleanupClient clientId, s => some (s.cleanupClient clientId)
  | .elsewhere disk clock, s => some { s with disk := disk, clock := clock }

namespace Server

variable {s s' : Server} {clientId client : ClientId} {path : Path}
variable {notif : Notification} {clients : Finset ClientId} {q r : QueueId}

/-- The maps of clients are tidy, and every subscribed client has a queue of its
own. -/
structure WellKept (s : Server) : Prop where
  fileMap : s.fileMap.Tidy
  fileMapOpen : s.fileMapOpen.Tidy
  wellSubscribed : s.WellSubscribed

section Queues

/-- Queues that change in place leave the subscriptions in order. -/
theorem WellSubscribed.congr (wellSubscribed : s.WellSubscribed)
    (subscribers : s'.subscribers = s.subscribers)
    (unusedQueue : s'.unusedQueue = s.unusedQueue)
    (queues : ∀ q, (s'.queues q).isSome = (s.queues q).isSome) :
    s'.WellSubscribed where
  ownQueues := by
    intro first second q
    rw [subscribers]
    exact wellSubscribed.ownQueues first second q
  allocated := by
    intro client q
    rw [subscribers, queues]
    exact wellSubscribed.allocated
  used := by
    intro client q
    rw [subscribers, unusedQueue]
    exact wellSubscribed.used

theorem isSome_queues_update (change : NotificationQueue → NotificationQueue) :
    (Function.update s.queues r ((s.queues r).map change) q).isSome =
      (s.queues q).isSome := by
  rw [Function.update_apply]
  split
  · next same => rw [same, Option.isSome_map]
  · rfl

theorem isSome_queues_notifyAll :
    ((s.notifyAll clientId notif clients).queues q).isSome =
      (s.queues q).isSome := by
  induction clients using Finset.induction_on with
  | empty => rfl
  | insert client clients fresh ih =>
      rw [notifyAll_insert fresh, ← ih]
      unfold notifyOne
      split
      · rfl
      · split
        · exact isSome_queues_update _
        · rfl

end Queues

section Steps

/-- What the callbacks do with `file_map` after they have notified. -/
theorem WellKept.notifyAll (wellKept : s.WellKept) (clientId : ClientId)
    (notif : Notification) (clients : Finset ClientId) {fileMap : ClientMap}
    (tidy : fileMap.Tidy) :
    WellKept { s.notifyAll clientId notif clients with fileMap := fileMap } where
  fileMap := tidy
  fileMapOpen := by
    dsimp only
    rw [notifyAll_fileMapOpen]
    exact wellKept.fileMapOpen
  wellSubscribed :=
    wellKept.wellSubscribed.congr notifyAll_subscribers notifyAll_unusedQueue
      fun _ => isSome_queues_notifyAll

/-- The disk does not matter. -/
theorem WellKept.congr_disk (wellKept : s.WellKept)
    (disk : FileStore Path Byte) (clock : Int) :
    WellKept { s with disk := disk, clock := clock } :=
  ⟨wellKept.fileMap, wellKept.fileMapOpen,
    wellKept.wellSubscribed.congr rfl rfl fun _ => rfl⟩

theorem WellKept.requestDir (wellKept : s.WellKept) (code : String)
    (clientId : ClientId) : WellKept (s.requestDirHandler code clientId).1 := by
  unfold requestDirHandler
  split
  · exact ⟨wellKept.fileMap, wellKept.fileMapOpen,
      wellKept.wellSubscribed.congr rfl rfl fun _ => rfl⟩
  · exact wellKept

theorem WellKept.registerSubscriber (wellKept : s.WellKept)
    (clientId : ClientId) : WellKept (s.registerSubscriber clientId) := by
  have was := wellKept.wellSubscribed
  have split : ∀ {client q},
      Function.update s.subscribers clientId (some s.unusedQueue) client =
        some q → client = clientId ∧ q = s.unusedQueue ∨
          client ≠ clientId ∧ s.subscribers client = some q := by
    intro client q subscriber
    by_cases same : client = clientId
    · rw [same, Function.update_self] at subscriber
      exact .inl ⟨same, (Option.some.inj subscriber).symm⟩
    · rw [Function.update_of_ne same] at subscriber
      exact .inr ⟨same, subscriber⟩
  refine ⟨wellKept.fileMap, wellKept.fileMapOpen, ?_⟩
  constructor
  case ownQueues =>
    intro first second q isFirst isSecond
    rcases split isFirst with ⟨rfl, rfl⟩ | ⟨-, wasFirst⟩
    · rcases split isSecond with ⟨rfl, -⟩ | ⟨-, wasSecond⟩
      · rfl
      · exact absurd (was.used wasSecond) (lt_irrefl _)
    · rcases split isSecond with ⟨rfl, rfl⟩ | ⟨-, wasSecond⟩
      · exact absurd (was.used wasFirst) (lt_irrefl _)
      · exact was.ownQueues first second q wasFirst wasSecond
  case allocated =>
    intro client q subscriber
    dsimp only [Server.registerSubscriber]
    rcases split subscriber with ⟨-, rfl⟩ | ⟨-, wasSubscriber⟩
    · rw [Function.update_self, Option.isSome_some]
    · rw [Function.update_of_ne (was.used wasSubscriber).ne]
      exact was.allocated wasSubscriber
  case used =>
    intro client q subscriber
    rcases split subscriber with ⟨-, rfl⟩ | ⟨-, wasSubscriber⟩
    · exact Nat.lt_succ_self _
    · exact Nat.lt_succ_of_lt (was.used wasSubscriber)

theorem WellKept.popQueue (wellKept : s.WellKept)
    (pops : s.popQueue q = some s') : WellKept s' := by
  unfold Server.popQueue at pops
  split at pops
  · next note notes shutdown present =>
      obtain rfl := Option.some.inj pops
      refine ⟨wellKept.fileMap, wellKept.fileMapOpen,
        wellKept.wellSubscribed.congr rfl rfl fun r => ?_⟩
      dsimp only
      rw [Function.update_apply]
      split
      · next same => rw [same, present, Option.isSome_some, Option.isSome_some]
      · rfl
  · simp at pops

theorem WellKept.cancel (wellKept : s.WellKept) (q : QueueId) :
    WellKept (s.cancel q) :=
  ⟨wellKept.fileMap, wellKept.fileMapOpen,
    wellKept.wellSubscribed.congr rfl rfl fun _ => isSome_queues_update _⟩

theorem WellKept.registerOpen (wellKept : s.WellKept) (path : Path)
    (clientId : ClientId) : WellKept (s.registerOpen path clientId) :=
  ⟨wellKept.fileMap.insertClient path clientId,
    wellKept.fileMapOpen.insertClient path clientId,
    wellKept.wellSubscribed.congr rfl rfl fun _ => rfl⟩

theorem WellKept.finishClose (wellKept : s.WellKept) (path : Path)
    (clientId : ClientId) (timestamp : Int) :
    WellKept (s.finishClose path clientId timestamp) := by
  have called : WellKept (s.fileChangeCallbackClose path clientId
      (updateNotification path timestamp)) := by
    unfold fileChangeCallbackClose
    split
    · next clients entry =>
        have told := wellKept.notifyAll clientId
          (updateNotification path timestamp) clients wellKept.fileMap
        rwa [← notifyAll_fileMap (s := s)] at told
    · exact ⟨wellKept.fileMap.insertClient path clientId, wellKept.fileMapOpen,
        wellKept.wellSubscribed.congr rfl rfl fun _ => rfl⟩
  exact ⟨called.fileMap, called.fileMapOpen.eraseClient path clientId,
    called.wellSubscribed.congr rfl rfl fun _ => rfl⟩

theorem WellKept.close (wellKept : s.WellKept) (stream : List FileRequest)
    (outcome : DiskOutcome) : WellKept (s.closeHandler stream outcome).1 := by
  unfold closeHandler
  split
  · exact wellKept
  · dsimp only
    split
    · exact (wellKept.congr_disk _ _).finishClose ..
    · exact wellKept

theorem WellKept.unlink (wellKept : s.WellKept) (path : Path)
    (clientId : ClientId) (outcome : DiskOutcome) :
    WellKept (s.unlinkHandler path clientId outcome).1 := by
  unfold unlinkHandler
  split
  · exact wellKept
  · dsimp only
    have removed := wellKept.congr_disk (s.disk.remove path) s.clock
    unfold fileChangeCallbackUnlink
    split
    · exact removed.notifyAll _ _ _
        (by rw [notifyAll_fileMap]; exact removed.fileMap.update path (by simp))
    · exact removed
  · exact wellKept
  · exact wellKept

theorem WellKept.rename (wellKept : s.WellKept) {oldPath newPath : Path}
    {outcome : DiskOutcome} {status : Status}
    (renames : s.renameHandler oldPath newPath clientId outcome =
      some (s', status)) : WellKept s' := by
  unfold renameHandler at renames
  split at renames
  · dsimp only at renames
    obtain ⟨after, called, same⟩ := Option.map_eq_some_iff.mp renames
    obtain ⟨rfl, -⟩ := Prod.mk.inj same
    have moved := wellKept.congr_disk (s.disk.rename oldPath newPath) s.clock
    unfold fileChangeCallbackRename at called
    split at called
    · next clients entry =>
        obtain rfl := Option.some.inj called
        have notEmpty : some clients ≠ some ∅ := by
          rw [← entry]
          exact moved.fileMap.noEmptySet oldPath
        refine moved.notifyAll _ _ _ ?_
        rw [notifyAll_fileMap]
        exact (moved.fileMap.update newPath notEmpty).update oldPath (by simp)
    · simp at called
  · obtain ⟨rfl, -⟩ := Prod.mk.inj (Option.some.inj renames)
    exact wellKept

theorem WellKept.cleanupClient (wellKept : s.WellKept) (clientId : ClientId) :
    WellKept (s.cleanupClient clientId) := by
  have was := wellKept.wellSubscribed
  unfold Server.cleanupClient
  dsimp only
  split
  · next q subscriber =>
      refine ⟨wellKept.fileMap.sweepClient clientId, wellKept.fileMapOpen, ?_⟩
      have still : ∀ {client r},
          Function.update s.subscribers clientId none client = some r →
            s.subscribers client = some r := by
        intro client r isSubscriber
        rw [Function.update_apply] at isSubscriber
        split at isSubscriber
        · simp at isSubscriber
        · exact isSubscriber
      constructor
      case ownQueues =>
        intro first second r isFirst isSecond
        exact was.ownQueues first second r (still isFirst) (still isSecond)
      case allocated =>
        intro client r isSubscriber
        dsimp only [Server.cancel]
        rw [isSome_queues_update]
        exact was.allocated (still isSubscriber)
      case used =>
        intro client r isSubscriber
        exact was.used (still isSubscriber)
  · exact ⟨wellKept.fileMap.sweepClient clientId, wellKept.fileMapOpen,
      was.congr rfl rfl fun _ => rfl⟩

theorem wellKept_of_step {call : ServerCall} (steps : call.step s = some s')
    (wellKept : s.WellKept) : s'.WellKept := by
  cases call with
  | requestDir code clientId =>
      obtain rfl := Option.some.inj steps
      exact wellKept.requestDir code clientId
  | subscribe clientId =>
      obtain rfl := Option.some.inj steps
      exact wellKept.registerSubscriber clientId
  | pop q => exact wellKept.popQueue steps
  | cancel q =>
      obtain rfl := Option.some.inj steps
      exact wellKept.cancel q
  | «open» request outcome =>
      obtain rfl := Option.some.inj steps
      exact wellKept.registerOpen request.path request.clientId
  | close stream outcome =>
      obtain rfl := Option.some.inj steps
      exact wellKept.close stream outcome
  | unlink path clientId outcome =>
      obtain rfl := Option.some.inj steps
      exact wellKept.unlink path clientId outcome
  | rename oldPath newPath clientId outcome =>
      obtain ⟨⟨after, status⟩, renames, rfl⟩ := Option.map_eq_some_iff.mp steps
      exact wellKept.rename renames
  | cleanupClient clientId =>
      obtain rfl := Option.some.inj steps
      exact wellKept.cleanupClient clientId
  | elsewhere disk clock =>
      obtain rfl := Option.some.inj steps
      exact wellKept.congr_disk disk clock

theorem wellKept_launch (rootDir : Path) (disk : FileStore Path Byte)
    (clock : Int) : (Server.launch rootDir disk clock).WellKept where
  fileMap := ClientMap.tidy_empty
  fileMapOpen := ClientMap.tidy_empty
  wellSubscribed := ⟨by simp [OwnQueues, launch], by simp [launch],
    by simp [launch]⟩

/-- Every server that the handlers lead to is well kept. -/
theorem wellKept_of_run {rootDir : Path} {disk : FileStore Path Byte}
    {clock : Int} {calls : List ServerCall}
    (reaches : run ServerCall.step calls (Server.launch rootDir disk clock) =
      some s) : s.WellKept :=
  invariant_of_run' (fun _ _ _ wellKept steps => wellKept_of_step steps wellKept)
    reaches (wellKept_launch rootDir disk clock)

end Steps

end Server

end DistributedFilesystem
