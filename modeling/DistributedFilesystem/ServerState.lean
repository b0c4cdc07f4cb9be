import DistributedFilesystem.FileStore
import Mathlib.Data.Finset.Basic
import Mathlib.Data.Finset.Card
import Mathlib.Data.Multiset.Fold
import Mathlib.Data.UInt

/-!
# State of the server

The server keeps its files on disk, the clients that hold a copy of each path
(`fileMap`), the clients that have each path open (`fileMapOpen`), the
notification queue of each subscribed client and the connected clients.

A path is the full server path that the handlers build from the directory and
the file name of a request.
-/

namespace DistributedFilesystem

abbrev Byte := UInt8
abbrev Bytes := List Byte
abbrev Path := String
abbrev ClientId := String

/-- The identity of a `NotificationQueue` object, which handlers share by
pointer. -/
abbrev QueueId := Nat

/-- The gRPC status codes that the handlers and the client use. -/
inductive StatusCode where
  | ok
  | unknown
  | invalidArgument
  | notFound
  | permissionDenied
  | internal
  | unavailable
deriving DecidableEq

structure Status where
  code : StatusCode
  message : String
deriving DecidableEq

def Status.OK : Status := ⟨.ok, ""⟩

/-- `status.ok()` -/
def Status.isOk (status : Status) : Bool := status.code == .ok

@[simp]
theorem Status.isOk_OK : Status.OK.isOk = true :=
  rfl

/-- The `Notification` message; `directory` carries the full path of the
file. -/
structure Notification where
  directory : Path
  newDirectory : Path
  message : String
  timestamp : Int
deriving DecidableEq

structure NotificationQueue where
  queue : List Notification
  shutdown : Bool
deriving DecidableEq

namespace NotificationQueue

def push (q : NotificationQueue) (notif : Notification) : NotificationQueue :=
  { q with queue := q.queue ++ [notif] }

def cancel (q : NotificationQueue) : NotificationQueue :=
  { q with shutdown := true }

end NotificationQueue

/-- A map from paths to sets of clients, such as `file_map`. -/
abbrev ClientMap := Path → Option (Finset ClientId)

namespace ClientMap

/-- `map[path].insert(client)` -/
def insertClient (map : ClientMap) (path : Path) (client : ClientId) :
    ClientMap :=
  Function.update map path (some (insert client ((map path).getD ∅)))

/-- Erase the client from the entry of one path, and the entry once it is
empty. -/
def eraseClient (map : ClientMap) (path : Path) (client : ClientId) :
    ClientMap :=
  match map path with
  | some clients =>
      Function.update map path
        (if clients.erase client = ∅ then none else some (clients.erase client))
  | none => map

/-- Erase the client from every entry, and the entries that become empty. -/
def sweepClient (map : ClientMap) (client : ClientId) : ClientMap :=
  fun path =>
    match map path with
    | some clients =>
        if clients.erase client = ∅ then none else some (clients.erase client)
    | none => none

/-- The client is registered for the path. -/
def Registered (map : ClientMap) (path : Path) (client : ClientId) : Prop :=
  ∃ clients, map path = some clients ∧ client ∈ clients

variable {map : ClientMap} {path other : Path} {client member : ClientId}

theorem registered_insertClient_self :
    Registered (map.insertClient path client) path client :=
  ⟨_, Function.update_self .., Finset.mem_insert_self ..⟩

theorem registered_insertClient :
    Registered (map.insertClient path client) other member ↔
      Registered map other member ∨ other = path ∧ member = client := by
  unfold Registered insertClient
  by_cases same : other = path
  · subst same
    cases entry : map other with
    | none => simp
    | some clients => simp [or_comm]
  · simp [same]

theorem not_registered_sweepClient :
    ¬ Registered (map.sweepClient client) path client := by
  rintro ⟨clients, entry, member⟩
  unfold sweepClient at entry
  split at entry
  · split at entry
    · simp at entry
    · obtain rfl := Option.some.inj entry
      simp at member
  · simp at entry

theorem registered_of_sweepClient
    (registered : Registered (map.sweepClient client) path member) :
    Registered map path member := by
  obtain ⟨clients, entry, isMember⟩ := registered
  unfold sweepClient at entry
  split at entry
  · next before entryBefore =>
      split at entry
      · simp at entry
      · obtain rfl := Option.some.inj entry
        exact ⟨before, entryBefore, Finset.mem_of_mem_erase isMember⟩
  · simp at entry

end ClientMap

/-- The server's variables; a new queue gets the identity `unusedQueue`. -/
structure Server where
  rootDir : Path
  disk : FileStore Path Byte
  clock : Int
  fileMap : ClientMap
  fileMapOpen : ClientMap
  subscribers : ClientId → Option QueueId
  queues : QueueId → Option NotificationQueue
  unusedQueue : QueueId
  clientsDb : Finset ClientId

/-- The server as its constructor leaves it, over the files on disk. -/
def Server.launch (rootDir : Path) (disk : FileStore Path Byte) (clock : Int) :
    Server where
  rootDir := rootDir
  disk := disk
  clock := clock
  fileMap _ := none
  fileMapOpen _ := none
  subscribers _ := none
  queues _ := none
  unusedQueue := 0
  clientsDb := ∅

/-- `get_file_timestamp`: the modification time, or 0 for a missing file. -/
def getFileTimestamp (disk : FileStore Path Byte) (path : Path) : Int :=
  (disk.modifiedAt path).getD 0

namespace Server

/-- The notifications that wait in the client's queue. -/
def pending (s : Server) (client : ClientId) : List Notification :=
  match s.subscribers client with
  | some q => ((s.queues q).map NotificationQueue.queue).getD []
  | none => []

/-- The client has a queue in `subscribers`. -/
def Subscribed (s : Server) (client : ClientId) : Prop :=
  ∃ q queue, s.subscribers client = some q ∧ s.queues q = some queue

/-- `notif_queue->push(notif)` -/
def push (s : Server) (q : QueueId) (notif : Notification) : Server :=
  { s with
    queues := Function.update s.queues q
      ((s.queues q).map fun queue => queue.push notif) }

/-- `queue->cancel()` -/
def cancel (s : Server) (q : QueueId) : Server :=
  { s with
    queues := Function.update s.queues q
      ((s.queues q).map NotificationQueue.cancel) }

/-- One turn of the loop over the registered clients in the callbacks. -/
def notifyOne (clientId : ClientId) (notif : Notification)
    (client : ClientId) (s : Server) : Server :=
  if client = clientId then s
  else
    match s.subscribers client with
    | some q => s.push q notif
    | none => s

theorem push_comm (s : Server) (q r : QueueId) (notif : Notification) :
    (s.push q notif).push r notif = (s.push r notif).push q notif := by
  by_cases same : q = r
  · rw [same]
  · simp only [push, Function.update_of_ne same,
      Function.update_of_ne (Ne.symm same)]
    congr 1
    exact Function.update_comm same ..

@[simp]
theorem notifyOne_subscribers (clientId : ClientId) (notif : Notification)
    (client : ClientId) (s : Server) :
    (notifyOne clientId notif client s).subscribers = s.subscribers := by
  unfold notifyOne
  split
  · rfl
  · split <;> rfl

/-- The order in which two clients are notified does not matter. -/
instance (clientId : ClientId) (notif : Notification) :
    LeftCommutative (notifyOne clientId notif) where
  left_comm first second s := by
    have unfolded (client : ClientId) (t : Server) :
        notifyOne clientId notif client t =
          if client = clientId then t
          else match t.subscribers client with
            | some q => t.push q notif
            | none => t :=
      rfl
    rw [unfolded first, unfolded second (notifyOne clientId notif first s),
      notifyOne_subscribers, notifyOne_subscribers, unfolded first s,
      unfolded second s]
    by_cases isFirst : first = clientId <;>
      by_cases isSecond : second = clientId <;> simp only [isFirst, isSecond,
        if_true, if_false]
    cases s.subscribers first <;> cases s.subscribers second <;>
      simp only [push_comm]

/-- The loop of the callbacks: push the notification to the queue of every
client in the set but the originator, in any order. -/
def notifyAll (s : Server) (clientId : ClientId) (notif : Notification)
    (clients : Finset ClientId) : Server :=
  clients.val.foldr (notifyOne clientId notif) s

variable {s : Server} {clientId client : ClientId} {notif : Notification}
variable {clients : Finset ClientId}

@[simp]
theorem notifyAll_empty : s.notifyAll clientId notif ∅ = s :=
  rfl

theorem notifyAll_insert (fresh : client ∉ clients) :
    s.notifyAll clientId notif (insert client clients) =
      notifyOne clientId notif client (s.notifyAll clientId notif clients) := by
  unfold notifyAll
  rw [Finset.insert_val_of_notMem fresh, Multiset.foldr_cons]

theorem notifyOne_eq (clientId : ClientId) (notif : Notification)
    (client : ClientId) (s : Server) :
    ∃ queues, notifyOne clientId notif client s = { s with queues := queues } := by
  unfold notifyOne
  split
  · exact ⟨s.queues, rfl⟩
  · split
    · exact ⟨_, rfl⟩
    · exact ⟨s.queues, rfl⟩

/-- The callbacks' loop changes nothing but the queues. -/
theorem notifyAll_eq (s : Server) (clientId : ClientId) (notif : Notification)
    (clients : Finset ClientId) :
    ∃ queues, s.notifyAll clientId notif clients = { s with queues := queues } := by
  induction clients using Finset.induction_on with
  | empty => exact ⟨s.queues, rfl⟩
  | insert client clients fresh ih =>
      obtain ⟨queues, eq⟩ := ih
      rw [notifyAll_insert fresh, eq]
      obtain ⟨queues', eq'⟩ :=
        notifyOne_eq clientId notif client { s with queues := queues }
      exact ⟨queues', eq'⟩

@[simp]
theorem notifyAll_disk : (s.notifyAll clientId notif clients).disk = s.disk := by
  obtain ⟨queues, eq⟩ := notifyAll_eq s clientId notif clients
  rw [eq]

@[simp]
theorem notifyAll_fileMap :
    (s.notifyAll clientId notif clients).fileMap = s.fileMap := by
  obtain ⟨queues, eq⟩ := notifyAll_eq s clientId notif clients
  rw [eq]

@[simp]
theorem notifyAll_subscribers :
    (s.notifyAll clientId notif clients).subscribers = s.subscribers := by
  obtain ⟨queues, eq⟩ := notifyAll_eq s clientId notif clients
  rw [eq]

@[simp]
theorem notifyAll_fileMapOpen :
    (s.notifyAll clientId notif clients).fileMapOpen = s.fileMapOpen := by
  obtain ⟨queues, eq⟩ := notifyAll_eq s clientId notif clients
  rw [eq]

@[simp]
theorem notifyAll_unusedQueue :
    (s.notifyAll clientId notif clients).unusedQueue = s.unusedQueue := by
  obtain ⟨queues, eq⟩ := notifyAll_eq s clientId notif clients
  rw [eq]

theorem subscribed_push (q : QueueId) :
    (s.push q notif).Subscribed client ↔ s.Subscribed client := by
  unfold Subscribed push
  constructor
  · rintro ⟨r, queue, subscriber, present⟩
    by_cases same : r = q
    · subst same
      obtain ⟨before, presentBefore, -⟩ :=
        Option.map_eq_some_iff.mp (by simpa using present)
      exact ⟨r, before, subscriber, presentBefore⟩
    · exact ⟨r, queue, subscriber, by simpa [same] using present⟩
  · rintro ⟨r, queue, subscriber, present⟩
    by_cases same : r = q
    · subst same
      exact ⟨r, queue.push notif, subscriber, by simp [present]⟩
    · exact ⟨r, queue, subscriber, by simp [same, present]⟩

theorem pending_push (subscribed : s.Subscribed client) (q : QueueId) :
    (s.push q notif).pending client =
      s.pending client ++ if s.subscribers client = some q then [notif] else [] := by
  obtain ⟨r, queue, subscriber, present⟩ := subscribed
  by_cases same : r = q
  · subst same
    simp [pending, push, subscriber, present, NotificationQueue.push]
  · simp [pending, push, subscriber, same]

theorem subscribed_notifyOne (other : ClientId) :
    (notifyOne clientId notif other s).Subscribed client ↔
      s.Subscribed client := by
  unfold notifyOne
  split
  · rfl
  · split
    · exact subscribed_push _
    · rfl

theorem subscribed_notifyAll :
    (s.notifyAll clientId notif clients).Subscribed client ↔
      s.Subscribed client := by
  induction clients using Finset.induction_on with
  | empty => rfl
  | insert other clients fresh ih =>
      rw [notifyAll_insert fresh, subscribed_notifyOne, ih]

/-- The loop appends the notification to queues of the other clients in the
set, and appends nothing else. -/
theorem pending_notifyAll (clientId : ClientId) (notif : Notification)
    (clients : Finset ClientId) (subscribed : s.Subscribed client) :
    ∃ copies,
      (s.notifyAll clientId notif clients).pending client =
        s.pending client ++ List.replicate copies notif ∧
      (client ∈ clients → client ≠ clientId → 0 < copies) := by
  induction clients using Finset.induction_on with
  | empty => exact ⟨0, by simp, by simp⟩
  | insert other clients fresh ih =>
      obtain ⟨copies, eq, positive⟩ := ih
      rw [notifyAll_insert fresh]
      have still : (s.notifyAll clientId notif clients).Subscribed client :=
        subscribed_notifyAll.mpr subscribed
      obtain ⟨r, queue, subscriber, present⟩ := subscribed
      unfold notifyOne
      split
      · next isOrigin =>
          refine ⟨copies, eq, fun member different => ?_⟩
          rcases Finset.mem_insert.mp member with rfl | member
          · exact (different isOrigin).elim
          · exact positive member different
      · split
        · next q target =>
            rw [pending_push still, eq, notifyAll_subscribers]
            rw [notifyAll_subscribers] at target
            by_cases same : s.subscribers client = some q
            · refine ⟨copies + 1, ?_, fun _ _ => Nat.succ_pos _⟩
              simp [same, List.replicate_succ']
            · refine ⟨copies, by simp [same], fun member different => ?_⟩
              rcases Finset.mem_insert.mp member with rfl | member
              · exact (same target).elim
              · exact positive member different
        · next target =>
            refine ⟨copies, eq, fun member different => ?_⟩
            rcases Finset.mem_insert.mp member with rfl | member
            · simp [subscriber] at target
            · exact positive member different

end Server

end DistributedFilesystem
