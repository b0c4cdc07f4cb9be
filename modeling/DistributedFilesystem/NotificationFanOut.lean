import DistributedFilesystem.ServerAnnouncements
import Mathlib.Data.Finset.Sort
import Mathlib.Data.String.Basic

/-!
# Whom the callbacks notify

The callbacks of `close`, `rename` and `unlink` copy the set of registered
clients and iterate over the copy, in an order that the hash function decides.
Every client in the set but the originator that has a queue gets the
notification once, whatever the order, and nothing else in the queues changes.
-/

namespace DistributedFilesystem

/-- The order in which a set of clients is iterated. -/
structure IterationOrder where
  visit : Finset ClientId → List ClientId
  visits : ∀ clients, (visit clients : Multiset ClientId) = clients.val

namespace Server

/-- The queue that `subscribers` has for a client. -/
def queueOf (s : Server) (client : ClientId) : Option NotificationQueue :=
  (s.subscribers client).bind s.queues

/-- What `subscribers` refers to: `subscribe` makes a new queue for each call. -/
structure WellSubscribed (s : Server) : Prop where
  ownQueues : s.OwnQueues
  allocated : ∀ {client q}, s.subscribers client = some q → (s.queues q).isSome
  used : ∀ {client q}, s.subscribers client = some q → q < s.unusedQueue

/-- The loop of the callbacks over the clients in the order of iteration. -/
def notifyInOrder (s : Server) (clientId : ClientId) (notif : Notification)
    (visited : List ClientId) : Server :=
  visited.foldl (fun s client => notifyOne clientId notif client s) s

variable (order : IterationOrder)

/-- `file_change_callback_close`, with the order of its loop. -/
def fileChangeCallbackCloseIn (s : Server) (path : Path) (clientId : ClientId)
    (notif : Notification) : Server :=
  match s.fileMap path with
  | some clientSet => s.notifyInOrder clientId notif (order.visit clientSet)
  | none => { s with fileMap := s.fileMap.insertClient path clientId }

/-- `file_change_callback_rename`, with the order of its loop. -/
def fileChangeCallbackRenameIn (s : Server) (oldPath newPath : Path)
    (clientId : ClientId) (notif : Notification) : Option Server :=
  match s.fileMap oldPath with
  | some clientSet =>
      let s := s.notifyInOrder clientId notif (order.visit clientSet)
      let moved := Function.update s.fileMap newPath (some clientSet)
      some { s with fileMap := Function.update moved oldPath none }
  | none => none

/-- `file_change_callback_unlink`, with the order of its loop. -/
def fileChangeCallbackUnlinkIn (s : Server) (path : Path) (clientId : ClientId)
    (notif : Notification) : Server :=
  match s.fileMap path with
  | some clientSet =>
      let s := s.notifyInOrder clientId notif (order.visit clientSet)
      { s with fileMap := Function.update s.fileMap path none }
  | none => s

end Server

/-- A server as `subscribe` leaves it. -/
structure SubscribedServer extends Server where
  wellSubscribed : toServer.WellSubscribed

namespace Server

variable {order : IterationOrder} {s s' : Server} {clientId client : ClientId}
variable {notif : Notification} {clients : Finset ClientId} {q : QueueId}

/-- The order of the loop does not matter. -/
theorem notifyInOrder_visit (order : IterationOrder) (s : Server)
    (clientId : ClientId) (notif : Notification) (clients : Finset ClientId) :
    s.notifyInOrder clientId notif (order.visit clients) =
      s.notifyAll clientId notif clients := by
  unfold notifyInOrder notifyAll
  rw [← order.visits clients, ← Multiset.coe_reverse, Multiset.coe_foldr,
    List.foldr_reverse]

theorem fileChangeCallbackCloseIn_eq (path : Path) :
    s.fileChangeCallbackCloseIn order path clientId notif =
      s.fileChangeCallbackClose path clientId notif := by
  cases entry : s.fileMap path <;>
    simp only [fileChangeCallbackCloseIn, fileChangeCallbackClose, entry,
      notifyInOrder_visit]

theorem fileChangeCallbackRenameIn_eq (oldPath newPath : Path) :
    s.fileChangeCallbackRenameIn order oldPath newPath clientId notif =
      s.fileChangeCallbackRename oldPath newPath clientId notif := by
  cases entry : s.fileMap oldPath <;>
    simp only [fileChangeCallbackRenameIn, fileChangeCallbackRename, entry,
      notifyInOrder_visit]

theorem fileChangeCallbackUnlinkIn_eq (path : Path) :
    s.fileChangeCallbackUnlinkIn order path clientId notif =
      s.fileChangeCallbackUnlink path clientId notif := by
  cases entry : s.fileMap path <;>
    simp only [fileChangeCallbackUnlinkIn, fileChangeCallbackUnlink, entry,
      notifyInOrder_visit]

/-- A queue of no client that is notified stays as it is. -/
theorem queues_notifyAll_of_untold
    (untold : ∀ client ∈ clients, client ≠ clientId →
      s.subscribers client ≠ some q) :
    (s.notifyAll clientId notif clients).queues q = s.queues q := by
  induction clients using Finset.induction_on with
  | empty => rfl
  | insert client clients fresh ih =>
      have same := ih fun other member =>
        untold other (Finset.mem_insert_of_mem member)
      rw [notifyAll_insert fresh]
      unfold notifyOne
      split
      · exact same
      next different =>
      split
      · next r target =>
          rw [notifyAll_subscribers] at target
          have apart : q ≠ r := by
            rintro rfl
            exact untold client (Finset.mem_insert_self ..) different target
          simp only [push, Function.update_of_ne apart, same]
      · exact same

/-- The queue of a client that is notified gets the notification once. -/
theorem queues_notifyAll_of_told (notif : Notification)
    (wellSubscribed : s.WellSubscribed) (member : client ∈ clients)
    (different : client ≠ clientId)
    (subscriber : s.subscribers client = some q) :
    (s.notifyAll clientId notif clients).queues q =
      (s.queues q).map fun queue => queue.push notif := by
  have untold : ∀ other ∈ clients.erase client, other ≠ clientId →
      s.subscribers other ≠ some q := by
    intro other isOther _ shared
    exact Finset.ne_of_mem_erase isOther (wellSubscribed.ownQueues _ _ _ shared subscriber)
  have fresh : client ∉ clients.erase client := by simp
  rw [← Finset.insert_erase member, notifyAll_insert fresh]
  unfold notifyOne
  rw [if_neg different, notifyAll_subscribers, subscriber]
  simp only [push, Function.update_self, queues_notifyAll_of_untold untold]

/-- The second server is the first one after a notification to a set of clients
from one of them, but for `file_map`. -/
structure FansOut (s s' : Server) (clientId : ClientId) (notif : Notification)
    (clients : Finset ClientId) : Prop where
  told : ∀ client, client ≠ clientId → client ∈ clients →
    s.subscribers client ≠ none → ∃ queue,
      s.queueOf client = some queue ∧
        s'.queueOf client = some { queue with queue := queue.queue ++ [notif] }
  untold : ∀ client, client = clientId ∨ client ∉ clients ∨
    s.subscribers client = none → s'.queueOf client = s.queueOf client
  rest : ∃ queues, s' = { s with fileMap := s'.fileMap, queues := queues } ∧
    ∀ q, (∀ client, s.subscribers client ≠ some q) → queues q = s.queues q

theorem fansOut_notifyAll (wellSubscribed : s.WellSubscribed) (clientId : ClientId)
    (notif : Notification) (clients : Finset ClientId) (fileMap : ClientMap) :
    s.FansOut { s.notifyAll clientId notif clients with fileMap := fileMap }
      clientId notif clients where
  told := by
    intro client different member subscribed
    obtain ⟨q, subscriber⟩ := Option.ne_none_iff_exists'.mp subscribed
    obtain ⟨queue, present⟩ :=
      Option.isSome_iff_exists.mp (wellSubscribed.allocated subscriber)
    refine ⟨queue, by simp [queueOf, subscriber, present], ?_⟩
    have told := queues_notifyAll_of_told notif wellSubscribed member different
      subscriber
    simp [queueOf, subscriber, told, present, NotificationQueue.push]
  untold := by
    intro client notTold
    unfold queueOf
    dsimp only
    rw [notifyAll_subscribers]
    cases subscriber : s.subscribers client with
    | none => rfl
    | some q =>
        refine queues_notifyAll_of_untold fun other member different shared => ?_
        obtain rfl := wellSubscribed.ownQueues _ _ _ shared subscriber
        rcases notTold with same | notMember | unsubscribed
        · exact different same
        · exact notMember member
        · simp [unsubscribed] at subscriber
  rest := by
    refine ⟨(s.notifyAll clientId notif clients).queues, ?_, ?_⟩
    · obtain ⟨queues, eq⟩ := notifyAll_eq s clientId notif clients
      rw [eq]
    · intro q unowned
      exact queues_notifyAll_of_untold fun client _ _ => unowned client

section Callbacks

variable (order : IterationOrder) (s : Server) (path : Path)
variable (clientId : ClientId) (notif : Notification)

/-- What the callbacks do for a path for which these clients are registered. -/
structure NotifiesRegistered (clients : Finset ClientId) : Prop where
  close : s.FansOut (s.fileChangeCallbackCloseIn order path clientId notif)
      clientId notif clients ∧
    (s.fileChangeCallbackCloseIn order path clientId notif).fileMap = s.fileMap
  unlink : s.FansOut (s.fileChangeCallbackUnlinkIn order path clientId notif)
      clientId notif clients ∧
    (s.fileChangeCallbackUnlinkIn order path clientId notif).fileMap =
      Function.update s.fileMap path none
  rename : ∀ newPath, path ≠ newPath → ∃ s',
    s.fileChangeCallbackRenameIn order path newPath clientId notif = some s' ∧
      s.FansOut s' clientId notif clients ∧ s'.fileMap path = none ∧
        s'.fileMap newPath = some clients ∧
          ∀ other, other ≠ path → other ≠ newPath →
            s'.fileMap other = s.fileMap other

/-- What the callbacks do for a path for which nobody is registered; that of
`rename` does not return. -/
structure SparesUnregistered : Prop where
  close : s.fileChangeCallbackCloseIn order path clientId notif =
    { s with fileMap := Function.update s.fileMap path (some {clientId}) }
  unlink : s.fileChangeCallbackUnlinkIn order path clientId notif = s
  rename : ∀ newPath,
    s.fileChangeCallbackRenameIn order path newPath clientId notif = none

variable {order path clientId notif}

theorem notifiesRegistered_of_entry (wellSubscribed : s.WellSubscribed)
    (entry : s.fileMap path = some clients) :
    s.NotifiesRegistered order path clientId notif clients where
  close := by
    rw [fileChangeCallbackCloseIn_eq]
    simp only [fileChangeCallbackClose, entry]
    have fansOut := fansOut_notifyAll wellSubscribed clientId notif clients
      (s.notifyAll clientId notif clients).fileMap
    exact ⟨fansOut, notifyAll_fileMap⟩
  unlink := by
    rw [fileChangeCallbackUnlinkIn_eq]
    simp only [fileChangeCallbackUnlink, entry]
    refine ⟨fansOut_notifyAll wellSubscribed clientId notif clients _, ?_⟩
    rw [notifyAll_fileMap]
  rename := by
    intro newPath different
    rw [fileChangeCallbackRenameIn_eq]
    simp only [fileChangeCallbackRename, entry]
    refine ⟨_, rfl, fansOut_notifyAll wellSubscribed clientId notif clients _,
      ?_, ?_, ?_⟩
    · exact Function.update_self ..
    · simp [Ne.symm different]
    · intro other notOld notNew
      simp [notOld, notNew]

theorem sparesUnregistered_of_no_entry (entry : s.fileMap path = none) :
    s.SparesUnregistered order path clientId notif where
  close := by
    rw [fileChangeCallbackCloseIn_eq]
    simp [fileChangeCallbackClose, entry, ClientMap.insertClient]
  unlink := by
    rw [fileChangeCallbackUnlinkIn_eq]
    simp [fileChangeCallbackUnlink, entry]
  rename := by
    intro newPath
    rw [fileChangeCallbackRenameIn_eq]
    simp [fileChangeCallbackRename, entry]

end Callbacks

end Server

/-- In every order of iteration, the callbacks notify exactly the registered and
subscribed clients other than the originator, each of them once, and change
`file_map` for the path only. -/
theorem callbacks_notify_exactly (s : SubscribedServer) (order : IterationOrder)
    (path : Path) (clientId : ClientId) (notif : Notification) :
    (∀ clients, s.fileMap path = some clients →
        s.NotifiesRegistered order path clientId notif clients) ∧
      (s.fileMap path = none →
        s.SparesUnregistered order path clientId notif) := by
  constructor
  · intro clients entry
    exact Server.notifiesRegistered_of_entry _ s.wellSubscribed entry
  · intro entry
    exact Server.sparesUnregistered_of_no_entry _ entry

private def sortedOrder : IterationOrder where
  visit clients := clients.sort (· ≤ ·)
  visits clients := clients.sort_eq _

/-- Three clients have copies of `/srv/a`, and one of them is not subscribed. -/
private def copiedServer : Server :=
  { Server.launch "/srv" .empty 0 with
    fileMap path :=
      if path = "/srv/a" then some {"reader", "writer", "late"} else none
    subscribers client :=
      if client = "reader" then some 0
      else if client = "writer" then some 1 else none
    queues q := if q < 2 then some ⟨[], false⟩ else none
    unusedQueue := 2 }

private theorem wellSubscribed_copiedServer : copiedServer.WellSubscribed := by
  have subscribers : ∀ {client q}, copiedServer.subscribers client = some q →
      client = "reader" ∧ q = 0 ∨ client = "writer" ∧ q = 1 := by
    intro client q subscriber
    simp only [copiedServer] at subscriber
    split_ifs at subscriber with isReader isWriter
    · exact .inl ⟨isReader, (Option.some.inj subscriber).symm⟩
    · exact .inr ⟨isWriter, (Option.some.inj subscriber).symm⟩
  constructor
  case ownQueues =>
    intro first second q isFirst isSecond
    rcases subscribers isFirst with ⟨rfl, rfl⟩ | ⟨rfl, rfl⟩
    · rcases subscribers isSecond with ⟨rfl, -⟩ | ⟨-, same⟩
      · rfl
      · exact absurd same (by decide)
    · rcases subscribers isSecond with ⟨-, same⟩ | ⟨rfl, -⟩
      · exact absurd same (by decide)
      · rfl
  case allocated =>
    intro client q subscriber
    rcases subscribers subscriber with ⟨-, rfl⟩ | ⟨-, rfl⟩
    · rfl
    · rfl
  case used =>
    intro client q subscriber
    rcases subscribers subscriber with ⟨-, rfl⟩ | ⟨-, rfl⟩
    · exact Nat.zero_lt_two
    · exact Nat.one_lt_two

private def copiedA : SubscribedServer where
  toServer := copiedServer
  wellSubscribed := wellSubscribed_copiedServer

/-- The writer uploads the file, and the reader alone is notified. -/
theorem callbacks_notify_reader :
    (copiedA.fileChangeCallbackCloseIn sortedOrder "/srv/a" "writer"
        (Server.updateNotification "/srv/a" 1)).queueOf "reader" =
      some ⟨[Server.updateNotification "/srv/a" 1], false⟩ ∧
    (copiedA.fileChangeCallbackCloseIn sortedOrder "/srv/a" "writer"
        (Server.updateNotification "/srv/a" 1)).queueOf "writer" =
      some ⟨[], false⟩ := by
  have notifies := (callbacks_notify_exactly copiedA sortedOrder "/srv/a"
    "writer" (Server.updateNotification "/srv/a" 1)).1 _ rfl
  obtain ⟨fansOut, -⟩ := notifies.close
  constructor
  · obtain ⟨queue, before, after⟩ :=
      fansOut.told "reader" (by decide) (by decide) (by decide)
    obtain rfl : (⟨[], false⟩ : NotificationQueue) = queue :=
      Option.some.inj before
    exact after
  · exact fansOut.untold "writer" (.inl rfl)

end DistributedFilesystem
