import DistributedFilesystem.ServerHandlers

/-!
# What the handlers announce

`close` and `unlink` change one file and push a notification for it to every
other client that is registered for it.  `Announces` collects what the clients
see of that: the notifications that their queues gain.
-/

namespace DistributedFilesystem

namespace Server

/-- The queues gain notifications for `path` only; every subscribed client that
is registered for the path, except the originator, gets one. -/
structure Announces (path : Path) (originator : ClientId) (s s' : Server) :
    Prop where
  subscribers : s'.subscribers = s.subscribers
  subscribed : ∀ client, s'.Subscribed client ↔ s.Subscribed client
  pending : ∀ client, s.Subscribed client → ∃ notes,
    s'.pending client = s.pending client ++ notes ∧
      (∀ note ∈ notes, note.directory = path) ∧
      (s.fileMap.Registered path client → client ≠ originator → notes ≠ [])

variable {s s' : Server} {path other : Path} {client : ClientId}
variable {notif : Notification}

theorem pending_congr (subscribers : s'.subscribers = s.subscribers)
    (queues : s'.queues = s.queues) (client : ClientId) :
    s'.pending client = s.pending client := by
  simp [pending, subscribers, queues]

theorem subscribed_congr (subscribers : s'.subscribers = s.subscribers)
    (queues : s'.queues = s.queues) (client : ClientId) :
    s'.Subscribed client ↔ s.Subscribed client := by
  simp [Subscribed, subscribers, queues]

/-- Later changes that spare the subscriptions and the queues do not matter. -/
theorem Announces.congr_right {s'' : Server}
    (announces : Announces path client s s')
    (subscribers : s''.subscribers = s'.subscribers)
    (queues : s''.queues = s'.queues) : Announces path client s s'' where
  subscribers := subscribers.trans announces.subscribers
  subscribed client :=
    (subscribed_congr subscribers queues client).trans
      (announces.subscribed client)
  pending client subscribed := by
    rw [pending_congr subscribers queues]
    exact announces.pending client subscribed

/-- Neither do earlier changes that spare also the file map. -/
theorem Announces.congr_left (s₀ : Server)
    (announces : Announces path client s s')
    (subscribers : s.subscribers = s₀.subscribers)
    (queues : s.queues = s₀.queues) (fileMap : s.fileMap = s₀.fileMap) :
    Announces path client s₀ s' where
  subscribers := announces.subscribers.trans subscribers
  subscribed client :=
    (announces.subscribed client).trans
      (subscribed_congr subscribers queues client)
  pending client subscribed := by
    rw [← pending_congr subscribers queues, ← fileMap]
    exact announces.pending client
      ((subscribed_congr subscribers queues client).mpr subscribed)

theorem announces_of_unregistered (entry : s.fileMap path = none)
    (subscribers : s'.subscribers = s.subscribers)
    (queues : s'.queues = s.queues) : Announces path client s s' where
  subscribers := subscribers
  subscribed := subscribed_congr subscribers queues
  pending client _ := by
    refine ⟨[], by simp [pending_congr subscribers queues], by simp, ?_⟩
    rintro ⟨clients, isEntry, -⟩
    simp [entry] at isEntry

theorem announces_notifyAll {clients : Finset ClientId}
    (entry : s.fileMap path = some clients) (about : notif.directory = path) :
    Announces path client s (s.notifyAll client notif clients) where
  subscribers := notifyAll_subscribers
  subscribed _ := subscribed_notifyAll
  pending receiver subscribed := by
    obtain ⟨copies, eq, positive⟩ :=
      pending_notifyAll client notif clients subscribed
    refine ⟨_, eq, ?_, ?_⟩
    · intro note member
      rw [List.eq_of_mem_replicate member, about]
    · rintro ⟨clients', isEntry, member⟩ different empty
      obtain rfl : clients = clients' := Option.some.inj (entry.symm.trans isEntry)
      have := positive member different
      simp only [List.replicate_eq_nil_iff] at empty
      omega

theorem announces_finishClose (s : Server) (path : Path) (client : ClientId)
    (timestamp : Int) :
    Announces path client s (s.finishClose path client timestamp) := by
  unfold finishClose fileChangeCallbackClose
  dsimp only
  split
  · next clients entry =>
      exact (announces_notifyAll entry rfl).congr_right rfl rfl
  · next entry => exact announces_of_unregistered entry rfl rfl

theorem announces_fileChangeCallbackUnlink (s : Server) (client : ClientId)
    (notif : Notification) (about : notif.directory = path) :
    Announces path client s (s.fileChangeCallbackUnlink path client notif) := by
  unfold fileChangeCallbackUnlink
  split
  · next clients entry =>
      exact (announces_notifyAll entry about).congr_right rfl rfl
  · next entry => exact announces_of_unregistered entry rfl rfl

/-- The callback of `close` keeps every registration. -/
theorem registered_finishClose (path : Path) (originator : ClientId)
    (timestamp : Int) (registered : s.fileMap.Registered other client) :
    (s.finishClose path originator timestamp).fileMap.Registered other
      client := by
  unfold finishClose fileChangeCallbackClose
  dsimp only
  split
  · rwa [notifyAll_fileMap]
  · exact ClientMap.registered_insertClient.mpr (.inl registered)

/-- The callback of `unlink` erases one entry. -/
theorem fileMap_fileChangeCallbackUnlink (originator : ClientId) :
    (s.fileChangeCallbackUnlink path originator notif).fileMap =
      Function.update s.fileMap path none := by
  unfold fileChangeCallbackUnlink
  split
  · simp
  · next entry =>
      rw [← entry, Function.update_eq_self]

theorem disk_fileChangeCallbackUnlink (originator : ClientId) :
    (s.fileChangeCallbackUnlink path originator notif).disk = s.disk := by
  unfold fileChangeCallbackUnlink
  split
  · simp
  · rfl

/-- The effect of `close` on a stream that carries `contents`. -/
structure Stores (path : Path) (contents : Bytes) (originator : ClientId)
    (s s' : Server) : Prop where
  announces : Announces path originator s s'
  read : s'.disk.read path = some contents
  read_ne : ∀ other, other ≠ path → s'.disk.read other = s.disk.read other
  registered : ∀ other client, s.fileMap.Registered other client →
    s'.fileMap.Registered other client

theorem stores_of_closeHandler {stream : List FileRequest}
    (nonempty : stream ≠ [])
    (sent : ∀ request ∈ stream, request.path = path ∧ request.clientId = client) :
    ∃ s' response, s.closeHandler stream .success = (s', response, Status.OK) ∧
      Stores path (stream.map FileRequest.content).flatten client s s' := by
  cases stream with
  | nil => exact (nonempty rfl).elim
  | cons first later =>
      have isPath : first.path = path := (sent first List.mem_cons_self).1
      have isClient :
          ((first :: later).getLast (by simp)).clientId = client :=
        (sent _ (List.getLast_mem _)).2
      simp only [closeHandler, isPath, isClient]
      refine ⟨_, _, rfl, ?_, ?_, ?_, ?_⟩
      · exact (announces_finishClose ..).congr_left s rfl rfl rfl
      · rw [disk_finishClose, read_receiveFile]
      · intro other apart
        rw [disk_finishClose, read_receiveFile_ne _ apart]
      · intro other client registered
        exact registered_finishClose path _ _ registered

/-- The effect of `unlink` on a file. -/
structure Removes (path : Path) (originator : ClientId) (s s' : Server) :
    Prop where
  announces : Announces path originator s s'
  read : s'.disk.read path = none
  read_ne : ∀ other, other ≠ path → s'.disk.read other = s.disk.read other
  fileMap_ne : ∀ other, other ≠ path → s'.fileMap other = s.fileMap other

theorem removes_of_unlinkHandler (client : ClientId) (present : (s.disk.node path).isSome) :
    ∃ s', s.unlinkHandler path client .success = (s', Status.OK) ∧
      Removes path client s s' := by
  obtain ⟨i, refers⟩ := Option.isSome_iff_exists.mp present
  simp only [unlinkHandler, refers]
  refine ⟨_, rfl, ?_, ?_, ?_, ?_⟩
  · have callback := announces_fileChangeCallbackUnlink
      { s with disk := s.disk.remove path } client (deleteNotification path) rfl
    exact callback.congr_left s rfl rfl rfl
  · rw [disk_fileChangeCallbackUnlink, FileStore.read_remove]
  · intro other apart
    rw [disk_fileChangeCallbackUnlink, FileStore.read_remove_ne apart]
  · intro other apart
    rw [fileMap_fileChangeCallbackUnlink, Function.update_of_ne apart]

/-- The queue of a client is its own. -/
def OwnQueues (s : Server) : Prop :=
  ∀ client other q, s.subscribers client = some q →
    s.subscribers other = some q → client = other

/-- `queue->pop(note)` for the queue of a client, when there is something to
pop. -/
def popNotification (s : Server) (client : ClientId) :
    Option (Notification × Server) :=
  match s.subscribers client with
  | none => none
  | some q =>
      match s.queues q with
      | some ⟨note :: notes, shutdown⟩ =>
          some (note, { s with
            queues := Function.update s.queues q (some ⟨notes, shutdown⟩) })
      | _ => none

/-- Popping takes the oldest notification of one client. -/
theorem popNotification_eq_some {note : Notification}
    (pops : s.popNotification client = some (note, s')) :
    s'.disk = s.disk ∧ s'.fileMap = s.fileMap ∧
      s'.subscribers = s.subscribers ∧
      (∀ other, s'.Subscribed other ↔ s.Subscribed other) ∧
      s.pending client = note :: s'.pending client := by
  unfold popNotification at pops
  split at pops
  · simp at pops
  next q subscriber =>
  split at pops
  · next note' notes shutdown queue =>
      obtain ⟨rfl, rfl⟩ := by simpa using pops
      refine ⟨rfl, rfl, rfl, ?_, by simp [pending, subscriber, queue]⟩
      intro other
      constructor
      · rintro ⟨r, queue', isSubscriber, present⟩
        by_cases same : r = q
        · exact ⟨r, _, isSubscriber, same ▸ queue⟩
        · exact ⟨r, queue', isSubscriber, by simpa [same] using present⟩
      · rintro ⟨r, queue', isSubscriber, present⟩
        by_cases same : r = q
        · exact ⟨r, ⟨notes, shutdown⟩, isSubscriber, by simp [same]⟩
        · exact ⟨r, queue', isSubscriber, by simpa [same] using present⟩
  · simp at pops

theorem pending_popNotification_ne {note : Notification} {other : ClientId}
    (pops : s.popNotification client = some (note, s')) (own : s.OwnQueues)
    (apart : other ≠ client) : s'.pending other = s.pending other := by
  unfold popNotification at pops
  split at pops
  · simp at pops
  next q subscriber =>
  split at pops
  · obtain ⟨-, rfl⟩ := by simpa using pops
    unfold pending
    dsimp only
    split
    · next r isSubscriber =>
        have different : r ≠ q := by
          rintro rfl
          exact apart (own other client r isSubscriber subscriber)
        simp [different]
    · rfl
  · simp at pops

end Server

end DistributedFilesystem
