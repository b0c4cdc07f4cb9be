import DistributedFilesystem.DirectCalls

/-!
# Uploads that are cut off

`close` cannot tell an upload that was cut off from one that has ended: it has
truncated the file when the first message arrives, keeps what it received, and
announces it.  So a part of an upload is harmless only where the file cannot be
opened, or where what was received is what the file already held and nobody is
told.
-/

namespace DistributedFilesystem

/-- What the server has received of an upload that was cut off: at least one
message, and not all of them. -/
structure AbortedUpload (client : Client) (path : Path) where
  contents : Bytes
  received : List FileRequest
  started : received ≠ []
  isPrefix : received <+: client.uploadRequests path contents
  unfinished : received ≠ client.uploadRequests path contents

/-- The first message of an upload that takes more than one. -/
def AbortedUpload.firstMessage (client : Client) (path : Path)
    (contents : Bytes) (long : chunkSize < contents.length) :
    AbortedUpload client path where
  contents := contents
  received := [⟨path, client.clientId, contents.take chunkSize⟩]
  started := by simp
  isPrefix := by
    have notEmpty : contents.length ≠ 0 := by omega
    simp [Client.uploadRequests, Client.chunkLoop, notEmpty]
  unfinished := by
    intro all
    have carried : ((client.uploadRequests path contents).map
        FileRequest.content).flatten = contents :=
      Client.contents_uploadRequests contents
    rw [← all] at carried
    have short := congrArg List.length carried
    simp only [List.map_cons, List.map_nil, List.flatten_singleton,
      List.length_take] at short
    omega

theorem AbortedUpload.length_firstMessage {client : Client} {path : Path}
    {contents : Bytes} (long : chunkSize < contents.length) :
    ((firstMessage client path contents long).received.map
      FileRequest.content).flatten.length = chunkSize := by
  simp only [firstMessage, List.map_cons, List.map_nil, List.flatten_singleton,
    List.length_take]
  omega

namespace Server

variable {s s' : Server} {clientId client : ClientId} {notif : Notification}
variable {clients : Finset ClientId} {path : Path}

/-- Pushing to the queue of a client that has none changes nothing. -/
theorem notifyOne_queues_of_unsubscribed
    (unsubscribed : client ≠ clientId → ¬ s.Subscribed client) :
    (notifyOne clientId notif client s).queues = s.queues := by
  unfold notifyOne
  split
  · rfl
  next isOther =>
  split
  · next q subscriber =>
      have missing : s.queues q = none := by
        cases entry : s.queues q with
        | none => rfl
        | some queue =>
            exact absurd ⟨q, queue, subscriber, entry⟩ (unsubscribed isOther)
      simp [push, missing]
  · rfl

/-- The loop of the callbacks pushes nothing if and only if no client in the
set but the originator is subscribed. -/
theorem notifyAll_queues_eq_iff :
    (s.notifyAll clientId notif clients).queues = s.queues ↔
      ∀ client ∈ clients, client ≠ clientId → ¬ s.Subscribed client := by
  constructor
  · intro same client member different subscribed
    obtain ⟨copies, gains, positive⟩ :=
      pending_notifyAll clientId notif clients subscribed
    rw [pending_congr notifyAll_subscribers same] at gains
    have nothing : List.replicate copies notif = [] := by
      simpa using gains
    have some := positive member different
    rw [List.replicate_eq_nil_iff] at nothing
    omega
  · intro unsubscribed
    induction clients using Finset.induction_on with
    | empty => rfl
    | insert client clients fresh ih =>
        rw [notifyAll_insert fresh, notifyOne_queues_of_unsubscribed]
        · exact ih fun other member =>
            unsubscribed other (Finset.mem_insert_of_mem member)
        · intro different
          rw [subscribed_notifyAll]
          exact unsubscribed client (Finset.mem_insert_self ..) different

/-- `close` pushes nothing once the file is stored if and only if no other
client is registered for it and subscribed. -/
theorem finishClose_queues_eq_iff (timestamp : Int) :
    (s.finishClose path clientId timestamp).queues = s.queues ↔
      ∀ client, s.fileMap.Registered path client → client ≠ clientId →
        ¬ s.Subscribed client := by
  unfold finishClose fileChangeCallbackClose
  dsimp only
  cases entry : s.fileMap path with
  | none => simp [ClientMap.Registered, entry]
  | some clientSet =>
      rw [notifyAll_queues_eq_iff]
      simp [ClientMap.Registered, entry]

end Server

/-- The handler of `close` leaves the file as it was, and pushes no
notification. -/
structure ChangesNothing (path : Path) (s s' : Server) : Prop where
  contents : s'.disk.read path = s.disk.read path
  queues : s'.queues = s.queues

/-- The server received only what the file held, and there is nobody to tell. -/
structure Unnoticed (path : Path) (clientId : ClientId)
    (received : List FileRequest) (s : Server) : Prop where
  sameContents : s.disk.read path =
    some (received.map FileRequest.content).flatten
  nobody : ∀ client, s.fileMap.Registered path client → client ≠ clientId →
    ¬ s.Subscribed client

/-- What `close` does with messages of one client for one file. -/
theorem closeHandler_of_messages {path : Path} {clientId : ClientId}
    {received : List FileRequest} (s : Server) (started : received ≠ [])
    (sent : ∀ request ∈ received,
      request.path = path ∧ request.clientId = clientId) :
    (s.closeHandler received .success).1 =
      (s.receiveFile path received).finishClose path clientId
        (getFileTimestamp (s.receiveFile path received).disk path) := by
  cases received with
  | nil => exact absurd rfl started
  | cons first later =>
      have isPath : first.path = path := (sent first List.mem_cons_self).1
      have isClient : ((first :: later).getLast (by simp)).clientId =
          clientId := (sent _ (List.getLast_mem _)).2
      simp only [Server.closeHandler, isPath, isClient]

/-- A part of an upload changes nothing if and only if the server cannot open
the file, or the file already held just that part and no other client is
registered for it and subscribed. -/
theorem abortedUpload_changesNothing_iff {client : Client} {path : Path}
    (upload : AbortedUpload client path) (s : Server) (outcome : DiskOutcome) :
    ChangesNothing path s (s.closeHandler upload.received outcome).1 ↔
      outcome ≠ .success ∨
        Unnoticed path client.clientId upload.received s := by
  have sent : ∀ request ∈ upload.received,
      request.path = path ∧ request.clientId = client.clientId := by
    intro request member
    exact Client.of_mem_uploadRequests (upload.isPrefix.mem member)
  by_cases opens : outcome = .success
  · subst opens
    rw [closeHandler_of_messages s upload.started sent]
    simp only [ne_eq, not_true_eq_false, false_or]
    have stored := s.read_receiveFile path upload.received
    have pushes : ∀ timestamp,
        ((s.receiveFile path upload.received).finishClose path client.clientId
          timestamp).queues = s.queues ↔
        ∀ other, s.fileMap.Registered path other → other ≠ client.clientId →
          ¬ s.Subscribed other := Server.finishClose_queues_eq_iff
    constructor
    · intro same
      have contents := same.contents
      rw [Server.disk_finishClose, stored] at contents
      exact ⟨contents.symm, (pushes _).mp same.queues⟩
    · intro unnoticed
      constructor
      case contents =>
        rw [Server.disk_finishClose, stored, unnoticed.sameContents]
      case queues => exact (pushes _).mpr unnoticed.nobody
  · simp only [ne_eq, opens, not_false_eq_true, true_or, iff_true]
    have refused : (s.closeHandler upload.received outcome).1 = s := by
      cases received : upload.received with
      | nil => rfl
      | cons first later => cases outcome <;> simp_all [Server.closeHandler]
    rw [refused]
    exact ⟨rfl, rfl⟩

/-- A server with a file of one byte, for which a reader is registered. -/
private def readByte : Server :=
  { Server.launch "/srv"
      ((FileStore.empty.create "/srv/a" 0).writeAt 0 0 [7] 0) 0 with
    fileMap path := if path = "/srv/a" then some {"reader"} else none
    subscribers client := if client = "reader" then some 0 else none
    queues q := if q = 0 then some ⟨[], false⟩ else none
    unusedQueue := 1 }

/-- The first of two messages arrives, and then the writer is gone: the file
holds that message, and the reader is notified. -/
private def halfUpload : AbortedUpload (.launch "writer") "/srv/a" :=
  .firstMessage _ _ (List.replicate (chunkSize + 1) 0) (by
    rw [List.length_replicate]
    exact Nat.lt_succ_self chunkSize)

theorem halfUpload_changes_file_and_queues :
    (readByte.closeHandler halfUpload.received .success).1.disk.read "/srv/a" ≠
        readByte.disk.read "/srv/a" ∧
      (readByte.closeHandler halfUpload.received .success).1.queues ≠
        readByte.queues := by
  have sent : ∀ request ∈ halfUpload.received,
      request.path = "/srv/a" ∧ request.clientId = "writer" := by
    intro request member
    exact Client.of_mem_uploadRequests (halfUpload.isPrefix.mem member)
  rw [closeHandler_of_messages readByte halfUpload.started sent]
  constructor
  · rw [Server.disk_finishClose, Server.read_receiveFile]
    have before : readByte.disk.read "/srv/a" = some [7] := by decide
    rw [before]
    intro same
    have lengths := congrArg List.length (Option.some.inj same)
    rw [halfUpload, AbortedUpload.length_firstMessage] at lengths
    exact absurd lengths (by decide)
  · intro same
    have nobody := (Server.finishClose_queues_eq_iff _).mp same "reader"
      ⟨{"reader"}, rfl, by simp⟩ (by decide)
    exact nobody ⟨0, ⟨[], false⟩, rfl, rfl⟩

end DistributedFilesystem
