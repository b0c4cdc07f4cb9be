import DistributedFilesystem.ClientOperations
import DistributedFilesystem.ServerAnnouncements

/-!
# Calls that interleave

Any number of clients call their functions at the same time, each of them at
most one for any one file.  A call runs in sections: what it does under its
client's lock, and what the handler of its request does under the server's
locks.  Between two sections of a call there can be sections of other calls,
and notifications leave their queues and are processed.

All requests reach the server and are answered.  A handler reads or writes its
file in one section, although `open` and `close` do so chunk by chunk and without
a lock: where calls for one file can be in these sections at the same time, it is
for the results to rule this out or to allow for mixtures.
-/

namespace DistributedFilesystem

/-- A call of one of the functions that change what a client has cached. -/
inductive FileCall where
  | openFile
  | createFile
  | writeFile (data : Bytes) (position : Int)
  | closeFile
  | deleteFile

/-- Which section of its call for a file a client has reached. -/
inductive CallPhase where
  | idle
  /-- A request to `open` is on its way, with so many attempts left after it. -/
  | opening (left : Nat)
  /-- Its handler has registered the client. -/
  | reading (left : Nat)
  /-- The handler has answered. -/
  | answered (left : Nat) (responses : List FileResponse) (status : Status)
  /-- The downloaded file is in the cache. -/
  | entered
  /-- The file was found in the cache, not open. -/
  | hit
  /-- The new file is in the cache. -/
  | created
  /-- A request to `close` is on its way. -/
  | uploading (requests : List FileRequest)
  /-- Its handler has stored the file. -/
  | received (timestamp : Int)
  /-- The handler has notified the other clients. -/
  | uploaded (timestamp : Int)
  /-- A request to `unlink` is on its way. -/
  | removing
  /-- Its handler has removed the file. -/
  | removed
  /-- The handler has answered. -/
  | deleted (status : Status)
deriving DecidableEq

/-- A server, its clients, the notifications that left a client's queue and
have yet to be processed, and the calls in progress. -/
structure Cluster where
  server : Server
  clients : ClientId → Client
  inFlight : ClientId → List Notification
  calls : ClientId → Path → CallPhase

section Sections

variable (answers : LocalAnswers) (path : Path)

/-- The last section of an opening; without streams it fails. -/
def finishOpen (forget : Client → Client) (client : Client) : Client :=
  match client.openStreams answers path with
  | some streams => client.insertOpened path streams
  | none => forget client

/-- The first section of `close_file`. -/
def beginClose (client : Client) : Client × CallPhase :=
  match client.openedFiles path with
  | none => (client, .idle)
  | some streams =>
      if path ∉ client.fileMutexes then (client, .idle)
      else
        match client.cache path with
        | none => (client.eraseOpened path, .idle)
        | some info =>
            if info.locallyModified then
              match client.beginUpload answers path streams with
              | (client, some requests) => (client, .uploading requests)
              | (client, none) => (client, .idle)
            else (client.eraseOpened path, .idle)

/-- The first section of a call. -/
def FileCall.begin (client : Client) : FileCall → Client × CallPhase
  | .openFile =>
      match client.cache path, client.openedFiles path with
      | none, _ =>
          (client, if answers.directories then .opening (maxTries - 1) else .idle)
      | some _, some _ => (client, .idle)
      | some _, none => (client, .hit)
  | .createFile =>
      match client.beginCreate answers path with
      | some client => (client, .created)
      | none => (client, .idle)
  | .writeFile data position =>
      ((client.writeFile answers path data position).1, .idle)
  | .closeFile => beginClose answers path client
  | .deleteFile => (client.beginDelete path, .removing)

/-- The section of `open_file` after an answer. -/
def storeAnswer (client : Client) (left : Nat) (responses : List FileResponse)
    (status : Status) : Client × CallPhase :=
  match client.storeDownload answers path left responses status with
  | (client, none) => (client, .idle)
  | (client, some status) =>
      if status.isOk then (client, .entered)
      else
        match left with
        | left + 1 => (client, .opening left)
        | 0 => ({ client with disk := client.disk.remove path }, .idle)

/-- The next section of a call, if there is one. -/
def CallPhase.advance (client : Client) (s : Server) :
    CallPhase → Option (Client × Server × CallPhase)
  | .idle => none
  | .opening left =>
      some (client, s.registerOpen path client.clientId, .reading left)
  | .reading left =>
      let (responses, status) := s.sendFile path .success
      some (client, s, .answered left responses status)
  | .answered left responses status =>
      let (client, phase) := storeAnswer answers path client left responses status
      some (client, s, phase)
  | .entered =>
      some (finishOpen answers path (fun client => client.eraseCache path) client,
        s, .idle)
  | .hit => some (finishOpen answers path id client, s, .idle)
  | .created => some ((client.finishCreate answers path).1, s, .idle)
  | .uploading requests =>
      let s := s.receiveFile path requests
      some (client, s, .received (getFileTimestamp s.disk path))
  | .received timestamp =>
      some (client, s.finishClose path client.clientId timestamp,
        .uploaded timestamp)
  | .uploaded timestamp => some (client.finishUpload path timestamp, s, .idle)
  | .removing =>
      match s.disk.node path with
      | none =>
          some (client, s, .deleted ⟨.notFound, "Source file not found"⟩)
      | some _ =>
          some (client, { s with disk := s.disk.remove path }, .removed)
  | .removed =>
      some (client, s.fileChangeCallbackUnlink path client.clientId
        (Server.deleteNotification path), .deleted Status.OK)
  | .deleted status =>
      some (if status.isOk then { client with disk := client.disk.remove path }
        else client, s, .idle)

end Sections

/-- What happens in the cluster: a client calls a function for a file, the call
goes on, the subscribe handler sends the next notification of a client's queue,
the client's subscriber thread processes the next one that was sent, or the
server's clock advances. -/
inductive ClusterEvent where
  | start (client : ClientId) (path : Path) (call : FileCall)
      (answers : LocalAnswers)
  | advance (client : ClientId) (path : Path) (answers : LocalAnswers)
  | send (client : ClientId)
  | deliver (client : ClientId)
  | tick (now : Int)

namespace Cluster

/-- The notifications on their way to a client, oldest first. -/
def undelivered (σ : Cluster) (client : ClientId) : List Notification :=
  σ.inFlight client ++ σ.server.pending client

/-- The cluster after a section of a call. -/
def afterSection (σ : Cluster) (client : ClientId) (path : Path)
    (result : Client × Server × CallPhase) : Cluster :=
  { σ with
    server := result.2.1
    clients := Function.update σ.clients client result.1
    calls := Function.update σ.calls client
      (Function.update (σ.calls client) path result.2.2) }

section AfterSection

variable {σ : Cluster} {client other : ClientId} {path otherPath : Path}
variable {result : Client × Server × CallPhase}

theorem calls_afterSection :
    (σ.afterSection client path result).calls client path = result.2.2 := by
  simp [afterSection]

/-- The other calls stay where they are. -/
theorem calls_afterSection_of_ne
    (apart : ¬ (other = client ∧ otherPath = path)) :
    (σ.afterSection client path result).calls other otherPath =
      σ.calls other otherPath := by
  simp only [afterSection]
  by_cases sameClient : other = client
  · subst sameClient
    have different : otherPath ≠ path := fun same => apart ⟨rfl, same⟩
    rw [Function.update_self, Function.update_of_ne different]
  · rw [Function.update_of_ne sameClient]

end AfterSection

end Cluster

/-- One event. -/
def ClusterEvent.step : ClusterEvent → Cluster → Option Cluster
  | .start client path call answers, σ =>
      match σ.calls client path with
      | .idle =>
          let (after, phase) := call.begin answers path (σ.clients client)
          some (σ.afterSection client path (after, σ.server, phase))
      | _ => none
  | .advance client path answers, σ =>
      ((σ.calls client path).advance answers path (σ.clients client)
        σ.server).map (σ.afterSection client path)
  | .send client, σ =>
      (σ.server.popNotification client).map fun (note, server) =>
        { σ with
          server := server
          inFlight := Function.update σ.inFlight client
            (σ.inFlight client ++ [note]) }
  | .deliver client, σ =>
      match σ.inFlight client with
      | [] => none
      | note :: notes =>
          some { σ with
            clients := Function.update σ.clients client
              ((σ.clients client).processNotification note)
            inFlight := Function.update σ.inFlight client notes }
  | .tick now, σ => some { σ with server := { σ.server with clock := now } }

end DistributedFilesystem
