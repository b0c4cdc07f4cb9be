import DistributedFilesystem.CacheWatching
import DistributedFilesystem.TransitionRuns

/-!
# The dashboard

`GetStatus` reports `file_map_open` as the files that each client has open.  The
handler of `open` inserts a client before it looks for the file, only the handler
of `close` erases it, and only uploads call that.  This file adds disconnections
to the calls that interleave, and says when the report is right and which events
keep it so.
-/

namespace DistributedFilesystem

/-- How far the server is with the disconnection of a client. -/
inductive Connection where
  | connected
  /-- The `subscribe` handler of the client has left its loop. -/
  | leaving
  /-- `cleanup_client` has erased the client from `clients_db`. -/
  | unlisted
  /-- It has erased the client from `file_map`. -/
  | unregistered
  /-- It has returned. -/
  | gone
deriving DecidableEq

/-- A cluster and the connections of its clients. -/
structure Dashboard extends Cluster where
  connection : ClientId → Connection

/-- The response of `GetStatus`. -/
structure StatusResponse where
  connectedClients : Finset ClientId
  fileToClients : ClientMap

namespace Server

/-- `GetStatus` -/
def getStatusHandler (s : Server) : StatusResponse where
  connectedClients := s.clientsDb
  fileToClients := s.fileMapOpen

/-- The section of `cleanup_client` under `client_db_mutex`. -/
def eraseFromDb (s : Server) (client : ClientId) : Server :=
  { s with clientsDb := s.clientsDb.erase client }

/-- The section of `cleanup_client` under `file_map_mutex`. -/
def eraseFromFileMap (s : Server) (client : ClientId) : Server :=
  { s with fileMap := s.fileMap.sweepClient client }

/-- The section of `cleanup_client` under `subscriber_mutex`. -/
def eraseSubscriber (s : Server) (client : ClientId) : Server :=
  match s.subscribers client with
  | some q =>
      { s.cancel q with
        subscribers := Function.update s.subscribers client none }
  | none => s

/-- `cleanup_client` is its three sections. -/
theorem cleanupClient_eq (s : Server) (client : ClientId) :
    s.cleanupClient client =
      ((s.eraseFromDb client).eraseFromFileMap client).eraseSubscriber client := by
  cases subscriber : s.subscribers client with
  | none =>
      simp [cleanupClient, eraseSubscriber, eraseFromDb, eraseFromFileMap,
        subscriber]
  | some q =>
      simp [cleanupClient, eraseSubscriber, eraseFromDb, eraseFromFileMap,
        subscriber, cancel]

end Server

/-- What happens in the system: an event of the calls, the end of a client's
subscription, or the next section of its `cleanup_client`. -/
inductive DashboardEvent where
  | file (event : ClusterEvent)
  | disconnect (client : ClientId)
  | cleanUp (client : ClientId)

namespace Dashboard

/-- The next section of a `cleanup_client`. -/
def afterCleanup (σ : Dashboard) (client : ClientId) (server : Server)
    (connection : Connection) : Dashboard :=
  { σ with
    server := server
    connection := Function.update σ.connection client connection }

end Dashboard

/-- One event. -/
def DashboardEvent.step : DashboardEvent → Dashboard → Option Dashboard
  | .file event, σ =>
      (event.step σ.toCluster).map fun cluster => { σ with toCluster := cluster }
  | .disconnect client, σ =>
      match σ.connection client with
      | .connected => some (σ.afterCleanup client σ.server .leaving)
      | _ => none
  | .cleanUp client, σ =>
      match σ.connection client with
      | .leaving =>
          some (σ.afterCleanup client (σ.server.eraseFromDb client) .unlisted)
      | .unlisted =>
          some (σ.afterCleanup client (σ.server.eraseFromFileMap client)
            .unregistered)
      | .unregistered =>
          some (σ.afterCleanup client (σ.server.eraseSubscriber client) .gone)
      | _ => none

/-! ## When the report is right -/

/-- A request of the call is on its way or has not been answered. -/
def CallPhase.InRpc : CallPhase → Prop
  | .idle | .entered | .hit | .created => False
  | _ => True

namespace Dashboard

variable (σ : Dashboard) (client : ClientId) (path : Path)

/-- The file is on the server. -/
def Stored : Prop := (σ.server.disk.node path).isSome

/-- `GetStatus` reports that the client has the file open. -/
def Reports : Prop :=
  σ.server.getStatusHandler.fileToClients.Registered path client

/-- The client has streams of the file. -/
def Streaming : Prop := ((σ.clients client).openedFiles path).isSome

/-- The client has a file of the server open, or is in an `open_file` that has
downloaded it. -/
def HasOpen : Prop :=
  (σ.Streaming client path ∨ σ.calls client path = .entered) ∧ σ.Stored path

/-- No request and no `cleanup_client` is in progress. -/
structure Quiescent : Prop where
  noRpc : ∀ client path, ¬ (σ.calls client path).InRpc
  noCleanup : ∀ client,
    σ.connection client = .connected ∨ σ.connection client = .gone

/-- The report is right about the connected clients, and does not name those
that have been cleaned up. -/
structure Accurate : Prop where
  connected : ∀ client, σ.connection client = .connected →
    ∀ path, σ.Reports client path ↔ σ.HasOpen client path
  gone : ∀ client, σ.connection client = .gone →
    ∀ path, ¬ σ.Reports client path

/-- The server and all clients have started, and no file has been opened. -/
structure Fresh : Prop where
  clientId : ∀ client, (σ.clients client).clientId = client
  connection : ∀ client, σ.connection client = .connected
  idle : ∀ client path, σ.calls client path = .idle
  closed : ∀ client path, ¬ σ.Streaming client path
  unreported : ∀ client path, ¬ σ.Reports client path

end Dashboard

/-- A server over the files on disk and its clients, as they start. -/
def Dashboard.launch (rootDir : Path) (disk : FileStore Path Byte) : Dashboard
    where
  server := Server.launch rootDir disk 0
  clients := Client.launch
  inFlight _ := []
  calls _ _ := .idle
  connection _ := .connected

theorem Dashboard.fresh_launch (rootDir : Path) (disk : FileStore Path Byte) :
    (Dashboard.launch rootDir disk).Fresh where
  clientId _ := rfl
  connection _ := rfl
  idle _ _ := rfl
  closed _ _ := by simp [Streaming, launch, Client.launch]
  unreported _ _ := by
    simp [Reports, launch, Server.launch, Server.getStatusHandler,
      ClientMap.Registered]

/-! ## Which events keep it right -/

/-- `close_file` erases the streams without an upload. -/
def Client.ClosesSilently (client : Client) (path : Path) : Prop :=
  (client.openedFiles path).isSome ∧ path ∈ client.fileMutexes ∧
    ∀ info, client.cache path = some info → info.locallyModified = false

/-- `open_file` returns false after an answer with this status. -/
def LocalAnswers.GivesUp (answers : LocalAnswers) (left : Nat)
    (status : Status) : Prop :=
  answers.create left = false ∨ (answers.download left).isSome ∨
    status.isOk = false ∧ left = 0

/-- In this phase the client has the file open only if it has streams of it. -/
def CallPhase.Resting : CallPhase → Prop
  | .idle | .hit | .created => True
  | _ => False

/-- In this phase a client that is reported needs the file to stay on the
server. -/
def CallPhase.Relying : CallPhase → Prop
  | .idle | .hit | .created | .entered => True
  | .answered _ _ status => status.isOk
  | _ => False

namespace Dashboard

variable (σ : Dashboard) (client : ClientId) (path : Path)

/-- A call that begins does not give up a file of the server without an
upload. -/
def StartKeeps : FileCall → Prop
  | .closeFile =>
      (σ.clients client).ClosesSilently path → ¬ σ.Stored path
  | .deleteFile => σ.Streaming client path → ¬ σ.Stored path
  | _ => True

/-- A section of a call neither reports a client without opening the file, nor
opens, stores or removes a file without changing the report. -/
def SectionKeeps (answers : LocalAnswers) : CallPhase → Prop
  | .opening _ => σ.connection client ≠ .gone
  | .answered left _ status =>
      σ.connection client = .connected → answers.GivesUp left status →
        σ.Streaming client path ∧ σ.Stored path
  | .entered =>
      σ.connection client = .connected →
        (σ.clients client).openStreams answers path = none →
          σ.Streaming client path
  | .hit | .created =>
      σ.connection client = .connected →
        ((σ.clients client).openStreams answers path).isSome →
          ¬ σ.Stored path
  | .uploading _ =>
      ¬ σ.Stored path → ∀ other, σ.connection other = .connected →
        σ.Streaming other path → ¬ (σ.calls other path).Resting
  | .removing =>
      σ.Stored path → ∀ other, σ.connection other = .connected →
        σ.Reports other path → ¬ (σ.calls other path).Relying
  | _ => True

end Dashboard

/-- The event does not take one of the branches that make the report wrong. -/
def DashboardEvent.KeepsReport : DashboardEvent → Dashboard → Prop
  | .file (.start client path call _), σ =>
      σ.connection client = .connected → σ.StartKeeps client path call
  | .file (.advance client path answers), σ =>
      σ.SectionKeeps client path answers (σ.calls client path)
  | .cleanUp client, σ =>
      σ.connection client = .unregistered → ∀ path, ¬ σ.Reports client path
  | _, _ => True

end DistributedFilesystem
