import DistributedFilesystem.LockedThreads
import DistributedFilesystem.ServerHandlers

/-!
# The handlers as threads

Each handler is a list of instructions in the order of its source: lock and
unlock requests, and actions that run without interruption.  An action that
contains a branch or a loop turn puts the instructions of the branch in front
of the rest.

A file stream of the standard library reads ahead and writes behind.  How much
it moves at a time is left to the scheduler: `fill` and `flush` move any
positive number of bytes between the file and the stream's buffer.
-/

namespace DistributedFilesystem

open LockedThreads

/-- The server's mutexes. -/
inductive Lock where
  | fileMapMutex
  | fileMapOpenMutex
  | subscriberMutex
  | clientDbMutex
  | queueMu (q : QueueId)
deriving DecidableEq

/-- An open `std::ifstream`: the file, how far it has been read, and what was
read but not yet delivered. -/
structure InputFile where
  node : Nat
  offset : Nat
  buffer : Bytes
  atEnd : Bool
deriving DecidableEq

/-- An open `std::ofstream`: the file, how far it has been written, and what is
still buffered. -/
structure OutputFile where
  node : Nat
  offset : Nat
  buffer : Bytes
deriving DecidableEq

/-- The local variables of a handler and what it has sent to its client. -/
structure HandlerLocals where
  path : Option Path
  input : Option InputFile
  output : Option OutputFile
  sent : List Bytes
  timestamp : Int
  note : Option Notification
  delivered : List Notification
  rootPath : Path
  connectedClients : Finset ClientId
  fileToClients : ClientMap
  status : Option Status

def HandlerLocals.start : HandlerLocals :=
  ⟨none, none, none, [], 0, none, [], "", ∅, fun _ => none, none⟩

/-- What a run records: each change of a file's contents and each push to a
client's queue. -/
inductive Event where
  | modified (path : Path)
  | pushed (client : ClientId) (notif : Notification)
deriving DecidableEq

/-- The server with the record of what happened, latest first. -/
structure Recorded where
  server : Server
  log : List Event

/-- The actions of the handlers. -/
inductive Action where
  -- request_dir
  | requestDir (code : String) (client : ClientId)
  -- open
  | insertFileMap (path : Path) (client : ClientId)
  | insertFileMapOpen (path : Path) (client : ClientId)
  | openInput (path : Path)
  | sendChunks
  -- get_file_timestamp, in open, close and rename
  | stamp (path : Path)
  -- close
  | receive (path : Path) (messages : List Bytes)
  | closeOutput
  | findClose (path : Path) (client : ClientId)
  | eraseFileMapOpen (path : Path) (client : ClientId)
  -- the loop of the callbacks
  | notifyEach (client : ClientId) (notif : Notification)
      (remaining : Finset ClientId)
  | push (receiver : ClientId) (q : QueueId) (notif : Notification)
  -- rename
  | renameFile (oldPath newPath : Path)
  | findRename (oldPath newPath : Path) (client : ClientId)
  | moveEntry (oldPath newPath : Path) (clients : Finset ClientId)
  -- unlink
  | removeFile (path : Path)
  | findUnlink (path : Path) (client : ClientId)
  | eraseEntry (path : Path)
  -- GetStatus
  | reportClients
  | reportOpen
  -- subscribe and its monitor thread
  | createQueue (client : ClientId)
  | insertSubscriber (client : ClientId) (q : QueueId)
  | awaitNotification (client : ClientId) (q : QueueId)
  | pop (client : ClientId) (q : QueueId)
  | writeNote (client : ClientId) (q : QueueId)
  | awaitCancelled (q : QueueId)
  | cancel (q : QueueId)
  -- cleanup_client
  | eraseClientsDb (client : ClientId)
  | sweepFileMap (client : ClientId)
  | findSubscriber (client : ClientId)
  | eraseSubscriber (client : ClientId)
  -- the final return
  | answer (status : Status)

/-- What the scheduler and the environment decide at a step. -/
inductive Choice where
  | go
  | fail
  | failOther
  | fill (amount : Nat)
  | send
  | flush (amount : Nat)
  | pick (client : ClientId)
deriving DecidableEq

abbrev Code := List (Instr Lock Action)

namespace Server

def setQueue (s : Server) (q : QueueId) (queue : NotificationQueue) : Server :=
  { s with queues := Function.update s.queues q (some queue) }

end Server

/-- Run one action. -/
def exec : Exec Lock Action Choice Recorded HandlerLocals :=
  fun action choice w t rest =>
  let s := w.server
  match action with
  | .requestDir code client =>
      if code = "I want input/output directory" then
        let db := if client = "" then s.clientsDb else insert client s.clientsDb
        some ({ w with server := { s with clientsDb := db } },
          { t with rootPath := s.rootDir, status := some Status.OK }, rest)
      else
        some (w, { t with status := some ⟨.permissionDenied,
          "You need the correct code to retrieve requested data."⟩ }, rest)
  | .insertFileMap path client =>
      some ({ w with server :=
        { s with fileMap := s.fileMap.insertClient path client } }, t, rest)
  | .insertFileMapOpen path client =>
      some ({ w with server :=
        { s with fileMapOpen := s.fileMapOpen.insertClient path client } },
        t, rest)
  | .openInput path =>
      let missing := { t with status := some ⟨.notFound,
        "File not found on the server."⟩ }
      match choice, s.disk.node path with
      | .go, some i =>
          some (w, { t with input := some ⟨i, 0, [], false⟩ }, rest)
      | .go, none => some (w, missing, [])
      | .fail, _ => some (w, missing, [])
      | _, _ => none
  | .sendChunks =>
      match t.input with
      | none => none
      | some file =>
          match choice with
          | .fill amount =>
              if file.atEnd ∨ amount = 0 then none
              else
                let bytes := ((s.disk.nodes file.node).contents.drop
                  file.offset).take amount
                some (w, { t with input := some { file with
                  offset := file.offset + bytes.length
                  buffer := file.buffer ++ bytes
                  atEnd := decide (bytes = []) } }, .act .sendChunks :: rest)
          | .send =>
              if chunkSize ≤ file.buffer.length ∨
                  file.atEnd = true ∧ file.buffer ≠ [] then
                some (w, { t with
                  sent := t.sent ++ [file.buffer.take chunkSize]
                  input := some { file with
                    buffer := file.buffer.drop chunkSize } },
                  .act .sendChunks :: rest)
              else none
          | .go =>
              if file.atEnd = true ∧ file.buffer = [] then
                some (w, { t with status := some Status.OK }, rest)
              else none
          | .fail =>
              some (w, { t with status := some ⟨.internal,
                "Server failed to create the file."⟩ }, [])
          | _ => none
  | .stamp path =>
      some (w, { t with timestamp := getFileTimestamp s.disk path }, rest)
  | .receive path messages =>
      match choice, messages with
      | .go, [] => some (w, t, rest)
      | .go, message :: messages =>
          match t.path, t.output with
          | none, _ =>
              let disk := s.disk.openTruncated path s.clock
              match disk.node path with
              | some i =>
                  some (⟨{ s with disk := disk }, .modified path :: w.log⟩,
                    { t with path := some path, output := some ⟨i, 0, message⟩ },
                    .act (.receive path messages) :: rest)
              | none => none
          | some _, some file =>
              some (w, { t with output := some { file with
                buffer := file.buffer ++ message } },
                .act (.receive path messages) :: rest)
          -- Writing to a closed stream does nothing.
          | some _, none => some (w, t, .act (.receive path messages) :: rest)
      | .fail, _ :: _ =>
          if t.path = none then
            some (w, { t with status := some ⟨.permissionDenied,
              "cant open file to write"⟩ }, [])
          else none
      | .flush amount, messages =>
          match t.output with
          | some file =>
              let bytes := file.buffer.take amount
              let disk := s.disk.writeAt file.node file.offset bytes s.clock
              if bytes = [] then none
              else
                some (⟨{ s with disk := disk }, .modified path :: w.log⟩,
                  { t with output := some { file with
                    offset := file.offset + bytes.length
                    buffer := file.buffer.drop amount } },
                  .act (.receive path messages) :: rest)
          | none => none
      | _, _ => none
  | .closeOutput =>
      match t.path with
      | none =>
          some (w, { t with status := some ⟨.invalidArgument,
            "No file data received."⟩ }, [])
      | some path =>
          match t.output with
          | none => some (w, t, rest)
          | some file =>
              let disk := s.disk.writeAt file.node file.offset file.buffer s.clock
              let log :=
                if file.buffer = [] then w.log else .modified path :: w.log
              some (⟨{ s with disk := disk }, log⟩,
                { t with output := none }, rest)
  | .findClose path client =>
      match s.fileMap path with
      | some clients =>
          some (w, t, .lock .subscriberMutex ::
            .act (.notifyEach client
              (Server.updateNotification path t.timestamp) clients) ::
            .unlock .subscriberMutex :: rest)
      | none =>
          some ({ w with server :=
            { s with fileMap := s.fileMap.insertClient path client } }, t, rest)
  | .eraseFileMapOpen path client =>
      some ({ w with server :=
        { s with fileMapOpen := s.fileMapOpen.eraseClient path client } },
        t, rest)
  | .notifyEach client notif remaining =>
      match choice with
      | .go => if remaining = ∅ then some (w, t, rest) else none
      | .pick receiver =>
          if receiver ∈ remaining then
            let next := Instr.act (.notifyEach client notif
              (remaining.erase receiver)) :: rest
            if receiver = client then some (w, t, next)
            else
              match s.subscribers receiver with
              | some q =>
                  some (w, t, .lock (.queueMu q) ::
                    .act (.push receiver q notif) ::
                    .unlock (.queueMu q) :: next)
              | none => some (w, t, next)
          else none
      | _ => none
  | .push receiver q notif =>
      some (⟨s.push q notif, .pushed receiver notif :: w.log⟩, t, rest)
  | .renameFile oldPath newPath =>
      let missing := { t with status := some ⟨.notFound,
        "Source file not found"⟩ }
      match choice, s.disk.node oldPath with
      | .go, some _ =>
          some ({ w with server :=
            { s with disk := s.disk.rename oldPath newPath } }, t, rest)
      | .go, none => some (w, missing, [])
      | .fail, _ => some (w, missing, [])
      | _, _ => none
  | .findRename oldPath newPath client =>
      match s.fileMap oldPath with
      | some clients =>
          some (w, t, .lock .subscriberMutex ::
            .act (.notifyEach client
              (Server.renameNotification oldPath newPath t.timestamp) clients) ::
            .unlock .subscriberMutex ::
            .act (.moveEntry oldPath newPath clients) :: rest)
      | none =>
          some (w, t, .lock .fileMapMutex ::
            .act (.insertFileMap newPath client) ::
            .unlock .fileMapMutex :: rest)
  | .moveEntry oldPath newPath clients =>
      let moved := Function.update s.fileMap newPath (some clients)
      some ({ w with server :=
        { s with fileMap := Function.update moved oldPath none } }, t, rest)
  | .removeFile path =>
      let missing := { t with status := some ⟨.notFound,
        "Source file not found"⟩ }
      match choice, s.disk.node path with
      | .go, some _ =>
          some ({ w with server := { s with disk := s.disk.remove path } },
            t, rest)
      | .fail, some _ =>
          some (w, { t with status := some ⟨.permissionDenied,
            "Permission denied"⟩ }, [])
      | .failOther, some _ =>
          some (w, { t with status := some Status.OK }, [])
      | .go, none => some (w, missing, [])
      | _, _ => none
  | .findUnlink path client =>
      match s.fileMap path with
      | some clients =>
          some (w, t, .lock .subscriberMutex ::
            .act (.notifyEach client (Server.deleteNotification path)
              clients) ::
            .unlock .subscriberMutex :: .act (.eraseEntry path) :: rest)
      | none => some (w, t, rest)
  | .eraseEntry path =>
      some ({ w with server :=
        { s with fileMap := Function.update s.fileMap path none } }, t, rest)
  | .reportClients =>
      some (w, { t with connectedClients := s.clientsDb }, rest)
  | .reportOpen =>
      some (w, { t with fileToClients := s.fileMapOpen }, rest)
  | .createQueue client =>
      let q := s.unusedQueue
      some ({ w with server :=
        { s.setQueue q ⟨[], false⟩ with unusedQueue := q + 1 } }, t,
        .lock .subscriberMutex :: .act (.insertSubscriber client q) ::
          .unlock .subscriberMutex :: .act (.awaitNotification client q) ::
          rest)
  | .insertSubscriber client q =>
      some ({ w with server :=
        { s with subscribers := Function.update s.subscribers client (some q) } },
        t, rest)
  | .awaitNotification client q =>
      match s.queues q with
      | some queue =>
          if queue.queue ≠ [] ∨ queue.shutdown = true then
            some (w, t, .lock (.queueMu q) :: .act (.pop client q) :: rest)
          else none
      | none => none
  | .pop client q =>
      match s.queues q with
      | some ⟨note :: notes, shutdown⟩ =>
          some ({ w with server := s.setQueue q ⟨notes, shutdown⟩ },
            { t with note := some note },
            .unlock (.queueMu q) :: .act (.writeNote client q) :: rest)
      | some ⟨[], true⟩ => some (w, t, .unlock (.queueMu q) :: rest)
      | _ =>
          some (w, t, .unlock (.queueMu q) ::
            .act (.awaitNotification client q) :: rest)
  | .writeNote client q =>
      match choice with
      | .go =>
          some (w, { t with
            delivered := t.delivered ++ t.note.toList, note := none },
            .act (.awaitNotification client q) :: rest)
      | .fail => some (w, { t with note := none }, rest)
      | _ => none
  | .awaitCancelled q =>
      match s.queues q with
      | some _ => some (w, t, rest)
      | none => none
  | .cancel q => some ({ w with server := s.cancel q }, t, rest)
  | .eraseClientsDb client =>
      some ({ w with server :=
        { s with clientsDb := s.clientsDb.erase client } }, t, rest)
  | .sweepFileMap client =>
      some ({ w with server :=
        { s with fileMap := s.fileMap.sweepClient client } }, t, rest)
  | .findSubscriber client =>
      match s.subscribers client with
      | some q =>
          some (w, t, .lock (.queueMu q) :: .act (.cancel q) ::
            .unlock (.queueMu q) :: .act (.eraseSubscriber client) :: rest)
      | none => some (w, t, rest)
  | .eraseSubscriber client =>
      some ({ w with server :=
        { s with subscribers := Function.update s.subscribers client none } },
        t, rest)
  | .answer status => some (w, { t with status := some status }, rest)

/-! ## The programs of the handlers -/

def requestDirProgram (code : String) (client : ClientId) : Code :=
  [.act (.requestDir code client)]

def openProgram (path : Path) (client : ClientId) : Code :=
  [.lock .fileMapMutex, .act (.insertFileMap path client),
    .unlock .fileMapMutex,
    .lock .fileMapOpenMutex, .act (.insertFileMapOpen path client),
    .unlock .fileMapOpenMutex,
    .act (.openInput path), .act (.stamp path), .act .sendChunks]

/-- What `close` does once its stream and its file are closed. -/
def closeCallback (path : Path) (client : ClientId) : Code :=
  [.lock .fileMapMutex, .act (.findClose path client), .unlock .fileMapMutex,
    .lock .fileMapOpenMutex, .act (.eraseFileMapOpen path client),
    .unlock .fileMapOpenMutex,
    .act (.answer Status.OK)]

def closeProgram (path : Path) (client : ClientId) (stream : List Bytes) :
    Code :=
  .act (.receive path stream) :: .act .closeOutput ::
    .act (.stamp path) :: closeCallback path client

def renameProgram (oldPath newPath : Path) (client : ClientId) : Code :=
  [.act (.renameFile oldPath newPath), .act (.stamp newPath),
    .lock .fileMapMutex, .act (.findRename oldPath newPath client),
    .unlock .fileMapMutex,
    .act (.answer Status.OK)]

def unlinkProgram (path : Path) (client : ClientId) : Code :=
  [.act (.removeFile path),
    .lock .fileMapMutex, .act (.findUnlink path client), .unlock .fileMapMutex,
    .act (.answer Status.OK)]

def getStatusProgram : Code :=
  [.lock .clientDbMutex, .act .reportClients, .unlock .clientDbMutex,
    .lock .fileMapOpenMutex, .act .reportOpen, .unlock .fileMapOpenMutex,
    .act (.answer Status.OK)]

def cleanupProgram (client : ClientId) : Code :=
  [.lock .clientDbMutex, .act (.eraseClientsDb client), .unlock .clientDbMutex,
    .lock .fileMapMutex, .act (.sweepFileMap client), .unlock .fileMapMutex,
    .lock .subscriberMutex, .act (.findSubscriber client),
    .unlock .subscriberMutex]

def subscribeProgram (client : ClientId) : Code :=
  .act (.createQueue client) ::
    (cleanupProgram client ++ [.act (.answer Status.OK)])

/-- The thread that watches the context of a `subscribe` call. -/
def monitorProgram (q : QueueId) : Code :=
  [.act (.awaitCancelled q), .lock (.queueMu q), .act (.cancel q),
    .unlock (.queueMu q)]

/-- What a thread of the server was started for. -/
inductive Request where
  | requestDir (code : String) (client : ClientId)
  | open (path : Path) (client : ClientId)
  | close (path : Path) (client : ClientId) (stream : List Bytes)
  | rename (oldPath newPath : Path) (client : ClientId)
  | unlink (path : Path) (client : ClientId)
  | getStatus
  | subscribe (client : ClientId)
  | monitor (q : QueueId)

def Request.program : Request → Code
  | .requestDir code client => requestDirProgram code client
  | .open path client => openProgram path client
  | .close path client stream => closeProgram path client stream
  | .rename oldPath newPath client => renameProgram oldPath newPath client
  | .unlink path client => unlinkProgram path client
  | .getStatus => getStatusProgram
  | .subscribe client => subscribeProgram client
  | .monitor q => monitorProgram q

/-- The server with its running handlers. -/
abbrev Handlers (ι : Type*) := State ι Lock Action Recorded HandlerLocals

variable {ι : Type*}

/-- All handlers at their start. -/
def Handlers.start (s : Server) (requests : ι → Request) : Handlers ι where
  shared := ⟨s, []⟩
  threads i := ⟨.start, (requests i).program⟩
  owner _ := none

end DistributedFilesystem
