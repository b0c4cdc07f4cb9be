import DistributedFilesystem.ServerState

/-!
# The request handlers

Each handler as a function of the server state, run from its start to its
return with nothing in between.  How the handlers interleave is the subject of
`ServerThreads`; the callbacks here hold `file_map_mutex` throughout.

An outcome argument says what the operating system answers to the one disk
operation of the handler that may be refused.
-/

namespace DistributedFilesystem

/-- The operating system's answer to a disk operation on an existing file. -/
inductive DiskOutcome where
  | success
  | permissionDenied
  | failure
deriving DecidableEq

/-- The part of `FileRequest` that the handlers read; `path` is the directory
and the file name joined. -/
structure FileRequest where
  path : Path
  clientId : ClientId
  content : Bytes
deriving DecidableEq

structure FileResponse where
  content : Bytes
  length : Int
  timestamp : Int
deriving DecidableEq

/-- The attributes that depend on the contents of a file. -/
structure FileAttributes where
  size : Int
  atime : Int
  mtime : Int
  ctime : Int
deriving DecidableEq

/-- `chunk_size` of the server and of the client. -/
def chunkSize : Nat := 4096

theorem chunkSize_pos : 0 < chunkSize := by
  decide

namespace Server

/-- `file_change_callback_close` -/
def fileChangeCallbackClose (s : Server) (path : Path) (clientId : ClientId)
    (notif : Notification) : Server :=
  match s.fileMap path with
  | some clientSet => s.notifyAll clientId notif clientSet
  | none => { s with fileMap := s.fileMap.insertClient path clientId }

/-- `file_change_callback_rename`; `none` when the handler never returns: on
an unregistered path it locks `file_map_mutex` a second time. -/
def fileChangeCallbackRename (s : Server) (oldPath newPath : Path)
    (clientId : ClientId) (notif : Notification) : Option Server :=
  match s.fileMap oldPath with
  | some clientSet =>
      let s := s.notifyAll clientId notif clientSet
      let moved := Function.update s.fileMap newPath (some clientSet)
      some { s with fileMap := Function.update moved oldPath none }
  | none => none

/-- `file_change_callback_unlink` -/
def fileChangeCallbackUnlink (s : Server) (path : Path) (clientId : ClientId)
    (notif : Notification) : Server :=
  match s.fileMap path with
  | some clientSet =>
      let s := s.notifyAll clientId notif clientSet
      { s with fileMap := Function.update s.fileMap path none }
  | none => s

/-- `cleanup_client` -/
def cleanupClient (s : Server) (clientId : ClientId) : Server :=
  let s := { s with clientsDb := s.clientsDb.erase clientId }
  let s := { s with fileMap := s.fileMap.sweepClient clientId }
  match s.subscribers clientId with
  | some q =>
      let s := s.cancel q
      { s with subscribers := Function.update s.subscribers clientId none }
  | none => s

/-- The two map updates at the start of `open`. -/
def registerOpen (s : Server) (path : Path) (clientId : ClientId) : Server :=
  { s with
    fileMap := s.fileMap.insertClient path clientId
    fileMapOpen := s.fileMapOpen.insertClient path clientId }

/-- The responses that `open` streams for these contents. -/
def openResponses (contents : Bytes) (timestamp : Int) : List FileResponse :=
  (ByteContents.blocks chunkSize contents).map fun block =>
    ⟨block, block.length, timestamp⟩

/-- What `open` answers once the client is registered. -/
def sendFile (s : Server) (path : Path) (outcome : DiskOutcome) :
    List FileResponse × Status :=
  match s.disk.read path, outcome with
  | some contents, .success =>
      (openResponses contents (getFileTimestamp s.disk path), Status.OK)
  | _, _ => ([], ⟨.notFound, "File not found on the server."⟩)

/-- `open` -/
def openHandler (s : Server) (request : FileRequest) (outcome : DiskOutcome) :
    Server × List FileResponse × Status :=
  let s := s.registerOpen request.path request.clientId
  (s, s.sendFile request.path outcome)

/-- The notification that `close` sends. -/
def updateNotification (path : Path) (timestamp : Int) : Notification :=
  ⟨path, "", "UPDATE", timestamp⟩

/-- The notification that `rename` sends. -/
def renameNotification (oldPath newPath : Path) (timestamp : Int) :
    Notification :=
  ⟨oldPath, newPath, "Rename", timestamp⟩

/-- The notification that `unlink` sends. -/
def deleteNotification (path : Path) : Notification :=
  ⟨path, "", "DELETE", 0⟩

/-- The part of `close` that receives the stream into the file. -/
def receiveFile (s : Server) (path : Path) (stream : List FileRequest) :
    Server :=
  { s with
    disk := s.disk.replace path (stream.map FileRequest.content) s.clock }

/-- What `close` does once the file is stored. -/
def finishClose (s : Server) (path : Path) (clientId : ClientId)
    (timestamp : Int) : Server :=
  let s := s.fileChangeCallbackClose path clientId
    (updateNotification path timestamp)
  { s with fileMapOpen := s.fileMapOpen.eraseClient path clientId }

/-- `close` -/
def closeHandler (s : Server) (stream : List FileRequest)
    (outcome : DiskOutcome) : Server × FileResponse × Status :=
  match stream with
  | [] => (s, ⟨[], 0, 0⟩, ⟨.invalidArgument, "No file data received."⟩)
  | first :: later =>
      let path := first.path
      let clientId := ((first :: later).getLast (by simp)).clientId
      match outcome with
      | .success =>
          let s := s.receiveFile path (first :: later)
          let timestamp := getFileTimestamp s.disk path
          (s.finishClose path clientId timestamp, ⟨[], 0, timestamp⟩, Status.OK)
      | _ => (s, ⟨[], 0, 0⟩, ⟨.permissionDenied, "cant open file to write"⟩)

/-- `rename` on regular files; `none` when the handler never returns. -/
def renameHandler (s : Server) (oldPath newPath : Path) (clientId : ClientId)
    (outcome : DiskOutcome) : Option (Server × Status) :=
  match s.disk.node oldPath, outcome with
  | some _, .success =>
      let s := { s with disk := s.disk.rename oldPath newPath }
      let notif := renameNotification oldPath newPath
        (getFileTimestamp s.disk newPath)
      (s.fileChangeCallbackRename oldPath newPath clientId notif).map
        fun s => (s, Status.OK)
  | _, _ => some (s, ⟨.notFound, "Source file not found"⟩)

/-- `unlink` on regular files. -/
def unlinkHandler (s : Server) (path : Path) (clientId : ClientId)
    (outcome : DiskOutcome) : Server × Status :=
  match s.disk.node path, outcome with
  | none, _ => (s, ⟨.notFound, "Source file not found"⟩)
  | some _, .success =>
      let s := { s with disk := s.disk.remove path }
      (s.fileChangeCallbackUnlink path clientId (deleteNotification path),
        Status.OK)
  | some _, .permissionDenied =>
      (s, ⟨.permissionDenied, "Permission denied"⟩)
  -- Any other error code falls through to the final return.
  | some _, .failure => (s, Status.OK)

/-- The first `stat` of `getattr`, on regular files. -/
def statHandler (s : Server) (path : Path) (outcome : DiskOutcome) :
    FileAttributes × Status :=
  match s.disk.read path, outcome with
  | none, _ => (⟨0, 0, 0, 0⟩, ⟨.notFound, "File not found"⟩)
  | some contents, .success =>
      let time := getFileTimestamp s.disk path
      (⟨contents.length, time, time, time⟩, Status.OK)
  | some _, _ => (⟨0, 0, 0, 0⟩, ⟨.internal, "stat() system call failed"⟩)

/-- What `getattr` sends: the size that the first `stat` found, and the time
that a second one finds. -/
def getattrResponse (s : Server) (path : Path) (found : FileAttributes) :
    FileAttributes :=
  let time := getFileTimestamp s.disk path
  ⟨found.size, time, time, time⟩

/-- `getattr`, with nothing between its two `stat`s. -/
def getattrHandler (s : Server) (path : Path) (outcome : DiskOutcome) :
    FileAttributes × Status :=
  let (found, status) := s.statHandler path outcome
  if status.isOk then (s.getattrResponse path found, status)
  else (found, status)

/-! ## What `open` sends and what `close` stores -/

@[simp]
theorem openHandler_server (s : Server) (request : FileRequest)
    (outcome : DiskOutcome) :
    (s.openHandler request outcome).1 =
      s.registerOpen request.path request.clientId :=
  rfl

/-- When `open` answers OK, it sends the file. -/
theorem openHandler_ok {s s' : Server} {request : FileRequest}
    {outcome : DiskOutcome} {responses : List FileResponse} {status : Status}
    (handles : s.openHandler request outcome = (s', responses, status))
    (ok : status.isOk) :
    ∃ contents, s.disk.read request.path = some contents ∧
      responses =
        openResponses contents (getFileTimestamp s.disk request.path) := by
  obtain ⟨-, sends⟩ := Prod.mk.inj handles
  unfold sendFile at sends
  split at sends
  · next _ contents read =>
      obtain ⟨rfl, -⟩ := Prod.mk.inj sends
      exact ⟨contents, read, rfl⟩
  · obtain ⟨-, rfl⟩ := Prod.mk.inj sends
    simp [Status.isOk] at ok

/-- When `stat` succeeds, it finds the attributes of the file. -/
theorem statHandler_ok {s : Server} {path : Path} {outcome : DiskOutcome}
    {found : FileAttributes} {status : Status}
    (stats : s.statHandler path outcome = (found, status))
    (ok : status.isOk) :
    ∃ contents, s.disk.read path = some contents ∧
      found = ⟨contents.length, getFileTimestamp s.disk path,
        getFileTimestamp s.disk path, getFileTimestamp s.disk path⟩ := by
  unfold statHandler at stats
  split at stats
  · obtain ⟨-, rfl⟩ := Prod.mk.inj stats
    simp [Status.isOk] at ok
  · next contents read =>
      obtain ⟨rfl, -⟩ := Prod.mk.inj stats
      exact ⟨contents, read, rfl⟩
  · obtain ⟨-, rfl⟩ := Prod.mk.inj stats
    simp [Status.isOk] at ok

/-- When `getattr` answers OK, it sends the attributes of the file. -/
theorem getattrHandler_ok {s : Server} {path : Path} {outcome : DiskOutcome}
    {attr : FileAttributes} {status : Status}
    (handles : s.getattrHandler path outcome = (attr, status))
    (ok : status.isOk) :
    ∃ contents, s.disk.read path = some contents ∧
      attr = ⟨contents.length, getFileTimestamp s.disk path,
        getFileTimestamp s.disk path, getFileTimestamp s.disk path⟩ := by
  cases stats : s.statHandler path outcome with
  | mk found answer =>
      unfold getattrHandler at handles
      rw [stats] at handles
      dsimp only at handles
      split at handles
      · next isOk =>
          obtain ⟨rfl, rfl⟩ := Prod.mk.inj handles
          obtain ⟨contents, read, rfl⟩ := statHandler_ok stats isOk
          exact ⟨contents, read, rfl⟩
      · next notOk =>
          obtain ⟨-, rfl⟩ := Prod.mk.inj handles
          exact (notOk ok).elim

theorem length_pos_of_mem_openResponses {contents : Bytes} {timestamp : Int}
    {response : FileResponse}
    (member : response ∈ openResponses contents timestamp) :
    0 < response.length := by
  obtain ⟨block, isBlock, rfl⟩ := List.mem_map.mp member
  have nonempty := ByteContents.ne_nil_of_mem_blocksUpTo chunkSize_pos isBlock
  have positive := List.length_pos_iff.mpr nonempty
  dsimp only
  omega

theorem flatten_openResponses (contents : Bytes) (timestamp : Int) :
    ((openResponses contents timestamp).map FileResponse.content).flatten =
      contents := by
  simp [openResponses, Function.comp_def,
    ByteContents.flatten_blocks chunkSize_pos]

/-- After `close` received a stream the file is the concatenation of its
messages, whatever it was before. -/
@[simp]
theorem read_receiveFile (s : Server) (path : Path)
    (stream : List FileRequest) :
    (s.receiveFile path stream).disk.read path =
      some (stream.map FileRequest.content).flatten :=
  FileStore.read_replace ..

/-- The callback and the last map update of `close` do not touch files. -/
theorem disk_finishClose (s : Server) (path : Path) (clientId : ClientId)
    (timestamp : Int) :
    (s.finishClose path clientId timestamp).disk = s.disk := by
  unfold finishClose fileChangeCallbackClose
  dsimp only
  split
  · simp
  · rfl

section Closes

variable {s s' : Server} {path : Path} {stream : List FileRequest}
variable {outcome : DiskOutcome} {response : FileResponse} {status : Status}

/-- When `close` answers OK, it has received the file. -/
theorem closeHandler_ok (samePath : ∀ request ∈ stream, request.path = path)
    (handles : s.closeHandler stream outcome = (s', response, status))
    (ok : status.isOk) :
    s'.disk = (s.receiveFile path stream).disk ∧
      response.timestamp = getFileTimestamp s'.disk path := by
  unfold closeHandler at handles
  split at handles
  · simp only [Prod.mk.injEq] at handles
    obtain ⟨-, -, rfl⟩ := handles
    simp [Status.isOk] at ok
  · next first later =>
      obtain rfl := samePath first List.mem_cons_self
      dsimp only at handles
      split at handles
      · simp only [Prod.mk.injEq] at handles
        obtain ⟨rfl, rfl, -⟩ := handles
        rw [disk_finishClose]
        exact ⟨rfl, rfl⟩
      · simp only [Prod.mk.injEq] at handles
        obtain ⟨-, -, rfl⟩ := handles
        simp [Status.isOk] at ok

/-- The file is what the stream carried. -/
theorem read_closeHandler (samePath : ∀ request ∈ stream, request.path = path)
    (handles : s.closeHandler stream outcome = (s', response, status))
    (ok : status.isOk) :
    s'.disk.read path = some (stream.map FileRequest.content).flatten := by
  rw [(closeHandler_ok samePath handles ok).1, read_receiveFile]

end Closes

theorem read_receiveFile_ne (s : Server) {path other : Path}
    (different : other ≠ path) (stream : List FileRequest) :
    (s.receiveFile path stream).disk.read other = s.disk.read other :=
  FileStore.read_replace_ne different _

end Server

end DistributedFilesystem
