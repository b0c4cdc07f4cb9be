import DistributedFilesystem.RemoteCalls

/-!
# The operations of a client

Each public function of the client that works on a file, run from its start to
its return with nothing in between.  A result pairs the next state with the
function's return value.

`LocalAnswers` says how the local file system and the clock answer during one
call.  Reading a local file and closing a local stream never lose bytes.
-/

namespace DistributedFilesystem

/-- How the local file system answers the requests of one call. -/
structure LocalAnswers where
  /-- The local clock, in nanoseconds. -/
  now : Int
  /-- `create_directories` succeeds. -/
  directories : Bool
  /-- The file for the download attempt that leaves so many attempts can be
  created. -/
  create : Nat → Bool
  /-- That download runs into a write error after so many bytes. -/
  download : Nat → Option Nat
  /-- The read stream and the write stream of an existing file can be
  opened. -/
  streams : Bool
  /-- `write_file` runs into a write error after so many bytes. -/
  write : Option Nat
  flush : Bool
  /-- `close_file` can open the file again. -/
  reopen : Bool
  stat : Bool
  resize : Bool
  rename : Bool
  /-- There is a local directory at the path, and whether it is empty. -/
  directoryAt : Path → Option Bool

/-- Every local file operation succeeds. -/
def LocalAnswers.success (now : Int) : LocalAnswers where
  now := now
  directories := true
  create _ := true
  download _ := none
  streams := true
  write := none
  flush := true
  reopen := true
  stat := true
  resize := true
  rename := true
  directoryAt _ := none

/-- The retry loops: attempt until the status is OK, at most so many times.
An attempt without a status makes its function return at once. -/
def retry {α : Type*} (attempt : Nat → α → α × Option Status) :
    Nat → Status → α → α × Option Status
  | 0, status, a => (a, some status)
  | left + 1, status, a =>
      if status.isOk then (a, some status)
      else
        match attempt left a with
        | (a, some status) => retry attempt left status a
        | (a, none) => (a, none)

def maxTries : Nat := 3

/-- The status before the first attempt. -/
def Status.initial : Status := ⟨.unknown, "Initial state for retry loop"⟩

namespace Client

variable {σ : Type*} (remote : Remote σ) (answers : LocalAnswers) (path : Path)

/-! ## `open_file` -/

/-- The two streams of a file, if both can be opened. -/
def openStreams (client : Client) : Option FileStreams :=
  match client.disk.node path, answers.streams with
  | some i, true => some ⟨.fresh i, .fresh i⟩
  | _, _ => none

/-- What the attempt writes into the local file. -/
def downloaded (responses : List FileResponse) : Bytes :=
  ((responses.filter fun response => 0 < response.length).map
    FileResponse.content).flatten

/-- The timestamp of the last response, 0 if there is none. -/
def lastTimestamp (responses : List FileResponse) : Int :=
  (responses.getLast?.map FileResponse.timestamp).getD 0

/-- The attributes after a download. -/
def syncDownload (client : Client) (timestamp : Int) : Client :=
  client.updateAttr path fun attr =>
    { size := client.fileSize path attr.size
      atime := timestamp
      mtime := timestamp
      ctime := timestamp }

/-- What a turn of the retry loop of `open_file` does with what it reads: write
the local file, enter it in the cache if the status is OK, and update the
attributes. -/
def storeDownload (left : Nat) (responses : List FileResponse) (status : Status)
    (client : Client) : Client × Option Status :=
  let store (contents : Bytes) : Client :=
    { client with disk := client.disk.replace path [contents] answers.now }
  if answers.create left = false then (client, none)
  else
    match answers.download left with
    | some amount => (store ((downloaded responses).take amount), none)
    | none =>
        let client := store (downloaded responses)
        let timestamp := lastTimestamp responses
        let client :=
          if status.isOk then client.enterCache path ⟨false, timestamp⟩
          else client
        (client.syncDownload path timestamp, some status)

/-- One turn of the retry loop of `open_file`. -/
def downloadAttempt (left : Nat) :
    Client × σ → (Client × σ) × Option Status
  | (client, r) =>
    let (r, responses, status) :=
      remote.openCall r ⟨path, client.clientId, []⟩
    let (client, result) :=
      client.storeDownload answers path left responses status
    ((client, r), result)

/-- The branch of `open_file` for a file that is not in the cache. -/
def openUncached (client : Client) (r : σ) : (Client × σ) × Bool :=
  if answers.directories = false then ((client, r), false)
  else
    match retry (downloadAttempt remote answers path) maxTries .initial
        (client, r) with
    | ((client, r), some status) =>
        if status.isOk then
          match client.openStreams answers path with
          | some streams => ((client.insertOpened path streams, r), true)
          | none => ((client.eraseCache path, r), false)
        else
          (({ client with disk := client.disk.remove path }, r), false)
    | (state, none) => (state, false)

/-- The branch of `open_file` for a file that is in the cache. -/
def openCached (client : Client) : Client × Bool :=
  match client.openedFiles path with
  | some _ => (client, true)
  | none =>
      match client.openStreams answers path with
      | some streams => (client.insertOpened path streams, true)
      | none => (client, false)

/-- `open_file` -/
def openFile (client : Client) (r : σ) : (Client × σ) × Bool :=
  match client.cache path with
  | none => client.openUncached remote answers path r
  | some _ =>
      let (client, opened) := client.openCached answers path
      ((client, r), opened)

/-! ## `read_file` and `write_file` -/

/-- The streams that `read_file` and `write_file` work on, if they get that
far. -/
def usableStreams (client : Client) : Option FileStreams :=
  match client.cache path with
  | none => none
  | some _ =>
      match client.openedFiles path with
      | none => none
      | some streams =>
          if path ∈ client.fileMutexes then some streams else none

/-- `read_file`; the result is the buffer. -/
def readFile (size : Nat) (offset : Int) (client : Client) :
    Client × Option Bytes :=
  let failRead (client : Client) : Client :=
    client.setStreams path fun streams =>
      { streams with readStream := { streams.readStream with failed := true } }
  match client.usableStreams path with
  | none => (client, none)
  | some ⟨stream, _⟩ =>
      -- `seekg` clears the end-of-file bit only.
      if stream.failed ∨ stream.isOpen = false ∨ offset < 0 then
        (failRead client, none)
      else
        let bytes := ((client.disk.nodes stream.node).contents.drop
          offset.toNat).take size
        -- A short read sets the fail bit.
        if bytes.length < size then (failRead client, some bytes)
        else (client, some bytes)

/-- The attributes after a write. -/
def syncWrite (client : Client) : Client :=
  client.updateAttr path fun attr =>
    match client.disk.read path with
    | some contents =>
        { attr with size := contents.length, mtime := answers.now }
    | none => attr

/-- `write_file` -/
def writeFile (data : Bytes) (position : Int) (client : Client) :
    Client × Bool :=
  let setFailed (failed : Bool) (client : Client) : Client :=
    client.setStreams path fun streams =>
      { streams with writeStream := { streams.writeStream with failed := failed } }
  let store (client : Client) (node : Nat) (data : Bytes) : Client :=
    { client with
      disk := client.disk.writeAt node position.toNat data answers.now }
  match client.usableStreams path with
  | none => (client, false)
  | some ⟨_, stream⟩ =>
      if stream.failed ∨ stream.isOpen = false ∨ position < 0 then
        (setFailed false client, false)
      else
        match answers.write with
        | some amount =>
            (setFailed true (store client stream.node (data.take amount)), false)
        | none =>
            let client := (store client stream.node data).markModified path
            (client.syncWrite answers path, true)

/-! ## `create_file` -/

/-- `create_file` up to the entry in the cache, if it gets that far. -/
def beginCreate (client : Client) : Option Client :=
  if (client.cache path).isSome ∨ (client.openedFiles path).isSome then none
  else if answers.directories = false ∨ answers.create 0 = false then none
  else
    let client :=
      { client with disk := client.disk.openTruncated path answers.now }
    some (client.enterCache path ⟨true, 0⟩)

/-- `create_file` from there on.  The three times of the new file are one. -/
def finishCreate (client : Client) : Client × Bool :=
  match client.openStreams answers path with
  | none => (client.eraseCache path, false)
  | some streams =>
      let client := client.insertOpened path streams
      match answers.stat, client.disk.read path with
      | true, some contents =>
          -- `tv_sec`
          let time := (client.disk.modifiedAt path).getD 0 / 1000000000
          let attr : FileAttributes := ⟨contents.length, time, time, time⟩
          ({ client with cachedAttr :=
            Function.update client.cachedAttr path (some attr) }, true)
      | _, _ => (client, false)

/-- `create_file` -/
def createFile (client : Client) : Client × Bool :=
  match client.beginCreate answers path with
  | some client => client.finishCreate answers path
  | none => (client, false)

/-! ## `close_file` -/

/-- The chunk loop of `close_file`: the chunks it writes from the rest of the
file on, with fuel for at most `fuel` turns. -/
def chunkLoop : Nat → Bytes → Bool → List Bytes
  | 0, _, _ => []
  | fuel + 1, rest, sentAtLeastOnce =>
      if rest.length = 0 then
        -- An empty file is sent as one empty chunk.
        if sentAtLeastOnce then [] else [[]]
      else rest.take chunkSize :: chunkLoop fuel (rest.drop chunkSize) true

/-- The requests that `close_file` sends for these contents. -/
def uploadRequests (client : Client) (contents : Bytes) : List FileRequest :=
  (chunkLoop (contents.length + 1) contents false).map fun chunk =>
    ⟨path, client.clientId, chunk⟩

/-- One turn of the retry loop of `close_file`. -/
def uploadAttempt (requests : List FileRequest) (_left : Nat) :
    σ × FileResponse → (σ × FileResponse) × Option Status
  | (r, _) =>
    let (r, response, status) := remote.closeCall r requests
    ((r, response), some status)

/-- The attributes after an upload. -/
def syncUpload (client : Client) (timestamp : Int) : Client :=
  client.updateAttr path fun attr =>
    { attr with
      size := client.fileSize path attr.size
      mtime := timestamp
      ctime := timestamp }

/-- The branch of `close_file` for a modified file up to the call: flush and
close the streams, and read the copy that is to be uploaded. -/
def beginUpload (streams : FileStreams) (client : Client) :
    Client × Option (List FileRequest) :=
  if streams.writeStream.failed ∨ answers.flush = false then
    (client.setStreams path fun streams =>
      { streams with writeStream := { streams.writeStream with failed := true } },
      none)
  else
    let client := client.setStreams path fun streams =>
      ⟨streams.readStream.close, streams.writeStream.close⟩
    match answers.reopen, client.disk.read path with
    | true, some contents => (client, some (client.uploadRequests path contents))
    | _, _ => (client, none)

/-- `close_file` after an upload that succeeded. -/
def finishUpload (timestamp : Int) (client : Client) : Client :=
  ((client.markClean path timestamp).syncUpload path timestamp).eraseOpened path

/-- The branch of `close_file` for a modified file: upload it, and erase its
streams once the upload succeeded. -/
def closeModified (streams : FileStreams) (client : Client) (r : σ) :
    (Client × σ) × Bool :=
  match client.beginUpload answers path streams with
  | (client, none) => ((client, r), false)
  | (client, some requests) =>
      match retry (uploadAttempt remote requests) maxTries .initial
          (r, ⟨[], 0, 0⟩) with
      | ((r, response), some status) =>
          if status.isOk then
            ((client.finishUpload path response.timestamp, r), true)
          else ((client, r), false)
      | ((r, _), none) => ((client, r), false)

/-- `close_file` -/
def closeFile (client : Client) (r : σ) : (Client × σ) × Bool :=
  match client.openedFiles path with
  | none => ((client, r), false)
  | some streams =>
      if path ∉ client.fileMutexes then ((client, r), false)
      else
        match client.cache path with
        | none => ((client.eraseOpened path, r), false)
        | some info =>
            if info.locallyModified then
              client.closeModified remote answers path streams r
            else ((client.eraseOpened path, r), true)

/-! ## The other operations -/

/-- `delete_file` up to the call. -/
def beginDelete (client : Client) : Client :=
  ((client.eraseOpened path).eraseCache path).eraseAttr path

/-- `delete_file` -/
def deleteFile (client : Client) (r : σ) : (Client × σ) × Bool :=
  let client := client.beginDelete path
  let (r, status) := remote.unlinkCall r path client.clientId
  if status.isOk then
    (({ client with disk := client.disk.remove path }, r), true)
  else ((client, r), false)

/-- `get_attributes` -/
def getAttributes (client : Client) (r : σ) :
    (Client × σ) × Option FileAttributes :=
  match client.cachedAttr path with
  | some attr => ((client, r), some attr)
  | none =>
      let (r, attr, status) := remote.getattrCall r path
      if status.isOk then
        (({ client with cachedAttr :=
          Function.update client.cachedAttr path (some attr) }, r), some attr)
      else ((client, r), none)

/-- `truncate_file`, which joins the directory and the name without a
separator. -/
def truncateFile (directory filename : Path) (size : Int) (client : Client) :
    Client × Bool :=
  match client.disk.node (directory ++ filename), answers.resize with
  | some i, true =>
      if size < 0 then (client, false)
      else
        ({ client with disk := client.disk.resize i size.toNat answers.now },
          true)
  | _, _ => (client, false)

end Client

end DistributedFilesystem
