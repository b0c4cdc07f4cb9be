import DistributedFilesystem.LockedThreads
import DistributedFilesystem.ClientRename
import DistributedFilesystem.ClientEffects

/-!
# The calls of a client as threads

Any number of calls of one client run at the same time as its subscriber
thread.  Each is a list of instructions in the order of its source: lock and
unlock requests, and actions that run without interruption.  An action that
contains a branch or a loop turn is the last instruction of its thread and
puts the instructions of the branch in its place.

`cache_mutex` protects the maps.  The mutex of a file is an object of its own,
which `file_mutexes` refers to; a call keeps the object it found there even
when the map refers to another one later.  A call also keeps an iterator or
pointers into `opened_files` while it waits for the mutex of the file, and the
entry can be gone when it goes on.  The standard then promises nothing; here
such a call changes nothing, its outcome is left to the scheduler, and the
state records that it happened.
-/

namespace DistributedFilesystem

open LockedThreads

/-- The mutexes of a client. -/
inductive ClientLock where
  | cacheMutex
  | fileMutex (mutex : Nat)
deriving DecidableEq

/-- The variables that the calls of a client share, and what it is connected
to.  `written` records what `write_file` wrote into local files: the file, the
position and the bytes. -/
structure SharedClient (σ : Type*) where
  client : Client
  remote : σ
  /-- The mutex that `file_mutexes` refers to, for its keys. -/
  mutexOf : Path → Nat
  unusedMutex : Nat
  /-- How often the entry of `opened_files` was erased or moved away. -/
  entryOf : Path → Nat
  /-- How often its streams were, or were replaced. -/
  streamsOf : Path → Nat
  /-- A call went on with streams that were gone. -/
  stale : Bool
  written : List (Nat × Nat × Bytes)

/-- The local variables of a call, and what it returned. -/
structure CallLocals where
  /-- The iterator into `opened_files`. -/
  entry : Nat
  /-- The pointers to the streams. -/
  streams : Nat
  newStreams : Option FileStreams
  needsFlush : Bool
  node : Nat
  timestamp : Int
  attr : FileAttributes
  buffer : Bytes
  /-- The number of its record, for a write that succeeded. -/
  wrote : Option Nat
  /-- For `get_attributes`: whether it returned attributes. -/
  returned : Option Bool

def CallLocals.start : CallLocals :=
  ⟨0, 0, none, false, 0, 0, ⟨0, 0, 0, 0⟩, [], none, none⟩

/-- The actions of the calls. -/
inductive CallAction where
  -- get_attributes
  | findAttr (path : Path)
  | getattr (path : Path)
  | storeAttr (path : Path)
  -- open_file
  | findCached (path : Path)
  | makeDirectories (path : Path)
  | download (path : Path) (left : Nat)
  | enterDownload (path : Path)
  | syncDownload (path : Path)
  | removePartial (path : Path)
  | openDownloaded (path : Path)
  | eraseCache (path : Path)
  | openExisting (path : Path)
  | insertOpened (path : Path)
  -- read_file and write_file
  | findRead (path : Path) (size : Nat) (offset : Int)
  | readStream (path : Path) (size : Nat) (offset : Int) (mutex : Nat)
  | findWrite (path : Path) (data : Bytes) (position : Int)
  | writeStream (path : Path) (data : Bytes) (position : Int) (mutex : Nat)
  | markModified (path : Path)
  | syncWrite (path : Path)
  -- create_file
  | findCreated (path : Path)
  | createLocal (path : Path)
  | enterCreated (path : Path)
  | openCreated (path : Path)
  | insertCreated (path : Path)
  | statCreated (path : Path)
  -- close_file
  | decideFlush (path : Path)
  | flushStreams (path : Path) (mutex : Nat)
  | upload (path : Path) (left : Nat) (mutex : Nat)
  | finishUpload (path : Path)
  | eraseOpened (path : Path)
  -- rename_file
  | moveLocal (oldPath newPath : Path)
  | updateKeys (oldPath newPath : Path)
  | renameOnServer (oldPath newPath : Path)
  -- delete_file
  | findMutex (path : Path)
  | eraseEntries (path : Path)
  | unlinkOnServer (path : Path)
  -- truncate_file
  | truncate (directory filename : Path) (size : Int)
  -- RunSubscriber
  | readNote
  | processNote (note : Notification)

/-- What the environment decides at a step: the answers of the local file
system, and the notification that the subscriber reads, if its stream goes
on. -/
structure CallChoice where
  answers : LocalAnswers
  note : Option Notification

abbrev CallCode := List (Instr ClientLock CallAction)

/-- One action under `cache_mutex`. -/
def underCacheMutex (action : CallAction) : CallCode :=
  [.lock .cacheMutex, .act action, .unlock .cacheMutex]

namespace Client

/-- `read_file` once it holds the mutex of the file. -/
def readStream (path : Path) (size : Nat) (offset : Int) (client : Client) :
    Client × Option Bytes :=
  let failRead (client : Client) : Client :=
    client.setStreams path fun streams =>
      { streams with readStream := { streams.readStream with failed := true } }
  match client.openedFiles path with
  | none => (client, none)
  | some ⟨stream, _⟩ =>
      if stream.failed ∨ stream.isOpen = false ∨ offset < 0 then
        (failRead client, none)
      else
        let bytes := ((client.disk.nodes stream.node).contents.drop
          offset.toNat).take size
        if bytes.length < size then (failRead client, some bytes)
        else (client, some bytes)

/-- `write_file` once it holds the mutex of the file, up to the mark in the
cache.  With the client it gives what was written, if anything was, and whether
all of it was. -/
def writeStream (answers : LocalAnswers) (path : Path) (data : Bytes)
    (position : Int) (client : Client) :
    Client × Option (Nat × Nat × Bytes) × Bool :=
  let setFailed (failed : Bool) (client : Client) : Client :=
    client.setStreams path fun streams =>
      { streams with writeStream := { streams.writeStream with failed := failed } }
  let store (client : Client) (node : Nat) (data : Bytes) : Client :=
    { client with
      disk := client.disk.writeAt node position.toNat data answers.now }
  match client.openedFiles path with
  | none => (client, none, false)
  | some ⟨_, stream⟩ =>
      if stream.failed ∨ stream.isOpen = false ∨ position < 0 then
        (setFailed false client, none, false)
      else
        match answers.write with
        | some amount =>
            (setFailed true (store client stream.node (data.take amount)),
              some (stream.node, position.toNat, data.take amount), false)
        | none =>
            (store client stream.node data,
              some (stream.node, position.toNat, data), true)

/-- `create_file` writes these attributes of the new file. -/
def statCopy (client : Client) (path : Path) : Option FileAttributes :=
  (client.disk.read path).map fun contents =>
    -- `tv_sec`
    let time := (client.disk.modifiedAt path).getD 0 / 1000000000
    ⟨contents.length, time, time, time⟩

/-- What `rename_file` does with local files, if it gets past them. -/
def moveLocal (answers : LocalAnswers) (oldPath newPath : Path)
    (client : Client) : Client × Bool :=
  if answers.directoryAt newPath = some false then (client, false)
  else
    let client := { client with disk := client.disk.remove newPath }
    let isLocal := (client.disk.node oldPath).isSome ∨
      (answers.directoryAt oldPath).isSome
    if isLocal ∧ answers.rename = false then (client, false)
    else if isLocal then
      ({ client with disk := moveTree client.disk oldPath newPath }, true)
    else (client, true)

/-- What `rename_file` does with the maps, for paths neither of which is nested
in the other. -/
def updateKeys (oldPath newPath : Path) (client : Client) : Client :=
  { client with
    cache := updateMapKeys oldPath newPath client.cache
    openedFiles := updateMapKeys oldPath newPath client.openedFiles
    cachedAttr := updateMapKeys oldPath newPath client.cachedAttr }

section Sections

variable {client : Client} {path : Path}

/-- `read_file` is its lookup followed by what it does under the mutex. -/
theorem readFile_eq_readStream (size : Nat) (offset : Int) :
    client.readFile path size offset =
      if (client.usableStreams path).isSome then
        client.readStream path size offset
      else (client, none) := by
  cases usable : client.usableStreams path with
  | none => simp [readFile, usable]
  | some streams =>
      obtain ⟨-, opened, -⟩ := usableStreams_eq_some.mp usable
      simp [readFile, readStream, usable, opened]

/-- `write_file` is its lookup, what it does under the mutex, and the mark. -/
theorem writeFile_eq_writeStream (answers : LocalAnswers) (data : Bytes)
    (position : Int) :
    client.writeFile answers path data position =
      if (client.usableStreams path).isSome then
        let result := client.writeStream answers path data position
        if result.2.2 then
          ((result.1.markModified path).syncWrite answers path, true)
        else (result.1, false)
      else (client, false) := by
  cases usable : client.usableStreams path with
  | none => simp [writeFile, usable]
  | some streams =>
      obtain ⟨-, opened, -⟩ := usableStreams_eq_some.mp usable
      simp only [writeFile, writeStream, usable, opened, Option.isSome_some,
        if_true]
      split
      · rfl
      · cases answers.write <;> rfl

/-- `rename_file` is what it does with local files, with the maps, and its
call. -/
theorem renameFile_eq_moveLocal {σ : Type*} (remote : Remote σ)
    (answers : LocalAnswers) (oldPath newPath : Path) (r : σ) :
    client.renameFile remote answers oldPath newPath r =
      let moved := client.moveLocal answers oldPath newPath
      if moved.2 then
        (remote.renameCall r oldPath newPath client.clientId).map fun answer =>
          ((moved.1.updateKeys oldPath newPath, answer.1),
            answer.2.isOk || answer.2.code == .notFound)
      else some ((moved.1, r), false) := by
  unfold renameFile moveLocal
  split
  · rfl
  dsimp only
  split
  · rfl
  split <;> rfl

end Sections

end Client

namespace SharedClient

variable {σ : Type*}

/-- A client that was just launched. -/
def launch (clientId : ClientId) (remote : σ) : SharedClient σ where
  client := .launch clientId
  remote := remote
  mutexOf _ := 0
  unusedMutex := 0
  entryOf _ := 0
  streamsOf _ := 0
  stale := false
  written := []

/-- `opened_files[path] = ...`, and a new mutex if the path has none. -/
def insertOpened (s : SharedClient σ) (path : Path) (streams : FileStreams) :
    SharedClient σ :=
  { s with
    client := s.client.insertOpened path streams
    mutexOf :=
      if path ∈ s.client.fileMutexes then s.mutexOf
      else Function.update s.mutexOf path s.unusedMutex
    unusedMutex := s.unusedMutex + 1
    streamsOf := Function.update s.streamsOf path (s.streamsOf path + 1) }

/-- `create_file` replaces a mutex that the path has. -/
def insertCreated (s : SharedClient σ) (path : Path) (streams : FileStreams) :
    SharedClient σ :=
  { s with
    client := s.client.insertOpened path streams
    mutexOf := Function.update s.mutexOf path s.unusedMutex
    unusedMutex := s.unusedMutex + 1
    streamsOf := Function.update s.streamsOf path (s.streamsOf path + 1) }

/-- The state after a change of the client that erases the entry of
`opened_files`. -/
def erasing (s : SharedClient σ) (path : Path) (client : Client) :
    SharedClient σ :=
  { s with
    client := client
    entryOf := Function.update s.entryOf path (s.entryOf path + 1)
    streamsOf := Function.update s.streamsOf path (s.streamsOf path + 1) }

/-- `update_map_keys` moves the entries below the old path, and may replace
those below the new one. -/
def updateKeys (s : SharedClient σ) (oldPath newPath : Path) :
    SharedClient σ :=
  { s with
    client := s.client.updateKeys oldPath newPath
    entryOf := fun path =>
      if (suffixBelow oldPath path).isSome then s.entryOf path + 1
      else s.entryOf path
    streamsOf := fun path =>
      if (suffixBelow oldPath path).isSome ∨ (suffixBelow newPath path).isSome
      then s.streamsOf path + 1
      else s.streamsOf path }

end SharedClient

section Exec

variable {σ : Type*} (remote : Remote σ)

/-- What `close_file` does while it holds the mutex of the file, up to the
call: with streams that are not gone, flush and close them and open the local
copy. -/
def flushStreams (s : SharedClient σ) (answers : LocalAnswers) (path : Path)
    (valid : Bool) : SharedClient σ × Option Nat :=
  if valid then
    match s.client.openedFiles path with
    | none => (s, none)
    | some streams =>
        match s.client.beginUpload answers path streams with
        | (client, some _) => ({ s with client := client }, client.disk.node path)
        | (client, none) => ({ s with client := client }, none)
  else
    ({ s with stale := true },
      if answers.flush ∧ answers.reopen then s.client.disk.node path else none)

/-- What `write_file` does while it holds the mutex of the file, up to the
mark. -/
def writeStreams (s : SharedClient σ) (answers : LocalAnswers) (path : Path)
    (data : Bytes) (position : Int) (valid : Bool) : SharedClient σ × Bool :=
  if valid then
    let (client, change, wrote) :=
      s.client.writeStream answers path data position
    ({ s with client := client, written := s.written ++ change.toList }, wrote)
  else ({ s with stale := true }, answers.write.isNone)

/-- Run one action. -/
def execCall : Exec ClientLock CallAction CallChoice (SharedClient σ) CallLocals :=
  fun action choice s t rest =>
  let client := s.client
  let answers := choice.answers
  let returns (result : Bool) : CallLocals := { t with returned := some result }
  let updated (client : Client) : SharedClient σ := { s with client := client }
  match action with
  | .findAttr path =>
      match client.cachedAttr path with
      | some attr =>
          some (s, { t with attr := attr, returned := some true },
            [.unlock .cacheMutex])
      | none => some (s, t, [.unlock .cacheMutex, .act (.getattr path)])
  | .getattr path =>
      let (r, attr, status) := remote.getattrCall s.remote path
      let s := { s with remote := r }
      if status.isOk then
        some (s, { t with attr := attr, returned := some true },
          underCacheMutex (.storeAttr path))
      else some (s, returns false, [])
  | .storeAttr path =>
      some (updated { client with
        cachedAttr := Function.update client.cachedAttr path (some t.attr) },
        t, rest)
  | .findCached path =>
      match client.cache path, client.openedFiles path with
      | none, _ => some (s, t, [.unlock .cacheMutex, .act (.makeDirectories path)])
      | some _, some _ => some (s, returns true, [.unlock .cacheMutex])
      | some _, none =>
          some (s, t, [.unlock .cacheMutex, .act (.openExisting path)])
  | .makeDirectories path =>
      if answers.directories then
        some (s, t, [.act (.download path (maxTries - 1))])
      else some (s, returns false, [])
  | .download path left =>
      let (r, responses, status) :=
        remote.openCall s.remote ⟨path, client.clientId, []⟩
      let store (contents : Bytes) : SharedClient σ :=
        { s with
          client := { client with
            disk := client.disk.replace path [contents] answers.now }
          remote := r }
      if answers.create left = false then
        some ({ s with remote := r }, returns false, [])
      else
        match answers.download left with
        | some amount =>
            some (store ((Client.downloaded responses).take amount),
              returns false, [])
        | none =>
            some (store (Client.downloaded responses),
              { t with timestamp := Client.lastTimestamp responses },
              if status.isOk then
                underCacheMutex (.enterDownload path) ++
                  underCacheMutex (.syncDownload path) ++
                    [.act (.openDownloaded path)]
              else
                match left with
                | left + 1 => underCacheMutex (.syncDownload path) ++
                    [.act (.download path left)]
                | 0 => underCacheMutex (.syncDownload path) ++
                    [.act (.removePartial path)])
  | .enterDownload path =>
      some (updated (client.enterCache path ⟨false, t.timestamp⟩), t, rest)
  | .syncDownload path =>
      some (updated (client.syncDownload path t.timestamp), t, rest)
  | .removePartial path =>
      some (updated { client with disk := client.disk.remove path },
        returns false, [])
  | .openDownloaded path =>
      match client.openStreams answers path with
      | some streams =>
          some (s, { t with newStreams := some streams, returned := some true },
            underCacheMutex (.insertOpened path))
      | none => some (s, returns false, underCacheMutex (.eraseCache path))
  | .eraseCache path => some (updated (client.eraseCache path), t, rest)
  | .openExisting path =>
      match client.openStreams answers path with
      | some streams =>
          some (s, { t with newStreams := some streams, returned := some true },
            underCacheMutex (.insertOpened path))
      | none => some (s, returns false, [])
  | .insertOpened path =>
      match t.newStreams with
      | some streams => some (s.insertOpened path streams, t, rest)
      | none => some (s, t, rest)
  | .findRead path size offset =>
      match client.usableStreams path with
      | some _ =>
          some (s, { t with entry := s.entryOf path },
            [.unlock .cacheMutex, .lock (.fileMutex (s.mutexOf path)),
              .act (.readStream path size offset (s.mutexOf path))])
      | none => some (s, returns false, [.unlock .cacheMutex])
  | .readStream path size offset mutex =>
      if s.entryOf path = t.entry then
        let (client, bytes) := client.readStream path size offset
        some (updated client, { t with
          buffer := bytes.getD [], returned := some bytes.isSome },
          [.unlock (.fileMutex mutex)])
      else
        some ({ s with stale := true }, returns answers.write.isNone,
          [.unlock (.fileMutex mutex)])
  | .findWrite path data position =>
      match client.usableStreams path with
      | some _ =>
          some (s, { t with entry := s.entryOf path },
            [.unlock .cacheMutex, .lock (.fileMutex (s.mutexOf path)),
              .act (.writeStream path data position (s.mutexOf path))])
      | none => some (s, returns false, [.unlock .cacheMutex])
  | .writeStream path data position mutex =>
      let valid := decide (s.entryOf path = t.entry)
      match writeStreams s answers path data position valid with
      | (s', true) =>
          some (s', { t with wrote := some s.written.length },
            underCacheMutex (.markModified path) ++
              underCacheMutex (.syncWrite path) ++ [.unlock (.fileMutex mutex)])
      | (s', false) => some (s', returns false, [.unlock (.fileMutex mutex)])
  | .markModified path => some (updated (client.markModified path), t, rest)
  | .syncWrite path =>
      some (updated (client.syncWrite answers path), returns true, rest)
  | .findCreated path =>
      if (client.cache path).isSome ∨ (client.openedFiles path).isSome then
        some (s, returns false, [.unlock .cacheMutex])
      else some (s, t, [.unlock .cacheMutex, .act (.createLocal path)])
  | .createLocal path =>
      if answers.directories = false ∨ answers.create 0 = false then
        some (s, returns false, [])
      else
        some (updated { client with
            disk := client.disk.openTruncated path answers.now }, t,
          underCacheMutex (.enterCreated path) ++ [.act (.openCreated path)])
  | .enterCreated path =>
      some (updated (client.enterCache path ⟨true, 0⟩), t, rest)
  | .openCreated path =>
      match client.openStreams answers path with
      | some streams =>
          some (s, { t with newStreams := some streams },
            underCacheMutex (.insertCreated path) ++ [.act (.statCreated path)])
      | none => some (s, returns false, underCacheMutex (.eraseCache path))
  | .insertCreated path =>
      match t.newStreams with
      | some streams => some (s.insertCreated path streams, t, rest)
      | none => some (s, t, rest)
  | .statCreated path =>
      match answers.stat, client.statCopy path with
      | true, some attr =>
          some (s, { t with attr := attr, returned := some true },
            underCacheMutex (.storeAttr path))
      | _, _ => some (s, returns false, [])
  | .decideFlush path =>
      match client.openedFiles path with
      | none => some (s, returns false, [.unlock .cacheMutex])
      | some _ =>
          if path ∉ client.fileMutexes then
            some (s, returns false, [.unlock .cacheMutex])
          else
            match client.cache path with
            | none =>
                some (s.erasing path (client.eraseOpened path), returns false,
                  [.unlock .cacheMutex])
            | some info =>
                some (s, { t with
                  needsFlush := info.locallyModified
                  streams := s.streamsOf path },
                  [.unlock .cacheMutex, .lock (.fileMutex (s.mutexOf path)),
                    .act (.flushStreams path (s.mutexOf path))])
  | .flushStreams path mutex =>
      if t.needsFlush then
        let valid := decide (s.streamsOf path = t.streams)
        match flushStreams s answers path valid with
        | (s, some node) =>
            some (s, { t with node := node },
              [.act (.upload path (maxTries - 1) mutex)])
        | (s, none) => some (s, returns false, [.unlock (.fileMutex mutex)])
      else
        some (s, t, [.lock .cacheMutex, .act (.eraseOpened path),
          .unlock (.fileMutex mutex), .unlock .cacheMutex])
  | .upload path left mutex =>
      let contents := (client.disk.nodes t.node).contents
      let (r, response, status) :=
        remote.closeCall s.remote (client.uploadRequests path contents)
      let s := { s with remote := r }
      if status.isOk then
        some (s, { t with timestamp := response.timestamp },
          [.lock .cacheMutex, .act (.finishUpload path),
            .unlock (.fileMutex mutex), .unlock .cacheMutex])
      else
        match left with
        | left + 1 => some (s, t, [.act (.upload path left mutex)])
        | 0 => some (s, returns false, [.unlock (.fileMutex mutex)])
  | .finishUpload path =>
      some (s.erasing path (client.finishUpload path t.timestamp),
        returns true, rest)
  | .eraseOpened path =>
      some (s.erasing path (client.eraseOpened path), returns true, rest)
  | .moveLocal oldPath newPath =>
      match client.moveLocal answers oldPath newPath with
      | (client, true) =>
          some (updated client, t, underCacheMutex (.updateKeys oldPath newPath) ++
            [.act (.renameOnServer oldPath newPath)])
      | (client, false) => some (updated client, returns false, [])
  | .updateKeys oldPath newPath => some (s.updateKeys oldPath newPath, t, rest)
  | .renameOnServer oldPath newPath =>
      (remote.renameCall s.remote oldPath newPath client.clientId).map
        fun answer =>
          ({ s with remote := answer.1 },
            returns (answer.2.isOk || answer.2.code == .notFound), [])
  | .findMutex path =>
      if path ∈ client.fileMutexes then
        some (s, t, [.unlock .cacheMutex, .lock (.fileMutex (s.mutexOf path)),
          .lock .cacheMutex, .unlock (.fileMutex (s.mutexOf path)),
          .act (.eraseEntries path), .unlock .cacheMutex,
          .act (.unlinkOnServer path)])
      else
        some (s, t, [.act (.eraseEntries path), .unlock .cacheMutex,
          .act (.unlinkOnServer path)])
  | .eraseEntries path => some (s.erasing path (client.beginDelete path), t, rest)
  | .unlinkOnServer path =>
      let (r, status) := remote.unlinkCall s.remote path client.clientId
      let s := { s with remote := r }
      if status.isOk then
        some ({ s with client := { client with disk := client.disk.remove path } },
          returns true, [])
      else some (s, returns false, [])
  | .truncate directory filename size =>
      let (client, result) := client.truncateFile answers directory filename size
      some (updated client, returns result, rest)
  | .readNote =>
      match choice.note with
      | some note =>
          some (s, t, underCacheMutex (.processNote note) ++ [.act .readNote])
      | none => some (s, t, [])
  | .processNote note => some (updated (client.processNotification note), t, rest)

end Exec

/-! ## The programs of the calls -/

/-- A thread of a client: a call of one of its functions, or `RunSubscriber`. -/
inductive ClientThread where
  | call (operation : ClientCall)
  | runSubscriber

def ClientCall.program : ClientCall → CallCode
  | .openFile path => [.lock .cacheMutex, .act (.findCached path)]
  | .readFile path size offset =>
      [.lock .cacheMutex, .act (.findRead path size offset)]
  | .writeFile path data position =>
      [.lock .cacheMutex, .act (.findWrite path data position)]
  | .createFile path => [.lock .cacheMutex, .act (.findCreated path)]
  | .closeFile path => [.lock .cacheMutex, .act (.decideFlush path)]
  | .deleteFile path => [.lock .cacheMutex, .act (.findMutex path)]
  | .getAttributes path => [.lock .cacheMutex, .act (.findAttr path)]
  | .truncateFile directory filename size =>
      [.act (.truncate directory filename size)]
  | .renameFile oldPath newPath => [.act (.moveLocal oldPath newPath)]

def ClientThread.program : ClientThread → CallCode
  | .call operation => operation.program
  | .runSubscriber => [.act .readNote]

/-- A client with its threads. -/
abbrev Calls (ι σ : Type*) :=
  State ι ClientLock CallAction (SharedClient σ) CallLocals

/-- All threads at the start of their programs, and no mutex held. -/
def Calls.start {ι σ : Type*} (s : SharedClient σ)
    (threads : ι → ClientThread) : Calls ι σ where
  shared := s
  threads i := ⟨.start, (threads i).program⟩
  owner _ := none

end DistributedFilesystem
