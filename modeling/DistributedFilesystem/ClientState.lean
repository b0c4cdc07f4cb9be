import DistributedFilesystem.ServerHandlers

/-!
# State of a client

A client keeps what it knows of each cached file (`cache`), the streams of the
files it has open (`openedFiles`), a mutex for each of those (`fileMutexes`),
attributes (`cachedAttr`), and the cached copies themselves on its local disk.

The keys of `cached_attr` are server paths; those of the other maps and the
names of the cached copies are the cache directory followed by the server
path.  Here all of them are keyed by the server path.
-/

namespace DistributedFilesystem

/-- What the client knows of a cached file. -/
structure FileInfo where
  locallyModified : Bool
  timestamp : Int
deriving DecidableEq

/-- A `std::ifstream` or a `std::ofstream` on a local file. -/
structure FileStream where
  node : Nat
  isOpen : Bool
  failed : Bool
deriving DecidableEq

/-- A stream that was just opened. -/
def FileStream.fresh (node : Nat) : FileStream := ⟨node, true, false⟩

/-- `stream.close()`: closing a closed stream sets its fail bit. -/
def FileStream.close (stream : FileStream) : FileStream :=
  if stream.isOpen then { stream with isOpen := false }
  else { stream with failed := true }

structure FileStreams where
  readStream : FileStream
  writeStream : FileStream
deriving DecidableEq

/-- The variables of a client and its cache directory. -/
structure Client where
  clientId : ClientId
  cache : Path → Option FileInfo
  openedFiles : Path → Option FileStreams
  fileMutexes : Finset Path
  cachedAttr : Path → Option FileAttributes
  disk : FileStore Path Byte

/-- A client as its constructor leaves it, with an empty cache directory. -/
def Client.launch (clientId : ClientId) : Client where
  clientId := clientId
  cache _ := none
  openedFiles _ := none
  fileMutexes := ∅
  cachedAttr _ := none
  disk := .empty

namespace Client

/-- `std::filesystem::file_size` of the cached copy, or the given size when
there is no copy. -/
def fileSize (client : Client) (path : Path) (otherwise : Int) : Int :=
  ((client.disk.read path).map fun contents => (contents.length : Int)).getD
    otherwise

/-- `opened_files[path] = ...`, and a mutex for the path if it has none. -/
def insertOpened (client : Client) (path : Path) (streams : FileStreams) :
    Client :=
  { client with
    openedFiles := Function.update client.openedFiles path (some streams)
    fileMutexes := insert path client.fileMutexes }

/-- `opened_files.erase(path)` and `file_mutexes.erase(path)` -/
def eraseOpened (client : Client) (path : Path) : Client :=
  { client with
    openedFiles := Function.update client.openedFiles path none
    fileMutexes := client.fileMutexes.erase path }

/-- `cache[path] = file_info` -/
def enterCache (client : Client) (path : Path) (info : FileInfo) : Client :=
  { client with cache := Function.update client.cache path (some info) }

/-- `cache.erase(path)` -/
def eraseCache (client : Client) (path : Path) : Client :=
  { client with cache := Function.update client.cache path none }

/-- Change the entry of `cached_attr` for the path, if there is one. -/
def updateAttr (client : Client) (path : Path)
    (change : FileAttributes → FileAttributes) : Client :=
  { client with
    cachedAttr := Function.update client.cachedAttr path
      ((client.cachedAttr path).map change) }

/-- `cached_attr.erase(path)` -/
def eraseAttr (client : Client) (path : Path) : Client :=
  { client with cachedAttr := Function.update client.cachedAttr path none }

/-- `cache[path].locally_modified = true`, which makes an entry if there is
none. -/
def markModified (client : Client) (path : Path) : Client :=
  client.enterCache path
    { (client.cache path).getD ⟨false, 0⟩ with locallyModified := true }

/-- What an upload changes in the entry of `cache`, if there is one. -/
def markClean (client : Client) (path : Path) (timestamp : Int) : Client :=
  { client with
    cache := Function.update client.cache path
      ((client.cache path).map fun _ => ⟨false, timestamp⟩) }

/-- Replace the streams of an open file. -/
def setStreams (client : Client) (path : Path)
    (change : FileStreams → FileStreams) : Client :=
  { client with
    openedFiles := Function.update client.openedFiles path
      ((client.openedFiles path).map change) }

/-- One turn of the loop of `RunSubscriber`. -/
def processNotification (client : Client) (note : Notification) : Client :=
  match client.openedFiles note.directory with
  | some _ => client
  | none =>
      match client.cache note.directory with
      | some _ =>
          (client.eraseCache note.directory).eraseAttr note.directory
      | none => client

/-- The client's entries and cached copies of all other paths are the same. -/
structure SameElsewhere (path : Path) (client client' : Client) : Prop where
  clientId : client'.clientId = client.clientId
  cache : ∀ other, other ≠ path → client'.cache other = client.cache other
  openedFiles : ∀ other, other ≠ path →
    client'.openedFiles other = client.openedFiles other
  fileMutexes : ∀ other, other ≠ path →
    (other ∈ client'.fileMutexes ↔ other ∈ client.fileMutexes)
  cachedAttr : ∀ other, other ≠ path →
    client'.cachedAttr other = client.cachedAttr other
  node : ∀ other, other ≠ path →
    client'.disk.node other = client.disk.node other
  read : ∀ other, other ≠ path →
    client'.disk.read other = client.disk.read other

namespace SameElsewhere

variable {path : Path} {client client' client'' : Client}

theorem refl (path : Path) (client : Client) :
    SameElsewhere path client client where
  clientId := rfl
  cache _ _ := rfl
  openedFiles _ _ := rfl
  fileMutexes _ _ := Iff.rfl
  cachedAttr _ _ := rfl
  node _ _ := rfl
  read _ _ := rfl

theorem trans (first : SameElsewhere path client client')
    (second : SameElsewhere path client' client'') :
    SameElsewhere path client client'' where
  clientId := second.clientId.trans first.clientId
  cache other apart := (second.cache other apart).trans (first.cache other apart)
  openedFiles other apart :=
    (second.openedFiles other apart).trans (first.openedFiles other apart)
  fileMutexes other apart :=
    (second.fileMutexes other apart).trans (first.fileMutexes other apart)
  cachedAttr other apart :=
    (second.cachedAttr other apart).trans (first.cachedAttr other apart)
  node other apart := (second.node other apart).trans (first.node other apart)
  read other apart := (second.read other apart).trans (first.read other apart)

end SameElsewhere

section Updates

variable {client : Client} {path : Path}

theorem sameElsewhere_insertOpened (streams : FileStreams) :
    SameElsewhere path client (client.insertOpened path streams) := by
  constructor <;> intros <;> simp_all [insertOpened]

theorem sameElsewhere_eraseOpened :
    SameElsewhere path client (client.eraseOpened path) := by
  constructor <;> intros <;> simp_all [eraseOpened]

theorem sameElsewhere_enterCache (info : FileInfo) :
    SameElsewhere path client (client.enterCache path info) := by
  constructor <;> intros <;> simp_all [enterCache]

theorem sameElsewhere_eraseCache :
    SameElsewhere path client (client.eraseCache path) := by
  constructor <;> intros <;> simp_all [eraseCache]

theorem sameElsewhere_updateAttr (change : FileAttributes → FileAttributes) :
    SameElsewhere path client (client.updateAttr path change) := by
  constructor <;> intros <;> simp_all [updateAttr]

theorem sameElsewhere_eraseAttr :
    SameElsewhere path client (client.eraseAttr path) := by
  constructor <;> intros <;> simp_all [eraseAttr]

theorem sameElsewhere_markClean (timestamp : Int) :
    SameElsewhere path client (client.markClean path timestamp) := by
  constructor <;> intros <;> simp_all [markClean]

theorem sameElsewhere_setStreams (change : FileStreams → FileStreams) :
    SameElsewhere path client (client.setStreams path change) := by
  constructor <;> intros <;> simp_all [setStreams]

/-- A change of the local disk that spares the other names spares the other
entries. -/
theorem sameElsewhere_disk {disk : FileStore Path Byte}
    (node : ∀ other, other ≠ path → disk.node other = client.disk.node other)
    (read : ∀ other, other ≠ path → disk.read other = client.disk.read other) :
    SameElsewhere path client { client with disk := disk } where
  clientId := rfl
  cache _ _ := rfl
  openedFiles _ _ := rfl
  fileMutexes _ _ := Iff.rfl
  cachedAttr _ _ := rfl
  node := node
  read := read

theorem sameElsewhere_processNotification (client : Client)
    (note : Notification) :
    SameElsewhere note.directory client (client.processNotification note) := by
  unfold processNotification
  split
  · exact .refl _ _
  · split
    · exact sameElsewhere_eraseCache.trans sameElsewhere_eraseAttr
    · exact .refl _ _

/-- A notification for an open file changes nothing. -/
theorem processNotification_of_open {note : Notification}
    (isOpen : (client.openedFiles note.directory).isSome) :
    client.processNotification note = client := by
  obtain ⟨streams, opened⟩ := Option.isSome_iff_exists.mp isOpen
  simp [processNotification, opened]

/-- A notification for a file that is not cached changes nothing. -/
theorem processNotification_of_uncached {note : Notification}
    (notCached : client.cache note.directory = none) :
    client.processNotification note = client := by
  unfold processNotification
  split
  · rfl
  · simp [notCached]

@[simp]
theorem processNotification_openedFiles (note : Notification) :
    (client.processNotification note).openedFiles = client.openedFiles := by
  unfold processNotification
  split
  · rfl
  · split <;> rfl

@[simp]
theorem processNotification_disk (note : Notification) :
    (client.processNotification note).disk = client.disk := by
  unfold processNotification
  split
  · rfl
  · split <;> rfl

@[simp]
theorem processNotification_fileMutexes (note : Notification) :
    (client.processNotification note).fileMutexes = client.fileMutexes := by
  unfold processNotification
  split
  · rfl
  · split <;> rfl

/-- After a notification for a file that is not open, it is not cached. -/
theorem cache_processNotification_of_closed {note : Notification}
    (closed : client.openedFiles note.directory = none) :
    (client.processNotification note).cache note.directory = none := by
  unfold processNotification
  split
  · next opened => simp [closed] at opened
  · split
    · simp [eraseCache, eraseAttr]
    · next notCached => exact notCached

end Updates

end Client

end DistributedFilesystem
