import DistributedFilesystem.PosixPaths
import Mathlib.Data.Set.Function

/-!
# The keys of a file

Every operation of the client builds the key of the local copy and the path on
the server by itself, from the directory and the name it is called with, and
the server joins the directory and the name of a request once more.  This file
repeats each of these constructions and proves that all of them agree, and that
different paths of the mounted file system have different keys.
-/

namespace DistributedFilesystem

open PosixPaths

/-- The two strings that the keys of a client depend on. -/
structure Mount where
  serverRootPath : String
  cacheDirectory : String

/-- The keys of a file: of its local copy, and of its cached attributes. -/
structure FileKeys where
  fileLocation : String
  fileLocaServer : String
deriving DecidableEq, Repr

section Joins

/-- `path.front() == '/'` -/
def frontIsSlash (path : String) : Bool :=
  path.toList.head? == some '/'

/-- `path.back() == '/'` -/
def backIsSlash (path : String) : Bool :=
  path.toList.getLast? == some '/'

/-- The name after the directory, with one slash between. -/
def joinName (directory filename : String) : String :=
  directory ++ (if backIsSlash directory then "" else "/") ++ filename

/-- The path below the cache directory. -/
def Mount.inCache (mount : Mount) (path : String) : String :=
  mount.cacheDirectory ++ (if frontIsSlash path then "" else "/") ++ path

end Joins

section Client

variable (mount : Mount)

def Mount.resolveServerPath (userPath : String) : String :=
  let root := mount.serverRootPath.toList
  let user := userPath.toList
  let user := if isAbsolute '/' user then relativePath '/' user else user
  String.ofList (genericString '/' (append '/' root user))

/-- `read_file`, `write_file`, `create_file` and `close_file` decide about the
second slash by the last character of the resolved path. -/
def Mount.locate (filename directory : String) : String :=
  let resolvedPath := mount.resolveServerPath directory
  mount.cacheDirectory ++ (if frontIsSlash resolvedPath then "" else "/") ++
    resolvedPath ++ (if backIsSlash resolvedPath then "" else "/") ++ filename

def Mount.locateOnServer (filename directory : String) : String :=
  joinName (mount.resolveServerPath directory) filename

def Mount.getAttributesKey (filename path : String) : String :=
  mount.locateOnServer filename path

/-- `open_file` decides about the second slash by the last character of the
local directory. -/
def Mount.openFileKeys (filename path : String) : FileKeys :=
  let resolvedPath := mount.resolveServerPath path
  let cacheDir := mount.inCache resolvedPath
  { fileLocation := joinName cacheDir filename
    fileLocaServer := mount.locateOnServer filename path }

def Mount.readFileLocation (filename directory : String) : String :=
  mount.locate filename directory

def Mount.writeFileKeys (filename directory : String) : FileKeys :=
  { fileLocation := mount.locate filename directory
    fileLocaServer := mount.locateOnServer filename directory }

def Mount.createFileKeys (filename path : String) : FileKeys :=
  { fileLocation := mount.locate filename path
    fileLocaServer := mount.locateOnServer filename path }

def Mount.closeFileKeys (filename directory : String) : FileKeys :=
  { fileLocation := mount.locate filename directory
    fileLocaServer := mount.locateOnServer filename directory }

/-- The keys that `rename_file` moves entries from and to. -/
structure RenameKeys where
  source : FileKeys
  target : FileKeys

def Mount.renameFileKeys (fromName toName oldPath newPath : String) :
    RenameKeys :=
  let resolvedPath := mount.resolveServerPath oldPath
  let resolvedPathNew := mount.resolveServerPath newPath
  let baseDir := mount.cacheDirectory ++
    (if frontIsSlash resolvedPath then "" else "/") ++ resolvedPath ++
    (if backIsSlash resolvedPath then "" else "/")
  let baseDirNew := mount.cacheDirectory ++
    (if frontIsSlash resolvedPathNew then "" else "/") ++ resolvedPathNew ++
    (if backIsSlash resolvedPathNew then "" else "/")
  { source :=
      { fileLocation := baseDir ++ fromName
        fileLocaServer := joinName resolvedPath fromName }
    target :=
      { fileLocation := baseDirNew ++ toName
        fileLocaServer := joinName resolvedPathNew toName } }

/-- `delete_file` resolves the whole path, and removes a trailing slash from
the local key only. -/
def Mount.deleteFileKeys (directory : String) : FileKeys :=
  let resolvedPath := mount.resolveServerPath directory
  let cachePath := mount.inCache resolvedPath
  { fileLocation :=
      if backIsSlash cachePath then String.ofList cachePath.toList.dropLast
      else cachePath
    fileLocaServer := resolvedPath }

/-- The local key that `RunSubscriber` derives from `note.directory()`. -/
def Mount.pathOnClient (pathOnServer : String) : String :=
  mount.inCache pathOnServer

end Client

section Requests

/-- The directory and the name in a `GetAttrRequest` or a `FileRequest`. -/
structure NameRequest where
  directory : String
  filename : String

structure RenameRequest where
  directory : String
  newDirectory : String
  filename : String
  newFilename : String

structure DeleteRequest where
  directory : String

variable (mount : Mount)

def Mount.getAttrRequest (filename path : String) : NameRequest :=
  { directory := mount.resolveServerPath path, filename := filename }

def Mount.openRequest (filename path : String) : NameRequest :=
  { directory := mount.resolveServerPath path, filename := filename }

def Mount.closeRequest (filename directory : String) : NameRequest :=
  { directory := mount.resolveServerPath directory, filename := filename }

def Mount.renameRequest (fromName toName oldPath newPath : String) :
    RenameRequest :=
  { directory := mount.resolveServerPath oldPath
    newDirectory := mount.resolveServerPath newPath
    filename := fromName
    newFilename := toName }

def Mount.deleteRequest (directory : String) : DeleteRequest :=
  { directory := mount.resolveServerPath directory }

/-- The path that `getattr`, `open` and `close` of the server work on. -/
def NameRequest.path (request : NameRequest) : String :=
  joinName request.directory request.filename

def RenameRequest.oldPath (request : RenameRequest) : String :=
  joinName request.directory request.filename

def RenameRequest.newPath (request : RenameRequest) : String :=
  joinName request.newDirectory request.newFilename

def DeleteRequest.path (request : DeleteRequest) : String :=
  request.directory

end Requests

section Callbacks

/-- The name that the callbacks split from a path. -/
def callbackFilename (path : String) : String :=
  String.ofList (filename '/' path.toList)

/-- The directory that `afs_open`, `afs_read` and `afs_write` pass on. -/
def callbackDirectory (path : String) : String :=
  String.ofList (parentPath '/' path.toList)

/-- `afs_release`, `afs_create`, `afs_getattr` and `afs_rename` replace the root
by the empty string. -/
def callbackDirectoryOrEmpty (path : String) : String :=
  if callbackDirectory path = "" ∨ callbackDirectory path = "/" then ""
  else callbackDirectory path

/-- A name other than those of the directory itself and of its parent. -/
structure IsEntryName (name : List Char) : Prop extends IsName '/' name where
  notSelf : name ≠ ['.']
  notParent : name ≠ ['.', '.']

/-- A normalised absolute path with at least one name. -/
def IsNormalized (path : String) : Prop :=
  ∃ names : List (List Char), names ≠ [] ∧
    (∀ name ∈ names, IsEntryName name) ∧
      path.toList = absolutePath '/' names

/-- The operations called with this directory and name agree with those called
with the whole path. -/
structure KeysAgree (mount : Mount) (path directory filename : String) :
    Prop where
  getAttributes : mount.getAttributesKey filename directory =
    (mount.deleteFileKeys path).fileLocaServer
  openFile : mount.openFileKeys filename directory = mount.deleteFileKeys path
  readFile : mount.readFileLocation filename directory =
    (mount.deleteFileKeys path).fileLocation
  writeFile : mount.writeFileKeys filename directory =
    mount.deleteFileKeys path
  createFile : mount.createFileKeys filename directory =
    mount.deleteFileKeys path
  closeFile : mount.closeFileKeys filename directory =
    mount.deleteFileKeys path
  renameSource : ∀ toName newPath,
    (mount.renameFileKeys filename toName directory newPath).source =
      mount.deleteFileKeys path
  renameTarget : ∀ fromName oldPath,
    (mount.renameFileKeys fromName filename oldPath directory).target =
      mount.deleteFileKeys path
  serverGetattr : (mount.getAttrRequest filename directory).path =
    (mount.deleteFileKeys path).fileLocaServer
  serverOpen : (mount.openRequest filename directory).path =
    (mount.deleteFileKeys path).fileLocaServer
  serverClose : (mount.closeRequest filename directory).path =
    (mount.deleteFileKeys path).fileLocaServer
  serverRenameSource : ∀ toName newPath,
    (mount.renameRequest filename toName directory newPath).oldPath =
      (mount.deleteFileKeys path).fileLocaServer
  serverRenameTarget : ∀ fromName oldPath,
    (mount.renameRequest fromName filename oldPath directory).newPath =
      (mount.deleteFileKeys path).fileLocaServer
  serverUnlink : (mount.deleteRequest path).path =
    (mount.deleteFileKeys path).fileLocaServer
  subscriber : mount.pathOnClient (mount.deleteFileKeys path).fileLocaServer =
    (mount.deleteFileKeys path).fileLocation

end Callbacks

variable {mount : Mount} {path directory filename userPath : String}

section Resolving

/-- The root of the server's files, as a directory in the generic format. -/
def Mount.base (mount : Mount) : List Char :=
  genericString '/' (asDirectory '/' mount.serverRootPath.toList)

theorem Mount.getLast?_base (nonempty : mount.serverRootPath ≠ "") :
    mount.base.getLast? = some '/' := by
  have rootNonempty : mount.serverRootPath.toList ≠ [] := by
    simpa using nonempty
  rw [base, getLast?_genericString]
  exact getLast?_asDirectory rootNonempty

theorem Mount.base_ne_nil (nonempty : mount.serverRootPath ≠ "") :
    mount.base ≠ [] := by
  intro empty
  have isLast := getLast?_base nonempty
  rw [empty] at isLast
  simp at isLast

/-- The root directory, written either way, is resolved to the base. -/
theorem Mount.toList_resolveServerPath_root (mount : Mount)
    (isRoot : userPath = "" ∨ userPath = "/") :
    (mount.resolveServerPath userPath).toList = mount.base := by
  have relative : (if isAbsolute '/' userPath.toList then
      relativePath '/' userPath.toList else userPath.toList) = [] := by
    obtain rfl | rfl := isRoot <;> decide
  rw [resolveServerPath, String.toList_ofList]
  simp only [relative]
  rw [append_of_relative (by rfl), List.append_nil, base]

theorem Mount.toList_resolveServerPath (mount : Mount) {name : List Char}
    {names : List (List Char)}
    (areNames : ∀ other ∈ name :: names, IsName '/' other)
    (isPath : userPath.toList = absolutePath '/' (name :: names)) :
    (mount.resolveServerPath userPath).toList =
      mount.base ++ (name ++ absolutePath '/' names) := by
  have isName := areNames name List.mem_cons_self
  have later : ∀ other ∈ names, IsName '/' other := by
    intro other member
    exact areNames other (List.mem_cons_of_mem _ member)
  have notSeparator : (name ++ absolutePath '/' names).head? ≠ some '/' := by
    rw [List.head?_append_of_ne_nil _ isName.nonempty]
    exact isName.head?_ne
  have relative : (if isAbsolute '/' userPath.toList then
      relativePath '/' userPath.toList else userPath.toList) =
        name ++ absolutePath '/' names := by
    rw [isPath, if_pos (isAbsolute_absolutePath (List.cons_ne_nil _ _)),
      relativePath_absolutePath_cons isName]
  rw [resolveServerPath, String.toList_ofList]
  simp only [relative]
  rw [append_of_relative (by simpa [isAbsolute] using notSeparator),
    genericString_append notSeparator,
    genericString_append_of_name isName.noSeparator,
    genericString_absolutePath later, base]

theorem Mount.resolveServerPath_ne_empty
    (rootNonempty : mount.serverRootPath ≠ "") (userPath : String) :
    mount.resolveServerPath userPath ≠ "" := by
  intro isEmpty
  have noCharacters := congrArg String.toList isEmpty
  rw [resolveServerPath, String.toList_ofList] at noCharacters
  apply genericString_ne_nil _ noCharacters
  apply append_ne_nil
  simpa using rootNonempty

/-- What a path that is not the root is resolved to does not end with a
slash. -/
theorem Mount.backIsSlash_resolveServerPath {names : List (List Char)}
    (nonempty : names ≠ []) (areNames : ∀ other ∈ names, IsName '/' other)
    (isPath : userPath.toList = absolutePath '/' names) :
    backIsSlash (mount.resolveServerPath userPath) = false := by
  obtain ⟨name, rest, rfl⟩ := List.exists_cons_of_ne_nil nonempty
  have isName := areNames name List.mem_cons_self
  have noSlash := getLast?_name_append_absolutePath_ne areNames
  rw [backIsSlash, toList_resolveServerPath mount areNames isPath,
    List.getLast?_append_of_ne_nil _ (by simp [isName.nonempty])]
  simpa using noSlash

end Resolving

section Directories

theorem backIsSlash_of_append {front back : String} (nonempty : back ≠ "") :
    backIsSlash (front ++ back) = backIsSlash back := by
  have isNonempty : back.toList ≠ [] := by simpa using nonempty
  rw [backIsSlash, String.toList_append,
    List.getLast?_append_of_ne_nil _ isNonempty, backIsSlash]

theorem frontIsSlash_of_append {front back : String} (nonempty : front ≠ "") :
    frontIsSlash (front ++ back) = frontIsSlash front := by
  have isNonempty : front.toList ≠ [] := by simpa using nonempty
  rw [frontIsSlash, String.toList_append,
    List.head?_append_of_ne_nil _ isNonempty, frontIsSlash]

theorem Mount.backIsSlash_inCache (nonempty : path ≠ "") :
    backIsSlash (mount.inCache path) = backIsSlash path := by
  rw [inCache, backIsSlash_of_append nonempty]

/-- Locating a name below a resolved directory is placing the joined path in the
cache. -/
theorem Mount.inCache_joinName (nonempty : directory ≠ "") (filename : String) :
    mount.inCache (joinName directory filename) =
      mount.cacheDirectory ++ (if frontIsSlash directory then "" else "/") ++
        directory ++ (if backIsSlash directory then "" else "/") ++
          filename := by
  have sameFront : frontIsSlash (directory ++
      (if backIsSlash directory then "" else "/") ++ filename) =
        frontIsSlash directory := by
    rw [String.append_assoc, frontIsSlash_of_append nonempty]
  rw [inCache, joinName, sameFront]
  simp only [String.append_assoc]

theorem Mount.joinName_inCache (nonempty : directory ≠ "") (filename : String) :
    joinName (mount.inCache directory) filename =
      mount.inCache (joinName directory filename) := by
  rw [inCache_joinName nonempty, joinName, backIsSlash_inCache nonempty, inCache]

/-- The directory that a callback splits from the path: the parent, or the empty
string in the place of the root. -/
def IsDirectoryOf (path directory : String) : Prop :=
  directory = callbackDirectory path ∨ directory = callbackDirectoryOrEmpty path

theorem toList_of_isDirectoryOf {names : List (List Char)} {name : List Char}
    (areNames : ∀ other ∈ names ++ [name], IsName '/' other)
    (isPath : path.toList = absolutePath '/' (names ++ [name]))
    (isDirectory : IsDirectoryOf path directory) :
    (names = [] ∧ (directory = "" ∨ directory = "/")) ∨
      (names ≠ [] ∧ directory.toList = absolutePath '/' names) := by
  have isName := areNames name (by simp)
  have earlier : ∀ other ∈ names, IsName '/' other := by
    intro other member
    exact areNames other (List.mem_append_left _ member)
  have parent : (callbackDirectory path).toList =
      if names = [] then ['/'] else absolutePath '/' names := by
    rw [callbackDirectory, String.toList_ofList, isPath,
      parentPath_absolutePath earlier isName]
  by_cases atRoot : names = []
  · have isSlash : callbackDirectory path = "/" := by
      apply String.toList_injective
      rw [parent, if_pos atRoot]
      rfl
    have isEmpty : callbackDirectoryOrEmpty path = "" := by
      rw [callbackDirectoryOrEmpty, if_pos (Or.inr isSlash)]
    apply Or.inl
    refine ⟨atRoot, ?_⟩
    cases isDirectory with
    | inl kept => exact Or.inr (kept.trans isSlash)
    | inr replaced => exact Or.inl (replaced.trans isEmpty)
  · rw [if_neg atRoot] at parent
    have notReplaced : callbackDirectoryOrEmpty path = callbackDirectory path := by
      obtain ⟨first, rest, rfl⟩ := List.exists_cons_of_ne_nil atRoot
      have isFirst := earlier first List.mem_cons_self
      rw [callbackDirectoryOrEmpty, if_neg]
      rintro (isEmpty | isSlash)
      · rw [isEmpty, absolutePath_cons] at parent
        simp at parent
      · rw [isSlash, absolutePath_cons] at parent
        simp [isFirst.nonempty] at parent
    apply Or.inr
    refine ⟨atRoot, ?_⟩
    cases isDirectory with
    | inl kept => rw [kept, parent]
    | inr replaced => rw [replaced, notReplaced, parent]

/-- Resolving the directory and appending the name gives what resolving the
whole path gives. -/
theorem Mount.joinName_resolveServerPath (rootNonempty : mount.serverRootPath ≠ "")
    (normalized : IsNormalized path) (isDirectory : IsDirectoryOf path directory) :
    joinName (mount.resolveServerPath directory) (callbackFilename path) =
      mount.resolveServerPath path := by
  obtain ⟨allNames, nonempty, areEntryNames, isPath⟩ := normalized
  obtain ⟨names, name, rfl⟩ :=
    (List.eq_nil_or_concat' allNames).resolve_left nonempty
  have areNames : ∀ other ∈ names ++ [name], IsName '/' other :=
    fun other member => (areEntryNames other member).toIsName
  have isName := areNames name (by simp)
  have isFilename : (callbackFilename path).toList = name := by
    rw [callbackFilename, String.toList_ofList, isPath, filename_absolutePath isName]
  apply String.toList_injective
  cases toList_of_isDirectoryOf areNames isPath isDirectory with
  | inl atRoot =>
      obtain ⟨rfl, isRoot⟩ := atRoot
      have resolved := mount.toList_resolveServerPath_root isRoot
      have isSlash : backIsSlash (mount.resolveServerPath directory) = true := by
        rw [backIsSlash, resolved, getLast?_base rootNonempty]
        rfl
      rw [joinName, if_pos isSlash, toList_resolveServerPath mount areNames isPath]
      simp [resolved, isFilename, absolutePath]
  | inr below =>
      obtain ⟨notRoot, isParent⟩ := below
      obtain ⟨first, rest, rfl⟩ := List.exists_cons_of_ne_nil notRoot
      have earlier : ∀ other ∈ first :: rest, IsName '/' other := by
        intro other member
        exact areNames other (List.mem_append_left _ member)
      have resolved := mount.toList_resolveServerPath earlier isParent
      have noSlash : backIsSlash (mount.resolveServerPath directory) = false :=
        backIsSlash_resolveServerPath notRoot earlier isParent
      rw [joinName, if_neg (by simp [noSlash]),
        toList_resolveServerPath mount areNames isPath]
      simp [resolved, isFilename, absolutePath_append_singleton]

end Directories

section Agreement

/-- The local key of a path is its place in the cache. -/
theorem Mount.deleteFileKeys_of_isNormalized
    (rootNonempty : mount.serverRootPath ≠ "") (normalized : IsNormalized path) :
    mount.deleteFileKeys path =
      { fileLocation := mount.inCache (mount.resolveServerPath path)
        fileLocaServer := mount.resolveServerPath path } := by
  obtain ⟨names, nonempty, areEntryNames, isPath⟩ := normalized
  have areNames : ∀ name ∈ names, IsName '/' name :=
    fun name member => (areEntryNames name member).toIsName
  have noSlash : backIsSlash (mount.inCache (mount.resolveServerPath path)) =
      false := by
    rw [backIsSlash_inCache (resolveServerPath_ne_empty rootNonempty path)]
    exact backIsSlash_resolveServerPath nonempty areNames isPath
  simp [deleteFileKeys, noSlash]

/-- The keys that an operation builds from a directory and a name are those of
the whole path. -/
theorem Mount.keys_of_isDirectoryOf (rootNonempty : mount.serverRootPath ≠ "")
    (normalized : IsNormalized path) (isDirectory : IsDirectoryOf path directory) :
    mount.locateOnServer (callbackFilename path) directory =
        (mount.deleteFileKeys path).fileLocaServer ∧
      mount.locate (callbackFilename path) directory =
        (mount.deleteFileKeys path).fileLocation ∧
      joinName (mount.inCache (mount.resolveServerPath directory))
          (callbackFilename path) =
        (mount.deleteFileKeys path).fileLocation := by
  have joined := joinName_resolveServerPath rootNonempty normalized isDirectory
  have notEmpty := resolveServerPath_ne_empty rootNonempty directory
  rw [deleteFileKeys_of_isNormalized rootNonempty normalized]
  refine ⟨joined, ?_, ?_⟩
  · rw [locate, ← inCache_joinName notEmpty, joined]
  · rw [joinName_inCache notEmpty, joined]

theorem keysAgree (rootNonempty : mount.serverRootPath ≠ "")
    (normalized : IsNormalized path) (isDirectory : IsDirectoryOf path directory) :
    KeysAgree mount path directory (callbackFilename path) := by
  obtain ⟨onServer, inCache, below⟩ :=
    Mount.keys_of_isDirectoryOf rootNonempty normalized isDirectory
  have whole := Mount.deleteFileKeys_of_isNormalized rootNonempty normalized
  constructor
  case getAttributes => exact onServer
  case openFile => exact congrArg₂ FileKeys.mk below onServer
  case readFile => exact inCache
  case writeFile => exact congrArg₂ FileKeys.mk inCache onServer
  case createFile => exact congrArg₂ FileKeys.mk inCache onServer
  case closeFile => exact congrArg₂ FileKeys.mk inCache onServer
  case renameSource =>
    intro toName newPath
    exact congrArg₂ FileKeys.mk inCache onServer
  case renameTarget =>
    intro fromName oldPath
    exact congrArg₂ FileKeys.mk inCache onServer
  case serverGetattr => exact onServer
  case serverOpen => exact onServer
  case serverClose => exact onServer
  case serverRenameSource =>
    intro toName newPath
    exact onServer
  case serverRenameTarget =>
    intro fromName oldPath
    exact onServer
  case serverUnlink => rfl
  case subscriber => rw [whole, Mount.pathOnClient]

/-- The server path begins with the root and ends with the path. -/
theorem Mount.toList_fileLocaServer (mount : Mount)
    (normalized : IsNormalized path) :
    ∃ relative, path.toList = '/' :: relative ∧
      (mount.deleteFileKeys path).fileLocaServer.toList =
        mount.base ++ relative := by
  obtain ⟨names, nonempty, areEntryNames, isPath⟩ := normalized
  obtain ⟨name, rest, rfl⟩ := List.exists_cons_of_ne_nil nonempty
  have areNames : ∀ other ∈ name :: rest, IsName '/' other :=
    fun other member => (areEntryNames other member).toIsName
  refine ⟨name ++ absolutePath '/' rest, ?_, ?_⟩
  · rw [isPath, absolutePath_cons]
  · exact mount.toList_resolveServerPath areNames isPath

theorem Mount.fileLocaServer_injOn (mount : Mount) :
    Set.InjOn (fun path => (mount.deleteFileKeys path).fileLocaServer)
      {path | IsNormalized path} := by
  intro path normalized other otherNormalized equal
  obtain ⟨relative, isPath, isServerPath⟩ :=
    mount.toList_fileLocaServer normalized
  obtain ⟨otherRelative, isOther, isOtherServerPath⟩ :=
    mount.toList_fileLocaServer otherNormalized
  have sameList := congrArg String.toList equal
  simp only [isServerPath, isOtherServerPath] at sameList
  have sameRelative := List.append_cancel_left sameList
  apply String.toList_injective
  rw [isPath, isOther, sameRelative]

theorem Mount.frontIsSlash_resolveServerPath
    (rootNonempty : mount.serverRootPath ≠ "") (normalized : IsNormalized path) :
    frontIsSlash (mount.resolveServerPath path) =
      (mount.base.head? == some '/') := by
  obtain ⟨relative, -, isServerPath⟩ :=
    mount.toList_fileLocaServer normalized
  have resolved : (mount.resolveServerPath path).toList =
      mount.base ++ relative := isServerPath
  rw [frontIsSlash, resolved,
    List.head?_append_of_ne_nil _ (base_ne_nil rootNonempty)]

theorem Mount.fileLocation_injOn (rootNonempty : mount.serverRootPath ≠ "") :
    Set.InjOn (fun path => (mount.deleteFileKeys path).fileLocation)
      {path | IsNormalized path} := by
  intro path normalized other otherNormalized equal
  simp only [deleteFileKeys_of_isNormalized rootNonempty normalized,
    deleteFileKeys_of_isNormalized rootNonempty otherNormalized, inCache,
    frontIsSlash_resolveServerPath rootNonempty normalized,
    frontIsSlash_resolveServerPath rootNonempty otherNormalized] at equal
  have sameList := congrArg String.toList equal
  simp only [String.toList_append] at sameList
  apply fileLocaServer_injOn mount normalized otherNormalized
  exact String.toList_injective (List.append_cancel_left sameList)

/-- All operations agree on the keys of a file, and different files have
different keys. -/
theorem operations_share_keys (mount : Mount)
    (rootNonempty : mount.serverRootPath ≠ "") :
    (∀ path directory, IsNormalized path → IsDirectoryOf path directory →
        KeysAgree mount path directory (callbackFilename path)) ∧
      Set.InjOn (fun path => (mount.deleteFileKeys path).fileLocaServer)
        {path | IsNormalized path} ∧
      Set.InjOn (fun path => (mount.deleteFileKeys path).fileLocation)
        {path | IsNormalized path} := by
  refine ⟨?_, mount.fileLocaServer_injOn, Mount.fileLocation_injOn rootNonempty⟩
  intro path directory normalized isDirectory
  exact keysAgree rootNonempty normalized isDirectory

private def relativeRoot : Mount where
  serverRootPath := "./data"
  cacheDirectory := "./tmp/cache"

theorem operations_share_keys_relativeRoot :
    relativeRoot.serverRootPath ≠ "" ∧ IsNormalized "/docs/a.txt" ∧
      IsDirectoryOf "/docs/a.txt" "/docs" ∧
        relativeRoot.deleteFileKeys "/docs/a.txt" =
          { fileLocation := "./tmp/cache/./data/docs/a.txt"
            fileLocaServer := "./data/docs/a.txt" } ∧
          relativeRoot.openFileKeys "a.txt" "/docs" =
            relativeRoot.deleteFileKeys "/docs/a.txt" := by
  have rootNonempty : relativeRoot.serverRootPath ≠ "" := by decide
  have normalized : IsNormalized "/docs/a.txt" := by
    refine ⟨["docs".toList, "a.txt".toList], by simp, ?_, by decide⟩
    intro name member
    simp only [List.mem_cons, List.not_mem_nil, or_false] at member
    obtain rfl | rfl := member <;>
      exact ⟨⟨by decide, by decide⟩, by decide, by decide⟩
  have isDirectory : IsDirectoryOf "/docs/a.txt" "/docs" := Or.inl (by decide)
  have isFilename : callbackFilename "/docs/a.txt" = "a.txt" := by decide
  have agree := (operations_share_keys relativeRoot rootNonempty).1
    "/docs/a.txt" "/docs" normalized isDirectory
  rw [isFilename] at agree
  exact ⟨rootNonempty, normalized, isDirectory, by decide, agree.openFile⟩

end Agreement

end DistributedFilesystem
