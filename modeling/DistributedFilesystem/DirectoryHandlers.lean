import DistributedFilesystem.CacheConfinement
import DistributedFilesystem.FuseCallbacks
import DistributedFilesystem.OrderedMaps
import DistributedFilesystem.ReportedRenames
import DistributedFilesystem.TreeListings
import Mathlib.Data.Char
import Mathlib.Data.Finset.Sort
import Mathlib.Data.List.Lex

/-!
# Listing and making directories

`ls` and `mkdir` of the server, the functions of the client that call them, and
the callbacks that call those.  The client keeps nothing about a directory: each
listing is what the server has then.  The permission bits of a new directory
are left out, but setting them may fail.
-/

namespace DistributedFilesystem

/-- What the operating system answers to the handler of a listing, where this
does not follow from the tree. -/
structure ListingAnswers (tree : FileTree (List Char) Nat) where
  maySearch : List (List Char) → Bool
  mayRead : List (List Char) → Bool
  /-- The others are sockets, pipes, devices and links that lead nowhere. -/
  isRegularFile : Nat → Bool
  order : ∀ path, tree.Listing path

/-- What it answers to the handler of `mkdir`. -/
structure MkdirAnswers where
  maySearch : List (List Char) → Bool
  mayWrite : List (List Char) → Bool
  /-- `std::filesystem::permissions` succeeds. -/
  maySetPermissions : Bool
  /-- `e.what()` of an exception. -/
  what : String

/-- The codes other than OK that `ls` answers with. -/
inductive ListError where
  | notFound
  | invalidArgument
  | aborted
deriving DecidableEq

def ListError.message : ListError → String
  | .notFound => "Specified Directory not found"
  | .invalidArgument => "Path is not a directory"
  | .aborted => "Error occurred while iterating through the directory"

/-- What `ls` says of an entry; it skips what is neither a directory nor a regular
file. -/
def entryType (isRegularFile : Nat → Bool) : TreeEntry Nat → Option String
  | .directory => some "Directory"
  | .file node => if isRegularFile node then some "Regular_File" else none

/-- `std::filesystem::exists`; no result when it throws. -/
def filesystemExists (maySearch : List (List Char) → Bool)
    (tree : FileTree (List Char) Nat) (path : Path) : Option Bool :=
  match tree.way maySearch (pathNames path) with
  | .clear => some (tree.entry (pathNames path)).isSome
  | .blocked .accessDenied => none
  -- `ENOENT` and `ENOTDIR` are no errors to it.
  | _ => some false

/-- `ls` -/
def TreeServer.lsHandler (s : TreeServer) (answers : ListingAnswers s.tree)
    (directory : Path) : Except ListError (List (List Char × String)) :=
  let names := pathNames directory
  match filesystemExists answers.maySearch s.tree directory with
  | none => .error .aborted
  | some false => .error .notFound
  | some true =>
      match s.tree.entry names with
      | some .directory =>
          if answers.mayRead names then
            .ok ((answers.order names).names.filterMap fun name =>
              ((s.tree.entry (names ++ [name])).bind
                (entryType answers.isRegularFile)).map fun type => (name, type))
          else .error .aborted
      | _ => .error .invalidArgument

/-- What `mkdir` answers when something is at the path. -/
def mkdirFound (tree : FileTree (List Char) Nat) (names : List (List Char)) :
    Status :=
  if tree.entry names = some .directory then Status.OK
  else ⟨.invalidArgument, "Path is not a directory"⟩

/-- What `mkdir` answers when it made the directory. -/
def mkdirMade (answers : MkdirAnswers) : Status :=
  if answers.maySetPermissions then Status.OK else ⟨.internal, answers.what⟩

/-- What `mkdir` answers when `create_directory` did not make the directory:
that function returns false if it finds one there, and throws otherwise. -/
def mkdirFailed (answers : MkdirAnswers) (tree : FileTree (List Char) Nat)
    (names : List (List Char)) (making : Making) : Status :=
  if making = .inUse ∧ tree.entry names = some .directory then
    ⟨.permissionDenied, "Error occurred trying to create directory"⟩
  else ⟨.internal, answers.what⟩

/-- `mkdir` -/
def TreeServer.mkdirHandler (answers : MkdirAnswers) (s : TreeServer)
    (directory : Path) : TreeServer × Status :=
  let names := pathNames directory
  match filesystemExists answers.maySearch s.tree directory with
  -- The exception leaves the handler.
  | none => (s, ⟨.unknown, answers.what⟩)
  | some true => (s, mkdirFound s.tree names)
  | some false =>
      let (tree, making) :=
        s.tree.makeDirectory answers.maySearch answers.mayWrite names
      match making with
      | .made => (⟨tree, s.server⟩, mkdirMade answers)
      | _ => (⟨tree, s.server⟩, mkdirFailed answers tree names making)

section Client

variable {σ ε : Type*} (mount : Mount)

/-- `ls_contents`, given what the call for a directory answers. -/
def Mount.lsContents (ls : Path → Except ε (List (List Char × String)))
    (directory : String) : Option (OrderedMap (List Char) String) :=
  match ls (mount.resolveServerPath directory) with
  | .error _ => none
  | .ok entries =>
      some (entries.foldl (fun map entry => map.assign entry.1 entry.2) .empty)

/-- `afs_readdir`: the names that it hands to `filler`, and what it returns. -/
def Mount.afsReaddir (ls : Path → Except ε (List (List Char × String)))
    (path : String) : List (List Char) × Int :=
  match mount.lsContents ls path with
  | none => ([], -noEntry)
  | some contents => (['.'] :: ['.', '.'] :: contents.keys.sort, 0)

/-- `make_directory` -/
def Mount.makeDirectory (mkdir : Path → σ → σ × Status) (directory : String)
    (r : σ) : σ × Bool :=
  let (r, status) := mkdir (mount.resolveServerPath directory) r
  (r, status.isOk)

/-- `afs_mkdir` -/
def Mount.afsMkdir (mkdir : Path → σ → σ × Status) (path : String) (r : σ) :
    σ × Int :=
  let (r, made) := mount.makeDirectory mkdir path r
  (r, if made then 0 else -noEntry)

theorem Mount.afsMkdir_fst (mkdir : Path → σ → σ × Status) (path : String)
    (r : σ) :
    (mount.afsMkdir mkdir path r).1 =
      (mkdir (mount.resolveServerPath path) r).1 :=
  rfl

theorem Mount.afsMkdir_eq_zero_iff (mkdir : Path → σ → σ × Status)
    (path : String) (r : σ) :
    (mount.afsMkdir mkdir path r).2 = 0 ↔
      (mkdir (mount.resolveServerPath path) r).2.isOk = true := by
  unfold Mount.afsMkdir Mount.makeDirectory
  split
  next made eq =>
  obtain ⟨-, rfl⟩ := Prod.mk.inj eq
  split
  · next ok => simp [ok]
  · next notOk => simp [notOk, noEntry]

end Client

/-- There is a directory or a regular file at the path. -/
def Listable (tree : FileTree (List Char) Nat)
    (isRegularFile : Nat → Bool) (path : List (List Char)) : Prop :=
  tree.entry path = some .directory ∨
    ∃ node, tree.entry path = some (.file node) ∧ isRegularFile node = true

theorem listable_iff {tree : FileTree (List Char) Nat}
    {isRegularFile : Nat → Bool} {path : List (List Char)} :
    Listable tree isRegularFile path ↔
      ∃ type, (tree.entry path).bind (entryType isRegularFile) = some type := by
  unfold Listable
  cases tree.entry path with
  | none => simp
  | some entry =>
      cases entry with
      | directory => simp [entryType]
      | file node => simp [entryType]

section Handlers

variable {s : TreeServer} {directory : Path}

theorem filesystemExists_eq_true_iff {maySearch : List (List Char) → Bool}
    {tree : FileTree (List Char) Nat} :
    filesystemExists maySearch tree directory = some true ↔
      tree.Reached maySearch (pathNames directory) ∧
        tree.entry (pathNames directory) ≠ none := by
  rw [← FileTree.way_eq_clear_iff, ← Option.isSome_iff_ne_none]
  unfold filesystemExists
  split
  · next clear => simp [clear]
  · next denied => simp [denied]
  · next notClear _ =>
      simp only [Option.some.injEq, Bool.false_eq_true, false_iff, not_and]
      exact fun clear => absurd clear notClear

/-- What `exists` does not find is not there. -/
theorem entry_of_filesystemExists {maySearch : List (List Char) → Bool}
    {tree : FileTree (List Char) Nat}
    (absent : filesystemExists maySearch tree directory = some false) :
    tree.entry (pathNames directory) = none := by
  unfold filesystemExists at absent
  split at absent
  · simpa using absent
  · simp at absent
  next notClear notDenied =>
  have gone : tree.entry ([] ++ pathNames directory) = none :=
    FileTree.entry_of_wayFrom notClear notDenied
  simpa using gone

/-- `ls` answers OK for what is a directory and can be read, with all the
directories and regular files that lie in it. -/
theorem lsHandler_of_readable (answers : ListingAnswers s.tree)
    (readable : s.tree.Readable answers.maySearch answers.mayRead
      (pathNames directory)) :
    ∃ entries, s.lsHandler answers directory = .ok entries ∧
      ∀ name type, (name, type) ∈ entries ↔
        (s.tree.entry (pathNames directory ++ [name])).bind
          (entryType answers.isRegularFile) = some type := by
  have here : filesystemExists answers.maySearch s.tree directory = some true :=
    filesystemExists_eq_true_iff.mpr
      ⟨readable.reached, by simp [readable.isDirectory]⟩
  simp only [TreeServer.lsHandler, here, readable.isDirectory, readable.mayRead,
    if_true]
  refine ⟨_, rfl, ?_⟩
  intro name type
  simp only [List.mem_filterMap, Option.map_eq_some_iff, Prod.mk.injEq,
    (answers.order (pathNames directory)).mem_iff]
  constructor
  · rintro ⟨other, -, otherType, isType, rfl, rfl⟩
    exact isType
  · intro isType
    obtain ⟨entry, lies, -⟩ := Option.bind_eq_some_iff.mp isType
    exact ⟨name, by simp [lies], type, isType, rfl, rfl⟩

theorem lsHandler_of_not_readable (answers : ListingAnswers s.tree)
    (notReadable : ¬ s.tree.Readable answers.maySearch answers.mayRead
      (pathNames directory)) :
    ∃ error, s.lsHandler answers directory = .error error := by
  unfold TreeServer.lsHandler
  dsimp only
  split
  · exact ⟨_, rfl⟩
  · exact ⟨_, rfl⟩
  next here =>
  obtain ⟨reached, -⟩ := filesystemExists_eq_true_iff.mp here
  split
  · next isDirectory =>
      split
      · next mayRead =>
          exact absurd ⟨reached, isDirectory, mayRead⟩ notReadable
      · exact ⟨_, rfl⟩
  · exact ⟨_, rfl⟩

/-- `mkdir` makes a directory: nothing is at the path, and everything above it
is a directory, the last of which may be written. -/
structure MakesDirectory (answers : MkdirAnswers)
    (tree : FileTree (List Char) Nat) (names : List (List Char)) : Prop where
  reached : tree.Reached answers.maySearch names
  vacant : tree.entry names = none
  mayWrite : answers.mayWrite names.dropLast = true

theorem making_eq_made_iff_makesDirectory {answers : MkdirAnswers}
    {names : List (List Char)} :
    s.tree.making answers.maySearch answers.mayWrite names = .made ↔
      MakesDirectory answers s.tree names := by
  rw [FileTree.making_eq_made_iff]
  constructor
  · rintro ⟨reached, vacant, mayWrite⟩
    exact ⟨reached, vacant, mayWrite⟩
  · rintro ⟨reached, vacant, mayWrite⟩
    exact ⟨reached, vacant, mayWrite⟩

theorem mkdirHandler_of_makes {answers : MkdirAnswers}
    (makes : MakesDirectory answers s.tree (pathNames directory)) :
    (s.mkdirHandler answers directory).1.tree.entry =
        Function.update s.tree.entry (pathNames directory) (some .directory) ∧
      (s.mkdirHandler answers directory).2.isOk =
        answers.maySetPermissions := by
  have clear := FileTree.way_eq_clear_iff.mpr makes.reached
  have vacant := makes.vacant
  have absent : filesystemExists answers.maySearch s.tree directory =
      some false := by
    simp [filesystemExists, clear, vacant]
  have made := making_eq_made_iff_makesDirectory.mpr makes
  simp only [TreeServer.mkdirHandler, absent, FileTree.makeDirectory_snd, made,
    FileTree.entry_makeDirectory made, true_and, mkdirMade]
  cases answers.maySetPermissions <;> rfl

theorem mkdirHandler_of_not_makes {answers : MkdirAnswers}
    (makesNot : ¬ MakesDirectory answers s.tree (pathNames directory)) :
    (s.mkdirHandler answers directory).1 = s ∧
      ((s.mkdirHandler answers directory).2.isOk = true ↔
        s.tree.Reached answers.maySearch (pathNames directory) ∧
          s.tree.entry (pathNames directory) = some .directory) := by
  rw [← making_eq_made_iff_makesDirectory] at makesNot
  have isThere : s.tree.Reached answers.maySearch (pathNames directory) ∧
      s.tree.entry (pathNames directory) = some .directory ↔
        filesystemExists answers.maySearch s.tree directory = some true ∧
          s.tree.entry (pathNames directory) = some .directory := by
    rw [filesystemExists_eq_true_iff, and_assoc]
    refine and_congr_right fun _ => ?_
    simp +contextual
  rw [isThere]
  unfold TreeServer.mkdirHandler
  dsimp only
  split
  · next throws => simp [throws, Status.isOk]
  · next here =>
      unfold mkdirFound
      split
      · next isDirectory => simp [here, isDirectory, Status.isOk, Status.OK]
      · next notDirectory => simp [notDirectory, Status.isOk]
  · next absent =>
      rw [FileTree.makeDirectory_snd, FileTree.makeDirectory_fst_of_ne makesNot]
      split
      · next made => exact absurd made makesNot
      · unfold mkdirFailed
        split <;> simp [absent, Status.isOk]

/-- When `mkdir` answers OK. -/
theorem mkdirHandler_isOk_iff (answers : MkdirAnswers) (s : TreeServer)
    (directory : Path) :
    (s.mkdirHandler answers directory).2.isOk = true ↔
      s.tree.Reached answers.maySearch (pathNames directory) ∧
          s.tree.entry (pathNames directory) = some .directory ∨
        MakesDirectory answers s.tree (pathNames directory) ∧
          answers.maySetPermissions = true := by
  by_cases makes : MakesDirectory answers s.tree (pathNames directory)
  · rw [(mkdirHandler_of_makes makes).2]
    simp [makes, makes.vacant]
  · rw [(mkdirHandler_of_not_makes makes).2]
    simp [makes]

/-- What there is to list after `mkdir`. -/
theorem listable_mkdirHandler (answers : MkdirAnswers) (s : TreeServer)
    (directory : Path) (isRegularFile : Nat → Bool) (other : List (List Char)) :
    Listable (s.mkdirHandler answers directory).1.tree isRegularFile other ↔
      Listable s.tree isRegularFile other ∨
        MakesDirectory answers s.tree (pathNames directory) ∧
          other = pathNames directory := by
  unfold Listable
  by_cases makes : MakesDirectory answers s.tree (pathNames directory)
  · rw [(mkdirHandler_of_makes makes).1]
    by_cases same : other = pathNames directory
    · simp [same, makes]
    · simp [same]
  · rw [(mkdirHandler_of_not_makes makes).1]
    simp [makes]

end Handlers

section Readdir

variable {s : TreeServer} {mount : Mount} {path : String}
variable {names : List (List Char)}

/-- The names of what a callback's path stands for on the server. -/
theorem pathNames_resolveServerPath (rootNonempty : mount.serverRootPath ≠ "")
    (areNames : ∀ name ∈ names, PosixPaths.IsName '/' name)
    (isPath : path.toList = PosixPaths.absolutePath '/' names ∨
      names = [] ∧ (path = "" ∨ path = "/")) :
    pathNames (mount.resolveServerPath path) =
      pathNames mount.serverRootPath ++ names :=
  components_resolveServerPath rootNonempty areNames isPath

/-- The names that `afs_readdir` hands on for a directory. -/
structure Lists (tree : FileTree (List Char) Nat) (isRegularFile : Nat → Bool)
    (directory : List (List Char)) (filled : List (List Char)) : Prop where
  sorted : filled.SortedLT
  mem_iff : ∀ name, name ∈ filled ↔
    Listable tree isRegularFile (directory ++ [name])

theorem afsReaddir_of_readable (answers : ListingAnswers s.tree)
    (readable : s.tree.Readable answers.maySearch answers.mayRead
      (pathNames (mount.resolveServerPath path))) :
    ∃ listed, mount.afsReaddir (s.lsHandler answers) path =
        (['.'] :: ['.', '.'] :: listed, 0) ∧
      Lists s.tree answers.isRegularFile
        (pathNames (mount.resolveServerPath path)) listed := by
  obtain ⟨entries, answer, complete⟩ := lsHandler_of_readable answers readable
  simp only [Mount.afsReaddir, Mount.lsContents, answer]
  refine ⟨_, rfl, ?_, ?_⟩
  · exact Finset.sortedLT_sort _
  · intro name
    rw [Finset.mem_sort, OrderedMap.mem_keys_foldl_assign]
    simp only [OrderedMap.empty, Finset.notMem_empty, false_or, complete]
    exact listable_iff.symm

theorem afsReaddir_of_not_readable (answers : ListingAnswers s.tree)
    (notReadable : ¬ s.tree.Readable answers.maySearch answers.mayRead
      (pathNames (mount.resolveServerPath path))) :
    mount.afsReaddir (s.lsHandler answers) path = ([], -noEntry) := by
  obtain ⟨error, answer⟩ := lsHandler_of_not_readable answers notReadable
  simp [Mount.afsReaddir, Mount.lsContents, answer]

/-- `afs_readdir` of a directory that can be read hands on `.`, `..` and the name
of each directory and regular file in it once, in order, whatever order the
server found them in.  Everything else is reported as missing. -/
theorem readdir_lists (rootNonempty : mount.serverRootPath ≠ "")
    (areNames : ∀ name ∈ names, PosixPaths.IsName '/' name)
    (isPath : path.toList = PosixPaths.absolutePath '/' names ∨
      names = [] ∧ (path = "" ∨ path = "/"))
    (answers : ListingAnswers s.tree) :
    let directory := pathNames mount.serverRootPath ++ names
    (s.tree.Readable answers.maySearch answers.mayRead directory →
      ∃ listed, mount.afsReaddir (s.lsHandler answers) path =
          (['.'] :: ['.', '.'] :: listed, 0) ∧
        Lists s.tree answers.isRegularFile directory listed) ∧
    (¬ s.tree.Readable answers.maySearch answers.mayRead directory →
      mount.afsReaddir (s.lsHandler answers) path = ([], -noEntry)) := by
  have resolved := pathNames_resolveServerPath rootNonempty areNames isPath
  rw [← resolved]
  exact ⟨afsReaddir_of_readable answers, afsReaddir_of_not_readable answers⟩

/-- A server with a directory that has a directory, a file and a pipe in it. -/
private def sharedDirectory : TreeServer where
  tree :=
    let root : FileTree (List Char) Nat := .empty
    let docs := root.createDirectories (fun _ => true)
      ["srv".toList, "docs".toList]
    let file := docs.1.createFile ["srv".toList] "a".toList 0 (by decide)
      (by decide)
    file.createFile ["srv".toList] "pipe".toList 1 (by decide) (by decide)
  server := .launch "/srv" (FileStore.empty.create "/srv/a" 0) 0

private def permitsListings (tree : FileTree (List Char) Nat) :
    ListingAnswers tree where
  maySearch _ := true
  mayRead _ := true
  isRegularFile node := node == 0
  order := tree.listing

private def atRoot : Mount := ⟨"/srv", "/cache"⟩

/-- The root of the mounted file system is the directory of the server. -/
theorem readdir_lists_root :
    ∃ listed, atRoot.afsReaddir
        (sharedDirectory.lsHandler (permitsListings _)) "/" =
          (['.'] :: ['.', '.'] :: listed, 0) ∧
      "a".toList ∈ listed ∧ "docs".toList ∈ listed ∧ "pipe".toList ∉ listed := by
  have lists := @readdir_lists sharedDirectory atRoot "/" [] (by decide) (by simp)
    (.inr ⟨rfl, .inr rfl⟩) (permitsListings sharedDirectory.tree)
  have readable : sharedDirectory.tree.Readable (fun _ => true) (fun _ => true)
      (pathNames "/srv" ++ []) :=
    ⟨FileTree.way_eq_clear_iff.mp (by decide), by decide, rfl⟩
  obtain ⟨listed, fills, isListing⟩ := lists.1 readable
  refine ⟨listed, fills, (isListing.mem_iff _).mpr (.inr ⟨0, by decide, rfl⟩),
    (isListing.mem_iff _).mpr (.inl (by decide)), ?_⟩
  rw [isListing.mem_iff, listable_iff]
  rintro ⟨type, isType⟩
  have skipped : (sharedDirectory.tree.entry
      (pathNames "/srv" ++ [] ++ ["pipe".toList])).bind
        (entryType (permitsListings sharedDirectory.tree).isRegularFile) = none := by
    decide
  exact Option.some_ne_none type (isType.symm.trans skipped)

/-- `afs_mkdir` returns 0 if and only if the path was a directory already, or
was made one with its permissions set.  Whatever it returned, a listing after it
has the directories and regular files that were there before it, and the new
directory if one was made. -/
theorem mkdir_then_readdir {answers : MkdirAnswers} {s' : TreeServer}
    {result : Int}
    (called : mount.afsMkdir
      (fun directory s => TreeServer.mkdirHandler answers s directory) path s =
        (s', result)) :
    (result = 0 ↔
      s.tree.Reached answers.maySearch
            (pathNames (mount.resolveServerPath path)) ∧
          s.tree.entry (pathNames (mount.resolveServerPath path)) =
            some .directory ∨
        MakesDirectory answers s.tree
            (pathNames (mount.resolveServerPath path)) ∧
          answers.maySetPermissions = true) ∧
    ∀ (other : String) (listing : ListingAnswers s'.tree),
      s'.tree.Readable listing.maySearch listing.mayRead
        (pathNames (mount.resolveServerPath other)) →
      ∃ listed, mount.afsReaddir (s'.lsHandler listing) other =
          (['.'] :: ['.', '.'] :: listed, 0) ∧ listed.SortedLT ∧
        ∀ name, name ∈ listed ↔
          Listable s.tree listing.isRegularFile
              (pathNames (mount.resolveServerPath other) ++ [name]) ∨
            MakesDirectory answers s.tree
                (pathNames (mount.resolveServerPath path)) ∧
              pathNames (mount.resolveServerPath other) ++ [name] =
                pathNames (mount.resolveServerPath path) := by
  have isAfter := mount.afsMkdir_fst
    (fun directory s => TreeServer.mkdirHandler answers s directory) path s
  have zero := mount.afsMkdir_eq_zero_iff
    (fun directory s => TreeServer.mkdirHandler answers s directory) path s
  rw [called] at isAfter zero
  dsimp only at isAfter zero
  constructor
  · rw [← mkdirHandler_isOk_iff]
    exact zero
  · intro other listing readable
    obtain ⟨listed, fills, lists⟩ := afsReaddir_of_readable listing readable
    refine ⟨listed, fills, lists.sorted, fun name => ?_⟩
    rw [lists.mem_iff]
    generalize listing.isRegularFile = isRegularFile
    rw [isAfter]
    exact listable_mkdirHandler answers s _ _ _

private def permitsMkdir : MkdirAnswers where
  maySearch _ := true
  mayWrite _ := true
  maySetPermissions := true
  what := ""

/-- A directory that was made is listed in the one that it is in. -/
theorem mkdir_then_readdir_new :
    ∃ s' result, atRoot.afsMkdir
        (fun directory s => TreeServer.mkdirHandler permitsMkdir s directory)
        "/docs/new" sharedDirectory = (s', result) ∧ result = 0 ∧
      ∃ listed, atRoot.afsReaddir (s'.lsHandler (permitsListings _)) "/docs" =
          (['.'] :: ['.', '.'] :: listed, 0) ∧ "new".toList ∈ listed := by
  refine ⟨_, _, rfl, ?_⟩
  have makes : MakesDirectory permitsMkdir sharedDirectory.tree
      (pathNames (atRoot.resolveServerPath "/docs/new")) :=
    ⟨FileTree.way_eq_clear_iff.mp (by decide), by decide, rfl⟩
  have called := @mkdir_then_readdir sharedDirectory atRoot "/docs/new"
    permitsMkdir _ _ rfl
  refine ⟨called.1.mpr (.inr ⟨makes, rfl⟩), ?_⟩
  obtain ⟨listed, fills, -, mem_iff⟩ := called.2 "/docs" (permitsListings _)
    ⟨FileTree.way_eq_clear_iff.mp (by decide), by decide, rfl⟩
  exact ⟨listed, fills, (mem_iff _).mpr (.inr ⟨makes, by decide⟩)⟩

end Readdir

end DistributedFilesystem
