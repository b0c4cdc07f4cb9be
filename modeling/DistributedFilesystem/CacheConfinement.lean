import DistributedFilesystem.LexicalPaths
import DistributedFilesystem.PathKeys

/-!
# Local copies inside the cache directory

The client places the copy of a file by gluing the cache directory, the root
that the server returned and the path in the mounted file system.  The root is
not checked.  This file determines the roots and paths for which the copy and its
directory are inside the cache directory.
-/

namespace DistributedFilesystem

open PosixPaths NormalPath

/-- `std::filesystem::path(path).lexically_normal()` -/
def normalForm (path : String) : NormalPath Char :=
  lexicallyNormal '.' '/' path.toList

/-- The directory in which `open_file` and `create_file` place a file. -/
def Mount.cacheDir (mount : Mount) (path : String) : String :=
  mount.inCache (mount.resolveServerPath path)

/-- The directories and files that are created for a path are in the cache
directory. -/
structure Confined (mount : Mount) (path directory : String) : Prop where
  createdDirectories : StrictlyInside (normalForm mount.cacheDirectory)
    (normalForm (mount.cacheDir directory))
  openedFile : StrictlyInside (normalForm mount.cacheDirectory)
    (normalForm
      (mount.openFileKeys (callbackFilename path) directory).fileLocation)
  createdFile : StrictlyInside (normalForm mount.cacheDirectory)
    (normalForm
      (mount.createFileKeys (callbackFilename path) directory).fileLocation)

/-- The root of the server's files as a path from the current directory. -/
def Mount.rootFromCurrent (mount : Mount) : NormalPath Char :=
  relative '.' (components '/' mount.serverRootPath.toList)

/-- The last names of the cache directory, as many as the root goes up. -/
def Mount.leftNames (mount : Mount) : List (List Char) :=
  (normalForm mount.cacheDirectory).names.drop
    ((normalForm mount.cacheDirectory).names.length - mount.rootFromCurrent.ups)

/-- The names that are entered below what the root goes up to. -/
def Mount.enteredNames (mount : Mount) (path : String) : List (List Char) :=
  mount.rootFromCurrent.names ++ components '/' path.toList

/-- The root can be followed from the cache directory, and enters again what it
leaves there. -/
structure Mount.Returns (mount : Mount) (path : String) : Prop where
  cacheNonempty : mount.cacheDirectory ≠ ""
  canLeave :
    mount.rootFromCurrent.ups ≤ (normalForm mount.cacheDirectory).names.length ∨
      (normalForm mount.cacheDirectory).absolute = true
  enters : mount.leftNames <+: mount.enteredNames path

/-- Moreover, it enters more than it left. -/
structure Mount.StaysInCache (mount : Mount) (directory : String) : Prop
    extends Mount.Returns mount directory where
  entersMore : mount.enteredNames directory ≠ mount.leftNames

/-- Neither cache directory is in the other or is the other. -/
def DisjointCaches (mount other : Mount) : Prop :=
  ¬ Inside (normalForm mount.cacheDirectory) (normalForm other.cacheDirectory) ∧
    ¬ Inside (normalForm other.cacheDirectory) (normalForm mount.cacheDirectory)

variable {mount : Mount} {path directory : String}

section Names

theorem components_inCache (mount : Mount) (path : String) :
    components '/' (mount.inCache path).toList =
      components '/' mount.cacheDirectory.toList ++
        components '/' path.toList := by
  rw [Mount.inCache]
  split
  · next isSlash =>
      have begins : path.toList.head? = some '/' := by
        simpa [frontIsSlash] using isSlash
      obtain ⟨rest, isPath⟩ := List.head?_eq_some_iff.mp begins
      simp only [String.toList_append, String.toList_empty, List.append_nil, isPath,
        components_append_separator, components_cons_separator]
  · have isSlash : "/".toList = ['/'] := rfl
    simp only [String.toList_append, isSlash, List.append_assoc,
      List.singleton_append, components_append_separator]

/-- A place in the cache directory is what is followed from there. -/
theorem normalForm_inCache (cacheNonempty : mount.cacheDirectory ≠ "") :
    normalForm (mount.inCache path) =
      follow '.' (normalForm mount.cacheDirectory)
        (components '/' path.toList) := by
  have nonempty : mount.cacheDirectory.toList ≠ [] := by
    simpa using cacheNonempty
  have sameBegin : isAbsolute '/' (mount.inCache path).toList =
      isAbsolute '/' mount.cacheDirectory.toList := by
    rw [Mount.inCache, String.toList_append, String.toList_append,
      List.append_assoc, isAbsolute, List.head?_append_of_ne_nil _ nonempty,
      isAbsolute]
  rw [normalForm, lexicallyNormal, components_inCache, follow_append, sameBegin]
  rfl

theorem follow_absolute (path : NormalPath Char)
    (components : List (List Char)) :
    (follow '.' path components).absolute = path.absolute := by
  rw [follow_eq]

/-- Without a cache directory, every place is absolute. -/
theorem not_inside_of_noCache (noCache : mount.cacheDirectory = "")
    (path : String) :
    ¬ Inside (normalForm mount.cacheDirectory)
      (normalForm (mount.inCache path)) := by
  intro inside
  have isAbsolutePlace : isAbsolute '/' (mount.inCache path).toList = true := by
    rw [Mount.inCache, noCache]
    split
    · next isSlash => simpa [isAbsolute, frontIsSlash] using isSlash
    · simp [isAbsolute]
  have absolute := inside.absolute
  rw [normalForm, lexicallyNormal, follow_absolute, isAbsolutePlace, normalForm,
    noCache] at absolute
  simp [lexicallyNormal, follow_absolute, isAbsolute] at absolute

theorem components_of_names {names : List (List Char)}
    (areNames : ∀ name ∈ names, IsName '/' name)
    (isPath : path.toList = absolutePath '/' names ∨
      names = [] ∧ (path = "" ∨ path = "/")) :
    components '/' path.toList = names := by
  rcases isPath with isPath | ⟨rfl, isRoot⟩
  · rw [isPath, components_absolutePath areNames]
  · obtain rfl | rfl := isRoot <;> decide

/-- Resolving a path enters its names below the root. -/
theorem components_resolveServerPath {names : List (List Char)}
    (rootNonempty : mount.serverRootPath ≠ "")
    (areNames : ∀ name ∈ names, IsName '/' name)
    (isPath : path.toList = absolutePath '/' names ∨
      names = [] ∧ (path = "" ∨ path = "/")) :
    components '/' (mount.resolveServerPath path).toList =
      components '/' mount.serverRootPath.toList ++ names := by
  have ofBase : components '/' mount.base =
      components '/' mount.serverRootPath.toList := by
    rw [Mount.base, components_genericString, components_asDirectory]
  cases names with
  | nil =>
      have isRoot : path = "" ∨ path = "/" := by
        rcases isPath with isEmpty | atRoot
        · left
          apply String.toList_injective
          simpa [absolutePath] using isEmpty
        · exact atRoot.2
      rw [mount.toList_resolveServerPath_root isRoot, ofBase, List.append_nil]
  | cons name names =>
      have isPath := isPath.resolve_right (by simp)
      have endsWithSlash := mount.getLast?_base rootNonempty
      obtain ⟨front, isBase⟩ := List.getLast?_eq_some_iff.mp endsWithSlash
      have ofFront : components '/' mount.base = components '/' front := by
        rw [isBase, components_append_separator]
        simp [components]
      have ofNames := components_absolutePath areNames
      rw [absolutePath_cons, components_cons_separator] at ofNames
      rw [mount.toList_resolveServerPath areNames isPath, ← ofBase, ofFront,
        isBase, List.append_assoc, List.singleton_append,
        components_append_separator, ofNames]

theorem relative_append_names {names : List (List Char)}
    (areNames : ∀ name ∈ names, IsEntryName name)
    (root : List (List Char)) :
    relative '.' (root ++ names) =
      { relative '.' root with names := (relative '.' root).names ++ names } := by
  have notDots : ∀ name ∈ names, name ≠ ['.'] ∧ name ≠ ['.', '.'] := by
    intro name member
    exact ⟨(areNames name member).notSelf, (areNames name member).notParent⟩
  rw [relative, follow_append, follow_names notDots]
  rfl

end Names

section Confinement

/-- The place of a path is in the cache directory if and only if the root enters
again what it leaves, and more. -/
theorem strictlyInside_inCache_iff {names : List (List Char)}
    (rootNonempty : mount.serverRootPath ≠ "")
    (areNames : ∀ name ∈ names, IsEntryName name)
    (isPath : path.toList = absolutePath '/' names ∨
      names = [] ∧ (path = "" ∨ path = "/")) :
    StrictlyInside (normalForm mount.cacheDirectory)
        (normalForm (mount.inCache (mount.resolveServerPath path))) ↔
      mount.StaysInCache path := by
  have areComponents : ∀ name ∈ names, IsName '/' name :=
    fun name member => (areNames name member).toIsName
  have ofPath := components_of_names areComponents isPath
  by_cases cacheNonempty : mount.cacheDirectory = ""
  · constructor
    · intro strictlyInside
      have inside := strictlyInside.toInside
      exact absurd inside (not_inside_of_noCache cacheNonempty _)
    · intro stays
      exact absurd cacheNonempty stays.cacheNonempty
  have resolved := components_resolveServerPath rootNonempty areComponents isPath
  have followed : relative '.'
      (components '/' (mount.resolveServerPath path).toList) =
        { mount.rootFromCurrent with names := mount.enteredNames path } := by
    rw [resolved, relative_append_names areNames, Mount.enteredNames, ofPath]
    rfl
  rw [normalForm_inCache cacheNonempty, strictlyInside_follow_iff, followed]
  constructor
  · rintro ⟨canLeave, enters, entersMore⟩
    exact ⟨⟨cacheNonempty, canLeave, enters⟩, entersMore⟩
  · rintro ⟨⟨-, canLeave, enters⟩, entersMore⟩
    exact ⟨canLeave, enters, entersMore⟩

/-- A path has one name more than its directory. -/
theorem exists_names_of_isDirectoryOf (isNormalized : IsNormalized path)
    (isDirectory : IsDirectoryOf path directory) :
    ∃ (names : List (List Char)) (name : List Char),
      (∀ other ∈ names ++ [name], IsEntryName other) ∧
        path.toList = absolutePath '/' (names ++ [name]) ∧
          (directory.toList = absolutePath '/' names ∨
            names = [] ∧ (directory = "" ∨ directory = "/")) := by
  obtain ⟨allNames, nonempty, areEntryNames, isPath⟩ := isNormalized
  obtain ⟨names, name, rfl⟩ :=
    (List.eq_nil_or_concat' allNames).resolve_left nonempty
  have areNames : ∀ other ∈ names ++ [name], IsName '/' other :=
    fun other member => (areEntryNames other member).toIsName
  refine ⟨names, name, areEntryNames, isPath, ?_⟩
  cases toList_of_isDirectoryOf areNames isPath isDirectory with
  | inl atRoot => exact Or.inr atRoot
  | inr below => exact Or.inl below.2

/-- The directory of a path is created in the cache directory if and only if
its place there is. -/
theorem strictlyInside_cacheDir_iff (rootNonempty : mount.serverRootPath ≠ "")
    (isNormalized : IsNormalized path)
    (isDirectory : IsDirectoryOf path directory) :
    StrictlyInside (normalForm mount.cacheDirectory)
        (normalForm (mount.cacheDir directory)) ↔
      mount.StaysInCache directory := by
  obtain ⟨names, name, areEntryNames, -, isParent⟩ :=
    exists_names_of_isDirectoryOf isNormalized isDirectory
  have earlier : ∀ other ∈ names, IsEntryName other := by
    intro other member
    exact areEntryNames other (List.mem_append_left _ member)
  exact strictlyInside_inCache_iff rootNonempty earlier isParent

/-- The copy of a file is created in the cache directory if and only if its
directory is created there or is the cache directory itself. -/
theorem strictlyInside_fileLocation_iff
    (rootNonempty : mount.serverRootPath ≠ "")
    (isNormalized : IsNormalized path)
    (isDirectory : IsDirectoryOf path directory) :
    StrictlyInside (normalForm mount.cacheDirectory)
        (normalForm (mount.deleteFileKeys path).fileLocation) ↔
      mount.Returns directory := by
  obtain ⟨names, name, areEntryNames, isPath, isParent⟩ :=
    exists_names_of_isDirectoryOf isNormalized isDirectory
  have areNames : ∀ other ∈ names ++ [name], IsName '/' other :=
    fun other member => (areEntryNames other member).toIsName
  have earlier : ∀ other ∈ names, IsName '/' other := by
    intro other member
    exact areNames other (List.mem_append_left _ member)
  have oneMore : mount.enteredNames path =
      mount.enteredNames directory ++ [name] := by
    rw [Mount.enteredNames, Mount.enteredNames,
      components_of_names areNames (Or.inl isPath),
      components_of_names earlier isParent, List.append_assoc]
  rw [Mount.deleteFileKeys_of_isNormalized rootNonempty isNormalized,
    strictlyInside_inCache_iff rootNonempty areEntryNames (Or.inl isPath)]
  constructor
  · rintro ⟨⟨cacheNonempty, canLeave, enters⟩, entersMore⟩
    rw [oneMore] at enters entersMore
    have entersBefore :=
      (List.prefix_concat_iff.mp enters).resolve_left (Ne.symm entersMore)
    exact ⟨cacheNonempty, canLeave, entersBefore⟩
  · rintro ⟨cacheNonempty, canLeave, enters⟩
    have entersMore : mount.enteredNames path ≠ mount.leftNames := by
      rw [oneMore]
      intro same
      have shorter := enters.length_le
      have lengths := congrArg List.length same
      rw [List.length_append, List.length_singleton] at lengths
      omega
    refine ⟨⟨cacheNonempty, canLeave, ?_⟩, entersMore⟩
    rw [oneMore]
    exact List.prefix_concat_iff.mpr (Or.inr enters)

theorem confined_iff (rootNonempty : mount.serverRootPath ≠ "")
    (isNormalized : IsNormalized path)
    (isDirectory : IsDirectoryOf path directory) :
    Confined mount path directory ↔ mount.StaysInCache directory := by
  have agree := keysAgree rootNonempty isNormalized isDirectory
  have ofDirectory :=
    strictlyInside_cacheDir_iff rootNonempty isNormalized isDirectory
  have ofFile :=
    strictlyInside_fileLocation_iff rootNonempty isNormalized isDirectory
  constructor
  · intro confined
    exact ofDirectory.mp confined.createdDirectories
  · intro stays
    have fileInside := ofFile.mpr stays.toReturns
    constructor
    case createdDirectories => exact ofDirectory.mpr stays
    case openedFile =>
      rw [agree.openFile]
      exact fileInside
    case createdFile =>
      rw [agree.createFile]
      exact fileInside

/-- Everything that is created for a path is in the cache directory if and only
if the root, followed from there, enters again what it leaves and more.  Then no
file of a client with a disjoint cache directory is the same. -/
theorem localPaths_confined_iff (mount : Mount)
    (rootNonempty : mount.serverRootPath ≠ "")
    (isNormalized : IsNormalized path)
    (isDirectory : IsDirectoryOf path directory) :
    (Confined mount path directory ↔ mount.StaysInCache directory) ∧
      (mount.StaysInCache directory →
        ∀ (other : Mount) (otherPath otherDirectory : String),
          other.serverRootPath ≠ "" → IsNormalized otherPath →
            IsDirectoryOf otherPath otherDirectory →
              other.StaysInCache otherDirectory →
                DisjointCaches mount other →
                  normalForm (mount.openFileKeys (callbackFilename path)
                      directory).fileLocation ≠
                    normalForm (other.openFileKeys (callbackFilename otherPath)
                      otherDirectory).fileLocation) := by
  refine ⟨confined_iff rootNonempty isNormalized isDirectory, ?_⟩
  intro stays other otherPath otherDirectory otherNonempty otherNormalized
    otherIsDirectory otherStays disjoint
  have confined :=
    (confined_iff rootNonempty isNormalized isDirectory).mpr stays
  have otherConfined :=
    (confined_iff otherNonempty otherNormalized otherIsDirectory).mpr otherStays
  exact ne_of_inside disjoint.1 disjoint.2 confined.openedFile.toInside
    otherConfined.openedFile.toInside

/-- Cache directories are disjoint when neither has the names of the other at its
front. -/
theorem disjointCaches_of_names {other : Mount}
    (notIn : ¬ (normalForm mount.cacheDirectory).names <+:
      (normalForm other.cacheDirectory).names)
    (notAround : ¬ (normalForm other.cacheDirectory).names <+:
      (normalForm mount.cacheDirectory).names) :
    DisjointCaches mount other := by
  constructor
  · intro inside
    exact notIn inside.names
  · intro inside
    exact notAround inside.names

private theorem isNormalized_test_file : IsNormalized "/test/file1.txt" := by
  refine ⟨["test".toList, "file1.txt".toList], by simp, ?_, by decide⟩
  intro name member
  simp only [List.mem_cons, List.not_mem_nil, or_false] at member
  obtain rfl | rfl := member <;>
    exact ⟨⟨by decide, by decide⟩, by decide, by decide⟩

/-- A client of a server that is started with an absolute root. -/
private def absoluteRoot (cacheDirectory : String) : Mount where
  serverRootPath := "/srv/files"
  cacheDirectory := cacheDirectory

theorem localPaths_confined_absoluteRoot :
    Confined (absoluteRoot "./tmp/cache") "/test/file1.txt" "/test" ∧
      normalForm ((absoluteRoot "./tmp/cache").openFileKeys
          (callbackFilename "/test/file1.txt") "/test").fileLocation ≠
        normalForm ((absoluteRoot "./tmp/other").openFileKeys
          (callbackFilename "/test/file1.txt") "/test").fileLocation := by
  have rootNonempty : (absoluteRoot "./tmp/cache").serverRootPath ≠ "" := by
    decide
  have otherNonempty : (absoluteRoot "./tmp/other").serverRootPath ≠ "" := by
    decide
  have isDirectory : IsDirectoryOf "/test/file1.txt" "/test" :=
    Or.inl (by decide)
  have stays : (absoluteRoot "./tmp/cache").StaysInCache "/test" :=
    ⟨⟨by decide, by decide, by decide⟩, by decide⟩
  have otherStays : (absoluteRoot "./tmp/other").StaysInCache "/test" :=
    ⟨⟨by decide, by decide, by decide⟩, by decide⟩
  have disjoint : DisjointCaches (absoluteRoot "./tmp/cache")
      (absoluteRoot "./tmp/other") :=
    disjointCaches_of_names (by decide) (by decide)
  have ⟨confined, apart⟩ := localPaths_confined_iff
    (absoluteRoot "./tmp/cache") rootNonempty isNormalized_test_file isDirectory
  exact ⟨confined.mpr stays, apart stays _ _ _ otherNonempty
    isNormalized_test_file isDirectory otherStays disjoint⟩

/-- A client of the server as the deployment starts it. -/
private def deployedRoot (cacheDirectory : String) : Mount where
  serverRootPath := "../Test_env/Filesystem_server"
  cacheDirectory := cacheDirectory

/-- With the root of the deployment, copies are placed next to the cache
directory, where two clients with disjoint cache directories share them. -/
theorem deployedRoot_leaves_cache :
    (deployedRoot "./tmp/cache").serverRootPath ≠ "" ∧
      IsNormalized "/test/file1.txt" ∧
        IsDirectoryOf "/test/file1.txt" "/test" ∧
          ¬ Confined (deployedRoot "./tmp/cache") "/test/file1.txt" "/test" ∧
            ¬ Inside (normalForm "./tmp/cache")
                (normalForm ((deployedRoot "./tmp/cache").openFileKeys
                  "file1.txt" "/test").fileLocation) ∧
              DisjointCaches (deployedRoot "./tmp/cache")
                  (deployedRoot "./tmp/other") ∧
                normalForm ((deployedRoot "./tmp/cache").openFileKeys
                    "file1.txt" "/test").fileLocation =
                  normalForm ((deployedRoot "./tmp/other").openFileKeys
                    "file1.txt" "/test").fileLocation := by
  have leaves : ¬ Inside (normalForm "./tmp/cache")
      (normalForm ((deployedRoot "./tmp/cache").openFileKeys
        "file1.txt" "/test").fileLocation) := by
    intro inside
    exact absurd inside.names (by decide)
  have isFilename : callbackFilename "/test/file1.txt" = "file1.txt" := by
    decide
  refine ⟨by decide, isNormalized_test_file, Or.inl (by decide), ?_, leaves,
    ?_, by decide +kernel⟩
  · intro confined
    have inside := confined.openedFile.toInside
    rw [isFilename] at inside
    exact leaves inside
  · exact disjointCaches_of_names (by decide) (by decide)

end Confinement

end DistributedFilesystem
