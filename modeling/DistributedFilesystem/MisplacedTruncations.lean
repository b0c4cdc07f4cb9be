import DistributedFilesystem.CacheConfinement
import DistributedFilesystem.ClientOperations

/-!
# The file that a truncation resizes

`truncate_file` appends the name of the file to the local directory without a
slash between them.  Only where the directory ends with a slash, which the
resolved root directory does, this is the path that the other operations use.
-/

namespace DistributedFilesystem

open PosixPaths NormalPath

/-- The local files by the normal forms of their paths; the client makes no
links. -/
abbrev LocalFiles := NormalPath Char → Option Bytes

/-- The contents cut to a size, or extended to it with zeros. -/
def resized (size : Nat) (contents : Bytes) : Bytes :=
  contents.take size ++ List.replicate (size - contents.length) 0

namespace Mount

variable (mount : Mount) (mayResize : Bool) (filename path : String)

/-- The path that `truncate_file` builds. -/
def truncateFileLocation : String :=
  let resolvedPath := mount.resolveServerPath path
  mount.cacheDirectory ++ (if frontIsSlash resolvedPath then "" else "/") ++
    resolvedPath ++ filename

/-- `truncate_file`; `std::filesystem::resize_file` throws on a negative size,
for a missing file, and where the operating system refuses. -/
def truncateFile (size : Int) (files : LocalFiles) : LocalFiles × Bool :=
  let cachePath := normalForm (mount.truncateFileLocation filename path)
  match files cachePath with
  | some contents =>
      if mayResize = false ∨ size < 0 then (files, false)
      else
        (Function.update files cachePath (some (resized size.toNat contents)),
          true)
  | none => (files, false)

end Mount

/-- The truncation returns true, the file that `read_file` reads is resized, and
no other file in the cache directory changes. -/
structure TruncatesOwn (mount : Mount) (mayResize : Bool)
    (filename path : String) (size : Nat) (files : LocalFiles) : Prop where
  returns : (mount.truncateFile mayResize filename path size files).2 = true
  own : (mount.truncateFile mayResize filename path size files).1
      (normalForm (mount.readFileLocation filename path)) =
    (files (normalForm (mount.readFileLocation filename path))).map
      (resized size)
  others : ∀ other, other ≠ normalForm (mount.readFileLocation filename path) →
    Inside (normalForm mount.cacheDirectory) other →
      (mount.truncateFile mayResize filename path size files).1 other =
        files other

variable {mount : Mount} {mayResize : Bool} {filename path : String}
variable {size : Nat} {files : LocalFiles} {contents : Bytes}

section Locations

theorem length_resized (size : Nat) (contents : Bytes) :
    (resized size contents).length = size := by
  rw [resized, List.length_append, List.length_take, List.length_replicate]
  omega

/-- Resizing changes nothing exactly where the size is right. -/
theorem resized_eq_self_iff : resized size contents = contents ↔
    contents.length = size := by
  constructor
  · intro same
    rw [← same, length_resized]
  · rintro rfl
    simp [resized]

theorem truncateFileLocation_eq (mount : Mount) (filename path : String) :
    mount.truncateFileLocation filename path =
      mount.cacheDir path ++ filename :=
  rfl

theorem cacheDir_ne_empty (mount : Mount) (path : String) :
    (mount.cacheDir path).toList ≠ [] := by
  intro isEmpty
  rw [Mount.cacheDir, Mount.inCache, String.toList_append, String.toList_append,
    List.append_eq_nil_iff, List.append_eq_nil_iff] at isEmpty
  obtain ⟨⟨-, noSlash⟩, noPath⟩ := isEmpty
  simp [frontIsSlash, noPath] at noSlash

/-- Both paths begin like the local directory. -/
theorem isAbsolute_cacheDir_append (rest : List Char) :
    isAbsolute '/' ((mount.cacheDir path).toList ++ rest) =
      isAbsolute '/' (mount.cacheDir path).toList := by
  rw [isAbsolute, isAbsolute,
    List.head?_append_of_ne_nil _ (cacheDir_ne_empty mount path)]

theorem filename_eq_nil_iff : PosixPaths.filename '/' (mount.cacheDir path).toList = [] ↔
    backIsSlash (mount.cacheDir path) = true := by
  have nonempty := cacheDir_ne_empty mount path
  rw [PosixPaths.filename, List.rtakeWhile_eq_nil_iff, backIsSlash, beq_iff_eq,
    List.getLast?_eq_some_getLast nonempty, Option.some.injEq]
  simp [nonempty]

/-- The path that the other operations use is the name in the local
directory. -/
theorem normalForm_readFileLocation (isName : IsEntryName filename.toList) :
    normalForm (mount.readFileLocation filename path) =
      enter '.' (normalForm (mount.cacheDir path)) filename.toList := by
  have location : (mount.readFileLocation filename path).toList =
      (mount.cacheDir path).toList ++
        ((if backIsSlash (mount.resolveServerPath path) then "" else "/").toList ++
          filename.toList) := by
    simp only [Mount.readFileLocation, Mount.locate, Mount.cacheDir,
      Mount.inCache, String.toList_append, List.append_assoc]
  have names : components '/' (mount.readFileLocation filename path).toList =
      components '/' (mount.cacheDir path).toList ++ [filename.toList] := by
    rw [location]
    split
    · next ends =>
        rw [String.toList_empty, List.nil_append]
        refine components_append_name isName.toIsName ?_
        have nonempty : mount.resolveServerPath path ≠ "" := by
          intro isEmpty
          rw [isEmpty] at ends
          exact absurd ends (by decide)
        rw [filename_eq_nil_iff, Mount.cacheDir, Mount.backIsSlash_inCache nonempty,
          ends]
    · have slash : "/".toList = ['/'] := rfl
      rw [slash, List.singleton_append, components_append_separator,
        components_of_name isName.toIsName]
  rw [normalForm, lexicallyNormal, names, location, isAbsolute_cacheDir_append,
    follow_append_singleton]
  rfl

/-- Where the local directory ends with a slash, both paths are the same. -/
theorem normalForm_truncateFileLocation (isName : IsEntryName filename.toList)
    (ends : backIsSlash (mount.cacheDir path) = true) :
    normalForm (mount.truncateFileLocation filename path) =
      normalForm (mount.readFileLocation filename path) := by
  rw [normalForm_readFileLocation isName, normalForm, lexicallyNormal,
    truncateFileLocation_eq, String.toList_append,
    components_append_name isName.toIsName (filename_eq_nil_iff.mpr ends),
    isAbsolute_cacheDir_append, follow_append_singleton]
  rfl

/-- Elsewhere the last name of the directory becomes a part of the name. -/
theorem normalForm_truncateFileLocation_ne
    (isName : IsEntryName filename.toList)
    (noSlash : backIsSlash (mount.cacheDir path) = false) :
    normalForm (mount.truncateFileLocation filename path) ≠
      normalForm (mount.readFileLocation filename path) := by
  have element : PosixPaths.filename '/' (mount.cacheDir path).toList ≠ [] := by
    rw [ne_eq, filename_eq_nil_iff, noSlash]
    exact Bool.false_ne_true
  obtain ⟨front, -, glued⟩ :=
    exists_components_append_name isName.toIsName element
  have notSelf : PosixPaths.filename '/' (mount.cacheDir path).toList ++
      filename.toList ≠ ['.'] := by
    intro same
    have lengths := congrArg List.length same
    have first := List.length_pos_iff.mpr element
    have second := List.length_pos_iff.mpr isName.nonempty
    rw [List.length_append, List.length_singleton] at lengths
    omega
  have notParent : PosixPaths.filename '/' (mount.cacheDir path).toList ++
      filename.toList ≠ ['.', '.'] := by
    intro same
    rcases List.append_eq_cons_iff.mp same with ⟨isEmpty, -⟩ | ⟨rest, -, same⟩
    · exact element isEmpty
    · rcases List.append_eq_cons_iff.mp same.symm with ⟨-, isDot⟩ | ⟨_, -, isEmpty⟩
      · exact isName.notSelf isDot
      · exact isName.nonempty (List.append_eq_nil_iff.mp isEmpty.symm).2
  intro same
  rw [normalForm_readFileLocation isName, normalForm, lexicallyNormal,
    truncateFileLocation_eq, String.toList_append, glued,
    follow_append_singleton, enter, if_neg notSelf, if_neg notParent, enter,
    if_neg isName.notSelf, if_neg isName.notParent] at same
  have names := congrArg NormalPath.names same
  have lastNames := (List.append_inj' names rfl).2
  have shorter := congrArg List.length (List.singleton_inj.mp lastNames)
  have first := List.length_pos_iff.mpr element
  rw [List.length_append] at shorter
  omega

end Locations

section Truncations

/-- A truncation that returns true resizes what is at its path. -/
theorem truncateFile_of_present {other : Bytes} (mayResize : Bool) (size : Nat)
    (present : files (normalForm (mount.truncateFileLocation filename path)) =
      some other) :
    mount.truncateFile mayResize filename path size files =
      if mayResize then
        (Function.update files
          (normalForm (mount.truncateFileLocation filename path))
          (some (resized size other)), true)
      else (files, false) := by
  simp only [Mount.truncateFile, present]
  cases mayResize with
  | true => simp
  | false => simp

theorem returns_of_truncateFile
    (returns : (mount.truncateFile mayResize filename path size files).2 = true) :
    mayResize = true ∧ ∃ other,
      files (normalForm (mount.truncateFileLocation filename path)) =
        some other := by
  cases present : files
      (normalForm (mount.truncateFileLocation filename path)) with
  | none => simp [Mount.truncateFile, present] at returns
  | some other =>
      rw [truncateFile_of_present mayResize size present] at returns
      cases mayResize with
      | true => exact ⟨rfl, other, rfl⟩
      | false => simp at returns

/-- A truncation at the path of the file does what it should. -/
theorem truncatesOwn_of_same
    (same : normalForm (mount.truncateFileLocation filename path) =
      normalForm (mount.readFileLocation filename path))
    (copy : files (normalForm (mount.readFileLocation filename path)) =
      some contents) :
    TruncatesOwn mount true filename path size files := by
  have truncates := truncateFile_of_present true size
    (same.symm ▸ copy)
  rw [same, if_pos rfl] at truncates
  constructor
  case returns => rw [truncates]
  case own =>
    rw [truncates, copy, Option.map_some]
    exact Function.update_self ..
  case others =>
    intro other apart _
    rw [truncates]
    exact Function.update_of_ne apart ..

/-- A truncation at another path does what it should exactly where both files
have the size already. -/
theorem truncatesOwn_iff_of_ne {glued : Bytes}
    (apart : normalForm (mount.truncateFileLocation filename path) ≠
      normalForm (mount.readFileLocation filename path))
    (copy : files (normalForm (mount.readFileLocation filename path)) =
      some contents)
    (present : files (normalForm (mount.truncateFileLocation filename path)) =
      some glued) :
    TruncatesOwn mount true filename path size files ↔
      contents.length = size ∧
        (Inside (normalForm mount.cacheDirectory)
          (normalForm (mount.truncateFileLocation filename path)) →
            glued.length = size) := by
  have truncates := truncateFile_of_present true size present
  rw [if_pos rfl] at truncates
  constructor
  · intro truncatesOwn
    have own := truncatesOwn.own
    rw [truncates, copy, Option.map_some] at own
    dsimp only at own
    rw [Function.update_of_ne apart.symm, copy, Option.some.injEq] at own
    refine ⟨resized_eq_self_iff.mp own.symm, ?_⟩
    intro inside
    have kept := truncatesOwn.others _ apart inside
    rw [truncates, present] at kept
    dsimp only at kept
    rw [Function.update_self, Option.some.injEq] at kept
    exact resized_eq_self_iff.mp kept
  · rintro ⟨ownSize, gluedSize⟩
    constructor
    case returns => rw [truncates]
    case own =>
      rw [truncates, copy, Option.map_some, resized_eq_self_iff.mpr ownSize,
        ← copy]
      exact Function.update_of_ne apart.symm ..
    case others =>
      intro other _ inside
      rw [truncates]
      dsimp only
      rw [Function.update_apply]
      split
      · next isGlued =>
          rw [isGlued] at inside ⊢
          rw [present, resized_eq_self_iff.mpr (gluedSize inside)]
      · rfl

end Truncations

/-- A truncation resizes its own file and only that, if and only if the operating
system allows it, and the local directory ends with a slash or the resizing of
the wrong file leaves nothing to see. -/
theorem truncatesOwn_iff (mount : Mount) (mayResize : Bool)
    {filename : String} (path : String) (size : Nat) {files : LocalFiles}
    {contents : Bytes} (isName : IsEntryName filename.toList)
    (copy : files (normalForm (mount.readFileLocation filename path)) =
      some contents) :
    TruncatesOwn mount mayResize filename path size files ↔
      mayResize = true ∧
        (backIsSlash (mount.cacheDir path) = true ∨
          ∃ glued,
            files (normalForm (mount.truncateFileLocation filename path)) =
              some glued ∧
            contents.length = size ∧
              (Inside (normalForm mount.cacheDirectory)
                (normalForm (mount.truncateFileLocation filename path)) →
                  glued.length = size)) := by
  constructor
  · intro truncatesOwn
    obtain ⟨rfl, glued, present⟩ := returns_of_truncateFile truncatesOwn.returns
    refine ⟨rfl, ?_⟩
    cases ends : backIsSlash (mount.cacheDir path) with
    | true => exact .inl rfl
    | false =>
        have apart := normalForm_truncateFileLocation_ne isName ends
        exact .inr ⟨glued, present,
          (truncatesOwn_iff_of_ne apart copy present).mp truncatesOwn⟩
  · rintro ⟨rfl, ends | ⟨glued, present, sizes⟩⟩
    · exact truncatesOwn_of_same (normalForm_truncateFileLocation isName ends) copy
    · cases ends : backIsSlash (mount.cacheDir path) with
      | true =>
          exact truncatesOwn_of_same
            (normalForm_truncateFileLocation isName ends) copy
      | false =>
          have apart := normalForm_truncateFileLocation_ne isName ends
          exact (truncatesOwn_iff_of_ne apart copy present).mpr sizes

private def cacheOfSrv : Mount where
  serverRootPath := "/srv"
  cacheDirectory := "/cache"

/-- The file `a` in the directory `docs`, the file `docsa`, and the file `a` in
the root directory. -/
private def threeFiles : LocalFiles := fun location =>
  if location = normalForm "/cache/srv/docs/a" then some [97]
  else if location = normalForm "/cache/srv/docsa" then some [98]
  else if location = normalForm "/cache/srv/a" then some [99, 100]
  else none

/-- The file in the root directory is cut. -/
theorem truncatesOwn_inRoot :
    TruncatesOwn cacheOfSrv true "a" "/" 1 threeFiles :=
  (truncatesOwn_iff cacheOfSrv true "/" 1
    ⟨⟨by decide, by decide⟩, by decide, by decide⟩
    (show _ = some [99, 100] by decide)).mpr ⟨rfl, .inl (by decide)⟩

/-- The truncation of a file in a directory returns true, leaves the file as it
is, and cuts another one. -/
theorem truncation_cuts_other_file :
    cacheOfSrv.readFileLocation "a" "/docs" = "/cache/srv/docs/a" ∧
      (cacheOfSrv.truncateFile true "a" "/docs" 0 threeFiles).2 = true ∧
      (cacheOfSrv.truncateFile true "a" "/docs" 0 threeFiles).1
        (normalForm "/cache/srv/docs/a") = some [97] ∧
      (cacheOfSrv.truncateFile true "a" "/docs" 0 threeFiles).1
        (normalForm "/cache/srv/docsa") = some [] ∧
      ¬ TruncatesOwn cacheOfSrv true "a" "/docs" 0 threeFiles := by
  refine ⟨by decide, by decide, by decide, by decide, ?_⟩
  intro truncatesOwn
  exact absurd truncatesOwn.own (by decide)

end DistributedFilesystem
