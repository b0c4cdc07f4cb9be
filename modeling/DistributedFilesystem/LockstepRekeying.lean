import DistributedFilesystem.OrderedMaps
import DistributedFilesystem.PathKeys
import DistributedFilesystem.RenamedPaths
import Mathlib.Data.String.Basic

/-!
# Re-keying the maps of a client

`rename_file` traverses three ordered maps of the client and moves the entries
at and below the old path while it does so.  The keys of `cache` and
`opened_files` are local paths, those of `cached_attr` server paths.  If neither
path is nested in the other, then the three loops end, and they move the same
paths.
-/

namespace DistributedFilesystem

/-- The maps of a client that `rename_file` traverses, with the keys that they
have. -/
structure KeyedMaps where
  cache : OrderedMap String FileInfo
  openedFiles : OrderedMap String FileStreams
  cachedAttr : OrderedMap String FileAttributes

/-- The key that `update_map_keys` gives to an entry with this one, if it moves
the entry. -/
def rekeyedTo (oldKey newKey key : String) : Option String :=
  (suffixBelow oldKey key).map fun suffix => newKey ++ suffix

/-- The three loops of `rename_file`, each with at most so many turns. -/
def KeyedMaps.rekey (turns : Nat) (keys : RenameKeys) (maps : KeyedMaps) :
    Option KeyedMaps :=
  let local' := rekeyedTo keys.source.fileLocation keys.target.fileLocation
  let onServer :=
    rekeyedTo keys.source.fileLocaServer keys.target.fileLocaServer
  match maps.cache.rekey local' turns, maps.openedFiles.rekey local' turns,
      maps.cachedAttr.rekey onServer turns with
  | some cache, some openedFiles, some cachedAttr =>
      some ⟨cache, openedFiles, cachedAttr⟩
  | _, _, _ => none

/-- The three loops end and leave these maps. -/
structure KeyedMaps.Rekeyed (keys : RenameKeys) (maps final : KeyedMaps) :
    Prop where
  cache : maps.cache.Rekeys
    (rekeyedTo keys.source.fileLocation keys.target.fileLocation) final.cache
  openedFiles : maps.openedFiles.Rekeys
    (rekeyedTo keys.source.fileLocation keys.target.fileLocation)
    final.openedFiles
  cachedAttr : maps.cachedAttr.Rekeys
    (rekeyedTo keys.source.fileLocaServer keys.target.fileLocaServer)
    final.cachedAttr

/-- What the old path and the paths below it had in a map, the new path and
those below it have now; nothing else has changed. -/
structure MovedPaths {α : Type*} (oldPath newPath : Path)
    (before final : Path → Option α) : Prop where
  arrives : ∀ suffix value, (suffix = "" ∨ ∃ rest, suffix = "/" ++ rest) →
    before (oldPath ++ suffix) = some value →
      final (newPath ++ suffix) = some value
  leaves : ∀ suffix, (suffix = "" ∨ ∃ rest, suffix = "/" ++ rest) →
    final (oldPath ++ suffix) = none
  stays : ∀ path,
    (∀ suffix, (suffix = "" ∨ ∃ rest, suffix = "/" ++ rest) →
      path ≠ oldPath ++ suffix) →
    (∀ suffix, (suffix = "" ∨ ∃ rest, suffix = "/" ++ rest) →
      path = newPath ++ suffix → before (oldPath ++ suffix) = none) →
    final path = before path

/-- What precedes the server path in a local key. -/
def Mount.localPrefix (mount : Mount) : String :=
  mount.cacheDirectory ++ (if frontIsSlash mount.serverRootPath then "" else "/")

/-- The three maps have moved the same paths. -/
structure InLockstep (localPrefix : String) (oldPath newPath : Path)
    (maps final : KeyedMaps) : Prop where
  cache : MovedPaths oldPath newPath
    (fun path => maps.cache.lookup (localPrefix ++ path))
    (fun path => final.cache.lookup (localPrefix ++ path))
  openedFiles : MovedPaths oldPath newPath
    (fun path => maps.openedFiles.lookup (localPrefix ++ path))
    (fun path => final.openedFiles.lookup (localPrefix ++ path))
  cachedAttr : MovedPaths oldPath newPath maps.cachedAttr.lookup
    final.cachedAttr.lookup

section Keys

variable {oldKey newKey key : String}

/-- The entries that are moved keep apart from those that were moved. -/
theorem relocation_of_separate (separate : Separate oldKey newKey) :
    OrderedMap.Relocation (rekeyedTo oldKey newKey)
      (rekeyedTo newKey oldKey) where
  target_iff := by
    have inverts : ∀ {first second key newKey' : String},
        rekeyedTo first second key = some newKey' →
          rekeyedTo second first newKey' = some key := by
      intro first second key newKey' moves
      obtain ⟨suffix, below, rfl⟩ := Option.map_eq_some_iff.mp moves
      obtain ⟨rfl, isBelow⟩ := eq_append_of_suffixBelow below
      simp [rekeyedTo, suffixBelow_append second isBelow]
    exact fun {_ _} => ⟨inverts, inverts⟩
  settled := by
    intro key newKey' moves
    obtain ⟨suffix, below, rfl⟩ := Option.map_eq_some_iff.mp moves
    obtain ⟨rfl, isBelow⟩ := eq_append_of_suffixBelow below
    have belowNew : (suffixBelow newKey (newKey ++ suffix)).isSome := by
      rw [suffixBelow_append newKey isBelow]
      rfl
    simp [rekeyedTo, suffixBelow_eq_none_of_separate separate belowNew]

/-- The loop over one map does what `updateMapKeys` says. -/
theorem lookup_of_rekeys_of_separate {α : Type*}
    {map final : OrderedMap String α} (separate : Separate oldKey newKey)
    (rekeys : map.Rekeys (rekeyedTo oldKey newKey) final) :
    final.lookup = updateMapKeys oldKey newKey map.lookup := by
  have relocation := relocation_of_separate separate
  rw [OrderedMap.lookup_of_rekeys relocation rekeys]
  funext key
  unfold OrderedMap.relocated
  cases renameRole_of_separate separate key with
  | target suffix belowNew notOld =>
      rw [updateMapKeys_target map.lookup belowNew notOld]
      simp [rekeyedTo, belowNew]
  | source suffix belowOld notNew =>
      rw [updateMapKeys_source map.lookup belowOld notNew]
      simp [rekeyedTo, belowOld, notNew]
  | bystander notOld notNew =>
      rw [updateMapKeys_bystander map.lookup notOld notNew]
      simp [rekeyedTo, notOld, notNew]

theorem movedPaths_updateMapKeys {α : Type*} (separate : Separate oldKey newKey)
    (map : Path → Option α) :
    MovedPaths oldKey newKey map (updateMapKeys oldKey newKey map) := by
  constructor
  case arrives =>
    intro suffix value isBelow held
    have belowNew := suffixBelow_append newKey isBelow
    have notOld := suffixBelow_eq_none_of_separate separate
      (Option.isSome_iff_exists.mpr ⟨_, belowNew⟩)
    rw [updateMapKeys_target map belowNew notOld, held]
    rfl
  case leaves =>
    intro suffix isBelow
    have belowOld := suffixBelow_append oldKey isBelow
    have notNew : suffixBelow newKey (oldKey ++ suffix) = none := by
      by_contra isBelowNew
      have apart := suffixBelow_eq_none_of_separate separate
        (Option.isSome_iff_ne_none.mpr isBelowNew)
      rw [belowOld] at apart
      exact Option.some_ne_none _ apart
    exact updateMapKeys_source map belowOld notNew
  case stays =>
    intro path notBelowOld nothing
    cases renameRole_of_separate separate path with
    | target suffix belowNew notOld =>
        obtain ⟨same, isBelow⟩ := eq_append_of_suffixBelow belowNew
        rw [updateMapKeys_target map belowNew notOld,
          nothing suffix isBelow same]
        rfl
    | source suffix belowOld notNew =>
        obtain ⟨same, isBelow⟩ := eq_append_of_suffixBelow belowOld
        exact absurd same (notBelowOld suffix isBelow)
    | bystander notOld notNew =>
        exact updateMapKeys_bystander map notOld notNew

/-- Strings with a common beginning are nested as their rests are. -/
theorem suffixBelow_append_left (front base path : String) :
    suffixBelow (front ++ base) (front ++ path) = suffixBelow base path := by
  have sameEq : front ++ path = front ++ base ↔ path = base :=
    String.append_right_inj front
  have samePrefix : (front ++ base ++ "/").toList.isPrefixOf
      (front ++ path).toList = (base ++ "/").toList.isPrefixOf path.toList := by
    rw [Bool.eq_iff_iff, List.isPrefixOf_iff_prefix,
      List.isPrefixOf_iff_prefix]
    simp [List.append_assoc, List.prefix_append_right_inj]
  have sameDrop : (front ++ path).toList.drop (front ++ base).length =
      path.toList.drop base.length := by
    rw [← String.length_toList, String.toList_append, String.toList_append,
      List.length_append, List.drop_length_add_append, String.length_toList]
  unfold suffixBelow
  simp only [sameEq, samePrefix, sameDrop]

theorem separate_append_left (front : String) (separate : Separate oldKey newKey) :
    Separate (front ++ oldKey) (front ++ newKey) where
  newNotBelow := by
    rw [suffixBelow_append_left]
    exact separate.newNotBelow
  oldNotBelow := by
    rw [suffixBelow_append_left]
    exact separate.oldNotBelow

/-- Moving keys with a common beginning moves the paths that follow it. -/
theorem movedPaths_of_prefix {α : Type*} {front : String}
    {before final : String → Option α}
    (moved : MovedPaths (front ++ oldKey) (front ++ newKey) before final) :
    MovedPaths oldKey newKey (fun path => before (front ++ path))
      (fun path => final (front ++ path)) := by
  constructor
  case arrives =>
    intro suffix value isBelow held
    rw [← String.append_assoc] at held ⊢
    exact moved.arrives suffix value isBelow held
  case leaves =>
    intro suffix isBelow
    rw [← String.append_assoc]
    exact moved.leaves suffix isBelow
  case stays =>
    intro path notBelowOld nothing
    apply moved.stays
    · intro suffix isBelow same
      rw [String.append_assoc] at same
      exact notBelowOld suffix isBelow ((String.append_right_inj front).mp same)
    · intro suffix isBelow same
      rw [String.append_assoc] at same ⊢
      exact nothing suffix isBelow ((String.append_right_inj front).mp same)

end Keys

section Mounts

/-- A resolved path begins with a slash if and only if the root does. -/
theorem Mount.frontIsSlash_resolve (mount : Mount) (userPath : String) :
    frontIsSlash (mount.resolveServerPath userPath) =
      frontIsSlash mount.serverRootPath := by
  obtain ⟨user, relative, eq⟩ : ∃ user : List Char,
      PosixPaths.isAbsolute '/' user = false ∧
        (mount.resolveServerPath userPath).toList =
          PosixPaths.genericString '/'
            (PosixPaths.append '/' mount.serverRootPath.toList user) := by
    refine ⟨_, ?_, String.toList_ofList⟩
    split
    · next absolute =>
        have noSlash := List.head?_dropWhile_not (· == '/') userPath.toList
        unfold PosixPaths.isAbsolute PosixPaths.relativePath
        cases front : (userPath.toList.dropWhile (· == '/')).head? with
        | none => rfl
        | some first => simpa [front] using noSlash
    · next notAbsolute => simpa using notAbsolute
  rw [frontIsSlash, eq, PosixPaths.head?_genericString,
    PosixPaths.append_of_relative relative, frontIsSlash]
  by_cases hasRoot : mount.serverRootPath.toList = []
  · rw [hasRoot]
    exact relative
  · unfold PosixPaths.asDirectory
    split
    · rw [List.head?_append_of_ne_nil _ hasRoot]
    · rw [List.append_assoc, List.head?_append_of_ne_nil _ hasRoot]

/-- The local keys of a rename are the server paths after one common prefix. -/
theorem Mount.renameFileKeys_local (mount : Mount)
    (fromName toName oldPath newPath : String) :
    (mount.renameFileKeys fromName toName oldPath newPath).source.fileLocation =
        mount.localPrefix ++ (mount.renameFileKeys fromName toName oldPath
          newPath).source.fileLocaServer ∧
      (mount.renameFileKeys fromName toName oldPath
          newPath).target.fileLocation =
        mount.localPrefix ++ (mount.renameFileKeys fromName toName oldPath
          newPath).target.fileLocaServer := by
  simp only [renameFileKeys, joinName, localPrefix,
    frontIsSlash_resolve, String.append_assoc, and_self]

end Mounts

/-- Renaming between separate server paths: the three loops end, whatever the
maps hold, and they move the old path and everything below it to the new path
in all three maps, and nothing else. -/
theorem rename_rekeys_in_lockstep (mount : Mount)
    (fromName toName oldPath newPath : String) (maps : KeyedMaps)
    (separate : Separate
      (mount.renameFileKeys fromName toName oldPath
        newPath).source.fileLocaServer
      (mount.renameFileKeys fromName toName oldPath
        newPath).target.fileLocaServer) :
    (∃ final, maps.Rekeyed
        (mount.renameFileKeys fromName toName oldPath newPath) final) ∧
      ∀ final, maps.Rekeyed
          (mount.renameFileKeys fromName toName oldPath newPath) final →
        InLockstep mount.localPrefix
          (mount.renameFileKeys fromName toName oldPath
            newPath).source.fileLocaServer
          (mount.renameFileKeys fromName toName oldPath
            newPath).target.fileLocaServer maps final := by
  obtain ⟨sourceLocal, targetLocal⟩ := mount.renameFileKeys_local fromName
    toName oldPath newPath
  have separateLocal := separate_append_left mount.localPrefix separate
  rw [← sourceLocal, ← targetLocal] at separateLocal
  have relocation := relocation_of_separate separate
  have relocationLocal := relocation_of_separate separateLocal
  constructor
  · obtain ⟨cache, cacheEnds⟩ :=
      OrderedMap.exists_rekeys relocationLocal maps.cache
    obtain ⟨openedFiles, openedEnds⟩ :=
      OrderedMap.exists_rekeys relocationLocal maps.openedFiles
    obtain ⟨cachedAttr, attrEnds⟩ :=
      OrderedMap.exists_rekeys relocation maps.cachedAttr
    exact ⟨⟨cache, openedFiles, cachedAttr⟩, cacheEnds, openedEnds, attrEnds⟩
  · intro final rekeyed
    constructor
    case cache =>
      apply movedPaths_of_prefix
      rw [← sourceLocal, ← targetLocal,
        lookup_of_rekeys_of_separate separateLocal rekeyed.cache]
      exact movedPaths_updateMapKeys separateLocal _
    case openedFiles =>
      apply movedPaths_of_prefix
      rw [← sourceLocal, ← targetLocal,
        lookup_of_rekeys_of_separate separateLocal rekeyed.openedFiles]
      exact movedPaths_updateMapKeys separateLocal _
    case cachedAttr =>
      rw [lookup_of_rekeys_of_separate separate rekeyed.cachedAttr]
      exact movedPaths_updateMapKeys separate _

private def mountedRoot : Mount where
  serverRootPath := "/srv"
  cacheDirectory := "/tmp/cache"

/-- A client that has cached a file in the directory `a` and one in its sibling
`ab`. -/
private def siblings : KeyedMaps where
  cache :=
    (OrderedMap.empty.assign "/tmp/cache/srv/a/x" ⟨false, 1⟩).assign
      "/tmp/cache/srv/ab/x" ⟨false, 2⟩
  openedFiles := .empty
  cachedAttr := OrderedMap.empty.assign "/srv/a/x" ⟨0, 1, 1, 1⟩

/-- The directory `a` is renamed to `b`. -/
theorem rename_a_to_b_in_lockstep :
    (∃ final, siblings.Rekeyed
        (mountedRoot.renameFileKeys "a" "b" "/" "/") final) ∧
      ∀ final, siblings.Rekeyed
          (mountedRoot.renameFileKeys "a" "b" "/" "/") final →
        InLockstep "/tmp/cache" "/srv/a" "/srv/b" siblings final :=
  rename_rekeys_in_lockstep mountedRoot "a" "b" "/" "/" siblings
    ⟨by decide, by decide⟩

end DistributedFilesystem
