import DistributedFilesystem.LockstepRekeying
import DistributedFilesystem.TreeRemovals
import DistributedFilesystem.ReportedRenames

/-!
# Renames that fail

`rename_file` removes what is at the new local path, moves what is at the old
one, and re-keys three maps before it calls the server, and it takes nothing
back where it returns false.  Here the client has the tree of its local files,
with directories, and the ordered maps, so that every name can be renamed to
every other one.
-/

namespace DistributedFilesystem

/-- What `rename_file` reads and changes of a client. -/
structure RenamingClient where
  clientId : ClientId
  maps : KeyedMaps
  tree : FileTree (List Char) Nat

/-- How the local file system answers, and how many turns the loops may
take. -/
structure RenamingAnswers where
  mayRemove : Bool
  mayRename : Bool
  turns : Nat

namespace RenamingClient

/-- Remove what is at the new path, a file or an empty directory; no result when
`std::filesystem::remove` throws. -/
def makeWay (answers : RenamingAnswers) (new : List (List Char))
    (tree : FileTree (List Char) Nat) : Option (FileTree (List Char) Nat) :=
  match tree.entry new with
  | none => some tree
  | some _ =>
      match tree.remove (fun _ => true) (fun _ => answers.mayRemove)
          (.ofNames new) with
      | (tree, .removed) => some tree
      | _ => none

/-- Rename what is at the old path, if anything is; no result when
`std::filesystem::rename` throws. -/
def moveLocally (answers : RenamingAnswers) (old new : List (List Char))
    (tree : FileTree (List Char) Nat) : Option (FileTree (List Char) Nat) :=
  match tree.entry old with
  | none => some tree
  | some _ => tree.rename answers.mayRename old new

/-- `rename_file` from the keys on; no result when it does not return. -/
def renameKeys {σ : Type*} (remote : Remote σ) (answers : RenamingAnswers)
    (keys : RenameKeys) (client : RenamingClient) (r : σ) :
    Option ((RenamingClient × σ) × Bool) :=
  let old := pathNames keys.source.fileLocation
  let new := pathNames keys.target.fileLocation
  if client.tree.entry new = some .directory ∧
      client.tree.isEmptyAt new = false then some ((client, r), false)
  else
    match makeWay answers new client.tree with
    | none => none
    | some cleared =>
        match moveLocally answers old new cleared with
        | none => some (({ client with tree := cleared }, r), false)
        | some tree =>
            match client.maps.rekey answers.turns keys with
            | none => none
            | some maps =>
                (remote.renameCall r keys.source.fileLocaServer
                  keys.target.fileLocaServer client.clientId).map
                    fun (r, status) => (({ client with maps, tree }, r),
                      status.isOk || status.code == .notFound)

/-- `rename_file` -/
def renameFile {σ : Type*} (remote : Remote σ) (answers : RenamingAnswers)
    (mount : Mount) (fromName toName oldPath newPath : String)
    (client : RenamingClient) (r : σ) :
    Option ((RenamingClient × σ) × Bool) :=
  client.renameKeys remote answers
    (mount.renameFileKeys fromName toName oldPath newPath) r

/-- The maps have the same entries, and the local tree has the same files and
directories. -/
structure SameLocally (client client' : RenamingClient) : Prop where
  cache : client'.maps.cache.lookup = client.maps.cache.lookup
  openedFiles : client'.maps.openedFiles.lookup = client.maps.openedFiles.lookup
  cachedAttr : client'.maps.cachedAttr.lookup = client.maps.cachedAttr.lookup
  tree : client'.tree.entry = client.tree.entry

variable (answers : RenamingAnswers) (keys : RenameKeys)
variable (client : RenamingClient)

/-- The target is a directory that is not empty. -/
def TargetRefused : Prop :=
  client.tree.entry (pathNames keys.target.fileLocation) = some .directory ∧
    client.tree.isEmptyAt (pathNames keys.target.fileLocation) = false

/-- Something is at the old path, and cannot be moved. -/
def LocalRenameFails : Prop :=
  client.tree.entry (pathNames keys.source.fileLocation) ≠ none ∧
    pathNames keys.source.fileLocation ≠ pathNames keys.target.fileLocation ∧
    (answers.mayRename = false ∨
      pathNames keys.source.fileLocation <+:
        pathNames keys.target.fileLocation ∨
      client.tree.entry (pathNames keys.target.fileLocation).dropLast ≠
        some .directory)

/-- The client has nothing at or below the old path. -/
structure NothingToRename : Prop where
  tree : client.tree.entry (pathNames keys.source.fileLocation) = none
  cache : ∀ key ∈ client.maps.cache.keys,
    suffixBelow keys.source.fileLocation key = none
  openedFiles : ∀ key ∈ client.maps.openedFiles.keys,
    suffixBelow keys.source.fileLocation key = none
  cachedAttr : ∀ key ∈ client.maps.cachedAttr.keys,
    suffixBelow keys.source.fileLocaServer key = none

/-- The server is called, and answers OK or that it found nothing. -/
def Accepted {σ : Type*} (remote : Remote σ) (r : σ) : Prop :=
  ∃ r' status, remote.renameCall r keys.source.fileLocaServer
      keys.target.fileLocaServer client.clientId = some (r', status) ∧
    (status.isOk || status.code == .notFound) = true

/-- The target is refused; or it is missing, and nothing is moved; or all steps
succeed. -/
def FailsHarmlessly {σ : Type*} (remote : Remote σ) (r : σ) : Prop :=
  client.TargetRefused keys ∨
    client.tree.entry (pathNames keys.target.fileLocation) = none ∧
      (client.LocalRenameFails answers keys ∨ client.NothingToRename keys) ∨
    ¬ client.LocalRenameFails answers keys ∧ client.Accepted keys remote r

end RenamingClient

section Loops

variable {oldKey newKey : String} {α : Type*}

/-- Keys can be weighed so that those that are moved get heavier, unless they
are moved to themselves. -/
theorem exists_weight (oldKey newKey : String) :
    ∃ weight : String → Int, ∀ {key moved : String},
      rekeyedTo oldKey newKey key = some moved →
        moved = key ∨ weight key < weight moved := by
  have lengths : ∀ {key moved : String},
      rekeyedTo oldKey newKey key = some moved →
        moved.length + oldKey.length = key.length + newKey.length := by
    intro key moved moves
    obtain ⟨suffix, below, rfl⟩ := Option.map_eq_some_iff.mp moves
    obtain ⟨rfl, -⟩ := eq_append_of_suffixBelow below
    simp only [String.length_append]
    omega
  by_cases same : oldKey = newKey
  · refine ⟨fun _ => 0, fun {key moved} moves => .inl ?_⟩
    obtain ⟨suffix, below, rfl⟩ := Option.map_eq_some_iff.mp moves
    rw [← same]
    exact (eq_append_of_suffixBelow below).1.symm
  rcases lt_trichotomy oldKey.length newKey.length with shorter | equal | longer
  · refine ⟨fun key => key.length, fun moves => .inr ?_⟩
    have sum := lengths moves
    dsimp only
    omega
  · have separate : Separate oldKey newKey := by
      have apart : ∀ {first second : String}, first.length = second.length →
          first ≠ second → suffixBelow first second = none := by
        intro first second sameLength different
        by_contra isBelow
        obtain ⟨suffix, below⟩ := Option.ne_none_iff_exists'.mp isBelow
        obtain ⟨isAppend, -⟩ := eq_append_of_suffixBelow below
        have noMore : suffix.length = 0 := by
          have sum := congrArg String.length isAppend
          rw [String.length_append] at sum
          omega
        have isEmpty : suffix = "" := by
          apply String.toList_inj.mp
          apply List.eq_nil_of_length_eq_zero
          rw [String.length_toList, noMore]
        rw [isEmpty] at isAppend
        exact different (by simpa using isAppend.symm)
      exact ⟨apart equal same, apart equal.symm (Ne.symm same)⟩
    refine ⟨fun key => if (rekeyedTo oldKey newKey key).isSome then 0 else 1,
      fun moves => .inr ?_⟩
    have isSettled := (relocation_of_separate separate).settled moves
    simp [moves, isSettled]
  · refine ⟨fun key => -key.length, fun moves => .inr ?_⟩
    have sum := lengths moves
    dsimp only
    omega

/-- A loop that ends leaves a map as it was if and only if no key was at or
below the old one. -/
theorem lookup_rekey_eq_iff {map final : OrderedMap String α} {turns : Nat}
    (ends : map.rekey (rekeyedTo oldKey newKey) turns = some final) :
    final.lookup = map.lookup ↔
      ∀ key ∈ map.keys, suffixBelow oldKey key = none := by
  obtain ⟨weight, grows⟩ := exists_weight oldKey newKey
  have rekeys := OrderedMap.rekeys_of_rekey ends
  rw [OrderedMap.lookup_eq_iff_of_rekeys grows rekeys]
  simp [rekeyedTo]

end Loops

namespace RenamingClient

section LocalSteps

variable {answers : RenamingAnswers} {old new : List (List Char)}
variable {tree cleared moved : FileTree (List Char) Nat}

/-- What makes way is gone, and nothing else is. -/
theorem entry_of_makeWay (made : makeWay answers new tree = some cleared) :
    cleared.entry = Function.update tree.entry new none := by
  unfold makeWay at made
  split at made
  · next missing =>
      obtain rfl := Option.some.inj made
      rw [← missing, Function.update_eq_self]
  · split at made
    · next after removes =>
        obtain rfl := Option.some.inj made
        have removed : tree.removal (fun _ => true)
            (fun _ => answers.mayRemove) (.ofNames new) = .removed := by
          rw [← FileTree.remove_snd, removes]
        have entries := FileTree.entry_remove removed
        rwa [removes, FileTree.destination_ofNames] at entries
    · simp at made

/-- Nothing is the same as what is missing. -/
theorem isSame_of_vacant (vacant : cleared.entry new = none) :
    cleared.isSame old new = false := by
  unfold FileTree.isSame
  rw [vacant]
  split <;> simp_all

/-- Renaming to a path where nothing is fails exactly where the operating
system refuses it, or the new path has no directory or lies below the old
one. -/
theorem rename_eq_none_iff (inUse : cleared.entry old ≠ none)
    (vacant : cleared.entry new = none) :
    cleared.rename answers.mayRename old new = none ↔
      answers.mayRename = false ∨ old <+: new ∨
        cleared.entry new.dropLast ≠ some .directory := by
  have notSame : cleared.isSame old new = false := isSame_of_vacant vacant
  have givesWay : cleared.givesWay old new = true := by
    obtain ⟨entry, present⟩ := Option.ne_none_iff_exists'.mp inUse
    simp [FileTree.givesWay, vacant, present]
  have movable_iff : cleared.Movable old new ↔
      ¬ old <+: new ∧ cleared.entry new.dropLast = some .directory := by
    constructor
    · intro movable
      exact ⟨movable.notNested, movable.inDirectory⟩
    · rintro ⟨notNested, inDirectory⟩
      exact ⟨notNested, inDirectory, givesWay⟩
  unfold FileTree.rename
  cases allowed : answers.mayRename with
  | false => simp
  | true =>
      by_cases movable : cleared.Movable old new
      · have parts := movable_iff.mp movable
        simp [notSame, movable, parts.1, parts.2]
      · have parts := mt movable_iff.mpr movable
        simp only [notSame, movable]
        simp only [not_and_or, not_not] at parts
        simpa using parts

/-- A rename to a path where nothing is leaves nothing at the old path. -/
theorem entry_of_rename (vacant : cleared.entry new = none)
    (renames : cleared.rename answers.mayRename old new = some moved) :
    moved.entry old = none := by
  have notSame : cleared.isSame old new = false := isSame_of_vacant vacant
  unfold FileTree.rename at renames
  simp only [notSame, Bool.false_eq_true, if_false] at renames
  split_ifs at renames with refused movable
  obtain rfl := Option.some.inj renames
  simpa using FileTree.entry_move_old movable []

/-- Nothing is lost from the local tree, once the target is out of the way and
the source is moved, if and only if nothing was at either path. -/
theorem entry_eq_iff_of_moved (made : makeWay answers new tree = some cleared)
    (moves : moveLocally answers old new cleared = some moved) :
    moved.entry = tree.entry ↔
      tree.entry new = none ∧ tree.entry old = none := by
  have entries := entry_of_makeWay made
  have vacant : cleared.entry new = none := by
    rw [entries, Function.update_self]
  have sourceGone : moved.entry old = none := by
    unfold moveLocally at moves
    split at moves
    · next missing =>
        obtain rfl := Option.some.inj moves
        exact missing
    · exact entry_of_rename vacant moves
  constructor
  · intro same
    have oldMissing : tree.entry old = none := by
      rw [← same, sourceGone]
    refine ⟨?_, oldMissing⟩
    have stays : moveLocally answers old new cleared = some cleared := by
      have missing : cleared.entry old = none := by
        rw [entries, Function.update_apply, oldMissing, ite_self]
      simp only [moveLocally, missing]
    obtain rfl := Option.some.inj (stays.symm.trans moves)
    rw [← same, vacant]
  · rintro ⟨newMissing, oldMissing⟩
    have unchanged : cleared.entry = tree.entry := by
      rw [entries, ← newMissing, Function.update_eq_self]
    have stays : moveLocally answers old new cleared = some cleared := by
      simp only [moveLocally, unchanged, oldMissing]
    obtain rfl := Option.some.inj (stays.symm.trans moves)
    exact unchanged

end LocalSteps

section Failures

variable {σ : Type*} {remote : Remote σ} {answers : RenamingAnswers}
variable {keys : RenameKeys} {client : RenamingClient} {r : σ}
variable {cleared moved : FileTree (List Char) Nat} {maps : KeyedMaps}

/-- Once the target is out of the way, the local rename fails where
`LocalRenameFails` says so. -/
theorem moveLocally_eq_none_iff
    (made : makeWay answers (pathNames keys.target.fileLocation) client.tree =
      some cleared) :
    moveLocally answers (pathNames keys.source.fileLocation)
        (pathNames keys.target.fileLocation) cleared = none ↔
      client.LocalRenameFails answers keys := by
  have entries := entry_of_makeWay made
  have vacant : cleared.entry (pathNames keys.target.fileLocation) = none := by
    rw [entries, Function.update_self]
  have inUse_iff : cleared.entry (pathNames keys.source.fileLocation) ≠ none ↔
      client.tree.entry (pathNames keys.source.fileLocation) ≠ none ∧
        pathNames keys.source.fileLocation ≠
          pathNames keys.target.fileLocation := by
    rw [entries, Function.update_apply]
    split <;> simp_all
  have sameParent : cleared.entry (pathNames keys.target.fileLocation).dropLast =
      client.tree.entry (pathNames keys.target.fileLocation).dropLast := by
    have notRoot : pathNames keys.target.fileLocation ≠ [] := by
      intro isRoot
      rw [isRoot, cleared.root] at vacant
      exact Option.some_ne_none _ vacant
    rw [entries, Function.update_of_ne]
    intro same
    have lengths := congrArg List.length same
    have positive := List.length_pos_iff.mpr notRoot
    rw [List.length_dropLast] at lengths
    omega
  unfold LocalRenameFails
  rw [← and_assoc, ← inUse_iff, ← sameParent]
  unfold moveLocally
  split
  · next missing => simp [missing]
  · next entry present =>
      have inUse : cleared.entry (pathNames keys.source.fileLocation) ≠ none := by
        simp [present]
      rw [rename_eq_none_iff inUse vacant]
      simp only [inUse, ne_eq, not_false_eq_true, true_and]

/-- The loops leave the maps as they were if and only if no key was at or below
the old path. -/
theorem lookups_eq_iff_of_rekey {turns : Nat} {final : KeyedMaps}
    (ends : maps.rekey turns keys = some final) :
    (final.cache.lookup = maps.cache.lookup ∧
        final.openedFiles.lookup = maps.openedFiles.lookup ∧
          final.cachedAttr.lookup = maps.cachedAttr.lookup) ↔
      (∀ key ∈ maps.cache.keys,
          suffixBelow keys.source.fileLocation key = none) ∧
        (∀ key ∈ maps.openedFiles.keys,
          suffixBelow keys.source.fileLocation key = none) ∧
          ∀ key ∈ maps.cachedAttr.keys,
            suffixBelow keys.source.fileLocaServer key = none := by
  unfold KeyedMaps.rekey at ends
  dsimp only at ends
  split at ends
  · next cache openedFiles cachedAttr cacheEnds openedEnds attrEnds =>
      obtain rfl := Option.some.inj ends
      rw [lookup_rekey_eq_iff cacheEnds, lookup_rekey_eq_iff openedEnds,
        lookup_rekey_eq_iff attrEnds]
  · simp at ends

theorem sameLocally_refl (client : RenamingClient) :
    client.SameLocally client :=
  ⟨rfl, rfl, rfl, rfl⟩

/-- A rename that fails leaves the client as it was if and only if it fails
harmlessly. -/
theorem renameKeys_atomic_iff {result : (RenamingClient × σ) × Bool}
    (answered : client.renameKeys remote answers keys r = some result) :
    (result.2 = false → client.SameLocally result.1.1) ↔
      client.FailsHarmlessly answers keys remote r := by
  unfold FailsHarmlessly
  unfold renameKeys at answered
  dsimp only at answered
  split at answered
  · next refused =>
      obtain rfl := Option.some.inj answered
      have isRefused : client.TargetRefused keys := refused
      simp [sameLocally_refl, isRefused]
  next notRefused =>
  have isNot : ¬ client.TargetRefused keys := notRefused
  simp only [isNot, false_or]
  split at answered
  · simp at answered
  next cleared made =>
  have entries := entry_of_makeWay made
  split at answered
  · next fails =>
      have localFails := (moveLocally_eq_none_iff made).mp fails
      obtain rfl := Option.some.inj answered
      simp only [localFails, true_or, and_true, not_true_eq_false, false_and,
        or_false, true_imp_iff]
      constructor
      · intro same
        rw [← same.tree]
        simp only [entries, Function.update_self]
      · intro missing
        refine ⟨rfl, rfl, rfl, ?_⟩
        simp only [entries]
        rw [← missing, Function.update_eq_self]
  next moved moves =>
  have works : ¬ client.LocalRenameFails answers keys := by
    rw [← moveLocally_eq_none_iff made, moves]
    exact Option.some_ne_none _
  split at answered
  · simp at answered
  next maps ends =>
  obtain ⟨⟨r', status⟩, called, rfl⟩ := Option.map_eq_some_iff.mp answered
  simp only [works, false_or, not_false_eq_true, true_and]
  have accepted_iff : client.Accepted keys remote r ↔
      (status.isOk || status.code == .notFound) = true := by
    simp [Accepted, called]
  rw [accepted_iff]
  cases accepted : (status.isOk || status.code == .notFound) with
  | true => simp
  | false =>
      simp only [Bool.false_eq_true, or_false, true_imp_iff]
      constructor
      · intro same
        have trees := (entry_eq_iff_of_moved made moves).mp same.tree
        have keysApart := (lookups_eq_iff_of_rekey ends).mp
          ⟨same.cache, same.openedFiles, same.cachedAttr⟩
        exact ⟨trees.1, trees.2, keysApart.1, keysApart.2.1, keysApart.2.2⟩
      · rintro ⟨newMissing, nothing⟩
        have lookups := (lookups_eq_iff_of_rekey ends).mpr
          ⟨nothing.cache, nothing.openedFiles, nothing.cachedAttr⟩
        exact ⟨lookups.1, lookups.2.1, lookups.2.2,
          (entry_eq_iff_of_moved made moves).mpr ⟨newMissing, nothing.tree⟩⟩

end Failures

end RenamingClient

open RenamingClient

/-- A rename that returns false leaves the maps and the local files as they were
if and only if the target is a directory that is not empty, or nothing was at
the new path and the local rename is refused or there is nothing to rename. -/
theorem renameFile_atomic_iff {σ : Type*} {remote : Remote σ}
    {answers : RenamingAnswers} {mount : Mount}
    {fromName toName oldPath newPath : String} {client : RenamingClient} {r : σ}
    {result : (RenamingClient × σ) × Bool}
    (answered : client.renameFile remote answers mount fromName toName oldPath
      newPath r = some result) :
    (result.2 = false → client.SameLocally result.1.1) ↔
      client.FailsHarmlessly answers
        (mount.renameFileKeys fromName toName oldPath newPath) remote r :=
  renameKeys_atomic_iff answered

private def localMount : Mount where
  serverRootPath := "/srv"
  cacheDirectory := "/cache"

/-- A server that cannot be reached. -/
private def noServer : Remote Unit where
  openCall s _ := (s, [], ⟨.unavailable, ""⟩)
  closeCall s _ := (s, ⟨[], 0, 0⟩, ⟨.unavailable, ""⟩)
  unlinkCall s _ _ := (s, ⟨.unavailable, ""⟩)
  renameCall s _ _ _ := some (s, ⟨.unavailable, ""⟩)
  getattrCall s _ := (s, ⟨0, 0, 0, 0⟩, ⟨.unavailable, ""⟩)

private def permitsRenames : RenamingAnswers where
  mayRemove := true
  mayRename := true
  turns := 2

/-- A client that has cached the file `a`. -/
private def cachedA : RenamingClient where
  clientId := "writer"
  maps :=
    { cache := OrderedMap.empty.assign "/cache/srv/a" ⟨false, 1⟩
      openedFiles := .empty
      cachedAttr := .empty }
  tree :=
    let root : FileTree (List Char) Nat := .empty
    let cache := root.createDirectories (fun _ => true)
      ["cache".toList, "srv".toList]
    cache.1.createFile ["cache".toList, "srv".toList] "a".toList 0 (by decide)
      (by decide)

/-- The server cannot be reached: the rename returns false, and the cached copy
and its entry have moved. -/
theorem rename_unreachable_moves_copy :
    ∃ result, cachedA.renameFile noServer permitsRenames localMount "a" "b" "/"
        "/" () = some result ∧
      result.2 = false ∧
      result.1.1.maps.cache.lookup "/cache/srv/a" = none ∧
      result.1.1.tree.entry (pathNames "/cache/srv/a") = none ∧
      ¬ cachedA.SameLocally result.1.1 := by
  refine ⟨_, rfl, rfl, by decide, by decide, ?_⟩
  intro same
  have kept := congrFun same.tree (pathNames "/cache/srv/a")
  exact absurd kept (by decide)

/-- A client renames a file of which it has nothing. -/
theorem rename_unknown_harmless :
    ∃ result, cachedA.renameFile noServer permitsRenames localMount "x" "y" "/"
        "/" () = some result ∧
      (result.2 = false → cachedA.SameLocally result.1.1) := by
  obtain ⟨result, answered⟩ : ∃ result, cachedA.renameFile noServer
      permitsRenames localMount "x" "y" "/" "/" () = some result := ⟨_, rfl⟩
  refine ⟨result, answered, (renameFile_atomic_iff answered).mpr ?_⟩
  right
  left
  refine ⟨by decide, .inr ?_⟩
  constructor
  case tree => decide
  case cache =>
    intro key isKey
    have only : key = "/cache/srv/a" := by
      simpa [cachedA, OrderedMap.assign, OrderedMap.empty] using isKey
    rw [only]
    decide
  case openedFiles => simp [cachedA, OrderedMap.empty]
  case cachedAttr => simp [cachedA, OrderedMap.empty]

end DistributedFilesystem
