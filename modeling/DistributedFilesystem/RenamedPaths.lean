import DistributedFilesystem.ClientRename

/-!
# Paths that a rename moves

A rename between separate paths treats every path in one of three ways: the
path lies below the new one and receives what lay below the old one, it lies
below the old one and is left without anything, or it is not concerned.
-/

namespace DistributedFilesystem

/-- Neither path is the other one or lies below it. -/
structure Separate (oldPath newPath : Path) : Prop where
  newNotBelow : suffixBelow oldPath newPath = none
  oldNotBelow : suffixBelow newPath oldPath = none

theorem suffixBelow_self (path : Path) : suffixBelow path path = some "" := by
  simp [suffixBelow]

/-- If a suffix that follows `base` begins with what leads from `base` to a
path, the path lies below `base`. -/
theorem isSome_suffixBelow_of_prefix {base path : Path} {suffix : String}
    {between rest : List Char}
    (leads : path.toList = base.toList ++ between)
    (begins : suffix.toList = between ++ rest)
    (isBelow : suffix = "" ∨ ∃ rest, suffix = "/" ++ rest) :
    (suffixBelow base path).isSome := by
  cases between with
  | nil =>
      have same : path = base := String.toList_inj.mp (by simpa using leads)
      simp [same, suffixBelow_self]
  | cons first later =>
      have isSlash : first = '/' := by
        rcases isBelow with rfl | ⟨following, rfl⟩
        · simp at begins
        · simp only [String.toList_append, List.cons_append] at begins
          exact (List.cons.inj begins).1.symm
      have eq : path = base ++ ("/" ++ String.ofList later) := by
        apply String.toList_inj.mp
        rw [leads, isSlash]
        simp
      rw [eq, suffixBelow_append base (.inr ⟨_, rfl⟩)]
      rfl

/-- No path lies below both of two separate paths. -/
theorem suffixBelow_eq_none_of_separate {oldPath newPath path : Path}
    (separate : Separate oldPath newPath)
    (belowNew : (suffixBelow newPath path).isSome) :
    suffixBelow oldPath path = none := by
  obtain ⟨suffix, below⟩ := Option.isSome_iff_exists.mp belowNew
  obtain ⟨eq, isBelow⟩ := eq_append_of_suffixBelow below
  cases belowOld : suffixBelow oldPath path with
  | none => rfl
  | some suffix' =>
      obtain ⟨eq', isBelow'⟩ := eq_append_of_suffixBelow belowOld
      have twice : newPath.toList ++ suffix.toList =
          oldPath.toList ++ suffix'.toList := by
        rw [← String.toList_append, ← String.toList_append, ← eq, ← eq']
      rcases List.append_eq_append_iff.mp twice with
        ⟨between, leads, begins⟩ | ⟨between, leads, begins⟩
      · have nested := isSome_suffixBelow_of_prefix leads begins isBelow
        simp [separate.oldNotBelow] at nested
      · have nested := isSome_suffixBelow_of_prefix leads begins isBelow'
        simp [separate.newNotBelow] at nested

/-- How a rename between separate paths treats a path. -/
inductive RenameRole (oldPath newPath path : Path) : Prop
  | target (suffix : String) (belowNew : suffixBelow newPath path = some suffix)
      (notOld : suffixBelow oldPath path = none)
  | source (suffix : String) (belowOld : suffixBelow oldPath path = some suffix)
      (notNew : suffixBelow newPath path = none)
  | bystander (notOld : suffixBelow oldPath path = none)
      (notNew : suffixBelow newPath path = none)

theorem renameRole_of_separate {oldPath newPath : Path}
    (separate : Separate oldPath newPath) (path : Path) :
    RenameRole oldPath newPath path := by
  cases belowNew : suffixBelow newPath path with
  | some suffix =>
      apply RenameRole.target suffix belowNew
      apply suffixBelow_eq_none_of_separate separate
      rw [belowNew]
      rfl
  | none =>
      cases belowOld : suffixBelow oldPath path with
      | some suffix => exact .source suffix belowOld belowNew
      | none => exact .bystander belowOld belowNew

section Maps

variable {α : Type*} {oldPath newPath path : Path} {suffix : String}
variable (map : Path → Option α)

theorem updateMapKeys_target (belowNew : suffixBelow newPath path = some suffix)
    (notOld : suffixBelow oldPath path = none) :
    updateMapKeys oldPath newPath map path =
      (map (oldPath ++ suffix)).or (map path) := by
  unfold updateMapKeys
  rw [belowNew, Option.bind_some]
  cases map (oldPath ++ suffix) with
  | some value => rfl
  | none => simp [notOld]

theorem updateMapKeys_source (belowOld : suffixBelow oldPath path = some suffix)
    (notNew : suffixBelow newPath path = none) :
    updateMapKeys oldPath newPath map path = none := by
  simp [updateMapKeys, notNew, belowOld]

theorem updateMapKeys_bystander (notOld : suffixBelow oldPath path = none)
    (notNew : suffixBelow newPath path = none) :
    updateMapKeys oldPath newPath map path = map path := by
  simp [updateMapKeys, notNew, notOld]

end Maps

section Tree

variable {oldPath newPath path : Path} {suffix : String}
variable (disk : FileStore Path Byte)

theorem node_moveTree_target (belowNew : suffixBelow newPath path = some suffix) :
    (moveTree disk oldPath newPath).node path =
      disk.node (oldPath ++ suffix) := by
  simp [moveTree, FileStore.reindex, renamedFrom, belowNew]

theorem node_moveTree_bystander (notOld : suffixBelow oldPath path = none)
    (notNew : suffixBelow newPath path = none) :
    (moveTree disk oldPath newPath).node path = disk.node path := by
  simp [moveTree, FileStore.reindex, renamedFrom, notOld, notNew]

end Tree

end DistributedFilesystem
