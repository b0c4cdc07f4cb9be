import DistributedFilesystem.FileTree

/-!
# Removing from a tree

Removing a file or an empty directory, as an operating system does it: it walks
along the path through directories that it may search, and takes the last name
out of a directory that it may write.  Everything that keeps it from doing so is
reported, and only the absence of the path is not an error.  There are no links
from one directory to another.
-/

/-- An error that a removal ends with. -/
inductive RemovalError where
  | accessDenied
  | notDirectory
  | notEmpty
  | busy
  | invalid
deriving DecidableEq

/-- How a removal ends. -/
inductive Removal where
  | removed
  | missing
  | refused (error : RemovalError)
deriving DecidableEq

/-- A part of a path: `.`, `..` or a name. -/
inductive PathPart (Name : Type*) where
  | here
  | parent
  | name (name : Name)
deriving DecidableEq

/-- A path as the operating system takes it: the directory where it starts, its
parts, and whether a separator follows the last one. -/
structure PathRoute (Name : Type*) where
  start : List Name
  parts : List (PathPart Name)
  slash : Bool

/-- The path from the root that consists of names only. -/
def PathRoute.ofNames {Name : Type*} (names : List Name) : PathRoute Name where
  start := []
  parts := names.map .name
  slash := false

/-- Where a walk along a path ends. -/
inductive Walk (Name : Type*) where
  | arrived (path : List Name)
  | missing
  | blocked (error : RemovalError)
deriving DecidableEq

namespace FileTree

variable {Name File : Type*} (t : FileTree Name File)

variable {t} in
/-- Nothing lies below what is not a directory. -/
theorem entry_append_of_not_directory {path rest : List Name}
    (notDirectory : t.entry path ≠ some .directory) (below : rest ≠ []) :
    t.entry (path ++ rest) = none := by
  by_contra inUse
  exact notDirectory (entry_eq_directory inUse below)

section Walk

/-- Where a part leads from a directory. -/
def followPart (done : List Name) : PathPart Name → List Name
  | .here => done
  | .parent => done.dropLast
  | .name name => done ++ [name]

/-- Walk along the parts of a path; what the last one leads to is not looked
at. -/
def walkFrom (maySearch : List Name → Bool) (done : List Name) :
    List (PathPart Name) → Walk Name
  | [] => .arrived done
  | part :: rest =>
      match t.entry done with
      | none => .missing
      | some (.file _) => .blocked .notDirectory
      | some .directory =>
          if maySearch done then walkFrom maySearch (followPart done part) rest
          else .blocked .accessDenied

/-- Where a path leads if nothing is in the way. -/
def destination (route : PathRoute Name) : List Name :=
  route.parts.foldl followPart route.start

/-- What a path refers to, whoever asks; one that ends in a separator refers to
directories only. -/
def lookup (route : PathRoute Name) : Option (TreeEntry File) :=
  match t.walkFrom (fun _ => true) route.start route.parts with
  | .arrived path =>
      match t.entry path with
      | some (.file file) => if route.slash then none else some (.file file)
      | other => other
  | _ => none

variable {t} {maySearch : List Name → Bool} {done path : List Name}
variable {parts : List (PathPart Name)} {error : RemovalError}

@[simp]
theorem destination_ofNames (names : List Name) :
    destination (.ofNames names) = names := by
  have followed : ∀ done : List Name,
      (names.map PathPart.name).foldl followPart done = done ++ names := by
    induction names with
    | nil => simp
    | cons name rest ih => intro done; simp [followPart, ih]
  exact followed []

/-- The parts alone determine where a walk can arrive. -/
theorem eq_foldl_of_walkFrom
    (arrives : t.walkFrom maySearch done parts = .arrived path) :
    path = parts.foldl followPart done := by
  induction parts generalizing done with
  | nil => exact (Walk.arrived.inj arrives).symm
  | cons part rest ih =>
      rw [walkFrom] at arrives
      split at arrives
      · simp at arrives
      · simp at arrives
      · split at arrives
        · exact ih arrives
        · simp at arrives

/-- Whoever gets to the end, or finds that there is nothing on the way, finds
what everybody finds. -/
theorem walkFrom_of_searches
    (searches : t.walkFrom maySearch done parts ≠ .blocked .accessDenied) :
    t.walkFrom (fun _ => true) done parts = t.walkFrom maySearch done parts := by
  induction parts generalizing done with
  | nil => rfl
  | cons part rest ih =>
      rw [walkFrom] at searches ⊢
      rw [walkFrom]
      split
      · rfl
      · rfl
      · next isDirectory =>
          simp only [isDirectory] at searches
          cases may : maySearch done with
          | true =>
              simp only [may, if_true] at searches ⊢
              exact ih searches
          | false => simp [may] at searches

theorem walkFrom_blocked
    (blocked : t.walkFrom maySearch done parts = .blocked error) :
    error = .notDirectory ∨ error = .accessDenied := by
  induction parts generalizing done with
  | nil => simp [walkFrom] at blocked
  | cons part rest ih =>
      rw [walkFrom] at blocked
      split at blocked
      · simp at blocked
      · exact .inl (Walk.blocked.inj blocked).symm
      · split at blocked
        · exact ih blocked
        · exact .inr (Walk.blocked.inj blocked).symm

end Walk

variable [DecidableEq Name]

/-- Take a name out of the directory it is in. -/
def erase (path : List Name) (notRoot : path ≠ [])
    (nothingBelow : ∀ rest, rest ≠ [] → t.entry (path ++ rest) = none) :
    FileTree Name File where
  entry := Function.update t.entry path none
  listed := t.listed
  listed_of_entry := by
    intro other inUse
    by_cases same : other = path
    · simp [same] at inUse
    · rw [Function.update_of_ne same] at inUse
      exact t.listed_of_entry inUse
  root := by
    rw [Function.update_of_ne notRoot.symm]
    exact t.root
  parent := by
    intro other name inUse
    by_cases isLeaf : other ++ [name] = path
    · simp [isLeaf] at inUse
    · rw [Function.update_of_ne isLeaf] at inUse
      have apart : other ≠ path := by
        rintro rfl
        exact inUse (nothingBelow [name] (by simp))
      rw [Function.update_of_ne apart]
      exact t.parent inUse

section Remove

variable (maySearch mayWrite : List Name → Bool) (route : PathRoute Name)

/-- How removing what is at the end of a walk ends. -/
def removalAt (slash : Bool) (path : List Name) : Removal :=
  match t.entry path with
  | none => .missing
  | some (.file _) =>
      if slash then .refused .notDirectory
      else if mayWrite path.dropLast then .removed
      else .refused .accessDenied
  | some .directory =>
      if mayWrite path.dropLast = false then .refused .accessDenied
      else if t.isEmptyAt path then .removed
      else .refused .notEmpty

/-- How removing a path ends. -/
def removal : Removal :=
  match t.walkFrom maySearch route.start route.parts with
  | .missing => .missing
  | .blocked error => .refused error
  | .arrived path =>
      -- Only a name can be taken out of a directory.
      match route.parts.getLast? with
      | none => .refused .busy
      | some .here => .refused .invalid
      | some .parent => .refused .notEmpty
      | some (.name _) => t.removalAt mayWrite route.slash path

/-- What can be removed is there, is not the root, and has nothing below. -/
structure Removable (path : List Name) : Prop where
  inUse : t.entry path ≠ none
  notRoot : path ≠ []
  nothingBelow : ∀ rest, rest ≠ [] → t.entry (path ++ rest) = none

/-- The operating system has a reason other than missing permissions to keep
what is at the path. -/
def Undeletable : Prop :=
  t.walkFrom maySearch route.start route.parts = .blocked .notDirectory ∨
    ∃ path, t.walkFrom maySearch route.start route.parts = .arrived path ∧
      ((∀ name, route.parts.getLast? ≠ some (.name name)) ∨
        (route.slash = true ∧ ∃ file, t.entry path = some (.file file)) ∨
        t.entry path = some .directory ∧ mayWrite path.dropLast = true ∧
          t.isEmptyAt path = false)

variable {t maySearch mayWrite route}

theorem removalAt_eq_removed {slash : Bool} {path : List Name}
    (removed : t.removalAt mayWrite slash path = .removed) :
    t.entry path ≠ none ∧
      (∀ rest, rest ≠ [] → t.entry (path ++ rest) = none) ∧
      (slash = true → t.entry path = some .directory) := by
  unfold removalAt at removed
  split at removed
  · simp at removed
  · next file here =>
      split at removed
      · simp at removed
      · next noSlash =>
          refine ⟨by simp [here], fun rest below => ?_, fun slash => ?_⟩
          · exact entry_append_of_not_directory (by simp [here]) below
          · exact (noSlash slash).elim
  · next here =>
      split at removed
      · simp at removed
      · split at removed
        · next empty =>
            exact ⟨by simp [here], t.isEmptyAt_iff.mp empty, fun _ => here⟩
        · simp at removed

/-- A removal takes place at the end of a walk along a path that ends with a
name. -/
theorem removalAt_of_removal
    (removed : t.removal maySearch mayWrite route = .removed) :
    t.walkFrom maySearch route.start route.parts = .arrived (destination route) ∧
      destination route ≠ [] ∧
      t.removalAt mayWrite route.slash (destination route) = .removed := by
  unfold removal at removed
  split at removed
  · simp at removed
  · simp at removed
  next path arrives =>
  obtain rfl : path = destination route := eq_foldl_of_walkFrom arrives
  split at removed
  · simp at removed
  · simp at removed
  · simp at removed
  next name last =>
  refine ⟨arrives, ?_, removed⟩
  obtain ⟨front, isLast⟩ := List.getLast?_eq_some_iff.mp last
  simp [destination, isLast, followPart]

theorem removable_of_removal
    (removed : t.removal maySearch mayWrite route = .removed) :
    t.Removable (destination route) := by
  obtain ⟨-, notRoot, removedThere⟩ := removalAt_of_removal removed
  obtain ⟨inUse, nothingBelow, -⟩ := removalAt_eq_removed removedThere
  exact ⟨inUse, notRoot, nothingBelow⟩

/-- A removal fails for a reason other than missing permissions if and only if
there is such a reason. -/
theorem removal_refused_iff :
    (∃ error, t.removal maySearch mayWrite route = .refused error ∧
        error ≠ .accessDenied) ↔ t.Undeletable maySearch mayWrite route := by
  unfold removal Undeletable
  cases walk : t.walkFrom maySearch route.start route.parts with
  | missing => simp
  | blocked error =>
      rcases walkFrom_blocked walk with rfl | rfl <;> simp
  | arrived path =>
      cases last : route.parts.getLast? with
      | none => simp
      | some part =>
          cases part with
          | here => simp
          | parent => simp
          | name name =>
              unfold removalAt
              cases here : t.entry path with
              | none => simp [here]
              | some entry =>
                  cases entry with
                  | file file =>
                      cases route.slash <;>
                        cases may : mayWrite path.dropLast <;> simp [here, may]
                  | directory =>
                      cases may : mayWrite path.dropLast <;>
                        cases empty : t.isEmptyAt path <;>
                        simp [here, may, empty]

variable (t maySearch mayWrite route)

/-- Remove a file or an empty directory. -/
def remove : FileTree Name File × Removal :=
  if removed : t.removal maySearch mayWrite route = .removed then
    (t.erase (destination route) (removable_of_removal removed).notRoot
      (removable_of_removal removed).nothingBelow, .removed)
  else (t, t.removal maySearch mayWrite route)

variable {t maySearch mayWrite route}

@[simp]
theorem remove_snd : (t.remove maySearch mayWrite route).2 =
    t.removal maySearch mayWrite route := by
  unfold remove
  split
  · next removed => exact removed.symm
  · rfl

theorem entry_remove
    (removed : t.removal maySearch mayWrite route = .removed) :
    (t.remove maySearch mayWrite route).1.entry =
      Function.update t.entry (destination route) none := by
  rw [remove, dif_pos removed]
  rfl

/-- A removal that fails changes nothing. -/
theorem remove_fst_of_ne
    (notRemoved : t.removal maySearch mayWrite route ≠ .removed) :
    (t.remove maySearch mayWrite route).1 = t := by
  rw [remove, dif_neg notRemoved]

/-- What was removed was there and is gone. -/
theorem lookup_remove
    (removed : t.removal maySearch mayWrite route = .removed) :
    t.lookup route ≠ none ∧
      (t.remove maySearch mayWrite route).1.lookup route = none := by
  obtain ⟨arrives, -, removedThere⟩ := removalAt_of_removal removed
  obtain ⟨inUse, -, directoryOnly⟩ := removalAt_eq_removed removedThere
  constructor
  · have arrivesToo := walkFrom_of_searches (by rw [arrives]; simp)
    rw [arrives] at arrivesToo
    unfold lookup
    rw [arrivesToo]
    dsimp only
    split
    · next file here =>
        cases slash : route.slash with
        | false => simp
        | true =>
            have isDirectory := directoryOnly slash
            rw [here] at isDirectory
            cases isDirectory
    · exact inUse
  · unfold lookup
    split
    · next path arrivesAfter =>
        have same : path = destination route := eq_foldl_of_walkFrom arrivesAfter
        have gone : (t.remove maySearch mayWrite route).1.entry path = none := by
          rw [entry_remove removed, same, Function.update_self]
        simp [gone]
    · rfl

/-- What is missing is not there. -/
theorem lookup_of_removal_missing
    (missing : t.removal maySearch mayWrite route = .missing) :
    t.lookup route = none := by
  unfold removal at missing
  split at missing
  · next nothing =>
      have nothingToo := walkFrom_of_searches (by rw [nothing]; simp)
      rw [nothing] at nothingToo
      rw [lookup, nothingToo]
  · simp at missing
  next path arrives =>
  have arrivesToo := walkFrom_of_searches (by rw [arrives]; simp)
  rw [arrives] at arrivesToo
  split at missing
  · simp at missing
  · simp at missing
  · simp at missing
  have vacant : t.entry path = none := by
    unfold removalAt at missing
    split at missing
    · next here => exact here
    · split at missing
      · simp at missing
      · split at missing <;> simp at missing
    · split at missing
      · simp at missing
      · split at missing <;> simp at missing
  simp [lookup, arrivesToo, vacant]

end Remove

end FileTree
