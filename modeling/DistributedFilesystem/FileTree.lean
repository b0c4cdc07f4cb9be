import Mathlib.Data.List.Infix
import Mathlib.Logic.Function.Basic
import Mathlib.Tactic.Common

/-!
# Trees of directories and files

A tree says for each path, a list of names from the root on, what is there:
nothing, a directory, or a file.  Two paths may refer to one file.  The root is
a directory, and so is everything that something lies in.  The operations are
those of an operating system: they fail where it reports an error, and they
leave the tree as it was then.
-/

/-- What a path refers to. -/
inductive TreeEntry (File : Type*) where
  | directory
  | file (file : File)
deriving DecidableEq

/-- A tree; `listed` contains all paths in use. -/
structure FileTree (Name File : Type*) where
  entry : List Name → Option (TreeEntry File)
  listed : List (List Name)
  listed_of_entry : ∀ {path}, entry path ≠ none → path ∈ listed
  root : entry [] = some .directory
  parent : ∀ {path name}, entry (path ++ [name]) ≠ none →
    entry path = some .directory

namespace FileTree

variable {Name File : Type*} (t : FileTree Name File)

/-- The tree with nothing but the root. -/
def empty : FileTree Name File where
  entry path := if path.isEmpty then some .directory else none
  listed := [[]]
  listed_of_entry := by simp
  root := rfl
  parent := by simp

section Below

variable {t} {path rest : List Name}

/-- What something lies below is a directory. -/
theorem entry_eq_directory (inUse : t.entry (path ++ rest) ≠ none)
    (below : rest ≠ []) : t.entry path = some .directory := by
  induction rest using List.reverseRecOn with
  | nil => exact absurd rfl below
  | append_singleton front last ih =>
      rw [← List.append_assoc] at inUse
      have isDirectory := t.parent inUse
      cases front with
      | nil => simpa using isDirectory
      | cons first front =>
          apply ih
          · simp [isDirectory]
          · exact List.cons_ne_nil _ _

end Below

variable [DecidableEq Name]

/-- Nothing lies below this path. -/
def isEmptyAt (path : List Name) : Bool :=
  t.listed.all fun other =>
    decide ((t.entry other).isNone ∨ ¬ path <+: other ∨ other = path)

theorem isEmptyAt_iff {path : List Name} :
    t.isEmptyAt path = true ↔
      ∀ rest, rest ≠ [] → t.entry (path ++ rest) = none := by
  simp only [isEmptyAt, List.all_eq_true, decide_eq_true_eq,
    Option.isNone_iff_eq_none]
  constructor
  · intro empty rest below
    by_contra inUse
    rcases empty _ (t.listed_of_entry inUse) with missing | apart | same
    · exact inUse missing
    · exact apart (List.prefix_append path rest)
    · simp [below] at same
  · intro empty other _
    by_cases below : path <+: other
    · obtain ⟨rest, rfl⟩ := below
      by_cases isSelf : rest = []
      · simp [isSelf]
      · exact .inl (empty rest isSelf)
    · exact .inr (.inl below)

section Create

/-- Make a directory in a directory. -/
def createDirectory (parent : List Name) (name : Name)
    (isDirectory : t.entry parent = some .directory) : FileTree Name File where
  entry := Function.update t.entry (parent ++ [name]) (some .directory)
  listed := (parent ++ [name]) :: t.listed
  listed_of_entry := by
    intro path inUse
    by_cases same : path = parent ++ [name]
    · simp [same]
    · rw [Function.update_of_ne same] at inUse
      exact List.mem_cons_of_mem _ (t.listed_of_entry inUse)
  root := by
    rw [Function.update_of_ne (by simp)]
    exact t.root
  parent := by
    intro path other inUse
    by_cases isNew : path ++ [other] = parent ++ [name]
    · obtain ⟨rfl, -⟩ := List.append_singleton_inj.mp isNew
      rw [Function.update_of_ne (by simp)]
      exact isDirectory
    · rw [Function.update_of_ne isNew] at inUse
      by_cases same : path = parent ++ [name]
      · rw [same, Function.update_self]
      · rw [Function.update_of_ne same]
        exact t.parent inUse

/-- Make a file in a directory. -/
def createFile (parent : List Name) (name : Name) (file : File)
    (isDirectory : t.entry parent = some .directory)
    (missing : t.entry (parent ++ [name]) = none) : FileTree Name File where
  entry := Function.update t.entry (parent ++ [name]) (some (.file file))
  listed := (parent ++ [name]) :: t.listed
  listed_of_entry := by
    intro path inUse
    by_cases same : path = parent ++ [name]
    · simp [same]
    · rw [Function.update_of_ne same] at inUse
      exact List.mem_cons_of_mem _ (t.listed_of_entry inUse)
  root := by
    rw [Function.update_of_ne (by simp)]
    exact t.root
  parent := by
    intro path other inUse
    have inDirectory : t.entry path = some .directory := by
      by_cases isNew : path ++ [other] = parent ++ [name]
      · obtain ⟨rfl, -⟩ := List.append_singleton_inj.mp isNew
        exact isDirectory
      · rw [Function.update_of_ne isNew] at inUse
        exact t.parent inUse
    have apart : path ≠ parent ++ [name] := by
      rintro rfl
      simp [missing] at inDirectory
    rw [Function.update_of_ne apart]
    exact inDirectory

variable (mayCreate : List Name → Bool)

/-- Make the missing ones of the directories that lead from a directory to
another one; false when a file is in the way or a directory may not be made. -/
def createDirectoriesFrom (t : FileTree Name File) (done : List Name)
    (isDirectory : t.entry done = some .directory) :
    List Name → FileTree Name File × Bool
  | [] => (t, true)
  | name :: rest =>
      match found : t.entry (done ++ [name]) with
      | some .directory => createDirectoriesFrom t (done ++ [name]) found rest
      | some (.file _) => (t, false)
      | none =>
          if mayCreate (done ++ [name]) then
            createDirectoriesFrom (t.createDirectory done name isDirectory)
              (done ++ [name]) (by simp [createDirectory]) rest
          else (t, false)

/-- Make a directory and the missing ones of those above it. -/
def createDirectories (path : List Name) : FileTree Name File × Bool :=
  t.createDirectoriesFrom mayCreate [] t.root path

/-- The path is a directory or may be made one. -/
def mayBeDirectory (path : List Name) : Bool :=
  match t.entry path with
  | some .directory => true
  | some (.file _) => false
  | none => mayCreate path

variable {t mayCreate}

theorem createDirectoriesFrom_snd_iff
    {done : List Name} (isDirectory : t.entry done = some .directory)
    (path : List Name) :
    (t.createDirectoriesFrom mayCreate done isDirectory path).2 = true ↔
      ∀ before, before <+: path →
        t.mayBeDirectory mayCreate (done ++ before) = true := by
  induction path generalizing t done with
  | nil => simp [createDirectoriesFrom, mayBeDirectory, isDirectory]
  | cons name rest ih =>
      have split : (∀ before, before <+: name :: rest →
          t.mayBeDirectory mayCreate (done ++ before) = true) ↔
          ∀ before, before <+: rest →
            t.mayBeDirectory mayCreate (done ++ [name] ++ before) = true := by
        constructor
        · intro each before isPrefix
          have := each (name :: before) (by simpa using isPrefix)
          simpa using this
        · intro each before isPrefix
          cases before with
          | nil => simp [mayBeDirectory, isDirectory]
          | cons first before =>
              obtain ⟨rfl, later⟩ := List.cons_prefix_cons.mp isPrefix
              simpa using each before later
      rw [split]
      unfold createDirectoriesFrom
      split
      next found => exact ih found
      next file found =>
        simp only [Bool.false_eq_true, false_iff, not_forall]
        exact ⟨[], List.nil_prefix, by simp [mayBeDirectory, found]⟩
      next found =>
        split
        · next may =>
            rw [ih]
            apply forall_congr'
            intro before
            apply imp_congr_right
            intro isPrefix
            cases before with
            | nil => simp [mayBeDirectory, createDirectory, found, may]
            | cons first before =>
                have apart : done ++ [name] ++ first :: before ≠
                    done ++ [name] := by simp
                simp only [mayBeDirectory, createDirectory,
                  Function.update_of_ne apart]
        · next mayNot =>
            simp only [Bool.false_eq_true, false_iff, not_forall]
            exact ⟨[], List.nil_prefix, by
              simpa [mayBeDirectory, found] using mayNot⟩

/-- Directories can be made if and only if nothing on the way is in the way. -/
theorem createDirectories_snd_iff {path : List Name} :
    (t.createDirectories mayCreate path).2 = true ↔
      ∀ before, before <+: path → t.mayBeDirectory mayCreate before = true := by
  rw [createDirectories, createDirectoriesFrom_snd_iff]
  simp only [List.nil_append]

theorem entry_createDirectoriesFrom
    {done : List Name} (isDirectory : t.entry done = some .directory)
    (path other : List Name) :
    (t.createDirectoriesFrom mayCreate done isDirectory path).1.entry other =
        t.entry other ∨
      t.entry other = none ∧ other <+: done ++ path ∧
        (t.createDirectoriesFrom mayCreate done isDirectory path).1.entry other =
          some .directory := by
  induction path generalizing t done with
  | nil => exact .inl rfl
  | cons name rest ih =>
      have regroup : done ++ name :: rest = done ++ [name] ++ rest := by simp
      rw [regroup]
      unfold createDirectoriesFrom
      split
      next found => exact ih found
      next => exact .inl rfl
      next found =>
        split
        · have isMade : (t.createDirectory done name isDirectory).entry
              (done ++ [name]) = some .directory := by simp [createDirectory]
          have later := ih isMade
          by_cases same : other = done ++ [name]
          · subst same
            rw [isMade] at later
            refine .inr ⟨found, List.prefix_append _ _, ?_⟩
            rcases later with kept | changed
            · exact kept
            · simp at changed
          · simpa [createDirectory, Function.update_of_ne same] using later
        · exact .inl rfl

/-- Making directories changes nothing that exists. -/
theorem entry_createDirectories_of_inUse {path other : List Name}
    (inUse : t.entry other ≠ none) :
    (t.createDirectories mayCreate path).1.entry other = t.entry other := by
  rcases entry_createDirectoriesFrom t.root path other with same | changed
  · exact same
  · exact absurd changed.1 inUse

/-- Making directories changes nothing but what leads to the last one. -/
theorem entry_createDirectories_of_not_prefix {path other : List Name}
    (apart : ¬ other <+: path) :
    (t.createDirectories mayCreate path).1.entry other = t.entry other := by
  rcases entry_createDirectoriesFrom t.root path other with same | changed
  · exact same
  · exact absurd changed.2.1 apart

/-- Making directories makes no files. -/
theorem entry_createDirectories_eq_file {path other : List Name} {file : File} :
    (t.createDirectories mayCreate path).1.entry other = some (.file file) ↔
      t.entry other = some (.file file) := by
  rcases entry_createDirectoriesFrom t.root path other with same | changed
  · rw [createDirectories, same]
  · rw [createDirectories, changed.1, changed.2.2]
    simp

theorem entry_createDirectoriesFrom_of_success
    {done : List Name} (isDirectory : t.entry done = some .directory)
    (path : List Name)
    (success : (t.createDirectoriesFrom mayCreate done isDirectory path).2 =
      true) :
    (t.createDirectoriesFrom mayCreate done isDirectory path).1.entry
      (done ++ path) = some .directory := by
  induction path generalizing t done with
  | nil => simpa [createDirectoriesFrom] using isDirectory
  | cons name rest ih =>
      have regroup : done ++ name :: rest = done ++ [name] ++ rest := by simp
      rw [regroup]
      unfold createDirectoriesFrom at success ⊢
      split at success
      next found => exact ih found success
      next => simp at success
      next found =>
        split at success
        · next may =>
            simp only [may, if_true]
            exact ih _ success
        · simp at success

/-- What was to be made a directory is one. -/
theorem entry_createDirectories_of_success {path : List Name}
    (success : (t.createDirectories mayCreate path).2 = true) :
    (t.createDirectories mayCreate path).1.entry path = some .directory :=
  entry_createDirectoriesFrom_of_success t.root path success

variable {old new : List Name}

theorem entry_createDirectories_new (rest : List Name) :
    (t.createDirectories mayCreate new.dropLast).1.entry (new ++ rest) =
      t.entry (new ++ rest) := by
  by_cases isPrefix : new ++ rest <+: new.dropLast
  · have short := isPrefix.length_le
    rw [List.length_append, List.length_dropLast] at short
    have isRoot : new ++ rest = [] := by
      apply List.eq_nil_of_length_eq_zero
      rw [List.length_append]
      omega
    apply entry_createDirectories_of_inUse
    rw [isRoot, t.root]
    exact Option.some_ne_none _
  · exact entry_createDirectories_of_not_prefix isPrefix

theorem entry_createDirectories_old (notNested : ¬ old <+: new)
    (rest : List Name) :
    (t.createDirectories mayCreate new.dropLast).1.entry (old ++ rest) =
      t.entry (old ++ rest) := by
  apply entry_createDirectories_of_not_prefix
  intro isPrefix
  apply notNested
  exact (List.prefix_append old rest).trans
    (isPrefix.trans (List.dropLast_prefix new))

end Create

section Rename

/-- What is at the new path can be replaced by what is at the old one. -/
def givesWay (old new : List Name) : Bool :=
  match t.entry old, t.entry new with
  | some _, none => true
  | some (.file _), some (.file _) => true
  | some .directory, some .directory => t.isEmptyAt new
  | _, _ => false

/-- Both paths refer to the same file or directory. -/
def isSame [DecidableEq File] (first second : List Name) : Bool :=
  match t.entry first, t.entry second with
  | some (.file file), some (.file other) => decide (file = other)
  | some .directory, some .directory => decide (first = second)
  | _, _ => false

/-- What is at the old path can be moved to the new one. -/
structure Movable (old new : List Name) : Prop where
  notNested : ¬ old <+: new
  inDirectory : t.entry new.dropLast = some .directory
  givesWay : t.givesWay old new = true

variable {t} {old new path rest : List Name}

theorem Movable.inUse (movable : t.Movable old new) : t.entry old ≠ none := by
  intro missing
  have vacant := movable.givesWay
  simp [FileTree.givesWay, missing] at vacant

/-- A path is not moved to one above it, since that one is not empty. -/
theorem Movable.notAbove (movable : t.Movable old new) : ¬ new <+: old := by
  rintro ⟨rest, rfl⟩
  have below : rest ≠ [] := by
    rintro rfl
    exact movable.notNested (by simp)
  have isDirectory := entry_eq_directory movable.inUse below
  have vacant := movable.givesWay
  unfold FileTree.givesWay at vacant
  split at vacant
  · next _ missing => simp [isDirectory] at missing
  · next _ _ _ isFile => simp [isDirectory] at isFile
  · exact movable.inUse (t.isEmptyAt_iff.mp vacant rest below)
  · exact absurd vacant Bool.false_ne_true

/-- Nothing lies below both paths. -/
theorem Movable.not_prefix_append (movable : t.Movable old new)
    (rest : List Name) : ¬ new <+: old ++ rest := by
  intro isPrefix
  rcases List.prefix_or_prefix_of_prefix isPrefix (List.prefix_append old rest)
    with above | nested
  · exact movable.notAbove above
  · exact movable.notNested nested

theorem Movable.new_ne_nil (movable : t.Movable old new) : new ≠ [] := by
  rintro rfl
  exact movable.notAbove List.nil_prefix

/-- Move a file, or a directory with everything in it. -/
def move (t : FileTree Name File) (old new : List Name)
    (movable : t.Movable old new) : FileTree Name File where
  entry path :=
    if new <+: path then t.entry (old ++ path.drop new.length)
    else if old <+: path then none
    else t.entry path
  listed := t.listed.map fun path =>
    if old <+: path then new ++ path.drop old.length else path
  listed_of_entry := by
    intro path inUse
    rw [List.mem_map]
    split_ifs at inUse with belowNew belowOld
    · obtain ⟨rest, rfl⟩ := belowNew
      refine ⟨old ++ rest, t.listed_of_entry (by simpa using inUse), ?_⟩
      simp
    · exact absurd rfl inUse
    · exact ⟨path, t.listed_of_entry inUse, if_neg belowOld⟩
  root := by
    have oldNonempty : ¬ old <+: [] := by
      intro isNil
      exact movable.notNested (List.prefix_nil.mp isNil ▸ List.nil_prefix)
    have newNonempty : ¬ new <+: [] := by
      intro isNil
      exact movable.new_ne_nil (List.prefix_nil.mp isNil)
    rw [if_neg newNonempty, if_neg oldNonempty]
    exact t.root
  parent := by
    intro path name inUse
    by_cases belowNew : new <+: path
    · obtain ⟨rest, rfl⟩ := belowNew
      have within : new <+: new ++ rest ++ [name] := by simp
      rw [if_pos within] at inUse
      rw [if_pos (List.prefix_append _ _)]
      have moved : t.entry (old ++ rest ++ [name]) ≠ none := by
        simpa [List.append_assoc] using inUse
      simpa using t.parent moved
    · rw [if_neg belowNew]
      by_cases isNew : new = path ++ [name]
      · have isParent : new.dropLast = path := by simp [isNew]
        have notBelow : ¬ old <+: path := by
          rintro ⟨rest, rfl⟩
          apply movable.notNested
          rw [isNew, List.append_assoc]
          exact List.prefix_append _ _
        rw [if_neg notBelow, ← isParent]
        exact movable.inDirectory
      · have outside : ¬ new <+: path ++ [name] := by
          rw [List.prefix_concat_iff]
          rintro (same | within)
          · exact isNew same
          · exact belowNew within
        rw [if_neg outside] at inUse
        split_ifs at inUse with belowOld
        · exact absurd rfl inUse
        have notBelow : ¬ old <+: path := by
          intro within
          exact belowOld (within.trans (List.prefix_append _ _))
        rw [if_neg notBelow]
        exact t.parent inUse

/-- Whether the new path gives way does not change when other paths do. -/
theorem givesWay_congr {other : FileTree Name File}
    (sameOld : other.entry old = t.entry old)
    (sameNew : ∀ rest, other.entry (new ++ rest) = t.entry (new ++ rest)) :
    other.givesWay old new = t.givesWay old new := by
  have sameEmpty : other.isEmptyAt new = t.isEmptyAt new := by
    rw [Bool.eq_iff_iff, isEmptyAt_iff, isEmptyAt_iff]
    simp only [sameNew]
  have sameEntry : other.entry new = t.entry new := by simpa using sameNew []
  simp only [givesWay, sameOld, sameEntry, sameEmpty]

theorem entry_move_new (movable : t.Movable old new) (rest : List Name) :
    (t.move old new movable).entry (new ++ rest) = t.entry (old ++ rest) := by
  simp [move]

theorem entry_move_old (movable : t.Movable old new) (rest : List Name) :
    (t.move old new movable).entry (old ++ rest) = none := by
  simp [move, movable.not_prefix_append rest]

theorem entry_move_of_apart (movable : t.Movable old new)
    (notNew : ¬ new <+: path) (notOld : ¬ old <+: path) :
    (t.move old new movable).entry path = t.entry path := by
  simp [move, notNew, notOld]

instance [DecidableEq File] (old new : List Name) :
    Decidable (t.Movable old new) :=
  decidable_of_iff (¬ old <+: new ∧ t.entry new.dropLast = some .directory ∧
      t.givesWay old new = true)
    ⟨fun ⟨notNested, inDirectory, vacant⟩ => ⟨notNested, inDirectory, vacant⟩,
      fun movable =>
        ⟨movable.notNested, movable.inDirectory, movable.givesWay⟩⟩

/-- Rename a file or a directory; a path that is the same file as the other one
is left where it is. -/
def rename [DecidableEq File] (t : FileTree Name File) (allowed : Bool)
    (old new : List Name) : Option (FileTree Name File) :=
  if allowed = false then none
  else if t.isSame old new then some t
  else if movable : t.Movable old new then some (t.move old new movable)
  else none

end Rename

section RenameInto

variable [DecidableEq File] (mayCreate : List Name → Bool) (allowed : Bool)
variable (old new : List Name)

/-- Make the directory that the new path lies in, then rename; true when
neither fails. -/
def renameInto : FileTree Name File × Bool :=
  let made := t.createDirectories mayCreate new.dropLast
  if made.2 then
    match made.1.rename allowed old new with
    | some renamed => (renamed, true)
    | none => (made.1, false)
  else (made.1, false)

/-- The new path has what the old path had, and the old path has nothing. -/
structure Moved (after : FileTree Name File) : Prop where
  arrives : ∀ rest, after.entry (new ++ rest) = t.entry (old ++ rest)
  leaves : ∀ rest, after.entry (old ++ rest) = none

/-- Nothing keeps what is at the old path from being moved to the new one. -/
structure CanMoveInto : Prop where
  allowed : allowed = true
  onTheWay : ∀ before, before <+: new.dropLast →
    t.mayBeDirectory mayCreate before = true
  notNested : ¬ old <+: new
  notSame : t.isSame old new = false
  givesWay : t.givesWay old new = true

variable {t mayCreate allowed old new}

/-- If nothing keeps what is at the old path, the two operations move it. -/
theorem renameInto_of_canMoveInto
    (canMove : t.CanMoveInto mayCreate allowed old new) :
    ∃ movable, t.renameInto mayCreate allowed old new =
      ((t.createDirectories mayCreate new.dropLast).1.move old new movable,
        true) := by
  have success := createDirectories_snd_iff.mpr canMove.onTheWay
  have sameNew : ∀ rest, (t.createDirectories mayCreate new.dropLast).1.entry
      (new ++ rest) = t.entry (new ++ rest) := entry_createDirectories_new
  have sameOld : ∀ rest, (t.createDirectories mayCreate new.dropLast).1.entry
      (old ++ rest) = t.entry (old ++ rest) :=
    entry_createDirectories_old canMove.notNested
  have oldHere := sameOld []
  have newHere := sameNew []
  rw [List.append_nil] at oldHere newHere
  have movable :
      (t.createDirectories mayCreate new.dropLast).1.Movable old new := by
    constructor
    case notNested => exact canMove.notNested
    case inDirectory => exact entry_createDirectories_of_success success
    case givesWay =>
      rw [givesWay_congr oldHere sameNew]
      exact canMove.givesWay
  have notSame : (t.createDirectories mayCreate new.dropLast).1.isSame old new =
      false := by
    rw [← canMove.notSame]
    simp only [isSame, oldHere, newHere]
  refine ⟨movable, ?_⟩
  simp [renameInto, success, rename, canMove.allowed, notSame, movable]

theorem moved_of_canMoveInto
    (canMove : t.CanMoveInto mayCreate allowed old new) :
    t.Moved old new (t.renameInto mayCreate allowed old new).1 := by
  obtain ⟨movable, renamed⟩ := renameInto_of_canMoveInto canMove
  rw [renamed]
  constructor
  case arrives =>
    intro rest
    rw [entry_move_new, entry_createDirectories_old canMove.notNested]
  case leaves => exact entry_move_old movable

theorem canMoveInto_of_moved (inUse : t.entry old ≠ none)
    (moved : t.Moved old new (t.renameInto mayCreate allowed old new).1) :
    t.CanMoveInto mayCreate allowed old new := by
  have gone := moved.leaves []
  rw [List.append_nil] at gone
  have kept : (t.createDirectories mayCreate new.dropLast).1.entry old =
      t.entry old := entry_createDirectories_of_inUse inUse
  unfold renameInto at gone
  dsimp only at gone
  split at gone
  · next success =>
      unfold rename at gone
      split_ifs at gone with refused same movable
      · exact absurd (kept.symm.trans gone) inUse
      · exact absurd (kept.symm.trans gone) inUse
      · have notNested := movable.notNested
        have sameNew : ∀ rest,
            (t.createDirectories mayCreate new.dropLast).1.entry
              (new ++ rest) = t.entry (new ++ rest) :=
          entry_createDirectories_new
        have newHere := sameNew []
        rw [List.append_nil] at newHere
        constructor
        case allowed => simpa using refused
        case onTheWay => exact createDirectories_snd_iff.mp success
        case notNested => exact notNested
        case notSame =>
          rw [Bool.not_eq_true] at same
          rw [← same]
          simp only [isSame, kept, newHere]
        case givesWay =>
          rw [← givesWay_congr kept sameNew]
          exact movable.givesWay
      · exact absurd (kept.symm.trans gone) inUse
  · exact absurd (kept.symm.trans gone) inUse

end RenameInto

end FileTree
