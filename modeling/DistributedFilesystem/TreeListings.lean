import DistributedFilesystem.TreeRemovals
import Mathlib.Data.List.Dedup

/-!
# Listing and making directories in a tree

What lies in a directory, in whatever order the operating system reports it,
and making one directory, as `mkdir` of an operating system does it: the parent
has to be there, and nothing at the path.
-/

/-- How making a directory ends. -/
inductive Making where
  | made
  | inUse
  | missing
  | refused (error : RemovalError)
deriving DecidableEq

/-- Where the way to a path leads. -/
inductive TreeWay where
  | clear
  | missing
  | blocked (error : RemovalError)
deriving DecidableEq

namespace List

variable {α : Type*} {first : α} {done rest : List α}

/-- Something holds above a path if and only if it holds where one starts or
above the path after the first step. -/
theorem exists_proper_prefix_cons {P : List α → Prop} :
    (∃ before, before <+: first :: rest ∧ before ≠ first :: rest ∧
        P (done ++ before)) ↔
      P done ∨ ∃ before, before <+: rest ∧ before ≠ rest ∧
        P (done ++ [first] ++ before) := by
  constructor
  · rintro ⟨before, isPrefix, isProper, holds⟩
    cases before with
    | nil => exact .inl (by simpa using holds)
    | cons name before =>
        obtain ⟨rfl, later⟩ := List.cons_prefix_cons.mp isPrefix
        refine .inr ⟨before, later, ?_, by simpa using holds⟩
        rintro rfl
        exact isProper rfl
  · rintro (holds | ⟨before, isPrefix, isProper, holds⟩)
    · exact ⟨[], List.nil_prefix, by simp, by simpa using holds⟩
    · exact ⟨first :: before, List.cons_prefix_cons.mpr ⟨rfl, isPrefix⟩,
        by simpa using isProper, by simpa using holds⟩

end List

namespace FileTree

variable {Name File : Type*} (t : FileTree Name File)

/-- The names in a directory, in some order. -/
structure Listing (path : List Name) where
  names : List Name
  nodup : names.Nodup
  mem_iff : ∀ name, name ∈ names ↔ t.entry (path ++ [name]) ≠ none

/-- Everything above the path is a directory that may be searched. -/
def Reached (maySearch : List Name → Bool) (path : List Name) : Prop :=
  ∀ before, before <+: path → before ≠ path →
    t.entry before = some .directory ∧ maySearch before = true

/-- The directory can be reached, and its names can be read. -/
structure Readable (maySearch mayRead : List Name → Bool)
    (path : List Name) : Prop where
  reached : t.Reached maySearch path
  isDirectory : t.entry path = some .directory
  mayRead : mayRead path = true

/-- The names in a directory, in the order in which the tree lists its paths. -/
def listing [DecidableEq Name] (path : List Name) : t.Listing path where
  names := (t.listed.filterMap fun other =>
    if other.dropLast = path ∧ (t.entry other).isSome then other.getLast?
    else none).dedup
  nodup := List.nodup_dedup _
  mem_iff := by
    intro name
    simp only [List.mem_dedup, List.mem_filterMap, Option.ite_none_right_eq_some]
    constructor
    · rintro ⟨other, -, ⟨isParent, inUse⟩, isLast⟩
      obtain ⟨front, rfl⟩ := List.getLast?_eq_some_iff.mp isLast
      rw [List.dropLast_concat] at isParent
      rw [← isParent, ← Option.isSome_iff_ne_none]
      exact inUse
    · intro inUse
      exact ⟨path ++ [name], t.listed_of_entry inUse,
        ⟨List.dropLast_concat, Option.isSome_iff_ne_none.mpr inUse⟩, by simp⟩

section Way

variable (maySearch : List Name → Bool)

/-- Walk from a path through the directories that lead to another one; the last
name is not looked at. -/
def wayFrom (done : List Name) : List Name → TreeWay
  | [] => .clear
  | name :: rest =>
      match t.entry done with
      | none => .missing
      | some (.file _) => .blocked .notDirectory
      | some .directory =>
          if maySearch done then wayFrom (done ++ [name]) rest
          else .blocked .accessDenied

/-- The way from the root to a path. -/
def way (path : List Name) : TreeWay :=
  t.wayFrom maySearch [] path

variable {t maySearch} {done path rest : List Name}

/-- The way to a path that is there is clear or closed to whoever walks it. -/
theorem entry_of_wayFrom
    (notClear : t.wayFrom maySearch done rest ≠ .clear)
    (notDenied : t.wayFrom maySearch done rest ≠ .blocked .accessDenied) :
    t.entry (done ++ rest) = none := by
  induction rest generalizing done with
  | nil => exact absurd rfl notClear
  | cons name rest ih =>
      rw [wayFrom] at notClear notDenied
      cases here : t.entry done with
      | none => exact entry_append_of_not_directory (by simp [here]) (by simp)
      | some entry =>
          cases entry with
          | file file =>
              exact entry_append_of_not_directory (by simp [here]) (by simp)
          | directory =>
              simp only [here] at notClear notDenied
              cases may : maySearch done with
              | false => simp [may] at notDenied
              | true =>
                  simp only [may, if_true] at notClear notDenied
                  have gone := ih notClear notDenied
                  rwa [List.append_assoc] at gone

theorem wayFrom_eq_clear_iff :
    t.wayFrom maySearch done rest = .clear ↔
      ∀ before, before <+: rest → before ≠ rest →
        t.entry (done ++ before) = some .directory ∧
          maySearch (done ++ before) = true := by
  induction rest generalizing done with
  | nil =>
      simp only [wayFrom, true_iff]
      intro before isPrefix isProper
      exact absurd (List.prefix_nil.mp isPrefix) isProper
  | cons name rest ih =>
      have step := not_congr (@List.exists_proper_prefix_cons _ name done rest
        fun path => ¬ (t.entry path = some .directory ∧ maySearch path = true))
      push Not at step
      rw [step, ← ih, wayFrom]
      split
      · next here => simp [here]
      · next file here => simp [here]
      · next here => cases maySearch done <;> simp [here]

theorem way_eq_clear_iff : t.way maySearch path = .clear ↔
    t.Reached maySearch path := by
  rw [way, wayFrom_eq_clear_iff]
  simp [Reached]

theorem Reached.dropLast (reached : t.Reached maySearch path)
    (notRoot : path ≠ []) : t.entry path.dropLast = some .directory := by
  refine (reached _ (List.dropLast_prefix path) ?_).1
  intro same
  have shorter := congrArg List.length same
  have nonempty := List.length_pos_of_ne_nil notRoot
  rw [List.length_dropLast] at shorter
  omega

end Way

section Make

variable (maySearch mayWrite : List Name → Bool) (path : List Name)

/-- How making a directory at a path ends. -/
def making : Making :=
  match t.way maySearch path with
  | .missing => .missing
  | .blocked error => .refused error
  | .clear =>
      if (t.entry path).isSome then .inUse
      else if mayWrite path.dropLast then .made
      else .refused .accessDenied

variable {t maySearch mayWrite path}

theorem making_eq_made_iff :
    t.making maySearch mayWrite path = .made ↔
      t.Reached maySearch path ∧ t.entry path = none ∧
        mayWrite path.dropLast = true := by
  rw [← way_eq_clear_iff]
  unfold making
  split
  · simp_all
  · simp_all
  next clear =>
  cases here : t.entry path with
  | none => cases may : mayWrite path.dropLast <;> simp [clear]
  | some entry => simp

theorem ne_nil_of_making (made : t.making maySearch mayWrite path = .made) :
    path ≠ [] := by
  rintro rfl
  obtain ⟨-, missing, -⟩ := making_eq_made_iff.mp made
  simp [t.root] at missing

theorem parent_of_making (made : t.making maySearch mayWrite path = .made) :
    t.entry path.dropLast = some .directory :=
  (making_eq_made_iff.mp made).1.dropLast (ne_nil_of_making made)

variable (t maySearch mayWrite path) [DecidableEq Name]

/-- Make a directory. -/
def makeDirectory : FileTree Name File × Making :=
  if made : t.making maySearch mayWrite path = .made then
    (t.createDirectory path.dropLast (path.getLast (ne_nil_of_making made))
      (parent_of_making made), .made)
  else (t, t.making maySearch mayWrite path)

variable {t maySearch mayWrite path}

@[simp]
theorem makeDirectory_snd : (t.makeDirectory maySearch mayWrite path).2 =
    t.making maySearch mayWrite path := by
  unfold makeDirectory
  split
  · next made => exact made.symm
  · rfl

theorem entry_makeDirectory
    (made : t.making maySearch mayWrite path = .made) :
    (t.makeDirectory maySearch mayWrite path).1.entry =
      Function.update t.entry path (some .directory) := by
  rw [makeDirectory, dif_pos made]
  simp only [createDirectory, List.dropLast_append_getLast]

theorem makeDirectory_fst_of_ne
    (notMade : t.making maySearch mayWrite path ≠ .made) :
    (t.makeDirectory maySearch mayWrite path).1 = t := by
  rw [makeDirectory, dif_neg notMade]

/-- Making a directory changes nothing that exists. -/
theorem entry_makeDirectory_of_inUse {other : List Name}
    (inUse : t.entry other ≠ none) :
    (t.makeDirectory maySearch mayWrite path).1.entry other = t.entry other := by
  by_cases made : t.making maySearch mayWrite path = .made
  · have apart : other ≠ path := by
      rintro rfl
      exact inUse (making_eq_made_iff.mp made).2.1
    rw [entry_makeDirectory made, Function.update_of_ne apart]
  · rw [makeDirectory_fst_of_ne made]

end Make

end FileTree
