import DistributedFilesystem.PosixPaths

/-!
# Normal forms of paths

A path in normal form begins at the root or at the current directory, goes up
some directories, and then enters others by their names.  Following a path from
a directory goes up and enters as the path's own normal form says, except that
nothing is above the root.  So a path that is followed from a directory stays
inside it if and only if it enters again whatever it left.
-/

/-- A path in normal form. -/
structure NormalPath (α : Type*) where
  absolute : Bool
  ups : Nat
  names : List (List α)
deriving DecidableEq

namespace NormalPath

open PosixPaths

variable {α : Type*}

/-- The current directory. -/
def current : NormalPath α := ⟨false, 0, []⟩

/-- The path is in the directory or is the directory itself. -/
structure Inside (directory path : NormalPath α) : Prop where
  absolute : path.absolute = directory.absolute
  ups : path.ups = directory.ups
  names : directory.names <+: path.names

/-- The path is in the directory. -/
structure StrictlyInside (directory path : NormalPath α) : Prop
    extends Inside directory path where
  different : path.names ≠ directory.names

/-- What is in one of two directories neither of which is in the other is not in
the other one. -/
theorem ne_of_inside {first second path other : NormalPath α}
    (notInFirst : ¬ Inside first second) (notInSecond : ¬ Inside second first)
    (inFirst : Inside first path) (inSecond : Inside second other) :
    path ≠ other := by
  rintro rfl
  have sameAbsolute := inFirst.absolute.symm.trans inSecond.absolute
  have sameUps := inFirst.ups.symm.trans inSecond.ups
  rcases List.prefix_or_prefix_of_prefix inFirst.names inSecond.names with
    below | above
  · exact notInFirst ⟨sameAbsolute.symm, sameUps.symm, below⟩
  · exact notInSecond ⟨sameAbsolute, sameUps, above⟩

variable [DecidableEq α] (dot : α)

/-- Follow one component of a path. -/
def enter (path : NormalPath α) (component : List α) : NormalPath α :=
  if component = [dot] then path
  else if component = [dot, dot] then
    if path.names = [] then
      if path.absolute then path else { path with ups := path.ups + 1 }
    else { path with names := path.names.dropLast }
  else { path with names := path.names ++ [component] }

/-- Follow the components of a path. -/
def follow (path : NormalPath α) (components : List (List α)) : NormalPath α :=
  components.foldl (enter dot) path

/-- The components that are followed from the current directory. -/
def relative (components : List (List α)) : NormalPath α :=
  follow dot current components

/-- `lexically_normal` -/
def lexicallyNormal (separator : α) (path : List α) : NormalPath α :=
  follow dot ⟨isAbsolute separator path, 0, []⟩ (components separator path)

variable {dot} {path : NormalPath α} {components names : List (List α)}
variable {component : List α}

theorem follow_append_singleton :
    follow dot path (components ++ [component]) =
      enter dot (follow dot path components) component := by
  simp [follow]

@[simp]
theorem follow_append (more : List (List α)) :
    follow dot path (components ++ more) =
      follow dot (follow dot path components) more := by
  simp [follow]

/-- Names that are not those of the directory or its parent are entered. -/
theorem follow_names
    (areNames : ∀ name ∈ names, name ≠ [dot] ∧ name ≠ [dot, dot]) :
    follow dot path names = { path with names := path.names ++ names } := by
  induction names using List.reverseRecOn with
  | nil => simp [follow]
  | append_singleton front last ih =>
      have earlier := ih fun name member =>
        areNames name (List.mem_append_left _ member)
      have isName := areNames last (by simp)
      rw [follow_append_singleton, earlier, enter, if_neg isName.1,
        if_neg isName.2]
      simp

@[simp]
theorem absolute_relative (components : List (List α)) :
    (relative dot components).absolute = false := by
  induction components using List.reverseRecOn with
  | nil => rfl
  | append_singleton front last ih =>
      rw [relative, follow_append_singleton, ← relative, enter]
      split_ifs
      · exact ih
      · exact ih
      · exact ih
      · exact ih
      · exact ih

/-- Following a path goes up as far as the path goes up from the current
directory, and then enters what it enters from there. -/
theorem follow_eq (path : NormalPath α) (components : List (List α)) :
    follow dot path components =
      { absolute := path.absolute
        ups :=
          if path.absolute then path.ups
          else path.ups + ((relative dot components).ups - path.names.length)
        names :=
          path.names.take
              (path.names.length - (relative dot components).ups) ++
            (relative dot components).names } := by
  induction components using List.reverseRecOn with
  | nil => simp [relative, follow, current]
  | append_singleton front last ih =>
      rw [relative, follow_append_singleton, follow_append_singleton, ih,
        ← relative]
      by_cases isDot : last = [dot]
      · simp only [enter, isDot, if_true]
      by_cases isUp : last = [dot, dot]
      · subst isUp
        by_cases entered : (relative dot front).names = []
        · have goesUp : enter dot (relative dot front) [dot, dot] =
              { relative dot front with
                ups := (relative dot front).ups + 1 } := by
            simp [enter, entered]
          rw [goesUp]
          by_cases above : path.names.length ≤ (relative dot front).ups
          · have none : path.names.length - (relative dot front).ups = 0 := by
              omega
            have noneLater :
                path.names.length - ((relative dot front).ups + 1) = 0 := by
              omega
            cases absolute : path.absolute with
            | true => simp [enter, entered, none, noneLater]
            | false =>
                have onceMore : (relative dot front).ups + 1 -
                    path.names.length =
                      (relative dot front).ups - path.names.length + 1 := by
                  omega
                simp [enter, entered, none, noneLater, onceMore, Nat.add_assoc]
          · have some : path.names.take
                (path.names.length - (relative dot front).ups) ≠ [] := by
              intro empty
              have length := congrArg List.length empty
              rw [List.length_take, List.length_nil] at length
              omega
            have noUps : (relative dot front).ups - path.names.length = 0 := by
              omega
            have noUpsLater : (relative dot front).ups + 1 -
                path.names.length = 0 := by
              omega
            have dropped : (path.names.take
                (path.names.length - (relative dot front).ups)).dropLast =
                  path.names.take
                    (path.names.length - ((relative dot front).ups + 1)) := by
              rw [List.dropLast_eq_take, List.take_take, List.length_take]
              congr 1
              omega
            simp [enter, entered, some, dropped, noUps, noUpsLater]
        · have leaves : enter dot (relative dot front) [dot, dot] =
              { relative dot front with
                names := (relative dot front).names.dropLast } := by
            simp [enter, entered]
          rw [leaves]
          simp [enter, entered, List.dropLast_append_of_ne_nil]
      · simp [enter, isDot, isUp]

/-- A path that is followed from a directory stays inside it if and only if it
goes up within what can be left, and enters again what it left. -/
theorem inside_follow_iff :
    Inside path (follow dot path components) ↔
      ((relative dot components).ups ≤ path.names.length ∨
          path.absolute = true) ∧
        path.names.drop
            (path.names.length - (relative dot components).ups) <+:
          (relative dot components).names := by
  have split : path.names <+: path.names.take
        (path.names.length - (relative dot components).ups) ++
          (relative dot components).names ↔
      path.names.drop (path.names.length - (relative dot components).ups) <+:
        (relative dot components).names := by
    conv_lhs =>
      lhs
      rw [← List.take_append_drop
        (path.names.length - (relative dot components).ups) path.names]
    exact List.prefix_append_right_inj _
  rw [follow_eq]
  constructor
  · intro inside
    refine ⟨?_, split.mp inside.names⟩
    have sameUps := inside.ups
    cases absolute : path.absolute with
    | true => exact .inr rfl
    | false =>
        left
        simp only [absolute, Bool.false_eq_true, if_false] at sameUps
        omega
  · rintro ⟨mayLeave, enters⟩
    refine ⟨rfl, ?_, split.mpr enters⟩
    dsimp only
    split
    · rfl
    · next notAbsolute =>
        have within := mayLeave.resolve_right (by simpa using notAbsolute)
        omega

/-- The names of a followed path are those of the directory if and only if it
has entered just what it left. -/
theorem names_follow_eq_iff :
    (follow dot path components).names = path.names ↔
      (relative dot components).names = path.names.drop
        (path.names.length - (relative dot components).ups) := by
  rw [follow_eq]
  conv_lhs =>
    rhs
    rw [← List.take_append_drop
      (path.names.length - (relative dot components).ups) path.names]
  dsimp only
  exact List.append_right_inj _

theorem strictlyInside_follow_iff :
    StrictlyInside path (follow dot path components) ↔
      ((relative dot components).ups ≤ path.names.length ∨
          path.absolute = true) ∧
        path.names.drop
            (path.names.length - (relative dot components).ups) <+:
          (relative dot components).names ∧
        (relative dot components).names ≠ path.names.drop
          (path.names.length - (relative dot components).ups) := by
  constructor
  · intro strictlyInside
    have ⟨mayLeave, enters⟩ :=
      inside_follow_iff.mp strictlyInside.toInside
    refine ⟨mayLeave, enters, ?_⟩
    intro same
    exact strictlyInside.different (names_follow_eq_iff.mpr same)
  · rintro ⟨mayLeave, enters, different⟩
    have inside := inside_follow_iff.mpr ⟨mayLeave, enters⟩
    refine ⟨inside, ?_⟩
    intro same
    exact different (names_follow_eq_iff.mp same)

end NormalPath
