import Mathlib.Data.List.DropRight
import Mathlib.Tactic.Common

/-!
# Paths as strings

The operations of a path library that works on strings with one separator and
no drive names: a path is absolute when it begins with the separator, and
successive separators count as one.  The operations are defined for all
strings.  What they do to an absolute path without superfluous separators, which
is a list of names each preceded by a separator, is proved here.
-/

namespace PosixPaths

variable {α : Type*} (separator : α)

/-- A name of a file or directory. -/
structure IsName (name : List α) : Prop where
  nonempty : name ≠ []
  noSeparator : separator ∉ name

/-- The absolute path with these names. -/
def absolutePath (names : List (List α)) : List α :=
  (names.map (separator :: ·)).flatten

section Names

variable {separator} {name : List α} {names : List (List α)}

theorem IsName.head?_ne (isName : IsName separator name) :
    name.head? ≠ some separator := by
  intro isHead
  exact isName.noSeparator (List.mem_of_mem_head? isHead)

theorem IsName.getLast?_ne (isName : IsName separator name) :
    name.getLast? ≠ some separator := by
  intro isLast
  exact isName.noSeparator (List.mem_of_mem_getLast? isLast)

theorem absolutePath_cons (name : List α) (names : List (List α)) :
    absolutePath separator (name :: names) =
      separator :: (name ++ absolutePath separator names) := by
  simp [absolutePath]

theorem absolutePath_append_singleton (names : List (List α)) (name : List α) :
    absolutePath separator (names ++ [name]) =
      absolutePath separator names ++ separator :: name := by
  simp [absolutePath]

theorem getLast?_absolutePath_ne
    (areNames : ∀ name ∈ names, IsName separator name) :
    (absolutePath separator names).getLast? ≠ some separator := by
  cases names using List.reverseRecOn with
  | nil => simp [absolutePath]
  | append_singleton names name =>
      have isName := areNames name (by simp)
      rw [absolutePath_append_singleton,
        List.getLast?_append_of_ne_nil _ (List.cons_ne_nil _ _),
        List.getLast?_cons_of_ne_nil isName.nonempty]
      exact isName.getLast?_ne

/-- The part of an absolute path after the root does not end with a
separator. -/
theorem getLast?_name_append_absolutePath_ne
    (areNames : ∀ other ∈ name :: names, IsName separator other) :
    (name ++ absolutePath separator names).getLast? ≠ some separator := by
  have isName := areNames name List.mem_cons_self
  have wholeEnd := getLast?_absolutePath_ne areNames
  rw [absolutePath_cons, List.getLast?_cons_of_ne_nil] at wholeEnd
  · exact wholeEnd
  · simp [isName.nonempty]

end Names

variable [DecidableEq α]

/-- The path begins at the root. -/
def isAbsolute (path : List α) : Bool := path.head? == some separator

/-- The path from the root on. -/
def relativePath (path : List α) : List α :=
  path.dropWhile (· == separator)

/-- The last element of the path; a path that ends with a separator has
none. -/
def filename (path : List α) : List α :=
  path.rtakeWhile (· != separator)

/-- The path without its last element and the separators before that, unless
these are the root. -/
def parentPath (path : List α) : List α :=
  if relativePath separator path = [] then path
  else
    let directory := path.rdropWhile (· != separator)
    let trimmed := directory.rdropWhile (· == separator)
    if trimmed = [] then directory else trimmed

/-- Append a path; an absolute one replaces the path. -/
def append (path other : List α) : List α :=
  if isAbsolute separator other then other
  else if filename separator path = [] then path ++ other
  else path ++ separator :: other

/-- Replace successive separators by one. -/
def genericString : List α → List α
  | [] => []
  | first :: rest =>
      if first = separator ∧ rest.head? = some separator then genericString rest
      else first :: genericString rest

/-- The names in a path, from the first to the last. -/
def components (path : List α) : List (List α) :=
  (path.splitOn separator).filter (! ·.isEmpty)

variable {separator} {path other name : List α} {names : List (List α)}

section GenericString

theorem genericString_append (notSeparator : other.head? ≠ some separator) :
    genericString separator (path ++ other) =
      genericString separator path ++ genericString separator other := by
  induction path with
  | nil => rfl
  | cons first rest ih =>
      have sameHead : (rest ++ other).head? = some separator ↔
          rest.head? = some separator := by
        cases rest with
        | nil => simp [notSeparator]
        | cons second rest => simp
      simp only [List.cons_append, genericString, sameHead, ih]
      split <;> rfl

theorem genericString_append_of_name (noSeparator : separator ∉ name) :
    genericString separator (name ++ path) =
      name ++ genericString separator path := by
  induction name with
  | nil => rfl
  | cons first rest ih =>
      have apart : first ≠ separator := by
        rintro rfl
        exact noSeparator List.mem_cons_self
      have later : separator ∉ rest :=
        fun member => noSeparator (List.mem_cons_of_mem _ member)
      simp [genericString, apart, ih later]

theorem getLast?_genericString (separator : α) (path : List α) :
    (genericString separator path).getLast? = path.getLast? := by
  induction path with
  | nil => rfl
  | cons first rest ih =>
      cases rest with
      | nil => simp [genericString]
      | cons second rest =>
          have nonempty : genericString separator (second :: rest) ≠ [] := by
            intro empty
            rw [empty] at ih
            simp [List.getLast?_cons] at ih
          rw [genericString]
          split
          · rw [ih, List.getLast?_cons_cons]
          · rw [List.getLast?_cons_of_ne_nil nonempty, ih,
              List.getLast?_cons_cons]

/-- Replacing successive separators keeps the first character. -/
theorem head?_genericString (separator : α) (path : List α) :
    (genericString separator path).head? = path.head? := by
  induction path with
  | nil => rfl
  | cons first rest ih =>
      unfold genericString
      split
      · next collapses => rw [ih, collapses.2, List.head?_cons, collapses.1]
      · rfl

theorem genericString_ne_nil (nonempty : path ≠ []) :
    genericString separator path ≠ [] := by
  intro empty
  have sameEnd := getLast?_genericString separator path
  rw [empty] at sameEnd
  exact nonempty (List.getLast?_eq_none_iff.mp sameEnd.symm)

theorem genericString_absolutePath
    (areNames : ∀ name ∈ names, IsName separator name) :
    genericString separator (absolutePath separator names) =
      absolutePath separator names := by
  induction names with
  | nil => rfl
  | cons name names ih =>
      have isName := areNames name List.mem_cons_self
      have later := ih fun other member =>
        areNames other (List.mem_cons_of_mem _ member)
      have notSeparator :
          (name ++ absolutePath separator names).head? ≠ some separator := by
        rw [List.head?_append_of_ne_nil _ isName.nonempty]
        exact isName.head?_ne
      rw [absolutePath_cons, genericString,
        if_neg (fun both => notSeparator both.2),
        genericString_append_of_name isName.noSeparator, later]

theorem length_genericString_le (path : List α) :
    (genericString separator path).length ≤ path.length := by
  induction path with
  | nil => exact Nat.le_refl _
  | cons first rest ih =>
      rw [genericString]
      split
      · exact Nat.le_succ_of_le ih
      · simpa using ih

/-- The beginning of a path without successive separators has none either. -/
theorem genericString_eq_self_of_front (isPrefix : path <+: other)
    (isGeneric : genericString separator other = other) :
    genericString separator path = path := by
  induction path generalizing other with
  | nil => rfl
  | cons first rest ih =>
      obtain ⟨later, rfl⟩ := isPrefix
      rw [List.cons_append, genericString] at isGeneric
      split at isGeneric
      · have shorter : (genericString separator (rest ++ later)).length ≤
            (rest ++ later).length := length_genericString_le _
        rw [isGeneric, List.length_cons] at shorter
        omega
      next apart =>
      have sameRest := ih (List.prefix_append rest later)
        (List.cons.inj isGeneric).2
      have notBoth : ¬ (first = separator ∧ rest.head? = some separator) := by
        rintro ⟨isSeparator, beginsAgain⟩
        obtain ⟨more, rfl⟩ := List.head?_eq_some_iff.mp beginsAgain
        exact apart ⟨isSeparator, by simp⟩
      rw [genericString, if_neg notBoth, sameRest]

/-- Successive separators are replaced by a single one only if there is nothing
else. -/
theorem genericString_eq_singleton_iff :
    genericString separator path = [separator] ↔
      path ≠ [] ∧ ∀ character ∈ path, character = separator := by
  induction path with
  | nil => simp [genericString]
  | cons first rest ih =>
      rw [genericString]
      split
      · next collapses =>
          have nonempty : rest ≠ [] := by
            rintro rfl
            simp at collapses
          simp [ih, nonempty, collapses.1]
      · next apart =>
          rw [List.cons.injEq]
          cases rest with
          | nil => simp [genericString]
          | cons second rest =>
              have nonempty : genericString separator (second :: rest) ≠ [] :=
                genericString_ne_nil (List.cons_ne_nil _ _)
              simp only [nonempty, and_false, false_iff, not_and]
              intro _ all
              exact apart ⟨all first (by simp), by simp [all second (by simp)]⟩

theorem genericString_append_separator
    (notSeparator : path.getLast? ≠ some separator) :
    genericString separator (path ++ [separator]) =
      genericString separator path ++ [separator] := by
  induction path with
  | nil => simp [genericString]
  | cons first rest ih =>
      cases rest with
      | nil =>
          have apart : first ≠ separator := by simpa using notSeparator
          simp [genericString, apart]
      | cons second rest =>
          have later := ih (by simpa [List.getLast?_cons_cons] using notSeparator)
          have unfolded : ∀ path, genericString separator (first :: path) =
              if first = separator ∧ path.head? = some separator then
                genericString separator path
              else first :: genericString separator path :=
            fun _ => rfl
          rw [List.cons_append, unfolded, unfolded, later, List.cons_append,
            List.head?_cons, List.head?_cons]
          split
          · rfl
          · rfl

/-- Replacing successive separators again changes nothing. -/
@[simp]
theorem genericString_genericString (path : List α) :
    genericString separator (genericString separator path) =
      genericString separator path := by
  induction path with
  | nil => rfl
  | cons first rest ih =>
      rw [genericString]
      split
      · exact ih
      · next apart =>
          rw [genericString, head?_genericString, if_neg apart, ih]

end GenericString

section Elements

theorem rtakeWhile_append_of_name (noSeparator : separator ∉ name) :
    (path ++ separator :: name).rtakeWhile (· != separator) = name := by
  induction name using List.reverseRecOn with
  | nil => simp
  | append_singleton front last ih =>
      have apart : last ≠ separator := by
        rintro rfl
        exact noSeparator (by simp)
      have earlier : separator ∉ front :=
        fun member => noSeparator (List.mem_append_left _ member)
      have split : path ++ separator :: (front ++ [last]) =
          (path ++ separator :: front) ++ [last] := by simp
      rw [split, List.rtakeWhile_concat_pos _ _ _ (by simpa using apart),
        ih earlier]

theorem rdropWhile_append_of_name (noSeparator : separator ∉ name) :
    (path ++ separator :: name).rdropWhile (· != separator) =
      path ++ [separator] := by
  have parts : (path ++ separator :: name).rdropWhile (· != separator) ++
      (path ++ separator :: name).rtakeWhile (· != separator) =
        path ++ separator :: name := List.rdropWhile_append_rtakeWhile
  rw [rtakeWhile_append_of_name noSeparator] at parts
  have regroup : path ++ separator :: name =
      (path ++ [separator]) ++ name := by simp
  rw [regroup] at parts ⊢
  exact List.append_cancel_right parts

theorem isAbsolute_absolutePath (nonempty : names ≠ []) :
    isAbsolute separator (absolutePath separator names) = true := by
  cases names with
  | nil => exact absurd rfl nonempty
  | cons name names => simp [isAbsolute, absolutePath_cons]

theorem relativePath_absolutePath_cons (isName : IsName separator name) :
    relativePath separator (absolutePath separator (name :: names)) =
      name ++ absolutePath separator names := by
  have notSeparator := isName.head?_ne
  rw [absolutePath_cons, relativePath, List.dropWhile_cons_of_pos (by simp)]
  cases name with
  | nil => exact absurd rfl isName.nonempty
  | cons first rest =>
      have apart : first ≠ separator := by simpa using notSeparator
      rw [List.cons_append, List.dropWhile_cons_of_neg (by simpa using apart)]

/-- The last element of an absolute path is its last name. -/
theorem filename_absolutePath (isName : IsName separator name) :
    filename separator (absolutePath separator (names ++ [name])) = name := by
  rw [absolutePath_append_singleton]
  exact rtakeWhile_append_of_name isName.noSeparator

/-- The parent of an absolute path has the names before its last one; without
any, it is the root. -/
theorem parentPath_absolutePath
    (areNames : ∀ other ∈ names, IsName separator other)
    (isName : IsName separator name) :
    parentPath separator (absolutePath separator (names ++ [name])) =
      if names = [] then [separator] else absolutePath separator names := by
  have notRoot : relativePath separator
      (absolutePath separator (names ++ [name])) ≠ [] := by
    cases names with
    | nil =>
        rw [List.nil_append, relativePath_absolutePath_cons isName]
        simp [isName.nonempty]
    | cons first rest =>
        have isFirst := areNames first List.mem_cons_self
        rw [List.cons_append, relativePath_absolutePath_cons isFirst]
        simp [isFirst.nonempty]
  have directory : (absolutePath separator (names ++ [name])).rdropWhile
      (· != separator) = absolutePath separator names ++ [separator] := by
    rw [absolutePath_append_singleton]
    exact rdropWhile_append_of_name isName.noSeparator
  have trimmed : (absolutePath separator names ++ [separator]).rdropWhile
      (· == separator) = absolutePath separator names := by
    rw [List.rdropWhile_concat_pos _ _ _ (by simp),
      List.rdropWhile_eq_self_iff]
    intro nonempty isLast
    apply getLast?_absolutePath_ne areNames
    rw [List.getLast?_eq_some_getLast nonempty]
    simpa using isLast
  rw [parentPath, if_neg notRoot]
  simp only [directory, trimmed]
  cases names with
  | nil => simp [absolutePath]
  | cons first rest => simp [absolutePath]

theorem components_append_separator (path other : List α) :
    components separator (path ++ separator :: other) =
      components separator path ++ components separator other := by
  rw [components, List.splitOn_append_cons_self, List.filter_append]
  rfl

theorem components_of_name (isName : IsName separator name) :
    components separator name = [name] := by
  rw [components, List.splitOn_eq_singleton isName.noSeparator]
  simp [isName.nonempty]

/-- An absolute path consists of its names. -/
theorem components_absolutePath
    (areNames : ∀ name ∈ names, IsName separator name) :
    components separator (absolutePath separator names) = names := by
  induction names using List.reverseRecOn with
  | nil => simp [absolutePath, components]
  | append_singleton front last ih =>
      have isName := areNames last (by simp)
      have earlier := ih fun name member =>
        areNames name (List.mem_append_left _ member)
      rw [absolutePath_append_singleton, components_append_separator, earlier,
        components_of_name isName]

/-- A separator before a path adds no name. -/
theorem components_cons_separator (path : List α) :
    components separator (separator :: path) = components separator path := by
  have split : components separator ([] ++ separator :: path) =
      components separator [] ++ components separator path :=
    components_append_separator [] path
  simpa [components] using split

theorem components_relativePath (path : List α) :
    components separator (relativePath separator path) =
      components separator path := by
  induction path with
  | nil => rfl
  | cons first rest ih =>
      by_cases isSeparator : first = separator
      · rw [relativePath, List.dropWhile_cons_of_pos (by simp [isSeparator]),
          ← relativePath, ih, isSeparator, components_cons_separator]
      · rw [relativePath, List.dropWhile_cons_of_neg (by simp [isSeparator])]

theorem isAbsolute_relativePath (path : List α) :
    isAbsolute separator (relativePath separator path) = false := by
  induction path with
  | nil => rfl
  | cons first rest ih =>
      by_cases isSeparator : first = separator
      · rw [relativePath, List.dropWhile_cons_of_pos (by simp [isSeparator]),
          ← relativePath, ih]
      · rw [relativePath, List.dropWhile_cons_of_neg (by simp [isSeparator])]
        simp [isAbsolute, isSeparator]

theorem components_append_genericString (front path : List α) :
    components separator (front ++ genericString separator path) =
      components separator (front ++ path) := by
  induction path generalizing front with
  | nil => rfl
  | cons first rest ih =>
      rw [genericString]
      split
      · next collapses =>
          obtain ⟨rfl, beginsAgain⟩ := collapses
          obtain ⟨more, rfl⟩ := List.head?_eq_some_iff.mp beginsAgain
          rw [ih, components_append_separator, components_append_separator,
            components_cons_separator]
      · have sameAfter := ih (front ++ [first])
        simpa using sameAfter

/-- Replacing successive separators by one keeps the names. -/
theorem components_genericString (path : List α) :
    components separator (genericString separator path) =
      components separator path :=
  components_append_genericString [] path

variable (separator) in
/-- The part of a path before its last element. -/
theorem dropLast_element (path : List α) :
    ∃ front, path = front ++ filename separator path ∧
      (front = [] ∨ ∃ rest, front = rest ++ [separator]) := by
  refine ⟨path.rdropWhile (· != separator), ?_, ?_⟩
  · exact List.rdropWhile_append_rtakeWhile.symm
  · by_cases nothing : path.rdropWhile (· != separator) = []
    · exact .inl nothing
    · have isSeparator := List.rdropWhile_last_not _ _ nothing
      rw [bne_iff_ne, not_not] at isSeparator
      have split := List.dropLast_append_getLast nothing
      rw [isSeparator] at split
      exact .inr ⟨_, split.symm⟩

theorem components_append_of_front {front : List α}
    (isFront : front = [] ∨ ∃ rest, front = rest ++ [separator])
    (isName : IsName separator name) :
    components separator (front ++ name) =
      components separator front ++ [name] := by
  rcases isFront with rfl | ⟨rest, rfl⟩
  · simpa [components] using components_of_name isName
  · rw [List.append_assoc, List.singleton_append, components_append_separator,
      components_append_separator, components_of_name isName]
    simp [components]

/-- A name right after a path that ends with a separator is a component of its
own. -/
theorem components_append_name (isName : IsName separator name)
    (ends : filename separator path = []) :
    components separator (path ++ name) =
      components separator path ++ [name] := by
  obtain ⟨front, isPath, isFront⟩ := dropLast_element separator path
  rw [ends, List.append_nil] at isPath
  rw [isPath]
  exact components_append_of_front isFront isName

/-- A name right after another element makes one component with it. -/
theorem exists_components_append_name (isName : IsName separator name)
    (element : filename separator path ≠ []) :
    ∃ front, components separator path = front ++ [filename separator path] ∧
      components separator (path ++ name) =
        front ++ [filename separator path ++ name] := by
  obtain ⟨front, isPath, isFront⟩ := dropLast_element separator path
  have noSeparator : separator ∉ filename separator path := by
    intro member
    simpa using List.mem_rtakeWhile_imp member
  refine ⟨components separator front, ?_, ?_⟩
  · conv_lhs => rw [isPath]
    exact components_append_of_front isFront ⟨element, noSeparator⟩
  · conv_lhs => rw [isPath, List.append_assoc]
    refine components_append_of_front isFront ⟨by simp [element], ?_⟩
    rw [List.mem_append]
    rintro (inElement | inName)
    · exact noSeparator inElement
    · exact isName.noSeparator inName

end Elements

section Append

variable (separator) in
/-- The path with a separator after its last element. -/
def asDirectory (path : List α) : List α :=
  if filename separator path = [] then path else path ++ [separator]

theorem components_asDirectory (path : List α) :
    components separator (asDirectory separator path) =
      components separator path := by
  unfold asDirectory
  split
  · rfl
  · rw [components_append_separator]
    simp [components]

theorem getLast?_asDirectory (nonempty : path ≠ []) :
    (asDirectory separator path).getLast? = some separator := by
  unfold asDirectory
  split
  next noFilename =>
    have isLast := List.rtakeWhile_eq_nil_iff.mp noFilename nonempty
    rw [List.getLast?_eq_some_getLast nonempty]
    simpa using isLast
  next => simp

theorem head?_asDirectory (nonempty : path ≠ []) :
    (asDirectory separator path).head? = path.head? := by
  unfold asDirectory
  split
  · rfl
  · rw [List.head?_append_of_ne_nil _ nonempty]

theorem append_ne_nil (nonempty : path ≠ []) (other : List α) :
    append separator path other ≠ [] := by
  unfold append
  split
  next absolute =>
    rintro rfl
    simp [isAbsolute] at absolute
  next =>
    split <;> simp [nonempty]

theorem append_of_relative (isRelative : isAbsolute separator other = false) :
    append separator path other = asDirectory separator path ++ other := by
  unfold append asDirectory
  rw [if_neg (by simp [isRelative])]
  split <;> simp

end Append

end PosixPaths
