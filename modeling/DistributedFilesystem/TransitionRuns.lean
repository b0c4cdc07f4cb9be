import Mathlib.Data.List.Basic

/-!
# Runs of a labelled transition function

A system is a function that takes a label and a state and either refuses the
label or returns the next state.  A run follows a finite list of labels.  The
induction that carries an invariant along a run, possibly under a condition
that every step of the run meets, is proved once here.
-/

namespace TransitionRuns

variable {State Label : Type*}

/-- Follow a list of labels, refusing as soon as one of them is refused. -/
def run (step : Label → State → Option State) :
    List Label → State → Option State
  | [], state => some state
  | label :: labels, state => (step label state).bind (run step labels)

/-- Every step that the labels take from `state` meets `condition`, which sees
the label and the state before the step. -/
def Along (step : Label → State → Option State)
    (condition : Label → State → Prop) : List Label → State → Prop
  | [], _ => True
  | label :: labels, state =>
      condition label state ∧
        ∀ next, step label state = some next →
          Along step condition labels next

/-- Every state that the labels visit from `state`, both ends included,
satisfies `property`. -/
def Throughout (step : Label → State → Option State)
    (property : State → Prop) : List Label → State → Prop
  | [], state => property state
  | label :: labels, state =>
      property state ∧
        ∀ next, step label state = some next →
          Throughout step property labels next

/-- What the steps of a run emit, in order. -/
def trace {Event : Type*} (step : Label → State → Option State)
    (emit : Label → State → List Event) : List Label → State → List Event
  | [], _ => []
  | label :: labels, state =>
      emit label state ++
        ((step label state).map (trace step emit labels)).getD []

variable {step : Label → State → Option State}

@[simp]
theorem run_nil (state : State) : run step [] state = some state :=
  rfl

theorem run_cons_eq_some {label : Label} {labels : List Label}
    {state final : State} :
    run step (label :: labels) state = some final ↔
      ∃ next, step label state = some next ∧
        run step labels next = some final :=
  Option.bind_eq_some_iff

/-- Two runs, one after the other. -/
theorem run_append {first second : List Label} {state middle final : State}
    (reaches : run step first state = some middle)
    (ends : run step second middle = some final) :
    run step (first ++ second) state = some final := by
  induction first generalizing state with
  | nil =>
      obtain rfl : state = middle := by simpa using reaches
      exact ends
  | cons label first ih =>
      obtain ⟨next, stepEq, rest⟩ := run_cons_eq_some.mp reaches
      exact run_cons_eq_some.mpr ⟨next, stepEq, ih rest⟩

/-- The second part of a run starts where the first one ends. -/
theorem run_of_append {first second : List Label} {state middle final : State}
    (reaches : run step (first ++ second) state = some final)
    (halfway : run step first state = some middle) :
    run step second middle = some final := by
  induction first generalizing state with
  | nil =>
      obtain rfl : state = middle := by simpa using halfway
      exact reaches
  | cons label first ih =>
      obtain ⟨next, stepEq, rest⟩ := run_cons_eq_some.mp halfway
      obtain ⟨other, stepEq', later⟩ := run_cons_eq_some.mp reaches
      obtain rfl : next = other := Option.some.inj (stepEq.symm.trans stepEq')
      exact ih later rest

/-- A condition that no state violates is met by every run. -/
theorem along_of_forall {condition : Label → State → Prop}
    {labels : List Label}
    (always : ∀ label ∈ labels, ∀ state, condition label state)
    (state : State) : Along step condition labels state := by
  induction labels generalizing state with
  | nil => trivial
  | cons label labels ih =>
      exact ⟨always label List.mem_cons_self state, fun next _ =>
        ih (fun later member => always later (List.mem_cons_of_mem _ member))
          next⟩

theorem along_append {condition : Label → State → Prop}
    {first second : List Label} {state middle : State}
    (reaches : run step first state = some middle)
    (before : Along step condition first state)
    (after : Along step condition second middle) :
    Along step condition (first ++ second) state := by
  induction first generalizing state with
  | nil =>
      obtain rfl : state = middle := by simpa using reaches
      exact after
  | cons label first ih =>
      obtain ⟨next, stepEq, rest⟩ := run_cons_eq_some.mp reaches
      refine ⟨before.1, fun other stepEq' => ?_⟩
      obtain rfl : next = other := Option.some.inj (stepEq.symm.trans stepEq')
      exact ih rest (before.2 next stepEq)

theorem Along.and {first second : Label → State → Prop} {labels : List Label}
    {state : State} (along : Along step first labels state)
    (also : Along step second labels state) :
    Along step (fun label state => first label state ∧ second label state)
      labels state := by
  induction labels generalizing state with
  | nil => trivial
  | cons label labels ih =>
      exact ⟨⟨along.1, also.1⟩,
        fun next stepEq => ih (along.2 next stepEq) (also.2 next stepEq)⟩

/-- Two conditions that agree wherever an invariant holds are met by the same
runs, if the steps that meet them preserve it. -/
theorem along_congr {first second : Label → State → Prop}
    (invariant : State → Prop)
    (agree : ∀ label state, invariant state →
      (first label state ↔ second label state))
    (preserved : ∀ label state next, second label state → invariant state →
      step label state = some next → invariant next)
    {labels : List Label} {state : State} (initially : invariant state) :
    Along step first labels state ↔ Along step second labels state := by
  induction labels generalizing state with
  | nil => exact Iff.rfl
  | cons label labels ih =>
      have here := agree label state initially
      constructor
      · rintro ⟨meets, later⟩
        have meets' := here.mp meets
        refine ⟨meets', fun next stepEq => ?_⟩
        exact (ih (preserved label state next meets' initially stepEq)).mp
          (later next stepEq)
      · rintro ⟨meets, later⟩
        refine ⟨here.mpr meets, fun next stepEq => ?_⟩
        exact (ih (preserved label state next meets initially stepEq)).mpr
          (later next stepEq)

/-- An invariant that every conditioned step preserves holds at the end of
every run whose steps meet the condition. -/
theorem invariant_of_run {condition : Label → State → Prop}
    {invariant : State → Prop}
    (preserved : ∀ label state next, condition label state →
      invariant state → step label state = some next → invariant next)
    {labels : List Label} {state final : State}
    (reaches : run step labels state = some final)
    (meets : Along step condition labels state)
    (initially : invariant state) : invariant final := by
  induction labels generalizing state with
  | nil =>
      obtain rfl : state = final := by simpa using reaches
      exact initially
  | cons label labels ih =>
      obtain ⟨next, stepEq, rest⟩ := run_cons_eq_some.mp reaches
      exact ih rest (meets.2 next stepEq)
        (preserved label state next meets.1 initially stepEq)

/-- An invariant that every step preserves holds at the end of every run. -/
theorem invariant_of_run' {invariant : State → Prop}
    (preserved : ∀ label state next,
      invariant state → step label state = some next → invariant next)
    {labels : List Label} {state final : State}
    (reaches : run step labels state = some final)
    (initially : invariant state) : invariant final := by
  induction labels generalizing state with
  | nil =>
      obtain rfl : state = final := by simpa using reaches
      exact initially
  | cons label labels ih =>
      obtain ⟨next, stepEq, rest⟩ := run_cons_eq_some.mp reaches
      exact ih rest (preserved label state next initially stepEq)

section Traces

variable {Event : Type*} {emit : Label → State → List Event}

theorem trace_append {first second : List Label} {state middle : State}
    (reaches : run step first state = some middle) :
    trace step emit (first ++ second) state =
      trace step emit first state ++ trace step emit second middle := by
  induction first generalizing state with
  | nil =>
      obtain rfl : state = middle := by simpa using reaches
      rfl
  | cons label first ih =>
      obtain ⟨next, stepEq, rest⟩ := run_cons_eq_some.mp reaches
      simp [trace, stepEq, ih rest]

/-- An invariant of the state and of what the run has emitted so far. -/
theorem invariant_of_trace {condition : Label → State → Prop}
    {invariant : List Event → State → Prop}
    (preserved : ∀ label state next past, condition label state →
      invariant past state → step label state = some next →
      invariant (past ++ emit label state) next)
    {labels : List Label} {state final : State} {past : List Event}
    (reaches : run step labels state = some final)
    (meets : Along step condition labels state)
    (initially : invariant past state) :
    invariant (past ++ trace step emit labels state) final := by
  induction labels generalizing state past with
  | nil =>
      obtain rfl : state = final := by simpa using reaches
      simpa [trace] using initially
  | cons label labels ih =>
      obtain ⟨next, stepEq, rest⟩ := run_cons_eq_some.mp reaches
      have kept := ih rest (meets.2 next stepEq)
        (preserved label state next past meets.1 initially stepEq)
      simpa [trace, stepEq] using kept

end Traces

/-- A property throughout a run holds where the run starts. -/
theorem Throughout.first {property : State → Prop} {labels : List Label}
    {state : State} (always : Throughout step property labels state) :
    property state := by
  cases labels with
  | nil => exact always
  | cons _ _ => exact always.1

theorem throughout_of_along {condition : Label → State → Prop}
    {invariant : State → Prop}
    (preserved : ∀ label state next, condition label state →
      invariant state → step label state = some next → invariant next)
    {labels : List Label} {state : State}
    (meets : Along step condition labels state) (initially : invariant state) :
    Throughout step invariant labels state := by
  induction labels generalizing state with
  | nil => exact initially
  | cons label labels ih =>
      refine ⟨initially, fun next stepEq => ?_⟩
      exact ih (meets.2 next stepEq)
        (preserved label state next meets.1 initially stepEq)

theorem throughout_of_forall {property : State → Prop}
    (always : ∀ state, property state) (labels : List Label) (state : State) :
    Throughout step property labels state := by
  induction labels generalizing state with
  | nil => exact always state
  | cons label labels ih => exact ⟨always state, fun next _ => ih next⟩

theorem Throughout.imp {first second : State → Prop} {labels : List Label}
    {state : State} (implies : ∀ state, first state → second state)
    (always : Throughout step first labels state) :
    Throughout step second labels state := by
  induction labels generalizing state with
  | nil => exact implies state always
  | cons label labels ih =>
      exact ⟨implies state always.1, fun next stepEq => ih (always.2 next stepEq)⟩

theorem Throughout.and {first second : State → Prop} {labels : List Label}
    {state : State} (always : Throughout step first labels state)
    (also : Throughout step second labels state) :
    Throughout step (fun state => first state ∧ second state) labels state := by
  induction labels generalizing state with
  | nil => exact ⟨always, also⟩
  | cons label labels ih =>
      exact ⟨⟨always.1, also.1⟩,
        fun next stepEq => ih (always.2 next stepEq) (also.2 next stepEq)⟩

/-- An invariant preserved from states with a property throughout holds at the
end of every run that has the property throughout. -/
theorem invariant_of_throughout {property invariant : State → Prop}
    (preserved : ∀ label state next, property state → property next →
      invariant state → step label state = some next → invariant next)
    {labels : List Label} {state final : State}
    (reaches : run step labels state = some final)
    (always : Throughout step property labels state)
    (initially : invariant state) : invariant final := by
  induction labels generalizing state with
  | nil =>
      obtain rfl : state = final := by simpa using reaches
      exact initially
  | cons label labels ih =>
      obtain ⟨next, stepEq, rest⟩ := run_cons_eq_some.mp reaches
      have later := always.2 next stepEq
      exact ih rest later
        (preserved label state next always.1 later.first initially stepEq)

/-- In a run whose steps are all suitable, with a background invariant: when
`property` survives and the step is `kept` exactly if it meets `condition`, the
run has the property throughout and keeps all its steps if and only if they all
meet the condition. -/
theorem throughout_and_along_iff_along (background : State → Prop)
    {property : State → Prop} {suitable condition kept : Label → State → Prop}
    (preserved : ∀ label state next, suitable label state → background state →
      step label state = some next → background next)
    (exact : ∀ label state next, suitable label state → background state →
      property state → step label state = some next →
      (property next ∧ kept label state ↔ condition label state))
    {labels : List Label} {state final : State}
    (reaches : run step labels state = some final)
    (suits : Along step suitable labels state)
    (initially : background state) (holds : property state) :
    (Throughout step property labels state ∧ Along step kept labels state) ↔
      Along step condition labels state := by
  induction labels generalizing state with
  | nil => exact ⟨fun _ => trivial, fun _ => ⟨holds, trivial⟩⟩
  | cons label labels ih =>
      obtain ⟨next, stepEq, rest⟩ := run_cons_eq_some.mp reaches
      have exactHere := exact label state next suits.1 initially holds stepEq
      have later := ih rest (suits.2 next stepEq)
        (preserved label state next suits.1 initially stepEq)
      have onlyNext : ∀ other, step label state = some other → other = next :=
        fun other stepEq' => Option.some.inj (stepEq'.symm.trans stepEq)
      constructor
      · rintro ⟨⟨-, always⟩, keptHere, keptLater⟩
        have holdsNext := (always next stepEq).first
        refine ⟨exactHere.mp ⟨holdsNext, keptHere⟩, fun other stepEq' => ?_⟩
        rw [onlyNext other stepEq']
        exact (later holdsNext).mp ⟨always next stepEq, keptLater next stepEq⟩
      · rintro ⟨meets, along⟩
        obtain ⟨holdsNext, keptHere⟩ := exactHere.mpr meets
        have fromNext := (later holdsNext).mpr (along next stepEq)
        refine ⟨⟨holds, fun other stepEq' => ?_⟩, keptHere, fun other stepEq' => ?_⟩
        · rw [onlyNext other stepEq']
          exact fromNext.1
        · rw [onlyNext other stepEq']
          exact fromNext.2

/-- The same without a condition on what the steps keep. -/
theorem throughout_iff_along (background : State → Prop)
    {property : State → Prop} {suitable condition : Label → State → Prop}
    (preserved : ∀ label state next, suitable label state → background state →
      step label state = some next → background next)
    (exact : ∀ label state next, suitable label state → background state →
      property state → step label state = some next →
      (property next ↔ condition label state))
    {labels : List Label} {state final : State}
    (reaches : run step labels state = some final)
    (suits : Along step suitable labels state)
    (initially : background state) (holds : property state) :
    Throughout step property labels state ↔
      Along step condition labels state := by
  have always : Along step (fun _ _ => True) labels state :=
    along_of_forall (fun _ _ _ => trivial) state
  rw [← throughout_and_along_iff_along background preserved _ reaches suits
    initially holds]
  · exact (and_iff_left always).symm
  · intro label state next suits background holds stepEq
    rw [and_iff_left trivial]
    exact exact label state next suits background holds stepEq

end TransitionRuns
