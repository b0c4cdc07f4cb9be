import DistributedFilesystem.LockedThreadsFairness

/-!
# What fair schedules lead to

One property of the times of a schedule leads to another if the other holds then
or later.  A measure that keeps decreasing and fairness are two ways to show
this.  Every finite run extends to a schedule that stops after it, and the
schedule is fair if nobody is able to step any more.
-/

namespace LockedThreads

section LeadsTo

/-- Whenever the first property holds, the second one holds then or later. -/
def LeadsTo (first second : Nat → Prop) : Prop :=
  ∀ n, first n → ∃ m, n ≤ m ∧ second m

variable {first second : Nat → Prop} {M : Type*} {less : M → M → Prop}

/-- A measure cannot decrease again and again until the second property
holds. -/
theorem leadsTo_of_decreasing (wellFounded : WellFounded less)
    (measure : Nat → M)
    (decreases : ∀ n, first n → ∃ m, n ≤ m ∧
      (second m ∨ first m ∧ less (measure m) (measure n))) :
    LeadsTo first second := by
  suffices descent : ∀ value n, measure n = value → first n →
      ∃ m, n ≤ m ∧ second m from
    fun n holds => descent _ n rfl holds
  intro value
  induction value using wellFounded.induction with
  | _ value ih =>
      rintro n rfl holds
      obtain ⟨m, later, done | ⟨again, smaller⟩⟩ := decreases n holds
      · exact ⟨m, later, done⟩
      · obtain ⟨last, latest, done⟩ := ih _ smaller m rfl again
        exact ⟨last, Nat.le_trans later latest, done⟩

end LeadsTo

variable {ι L A C S T : Type*} [DecidableEq ι] [DecidableEq L]
variable {exec : Exec L A C S T}

namespace Schedule

variable {ρ : Schedule ι exec} {i : ι} {n : Nat}

/-- The first step of a thread after some time. -/
theorem exists_first_move (moves : ∃ m, n ≤ m ∧ ρ.MovesAt i m) :
    ∃ m, n ≤ m ∧ ρ.MovesAt i m ∧
      ∀ k, n ≤ k → k < m → ¬ ρ.MovesAt i k := by
  classical
  obtain ⟨later, first⟩ := Nat.find_spec moves
  exact ⟨Nat.find moves, later, first, fun k low high moved =>
    Nat.find_min moves high ⟨low, moved⟩⟩

/-- In a fair schedule a thread steps if it stays able to until it does. -/
theorem moves_of_enabled (fair : ρ.Fair)
    (enabled : ∀ m, n ≤ m → (∀ k, n ≤ k → k < m → ¬ ρ.MovesAt i k) →
      Enabled exec (ρ.state m) i) :
    ∃ m, n ≤ m ∧ ρ.MovesAt i m ∧
      ∀ k, n ≤ k → k < m → ¬ ρ.MovesAt i k := by
  apply exists_first_move
  by_contra still
  push Not at still
  obtain ⟨m, later, moves⟩ := fair i n fun m later =>
    ⟨m, Nat.le_refl m, enabled m later fun k low _ => still k low⟩
  exact still m later moves

end Schedule

/-! ## Schedules that stop -/

section Stopping

open TransitionRuns

/-- The states of a run, and then its last state. -/
def statesOf (exec : Exec L A C S T) (σ : State ι L A S T) :
    List (ι × C) → Nat → State ι L A S T
  | [], _ => σ
  | _ :: _, 0 => σ
  | label :: labels, n + 1 =>
      statesOf exec ((step exec label σ).getD σ) labels n

theorem statesOf_zero (σ : State ι L A S T) (labels : List (ι × C)) :
    statesOf exec σ labels 0 = σ := by
  cases labels <;> rfl

variable {σ τ : State ι L A S T} {labels : List (ι × C)}

theorem step_statesOf (reaches : run (step exec) labels σ = some τ) {n : Nat}
    {label : ι × C} (next : labels[n]? = some label) :
    step exec label (statesOf exec σ labels n) =
      some (statesOf exec σ labels (n + 1)) := by
  induction labels generalizing σ n with
  | nil => simp at next
  | cons head labels ih =>
      obtain ⟨middle, steps, rest⟩ := run_cons_eq_some.mp reaches
      cases n with
      | zero =>
          obtain rfl : head = label := by simpa using next
          simp [statesOf, statesOf_zero, steps]
      | succ n =>
          have later := ih rest (by simpa using next)
          simpa [statesOf, steps] using later

theorem statesOf_of_length_le (reaches : run (step exec) labels σ = some τ)
    {n : Nat} (ended : labels.length ≤ n) : statesOf exec σ labels n = τ := by
  induction labels generalizing σ n with
  | nil =>
      obtain rfl : σ = τ := by simpa using reaches
      cases n <;> rfl
  | cons head labels ih =>
      obtain ⟨middle, steps, rest⟩ := run_cons_eq_some.mp reaches
      cases n with
      | zero => simp at ended
      | succ n =>
          have later := ih rest (by simpa using ended)
          simpa [statesOf, steps] using later

/-- The schedule that stops after a run. -/
def Schedule.stopping (reaches : run (step exec) labels σ = some τ) :
    Schedule ι exec where
  state := statesOf exec σ labels
  mover n := labels[n]?
  moves _ _ mover := step_statesOf reaches mover
  rests n none := by
    have ended : labels.length ≤ n := List.getElem?_eq_none_iff.mp none
    rw [statesOf_of_length_le reaches ended,
      statesOf_of_length_le reaches (Nat.le_succ_of_le ended)]

/-- A schedule that stops when nobody is able to step is fair. -/
theorem Schedule.fair_stopping (reaches : run (step exec) labels σ = some τ)
    (stopped : ∀ i, ¬ Enabled exec τ i) :
    (Schedule.stopping reaches).Fair := by
  intro i n again
  obtain ⟨k, later, enabled⟩ := again (max n labels.length) (Nat.le_max_left _ _)
  have ended : labels.length ≤ k := Nat.le_trans (Nat.le_max_right _ _) later
  have last : (Schedule.stopping reaches).state k = τ :=
    statesOf_of_length_le reaches ended
  rw [last] at enabled
  exact (stopped i enabled).elim

end Stopping

end LockedThreads
