import DistributedFilesystem.LockedThreads

/-!
# Threads that run alone

What one thread does while no other one steps, as a relation between the state
before and the state in which its code is executed: the rest of the system does
not matter but for the locks that the thread holds.  A thread that requests a
lock which it holds never gets to the end.
-/

namespace LockedThreads

variable {ι L A C S T : Type*}

/-- The thread executes its code to the end, from one shared and local state to
another. -/
inductive Alone (exec : Exec L A C S T) :
    Set L → S → T → List (Instr L A) → S → T → Prop
  | done {held s t} : Alone exec held s t [] s t
  | lock {held s t l rest s' t'} (fresh : l ∉ held)
      (later : Alone exec (insert l held) s t rest s' t') :
      Alone exec held s t (.lock l :: rest) s' t'
  | unlock {held s t l rest s' t'}
      (later : Alone exec (held \ {l}) s t rest s' t') :
      Alone exec held s t (.unlock l :: rest) s' t'
  | act {held s t a c rest s₁ t₁ after s' t'}
      (executes : exec a c s t rest = some (s₁, t₁, after))
      (later : Alone exec held s₁ t₁ after s' t') :
      Alone exec held s t (.act a :: rest) s' t'

namespace Alone

variable {exec : Exec L A C S T} {held : Set L} {s s' : S} {t t' : T}
variable {l : L} {a : A} {rest : List (Instr L A)}

theorem nil_iff : Alone exec held s t [] s' t' ↔ s' = s ∧ t' = t := by
  constructor
  · rintro ⟨⟩
    exact ⟨rfl, rfl⟩
  · rintro ⟨rfl, rfl⟩
    exact .done

theorem lock_iff : Alone exec held s t (.lock l :: rest) s' t' ↔
    l ∉ held ∧ Alone exec (insert l held) s t rest s' t' := by
  constructor
  · rintro ⟨⟩
    next fresh later => exact ⟨fresh, later⟩
  · rintro ⟨fresh, later⟩
    exact .lock fresh later

theorem unlock_iff : Alone exec held s t (.unlock l :: rest) s' t' ↔
    Alone exec (held \ {l}) s t rest s' t' := by
  constructor
  · rintro ⟨⟩
    next later => exact later
  · exact .unlock

theorem act_iff : Alone exec held s t (.act a :: rest) s' t' ↔
    ∃ c s₁ t₁ after, exec a c s t rest = some (s₁, t₁, after) ∧
      Alone exec held s₁ t₁ after s' t' := by
  constructor
  · rintro ⟨⟩
    next executes later => exact ⟨_, _, _, _, executes, later⟩
  · rintro ⟨c, s₁, t₁, after, executes, later⟩
    exact .act executes later

/-- An action under a lock of its own. -/
theorem guarded_iff : Alone exec held s t
    (.lock l :: .act a :: .unlock l :: rest) s' t' ↔
    l ∉ held ∧ ∃ c s₁ t₁ after,
      exec a c s t (.unlock l :: rest) = some (s₁, t₁, after) ∧
        Alone exec (insert l held) s₁ t₁ after s' t' := by
  rw [lock_iff, act_iff]

/-- What is left after the lock of its own is released. -/
theorem released_iff (fresh : l ∉ held) :
    Alone exec (insert l held) s t (.unlock l :: rest) s' t' ↔
      Alone exec held s t rest s' t' := by
  have same : insert l held \ {l} = held := by
    ext m
    by_cases isLock : m = l
    · simp [isLock, fresh]
    · simp [isLock]
  rw [unlock_iff, same]

/-- An action that always goes on with what is after it. -/
theorem of_act {s₁ : S} {t₁ : T}
    (runs : ∀ c, exec a c s t rest = some (s₁, t₁, rest))
    (alone : Alone exec held s t (.act a :: rest) s' t') :
    Alone exec held s₁ t₁ rest s' t' := by
  obtain ⟨c, s₂, t₂, after, executes, later⟩ := act_iff.mp alone
  rw [runs c] at executes
  cases executes
  exact later

/-- The same under a lock. -/
theorem of_guarded {s₁ : S} {t₁ : T}
    (runs : ∀ c, exec a c s t (.unlock l :: rest) =
      some (s₁, t₁, .unlock l :: rest))
    (alone : Alone exec held s t (.lock l :: .act a :: .unlock l :: rest) s' t') :
    Alone exec held s₁ t₁ rest s' t' := by
  obtain ⟨fresh, later⟩ := lock_iff.mp alone
  exact (released_iff fresh).mp (of_act runs later)

end Alone

variable {exec : Exec L A C S T} [DecidableEq ι] [DecidableEq L]
variable {σ τ : State ι L A S T} {i : ι}

theorem held_lock {l : L} {thread : Thread L A T} :
    State.held { σ.setThread i thread with
      owner := Function.update σ.owner l (some i) } i =
      insert l (σ.held i) := by
  ext m
  by_cases same : m = l
  · subst same
    simp [State.held]
  · simp [State.held, same]

theorem held_unlock {l : L} {thread : Thread L A T} :
    State.held { σ.setThread i thread with
      owner := Function.update σ.owner l none } i = σ.held i \ {l} := by
  ext m
  by_cases same : m = l
  · subst same
    simp [State.held]
  · simp [State.held, same]

/-- A run of steps of one thread, to the end of its code. -/
theorem alone_of_run {choices : List C}
    (reaches : TransitionRuns.run (step exec)
      (choices.map fun choice => (i, choice)) σ = some τ)
    (ended : (τ.threads i).code = []) :
    Alone exec (σ.held i) σ.shared (σ.threads i).locals (σ.threads i).code
      τ.shared (τ.threads i).locals := by
  induction choices generalizing σ with
  | nil =>
      obtain rfl : σ = τ := by simpa using reaches
      rw [ended]
      exact .done
  | cons choice choices ih =>
      obtain ⟨middle, steps, later⟩ :=
        TransitionRuns.run_cons_eq_some.mp (by simpa using reaches)
      have goesOn := ih (by simpa using later)
      cases moved_of_step steps with
      | lock l rest code free result =>
          subst result
          rw [held_lock] at goesOn
          rw [code]
          refine .lock ?_ (by simpa using goesOn)
          simp [State.held, free]
      | unlock l rest code result =>
          subst result
          rw [held_unlock] at goesOn
          rw [code]
          exact .unlock (by simpa using goesOn)
      | act a rest shared locals after code executes result =>
          subst result
          rw [code]
          exact .act executes (by simpa [State.held] using goesOn)

end LockedThreads
