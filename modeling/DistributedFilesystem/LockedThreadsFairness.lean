import DistributedFilesystem.LockedThreads
import Mathlib.Data.Nat.Find
import Mathlib.Order.WellFounded

/-!
# Fair schedules of locked threads

An infinite schedule is strongly fair when a thread that is able to step again
and again eventually steps.  Under a ranked discipline whose actions do not
block while they run, and whose every stretch between two resting points is
finite, each thread of a fair schedule reaches a resting point again and again:
nobody waits for a lock forever.
-/

namespace LockedThreads

variable {ι L A C S T : Type*} [DecidableEq ι] [DecidableEq L]

/-- An infinite schedule: at each time one thread steps, or nothing happens. -/
structure Schedule (ι : Type*) [DecidableEq ι] (exec : Exec L A C S T) where
  state : Nat → State ι L A S T
  mover : Nat → Option (ι × C)
  moves : ∀ n label, mover n = some label →
    step exec label (state n) = some (state (n + 1))
  rests : ∀ n, mover n = none → state (n + 1) = state n

/-- The thread is able to step. -/
def Enabled (exec : Exec L A C S T) (σ : State ι L A S T) (i : ι) : Prop :=
  ∃ c, (step exec (i, c) σ).isSome

theorem enabled_of_act {exec : Exec L A C S T} {σ : State ι L A S T} {i : ι}
    {a : A} {rest : List (Instr L A)}
    (code : (σ.threads i).code = .act a :: rest)
    (executes : ∃ c result,
      exec a c σ.shared (σ.threads i).locals rest = some result) :
    Enabled exec σ i := by
  obtain ⟨c, result, executes⟩ := executes
  exact ⟨c, by simp [step, code, executes]⟩

theorem enabled_of_unlock {exec : Exec L A C S T} {σ : State ι L A S T} {i : ι}
    {l : L} {rest : List (Instr L A)} (choice : C)
    (code : (σ.threads i).code = .unlock l :: rest) : Enabled exec σ i :=
  ⟨choice, by simp [step, code]⟩

theorem enabled_of_lock {exec : Exec L A C S T} {σ : State ι L A S T} {i : ι}
    {l : L} {rest : List (Instr L A)} (choice : C)
    (code : (σ.threads i).code = .lock l :: rest)
    (free : σ.owner l = none) : Enabled exec σ i :=
  ⟨choice, by simp [step, code, free]⟩

namespace Schedule

variable {exec : Exec L A C S T} (ρ : Schedule ι exec)

/-- Thread `i` steps at time `n`. -/
def MovesAt (i : ι) (n : Nat) : Prop :=
  ∃ c, ρ.mover n = some (i, c)

/-- Strong fairness: a thread that is able to step again and again eventually
steps. -/
def Fair : Prop :=
  ∀ i n, (∀ m, n ≤ m → ∃ k, m ≤ k ∧ Enabled exec (ρ.state k) i) →
    ∃ m, n ≤ m ∧ ρ.MovesAt i m

variable {ρ}

/-- What every step of the schedule preserves holds at all times. -/
theorem invariant_of_step (invariant : State ι L A S T → Prop)
    (initially : invariant (ρ.state 0))
    (preserved : ∀ n label σ', ρ.mover n = some label →
      invariant (ρ.state n) → step exec label (ρ.state n) = some σ' →
      invariant σ') (n : Nat) : invariant (ρ.state n) := by
  induction n with
  | zero => exact initially
  | succ n ih =>
      cases mover : ρ.mover n with
      | none => rw [ρ.rests n mover]; exact ih
      | some label => exact preserved n label _ mover ih (ρ.moves n label mover)

theorem thread_succ_of_not_movesAt {i : ι} {n : Nat}
    (still : ¬ ρ.MovesAt i n) :
    (ρ.state (n + 1)).threads i = (ρ.state n).threads i := by
  cases mover : ρ.mover n with
  | none => rw [ρ.rests n mover]
  | some label =>
      apply (moved_of_step (ρ.moves n label mover)).threads_ne
      rintro rfl
      exact still ⟨label.2, mover⟩

theorem thread_eq_of_still {i : ι} {n m : Nat} (ordered : n ≤ m)
    (still : ∀ k, n ≤ k → k < m → ¬ ρ.MovesAt i k) :
    (ρ.state m).threads i = (ρ.state n).threads i := by
  induction m, ordered using Nat.le_induction with
  | base => rfl
  | succ m ordered ih =>
      rw [thread_succ_of_not_movesAt (still m ordered (Nat.lt_succ_self m))]
      exact ih fun k low high => still k low (Nat.lt_succ_of_lt high)

/-- A lock that is never free keeps its owner. -/
theorem owner_eq_of_never_free {l : L} {i : ι} {n m : Nat} (ordered : n ≤ m)
    (taken : ∀ k, n ≤ k → (ρ.state k).owner l ≠ none)
    (owned : (ρ.state n).owner l = some i) : (ρ.state m).owner l = some i := by
  induction m, ordered using Nat.le_induction with
  | base => exact owned
  | succ m ordered ih =>
      have stays := taken (m + 1) (Nat.le_succ_of_le ordered)
      cases mover : ρ.mover m with
      | none => rw [ρ.rests m mover]; exact ih
      | some label =>
          cases moved_of_step (ρ.moves m label mover) with
          | lock l' rest code free result =>
              have other : l ≠ l' := by
                rintro rfl
                simp [free] at ih
              simpa [result, other] using ih
          | unlock l' rest code result =>
              have other : l ≠ l' := by
                rintro rfl
                simp [result] at stays
              simpa [result, other] using ih
          | act a rest shared locals after code executes result =>
              simpa [result] using ih

end Schedule

/-- What a ranked discipline must add so that no thread waits forever: a thread
that holds a lock is not at a resting point, an action runs in every shared
state unless the thread rests before it, and every step away from a resting
point decreases a well-founded measure of the thread. -/
structure Progressive {exec : Exec L A C S T} {good : A → S → T → Prop}
    (D : Discipline exec good) {M : Type*} (less : M → M → Prop) where
  rank : L → Nat
  bound : Nat
  bounded : ∀ l, rank l ≤ bound
  ranked : D.Ranked rank
  Resting : T → List (Instr L A) → Prop
  measure : T → List (Instr L A) → M
  wellFounded : WellFounded less
  resting_nil : ∀ t, Resting t []
  not_resting : ∀ {held t code}, D.Suits held t code → held.Nonempty →
    ¬ Resting t code
  executes : ∀ {held t a rest}, D.Suits held t (.act a :: rest) →
    ¬ Resting t (.act a :: rest) → ∀ s, ∃ c result,
      exec a c s t rest = some result
  less_lock : ∀ {t l rest}, less (measure t rest) (measure t (.lock l :: rest))
  less_unlock : ∀ {t l rest},
    less (measure t rest) (measure t (.unlock l :: rest))
  less_act : ∀ {held t a rest c s s' t' after},
    D.Suits held t (.act a :: rest) → ¬ Resting t (.act a :: rest) →
    good a s t → exec a c s t rest = some (s', t', after) →
    less (measure t' after) (measure t (.act a :: rest))

namespace Progressive

variable {exec : Exec L A C S T} {good : A → S → T → Prop}
variable {D : Discipline exec good} {M : Type*} {less : M → M → Prop}
variable (P : Progressive D less) {ρ : Schedule ι exec}

/-- The thread is at a resting point. -/
def RestsAt (σ : State ι L A S T) (i : ι) : Prop :=
  P.Resting (σ.threads i).locals (σ.threads i).code

private def value (σ : State ι L A S T) (i : ι) : M :=
  P.measure (σ.threads i).locals (σ.threads i).code

private theorem value_decreases {σ σ' : State ι L A S T} {i : ι} {c : C}
    (holds : D.Holds σ) (admitted : GoodStep good i σ)
    (steps : step exec (i, c) σ = some σ') (awake : ¬ P.RestsAt σ i) :
    less (P.value σ' i) (P.value σ i) := by
  have suits := holds i
  unfold RestsAt at awake
  unfold value
  cases moved_of_step steps with
  | lock l rest code free result =>
      simp only [result, State.setThread_threads_self, code]
      exact P.less_lock
  | unlock l rest code result =>
      simp only [result, State.setThread_threads_self, code]
      exact P.less_unlock
  | act a rest shared locals after code executes result =>
      simp only [result, State.setThread_threads_self]
      rw [code] at suits awake ⊢
      exact P.less_act suits awake (admitted a rest code) executes

/-- A thread that is awake from some time on does not step again and again. -/
private theorem not_moves_forever (holds : ∀ n, D.Holds (ρ.state n))
    (admitted : ∀ n label, ρ.mover n = some label →
      GoodStep good label.1 (ρ.state n)) {i : ι} {start : Nat}
    (awake : ∀ n, start ≤ n → ¬ P.RestsAt (ρ.state n) i)
    (again : ∀ n, start ≤ n → ∃ m, n ≤ m ∧ ρ.MovesAt i m) : False := by
  suffices descent : ∀ value n, start ≤ n →
      P.value (ρ.state n) i = value → False from
    descent _ start (Nat.le_refl start) rfl
  intro value
  induction value using P.wellFounded.induction with
  | _ value ih =>
      intro n later valueEq
      classical
      have someMove := again n later
      let m := Nat.find someMove
      obtain ⟨ordered, c, mover⟩ : n ≤ m ∧ ρ.MovesAt i m :=
        Nat.find_spec someMove
      have unchanged : (ρ.state m).threads i = (ρ.state n).threads i :=
        Schedule.thread_eq_of_still ordered fun k low high moves =>
          Nat.find_min someMove high ⟨low, moves⟩
      have decreases := P.value_decreases (holds m) (admitted m _ mover)
        (ρ.moves m _ mover) (awake m (Nat.le_trans later ordered))
      have sameValue : P.value (ρ.state m) i = value := by
        rw [← valueEq]
        unfold Progressive.value
        rw [unchanged]
      rw [sameValue] at decreases
      exact ih _ decreases (m + 1) (by omega) rfl

/-- An awake thread that never steps again requests a lock that is never free
again. -/
private theorem lock_never_free (fair : ρ.Fair) (choice : C)
    (holds : ∀ n, D.Holds (ρ.state n)) {i : ι} {n : Nat}
    (awake : ¬ P.RestsAt (ρ.state n) i)
    (never : ∀ m, n ≤ m → ¬ ρ.MovesAt i m) :
    ∃ l m, n ≤ m ∧ (ρ.state n).requests i = some l ∧
      ∀ k, m ≤ k → (ρ.state k).owner l ≠ none := by
  have unchanged : ∀ m, n ≤ m →
      (ρ.state m).threads i = (ρ.state n).threads i := fun m later =>
    Schedule.thread_eq_of_still later fun k low _ => never k low
  obtain ⟨m, later, disabled⟩ : ∃ m, n ≤ m ∧
      ∀ k, m ≤ k → ¬ Enabled exec (ρ.state k) i := by
    by_contra enabledAgain
    push Not at enabledAgain
    obtain ⟨m, later, moves⟩ := fair i n enabledAgain
    exact never m later moves
  have suits := holds m i
  rw [unchanged m later] at suits
  cases code : ((ρ.state n).threads i).code with
  | nil =>
      exact (awake (by unfold RestsAt; rw [code]; exact P.resting_nil _)).elim
  | cons instr rest =>
      have codeAt : ∀ k, m ≤ k →
          ((ρ.state k).threads i).code = instr :: rest := fun k low => by
        rw [unchanged k (Nat.le_trans later low), code]
      cases instr with
      | lock l =>
          refine ⟨l, m, later, by simp [State.requests, code], ?_⟩
          intro k low free
          exact disabled k low (enabled_of_lock choice (codeAt k low) free)
      | unlock l =>
          exact (disabled m (Nat.le_refl m)
            (enabled_of_unlock choice (codeAt m (Nat.le_refl m)))).elim
      | act a =>
          unfold RestsAt at awake
          rw [code] at suits awake
          have runs := P.executes suits awake (ρ.state m).shared
          rw [← unchanged m later] at runs
          exact (disabled m (Nat.le_refl m)
            (enabled_of_act (codeAt m (Nat.le_refl m)) runs)).elim

/-- In a fair schedule an awake thread eventually steps, by induction on how
many ranks lie above the lock it requests. -/
private theorem moves_of_awake (fair : ρ.Fair) (choice : C)
    (holds : ∀ n, D.Holds (ρ.state n))
    (admitted : ∀ n label, ρ.mover n = some label →
      GoodStep good label.1 (ρ.state n)) (slack : Nat) :
    ∀ (i : ι) (n : Nat), ¬ P.RestsAt (ρ.state n) i →
      (∀ l, (ρ.state n).requests i = some l → P.bound < P.rank l + slack) →
      ∃ m, n ≤ m ∧ ρ.MovesAt i m := by
  induction slack with
  | zero =>
      intro i n awake high
      by_contra stuck
      push Not at stuck
      obtain ⟨l, -, -, requested, -⟩ :=
        P.lock_never_free fair choice holds awake stuck
      have := high l requested
      have := P.bounded l
      omega
  | succ slack ih =>
      intro i n awake high
      by_contra stuck
      push Not at stuck
      obtain ⟨l, m, -, requested, taken⟩ :=
        P.lock_never_free fair choice holds awake stuck
      obtain ⟨j, owned⟩ :=
        Option.ne_none_iff_exists'.mp (taken m (Nat.le_refl m))
      -- The owner keeps the lock, so it stays awake; what it requests ranks
      -- higher, so it steps again and again.
      have keeps : ∀ k, m ≤ k → (ρ.state k).owner l = some j := fun k later =>
        Schedule.owner_eq_of_never_free later taken owned
      have awakeOwner : ∀ k, m ≤ k → ¬ P.RestsAt (ρ.state k) j :=
        fun k later => P.not_resting (holds k j) ⟨l, keeps k later⟩
      apply P.not_moves_forever holds admitted awakeOwner
      intro k later
      apply ih j k (awakeOwner k later)
      intro l' next
      have above := Discipline.rank_lt_of_requests P.ranked (holds k) next
        (keeps k later)
      have := high l requested
      omega

/-- In a fair schedule each thread comes to a resting point again and again. -/
theorem rests_again (fair : ρ.Fair) (choice : C) (holds : D.Holds (ρ.state 0))
    (admitted : ∀ n label, ρ.mover n = some label →
      GoodStep good label.1 (ρ.state n)) (i : ι) (n : Nat) :
    ∃ m, n ≤ m ∧ P.RestsAt (ρ.state m) i := by
  have always : ∀ n, D.Holds (ρ.state n) :=
    Schedule.invariant_of_step D.Holds holds fun n label _ mover suited steps =>
      D.holds_of_step suited (admitted n label mover) steps
  by_contra awake
  push Not at awake
  apply P.not_moves_forever always admitted awake
  intro m later
  apply P.moves_of_awake fair choice always admitted (P.bound + 1) i m
    (awake m later)
  intro l _
  omega

end Progressive

end LockedThreads
