import DistributedFilesystem.TransitionRuns
import Mathlib.Data.Set.Insert
import Mathlib.Logic.Function.Basic
import Mathlib.Logic.Relation
import Mathlib.Tactic.Common

/-!
# Threads that share state under non-recursive locks

A thread is a list of instructions that remain to be executed together with
its local variables.  An instruction requests a lock, releases one, or performs
an action on the shared and local state; an action may also replace the
remaining instructions, which is how branches and loops are written.  A thread
that requests a lock which is held, by itself or by another thread, does not
move.

A *discipline* says which remaining programs suit a thread that holds a given
set of locks.  Two consequences are proved here for every discipline: the lock
table agrees with the discipline along every run, and a discipline that
requests locks in increasing rank admits neither a self-request nor a cycle of
waiting threads.
-/

namespace LockedThreads

/-- One instruction of a thread. -/
inductive Instr (L A : Type*) where
  | lock (l : L)
  | unlock (l : L)
  | act (a : A)
deriving DecidableEq

/-- A thread: its local variables and the instructions left to execute. -/
structure Thread (L A T : Type*) where
  locals : T
  code : List (Instr L A)

/-- The shared state, all threads, and the owner of each lock. -/
structure State (ι L A S T : Type*) where
  shared : S
  threads : ι → Thread L A T
  owner : L → Option ι

variable {ι L A C S T : Type*}

/-- How an action runs: it sees a scheduling choice, the shared state, the
local variables and the instructions after it. -/
abbrev Exec (L A C S T : Type*) :=
  A → C → S → T → List (Instr L A) → Option (S × T × List (Instr L A))

namespace State

/-- The locks that a thread holds. -/
def held (σ : State ι L A S T) (i : ι) : Set L :=
  { l | σ.owner l = some i }

/-- The lock that a thread requests next, if its next instruction is a
request. -/
def requests (σ : State ι L A S T) (i : ι) : Option L :=
  match (σ.threads i).code with
  | .lock l :: _ => some l
  | _ => none

/-- Thread `i` waits for a lock that thread `j` holds. -/
def WaitsFor (σ : State ι L A S T) (i j : ι) : Prop :=
  ∃ l, σ.requests i = some l ∧ σ.owner l = some j

theorem code_of_requests {σ : State ι L A S T} {i : ι} {l : L}
    (requested : σ.requests i = some l) :
    ∃ rest, (σ.threads i).code = .lock l :: rest := by
  unfold State.requests at requested
  split at requested
  · next m rest code =>
      obtain rfl : m = l := by simpa using requested
      exact ⟨rest, code⟩
  · simp at requested

/-- Two threads never hold the same lock. -/
theorem eq_of_mem_held {σ : State ι L A S T} {i j : ι} {l : L}
    (first : l ∈ σ.held i) (second : l ∈ σ.held j) : i = j :=
  Option.some.inj (first.symm.trans second)

end State

/-- Which programs suit a thread that holds a set of locks.  `good` restricts
the states in which an action may run. -/
structure Discipline (exec : Exec L A C S T) (good : A → S → T → Prop) where
  Suits : Set L → T → List (Instr L A) → Prop
  nil : ∀ {held t}, Suits held t [] → held = ∅
  lock : ∀ {held t l rest}, Suits held t (.lock l :: rest) → l ∉ held →
    Suits (insert l held) t rest
  unlock : ∀ {held t l rest}, Suits held t (.unlock l :: rest) →
    l ∈ held ∧ Suits (held \ {l}) t rest
  act : ∀ {held t a rest c s s' t' after}, Suits held t (.act a :: rest) →
    good a s t → exec a c s t rest = some (s', t', after) →
    Suits held t' after

/-- The step of a thread whose next action, if it is one, runs in a state that
`good` admits. -/
def GoodStep (good : A → S → T → Prop) (i : ι) (σ : State ι L A S T) : Prop :=
  ∀ a rest, (σ.threads i).code = .act a :: rest →
    good a σ.shared (σ.threads i).locals

namespace Discipline

variable {exec : Exec L A C S T} {good : A → S → T → Prop}
variable (D : Discipline exec good)

/-- Every thread's remaining program suits the locks it holds. -/
def Holds (σ : State ι L A S T) : Prop :=
  ∀ i, D.Suits (σ.held i) (σ.threads i).locals (σ.threads i).code

/-- The discipline requests locks in increasing rank. -/
def Ranked (rank : L → Nat) : Prop :=
  ∀ {held t l rest}, D.Suits held t (.lock l :: rest) →
    ∀ m ∈ held, rank m < rank l

variable {D} {rank : L → Nat}

/-- A requested lock ranks above every lock its requester holds. -/
theorem rank_lt_of_requests (ranked : D.Ranked rank) {σ : State ι L A S T}
    (holds : D.Holds σ) {i : ι} {l m : L}
    (requested : σ.requests i = some l) (owned : σ.owner m = some i) :
    rank m < rank l := by
  obtain ⟨rest, code⟩ := State.code_of_requests requested
  have suits := holds i
  rw [code] at suits
  exact ranked suits m owned

/-- No thread requests a lock that it holds. -/
theorem not_requests_own (ranked : D.Ranked rank) {σ : State ι L A S T}
    (holds : D.Holds σ) {i : ι} {l : L}
    (requested : σ.requests i = some l) : σ.owner l ≠ some i :=
  fun owned => lt_irrefl _ (rank_lt_of_requests ranked holds requested owned)

/-- Along a chain of waiting threads the requested locks rank higher and
higher. -/
theorem rank_lt_of_transGen (ranked : D.Ranked rank) {σ : State ι L A S T}
    (holds : D.Holds σ) {i j : ι} {l m : L}
    (chain : Relation.TransGen σ.WaitsFor i j)
    (first : σ.requests i = some l) (last : σ.requests j = some m) :
    rank l < rank m := by
  induction chain generalizing m with
  | single edge =>
      obtain ⟨n, requested, owned⟩ := edge
      obtain rfl : l = n := by simpa [first] using requested
      exact rank_lt_of_requests ranked holds last owned
  | tail _ edge ih =>
      obtain ⟨n, requested, owned⟩ := edge
      exact lt_trans (ih requested)
        (rank_lt_of_requests ranked holds last owned)

/-- No cycle of threads in which each waits for a lock held by the next. -/
theorem not_transGen_self (ranked : D.Ranked rank) {σ : State ι L A S T}
    (holds : D.Holds σ) (i : ι) : ¬ Relation.TransGen σ.WaitsFor i i := by
  intro cycle
  obtain ⟨j, edge, -⟩ := Relation.TransGen.head'_iff.mp cycle
  obtain ⟨l, requested, -⟩ := edge
  exact lt_irrefl _
    (rank_lt_of_transGen ranked holds cycle requested requested)

/-- Following the owners of requested locks leads to a thread that does not
wait for anybody. -/
theorem exists_not_waiting (ranked : D.Ranked rank) {bound : Nat}
    (bounded : ∀ l, rank l ≤ bound) {σ : State ι L A S T}
    (holds : D.Holds σ) (i : ι) :
    ∃ j, Relation.ReflTransGen σ.WaitsFor i j ∧ ∀ k, ¬ σ.WaitsFor j k := by
  suffices main : ∀ (slack : Nat) (i : ι),
      (∀ l, σ.requests i = some l → bound ≤ rank l + slack) →
      ∃ j, Relation.ReflTransGen σ.WaitsFor i j ∧ ∀ k, ¬ σ.WaitsFor j k from
    main bound i (fun l _ => by omega)
  intro slack
  induction slack with
  | zero =>
      intro i high
      by_cases waits : ∃ k, σ.WaitsFor i k
      · obtain ⟨k, l, requested, owned⟩ := waits
        refine ⟨k, .single ⟨l, requested, owned⟩, ?_⟩
        rintro j ⟨m, next, -⟩
        have above := rank_lt_of_requests ranked holds next owned
        have atBound := high l requested
        have := bounded m
        omega
      · exact ⟨i, .refl, not_exists.mp waits⟩
  | succ slack ih =>
      intro i high
      by_cases waits : ∃ k, σ.WaitsFor i k
      · obtain ⟨k, l, requested, owned⟩ := waits
        obtain ⟨j, chain, idle⟩ := ih k (fun m next => by
          have above := rank_lt_of_requests ranked holds next owned
          have := high l requested
          omega)
        exact ⟨j, .head ⟨l, requested, owned⟩ chain, idle⟩
      · exact ⟨i, .refl, not_exists.mp waits⟩

end Discipline

section Steps

variable [DecidableEq ι]

namespace State

/-- Replace one thread. -/
def setThread (σ : State ι L A S T) (i : ι) (thread : Thread L A T) :
    State ι L A S T :=
  { σ with threads := Function.update σ.threads i thread }

@[simp]
theorem setThread_shared (σ : State ι L A S T) (i : ι) (thread : Thread L A T) :
    (σ.setThread i thread).shared = σ.shared :=
  rfl

@[simp]
theorem setThread_owner (σ : State ι L A S T) (i : ι) (thread : Thread L A T) :
    (σ.setThread i thread).owner = σ.owner :=
  rfl

@[simp]
theorem setThread_threads_self (σ : State ι L A S T) (i : ι)
    (thread : Thread L A T) :
    (σ.setThread i thread).threads i = thread := by
  simp [setThread]

theorem setThread_threads_ne (σ : State ι L A S T) {i j : ι}
    (thread : Thread L A T) (different : j ≠ i) :
    (σ.setThread i thread).threads j = σ.threads j := by
  simp [setThread, different]

end State

variable [DecidableEq L]

/-- One step of the chosen thread. -/
def step (exec : Exec L A C S T) (label : ι × C) (σ : State ι L A S T) :
    Option (State ι L A S T) :=
  let thread := σ.threads label.1
  match thread.code with
  | [] => none
  | .lock l :: rest =>
      if σ.owner l = none then
        some { σ.setThread label.1 { thread with code := rest } with
          owner := Function.update σ.owner l (some label.1) }
      else none
  | .unlock l :: rest =>
      some { σ.setThread label.1 { thread with code := rest } with
        owner := Function.update σ.owner l none }
  | .act a :: rest =>
      (exec a label.2 σ.shared thread.locals rest).map fun result =>
        { σ.setThread label.1 ⟨result.2.1, result.2.2⟩ with
          shared := result.1 }

/-- Everything that one step can do. -/
inductive Moved (exec : Exec L A C S T) (i : ι) (c : C)
    (σ σ' : State ι L A S T) : Prop where
  | lock (l : L) (rest : List (Instr L A))
      (code : (σ.threads i).code = .lock l :: rest)
      (free : σ.owner l = none)
      (result : σ' = { σ.setThread i { σ.threads i with code := rest } with
        owner := Function.update σ.owner l (some i) })
  | unlock (l : L) (rest : List (Instr L A))
      (code : (σ.threads i).code = .unlock l :: rest)
      (result : σ' = { σ.setThread i { σ.threads i with code := rest } with
        owner := Function.update σ.owner l none })
  | act (a : A) (rest : List (Instr L A)) (shared : S) (locals : T)
      (after : List (Instr L A))
      (code : (σ.threads i).code = .act a :: rest)
      (executes : exec a c σ.shared (σ.threads i).locals rest =
        some (shared, locals, after))
      (result : σ' = { σ.setThread i ⟨locals, after⟩ with shared := shared })

theorem moved_of_step {exec : Exec L A C S T} {label : ι × C}
    {σ σ' : State ι L A S T} (steps : step exec label σ = some σ') :
    Moved exec label.1 label.2 σ σ' := by
  unfold step at steps
  cases code : (σ.threads label.1).code with
  | nil => simp [code] at steps
  | cons instr rest =>
      cases instr with
      | lock l =>
          simp only [code] at steps
          split at steps
          · next free =>
              exact .lock l rest code free (by simpa using steps.symm)
          · simp at steps
      | unlock l =>
          simp only [code, Option.some.injEq] at steps
          exact .unlock l rest code steps.symm
      | act a =>
          simp only [code, Option.map_eq_some_iff] at steps
          obtain ⟨⟨shared, locals, after⟩, executes, result⟩ := steps
          exact .act a rest shared locals after code executes result.symm

theorem Moved.code_ne_nil {exec : Exec L A C S T} {i : ι} {c : C}
    {σ σ' : State ι L A S T} (moved : Moved exec i c σ σ') :
    (σ.threads i).code ≠ [] := by
  cases moved <;> simp_all

/-- A step leaves every other thread as it was. -/
theorem Moved.threads_ne {exec : Exec L A C S T} {i j : ι} {c : C}
    {σ σ' : State ι L A S T} (moved : Moved exec i c σ σ')
    (different : j ≠ i) : σ'.threads j = σ.threads j := by
  cases moved with
  | lock l rest code free result =>
      subst result
      exact State.setThread_threads_ne _ _ different
  | unlock l rest code result =>
      subst result
      exact State.setThread_threads_ne _ _ different
  | act a rest shared locals after code executes result =>
      subst result
      exact State.setThread_threads_ne _ _ different

/-- What a step does to the shared state and to its thread, when the owners of
the locks do not matter. -/
inductive Advanced (exec : Exec L A C S T) (i : ι) (c : C)
    (σ σ' : State ι L A S T) : Prop where
  | quiet (instr : Instr L A) (rest : List (Instr L A))
      (notAct : ∀ a, instr ≠ .act a)
      (code : (σ.threads i).code = instr :: rest)
      (shared : σ'.shared = σ.shared)
      (thread : σ'.threads i = ⟨(σ.threads i).locals, rest⟩)
  | act (a : A) (rest after : List (Instr L A)) (locals : T)
      (code : (σ.threads i).code = .act a :: rest)
      (executes : exec a c σ.shared (σ.threads i).locals rest =
        some (σ'.shared, locals, after))
      (thread : σ'.threads i = ⟨locals, after⟩)

theorem Moved.advanced {exec : Exec L A C S T} {i : ι} {c : C}
    {σ σ' : State ι L A S T} (moved : Moved exec i c σ σ') :
    Advanced exec i c σ σ' := by
  cases moved with
  | lock l rest code free result =>
      exact .quiet _ rest (by simp) code (by simp [result]) (by simp [result])
  | unlock l rest code result =>
      exact .quiet _ rest (by simp) code (by simp [result]) (by simp [result])
  | act a rest shared locals after code executes result =>
      exact .act a rest after locals code (by simpa [result] using executes)
        (by simp [result])

/-- A property of each thread by itself holds after a step when it survives
the removal of the first instruction and every action of its thread. -/
theorem forall_thread_of_step {exec : Exec L A C S T}
    (property : ι → T → List (Instr L A) → Prop)
    (tail : ∀ {i t instr rest}, property i t (instr :: rest) →
      property i t rest)
    (act : ∀ {i t a rest c s s' t' after}, property i t (.act a :: rest) →
      exec a c s t rest = some (s', t', after) → property i t' after)
    {label : ι × C} {σ σ' : State ι L A S T}
    (holds : ∀ i, property i (σ.threads i).locals (σ.threads i).code)
    (steps : step exec label σ = some σ') (i : ι) :
    property i (σ'.threads i).locals (σ'.threads i).code := by
  obtain ⟨j, c⟩ := label
  have ofI := holds i
  by_cases self : i = j
  · subst self
    cases (moved_of_step steps).advanced with
    | quiet instr rest notAct code shared thread =>
        rw [code] at ofI
        rw [thread]
        exact tail ofI
    | act a rest after locals code executes thread =>
        rw [code] at ofI
        rw [thread]
        exact act ofI executes
  · rw [(moved_of_step steps).threads_ne self]
    exact ofI

namespace Discipline

variable {exec : Exec L A C S T} {good : A → S → T → Prop}
variable (D : Discipline exec good)

private theorem held_after_lock {σ : State ι L A S T} {thread : Thread L A T}
    {i j : ι} {l : L} (free : σ.owner l = none) :
    State.held { σ.setThread i thread with
        owner := Function.update σ.owner l (some i) } j =
      if j = i then insert l (σ.held j) else σ.held j := by
  ext m
  by_cases same : m = l
  · subst same
    by_cases self : j = i
    · simp [State.held, self]
    · simp [State.held, self, free, Ne.symm self]
  · by_cases self : j = i <;> simp [State.held, same, self]

private theorem held_after_unlock {σ : State ι L A S T}
    {thread : Thread L A T} {i j : ι} {l : L} (owned : σ.owner l = some i) :
    State.held { σ.setThread i thread with
        owner := Function.update σ.owner l none } j =
      if j = i then σ.held j \ {l} else σ.held j := by
  ext m
  by_cases same : m = l
  · subst same
    by_cases self : j = i
    · simp [State.held, self]
    · simp [State.held, self, owned, Ne.symm self]
  · by_cases self : j = i <;> simp [State.held, same, self]

/-- A step in a state that `good` admits keeps every thread's program suited
to the locks it holds. -/
theorem holds_of_step {label : ι × C} {σ σ' : State ι L A S T}
    (holds : D.Holds σ) (admitted : GoodStep good label.1 σ)
    (steps : step exec label σ = some σ') : D.Holds σ' := by
  obtain ⟨i, c⟩ := label
  intro j
  have ofJ := holds j
  have ofI := holds i
  cases moved_of_step steps with
  | lock l rest code free result =>
      subst result
      rw [held_after_lock free]
      by_cases self : j = i
      · subst self
        rw [code] at ofJ
        have fresh : l ∉ σ.held j := by simp [State.held, free]
        simpa using D.lock ofJ fresh
      · simpa [self, State.setThread_threads_ne _ _ self] using ofJ
  | unlock l rest code result =>
      subst result
      rw [code] at ofI
      obtain ⟨owned, suits⟩ := D.unlock ofI
      rw [held_after_unlock owned]
      by_cases self : j = i
      · subst self
        simpa using suits
      · simpa [self, State.setThread_threads_ne _ _ self] using ofJ
  | act a rest shared locals after code executes result =>
      subst result
      by_cases self : j = i
      · subst self
        rw [code] at ofJ
        simpa [State.held] using D.act ofJ (admitted a rest code) executes
      · simpa [self, State.held, State.setThread_threads_ne _ _ self] using ofJ

end Discipline

end Steps

end LockedThreads
