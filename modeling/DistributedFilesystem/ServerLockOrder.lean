import DistributedFilesystem.LockedThreadsFairness
import DistributedFilesystem.ServerLockDiscipline
import Mathlib.Data.Prod.Lex

/-!
# Deadlock freedom of the server

The mutexes of the server are requested in increasing order as long as every
`rename` finds its old path in the file map.  Then no handler requests a mutex
that it holds, no handlers wait for each other in a cycle, and in a fair
schedule every handler gets past its map updates.  A `rename` that does not
find its old path requests `file_map_mutex` while holding it.
-/

namespace DistributedFilesystem

open LockedThreads TransitionRuns

variable {ι : Type*}

/-- No handler requests a mutex that it holds, no cycle of handlers wait for
each other, and every chain of waiting handlers ends at one that waits for
nobody. -/
structure DeadlockFree (σ : Handlers ι) : Prop where
  noSelfRequest : ∀ i l, σ.requests i = some l → σ.owner l ≠ some i
  noCycle : ∀ i, ¬ Relation.TransGen σ.WaitsFor i i
  someoneMoves : ∀ i, ∃ j, Relation.ReflTransGen σ.WaitsFor i j ∧
    ∀ k, ¬ σ.WaitsFor j k

theorem deadlockFree_of_holds {σ : Handlers ι}
    (holds : (lockDiscipline True).Holds σ) : DeadlockFree σ where
  noSelfRequest _ _ := Discipline.not_requests_own ranked_lockDiscipline holds
  noCycle := Discipline.not_transGen_self ranked_lockDiscipline holds
  someoneMoves :=
    Discipline.exists_not_waiting ranked_lockDiscipline Lock.rank_le holds

/-- If the step is the lookup of a `rename`, the old path is registered. -/
def RenameRegistered (label : ι × Choice) (σ : Handlers ι) : Prop :=
  ∀ oldPath newPath client rest,
    (σ.threads label.1).code =
      .act (.findRename oldPath newPath client) :: rest →
    σ.shared.server.fileMap oldPath ≠ none

theorem goodStep_of_renameRegistered {label : ι × Choice} {σ : Handlers ι}
    (registered : RenameRegistered label σ) :
    GoodStep (RenameFinds True) label.1 σ := by
  rintro a rest code - oldPath newPath client rfl
  exact registered oldPath newPath client rest code

/-! ## Progress -/

/-- The number of lookups and messages still to come. -/
def Action.lookups : Action → Nat
  | .findClose _ _ | .findRename _ _ _ | .findUnlink _ _ | .findSubscriber _
  | .createQueue _ => 1
  | .receive _ messages => messages.length
  | _ => 0

/-- An upper bound on the instructions an action still unfolds to. -/
def Action.work : Action → Nat
  | .notifyEach _ _ remaining => 4 * remaining.card + 1
  | .pop _ _ => 4
  | .writeNote _ _ => 2
  | _ => 1

def instrLookups : Instr Lock Action → Nat
  | .act a => a.lookups
  | _ => 0

def instrWork : Instr Lock Action → Nat
  | .act a => a.work
  | _ => 1

def HandlerLocals.buffered (t : HandlerLocals) : Nat :=
  (t.output.map fun file => file.buffer.length).getD 0

/-- What decreases between two resting points: the lookups to come, then the
bytes to be flushed, then the instructions to come. -/
def progress (t : HandlerLocals) (code : Code) : Nat × Nat × Nat :=
  ((code.map instrLookups).sum, t.buffered, (code.map instrWork).sum)

/-- The handler is over, only sends the contents of a file, or waits for its
client. -/
def Rests : Code → Prop
  | [] | .act .sendChunks :: _ | .act (.awaitNotification _ _) :: _
  | .act (.awaitCancelled _) :: _ => True
  | _ => False

/-- The order in which `progress` decreases. -/
abbrev ProgressLess : Nat × Nat × Nat → Nat × Nat × Nat → Prop :=
  Prod.Lex (· < ·) (Prod.Lex (· < ·) (· < ·))

section Exec

variable {a : Action} {c : Choice} {w w' : Recorded} {t t' : HandlerLocals}
variable {rest after : Code}

/-- Only the reception of a stream changes the buffered bytes. -/
theorem output_of_exec (notReceive : ∀ path messages, a ≠ .receive path messages)
    (notClose : a ≠ .closeOutput)
    (executes : exec a c w t rest = some (w', t', after)) :
    t'.output = t.output := by
  cases a <;> simp only [exec] at executes
  all_goals repeat' split at executes
  all_goals first
    | (simp only [Option.some.injEq, Prod.mk.injEq] at executes
       obtain ⟨-, rfl, -⟩ := executes
       first
         | rfl
         | exact (notReceive _ _ rfl).elim
         | exact (notClose rfl).elim)
    | simp at executes

/-- What an action unfolds to takes fewer lookups, or as many and less work. -/
theorem less_of_expands {s : Server} {front : Code}
    (notReceive : ∀ path messages, a ≠ .receive path messages)
    (awake : ¬ Rests (.act a :: rest)) (expansion : Expands s t a front) :
    (front.map instrLookups).sum < a.lookups ∨
      (front.map instrLookups).sum = a.lookups ∧
        (front.map instrWork).sum < a.work := by
  cases expansion with
  | done _ finishes =>
      cases a with
      | receive path messages => exact (notReceive _ _ rfl).elim
      | _ => simp [Action.lookups, Action.work]
  | sendAgain => exact (awake trivial).elim
  | wake client q => exact (awake trivial).elim
  | receiveAgain path messages later suffix => exact (notReceive _ _ rfl).elim
  | pushNext client receiver q notif remaining member other queue =>
      have smaller := Finset.card_erase_add_one member
      refine .inr ⟨rfl, ?_⟩
      simp [instrWork, Action.work]
      omega
  | skipNext client receiver notif remaining member skipped =>
      have smaller := Finset.card_erase_add_one member
      refine .inr ⟨rfl, ?_⟩
      simp [instrWork, Action.work]
      omega
  | _ => simp [instrLookups, instrWork, Action.lookups, Action.work]

theorem Action.work_pos (a : Action) : 0 < a.work := by
  cases a <;> simp [Action.work]

/-- Fewer lookups, or as many and less work with the same buffer, is
progress. -/
theorem progressLess_of_le {code : Code} (buffered : t'.buffered ≤ t.buffered)
    (less : (after.map instrLookups).sum < (code.map instrLookups).sum ∨
      (after.map instrLookups).sum ≤ (code.map instrLookups).sum ∧
        (after.map instrWork).sum < (code.map instrWork).sum) :
    ProgressLess (progress t' after) (progress t code) := by
  simp only [progress, Prod.lex_def]
  omega

/-- A step of the reception decreases `progress`. -/
theorem less_receive {path : Path} {messages : List Bytes}
    (executes : exec (.receive path messages) c w t rest =
      some (w', t', after)) :
    ProgressLess (progress t' after)
      (progress t (.act (.receive path messages) :: rest)) := by
  simp only [exec] at executes
  repeat' split at executes
  all_goals first
    | (simp only [Option.some.injEq, Prod.mk.injEq] at executes
       obtain ⟨-, rfl, rfl⟩ := executes)
    | simp at executes
  all_goals
    simp_all [progress, Prod.lex_def, instrLookups, instrWork, Action.lookups,
      Action.work, HandlerLocals.buffered]
  all_goals first
    | omega
    | next nonempty =>
        have := List.length_pos_iff.mpr nonempty.2
        omega

theorem less_closeOutput
    (executes : exec .closeOutput c w t rest = some (w', t', after)) :
    ProgressLess (progress t' after) (progress t (.act .closeOutput :: rest)) := by
  apply progressLess_of_le
  · simp only [exec] at executes
    repeat' split at executes
    all_goals
      simp only [Option.some.injEq, Prod.mk.injEq] at executes
      obtain ⟨-, rfl, -⟩ := executes
      simp [HandlerLocals.buffered]
  · right
    rcases leaves_of_exec executes with ⟨-, rfl⟩ | ⟨front, expansion, rfl⟩
    · simp only [List.map_nil, List.sum_nil, List.map_cons, List.sum_cons,
        instrWork, Action.work]
      omega
    · cases expansion
      simp [instrLookups, instrWork, Action.lookups, Action.work]

/-- Away from the resting points every action is progress. -/
theorem less_of_exec (awake : ¬ Rests (.act a :: rest))
    (executes : exec a c w t rest = some (w', t', after)) :
    ProgressLess (progress t' after) (progress t (.act a :: rest)) := by
  by_cases isReceive : ∃ path messages, a = .receive path messages
  · obtain ⟨path, messages, rfl⟩ := isReceive
    exact less_receive executes
  by_cases isClose : a = .closeOutput
  · subst isClose
    exact less_closeOutput executes
  push Not at isReceive
  have sameOutput := output_of_exec isReceive isClose executes
  apply progressLess_of_le (by simp [HandlerLocals.buffered, sameOutput])
  rcases leaves_of_exec executes with ⟨-, rfl⟩ | ⟨front, expansion, rfl⟩
  · have := a.work_pos
    simp only [List.map_nil, List.sum_nil, List.map_cons, List.sum_cons,
      instrWork]
    omega
  · have less := less_of_expands isReceive awake expansion
    simp only [List.map_append, List.sum_append, List.map_cons, List.sum_cons,
      instrLookups, instrWork]
    omega

/-- Away from the resting points an action runs in every state. -/
theorem executes_of_awake (awake : ¬ Rests (.act a :: rest)) (w : Recorded) :
    ∃ c result, exec a c w t rest = some result := by
  cases a with
  | sendChunks => exact (awake trivial).elim
  | awaitNotification client q => exact (awake trivial).elim
  | awaitCancelled q => exact (awake trivial).elim
  | notifyEach client notif remaining =>
      rcases remaining.eq_empty_or_nonempty with rfl | ⟨receiver, member⟩
      · exact ⟨.go, _, by simp only [exec]; rfl⟩
      · refine ⟨.pick receiver, ?_⟩
        simp only [exec, member, if_true]
        split
        · exact ⟨_, rfl⟩
        · split <;> exact ⟨_, rfl⟩
  | openInput path =>
      refine ⟨.go, ?_⟩
      cases node : w.server.disk.node path <;> simp [exec, node]
  | renameFile oldPath newPath =>
      refine ⟨.go, ?_⟩
      cases node : w.server.disk.node oldPath <;> simp [exec, node]
  | removeFile path =>
      refine ⟨.go, ?_⟩
      cases node : w.server.disk.node path <;> simp [exec, node]
  | receive path messages =>
      refine ⟨.go, ?_⟩
      obtain ⟨i, refers, -⟩ := FileStore.exists_node_openTruncated
        w.server.disk path w.server.clock
      cases messages with
      | nil => simp [exec]
      | cons message messages =>
          cases opened : t.path with
          | none => simp [exec, opened, refers]
          | some _ => cases output : t.output <;> simp [exec, opened, output]
  | _ =>
      refine ⟨.go, ?_⟩
      simp only [exec]
      repeat' split
      all_goals exact ⟨_, rfl⟩

end Exec

/-- The discipline in order makes progress between resting points. -/
def lockProgress : Progressive (lockDiscipline True) ProgressLess where
  rank := Lock.rank
  bound := 2
  bounded := Lock.rank_le
  ranked := ranked_lockDiscipline
  Resting _ code := Rests code
  measure := progress
  wellFounded := WellFounded.prod_lex wellFounded_lt
    (WellFounded.prod_lex wellFounded_lt wellFounded_lt)
  resting_nil _ := trivial
  not_resting := by
    intro held t code suited holdsLock rests
    refine holdsLock.ne_empty ?_
    match code, rests with
    | [], _ => exact suited
    | .act .sendChunks :: _, _ => exact suited.1
    | .act (.awaitNotification _ _) :: _, _ => exact suited.1
    | .act (.awaitCancelled _) :: _, _ => exact suited.1
  executes _ awake w := executes_of_awake awake w
  less_lock := by
    intro t l rest
    apply progressLess_of_le (Nat.le_refl _)
    simp [instrLookups, instrWork]
  less_unlock := by
    intro t l rest
    apply progressLess_of_le (Nat.le_refl _)
    simp [instrLookups, instrWork]
  less_act _ awake _ executes := less_of_exec awake executes

/-- The requests whose handlers may come to the action that waits. -/
def Action.Fits (request : Request) : Action → Prop
  | .sendChunks => ∃ path client, request = .open path client
  | .createQueue client | .awaitNotification client _ | .pop client _
  | .writeNote client _ => request = .subscribe client
  | .awaitCancelled q => request = .monitor q
  | _ => True

def instrFits (request : Request) : Instr Lock Action → Prop
  | .act a => a.Fits request
  | _ => True

def Code.Fits (request : Request) (code : Code) : Prop :=
  ∀ instr ∈ code, instrFits request instr

theorem fits_program (request : Request) :
    Code.Fits request request.program := by
  cases request <;>
    simp [Code.Fits, instrFits, Action.Fits, Request.program,
      requestDirProgram, openProgram, closeProgram, closeCallback,
      renameProgram, unlinkProgram, getStatusProgram, subscribeProgram,
      cleanupProgram, monitorProgram]

theorem fits_of_exec {request : Request} {a : Action} {c : Choice}
    {w w' : Recorded} {t t' : HandlerLocals} {rest after : Code}
    (fits : Code.Fits request (.act a :: rest))
    (executes : exec a c w t rest = some (w', t', after)) :
    Code.Fits request after := by
  obtain ⟨fitsAction, fitsRest⟩ := List.forall_mem_cons.mp fits
  rcases leaves_of_exec executes with ⟨-, rfl⟩ | ⟨front, expansion, rfl⟩
  · simp [Code.Fits]
  · refine List.forall_mem_append.mpr ⟨?_, fitsRest⟩
    cases expansion <;> simp_all [instrFits, Action.Fits]

/-- The handler is past its map updates: it is over, or all that is left of
`open` is to send the file; `subscribe` waits for a notification and the
monitor thread for the cancellation of its call. -/
def PastUpdates : Request → Code → Prop
  | .open _ _, code => code = [] ∨ code = [.act .sendChunks]
  | .subscribe client, code =>
      code = [] ∨ ∃ q rest, code = .act (.awaitNotification client q) :: rest
  | .monitor q, code => code = [] ∨ ∃ rest, code = .act (.awaitCancelled q) :: rest
  | _, code => code = []

theorem pastUpdates_of_rests {request : Request} {held : Set Lock} {code : Code}
    (suited : Suited True held code) (fits : Code.Fits request code)
    (rests : Rests code) : PastUpdates request code := by
  match code, rests with
  | [], _ => cases request <;> simp [PastUpdates]
  | .act .sendChunks :: rest, _ =>
      obtain ⟨path, client, rfl⟩ := fits _ List.mem_cons_self
      exact .inr (by rw [suited.2.1 rfl])
  | .act (.awaitNotification client q) :: rest, _ =>
      obtain rfl := fits _ List.mem_cons_self
      exact .inr ⟨q, rest, rfl⟩
  | .act (.awaitCancelled q) :: rest, _ =>
      obtain rfl := fits _ List.mem_cons_self
      exact .inr ⟨rest, rfl⟩

/-! ## Deadlock freedom -/

section Runs

variable [DecidableEq ι]

/-- A lookup of `rename` that finds nothing is followed by a request of the
mutex that the handler holds. -/
theorem renameRegistered_of_deadlockFree {label : ι × Choice} {σ : Handlers ι}
    (holds : (lockDiscipline True).Holds σ)
    (next : ∀ σ', step exec label σ = some σ' → DeadlockFree σ') :
    RenameRegistered label σ := by
  intro oldPath newPath client rest code missing
  have suited := holds label.1
  rw [code] at suited
  have owned : σ.owner .fileMapMutex = some label.1 := suited.1.1
  have steps : ∃ σ', step exec label σ = some σ' ∧
      σ'.requests label.1 = some .fileMapMutex ∧ σ'.owner = σ.owner := by
    simp [step, code, exec, missing, State.requests]
  obtain ⟨σ', stepEq, requested, sameOwner⟩ := steps
  refine (next σ' stepEq).noSelfRequest _ _ requested ?_
  rw [sameOwner, owned]

/-- The states of a run are free of deadlock exactly when each `rename` in it
finds its old path registered. -/
theorem throughout_deadlockFree_iff {σ : Handlers ι}
    (holds : (lockDiscipline True).Holds σ) (labels : List (ι × Choice)) :
    Throughout (step exec) DeadlockFree labels σ ↔
      Along (step exec) RenameRegistered labels σ := by
  induction labels generalizing σ with
  | nil => exact iff_of_true (deadlockFree_of_holds holds) trivial
  | cons label labels ih =>
      have continues : RenameRegistered label σ → ∀ σ',
          step exec label σ = some σ' →
          (Throughout (step exec) DeadlockFree labels σ' ↔
            Along (step exec) RenameRegistered labels σ') :=
        fun registered σ' stepEq => ih ((lockDiscipline True).holds_of_step holds
          (goodStep_of_renameRegistered registered) stepEq)
      constructor
      · rintro ⟨-, later⟩
        have registered := renameRegistered_of_deadlockFree holds
          fun σ' stepEq => (later σ' stepEq).first
        exact ⟨registered, fun σ' stepEq =>
          (continues registered σ' stepEq).mp (later σ' stepEq)⟩
      · rintro ⟨registered, later⟩
        exact ⟨deadlockFree_of_holds holds, fun σ' stepEq =>
          (continues registered σ' stepEq).mpr (later σ' stepEq)⟩

/-- The mutexes never deadlock, and in a fair schedule every handler gets past
its map updates again and again, exactly when each `rename` finds its old path
registered. -/
theorem deadlockFree_iff_renameRegistered (s : Server) (requests : ι → Request) :
    (∀ labels : List (ι × Choice),
      Throughout (step exec) DeadlockFree labels (Handlers.start s requests) ↔
        Along (step exec) RenameRegistered labels
          (Handlers.start s requests)) ∧
    ∀ ρ : Schedule ι exec, ρ.state 0 = Handlers.start s requests → ρ.Fair →
      (∀ n label, ρ.mover n = some label →
        RenameRegistered label (ρ.state n)) →
      ∀ i n, ∃ m, n ≤ m ∧
        PastUpdates (requests i) ((ρ.state m).threads i).code := by
  have holds := holds_start True s requests
  refine ⟨throughout_deadlockFree_iff holds, ?_⟩
  intro ρ initial fair registered i n
  have admitted n label (mover : ρ.mover n = some label) :
      GoodStep (RenameFinds True) label.1 (ρ.state n) :=
    goodStep_of_renameRegistered (registered n label mover)
  rw [← initial] at holds
  have suited : ∀ n, (lockDiscipline True).Holds (ρ.state n) :=
    Schedule.invariant_of_step (lockDiscipline True).Holds holds
      fun n label _ mover suited steps =>
        (lockDiscipline True).holds_of_step suited (admitted n label mover) steps
  have fits : ∀ n i, Code.Fits (requests i) ((ρ.state n).threads i).code := by
    refine Schedule.invariant_of_step
      (fun σ => ∀ i, Code.Fits (requests i) (σ.threads i).code) ?_
      fun n label _ mover fits steps => ?_
    · intro i
      rw [initial]
      exact fits_program (requests i)
    · exact forall_thread_of_step (fun i _ code => Code.Fits (requests i) code)
        (fun fits => (List.forall_mem_cons.mp fits).2) fits_of_exec fits steps
  obtain ⟨m, later, rests⟩ :=
    lockProgress.rests_again fair .go holds admitted i n
  exact ⟨m, later, pastUpdates_of_rests (suited m i) (fits m i) rests⟩

end Runs

/-- A file that no client has opened since the server was launched. -/
private def launched : Server :=
  Server.launch "/srv" (FileStore.empty.create "/srv/a" 0) 0

/-- Renaming a file that nobody opened freezes the server. -/
theorem rename_unregistered_locks_twice :
    ∃ labels σ,
      run (step exec) labels (Handlers.start launched fun _ : Unit =>
        .rename "/srv/a" "/srv/b" "client") = some σ ∧
      ¬ DeadlockFree σ := by
  refine ⟨[((), .go), ((), .go), ((), .go), ((), .go)], _, rfl, fun free => ?_⟩
  exact free.noSelfRequest () .fileMapMutex rfl rfl

end DistributedFilesystem
