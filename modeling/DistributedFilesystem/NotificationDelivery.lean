import DistributedFilesystem.FairProgress
import DistributedFilesystem.NotificationStreams
import DistributedFilesystem.ServerLockOrder

/-!
# Delivery of notifications

In a fair schedule in which each `rename` finds its old path registered and no
write of a `subscribe` handler fails, the handler writes every notification that
is pushed while it is in its loop: it comes back to its wait again and again, and
does not stay there while its queue holds something.
-/

namespace DistributedFilesystem

open LockedThreads TransitionRuns

variable {ι : Type*} {i : ι} {client : ClientId} {history : List QueueUse}

/-- What was popped has been written, up to the notification in hand, and the
handler leaves its loop with none in hand. -/
structure Undropped (i : ι) (history : List QueueUse) (σ : Handlers ι) : Prop where
  written : poppedNotes history =
    (σ.threads i).locals.delivered ++ (σ.threads i).locals.note.toList
  nothing : ¬ InLoop (σ.threads i).code → (σ.threads i).locals.note = none

section Steps

variable [DecidableEq ι] {label : ι × Choice} {σ σ' : Handlers ι}

/-- In its loop a handler has written what it popped. -/
theorem written_of_stage {t : HandlerLocals} {popped : List Notification}
    {created : Option QueueId} {code : Code}
    (stage : SubscribeStage client popped t created code) (inLoop : code ≠ []) :
    popped = t.delivered ++ t.note.toList := by
  cases stage with
  | registering nothing notWritten noNote => simp [nothing, notWritten, noNote]
  | waiting q written noNote | popping q written noNote =>
      simp [written, noNote]
  | writing q note written isNote => simp [written, isNote]
  | left => exact (inLoop rfl).elim

/-- An action that leaves the loop without a failed write leaves the locals
alone. -/
theorem locals_of_leaving {a : Action} {c : Choice} {w w' : Recorded}
    {t t' : HandlerLocals} {rest after : Code} (uses : a.UsesQueue = true)
    (writes : (∃ client q, a = .writeNote client q) → c ≠ .fail)
    (executes : exec a c w t rest = some (w', t', after))
    (left : queuePart after = []) :
    t' = t ∧ a.queueUse w.server = [] ∧ ∃ client q, a = .pop client q := by
  rcases leaves_of_use uses executes left with
    ⟨isWrite, failed⟩ | ⟨client, q, rfl, queue⟩
  · exact (writes isWrite failed).elim
  · simp only [exec, queue, Option.some.injEq, Prod.mk.injEq] at executes
    obtain ⟨-, rfl, -⟩ := executes
    exact ⟨rfl, by simp [Action.queueUse, queue], client, q, rfl⟩

theorem undropped_of_step (streams : Streams i client history σ)
    (writes : WritesSucceed i label σ) (undropped : Undropped i history σ)
    (steps : step exec label σ = some σ') :
    Undropped i (history ++ queueUses i label σ) σ' := by
  have moved := moved_of_step steps
  have stage := stage_of_streams streams steps
  by_cases self : label.1 = i
  · subst self
    cases moved.advanced with
    | quiet instr rest notAct code shared thread =>
        rw [queueUses_of_quiet notAct code, List.append_nil]
        refine ⟨by rw [thread]; exact undropped.written, ?_⟩
        rw [thread]
        intro hasLeft
        apply undropped.nothing
        rw [InLoop, code, queuePart_of_quiet notAct]
        exact hasLeft
    | act a rest after locals code executes thread =>
        rw [queueUses_of_act code] at stage ⊢
        rw [thread] at stage
        cases uses : a.UsesQueue with
        | false =>
            have continues := streams.continues a (code ▸ List.mem_cons_self)
            obtain ⟨note, delivered⟩ := notes_of_exec uses executes
            have unused : a.queueUse σ.shared.server = [] := by
              cases a <;> first | rfl | cases uses
            rw [unused, List.append_nil]
            constructor
            · simp only [thread, note, delivered]
              exact undropped.written
            · simp only [thread, note]
              intro hasLeft
              apply undropped.nothing
              rw [InLoop, code, ← queuePart_of_other uses continues executes]
              exact hasLeft
        | true =>
            by_cases left : queuePart after = []
            · have succeeds : (∃ client q, a = .writeNote client q) →
                  label.2 ≠ .fail := by
                rintro ⟨receiver, q, rfl⟩ failed
                exact writes rfl ⟨receiver, q, rest, code, failed⟩
              obtain ⟨rfl, unused, receiver, q, rfl⟩ :=
                locals_of_leaving uses succeeds executes left
              rw [unused, List.append_nil]
              constructor
              · rw [thread]
                exact undropped.written
              · intro _
                rw [thread]
                have before := streams.stage
                rw [code, queuePart_act, if_pos uses] at before
                generalize createdQueue history = created at before
                generalize partEq : Instr.act (Action.pop receiver q) ::
                  queuePart rest = part at before
                cases before with
                | popping r written noNote => exact noNote
                | registering | waiting | writing | left => simp at partEq
            · constructor
              · rw [thread]
                exact written_of_stage stage left
              · rw [thread]
                exact fun hasLeft => (hasLeft left).elim
  · rw [queueUses_of_ne self, List.append_nil]
    have same := moved.threads_ne (Ne.symm self)
    exact ⟨by rw [same]; exact undropped.written, by
      rw [same]; exact undropped.nothing⟩

/-- A handler that is about to pop from a queue that is not empty still is, or
has popped. -/
theorem pops_of_step (streams : Streams i client history σ) {q : QueueId}
    (popping : queuePart (σ.threads i).code = [.act (.pop client q)])
    (content : contentOf σ.shared.server.queues (createdQueue history) ≠ [])
    (steps : step exec label σ = some σ') :
    (queuePart (σ'.threads i).code = [.act (.pop client q)] ∧
      queueUses i label σ = []) ∨
      ∃ note, queueUses i label σ = [.popped note] := by
  have moved := moved_of_step steps
  by_cases self : label.1 = i
  · subst self
    cases moved.advanced with
    | quiet instr rest notAct code shared thread =>
        left
        rw [queueUses_of_quiet notAct code, thread]
        rw [code, queuePart_of_quiet notAct] at popping
        exact ⟨popping, rfl⟩
    | act a rest after locals code executes thread =>
        rw [queueUses_of_act code]
        rw [code] at popping
        cases uses : a.UsesQueue with
        | false =>
            left
            have continues := streams.continues a (code ▸ List.mem_cons_self)
            rw [thread]
            refine ⟨(queuePart_of_other uses continues executes).trans popping, ?_⟩
            cases a <;> first | rfl | cases uses
        | true =>
            right
            rw [queuePart_act, if_pos uses] at popping
            obtain ⟨⟨rfl⟩, -⟩ := List.cons.inj popping
            have created := streams.popping code
            rw [created] at content
            rcases entry : σ.shared.server.queues q with
              _ | ⟨_ | ⟨note, notes⟩, shutdown⟩
            · simp [contentOf, entry] at content
            · simp [contentOf, entry] at content
            · exact ⟨note, by simp [Action.queueUse, entry]⟩
  · left
    rw [queueUses_of_ne self, moved.threads_ne (Ne.symm self)]
    exact ⟨popping, rfl⟩

end Steps

/-! ## Schedules -/

section Schedules

variable [DecidableEq ι] (ρ : Schedule ι exec)

/-- What thread `i` does with queues at a time. -/
def usesAt (i : ι) (n : Nat) : List QueueUse :=
  match ρ.mover n with
  | some label => queueUses i label (ρ.state n)
  | none => []

/-- What thread `i` has done with queues before a time. -/
def usesUntil (i : ι) : Nat → List QueueUse
  | 0 => []
  | n + 1 => usesUntil i n ++ usesAt ρ i n

/-- No write of the `subscribe` handler fails. -/
def WritesAlways (i : ι) : Prop :=
  ∀ n label, ρ.mover n = some label → WritesSucceed i label (ρ.state n)

variable {ρ} {n m : Nat}

theorem streams_at (initially : Streams i client [] (ρ.state 0)) (n : Nat) :
    Streams i client (usesUntil ρ i n) (ρ.state n) := by
  induction n with
  | zero => exact initially
  | succ n ih =>
      rw [usesUntil, usesAt]
      cases mover : ρ.mover n with
      | none =>
          rw [ρ.rests n mover]
          simpa using ih
      | some label => exact streams_of_step ih (ρ.moves n label mover)

theorem undropped_at (initially : Streams i client [] (ρ.state 0))
    (nothing : Undropped i [] (ρ.state 0)) (writes : WritesAlways ρ i) (n : Nat) :
    Undropped i (usesUntil ρ i n) (ρ.state n) := by
  induction n with
  | zero => exact nothing
  | succ n ih =>
      rw [usesUntil, usesAt]
      cases mover : ρ.mover n with
      | none =>
          rw [ρ.rests n mover]
          simpa using ih
      | some label =>
          exact undropped_of_step (streams_at initially n) (writes n label mover)
            ih (ρ.moves n label mover)

/-- While the handler is in its loop at first, what had been pushed by then is
popped when it leaves. -/
theorem draining_at (initially : Streams i client [] (ρ.state 0))
    (writes : WritesAlways ρ i) (inLoop : InLoop ((ρ.state n).threads i).code)
    (later : n ≤ m) :
    Draining i client (pushesTo client (ρ.state n).shared.log)
      (usesUntil ρ i m) (ρ.state m) := by
  induction m, later using Nat.le_induction with
  | base => exact ⟨streams_at initially n, List.prefix_refl _, .inl inLoop⟩
  | succ m later ih =>
      rw [usesUntil, usesAt]
      cases mover : ρ.mover m with
      | none =>
          rw [ρ.rests m mover]
          simpa using ih
      | some label =>
          exact draining_of_step (writes m label mover) ih
            (ρ.moves m label mover)

theorem usesAt_of_still (still : ¬ ρ.MovesAt i n) : usesAt ρ i n = [] := by
  rw [usesAt]
  cases mover : ρ.mover n with
  | none => rfl
  | some label =>
      apply queueUses_of_ne
      rintro rfl
      exact still ⟨label.2, mover⟩

theorem usesUntil_of_still (later : n ≤ m)
    (still : ∀ k, n ≤ k → k < m → ¬ ρ.MovesAt i k) :
    usesUntil ρ i m = usesUntil ρ i n := by
  induction m, later using Nat.le_induction with
  | base => rfl
  | succ m later ih =>
      rw [usesUntil, usesAt_of_still (still m later (Nat.lt_succ_self m)),
        List.append_nil]
      exact ih fun k low high => still k low (Nat.lt_succ_of_lt high)

theorem popped_grows (later : n ≤ m) :
    poppedNotes (usesUntil ρ i n) <+: poppedNotes (usesUntil ρ i m) := by
  induction m, later using Nat.le_induction with
  | base => exact List.prefix_refl _
  | succ m later ih =>
      rw [usesUntil, poppedNotes_append]
      exact ih.trans (List.prefix_append _ _)

/-- What has been pushed but not popped is in the queue. -/
theorem content_ne_nil (streams : Streams i client history (ρ.state m))
    {earlier : List Notification}
    (pushed : earlier <+: pushesTo client (ρ.state m).shared.log)
    (fewer : (poppedNotes history).length < earlier.length) :
    contentOf (ρ.state m).shared.server.queues (createdQueue history) ≠ [] := by
  intro empty
  have faithful := streams.faithful
  rw [empty, List.append_nil] at faithful
  have bound := pushed.length_le
  rw [← faithful] at bound
  omega

/-- From the wait the handler pops again while its queue is not empty. -/
theorem pops_after (initially : Streams i client [] (ρ.state 0))
    {q : QueueId} {earlier : List Notification} (later : n ≤ m)
    (pushed : ∀ k, n ≤ k → earlier <+: pushesTo client (ρ.state k).shared.log)
    (fewer : (poppedNotes (usesUntil ρ i n)).length < earlier.length)
    (popping : queuePart ((ρ.state n).threads i).code =
      [.act (.pop client q)]) :
    queuePart ((ρ.state m).threads i).code = [.act (.pop client q)] ∧
        poppedNotes (usesUntil ρ i m) = poppedNotes (usesUntil ρ i n) ∨
      (poppedNotes (usesUntil ρ i n)).length <
        (poppedNotes (usesUntil ρ i m)).length := by
  induction m, later using Nat.le_induction with
  | base => exact .inl ⟨popping, rfl⟩
  | succ m later ih =>
      rcases ih with ⟨still, same⟩ | more
      · cases mover : ρ.mover m with
        | none =>
            left
            rw [ρ.rests m mover, usesUntil, usesAt, mover, List.append_nil]
            exact ⟨still, same⟩
        | some label =>
            have streams := streams_at initially m
            have content := content_ne_nil streams (pushed m later)
              (by rw [same]; exact fewer)
            rw [usesUntil, usesAt, mover]
            rcases pops_of_step streams still content
              (ρ.moves m label mover) with ⟨goesOn, unused⟩ | ⟨note, popped⟩
            · dsimp only
              rw [unused, List.append_nil]
              exact .inl ⟨goesOn, same⟩
            · right
              simp [popped, same]
      · right
        exact Nat.lt_of_lt_of_le more
          (popped_grows (Nat.le_succ m)).length_le

/-- The handler comes to its wait again and again, or leaves its loop. -/
theorem waits_again {s : Server} {requests : ι → Request}
    (initial : ρ.state 0 = Handlers.start s requests) (fair : ρ.Fair)
    (registered : ∀ n label, ρ.mover n = some label →
      RenameRegistered label (ρ.state n))
    (subscribes : requests i = .subscribe client)
    (initially : Streams i client [] (ρ.state 0)) (n : Nat) :
    ∃ m, n ≤ m ∧ (¬ InLoop ((ρ.state m).threads i).code ∨
      ∃ q rest, ((ρ.state m).threads i).code =
          .act (.awaitNotification client q) :: rest ∧
        queuePart rest = [] ∧ createdQueue (usesUntil ρ i m) = some q ∧
        ((ρ.state m).threads i).locals.note = none) := by
  have holds : (lockDiscipline True).Holds (ρ.state 0) := by
    rw [initial]
    exact holds_start True s requests
  have fits : ∀ n i, Code.Fits (requests i) ((ρ.state n).threads i).code := by
    refine Schedule.invariant_of_step
      (fun σ => ∀ i, Code.Fits (requests i) (σ.threads i).code) ?_
      fun n label _ mover fits steps => ?_
    · intro i
      rw [initial]
      exact fits_program (requests i)
    · exact forall_thread_of_step (fun i _ code => Code.Fits (requests i) code)
        (fun fits => (List.forall_mem_cons.mp fits).2) fits_of_exec fits steps
  obtain ⟨m, later, rests⟩ := lockProgress.rests_again fair .go holds
    (fun n label mover => goodStep_of_renameRegistered (registered n label mover))
    i n
  refine ⟨m, later, ?_⟩
  have fit := fits m i
  rw [subscribes] at fit
  have stage := (streams_at initially m).stage
  change Rests ((ρ.state m).threads i).code at rests
  match code : ((ρ.state m).threads i).code, rests with
  | [], _ => exact .inl (fun inLoop => inLoop rfl)
  | .act .sendChunks :: _, _ =>
      rw [code] at fit
      obtain ⟨path, other, impossible⟩ := fit _ List.mem_cons_self
      cases impossible
  | .act (.awaitCancelled _) :: _, _ =>
      rw [code] at fit
      cases fit _ List.mem_cons_self
  | .act (.awaitNotification receiver q) :: rest, _ =>
      rw [code, queuePart_act] at stage
      simp only [Action.UsesQueue, if_true] at stage
      generalize createdEq : createdQueue (usesUntil ρ i m) = created at stage
      generalize partEq : Instr.act (.awaitNotification receiver q) ::
        queuePart rest = part at stage
      cases stage with
      | waiting r written noNote =>
          obtain ⟨⟨rfl⟩, noRest⟩ := List.cons.inj partEq
          exact .inr ⟨q, rest, rfl, noRest, rfl, noNote⟩
      | registering | popping | writing | left => simp at partEq

/-- A handler that waits while its queue is not empty goes on to pop. -/
theorem popping_after_wait (fair : ρ.Fair)
    (initially : Streams i client [] (ρ.state 0)) {q : QueueId} {rest : Code}
    (code : ((ρ.state n).threads i).code =
      .act (.awaitNotification client q) :: rest)
    (noRest : queuePart rest = [])
    (created : createdQueue (usesUntil ρ i n) = some q)
    {earlier : List Notification}
    (pushed : ∀ k, n ≤ k → earlier <+: pushesTo client (ρ.state k).shared.log)
    (fewer : (poppedNotes (usesUntil ρ i n)).length < earlier.length) :
    ∃ m, n ≤ m ∧ usesUntil ρ i m = usesUntil ρ i n ∧
      queuePart ((ρ.state m).threads i).code = [.act (.pop client q)] := by
  have enabled m (later : n ≤ m)
      (still : ∀ k, n ≤ k → k < m → ¬ ρ.MovesAt i k) :
      Enabled exec (ρ.state m) i := by
    have same := usesUntil_of_still later still
    have streams := streams_at initially m
    rw [same] at streams
    have content := content_ne_nil streams (pushed m later) fewer
    rw [created] at content
    have thread := Schedule.thread_eq_of_still later still
    refine enabled_of_act (by rw [thread]; exact code) ⟨.go, ?_⟩
    rcases entry : (ρ.state m).shared.server.queues q with
      _ | ⟨notes, shutdown⟩
    · simp [contentOf, entry] at content
    · have nonempty : notes ≠ [] := by simpa [contentOf, entry] using content
      simp [exec, entry, nonempty]
  obtain ⟨m, later, ⟨choice, mover⟩, still⟩ :=
    Schedule.moves_of_enabled fair enabled
  have codeThen : ((ρ.state m).threads i).code =
      .act (.awaitNotification client q) :: rest := by
    rw [Schedule.thread_eq_of_still later still]
    exact code
  refine ⟨m + 1, Nat.le_succ_of_le later, ?_, ?_⟩
  · rw [usesUntil, usesAt, mover, usesUntil_of_still later still]
    dsimp only
    rw [show queueUses i (i, choice) (ρ.state m) =
      (Action.awaitNotification client q).queueUse (ρ.state m).shared.server
      from queueUses_of_act codeThen]
    simp [Action.queueUse]
  · cases (moved_of_step (ρ.moves m _ mover)).advanced with
    | quiet instr rest' notAct code' shared thread =>
        rw [codeThen] at code'
        obtain ⟨rfl, -⟩ := List.cons.inj code'
        exact (notAct _ rfl).elim
    | act a rest' after locals code' executes thread =>
        rw [codeThen] at code'
        obtain ⟨⟨rfl⟩, rfl⟩ := List.cons.inj code'
        simp only [exec] at executes
        repeat' split at executes
        · simp only [Option.some.injEq, Prod.mk.injEq] at executes
          obtain ⟨-, -, rfl⟩ := executes
          rw [thread]
          simp [queuePart_act, Action.UsesQueue, noRest]
        · simp at executes
        · simp at executes

/-- Until the handler has left its loop or has written what was pushed, it pops
again. -/
theorem pops_again {s : Server} {requests : ι → Request}
    (initial : ρ.state 0 = Handlers.start s requests) (fair : ρ.Fair)
    (registered : ∀ n label, ρ.mover n = some label →
      RenameRegistered label (ρ.state n))
    (subscribes : requests i = .subscribe client)
    (initially : Streams i client [] (ρ.state 0))
    (nothing : Undropped i [] (ρ.state 0)) (writes : WritesAlways ρ i)
    {earlier : List Notification}
    (draining : ∀ k, n ≤ k →
      Draining i client earlier (usesUntil ρ i k) (ρ.state k)) :
    ∃ m, n ≤ m ∧
      (earlier <+: ((ρ.state m).threads i).locals.delivered ∨
        (poppedNotes (usesUntil ρ i n)).length < earlier.length ∧
          (poppedNotes (usesUntil ρ i n)).length <
            (poppedNotes (usesUntil ρ i m)).length) := by
  have pushed : ∀ k, n ≤ k →
      earlier <+: pushesTo client (ρ.state k).shared.log :=
    fun k later => (draining k later).pushed
  have writtenWithout (k : Nat)
      (noNote : ((ρ.state k).threads i).locals.note = none) :
      poppedNotes (usesUntil ρ i k) =
        ((ρ.state k).threads i).locals.delivered := by
    have undropped := (undropped_at initially nothing writes k).written
    simpa [noNote] using undropped
  obtain ⟨m, later, hasLeft | ⟨q, rest, code, noRest, created, noNote⟩⟩ :=
    waits_again initial fair registered subscribes initially n
  · -- The handler has left its loop.
    have popped := (draining m later).popped.resolve_left hasLeft
    have noNote := (undropped_at initially nothing writes m).nothing hasLeft
    rw [writtenWithout m noNote] at popped
    exact ⟨m, later, .inl popped⟩
  by_cases enough : earlier.length ≤ (poppedNotes (usesUntil ρ i m)).length
  · have faithful : poppedNotes (usesUntil ρ i m) <+:
        pushesTo client (ρ.state m).shared.log :=
      ⟨_, (draining m later).streams.faithful⟩
    have popped := List.prefix_of_prefix_length_le (pushed m later) faithful
      enough
    rw [writtenWithout m noNote] at popped
    exact ⟨m, later, .inl popped⟩
  · -- It goes on to pop, and when it comes back it has popped.
    have fewer := Nat.lt_of_not_le enough
    have pushedLater : ∀ k, m ≤ k →
        earlier <+: pushesTo client (ρ.state k).shared.log :=
      fun k after => pushed k (Nat.le_trans later after)
    obtain ⟨k, after, same, popping⟩ := popping_after_wait fair initially code
      noRest created pushedLater fewer
    obtain ⟨last, latest, back⟩ :=
      waits_again initial fair registered subscribes initially k
    have progress := pops_after initially latest
      (fun j low => pushedLater j (Nat.le_trans after low))
      (by rw [same]; exact fewer) popping
    have notPopping : queuePart ((ρ.state last).threads i).code ≠
        [.act (.pop client q)] := by
      rcases back with hasLeft | ⟨r, rest', code', -⟩
      · rw [InLoop, not_not] at hasLeft
        simp [hasLeft]
      · simp [code', queuePart_act, Action.UsesQueue]
    have more := progress.resolve_left fun still => notPopping still.1
    rw [same] at more
    have growing := (popped_grows (ρ := ρ) (i := i) later).length_le
    refine ⟨last, by omega, .inr ⟨by omega, by omega⟩⟩

end Schedules

section Delivery

variable [DecidableEq ι]

/-- The handler does not look for the old path of a `rename`. -/
def NoLookup (code : Code) : Prop :=
  ∀ oldPath newPath client,
    .act (.findRename oldPath newPath client) ∉ code

theorem noLookup_program {request : Request}
    (noRename : ∀ oldPath newPath client,
      request ≠ .rename oldPath newPath client) : NoLookup request.program := by
  intro oldPath newPath client member
  cases request with
  | rename => exact noRename _ _ _ rfl
  | _ =>
      simp [Request.program, requestDirProgram, openProgram, closeProgram,
        closeCallback, unlinkProgram, getStatusProgram, subscribeProgram,
        cleanupProgram, monitorProgram] at member

theorem noLookup_of_exec {a : Action} {c : Choice} {w w' : Recorded}
    {t t' : HandlerLocals} {rest after : Code}
    (spared : NoLookup (.act a :: rest))
    (executes : exec a c w t rest = some (w', t', after)) : NoLookup after := by
  intro oldPath newPath client member
  rcases leaves_of_exec executes with ⟨-, rfl⟩ | ⟨front, expansion, rfl⟩
  · simp at member
  · rcases List.mem_append.mp member with inFront | inRest
    · cases expansion <;> simp at inFront
    · exact spared _ _ _ (List.mem_cons_of_mem _ inRest)

/-- Without a `rename` every schedule looks up registered paths only. -/
theorem renameRegistered_of_no_rename {s : Server} {requests : ι → Request}
    {ρ : Schedule ι exec} (initial : ρ.state 0 = Handlers.start s requests)
    (noRename : ∀ i oldPath newPath client,
      requests i ≠ .rename oldPath newPath client) (n : Nat) (label : ι × Choice) :
    RenameRegistered label (ρ.state n) := by
  have spared : ∀ n i, NoLookup ((ρ.state n).threads i).code := by
    refine Schedule.invariant_of_step
      (fun σ => ∀ i, NoLookup (σ.threads i).code) ?_
      fun n label _ _ spared steps => ?_
    · intro i
      rw [initial]
      exact noLookup_program (noRename i)
    · exact forall_thread_of_step (fun _ _ code => NoLookup code)
        (fun free _ _ _ member => free _ _ _ (List.mem_cons_of_mem _ member))
        noLookup_of_exec spared steps
  intro oldPath newPath client rest code
  exact (spared n label.1 _ _ _ (code ▸ List.mem_cons_self)).elim

/-- In a fair schedule in which each `rename` finds its old path registered and
no write of the client's `subscribe` handler fails, the handler eventually
writes what has been pushed to the client, in order and without a gap, if it was
in its loop then; and it never writes anything else. -/
theorem notifications_delivered (root : Path) (disk : FileStore Path Byte)
    (clock : Int) (requests : ι → Request) (ρ : Schedule ι exec)
    (initial : ρ.state 0 =
      Handlers.start (Server.launch root disk clock) requests)
    (subscribes : requests i = .subscribe client)
    (once : ∀ j, requests j = .subscribe client → j = i)
    (fair : ρ.Fair)
    (registered : ∀ n label, ρ.mover n = some label →
      RenameRegistered label (ρ.state n))
    (writes : ∀ n label, ρ.mover n = some label →
      WritesSucceed i label (ρ.state n)) (n : Nat) :
    ((ρ.state n).threads i).locals.delivered <+:
        pushesTo client (ρ.state n).shared.log ∧
      (InLoop ((ρ.state n).threads i).code → ∃ m, n ≤ m ∧
        pushesTo client (ρ.state n).shared.log <+:
          ((ρ.state m).threads i).locals.delivered) := by
  have initially : Streams i client [] (ρ.state 0) := by
    rw [initial]
    exact streams_start subscribes once
  have nothing : Undropped i [] (ρ.state 0) := by
    rw [initial]
    exact ⟨rfl, fun _ => rfl⟩
  have streams := streams_at initially n
  refine ⟨streams.stage.delivered_prefix.trans ⟨_, streams.faithful⟩, ?_⟩
  intro inLoop
  have draining k (later : n ≤ k) := draining_at initially writes inLoop later
  -- The number of notifications that are still to be popped decreases.
  have delivers : LeadsTo (fun k => n ≤ k) (fun k =>
      pushesTo client (ρ.state n).shared.log <+:
        ((ρ.state k).threads i).locals.delivered) := by
    apply leadsTo_of_decreasing Nat.lt_wfRel.wf (fun k =>
      (pushesTo client (ρ.state n).shared.log).length -
        (poppedNotes (usesUntil ρ i k)).length)
    intro k later
    obtain ⟨m, after, done | ⟨fewer, more⟩⟩ :=
      pops_again initial fair registered subscribes initially nothing writes
        fun j low => draining j (Nat.le_trans later low)
    · exact ⟨m, after, .inl done⟩
    · refine ⟨m, after, .inr ⟨Nat.le_trans later after, ?_⟩⟩
      change _ - _ < _ - _
      omega
  exact delivers n (Nat.le_refl n)

/-- The reader subscribes and asks for a file that the writer uploads. -/
private def readerAndUploader : Fin 3 → Request
  | 0 => .subscribe "reader"
  | 1 => .open "/srv/a" "reader"
  | 2 => .close "/srv/a" "writer" [[1]]

/-- The reader's calls wait or are over when the writer starts, whose call ends
before the notification is written. -/
private def uploadNotified : List (Fin 3 × Choice) :=
  List.replicate 4 (0, .go) ++ List.replicate 7 (1, .go) ++
    List.replicate 7 (2, .go) ++ (2, .pick "reader") ::
    List.replicate 10 (2, .go) ++ List.replicate 5 (0, .go)

/-- The upload has been pushed after 22 steps, and it is delivered. -/
theorem notifications_delivered_upload :
    ∃ ρ : Schedule (Fin 3) exec, ρ.Fair ∧ ∃ m, 22 ≤ m ∧
      [Server.updateNotification "/srv/a" 0] <+:
        ((ρ.state m).threads 0).locals.delivered := by
  obtain ⟨τ, reaches, stopped⟩ : ∃ τ, run (step exec) uploadNotified
      (Handlers.start (Server.launch "/srv" FileStore.empty 0)
        readerAndUploader) = some τ ∧ ∀ i, ¬ Enabled exec τ i := by
    refine ⟨_, rfl, fun i => ?_⟩
    match i with
    | 0 | 1 | 2 =>
        rintro ⟨choice, enabled⟩
        cases enabled
  have initial : (Schedule.stopping reaches).state 0 = Handlers.start
      (Server.launch "/srv" FileStore.empty 0) readerAndUploader := rfl
  have subscribes : readerAndUploader 0 = .subscribe "reader" := rfl
  have once : ∀ j, readerAndUploader j = .subscribe "reader" → j = 0 := by
    intro j isSubscribe
    match j with
    | 0 => rfl
    | 1 | 2 => cases isSubscribe
  have noRename : ∀ i oldPath newPath client,
      readerAndUploader i ≠ .rename oldPath newPath client := by
    intro i oldPath newPath client
    match i with
    | 0 | 1 | 2 => rintro ⟨⟩
  have writes : ∀ n label, (Schedule.stopping reaches).mover n = some label →
      WritesSucceed 0 label ((Schedule.stopping reaches).state n) := by
    rintro n label mover - ⟨_, _, _, -, failed⟩
    have member : label ∈ uploadNotified := List.mem_of_getElem? mover
    have succeed : ∀ label ∈ uploadNotified, label.2 ≠ .fail := by decide
    exact succeed label member failed
  have fair := Schedule.fair_stopping reaches stopped
  have delivered := (notifications_delivered "/srv" FileStore.empty 0
    readerAndUploader (Schedule.stopping reaches) initial subscribes once fair
    (fun n label _ => renameRegistered_of_no_rename initial noRename n label)
    writes 22).2
  exact ⟨Schedule.stopping reaches, fair, delivered (by
    intro notInLoop
    cases notInLoop)⟩

end Delivery

end DistributedFilesystem
