import DistributedFilesystem.ServerLockDiscipline

/-!
# Registered clients and their subscriptions

A client enters `file_map` through its `open` and `close` calls and
`subscribers` through its `subscribe` call, and nothing orders the two.  As
long as every registration happens while the client is subscribed and not in
the middle of being cleaned up, each registered client is subscribed in every
reachable state, and the callbacks never skip one.
-/

namespace DistributedFilesystem

open LockedThreads TransitionRuns

variable {ι : Type*}

/-- The actions that read or change `file_map`. -/
def Action.UsesFileMap : Action → Prop
  | .insertFileMap _ _ | .findClose _ _ | .findRename _ _ _
  | .moveEntry _ _ _ | .findUnlink _ _ | .eraseEntry _ | .sweepFileMap _ => True
  | _ => False

/-- The instruction works on a copy of an entry of `file_map`. -/
def Copies : Instr Lock Action → Prop
  | .act (.moveEntry _ _ _) | .act (.notifyEach _ _ _) => True
  | _ => False

/-- After the instruction a copy of an entry may be outdated. -/
def EndsCopies : Instr Lock Action → Prop
  | .unlock .fileMapMutex => True
  | .act a => a.UsesFileMap
  | _ => False

/-- The instruction belongs to the removal of the client's subscription. -/
def Unsubscribes (client : ClientId) : Instr Lock Action → Prop
  | .act (.findSubscriber other) | .act (.eraseSubscriber other) =>
      other = client
  | _ => False

/-- What may stand before what in a program: a copy of an entry is not used
after the handler released `file_map_mutex` or used `file_map` again, and
`cleanup_client` sweeps `file_map` before it turns to the subscription. -/
def Before (earlier later : Instr Lock Action) : Prop :=
  (EndsCopies earlier → ¬ Copies later) ∧
    ∀ client, Unsubscribes client earlier → later ≠ .act (.sweepFileMap client)

/-- The program is in order. -/
def InOrder (code : Code) : Prop := code.Pairwise Before

theorem inOrder_program (request : Request) : InOrder request.program := by
  cases request <;>
    simp [InOrder, Before, Copies, EndsCopies, Unsubscribes,
      Action.UsesFileMap, Request.program, requestDirProgram, openProgram,
      closeProgram, closeCallback, renameProgram, unlinkProgram,
      getStatusProgram, subscribeProgram, cleanupProgram, monitorProgram]

section Expansion

variable {s : Server} {t : HandlerLocals} {a : Action} {front : Code}

theorem endsCopies_of_expands (expansion : Expands s t a front) :
    ∀ instr ∈ front, EndsCopies instr → a.UsesFileMap := by
  cases expansion <;> simp [EndsCopies, Action.UsesFileMap]

theorem unsubscribes_of_expands (expansion : Expands s t a front)
    (client : ClientId) :
    ∀ instr ∈ front, Unsubscribes client instr →
      Unsubscribes client (.act a) := by
  cases expansion <;> simp [Unsubscribes]

theorem inOrder_of_expands {rest : Code} (inOrder : InOrder (.act a :: rest))
    (expansion : Expands s t a front) : InOrder (front ++ rest) := by
  obtain ⟨first, later⟩ := List.pairwise_cons.mp inOrder
  refine List.pairwise_append.mpr ⟨?_, later, ?_⟩
  · cases expansion <;>
      simp [Before, Copies, EndsCopies, Unsubscribes, Action.UsesFileMap]
  · intro earlier inFront instr inRest
    obtain ⟨current, ordered⟩ := first instr inRest
    exact ⟨fun ends => current (endsCopies_of_expands expansion _ inFront ends),
      fun client unsubscribes => ordered client
        (unsubscribes_of_expands expansion client _ inFront unsubscribes)⟩

theorem mutex_of_usesFileMap {ordered : Prop} {held : Set Lock} {a : Action}
    (needs : a.Needs ordered held) (uses : a.UsesFileMap) :
    .fileMapMutex ∈ held := by
  cases a <;> first | exact needs | exact needs.1 | exact uses.elim

theorem copies_of_expands (expansion : Expands s t a front) :
    ∀ instr ∈ front, Copies instr → Copies (.act a) ∨ a.UsesFileMap := by
  cases expansion <;> simp [Copies, Action.UsesFileMap]

end Expansion

/-- The lock discipline, together with the fact that copies of entries are
used under `file_map_mutex`. -/
def copyDiscipline : Discipline exec (RenameFinds False) where
  Suits held _ code :=
    Suited False held code ∧ InOrder code ∧
      ∀ instr ∈ code, Copies instr → .fileMapMutex ∈ held
  nil suits := suits.1
  lock := by
    rintro held t l rest ⟨suited, inOrder, guarded⟩ fresh
    refine ⟨suited.2 fresh, (List.pairwise_cons.mp inOrder).2, ?_⟩
    intro instr member copies
    exact .inr (guarded instr (List.mem_cons_of_mem _ member) copies)
  unlock := by
    rintro held t l rest ⟨⟨owned, suited⟩, inOrder, guarded⟩
    obtain ⟨first, later⟩ := List.pairwise_cons.mp inOrder
    refine ⟨owned, suited, later, fun instr member copies => ⟨?_, ?_⟩⟩
    · exact guarded instr (List.mem_cons_of_mem _ member) copies
    · rintro rfl
      exact (first instr member).1 trivial copies
  act := by
    rintro held t a rest c w w' t' after ⟨suited, inOrder, guarded⟩ registered
      executes
    refine ⟨(lockDiscipline False).act suited registered executes, ?_⟩
    rcases leaves_of_exec executes with ⟨-, rfl⟩ | ⟨front, expansion, rfl⟩
    · exact ⟨.nil, by simp⟩
    refine ⟨inOrder_of_expands inOrder expansion, fun instr member copies => ?_⟩
    rcases List.mem_append.mp member with inFront | inRest
    · rcases copies_of_expands expansion instr inFront copies with copying | uses
      · exact guarded _ List.mem_cons_self copying
      · exact mutex_of_usesFileMap suited.1 uses
    · exact guarded instr (List.mem_cons_of_mem _ inRest) copies

/-- A copy of an entry agrees with the entry. -/
def Backed (map : ClientMap) : Instr Lock Action → Prop
  | .act (.moveEntry oldPath _ clients) => map oldPath = some clients
  | .act (.notifyEach _ _ remaining) =>
      ∃ path clients, map path = some clients ∧ remaining ⊆ clients
  | _ => True

theorem backed_of_not_copies {map : ClientMap} {instr : Instr Lock Action}
    (notCopies : ¬ Copies instr) : Backed map instr := by
  unfold Backed
  split
  · exact (notCopies trivial).elim
  · exact (notCopies trivial).elim
  · trivial

section FileMap

variable {s : Server} {t : HandlerLocals} {a : Action} {front : Code}
variable {map : ClientMap}

theorem fileMapAfter_eq (unused : ¬ a.UsesFileMap) :
    a.fileMapAfter map = map := by
  cases a <;> first | rfl | exact (unused trivial).elim

theorem backed_of_expands (backed : Backed s.fileMap (.act a))
    (expansion : Expands s t a front) :
    ∀ instr ∈ front, Backed (a.fileMapAfter s.fileMap) instr := by
  cases expansion with
  | notifyClose path client clients entry =>
      simp only [List.forall_mem_cons, Backed, Action.fileMapAfter, entry]
      exact ⟨trivial, ⟨path, clients, entry, subset_rfl⟩, trivial, by simp⟩
  | notifyRename oldPath newPath client clients entry =>
      simp only [List.forall_mem_cons, Backed, Action.fileMapAfter]
      exact ⟨trivial, ⟨oldPath, clients, entry, subset_rfl⟩, trivial, entry,
        by simp⟩
  | notifyUnlink path client clients entry =>
      simp only [List.forall_mem_cons, Backed, Action.fileMapAfter]
      exact ⟨trivial, ⟨path, clients, entry, subset_rfl⟩, trivial, by simp⟩
  | pushNext client receiver q notif remaining isMember other queue =>
      obtain ⟨path, clients, entry, subset⟩ := backed
      simp only [List.forall_mem_cons, Backed, Action.fileMapAfter]
      exact ⟨trivial, trivial, trivial,
        ⟨path, clients, entry, (Finset.erase_subset _ _).trans subset⟩, by simp⟩
  | skipNext client receiver notif remaining isMember skipped =>
      obtain ⟨path, clients, entry, subset⟩ := backed
      simp only [List.forall_mem_cons, Backed, Action.fileMapAfter]
      exact ⟨⟨path, clients, entry, (Finset.erase_subset _ _).trans subset⟩,
        by simp⟩
  | _ => simp [Backed]

/-- Who is registered after an action was registered before, or is registered
by the action. -/
theorem registered_of_fileMapAfter (backed : Backed map (.act a))
    {path : Path} {client : ClientId}
    (registered : (a.fileMapAfter map).Registered path client) :
    (∃ before, map.Registered before client) ∨
      a = .insertFileMap path client ∨
        a = .findClose path client ∧ map path = none := by
  cases a with
  | insertFileMap other member =>
      rcases ClientMap.registered_insertClient.mp registered with
        before | ⟨rfl, rfl⟩
      · exact .inl ⟨path, before⟩
      · exact .inr (.inl rfl)
  | findClose other member =>
      simp only [Action.fileMapAfter] at registered
      split at registered
      · exact .inl ⟨path, registered⟩
      · next missing =>
          rcases ClientMap.registered_insertClient.mp registered with
            before | ⟨rfl, rfl⟩
          · exact .inl ⟨path, before⟩
          · exact .inr (.inr ⟨rfl, missing⟩)
  | moveEntry oldPath newPath clients =>
      obtain ⟨members, entry, member⟩ := registered
      simp only [Action.fileMapAfter] at entry
      by_cases isOld : path = oldPath
      · simp [isOld] at entry
      · rw [Function.update_of_ne isOld] at entry
        by_cases isNew : path = newPath
        · obtain rfl : clients = members := by simpa [isNew] using entry
          exact .inl ⟨oldPath, clients, backed, member⟩
        · rw [Function.update_of_ne isNew] at entry
          exact .inl ⟨path, members, entry, member⟩
  | eraseEntry other =>
      obtain ⟨members, entry, member⟩ := registered
      simp only [Action.fileMapAfter] at entry
      by_cases same : path = other
      · simp [same] at entry
      · rw [Function.update_of_ne same] at entry
        exact .inl ⟨path, members, entry, member⟩
  | sweepFileMap other =>
      exact .inl ⟨path, ClientMap.registered_of_sweepClient registered⟩
  | _ => exact .inl ⟨path, registered⟩

end FileMap

/-! ## Registered clients are subscribed -/

/-- The handler has swept the client from `file_map` and is about to remove
its subscription. -/
def Swept (client : ClientId) (code : Code) : Prop :=
  .act (.sweepFileMap client) ∉ code ∧ ∃ instr ∈ code, Unsubscribes client instr

/-- The client is subscribed, and no handler is about to change that. -/
def StaysSubscribed (client : ClientId) (σ : Handlers ι) : Prop :=
  (σ.shared.server.subscribers client).isSome ∧
    ∀ i, ¬ Swept client (σ.threads i).code

/-- If the step registers a client, the client is subscribed to stay. -/
def RegistersSubscribed (label : ι × Choice) (σ : Handlers ι) : Prop :=
  ∀ path client rest,
    ((σ.threads label.1).code = .act (.insertFileMap path client) :: rest ∨
      (σ.threads label.1).code = .act (.findClose path client) :: rest ∧
        σ.shared.server.fileMap path = none) →
    StaysSubscribed client σ

/-- The invariant. -/
structure Served (σ : Handlers ι) : Prop where
  suits : copyDiscipline.Holds σ
  backed : ∀ i, ∀ instr ∈ (σ.threads i).code,
    Backed σ.shared.server.fileMap instr
  subscribed : ∀ path client,
    σ.shared.server.fileMap.Registered path client → StaysSubscribed client σ

theorem swept_of_tail {client : ClientId} {instr : Instr Lock Action}
    {rest : Code} (notSweep : instr ≠ .act (.sweepFileMap client))
    (swept : Swept client rest) : Swept client (instr :: rest) := by
  obtain ⟨noSweep, other, member, unsubscribes⟩ := swept
  refine ⟨?_, other, List.mem_cons_of_mem _ member, unsubscribes⟩
  simp [noSweep, Ne.symm notSweep]

theorem swept_of_leaves {client : ClientId} {s : Server} {t : HandlerLocals}
    {a : Action} {rest after : Code}
    (notSweep : a ≠ .sweepFileMap client) (leaves : Leaves s t a rest after)
    (swept : Swept client after) : Swept client (.act a :: rest) := by
  obtain ⟨noSweep, instr, member, unsubscribes⟩ := swept
  rcases leaves with ⟨-, rfl⟩ | ⟨front, expansion, rfl⟩
  · simp at member
  have noSweepAfter : .act (.sweepFileMap client) ∉ Instr.act a :: rest := by
    simp only [List.mem_append, not_or] at noSweep
    simp [noSweep.2, Ne.symm notSweep]
  rcases List.mem_append.mp member with inFront | inRest
  · exact ⟨noSweepAfter, _, List.mem_cons_self,
      unsubscribes_of_expands expansion client _ inFront unsubscribes⟩
  · exact ⟨noSweepAfter, _, List.mem_cons_of_mem _ inRest, unsubscribes⟩

theorem backed_rest {a : Action} {rest : Code} {map : ClientMap}
    (inOrder : InOrder (.act a :: rest))
    (backed : ∀ instr ∈ rest, Backed map instr) :
    ∀ instr ∈ rest, Backed (a.fileMapAfter map) instr := by
  intro instr member
  by_cases uses : a.UsesFileMap
  · exact backed_of_not_copies
      (((List.pairwise_cons.mp inOrder).1 instr member).1 uses)
  · rw [fileMapAfter_eq uses]
    exact backed instr member

section Runs

variable [DecidableEq ι] {label : ι × Choice} {σ σ' : Handlers ι}

theorem suits_of_step (served : Served σ)
    (steps : step exec label σ = some σ') : copyDiscipline.Holds σ' :=
  copyDiscipline.holds_of_step served.suits (fun _ _ _ => False.elim) steps

/-- Copies agree with their entries, because two handlers never have one at
the same time. -/
theorem backed_of_step (served : Served σ)
    (steps : step exec label σ = some σ') (i : ι) :
    ∀ instr ∈ (σ'.threads i).code,
      Backed σ'.shared.server.fileMap instr := by
  have ofI := served.backed i
  have apart := (moved_of_step steps).threads_ne (j := i)
  cases (moved_of_step steps).advanced with
  | quiet head rest notAct code shared thread =>
      rw [shared]
      by_cases self : i = label.1
      · subst self
        rw [code] at ofI
        rw [thread]
        exact (List.forall_mem_cons.mp ofI).2
      · rw [apart self]
        exact ofI
  | act a rest after locals code executes thread =>
      have suits := served.suits label.1
      have mine := served.backed label.1
      rw [code] at suits mine
      obtain ⟨suited, inOrder, -⟩ := suits
      obtain ⟨ofHead, ofRest⟩ := List.forall_mem_cons.mp mine
      rw [fileMap_of_exec executes]
      by_cases self : i = label.1
      · subst self
        rw [thread]
        rcases leaves_of_exec executes with ⟨-, rfl⟩ | ⟨front, expansion, rfl⟩
        · simp
        · exact List.forall_mem_append.mpr
            ⟨backed_of_expands ofHead expansion, backed_rest inOrder ofRest⟩
      · rw [apart self]
        intro instr member
        by_cases uses : a.UsesFileMap
        · apply backed_of_not_copies
          intro copies
          exact self (State.eq_of_mem_held
            ((served.suits i).2.2 instr member copies)
            (mutex_of_usesFileMap suited.1 uses))
        · rw [fileMapAfter_eq uses]
          exact ofI instr member

/-- A client that stays registered was not swept, and stays subscribed. -/
theorem subscribed_of_step (served : Served σ)
    (meets : RegistersSubscribed label σ)
    (steps : step exec label σ = some σ') {path : Path} {client : ClientId}
    (registered : σ'.shared.server.fileMap.Registered path client) :
    StaysSubscribed client σ' := by
  have apart : ∀ i, i ≠ label.1 → σ'.threads i = σ.threads i :=
    fun i => (moved_of_step steps).threads_ne
  cases (moved_of_step steps).advanced with
  | quiet head rest notAct code shared thread =>
      rw [shared] at registered
      obtain ⟨subscribed, notSwept⟩ := served.subscribed path client registered
      refine ⟨by rwa [shared], fun i swept => notSwept i ?_⟩
      by_cases self : i = label.1
      · subst self
        rw [thread] at swept
        rw [code]
        exact swept_of_tail (notAct _) swept
      · rwa [apart i self] at swept
  | act a rest after locals code executes thread =>
      have mine := served.backed label.1
      have inOrder := (served.suits label.1).2.1
      rw [code] at mine inOrder
      rw [fileMap_of_exec executes] at registered
      obtain ⟨subscribed, notSwept⟩ : StaysSubscribed client σ := by
        rcases registered_of_fileMapAfter (mine _ List.mem_cons_self)
          registered with ⟨before, registered⟩ | rfl | ⟨rfl, missing⟩
        · exact served.subscribed before client registered
        · exact meets path client rest (.inl code)
        · exact meets path client rest (.inr ⟨code, missing⟩)
      have notSweep : a ≠ .sweepFileMap client := by
        rintro rfl
        exact ClientMap.not_registered_sweepClient registered
      refine ⟨?_, fun i swept => notSwept i ?_⟩
      · rw [subscribers_of_exec executes]
        cases a with
        | insertSubscriber other q =>
            by_cases same : client = other
            · simp [Action.subscribersAfter, same]
            · simpa [Action.subscribersAfter, same] using subscribed
        | eraseSubscriber other =>
            have different : client ≠ other := by
              rintro rfl
              refine notSwept label.1 ?_
              rw [code]
              refine ⟨?_, _, List.mem_cons_self, rfl⟩
              rintro member
              rcases List.mem_cons.mp member with head | inRest
              · simp at head
              · exact ((List.pairwise_cons.mp inOrder).1 _ inRest).2 client rfl
                  rfl
            simpa [Action.subscribersAfter, different] using subscribed
        | _ => exact subscribed
      · by_cases self : i = label.1
        · subst self
          rw [thread] at swept
          rw [code]
          exact swept_of_leaves notSweep (leaves_of_exec executes) swept
        · rwa [apart i self] at swept

theorem served_of_step (served : Served σ) (meets : RegistersSubscribed label σ)
    (steps : step exec label σ = some σ') : Served σ' where
  suits := suits_of_step served steps
  backed := backed_of_step served steps
  subscribed _ _ := subscribed_of_step served meets steps

end Runs

/-- No handler starts with a copy of an entry. -/
theorem not_copies_program (request : Request) :
    ∀ instr ∈ request.program, ¬ Copies instr := by
  cases request <;>
    simp [Copies, Request.program, requestDirProgram, openProgram,
      closeProgram, closeCallback, renameProgram, unlinkProgram,
      getStatusProgram, subscribeProgram, cleanupProgram, monitorProgram]

/-- No handler starts in the middle of `cleanup_client`. -/
theorem not_swept_program (request : Request) (client : ClientId) :
    ¬ Swept client request.program := by
  cases request <;>
    simp [Swept, Unsubscribes, Request.program, requestDirProgram,
      openProgram, closeProgram, closeCallback, renameProgram, unlinkProgram,
      getStatusProgram, subscribeProgram, cleanupProgram, monitorProgram]
  tauto

theorem served_start (s : Server) (requests : ι → Request)
    (consistent : ∀ path client, s.fileMap.Registered path client →
      (s.subscribers client).isSome) : Served (Handlers.start s requests) where
  suits i :=
    ⟨holds_start False s requests i, inOrder_program (requests i),
      fun instr member copies =>
        (not_copies_program (requests i) instr member copies).elim⟩
  backed i instr member :=
    backed_of_not_copies (not_copies_program (requests i) instr member)
  subscribed path client registered :=
    ⟨consistent path client registered,
      fun i => not_swept_program (requests i) client⟩

/-- When each registration happens while the client is subscribed to stay,
every registered client is subscribed in every reachable state, and the loops
of the callbacks never skip a client for lack of a subscription. -/
theorem registered_subscribed [DecidableEq ι] (s : Server)
    (requests : ι → Request)
    (consistent : ∀ path client, s.fileMap.Registered path client →
      (s.subscribers client).isSome)
    (labels : List (ι × Choice)) {σ : Handlers ι}
    (reaches : run (step exec) labels (Handlers.start s requests) = some σ)
    (meets : Along (step exec) RegistersSubscribed labels
      (Handlers.start s requests)) :
    (∀ path client, σ.shared.server.fileMap.Registered path client →
      (σ.shared.server.subscribers client).isSome) ∧
    ∀ i client notif remaining rest,
      (σ.threads i).code = .act (.notifyEach client notif remaining) :: rest →
      ∀ receiver ∈ remaining,
        (σ.shared.server.subscribers receiver).isSome := by
  have served : Served σ :=
    invariant_of_run (fun _ _ _ meets served => served_of_step served meets)
      reaches meets (served_start s requests consistent)
  refine ⟨fun path client registered =>
    (served.subscribed path client registered).1, ?_⟩
  intro i client notif remaining rest code receiver member
  have backed := served.backed i
  rw [code] at backed
  obtain ⟨path, clients, entry, subset⟩ := backed _ List.mem_cons_self
  exact (served.subscribed path receiver ⟨clients, entry, subset member⟩).1

/-- A server with one file. -/
private def oneFile : Server :=
  Server.launch "/srv" (FileStore.empty.create "/srv/a" 0) 0

/-- The client opens a file once it is subscribed. -/
theorem registered_subscribed_open :
    ∃ σ : Handlers Unit,
      (∀ path client, σ.shared.server.fileMap.Registered path client →
        (σ.shared.server.subscribers client).isSome) ∧
      σ.shared.server.fileMap "/srv/a" = some {"client"} := by
  let s := { oneFile with
    subscribers := Function.update oneFile.subscribers "client" (some 0) }
  have consistent path client (registered : s.fileMap.Registered path client) :
      (s.subscribers client).isSome := by
    obtain ⟨clients, entry, -⟩ := registered
    simp [s, oneFile, Server.launch] at entry
  have done := registered_subscribed s
    (fun _ : Unit => .open "/srv/a" "client") consistent
    [((), .go), ((), .go)] rfl (by
      refine ⟨?_, fun next stepEq => ⟨?_, fun _ _ => trivial⟩⟩
      · rintro path client rest (code | ⟨code, -⟩) <;> cases code
      · cases stepEq
        rintro path client rest (code | ⟨code, -⟩) <;> cases code
        exact ⟨rfl, by simp [Swept, Unsubscribes]⟩)
  exact ⟨_, done.1, rfl⟩

/-- A client whose `open` call overtakes its `subscribe` call is registered but
has no queue. -/
theorem open_before_subscribe :
    ∃ labels σ,
      run (step exec) labels (Handlers.start oneFile fun isOpen : Bool =>
        if isOpen then .open "/srv/a" "client" else .subscribe "client") =
          some σ ∧
      σ.shared.server.fileMap.Registered "/srv/a" "client" ∧
      σ.shared.server.subscribers "client" = none :=
  ⟨[(true, .go), (true, .go)], _, rfl, ⟨_, rfl, by decide⟩, rfl⟩

end DistributedFilesystem
