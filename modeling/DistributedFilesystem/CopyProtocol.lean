import DistributedFilesystem.CopyCoherence

/-!
# The cluster follows the protocol

Every event of a cluster takes a few steps of the protocol of callback promises
for each file, or none.
-/

namespace DistributedFilesystem

open CallbackPromises TransitionRuns

namespace Cluster

section Sections

variable {members : Set ClientId} {σ : Cluster} {client : ClientId}
variable {path other : Path} {answers : LocalAnswers}
variable {result : Client × Server × CallPhase}

/-! ## Who is about to notify the others -/

theorem changing_of_notifies (member : client ∈ members)
    (after : result.2.2.Notifies) :
    {other : members | if other = client then result.2.2.Notifies
      else (σ.calls other path).Notifies} =
      insert ⟨client, member⟩ (σ.promises members path).changing := by
  ext ⟨other, isMember⟩
  by_cases sameClient : other = client
  · subst sameClient
    simp [after]
  · simp [promises, sameClient]

theorem changing_of_not_notifies (member : client ∈ members)
    (after : ¬ result.2.2.Notifies) :
    {other : members | if other = client then result.2.2.Notifies
      else (σ.calls other path).Notifies} =
      (σ.promises members path).changing \ {⟨client, member⟩} := by
  ext ⟨other, isMember⟩
  by_cases sameClient : other = client
  · subst sameClient
    simp [after]
  · simp [promises, sameClient]

/-! ## The sections of a call -/

theorem steps_of_opening (isOrderly : σ.Orderly members)
    (member : client ∈ members) {left : Nat}
    (phase : σ.calls client path = .opening left) :
    Relation.ReflTransGen Step (σ.promises members path)
      ((σ.afterSection client path (σ.clients client,
        σ.server.registerOpen path (σ.clients client).clientId,
        .reading left)).promises members path) := by
  have isClient := isOrderly.clientIds client member
  have registered : Relation.ReflTransGen Step (σ.promises members path)
      { σ.promises members path with
        registered := insert ⟨client, member⟩
          (σ.promises members path).registered } :=
    .single (.register _)
  refine registered.tail ?_
  have after : (σ.afterSection client path (σ.clients client,
      σ.server.registerOpen path (σ.clients client).clientId,
      .reading left)).promises members path =
      State.hold { σ.promises members path with
        registered := insert ⟨client, member⟩
          (σ.promises members path).registered }
        ⟨client, member⟩ .awaiting := by
    rw [promises_afterSection member,
      changing_of_not_notifies member (by exact id)]
    ext1
    case current => rfl
    case holding => rfl
    case registered =>
      ext ⟨other, isMember⟩
      simp [promises, State.hold, Server.registerOpen, isClient,
        ClientMap.registered_insertClient, or_comm]
    case waiting => rfl
    case changing =>
      ext ⟨other, isMember⟩
      suffices (σ.calls other path).Notifies → other ≠ client by
        simpa [promises, State.hold] using this
      rintro notifies rfl
      rw [phase] at notifies
      exact notifies
  rw [after]
  exact .await _ (Set.mem_insert _ _)

theorem steps_of_reading (member : client ∈ members) {left : Nat}
    (phase : σ.calls client path = .reading left) :
    Relation.ReflTransGen Step (σ.promises members path)
      ((σ.afterSection client path (σ.clients client, σ.server,
        .answered left (σ.server.sendFile path .success).1
          (σ.server.sendFile path .success).2)).promises members path) := by
  rw [promises_of_quiet member rfl (by rw [phase]; exact id) (by exact id)]
  cases read : σ.server.disk.read path with
  | none =>
      have nothing : (CallPhase.answered left
          (σ.server.sendFile path .success).1
          (σ.server.sendFile path .success).2).holding path
            (σ.clients client) = .nothing := by
        simp [CallPhase.holding, Server.sendFile, read, Status.isOk]
      rw [nothing]
      exact .single (.forget _)
  | some contents =>
      have copy : (CallPhase.answered left
          (σ.server.sendFile path .success).1
          (σ.server.sendFile path .success).2).holding path
            (σ.clients client) =
          .copy (σ.promises members path).current := by
        simp [CallPhase.holding, Server.sendFile, read, promises,
          Client.downloaded_openResponses]
      rw [copy]
      have awaits : (σ.promises members path).holding ⟨client, member⟩ =
          .awaiting := by
        simp [promises, phase, CallPhase.holding]
      exact .single (.fetch _ awaits)

/-- A section that changes the file stores it. -/
theorem steps_of_change (member : client ∈ members)
    (fileMap : result.2.1.fileMap = σ.server.fileMap)
    (pending : ∀ other, result.2.1.pending other = σ.server.pending other)
    (after : result.2.2.Notifies)
    (keeps : result.2.2.holding path result.1 = .nothing ∨
      result.2.2.holding path result.1 =
        .copy (result.2.1.disk.read path))
    (watched : ∀ other ∈ members, other ≠ client → ∀ timestamp,
      σ.calls other path = .received timestamp → σ.Watches other path) :
    Relation.ReflTransGen Step (σ.promises members path)
      ((σ.afterSection client path result).promises members path) := by
  have isAfter : (σ.afterSection client path result).promises members path =
      { (σ.promises members path).hold ⟨client, member⟩
          (result.2.2.holding path result.1) with
        current := result.2.1.disk.read path
        changing := insert ⟨client, member⟩
          (σ.promises members path).changing } := by
    rw [promises_afterSection member, changing_of_notifies member after]
    ext1
    case current => rfl
    case holding => rfl
    case registered =>
      rw [fileMap]
      rfl
    case waiting =>
      ext ⟨other, isMember⟩
      simp [promises, State.hold, Waiting, undelivered, pending]
    case changing => rfl
  rw [isAfter]
  refine .single (.store _ _ _ keeps ?_)
  rintro ⟨other, isMember⟩ changing different holds
  have notSame : other ≠ client := fun same =>
    different (Subtype.ext same)
  -- Only an upload leaves its client with a copy.
  simp only [promises, Set.mem_ofPred_eq] at changing
  cases phase : σ.calls other path with
  | received timestamp => exact watched other isMember notSame timestamp phase
  | removed => simp [promises, phase, CallPhase.holding] at holds
  | _ =>
      rw [phase] at changing
      exact changing.elim

/-- The clients that an announcement reaches wait for a notification. -/
theorem waiting_of_announces (isOrderly : σ.Orderly members)
    (member : client ∈ members) {s : Server}
    (announces : σ.server.Announces path client s) :
    (σ.promises members path).waiting ⊆
        {other | Waiting { σ with server := s } other path} ∧
      ∀ other ∈ (σ.promises members path).registered,
        other ≠ ⟨client, member⟩ →
          other ∈ {other : members | Waiting { σ with server := s } other path} := by
  constructor
  · rintro ⟨other, isMember⟩ waiting
    obtain ⟨notes, pending, -⟩ :=
      announces.pending other (isOrderly.subscribed other isMember)
    exact waiting_of_pending pending waiting
  · rintro ⟨other, isMember⟩ registered different
    obtain ⟨notes, pending, about, announced⟩ :=
      announces.pending other (isOrderly.subscribed other isMember)
    have notSame : other ≠ client := fun same => different (Subtype.ext same)
    obtain ⟨note, isNote⟩ := List.exists_mem_of_ne_nil notes
      (announced registered notSame)
    refine ⟨note, ?_, about note isNote⟩
    simp [undelivered, pending, isNote]

theorem steps_of_received (isOrderly : σ.Orderly members)
    (member : client ∈ members) {timestamp : Int}
    (phase : σ.calls client path = .received timestamp)
    (watched : σ.server.fileMap path = none ∨ σ.Watches client path) :
    Relation.ReflTransGen Step (σ.promises members path)
      ((σ.afterSection client path (σ.clients client,
        σ.server.finishClose path (σ.clients client).clientId timestamp,
        .uploaded timestamp)).promises members path) := by
  have isClient := isOrderly.clientIds client member
  rw [isClient]
  have fileMap := fileMap_finishClose σ.server path client timestamp
  obtain ⟨keeps, told⟩ := waiting_of_announces isOrderly member
    (Server.announces_finishClose σ.server path client timestamp)
  -- The client keeps what it uploaded.
  have holding : Function.update (σ.promises members path).holding
      ⟨client, member⟩ ((CallPhase.uploaded timestamp).holding path
        (σ.clients client)) = (σ.promises members path).holding := by
    apply Function.update_eq_self_iff.mpr
    simp [promises, phase, CallPhase.holding]
  have disk := Server.disk_finishClose σ.server path client timestamp
  rw [promises_afterSection member, holding,
    changing_of_not_notifies member (by exact id)]
  dsimp only
  rw [disk, fileMap]
  cases entry : σ.server.fileMap path with
  | some clients =>
      have watches : (σ.promises members path).Watches ⟨client, member⟩ :=
        watched.resolve_left (by simp [entry])
      have announces := Step.announce ⟨client, member⟩ _ (.inr watches) keeps
        told
      exact .single announces
  | none =>
      -- Nobody is registered, so the client registers itself.
      have registered : {other : members | (σ.server.fileMap.insertClient path
            client).Registered path other} =
          insert ⟨client, member⟩ (σ.promises members path).registered := by
        ext ⟨other, isMember⟩
        simp [promises, ClientMap.registered_insertClient, or_comm]
      dsimp only
      rw [registered]
      exact steps_registering (⟨client, member⟩ : members) keeps told

theorem steps_of_removed (isOrderly : σ.Orderly members)
    (member : client ∈ members)
    (phase : σ.calls client path = .removed) :
    Relation.ReflTransGen Step (σ.promises members path)
      ((σ.afterSection client path (σ.clients client,
        σ.server.fileChangeCallbackUnlink path (σ.clients client).clientId
          (Server.deleteNotification path),
        .deleted Status.OK)).promises members path) := by
  have isClient := isOrderly.clientIds client member
  rw [isClient]
  have isAnnounced : σ.server.Announces path client
      (σ.server.fileChangeCallbackUnlink path client
        (Server.deleteNotification path)) :=
    Server.announces_fileChangeCallbackUnlink σ.server client _ rfl
  obtain ⟨keeps, told⟩ := waiting_of_announces isOrderly member isAnnounced
  have nothing : (σ.promises members path).holding ⟨client, member⟩ =
      .nothing := by
    simp [promises, phase, CallPhase.holding]
  have holding : Function.update (σ.promises members path).holding
      ⟨client, member⟩ ((CallPhase.deleted Status.OK).holding path
        (σ.clients client)) = (σ.promises members path).holding := by
    rw [Function.update_eq_self_iff, nothing]
    rfl
  have registered : {other : members |
      (σ.server.fileChangeCallbackUnlink path client
        (Server.deleteNotification path)).fileMap.Registered path other} = ∅ := by
    ext ⟨other, isMember⟩
    simp [Server.fileMap_fileChangeCallbackUnlink, ClientMap.Registered]
  rw [promises_afterSection member, holding,
    changing_of_not_notifies member (by exact id)]
  dsimp only
  rw [registered, Server.disk_fileChangeCallbackUnlink]
  have withdraws := Step.withdraw ⟨client, member⟩ _ nothing keeps told
  exact .single withdraws

/-- The section of a call that comes next. -/
theorem steps_of_advance (isOrderly : σ.Orderly members)
    (keeps : (ClusterEvent.advance client path answers).KeepsPromises members σ)
    (advances : (σ.calls client path).advance answers path (σ.clients client)
      σ.server = some result) :
    Relation.ReflTransGen Step (σ.promises members path)
      ((σ.afterSection client path result).promises members path) := by
  obtain ⟨member, watches, othersWatch, -⟩ := keeps
  have orderly := isOrderly.orderly client member path
  cases phase : σ.calls client path with
  | idle => simp [phase, CallPhase.advance] at advances
  | opening left =>
      rw [phase] at advances
      obtain rfl := Option.some.inj advances
      exact steps_of_opening isOrderly member phase
  | reading left =>
      rw [phase] at advances
      obtain rfl := Option.some.inj advances
      exact steps_of_reading member phase
  | answered left responses status =>
      rw [phase] at advances orderly
      rw [advance_answered] at advances
      obtain rfl := Option.some.inj advances
      apply steps_of_quiet member rfl (by rw [phase]; exact id)
      · rcases phase_storeAnswer answers path (σ.clients client) left responses
          status with after | ⟨_, after⟩ | ⟨after, -⟩ <;>
        · dsimp only
          rw [after]
          exact id
      · rw [phase]
        exact holding_storeAnswer orderly.covered.1 left responses status
  | entered =>
      rw [phase] at advances
      obtain rfl := Option.some.inj advances
      apply steps_of_quiet member rfl (by rw [phase]; exact id) (by exact id)
      rw [phase]
      exact holding_finishOpen (.inl (by simp [Client.eraseCache]))
  | hit =>
      rw [phase] at advances
      obtain rfl := Option.some.inj advances
      apply steps_of_quiet member rfl (by rw [phase]; exact id) (by exact id)
      rw [phase]
      exact holding_finishOpen (.inr rfl)
  | created =>
      rw [phase] at advances orderly
      obtain rfl := Option.some.inj advances
      apply steps_of_quiet member rfl (by rw [phase]; exact id) (by exact id)
      exact .inr (cleanCopy_finishCreate orderly.covered)
  | uploading requests =>
      rw [phase] at advances orderly
      obtain rfl := Option.some.inj advances
      apply steps_of_change member rfl (fun _ => rfl)
      · trivial
      · -- The upload carries the local file.
        have carried := orderly.carries requests rfl
        simp only [CallPhase.holding, Server.read_receiveFile, carried]
        split
        · exact .inr rfl
        · exact .inl rfl
      · exact othersWatch (by rw [phase]; trivial)
  | received timestamp =>
      rw [phase] at advances
      obtain rfl := Option.some.inj advances
      exact steps_of_received isOrderly member phase (watches timestamp phase)
  | uploaded timestamp =>
      rw [phase] at advances
      obtain rfl := Option.some.inj advances
      apply steps_of_quiet member rfl (by rw [phase]; exact id) (by exact id)
      rw [phase]
      exact .inl (cleanCopy_finishUpload timestamp)
  | removing =>
      rw [phase] at advances
      simp only [CallPhase.advance] at advances
      split at advances
      · obtain rfl := Option.some.inj advances
        exact steps_of_quiet member rfl (by rw [phase]; exact id) (by exact id)
          (.inr rfl)
      · obtain rfl := Option.some.inj advances
        apply steps_of_change member rfl (fun _ => rfl)
        · trivial
        · exact .inl rfl
        · exact othersWatch (by rw [phase]; trivial)
  | removed =>
      rw [phase] at advances
      obtain rfl := Option.some.inj advances
      exact steps_of_removed isOrderly member phase
  | deleted status =>
      rw [phase] at advances orderly
      obtain rfl := Option.some.inj advances
      apply steps_of_quiet member rfl (by rw [phase]; exact id) (by exact id)
      right
      apply cleanCopy_of_uncached
      dsimp only
      split <;> exact orderly.covered

/-- A section of a call for another file. -/
theorem promises_of_advance_ne (isOrderly : σ.Orderly members)
    (apart : other ≠ path)
    (advances : (σ.calls client path).advance answers path (σ.clients client)
      σ.server = some result) :
    (σ.afterSection client path result).promises members other =
      σ.promises members other := by
  apply promises_afterSection_ne apart (sameElsewhere_of_advance advances)
    (read_of_advance_ne apart advances) (fileMap_of_advance_ne apart advances)
  intro member isMember
  obtain ⟨notes, pending, about, -⟩ :=
    pending_of_advance advances (isOrderly.subscribed member isMember)
  exact ⟨notes, pending, about⟩

end Sections

section Events

variable {members : Set ClientId} {σ : Cluster} {client : ClientId}
variable {path : Path} {answers : LocalAnswers}

theorem steps_of_start (isOrderly : σ.Orderly members) {call : FileCall}
    (keeps : (ClusterEvent.start client path call answers).KeepsPromises members σ)
    (idle : σ.calls client path = .idle) (other : Path) :
    Relation.ReflTransGen Step (σ.promises members other)
      ((σ.afterSection client path
        ((call.begin answers path (σ.clients client)).1, σ.server,
          (call.begin answers path (σ.clients client)).2)).promises members
        other) := by
  obtain ⟨member, works⟩ := keeps
  by_cases same : other = path
  · subst same
    apply steps_of_quiet member rfl (by rw [idle]; exact id)
      (not_notifies_begin call)
    rw [idle]
    exact holding_begin call works
  · have unchanged : (σ.afterSection client path
        ((call.begin answers path (σ.clients client)).1, σ.server,
          (call.begin answers path (σ.clients client)).2)).promises members
        other = σ.promises members other := by
      apply promises_afterSection_ne same
        (sameElsewhere_begin (isOrderly.ownsNodes client member) call)
      · rfl
      · rfl
      · exact fun member _ => ⟨[], (List.append_nil _).symm, by simp⟩
    rw [unchanged]

theorem promises_of_send (isOrderly : σ.Orderly members) {note : Notification}
    {s : Server} (pops : σ.server.popNotification client = some (note, s))
    (path : Path) :
    promises members path { σ with
      server := s
      inFlight := Function.update σ.inFlight client
        (σ.inFlight client ++ [note]) } = σ.promises members path := by
  obtain ⟨disk, fileMap, -⟩ := Server.popNotification_eq_some pops
  have undelivered := undelivered_of_send isOrderly.toSubscribed pops
  ext1
  case current => simp [promises, disk]
  case holding => rfl
  case registered => simp [promises, fileMap]
  case waiting => simp [promises, Waiting, undelivered]
  case changing => rfl

section Deliver

variable {note : Notification} {notes : List Notification}

/-- The subscriber thread has taken the notification. -/
theorem waiting_delivered (inFlight : σ.inFlight client = note :: notes)
    (clients : ClientId → Client) (other : ClientId) (path : Path) :
    Waiting { σ with
        clients := clients
        inFlight := Function.update σ.inFlight client notes } other path ↔
      if other = client ∧ path = note.directory then
        Waiting { σ with inFlight := Function.update σ.inFlight client notes }
          client note.directory
      else σ.Waiting other path := by
  split
  · next same =>
      obtain ⟨rfl, rfl⟩ := same
      exact Iff.rfl
  · next apart =>
      constructor
      · rintro ⟨next, isWaiting, about⟩
        refine ⟨next, ?_, about⟩
        unfold undelivered at isWaiting ⊢
        by_cases same : other = client
        · subst same
          rw [inFlight]
          exact List.mem_cons_of_mem _ (by simpa using isWaiting)
        · simpa [same] using isWaiting
      · exact waiting_of_deliver inFlight clients fun same samePath =>
          apart ⟨same, samePath⟩

theorem steps_of_deliver
    (keeps : (ClusterEvent.deliver client).KeepsPromises members σ)
    (inFlight : σ.inFlight client = note :: notes) (path : Path) :
    Relation.ReflTransGen Step (σ.promises members path)
      (promises members path { σ with
        clients := Function.update σ.clients client
          ((σ.clients client).processNotification note)
        inFlight := Function.update σ.inFlight client notes }) := by
  obtain ⟨member, takes⟩ := keeps
  have waits := waiting_delivered inFlight (Function.update σ.clients client
    ((σ.clients client).processNotification note))
  have elsewhere :=
    Client.sameElsewhere_processNotification (σ.clients client) note
  by_cases about : path = note.directory
  · subst about
    -- The client drops its copy first.
    have drops : Relation.ReflTransGen Step (σ.promises members note.directory)
        ((σ.promises members note.directory).hold ⟨client, member⟩
          (σ.heldAfter client note)) :=
      steps_hold (holding_processNotification note)
    have isAfter : promises members note.directory { σ with
          clients := Function.update σ.clients client
            ((σ.clients client).processNotification note)
          inFlight := Function.update σ.inFlight client notes } =
        { (σ.promises members note.directory).hold ⟨client, member⟩
            (σ.heldAfter client note) with
          waiting := {other : members | if (other : ClientId) = client then
              Waiting { σ with
                inFlight := Function.update σ.inFlight client notes }
                client note.directory
            else σ.Waiting other note.directory} } := by
      ext1
      case current => rfl
      case holding =>
        funext ⟨other, isMember⟩
        by_cases same : other = client
        · subst same
          simp [promises, State.hold, heldAfter]
        · have apart : (⟨other, isMember⟩ : members) ≠ ⟨client, member⟩ :=
            fun equal => same (congrArg Subtype.val equal)
          simp [promises, State.hold, same, apart]
      case registered => rfl
      case waiting =>
        ext ⟨other, isMember⟩
        simp [promises, waits]
      case changing => rfl
    rw [isAfter]
    by_cases still : Waiting { σ with
        inFlight := Function.update σ.inFlight client notes }
        client note.directory
    · have unchanged : {other : members | if (other : ClientId) = client then
            Waiting { σ with
              inFlight := Function.update σ.inFlight client notes }
              client note.directory
          else σ.Waiting other note.directory} =
          (σ.promises members note.directory).waiting := by
        ext ⟨other, isMember⟩
        by_cases same : other = client
        · subst same
          have was : σ.Waiting other note.directory :=
            ⟨note, by simp [undelivered, inFlight], rfl⟩
          simp [promises, still, was]
        · simp [promises, same]
      rw [unchanged]
      exact drops
    · have taken : {other : members | if (other : ClientId) = client then
            Waiting { σ with
              inFlight := Function.update σ.inFlight client notes }
              client note.directory
          else σ.Waiting other note.directory} =
          (σ.promises members note.directory).waiting \ {⟨client, member⟩} := by
        ext ⟨other, isMember⟩
        by_cases same : other = client
        · subst same
          simp [still]
        · simp [promises, same]
      rw [taken]
      have takesLast := Step.take
        (σ := (σ.promises members note.directory).hold ⟨client, member⟩
          (σ.heldAfter client note)) ⟨client, member⟩ (by
            simpa [State.hold, promises] using
              (takes note notes inFlight).resolve_left still)
      exact drops.tail takesLast
  · have unchanged : promises members path { σ with
          clients := Function.update σ.clients client
            ((σ.clients client).processNotification note)
          inFlight := Function.update σ.inFlight client notes } =
        σ.promises members path := by
      ext1
      case current => rfl
      case holding =>
        funext ⟨other, isMember⟩
        by_cases same : other = client
        · subst same
          simp only [promises, Function.update_self]
          exact holding_congr (elsewhere.cache path about)
            (elsewhere.read path about)
        · simp [promises, same]
      case registered => rfl
      case waiting =>
        ext ⟨other, isMember⟩
        simp [promises, waits, about]
      case changing => rfl
    rw [unchanged]

end Deliver

end Events

end Cluster

/-- One event. -/
theorem promises_of_clusterEvent {members : Set ClientId} {event : ClusterEvent}
    {σ τ : Cluster} (keeps : event.KeepsPromises members σ)
    (isOrderly : σ.Orderly members) (steps : event.step σ = some τ) :
    τ.Orderly members ∧ ∀ path, Relation.ReflTransGen Step
      (σ.promises members path) (τ.promises members path) := by
  cases event with
  | start client path call answers =>
      simp only [ClusterEvent.step] at steps
      split at steps
      · next idle =>
          obtain rfl := Option.some.inj steps
          exact ⟨Cluster.orderly_of_start isOrderly keeps.1 call idle,
            Cluster.steps_of_start isOrderly keeps idle⟩
      · simp at steps
  | advance client path answers =>
      obtain ⟨result, advances, rfl⟩ := Option.map_eq_some_iff.mp steps
      refine ⟨Cluster.orderly_afterAdvance isOrderly keeps.1 advances, ?_⟩
      intro other
      by_cases same : other = path
      · subst same
        exact Cluster.steps_of_advance isOrderly keeps advances
      · rw [Cluster.promises_of_advance_ne isOrderly same advances]
  | send client =>
      obtain ⟨⟨note, s⟩, pops, rfl⟩ := Option.map_eq_some_iff.mp steps
      refine ⟨⟨Cluster.subscribed_of_send isOrderly.toSubscribed pops,
        isOrderly.ownsNodes, isOrderly.orderly⟩, fun path => ?_⟩
      rw [Cluster.promises_of_send isOrderly pops path]
  | deliver client =>
      simp only [ClusterEvent.step] at steps
      split at steps
      · simp at steps
      · next note notes inFlight =>
          obtain rfl := Option.some.inj steps
          exact ⟨Cluster.orderly_of_deliver isOrderly note notes,
            Cluster.steps_of_deliver keeps inFlight⟩
  | tick now =>
      obtain rfl := Option.some.inj steps
      exact ⟨⟨⟨isOrderly.clientIds, isOrderly.subscribed, isOrderly.ownQueues⟩,
        isOrderly.ownsNodes, isOrderly.orderly⟩, fun path => .refl⟩

end DistributedFilesystem
