import DistributedFilesystem.ServerSharing

/-!
# What uploads owe to the registered clients

A `close` handler changes the file before it looks up the registered clients,
and downloads and uploads only add registrations.  So an upload that has
changed the file owes every registered client a notification until it pushes
it.
-/

namespace DistributedFilesystem

open LockedThreads

/-- The upload of `origin` has yet to notify the client: it will look up the
registered clients, or has the client left to notify. -/
def Owes (path : Path) (origin client : ClientId) (code : Code) : Prop :=
  ∃ instr ∈ code, instr = .act (.findClose path origin) ∨
    (∃ notif remaining, instr = .act (.notifyEach origin notif remaining) ∧
      client ∈ remaining) ∨
    ∃ q notif, instr = .act (.push client q notif)

section Upload

variable {path : Path} {origin client : ClientId} {stream : List Bytes}
variable {t t' : HandlerLocals} {w w' : Recorded} {c : Choice} {a : Action}
variable {rest after : Code}

theorem owes_of_mem {code : Code} (member : .act (.findClose path origin) ∈ code) :
    Owes path origin client code :=
  ⟨_, member, .inl rfl⟩

theorem owes_append (front : Code) (owes : Owes path origin client rest) :
    Owes path origin client (front ++ rest) := by
  obtain ⟨instr, member, kind⟩ := owes
  exact ⟨instr, List.mem_append_right front member, kind⟩

theorem owes_closeTail : Owes path origin client (closeTail path origin) :=
  owes_of_mem (by simp [closeTail, closeCallback])

/-- An upload that has the file open, or just opened it, owes a notification to
everybody else. -/
theorem owes_of_stage (stage : CloseStage path origin stream t rest)
    (opened : t.path = some path) (output : t.output ≠ none) :
    Owes path origin client rest := by
  cases stage with
  | receiving => exact owes_append [_] owes_closeTail
  | closing => exact owes_closeTail
  | waiting unopened => simp [unopened] at opened
  | starved unopened => simp [unopened] at opened
  | refused unopened => simp [unopened] at opened
  | notifying _ _ closed => exact (output closed).elim

/-- A turn of the loop over the registered clients leaves the client in the
loop, or turns to its queue. -/
theorem owes_of_notifyEach {notif : Notification} {remaining : Finset ClientId}
    (left : client ∈ remaining) (different : client ≠ origin)
    (subscribed : (w.server.subscribers client).isSome)
    (executes : exec (.notifyEach origin notif remaining) c w t rest =
      some (w', t', after)) : Owes path origin client after := by
  simp only [exec] at executes
  split at executes
  · split at executes
    · next empty => simp [empty] at left
    · simp at executes
  · next receiver =>
      split at executes
      · by_cases isClient : receiver = client
        · subst isClient
          obtain ⟨q, queue⟩ := Option.isSome_iff_exists.mp subscribed
          simp only [different, if_false, queue] at executes
          cases executes
          exact ⟨.act (.push receiver q notif), by simp, .inr (.inr ⟨_, _, rfl⟩)⟩
        · have stays : client ∈ remaining.erase receiver :=
            Finset.mem_erase.mpr ⟨Ne.symm isClient, left⟩
          repeat' split at executes
          all_goals
            cases executes
            exact ⟨.act (.notifyEach origin notif (remaining.erase receiver)),
              by simp, .inr (.inl ⟨_, _, rfl, stays⟩)⟩
      · simp at executes
  · simp at executes

/-- The actions by which an upload pays what it owes. -/
theorem owes_of_notifies (notifies : a.Notifies path origin)
    (different : client ≠ origin)
    (registered : w.server.fileMap.Registered path client)
    (subscribed : (w.server.subscribers client).isSome)
    (owes : Owes path origin client (.act a :: rest))
    (executes : exec a c w t rest = some (w', t', after)) :
    Owes path origin client after ∨
      ∃ timestamp, w'.log =
        .pushed client (Server.updateNotification path timestamp) :: w.log := by
  obtain ⟨instr, member, kind⟩ := owes
  rcases List.mem_cons.mp member with rfl | inRest
  · rcases kind with isFind | ⟨notif, remaining, isNotify, left⟩ | ⟨q, notif, isPush⟩
    · obtain rfl : a = .findClose path origin := Instr.act.inj isFind
      obtain ⟨clients, entry, isMember⟩ := registered
      simp only [exec, entry] at executes
      cases executes
      exact .inl ⟨.act (.notifyEach origin
        (Server.updateNotification path t.timestamp) clients), by simp,
        .inr (.inl ⟨_, _, rfl, isMember⟩)⟩
    · obtain rfl : a = .notifyEach origin notif remaining := Instr.act.inj isNotify
      exact .inl (owes_of_notifyEach left different subscribed executes)
    · obtain rfl : a = .push client q notif := Instr.act.inj isPush
      obtain ⟨-, timestamp, rfl⟩ := notifies
      cases executes
      exact .inr ⟨timestamp, rfl⟩
  · rcases leaves_of_exec executes with ⟨returns, -⟩ | ⟨front, expansion, rfl⟩
    · exact (notifies.continues returns).elim
    · exact .inl (owes_append front ⟨instr, inRest, kind⟩)

/-- A step of an upload that owes a notification leaves it owed, or pushes
it. -/
theorem owes_of_exec (stage : CloseStage path origin stream t (.act a :: rest))
    (opened : t.path = some path) (different : client ≠ origin)
    (registered : w.server.fileMap.Registered path client)
    (subscribed : (w.server.subscribers client).isSome)
    (owes : Owes path origin client (.act a :: rest))
    (executes : exec a c w t rest = some (w', t', after)) :
    Owes path origin client after ∨
      ∃ timestamp, w'.log =
        .pushed client (Server.updateNotification path timestamp) :: w.log := by
  generalize codeEq : Instr.act a :: rest = code at stage
  cases stage with
  | waiting unopened => simp [unopened] at opened
  | starved unopened => simp [unopened] at opened
  | refused => simp at codeEq
  | receiving file before later _ output =>
      obtain ⟨⟨rfl⟩, rfl⟩ := List.cons.inj codeEq
      rcases (receive_of_exec_opened opened output executes).2 with
        ⟨-, rfl, -⟩ | ⟨_, _, _, -, -, rfl, -⟩
      · exact .inl owes_closeTail
      · exact .inl (owes_append [_] owes_closeTail)
  | closing file _ output =>
      obtain ⟨⟨rfl⟩, rfl⟩ := List.cons.inj codeEq
      simp only [exec, opened, output] at executes
      cases executes
      exact .inl (owes_of_mem (by simp [closeCallback]))
  | notifying code _ _ notifies =>
      subst codeEq
      exact owes_of_notifies (notifies a List.mem_cons_self) different
        registered subscribed owes executes

end Upload

/-! ## Registrations stay -/

/-- The actions of downloads and uploads, which only add registrations. -/
def Action.OnlyRegisters : Action → Prop
  | .insertFileMap _ _ | .insertFileMapOpen _ _ | .openInput _ | .sendChunks
  | .stamp _ | .receive _ _ | .closeOutput | .findClose _ _
  | .eraseFileMapOpen _ _ | .notifyEach _ _ _ | .push _ _ _ | .answer _ => True
  | _ => False

section Registrations

variable {path : Path} {client : ClientId} {t : HandlerLocals} {a : Action}
variable {code rest : Code}

theorem Action.OnlyRegisters.registered {map : ClientMap}
    (only : a.OnlyRegisters) (registered : map.Registered path client) :
    (a.fileMapAfter map).Registered path client := by
  cases a with
  | insertFileMap => exact ClientMap.registered_insertClient.mpr (.inl registered)
  | findClose =>
      simp only [Action.fileMapAfter]
      split
      · exact registered
      · exact ClientMap.registered_insertClient.mpr (.inl registered)
  | moveEntry | eraseEntry | sweepFileMap => exact only.elim
  | _ => exact registered

theorem Action.OnlyRegisters.subscribers
    {subscribers : ClientId → Option QueueId} (only : a.OnlyRegisters) :
    a.subscribersAfter subscribers = subscribers := by
  cases a <;> first | rfl | exact only.elim

theorem Action.Notifies.onlyRegisters (notifies : a.Notifies path client) :
    a.OnlyRegisters := by
  cases a <;> trivial

/-- The next action of a download. -/
theorem openStage_head (stage : OpenStage path client t (.act a :: rest)) :
    (a = .insertFileMap path client ∨ a = .insertFileMapOpen path client) ∨
      (a = .openInput path ∨ a = .stamp path ∨ a = .sendChunks) ∧
        .act (.insertFileMap path client) ∉ rest := by
  generalize codeEq : Instr.act a :: rest = code at stage
  cases stage with
  | registering before suffix =>
      cases before with
      | nil =>
          obtain ⟨⟨rfl⟩, rfl⟩ := List.cons.inj codeEq
          simp
      | cons head before =>
          obtain ⟨rfl, -⟩ := List.cons.inj codeEq
          have member := suffix.subset List.mem_cons_self
          simpa [openRegistration] using Or.inl member
  | reading file code input status left =>
      rcases left with rfl | rfl <;>
      · obtain ⟨⟨rfl⟩, rfl⟩ := List.cons.inj codeEq
        simp
  | finished => simp at codeEq
  | failed => simp at codeEq

theorem onlyRegisters_of_stage {participant : Participant}
    (stage : participant.Stage path t (.act a :: rest)) : a.OnlyRegisters := by
  unfold Participant.Stage at stage
  split at stage
  · rcases openStage_head stage with
      (rfl | rfl) | ⟨rfl | rfl | rfl, -⟩ <;> trivial
  · generalize codeEq : Instr.act a :: rest = code at stage
    cases stage with
    | notifying code _ _ notifies =>
        subst codeEq
        exact (notifies a List.mem_cons_self).onlyRegisters
    | refused => simp at codeEq
    | _ =>
        obtain ⟨⟨rfl⟩, -⟩ := List.cons.inj codeEq
        trivial

/-- A download that has opened the file is past its registration. -/
theorem not_registering_of_input (stage : OpenStage path client t code)
    (opened : t.input ≠ none) : .act (.insertFileMap path client) ∉ code := by
  cases stage with
  | registering _ _ input => exact (opened input).elim
  | reading _ _ _ _ left => rcases left with rfl | rfl <;> simp
  | finished => simp
  | failed => simp

end Registrations

/-! ## The participants together -/

section Runs

variable {ι : Type*}

/-- An upload has changed the file and still owes the client a notification. -/
def Owed (path : Path) (participants : ι → Participant) (σ : Handlers ι)
    (client : ClientId) : Prop :=
  ∃ i stream, (participants i).upload = some stream ∧
    (σ.threads i).locals.path = some path ∧
    Owes path (participants i).client client (σ.threads i).code

variable {path : Path} {participants : ι → Participant} [DecidableEq ι]
variable {label : ι × Choice} {σ σ' : Handlers ι}

theorem subscribers_of_step (stages : InStages path participants σ)
    (steps : step exec label σ = some σ') :
    σ'.shared.server.subscribers = σ.shared.server.subscribers := by
  have stage := stages label.1
  cases (moved_of_step steps).advanced with
  | quiet instr rest notAct code shared thread => rw [shared]
  | act a rest after locals code executes thread =>
      rw [code] at stage
      rw [subscribers_of_exec executes, (onlyRegisters_of_stage stage).subscribers]

theorem registered_of_step (stages : InStages path participants σ)
    (steps : step exec label σ = some σ') {client : ClientId}
    (registered : σ.shared.server.fileMap.Registered path client) :
    σ'.shared.server.fileMap.Registered path client := by
  have stage := stages label.1
  cases (moved_of_step steps).advanced with
  | quiet instr rest notAct code shared thread => rwa [shared]
  | act a rest after locals code executes thread =>
      rw [code] at stage
      rw [fileMap_of_exec executes]
      exact (onlyRegisters_of_stage stage).registered registered

theorem registering_of_step (stages : InStages path participants σ)
    (steps : step exec label σ = some σ') {i : ι}
    (isOpen : (participants i).upload = none)
    (registering :
      .act (.insertFileMap path (participants i).client) ∈ (σ.threads i).code ∨
        σ.shared.server.fileMap.Registered path (participants i).client) :
    .act (.insertFileMap path (participants i).client) ∈ (σ'.threads i).code ∨
      σ'.shared.server.fileMap.Registered path (participants i).client := by
  rcases registering with member | registered
  · by_cases self : i = label.1
    · subst self
      have stage := stages label.1
      simp only [Participant.Stage, isOpen] at stage
      cases (moved_of_step steps).advanced with
      | quiet instr rest notAct code shared thread =>
          rw [code] at member
          rw [thread]
          rcases List.mem_cons.mp member with head | inRest
          · exact (notAct _ head.symm).elim
          · exact .inl inRest
      | act a rest after locals code executes thread =>
          rw [code] at member stage
          rw [thread, fileMap_of_exec executes]
          rcases openStage_head stage with (rfl | rfl) | ⟨isHead, notLater⟩
          · exact .inr ClientMap.registered_insertClient_self
          · simp only [exec, Option.some.injEq, Prod.mk.injEq] at executes
            obtain ⟨-, -, rfl⟩ := executes
            rcases List.mem_cons.mp member with head | inRest
            · simp at head
            · exact .inl inRest
          · rcases List.mem_cons.mp member with head | inRest
            · rcases isHead with rfl | rfl | rfl <;> simp at head
            · exact (notLater inRest).elim
    · rw [(moved_of_step steps).threads_ne self]
      exact .inl member
  · exact .inr (registered_of_step stages steps registered)

/-- What an upload owes it goes on owing, or pushes. -/
theorem owes_of_step {stream : List Bytes} {client : ClientId}
    (stage : CloseStage path (participants label.1).client stream
      (σ.threads label.1).locals (σ.threads label.1).code)
    (opened : (σ.threads label.1).locals.path = some path)
    (different : client ≠ (participants label.1).client)
    (registered : σ.shared.server.fileMap.Registered path client)
    (subscribed : (σ.shared.server.subscribers client).isSome)
    (owes : Owes path (participants label.1).client client
      (σ.threads label.1).code)
    (steps : step exec label σ = some σ') :
    Owes path (participants label.1).client client (σ'.threads label.1).code ∨
      ∃ timestamp, σ'.shared.log =
        .pushed client (Server.updateNotification path timestamp) ::
          σ.shared.log := by
  cases (moved_of_step steps).advanced with
  | quiet instr rest notAct code shared thread =>
      rw [code] at owes
      rw [thread]
      obtain ⟨other, member, kind⟩ := owes
      rcases List.mem_cons.mp member with rfl | inRest
      · rcases kind with rfl | ⟨_, _, rfl, -⟩ | ⟨_, _, rfl⟩ <;>
          exact (notAct _ rfl).elim
      · exact .inl ⟨other, inRest, kind⟩
  | act a rest after locals code executes thread =>
      rw [code] at owes stage
      rw [thread]
      exact owes_of_exec stage opened different registered subscribed owes
        executes

/-- What another handler owes it still owes after the step. -/
theorem owed_of_other {client : ClientId} {j : ι} {stream : List Bytes}
    (other : j ≠ label.1) (isClose : (participants j).upload = some stream)
    (opened : (σ.threads j).locals.path = some path)
    (owes : Owes path (participants j).client client (σ.threads j).code)
    (steps : step exec label σ = some σ') :
    Owed path participants σ' client := by
  have same := (moved_of_step steps).threads_ne other
  exact ⟨j, stream, isClose, by rwa [same], by rwa [same]⟩

/-- A download owes nothing, so its steps leave owed what is owed. -/
theorem owed_of_download {client : ClientId}
    (isOpen : (participants label.1).upload = none)
    (owed : Owed path participants σ client)
    (steps : step exec label σ = some σ') :
    Owed path participants σ' client := by
  obtain ⟨j, stream, isClose, opened, owes⟩ := owed
  have other : j ≠ label.1 := by
    rintro rfl
    simp [isOpen] at isClose
  exact owed_of_other other isClose opened owes steps

/-- What only a change of the file can end, a step of an upload keeps, unless
the upload then owes a registered client a notification, or pushes it. -/
theorem kept_of_upload (kept : Recorded → Prop)
    (keeps : ∀ w w', w'.server.disk = w.server.disk →
      (w'.log = w.log ∨
        ∃ receiver notif, w'.log = .pushed receiver notif :: w.log) →
      kept w → kept w')
    (stages : InStages path participants σ)
    (steps : step exec label σ = some σ') {stream : List Bytes}
    (isClose : (participants label.1).upload = some stream)
    {client : ClientId} (different : client ≠ (participants label.1).client)
    (registered : σ.shared.server.fileMap.Registered path client)
    (subscribed : (σ.shared.server.subscribers client).isSome)
    (before : kept σ.shared ∨ Owed path participants σ client) :
    kept σ'.shared ∨ Owed path participants σ' client ∨
      ∃ timestamp, σ'.shared.log =
        .pushed client (Server.updateNotification path timestamp) ::
          σ.shared.log := by
  obtain ⟨stages', effect⟩ := sharing_step stages steps
  have stage := stages label.1
  have stage' := stages' label.1
  simp only [Participant.Stage, isClose] at stage stage'
  have pays : (σ.threads label.1).locals.path = some path →
      (σ'.threads label.1).locals.path = some path →
      Owes path (participants label.1).client client
        (σ.threads label.1).code →
      Owed path participants σ' client ∨
        ∃ timestamp, σ'.shared.log =
          .pushed client (Server.updateNotification path timestamp) ::
            σ.shared.log :=
    fun opened opened' owes =>
      (owes_of_step stage opened different registered subscribed owes
        steps).imp_left
        fun owes => ⟨label.1, stream, isClose, opened', owes⟩
  cases effect with
  | download isOpen => simp [isClose] at isOpen
  | upload _ _ effect =>
      cases effect with
      | none disk samePath output left log =>
          rcases before with before | ⟨j, stream', isClose', opened, owes⟩
          · exact .inl (keeps _ _ disk log before)
          · by_cases self : j = label.1
            · subst self
              exact .inr (pays opened (samePath.trans opened) owes)
            · exact .inr (.inl (owed_of_other self isClose' opened owes steps))
      | opens i now message unopened disk refers opened output =>
          exact .inr (.inl ⟨label.1, stream, isClose, opened,
            owes_of_stage stage' opened (by simp [output])⟩)
      | appends file message output disk samePath output' =>
          have opened := samePath.trans (path_of_output stage output)
          exact .inr (.inl ⟨label.1, stream, isClose, opened,
            owes_of_stage stage' opened (by simp [output'])⟩)
      | flushes file now amount output disk samePath output' =>
          have opened := samePath.trans (path_of_output stage output)
          exact .inr (.inl ⟨label.1, stream, isClose, opened,
            owes_of_stage stage' opened (by simp [output'])⟩)
      | closes file now output disk samePath output' =>
          have opened := path_of_output stage output
          exact .inr (pays opened (samePath.trans opened)
            (owes_of_stage stage opened (by simp [output])))

end Runs

end DistributedFilesystem
