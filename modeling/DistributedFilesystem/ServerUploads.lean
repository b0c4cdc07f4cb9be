import DistributedFilesystem.ServerThreadEffects

/-!
# The stages of an upload

A `close` handler receives a stream into the file, closes it and notifies the
other clients.  Each of its steps leads to its next stage and has one of a few
effects on the file.
-/

namespace DistributedFilesystem

open LockedThreads

/-- What `close` does after it received the stream. -/
def closeTail (path : Path) (client : ClientId) : Code :=
  .act .closeOutput :: .act (.stamp path) :: closeCallback path client

/-- What `close` does once its file is closed. -/
def Action.Notifies (path : Path) (client : ClientId) : Action → Prop
  | .findClose other originator => other = path ∧ originator = client
  | .notifyEach originator notif _ =>
      originator = client ∧
        ∃ timestamp, notif = Server.updateNotification path timestamp
  | .push receiver _ notif =>
      receiver ≠ client ∧
        ∃ timestamp, notif = Server.updateNotification path timestamp
  | .stamp _ | .eraseFileMapOpen _ _ | .answer _ => True
  | _ => False

/-- The stages of a `close` handler. -/
inductive CloseStage (path : Path) (client : ClientId) (stream : List Bytes) :
    HandlerLocals → Code → Prop
  | waiting (t : HandlerLocals) (unopened : t.path = none)
      (output : t.output = none) :
      CloseStage path client stream t
        (.act (.receive path stream) :: closeTail path client)
  | receiving (t : HandlerLocals) (file : OutputFile)
      (before later : List Bytes) (opened : t.path = some path)
      (output : t.output = some file) (split : stream = before ++ later) :
      CloseStage path client stream t
        (.act (.receive path later) :: closeTail path client)
  | closing (t : HandlerLocals) (file : OutputFile)
      (opened : t.path = some path) (output : t.output = some file) :
      CloseStage path client stream t (closeTail path client)
  | starved (t : HandlerLocals) (unopened : t.path = none)
      (output : t.output = none) (empty : stream = []) :
      CloseStage path client stream t (closeTail path client)
  | notifying (t : HandlerLocals) (code : Code) (opened : t.path = some path)
      (output : t.output = none)
      (notifies : ∀ a, .act a ∈ code → a.Notifies path client) :
      CloseStage path client stream t code
  | refused (t : HandlerLocals) (unopened : t.path = none)
      (output : t.output = none) : CloseStage path client stream t []

/-- The messages that the handler has yet to receive. -/
def unreceived : Code → List Bytes
  | .act (.receive _ messages) :: _ => messages
  | _ => []

/-- The effects of one step of a `close` handler. -/
inductive CloseEffect (path : Path) (w : Recorded) (t : HandlerLocals)
    (code : Code) (w' : Recorded) (t' : HandlerLocals) (after : Code) : Prop
  | none (disk : w'.server.disk = w.server.disk) (samePath : t'.path = t.path)
      (output : t'.output = t.output)
      (left : t.output ≠ none → unreceived after = unreceived code)
      (log : w'.log = w.log ∨
        ∃ receiver notif, w'.log = .pushed receiver notif :: w.log)
  | opens (i : Nat) (now : Int) (message : Bytes) (unopened : t.path = none)
      (disk : w'.server.disk = w.server.disk.openTruncated path now)
      (refers : w'.server.disk.node path = some i)
      (opened : t'.path = some path) (output : t'.output = some ⟨i, 0, message⟩)
      (left : unreceived code = message :: unreceived after)
      (log : w'.log = .modified path :: w.log)
  | appends (file : OutputFile) (message : Bytes)
      (output : t.output = some file)
      (disk : w'.server.disk = w.server.disk) (samePath : t'.path = t.path)
      (output' : t'.output =
        some { file with buffer := file.buffer ++ message })
      (left : unreceived code = message :: unreceived after)
      (log : w'.log = w.log)
  | flushes (file : OutputFile) (now : Int) (amount : Nat)
      (output : t.output = some file)
      (disk : w'.server.disk = w.server.disk.writeAt file.node file.offset
        (file.buffer.take amount) now)
      (samePath : t'.path = t.path)
      (output' : t'.output = some { file with
        offset := file.offset + (file.buffer.take amount).length
        buffer := file.buffer.drop amount })
      (left : unreceived after = unreceived code)
      (log : w'.log = .modified path :: w.log)
  | closes (file : OutputFile) (now : Int) (output : t.output = some file)
      (disk : w'.server.disk = w.server.disk.writeAt file.node file.offset
        file.buffer now)
      (samePath : t'.path = t.path) (output' : t'.output = none)
      (left : unreceived code = [])
      (log : w'.log =
        if file.buffer = [] then w.log else .modified path :: w.log)

variable {path : Path} {client : ClientId} {stream : List Bytes}
variable {t t' : HandlerLocals} {w w' : Recorded} {c : Choice} {a : Action}
variable {rest after : Code}

theorem closeStage_program :
    CloseStage path client stream .start (closeProgram path client stream) :=
  .waiting .start rfl rfl

theorem notifies_closeCallback :
    ∀ a, .act a ∈ Instr.act (.stamp path) :: closeCallback path client →
      a.Notifies path client := by
  simp [closeCallback, Action.Notifies]

theorem Action.Notifies.continues (notifies : a.Notifies path client) :
    ¬ a.Returns := by
  cases a <;> first | exact id | exact notifies.elim

theorem notifies_of_expands {s : Server} {front : Code}
    (notifies : a.Notifies path client) (expansion : Expands s t a front) :
    ∀ b, .act b ∈ front → b.Notifies path client := by
  cases expansion <;> simp_all [Action.Notifies]

theorem path_of_output {file : OutputFile}
    (stage : CloseStage path client stream t rest)
    (output : t.output = some file) : t.path = some path := by
  cases stage with
  | receiving _ _ _ opened => exact opened
  | closing _ opened => exact opened
  | _ => simp_all

/-- The stage after a lock request or release. -/
theorem closeStage_of_quiet {instr : Instr Lock Action}
    (stage : CloseStage path client stream t (instr :: rest))
    (notAct : ∀ a, instr ≠ .act a) :
    CloseStage path client stream t rest ∧ t.output = none := by
  generalize codeEq : instr :: rest = code at stage
  cases stage with
  | waiting => exact (notAct _ (List.cons.inj codeEq).1).elim
  | receiving => exact (notAct _ (List.cons.inj codeEq).1).elim
  | closing => exact (notAct _ (List.cons.inj codeEq).1).elim
  | starved => exact (notAct _ (List.cons.inj codeEq).1).elim
  | notifying code opened output notifies =>
      subst codeEq
      exact ⟨.notifying _ _ opened output fun a member =>
        notifies a (List.mem_cons_of_mem _ member), output⟩
  | refused => simp at codeEq

/-- A step of the reception before the file is open. -/
theorem receive_of_exec_unopened {messages : List Bytes}
    (unopened : t.path = none) (output : t.output = none)
    (executes : exec (.receive path messages) c w t rest =
      some (w', t', after)) :
    (messages = [] ∧ after = rest ∧ w' = w ∧ t' = t) ∨
      (after = [] ∧ w' = w ∧ t'.path = none ∧ t'.output = none) ∨
      ∃ file message later, t'.path = some path ∧ t'.output = some file ∧
        messages = message :: later ∧
        after = .act (.receive path later) :: rest ∧
        CloseEffect path w t (.act (.receive path messages) :: rest) w' t'
          after := by
  simp only [exec] at executes
  split at executes
  · cases executes
    exact .inl ⟨rfl, rfl, rfl, rfl⟩
  · next message later =>
      simp only [unopened] at executes
      split at executes
      · next i refers =>
          cases executes
          exact .inr (.inr ⟨_, message, later, rfl, rfl, rfl, rfl,
            .opens i _ message unopened rfl refers rfl rfl rfl rfl⟩)
      · simp at executes
  · simp only [unopened, if_true] at executes
    cases executes
    exact .inr (.inl ⟨rfl, rfl, rfl, output⟩)
  · simp [output] at executes
  · simp at executes

/-- A step of the reception into the open file. -/
theorem receive_of_exec_opened {messages : List Bytes} {file : OutputFile}
    (opened : t.path = some path) (output : t.output = some file)
    (executes : exec (.receive path messages) c w t rest =
      some (w', t', after)) :
    t'.path = some path ∧
      ((messages = [] ∧ after = rest ∧ w' = w ∧ t' = t) ∨
        ∃ file' earlier later, t'.output = some file' ∧
          messages = earlier ++ later ∧
          after = .act (.receive path later) :: rest ∧
          CloseEffect path w t (.act (.receive path messages) :: rest) w' t'
            after) := by
  simp only [exec] at executes
  split at executes
  · cases executes
    exact ⟨opened, .inl ⟨rfl, rfl, rfl, rfl⟩⟩
  · next message later =>
      simp only [opened, output] at executes
      cases executes
      exact ⟨rfl, .inr ⟨_, [message], later, rfl, rfl, rfl,
        .appends file message output rfl opened.symm rfl rfl rfl⟩⟩
  · simp [opened] at executes
  · next amount =>
      simp only [output] at executes
      split at executes
      · simp at executes
      · cases executes
        exact ⟨opened, .inr ⟨_, [], messages, rfl, rfl, rfl,
          .flushes file _ amount output rfl rfl rfl rfl rfl⟩⟩
  · simp at executes

/-- An action of an upload leads to its next stage and has one of the effects
of an upload. -/
theorem closeStage_of_exec
    (stage : CloseStage path client stream t (.act a :: rest))
    (executes : exec a c w t rest = some (w', t', after)) :
    CloseStage path client stream t' after ∧
      CloseEffect path w t (.act a :: rest) w' t' after := by
  generalize codeEq : Instr.act a :: rest = code at stage
  cases stage with
  | waiting unopened output =>
      obtain ⟨⟨rfl⟩, rfl⟩ := List.cons.inj codeEq
      rcases receive_of_exec_unopened unopened output executes with
        ⟨rfl, rfl, rfl, rfl⟩ | ⟨rfl, rfl, unopened', output'⟩ |
          ⟨file, message, later, opened, output', rfl, rfl, effect⟩
      · exact ⟨.starved _ unopened output rfl,
          .none rfl rfl rfl (fun _ => rfl) (.inl rfl)⟩
      · exact ⟨.refused _ unopened' output', .none rfl
          (unopened'.trans unopened.symm) (output'.trans output.symm)
          (fun isOpen => (isOpen output).elim) (.inl rfl)⟩
      · exact ⟨.receiving _ file [message] later opened output' rfl, effect⟩
  | receiving file before later opened output split =>
      obtain ⟨⟨rfl⟩, rfl⟩ := List.cons.inj codeEq
      rcases receive_of_exec_opened opened output executes with
        ⟨opened', ⟨rfl, rfl, rfl, rfl⟩ |
          ⟨file', earlier, later, output', rfl, rfl, effect⟩⟩
      · exact ⟨.closing _ file opened output,
          .none rfl rfl rfl (fun _ => rfl) (.inl rfl)⟩
      · refine ⟨.receiving _ file' (before ++ earlier) later opened' output' ?_,
          effect⟩
        rw [split, List.append_assoc]
  | closing file opened output =>
      obtain ⟨⟨rfl⟩, rfl⟩ := List.cons.inj codeEq
      simp only [exec, opened, output] at executes
      cases executes
      exact ⟨.notifying _ _ rfl rfl notifies_closeCallback,
        .closes file _ output rfl opened.symm rfl rfl rfl⟩
  | starved unopened output empty =>
      obtain ⟨⟨rfl⟩, rfl⟩ := List.cons.inj codeEq
      simp only [exec, unopened] at executes
      cases executes
      exact ⟨.refused _ rfl output,
        .none rfl unopened.symm rfl (fun _ => rfl) (.inl rfl)⟩
  | notifying code opened output notifies =>
      subst codeEq
      have ofHead := notifies a List.mem_cons_self
      obtain ⟨disk, log, samePath, -, sameOutput, -⟩ :=
        frame_of_exec ofHead.continues executes
      refine ⟨.notifying _ _ (samePath.trans opened) (sameOutput.trans output) ?_,
        .none disk samePath sameOutput (fun isOpen => (isOpen output).elim) ?_⟩
      · rcases leaves_of_exec executes with ⟨returns, -⟩ | ⟨front, expansion, rfl⟩
        · exact (ofHead.continues returns).elim
        · intro b member
          rcases List.mem_append.mp member with inFront | inRest
          · exact notifies_of_expands ofHead expansion b inFront
          · exact notifies b (List.mem_cons_of_mem _ inRest)
      · cases a <;> first
          | exact .inl log
          | exact .inr ⟨_, _, log⟩
  | refused => simp at codeEq

end DistributedFilesystem
