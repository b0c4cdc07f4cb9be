import DistributedFilesystem.ServerThreadEffects

/-!
# The stages of a download

An `open` handler registers its client, opens the file and streams it.  Each of
its steps leads to its next stage, touches no file, and keeps what it has read
up to date as long as the file does not change.
-/

namespace DistributedFilesystem

open LockedThreads

/-- What `open` does before it opens the file. -/
def openRegistration (path : Path) (client : ClientId) : Code :=
  [.lock .fileMapMutex, .act (.insertFileMap path client),
    .unlock .fileMapMutex,
    .lock .fileMapOpenMutex, .act (.insertFileMapOpen path client),
    .unlock .fileMapOpenMutex]

/-- What `open` does from there on. -/
def openReading (path : Path) : Code :=
  [.act (.openInput path), .act (.stamp path), .act .sendChunks]

/-- The stages of an `open` handler. -/
inductive OpenStage (path : Path) (client : ClientId) :
    HandlerLocals → Code → Prop
  | registering (t : HandlerLocals) (before : Code)
      (suffix : before <:+ openRegistration path client)
      (input : t.input = none) (sent : t.sent = []) (status : t.status = none) :
      OpenStage path client t (before ++ openReading path)
  | reading (t : HandlerLocals) (file : InputFile) (code : Code)
      (input : t.input = some file) (status : t.status = none)
      (left : code = [.act (.stamp path), .act .sendChunks] ∨
        code = [.act .sendChunks]) :
      OpenStage path client t code
  | finished (t : HandlerLocals) (file : InputFile)
      (input : t.input = some file) (atEnd : file.atEnd = true)
      (empty : file.buffer = []) : OpenStage path client t []
  | failed (t : HandlerLocals) (status : Status)
      (answered : t.status = some status) (notOk : status.isOk = false) :
      OpenStage path client t []

/-- What the handler has read of the file, sent or still buffered, is what the
file holds up to the position of its stream. -/
def UpToDate (path : Path) (disk : FileStore Path Byte) (t : HandlerLocals) :
    Prop :=
  ∀ file, t.input = some file →
    disk.node path = some file.node ∧
      t.sent.flatten ++ file.buffer =
        (disk.nodes file.node).contents.take file.offset ∧
      file.offset ≤ (disk.nodes file.node).contents.length ∧
      (file.atEnd = true →
        (disk.nodes file.node).contents.length ≤ file.offset)

variable {path : Path} {client : ClientId} {t t' : HandlerLocals}
variable {w w' : Recorded} {c : Choice} {a : Action} {rest after : Code}

theorem openStage_program :
    OpenStage path client .start (openProgram path client) :=
  .registering .start _ (List.suffix_refl _) rfl rfl rfl

/-- A finished download that is up to date has sent the file. -/
theorem read_of_upToDate {disk : FileStore Path Byte} {status : Status}
    (stage : OpenStage path client t []) (answered : t.status = some status)
    (ok : status.isOk) (upToDate : UpToDate path disk t) :
    disk.read path = some t.sent.flatten := by
  generalize codeEq : ([] : Code) = code at stage
  cases stage with
  | registering before suffix input sent status => simp [openReading] at codeEq
  | reading file code input status left => rcases left with rfl | rfl <;> cases codeEq
  | finished file input atEnd empty =>
      obtain ⟨refers, delivered, -, complete⟩ := upToDate file input
      rw [empty, List.append_nil, List.take_of_length_le (complete atEnd)]
        at delivered
      simp [FileStore.read, refers, delivered]
  | failed status' answered' notOk =>
      obtain rfl : status' = status := by simpa [answered'] using answered
      simp [ok] at notOk

/-- The stage after a lock request or release. -/
theorem openStage_of_quiet {instr : Instr Lock Action}
    (stage : OpenStage path client t (instr :: rest))
    (notAct : ∀ a, instr ≠ .act a) :
    OpenStage path client t rest ∧ t.status = none := by
  generalize codeEq : instr :: rest = code at stage
  cases stage with
  | registering before suffix input sent status =>
      cases before with
      | nil =>
          simp only [openReading, List.nil_append, List.cons.injEq] at codeEq
          exact (notAct _ codeEq.1).elim
      | cons head before =>
          obtain ⟨rfl, rfl⟩ := List.cons.inj codeEq
          exact ⟨.registering _ _ ((List.suffix_cons _ _).trans suffix) input
            sent status, status⟩
  | reading file code input status left =>
      rcases left with rfl | rfl
      · exact (notAct _ (List.cons.inj codeEq).1).elim
      · exact (notAct _ (List.cons.inj codeEq).1).elim
  | finished => simp at codeEq
  | failed => simp at codeEq

theorem upToDate_congr {disk : FileStore Path Byte} (input : t'.input = t.input)
    (sent : t'.sent = t.sent) (upToDate : UpToDate path disk t) :
    UpToDate path disk t' := by
  intro file opened
  rw [sent]
  exact upToDate file (input ▸ opened)

/-- Reading ahead keeps a download up to date. -/
theorem upToDate_fill {disk : FileStore Path Byte} {file : InputFile}
    {amount : Nat} {bytes : Bytes} (input : t.input = some file)
    (positive : amount ≠ 0)
    (read : bytes = ((disk.nodes file.node).contents.drop file.offset).take amount)
    (upToDate : UpToDate path disk t) :
    UpToDate path disk { t with
      input := some { file with
        offset := file.offset + bytes.length
        buffer := file.buffer ++ bytes
        atEnd := decide (bytes = []) } } := by
  obtain ⟨refers, delivered, within, -⟩ := upToDate file input
  have taken : bytes = ((disk.nodes file.node).contents.drop file.offset).take
      bytes.length := by
    rw [read, List.take_eq_take_iff, List.length_take]
    omega
  rintro _ ⟨⟩
  refine ⟨refers, ?_, ?_, ?_⟩
  · simp only [← List.append_assoc, delivered]
    rw [List.take_add, ← taken]
  · have := congrArg List.length read
    simp only [List.length_take, List.length_drop] at this
    dsimp only
    omega
  · intro ends
    have := congrArg List.length read
    simp only [decide_eq_true_eq] at ends
    simp only [ends, List.length_nil, List.length_take, List.length_drop] at this
    dsimp only
    omega

/-- Sending a chunk keeps a download up to date. -/
theorem upToDate_send {disk : FileStore Path Byte} {file : InputFile}
    (input : t.input = some file) (upToDate : UpToDate path disk t) :
    UpToDate path disk { t with
      sent := t.sent ++ [file.buffer.take chunkSize]
      input := some { file with buffer := file.buffer.drop chunkSize } } := by
  obtain ⟨refers, delivered, within, complete⟩ := upToDate file input
  rintro _ ⟨⟩
  refine ⟨refers, ?_, within, complete⟩
  simpa using delivered

/-- What `sendChunks` can do. -/
theorem sendChunks_of_exec {file : InputFile} (path : Path)
    (input : t.input = some file)
    (executes : exec .sendChunks c w t rest = some (w', t', after)) :
    w' = w ∧
      ((∃ file', t'.input = some file' ∧ t'.status = t.status ∧
          after = .act .sendChunks :: rest) ∧
          (UpToDate path w.server.disk t → UpToDate path w.server.disk t') ∨
        (t'.input = t.input ∧ t'.sent = t.sent ∧
          (file.atEnd = true ∧ file.buffer = [] ∧ after = rest ∨
            t'.status = some ⟨.internal, "Server failed to create the file."⟩ ∧
              after = []))) := by
  simp only [exec, input] at executes
  split at executes
  · split at executes
    · simp at executes
    · next idle =>
        push Not at idle
        cases executes
        exact ⟨rfl, .inl ⟨⟨_, rfl, rfl, rfl⟩, upToDate_fill input idle.2 rfl⟩⟩
  · split at executes
    · cases executes
      exact ⟨rfl, .inl ⟨⟨_, rfl, rfl, rfl⟩, upToDate_send input⟩⟩
    · simp at executes
  · split at executes
    · next ends =>
        cases executes
        exact ⟨rfl, .inr ⟨input.symm, rfl, .inl ⟨ends.1, ends.2, rfl⟩⟩⟩
    · simp at executes
  · cases executes
    exact ⟨rfl, .inr ⟨input.symm, rfl, .inr ⟨rfl, rfl⟩⟩⟩
  · simp at executes

/-- What opening the file for reading can do. -/
theorem openInput_of_exec
    (executes : exec (.openInput path) c w t rest = some (w', t', after)) :
    w' = w ∧ t'.sent = t.sent ∧
      (t'.status = t.status ∧ after = rest ∧
          (∃ i, w.server.disk.node path = some i ∧
            t'.input = some ⟨i, 0, [], false⟩) ∨
        t'.input = t.input ∧
          t'.status = some ⟨.notFound, "File not found on the server."⟩ ∧
          after = []) := by
  simp only [exec] at executes
  split at executes
  · next i refers =>
      cases executes
      exact ⟨rfl, rfl, .inl ⟨rfl, rfl, i, refers, rfl⟩⟩
  · cases executes
    exact ⟨rfl, rfl, .inr ⟨rfl, rfl, rfl⟩⟩
  · cases executes
    exact ⟨rfl, rfl, .inr ⟨rfl, rfl, rfl⟩⟩
  · simp at executes

/-- The effect of a step of an `open` handler: files and log stay as they are,
an up-to-date download stays up to date, and a download that succeeds was
reading before. -/
structure OpenEffect (path : Path) (w : Recorded) (t : HandlerLocals)
    (w' : Recorded) (t' : HandlerLocals) : Prop where
  disk : w'.server.disk = w.server.disk
  log : w'.log = w.log
  upToDate : UpToDate path w.server.disk t → UpToDate path w.server.disk t'
  wasReading : t'.status = some Status.OK → t.input ≠ none

/-- An action of a download leads to its next stage and has the effect of a
download. -/
theorem openStage_of_exec (stage : OpenStage path client t (.act a :: rest))
    (executes : exec a c w t rest = some (w', t', after)) :
    OpenStage path client t' after ∧ OpenEffect path w t w' t' := by
  generalize codeEq : Instr.act a :: rest = code at stage
  cases stage with
  | registering before suffix input sent status =>
      cases before with
      | nil =>
          obtain ⟨⟨rfl⟩, rfl⟩ := List.cons.inj codeEq
          obtain ⟨rfl, sameSent, ⟨sameStatus, rfl, i, refers, opened⟩ |
            ⟨sameInput, answered, rfl⟩⟩ := openInput_of_exec executes
          · refine ⟨.reading _ _ _ opened (sameStatus.trans status) (.inl rfl),
              rfl, rfl, fun _ file isOpen => ?_, by simp [sameStatus, status]⟩
            obtain rfl : ⟨i, 0, [], false⟩ = file := by simpa [opened] using isOpen
            simp [refers, sameSent, sent]
          · exact ⟨.failed _ _ answered (by decide), rfl, rfl,
              upToDate_congr sameInput sameSent, by simp [answered, Status.OK]⟩
      | cons head before =>
          obtain ⟨rfl, rfl⟩ := List.cons.inj codeEq
          have later := (List.suffix_cons _ _).trans suffix
          have member := suffix.subset List.mem_cons_self
          simp only [openRegistration, List.mem_cons, List.not_mem_nil,
            Instr.act.injEq, reduceCtorEq, false_or, or_false] at member
          rcases member with rfl | rfl
          all_goals
            cases executes
            exact ⟨.registering _ _ later input sent status, rfl, rfl, id,
              by simp [status]⟩
  | reading file code input status left =>
      rcases left with rfl | rfl
      · obtain ⟨⟨rfl⟩, rfl⟩ := List.cons.inj codeEq
        cases executes
        exact ⟨.reading _ file _ input status (.inr rfl), rfl, rfl,
          upToDate_congr rfl rfl, by simp [input]⟩
      · obtain ⟨⟨rfl⟩, rfl⟩ := List.cons.inj codeEq
        obtain ⟨rfl, ⟨⟨file', opened, sameStatus, rfl⟩, keeps⟩ |
          ⟨sameInput, sameSent, ⟨atEnd, empty, rfl⟩ | ⟨answered, rfl⟩⟩⟩ :=
          sendChunks_of_exec path input executes
        · exact ⟨.reading _ file' _ opened (sameStatus.trans status) (.inr rfl),
            rfl, rfl, keeps, by simp [input]⟩
        · exact ⟨.finished _ file (sameInput.trans input) atEnd empty, rfl, rfl,
            upToDate_congr sameInput sameSent, by simp [input]⟩
        · exact ⟨.failed _ _ answered (by decide), rfl, rfl,
            upToDate_congr sameInput sameSent, by simp [input]⟩
  | finished => simp at codeEq
  | failed => simp at codeEq

end DistributedFilesystem
