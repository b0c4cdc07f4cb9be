import DistributedFilesystem.ServerSharing

/-!
# Whole versions of a file

The server takes no lock on the file that it streams.  Two uploads whose
handlers have the file open at the same time mix their contents.  As long as
that does not happen the file always ends up as one complete upload, and a
download during which no upload has the file open delivers one complete
version.
-/

namespace DistributedFilesystem

open LockedThreads TransitionRuns

variable {ι : Type*} (s : Server) (path : Path) (participants : ι → Participant)

/-- The upload has the file open. -/
def Uploading (σ : Handlers ι) (i : ι) : Prop :=
  (participants i).upload ≠ none ∧ (σ.threads i).locals.output ≠ none

/-- The download has opened the file and is not over. -/
def Reading (σ : Handlers ι) (i : ι) : Prop :=
  (σ.threads i).locals.input ≠ none ∧ (σ.threads i).code ≠ []

/-- No two uploads have the file open. -/
def OneUpload (σ : Handlers ι) : Prop :=
  ∀ i j, Uploading participants σ i → Uploading participants σ j → i = j

/-- No upload has the file open while the download reads it. -/
def ReadsUndisturbed (i : ι) (σ : Handlers ι) : Prop :=
  Reading σ i → ∀ j, ¬ Uploading participants σ j

/-- A complete version: the initial contents or those of one upload. -/
def CompleteVersion (contents : Option Bytes) : Prop :=
  contents = s.disk.read path ∨
    ∃ i stream, (participants i).upload = some stream ∧
      contents = some stream.flatten

/-- The version that is left behind: that of an upload that opened the file,
or the initial one when none did. -/
def LastVersion (σ : Handlers ι) (contents : Option Bytes) : Prop :=
  ((∀ i, (participants i).upload ≠ none → (σ.threads i).locals.path = none) ∧
      contents = s.disk.read path) ∨
    ∃ i stream, (participants i).upload = some stream ∧
      (σ.threads i).locals.path = some path ∧ contents = some stream.flatten

/-- How far the only upload has come: what was written, what is buffered and
what is yet to be received make up its stream. -/
structure Partial (σ : Handlers ι) (i : ι) (stream : List Bytes)
    (file : OutputFile) : Prop where
  output : (σ.threads i).locals.output = some file
  refers : σ.shared.server.disk.node path = some file.node
  position : (σ.shared.server.disk.nodes file.node).contents.length = file.offset
  total : (σ.shared.server.disk.nodes file.node).contents ++ file.buffer ++
    (unreceived (σ.threads i).code).flatten = stream.flatten

/-- The invariant: the file is a last version, or the part of the only upload
that has it open. -/
structure WholeFile (σ : Handlers ι) : Prop where
  stages : InStages path participants σ
  idle : (∀ i, ¬ Uploading participants σ i) →
    LastVersion s path participants σ (σ.shared.server.disk.read path)
  busy : ∀ i stream file, (participants i).upload = some stream →
    (σ.threads i).locals.output = some file → Partial path σ i stream file

variable {s path participants}

section Steps

variable {client : ClientId} {stream : List Bytes} {t : HandlerLocals}
variable {code : Code}

/-- An upload that has not opened the file has received nothing. -/
theorem unreceived_of_unopened (stage : CloseStage path client stream t code)
    (unopened : t.path = none) (pending : unreceived code ≠ []) :
    unreceived code = stream := by
  cases stage with
  | waiting => rfl
  | receiving _ _ _ opened => simp [unopened] at opened
  | closing _ opened => simp [unopened] at opened
  | starved => exact (pending rfl).elim
  | notifying _ opened => simp [unopened] at opened
  | refused => exact (pending rfl).elim

end Steps

theorem lastVersion_congr {σ σ' : Handlers ι} {contents : Option Bytes}
    (samePath : ∀ i, (participants i).upload ≠ none →
      (σ'.threads i).locals.path = (σ.threads i).locals.path)
    (last : LastVersion s path participants σ contents) :
    LastVersion s path participants σ' contents := by
  rcases last with ⟨unopened, initial⟩ | ⟨i, stream, isClose, opened, contents⟩
  · exact .inl ⟨fun i isClose => (samePath i isClose).trans (unopened i isClose),
      initial⟩
  · exact .inr ⟨i, stream, isClose,
      (samePath i (by simp [isClose])).trans opened, contents⟩

variable {σ σ' : Handlers ι}

/-- A step that leaves the files, and the path and output of every upload,
alone keeps the invariant. -/
theorem wholeFile_of_unchanged (whole : WholeFile s path participants σ)
    (stages : InStages path participants σ')
    (disk : σ'.shared.server.disk = σ.shared.server.disk)
    (same : ∀ i, (participants i).upload ≠ none →
      (σ'.threads i).locals.path = (σ.threads i).locals.path ∧
        (σ'.threads i).locals.output = (σ.threads i).locals.output ∧
        ((σ.threads i).locals.output ≠ none →
          unreceived (σ'.threads i).code = unreceived (σ.threads i).code)) :
    WholeFile s path participants σ' where
  stages := stages
  idle notUploading := by
    rw [disk]
    refine lastVersion_congr (fun i isClose => (same i isClose).1)
      (whole.idle fun i uploading => notUploading i ⟨uploading.1, ?_⟩)
    rw [(same i uploading.1).2.1]
    exact uploading.2
  busy i stream file isClose output := by
    have isUpload : (participants i).upload ≠ none := by simp [isClose]
    obtain ⟨-, sameOutput, sameLeft⟩ := same i isUpload
    rw [sameOutput] at output
    have before := whole.busy i stream file isClose output
    refine ⟨sameOutput.trans output, ?_, ?_, ?_⟩
    · rw [disk]
      exact before.refers
    · rw [disk]
      exact before.position
    · rw [disk, sameLeft (by simp [output])]
      exact before.total

/-- The only upload accounts for the file. -/
theorem wholeFile_of_partial {j : ι} {stream : List Bytes} {file : OutputFile}
    (stages : InStages path participants σ') (only : OneUpload participants σ')
    (isClose : (participants j).upload = some stream)
    (part : Partial path σ' j stream file) :
    WholeFile s path participants σ' where
  stages := stages
  idle notUploading :=
    (notUploading j ⟨by simp [isClose], by simp [part.output]⟩).elim
  busy i stream' file' isClose' output := by
    obtain rfl := only i j ⟨by simp [isClose'], by simp [output]⟩
      ⟨by simp [isClose], by simp [part.output]⟩
    obtain rfl : stream = stream' := by simpa [isClose] using isClose'
    obtain rfl : file = file' := by simpa [part.output] using output
    exact part

section Writes

variable {j : ι} {stream : List Bytes} {file file' : OutputFile}

/-- Opening the file starts over with nothing written. -/
theorem partial_of_opens {i : Nat} {now : Int} {message : Bytes}
    (disk : σ'.shared.server.disk =
      σ.shared.server.disk.openTruncated path now)
    (refers : σ'.shared.server.disk.node path = some i)
    (output : (σ'.threads j).locals.output = some ⟨i, 0, message⟩)
    (left : message :: unreceived (σ'.threads j).code = stream) :
    Partial path σ' j stream ⟨i, 0, message⟩ := by
  have empty : (σ'.shared.server.disk.nodes i).contents = [] := by
    have read := FileStore.read_openTruncated σ.shared.server.disk path now
    rw [← disk] at read
    simpa [FileStore.read, refers] using read
  refine ⟨output, refers, by simp [empty], ?_⟩
  rw [empty, ← left]
  simp

/-- Buffering a message moves it from what is to be received. -/
theorem partial_of_appends {message : Bytes}
    (part : Partial path σ j stream file)
    (disk : σ'.shared.server.disk = σ.shared.server.disk)
    (output : (σ'.threads j).locals.output =
      some { file with buffer := file.buffer ++ message })
    (left : unreceived (σ.threads j).code =
      message :: unreceived (σ'.threads j).code) :
    Partial path σ' j stream { file with buffer := file.buffer ++ message } := by
  obtain ⟨-, refers, position, total⟩ := part
  rw [left] at total
  refine ⟨output, by rwa [disk], by rwa [disk], ?_⟩
  rw [disk]
  simpa using total

/-- Writing at the end of the file appends. -/
theorem contents_of_write {bytes : Bytes} {now : Int}
    (part : Partial path σ j stream file)
    (disk : σ'.shared.server.disk =
      σ.shared.server.disk.writeAt file.node file.offset bytes now) :
    (σ'.shared.server.disk.nodes file.node).contents =
      (σ.shared.server.disk.nodes file.node).contents ++ bytes := by
  rw [disk, FileStore.contents_writeAt_self, ← part.position,
    ByteContents.overlay_length_self]

/-- Flushing moves bytes from the buffer to the file. -/
theorem partial_of_flushes {amount : Nat} {now : Int}
    (part : Partial path σ j stream file)
    (disk : σ'.shared.server.disk = σ.shared.server.disk.writeAt file.node
      file.offset (file.buffer.take amount) now)
    (output : (σ'.threads j).locals.output = some { file with
      offset := file.offset + (file.buffer.take amount).length
      buffer := file.buffer.drop amount })
    (left : unreceived (σ'.threads j).code = unreceived (σ.threads j).code) :
    Partial path σ' j stream { file with
      offset := file.offset + (file.buffer.take amount).length
      buffer := file.buffer.drop amount } := by
  have contents := contents_of_write part disk
  refine ⟨output, ?_, ?_, ?_⟩
  · rw [disk, FileStore.node_writeAt]
    exact part.refers
  · rw [contents, List.length_append, part.position]
  · rw [contents, left, List.append_assoc _ (file.buffer.take amount),
      List.take_append_drop]
    exact part.total

end Writes

theorem wholeFile_sharing :
    WholeFile s path participants (Handlers.sharing s path participants) where
  stages := inStages_sharing s
  idle _ := .inl ⟨fun _ _ => rfl, rfl⟩
  busy i stream file _ output := by
    simp [Handlers.sharing, Handlers.start, HandlerLocals.start] at output

/-- A download under way is up to date; one that succeeded has sent a complete
version. -/
structure Delivers (s : Server) (path : Path) (participants : ι → Participant)
    (σ : Handlers ι) (i : ι) : Prop where
  underWay : (σ.threads i).code ≠ [] →
    UpToDate path σ.shared.server.disk (σ.threads i).locals
  finished : (σ.threads i).code = [] →
    (σ.threads i).locals.status = some Status.OK →
    CompleteVersion s path participants
      (some (σ.threads i).locals.sent.flatten)

theorem completeVersion_of_last {contents : Option Bytes}
    (last : LastVersion s path participants σ contents) :
    CompleteVersion s path participants contents := by
  rcases last with ⟨-, initial⟩ | ⟨i, stream, isClose, -, contents⟩
  · exact .inl initial
  · exact .inr ⟨i, stream, isClose, contents⟩

variable [DecidableEq ι] {label : ι × Choice}

theorem wholeFile_of_step (whole : WholeFile s path participants σ)
    (before : OneUpload participants σ) (after : OneUpload participants σ')
    (steps : step exec label σ = some σ') :
    WholeFile s path participants σ' := by
  obtain ⟨stages, effect⟩ := sharing_step whole.stages steps
  have apart : ∀ i, i ≠ label.1 → σ'.threads i = σ.threads i :=
    fun i => (moved_of_step steps).threads_ne
  cases effect with
  | download isOpen effect =>
      refine wholeFile_of_unchanged whole stages effect.disk fun i isClose => ?_
      have other : i ≠ label.1 := by
        rintro rfl
        exact isClose isOpen
      rw [apart i other]
      exact ⟨rfl, rfl, fun _ => rfl⟩
  | upload stream isClose effect =>
      have stage := whole.stages label.1
      simp only [Participant.Stage, isClose] at stage
      have isUpload : (participants label.1).upload ≠ none := by simp [isClose]
      cases effect with
      | none disk samePath output left log =>
          refine wholeFile_of_unchanged whole stages disk fun i _ => ?_
          by_cases self : i = label.1
          · rw [self]
            exact ⟨samePath, output, left⟩
          · rw [apart i self]
            exact ⟨rfl, rfl, fun _ => rfl⟩
      | opens i now message unopened disk refers opened output left log =>
          refine wholeFile_of_partial stages after isClose
            (partial_of_opens disk refers output ?_)
          rw [← left]
          exact unreceived_of_unopened stage unopened (by simp [left])
      | appends file message output disk samePath output' left log =>
          exact wholeFile_of_partial stages after isClose (partial_of_appends
            (whole.busy _ _ _ isClose output) disk output' left)
      | flushes file now amount output disk samePath output' left log =>
          exact wholeFile_of_partial stages after isClose (partial_of_flushes
            (whole.busy _ _ _ isClose output) disk output' left)
      | closes file now output disk samePath output' left log =>
          have part := whole.busy _ _ _ isClose output
          refine ⟨stages, fun _ => ?_, fun i stream' file' isClose' isOpen => ?_⟩
          · refine .inr ⟨label.1, stream, isClose,
              samePath.trans (path_of_output stage output), ?_⟩
            have refers : σ'.shared.server.disk.node path = some file.node := by
              rw [disk, FileStore.node_writeAt]
              exact part.refers
            rw [FileStore.read, refers, Option.map_some,
              contents_of_write part disk, ← part.total, left]
            simp
          · have other : i ≠ label.1 := by
              rintro rfl
              simp [output'] at isOpen
            rw [apart i other] at isOpen
            exact (other (before i label.1 ⟨by simp [isClose'], by simp [isOpen]⟩
              ⟨isUpload, by simp [output]⟩)).elim

/-! ## Downloads -/

/-- A step before and after which its handler does not have the file open for
writing leaves the files alone. -/
theorem disk_of_not_uploading (stages : InStages path participants σ)
    (before : ¬ Uploading participants σ label.1)
    (after : ¬ Uploading participants σ' label.1)
    (steps : step exec label σ = some σ') :
    σ'.shared.server.disk = σ.shared.server.disk := by
  obtain ⟨-, effect⟩ := sharing_step stages steps
  cases effect with
  | download isOpen effect => exact effect.disk
  | upload stream isClose effect =>
      have isUpload : (participants label.1).upload ≠ none := by simp [isClose]
      cases effect with
      | none disk => exact disk
      | opens _ _ _ _ _ _ _ output =>
          exact (after ⟨isUpload, by simp [output]⟩).elim
      | appends _ _ output => exact (before ⟨isUpload, by simp [output]⟩).elim
      | flushes _ _ _ output => exact (before ⟨isUpload, by simp [output]⟩).elim
      | closes _ _ output => exact (before ⟨isUpload, by simp [output]⟩).elim

theorem delivers_of_step {i : ι} (isOpen : (participants i).upload = none)
    (whole : WholeFile s path participants σ)
    (before : ReadsUndisturbed participants i σ)
    (after : ReadsUndisturbed participants i σ')
    (delivers : Delivers s path participants σ i)
    (steps : step exec label σ = some σ') :
    Delivers s path participants σ' i := by
  have moved := moved_of_step steps
  obtain ⟨stages, effect⟩ := sharing_step whole.stages steps
  by_cases self : i = label.1
  · subst self
    cases effect with
    | upload stream isClose => simp [isOpen] at isClose
    | download _ effect =>
        have current := effect.upToDate (delivers.underWay moved.code_ne_nil)
        refine ⟨fun _ => by rwa [effect.disk], fun finished answered => ?_⟩
        have stage := stages label.1
        simp only [Participant.Stage, isOpen, finished] at stage
        rw [← read_of_upToDate stage answered rfl current]
        exact completeVersion_of_last (whole.idle
          (before ⟨effect.wasReading answered, moved.code_ne_nil⟩))
  · have same := moved.threads_ne self
    refine ⟨fun underWay => ?_, by rw [same]; exact delivers.finished⟩
    rw [same] at underWay ⊢
    have current := delivers.underWay underWay
    by_cases unopened : (σ.threads i).locals.input = none
    · intro file opened
      simp [unopened] at opened
    · rwa [disk_of_not_uploading whole.stages
        (before ⟨unopened, underWay⟩ _)
        (after ⟨by rwa [same], by rwa [same]⟩ _) steps]

/-- In a run in which no two uploads have the file open at the same time, the
file is left with the contents of one upload, or the initial ones if no upload
opened it, and every successful download during which no upload had the file
open has sent one complete version. -/
theorem upload_atomic (s : Server) (path : Path)
    (participants : ι → Participant) (labels : List (ι × Choice))
    {σ : Handlers ι}
    (reaches : run (step exec) labels (Handlers.sharing s path participants) =
      some σ)
    (exclusive : Throughout (step exec) (OneUpload participants) labels
      (Handlers.sharing s path participants)) :
    ((∀ i, ¬ Uploading participants σ i) →
      LastVersion s path participants σ (σ.shared.server.disk.read path)) ∧
    ∀ i, (participants i).upload = none →
      Throughout (step exec) (ReadsUndisturbed participants i) labels
        (Handlers.sharing s path participants) →
      (σ.threads i).code = [] →
      (σ.threads i).locals.status = some Status.OK →
      CompleteVersion s path participants
        (some (σ.threads i).locals.sent.flatten) := by
  have whole : WholeFile s path participants σ :=
    invariant_of_throughout
      (fun _ _ _ before after whole steps =>
        wholeFile_of_step whole before after steps)
      reaches exclusive wholeFile_sharing
  refine ⟨whole.idle, fun i isOpen undisturbed finished answered => ?_⟩
  have start : Delivers s path participants
      (Handlers.sharing s path participants) i := by
    refine ⟨fun _ file opened => ?_, fun _ answered => ?_⟩
    · simp [Handlers.sharing, Handlers.start, HandlerLocals.start] at opened
    · simp [Handlers.sharing, Handlers.start, HandlerLocals.start] at answered
  have preserved : ∀ label τ τ',
      OneUpload participants τ ∧ ReadsUndisturbed participants i τ →
      OneUpload participants τ' ∧ ReadsUndisturbed participants i τ' →
      WholeFile s path participants τ ∧ Delivers s path participants τ i →
      step exec label τ = some τ' →
      WholeFile s path participants τ' ∧ Delivers s path participants τ' i := by
    rintro label τ τ' ⟨onlyBefore, before⟩ ⟨onlyAfter, after⟩
      ⟨whole, delivers⟩ steps
    exact ⟨wholeFile_of_step whole onlyBefore onlyAfter steps,
      delivers_of_step isOpen whole before after delivers steps⟩
  have delivers := invariant_of_throughout preserved reaches
    (exclusive.and undisturbed) ⟨wholeFile_sharing, start⟩
  exact delivers.2.finished finished answered

/-- A server with one empty file. -/
private def emptyFile : Server :=
  Server.launch "/srv" (FileStore.empty.create "/srv/a" 0) 0

/-- A download next to the upload of one message. -/
private def readerAndWriter (isWriter : Bool) : Participant :=
  if isWriter then ⟨"writer", some [[97, 97]]⟩ else ⟨"reader", none⟩

/-- The writer finishes its upload before the reader starts. -/
theorem upload_atomic_single :
    ∃ σ, LastVersion emptyFile "/srv/a" readerAndWriter σ
        (σ.shared.server.disk.read "/srv/a") ∧
      σ.shared.server.disk.read "/srv/a" = some [97, 97] := by
  have exclusive : ∀ σ, OneUpload readerAndWriter σ := by
    intro σ i j first second
    have isWriter : ∀ k, Uploading readerAndWriter σ k → k = true := by
      rintro (_ | _) ⟨isUpload, -⟩
      · simp [readerAndWriter] at isUpload
      · rfl
    rw [isWriter i first, isWriter j second]
  have whole := (upload_atomic emptyFile "/srv/a" readerAndWriter
    [(true, .go), (true, .go), (true, .go)] rfl
    (throughout_of_forall exclusive _ _)).1
  refine ⟨_, whole ?_, rfl⟩
  rintro (_ | _) ⟨-, isOpen⟩ <;> exact isOpen rfl

/-- Two uploads. -/
private def twoWriters (isSecond : Bool) : Participant :=
  if isSecond then ⟨"second", some [[98]]⟩ else ⟨"first", some [[97, 97]]⟩

/-- A server with a file of one byte. -/
private def byteFile : Server :=
  Server.launch "/srv" (FileStore.empty.replace "/srv/a" [[97]] 0) 0

/-- Two uploads that have the file open at the same time leave a mixture, a
download during an upload succeeds with a part of it, and a download that fails
while it sends has delivered no version either. -/
theorem transfers_not_whole :
    (∃ labels σ,
      run (step exec) labels (Handlers.sharing emptyFile "/srv/a" twoWriters) =
        some σ ∧
      (∀ i, (σ.threads i).code = []) ∧
      ¬ CompleteVersion emptyFile "/srv/a" twoWriters
        (σ.shared.server.disk.read "/srv/a")) ∧
    (∃ labels σ,
      run (step exec) labels
          (Handlers.sharing emptyFile "/srv/a" readerAndWriter) = some σ ∧
      (σ.threads false).code = [] ∧
      (σ.threads false).locals.status = some Status.OK ∧
      ¬ CompleteVersion emptyFile "/srv/a" readerAndWriter
        (some (σ.threads false).locals.sent.flatten)) ∧
    ∃ labels σ,
      run (step exec) labels
          (Handlers.sharing byteFile "/srv/a" fun _ : Unit => ⟨"reader", none⟩) =
        some σ ∧
      (σ.threads ()).code = [] ∧
      (σ.threads ()).locals.status ≠ some Status.OK ∧
      ¬ CompleteVersion byteFile "/srv/a" (fun _ : Unit => ⟨"reader", none⟩)
        (some (σ.threads ()).locals.sent.flatten) := by
  refine ⟨?_, ?_, ?_⟩
  · refine ⟨[(false, .go), (true, .go), (false, .go), (false, .go), (true, .go),
      (true, .go), (false, .go), (false, .go), (false, .go), (false, .go),
      (false, .go), (false, .go), (false, .go), (false, .go), (true, .go),
      (true, .go), (true, .go), (true, .go), (true, .pick "first"), (true, .go),
      (true, .go), (true, .go), (true, .go), (true, .go), (true, .go),
      (true, .go)], _, rfl, ?_, ?_⟩
    · rintro (_ | _) <;> rfl
    · rintro (initial | ⟨i, stream, isClose, contents⟩)
      · exact absurd initial (by decide)
      · cases i
        · obtain rfl : [[97, 97]] = stream := Option.some.inj isClose
          exact absurd contents (by decide)
        · obtain rfl : [[98]] = stream := Option.some.inj isClose
          exact absurd contents (by decide)
  · -- The reader meets the first of the two bytes.
    refine ⟨[(true, .go), (true, .flush 1), (false, .go), (false, .go),
      (false, .go), (false, .go), (false, .go), (false, .go), (false, .go),
      (false, .go), (false, .fill 1), (false, .fill 1), (false, .send),
      (false, .go)], _, rfl, rfl, rfl, ?_⟩
    rintro (initial | ⟨i, stream, isClose, contents⟩)
    · exact absurd initial (by decide)
    · cases i
      · simp [readerAndWriter] at isClose
      · obtain rfl : [[97, 97]] = stream := Option.some.inj isClose
        exact absurd contents (by decide)
  · refine ⟨[((), .go), ((), .go), ((), .go), ((), .go), ((), .go), ((), .go),
      ((), .go), ((), .go), ((), .fail)], _, rfl, rfl, by decide, ?_⟩
    rintro (initial | ⟨i, stream, isClose, contents⟩)
    · exact absurd initial (by decide)
    · simp at isClose

end DistributedFilesystem
