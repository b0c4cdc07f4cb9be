import DistributedFilesystem.ServerDownloads
import DistributedFilesystem.ServerUploads

/-!
# Downloads and uploads of one file

Any number of `open` and `close` handlers run for the same path, each of them
in one of its stages.
-/

namespace DistributedFilesystem

open LockedThreads

/-- A client that takes part, with the stream it uploads or, if it downloads,
none. -/
structure Participant where
  client : ClientId
  upload : Option (List Bytes)

def Participant.request (path : Path) (participant : Participant) : Request :=
  match participant.upload with
  | none => .open path participant.client
  | some stream => .close path participant.client stream

variable {ι : Type*}

/-- The handlers of the participants, all at their start. -/
def Handlers.sharing (s : Server) (path : Path) (participants : ι → Participant) :
    Handlers ι :=
  Handlers.start s fun i => (participants i).request path

def Participant.Stage (path : Path) (participant : Participant)
    (t : HandlerLocals) (code : Code) : Prop :=
  match participant.upload with
  | none => OpenStage path participant.client t code
  | some stream => CloseStage path participant.client stream t code

/-- Every handler is in one of its stages. -/
def InStages (path : Path) (participants : ι → Participant) (σ : Handlers ι) :
    Prop :=
  ∀ i, (participants i).Stage path (σ.threads i).locals (σ.threads i).code

/-- The effect of a step of a participant. -/
inductive SharingEffect (path : Path) (participant : Participant)
    (w : Recorded) (t : HandlerLocals) (code : Code) (w' : Recorded)
    (t' : HandlerLocals) (after : Code) : Prop
  | download (isOpen : participant.upload = none)
      (effect : OpenEffect path w t w' t')
  | upload (stream : List Bytes) (isClose : participant.upload = some stream)
      (effect : CloseEffect path w t code w' t' after)

variable {path : Path} {participants : ι → Participant}

theorem inStages_sharing (s : Server) :
    InStages path participants (Handlers.sharing s path participants) := by
  intro i
  unfold Participant.Stage
  cases isUpload : (participants i).upload with
  | none =>
      simpa [Handlers.sharing, Handlers.start, Participant.request, isUpload,
        Request.program]
        using openStage_program
  | some stream =>
      simpa [Handlers.sharing, Handlers.start, Participant.request, isUpload,
        Request.program]
        using closeStage_program

variable [DecidableEq ι] {label : ι × Choice} {σ σ' : Handlers ι}

/-- A step leads its participant to its next stage, with the effect of a
download or of an upload. -/
theorem sharing_step (stages : InStages path participants σ)
    (steps : step exec label σ = some σ') :
    InStages path participants σ' ∧
      SharingEffect path (participants label.1) σ.shared
        (σ.threads label.1).locals (σ.threads label.1).code σ'.shared
        (σ'.threads label.1).locals (σ'.threads label.1).code := by
  have moved := moved_of_step steps
  have mine := stages label.1
  suffices own : (participants label.1).Stage path (σ'.threads label.1).locals
      (σ'.threads label.1).code ∧
      SharingEffect path (participants label.1) σ.shared
        (σ.threads label.1).locals (σ.threads label.1).code σ'.shared
        (σ'.threads label.1).locals (σ'.threads label.1).code by
    refine ⟨fun i => ?_, own.2⟩
    by_cases self : i = label.1
    · rw [self]
      exact own.1
    · rw [moved.threads_ne self]
      exact stages i
  unfold Participant.Stage at mine ⊢
  cases isUpload : (participants label.1).upload with
  | none =>
      simp only [isUpload] at mine ⊢
      cases moved.advanced with
      | quiet instr rest notAct code shared thread =>
          rw [code] at mine
          rw [thread, shared]
          obtain ⟨stage, status⟩ := openStage_of_quiet mine notAct
          exact ⟨stage, .download isUpload
            ⟨rfl, rfl, id, by simp [status]⟩⟩
      | act a rest after locals code executes thread =>
          rw [code] at mine
          rw [thread]
          obtain ⟨stage, effect⟩ := openStage_of_exec mine executes
          exact ⟨stage, .download isUpload effect⟩
  | some stream =>
      simp only [isUpload] at mine ⊢
      cases moved.advanced with
      | quiet instr rest notAct code shared thread =>
          rw [code] at mine
          rw [thread, shared]
          obtain ⟨stage, output⟩ := closeStage_of_quiet mine notAct
          exact ⟨stage, .upload stream isUpload (.none rfl rfl rfl
            (fun isOpen => (isOpen output).elim) (.inl rfl))⟩
      | act a rest after locals code executes thread =>
          rw [code] at mine ⊢
          rw [thread]
          obtain ⟨stage, effect⟩ := closeStage_of_exec mine executes
          exact ⟨stage, .upload stream isUpload effect⟩

end DistributedFilesystem
