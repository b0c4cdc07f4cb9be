import DistributedFilesystem.ClientLockOrder

/-!
# Writing while a file is closed

One thread closes a file while others write to it.  A write is kept when the
server has the file with it, or when the file is still open and marked as
modified, so that a later close uploads it.

What the calls do to the file is described here without their code: by what
they can see of it, by their local variables, and by the actions that each has
yet to run.
-/

namespace DistributedFilesystem

open LockedThreads

variable {ι : Type*}

/-- One `close_file` call, and `write_file` calls of all other threads, for one
file. -/
structure CloseRace (ι : Type*) where
  path : Path
  closer : ι
  data : ι → Bytes
  position : ι → Int

def CloseRace.threads [DecidableEq ι] (race : CloseRace ι) (i : ι) :
    ClientThread :=
  if i = race.closer then .call (.closeFile race.path)
  else .call (.writeFile race.path (race.data i) (race.position i))

/-- The contents of a file after these writes. -/
def replay (initial : Bytes) (written : List (Nat × Nat × Bytes)) : Bytes :=
  written.foldl
    (fun contents write =>
      ByteContents.overlay contents write.2.1 write.2.2)
    initial

theorem replay_append (initial : Bytes) (written : List (Nat × Nat × Bytes))
    (node position : Nat) (data : Bytes) :
    replay initial (written ++ [(node, position, data)]) =
      ByteContents.overlay (replay initial written) position data := by
  simp [replay]

/-- What the calls can see of the file.  `stored` are its contents at the
server. -/
@[ext]
structure RaceView where
  stale : Bool
  node : Option Nat
  contents : Bytes
  written : List (Nat × Nat × Bytes)
  modified : Option Bool
  writeNode : Option Nat
  mutex : Option Nat
  entry : Nat
  streams : Nat
  stored : Option Bytes

/-- The file when the calls start. -/
structure RaceStart where
  node : Nat
  initial : Bytes
  mutex : Nat
  entry : Nat
  streams : Nat

/-- The local copy has all writes, and the entry of `opened_files`, while it is
there, is the one of the start. -/
structure RaceView.OfFile (v : RaceView) (start : RaceStart) : Prop where
  fresh : v.stale = false
  node_eq : v.node = some start.node
  cached : v.modified ≠ none
  contents : v.contents = replay start.initial v.written
  opened : v.writeNode ≠ none → v.writeNode = some start.node ∧
    v.mutex = some start.mutex ∧ v.entry = start.entry ∧
      v.streams = start.streams

/-- What holds of one `write_file` call. -/
structure WriterAt (race : CloseRace ι) (start : RaceStart) (v : RaceView)
    (i : ι) (t : CallLocals) (pending : CallAction → Prop) : Prop where
  recorded : ∀ k, t.wrote = some k →
    v.written[k]? = some (start.node, (race.position i).toNat, race.data i)
  acknowledged : t.returned = some true → t.wrote ≠ none
  looked : ∀ data position mutex,
    pending (.writeStream race.path data position mutex) →
      t.entry = start.entry ∧ v.writeNode ≠ none
  synced : pending (.syncWrite race.path) → t.wrote ≠ none

/-- What holds of the `close_file` call. -/
structure CloserAt (path : Path) (start : RaceStart) (v : RaceView)
    (t : CallLocals) (pending : CallAction → Prop) : Prop where
  deciding : pending (.decideFlush path) → v.writeNode ≠ none
  flushing : ∀ mutex, pending (.flushStreams path mutex) →
    t.streams = start.streams ∧ v.writeNode ≠ none ∧
      (t.needsFlush = true → v.modified = some true)
  uploading : ∀ left mutex, pending (.upload path left mutex) →
    t.node = start.node ∧ v.writeNode ≠ none ∧ v.modified = some true
  finishing : pending (.finishUpload path) →
    v.writeNode ≠ none ∧ v.modified = some true
  erasing : pending (.eraseOpened path) → v.writeNode ≠ none

/-- The server has the file as it was after some of the writes, among them all
that succeeded. -/
def StoresWrites (race : CloseRace ι) (start : RaceStart) (v : RaceView)
    (locals : ι → CallLocals) : Prop :=
  ∃ count ≤ v.written.length,
    v.stored = some (replay start.initial (v.written.take count)) ∧
      ∀ i, i ≠ race.closer → ∀ k, (locals i).wrote = some k → k < count

/-- What holds throughout the race. -/
structure Racing (race : CloseRace ι) (start : RaceStart) (v : RaceView)
    (locals : ι → CallLocals) (pending : ι → CallAction → Prop) : Prop where
  file : v.OfFile start
  writers : ∀ i, i ≠ race.closer →
    WriterAt race start v i (locals i) (pending i)
  closer : CloserAt race.path start v (locals race.closer)
    (pending race.closer)
  uploaded : pending race.closer (.finishUpload race.path) →
    StoresWrites race start v locals
  clean : v.modified = some false →
    (∀ i, i ≠ race.closer → ¬ pending i (.markModified race.path)) →
      StoresWrites race start v locals
  erased : v.writeNode = none → StoresWrites race start v locals

/-- Only the variables and the actions of one thread differ. -/
structure OnlyThread (i : ι) (locals locals' : ι → CallLocals)
    (pending pending' : ι → CallAction → Prop) : Prop where
  locals : ∀ j, j ≠ i → locals' j = locals j
  pending : ∀ j, j ≠ i → pending' j = pending j

section Steps

variable {race : CloseRace ι} {start : RaceStart} {v v' : RaceView}
variable {locals locals' : ι → CallLocals}
variable {pending pending' : ι → CallAction → Prop} {i : ι}

/-- Writes that are not recorded as successful do not count. -/
theorem StoresWrites.mono (stores : StoresWrites race start v locals)
    (written : v.written <+: v'.written) (stored : v'.stored = v.stored)
    (wrote : ∀ j, j ≠ race.closer → (locals' j).wrote = (locals j).wrote) :
    StoresWrites race start v' locals' := by
  obtain ⟨count, le, isStored, all⟩ := stores
  refine ⟨count, le.trans written.length_le, ?_, ?_⟩
  · obtain ⟨later, extended⟩ := written
    rw [stored, isStored, ← extended, List.take_append_of_le_length le]
  · intro j other k
    rw [wrote j other]
    exact all j other k

/-- A call that only sees more writes, and the entry if it looked it up. -/
theorem WriterAt.mono {t : CallLocals} {actions : CallAction → Prop}
    (writer : WriterAt race start v i t actions)
    (written : v.written <+: v'.written)
    (opened : (∃ data position mutex,
      actions (.writeStream race.path data position mutex)) →
        v.writeNode ≠ none → v'.writeNode ≠ none) :
    WriterAt race start v' i t actions where
  recorded k wrote := by
    have isRecorded := writer.recorded k wrote
    obtain ⟨later, extended⟩ := written
    have inside := (List.getElem?_eq_some_iff.mp isRecorded).1
    rw [← extended, List.getElem?_append_left inside]
    exact isRecorded
  acknowledged := writer.acknowledged
  looked data position mutex looks := by
    obtain ⟨sameEntry, isOpen⟩ := writer.looked data position mutex looks
    exact ⟨sameEntry, opened ⟨data, position, mutex, looks⟩ isOpen⟩
  synced := writer.synced

/-- A step of a writer that leaves what the server must have as it was. -/
theorem racing_of_writer (racing : Racing race start v locals pending)
    (other : i ≠ race.closer)
    (only : OnlyThread i locals locals' pending pending')
    (file : v'.OfFile start) (written : v.written <+: v'.written)
    (stored : v'.stored = v.stored) (writeNode : v'.writeNode = v.writeNode)
    (modified : v.modified = some true → v'.modified = some true)
    (wrote : (locals' i).wrote = (locals i).wrote)
    (here : WriterAt race start v' i (locals' i) (pending' i))
    (marks : v'.modified = some false →
      v.modified = some false ∧ ¬ pending i (.markModified race.path)) :
    Racing race start v' locals' pending' := by
  have closerLocals := only.locals race.closer other.symm
  have closerPending := only.pending race.closer other.symm
  have sameWrote : ∀ j, j ≠ race.closer →
      (locals' j).wrote = (locals j).wrote := by
    intro j _
    by_cases same : j = i
    · rw [same, wrote]
    · rw [only.locals j same]
  constructor
  case file => exact file
  case writers =>
    intro j isWriter
    by_cases same : j = i
    · rw [same]
      exact here
    · rw [only.locals j same, only.pending j same]
      apply (racing.writers j isWriter).mono written
      intro _ isOpen
      rwa [writeNode]
  case closer =>
    rw [closerLocals, closerPending]
    constructor
    case deciding =>
      intro decides
      rw [writeNode]
      exact racing.closer.deciding decides
    case flushing =>
      intro mutex flushes
      obtain ⟨streams, isOpen, isModified⟩ := racing.closer.flushing mutex flushes
      rw [writeNode]
      exact ⟨streams, isOpen, fun needed => modified (isModified needed)⟩
    case uploading =>
      intro left mutex uploads
      obtain ⟨node, isOpen, isModified⟩ :=
        racing.closer.uploading left mutex uploads
      rw [writeNode]
      exact ⟨node, isOpen, modified isModified⟩
    case finishing =>
      intro finishes
      obtain ⟨isOpen, isModified⟩ := racing.closer.finishing finishes
      rw [writeNode]
      exact ⟨isOpen, modified isModified⟩
    case erasing =>
      intro erases
      rw [writeNode]
      exact racing.closer.erasing erases
  case uploaded =>
    rw [closerPending]
    intro finishes
    exact (racing.uploaded finishes).mono written stored sameWrote
  case clean =>
    intro isClean noMarks
    obtain ⟨wasClean, noMark⟩ := marks isClean
    refine (racing.clean wasClean ?_).mono written stored sameWrote
    intro j isWriter
    by_cases same : j = i
    · rw [same]
      exact noMark
    · rw [← only.pending j same]
      exact noMarks j isWriter
  case erased =>
    intro isErased
    rw [writeNode] at isErased
    exact (racing.erased isErased).mono written stored sameWrote

/-- A write that succeeds is followed by its mark, while the closing thread is
not about to finish. -/
theorem racing_of_write (racing : Racing race start v locals pending)
    (other : i ≠ race.closer)
    (only : OnlyThread i locals locals' pending pending')
    (file : v'.OfFile start) (written : v.written <+: v'.written)
    (writeNode : v'.writeNode = v.writeNode) (isOpen : v.writeNode ≠ none)
    (modified : v'.modified = v.modified)
    (here : WriterAt race start v' i (locals' i) (pending' i))
    (marks : pending' i (.markModified race.path))
    (notFinishing : ¬ pending race.closer (.finishUpload race.path)) :
    Racing race start v' locals' pending' := by
  have closerLocals := only.locals race.closer other.symm
  have closerPending := only.pending race.closer other.symm
  constructor
  case file => exact file
  case writers =>
    intro j isWriter
    by_cases same : j = i
    · rw [same]
      exact here
    · rw [only.locals j same, only.pending j same]
      apply (racing.writers j isWriter).mono written
      intro _ isOpen
      rwa [writeNode]
  case closer =>
    rw [closerLocals, closerPending]
    constructor
    case deciding =>
      intro _
      rwa [writeNode]
    case flushing =>
      intro mutex flushes
      rw [writeNode, modified]
      exact racing.closer.flushing mutex flushes
    case uploading =>
      intro left mutex uploads
      rw [writeNode, modified]
      exact racing.closer.uploading left mutex uploads
    case finishing =>
      intro finishes
      exact (notFinishing finishes).elim
    case erasing =>
      intro _
      rwa [writeNode]
  case uploaded =>
    rw [closerPending]
    intro finishes
    exact (notFinishing finishes).elim
  case clean =>
    intro _ noMarks
    exact (noMarks i other marks).elim
  case erased =>
    intro isErased
    rw [writeNode] at isErased
    exact (isOpen isErased).elim

/-- A step of the closing thread.  It erases the entry only when no writer is
about to use it. -/
theorem racing_of_closer (racing : Racing race start v locals pending)
    (only : OnlyThread race.closer locals locals' pending pending')
    (file : v'.OfFile start) (written : v'.written = v.written)
    (looked : v'.writeNode = v.writeNode ∨ ∀ j, j ≠ race.closer →
      ∀ data position mutex,
        ¬ pending j (.writeStream race.path data position mutex))
    (closer : CloserAt race.path start v' (locals' race.closer)
      (pending' race.closer))
    (uploaded : pending' race.closer (.finishUpload race.path) →
      StoresWrites race start v' locals)
    (clean : v'.modified = some false →
      (∀ j, j ≠ race.closer → ¬ pending j (.markModified race.path)) →
        StoresWrites race start v' locals)
    (erased : v'.writeNode = none → StoresWrites race start v' locals) :
    Racing race start v' locals' pending' := by
  have sameWrote : ∀ j, j ≠ race.closer →
      (locals' j).wrote = (locals j).wrote := by
    intro j isWriter
    rw [only.locals j isWriter]
  have transfer : StoresWrites race start v' locals →
      StoresWrites race start v' locals' :=
    fun stores => stores.mono (List.prefix_refl _) rfl sameWrote
  constructor
  case file => exact file
  case writers =>
    intro j isWriter
    rw [only.locals j isWriter, only.pending j isWriter]
    apply (racing.writers j isWriter).mono
    · rw [written]
    · rintro ⟨data, position, mutex, looks⟩ isOpen
      cases looked with
      | inl same => rwa [same]
      | inr nobody => exact (nobody j isWriter data position mutex looks).elim
  case closer => exact closer
  case uploaded =>
    intro finishes
    exact transfer (uploaded finishes)
  case clean =>
    intro isClean noMarks
    refine transfer (clean isClean fun j isWriter => ?_)
    rw [← only.pending j isWriter]
    exact noMarks j isWriter
  case erased =>
    intro isErased
    exact transfer (erased isErased)

end Steps

end DistributedFilesystem
