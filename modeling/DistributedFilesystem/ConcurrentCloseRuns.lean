import DistributedFilesystem.ConcurrentCloseSteps

/-!
# Which writes a concurrent close keeps

`close_file` reads under `cache_mutex` whether it has to upload the file, and
releases that mutex before it takes the mutex of the file.  A write that falls
in between is acknowledged, but the close erases the entry of `opened_files`
without an upload.  A write that looked up the entry before it was erased goes
on with an iterator that points nowhere.  All other writes are kept.
-/

namespace DistributedFilesystem

open LockedThreads TransitionRuns

variable {ι : Type*}

section Runs

/-- The file when the calls start: open, cached, and as the server has it if it
is not marked as modified. -/
structure SharedClient.OpenFor (s : SharedClient Server) (path : Path)
    (start : RaceStart) : Prop where
  opened : ∃ streams, s.client.openedFiles path = some streams ∧
    streams.writeStream.node = start.node
  hasMutex : path ∈ s.client.fileMutexes
  mutex : s.mutexOf path = start.mutex
  entry : s.entryOf path = start.entry
  streams : s.streamsOf path = start.streams
  cached : s.client.cache path ≠ none
  node : s.client.disk.node path = some start.node
  contents : (s.client.disk.nodes start.node).contents = start.initial
  clean : ∀ info, s.client.cache path = some info →
    info.locallyModified = false →
      s.remote.disk.read path = some start.initial
  fresh : s.stale = false
  written : s.written = []

/-- The local copy is what the writes made of it.  The server has it with every
write that was acknowledged, or the file is open and marked as modified; and no
call used an entry that was gone. -/
structure KeepsWrites (race : CloseRace ι) (start : RaceStart)
    (σ : Calls ι Server) : Prop where
  fresh : σ.shared.stale = false
  localCopy : σ.shared.client.disk.read race.path =
    some (replay start.initial σ.shared.written)
  kept : (∃ count ≤ σ.shared.written.length,
      σ.shared.remote.disk.read race.path =
        some (replay start.initial (σ.shared.written.take count)) ∧
      ∀ i, i ≠ race.closer → (σ.locals i).returned = some true →
        ∃ k < count, σ.shared.written[k]? =
          some (start.node, (race.position i).toNat, race.data i)) ∨
    (∃ info, σ.shared.client.cache race.path = some info ∧
      info.locallyModified = true) ∧
      σ.shared.client.openedFiles race.path ≠ none

/-- All calls have returned. -/
def Calls.Finished {σ : Type*} (σ' : Calls ι σ) : Prop :=
  ∀ i, (σ'.threads i).code = []

end Runs

section Results

variable {race : CloseRace ι} {start : RaceStart}

theorem raceInvariant_start [DecidableEq ι] {s : SharedClient Server}
    (opened : s.OpenFor race.path start) :
    RaceInvariant race start (Calls.start s race.threads) := by
  obtain ⟨streams, isOpened, streamNode⟩ := opened.opened
  obtain ⟨info, cached⟩ := Option.ne_none_iff_exists'.mp opened.cached
  have closerCode : (Calls.start s race.threads).threads race.closer =
      ⟨.start, ClientCall.program (.closeFile race.path)⟩ := by
    simp [Calls.start, CloseRace.threads, ClientThread.program]
  have writerCode : ∀ i, i ≠ race.closer →
      (Calls.start s race.threads).threads i = ⟨.start, ClientCall.program
        (.writeFile race.path (race.data i) (race.position i))⟩ := by
    intro i other
    simp [Calls.start, CloseRace.threads, other, ClientThread.program]
  have stores : (s.raceView race.path start.node).modified = some false →
      StoresWrites race start (s.raceView race.path start.node)
        (Calls.start s race.threads).locals := by
    intro isClean
    have notModified : info.locallyModified = false := by
      simpa [SharedClient.raceView, cached] using isClean
    refine ⟨0, Nat.zero_le _, opened.clean info cached notModified, ?_⟩
    intro i _ k wrote
    simp [Calls.locals, Calls.start, CallLocals.start] at wrote
  have isOpen : (s.raceView race.path start.node).writeNode ≠ none := by
    simp [SharedClient.raceView, isOpened]
  constructor
  case suited => exact callDiscipline_holds_start s race.threads
  case writerCode =>
    intro i other
    rw [writerCode i other]
    exact .inl (List.suffix_refl _)
  case closerCode =>
    rw [closerCode]
    exact .inl (List.suffix_refl _)
  case racing =>
    constructor
    case file =>
      constructor
      case fresh => exact opened.fresh
      case node_eq => exact opened.node
      case cached =>
        simpa [SharedClient.raceView, Calls.start] using opened.cached
      case contents =>
        simp [SharedClient.raceView, Calls.start, opened.contents, opened.written,
          replay]
      case opened =>
        intro _
        simp [SharedClient.raceView, Calls.start, isOpened, streamNode,
          opened.hasMutex, opened.mutex, opened.entry, opened.streams]
    case writers =>
      intro i other
      constructor
      · simp [Calls.locals, Calls.start, CallLocals.start]
      · simp [Calls.locals, Calls.start, CallLocals.start]
      · simp [Calls.pending, writerCode i other, ClientCall.program]
      · simp [Calls.pending, writerCode i other, ClientCall.program]
    case closer =>
      constructor
      case deciding => exact fun _ => isOpen
      all_goals simp [Calls.pending, closerCode, ClientCall.program]
    case uploaded => simp [Calls.pending, closerCode, ClientCall.program]
    case clean => exact fun isClean _ => stores isClean
    case erased => exact fun isErased => (isOpen isErased).elim

theorem keepsWrites_of_raceInvariant {σ : Calls ι Server}
    (invariant : RaceInvariant race start σ) (finished : σ.Finished) :
    KeepsWrites race start σ := by
  have racing := invariant.racing
  have isNode : σ.shared.client.disk.node race.path = some start.node :=
    racing.file.node_eq
  have contents : (σ.shared.client.disk.nodes start.node).contents =
      replay start.initial σ.shared.written := racing.file.contents
  have kept : StoresWrites race start
      (σ.shared.raceView race.path start.node) σ.locals →
      ∃ count ≤ σ.shared.written.length,
        σ.shared.remote.disk.read race.path =
          some (replay start.initial (σ.shared.written.take count)) ∧
        ∀ i, i ≠ race.closer → (σ.locals i).returned = some true →
          ∃ k < count, σ.shared.written[k]? =
            some (start.node, (race.position i).toNat, race.data i) := by
    rintro ⟨count, le, stored, all⟩
    refine ⟨count, le, stored, fun i other returned => ?_⟩
    have writer := racing.writers i other
    obtain ⟨k, wrote⟩ :=
      Option.ne_none_iff_exists'.mp (writer.acknowledged returned)
    exact ⟨k, all i other k wrote, writer.recorded k wrote⟩
  have isCached : σ.shared.client.cache race.path ≠ none := by
    simpa [SharedClient.raceView] using racing.file.cached
  obtain ⟨info, cached⟩ := Option.ne_none_iff_exists'.mp isCached
  refine ⟨racing.file.fresh, by simp [FileStore.read, isNode, contents], ?_⟩
  by_cases isOpen : σ.shared.client.openedFiles race.path = none
  · apply Or.inl
    apply kept
    apply racing.erased
    simp [SharedClient.raceView, isOpen]
  · cases modified : info.locallyModified with
    | true => exact .inr ⟨⟨info, cached, modified⟩, isOpen⟩
    | false =>
        apply Or.inl
        apply kept
        apply racing.clean
        · simp [SharedClient.raceView, cached, modified]
        · intro i _ marks
          simp [Calls.pending, finished i] at marks

/-- When the entry of the file is erased in time, all acknowledged writes are
kept. -/
theorem keepsWrites_of_erasesInTime [DecidableEq ι] (race : CloseRace ι)
    (start : RaceStart) (s : SharedClient Server)
    (opened : s.OpenFor race.path start) (labels : List (ι × CallChoice))
    (σ : Calls ι Server)
    (reaches : run (step (execCall Remote.direct)) labels
      (Calls.start s race.threads) = some σ)
    (inTime : Along (step (execCall Remote.direct)) (ErasesInTime race) labels
      (Calls.start s race.threads))
    (finished : σ.Finished) : KeepsWrites race start σ := by
  have invariant : RaceInvariant race start σ := by
    refine invariant_of_run ?_ reaches inTime (raceInvariant_start opened)
    intro label before after inTime invariant steps
    exact raceInvariant_of_step inTime invariant steps
  exact keepsWrites_of_raceInvariant invariant finished

/-- A file that a client has opened and not yet written to. -/
private def openedOnce : SharedClient Server :=
  let opened := (Client.launch "client").openFile .direct (.success 0) "/srv/a"
    (Server.launch "/srv" (FileStore.empty.create "/srv/a" 0) 0)
  { SharedClient.launch "client" opened.1.2 with
    client := opened.1.1
    unusedMutex := 1 }

/-- One thread closes the file while another writes a byte. -/
private def oneWrite : CloseRace Bool where
  path := "/srv/a"
  closer := true
  data _ := [98]
  position _ := 0

private def emptyFileOpened : RaceStart := ⟨0, [], 0, 0, 0⟩

/-- So many steps of one thread, with all file operations successful. -/
private def stepsOf (thread : Bool) (count : Nat) : List (Bool × CallChoice) :=
  List.replicate count (thread, ⟨.success 0, none⟩)

private theorem openedOnce_openFor :
    openedOnce.OpenFor oneWrite.path emptyFileOpened := by
  constructor
  case opened => exact ⟨_, rfl, rfl⟩
  case hasMutex => decide
  case mutex => rfl
  case entry => rfl
  case streams => rfl
  case cached => exact Option.some_ne_none _
  case node => rfl
  case contents => rfl
  case clean => exact fun _ _ _ => rfl
  case fresh => rfl
  case written => rfl

/-- The next instruction does not erase an entry. -/
private def keepsEntries : CallCode → Bool
  | .act (.eraseOpened _) :: _ | .act (.finishUpload _) :: _ => false
  | _ => true

private theorem erasesInTime_of_keepsEntries {label : Bool × CallChoice}
    {σ : Calls Bool Server}
    (keeps : keepsEntries (σ.threads label.1).code = true) :
    ErasesInTime oneWrite label σ := by
  intro action rest code
  rw [code] at keeps
  constructor
  · rintro rfl
    simp [keepsEntries] at keeps
  · rintro (rfl | rfl) <;> simp [keepsEntries] at keeps

/-- A write that is over before the close begins is uploaded. -/
theorem keepsWrites_of_erasesInTime_sequential :
    ∃ σ : Calls Bool Server,
      run (step (execCall Remote.direct)) (stepsOf false 12 ++ stepsOf true 10)
        (Calls.start openedOnce oneWrite.threads) = some σ ∧
      σ.Finished ∧ (σ.locals false).returned = some true ∧
      KeepsWrites oneWrite emptyFileOpened σ := by
  have outcome : ∃ σ : Calls Bool Server,
      run (step (execCall Remote.direct)) (stepsOf false 12 ++ stepsOf true 10)
        (Calls.start openedOnce oneWrite.threads) = some σ ∧
      ((σ.threads true).code = [] ∧ (σ.threads false).code = []) ∧
      (σ.locals false).returned = some true :=
    ⟨_, rfl, ⟨rfl, rfl⟩, rfl⟩
  obtain ⟨σ, reaches, ⟨closed, wrote⟩, returned⟩ := outcome
  have finished : σ.Finished := by
    rintro (_ | _)
    · exact wrote
    · exact closed
  have inTime : Along (step (execCall Remote.direct)) (ErasesInTime oneWrite)
      (stepsOf false 12 ++ stepsOf true 10)
      (Calls.start openedOnce oneWrite.threads) := by
    simp only [stepsOf, List.replicate, List.cons_append, List.nil_append]
    iterate 19
      refine ⟨erasesInTime_of_keepsEntries rfl, fun _ steps => ?_⟩
      obtain rfl := Option.some.inj steps
    refine ⟨?_, fun _ steps => ?_⟩
    · rintro action rest ⟨rfl⟩
      refine ⟨by simp, fun _ i other data position mutex looks => ?_⟩
      obtain rfl : i = false := by simpa [oneWrite] using other
      exact List.not_mem_nil looks
    obtain rfl := Option.some.inj steps
    iterate 2
      refine ⟨erasesInTime_of_keepsEntries rfl, fun _ steps => ?_⟩
      obtain rfl := Option.some.inj steps
    trivial
  exact ⟨σ, reaches, finished, returned, keepsWrites_of_erasesInTime oneWrite
    emptyFileOpened openedOnce openedOnce_openFor _ σ reaches inTime finished⟩

/-- A write between the two critical sections of a close is acknowledged and
lost. -/
theorem write_during_close_lost :
    ∃ (labels : List (Bool × CallChoice)) (σ : Calls Bool Server),
      openedOnce.OpenFor oneWrite.path emptyFileOpened ∧
      run (step (execCall Remote.direct)) labels
        (Calls.start openedOnce oneWrite.threads) = some σ ∧
      σ.Finished ∧ ¬ KeepsWrites oneWrite emptyFileOpened σ := by
  have outcome : ∃ σ : Calls Bool Server,
      run (step (execCall Remote.direct))
        (stepsOf true 3 ++ stepsOf false 12 ++ stepsOf true 6)
        (Calls.start openedOnce oneWrite.threads) = some σ ∧
      ((σ.threads true).code = [] ∧ (σ.threads false).code = []) ∧
      σ.shared.remote.disk.read "/srv/a" = some [] ∧
      σ.shared.written = [(0, 0, [98])] ∧
      (σ.locals false).returned = some true ∧
      σ.shared.client.openedFiles "/srv/a" = none :=
    ⟨_, rfl, ⟨rfl, rfl⟩, rfl, rfl, rfl, rfl⟩
  obtain ⟨σ, reaches, ⟨closed, wrote⟩, stored, written, returned, erased⟩ := outcome
  refine ⟨_, σ, openedOnce_openFor, reaches, ?_, ?_⟩
  · rintro (_ | _)
    · exact wrote
    · exact closed
  intro keeps
  cases keeps.kept with
  | inl kept =>
      obtain ⟨count, le, isStored, all⟩ := kept
      obtain ⟨k, before, -⟩ := all false (by decide) returned
      have one : count = 1 := by
        rw [written] at le
        simp only [List.length_singleton] at le
        omega
      have contents : σ.shared.remote.disk.read "/srv/a" =
          some (replay [] (σ.shared.written.take count)) := isStored
      rw [stored, written, one] at contents
      exact absurd contents (by decide)
  | inr open' => exact open'.2 erased

end Results

end DistributedFilesystem
