import DistributedFilesystem.ConcurrentCloseViews

/-!
# Steps of a write and of a close

Each action of a call that writes or closes the file keeps the invariant of the
race.  The action that erases the entry of `opened_files` does so when it comes
in time: when no other call is about to use the entry, and when the file is not
marked as modified without having been uploaded.
-/

namespace DistributedFilesystem

open LockedThreads TransitionRuns

variable {ι : Type*}

/-- The step erases the entry of `opened_files` only when no other call is about
to use it, and without an upload only when the file is not marked. -/
def ErasesInTime (race : CloseRace ι) (label : ι × CallChoice)
    (σ : Calls ι Server) : Prop :=
  ∀ action rest, (σ.threads label.1).code = .act action :: rest →
    (action = .eraseOpened race.path → ∀ info,
      σ.shared.client.cache race.path = some info →
        info.locallyModified = false) ∧
    (action = .eraseOpened race.path ∨ action = .finishUpload race.path →
      ∀ i, i ≠ race.closer → ∀ data position mutex,
        ¬ σ.pending i (.writeStream race.path data position mutex))

section Steps

variable {race : CloseRace ι} {start : RaceStart} {σ σ' : Calls ι Server}

/-- What holds in every state of the race. -/
structure RaceInvariant (race : CloseRace ι) (start : RaceStart)
    (σ : Calls ι Server) : Prop where
  suited : (callDiscipline Remote.direct).Holds σ
  writerCode : ∀ i, i ≠ race.closer →
    WriterCode race.path start.mutex (race.data i) (race.position i)
      (σ.threads i).code
  closerCode : CloserCode race.path start.mutex (σ.threads race.closer).code
  racing : Racing race start (σ.shared.raceView race.path start.node)
    σ.locals σ.pending

/-- Two calls do not release the mutex of the file at the same time. -/
theorem RaceInvariant.not_both_release (invariant : RaceInvariant race start σ)
    {i j : ι} {mutex : Nat} (apart : i ≠ j)
    (first : .fileMutex mutex ∈ σ.held i)
    (second : .unlock (.fileMutex mutex) ∈ (σ.threads j).code)
    (notRequested : .lock (.fileMutex mutex) ∉ (σ.threads j).code) : False := by
  have held := mem_held_of_unlock (invariant.suited j).2 second notRequested
  exact apart (State.eq_of_mem_held first held)

/-- A step that only requests or releases a mutex. -/
theorem raceInvariant_of_quiet [DecidableEq ι]
    (invariant : RaceInvariant race start σ)
    (suited : (callDiscipline Remote.direct).Holds σ') {i : ι}
    {instr : Instr ClientLock CallAction} {rest : CallCode}
    (notAct : ∀ a, instr ≠ .act a) (code : (σ.threads i).code = instr :: rest)
    (shared : σ'.shared = σ.shared)
    (thread : σ'.threads i = ⟨(σ.threads i).locals, rest⟩)
    (others : ∀ j, j ≠ i → σ'.threads j = σ.threads j) :
    RaceInvariant race start σ' := by
  have sameLocals : σ'.locals = σ.locals := by
    funext j
    by_cases same : j = i
    · simp [Calls.locals, same, thread]
    · simp [Calls.locals, others j same]
  have samePending : σ'.pending = σ.pending := by
    funext j a
    by_cases same : j = i
    · simp [Calls.pending, same, thread, code, (notAct a).symm]
    · simp [Calls.pending, others j same]
  constructor
  case suited => exact suited
  case writerCode =>
    intro j isWriter
    have shape := invariant.writerCode j isWriter
    by_cases same : j = i
    · subst same
      rw [code] at shape
      rw [thread]
      exact shape.tail
    · rw [others j same]
      exact shape
  case closerCode =>
    have shape := invariant.closerCode
    by_cases same : race.closer = i
    · rw [same, code] at shape
      rw [same, thread]
      exact shape.tail
    · rw [others _ same]
      exact shape
  case racing =>
    rw [shared, sameLocals, samePending]
    exact invariant.racing

section Acts

variable {i : ι} {locals : CallLocals} {after : CallCode}

/-- Thread `i` ran an action, and all other threads are as they were. -/
structure ActedAlone (i : ι) (locals : CallLocals) (after : CallCode)
    (σ σ' : Calls ι Server) : Prop where
  thread : σ'.threads i = ⟨locals, after⟩
  others : ∀ j, j ≠ i → σ'.threads j = σ.threads j

theorem ActedAlone.only (acted : ActedAlone i locals after σ σ') :
    OnlyThread i σ.locals σ'.locals σ.pending σ'.pending where
  locals j apart := by simp [Calls.locals, acted.others j apart]
  pending j apart := by
    funext a
    simp [Calls.pending, acted.others j apart]

theorem ActedAlone.locals_eq (acted : ActedAlone i locals after σ σ') :
    σ'.locals i = locals := by
  simp [Calls.locals, acted.thread]

theorem ActedAlone.pending_eq (acted : ActedAlone i locals after σ σ') :
    σ'.pending i = fun a => .act a ∈ after := by
  funext a
  simp [Calls.pending, acted.thread]

theorem raceInvariant_of_writer (invariant : RaceInvariant race start σ)
    (suited : (callDiscipline Remote.direct).Holds σ') (other : i ≠ race.closer)
    (acted : ActedAlone i locals after σ σ')
    (shape : WriterCode race.path start.mutex (race.data i) (race.position i)
      after)
    (racing : Racing race start (σ'.shared.raceView race.path start.node)
      σ'.locals σ'.pending) : RaceInvariant race start σ' := by
  constructor
  case suited => exact suited
  case writerCode =>
    intro j isWriter
    by_cases same : j = i
    · subst same
      rw [acted.thread]
      exact shape
    · rw [acted.others j same]
      exact invariant.writerCode j isWriter
  case closerCode =>
    rw [acted.others _ other.symm]
    exact invariant.closerCode
  case racing => exact racing

theorem raceInvariant_of_closer (invariant : RaceInvariant race start σ)
    (suited : (callDiscipline Remote.direct).Holds σ')
    (acted : ActedAlone race.closer locals after σ σ')
    (shape : CloserCode race.path start.mutex after)
    (racing : Racing race start (σ'.shared.raceView race.path start.node)
      σ'.locals σ'.pending) : RaceInvariant race start σ' := by
  constructor
  case suited => exact suited
  case writerCode =>
    intro j isWriter
    rw [acted.others j isWriter]
    exact invariant.writerCode j isWriter
  case closerCode =>
    rw [acted.thread]
    exact shape
  case racing => exact racing

/-- A section of a call that writes, of which the race sees nothing. -/
theorem raceInvariant_of_writer_view (invariant : RaceInvariant race start σ)
    (suited : (callDiscipline Remote.direct).Holds σ') (other : i ≠ race.closer)
    (acted : ActedAlone i locals after σ σ')
    (shape : WriterCode race.path start.mutex (race.data i) (race.position i)
      after)
    (view : σ'.shared.raceView race.path start.node =
      σ.shared.raceView race.path start.node)
    (wrote : locals.wrote = (σ.threads i).locals.wrote)
    (noMark : ¬ σ.pending i (.markModified race.path))
    (here : WriterAt race start (σ.shared.raceView race.path start.node) i locals
      fun a => .act a ∈ after) : RaceInvariant race start σ' := by
  apply raceInvariant_of_writer invariant suited other acted shape
  rw [view]
  apply racing_of_writer invariant.racing other acted.only invariant.racing.file
    (List.prefix_refl _) rfl rfl id
  · rw [acted.locals_eq]
    exact wrote
  · rw [acted.locals_eq, acted.pending_eq]
    exact here
  · exact fun isClean => ⟨isClean, noMark⟩

/-- A section of the call that closes, of which the race sees nothing. -/
theorem raceInvariant_of_closer_view (invariant : RaceInvariant race start σ)
    (suited : (callDiscipline Remote.direct).Holds σ')
    (acted : ActedAlone race.closer locals after σ σ')
    (shape : CloserCode race.path start.mutex after)
    (view : σ'.shared.raceView race.path start.node =
      σ.shared.raceView race.path start.node)
    (here : CloserAt race.path start (σ.shared.raceView race.path start.node)
      locals fun a => .act a ∈ after)
    (goesOn : .act (.finishUpload race.path) ∉ after) :
    RaceInvariant race start σ' := by
  have racing := invariant.racing
  apply raceInvariant_of_closer invariant suited acted shape
  rw [view]
  apply racing_of_closer racing acted.only racing.file rfl (.inl rfl)
  case closer =>
    rw [acted.locals_eq, acted.pending_eq]
    exact here
  case uploaded =>
    intro finishes
    rw [acted.pending_eq] at finishes
    exact (goesOn finishes).elim
  case clean => exact racing.clean
  case erased => exact racing.erased

end Acts

/-- What a usable entry says about the view. -/
theorem view_of_usableStreams {streams : FileStreams} {path : Path}
    {s : SharedClient Server}
    (file : (s.raceView path start.node).OfFile start)
    (usable : s.client.usableStreams path = some streams) :
    (s.raceView path start.node).writeNode ≠ none ∧
      s.mutexOf path = start.mutex ∧ s.entryOf path = start.entry := by
  obtain ⟨-, opened, hasMutex⟩ := Client.usableStreams_eq_some.mp usable
  have isOpen : (s.raceView path start.node).writeNode ≠ none := by
    simp [SharedClient.raceView, opened]
  obtain ⟨-, sameMutex, sameEntry, -⟩ := file.opened isOpen
  refine ⟨isOpen, ?_, sameEntry⟩
  simpa [SharedClient.raceView, hasMutex] using sameMutex

section Writers

variable {i : ι} {c : CallChoice} {locals : CallLocals} {after rest : CallCode}

theorem raceInvariant_of_findWrite (invariant : RaceInvariant race start σ)
    (suited : (callDiscipline Remote.direct).Holds σ') (other : i ≠ race.closer)
    (code : (σ.threads i).code =
      [.act (.findWrite race.path (race.data i) (race.position i))])
    (executes : execCall Remote.direct
      (.findWrite race.path (race.data i) (race.position i)) c σ.shared
        (σ.threads i).locals [] = some (σ'.shared, locals, after))
    (acted : ActedAlone i locals after σ σ') : RaceInvariant race start σ' := by
  have racing := invariant.racing
  have writer := racing.writers i other
  have noMark : ¬ σ.pending i (.markModified race.path) := by
    simp [Calls.pending, code]
  simp only [execCall] at executes
  split at executes
  next streams usable =>
    simp only [Option.some.injEq, Prod.mk.injEq] at executes
    obtain ⟨sameShared, rfl, rfl⟩ := executes
    obtain ⟨isOpen, sameMutex, sameEntry⟩ :=
      view_of_usableStreams racing.file usable
    rw [sameMutex] at acted
    apply raceInvariant_of_writer_view invariant suited other acted
    case shape => exact .inr (.inl (List.suffix_refl _))
    case view => rw [← sameShared]
    case wrote => rfl
    case noMark => exact noMark
    case here =>
      constructor
      case recorded => exact writer.recorded
      case acknowledged => exact writer.acknowledged
      case looked => exact fun _ _ _ _ => ⟨sameEntry, isOpen⟩
      case synced => simp
  next unusable =>
    simp only [Option.some.injEq, Prod.mk.injEq] at executes
    obtain ⟨sameShared, rfl, rfl⟩ := executes
    apply raceInvariant_of_writer_view invariant suited other acted
    case shape => exact .inr (.inr (.inr (.inl (List.suffix_refl _))))
    case view => rw [← sameShared]
    case wrote => rfl
    case noMark => exact noMark
    case here =>
      constructor
      case recorded => exact writer.recorded
      case acknowledged => simp
      case looked => simp
      case synced => simp

/-- The end of `close_file` holds the mutex of the file, and so does a call that
writes. -/
theorem RaceInvariant.not_finishing (invariant : RaceInvariant race start σ)
    (other : i ≠ race.closer)
    (code : (σ.threads i).code = [.act (.writeStream race.path (race.data i)
      (race.position i) start.mutex)]) :
    ¬ σ.pending race.closer (.finishUpload race.path) := by
  intro finishes
  have suited := (invariant.suited i).2
  rw [code, callSuited_of_scope_some rfl] at suited
  have holds : .fileMutex start.mutex ∈ σ.held i := by
    rw [suited.1]
    rfl
  obtain ⟨releases, notRequested⟩ := invariant.closerCode.releases finishes
  exact invariant.not_both_release other holds releases notRequested

theorem raceInvariant_of_writeStream (invariant : RaceInvariant race start σ)
    (suited : (callDiscipline Remote.direct).Holds σ') (other : i ≠ race.closer)
    (code : (σ.threads i).code = [.act (.writeStream race.path (race.data i)
      (race.position i) start.mutex)])
    (executes : execCall Remote.direct (.writeStream race.path (race.data i)
      (race.position i) start.mutex) c σ.shared (σ.threads i).locals [] =
        some (σ'.shared, locals, after))
    (acted : ActedAlone i locals after σ σ') : RaceInvariant race start σ' := by
  have racing := invariant.racing
  have writer := racing.writers i other
  have noMark : ¬ σ.pending i (.markModified race.path) := by
    simp [Calls.pending, code]
  obtain ⟨sameEntry, isOpen⟩ := writer.looked (race.data i) (race.position i)
    start.mutex (by simp [Calls.pending, code])
  obtain ⟨isNode, -, entry, -⟩ := racing.file.opened isOpen
  have valid : σ.shared.entryOf race.path = (σ.threads i).locals.entry :=
    entry.trans sameEntry.symm
  obtain ⟨streams, opened, streamNode⟩ := Option.map_eq_some_iff.mp isNode
  obtain ⟨s', change, wrote, writes, view, whole⟩ :=
    exists_raceView_writeStreams c.answers (race.data i) (race.position i)
      opened streamNode
  have file : (s'.raceView race.path start.node).OfFile start := by
    rw [view]
    constructor
    case fresh => exact racing.file.fresh
    case node_eq => exact racing.file.node_eq
    case cached => exact racing.file.cached
    case opened => exact racing.file.opened
    case contents =>
      have before : (σ.shared.client.disk.nodes start.node).contents =
          replay start.initial σ.shared.written := racing.file.contents
      cases change with
      | none => simpa using before
      | some bytes =>
          simp only [Option.elim_some, Option.map_some, Option.toList_some]
          rw [replay_append]
          exact congrArg
            (fun contents => ByteContents.overlay contents _ bytes) before
  have written : (σ.shared.raceView race.path start.node).written <+:
      (s'.raceView race.path start.node).written := by
    rw [view]
    exact List.prefix_append _ _
  simp only [execCall, valid, decide_true, writes] at executes
  cases wrote with
  | true =>
      simp only [Option.some.injEq, Prod.mk.injEq] at executes
      obtain ⟨rfl, rfl, rfl⟩ := executes
      apply raceInvariant_of_writer invariant suited other acted
      · exact .inr (.inr (.inl (List.suffix_refl _)))
      apply racing_of_write racing other acted.only file written
        (by rw [view]) isOpen (by rw [view])
      · rw [acted.locals_eq, acted.pending_eq, view, whole rfl]
        constructor
        case recorded =>
          rintro k ⟨rfl⟩
          simp
        case acknowledged => simp
        case looked => simp [underCacheMutex]
        case synced => simp
      · rw [acted.pending_eq]
        simp [underCacheMutex]
      · exact invariant.not_finishing other code
  | false =>
      simp only [Option.some.injEq, Prod.mk.injEq] at executes
      obtain ⟨rfl, rfl, rfl⟩ := executes
      apply raceInvariant_of_writer invariant suited other acted
      · exact .inr (.inr (.inr (.inr (List.suffix_refl _))))
      apply racing_of_writer racing other acted.only file written
        (by rw [view]) (by rw [view]) (by rw [view]; exact id)
      · rw [acted.locals_eq]
        rfl
      · rw [acted.locals_eq, acted.pending_eq]
        constructor
        case recorded => exact (writer.mono written fun _ isOpen => by rwa [view]).recorded
        case acknowledged => simp
        case looked => simp
        case synced => simp
      · rw [view]
        exact fun isClean => ⟨isClean, noMark⟩

theorem raceInvariant_of_markModified (invariant : RaceInvariant race start σ)
    (suited : (callDiscipline Remote.direct).Holds σ') (other : i ≠ race.closer)
    (code : (σ.threads i).code = .act (.markModified race.path) :: rest)
    (remaining : rest = .unlock .cacheMutex ::
      (underCacheMutex (.syncWrite race.path) ++
        [.unlock (.fileMutex start.mutex)]))
    (executes : execCall Remote.direct (.markModified race.path) c σ.shared
      (σ.threads i).locals rest = some (σ'.shared, locals, after))
    (acted : ActedAlone i locals after σ σ') : RaceInvariant race start σ' := by
  have racing := invariant.racing
  have writer := racing.writers i other
  have wrote : (σ.locals i).wrote ≠ none := by
    apply writer.synced
    simp [Calls.pending, code, remaining, underCacheMutex]
  have shape := invariant.writerCode i other
  rw [code] at shape
  simp only [execCall, Option.some.injEq, Prod.mk.injEq] at executes
  obtain ⟨sameShared, rfl, rfl⟩ := executes
  have view := raceView_markModified σ.shared race.path start.node
  rw [sameShared] at view
  apply raceInvariant_of_writer invariant suited other acted shape.tail
  rw [view]
  apply racing_of_writer racing other acted.only
  case file => 
    exact ⟨racing.file.fresh, racing.file.node_eq, by simp, racing.file.contents,
      racing.file.opened⟩
  case written => exact List.prefix_refl _
  case stored => rfl
  case writeNode => rfl
  case modified => exact fun _ => rfl
  case wrote =>
    rw [acted.locals_eq]
    rfl
  case here =>
    rw [acted.locals_eq, acted.pending_eq]
    constructor
    case recorded => exact writer.recorded
    case acknowledged => exact writer.acknowledged
    case looked => simp [remaining, underCacheMutex]
    case synced => exact fun _ => wrote
  case marks => simp

theorem raceInvariant_of_syncWrite (invariant : RaceInvariant race start σ)
    (suited : (callDiscipline Remote.direct).Holds σ') (other : i ≠ race.closer)
    (code : (σ.threads i).code = .act (.syncWrite race.path) :: rest)
    (remaining : rest =
      [.unlock .cacheMutex, .unlock (.fileMutex start.mutex)])
    (executes : execCall Remote.direct (.syncWrite race.path) c σ.shared
      (σ.threads i).locals rest = some (σ'.shared, locals, after))
    (acted : ActedAlone i locals after σ σ') : RaceInvariant race start σ' := by
  have racing := invariant.racing
  have writer := racing.writers i other
  have wrote : (σ.locals i).wrote ≠ none := by
    apply writer.synced
    simp [Calls.pending, code]
  have noMark : ¬ σ.pending i (.markModified race.path) := by
    simp [Calls.pending, code, remaining]
  have shape := invariant.writerCode i other
  rw [code] at shape
  simp only [execCall, Option.some.injEq, Prod.mk.injEq] at executes
  obtain ⟨sameShared, rfl, rfl⟩ := executes
  have view : σ'.shared.raceView race.path start.node =
      σ.shared.raceView race.path start.node := by
    rw [← sameShared]
    rfl
  apply raceInvariant_of_writer_view invariant suited other acted shape.tail view
    rfl noMark
  constructor
  case recorded => exact writer.recorded
  case acknowledged => exact fun _ => wrote
  case looked => simp [remaining]
  case synced => simp [remaining]

end Writers

section Closer

variable {c : CallChoice} {locals : CallLocals} {after rest : CallCode}

theorem raceInvariant_of_decideFlush (invariant : RaceInvariant race start σ)
    (suited : (callDiscipline Remote.direct).Holds σ')
    (code : (σ.threads race.closer).code = [.act (.decideFlush race.path)])
    (executes : execCall Remote.direct (.decideFlush race.path) c σ.shared
      (σ.threads race.closer).locals [] = some (σ'.shared, locals, after))
    (acted : ActedAlone race.closer locals after σ σ') :
    RaceInvariant race start σ' := by
  have racing := invariant.racing
  have isOpen := racing.closer.deciding (by simp [Calls.pending, code])
  obtain ⟨isNode, isMutex, -, sameStreams⟩ := racing.file.opened isOpen
  obtain ⟨streams, opened, -⟩ := Option.map_eq_some_iff.mp isNode
  have hasMutex : race.path ∈ σ.shared.client.fileMutexes := by
    by_contra missing
    simp [SharedClient.raceView, missing] at isMutex
  have sameMutex : σ.shared.mutexOf race.path = start.mutex := by
    simpa [SharedClient.raceView, hasMutex] using isMutex
  have isCached : σ.shared.client.cache race.path ≠ none := by
    simpa [SharedClient.raceView] using racing.file.cached
  obtain ⟨info, cached⟩ := Option.ne_none_iff_exists'.mp isCached
  simp only [execCall, opened, hasMutex, not_true_eq_false, if_false, cached,
    Option.some.injEq, Prod.mk.injEq] at executes
  obtain ⟨sameShared, rfl, rfl⟩ := executes
  rw [sameMutex] at acted
  apply raceInvariant_of_closer_view invariant suited acted
  case shape => exact .inr (.inl (List.suffix_refl _))
  case view => rw [← sameShared]
  case here =>
    constructor
    case flushing =>
      intro mutex _
      refine ⟨sameStreams, isOpen, fun isModified => ?_⟩
      have modified : info.locallyModified = true := isModified
      simp [SharedClient.raceView, cached, modified]
    all_goals simp
  case goesOn => simp

theorem raceInvariant_of_flushStreams (invariant : RaceInvariant race start σ)
    (suited : (callDiscipline Remote.direct).Holds σ')
    (code : (σ.threads race.closer).code =
      [.act (.flushStreams race.path start.mutex)])
    (executes : execCall Remote.direct (.flushStreams race.path start.mutex) c
      σ.shared (σ.threads race.closer).locals [] =
        some (σ'.shared, locals, after))
    (acted : ActedAlone race.closer locals after σ σ') :
    RaceInvariant race start σ' := by
  have racing := invariant.racing
  obtain ⟨pointers, isOpen, isModified⟩ :=
    racing.closer.flushing start.mutex (by simp [Calls.pending, code])
  obtain ⟨isNode, -, -, sameStreams⟩ := racing.file.opened isOpen
  obtain ⟨streams, opened, -⟩ := Option.map_eq_some_iff.mp isNode
  have valid : σ.shared.streamsOf race.path =
      (σ.threads race.closer).locals.streams := sameStreams.trans pointers.symm
  simp only [execCall, valid, decide_true] at executes
  split at executes
  next needed =>
    have modified := isModified needed
    obtain ⟨s', found, flushes, view, isFound⟩ :=
      exists_raceView_flushStreams c.answers start.node opened
    rw [flushes] at executes
    cases found with
    | some node =>
        simp only [Option.some.injEq, Prod.mk.injEq] at executes
        obtain ⟨rfl, rfl, rfl⟩ := executes
        have sameNode : node = start.node :=
          Option.some.inj ((isFound node rfl).symm.trans racing.file.node_eq)
        apply raceInvariant_of_closer_view invariant suited acted
        case shape => exact .inr (.inr (.inl ⟨_, List.suffix_refl _⟩))
        case view => exact view
        case here =>
          constructor
          case uploading => exact fun _ _ _ => ⟨sameNode, isOpen, modified⟩
          all_goals simp
        case goesOn => simp
    | none =>
        simp only [Option.some.injEq, Prod.mk.injEq] at executes
        obtain ⟨rfl, rfl, rfl⟩ := executes
        apply raceInvariant_of_closer_view invariant suited acted
        case shape => exact .inr (.inr (.inr (.inr (.inr (List.suffix_refl _)))))
        case view => exact view
        case here => constructor <;> simp
        case goesOn => simp
  next notNeeded =>
    simp only [Option.some.injEq, Prod.mk.injEq] at executes
    obtain ⟨sameShared, rfl, rfl⟩ := executes
    apply raceInvariant_of_closer_view invariant suited acted
    case shape => exact .inr (.inr (.inr (.inl (List.suffix_refl _))))
    case view => rw [← sameShared]
    case here =>
      constructor
      case erasing => exact fun _ => isOpen
      all_goals simp
    case goesOn => simp

theorem raceInvariant_of_upload (invariant : RaceInvariant race start σ)
    (suited : (callDiscipline Remote.direct).Holds σ') {left : Nat}
    (code : (σ.threads race.closer).code =
      [.act (.upload race.path left start.mutex)])
    (executes : execCall Remote.direct (.upload race.path left start.mutex) c
      σ.shared (σ.threads race.closer).locals [] =
        some (σ'.shared, locals, after))
    (acted : ActedAlone race.closer locals after σ σ') :
    RaceInvariant race start σ' := by
  have racing := invariant.racing
  obtain ⟨sameNode, isOpen, isModified⟩ :=
    racing.closer.uploading left start.mutex (by simp [Calls.pending, code])
  have isNode : (σ.threads race.closer).locals.node = start.node := sameNode
  have contents : (σ.shared.client.disk.nodes start.node).contents =
      replay start.initial σ.shared.written := racing.file.contents
  obtain ⟨s', response, call, stores⟩ :=
    Client.stores_of_closeCall σ.shared.client race.path σ.shared.remote
      (replay start.initial σ.shared.written)
  have ok : Status.OK.isOk = true := rfl
  simp only [execCall, isNode, contents, call, ok, if_true, Option.some.injEq,
    Prod.mk.injEq] at executes
  obtain ⟨sameShared, rfl, rfl⟩ := executes
  have view : σ'.shared.raceView race.path start.node =
      { σ.shared.raceView race.path start.node with
        stored := some (replay start.initial σ.shared.written) } := by
    rw [← sameShared]
    ext1
    case stored => exact stores.read
    all_goals rfl
  apply raceInvariant_of_closer invariant suited acted
  · exact .inr (.inr (.inr (.inr (.inl (List.suffix_refl _)))))
  rw [view]
  apply racing_of_closer racing acted.only
  case file => exact ⟨racing.file.fresh, racing.file.node_eq, racing.file.cached,
    racing.file.contents, racing.file.opened⟩
  case written => rfl
  case looked => exact .inl rfl
  case closer =>
    rw [acted.pending_eq]
    constructor
    case finishing => exact fun _ => ⟨isOpen, isModified⟩
    all_goals simp
  case uploaded =>
    intro _
    refine ⟨σ.shared.written.length, le_refl _, ?_, ?_⟩
    · simp [SharedClient.raceView]
    · intro j isWriter k wrote
      have recorded := (racing.writers j isWriter).recorded k wrote
      exact (List.getElem?_eq_some_iff.mp recorded).1
  case clean =>
    intro isClean
    have contradictory := isModified.symm.trans isClean
    simp at contradictory
  case erased => exact fun isErased => (isOpen isErased).elim

theorem raceInvariant_of_finishUpload (invariant : RaceInvariant race start σ)
    (suited : (callDiscipline Remote.direct).Holds σ')
    (code : (σ.threads race.closer).code = .act (.finishUpload race.path) :: rest)
    (remaining : rest = [.unlock (.fileMutex start.mutex), .unlock .cacheMutex])
    (nobody : ∀ i, i ≠ race.closer → ∀ data position mutex,
      ¬ σ.pending i (.writeStream race.path data position mutex))
    (executes : execCall Remote.direct (.finishUpload race.path) c σ.shared
      (σ.threads race.closer).locals rest = some (σ'.shared, locals, after))
    (acted : ActedAlone race.closer locals after σ σ') :
    RaceInvariant race start σ' := by
  have racing := invariant.racing
  have stores := racing.uploaded (by simp [Calls.pending, code])
  have isCached : σ.shared.client.cache race.path ≠ none := by
    simpa [SharedClient.raceView] using racing.file.cached
  have shape := invariant.closerCode
  rw [code] at shape
  simp only [execCall, Option.some.injEq, Prod.mk.injEq] at executes
  obtain ⟨sameShared, rfl, rfl⟩ := executes
  have view := raceView_finishUpload isCached start.node
    (σ.threads race.closer).locals.timestamp
  rw [sameShared] at view
  apply raceInvariant_of_closer invariant suited acted shape.tail
  rw [view]
  apply racing_of_closer racing acted.only
  case file =>
    exact ⟨racing.file.fresh, racing.file.node_eq, by simp, racing.file.contents,
      by simp⟩
  case written => rfl
  case looked => exact .inr nobody
  case closer =>
    rw [acted.pending_eq, remaining]
    constructor <;> simp
  case uploaded => simp [acted.pending_eq, remaining]
  case clean => exact fun _ _ => stores
  case erased => exact fun _ => stores

theorem raceInvariant_of_eraseOpened (invariant : RaceInvariant race start σ)
    (suited : (callDiscipline Remote.direct).Holds σ')
    (code : (σ.threads race.closer).code = .act (.eraseOpened race.path) :: rest)
    (remaining : rest = [.unlock (.fileMutex start.mutex), .unlock .cacheMutex])
    (notModified : ∀ info, σ.shared.client.cache race.path = some info →
      info.locallyModified = false)
    (nobody : ∀ i, i ≠ race.closer → ∀ data position mutex,
      ¬ σ.pending i (.writeStream race.path data position mutex))
    (executes : execCall Remote.direct (.eraseOpened race.path) c σ.shared
      (σ.threads race.closer).locals rest = some (σ'.shared, locals, after))
    (acted : ActedAlone race.closer locals after σ σ') :
    RaceInvariant race start σ' := by
  have racing := invariant.racing
  have isCached : σ.shared.client.cache race.path ≠ none := by
    simpa [SharedClient.raceView] using racing.file.cached
  obtain ⟨info, cached⟩ := Option.ne_none_iff_exists'.mp isCached
  have isClean : (σ.shared.raceView race.path start.node).modified =
      some false := by
    simp [SharedClient.raceView, cached, notModified info cached]
  have holds : .fileMutex start.mutex ∈ σ.held race.closer := by
    apply mem_held_of_unlock (invariant.suited race.closer).2
    · simp [code, remaining]
    · simp [code, remaining]
  have stores : StoresWrites race start
      (σ.shared.raceView race.path start.node) σ.locals := by
    apply racing.clean isClean
    intro j isWriter marks
    obtain ⟨releases, notRequested⟩ :=
      (invariant.writerCode j isWriter).releases marks
    exact invariant.not_both_release isWriter.symm holds releases notRequested
  have shape := invariant.closerCode
  rw [code] at shape
  simp only [execCall, Option.some.injEq, Prod.mk.injEq] at executes
  obtain ⟨sameShared, rfl, rfl⟩ := executes
  have view := raceView_eraseOpened σ.shared race.path start.node
  rw [sameShared] at view
  apply raceInvariant_of_closer invariant suited acted shape.tail
  rw [view]
  apply racing_of_closer racing acted.only
  case file =>
    exact ⟨racing.file.fresh, racing.file.node_eq, racing.file.cached,
      racing.file.contents, by simp⟩
  case written => rfl
  case looked => exact .inr nobody
  case closer =>
    rw [acted.pending_eq, remaining]
    constructor <;> simp
  case uploaded => simp [acted.pending_eq, remaining]
  case clean => exact fun _ _ => stores
  case erased => exact fun _ => stores

end Closer

/-- A step that erases the entry in time, if it does, keeps the invariant. -/
theorem raceInvariant_of_step [DecidableEq ι] {label : ι × CallChoice}
    (inTime : ErasesInTime race label σ) (invariant : RaceInvariant race start σ)
    (steps : step (execCall Remote.direct) label σ = some σ') :
    RaceInvariant race start σ' := by
  obtain ⟨i, c⟩ := label
  have suited := (callDiscipline Remote.direct).holds_of_step invariant.suited
    (fun _ _ _ => trivial) steps
  have moved := moved_of_step steps
  have others : ∀ j, j ≠ i → σ'.threads j = σ.threads j :=
    fun j apart => moved.threads_ne apart
  cases moved.advanced with
  | quiet instr rest notAct code shared thread =>
      exact raceInvariant_of_quiet invariant suited notAct code shared thread
        others
  | act a rest after locals code executes thread =>
      have acted : ActedAlone i locals after σ σ' := ⟨thread, others⟩
      obtain ⟨notModified, nobody⟩ := inTime a rest code
      by_cases isCloser : i = race.closer
      · subst isCloser
        have shape := invariant.closerCode
        rw [code] at shape
        rcases shape.cases_act with ⟨rfl, rfl⟩ | ⟨rfl, rfl⟩ | ⟨left, rfl, rfl⟩ |
          ⟨rfl, remaining⟩ | ⟨rfl, remaining⟩
        · exact raceInvariant_of_decideFlush invariant suited code executes acted
        · exact raceInvariant_of_flushStreams invariant suited code executes acted
        · exact raceInvariant_of_upload invariant suited code executes acted
        · exact raceInvariant_of_eraseOpened invariant suited code remaining
            (notModified rfl) (nobody (.inl rfl)) executes acted
        · exact raceInvariant_of_finishUpload invariant suited code remaining
            (nobody (.inr rfl)) executes acted
      · have shape := invariant.writerCode i isCloser
        rw [code] at shape
        rcases shape.cases_act with ⟨rfl, rfl⟩ | ⟨rfl, rfl⟩ | ⟨rfl, remaining⟩ |
          ⟨rfl, remaining⟩
        · exact raceInvariant_of_findWrite invariant suited isCloser code executes
            acted
        · exact raceInvariant_of_writeStream invariant suited isCloser code
            executes acted
        · exact raceInvariant_of_markModified invariant suited isCloser code
            remaining executes acted
        · exact raceInvariant_of_syncWrite invariant suited isCloser code
            remaining executes acted

end Steps

end DistributedFilesystem
