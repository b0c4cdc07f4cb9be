import DistributedFilesystem.CacheWatching

/-!
# What a phase of a call promises

A cached copy is watched, unless it is open with changes that are yet to be
uploaded.  Every section of a call keeps that promise for its own file.
-/

namespace DistributedFilesystem

/-- A cached copy is watched, unless it is open with changes that are yet to be
uploaded; a download is watched from the registration on. -/
def CallPhase.Covered (watches : Prop) (path : Path) (client : Client) :
    CallPhase → Prop
  | .idle => ∀ info, client.cache path = some info →
      watches ∨ info.locallyModified = true ∧ (client.openedFiles path).isSome
  | .opening _ | .removing | .removed | .deleted _ => client.cache path = none
  | .reading _ => client.cache path = none ∧ watches
  | .answered _ _ status =>
      client.cache path = none ∧ (status.isOk → watches)
  | .entered | .hit => (client.cache path).isSome → watches
  | .created => ∀ info, client.cache path = some info →
      info.locallyModified = true
  | .uploading _ | .received _ => (client.openedFiles path).isSome
  | .uploaded _ => (client.openedFiles path).isSome ∧
      ((client.cache path).isSome → watches)

section Covered

variable {path : Path} {client client' : Client} {s : Server}
variable {answers : LocalAnswers} {watches watches' : Prop} {phase : CallPhase}

theorem covered_idle_of_uncached (notCached : client.cache path = none) :
    CallPhase.idle.Covered watches path client := by
  intro info cached
  simp [notCached] at cached

theorem covered_idle_of_watches
    (watched : (client.cache path).isSome → watches) :
    CallPhase.idle.Covered watches path client := by
  intro info cached
  exact .inl (watched (by simp [cached]))

theorem covered_mono (cache : client'.cache path = client.cache path)
    (openedFiles : client'.openedFiles path = client.openedFiles path)
    (keeps : watches → watches')
    (covered : phase.Covered watches path client) :
    phase.Covered watches' path client' := by
  cases phase <;> simp only [CallPhase.Covered, cache, openedFiles] at covered ⊢
  case idle => exact fun info cached => (covered info cached).imp_left keeps
  case reading => exact ⟨covered.1, keeps covered.2⟩
  case answered => exact ⟨covered.1, fun ok => keeps (covered.2 ok)⟩
  case entered | hit => exact fun cached => keeps (covered cached)
  case uploaded => exact ⟨covered.1, fun cached => keeps (covered.2 cached)⟩
  all_goals exact covered

/-- A file that is cached and not open is watched, unless it was just
created. -/
theorem watches_of_covered (covered : phase.Covered watches path client)
    (notCreated : phase ≠ .created) (cached : (client.cache path).isSome)
    (closed : client.openedFiles path = none) : watches := by
  obtain ⟨info, isInfo⟩ := Option.isSome_iff_exists.mp cached
  cases phase <;> simp only [CallPhase.Covered] at covered
  case idle =>
      rcases covered info isInfo with watched | ⟨-, isOpen⟩
      · exact watched
      · simp [closed] at isOpen
  case created => exact (notCreated rfl).elim
  all_goals simp_all

theorem covered_finishOpen {forget : Client → Client}
    (forgets : (forget client).cache path = none ∨ forget client = client)
    (watched : (client.cache path).isSome → watches) :
    CallPhase.idle.Covered watches path
      (finishOpen answers path forget client) := by
  unfold finishOpen
  split
  · exact covered_idle_of_watches watched
  · rcases forgets with notCached | same
    · exact covered_idle_of_uncached notCached
    · rw [same]
      exact covered_idle_of_watches watched

theorem covered_storeAnswer {left : Nat} {responses : List FileResponse}
    {status : Status} (notCached : client.cache path = none)
    (watched : status.isOk → watches) :
    (storeAnswer answers path client left responses status).2.Covered watches
      path (storeAnswer answers path client left responses status).1 := by
  have effect := Client.storeResult answers path left responses status client
  unfold storeAnswer
  split
  · next result =>
      rw [result] at effect
      obtain ⟨-, cache⟩ | ⟨impossible, -⟩ := effect.outcome
      · exact covered_idle_of_uncached ((congrFun cache path).trans notCached)
      · simp at impossible
  · next client' status' result =>
      rw [result] at effect
      obtain ⟨impossible, -⟩ | ⟨same, -, cache⟩ := effect.outcome
      · simp at impossible
      obtain rfl := Option.some.inj same
      split
      · next ok => exact fun _ => watched ok
      · next notOk =>
          rw [if_neg notOk] at cache
          have stillNotCached := cache.trans notCached
          split
          · exact stillNotCached
          · exact covered_idle_of_uncached stillNotCached

theorem covered_finishCreate
    (modified : ∀ info, client.cache path = some info →
      info.locallyModified = true) :
    CallPhase.idle.Covered watches path
      (client.finishCreate answers path).1 := by
  unfold Client.finishCreate
  split
  · exact covered_idle_of_uncached (by simp [Client.eraseCache])
  · next streams _ =>
      have covered : CallPhase.idle.Covered watches path
          (client.insertOpened path streams) := fun info cached =>
        .inr ⟨modified info cached, by simp [Client.insertOpened]⟩
      dsimp only
      split <;> exact covered

theorem covered_beginClose
    (covered : CallPhase.idle.Covered watches path client) :
    (beginClose answers path client).2.Covered watches path
      (beginClose answers path client).1 := by
  unfold beginClose
  split
  · exact covered
  next streams opened =>
  split
  · exact covered
  split
  · next notCached => exact covered_idle_of_uncached notCached
  next info cached =>
  split
  · next modified =>
      obtain ⟨change, -, flushed⟩ :=
        Client.beginUpload_client answers path client streams
      have stillOpen :
          ((client.beginUpload answers path streams).1.openedFiles path).isSome := by
        rw [flushed]
        simp [Client.setStreams, opened]
      split
      · next begins =>
          rw [begins] at stillOpen
          exact stillOpen
      · next begins =>
          rw [begins] at stillOpen flushed
          dsimp only at flushed stillOpen ⊢
          intro info' cached'
          right
          refine ⟨?_, stillOpen⟩
          rw [flushed] at cached'
          obtain rfl := Option.some.inj (cached.symm.trans cached')
          exact modified
  · next unmodified =>
      intro info' cached'
      obtain rfl := Option.some.inj (cached.symm.trans cached')
      exact (covered info cached).imp_right fun modified =>
        (unmodified modified.1).elim

/-- The first section of a call. -/
theorem covered_begin (call : FileCall)
    (covered : CallPhase.idle.Covered watches path client) :
    (call.begin answers path client).2.Covered watches path
      (call.begin answers path client).1 := by
  cases call with
  | openFile =>
      unfold FileCall.begin
      dsimp only
      split
      · next notCached =>
          split
          · exact notCached
          · exact covered
      · exact covered
      · next info cached closed =>
          intro isCached
          exact watches_of_covered covered (by simp) isCached closed
  | createFile =>
      unfold FileCall.begin
      dsimp only
      split
      · next created begins =>
          unfold Client.beginCreate at begins
          split_ifs at begins
          obtain rfl := Option.some.inj begins
          intro info cached
          obtain rfl : ⟨true, 0⟩ = info := by
            simpa [Client.enterCache] using cached
          rfl
      · exact covered
  | writeFile data position =>
      obtain ⟨-, opened, cache⟩ :=
        writeFile_entries client answers path data position
      unfold FileCall.begin
      intro info cached
      rw [opened]
      rcases cache with same | ⟨isOpen, timestamp, written⟩
      · exact covered info (same ▸ cached)
      · obtain rfl := Option.some.inj (written.symm.trans cached)
        exact .inr ⟨rfl, isOpen⟩
  | closeFile => exact covered_beginClose covered
  | deleteFile => exact (Client.deleteResult_beginDelete path client).cache

/-- The later sections; `close` notifies the others only while its client
watches the file or nobody is registered for it. -/
theorem covered_of_advance {result : Client × Server × CallPhase}
    (watchesOf : Server → Prop)
    (registers : ∀ s : Server, s.fileMap.Registered path client.clientId →
      watchesOf s)
    (advances : phase.advance answers path client s = some result)
    (harmless : ∀ timestamp, phase = .received timestamp →
      s.fileMap path = none ∨
        watchesOf (s.finishClose path client.clientId timestamp))
    (covered : phase.Covered (watchesOf s) path client) :
    result.2.2.Covered (watchesOf result.2.1) path result.1 := by
  cases phase with
  | idle => simp [CallPhase.advance] at advances
  | opening left =>
      obtain rfl := Option.some.inj advances
      exact ⟨covered, registers _ ClientMap.registered_insertClient_self⟩
  | reading left =>
      obtain rfl := Option.some.inj advances
      exact ⟨covered.1, fun _ => covered.2⟩
  | answered left responses status =>
      obtain rfl := Option.some.inj advances
      exact covered_storeAnswer covered.1 covered.2
  | entered =>
      obtain rfl := Option.some.inj advances
      exact covered_finishOpen (.inl (by simp [Client.eraseCache])) covered
  | hit =>
      obtain rfl := Option.some.inj advances
      exact covered_finishOpen (.inr rfl) covered
  | created =>
      obtain rfl := Option.some.inj advances
      exact covered_finishCreate covered
  | uploading requests =>
      obtain rfl := Option.some.inj advances
      exact covered
  | received timestamp =>
      obtain rfl := Option.some.inj advances
      refine ⟨covered, fun _ => ?_⟩
      rcases harmless timestamp rfl with unregistered | watched
      · apply registers
        simp only [Server.finishClose, Server.fileChangeCallbackClose,
          unregistered]
        exact ClientMap.registered_insertClient_self
      · exact watched
  | uploaded timestamp =>
      obtain rfl := Option.some.inj advances
      apply covered_idle_of_watches
      intro cached
      apply covered.2
      simpa [Client.finishUpload, Client.markClean, Client.syncUpload,
        Client.updateAttr, Client.eraseOpened] using cached
  | removing =>
      simp only [CallPhase.advance] at advances
      split at advances <;>
      · obtain rfl := Option.some.inj advances
        exact covered
  | removed =>
      obtain rfl := Option.some.inj advances
      exact covered
  | deleted status =>
      obtain rfl := Option.some.inj advances
      apply covered_idle_of_uncached
      dsimp only
      split <;> exact covered

end Covered

/-- A notification that the subscriber thread processes. -/
theorem covered_processNotification {phase : CallPhase} {client : Client}
    {note : Notification} {watches watches' : Prop}
    (keeps : phase.KeepsCopy note.directory client → watches')
    (covered : phase.Covered watches note.directory client) :
    phase.Covered watches' note.directory (client.processNotification note) := by
  cases opened : client.openedFiles note.directory with
  | some streams =>
      have isOpen : (client.openedFiles note.directory).isSome := by simp [opened]
      rw [Client.processNotification_of_open isOpen]
      cases phase with
      | idle =>
          intro info cached
          cases modified : info.locallyModified with
          | true => exact .inr ⟨rfl, isOpen⟩
          | false => exact .inl (keeps ⟨isOpen, info, cached, modified⟩)
      | reading left => exact ⟨covered.1, keeps trivial⟩
      | answered left responses status => exact ⟨covered.1, keeps⟩
      | entered | hit => exact fun cached => keeps ⟨isOpen, cached⟩
      | uploaded timestamp => exact ⟨isOpen, fun cached => keeps ⟨isOpen, cached⟩⟩
      | _ => exact covered
  | none =>
      have notCached := Client.cache_processNotification_of_closed opened
      cases phase with
      | idle => exact covered_idle_of_uncached notCached
      | reading left => exact ⟨notCached, keeps trivial⟩
      | answered left responses status => exact ⟨notCached, keeps⟩
      | entered | hit => exact fun cached => by simp [notCached] at cached
      | created => exact fun info cached => by simp [notCached] at cached
      | uploading _ | received _ => simp [CallPhase.Covered, opened] at covered
      | uploaded _ => simp [CallPhase.Covered, opened] at covered
      | _ => exact notCached

end DistributedFilesystem
