import DistributedFilesystem.AttributeSections
import DistributedFilesystem.CallbackPromises
import DistributedFilesystem.ServerSections

/-!
# Copies and sections of calls

What one section of a call does to the copy that its client goes on with, and
what it leaves alone at the server: the other files, who is registered for them,
and the notifications about them.
-/

namespace DistributedFilesystem

open CallbackPromises

/-- The local file, if it is cached without changes. -/
def Client.cleanCopy (path : Path) (client : Client) : Holding (Option Bytes) :=
  match client.cache path with
  | some ⟨false, _⟩ => .copy (client.disk.read path)
  | _ => .nothing

/-- The copy of the file that a call in this phase goes on with; not one that
its client has yet to upload. -/
def CallPhase.holding (path : Path) (client : Client) :
    CallPhase → Holding (Option Bytes)
  | .idle | .entered | .hit => client.cleanCopy path
  | .reading _ => .awaiting
  | .answered _ responses status =>
      if status.isOk then .copy (some (Client.downloaded responses))
      else .nothing
  | .received _ | .uploaded _ =>
      if (client.cache path).isSome then .copy (client.disk.read path)
      else .nothing
  | _ => .nothing

/-- What a phase relies on: whether the file is cached and open, and that an
upload carries the local file. -/
structure CallPhase.Orderly (path : Path) (client : Client) (phase : CallPhase) :
    Prop where
  covered : phase.Covered True path client
  carries : ∀ requests, phase = .uploading requests →
    client.disk.read path = some (requests.map FileRequest.content).flatten

section Sections

variable {path other : Path} {client client' : Client} {s : Server}
variable {answers : LocalAnswers} {phase : CallPhase}
variable {result : Client × Server × CallPhase}

theorem cleanCopy_of_uncached (notCached : client.cache path = none) :
    client.cleanCopy path = .nothing := by
  simp [Client.cleanCopy, notCached]

theorem cleanCopy_of_modified
    (modified : ∀ info, client.cache path = some info →
      info.locallyModified = true) :
    client.cleanCopy path = .nothing := by
  unfold Client.cleanCopy
  split
  · next timestamp cached => cases modified _ cached
  · rfl

theorem holding_congr (cache : client'.cache path = client.cache path)
    (read : client'.disk.read path = client.disk.read path) :
    phase.holding path client' = phase.holding path client := by
  cases phase <;>
    simp only [CallPhase.holding, Client.cleanCopy, cache, read]

theorem orderly_congr (cache : client'.cache path = client.cache path)
    (openedFiles : client'.openedFiles path = client.openedFiles path)
    (read : client'.disk.read path = client.disk.read path)
    (orderly : phase.Orderly path client) : phase.Orderly path client' where
  covered := covered_mono cache openedFiles id orderly.covered
  carries requests uploading := by
    rw [read]
    exact orderly.carries requests uploading

/-! ## The first section -/

theorem cleanCopy_writeFile (works : answers.write = none) (data : Bytes)
    (position : Int) :
    (client.writeFile answers path data position).1.cleanCopy path =
        client.cleanCopy path ∨
      (client.writeFile answers path data position).1.cleanCopy path =
        .nothing := by
  rcases writes : client.writeFile answers path data position with
    ⟨written, _ | _⟩
  · left
    rcases Client.writeFile_eq_false works writes with rfl | rfl <;> rfl
  · right
    obtain ⟨timestamp, cache⟩ :=
      (Client.writeResult_of_writeFile writes).cache
    apply cleanCopy_of_modified
    intro info cached
    dsimp only at cached
    rw [cache, Function.update_self] at cached
    obtain rfl := Option.some.inj cached
    rfl

theorem holding_beginClose :
    (beginClose answers path client).2.holding path
        (beginClose answers path client).1 = client.cleanCopy path ∨
      (beginClose answers path client).2.holding path
        (beginClose answers path client).1 = .nothing := by
  unfold beginClose
  split
  · exact .inl rfl
  next streams _ =>
  split
  · exact .inl rfl
  split
  · exact .inl rfl
  split
  · obtain ⟨change, -, flushed⟩ :=
      Client.beginUpload_client answers path client streams
    split
    · exact .inr rfl
    · next begins =>
        rw [begins] at flushed
        dsimp only at flushed ⊢
        rw [flushed]
        exact .inl rfl
  · exact .inl rfl

/-- A client has what it had after the first section of a call, or nothing. -/
theorem holding_begin (call : FileCall)
    (works : ∀ data position, call = .writeFile data position →
      answers.write = none) :
    (call.begin answers path client).2.holding path
        (call.begin answers path client).1 = client.cleanCopy path ∨
      (call.begin answers path client).2.holding path
        (call.begin answers path client).1 = .nothing := by
  cases call with
  | openFile =>
      unfold FileCall.begin
      dsimp only
      split
      · cases answers.directories with
        | true => exact .inr rfl
        | false => exact .inl rfl
      · exact .inl rfl
      · exact .inl rfl
  | createFile =>
      unfold FileCall.begin
      dsimp only
      split
      · exact .inr rfl
      · exact .inl rfl
  | writeFile data position =>
      exact cleanCopy_writeFile (works data position rfl) data position
  | closeFile => exact holding_beginClose
  | deleteFile => exact .inr rfl

theorem not_notifies_begin (call : FileCall) :
    ¬ (call.begin answers path client).2.Notifies := by
  cases call with
  | openFile =>
      rcases phase_begin_openFile answers path client with phase | phase | phase <;>
      · rw [phase]
        exact id
  | createFile =>
      unfold FileCall.begin
      dsimp only
      split <;> exact id
  | writeFile data position => exact id
  | closeFile =>
      simp only [FileCall.begin]
      rcases phase_beginClose answers path client with phase | ⟨_, phase, -⟩ <;>
      · rw [phase]
        exact id
  | deleteFile => exact id

theorem orderly_begin (call : FileCall)
    (orderly : CallPhase.idle.Orderly path client) :
    (call.begin answers path client).2.Orderly path
      (call.begin answers path client).1 where
  covered := covered_begin call orderly.covered
  carries requests uploading := by
    cases call with
    | openFile =>
        rcases phase_begin_openFile answers path client with
          phase | phase | phase <;>
        · rw [phase] at uploading
          cases uploading
    | createFile =>
        unfold FileCall.begin at uploading
        dsimp only at uploading
        split at uploading <;> cases uploading
    | writeFile data position => cases uploading
    | closeFile =>
        simp only [FileCall.begin] at uploading ⊢
        rcases phase_beginClose answers path client with
          phase | ⟨sent, phase, -, read⟩
        · rw [phase] at uploading
          cases uploading
        · rw [phase] at uploading
          cases uploading
          exact read
    | deleteFile => cases uploading

/-! ## The later sections -/

theorem holding_storeAnswer (notCached : client.cache path = none) (left : Nat)
    (responses : List FileResponse) (status : Status) :
    (storeAnswer answers path client left responses status).2.holding path
        (storeAnswer answers path client left responses status).1 =
          (CallPhase.answered left responses status).holding path client ∨
      (storeAnswer answers path client left responses status).2.holding path
        (storeAnswer answers path client left responses status).1 =
          .nothing := by
  have effect := Client.storeResult answers path left responses status client
  unfold storeAnswer
  split
  · next stored result =>
      rw [result] at effect
      obtain ⟨-, cache⟩ | ⟨impossible, -⟩ := effect.outcome
      · exact .inr (cleanCopy_of_uncached ((congrFun cache path).trans notCached))
      · simp at impossible
  · next stored status' result =>
      rw [result] at effect
      obtain ⟨impossible, -⟩ | ⟨same, read, cache⟩ := effect.outcome
      · simp at impossible
      obtain rfl := Option.some.inj same
      split
      · next ok =>
          rw [if_pos ok] at cache
          dsimp only at cache read
          left
          simp only [CallPhase.holding, Client.cleanCopy, cache, read, ok,
            if_true]
      · next notOk =>
          rw [if_neg notOk] at cache
          right
          split
          · rfl
          · exact cleanCopy_of_uncached (cache.trans notCached)

theorem holding_finishOpen {forget : Client → Client}
    (forgets : (forget client).cache path = none ∨ forget client = client) :
    (finishOpen answers path forget client).cleanCopy path =
        client.cleanCopy path ∨
      (finishOpen answers path forget client).cleanCopy path = .nothing := by
  unfold finishOpen
  split
  · exact .inl rfl
  · rcases forgets with notCached | same
    · exact .inr (cleanCopy_of_uncached notCached)
    · exact .inl (by rw [same])

theorem cleanCopy_finishCreate
    (modified : ∀ info, client.cache path = some info →
      info.locallyModified = true) :
    (client.finishCreate answers path).1.cleanCopy path = .nothing := by
  unfold Client.finishCreate
  split
  · exact cleanCopy_of_uncached (by simp [Client.eraseCache])
  · apply cleanCopy_of_modified
    dsimp only
    split <;> exact modified

theorem cleanCopy_finishUpload (timestamp : Int) :
    (client.finishUpload path timestamp).cleanCopy path =
      if (client.cache path).isSome then .copy (client.disk.read path)
      else .nothing := by
  cases cached : client.cache path <;>
    simp [Client.cleanCopy, Client.finishUpload, Client.markClean,
      Client.syncUpload, Client.updateAttr, Client.eraseOpened, cached]

theorem orderly_of_advance (advances :
      phase.advance answers path client s = some result)
    (orderly : phase.Orderly path client) :
    result.2.2.Orderly path result.1 where
  covered := covered_of_advance (fun _ => True) (fun _ _ => trivial) advances
    (fun _ _ => .inr trivial) orderly.covered
  carries requests uploading := by
    cases phase with
    | idle => simp [CallPhase.advance] at advances
    | answered left responses status =>
        rw [advance_answered] at advances
        obtain rfl := Option.some.inj advances
        dsimp only at uploading
        rcases phase_storeAnswer answers path client left responses status with
          phase | ⟨_, phase⟩ | ⟨phase, -⟩ <;>
        · rw [phase] at uploading
          cases uploading
    | removing =>
        simp only [CallPhase.advance] at advances
        split at advances <;>
        · obtain rfl := Option.some.inj advances
          cases uploading
    | _ =>
        obtain rfl := Option.some.inj advances
        cases uploading

/-! ## Notifications -/

theorem holding_processNotification (note : Notification) :
    phase.holding note.directory (client.processNotification note) =
        phase.holding note.directory client ∨
      phase.holding note.directory (client.processNotification note) =
        .nothing := by
  cases opened : client.openedFiles note.directory with
  | some streams =>
      left
      rw [Client.processNotification_of_open (by simp [opened])]
  | none =>
      have notCached := Client.cache_processNotification_of_closed opened
      cases phase with
      | idle | entered | hit => exact .inr (cleanCopy_of_uncached notCached)
      | received _ | uploaded _ =>
          right
          simp [CallPhase.holding, notCached]
      | _ => exact .inl rfl

theorem orderly_processNotification {note : Notification}
    (orderly : phase.Orderly path client) :
    phase.Orderly path (client.processNotification note) := by
  by_cases same : path = note.directory
  · subst same
    refine ⟨covered_processNotification (fun _ => trivial) orderly.covered, ?_⟩
    intro requests uploading
    rw [Client.processNotification_disk]
    exact orderly.carries requests uploading
  · have elsewhere := Client.sameElsewhere_processNotification client note
    exact orderly_congr (elsewhere.cache path same)
      (elsewhere.openedFiles path same) (elsewhere.read path same) orderly

end Sections

/-! ## At the server -/

section Server

variable {path other : Path} {client : Client} {s : Server}
variable {answers : LocalAnswers} {phase : CallPhase}
variable {result : Client × Server × CallPhase}

theorem fileMap_finishClose (s : Server) (path : Path) (client : ClientId)
    (timestamp : Int) :
    (s.finishClose path client timestamp).fileMap =
      match s.fileMap path with
      | some _ => s.fileMap
      | none => s.fileMap.insertClient path client := by
  unfold Server.finishClose Server.fileChangeCallbackClose
  cases s.fileMap path with
  | none => rfl
  | some clients => exact Server.notifyAll_fileMap ..

theorem insertClient_ne (map : ClientMap) (client : ClientId)
    (apart : other ≠ path) : map.insertClient path client other = map other := by
  simp [ClientMap.insertClient, apart]

theorem fileMap_of_advance_ne (apart : other ≠ path)
    (advances : phase.advance answers path client s = some result) :
    result.2.1.fileMap other = s.fileMap other := by
  cases phase with
  | idle => simp [CallPhase.advance] at advances
  | opening left =>
      obtain rfl := Option.some.inj advances
      exact insertClient_ne _ _ apart
  | received timestamp =>
      obtain rfl := Option.some.inj advances
      dsimp only
      rw [fileMap_finishClose]
      split
      · rfl
      · exact insertClient_ne _ _ apart
  | removing =>
      simp only [CallPhase.advance] at advances
      split at advances <;>
      · obtain rfl := Option.some.inj advances
        rfl
  | removed =>
      obtain rfl := Option.some.inj advances
      dsimp only
      rw [Server.fileMap_fileChangeCallbackUnlink, Function.update_of_ne apart]
  | _ =>
      obtain rfl := Option.some.inj advances
      rfl

theorem read_of_advance_ne (apart : other ≠ path)
    (advances : phase.advance answers path client s = some result) :
    result.2.1.disk.read other = s.disk.read other := by
  by_cases changes : phase.Changes
  · cases phase with
    | uploading requests =>
        obtain rfl := Option.some.inj advances
        exact Server.read_receiveFile_ne s apart requests
    | removing =>
        simp only [CallPhase.advance] at advances
        split at advances
        · obtain rfl := Option.some.inj advances
          rfl
        · obtain rfl := Option.some.inj advances
          exact FileStore.read_remove_ne apart
    | _ => exact changes.elim
  · rw [disk_of_advance changes advances]

/-- The queues of subscribed clients gain notifications about the file of the
call only, and none when the section does not notify. -/
theorem pending_of_advance {member : ClientId}
    (advances : phase.advance answers path client s = some result)
    (subscribed : s.Subscribed member) :
    ∃ notes, result.2.1.pending member = s.pending member ++ notes ∧
      (∀ note ∈ notes, note.directory = path) ∧
      (notes ≠ [] → phase.Notifies) := by
  by_cases notifies : phase.Notifies
  · obtain ⟨notes, pending, about, -⟩ :=
      (announces_of_advance notifies advances).pending member subscribed
    exact ⟨notes, pending, about, fun _ => notifies⟩
  · refine ⟨[], ?_, by simp, fun none => (none rfl).elim⟩
    rw [List.append_nil]
    cases phase with
    | idle => simp [CallPhase.advance] at advances
    | received _ | removed => exact (notifies trivial).elim
    | removing =>
        simp only [CallPhase.advance] at advances
        split at advances <;>
        · obtain rfl := Option.some.inj advances
          rfl
    | _ =>
        obtain rfl := Option.some.inj advances
        rfl

end Server

end DistributedFilesystem
