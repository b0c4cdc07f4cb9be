import DistributedFilesystem.DashboardRuns

/-!
# Reports and the sections of calls

What each phase of a call says about the report of `GetStatus`, what each section
does to files and to the report, and which of the two a section keeps when it
takes none of the branches that make the report wrong.
-/

namespace DistributedFilesystem

namespace ClientMap

variable {map : ClientMap} {path other : Path} {client member : ClientId}

theorem registered_eraseClient :
    Registered (map.eraseClient path client) other member ↔
      Registered map other member ∧ ¬ (other = path ∧ member = client) := by
  unfold Registered eraseClient
  cases entry : map path with
  | none =>
      by_cases same : other = path
      · subst same
        simp [entry]
      · simp [same]
  | some clients =>
      by_cases same : other = path
      · subst same
        by_cases empty : clients.erase client = ∅
        · have onlyClient : ∀ member ∈ clients, member = client := by
            intro member isMember
            by_contra different
            have left := Finset.mem_erase.mpr ⟨different, isMember⟩
            rw [empty] at left
            simp at left
          simpa [empty, entry] using onlyClient member
        · simp [empty, entry, and_comm]
      · simp [same]

end ClientMap

/-- What the phase of a call says about a file that its client is reported to
have open, has streams of, and that is on the server. -/
def CallPhase.Tracks (reported streaming stored : Prop) : CallPhase → Prop
  | .idle | .hit | .created => reported ↔ streaming ∧ stored
  | .opening _ | .uploading _ | .received _ => True
  | .reading _ => reported
  | .answered _ _ status => reported ∧ (status.isOk → stored)
  | .entered => reported ∧ stored
  | .uploaded _ => ¬ reported
  | .removing | .removed | .deleted _ => ¬ reported ∧ ¬ streaming

section Phases

variable {phase : CallPhase} {reported streaming stored : Prop}
variable {reportedNext streamingNext storedNext : Prop}

theorem CallPhase.Tracks.congr (tracks : phase.Tracks reported streaming stored)
    (sameReported : reportedNext ↔ reported)
    (sameStreaming : streamingNext ↔ streaming)
    (sameStored : storedNext ↔ stored) :
    phase.Tracks reportedNext streamingNext storedNext := by
  rw [propext sameReported, propext sameStreaming, propext sameStored]
  exact tracks

/-- When a file appears on the server, nobody who has streams of it may be
resting. -/
theorem CallPhase.Tracks.store (tracks : phase.Tracks reported streaming stored)
    (keeps : ¬ stored → streaming → ¬ phase.Resting) (isStored : storedNext) :
    phase.Tracks reported streaming storedNext := by
  by_cases before : stored
  · exact tracks.congr Iff.rfl Iff.rfl (iff_of_true isStored before)
  have notResting := keeps before
  cases phase <;> simp_all [CallPhase.Tracks, CallPhase.Resting]

/-- When a file disappears from the server, nobody who is reported may rely on
it. -/
theorem CallPhase.Tracks.remove
    (tracks : phase.Tracks reported streaming stored)
    (keeps : reported → ¬ phase.Relying) (removed : ¬ storedNext) :
    phase.Tracks reported streaming storedNext := by
  cases phase <;> simp_all [CallPhase.Tracks, CallPhase.Relying]

end Phases

/-- The section changes the files and the report for its own file only, and the
report for its own client only. -/
structure ReportEffect (path : Path) (client : ClientId) (s s' : Server) :
    Prop where
  stored : ∀ other, other ≠ path →
    ((s'.disk.node other).isSome ↔ (s.disk.node other).isSome)
  reported : ∀ other member, other ≠ path ∨ member ≠ client →
    (s'.fileMapOpen.Registered other member ↔
      s.fileMapOpen.Registered other member)

section Effects

variable {path : Path} {client : Client} {s : Server} {answers : LocalAnswers}
variable {result : Client × Server × CallPhase}

theorem ReportEffect.refl (path : Path) (client : ClientId) (s : Server) :
    ReportEffect path client s s :=
  ⟨fun _ _ => Iff.rfl, fun _ _ _ => Iff.rfl⟩

theorem fileMapOpen_fileChangeCallbackClose (s : Server) (path : Path)
    (client : ClientId) (notif : Notification) :
    (s.fileChangeCallbackClose path client notif).fileMapOpen =
      s.fileMapOpen := by
  unfold Server.fileChangeCallbackClose
  split
  · exact Server.notifyAll_fileMapOpen
  · rfl

theorem fileMapOpen_fileChangeCallbackUnlink (s : Server) (path : Path)
    (client : ClientId) (notif : Notification) :
    (s.fileChangeCallbackUnlink path client notif).fileMapOpen =
      s.fileMapOpen := by
  unfold Server.fileChangeCallbackUnlink
  split
  · exact Server.notifyAll_fileMapOpen
  · rfl

theorem reportEffect_of_advance {phase : CallPhase}
    (advances : phase.advance answers path client s = some result) :
    ReportEffect path client.clientId s result.2.1 := by
  cases phase with
  | idle => simp [CallPhase.advance] at advances
  | opening left =>
      obtain rfl := Option.some.inj advances
      constructor
      case stored => exact fun _ _ => Iff.rfl
      case reported =>
        intro other member apart
        have notBoth := not_and_or.mpr apart
        simp [Server.registerOpen, ClientMap.registered_insertClient, notBoth]
  | uploading requests =>
      obtain rfl := Option.some.inj advances
      constructor
      case stored =>
        intro other apart
        simp only [Server.receiveFile, FileStore.node_replace_ne apart]
      case reported => exact fun _ _ _ => Iff.rfl
  | received timestamp =>
      obtain rfl := Option.some.inj advances
      constructor
      case stored =>
        intro other apart
        simp only [Server.disk_finishClose]
      case reported =>
        intro other member apart
        have notBoth := not_and_or.mpr apart
        simp [Server.finishClose, ClientMap.registered_eraseClient,
          fileMapOpen_fileChangeCallbackClose, notBoth]
  | removing =>
      simp only [CallPhase.advance] at advances
      split at advances
      · obtain rfl := Option.some.inj advances
        exact .refl ..
      · obtain rfl := Option.some.inj advances
        constructor
        case stored =>
          intro other apart
          simp only [FileStore.node_remove_ne apart]
        case reported => exact fun _ _ _ => Iff.rfl
  | removed =>
      obtain rfl := Option.some.inj advances
      constructor
      case stored =>
        intro other apart
        simp only [Server.disk_fileChangeCallbackUnlink]
      case reported =>
        intro other member apart
        simp only [fileMapOpen_fileChangeCallbackUnlink]
  | _ =>
      obtain rfl := Option.some.inj advances
      exact .refl ..

/-- Only the handler of `open` inserts into the report. -/
theorem reported_of_advance {phase : CallPhase} {other : Path}
    {member : ClientId}
    (advances : phase.advance answers path client s = some result)
    (reported : result.2.1.fileMapOpen.Registered other member) :
    s.fileMapOpen.Registered other member ∨ ∃ left, phase = .opening left := by
  cases phase with
  | idle => simp [CallPhase.advance] at advances
  | opening left => exact .inr ⟨left, rfl⟩
  | received timestamp =>
      obtain rfl := Option.some.inj advances
      have kept := ClientMap.registered_eraseClient.mp reported
      rw [fileMapOpen_fileChangeCallbackClose] at kept
      exact .inl kept.1
  | removing =>
      simp only [CallPhase.advance] at advances
      split at advances <;>
      · obtain rfl := Option.some.inj advances
        exact .inl reported
  | removed =>
      obtain rfl := Option.some.inj advances
      rw [fileMapOpen_fileChangeCallbackUnlink] at reported
      exact .inl reported
  | _ =>
      obtain rfl := Option.some.inj advances
      exact .inl reported

end Effects

section Calls

variable {σ : Dashboard} {client : ClientId} {path : Path}
variable {answers : LocalAnswers} {result : Client × Server × CallPhase}

theorem isSome_finishOpen {forget : Client → Client} {client : Client}
    (forgets : (forget client).openedFiles = client.openedFiles) :
    ((finishOpen answers path forget client).openedFiles path).isSome ↔
      (client.openStreams answers path).isSome ∨
        (client.openedFiles path).isSome := by
  unfold finishOpen
  split
  · next streams opens => simp [Client.insertOpened, opens]
  · next notOpened => simp [forgets, notOpened]

theorem isSome_finishCreate (answers : LocalAnswers) (path : Path)
    (client : Client) :
    ((client.finishCreate answers path).1.openedFiles path).isSome ↔
      (client.openStreams answers path).isSome ∨
        (client.openedFiles path).isSome := by
  unfold Client.finishCreate
  split
  · next notOpened => simp [Client.eraseCache, notOpened]
  · next streams opens =>
      dsimp only
      split
      · simp [Client.insertOpened, opens]
      · simp [Client.insertOpened, opens]

/-- A file that is not streamed unless it is not on the server stays right when
streams of it are opened. -/
theorem CallPhase.Tracks.stream {reported streaming stored opens : Prop}
    (tracks : reported ↔ streaming ∧ stored) (keeps : opens → ¬ stored) :
    reported ↔ (opens ∨ streaming) ∧ stored := by
  rw [tracks]
  constructor
  · rintro ⟨isStreaming, isStored⟩
    exact ⟨.inr isStreaming, isStored⟩
  · rintro ⟨isOpened | isStreaming, isStored⟩
    · exact absurd isStored (keeps isOpened)
    · exact ⟨isStreaming, isStored⟩

/-- A download attempt without a status ends `open_file`. -/
theorem givesUp_of_storeDownload {client : Client} {left : Nat}
    {responses : List FileResponse} (status : Status)
    (noStatus : (client.storeDownload answers path left responses status).2 =
      none) : answers.GivesUp left status := by
  unfold Client.storeDownload at noStatus
  dsimp only at noStatus
  split at noStatus
  · next notCreated => exact .inl notCreated
  · split at noStatus
    · next amount failed => exact .inr (.inl (by simp [failed]))
    · simp at noStatus

/-- The section of `open_file` after an answer. -/
theorem tracks_of_storeAnswer {client : Client} {left : Nat}
    {responses : List FileResponse} {status : Status} {reported stored : Prop}
    (isReported : reported) (isStored : status.isOk → stored)
    (keeps : answers.GivesUp left status →
      (client.openedFiles path).isSome ∧ stored) :
    (storeAnswer answers path client left responses status).2.Tracks reported
      ((storeAnswer answers path client left responses
        status).1.openedFiles path).isSome stored := by
  have effect := Client.storeResult answers path left responses status client
  unfold storeAnswer
  split
  · next stored result =>
      rw [result] at effect
      have givesUp := givesUp_of_storeDownload status (congrArg Prod.snd result)
      have same : stored.openedFiles = client.openedFiles := effect.openedFiles
      have opened := keeps givesUp
      rw [← same] at opened
      exact iff_of_true isReported opened
  · next stored code result =>
      rw [result] at effect
      obtain rfl : code = status := by
        rcases effect.outcome with ⟨noStatus, -⟩ | ⟨isStatus, -⟩
        · simp at noStatus
        · exact Option.some.inj isStatus
      split
      · next ok => exact ⟨isReported, isStored ok⟩
      · next notOk =>
          split
          · trivial
          · have givesUp : answers.GivesUp 0 code :=
              .inr (.inr ⟨by simpa using notOk, rfl⟩)
            have same : stored.openedFiles = client.openedFiles :=
              effect.openedFiles
            have opened := keeps givesUp
            rw [← same] at opened
            exact iff_of_true isReported opened

theorem isSome_node_of_sendFile {s : Server}
    (ok : (s.sendFile path .success).2.isOk) : (s.disk.node path).isSome := by
  rw [← FileStore.read_isSome_iff]
  cases read : s.disk.read path with
  | none => simp [Server.sendFile, read, Status.isOk] at ok
  | some contents => rfl

/-- A section of a connected client's call that keeps the report right for the
client. -/
theorem tracks_of_advance (clientId : (σ.clients client).clientId = client)
    (connected : σ.connection client = .connected)
    (tracks : (σ.calls client path).Tracks (σ.Reports client path)
      (σ.Streaming client path) (σ.Stored path))
    (keeps : σ.SectionKeeps client path answers (σ.calls client path))
    (advances : (σ.calls client path).advance answers path
      (σ.clients client) σ.server = some result) :
    result.2.2.Tracks (result.2.1.fileMapOpen.Registered path client)
      (result.1.openedFiles path).isSome (result.2.1.disk.node path).isSome := by
  generalize σ.calls client path = phase at tracks keeps advances
  cases phase with
  | idle => simp [CallPhase.advance] at advances
  | opening left =>
      obtain rfl := Option.some.inj advances
      rw [clientId]
      exact ClientMap.registered_insertClient_self
  | reading left =>
      obtain rfl := Option.some.inj advances
      exact ⟨tracks, isSome_node_of_sendFile⟩
  | answered left responses status =>
      obtain rfl := Option.some.inj advances
      exact tracks_of_storeAnswer tracks.1 tracks.2 (keeps connected)
  | entered =>
      obtain rfl := Option.some.inj advances
      have opened : ((finishOpen answers path
          (fun client => client.eraseCache path)
            (σ.clients client)).openedFiles path).isSome ↔ _ :=
        isSome_finishOpen rfl
      have isStreaming : ((σ.clients client).openStreams answers path).isSome ∨
          σ.Streaming client path := by
        cases opens : (σ.clients client).openStreams answers path with
        | none => exact .inr (keeps connected opens)
        | some streams => exact .inl rfl
      simp only [CallPhase.Tracks, opened]
      exact iff_of_true tracks.1 ⟨isStreaming, tracks.2⟩
  | hit =>
      obtain rfl := Option.some.inj advances
      have opened : ((finishOpen answers path id
          (σ.clients client)).openedFiles path).isSome ↔ _ :=
        isSome_finishOpen rfl
      have resting := CallPhase.Tracks.stream tracks (keeps connected)
      simp only [CallPhase.Tracks, opened]
      exact resting
  | created =>
      obtain rfl := Option.some.inj advances
      have resting := CallPhase.Tracks.stream tracks (keeps connected)
      simp only [CallPhase.Tracks, isSome_finishCreate]
      exact resting
  | uploading requests =>
      obtain rfl := Option.some.inj advances
      trivial
  | received timestamp =>
      obtain rfl := Option.some.inj advances
      rw [clientId]
      simp [CallPhase.Tracks, Server.finishClose,
        ClientMap.registered_eraseClient]
  | uploaded timestamp =>
      obtain rfl := Option.some.inj advances
      have closed : ((σ.clients client).finishUpload path
          timestamp).openedFiles path = none := by
        simp [Client.finishUpload, Client.eraseOpened]
      simp only [CallPhase.Tracks, closed]
      exact iff_of_false tracks (by simp)
  | removing =>
      simp only [CallPhase.advance] at advances
      split at advances
      · obtain rfl := Option.some.inj advances
        exact tracks
      · obtain rfl := Option.some.inj advances
        exact tracks
  | removed =>
      obtain rfl := Option.some.inj advances
      simp only [fileMapOpen_fileChangeCallbackUnlink]
      exact tracks
  | deleted status =>
      obtain rfl := Option.some.inj advances
      have closed : ¬ ((if status.isOk then
          { σ.clients client with
            disk := (σ.clients client).disk.remove path }
          else σ.clients client).openedFiles path).isSome := by
        split
        · exact tracks.2
        · exact tracks.2
      exact iff_of_false tracks.1 fun both => closed both.1

/-- The first section of `close_file`. -/
theorem tracks_of_beginClose {client : Client} {reported stored : Prop}
    (tracks : reported ↔ (client.openedFiles path).isSome ∧ stored)
    (keeps : client.ClosesSilently path → ¬ stored) :
    (beginClose answers path client).2.Tracks reported
      ((beginClose answers path client).1.openedFiles path).isSome stored := by
  have erased (silent : client.ClosesSilently path) :
      reported ↔ ((client.eraseOpened path).openedFiles path).isSome ∧
        stored := by
    have notStored := keeps silent
    rw [tracks]
    exact iff_of_false (fun both => notStored both.2)
      (fun both => notStored both.2)
  unfold beginClose
  split
  · exact tracks
  next streams opened =>
  split
  · exact tracks
  next hasMutex =>
  rw [not_not] at hasMutex
  split
  · next notCached =>
      exact erased ⟨by simp [opened], hasMutex, by simp [notCached]⟩
  next info cached =>
  split
  · obtain ⟨change, -, flushed⟩ :=
      Client.beginUpload_client answers path client streams
    split
    · trivial
    · next after begins =>
        rw [begins] at flushed
        dsimp only at flushed
        rw [flushed]
        simpa [CallPhase.Tracks, Client.setStreams] using tracks
  · next clean =>
      refine erased ⟨by simp [opened], hasMutex, ?_⟩
      intro other cachedOther
      obtain rfl : info = other := Option.some.inj (cached.symm.trans cachedOther)
      simpa using clean

/-- A call of a connected client that begins and keeps the report right for the
client. -/
theorem tracks_of_begin (call : FileCall)
    (idle : σ.Reports client path ↔ σ.Streaming client path ∧ σ.Stored path)
    (keeps : σ.StartKeeps client path call) :
    (call.begin answers path (σ.clients client)).2.Tracks
      (σ.Reports client path)
      ((call.begin answers path (σ.clients client)).1.openedFiles path).isSome
      (σ.Stored path) := by
  cases call with
  | openFile =>
      simp only [FileCall.begin]
      split
      · dsimp only
        split
        · trivial
        · exact idle
      · exact idle
      · exact idle
  | createFile =>
      simp only [FileCall.begin]
      split
      · next created begins =>
          unfold Client.beginCreate at begins
          split_ifs at begins
          obtain rfl := Option.some.inj begins
          exact idle
      · exact idle
  | writeFile data position =>
      have sameStreaming := (writeFile_entries (σ.clients client) answers path
        data position).2.1
      exact idle.trans (and_congr_left' sameStreaming.symm)
  | closeFile => exact tracks_of_beginClose idle keeps
  | deleteFile =>
      have notReported : ¬ σ.Reports client path := by
        rw [idle]
        rintro ⟨isStreaming, isStored⟩
        exact keeps isStreaming isStored
      refine ⟨notReported, ?_⟩
      simp [FileCall.begin, Client.beginDelete, Client.eraseOpened,
        Client.eraseCache, Client.eraseAttr]

end Calls

end DistributedFilesystem
