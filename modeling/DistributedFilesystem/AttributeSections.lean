import DistributedFilesystem.AttributeLookups
import DistributedFilesystem.LocalNodes

/-!
# Attributes and sections of calls

What one section of a call does to the attributes that its client holds or is
about to enter, and to the file at the server.
-/

namespace DistributedFilesystem

/-- What a call relies on when it comes to the attributes of its file: the copy
that it downloaded is not modified, and the requests of an upload carry the local
copy. -/
def CallPhase.Fits (path : Path) (client : Client) : CallPhase → Prop
  | .entered => ∀ info, client.cache path = some info →
      info.locallyModified = false
  | .created => False
  | .uploading requests => client.OpenModified path ∧
      client.disk.read path = some (requests.map FileRequest.content).flatten
  | .received _ | .uploaded _ => (client.disk.read path).isSome
  | _ => True

section Sections

variable {path other : Path} {client client' : Client} {s : Server}
variable {answers : LocalAnswers} {size mtime : Int} {phase : CallPhase}
variable {result : Client × Server × CallPhase}

/-! ## The other files -/

theorem openModified_congr
    (openedFiles : client'.openedFiles path = client.openedFiles path)
    (cache : client'.cache path = client.cache path) :
    client'.OpenModified path ↔ client.OpenModified path := by
  unfold Client.OpenModified
  rw [openedFiles, cache]

theorem holds_congr
    (openedFiles : client'.openedFiles path = client.openedFiles path)
    (cache : client'.cache path = client.cache path)
    (cachedAttr : client'.cachedAttr path = client.cachedAttr path) :
    client'.Holds path size mtime ↔ client.Holds path size mtime := by
  unfold Client.Holds
  rw [openModified_congr openedFiles cache, cachedAttr]

theorem holds_of_sameElsewhere (same : Client.SameElsewhere path client client')
    (apart : other ≠ path) :
    client'.Holds other size mtime ↔ client.Holds other size mtime :=
  holds_congr (same.openedFiles other apart) (same.cache other apart)
    (same.cachedAttr other apart)

theorem expects_congr (read : client'.disk.read path = client.disk.read path) :
    phase.Expects path client' size mtime ↔
      phase.Expects path client size mtime := by
  cases phase <;> simp only [CallPhase.Expects, read]

theorem fits_of_sameElsewhere (same : Client.SameElsewhere path client client')
    (apart : other ≠ path) (fits : phase.Fits other client) :
    phase.Fits other client' := by
  have modified := openModified_congr (same.openedFiles other apart)
    (same.cache other apart)
  cases phase <;>
    simp only [CallPhase.Fits, modified, same.cache other apart,
      same.read other apart] at fits ⊢
  all_goals exact fits

theorem fits_of_cachedAttr {cachedAttr : Path → Option FileAttributes}
    (fits : phase.Fits path client) :
    phase.Fits path { client with cachedAttr := cachedAttr } := by
  cases phase <;> exact fits

/-! ## The first section -/

theorem holds_eraseOpened (unmodified : ¬ client.OpenModified path)
    (holds : (client.eraseOpened path).Holds path size mtime) :
    client.Holds path size mtime :=
  ⟨unmodified, holds.2⟩

theorem holds_setStreams (change : FileStreams → FileStreams) :
    (client.setStreams path change).Holds path size mtime ↔
      client.Holds path size mtime := by
  simp [Client.Holds, Client.OpenModified, Client.setStreams]

theorem holds_writeFile {data : Bytes} {position : Int}
    (holds : (client.writeFile answers path data position).1.Holds path size
      mtime) :
    client.Holds path size mtime := by
  unfold Client.writeFile at holds
  dsimp only at holds
  split at holds
  · exact holds
  next readStream stream usable =>
  obtain ⟨-, opened, -⟩ := Client.usableStreams_eq_some.mp usable
  split at holds
  · exact (holds_setStreams _).mp holds
  split at holds
  · exact (holds_setStreams _).mp holds
  · refine (holds.1 ?_).elim
    simp [Client.OpenModified, Client.syncWrite, Client.updateAttr,
      Client.markModified, Client.enterCache, opened]

theorem holds_beginClose
    (holds : (beginClose answers path client).1.Holds path size mtime) :
    client.Holds path size mtime := by
  unfold beginClose at holds
  split at holds
  · exact holds
  next streams _ =>
  split at holds
  · exact holds
  split at holds
  · next notCached =>
      apply holds_eraseOpened _ holds
      simp [Client.OpenModified, notCached]
  next info cached =>
  split at holds
  · obtain ⟨change, -, flushed⟩ :=
      Client.beginUpload_client answers path client streams
    split at holds <;>
    · next begins =>
        rw [begins] at flushed
        dsimp only at flushed holds
        rw [flushed] at holds
        exact (holds_setStreams change).mp holds
  · next unmodified =>
      apply holds_eraseOpened _ holds
      simpa [Client.OpenModified, cached] using fun _ => unmodified

/-- A client holds nothing by starting a call. -/
theorem holds_of_begin (call : FileCall) (noCreate : call ≠ .createFile)
    (holds : (call.begin answers path client).1.Holds path size mtime) :
    client.Holds path size mtime := by
  cases call with
  | openFile =>
      unfold FileCall.begin at holds
      dsimp only at holds
      split at holds <;> exact holds
  | createFile => exact (noCreate rfl).elim
  | writeFile data position => exact holds_writeFile holds
  | closeFile => exact holds_beginClose holds
  | deleteFile =>
      obtain ⟨-, attr, entered, -⟩ := holds
      simp [FileCall.begin, Client.beginDelete, Client.eraseAttr] at entered

/-- `close_file` returns at once, or it sends the modified local copy. -/
theorem phase_beginClose (answers : LocalAnswers) (path : Path)
    (client : Client) :
    (beginClose answers path client).2 = .idle ∨ ∃ requests,
      (beginClose answers path client).2 = .uploading requests ∧
        (beginClose answers path client).1.OpenModified path ∧
        (beginClose answers path client).1.disk.read path =
          some (requests.map FileRequest.content).flatten := by
  unfold beginClose
  split
  · exact .inl rfl
  next streams opened =>
  split
  · exact .inl rfl
  split
  · exact .inl rfl
  next info cached =>
  split
  · next modified =>
      split
      · next flushed requests begins =>
          obtain ⟨contents, read, rfl, rfl⟩ := Client.beginUpload_eq_some begins
          refine .inr ⟨_, rfl, ?_, ?_⟩
          · simp [Client.OpenModified, Client.setStreams, opened, cached,
              modified]
          · rw [Client.contents_uploadRequests]
            exact read
      · exact .inl rfl
  · exact .inl rfl

/-- `open_file` asks the server, returns, or goes on with the cached file. -/
theorem phase_begin_openFile (answers : LocalAnswers) (path : Path)
    (client : Client) :
    (FileCall.openFile.begin answers path client).2 = .idle ∨
      (FileCall.openFile.begin answers path client).2 = .opening (maxTries - 1) ∨
      (FileCall.openFile.begin answers path client).2 = .hit := by
  unfold FileCall.begin
  dsimp only
  split
  · cases answers.directories with
    | true => exact .inr (.inl rfl)
    | false => exact .inl rfl
  · exact .inl rfl
  · exact .inr (.inr rfl)

theorem not_expects_begin (call : FileCall) (noCreate : call ≠ .createFile) :
    ¬ (call.begin answers path client).2.Expects path
      (call.begin answers path client).1 size mtime := by
  cases call with
  | openFile =>
      rcases phase_begin_openFile answers path client with phase | phase | phase <;>
      · rw [phase]
        exact id
  | createFile => exact (noCreate rfl).elim
  | writeFile data position => exact id
  | closeFile =>
      simp only [FileCall.begin]
      rcases phase_beginClose answers path client with phase | ⟨_, phase, -⟩ <;>
      · rw [phase]
        exact id
  | deleteFile => exact id

theorem fits_begin (call : FileCall) (noCreate : call ≠ .createFile) :
    (call.begin answers path client).2.Fits path
      (call.begin answers path client).1 := by
  cases call with
  | openFile =>
      rcases phase_begin_openFile answers path client with phase | phase | phase <;>
      · rw [phase]
        trivial
  | createFile => exact (noCreate rfl).elim
  | writeFile data position => trivial
  | closeFile =>
      simp only [FileCall.begin]
      rcases phase_beginClose answers path client with phase | ⟨_, phase, sends⟩
      · rw [phase]
        trivial
      · rw [phase]
        exact sends
  | deleteFile => trivial

/-! ## The later sections -/

/-- Storing a download leaves the attributes alone, or makes them those of the
download. -/
theorem cachedAttr_storeDownload (left : Nat) (responses : List FileResponse)
    (status : Status) :
    (client.storeDownload answers path left responses status).1.cachedAttr path =
        client.cachedAttr path ∧
      (client.storeDownload answers path left responses status).1.cache path =
        client.cache path ∨
    (client.storeDownload answers path left responses status).1.cachedAttr path =
      (client.cachedAttr path).map fun _ =>
        ⟨(Client.downloaded responses).length, Client.lastTimestamp responses,
          Client.lastTimestamp responses, Client.lastTimestamp responses⟩ := by
  unfold Client.storeDownload
  dsimp only
  split
  · exact .inl ⟨rfl, rfl⟩
  split
  · exact .inl ⟨rfl, rfl⟩
  · right
    have stored := FileStore.read_replace client.disk path
      [Client.downloaded responses] answers.now
    split <;>
      simp [Client.syncDownload, Client.updateAttr, Client.fileSize,
        Client.enterCache, stored]

theorem holds_storeDownload {left : Nat} {responses : List FileResponse}
    {status : Status}
    (holds : (client.storeDownload answers path left responses status).1.Holds
      path size mtime) :
    client.Holds path size mtime ∨
      client.cachedAttr path ≠ none ∧
        size = (Client.downloaded responses).length ∧
        mtime = Client.lastTimestamp responses := by
  have effect := Client.storeResult answers path left responses status client
  rcases cachedAttr_storeDownload left responses status with ⟨attr, cache⟩ | attr
  · left
    exact (holds_congr (congrFun effect.openedFiles path) cache attr).mp holds
  · right
    obtain ⟨-, entered, isEntered, rfl, rfl⟩ := holds
    rw [attr] at isEntered
    obtain ⟨before, wasEntered, rfl⟩ := Option.map_eq_some_iff.mp isEntered
    simp [wasEntered]

theorem holds_storeAnswer {left : Nat} {responses : List FileResponse}
    {status : Status}
    (holds : (storeAnswer answers path client left responses status).1.Holds
      path size mtime) :
    client.Holds path size mtime ∨
      client.cachedAttr path ≠ none ∧
        size = (Client.downloaded responses).length ∧
        mtime = Client.lastTimestamp responses := by
  have stored : (client.storeDownload answers path left responses status).1.Holds
      path size mtime := by
    unfold storeAnswer at holds
    split at holds
    · next result =>
        rw [result]
        exact holds
    · next result =>
        rw [result]
        split at holds
        · exact holds
        · split at holds <;> exact holds
  exact holds_storeDownload stored

theorem phase_storeAnswer (answers : LocalAnswers) (path : Path)
    (client : Client) (left : Nat) (responses : List FileResponse)
    (status : Status) :
    (storeAnswer answers path client left responses status).2 = .idle ∨
      (∃ left', (storeAnswer answers path client left responses status).2 =
        .opening left') ∨
      (storeAnswer answers path client left responses status).2 = .entered ∧
        ∃ timestamp, (storeAnswer answers path client left responses
          status).1.cache path = some ⟨false, timestamp⟩ := by
  have effect := Client.storeResult answers path left responses status client
  unfold storeAnswer
  split
  · exact .inl rfl
  · next stored status' result =>
      rw [result] at effect
      obtain ⟨impossible, -⟩ | ⟨same, -, cache⟩ := effect.outcome
      · simp at impossible
      obtain rfl := Option.some.inj same
      split
      · next ok =>
          rw [if_pos ok] at cache
          exact .inr (.inr ⟨rfl, _, cache⟩)
      · split
        · exact .inr (.inl ⟨_, rfl⟩)
        · exact .inl rfl

theorem holds_finishOpen {forget : Client → Client}
    (forgets : (forget client).Holds path size mtime → client.Holds path size mtime)
    (holds : (finishOpen answers path forget client).Holds path size mtime) :
    client.Holds path size mtime := by
  unfold finishOpen at holds
  split at holds
  · obtain ⟨unmodified, entered⟩ := holds
    refine ⟨?_, entered⟩
    rintro ⟨-, modified⟩
    exact unmodified ⟨by simp [Client.insertOpened], modified⟩
  · exact forgets holds

theorem advance_answered (left : Nat) (responses : List FileResponse)
    (status : Status) :
    (CallPhase.answered left responses status).advance answers path client s =
      some ((storeAnswer answers path client left responses status).1, s,
        (storeAnswer answers path client left responses status).2) :=
  rfl

/-- What a client holds after a section it held or expected before, unless the
section took an empty answer. -/
theorem holds_of_advance (fits : phase.Fits path client)
    (advances : phase.advance answers path client s = some result)
    (holds : result.1.Holds path size mtime) :
    client.Holds path size mtime ∨ phase.Expects path client size mtime ∨
      (∃ left status, phase = .answered left [] status) ∧
        client.cachedAttr path ≠ none := by
  cases phase with
  | idle => simp [CallPhase.advance] at advances
  | answered left responses status =>
      obtain rfl := Option.some.inj advances
      rcases holds_storeAnswer holds with held | ⟨entered, isSize, isTime⟩
      · exact .inl held
      cases responses with
      | nil => exact .inr (.inr ⟨⟨left, status, rfl⟩, entered⟩)
      | cons response later =>
          exact .inr (.inl ⟨List.cons_ne_nil _ _, isSize, isTime⟩)
  | entered =>
      obtain rfl := Option.some.inj advances
      left
      apply holds_finishOpen _ holds
      intro forgotten
      refine ⟨?_, forgotten.2⟩
      rintro ⟨-, info, cached, modified⟩
      simp [fits info cached] at modified
  | hit =>
      obtain rfl := Option.some.inj advances
      exact .inl (holds_finishOpen id holds)
  | created => exact fits.elim
  | uploaded timestamp =>
      obtain rfl := Option.some.inj advances
      obtain ⟨contents, read⟩ := Option.isSome_iff_exists.mp fits
      obtain ⟨-, attr, isEntered, rfl, rfl⟩ := holds
      right; left
      refine ⟨contents, read, ?_⟩
      have updated : ((client.cachedAttr path).map fun attr => { attr with
          size := (contents.length : Int), mtime := timestamp,
          ctime := timestamp }) = some attr := by
        simpa [Client.finishUpload, Client.eraseOpened, Client.syncUpload,
          Client.updateAttr, Client.markClean, Client.fileSize, read]
          using isEntered
      obtain ⟨before, -, rfl⟩ := Option.map_eq_some_iff.mp updated
      exact ⟨rfl, rfl⟩
  | removing =>
      simp only [CallPhase.advance] at advances
      split at advances <;>
      · obtain rfl := Option.some.inj advances
        exact .inl holds
  | deleted status =>
      obtain rfl := Option.some.inj advances
      left
      dsimp only at holds
      split at holds <;> exact holds
  | opening _ | reading _ | uploading _ | received _ | removed =>
      obtain rfl := Option.some.inj advances
      exact .inl holds

/-- What the server sends for a file is what it shows. -/
theorem shows_of_sendFile (nonempty : (s.sendFile path .success).1 ≠ []) :
    s.Shows path (Client.downloaded (s.sendFile path .success).1).length
      (Client.lastTimestamp (s.sendFile path .success).1) := by
  cases read : s.disk.read path with
  | none => simp [Server.sendFile, read] at nonempty
  | some contents =>
      simp only [Server.sendFile, read] at nonempty ⊢
      refine ⟨contents, read, by rw [Client.downloaded_openResponses], ?_⟩
      apply Client.lastTimestamp_openResponses
      rintro rfl
      exact nonempty rfl

/-- What a call expects after a section it expected before, or the server shows
it. -/
theorem expects_of_advance (fits : phase.Fits path client)
    (advances : phase.advance answers path client s = some result)
    (expects : result.2.2.Expects path result.1 size mtime) :
    phase.Expects path client size mtime ∨
      result.2.1.Shows path size mtime := by
  cases phase with
  | idle => simp [CallPhase.advance] at advances
  | reading left =>
      obtain rfl := Option.some.inj advances
      obtain ⟨nonempty, rfl, rfl⟩ := expects
      exact .inr (shows_of_sendFile nonempty)
  | answered left responses status =>
      rw [advance_answered] at advances
      obtain rfl := Option.some.inj advances
      dsimp only at expects
      rcases phase_storeAnswer answers path client left responses status with
          phase | ⟨_, phase⟩ | ⟨phase, -⟩ <;>
      · rw [phase] at expects
        exact expects.elim
  | uploading requests =>
      obtain rfl := Option.some.inj advances
      obtain ⟨contents, read, rfl, rfl⟩ := expects
      obtain rfl := Option.some.inj (fits.2.symm.trans read)
      exact .inr ⟨_, Server.read_receiveFile .., rfl, rfl⟩
  | received timestamp =>
      obtain rfl := Option.some.inj advances
      exact .inl expects
  | removing =>
      simp only [CallPhase.advance] at advances
      split at advances <;>
      · obtain rfl := Option.some.inj advances
        exact expects.elim
  | _ =>
      obtain rfl := Option.some.inj advances
      exact expects.elim

theorem fits_of_advance (fits : phase.Fits path client)
    (advances : phase.advance answers path client s = some result) :
    result.2.2.Fits path result.1 := by
  cases phase with
  | idle => simp [CallPhase.advance] at advances
  | answered left responses status =>
      rw [advance_answered] at advances
      obtain rfl := Option.some.inj advances
      dsimp only
      rcases phase_storeAnswer answers path client left responses status with
          phase | ⟨_, phase⟩ | ⟨phase, timestamp, cached⟩
      · rw [phase]
        trivial
      · rw [phase]
        trivial
      · rw [phase]
        intro info isInfo
        obtain rfl := Option.some.inj (cached.symm.trans isInfo)
        rfl
  | uploading requests =>
      obtain rfl := Option.some.inj advances
      simp [CallPhase.Fits, fits.2]
  | received timestamp =>
      obtain rfl := Option.some.inj advances
      exact fits
  | removing =>
      simp only [CallPhase.advance] at advances
      split at advances <;>
      · obtain rfl := Option.some.inj advances
        trivial
  | _ =>
      obtain rfl := Option.some.inj advances
      trivial

end Sections

end DistributedFilesystem
