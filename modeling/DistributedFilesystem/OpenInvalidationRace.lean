import DistributedFilesystem.OpenRaceInvariant
import DistributedFilesystem.TransitionRuns

/-!
# Opening a file keeps up with the uploads

The sections of the call and the steps of the subscriber thread keep the
invariant of the race when they are harmless; so a call that returns true has a
copy that is what the server stores, or of which its client will hear more.
-/

namespace DistributedFilesystem

open LockedThreads TransitionRuns

namespace Race

variable {κ : Type*}

section Call

variable {path : Path} {uploads : κ → ClientId × List Bytes} {σ σ' : Race κ}
variable {answers : LocalAnswers} {left : Nat}

theorem informed_of_watched (watched : σ.Watched path uploads) :
    σ.Informed path uploads :=
  watched.imp_right fun registered => registered.2

theorem running_withClient {client : Client} (phase : OpenPhase)
    (clientId : client.clientId = σ.client.clientId)
    (running : σ.Running path uploads) :
    Running path uploads { σ with client := client, phase := phase } := by
  obtain ⟨others, stages, subscribed, pushes⟩ := running
  constructor <;> dsimp only [server] at * <;> rwa [clientId]

theorem opened_insertOpened {streams : FileStreams}
    (opens : σ.client.openStreams answers path = some streams)
    (cached : (σ.client.cache path).isSome)
    (watched : σ.Watched path uploads) :
    Opened path uploads { σ with
      client := σ.client.insertOpened path streams, phase := .returned true } := by
  have justOpened := Client.justOpened_insertOpened opens
  obtain ⟨i, -, isOpen⟩ := justOpened.streams
  exact ⟨cached, by simp [isOpen], justOpened.mutex, informed_of_watched watched⟩

/-- The last section of the call. -/
theorem sound_finish {forget : Client → Client}
    (clientId : (forget σ.client).clientId = σ.client.clientId)
    (running : σ.Running path uploads) (cached : (σ.client.cache path).isSome)
    (watched : σ.Watched path uploads) :
    (σ.finish path answers forget).Sound path uploads := by
  unfold finish
  cases opens : σ.client.openStreams answers path with
  | some streams =>
      exact ⟨running_withClient _ rfl running,
        opened_insertOpened opens cached watched⟩
  | none => exact ⟨running_withClient _ clientId running, trivial⟩

theorem downloaded_responses (t : HandlerLocals) :
    Client.downloaded (responses t) = t.sent.flatten := by
  unfold Client.downloaded responses
  induction t.sent with
  | nil => rfl
  | cons chunk later ih =>
      cases chunk with
      | nil => simpa using ih
      | cons byte chunk => simpa using ih

/-- A download that ended with OK leaves a copy that keeps up. -/
theorem watched_of_downloading {client : Client} {status : Status}
    (sound : σ.Sound path uploads) (downloading : σ.Downloading path uploads)
    (finished : (σ.handlers.threads none).code = [])
    (answered : (σ.handlers.threads none).locals.status = some status)
    (ok : status.isOk) (clientId : client.clientId = σ.client.clientId)
    (read : client.disk.read path =
      some (Client.downloaded (responses (σ.handlers.threads none).locals))) :
    Watched path uploads { σ with client := client, phase := .entered } := by
  have stage : OpenStage path σ.client.clientId
      (σ.handlers.threads none).locals [] := by
    have stage := sound.stages none
    rwa [finished] at stage
  have registered := downloading.registering.resolve_left (by simp [finished])
  unfold Watched Waiting Current Announced undelivered
  dsimp only [server] at *
  rw [clientId]
  rcases downloading.informed with waiting | current | announced
  · exact .inl waiting
  · refine .inr ⟨registered, .inl ?_⟩
    rw [read, downloaded_responses]
    exact (read_of_upToDate stage answered ok current).symm
  · exact .inr ⟨registered, .inr announced⟩

variable [DecidableEq κ]

/-- A new attempt to download. -/
theorem sound_request (running : σ.Running path uploads)
    (notCached : σ.client.cache path = none) :
    (σ.request path left).Sound path uploads where
  others := running.others
  stages i := by
    cases i with
    | none => exact openStage_program
    | some k =>
        have stage := running.stages (some k)
        simpa [request] using stage
  subscribed := running.subscribed
  pushes i q notif member := by
    cases i with
    | none => simp [request, openProgram] at member
    | some k =>
        apply running.pushes (some k) q notif
        simpa [request] using member
  copy := by
    refine ⟨notCached, .inl ?_, .inr (.inl ?_)⟩
    · simp [request, openProgram]
    · intro file isOpen
      simp [request, HandlerLocals.start] at isOpen

/-- The section after an answer. -/
theorem sound_answered {status : Status} (sound : σ.Sound path uploads)
    (downloading : σ.Downloading path uploads)
    (finished : (σ.handlers.threads none).code = [])
    (isAnswer : (σ.handlers.threads none).locals.status = some status) :
    (σ.answered path answers left status).Sound path uploads := by
  have effect := Client.storeResult answers path left
    (responses (σ.handlers.threads none).locals) status σ.client
  unfold answered
  generalize σ.client.storeDownload answers path left
    (responses (σ.handlers.threads none).locals) status = result at effect ⊢
  obtain ⟨client, result⟩ := result
  have clientId : client.clientId = σ.client.clientId :=
    effect.elsewhere.clientId
  obtain ⟨rfl, -⟩ | ⟨rfl, read, cache⟩ := effect.outcome
  · exact ⟨running_withClient _ clientId sound.toRunning, trivial⟩
  dsimp only at *
  cases ok : status.isOk with
  | true =>
      rw [ok] at cache
      exact ⟨running_withClient _ clientId sound.toRunning, by simp [cache],
        watched_of_downloading sound downloading finished isAnswer ok clientId
          read⟩
  | false =>
      rw [ok] at cache
      have notCached : client.cache path = none := by
        simpa [downloading.notCached] using cache
      cases left with
      | zero => exact ⟨running_withClient _ clientId sound.toRunning, trivial⟩
      | succ left =>
          exact sound_request (running_withClient _ clientId sound.toRunning)
            notCached

theorem sound_of_call (sound : σ.Sound path uploads)
    (harmless : (RaceEvent.call answers).Harmless path uploads σ)
    (steps : σ.call path answers = some σ') : σ'.Sound path uploads := by
  have copy := sound.copy
  unfold CopySound at copy
  unfold RaceEvent.Harmless at harmless
  unfold call at steps
  cases phase : σ.phase with
  | start =>
      simp only [phase] at steps harmless
      cases cached : σ.client.cache path with
      | none =>
          simp only [cached] at steps
          split at steps
          · obtain rfl := Option.some.inj steps
            exact sound_request sound.toRunning cached
          · obtain rfl := Option.some.inj steps
            exact ⟨running_withClient _ rfl sound.toRunning, trivial⟩
      | some info =>
          simp only [cached] at steps harmless
          cases isOpen : σ.client.openedFiles path with
          | some streams =>
              simp only [isOpen, Option.some.injEq] at steps harmless
              obtain rfl := steps
              exact ⟨running_withClient _ rfl sound.toRunning, by simp [cached],
                by simp [isOpen], harmless.1, harmless.2⟩
          | none =>
              simp only [isOpen, Option.some.injEq] at steps harmless
              obtain rfl := steps
              exact ⟨running_withClient _ rfl sound.toRunning, by simp [cached],
                harmless⟩
  | requesting left =>
      simp only [phase] at steps copy
      split at steps
      · next t thread =>
          obtain ⟨status, isAnswer, rfl⟩ := Option.map_eq_some_iff.mp steps
          exact sound_answered sound copy (by rw [thread])
            (by rw [thread]; exact isAnswer)
      · simp at steps
  | entered =>
      simp only [phase] at steps copy
      obtain rfl := Option.some.inj steps
      exact sound_finish rfl sound.toRunning copy.1 copy.2
  | hit =>
      simp only [phase] at steps copy
      obtain rfl := Option.some.inj steps
      exact sound_finish rfl sound.toRunning copy.1 copy.2
  | returned opened => simp [phase] at steps

end Call

section Subscriber

/-- What the client's subscriber leaves as it is. -/
structure SameFiles (σ σ' : Race κ) : Prop where
  clientId : σ'.client.clientId = σ.client.clientId
  copies : σ'.client.disk = σ.client.disk
  threads : σ'.handlers.threads = σ.handlers.threads
  disk : σ'.server.disk = σ.server.disk
  fileMap : σ'.server.fileMap = σ.server.fileMap
  subscribers : σ'.server.subscribers = σ.server.subscribers
  subscribed : σ'.server.Subscribed σ.client.clientId ↔
    σ.server.Subscribed σ.client.clientId

variable {path : Path} {uploads : κ → ClientId × List Bytes} {σ σ' : Race κ}

theorem running_of_sameFiles (same : SameFiles σ σ')
    (running : σ.Running path uploads) : σ'.Running path uploads := by
  obtain ⟨others, stages, subscribed, pushes⟩ := running
  constructor
  · rwa [same.clientId]
  · unfold InStages
    rw [same.clientId, same.threads]
    exact stages
  · rw [same.clientId]
    exact same.subscribed.mpr subscribed
  · rwa [same.clientId, same.threads, same.subscribers]

theorem current_of_sameFiles (same : SameFiles σ σ') :
    σ'.Current path ↔ σ.Current path := by
  unfold Current
  rw [same.copies, same.disk]

theorem downloadCurrent_of_sameFiles (same : SameFiles σ σ') :
    σ'.DownloadCurrent path ↔ σ.DownloadCurrent path := by
  unfold DownloadCurrent
  rw [same.threads, same.disk]

theorem announced_of_sameFiles (same : SameFiles σ σ') :
    σ'.Announced path uploads ↔ σ.Announced path uploads := by
  unfold Announced Owed
  rw [same.clientId, same.threads]

theorem watched_of_sameFiles (same : SameFiles σ σ')
    (waiting : σ.Waiting path → σ'.Waiting path)
    (watched : σ.Watched path uploads) : σ'.Watched path uploads := by
  unfold Watched
  rw [current_of_sameFiles same, announced_of_sameFiles same, same.clientId,
    same.fileMap]
  exact watched.imp_left waiting

theorem downloading_of_sameFiles (same : SameFiles σ σ')
    (notCached : σ'.client.cache path = none)
    (waiting : σ.Waiting path → σ'.Waiting path ∨ σ.DownloadCurrent path ∨
      σ.Announced path uploads)
    (downloading : σ.Downloading path uploads) :
    σ'.Downloading path uploads where
  notCached := notCached
  registering := by
    rw [same.clientId, same.threads, same.fileMap]
    exact downloading.registering
  informed := by
    rw [downloadCurrent_of_sameFiles same, announced_of_sameFiles same]
    exact downloading.informed.elim waiting .inr

variable [DecidableEq κ]

theorem sound_of_send (sound : σ.Sound path uploads)
    (steps : RaceEvent.send.step path σ = some σ') : σ'.Sound path uploads := by
  have moved : SameFiles σ σ' ∧ σ'.undelivered = σ.undelivered ∧
      σ'.client.cache = σ.client.cache ∧ σ'.phase = σ.phase := by
    simp only [RaceEvent.step] at steps
    split at steps
    · cases steps
    · obtain ⟨⟨note, server⟩, pops, rfl⟩ := Option.map_eq_some_iff.mp steps
      obtain ⟨disk, fileMap, subscribers, subscribed, pending⟩ :=
        Server.popNotification_eq_some pops
      refine ⟨⟨rfl, rfl, rfl, disk, fileMap, subscribers,
        subscribed σ.client.clientId⟩, ?_, rfl, rfl⟩
      unfold undelivered
      rw [pending]
      simp [Race.server]
  obtain ⟨same, undelivered, cache, phase⟩ := moved
  have waiting : σ.Waiting path → σ'.Waiting path := by
    unfold Waiting
    rw [undelivered]
    exact id
  refine ⟨running_of_sameFiles same sound.toRunning, ?_⟩
  have copy := sound.copy
  unfold CopySound at copy ⊢
  rw [phase, cache]
  cases inPhase : σ.phase with
  | start => trivial
  | requesting left =>
      simp only [inPhase] at copy
      exact downloading_of_sameFiles same (by rw [cache]; exact copy.notCached)
        (fun waits => .inl (waiting waits)) copy
  | entered | hit =>
      simp only [inPhase] at copy
      exact ⟨copy.1, watched_of_sameFiles same waiting copy.2⟩
  | returned opened => simp [RaceEvent.step, inPhase] at steps

theorem sound_of_deliver (sound : σ.Sound path uploads)
    (harmless : RaceEvent.deliver.Harmless path uploads σ)
    (steps : RaceEvent.deliver.step path σ = some σ') :
    σ'.Sound path uploads := by
  obtain ⟨handlers, client, inFlight, phase⟩ := σ
  have copy := sound.copy
  cases inFlight with
  | nil => cases phase <;> cases steps
  | cons note notes =>
      have same : SameFiles ⟨handlers, client, note :: notes, phase⟩
          ⟨handlers, client.processNotification note, notes, phase⟩ :=
        ⟨(Client.sameElsewhere_processNotification client note).clientId,
          client.processNotification_disk note, rfl, rfl, rfl, rfl, Iff.rfl⟩
      have others := Client.sameElsewhere_processNotification client note
      have remaining : Waiting path ⟨handlers, client, notes, phase⟩ →
          Waiting path ⟨handlers, client.processNotification note, notes,
            phase⟩ := by
        unfold Waiting undelivered
        dsimp only [server]
        rw [others.clientId]
        exact id
      have waiting (apart : note.directory ≠ path) :
          Waiting path ⟨handlers, client, note :: notes, phase⟩ →
          Waiting path ⟨handlers, client.processNotification note, notes,
            phase⟩ := by
        rintro ⟨other, member, about⟩
        refine remaining ⟨other, ?_, about⟩
        rcases List.mem_cons.mp member with rfl | later
        · exact (apart about).elim
        · exact later
      cases phase with
      | start =>
          obtain rfl := Option.some.inj steps
          exact ⟨running_of_sameFiles same sound.toRunning, trivial⟩
      | requesting left =>
          obtain rfl := Option.some.inj steps
          refine ⟨running_of_sameFiles same sound.toRunning, ?_⟩
          by_cases about : note.directory = path
          · have unchanged : client.processNotification note = client := by
              apply Client.processNotification_of_uncached
              rw [about]
              exact copy.notCached
            refine downloading_of_sameFiles same ?_ (fun _ => ?_) copy
            · rw [← copy.notCached]
              exact congrArg (fun client => client.cache path) unchanged
            · exact (harmless about).imp_left remaining
          · refine downloading_of_sameFiles same ?_
              (fun waits => .inl (waiting about waits)) copy
            exact (others.cache path (Ne.symm about)).trans copy.notCached
      | entered | hit =>
          obtain rfl := Option.some.inj steps
          refine ⟨running_of_sameFiles same sound.toRunning, ?_,
            watched_of_sameFiles same (waiting harmless) copy.2⟩
          have unchanged := others.cache path (Ne.symm harmless)
          dsimp only
          rw [unchanged]
          exact copy.1
      | returned opened => cases steps

end Subscriber

end Race

variable {κ : Type*} [DecidableEq κ] {path : Path}
variable {uploads : κ → ClientId × List Bytes}

theorem sound_of_raceEvent {event : RaceEvent κ} {σ σ' : Race κ}
    (sound : σ.Sound path uploads) (harmless : event.Harmless path uploads σ)
    (steps : event.step path σ = some σ') : σ'.Sound path uploads := by
  cases event with
  | handler thread choice => exact Race.sound_of_handler sound steps
  | call answers => exact Race.sound_of_call sound harmless steps
  | send => exact Race.sound_of_send sound steps
  | deliver => exact Race.sound_of_deliver sound harmless steps

omit [DecidableEq κ] in
theorem sound_start {s : Server} {client : Client} {inFlight : List Notification}
    (others : ∀ k, (uploads k).1 ≠ client.clientId)
    (subscribed : s.Subscribed client.clientId) :
    (Race.start s path uploads client inFlight).Sound path uploads where
  others := others
  stages := inStages_sharing s
  subscribed := subscribed
  pushes i q notif member := by
    cases i <;> simp [Race.start, Handlers.sharing, Handlers.start,
      Participant.request, racers, Request.program, openProgram, closeProgram,
      closeCallback] at member
  copy := trivial

/-- When every event of a call of `open_file` next to uploads of the file is
harmless and the call returns true while no upload has the file, the file is
cached and open, and its copy is what the server stores or a notification about
it is still on its way. -/
theorem openFile_keeps_up (s : Server) (path : Path)
    (uploads : κ → ClientId × List Bytes) (client : Client)
    (inFlight : List Notification)
    (others : ∀ k, (uploads k).1 ≠ client.clientId)
    (subscribed : s.Subscribed client.clientId)
    (events : List (RaceEvent κ)) {σ : Race κ}
    (reaches : run (RaceEvent.step path) events
      (Race.start s path uploads client inFlight) = some σ)
    (harmless : Along (RaceEvent.step path) (RaceEvent.Harmless path uploads)
      events (Race.start s path uploads client inFlight))
    (opened : σ.phase = .returned true)
    (quiet : ∀ k, (σ.handlers.threads (some k)).locals.path = none ∨
      (σ.handlers.threads (some k)).code = []) :
    (σ.client.cache path).isSome ∧ (σ.client.openedFiles path).isSome ∧
      path ∈ σ.client.fileMutexes ∧
      (σ.client.disk.read path = σ.server.disk.read path ∨
        ∃ note ∈ σ.undelivered, note.directory = path) := by
  have sound : σ.Sound path uploads :=
    invariant_of_run
      (fun _ _ _ harmless sound steps =>
        sound_of_raceEvent sound harmless steps)
      reaches harmless (sound_start others subscribed)
  have copy := sound.copy
  simp only [Race.CopySound, opened] at copy
  refine ⟨copy.cached, copy.opened, copy.mutex, ?_⟩
  rcases copy.informed with waiting | current | ⟨i, stream, isClose, hasPath, owes⟩
  · exact .inr waiting
  · exact .inl current
  · cases i with
    | none => cases isClose
    | some k =>
        obtain ⟨instr, member, -⟩ := owes
        rcases quiet k with unopened | finished
        · simp [unopened] at hasPath
        · simp [finished] at member

/-- A server with one empty file and two subscribed clients. -/
private def watchedServer : Server :=
  { Server.launch "/srv" (FileStore.empty.create "/srv/a" 0) 0 with
    subscribers client :=
      if client = "reader" then some 0
      else if client = "writer" then some 1 else none
    queues q := if q < 2 then some ⟨[], false⟩ else none }

/-- The writer uploads one byte. -/
private def byteUpload (_ : Unit) : ClientId × List Bytes :=
  ("writer", [[97]])

/-- The handler of the download registers the reader and sends the file. -/
private def downloading : List (RaceEvent Unit) :=
  List.replicate 8 (.handler none .go) ++
    [.handler none (.fill 1), .handler none .go]

/-- The handler of the upload stores the byte and notifies the reader. -/
private def uploading : List (RaceEvent Unit) :=
  List.replicate 7 (.handler (some ()) .go) ++
    .handler (some ()) (.pick "reader") ::
      List.replicate 10 (.handler (some ()) .go)

/-- The upload overtakes the download, and its notification is not processed
before the call returns. -/
theorem openFile_keeps_up_overtaken :
    ∃ σ : Race Unit,
      (σ.client.cache "/srv/a").isSome ∧
      (σ.client.disk.read "/srv/a" = σ.server.disk.read "/srv/a" ∨
        ∃ note ∈ σ.undelivered, note.directory = "/srv/a") ∧
      σ.client.disk.read "/srv/a" = some [] ∧
      σ.server.disk.read "/srv/a" = some [97] := by
  let answers := LocalAnswers.success 0
  have done := openFile_keeps_up watchedServer "/srv/a" byteUpload
    (.launch "reader") [] (by simp [byteUpload, Client.launch])
    ⟨0, ⟨[], false⟩, rfl, rfl⟩
    (.call answers :: (downloading ++ uploading) ++
      [.call answers, .call answers])
    rfl
    (by
      apply along_append rfl
      · refine ⟨trivial, fun next _ => along_of_forall ?_ next⟩
        intro event member state
        have isHandler : ∃ thread choice, event = .handler thread choice := by
          simp only [downloading, uploading, List.mem_append,
            List.mem_replicate, List.mem_cons, List.not_mem_nil,
            or_false] at member
          rcases member with (⟨-, rfl⟩ | rfl | rfl) | ⟨-, rfl⟩ | rfl | ⟨-, rfl⟩ <;>
            exact ⟨_, _, rfl⟩
        obtain ⟨thread, choice, rfl⟩ := isHandler
        trivial
      · refine ⟨trivial, fun next stepEq => ?_⟩
        obtain rfl := Option.some.inj stepEq
        exact ⟨trivial, fun _ _ => trivial⟩)
    rfl (fun _ => .inr rfl)
  exact ⟨_, done.1, done.2.2.2, rfl, rfl⟩

/-- A notification that is processed during the download is lost, and the call
returns true with a copy that stays out of date; one that is processed between
the insertions in the cache and in the opened files takes the file out of the
cache. -/
theorem openFile_misses_upload :
    (∃ (events : List (RaceEvent Unit)) (σ : Race Unit),
      run (RaceEvent.step "/srv/a") events
        (Race.start watchedServer "/srv/a" byteUpload (.launch "reader") []) =
          some σ ∧
      σ.phase = .returned true ∧ (σ.handlers.threads (some ())).code = [] ∧
      σ.client.disk.read "/srv/a" = some [] ∧
      σ.server.disk.read "/srv/a" = some [97] ∧ σ.undelivered = []) ∧
    ∃ (events : List (RaceEvent Unit)) (σ : Race Unit),
      run (RaceEvent.step "/srv/a") events
        (Race.start watchedServer "/srv/a" byteUpload (.launch "reader") []) =
          some σ ∧
      σ.phase = .returned true ∧ (σ.handlers.threads (some ())).code = [] ∧
      σ.client.cache "/srv/a" = none := by
  let answers := LocalAnswers.success 0
  constructor
  · exact ⟨.call answers :: downloading ++ uploading ++
      [.send, .deliver, .call answers, .call answers],
      _, rfl, rfl, rfl, rfl, rfl, rfl⟩
  · exact ⟨.call answers :: downloading ++ .call answers :: uploading ++
      [.send, .deliver, .call answers],
      _, rfl, rfl, rfl, rfl⟩

end DistributedFilesystem
