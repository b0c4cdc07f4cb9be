import DistributedFilesystem.DashboardSections

/-!
# An accurate dashboard

In a run that takes none of the branches that make the report of `GetStatus`
wrong, the report is right whenever no request and no `cleanup_client` is in
progress.  The invariant is that the report tracks the phases of the calls.
-/

namespace DistributedFilesystem

open TransitionRuns

/-- The report tracks the phases of the connected clients' calls. -/
structure Tracking (σ : Dashboard) : Prop where
  clientId : ∀ client, (σ.clients client).clientId = client
  connected : ∀ client, σ.connection client = .connected → ∀ path,
    (σ.calls client path).Tracks (σ.Reports client path)
      (σ.Streaming client path) (σ.Stored path)
  gone : ∀ client, σ.connection client = .gone → ∀ path,
    ¬ σ.Reports client path

section Events

variable {σ τ : Dashboard} {client : ClientId} {path : Path}
variable {result : Client × Server × CallPhase}

theorem tracking_afterSection (tracking : Tracking σ)
    (entries : SameEntries path (σ.clients client) result.1)
    (effect : ReportEffect path client σ.server result.2.1)
    (own : σ.connection client = .connected →
      result.2.2.Tracks (result.2.1.fileMapOpen.Registered path client)
        (result.1.openedFiles path).isSome (result.2.1.disk.node path).isSome)
    (others : ∀ other, other ≠ client → σ.connection other = .connected →
      (σ.calls other path).Tracks (σ.Reports other path)
        (σ.Streaming other path) (result.2.1.disk.node path).isSome)
    (gone : σ.connection client = .gone →
      ¬ result.2.1.fileMapOpen.Registered path client) :
    Tracking { σ with
      toCluster := σ.toCluster.afterSection client path result } := by
  constructor
  case clientId =>
    intro other
    by_cases self : other = client
    · subst self
      simpa [Cluster.afterSection] using
        entries.clientId.trans (tracking.clientId other)
    · simpa [Cluster.afterSection, self] using tracking.clientId other
  case connected =>
    intro other isConnected otherPath
    have before := tracking.connected other isConnected otherPath
    by_cases self : other = client
    · subst self
      by_cases same : otherPath = path
      · subst same
        simpa [Cluster.afterSection, Dashboard.Reports, Dashboard.Streaming,
          Dashboard.Stored, Server.getStatusHandler] using own isConnected
      · have sameStreaming : (result.1.openedFiles otherPath).isSome ↔
            σ.Streaming other otherPath := by
          rw [entries.openedFiles otherPath same]
          rfl
        have kept := before.congr
          (effect.reported otherPath other (.inl same)) sameStreaming
          (effect.stored otherPath same)
        simpa [Cluster.afterSection, Dashboard.Reports, Dashboard.Streaming,
          Dashboard.Stored, Server.getStatusHandler, same] using kept
    · by_cases same : otherPath = path
      · subst same
        have kept := (others other self isConnected).congr
          (effect.reported otherPath other (.inr self)) Iff.rfl Iff.rfl
        simpa [Cluster.afterSection, Dashboard.Reports, Dashboard.Streaming,
          Dashboard.Stored, Server.getStatusHandler, self] using kept
      · have kept := before.congr
          (effect.reported otherPath other (.inl same)) Iff.rfl
          (effect.stored otherPath same)
        simpa [Cluster.afterSection, Dashboard.Reports, Dashboard.Streaming,
          Dashboard.Stored, Server.getStatusHandler, self] using kept
  case gone =>
    intro other isGone otherPath reported
    have before := tracking.gone other isGone otherPath
    by_cases own : other = client ∧ otherPath = path
    · obtain ⟨rfl, rfl⟩ := own
      exact gone isGone reported
    · apply before
      apply (effect.reported otherPath other ?_).mp reported
      by_cases same : otherPath = path
      · right
        rintro rfl
        exact own ⟨rfl, same⟩
      · exact .inl same

theorem tracking_of_start {call : FileCall} {answers : LocalAnswers}
    (tracking : Tracking σ) (idle : σ.calls client path = .idle)
    (keeps : σ.connection client = .connected →
      σ.StartKeeps client path call) :
    Tracking { σ with
      toCluster := σ.toCluster.afterSection client path
        ((call.begin answers path (σ.clients client)).1, σ.server,
          (call.begin answers path (σ.clients client)).2) } := by
  apply tracking_afterSection tracking
  case entries => exact sameEntries_begin call
  case effect => exact .refl ..
  case own =>
    intro isConnected
    have before := tracking.connected client isConnected path
    rw [idle] at before
    exact tracks_of_begin call before (keeps isConnected)
  case others =>
    intro other _ isConnected
    exact tracking.connected other isConnected path
  case gone =>
    intro isGone
    exact tracking.gone client isGone path

/-- What a section does to the calls of the other clients for the same file. -/
theorem tracks_of_advance_ne {answers : LocalAnswers} {other : ClientId}
    (tracking : Tracking σ) (isConnected : σ.connection other = .connected)
    (keeps : σ.SectionKeeps client path answers (σ.calls client path))
    (advances : (σ.calls client path).advance answers path
      (σ.clients client) σ.server = some result) :
    (σ.calls other path).Tracks (σ.Reports other path)
      (σ.Streaming other path) (result.2.1.disk.node path).isSome := by
  have before := tracking.connected other isConnected path
  generalize σ.calls client path = phase at keeps advances
  cases phase with
  | idle => simp [CallPhase.advance] at advances
  | uploading requests =>
      obtain rfl := Option.some.inj advances
      apply before.store
      · intro notStored isStreaming
        exact keeps notStored other isConnected isStreaming
      · rw [← FileStore.read_isSome_iff, Server.read_receiveFile]
        rfl
  | removing =>
      simp only [CallPhase.advance] at advances
      split at advances
      · obtain rfl := Option.some.inj advances
        exact before
      · next i present =>
          obtain rfl := Option.some.inj advances
          have isStored : σ.Stored path := by
            simp [Dashboard.Stored, present]
          apply before.remove
          · exact keeps isStored other isConnected
          · rw [← FileStore.read_isSome_iff, FileStore.read_remove]
            simp
  | received timestamp =>
      obtain rfl := Option.some.inj advances
      rw [Server.disk_finishClose]
      exact before
  | removed =>
      obtain rfl := Option.some.inj advances
      rw [Server.disk_fileChangeCallbackUnlink]
      exact before
  | _ =>
      obtain rfl := Option.some.inj advances
      exact before

theorem tracking_of_advance {answers : LocalAnswers} (tracking : Tracking σ)
    (keeps : σ.SectionKeeps client path answers (σ.calls client path))
    (advances : (σ.calls client path).advance answers path
      (σ.clients client) σ.server = some result) :
    Tracking { σ with
      toCluster := σ.toCluster.afterSection client path result } := by
  have clientId := tracking.clientId client
  apply tracking_afterSection tracking
  case entries =>
    exact sameEntries_of_sameElsewhere (sameElsewhere_of_advance advances)
  case effect =>
    have effect := reportEffect_of_advance advances
    rwa [clientId] at effect
  case own =>
    intro isConnected
    exact tracks_of_advance clientId isConnected
      (tracking.connected client isConnected path) keeps advances
  case others =>
    intro other _ isConnected
    exact tracks_of_advance_ne tracking isConnected keeps advances
  case gone =>
    intro isGone reported
    rcases reported_of_advance advances reported with before | ⟨left, opening⟩
    · exact tracking.gone client isGone path before
    · rw [opening] at keeps
      exact keeps isGone

/-- Notifications on their way change neither files nor streams nor the
report. -/
theorem tracking_of_same {cluster : Cluster} (tracking : Tracking σ)
    (calls : cluster.calls = σ.calls)
    (disk : cluster.server.disk = σ.server.disk)
    (fileMapOpen : cluster.server.fileMapOpen = σ.server.fileMapOpen)
    (clientId : ∀ client,
      (cluster.clients client).clientId = (σ.clients client).clientId)
    (openedFiles : ∀ client,
      (cluster.clients client).openedFiles = (σ.clients client).openedFiles) :
    Tracking { σ with toCluster := cluster } := by
  constructor
  case clientId =>
    intro other
    exact (clientId other).trans (tracking.clientId other)
  case connected =>
    intro other isConnected path
    have before := tracking.connected other isConnected path
    simpa [Dashboard.Reports, Dashboard.Streaming, Dashboard.Stored,
      Server.getStatusHandler, calls, disk, fileMapOpen, openedFiles]
      using before
  case gone =>
    intro other isGone path reported
    apply tracking.gone other isGone path
    simpa [Dashboard.Reports, Server.getStatusHandler, fileMapOpen]
      using reported

theorem report_of_popNotification {s s' : Server} {note : Notification}
    (pops : s.popNotification client = some (note, s')) :
    s'.disk = s.disk ∧ s'.fileMapOpen = s.fileMapOpen := by
  unfold Server.popNotification at pops
  split at pops
  · simp at pops
  · split at pops
    · cases pops
      exact ⟨rfl, rfl⟩
    · simp at pops

theorem tracking_of_fileEvent {event : ClusterEvent} {cluster : Cluster}
    (keeps : DashboardEvent.KeepsReport (.file event) σ)
    (tracking : Tracking σ) (steps : event.step σ.toCluster = some cluster) :
    Tracking { σ with toCluster := cluster } := by
  cases event with
  | start client path call answers =>
      simp only [ClusterEvent.step] at steps
      split at steps
      · next idle =>
          obtain rfl := Option.some.inj steps
          exact tracking_of_start tracking idle keeps
      · simp at steps
  | advance client path answers =>
      obtain ⟨result, advances, rfl⟩ := Option.map_eq_some_iff.mp steps
      exact tracking_of_advance tracking keeps advances
  | send client =>
      obtain ⟨⟨note, server⟩, pops, rfl⟩ := Option.map_eq_some_iff.mp steps
      have ⟨disk, fileMapOpen⟩ := report_of_popNotification pops
      exact tracking_of_same tracking rfl disk fileMapOpen (fun _ => rfl)
        (fun _ => rfl)
  | deliver client =>
      simp only [ClusterEvent.step] at steps
      split at steps
      · simp at steps
      · next note notes inFlight =>
          obtain rfl := Option.some.inj steps
          apply tracking_of_same tracking
          case calls => rfl
          case disk => rfl
          case fileMapOpen => rfl
          case clientId =>
            intro other
            by_cases self : other = client
            · subst self
              simp [(Client.sameElsewhere_processNotification _ note).clientId]
            · simp [self]
          case openedFiles =>
            intro other
            by_cases self : other = client
            · subst self
              simp
            · simp [self]
  | tick now =>
      obtain rfl := Option.some.inj steps
      exact tracking_of_same tracking rfl rfl rfl (fun _ => rfl) (fun _ => rfl)

/-- A section of `cleanup_client` changes neither files nor the report. -/
theorem tracking_afterCleanup {server : Server} {connection : Connection}
    (tracking : Tracking σ) (notConnected : connection ≠ .connected)
    (disk : server.disk = σ.server.disk)
    (fileMapOpen : server.fileMapOpen = σ.server.fileMapOpen)
    (unreported : connection = .gone → ∀ path, ¬ σ.Reports client path) :
    Tracking (σ.afterCleanup client server connection) := by
  constructor
  case clientId => exact tracking.clientId
  case connected =>
    intro other isConnected path
    by_cases self : other = client
    · subst self
      exact absurd (by simpa [Dashboard.afterCleanup] using isConnected)
        notConnected
    · have wasConnected : σ.connection other = .connected := by
        simpa [Dashboard.afterCleanup, self] using isConnected
      have before := tracking.connected other wasConnected path
      simpa [Dashboard.afterCleanup, Dashboard.Reports, Dashboard.Streaming,
        Dashboard.Stored, Server.getStatusHandler, disk, fileMapOpen]
        using before
  case gone =>
    intro other isGone path reported
    have wasReported : σ.Reports other path := by
      simpa [Dashboard.afterCleanup, Dashboard.Reports,
        Server.getStatusHandler, fileMapOpen] using reported
    by_cases self : other = client
    · subst self
      exact unreported (by simpa [Dashboard.afterCleanup] using isGone) path
        wasReported
    · have wasGone : σ.connection other = .gone := by
        simpa [Dashboard.afterCleanup, self] using isGone
      exact tracking.gone other wasGone path wasReported

/-- An event that takes none of the wrong branches keeps track of the calls. -/
theorem tracking_of_step {event : DashboardEvent}
    (keeps : event.KeepsReport σ) (tracking : Tracking σ)
    (steps : event.step σ = some τ) : Tracking τ := by
  cases event with
  | file event =>
      obtain ⟨cluster, fileSteps, rfl⟩ := Option.map_eq_some_iff.mp steps
      exact tracking_of_fileEvent keeps tracking fileSteps
  | disconnect client =>
      simp only [DashboardEvent.step] at steps
      split at steps
      · obtain rfl := Option.some.inj steps
        exact tracking_afterCleanup tracking (by simp) rfl rfl (by simp)
      · simp at steps
  | cleanUp client =>
      simp only [DashboardEvent.step] at steps
      split at steps
      · obtain rfl := Option.some.inj steps
        exact tracking_afterCleanup tracking (by simp) rfl rfl (by simp)
      · obtain rfl := Option.some.inj steps
        exact tracking_afterCleanup tracking (by simp) rfl rfl (by simp)
      · next unregistered =>
          obtain rfl := Option.some.inj steps
          have ⟨disk, fileMapOpen⟩ : (σ.server.eraseSubscriber client).disk =
                σ.server.disk ∧
              (σ.server.eraseSubscriber client).fileMapOpen =
                σ.server.fileMapOpen := by
            unfold Server.eraseSubscriber
            split
            · exact ⟨rfl, rfl⟩
            · exact ⟨rfl, rfl⟩
          exact tracking_afterCleanup tracking (by simp) disk fileMapOpen
            fun _ => keeps unregistered
      · simp at steps

theorem tracking_of_fresh (fresh : σ.Fresh) : Tracking σ where
  clientId := fresh.clientId
  connected client _ path := by
    rw [fresh.idle]
    exact iff_of_false (fresh.unreported client path)
      fun both => fresh.closed client path both.1
  gone client _ path := fresh.unreported client path

theorem accurate_of_tracking (tracking : Tracking σ)
    (quiescent : σ.Quiescent) : σ.Accurate where
  gone := tracking.gone
  connected client isConnected path := by
    have tracks := tracking.connected client isConnected path
    have noRpc := quiescent.noRpc client path
    unfold Dashboard.HasOpen
    generalize σ.calls client path = phase at tracks noRpc
    cases phase with
    | idle | hit | created =>
        have resting : σ.Reports client path ↔
            σ.Streaming client path ∧ σ.Stored path := tracks
        simpa using resting
    | entered => exact iff_of_true tracks.1 ⟨.inr rfl, tracks.2⟩
    | _ => exact absurd trivial noRpc

end Events

/-- In every run in which no event takes one of the branches that make the
report wrong, the report of `GetStatus` is right in every state in which no
request and no `cleanup_client` is in progress. -/
theorem dashboard_accurate {σ : Dashboard} (fresh : σ.Fresh)
    (events : List DashboardEvent)
    (meets : Along DashboardEvent.step DashboardEvent.KeepsReport events σ) :
    Throughout DashboardEvent.step
      (fun τ => τ.Quiescent → τ.Accurate) events σ := by
  have tracking : Throughout DashboardEvent.step Tracking events σ :=
    throughout_of_along
      (fun _ _ _ keeps tracking steps => tracking_of_step keeps tracking steps)
      meets (tracking_of_fresh fresh)
  exact tracking.imp fun _ tracks => accurate_of_tracking tracks

/-- A server with one empty file. -/
private def storedFile : Dashboard :=
  .launch "/srv" (FileStore.empty.create "/srv/a" 0)

private theorem not_givesUp_success (left : Nat) :
    ¬ (LocalAnswers.success 0).GivesUp left Status.OK := by
  simp [LocalAnswers.GivesUp, LocalAnswers.success]

private def openCall (sections : Nat) : List DashboardEvent :=
  .file (.start "a" "/srv/a" .openFile (.success 0)) ::
    List.replicate sections (.file (.advance "a" "/srv/a" (.success 0)))

theorem dashboard_accurate_open :
    Throughout DashboardEvent.step (fun τ => τ.Quiescent → τ.Accurate)
        (openCall 4) storedFile ∧
      ∃ τ, run DashboardEvent.step (openCall 4) storedFile = some τ ∧
        τ.Reports "a" "/srv/a" ∧ τ.Streaming "a" "/srv/a" := by
  refine ⟨dashboard_accurate (Dashboard.fresh_launch ..) _ ?_, _, rfl,
    ⟨_, rfl, by decide⟩, rfl⟩
  refine ⟨fun _ => trivial, fun next stepEq => ?_⟩
  cases stepEq
  have opening : Connection.connected ≠ .gone := by decide
  refine ⟨opening, fun next stepEq => ?_⟩
  cases stepEq
  refine ⟨trivial, fun next stepEq => ?_⟩
  cases stepEq
  refine ⟨fun _ givesUp => absurd givesUp (not_givesUp_success 2),
    fun next stepEq => ?_⟩
  cases stepEq
  exact ⟨fun _ notOpened => absurd notOpened (by decide), fun _ _ => trivial⟩

/-- No file is on the server. -/
private def noFiles : Dashboard := .launch "/srv" FileStore.empty

/-- A client that tries to open a file that does not exist is reported to have it
open. -/
theorem missingFile_reported :
    noFiles.Fresh ∧ ∃ events τ, run DashboardEvent.step events noFiles = some τ ∧
      τ.Quiescent ∧ ¬ τ.Accurate ∧
        τ.connection "a" = .connected ∧ τ.Reports "a" "/srv/a" ∧
          ¬ τ.Stored "/srv/a" ∧ ¬ τ.Streaming "a" "/srv/a" := by
  have fresh := Dashboard.fresh_launch "/srv" FileStore.empty
  have notStored : ¬ ((FileStore.empty : FileStore Path Byte).node
      "/srv/a").isSome := by simp [FileStore.empty]
  have notStreaming : ¬ (none : Option FileStreams).isSome := by simp
  refine ⟨fresh, openCall 9, _, rfl, ?_, ?_, rfl, ⟨_, rfl, by decide⟩, ?_, ?_⟩
  · constructor
    · intro client path
      by_cases self : client = "a"
      · subst self
        by_cases same : path = "/srv/a"
        · subst same
          exact fun inRpc => inRpc
        · simp [Cluster.afterSection, noFiles, Dashboard.launch, CallPhase.InRpc]
      · simp [Cluster.afterSection, noFiles, Dashboard.launch, CallPhase.InRpc]
    · exact fun _ => .inl rfl
  · intro accurate
    have opened := (accurate.connected "a" rfl "/srv/a").mp ⟨_, rfl, by decide⟩
    exact absurd opened.2 notStored
  · exact notStored
  · exact notStreaming

end DistributedFilesystem
