import DistributedFilesystem.ServerObligations
import DistributedFilesystem.TransitionRuns

/-!
# No missed invalidation

An `open` handler registers its client before it reads the file, and a `close`
handler changes the file before it looks up the registered clients.  So a
client whose download was overtaken by an upload is notified by that upload:
whenever a download is not up to date, either a handler that changed the file
still owes the client a notification, or one was pushed after the last change.
-/

namespace DistributedFilesystem

open LockedThreads TransitionRuns

/-- A notification about the path was pushed to the client's queue after the
last recorded change of the file. -/
def NotifiedSince (path : Path) (client : ClientId) (log : List Event) : Prop :=
  ∃ later timestamp earlier,
    log = later ++
      .pushed client (Server.updateNotification path timestamp) :: earlier ∧
    .modified path ∉ later

section Runs

variable {ι : Type*} (s : Server) (path : Path) (participants : ι → Participant)

/-- The download has not opened the file, or its client is registered and
whatever it may have missed is owed or was announced. -/
def Covered (σ : Handlers ι) (i : ι) : Prop :=
  (σ.threads i).locals.input = none ∨
    σ.shared.server.fileMap.Registered path (participants i).client ∧
      (UpToDate path σ.shared.server.disk (σ.threads i).locals ∨
        Owed path participants σ (participants i).client ∨
        NotifiedSince path (participants i).client σ.shared.log)

/-- The invariant. -/
structure NothingMissed (σ : Handlers ι) : Prop where
  stages : InStages path participants σ
  subscribers : σ.shared.server.subscribers = s.subscribers
  registering : ∀ i, (participants i).upload = none →
    .act (.insertFileMap path (participants i).client) ∈ (σ.threads i).code ∨
      σ.shared.server.fileMap.Registered path (participants i).client
  covered : ∀ i, (participants i).upload = none → Covered path participants σ i

variable {s path participants} [DecidableEq ι] {label : ι × Choice}
variable {σ σ' : Handlers ι}

omit [DecidableEq ι] in
theorem subscribed_of_nothingMissed (nothing : NothingMissed s path participants σ)
    (subscribed : ∀ i, (s.subscribers (participants i).client).isSome) (i : ι) :
    (σ.shared.server.subscribers (participants i).client).isSome := by
  rw [nothing.subscribers]
  exact subscribed i

omit [DecidableEq ι] in
theorem notifiedSince_of_keeps {client : ClientId} {w w' : Recorded}
    (log : w'.log = w.log ∨
      ∃ receiver notif, w'.log = .pushed receiver notif :: w.log)
    (notified : NotifiedSince path client w.log) :
    NotifiedSince path client w'.log := by
  rcases log with log | ⟨receiver, notif, log⟩
  · rwa [log]
  · obtain ⟨later, timestamp, earlier, eq, unchanged⟩ := notified
    exact ⟨.pushed receiver notif :: later, timestamp, earlier,
      by rw [log, eq, List.cons_append], by simpa using unchanged⟩

/-- A step of another participant keeps a registered download covered. -/
theorem covered_of_other (nothing : NothingMissed s path participants σ)
    (distinct : Function.Injective fun i => (participants i).client)
    (subscribed : ∀ i, (s.subscribers (participants i).client).isSome)
    (steps : step exec label σ = some σ') {i : ι} (other : i ≠ label.1)
    (registered : σ.shared.server.fileMap.Registered path (participants i).client)
    (covered : UpToDate path σ.shared.server.disk (σ.threads i).locals ∨
      Owed path participants σ (participants i).client ∨
      NotifiedSince path (participants i).client σ.shared.log) :
    UpToDate path σ'.shared.server.disk (σ.threads i).locals ∨
      Owed path participants σ' (participants i).client ∨
      NotifiedSince path (participants i).client σ'.shared.log := by
  cases isUpload : (participants label.1).upload with
  | none =>
      obtain ⟨-, effect⟩ := sharing_step nothing.stages steps
      cases effect with
      | upload stream isClose => simp [isUpload] at isClose
      | download _ effect =>
          rw [effect.disk, effect.log]
          exact covered.imp_right
            (Or.imp_left fun owed => owed_of_download isUpload owed steps)
  | some stream =>
      have different : (participants i).client ≠ (participants label.1).client :=
        fun same => other (distinct same)
      have before : (UpToDate path σ.shared.server.disk (σ.threads i).locals ∨
          NotifiedSince path (participants i).client σ.shared.log) ∨
          Owed path participants σ (participants i).client := by tauto
      rcases kept_of_upload
        (fun w => UpToDate path w.server.disk (σ.threads i).locals ∨
          NotifiedSince path (participants i).client w.log)
        (fun w w' disk log => Or.imp (fun upToDate => by rwa [disk])
          (notifiedSince_of_keeps log))
        nothing.stages steps isUpload different registered
        (subscribed_of_nothingMissed nothing subscribed i) before with
        (upToDate | notified) | owed | ⟨timestamp, log⟩
      · exact .inl upToDate
      · exact .inr (.inr notified)
      · exact .inr (.inl owed)
      · exact .inr (.inr ⟨[], timestamp, _, log, by simp⟩)

theorem covered_of_step (nothing : NothingMissed s path participants σ)
    (distinct : Function.Injective fun i => (participants i).client)
    (subscribed : ∀ i, (s.subscribers (participants i).client).isSome)
    (steps : step exec label σ = some σ') {i : ι}
    (isOpen : (participants i).upload = none) :
    Covered path participants σ' i := by
  obtain ⟨stages, effect⟩ := sharing_step nothing.stages steps
  by_cases unopened : (σ'.threads i).locals.input = none
  · exact .inl unopened
  have stage := stages i
  simp only [Participant.Stage, isOpen] at stage
  have registered : σ'.shared.server.fileMap.Registered path
      (participants i).client :=
    (registering_of_step nothing.stages steps isOpen
      (nothing.registering i isOpen)).resolve_left
      (not_registering_of_input stage unopened)
  refine .inr ⟨registered, ?_⟩
  by_cases self : i = label.1
  · subst self
    cases effect with
    | upload stream isClose => simp [isOpen] at isClose
    | download _ effect =>
        rw [effect.log, effect.disk]
        rcases nothing.covered label.1 isOpen with
          before | ⟨-, upToDate | owed | notified⟩
        · exact .inl (effect.upToDate fun file opened => by
            simp [before] at opened)
        · exact .inl (effect.upToDate upToDate)
        · exact .inr (.inl (owed_of_download isOpen owed steps))
        · exact .inr (.inr notified)
  · have same := (moved_of_step steps).threads_ne self
    rw [same] at unopened ⊢
    obtain ⟨registered, covered⟩ :=
      (nothing.covered i isOpen).resolve_left unopened
    exact covered_of_other nothing distinct subscribed steps self registered
      covered

theorem nothingMissed_of_step (nothing : NothingMissed s path participants σ)
    (distinct : Function.Injective fun i => (participants i).client)
    (subscribed : ∀ i, (s.subscribers (participants i).client).isSome)
    (steps : step exec label σ = some σ') :
    NothingMissed s path participants σ' where
  stages := (sharing_step nothing.stages steps).1
  subscribers :=
    (subscribers_of_step nothing.stages steps).trans nothing.subscribers
  registering i isOpen :=
    registering_of_step nothing.stages steps isOpen
      (nothing.registering i isOpen)
  covered _ isOpen := covered_of_step nothing distinct subscribed steps isOpen

omit [DecidableEq ι] in
theorem nothingMissed_sharing :
    NothingMissed s path participants
      (Handlers.sharing s path participants) where
  stages := inStages_sharing s
  subscribers := rfl
  registering i isOpen := by
    left
    simp [Handlers.sharing, Handlers.start, Participant.request, isOpen,
      Request.program, openProgram]
  covered _ _ := .inl rfl

/-- When any number of downloads and uploads of one file, for different
subscribed clients, have finished, every client whose download succeeded was
sent the final contents or was notified after the last change. -/
theorem sent_final_or_notified (s : Server) (path : Path)
    (participants : ι → Participant)
    (distinct : Function.Injective fun i => (participants i).client)
    (subscribed : ∀ i, (s.subscribers (participants i).client).isSome)
    (labels : List (ι × Choice)) {σ : Handlers ι}
    (reaches : run (step exec) labels (Handlers.sharing s path participants) =
      some σ)
    (finished : ∀ i, (σ.threads i).code = []) (i : ι)
    (isOpen : (participants i).upload = none)
    (ok : (σ.threads i).locals.status = some Status.OK) :
    σ.shared.server.disk.read path =
        some (σ.threads i).locals.sent.flatten ∨
      NotifiedSince path (participants i).client σ.shared.log := by
  have nothing : NothingMissed s path participants σ :=
    invariant_of_run' (fun _ _ _ nothing steps =>
      nothingMissed_of_step nothing distinct subscribed steps)
      reaches nothingMissed_sharing
  have stage := nothing.stages i
  simp only [Participant.Stage, isOpen, finished i] at stage
  rcases nothing.covered i isOpen with
    unopened | ⟨-, upToDate | ⟨j, -, -, -, instr, member, -⟩ | notified⟩
  · exact .inl (read_of_upToDate stage ok rfl fun file opened => by
      simp [unopened] at opened)
  · exact .inl (read_of_upToDate stage ok rfl upToDate)
  · simp [finished j] at member
  · exact .inr notified

end Runs

/-- A server with one empty file and two subscribed clients. -/
private def twoSubscribers : Server :=
  { Server.launch "/srv" (FileStore.empty.create "/srv/a" 0) 0 with
    subscribers client :=
      if client = "reader" then some 0
      else if client = "writer" then some 1 else none
    queues q := if q < 2 then some ⟨[], false⟩ else none }

/-- A download next to the upload of one message. -/
private def downloadAndUpload (isUpload : Bool) : Participant :=
  if isUpload then ⟨"writer", some [[97]]⟩ else ⟨"reader", none⟩

/-- The reader has downloaded the file when the upload starts. -/
theorem sent_final_or_notified_late :
    ∃ σ : Handlers Bool,
      (σ.shared.server.disk.read "/srv/a" =
          some (σ.threads false).locals.sent.flatten ∨
        NotifiedSince "/srv/a" "reader" σ.shared.log) ∧
      σ.shared.server.disk.read "/srv/a" = some [97] ∧
      (σ.threads false).locals.sent = [] := by
  have distinct : Function.Injective fun i => (downloadAndUpload i).client := by
    decide
  have subscribed : ∀ i,
      (twoSubscribers.subscribers (downloadAndUpload i).client).isSome := by
    decide
  have done := sent_final_or_notified twoSubscribers "/srv/a" downloadAndUpload
    distinct subscribed
    (List.replicate 8 (false, .go) ++ [(false, .fill 1), (false, .go)] ++
      List.replicate 7 (true, .go) ++ [(true, .pick "reader")] ++
      List.replicate 10 (true, .go)) rfl (by rintro (_ | _) <;> rfl) false rfl rfl
  exact ⟨_, done, rfl, rfl⟩

end DistributedFilesystem
