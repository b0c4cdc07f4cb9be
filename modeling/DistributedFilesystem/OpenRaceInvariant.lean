import DistributedFilesystem.OpenRace

/-!
# The invariant of the race

While the call downloads, its client is registered before the file is read and
will hear of what the download has missed; a copy in the cache is current, or
the client will hear of what it lacks.  The steps of the handlers keep this.
-/

namespace DistributedFilesystem

open LockedThreads

namespace Race

variable {κ : Type*}

/-- While the call downloads, the file is not cached, the handler registers the
client before it reads the file, and the client will hear of what the download
has missed. -/
structure Downloading (path : Path) (uploads : κ → ClientId × List Bytes)
    (σ : Race κ) : Prop where
  notCached : σ.client.cache path = none
  registering :
    .act (.insertFileMap path σ.client.clientId) ∈ (σ.handlers.threads none).code ∨
      σ.server.fileMap.Registered path σ.client.clientId
  informed : σ.Waiting path ∨ σ.DownloadCurrent path ∨ σ.Announced path uploads

/-- The call has returned true, with a copy that is cached, open and informed
of. -/
structure Opened (path : Path) (uploads : κ → ClientId × List Bytes)
    (σ : Race κ) : Prop where
  cached : (σ.client.cache path).isSome
  opened : (σ.client.openedFiles path).isSome
  mutex : path ∈ σ.client.fileMutexes
  informed : σ.Informed path uploads

/-- What holds of the copy in each phase. -/
def CopySound (path : Path) (uploads : κ → ClientId × List Bytes)
    (σ : Race κ) : Prop :=
  match σ.phase with
  | .start => True
  | .requesting _ => σ.Downloading path uploads
  | .entered | .hit => (σ.client.cache path).isSome ∧ σ.Watched path uploads
  | .returned true => σ.Opened path uploads
  | .returned false => True

/-- The handlers run next to the call of a subscribed client. -/
structure Running (path : Path) (uploads : κ → ClientId × List Bytes)
    (σ : Race κ) : Prop where
  others : ∀ k, (uploads k).1 ≠ σ.client.clientId
  stages : InStages path (racers σ.client.clientId uploads) σ.handlers
  subscribed : σ.server.Subscribed σ.client.clientId
  pushes : ∀ i, PushesToQueue σ.client.clientId σ.server.subscribers
    (σ.handlers.threads i).code

/-- The invariant. -/
structure Sound (path : Path) (uploads : κ → ClientId × List Bytes)
    (σ : Race κ) : Prop extends Running path uploads σ where
  copy : σ.CopySound path uploads

section Handlers

variable [DecidableEq κ] {path : Path} {uploads : κ → ClientId × List Bytes}
variable {σ : Race κ} {handlers : Handlers (Option κ)} {c : Choice}

/-- What waits for the client goes on waiting when a handler takes a step. -/
theorem waiting_of_handler {thread : Option κ} (sound : σ.Sound path uploads)
    (steps : step exec (thread, c) σ.handlers = some handlers)
    (waiting : σ.Waiting path) :
    Waiting path { σ with handlers := handlers } := by
  obtain ⟨note, member, about⟩ := waiting
  obtain ⟨-, later, pending⟩ := pending_of_step sound.stages steps sound.subscribed
  refine ⟨note, ?_, about⟩
  rcases List.mem_append.mp member with inFlight | queued
  · exact List.mem_append_left _ inFlight
  · apply List.mem_append_right
    have grown : handlers.shared.server.pending σ.client.clientId =
        σ.server.pending σ.client.clientId ++ later := pending
    exact grown ▸ List.mem_append_left _ queued

/-- What only a change of the file can end survives the step of an upload,
unless the client will hear of the change. -/
theorem kept_of_handler (kept : Recorded → Prop)
    (keeps : ∀ w w', w'.server.disk = w.server.disk → kept w → kept w')
    (sound : σ.Sound path uploads) {k : κ}
    (steps : step exec (some k, c) σ.handlers = some handlers)
    (registered : σ.server.fileMap.Registered path σ.client.clientId)
    (before : kept σ.handlers.shared ∨ σ.Announced path uploads) :
    Waiting path { σ with handlers := handlers } ∨ kept handlers.shared ∨
      Announced path uploads { σ with handlers := handlers } := by
  obtain ⟨q, -, isSubscriber, -⟩ := sound.subscribed
  have isSubscribed :
      (σ.handlers.shared.server.subscribers σ.client.clientId).isSome := by
    simp only [server] at isSubscriber
    simp [isSubscriber]
  rcases kept_of_upload kept (fun w w' disk _ => keeps w w' disk) sound.stages
    steps rfl (sound.others k).symm registered isSubscribed before with
    kept | announced | ⟨timestamp, log⟩
  · exact .inr (.inl kept)
  · exact .inr (.inr announced)
  · have pending := pending_of_pushed steps sound.subscribed (sound.pushes _) log
    exact .inl ⟨_, List.mem_append_right _ pending, rfl⟩

theorem downloading_of_handler {thread : Option κ}
    (sound : σ.Sound path uploads)
    (downloading : σ.Downloading path uploads)
    (steps : step exec (thread, c) σ.handlers = some handlers) :
    Downloading path uploads { σ with handlers := handlers } where
  notCached := downloading.notCached
  registering :=
    registering_of_step sound.stages steps rfl downloading.registering
  informed := by
    rcases downloading.informed with waiting | covered
    · exact .inl (waiting_of_handler sound steps waiting)
    cases thread with
    | none =>
        obtain ⟨-, effect⟩ := sharing_step sound.stages steps
        cases effect with
        | upload stream isClose => cases isClose
        | download isOpen effect =>
            rcases covered with current | announced
            · right; left
              have after := effect.upToDate current
              rw [← effect.disk] at after
              exact after
            · exact .inr (.inr (owed_of_download rfl announced steps))
    | some k =>
        have same : handlers.threads none = σ.handlers.threads none :=
          (moved_of_step steps).threads_ne (by simp)
        by_cases unopened : (σ.handlers.threads none).locals.input = none
        · right; left
          intro file isOpen
          rw [same, unopened] at isOpen
          cases isOpen
        · have registered := downloading.registering.resolve_left
            (not_registering_of_input (sound.stages none) unopened)
          have kept := kept_of_handler
            (fun w => UpToDate path w.server.disk
              (σ.handlers.threads none).locals)
            (fun w w' disk upToDate => by rwa [disk]) sound steps registered
            covered
          rw [← same] at kept
          exact kept

theorem watched_of_handler {k : κ} (sound : σ.Sound path uploads)
    (watched : σ.Watched path uploads)
    (steps : step exec (some k, c) σ.handlers = some handlers) :
    Watched path uploads { σ with handlers := handlers } := by
  rcases watched with waiting | ⟨registered, covered⟩
  · exact .inl (waiting_of_handler sound steps waiting)
  · rcases kept_of_handler
      (fun w => σ.client.disk.read path = w.server.disk.read path)
      (fun w w' disk current => by rwa [disk]) sound steps registered covered
      with waiting | covered
    · exact .inl waiting
    · exact .inr ⟨registered_of_step sound.stages steps registered, covered⟩

theorem sound_of_handler {thread : Option κ} {σ' : Race κ}
    (sound : σ.Sound path uploads)
    (steps : (RaceEvent.handler thread c).step path σ = some σ') :
    σ'.Sound path uploads := by
  have advanced (steps : (step exec (thread, c) σ.handlers).map
      (fun handlers => { σ with handlers := handlers }) = some σ')
      (copy : ∀ handlers, step exec (thread, c) σ.handlers = some handlers →
        CopySound path uploads { σ with handlers := handlers }) :
      σ'.Sound path uploads := by
    obtain ⟨handlers, stepEq, rfl⟩ := Option.map_eq_some_iff.mp steps
    obtain ⟨stages, -⟩ := sharing_step sound.stages stepEq
    exact ⟨⟨sound.others, stages,
      (pending_of_step sound.stages stepEq sound.subscribed).1,
      pushesToQueue_of_step sound.stages stepEq sound.pushes⟩,
      copy handlers stepEq⟩
  have copy := sound.copy
  obtain ⟨before, client, inFlight, phase⟩ := σ
  cases phase with
  | start =>
      cases thread with
      | none => cases steps
      | some k => exact advanced steps fun _ _ => trivial
  | requesting left =>
      apply advanced
      · cases thread <;> exact steps
      · exact fun _ stepEq => downloading_of_handler sound copy stepEq
  | entered | hit =>
      cases thread with
      | none => cases steps
      | some k =>
          exact advanced steps fun _ stepEq =>
            ⟨copy.1, watched_of_handler sound copy.2 stepEq⟩
  | returned opened => cases thread <;> cases steps

end Handlers

end Race

end DistributedFilesystem
