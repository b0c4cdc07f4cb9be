import DistributedFilesystem.CacheCoverage
import DistributedFilesystem.TransitionRuns

/-!
# Cached files and registrations

While no section lets a client lose its watch, every file that is cached and
not open is watched; so its client is registered for it once the notifications
have been processed.
-/

namespace DistributedFilesystem

open TransitionRuns

namespace Cluster

/-- The members are subscribed with queues of their own. -/
structure Subscribed (members : Set ClientId) (σ : Cluster) : Prop where
  clientIds : ∀ client ∈ members, (σ.clients client).clientId = client
  subscribed : ∀ client ∈ members, σ.server.Subscribed client
  ownQueues : σ.server.OwnQueues

/-- The invariant. -/
structure Watched (members : Set ClientId) (σ : Cluster) : Prop
    extends Subscribed members σ where
  covered : ∀ client ∈ members, ∀ path, (σ.calls client path).Covered
    (σ.Watches client path) path (σ.clients client)

/-- The members are subscribed, have nothing cached, and make no calls. -/
structure Starts (members : Set ClientId) (σ : Cluster) : Prop
    extends Subscribed members σ where
  idle : ∀ client ∈ members, ∀ path, σ.calls client path = .idle
  empty : ∀ client ∈ members, ∀ path, (σ.clients client).cache path = none

section Steps

variable {members : Set ClientId} {σ : Cluster} {client : ClientId}
variable {path : Path}

theorem watched_of_starts (starts : σ.Starts members) : σ.Watched members where
  toSubscribed := starts.toSubscribed
  covered client member path := by
    rw [starts.idle client member path]
    exact covered_idle_of_uncached (starts.empty client member path)

/-- A change of the server that appends to a queue keeps what is waiting. -/
theorem waiting_of_pending {s : Server} {notes : List Notification}
    (pending : s.pending client = σ.server.pending client ++ notes)
    (waiting : σ.Waiting client path) :
    Waiting { σ with server := s } client path := by
  obtain ⟨note, member, about⟩ := waiting
  refine ⟨note, ?_, about⟩
  unfold undelivered at member ⊢
  dsimp only
  rw [pending, ← List.append_assoc]
  exact List.mem_append_left _ member

theorem watches_of_keepsWatch {s : Server} {originator other : ClientId}
    {otherPath : Path} (watch : KeepsWatch path originator σ.server s)
    (subscribed : σ.server.Subscribed other)
    (apart : other = originator → otherPath ≠ path)
    (watches : σ.Watches other otherPath) :
    Watches { σ with server := s } other otherPath := by
  rcases watches with registered | waiting
  · rcases watch.registered otherPath other subscribed apart registered with
      registered | ⟨note, member, about⟩
    · exact .inl registered
    · exact .inr ⟨note, List.mem_append_right _ member, about⟩
  · obtain ⟨notes, pending⟩ := watch.pending other subscribed
    exact .inr (waiting_of_pending pending waiting)

theorem watches_afterSection (isSubscribed : σ.Subscribed members)
    (member : client ∈ members) {result : Client × Server × CallPhase}
    (effect : SectionEffect path (σ.clients client) σ.server result)
    {other : ClientId} (isMember : other ∈ members) {otherPath : Path}
    (apart : other = client → otherPath ≠ path)
    (watches : σ.Watches other otherPath) :
    (σ.afterSection client path result).Watches other otherPath := by
  have watch := effect.watch
  rw [isSubscribed.clientIds client member] at watch
  exact watches_of_keepsWatch watch (isSubscribed.subscribed other isMember) apart
    watches

theorem subscribed_afterSection (isSubscribed : σ.Subscribed members)
    {result : Client × Server × CallPhase}
    (effect : SectionEffect path (σ.clients client) σ.server result) :
    (σ.afterSection client path result).Subscribed members where
  clientIds other isMember := by
    by_cases same : other = client
    · subst same
      simpa [afterSection, effect.entries.clientId] using
        isSubscribed.clientIds other isMember
    · simpa [afterSection, same] using isSubscribed.clientIds other isMember
  subscribed other isMember :=
    (effect.watch.subscribed other).mpr (isSubscribed.subscribed other isMember)
  ownQueues first second q isFirst isSecond := by
    simp only [afterSection, effect.watch.subscribers] at isFirst isSecond
    exact isSubscribed.ownQueues first second q isFirst isSecond

/-- A section of a call keeps the invariant if it does so for its own client
and file. -/
theorem watched_afterSection (watched : σ.Watched members)
    (member : client ∈ members) {result : Client × Server × CallPhase}
    (effect : SectionEffect path (σ.clients client) σ.server result)
    (own : result.2.2.Covered
      (Watches { σ with server := result.2.1 } client path) path result.1) :
    (σ.afterSection client path result).Watched members := by
  have spared (other : ClientId) (isMember : other ∈ members) (otherPath : Path)
      (apart : other = client → otherPath ≠ path) :=
    watches_afterSection watched.toSubscribed member effect isMember apart
  constructor
  · exact subscribed_afterSection watched.toSubscribed effect
  · intro other isMember otherPath
    have covered := watched.covered other isMember otherPath
    by_cases sameClient : other = client
    · subst sameClient
      by_cases samePath : otherPath = path
      · subst samePath
        simp only [afterSection, Function.update_self]
        exact own
      · simp only [afterSection, Function.update_self,
          Function.update_of_ne samePath]
        exact covered_mono (effect.entries.cache otherPath samePath)
          (effect.entries.openedFiles otherPath samePath)
          (spared other isMember otherPath fun _ => samePath) covered
    · simp only [afterSection, Function.update_of_ne sameClient]
      exact covered_mono rfl rfl
        (spared other isMember otherPath fun same => (sameClient same).elim)
        covered

theorem watched_of_start (watched : σ.Watched members)
    (member : client ∈ members) {call : FileCall} {answers : LocalAnswers}
    (idle : σ.calls client path = .idle) :
    (σ.afterSection client path
      ((call.begin answers path (σ.clients client)).1, σ.server,
        (call.begin answers path (σ.clients client)).2)).Watched members := by
  have covered := watched.covered client member path
  rw [idle] at covered
  exact watched_afterSection watched member
    ⟨sameEntries_begin call, .refl ..⟩ (covered_begin call covered)

theorem watched_of_advance (watched : σ.Watched members)
    (member : client ∈ members) {answers : LocalAnswers}
    {result : Client × Server × CallPhase}
    (advances : (σ.calls client path).advance answers path (σ.clients client)
      σ.server = some result)
    (harmless : ∀ timestamp, σ.calls client path = .received timestamp →
      σ.server.fileMap path = none ∨ σ.Watches client path) :
    (σ.afterSection client path result).Watched members := by
  have isClient := watched.clientIds client member
  apply watched_afterSection watched member (sectionEffect_of_advance advances)
  refine covered_of_advance
    (fun s => Watches { σ with server := s } client path) ?_ advances ?_
    (watched.covered client member path)
  · intro s registered
    rw [isClient] at registered
    exact .inl registered
  · intro timestamp isReceived
    refine (harmless timestamp isReceived).imp_right fun watches => ?_
    rcases watches with registered | waiting
    · exact .inl (Server.registered_finishClose _ _ _ registered)
    · obtain ⟨notes, pending, -⟩ :=
        (Server.announces_finishClose σ.server path (σ.clients client).clientId
          timestamp).pending client (watched.subscribed client member)
      exact .inr (waiting_of_pending pending waiting)

section Send

variable {note : Notification} {s : Server}

theorem undelivered_of_send (isSubscribed : σ.Subscribed members)
    (pops : σ.server.popNotification client = some (note, s)) (other : ClientId) :
    undelivered { σ with
      server := s
      inFlight := Function.update σ.inFlight client
        (σ.inFlight client ++ [note]) } other = σ.undelivered other := by
  obtain ⟨-, -, -, -, pending⟩ := Server.popNotification_eq_some pops
  unfold undelivered
  dsimp only
  by_cases same : other = client
  · subst same
    simp [pending]
  · rw [Function.update_of_ne same,
      Server.pending_popNotification_ne pops isSubscribed.ownQueues same]

theorem subscribed_of_send (isSubscribed : σ.Subscribed members)
    (pops : σ.server.popNotification client = some (note, s)) :
    Subscribed members { σ with
      server := s
      inFlight := Function.update σ.inFlight client
        (σ.inFlight client ++ [note]) } := by
  obtain ⟨-, -, subscribers, subscribed, -⟩ := Server.popNotification_eq_some pops
  constructor
  · exact isSubscribed.clientIds
  · exact fun other isMember =>
      (subscribed other).mpr (isSubscribed.subscribed other isMember)
  · intro first second q isFirst isSecond
    simp only [subscribers] at isFirst isSecond
    exact isSubscribed.ownQueues first second q isFirst isSecond

theorem watched_of_send (watched : σ.Watched members)
    (pops : σ.server.popNotification client = some (note, s)) :
    Watched members { σ with
      server := s
      inFlight := Function.update σ.inFlight client
        (σ.inFlight client ++ [note]) } := by
  obtain ⟨-, fileMap, -⟩ := Server.popNotification_eq_some pops
  constructor
  · exact subscribed_of_send watched.toSubscribed pops
  · intro other isMember otherPath
    refine covered_mono rfl rfl ?_ (watched.covered other isMember otherPath)
    unfold Watches Waiting
    rw [undelivered_of_send watched.toSubscribed pops, fileMap]
    exact id

end Send

section Deliver

variable {note : Notification} {notes : List Notification}

/-- The subscriber thread takes a notification about one file of its own
client. -/
theorem waiting_of_deliver (inFlight : σ.inFlight client = note :: notes)
    (clients : ClientId → Client) {other : ClientId} {otherPath : Path}
    (apart : other = client → otherPath ≠ note.directory)
    (waiting : σ.Waiting other otherPath) :
    Waiting { σ with
      clients := clients
      inFlight := Function.update σ.inFlight client notes } other otherPath := by
  obtain ⟨next, isWaiting, about⟩ := waiting
  refine ⟨next, ?_, about⟩
  unfold undelivered at isWaiting ⊢
  dsimp only
  by_cases sameClient : other = client
  · subst sameClient
    rw [inFlight] at isWaiting
    rw [Function.update_self]
    rcases List.mem_cons.mp isWaiting with rfl | later
    · exact (apart rfl about.symm).elim
    · exact later
  · rwa [Function.update_of_ne sameClient]

theorem subscribed_of_deliver (isSubscribed : σ.Subscribed members) :
    Subscribed members { σ with
      clients := Function.update σ.clients client
        ((σ.clients client).processNotification note)
      inFlight := Function.update σ.inFlight client notes } := by
  have same :=
    Client.sameElsewhere_processNotification (σ.clients client) note
  refine ⟨?_, isSubscribed.subscribed, isSubscribed.ownQueues⟩
  intro other isMember
  by_cases sameClient : other = client
  · subst sameClient
    simpa [same.clientId] using isSubscribed.clientIds other isMember
  · simpa [sameClient] using isSubscribed.clientIds other isMember

theorem watched_of_deliver (watched : σ.Watched members)
    (inFlight : σ.inFlight client = note :: notes)
    (keeps : (σ.calls client note.directory).KeepsCopy note.directory
        (σ.clients client) →
      Watches { σ with
        inFlight := Function.update σ.inFlight client notes }
        client note.directory) :
    Watched members { σ with
      clients := Function.update σ.clients client
        ((σ.clients client).processNotification note)
      inFlight := Function.update σ.inFlight client notes } := by
  have same :=
    Client.sameElsewhere_processNotification (σ.clients client) note
  have spared (other : ClientId) (otherPath : Path)
      (apart : other = client → otherPath ≠ note.directory)
      (watches : σ.Watches other otherPath) :
      Watches { σ with
        clients := Function.update σ.clients client
          ((σ.clients client).processNotification note)
        inFlight := Function.update σ.inFlight client notes }
        other otherPath := by
    rcases watches with registered | waiting
    · exact .inl registered
    · exact .inr (waiting_of_deliver inFlight _ apart waiting)
  constructor
  · exact subscribed_of_deliver watched.toSubscribed
  · intro other isMember otherPath
    have covered := watched.covered other isMember otherPath
    by_cases sameClient : other = client
    · subst sameClient
      dsimp only
      rw [Function.update_self]
      by_cases samePath : otherPath = note.directory
      · subst samePath
        exact covered_processNotification keeps covered
      · exact covered_mono (same.cache otherPath samePath)
          (same.openedFiles otherPath samePath)
          (spared other otherPath fun _ => samePath) covered
    · dsimp only
      rw [Function.update_of_ne sameClient]
      exact covered_mono rfl rfl
        (spared other otherPath fun same => (sameClient same).elim) covered

end Deliver

end Steps

end Cluster

theorem watched_of_clusterEvent {members : Set ClientId} {event : ClusterEvent}
    {σ σ' : Cluster} (harmless : event.Harmless members σ)
    (watched : σ.Watched members) (steps : event.step σ = some σ') :
    σ'.Watched members := by
  cases event with
  | start client path call answers =>
      simp only [ClusterEvent.step] at steps
      split at steps
      · next idle =>
          obtain rfl := Option.some.inj steps
          exact Cluster.watched_of_start watched harmless idle
      · simp at steps
  | advance client path answers =>
      obtain ⟨result, advances, rfl⟩ := Option.map_eq_some_iff.mp steps
      exact Cluster.watched_of_advance watched harmless.1 advances harmless.2
  | send client =>
      obtain ⟨⟨note, s⟩, pops, rfl⟩ := Option.map_eq_some_iff.mp steps
      exact Cluster.watched_of_send watched pops
  | deliver client =>
      simp only [ClusterEvent.step] at steps
      split at steps
      · simp at steps
      · next note notes inFlight =>
          obtain rfl := Option.some.inj steps
          exact Cluster.watched_of_deliver watched inFlight
            (harmless.2 note notes inFlight)
  | tick now =>
      obtain rfl := Option.some.inj steps
      exact ⟨⟨watched.clientIds, watched.subscribed, watched.ownQueues⟩,
        watched.covered⟩

/-- In every run of harmless events, a member is registered for every file that
it has cached, not open and not just created, once its notifications have been
processed. -/
theorem cached_registered {members : Set ClientId} {σ₀ σ : Cluster}
    (starts : σ₀.Starts members) (events : List ClusterEvent)
    (reaches : run ClusterEvent.step events σ₀ = some σ)
    (harmless : Along ClusterEvent.step (ClusterEvent.Harmless members) events σ₀)
    (client : ClientId) (member : client ∈ members)
    (drained : σ.undelivered client = []) (path : Path)
    (notCreated : σ.calls client path ≠ .created)
    (cached : (σ.clients client).cache path ≠ none)
    (closed : (σ.clients client).openedFiles path = none) :
    σ.server.fileMap.Registered path client := by
  have watched : σ.Watched members :=
    invariant_of_run (fun _ _ _ => watched_of_clusterEvent) reaches harmless
      (Cluster.watched_of_starts starts)
  have watches := watches_of_covered (watched.covered client member path)
    notCreated (Option.isSome_iff_ne_none.mpr cached) closed
  rcases watches with registered | ⟨note, isWaiting, -⟩
  · exact registered
  · simp [drained] at isWaiting

/-- A server without files and its two clients. -/
private def newCluster : Cluster where
  server :=
    { Server.launch "/srv" .empty 0 with
      subscribers client :=
        if client = "reader" then some 0
        else if client = "writer" then some 1 else none
      queues q := if q < 2 then some ⟨[], false⟩ else none }
  clients := Client.launch
  inFlight _ := []
  calls _ _ := .idle

private theorem newCluster_starts : newCluster.Starts {"reader", "writer"} where
  clientIds _ _ := rfl
  subscribed := by
    rintro client (rfl | rfl)
    · exact ⟨0, ⟨[], false⟩, rfl, rfl⟩
    · exact ⟨1, ⟨[], false⟩, rfl, rfl⟩
  ownQueues client other q isFirst isSecond := by
    simp only [newCluster] at isFirst isSecond
    split_ifs at isFirst isSecond <;> simp_all <;> cases isFirst <;>
      cases isSecond
  idle _ _ _ := rfl
  empty _ _ _ := rfl

/-- The writer creates a file and uploads it. -/
private def creation : List ClusterEvent :=
  let answers := LocalAnswers.success 0
  .start "writer" "/srv/a" .createFile answers ::
    .advance "writer" "/srv/a" answers ::
    .start "writer" "/srv/a" .closeFile answers ::
    List.replicate 3 (.advance "writer" "/srv/a" answers)

/-- The reader asks for a file that is not there. -/
private def missingOpen : List ClusterEvent :=
  let answers := LocalAnswers.success 0
  .start "reader" "/srv/a" .openFile answers ::
    List.replicate 9 (.advance "reader" "/srv/a" answers)

/-- The creator of a file that nobody has asked for is registered for it. -/
theorem cached_registered_creation :
    ∃ σ : Cluster, run ClusterEvent.step creation newCluster = some σ ∧
      σ.server.fileMap.Registered "/srv/a" "writer" := by
  refine ⟨_, rfl, cached_registered newCluster_starts creation rfl ?_ "writer"
    (.inr rfl) rfl "/srv/a" (by decide) (by decide) rfl⟩
  refine ⟨.inr rfl, fun _ => ?_⟩
  rintro ⟨⟩
  refine ⟨⟨.inr rfl, fun timestamp isReceived => by cases isReceived⟩, ?_⟩
  rintro _ ⟨⟩
  refine ⟨.inr rfl, ?_⟩
  rintro _ ⟨⟩
  refine ⟨⟨.inr rfl, fun timestamp isReceived => by cases isReceived⟩, ?_⟩
  rintro _ ⟨⟩
  refine ⟨⟨.inr rfl, fun timestamp isReceived => .inl rfl⟩, ?_⟩
  rintro _ ⟨⟩
  refine ⟨⟨.inr rfl, fun timestamp isReceived => by cases isReceived⟩, ?_⟩
  rintro _ ⟨⟩
  trivial

/-- When somebody has asked for the file before its creator uploads it, the
creator is never registered for its copy. -/
theorem creator_unregistered :
    ∃ σ : Cluster,
      run ClusterEvent.step
          (missingOpen ++ creation ++ [.send "reader", .deliver "reader"])
          newCluster = some σ ∧
        σ.calls "reader" "/srv/a" = .idle ∧ σ.calls "writer" "/srv/a" = .idle ∧
        σ.undelivered "reader" = [] ∧ σ.undelivered "writer" = [] ∧
        ((σ.clients "writer").cache "/srv/a").isSome ∧
        (σ.clients "writer").openedFiles "/srv/a" = none ∧
        ¬ σ.server.fileMap.Registered "/srv/a" "writer" := by
  refine ⟨_, rfl, rfl, rfl, rfl, rfl, rfl, rfl, ?_⟩
  rintro ⟨clients, entry, member⟩
  obtain rfl : {"reader"} = clients := Option.some.inj entry
  simp at member

end DistributedFilesystem
