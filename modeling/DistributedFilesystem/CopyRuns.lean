import DistributedFilesystem.CopyProtocol

/-!
# Runs with copies

The copies that the members of a cluster have at the end of runs that keep the
promises of the protocol.
-/

namespace DistributedFilesystem

open CallbackPromises TransitionRuns

/-- In every run that keeps the promises, the cluster runs the protocol of
callback promises for each file. -/
theorem cluster_refines_callbackPromises {members : Set ClientId}
    {σ₀ σ : Cluster} (starts : σ₀.StartsClosed members)
    (events : List ClusterEvent)
    (reaches : run ClusterEvent.step events σ₀ = some σ)
    (keeps : Along ClusterEvent.step (ClusterEvent.KeepsPromises members) events
      σ₀) (path : Path) :
    Relation.ReflTransGen Step (σ₀.promises members path)
      (σ.promises members path) := by
  have goesOn (event : ClusterEvent) (τ next : Cluster)
      (keepsPromises : event.KeepsPromises members τ)
      (before : τ.Orderly members ∧ Relation.ReflTransGen Step
        (σ₀.promises members path) (τ.promises members path))
      (steps : event.step τ = some next) :
      next.Orderly members ∧ Relation.ReflTransGen Step
        (σ₀.promises members path) (next.promises members path) := by
    obtain ⟨isOrderly, later⟩ :=
      promises_of_clusterEvent keepsPromises before.1 steps
    exact ⟨isOrderly, before.2.trans (later path)⟩
  exact (invariant_of_run goesOn reaches keeps
    ⟨Cluster.orderly_of_startsClosed starts, .refl⟩).2

/-- In every run that keeps the promises: when no call of a member for the file
is in progress and the notifications of a member have been processed, the copy
that it has cached and not changed is the file of the server, and it is
registered for the next change. -/
theorem copies_coherent {members : Set ClientId} {σ₀ σ : Cluster}
    (starts : σ₀.StartsClosed members) (events : List ClusterEvent)
    (reaches : run ClusterEvent.step events σ₀ = some σ)
    (keeps : Along ClusterEvent.step (ClusterEvent.KeepsPromises members) events
      σ₀)
    (client : ClientId) (member : client ∈ members) (path : Path)
    (quiet : ∀ other ∈ members, σ.calls other path = .idle)
    (drained : σ.undelivered client = []) (info : FileInfo)
    (cached : (σ.clients client).cache path = some info)
    (clean : info.locallyModified = false) :
    (σ.clients client).disk.read path = σ.server.disk.read path ∧
      σ.server.fileMap.Registered path client := by
  have keepsPromised (event : ClusterEvent) (τ next : Cluster)
      (keepsPromises : event.KeepsPromises members τ)
      (before : τ.Orderly members ∧ (τ.promises members path).Promised)
      (steps : event.step τ = some next) :
      next.Orderly members ∧ (next.promises members path).Promised := by
    obtain ⟨isOrderly, later⟩ :=
      promises_of_clusterEvent keepsPromises before.1 steps
    exact ⟨isOrderly, promised_of_steps before.2 (later path)⟩
  have kept := invariant_of_run keepsPromised reaches keeps
    ⟨Cluster.orderly_of_startsClosed starts,
      Cluster.promised_of_startsClosed starts path⟩
  have settled : ∀ other, other ∉ (σ.promises members path).changing := by
    rintro ⟨other, isMember⟩ notifies
    simp only [Cluster.promises, Set.mem_ofPred_eq, quiet other isMember]
      at notifies
    exact notifies
  have received : (⟨client, member⟩ : members) ∉
      (σ.promises members path).waiting := by
    rintro ⟨note, waiting, -⟩
    simp [drained] at waiting
  have copies : (σ.promises members path).holding ⟨client, member⟩ =
      .copy ((σ.clients client).disk.read path) := by
    obtain ⟨modified, timestamp⟩ := info
    obtain rfl : modified = false := clean
    simp [Cluster.promises, quiet client member, CallPhase.holding,
      Client.cleanCopy, cached]
  constructor
  · exact current_of_promised kept.2 copies received settled
  · have holds : (σ.promises members path).holding ⟨client, member⟩ ≠
        .nothing := by simp [copies]
    rcases kept.2.watches _ holds with (registered | waits) | changes
    · exact registered
    · exact (received waits).elim
    · exact (settled _ changes).elim

/-- A server with a file of one byte, and its two clients. -/
private def sharedByte : Cluster where
  server :=
    { Server.launch "/srv" (FileStore.empty.replace "/srv/a" [[97]] 0) 1 with
      subscribers client :=
        if client = "reader" then some 0
        else if client = "writer" then some 1 else none
      queues q := if q < 2 then some ⟨[], false⟩ else none }
  clients := Client.launch
  inFlight _ := []
  calls _ _ := .idle

private theorem sharedByte_startsClosed :
    sharedByte.StartsClosed {"reader", "writer"} where
  clientIds _ _ := rfl
  subscribed := by
    rintro client (rfl | rfl)
    · exact ⟨0, ⟨[], false⟩, rfl, rfl⟩
    · exact ⟨1, ⟨[], false⟩, rfl, rfl⟩
  ownQueues client other q isFirst isSecond := by
    simp only [sharedByte] at isFirst isSecond
    split_ifs at isFirst isSecond <;> simp_all <;> cases isFirst <;>
      cases isSecond
  idle _ _ _ := rfl
  empty _ _ _ := rfl
  closed _ _ _ := rfl

/-- The reader downloads the file and closes it. -/
private def byteRead : List ClusterEvent :=
  let answers := LocalAnswers.success 2
  .start "reader" "/srv/a" .openFile answers ::
    List.replicate 4 (.advance "reader" "/srv/a" answers) ++
    [.start "reader" "/srv/a" .closeFile answers]

/-- The writer appends a byte, and the reader is notified. -/
private def byteChanged : List ClusterEvent :=
  let answers := LocalAnswers.success 2
  .start "writer" "/srv/a" .openFile answers ::
    List.replicate 4 (.advance "writer" "/srv/a" answers) ++
    .start "writer" "/srv/a" (.writeFile [98] 1) answers ::
    .start "writer" "/srv/a" .closeFile answers ::
    List.replicate 3 (.advance "writer" "/srv/a" answers) ++
    [.send "reader", .deliver "reader"]

/-- The reader downloads the file again. -/
private def byteReread : List ClusterEvent :=
  let answers := LocalAnswers.success 3
  .start "reader" "/srv/a" .openFile answers ::
    List.replicate 4 (.advance "reader" "/srv/a" answers)

private theorem not_collides_of_idle {phase other : CallPhase}
    (idle : other = .idle) : ¬ phase.Collides other := by
  subst idle
  cases phase <;> exact id

private theorem keepsPromises_of_phase {σ : Cluster} {members : Set ClientId}
    {client : ClientId} {path : Path} {answers : LocalAnswers}
    (member : client ∈ members) (spares : ¬ (σ.calls client path).Changes)
    (silent : ¬ (σ.calls client path).Notifies)
    (alone : ∀ other ∈ members, other ≠ client → σ.calls other path = .idle) :
    (ClusterEvent.advance client path answers).KeepsPromises members σ := by
  refine ⟨member, fun timestamp received => ?_, fun changes => ?_,
    fun other isMember different => ?_⟩
  · rw [received] at silent
    exact (silent trivial).elim
  · exact (spares changes).elim
  · exact not_collides_of_idle (alone other isMember different)

private theorem alone_reader {σ : Cluster}
    (idle : σ.calls "writer" "/srv/a" = .idle) :
    ∀ other ∈ ({"reader", "writer"} : Set ClientId), other ≠ "reader" →
      σ.calls other "/srv/a" = .idle := by
  rintro other (rfl | rfl) different
  · exact (different rfl).elim
  · exact idle

private theorem alone_writer {σ : Cluster}
    (idle : σ.calls "reader" "/srv/a" = .idle) :
    ∀ other ∈ ({"reader", "writer"} : Set ClientId), other ≠ "writer" →
      σ.calls other "/srv/a" = .idle := by
  rintro other (rfl | rfl) different
  · exact idle
  · exact (different rfl).elim

private theorem keepsPromises_reread :
    Along ClusterEvent.step (ClusterEvent.KeepsPromises {"reader", "writer"})
      (byteRead ++ byteChanged ++ byteReread) sharedByte := by
  have member : "reader" ∈ ({"reader", "writer"} : Set ClientId) := .inl rfl
  have other : "writer" ∈ ({"reader", "writer"} : Set ClientId) := .inr rfl
  refine ⟨⟨member, by simp⟩, ?_⟩
  rintro _ ⟨⟩
  refine ⟨keepsPromises_of_phase member id id (alone_reader rfl), ?_⟩
  rintro _ ⟨⟩
  refine ⟨keepsPromises_of_phase member id id (alone_reader rfl), ?_⟩
  rintro _ ⟨⟩
  refine ⟨keepsPromises_of_phase member id id (alone_reader rfl), ?_⟩
  rintro _ ⟨⟩
  refine ⟨keepsPromises_of_phase member id id (alone_reader rfl), ?_⟩
  rintro _ ⟨⟩
  refine ⟨⟨member, by simp⟩, ?_⟩
  rintro _ ⟨⟩
  refine ⟨⟨other, by simp⟩, ?_⟩
  rintro _ ⟨⟩
  refine ⟨keepsPromises_of_phase other id id (alone_writer rfl), ?_⟩
  rintro _ ⟨⟩
  refine ⟨keepsPromises_of_phase other id id (alone_writer rfl), ?_⟩
  rintro _ ⟨⟩
  refine ⟨keepsPromises_of_phase other id id (alone_writer rfl), ?_⟩
  rintro _ ⟨⟩
  refine ⟨keepsPromises_of_phase other id id (alone_writer rfl), ?_⟩
  rintro _ ⟨⟩
  refine ⟨⟨other, by rintro _ _ ⟨⟩; rfl⟩, ?_⟩
  rintro _ ⟨⟩
  refine ⟨⟨other, by simp⟩, ?_⟩
  rintro _ ⟨⟩
  -- The upload: the reader makes no call.
  refine ⟨⟨other, by rintro _ ⟨⟩, fun _ => ?_, ?_⟩, ?_⟩
  · rintro client (rfl | rfl) different _ received
    · cases received
    · exact (different rfl).elim
  · intro client isMember different
    exact not_collides_of_idle (alone_writer rfl client isMember different)
  rintro _ ⟨⟩
  -- The writer is registered when the reader is notified.
  refine ⟨⟨other, fun _ _ => .inr (.inl ?_), fun changes => changes.elim,
    fun _ _ _ => id⟩, ?_⟩
  · exact ⟨_, rfl, by decide⟩
  rintro _ ⟨⟩
  refine ⟨keepsPromises_of_phase other id id (alone_writer rfl), ?_⟩
  rintro _ ⟨⟩
  refine ⟨member, ?_⟩
  rintro _ ⟨⟩
  -- The reader has the file closed and drops its copy.
  refine ⟨⟨member, ?_⟩, ?_⟩
  · rintro _ _ ⟨⟩
    exact .inr (.inl rfl)
  rintro _ ⟨⟩
  refine ⟨⟨member, by simp⟩, ?_⟩
  rintro _ ⟨⟩
  refine ⟨keepsPromises_of_phase member id id (alone_reader rfl), ?_⟩
  rintro _ ⟨⟩
  refine ⟨keepsPromises_of_phase member id id (alone_reader rfl), ?_⟩
  rintro _ ⟨⟩
  refine ⟨keepsPromises_of_phase member id id (alone_reader rfl), ?_⟩
  rintro _ ⟨⟩
  refine ⟨keepsPromises_of_phase member id id (alone_reader rfl), ?_⟩
  rintro _ ⟨⟩
  trivial

/-- The reader is notified of the change and reads the file again. -/
theorem cluster_refines_callbackPromises_reread :
    ∃ σ : Cluster,
      run ClusterEvent.step (byteRead ++ byteChanged ++ byteReread) sharedByte =
          some σ ∧
        Relation.ReflTransGen Step
          (sharedByte.promises {"reader", "writer"} "/srv/a")
          (σ.promises {"reader", "writer"} "/srv/a") :=
  ⟨_, rfl, cluster_refines_callbackPromises sharedByte_startsClosed
    (byteRead ++ byteChanged ++ byteReread) rfl keepsPromises_reread "/srv/a"⟩

/-- After the change the reader has the new file. -/
theorem copies_coherent_reread :
    ∃ σ : Cluster,
      run ClusterEvent.step (byteRead ++ byteChanged ++ byteReread) sharedByte =
          some σ ∧
        (σ.clients "reader").disk.read "/srv/a" = some [97, 98] := by
  refine ⟨_, rfl, (copies_coherent sharedByte_startsClosed
    (byteRead ++ byteChanged ++ byteReread) rfl keepsPromises_reread "reader"
    (.inl rfl) "/srv/a" ?_ rfl ⟨false, 1⟩ rfl rfl).1⟩
  rintro client (rfl | rfl) <;> rfl

end DistributedFilesystem
