import DistributedFilesystem.AttributeCoherence

/-!
# Runs with attributes

The attributes that the members of a cluster have cached, at the end of careful
runs and of a run with a `get_attributes` of a file that is then written.
-/

namespace DistributedFilesystem

open TransitionRuns

/-- In every run of careful steps: when no call is in progress and the
notifications of a member have been processed, what it has in `cached_attr` for a
file that it does not have open is on the server. -/
theorem cachedAttr_coherent {members : Set ClientId} {σ₀ σ : AttrCluster}
    (starts : σ₀.Starts members) (events : List AttrEvent)
    (reaches : run AttrEvent.step events σ₀ = some σ)
    (careful : Along AttrEvent.step (AttrEvent.Careful members) events σ₀)
    (client : ClientId) (member : client ∈ members) (path : Path)
    (quiet : ∀ other, σ.calls other path = .idle)
    (drained : σ.undelivered client = [])
    (closed : (σ.clients client).openedFiles path = none) (attr : FileAttributes)
    (entered : (σ.clients client).cachedAttr path = some attr) :
    σ.server.Shows path attr.size attr.mtime := by
  have coherent : σ.Coherent members :=
    invariant_of_run (fun _ _ _ => coherent_of_step) reaches careful
      (AttrCluster.coherent_of_starts starts)
  have holds : (σ.clients client).Holds path attr.size attr.mtime := by
    refine ⟨?_, attr, entered, rfl, rfl⟩
    rintro ⟨isOpen, -⟩
    simp [closed] at isOpen
  rcases coherent.upToDate client member path _ _ (.inl holds) with
    shows | ⟨note, waiting, -⟩ | ⟨-, other, -, notifies⟩
  · exact shows
  · simp [drained] at waiting
  · rw [quiet other] at notifies
    exact notifies.elim

/-! ## Events and the calls that they are not of -/

/-- No file is open at two clients. -/
def AttrCluster.OpenOnce (σ : AttrCluster) : Prop :=
  ∀ path first second, ((σ.clients first).openedFiles path).isSome →
    ((σ.clients second).openedFiles path).isSome → first = second

/-- The event is a section of the client's call for the file. -/
def AttrEvent.Of (client : ClientId) (path : Path) : AttrEvent → Prop
  | .file (.start other otherPath _ _) | .file (.advance other otherPath _)
  | .overwrite other otherPath _ | .endMixed other otherPath
  | .sendMixed other otherPath _ => other = client ∧ otherPath = path
  | _ => False

/-- The client makes no call for the file and does not have it open. -/
def AttrCluster.Away (client : ClientId) (path : Path) (σ : AttrCluster) : Prop :=
  σ.calls client path = .idle ∧ (σ.clients client).openedFiles path = none

section Away

variable {σ : AttrCluster} {client other : ClientId} {path otherPath : Path}

theorem away_afterSection {result : Client × Server × CallPhase}
    (entries : SameEntries path (σ.clients client) result.1)
    (apart : ¬ (client = other ∧ path = otherPath))
    (away : σ.Away other otherPath) :
    (σ.withCluster (σ.afterSection client path result)).Away other otherPath := by
  simp only [AttrCluster.Away, AttrCluster.withCluster, Cluster.afterSection]
  by_cases sameClient : other = client
  · subst sameClient
    have different : otherPath ≠ path := fun same => apart ⟨rfl, same.symm⟩
    rw [Function.update_self, Function.update_self, Function.update_of_ne different,
      entries.openedFiles otherPath different]
    exact away
  · rw [Function.update_of_ne sameClient, Function.update_of_ne sameClient]
    exact away

theorem away_of_step {event : AttrEvent} {τ : AttrCluster}
    (apart : ¬ event.Of other otherPath) (away : σ.Away other otherPath)
    (steps : event.step σ = some τ) : τ.Away other otherPath := by
  cases event with
  | file event =>
      obtain ⟨cluster, clusterSteps, rfl⟩ := Option.map_eq_some_iff.mp steps
      cases event with
      | start client path call answers =>
          simp only [ClusterEvent.step] at clusterSteps
          split at clusterSteps
          · obtain rfl := Option.some.inj clusterSteps
            exact away_afterSection (sameEntries_begin call) apart away
          · simp at clusterSteps
      | advance client path answers =>
          obtain ⟨result, advances, rfl⟩ := Option.map_eq_some_iff.mp clusterSteps
          exact away_afterSection (sectionEffect_of_advance advances).entries apart
            away
      | send client =>
          obtain ⟨-, -, rfl⟩ := Option.map_eq_some_iff.mp clusterSteps
          exact away
      | deliver client =>
          simp only [ClusterEvent.step] at clusterSteps
          split at clusterSteps
          · simp at clusterSteps
          · obtain rfl := Option.some.inj clusterSteps
            refine ⟨away.1, ?_⟩
            simp only [AttrCluster.withCluster]
            by_cases sameClient : other = client
            · subst sameClient
              rw [Function.update_self, Client.processNotification_openedFiles]
              exact away.2
            · rw [Function.update_of_ne sameClient]
              exact away.2
      | tick now =>
          obtain rfl := Option.some.inj clusterSteps
          exact away
  | lookUp thread client path =>
      simp only [AttrEvent.step] at steps
      split at steps
      · split at steps <;>
        · obtain rfl := Option.some.inj steps
          exact away
      · simp at steps
  | stat thread | answer thread =>
      simp only [AttrEvent.step] at steps
      split at steps
      · obtain rfl := Option.some.inj steps
        exact away
      · simp at steps
  | finish thread =>
      simp only [AttrEvent.step] at steps
      split at steps
      · next client path attr _ =>
          obtain rfl := Option.some.inj steps
          obtain ⟨_, eq, -⟩ :=
            AttrCluster.clients_enterAttr σ client path attr other
          refine ⟨away.1, ?_⟩
          rw [AttrCluster.setLookup, eq]
          exact away.2
      · simp at steps
  | overwrite client path stored | endMixed client path
  | sendMixed client path responses =>
      simp only [AttrEvent.step] at steps
      split at steps
      · obtain rfl := Option.some.inj steps
        exact away_afterSection (.refl ..) apart away
      · simp at steps

end Away

/-- A server with a file of one byte, and its two clients. -/
private def oneByteServer : AttrCluster where
  server :=
    { Server.launch "/srv" (FileStore.empty.replace "/srv/a" [[97]] 0) 1 with
      subscribers client :=
        if client = "reader" then some 0
        else if client = "writer" then some 1 else none
      queues q := if q < 2 then some ⟨[], false⟩ else none }
  clients := Client.launch
  inFlight _ := []
  calls _ _ := .idle
  lookups _ := .idle

private theorem oneByteServer_starts :
    oneByteServer.Starts {"reader", "writer"} where
  clientIds _ _ := rfl
  subscribed := by
    rintro client (rfl | rfl)
    · exact ⟨0, ⟨[], false⟩, rfl, rfl⟩
    · exact ⟨1, ⟨[], false⟩, rfl, rfl⟩
  ownQueues client other q isFirst isSecond := by
    simp only [oneByteServer] at isFirst isSecond
    split_ifs at isFirst isSecond <;> simp_all <;> cases isFirst <;>
      cases isSecond
  idle _ _ _ := rfl
  empty _ _ _ := rfl
  noAttributes _ _ _ := rfl
  closed _ _ _ := rfl
  noLookups _ := rfl

/-- The writer appends a byte. -/
private def byteAppended : List AttrEvent :=
  let answers := LocalAnswers.success 2
  .file (.start "writer" "/srv/a" .openFile answers) ::
    List.replicate 4 (.file (.advance "writer" "/srv/a" answers)) ++
    .file (.start "writer" "/srv/a" (.writeFile [98] 1) answers) ::
    .file (.start "writer" "/srv/a" .closeFile answers) ::
    List.replicate 3 (.file (.advance "writer" "/srv/a" answers))

/-- The reader asks for the attributes. -/
private def lookedAt : List AttrEvent :=
  [.lookUp 0 "reader" "/srv/a", .stat 0, .answer 0, .finish 0]

private theorem writer_of_event {event : AttrEvent}
    (member : event ∈ byteAppended ∨ event ∈ lookedAt) {client : ClientId}
    {path : Path} (isOf : event.Of client path) :
    client = "writer" ∧ path = "/srv/a" := by
  rcases member with member | member
  · simp only [byteAppended, List.mem_append, List.mem_cons, List.mem_replicate]
      at member
    rcases member with (rfl | ⟨-, rfl⟩) | rfl | rfl | ⟨-, rfl⟩ <;>
    · exact ⟨isOf.1.symm, isOf.2.symm⟩
  · simp only [lookedAt, List.mem_cons, List.not_mem_nil, or_false] at member
    rcases member with rfl | rfl | rfl | rfl <;>
    · exact isOf.elim

/-- Nobody else makes a call, and the writer makes calls for one file. -/
private def OthersAway (σ : AttrCluster) : Prop :=
  ∀ client path, ¬ (client = "writer" ∧ path = "/srv/a") → σ.Away client path

private theorem othersAway_of_step {event : AttrEvent} {σ τ : AttrCluster}
    (chosen : event ∈ byteAppended ∨ event ∈ lookedAt) (away : OthersAway σ)
    (steps : event.step σ = some τ) : OthersAway τ := by
  intro client path apart
  apply away_of_step _ (away client path apart) steps
  exact fun isOf => apart (writer_of_event chosen isOf)

private theorem openOnce_of_othersAway {σ : AttrCluster} (away : OthersAway σ) :
    σ.OpenOnce := by
  have onlyWriter (client : ClientId) (path : Path)
      (isOpen : ((σ.clients client).openedFiles path).isSome) :
      client = "writer" := by
    by_contra other
    have closed := (away client path fun own => other own.1).2
    simp [closed] at isOpen
  intro path first second firstOpen secondOpen
  rw [onlyWriter first path firstOpen, onlyWriter second path secondOpen]

private theorem quiet_of_othersAway {σ : AttrCluster} (away : OthersAway σ)
    (own : σ.calls "writer" "/srv/a" = .idle) (client : ClientId) (path : Path) :
    σ.calls client path = .idle := by
  by_cases isOwn : client = "writer" ∧ path = "/srv/a"
  · obtain ⟨rfl, rfl⟩ := isOwn
    exact own
  · exact (away client path isOwn).1

private theorem othersAway_of_run {events : List AttrEvent} {σ : AttrCluster}
    (chosen : ∀ event ∈ events, event ∈ byteAppended ∨ event ∈ lookedAt)
    (reaches : run AttrEvent.step events oneByteServer = some σ) :
    OthersAway σ ∧
      Throughout AttrEvent.step AttrCluster.OpenOnce events oneByteServer := by
  have along : Along AttrEvent.step
      (fun event _ => event ∈ byteAppended ∨ event ∈ lookedAt) events
      oneByteServer :=
    along_of_forall (fun event member _ => chosen event member) _
  have initially : OthersAway oneByteServer := fun _ _ _ => ⟨rfl, rfl⟩
  constructor
  · exact invariant_of_run (fun _ _ _ => othersAway_of_step) reaches along
      initially
  · have always := throughout_of_along (fun _ _ _ => othersAway_of_step) along
      initially
    exact always.imp fun _ => openOnce_of_othersAway

private theorem careful_of_phase {σ : AttrCluster} {members : Set ClientId}
    {client : ClientId} {path : Path} {answers : LocalAnswers}
    (member : client ∈ members) (spares : ¬ (σ.calls client path).Changes)
    (keeps : σ.calls client path ≠ .removed)
    (carries : ∀ left status, σ.calls client path ≠ .answered left [] status) :
    (AttrEvent.file (.advance client path answers)).Careful members σ :=
  ⟨member, fun changes => (spares changes).elim, fun erases => (keeps erases).elim,
    fun left status empty => (carries left status empty).elim⟩

/-- The file is changed first, and the attributes are those of the new file. -/
theorem cachedAttr_coherent_looked_at_later :
    ∃ σ : AttrCluster,
      run AttrEvent.step (byteAppended ++ lookedAt) oneByteServer = some σ ∧
        σ.server.Shows "/srv/a" 2 1 := by
  have chosen : ∀ event ∈ byteAppended ++ lookedAt,
      event ∈ byteAppended ∨ event ∈ lookedAt :=
    fun event => List.mem_append.mp
  refine ⟨_, rfl, cachedAttr_coherent oneByteServer_starts
    (byteAppended ++ lookedAt) rfl ?_ "reader" (.inl rfl) "/srv/a" ?_ rfl rfl
    ⟨2, 1, 1, 1⟩ rfl⟩
  · refine ⟨⟨.inr rfl, by simp⟩, ?_⟩
    rintro _ ⟨⟩
    refine ⟨careful_of_phase (.inr rfl) id (by rintro ⟨⟩) (by rintro _ _ ⟨⟩), ?_⟩
    rintro _ ⟨⟩
    refine ⟨careful_of_phase (.inr rfl) id (by rintro ⟨⟩) (by rintro _ _ ⟨⟩), ?_⟩
    rintro _ ⟨⟩
    refine ⟨careful_of_phase (.inr rfl) id (by rintro ⟨⟩) (by rintro _ _ ⟨⟩), ?_⟩
    rintro _ ⟨⟩
    refine ⟨careful_of_phase (.inr rfl) id (by rintro ⟨⟩) (by rintro _ _ ⟨⟩), ?_⟩
    rintro _ ⟨⟩
    refine ⟨⟨.inr rfl, by simp⟩, ?_⟩
    rintro _ ⟨⟩
    refine ⟨⟨.inr rfl, by simp⟩, ?_⟩
    rintro _ ⟨⟩
    refine ⟨⟨.inr rfl, fun _ => ?_, by rintro ⟨⟩, by rintro _ _ ⟨⟩⟩, ?_⟩
    · -- Nobody has asked for the attributes yet.
      rintro client (rfl | rfl) size mtime
        (⟨-, _, ⟨⟩, -⟩ | expects | ⟨thread, _, ⟨⟨⟩⟩ | ⟨⟨⟩⟩, -⟩) <;>
        exact expects.elim
    rintro _ ⟨⟩
    refine ⟨careful_of_phase (.inr rfl) id (by rintro ⟨⟩) (by rintro _ _ ⟨⟩), ?_⟩
    rintro _ ⟨⟩
    refine ⟨careful_of_phase (.inr rfl) id (by rintro ⟨⟩) (by rintro _ _ ⟨⟩), ?_⟩
    rintro _ ⟨⟩
    exact ⟨.inl rfl, fun _ _ => ⟨trivial, fun _ _ => ⟨trivial, fun _ _ =>
      ⟨trivial, fun _ _ => trivial⟩⟩⟩⟩
  · intro other
    exact quiet_of_othersAway (othersAway_of_run chosen rfl).1 rfl other "/srv/a"

/-- The file is changed later, without a notification for the reader, whose
attributes are those of the old file from then on. -/
theorem cachedAttr_incoherent :
    ∃ σ : AttrCluster, oneByteServer.Starts {"reader", "writer"} ∧
      run AttrEvent.step (lookedAt ++ byteAppended) oneByteServer = some σ ∧
      Throughout AttrEvent.step AttrCluster.OpenOnce (lookedAt ++ byteAppended)
        oneByteServer ∧
      (∀ client path, σ.calls client path = .idle) ∧
      σ.undelivered "reader" = [] ∧ σ.undelivered "writer" = [] ∧
      (∀ client, (σ.clients client).openedFiles "/srv/a" = none) ∧
      ∃ attr, (σ.clients "reader").cachedAttr "/srv/a" = some attr ∧
        ¬ σ.server.Shows "/srv/a" attr.size attr.mtime := by
  have chosen : ∀ event ∈ lookedAt ++ byteAppended,
      event ∈ byteAppended ∨ event ∈ lookedAt :=
    fun event member => (List.mem_append.mp member).symm
  have away := othersAway_of_run chosen rfl
  refine ⟨_, oneByteServer_starts, rfl, away.2, ?_, rfl, rfl, ?_, ⟨1, 0, 0, 0⟩,
    rfl, ?_⟩
  · exact quiet_of_othersAway away.1 rfl
  · intro client
    by_cases isWriter : client = "writer"
    · subst isWriter
      rfl
    · exact (away.1 client "/srv/a" fun own => isWriter own.1).2
  · rintro ⟨contents, read, size, -⟩
    obtain rfl : [97, 98] = contents := Option.some.inj read
    simp at size

end DistributedFilesystem
