import DistributedFilesystem.ClientEffects
import DistributedFilesystem.InterleavedCalls
import DistributedFilesystem.ServerAnnouncements

/-!
# Watching a file

The server notifies a client of changes of a file only while the client is in
its `file_map`.  A client enters it when it opens a file, and when it uploads a
file that nobody is registered for; an `unlink` erases the whole entry.

A client watches a file when it is registered for it or a notification about it
is on its way.  A section of a call takes nobody's watch but its own client's.
-/

namespace DistributedFilesystem

namespace Cluster

/-- A notification about the file is on its way to the client. -/
def Waiting (σ : Cluster) (client : ClientId) (path : Path) : Prop :=
  ∃ note ∈ σ.undelivered client, note.directory = path

/-- The client is registered for the file, or a notification about it is on its
way to the client. -/
def Watches (σ : Cluster) (client : ClientId) (path : Path) : Prop :=
  σ.server.fileMap.Registered path client ∨ σ.Waiting client path

end Cluster

/-- In this phase the client goes on with a copy of the file that a
notification does not take out of the cache, and that it will not upload: a
download that is not yet in the cache, or an open file without changes. -/
def CallPhase.KeepsCopy (path : Path) (client : Client) : CallPhase → Prop
  | .reading _ => True
  | .answered _ _ status => status.isOk
  | .idle => (client.openedFiles path).isSome ∧
      ∃ info, client.cache path = some info ∧ info.locallyModified = false
  | .entered | .hit | .uploaded _ =>
      (client.openedFiles path).isSome ∧ (client.cache path).isSome
  | _ => False

/-- Members take part only.  An upload notifies the others only while its
client watches the file or nobody is registered for it, and the subscriber
thread takes a notification about a copy that the client keeps only if the
client goes on watching the file. -/
def ClusterEvent.Harmless (members : Set ClientId) :
    ClusterEvent → Cluster → Prop
  | .start client _ _ _, _ | .send client, _ => client ∈ members
  | .advance client path _, σ =>
      client ∈ members ∧
        ∀ timestamp, σ.calls client path = .received timestamp →
          σ.server.fileMap path = none ∨ σ.Watches client path
  | .deliver client, σ =>
      client ∈ members ∧
        ∀ note notes, σ.inFlight client = note :: notes →
          (σ.calls client note.directory).KeepsCopy note.directory
            (σ.clients client) →
          Cluster.Watches { σ with
            inFlight := Function.update σ.inFlight client notes }
            client note.directory
  | .tick _, _ => True

/-! ## What a section does to the other calls -/

/-- The client's entries for all other paths are the same. -/
structure SameEntries (path : Path) (client client' : Client) : Prop where
  clientId : client'.clientId = client.clientId
  cache : ∀ other, other ≠ path → client'.cache other = client.cache other
  openedFiles : ∀ other, other ≠ path →
    client'.openedFiles other = client.openedFiles other

/-- Of the clients that are registered for a file, all keep watching it but the
originator, if the file is the one of the call. -/
structure KeepsWatch (path : Path) (originator : ClientId) (s s' : Server) :
    Prop where
  subscribers : s'.subscribers = s.subscribers
  subscribed : ∀ client, s'.Subscribed client ↔ s.Subscribed client
  pending : ∀ client, s.Subscribed client → ∃ notes,
    s'.pending client = s.pending client ++ notes
  registered : ∀ other client, s.Subscribed client →
    (client = originator → other ≠ path) →
    s.fileMap.Registered other client →
    s'.fileMap.Registered other client ∨
      ∃ note ∈ s'.pending client, note.directory = other

section Sections

variable {path : Path} {client client' : Client} {s s' : Server}
variable {answers : LocalAnswers}

theorem sameEntries_of_sameElsewhere
    (same : Client.SameElsewhere path client client') :
    SameEntries path client client' :=
  ⟨same.clientId, same.cache, same.openedFiles⟩

theorem SameEntries.refl (path : Path) (client : Client) :
    SameEntries path client client :=
  ⟨rfl, fun _ _ => rfl, fun _ _ => rfl⟩

/-- A change of the server that spares subscriptions, queues and
registrations. -/
theorem keepsWatch_of_registered {originator : ClientId}
    (subscribers : s'.subscribers = s.subscribers) (queues : s'.queues = s.queues)
    (registered : ∀ other client, s.fileMap.Registered other client →
      s'.fileMap.Registered other client) : KeepsWatch path originator s s' where
  subscribers := subscribers
  subscribed := Server.subscribed_congr subscribers queues
  pending client _ :=
    ⟨[], by rw [Server.pending_congr subscribers queues, List.append_nil]⟩
  registered other client _ _ isRegistered :=
    .inl (registered other client isRegistered)

theorem KeepsWatch.refl (path : Path) (originator : ClientId) (s : Server) :
    KeepsWatch path originator s s :=
  keepsWatch_of_registered rfl rfl fun _ _ => id

theorem keepsWatch_registerOpen (s : Server) (path : Path)
    (originator : ClientId) :
    KeepsWatch path originator s (s.registerOpen path originator) :=
  keepsWatch_of_registered rfl rfl fun _ _ registered =>
    ClientMap.registered_insertClient.mpr (.inl registered)

theorem keepsWatch_of_announces {originator : ClientId}
    (announces : s.Announces path originator s')
    (registered : ∀ other client, other ≠ path →
      s.fileMap.Registered other client → s'.fileMap.Registered other client) :
    KeepsWatch path originator s s' where
  subscribers := announces.subscribers
  subscribed := announces.subscribed
  pending client subscribed := by
    obtain ⟨notes, pending, -⟩ := announces.pending client subscribed
    exact ⟨notes, pending⟩
  registered other client subscribed different isRegistered := by
    by_cases isPath : other = path
    · subst isPath
      obtain ⟨notes, pending, about, announced⟩ :=
        announces.pending client subscribed
      obtain ⟨note, member⟩ := List.exists_mem_of_ne_nil notes
        (announced isRegistered fun isOriginator => different isOriginator rfl)
      exact .inr ⟨note, by simp [pending, member], about note member⟩
    · exact .inl (registered other client isPath isRegistered)

/-- The section changes the entries of its own file only, and takes nobody
else's watch. -/
structure SectionEffect (path : Path) (client : Client) (s : Server)
    (result : Client × Server × CallPhase) : Prop where
  entries : SameEntries path client result.1
  watch : KeepsWatch path client.clientId s result.2.1

theorem sameElsewhere_finishOpen {forget : Client → Client}
    (forgets : Client.SameElsewhere path client (forget client)) :
    Client.SameElsewhere path client (finishOpen answers path forget client) := by
  unfold finishOpen
  split
  · exact Client.sameElsewhere_insertOpened _
  · exact forgets

theorem sameElsewhere_storeAnswer {left : Nat} {responses : List FileResponse}
    {status : Status} :
    Client.SameElsewhere path client
      (storeAnswer answers path client left responses status).1 := by
  have effect := Client.storeResult answers path left responses status client
  unfold storeAnswer
  split
  · next result => rw [result] at effect; exact effect.elsewhere
  · next result =>
      rw [result] at effect
      split
      · exact effect.elsewhere
      · split
        · exact effect.elsewhere
        · exact effect.elsewhere.trans (Client.sameElsewhere_remove ..)

/-- A section after the first changes the entries and the local copy of its own
file only. -/
theorem sameElsewhere_of_advance {phase : CallPhase}
    {result : Client × Server × CallPhase}
    (advances : phase.advance answers path client s = some result) :
    Client.SameElsewhere path client result.1 := by
  cases phase with
  | idle => simp [CallPhase.advance] at advances
  | answered left responses status =>
      obtain rfl := Option.some.inj advances
      exact sameElsewhere_storeAnswer
  | entered =>
      obtain rfl := Option.some.inj advances
      apply sameElsewhere_finishOpen
      exact Client.sameElsewhere_eraseCache
  | hit =>
      obtain rfl := Option.some.inj advances
      exact sameElsewhere_finishOpen (.refl ..)
  | created =>
      obtain rfl := Option.some.inj advances
      exact Client.sameElsewhere_finishCreate
  | uploaded timestamp =>
      obtain rfl := Option.some.inj advances
      exact Client.sameElsewhere_finishUpload timestamp
  | removing =>
      simp only [CallPhase.advance] at advances
      split at advances <;>
      · obtain rfl := Option.some.inj advances
        exact .refl ..
  | deleted status =>
      obtain rfl := Option.some.inj advances
      dsimp only
      split
      · exact Client.sameElsewhere_remove ..
      · exact .refl ..
  | opening _ | reading _ | uploading _ | received _ | removed =>
      obtain rfl := Option.some.inj advances
      exact .refl ..

theorem keepsWatch_of_advance {phase : CallPhase}
    {result : Client × Server × CallPhase}
    (advances : phase.advance answers path client s = some result) :
    KeepsWatch path client.clientId s result.2.1 := by
  cases phase with
  | idle => simp [CallPhase.advance] at advances
  | opening left =>
      obtain rfl := Option.some.inj advances
      exact keepsWatch_registerOpen ..
  | uploading requests =>
      obtain rfl := Option.some.inj advances
      exact keepsWatch_of_registered rfl rfl fun _ _ => id
  | received timestamp =>
      obtain rfl := Option.some.inj advances
      apply keepsWatch_of_announces (Server.announces_finishClose ..)
      exact fun _ _ _ registered => Server.registered_finishClose _ _ _ registered
  | removing =>
      simp only [CallPhase.advance] at advances
      split at advances
      · obtain rfl := Option.some.inj advances
        exact .refl ..
      · obtain rfl := Option.some.inj advances
        exact keepsWatch_of_registered rfl rfl fun _ _ => id
  | removed =>
      obtain rfl := Option.some.inj advances
      have announces := s.announces_fileChangeCallbackUnlink client.clientId
        (Server.deleteNotification path) rfl
      apply keepsWatch_of_announces announces
      intro other member apart registered
      rw [Server.fileMap_fileChangeCallbackUnlink]
      obtain ⟨clients, entry, isMember⟩ := registered
      exact ⟨clients, by rwa [Function.update_of_ne apart], isMember⟩
  | _ =>
      obtain rfl := Option.some.inj advances
      exact .refl ..

theorem sectionEffect_of_advance {phase : CallPhase}
    {result : Client × Server × CallPhase}
    (advances : phase.advance answers path client s = some result) :
    SectionEffect path client s result where
  entries := sameEntries_of_sameElsewhere (sameElsewhere_of_advance advances)
  watch := keepsWatch_of_advance advances

/-- Writing changes the entries of the file only, and marks what it changes. -/
theorem writeFile_entries (client : Client) (answers : LocalAnswers)
    (path : Path) (data : Bytes) (position : Int) :
    SameEntries path client (client.writeFile answers path data position).1 ∧
      (((client.writeFile answers path data position).1.openedFiles path).isSome ↔
        (client.openedFiles path).isSome) ∧
      ((client.writeFile answers path data position).1.cache path =
          client.cache path ∨
        (client.openedFiles path).isSome ∧ ∃ timestamp,
          (client.writeFile answers path data position).1.cache path =
            some ⟨true, timestamp⟩) := by
  unfold Client.writeFile
  dsimp only
  split
  · exact ⟨.refl .., Iff.rfl, .inl rfl⟩
  next readStream stream usable =>
  obtain ⟨cached, opened, -⟩ := Client.usableStreams_eq_some.mp usable
  split
  · refine ⟨sameEntries_of_sameElsewhere (Client.sameElsewhere_setStreams _),
      ?_, .inl rfl⟩
    simp [Client.setStreams]
  split
  · refine ⟨⟨rfl, fun _ _ => rfl, fun other apart => ?_⟩, ?_, .inl rfl⟩
    · simp [Client.setStreams, apart]
    · simp [Client.setStreams]
  · refine ⟨⟨rfl, fun other apart => ?_, fun _ _ => rfl⟩, Iff.rfl,
      .inr ⟨by simp [opened], ?_⟩⟩
    · simp [Client.syncWrite, Client.updateAttr, Client.markModified,
        Client.enterCache, apart]
    · simp [Client.syncWrite, Client.updateAttr, Client.markModified,
        Client.enterCache]

theorem sameElsewhere_beginClose :
    Client.SameElsewhere path client (beginClose answers path client).1 := by
  unfold beginClose
  split
  · exact .refl ..
  next streams _ =>
  split
  · exact .refl ..
  split
  · exact Client.sameElsewhere_eraseOpened
  split
  · obtain ⟨change, -, flushed⟩ :=
      Client.beginUpload_client answers path client streams
    split <;>
    · next begins =>
        rw [begins] at flushed
        dsimp only at flushed ⊢
        rw [flushed]
        exact Client.sameElsewhere_setStreams change
  · exact Client.sameElsewhere_eraseOpened

theorem sameEntries_begin (call : FileCall) :
    SameEntries path client (call.begin answers path client).1 := by
  cases call with
  | openFile =>
      unfold FileCall.begin
      dsimp only
      split <;> exact .refl ..
  | createFile =>
      unfold FileCall.begin
      dsimp only
      split
      · next created begins =>
          unfold Client.beginCreate at begins
          split_ifs at begins
          obtain rfl := Option.some.inj begins
          exact ⟨rfl, fun other apart => by simp [Client.enterCache, apart],
            fun _ _ => rfl⟩
      · exact .refl ..
  | writeFile data position => exact (writeFile_entries client answers path data position).1
  | closeFile => exact sameEntries_of_sameElsewhere sameElsewhere_beginClose
  | deleteFile =>
      exact sameEntries_of_sameElsewhere
        (Client.deleteResult_beginDelete path client).elsewhere

end Sections

end DistributedFilesystem
