import DistributedFilesystem.CopySections

/-!
# Cached copies and the server

For each file the clients and the server follow the protocol of callback
promises: a client that opens a file is registered and downloads it, one that
closes a modified file stores it and has the others notified, and the subscriber
thread drops what a notification is about.  So a copy that its client has cached
and not changed is the file of the server once no call is in progress and the
notifications have been processed.
-/

namespace DistributedFilesystem

open CallbackPromises TransitionRuns

namespace Cluster

/-- The promises about one file. -/
def promises (members : Set ClientId) (path : Path) (σ : Cluster) :
    State members (Option Bytes) where
  current := σ.server.disk.read path
  holding client := (σ.calls client path).holding path (σ.clients client)
  registered := {client | σ.server.fileMap.Registered path client}
  waiting := {client | σ.Waiting client path}
  changing := {client | (σ.calls client path).Notifies}

/-- What the subscriber thread leaves the client of the file when it processes
the notification. -/
def heldAfter (σ : Cluster) (client : ClientId) (note : Notification) :
    Holding (Option Bytes) :=
  (σ.calls client note.directory).holding note.directory
    ((σ.clients client).processNotification note)

end Cluster

/-- While calls are in these phases, the handler of one of them writes or removes
the file, and the other one works on it as well.  Neither locks it, so what they
read and store could be a mixture. -/
def CallPhase.Collides : CallPhase → CallPhase → Prop
  | .uploading _, .reading _ | .uploading _, .uploading _
  | .uploading _, .removing => True
  | .reading _, .uploading _ | .removing, .uploading _ => True
  | _, _ => False

/-- Members take part only, and no write fails with a part of its data in the
local file.

* An upload notifies the others only while its client watches the file or nobody
  is registered for it.
* A call changes the file at the server only while every other client that has
  uploaded it, and is about to notify the others, watches it.
* A download or an upload ends, and a file is removed, only while no other call
  collides with it.
* The subscriber thread takes the last notification about a file only while its
  client goes on with nothing of it, or is registered and goes on with what the
  server has. -/
def ClusterEvent.KeepsPromises (members : Set ClientId) :
    ClusterEvent → Cluster → Prop
  | .start client _ call answers, _ =>
      client ∈ members ∧
        ∀ data position, call = .writeFile data position → answers.write = none
  | .advance client path _, σ =>
      client ∈ members ∧
        (∀ timestamp, σ.calls client path = .received timestamp →
          σ.server.fileMap path = none ∨ σ.Watches client path) ∧
        ((σ.calls client path).Changes → ∀ other ∈ members, other ≠ client →
          ∀ timestamp, σ.calls other path = .received timestamp →
            σ.Watches other path) ∧
        ∀ other ∈ members, other ≠ client →
          ¬ (σ.calls client path).Collides (σ.calls other path)
  | .send client, _ => client ∈ members
  | .deliver client, σ =>
      client ∈ members ∧
        ∀ note notes, σ.inFlight client = note :: notes →
          Cluster.Waiting { σ with
              inFlight := Function.update σ.inFlight client notes }
              client note.directory ∨
            σ.heldAfter client note = .nothing ∨
            σ.server.fileMap.Registered note.directory client ∧
              ∀ value, σ.heldAfter client note = .copy value →
                value = σ.server.disk.read note.directory
  | .tick _, _ => True

namespace Cluster

/-- The members are subscribed, and what each call relies on holds. -/
structure Orderly (members : Set ClientId) (σ : Cluster) : Prop
    extends Subscribed members σ where
  ownsNodes : ∀ client ∈ members, (σ.clients client).OwnsNodes
  orderly : ∀ client ∈ members, ∀ path,
    (σ.calls client path).Orderly path (σ.clients client)

/-- The members are subscribed, have nothing cached or open, and make no
calls. -/
structure StartsClosed (members : Set ClientId) (σ : Cluster) : Prop
    extends Starts members σ where
  closed : ∀ client ∈ members, ∀ path, (σ.clients client).openedFiles path = none

section Steps

variable {members : Set ClientId} {σ : Cluster} {client : ClientId}
variable {path other : Path} {answers : LocalAnswers}
variable {result : Client × Server × CallPhase}

theorem orderly_of_startsClosed (starts : σ.StartsClosed members) :
    σ.Orderly members where
  toSubscribed := starts.toSubscribed
  ownsNodes client member path streams opened := by
    simp [starts.closed client member path] at opened
  orderly client member path := by
    rw [starts.idle client member path]
    exact ⟨covered_idle_of_uncached (starts.empty client member path),
      fun requests uploading => by cases uploading⟩

theorem promised_of_startsClosed (starts : σ.StartsClosed members)
    (path : Path) : (σ.promises members path).Promised := by
  apply promised_of_nothing
  rintro ⟨client, member⟩
  simp only [promises, starts.idle client member path]
  exact cleanCopy_of_uncached (starts.empty client member path)

/-! ## One section of a call -/

theorem orderly_afterSection (isOrderly : σ.Orderly members)
    (effect : SectionEffect path (σ.clients client) σ.server result)
    (same : Client.SameElsewhere path (σ.clients client) result.1)
    (owns : result.1.OwnsNodes) (own : result.2.2.Orderly path result.1) :
    (σ.afterSection client path result).Orderly members := by
  constructor
  · exact subscribed_afterSection isOrderly.toSubscribed effect
  · intro member isMember
    by_cases sameClient : member = client
    · subst sameClient
      simpa [afterSection] using owns
    · simpa [afterSection, sameClient] using isOrderly.ownsNodes member isMember
  · intro member isMember other
    have before := isOrderly.orderly member isMember other
    by_cases sameClient : member = client
    · subst sameClient
      by_cases samePath : other = path
      · subst samePath
        simpa [afterSection] using own
      · simp only [afterSection, Function.update_self,
          Function.update_of_ne samePath]
        exact orderly_congr (same.cache other samePath)
          (same.openedFiles other samePath) (same.read other samePath) before
    · simpa [afterSection, sameClient] using before

/-- The promises about the file of the section. -/
theorem promises_afterSection (member : client ∈ members) :
    (σ.afterSection client path result).promises members path =
      { current := result.2.1.disk.read path
        holding := Function.update (σ.promises members path).holding
          ⟨client, member⟩ (result.2.2.holding path result.1)
        registered := {other | result.2.1.fileMap.Registered path other}
        waiting := {other | Waiting { σ with server := result.2.1 } other path}
        changing := {other | if other = client then result.2.2.Notifies
          else (σ.calls other path).Notifies} } := by
  ext1
  case current => rfl
  case registered => rfl
  case waiting => rfl
  case holding =>
    funext ⟨other, isMember⟩
    by_cases sameClient : other = client
    · subst sameClient
      simp [promises, afterSection]
    · have apart : (⟨other, isMember⟩ : members) ≠ ⟨client, member⟩ :=
        fun same => sameClient (congrArg Subtype.val same)
      simp [promises, afterSection, sameClient, apart]
  case changing =>
    ext ⟨other, isMember⟩
    by_cases sameClient : other = client
    · subst sameClient
      simp [promises, afterSection]
    · simp [promises, afterSection, sameClient]

/-- A section that neither changes the server nor comes to or from a
notification changes what its client has. -/
theorem promises_of_quiet (member : client ∈ members)
    (server : result.2.1 = σ.server)
    (before : ¬ (σ.calls client path).Notifies) (after : ¬ result.2.2.Notifies) :
    (σ.afterSection client path result).promises members path =
      (σ.promises members path).hold ⟨client, member⟩
        (result.2.2.holding path result.1) := by
  rw [promises_afterSection member, server]
  ext1
  case current => rfl
  case holding => rfl
  case registered => rfl
  case waiting => rfl
  case changing =>
    ext ⟨other, isMember⟩
    by_cases sameClient : other = client
    · subst sameClient
      simp [promises, State.hold, before, after]
    · simp [promises, State.hold, sameClient]

theorem steps_of_quiet (member : client ∈ members)
    (server : result.2.1 = σ.server)
    (before : ¬ (σ.calls client path).Notifies) (after : ¬ result.2.2.Notifies)
    (keeps : result.2.2.holding path result.1 =
        (σ.calls client path).holding path (σ.clients client) ∨
      result.2.2.holding path result.1 = .nothing) :
    Relation.ReflTransGen Step (σ.promises members path)
      ((σ.afterSection client path result).promises members path) := by
  rw [promises_of_quiet member server before after]
  exact steps_hold keeps

/-- The promises about another file. -/
theorem promises_afterSection_ne (apart : other ≠ path)
    (same : Client.SameElsewhere path (σ.clients client) result.1)
    (read : result.2.1.disk.read other = σ.server.disk.read other)
    (fileMap : result.2.1.fileMap other = σ.server.fileMap other)
    (pending : ∀ member ∈ members, ∃ notes,
      result.2.1.pending member = σ.server.pending member ++ notes ∧
        ∀ note ∈ notes, note.directory = path) :
    (σ.afterSection client path result).promises members other =
      σ.promises members other := by
  ext1
  case current => exact read
  case holding =>
    funext ⟨member, isMember⟩
    by_cases sameClient : member = client
    · subst sameClient
      simp only [promises, afterSection, Function.update_self,
        Function.update_of_ne apart]
      exact holding_congr (same.cache other apart) (same.read other apart)
    · simp [promises, afterSection, sameClient]
  case registered =>
    ext ⟨member, isMember⟩
    simp [promises, afterSection, ClientMap.Registered, fileMap]
  case waiting =>
    ext ⟨member, isMember⟩
    obtain ⟨notes, appended, about⟩ := pending member isMember
    simp only [promises, Waiting, undelivered, afterSection, Set.mem_ofPred_eq,
      appended]
    constructor
    · rintro ⟨note, isNote, isAbout⟩
      refine ⟨note, ?_, isAbout⟩
      rw [← List.append_assoc] at isNote
      rcases List.mem_append.mp isNote with before | new
      · exact before
      · exact (apart (isAbout.symm.trans (about note new))).elim
    · rintro ⟨note, isNote, isAbout⟩
      refine ⟨note, ?_, isAbout⟩
      rw [← List.append_assoc]
      exact List.mem_append_left _ isNote
  case changing =>
    ext ⟨member, isMember⟩
    by_cases sameClient : member = client
    · subst sameClient
      simp [promises, afterSection, apart]
    · simp [promises, afterSection, sameClient]

/-! ## What the promises rely on -/

theorem orderly_of_start (isOrderly : σ.Orderly members)
    (member : client ∈ members) (call : FileCall)
    (idle : σ.calls client path = .idle) :
    (σ.afterSection client path
      ((call.begin answers path (σ.clients client)).1, σ.server,
        (call.begin answers path (σ.clients client)).2)).Orderly members := by
  have owned := isOrderly.ownsNodes client member
  have own := isOrderly.orderly client member path
  rw [idle] at own
  exact orderly_afterSection isOrderly ⟨sameEntries_begin call, .refl ..⟩
    (sameElsewhere_begin owned call) (ownsNodes_begin call owned)
    (orderly_begin call own)

theorem orderly_afterAdvance (isOrderly : σ.Orderly members)
    (member : client ∈ members)
    (advances : (σ.calls client path).advance answers path (σ.clients client)
      σ.server = some result) :
    (σ.afterSection client path result).Orderly members :=
  orderly_afterSection isOrderly (sectionEffect_of_advance advances)
    (sameElsewhere_of_advance advances)
    (ownsNodes_of_advance advances (isOrderly.ownsNodes client member))
    (orderly_of_advance advances (isOrderly.orderly client member path))

theorem orderly_of_deliver (isOrderly : σ.Orderly members) (note : Notification)
    (notes : List Notification) :
    Orderly members { σ with
      clients := Function.update σ.clients client
        ((σ.clients client).processNotification note)
      inFlight := Function.update σ.inFlight client notes } := by
  constructor
  · exact subscribed_of_deliver isOrderly.toSubscribed
  · intro member isMember
    dsimp only
    by_cases sameClient : member = client
    · subst sameClient
      rw [Function.update_self]
      intro path streams opened
      rw [Client.processNotification_openedFiles] at opened
      rw [Client.processNotification_disk]
      exact isOrderly.ownsNodes member isMember path streams opened
    · rw [Function.update_of_ne sameClient]
      exact isOrderly.ownsNodes member isMember
  · intro member isMember path
    have before := isOrderly.orderly member isMember path
    dsimp only
    by_cases sameClient : member = client
    · subst sameClient
      rw [Function.update_self]
      exact orderly_processNotification before
    · rw [Function.update_of_ne sameClient]
      exact before

end Steps

end Cluster

end DistributedFilesystem
