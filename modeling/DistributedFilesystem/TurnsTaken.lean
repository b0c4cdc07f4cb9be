import DistributedFilesystem.SharedSystem

/-!
# The invariant of sequential sharing

The invariant ties the two sides together: a copy that is not modified is what
the server stores and its owner is registered for it, or a notification for it
is on its way.  A call about one path keeps it when it does so for that path.
-/

namespace DistributedFilesystem

open TransitionRuns

/-- The invariant of sequential sharing. -/
structure TurnsTaken (members : Set ClientId) (initial : Path → Option Bytes)
    (σ : System) : Prop where
  clientIds : ∀ client ∈ members, (σ.clients client).clientId = client
  subscribed : ∀ client ∈ members, σ.server.Subscribed client
  ownQueues : σ.server.OwnQueues
  sound : ∀ client ∈ members, ∀ path,
    CopySound σ.server (σ.undelivered client) path (σ.clients client)
  exclusive : ∀ path, ∀ client ∈ members, ∀ other ∈ members,
    ((σ.clients client).openedFiles path).isSome →
    ((σ.clients other).openedFiles path).isSome → client = other
  stored : ∀ path, σ.server.disk.read path = none ∨
    σ.server.disk.read path = System.lastStored initial σ.uploads path

/-- All clients of the set are subscribed and none has a cached file. -/
structure System.Starts (members : Set ClientId) (σ : System) : Prop where
  clientIds : ∀ client ∈ members, (σ.clients client).clientId = client
  subscribed : ∀ client ∈ members, σ.server.Subscribed client
  ownQueues : σ.server.OwnQueues
  empty : ∀ client ∈ members, ∀ path,
    (σ.clients client).cache path = none ∧
      (σ.clients client).openedFiles path = none ∧
      path ∉ (σ.clients client).fileMutexes
  noUploads : σ.uploads = []

theorem turnsTaken_of_starts {members : Set ClientId} {σ : System}
    (starts : σ.Starts members) :
    TurnsTaken members σ.server.disk.read σ where
  clientIds := starts.clientIds
  subscribed := starts.subscribed
  ownQueues := starts.ownQueues
  sound client member path := by
    obtain ⟨notCached, closed, noMutex⟩ := starts.empty client member path
    exact .of_absent notCached closed noMutex
  exclusive path client member other _ isOpen := by
    obtain ⟨-, closed, -⟩ := starts.empty client member path
    simp [closed] at isOpen
  stored path := by
    right
    simp [System.lastStored, starts.noUploads]

/-! ## One event -/

/-- A change of the server that concerns one path only. -/
structure Touches (path : Path) (s s' : Server) : Prop where
  subscribers : s'.subscribers = s.subscribers
  subscribed : ∀ client, s'.Subscribed client ↔ s.Subscribed client
  pending : ∀ client, s.Subscribed client → ∃ notes,
    s'.pending client = s.pending client ++ notes ∧
      ∀ note ∈ notes, note.directory = path
  read_ne : ∀ other, other ≠ path → s'.disk.read other = s.disk.read other
  registered_ne : ∀ other, other ≠ path → ∀ client,
    s.fileMap.Registered other client → s'.fileMap.Registered other client

section Touches

variable {s s' : Server} {path : Path} {originator : ClientId}

theorem touches_of_onlyRegisters (registers : Client.OnlyRegisters s s')
    (path : Path) : Touches path s s' where
  subscribers := registers.subscribers
  subscribed := Server.subscribed_congr registers.subscribers registers.queues
  pending client _ :=
    ⟨[], by simp [Server.pending_congr registers.subscribers registers.queues],
      by simp⟩
  read_ne other _ := by rw [registers.disk]
  registered_ne other _ := registers.registered other

theorem touches_refl (path : Path) (s : Server) : Touches path s s :=
  touches_of_onlyRegisters ⟨rfl, rfl, rfl, fun _ _ registered => registered⟩ path

theorem touches_of_announces (announces : Server.Announces path originator s s')
    (read_ne : ∀ other, other ≠ path → s'.disk.read other = s.disk.read other)
    (registered_ne : ∀ other, other ≠ path → ∀ client,
      s.fileMap.Registered other client → s'.fileMap.Registered other client) :
    Touches path s s' where
  subscribers := announces.subscribers
  subscribed := announces.subscribed
  pending client subscribed := by
    obtain ⟨notes, eq, about, -⟩ := announces.pending client subscribed
    exact ⟨notes, eq, about⟩
  read_ne := read_ne
  registered_ne := registered_ne

theorem touches_of_stores {contents : Bytes}
    (stores : Server.Stores path contents originator s s') : Touches path s s' :=
  touches_of_announces stores.announces stores.read_ne
    fun other _ client => stores.registered other client

theorem touches_of_removes (removes : Server.Removes path originator s s') :
    Touches path s s' :=
  touches_of_announces removes.announces removes.read_ne
    fun other apart _ ⟨clients, entry, member⟩ =>
      ⟨clients, (removes.fileMap_ne other apart).trans entry, member⟩

end Touches

section Steps

variable {members : Set ClientId} {initial : Path → Option Bytes}
variable {σ σ' : System} {client : ClientId} {path : Path} {now : Int}

/-- A call of one client about one path keeps the invariant when it does so for
that path. -/
theorem turnsTaken_of_touches (turns : TurnsTaken members initial σ)
    {client' : Client} (isMember : client ∈ members)
    (clients : σ'.clients = Function.update σ.clients client client')
    (inFlight : σ'.inFlight = σ.inFlight)
    (elsewhere : Client.SameElsewhere path (σ.clients client) client')
    (touches : Touches path σ.server σ'.server)
    (own : CopySound σ'.server (σ'.undelivered client) path client')
    (others : ∀ other ∈ members, other ≠ client →
      CopySound σ'.server (σ'.undelivered other) path (σ.clients other))
    (exclusive : (client'.openedFiles path).isSome → ∀ other ∈ members,
      other ≠ client → (σ.clients other).openedFiles path = none)
    (stored : σ'.server.disk.read path = none ∨
      σ'.server.disk.read path = System.lastStored initial σ'.uploads path)
    (stored_ne : ∀ other, other ≠ path →
      System.lastStored initial σ'.uploads other =
        System.lastStored initial σ.uploads other) :
    TurnsTaken members initial σ' := by
  have self : σ'.clients client = client' := by simp [clients]
  have same : ∀ other, other ≠ client → σ'.clients other = σ.clients other :=
    fun other apart => by simp [clients, apart]
  have spared : ∀ other ∈ members, ∀ file, file ≠ path →
      ∀ {held : Client}, held.clientId = other →
        CopySound σ.server (σ.undelivered other) file held →
        CopySound σ'.server (σ'.undelivered other) file held := by
    intro other member file apart held isOther sound
    obtain ⟨notes, pending, about⟩ :=
      touches.pending other (turns.subscribed other member)
    have undelivered : σ'.undelivered other = σ.undelivered other ++ notes := by
      simp [System.undelivered, inFlight, pending]
    refine sound.of_spared (touches.read_ne file apart)
      (touches.registered_ne file apart _) ?_ ?_
    · intro note member _
      simp [undelivered, member]
    · intro note member isFile
      rw [undelivered] at member
      rcases List.mem_append.mp member with before | new
      · exact before
      · exact (apart (isFile.symm.trans (about note new))).elim
  constructor
  · intro other member
    by_cases isSelf : other = client
    · rw [isSelf, self, elsewhere.clientId, turns.clientIds client isMember]
    · rw [same other isSelf, turns.clientIds other member]
  · intro other member
    exact (touches.subscribed other).mpr (turns.subscribed other member)
  · intro first second q
    rw [touches.subscribers]
    exact turns.ownQueues first second q
  · intro other member file
    by_cases isSelf : other = client
    · subst isSelf
      rw [self]
      by_cases isPath : file = path
      · exact isPath ▸ own
      · exact spared other member file isPath
          (elsewhere.clientId.trans (turns.clientIds other member))
          ((turns.sound other member file).of_sameElsewhere elsewhere isPath)
    · rw [same other isSelf]
      by_cases isPath : file = path
      · exact isPath ▸ others other member isSelf
      · exact spared other member file isPath (turns.clientIds other member)
          (turns.sound other member file)
  · intro file first isFirst second isSecond firstOpen secondOpen
    have opened : ∀ other, file ≠ path →
        (σ'.clients other).openedFiles file =
          (σ.clients other).openedFiles file := by
      intro other apart
      by_cases isSelf : other = client
      · rw [isSelf, self, elsewhere.openedFiles file apart]
      · rw [same other isSelf]
    by_cases isPath : file = path
    · subst isPath
      by_cases firstSelf : first = client <;> by_cases secondSelf : second = client
      · rw [firstSelf, secondSelf]
      · rw [firstSelf, self] at firstOpen
        rw [same second secondSelf] at secondOpen
        simp [exclusive firstOpen second isSecond secondSelf] at secondOpen
      · rw [secondSelf, self] at secondOpen
        rw [same first firstSelf] at firstOpen
        simp [exclusive secondOpen first isFirst firstSelf] at firstOpen
      · rw [same first firstSelf] at firstOpen
        rw [same second secondSelf] at secondOpen
        exact turns.exclusive file first isFirst second isSecond firstOpen
          secondOpen
    · rw [opened first isPath] at firstOpen
      rw [opened second isPath] at secondOpen
      exact turns.exclusive file first isFirst second isSecond firstOpen secondOpen
  · intro file
    by_cases isPath : file = path
    · exact isPath ▸ stored
    · rw [touches.read_ne file isPath, stored_ne file isPath]
      exact turns.stored file

/-- The case of a call that concerns the client only. -/
theorem turnsTaken_of_local (turns : TurnsTaken members initial σ)
    {client' : Client} (isMember : client ∈ members)
    (elsewhere : Client.SameElsewhere path (σ.clients client) client')
    (opened : (client'.openedFiles path).isSome →
      ((σ.clients client).openedFiles path).isSome)
    (own : CopySound σ.server (σ.undelivered client) path client') :
    TurnsTaken members initial (σ.setClient client (client', σ.server)) := by
  refine turnsTaken_of_touches turns isMember rfl rfl elsewhere
    (touches_refl path σ.server) own
    (fun other member _ => turns.sound other member path) ?_ (turns.stored path)
    (fun _ _ => rfl)
  intro isOpen other member apart
  cases otherOpen : (σ.clients other).openedFiles path with
  | none => rfl
  | some streams =>
      exact (apart (turns.exclusive path other member client isMember
        (by simp [otherOpen]) (opened isOpen))).elim

theorem clientId_of_turnsTaken (turns : TurnsTaken members initial σ)
    (isMember : client ∈ members) : (σ.clients client).clientId = client :=
  turns.clientIds client isMember

end Steps

end DistributedFilesystem
