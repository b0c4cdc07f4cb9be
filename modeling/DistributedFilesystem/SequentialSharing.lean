import DistributedFilesystem.TurnsTaken

/-!
# Sequential sharing

Every event of clients that take turns keeps the invariant; so an open file is
a copy of what was stored last.
-/

namespace DistributedFilesystem

open TransitionRuns

section Steps

variable {members : Set ClientId} {initial : Path → Option Bytes}
variable {σ σ' : System} {client : ClientId} {path : Path} {now : Int}

/-- What `open_file` does when its client's turn has come. -/
inductive OpenResult (σ : System) (client : ClientId) (path : Path)
    (client' : Client) (server : Server) : Bool → Prop
  | opened (present : (σ.server.disk.read path).isSome)
      (read : client'.disk.read path = σ.server.disk.read path)
      (justOpened : Client.JustOpened path client') (info : FileInfo)
      (cached : client'.cache path = some info)
      (clean : info.locallyModified = false)
      (registered : server.fileMap.Registered path client) :
      OpenResult σ client path client' server true
  | missing (absent : σ.server.disk.read path = none)
      (notCached : client'.cache path = none)
      (closed : client'.openedFiles path = none)
      (noMutex : path ∉ client'.fileMutexes) :
      OpenResult σ client path client' server false

theorem openResult_of_allowed (turns : TurnsTaken members initial σ)
    (allowed : (SystemEvent.openFile client path now).Allowed members σ) :
    ∃ client' server opened,
      (σ.clients client).openFile .direct (.success now) path σ.server =
        ((client', server), opened) ∧
      Client.SameElsewhere path (σ.clients client) client' ∧
      Client.OnlyRegisters σ.server server ∧
      OpenResult σ client path client' server opened := by
  obtain ⟨isMember, allClosed, noNotes⟩ := allowed
  have sound := turns.sound client isMember path
  have closed := allClosed client isMember
  have isClient := clientId_of_turnsTaken turns isMember
  have registers := Client.onlyRegisters_openFile (.success now) path
    (σ.clients client) σ.server
  cases cached : (σ.clients client).cache path with
  | none =>
      cases stored : σ.server.disk.read path with
      | some contents =>
          obtain ⟨client', opens, copy⟩ :=
            Client.openUncached_of_read (σ.clients client) now stored
          obtain ⟨timestamp, entry⟩ := copy.cache
          simp only [Client.openFile, cached, opens] at registers ⊢
          refine ⟨_, _, _, rfl, copy.elsewhere, registers, ?_⟩
          refine .opened (by simp [stored]) (by rw [copy.read, stored])
            copy.justOpened _ entry rfl ?_
          rw [isClient]
          exact ClientMap.registered_insertClient_self
      | none =>
          obtain ⟨client', server, opens, noCopy⟩ :=
            Client.openUncached_of_missing (.success now) stored cached
          simp only [Client.openFile, cached, opens] at registers ⊢
          refine ⟨_, _, _, rfl, noCopy.elsewhere, registers, ?_⟩
          refine .missing stored noCopy.cache (by rw [noCopy.openedFiles, closed])
            ?_
          rw [noCopy.fileMutexes, sound.mutex, closed]
          simp
  | some info =>
      have clean : info.locallyModified = false := by
        cases modified : info.locallyModified with
        | false => rfl
        | true =>
            have isOpen := sound.modified info cached modified
            simp [closed] at isOpen
      have noUpdate : ¬ ∃ note ∈ σ.undelivered client, note.directory = path := by
        rintro ⟨note, member, about⟩
        exact noNotes note member about
      obtain ⟨read, present, registered⟩ : _ ∧ _ ∧ _ :=
        (sound.unmodified info cached clean).resolve_left noUpdate
      have hasNode : ((σ.clients client).disk.node path).isSome := by
        rw [← FileStore.read_isSome_iff, read]
        exact present
      obtain ⟨i, refers⟩ := Option.isSome_iff_exists.mp hasNode
      have opens : (σ.clients client).openCached (.success now) path =
          ((σ.clients client).insertOpened path ⟨.fresh i, .fresh i⟩, true) := by
        simp [Client.openCached, closed, Client.openStreams, refers,
          LocalAnswers.success]
      have copy := Client.cachedCopy_of_openCached opens
      simp only [Client.openFile, cached, opens] at registers ⊢
      refine ⟨_, _, _, rfl, copy.elsewhere, registers, ?_⟩
      have justOpened : Client.JustOpened path ((σ.clients client).insertOpened
          path ⟨.fresh i, .fresh i⟩) := by
        rcases copy.opened with ⟨-, isOpen⟩ | ⟨-, justOpened⟩
        · simp [closed] at isOpen
        · exact justOpened
      rw [isClient] at registered
      exact .opened present read justOpened info cached clean registered

theorem turnsTaken_of_openFile (turns : TurnsTaken members initial σ)
    (allowed : (SystemEvent.openFile client path now).Allowed members σ) :
    TurnsTaken members initial (σ.setClient client
      ((σ.clients client).openFile .direct (.success now) path σ.server).1) := by
  obtain ⟨client', server, opened, opens, elsewhere, registers, result⟩ :=
    openResult_of_allowed turns allowed
  obtain ⟨isMember, allClosed, noNotes⟩ := allowed
  have isClient := clientId_of_turnsTaken turns isMember
  rw [opens]
  have same : ∀ other, System.undelivered
      (σ.setClient client (client', server)) other = σ.undelivered other := by
    intro other
    simp [System.undelivered, System.setClient,
      Server.pending_congr registers.subscribers registers.queues]
  refine turnsTaken_of_touches turns isMember rfl rfl elsewhere
    (touches_of_onlyRegisters registers path) ?_ ?_ ?_ ?_ (fun _ _ => rfl)
  · rw [same]
    cases result with
    | opened present read justOpened info cached clean registered =>
        obtain ⟨i, refers, isOpen⟩ := justOpened.streams
        constructor
        · simp [justOpened.mutex, isOpen]
        · intro streams isStreams
          obtain rfl := Option.some.inj (isOpen.symm.trans isStreams)
          refine ⟨refers, by simp [cached], ?_, ?_, noNotes⟩
          · dsimp only [System.setClient]
            rw [registers.disk]
            exact present
          · rw [elsewhere.clientId, isClient]
            exact registered
        · intro info' cached' _
          right
          dsimp only [System.setClient]
          rw [registers.disk, elsewhere.clientId, isClient]
          exact ⟨read, present, registered⟩
        · simp [isOpen]
    | missing absent notCached closed noMutex =>
        exact .of_absent notCached closed noMutex
  · intro other member _
    rw [same]
    exact (turns.sound other member path).of_spared
      (by rw [System.setClient, registers.disk])
      (registers.registered path _) (fun _ member _ => member)
      (fun _ member _ => member)
  · intro _ other member _
    exact allClosed other member
  · dsimp only [System.setClient]
    rw [registers.disk]
    exact turns.stored path

theorem turnsTaken_of_setStreams (turns : TurnsTaken members initial σ)
    (isMember : client ∈ members) {change : FileStreams → FileStreams}
    (keeps : ∀ streams, (change streams).writeStream.node =
      streams.writeStream.node) :
    TurnsTaken members initial (σ.setClient client
      ((σ.clients client).setStreams path change, σ.server)) := by
  refine turnsTaken_of_local turns isMember
    (Client.sameElsewhere_setStreams change) ?_
    ((turns.sound client isMember path).of_setStreams keeps)
  intro isOpen
  simpa [Client.setStreams] using isOpen

theorem turnsTaken_of_same (turns : TurnsTaken members initial σ)
    (isMember : client ∈ members) (path : Path) :
    TurnsTaken members initial
      (σ.setClient client (σ.clients client, σ.server)) :=
  turnsTaken_of_local turns isMember (Client.SameElsewhere.refl path _) id
    (turns.sound client isMember path)

theorem turnsTaken_of_readFile (turns : TurnsTaken members initial σ)
    (isMember : client ∈ members) (size : Nat) (offset : Int) :
    TurnsTaken members initial (σ.setClient client
      (((σ.clients client).readFile path size offset).1, σ.server)) := by
  rcases Client.readFile_eq (σ.clients client) path size offset with eq | eq
  · rw [eq]
    exact turnsTaken_of_same turns isMember path
  · rw [eq]
    exact turnsTaken_of_setStreams turns isMember fun _ => rfl

theorem turnsTaken_of_writeFile (turns : TurnsTaken members initial σ)
    (isMember : client ∈ members) (data : Bytes) (position : Int) :
    TurnsTaken members initial (σ.setClient client
      (((σ.clients client).writeFile (.success now) path data position).1,
        σ.server)) := by
  obtain ⟨⟨client', wrote⟩, writes⟩ : ∃ result,
      (σ.clients client).writeFile (.success now) path data position = result :=
    ⟨_, rfl⟩
  rw [writes]
  cases wrote with
  | false =>
      rcases Client.writeFile_eq_false rfl writes with rfl | rfl
      · exact turnsTaken_of_same turns isMember path
      · exact turnsTaken_of_setStreams turns isMember fun _ => rfl
  | true =>
      have result := Client.writeResult_of_writeFile writes
      have sound := turns.sound client isMember path
      obtain ⟨streams, isOpen, disk⟩ := result.disk
      obtain ⟨timestamp, cache⟩ := result.cache
      obtain ⟨refers, cached, present, registered, noNotes⟩ :=
        sound.opened streams isOpen
      refine turnsTaken_of_local turns isMember
        (Client.sameElsewhere_of_writeResult result isOpen refers)
        (by rw [result.openedFiles]; exact id) ?_
      constructor
      · rw [result.fileMutexes, result.openedFiles]
        exact sound.mutex
      · intro streams' isOpen'
        rw [result.openedFiles] at isOpen'
        obtain rfl := Option.some.inj (isOpen.symm.trans isOpen')
        rw [disk, FileStore.node_writeAt, result.clientId]
        exact ⟨refers, by simp [cache], present, registered, noNotes⟩
      · intro info entry clean
        obtain rfl : ⟨true, timestamp⟩ = info := by simpa [cache] using entry
        simp at clean
      · intro _ _ _
        simp [result.openedFiles, isOpen]

theorem turnsTaken_of_uploads {uploads : List (Path × Bytes)}
    (turns : TurnsTaken members initial σ) (same : uploads = σ.uploads) :
    TurnsTaken members initial { σ with uploads := uploads } := by
  rwa [same]

/-- Without an upload, closing a file changes its client only. -/
theorem turnsTaken_of_closeFile_clean (turns : TurnsTaken members initial σ)
    (isMember : client ∈ members) {client' : Client} {info : FileInfo}
    (result : Client.CloseResult path (σ.clients client) client')
    (cached : (σ.clients client).cache path = some info)
    (clean : info.locallyModified = false) :
    TurnsTaken members initial (σ.setClient client (client', σ.server)) := by
  have sound := turns.sound client isMember path
  obtain ⟨info', cached', ⟨-, same⟩ | ⟨modified, -⟩⟩ := result.cache
  · refine turnsTaken_of_local turns isMember result.elsewhere
      (by simp [result.openedFiles]) ?_
    constructor
    · simp [result.fileMutexes, result.openedFiles]
    · simp [result.openedFiles]
    · rw [same, result.disk, result.elsewhere.clientId]
      exact sound.unmodified
    · intro other entry modified
      rw [same, cached] at entry
      obtain rfl := Option.some.inj entry
      simp [clean] at modified
  · obtain rfl := Option.some.inj (cached.symm.trans cached')
    simp [clean] at modified

/-- A notification that was announced to a registered client is on its way. -/
theorem mem_undelivered_of_announces (σ' : System) {s : Server}
    {other : ClientId}
    (announces : Server.Announces path client σ.server s)
    (subscribed : σ.server.Subscribed other) (apart : other ≠ client)
    (server : σ'.server = s) (inFlight : σ'.inFlight = σ.inFlight) :
    (∀ note ∈ σ.undelivered other, note ∈ σ'.undelivered other) ∧
      (σ.server.fileMap.Registered path other →
        ∃ note ∈ σ'.undelivered other, note.directory = path) := by
  obtain ⟨notes, pending, about, nonempty⟩ :=
    announces.pending other subscribed
  have undelivered : σ'.undelivered other = σ.undelivered other ++ notes := by
    simp [System.undelivered, server, inFlight, pending]
  rw [undelivered]
  constructor
  · exact fun note member => List.mem_append_left _ member
  · intro registered
    obtain ⟨note, member⟩ :=
      List.exists_mem_of_ne_nil notes (nonempty registered apart)
    exact ⟨note, List.mem_append_right _ member, about note member⟩

/-- With an upload, closing a file makes it what the server stores and is
announced to every other client that is registered for it. -/
theorem turnsTaken_of_closeFile_upload (turns : TurnsTaken members initial σ)
    (isMember : client ∈ members) {client' : Client} {s : Server}
    {contents : Bytes} {info : FileInfo}
    (result : Client.CloseResult path (σ.clients client) client')
    (cached : (σ.clients client).cache path = some info)
    (modified : info.locallyModified = true)
    (read : (σ.clients client).disk.read path = some contents)
    (stores : Server.Stores path contents (σ.clients client).clientId σ.server s) :
    TurnsTaken members initial
      { σ.setClient client (client', s) with
        uploads := (path, contents) :: σ.uploads } := by
  have sound := turns.sound client isMember path
  have isClient := clientId_of_turnsTaken turns isMember
  rw [isClient] at stores
  obtain ⟨streams, isOpen⟩ := Option.isSome_iff_exists.mp result.wasOpen
  obtain ⟨-, -, -, registered, -⟩ := sound.opened streams isOpen
  refine turnsTaken_of_touches turns isMember rfl rfl result.elsewhere
    (touches_of_stores stores) ?_ ?_ ?_ ?_ ?_
  · constructor
    · simp [result.fileMutexes, result.openedFiles]
    · simp [result.openedFiles]
    · intro _ _ _
      right
      dsimp only [System.setClient]
      rw [result.disk, read, stores.read, result.elsewhere.clientId]
      exact ⟨rfl, rfl, stores.registered path _ registered⟩
    · intro info' entry dirty
      obtain ⟨before, cached', ⟨clean, -⟩ | ⟨-, timestamp, after⟩⟩ := result.cache
      · obtain rfl := Option.some.inj (cached.symm.trans cached')
        simp [modified] at clean
      · obtain rfl := Option.some.inj (after.symm.trans entry)
        simp at dirty
  · intro other member apart
    have closed : (σ.clients other).openedFiles path = none := by
      cases otherOpen : (σ.clients other).openedFiles path with
      | none => rfl
      | some _ =>
          exact (apart (turns.exclusive path other member client isMember
            (by simp [otherOpen]) result.wasOpen)).elim
    obtain ⟨kept, announced⟩ := mem_undelivered_of_announces
      { σ.setClient client (client', s) with
        uploads := (path, contents) :: σ.uploads }
      stores.announces (turns.subscribed other member) apart rfl rfl
    refine (turns.sound other member path).of_announced closed kept ?_
    rw [turns.clientIds other member]
    exact announced
  · simp [result.openedFiles]
  · right
    simp [System.setClient, System.lastStored, stores.read]
  · intro other apart
    simp [System.lastStored, Ne.symm apart]

theorem turnsTaken_of_closeFile (turns : TurnsTaken members initial σ)
    (isMember : client ∈ members)
    (steps : SystemEvent.step (.closeFile client path now) σ = some σ') :
    TurnsTaken members initial σ' := by
  obtain ⟨⟨⟨client', server⟩, closed⟩, closes⟩ : ∃ result,
      (σ.clients client).closeFile .direct (.success now) path σ.server =
        result := ⟨_, rfl⟩
  simp only [SystemEvent.step, closes, Option.some.injEq] at steps
  subst steps
  cases closed with
  | true =>
      obtain ⟨result, info, cached, ⟨clean, rfl⟩ |
        ⟨modified, contents, read, stores⟩⟩ :=
        Client.closeFile_direct_eq_true closes
      · refine turnsTaken_of_uploads
          (turnsTaken_of_closeFile_clean turns isMember result cached clean) ?_
        obtain ⟨modified, timestamp⟩ := info
        obtain rfl : modified = false := clean
        simp [cached, System.setClient]
      · have stored := turnsTaken_of_closeFile_upload turns isMember result cached
          modified read stores
        obtain ⟨isModified, timestamp⟩ := info
        obtain rfl : isModified = true := modified
        simpa [cached, read] using stored
  | false =>
      obtain ⟨rfl, rfl | ⟨notCached, rfl⟩ | ⟨change, keeps, rfl⟩⟩ :=
        Client.closeFile_direct_eq_false closes
      · exact turnsTaken_of_uploads (turnsTaken_of_same turns isMember path) rfl
      · refine turnsTaken_of_uploads (turnsTaken_of_local turns isMember
          Client.sameElsewhere_eraseOpened (by simp [Client.eraseOpened]) ?_) rfl
        exact .of_absent notCached (by simp [Client.eraseOpened])
          (by simp [Client.eraseOpened])
      · exact turnsTaken_of_uploads
          (turnsTaken_of_setStreams turns isMember keeps) rfl

theorem turnsTaken_of_deleteFile (turns : TurnsTaken members initial σ)
    (allowed : (SystemEvent.deleteFile client path).Allowed members σ) :
    TurnsTaken members initial (σ.setClient client
      ((σ.clients client).deleteFile .direct path σ.server).1) := by
  obtain ⟨isMember, allClosed⟩ := allowed
  have isClient := clientId_of_turnsTaken turns isMember
  obtain ⟨client', returned, deletes, result⟩ :=
    Client.deleteFile_eq .direct path (σ.clients client) σ.server
  rw [deletes, isClient]
  have own : ∀ s undelivered, CopySound s undelivered path client' :=
    fun s undelivered =>
      .of_absent result.cache result.openedFiles result.fileMutexes
  cases node : σ.server.disk.node path with
  | none =>
      have same : (Remote.direct.unlinkCall σ.server path client).1 = σ.server := by
        simp [Remote.direct, Server.unlinkHandler, node]
      rw [same]
      exact turnsTaken_of_local turns isMember result.elsewhere
        (by simp [result.openedFiles]) (own _ _)
  | some i =>
      obtain ⟨s, unlinks, removes⟩ :=
        Server.removes_of_unlinkHandler client
          (show (σ.server.disk.node path).isSome by simp [node])
      have removed : (Remote.direct.unlinkCall σ.server path client).1 = s := by
        simp [Remote.direct, unlinks]
      rw [removed]
      refine turnsTaken_of_touches turns isMember rfl rfl result.elsewhere
        (touches_of_removes removes) (own _ _) ?_ (by simp [result.openedFiles])
        (.inl removes.read) (fun _ _ => rfl)
      intro other member apart
      obtain ⟨kept, announced⟩ := mem_undelivered_of_announces
        (σ.setClient client (client', s)) removes.announces
        (turns.subscribed other member) apart rfl rfl
      refine (turns.sound other member path).of_announced
        (allClosed other member apart) kept ?_
      rw [turns.clientIds other member]
      exact announced

theorem turnsTaken_of_send (turns : TurnsTaken members initial σ)
    (steps : SystemEvent.step (.send client) σ = some σ') :
    TurnsTaken members initial σ' := by
  obtain ⟨⟨note, s⟩, pops, rfl⟩ := Option.map_eq_some_iff.mp steps
  obtain ⟨disk, fileMap, subscribers, subscribed, oldest⟩ :=
    Server.popNotification_eq_some pops
  have same : ∀ other, System.undelivered { σ with
      server := s
      inFlight := Function.update σ.inFlight client
        (σ.inFlight client ++ [note]) } other = σ.undelivered other := by
    intro other
    by_cases self : other = client
    · subst self
      simp [System.undelivered, oldest]
    · have others := Server.pending_popNotification_ne pops turns.ownQueues self
      simp [System.undelivered, self, others]
  constructor
  · exact turns.clientIds
  · exact fun other member => (subscribed other).mpr (turns.subscribed other member)
  · intro first second q
    rw [subscribers]
    exact turns.ownQueues first second q
  · intro other member file
    rw [same]
    refine (turns.sound other member file).of_spared (by rw [disk])
      (by rw [fileMap]; exact id) (fun _ member _ => member)
      (fun _ member _ => member)
  · exact turns.exclusive
  · intro file
    rw [disk]
    exact turns.stored file

theorem turnsTaken_of_deliver (turns : TurnsTaken members initial σ)
    (isMember : client ∈ members)
    (steps : SystemEvent.step (.deliver client) σ = some σ') :
    TurnsTaken members initial σ' := by
  simp only [SystemEvent.step] at steps
  split at steps
  · simp at steps
  next note notes inFlight =>
  obtain rfl := Option.some.inj steps
  have processed : note ∈ σ.undelivered client := by
    simp [System.undelivered, inFlight]
  have elsewhere := Client.sameElsewhere_processNotification
    (σ.clients client) note
  have sound := turns.sound client isMember note.directory
  have closed : (σ.clients client).openedFiles note.directory = none := by
    cases isOpen : (σ.clients client).openedFiles note.directory with
    | none => rfl
    | some streams =>
        obtain ⟨-, -, -, -, noNotes⟩ := sound.opened streams isOpen
        exact (noNotes note processed rfl).elim
  have own : ∀ s undelivered, CopySound s undelivered note.directory
      ((σ.clients client).processNotification note) := by
    intro s undelivered
    refine .of_absent (Client.cache_processNotification_of_closed closed)
      (by simp [closed]) ?_
    rw [Client.processNotification_fileMutexes, sound.mutex, closed]
    simp
  constructor
  · intro other member
    by_cases self : other = client
    · subst self
      simp [System.setClient, elsewhere.clientId, turns.clientIds other member]
    · simp [System.setClient, self, turns.clientIds other member]
  · exact turns.subscribed
  · exact turns.ownQueues
  · intro other member file
    by_cases self : other = client
    · subst self
      simp only [System.setClient, Function.update_self, System.undelivered]
      by_cases about : file = note.directory
      · exact about ▸ own _ _
      · refine ((turns.sound other member file).of_sameElsewhere elsewhere
          about).of_spared rfl id ?_ ?_
        · intro older member isFile
          simp only [System.undelivered, inFlight, List.cons_append,
            List.mem_cons] at member
          rcases member with rfl | member
          · exact (about isFile.symm).elim
          · exact member
        · intro older member _
          simp only [System.undelivered, inFlight, List.cons_append,
            List.mem_cons]
          exact .inr member
    · simp only [System.setClient, System.undelivered, Function.update_of_ne self]
      exact turns.sound other member file
  · intro file first isFirst second isSecond firstOpen secondOpen
    have same : ∀ other, (Function.update σ.clients client
        ((σ.clients client).processNotification note) other).openedFiles =
          (σ.clients other).openedFiles := by
      intro other
      by_cases self : other = client
      · subst self
        simp
      · simp [self]
    simp only [System.setClient, same] at firstOpen secondOpen
    exact turns.exclusive file first isFirst second isSecond firstOpen secondOpen
  · exact turns.stored

/-- Every allowed event keeps the invariant. -/
theorem turnsTaken_of_step {event : SystemEvent}
    (allowed : event.Allowed members σ) (turns : TurnsTaken members initial σ)
    (steps : event.step σ = some σ') : TurnsTaken members initial σ' := by
  cases event with
  | openFile client path now =>
      obtain rfl := Option.some.inj steps
      exact turnsTaken_of_openFile turns allowed
  | readFile client path size offset =>
      obtain rfl := Option.some.inj steps
      exact turnsTaken_of_readFile turns allowed size offset
  | writeFile client path data position now =>
      obtain rfl := Option.some.inj steps
      exact turnsTaken_of_writeFile turns allowed data position
  | closeFile client path now => exact turnsTaken_of_closeFile turns allowed steps
  | deleteFile client path =>
      obtain rfl := Option.some.inj steps
      exact turnsTaken_of_deleteFile turns allowed
  | send client => exact turnsTaken_of_send turns steps
  | deliver client => exact turnsTaken_of_deliver turns allowed steps
  | tick now =>
      obtain rfl := Option.some.inj steps
      exact ⟨turns.clientIds, turns.subscribed, turns.ownQueues,
        fun client member path => (turns.sound client member path).of_spared rfl
          id (fun _ member _ => member) (fun _ member _ => member),
        turns.exclusive, turns.stored⟩

/-- In every run in which the clients take turns, an `open_file` whose turn has
come returns true exactly when the file is on the server, and then the opened
copy is what the last upload of the file stored, or the initial contents if
there was none. -/
theorem openFile_exposes_lastStored (members : Set ClientId) {σ σ' : System}
    (starts : σ.Starts members) (events : List SystemEvent)
    (reaches : run SystemEvent.step events σ = some σ')
    (allowed : Along SystemEvent.step (SystemEvent.Allowed members) events σ)
    (client : ClientId) (path : Path) (now : Int)
    (mayOpen : (SystemEvent.openFile client path now).Allowed members σ') :
    ∃ client' server opened,
      (σ'.clients client).openFile .direct (.success now) path σ'.server =
        ((client', server), opened) ∧
      (opened = true ↔ (σ'.server.disk.read path).isSome) ∧
      (opened = true → ∃ i contents,
        client'.openedFiles path = some ⟨.fresh i, .fresh i⟩ ∧
        client'.disk.node path = some i ∧
        (client'.disk.nodes i).contents = contents ∧
        some contents =
          System.lastStored σ.server.disk.read σ'.uploads path) := by
  have turns : TurnsTaken members σ.server.disk.read σ' :=
    invariant_of_run (fun _ _ _ allowed turns steps =>
      turnsTaken_of_step allowed turns steps)
      reaches allowed (turnsTaken_of_starts starts)
  obtain ⟨client', server, opened, opens, -, -, result⟩ :=
    openResult_of_allowed turns mayOpen
  refine ⟨client', server, opened, opens, ?_, ?_⟩
  · cases result with
    | opened present => simp [present]
    | missing absent => simp [absent]
  · intro returned
    subst returned
    obtain ⟨present, read, justOpened, -, -, -, -⟩ := result
    obtain ⟨i, refers, isOpen⟩ := justOpened.streams
    refine ⟨i, _, isOpen, refers, rfl, ?_⟩
    have local' : client'.disk.read path =
        some (client'.disk.nodes i).contents := by
      simp [FileStore.read, refers]
    rw [← local', read]
    rcases turns.stored path with absent | stored
    · simp [absent] at present
    · exact stored

end Steps

/-- A server with one empty file, two subscribed clients, and nothing else. -/
private def twoClients : System where
  server :=
    { Server.launch "/srv" (FileStore.empty.create "/srv/a" 0) 0 with
      subscribers client :=
        if client = "reader" then some 0
        else if client = "writer" then some 1 else none
      queues q := if q < 2 then some ⟨[], false⟩ else none }
  clients := Client.launch
  inFlight _ := []
  uploads := []

private theorem twoClients_starts :
    twoClients.Starts {"reader", "writer"} where
  clientIds _ _ := rfl
  subscribed := by
    rintro client (rfl | rfl)
    · exact ⟨0, ⟨[], false⟩, rfl, rfl⟩
    · exact ⟨1, ⟨[], false⟩, rfl, rfl⟩
  ownQueues client other q isFirst isSecond := by
    simp only [twoClients] at isFirst isSecond
    split_ifs at isFirst isSecond <;> simp_all <;> cases isFirst <;>
      cases isSecond
  empty _ _ _ := ⟨rfl, rfl, by simp [twoClients, Client.launch]⟩
  noUploads := rfl

/-- The reader opens the file after the writer has written one byte. -/
theorem openFile_exposes_lastStored_written :
    ∃ (opened : Client) (i : Nat),
      opened.disk.node "/srv/a" = some i ∧
      (opened.disk.nodes i).contents = [97] := by
  have exposes := openFile_exposes_lastStored {"reader", "writer"}
    twoClients_starts
    [.openFile "writer" "/srv/a" 0, .writeFile "writer" "/srv/a" [97] 0 0,
      .closeFile "writer" "/srv/a" 0]
    rfl
    (by
      refine ⟨⟨by simp, ?_, by simp [System.undelivered, twoClients,
        Server.pending]⟩, ?_⟩
      · rintro other (rfl | rfl) <;> rfl
      rintro _ ⟨⟩
      refine ⟨by simp [SystemEvent.Allowed], ?_⟩
      rintro _ ⟨⟩
      refine ⟨by simp [SystemEvent.Allowed], ?_⟩
      rintro _ ⟨⟩
      trivial)
    "reader" "/srv/a" 0
    (by
      refine ⟨by simp, ?_, ?_⟩
      · rintro other (rfl | rfl) <;> rfl
      · intro note member
        cases (show note ∈ ([] : List Notification) from member))
  obtain ⟨opened, server, returned, opens, present, contents⟩ := exposes
  obtain ⟨i, _, -, refers, rfl, last⟩ := contents (present.mpr rfl)
  exact ⟨opened, i, refers, Option.some.inj last⟩

end DistributedFilesystem
