import DistributedFilesystem.CacheWatching

/-!
# Sections and the other files of their client

A section of a call changes the entries and the local copy of its own file only.
For `write_file` this rests on an invariant: a stream goes on writing the file
that it was opened on, whatever is at its path now, and no other path refers to
that file.
-/

namespace DistributedFilesystem

/-- No other path refers to the file that a stream writes. -/
def Client.OwnsNodes (client : Client) : Prop :=
  ∀ path streams, client.openedFiles path = some streams →
    streams.writeStream.node < client.disk.unused ∧
      ∀ other, other ≠ path →
        client.disk.node other ≠ some streams.writeStream.node

/-- The local files are where they were or under new nodes, and streams write
where they did or into the file at their path. -/
structure Client.KeepsNodes (client client' : Client) : Prop where
  unused : client.disk.unused ≤ client'.disk.unused
  node : ∀ path i, client'.disk.node path = some i →
    client.disk.node path = some i ∨ client.disk.unused ≤ i
  streams : ∀ path streams, client'.openedFiles path = some streams →
    (∃ before, client.openedFiles path = some before ∧
      streams.writeStream.node = before.writeStream.node) ∨
    client'.disk.node path = some streams.writeStream.node

namespace Client

section Nodes

variable {client client' : Client} {path : Path} {answers : LocalAnswers}

theorem ownsNodes_of_keepsNodes (keeps : KeepsNodes client client')
    (owns : client.OwnsNodes) : client'.OwnsNodes := by
  intro path streams opened
  rcases keeps.streams path streams opened with ⟨before, wasOpen, same⟩ | refers
  · obtain ⟨isUsed, apart⟩ := owns path before wasOpen
    rw [same]
    constructor
    · exact Nat.lt_of_lt_of_le isUsed keeps.unused
    · intro other different refers
      rcases keeps.node other _ refers with old | isNew
      · exact apart other different old
      · omega
  · constructor
    · exact client'.disk.node_lt refers
    · intro other different refersOther
      exact different (client'.disk.node_injective refersOther refers)

/-- A change that spares the local disk and, but for a closed file, the
streams. -/
theorem keepsNodes_of_disk (disk : client'.disk = client.disk)
    (openedFiles : ∀ path streams, client'.openedFiles path = some streams →
      client.openedFiles path = some streams) : KeepsNodes client client' where
  unused := by rw [disk]
  node path i refers := by
    rw [disk] at refers
    exact .inl refers
  streams path streams opened :=
    .inl ⟨streams, openedFiles path streams opened, rfl⟩

theorem KeepsNodes.refl (client : Client) : KeepsNodes client client :=
  keepsNodes_of_disk rfl fun _ _ => id

theorem keepsNodes_eraseOpened (client : Client) (path : Path) :
    KeepsNodes client (client.eraseOpened path) := by
  have disk : (client.eraseOpened path).disk = client.disk := rfl
  apply keepsNodes_of_disk disk
  intro other streams opened
  by_cases same : other = path
  · subst same
    simp [eraseOpened] at opened
  · simpa [eraseOpened, same] using opened

theorem keepsNodes_setStreams {change : FileStreams → FileStreams}
    (keeps : ∀ streams, (change streams).writeStream.node =
      streams.writeStream.node) (client : Client) (path : Path) :
    KeepsNodes client (client.setStreams path change) where
  unused := Nat.le_refl _
  node _ _ := .inl
  streams other streams opened := by
    left
    by_cases same : other = path
    · subst same
      simp only [setStreams, Function.update_self] at opened
      obtain ⟨before, wasOpen, rfl⟩ := Option.map_eq_some_iff.mp opened
      exact ⟨before, wasOpen, keeps before⟩
    · have wasOpen : client.openedFiles other = some streams := by
        simpa [setStreams, same] using opened
      exact ⟨streams, wasOpen, rfl⟩

theorem keepsNodes_insertOpened {streams : FileStreams}
    (opens : client.openStreams answers path = some streams) :
    KeepsNodes client (client.insertOpened path streams) where
  unused := Nat.le_refl _
  node _ _ := .inl
  streams other streams' opened := by
    obtain ⟨i, refers, isOpened⟩ := (justOpened_insertOpened opens).streams
    by_cases same : other = path
    · subst same
      obtain rfl := Option.some.inj (isOpened.symm.trans opened)
      exact .inr refers
    · left
      have wasOpen : client.openedFiles other = some streams' := by
        simpa [insertOpened, same] using opened
      exact ⟨streams', wasOpen, rfl⟩

/-- A change of the local disk, under the same streams. -/
theorem keepsNodes_of_streams
    (openedFiles : client'.openedFiles = client.openedFiles)
    (unused : client.disk.unused ≤ client'.disk.unused)
    (node : ∀ path i, client'.disk.node path = some i →
      client.disk.node path = some i ∨ client.disk.unused ≤ i) :
    KeepsNodes client client' where
  unused := unused
  node := node
  streams path streams opened := by
    rw [openedFiles] at opened
    exact .inl ⟨streams, opened, rfl⟩

theorem keepsNodes_replace (openedFiles : client'.openedFiles = client.openedFiles)
    {blocks : List Bytes} {now : Int}
    (disk : client'.disk = client.disk.replace path blocks now) :
    KeepsNodes client client' := by
  apply keepsNodes_of_streams openedFiles
  · rw [disk]
    exact FileStore.unused_le_replace ..
  · intro other i refers
    rw [disk] at refers
    exact FileStore.node_replace_or refers

theorem keepsNodes_remove (openedFiles : client'.openedFiles = client.openedFiles)
    (disk : client'.disk = client.disk.remove path) :
    KeepsNodes client client' := by
  apply keepsNodes_of_streams openedFiles
  · rw [disk]
    exact Nat.le_refl _
  · intro other i refers
    rw [disk] at refers
    by_cases same : other = path
    · simp [same, FileStore.remove] at refers
    · rw [FileStore.node_remove_ne same] at refers
      exact .inl refers

end Nodes

end Client

section Sections

variable {client : Client} {path : Path} {answers : LocalAnswers}

theorem keepsNodes_finishOpen {forget : Client → Client}
    (forgets : client.KeepsNodes (forget client)) :
    client.KeepsNodes (finishOpen answers path forget client) := by
  unfold finishOpen
  split
  · next streams opens => exact Client.keepsNodes_insertOpened opens
  · exact forgets

theorem keepsNodes_storeDownload (left : Nat) (responses : List FileResponse)
    (status : Status) :
    client.KeepsNodes
      (client.storeDownload answers path left responses status).1 := by
  unfold Client.storeDownload
  dsimp only
  split
  · exact .refl _
  split
  · apply Client.keepsNodes_replace <;> rfl
  · split
    · apply Client.keepsNodes_replace <;> rfl
    · apply Client.keepsNodes_replace <;> rfl

theorem ownsNodes_storeAnswer (owns : client.OwnsNodes) (left : Nat)
    (responses : List FileResponse) (status : Status) :
    (storeAnswer answers path client left responses status).1.OwnsNodes := by
  have stored :
      (client.storeDownload answers path left responses status).1.OwnsNodes :=
    Client.ownsNodes_of_keepsNodes (keepsNodes_storeDownload ..) owns
  unfold storeAnswer
  split
  · next result =>
      rw [result] at stored
      exact stored
  · next result =>
      rw [result] at stored
      split
      · exact stored
      · split
        · exact stored
        · apply Client.ownsNodes_of_keepsNodes _ stored
          apply Client.keepsNodes_remove <;> rfl

theorem keepsNodes_finishCreate :
    client.KeepsNodes (client.finishCreate answers path).1 := by
  unfold Client.finishCreate
  split
  · exact Client.keepsNodes_of_disk rfl fun _ _ => id
  · next streams opens =>
      have opened := Client.keepsNodes_insertOpened opens
      dsimp only
      split
      · exact ⟨opened.unused, opened.node, opened.streams⟩
      · exact opened

theorem keepsNodes_finishUpload (timestamp : Int) :
    client.KeepsNodes (client.finishUpload path timestamp) := by
  have erased := Client.keepsNodes_eraseOpened client path
  exact ⟨erased.unused, erased.node, erased.streams⟩

/-- The sections after the first. -/
theorem ownsNodes_of_advance {s : Server} {phase : CallPhase}
    {result : Client × Server × CallPhase}
    (advances : phase.advance answers path client s = some result)
    (owns : client.OwnsNodes) : result.1.OwnsNodes := by
  cases phase with
  | idle => simp [CallPhase.advance] at advances
  | answered left responses status =>
      obtain rfl := Option.some.inj advances
      exact ownsNodes_storeAnswer owns left responses status
  | entered =>
      obtain rfl := Option.some.inj advances
      apply Client.ownsNodes_of_keepsNodes _ owns
      apply keepsNodes_finishOpen
      exact Client.keepsNodes_of_disk rfl fun _ _ => id
  | hit =>
      obtain rfl := Option.some.inj advances
      exact Client.ownsNodes_of_keepsNodes (keepsNodes_finishOpen (.refl _)) owns
  | created =>
      obtain rfl := Option.some.inj advances
      exact Client.ownsNodes_of_keepsNodes keepsNodes_finishCreate owns
  | uploaded timestamp =>
      obtain rfl := Option.some.inj advances
      exact Client.ownsNodes_of_keepsNodes (keepsNodes_finishUpload timestamp)
        owns
  | removing =>
      simp only [CallPhase.advance] at advances
      split at advances <;>
      · obtain rfl := Option.some.inj advances
        exact owns
  | deleted status =>
      obtain rfl := Option.some.inj advances
      dsimp only
      split
      · apply Client.ownsNodes_of_keepsNodes _ owns
        apply Client.keepsNodes_remove <;> rfl
      · exact owns
  | opening _ | reading _ | uploading _ | received _ | removed =>
      obtain rfl := Option.some.inj advances
      exact owns

theorem keepsNodes_writeAt (client : Client) (i position : Nat) (data : Bytes)
    (now : Int) :
    client.KeepsNodes { client with
      disk := client.disk.writeAt i position data now } := by
  apply Client.keepsNodes_of_streams
  · rfl
  · dsimp only
    rw [FileStore.unused_writeAt]
  · intro other j refers
    dsimp only at refers
    rw [FileStore.node_writeAt] at refers
    exact .inl refers

theorem ownsNodes_writeFile (owns : client.OwnsNodes) (data : Bytes)
    (position : Int) :
    (client.writeFile answers path data position).1.OwnsNodes := by
  unfold Client.writeFile
  dsimp only
  split
  · exact owns
  next readStream stream _ =>
  split
  · apply Client.ownsNodes_of_keepsNodes _ owns
    apply Client.keepsNodes_setStreams
    exact fun _ => rfl
  have stored (node : Nat) (data : Bytes) := Client.ownsNodes_of_keepsNodes
    (keepsNodes_writeAt client node position.toNat data answers.now) owns
  split
  · next amount _ =>
      have owned := stored stream.node (data.take amount)
      apply Client.ownsNodes_of_keepsNodes _ owned
      apply Client.keepsNodes_setStreams
      exact fun _ => rfl
  · exact stored stream.node data

theorem ownsNodes_beginClose (owns : client.OwnsNodes) :
    (beginClose answers path client).1.OwnsNodes := by
  have erased := Client.ownsNodes_of_keepsNodes
    (Client.keepsNodes_eraseOpened client path) owns
  unfold beginClose
  split
  · exact owns
  next streams _ =>
  split
  · exact owns
  split
  · exact erased
  split
  · obtain ⟨change, keeps, flushed⟩ :=
      Client.beginUpload_client answers path client streams
    have stillOwns : (client.beginUpload answers path streams).1.OwnsNodes := by
      rw [flushed]
      exact Client.ownsNodes_of_keepsNodes
        (Client.keepsNodes_setStreams keeps ..) owns
    split <;>
    · next begins =>
        rw [begins] at stillOwns
        exact stillOwns
  · exact erased

/-- The first section. -/
theorem ownsNodes_begin (call : FileCall) (owns : client.OwnsNodes) :
    (call.begin answers path client).1.OwnsNodes := by
  cases call with
  | openFile =>
      unfold FileCall.begin
      dsimp only
      split <;> exact owns
  | createFile =>
      unfold FileCall.begin
      dsimp only
      split
      · next created begins =>
          unfold Client.beginCreate at begins
          split_ifs at begins
          obtain rfl := Option.some.inj begins
          apply Client.ownsNodes_of_keepsNodes _ owns
          apply Client.keepsNodes_of_streams
          · rfl
          · exact FileStore.unused_le_openTruncated ..
          · exact fun other i => FileStore.node_openTruncated_or
      · exact owns
  | writeFile data position => exact ownsNodes_writeFile owns data position
  | closeFile => exact ownsNodes_beginClose owns
  | deleteFile =>
      have erased := Client.keepsNodes_eraseOpened client path
      apply Client.ownsNodes_of_keepsNodes _ owns
      exact ⟨erased.unused, erased.node, erased.streams⟩

/-! ## The other files -/

theorem sameElsewhere_writeFile (owns : client.OwnsNodes) (data : Bytes)
    (position : Int) :
    Client.SameElsewhere path client
      (client.writeFile answers path data position).1 := by
  unfold Client.writeFile
  dsimp only
  split
  · exact .refl ..
  next readStream stream usable =>
  obtain ⟨-, opened, -⟩ := Client.usableStreams_eq_some.mp usable
  have apart := (owns path _ opened).2
  have stored (data : Bytes) : Client.SameElsewhere path client { client with
      disk := client.disk.writeAt stream.node position.toNat data answers.now } :=
    Client.sameElsewhere_disk (fun _ _ => by rw [FileStore.node_writeAt])
      fun other different =>
        FileStore.read_writeAt_of_node_ne _ _ (apart other different)
  split
  · exact Client.sameElsewhere_setStreams _
  split
  · exact (stored _).trans (Client.sameElsewhere_setStreams _)
  · exact ((stored data).trans (Client.sameElsewhere_enterCache _)).trans
      (Client.sameElsewhere_updateAttr _)

theorem sameElsewhere_begin (owns : client.OwnsNodes) (call : FileCall) :
    Client.SameElsewhere path client (call.begin answers path client).1 := by
  cases call with
  | openFile =>
      unfold FileCall.begin
      dsimp only
      split <;> exact .refl ..
  | createFile =>
      unfold FileCall.begin
      dsimp only
      split
      · next created begins =>
          unfold Client.beginCreate at begins
          split_ifs at begins
          obtain rfl := Option.some.inj begins
          have created : Client.SameElsewhere path client { client with
              disk := client.disk.openTruncated path answers.now } :=
            Client.sameElsewhere_disk
              (fun _ apart => FileStore.node_openTruncated_ne apart)
              fun _ apart => FileStore.read_openTruncated_ne apart
          exact created.trans (Client.sameElsewhere_enterCache _)
      · exact .refl ..
  | writeFile data position => exact sameElsewhere_writeFile owns data position
  | closeFile => exact sameElsewhere_beginClose
  | deleteFile => exact (Client.deleteResult_beginDelete path client).elsewhere

end Sections

end DistributedFilesystem
