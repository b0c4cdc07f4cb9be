import DistributedFilesystem.AttributeEffects
import DistributedFilesystem.TransferredCopies

/-!
# Cached sizes and local files

The size that a client reports for a file is the one in `cachedAttr`.  Opening,
writing, creating and closing a file refresh it from the local copy, but
`truncate_file` changes the copy alone, and `get_attributes` enters the size
that the file has on the server.
-/

namespace DistributedFilesystem

open TransitionRuns Remote

/-- The call looks up attributes, opens, reads, writes, creates, truncates or
closes a file, and it succeeds. -/
def ClientEvent.Completes {σ : Type*} (remote : Remote σ) :
    ClientEvent → Client × σ → Prop
  | .call (.getAttributes path) _, (client, r) =>
      (client.getAttributes remote path r).2.isSome
  | event, state => event.Succeeds remote state

namespace Client

/-- The cached size of the path is the length of its local copy, if the path
has both an entry in the cache and attributes. -/
def SizeFollows (client : Client) (path : Path) : Prop :=
  ∀ info attr, client.cache path = some info →
    client.cachedAttr path = some attr →
    ∃ contents, client.disk.read path = some contents ∧
      attr.size = contents.length

/-- The truncation leaves the length of a copy that has attributes as it is. -/
def TruncatesToLength (client : Client) (path : Path) (size : Int) : Prop :=
  ∀ info attr contents, client.cache path = some info →
    client.cachedAttr path = some attr →
    client.disk.read path = some contents → (contents.length : Int) = size

/-- A cached path without attributes is as long on the server as it is here. -/
def AsLongOnServer (client : Client) (path : Path) (s : Server) : Prop :=
  ∀ info contents stored, client.cache path = some info →
    client.cachedAttr path = none → client.disk.read path = some contents →
    s.disk.read path = some stored → stored.length = contents.length

end Client

/-- The truncations and look-ups of attributes that keep cached sizes. -/
def ClientEvent.KeepsSizes : ClientEvent → Client × Link → Prop
  | .call (.truncateFile directory filename size) _, (client, _) =>
      client.TruncatesToLength (directory ++ filename) size
  | .call (.getAttributes path) _, (client, link) =>
      client.AsLongOnServer path link.server
  | _, _ => True

/-! ## Copies behind the entries -/

/-- A cached path has a local copy, and its streams write into it. -/
structure CacheEntry.OnDisk (entry : CacheEntry) : Prop where
  inStep : entry.InStep
  onNode : entry.OnNode
  copy : entry.info.isSome → entry.node.isSome

theorem onDisk_of_entryStep {refused : Prop} {entry entry' : CacheEntry}
    (step : EntryStep refused entry entry') (onDisk : entry.OnDisk) :
    entry'.OnDisk where
  inStep := inStep_of_entryStep step onDisk.inStep
  onNode := onNode_of_entryStep step onDisk.inStep onDisk.onNode
  copy := by
    have copy := onDisk.copy
    cases step with
    | adjusted change keeps => exact copy
    | written timestamp cached opened => exact fun _ => copy cached
    | downloaded i timestamp notCached => exact fun _ => rfl
    | notDownloaded node notCached => simp [notCached]
    | reopened i cached closed refers => exact copy
    | created i notCached closed => exact fun _ => rfl
    | closed timestamp cached hadMutex opened => exact fun _ => copy cached
    | dropped notCached => exact copy
    | uploadRefused reason => exact copy
    | deleted node => simp
    | evicted closed => simp

theorem onDisk_of_step {σ : Type*} {remote : Remote σ} {event : ClientEvent}
    {state next : Client × σ}
    (noRename : ∀ oldPath newPath answers,
      event ≠ .call (.renameFile oldPath newPath) answers)
    (onDisk : ∀ path, (state.1.entry path).OnDisk)
    (steps : event.step remote state = some next) (path : Path) :
    (next.1.entry path).OnDisk := by
  apply forall_entry_of_step CacheEntry.OnDisk _ _ onDisk steps
  · exact fun _ _ => onDisk_of_entryStep
  · intro oldPath newPath answers isRename
    exact (noRename oldPath newPath answers isRename).elim

theorem onDisk_launch (client : ClientId) (path : Path) :
    ((Client.launch client).entry path).OnDisk where
  inStep := inStep_launch client path
  onNode := by simp [CacheEntry.OnNode, Client.entry, Client.launch]
  copy := by simp [Client.entry, Client.launch]

theorem CacheEntry.OnDisk.exists_read {client : Client} {path : Path}
    (onDisk : (client.entry path).OnDisk) {info : FileInfo}
    (cached : client.cache path = some info) :
    ∃ contents, client.disk.read path = some contents := by
  have isCached : (client.entry path).info.isSome := by
    simp [Client.entry, cached]
  have present := FileStore.read_isSome_iff.mpr (onDisk.copy isCached)
  exact Option.isSome_iff_exists.mp present

/-! ## Sizes after each call -/

namespace Client

section Calls

variable {σ : Type*} {remote : Remote σ} {answers : LocalAnswers} {path : Path}
variable {client client' : Client} {r r' : σ}

/-- A change at one path keeps the sizes of all paths if it keeps that of the
path. -/
theorem sizesFollow_iff_of_sameElsewhere
    (same : SameElsewhere path client client')
    (follows : ∀ other, client.SizeFollows other) :
    (∀ other, client'.SizeFollows other) ↔ client'.SizeFollows path := by
  constructor
  · exact fun all => all path
  · intro here other
    by_cases isPath : other = path
    · rw [isPath]
      exact here
    · intro info attr cached entered
      rw [same.cache other isPath] at cached
      rw [same.cachedAttr other isPath] at entered
      rw [same.read other isPath]
      exact follows other info attr cached entered

theorem sameElsewhere_enterAttr (path : Path) (client : Client)
    (attr : FileAttributes) :
    SameElsewhere path client
      { client with
        cachedAttr := Function.update client.cachedAttr path (some attr) } := by
  constructor <;> intros <;> simp_all

theorem sizeFollows_openFile (follows : client.SizeFollows path)
    (opens : client.openFile remote answers path r = ((client', r'), true)) :
    client'.SizeFollows path := by
  have cachedAttr := cachedAttr_openFile remote answers path client r
  rw [opens] at cachedAttr
  dsimp only at cachedAttr
  intro info attr cached entered
  rw [cachedAttr] at entered
  cases cachedBefore : client.cache path with
  | some before =>
      have unchanged : refreshed none = id := rfl
      rw [storedByOpen, cachedBefore] at entered
      dsimp only at entered
      rw [unchanged, updateAttr_id] at entered
      have isCached : (client.cache path).isSome := by simp [cachedBefore]
      obtain ⟨_, _, result, disk, -⟩ : ∃ after opened,
          client.openFile remote answers path r = ((after, r), opened) ∧
            after.disk = client.disk ∧ after.cache = client.cache :=
        openFile_of_cached isCached
      rw [opens] at result
      obtain ⟨⟨rfl, -⟩, -⟩ : (client' = _ ∧ _) ∧ _ := by simpa using result
      rw [disk]
      exact follows before attr cachedBefore entered
  | none =>
      obtain ⟨responses, status, stored, -, read⟩ :=
        storedByOpen_of_openFile cachedBefore opens
      rw [stored] at entered
      obtain ⟨before, -, rfl⟩ : ∃ before, client.cachedAttr path = some before ∧
          downloadAttr responses = attr := by
        simpa [updateAttr, refreshed] using entered
      exact ⟨downloaded responses, read, rfl⟩

theorem sizeFollows_writeFile {data : Bytes} {position : Int}
    (onDisk : (client'.entry path).OnDisk)
    (writes : client.writeFile answers path data position = (client', true)) :
    client'.SizeFollows path := by
  intro info attr cached entered
  obtain ⟨contents, read⟩ := onDisk.exists_read cached
  rw [cachedAttr_of_writeFile writes read] at entered
  obtain ⟨before, -, rfl⟩ := Option.map_eq_some_iff.mp
    (by simpa [updateAttr] using entered)
  exact ⟨contents, read, rfl⟩

theorem sizeFollows_createFile
    (creates : client.createFile answers path = (client', true)) :
    client'.SizeFollows path := by
  obtain ⟨cachedAttr, read, -⟩ := createFile_eq_true creates
  intro info attr cached entered
  obtain rfl : createdAttr answers.now = attr := by
    simpa [cachedAttr] using entered
  exact ⟨[], read, rfl⟩

theorem sizeFollows_closeFile (follows : client.SizeFollows path)
    (closes : client.closeFile remote answers path r = ((client', r'), true)) :
    client'.SizeFollows path := by
  obtain ⟨result, -⟩ := closeFile_eq_true (fun _ => True) (fun _ _ _ _ => trivial)
    trivial closes
  obtain ⟨info, cached, ⟨-, cachedAttr⟩ |
    ⟨-, before, contents, response, status, -, read, -, -, cachedAttr⟩⟩ :=
    cachedAttr_of_closeFile (fun _ => True) (fun _ _ _ _ => trivial) trivial closes
  · intro info' attr _ entered
    rw [cachedAttr] at entered
    rw [result.disk]
    exact follows info attr cached entered
  · intro info' attr _ entered
    rw [cachedAttr] at entered
    obtain ⟨attr', -, rfl⟩ := Option.map_eq_some_iff.mp
      (by simpa [updateAttr] using entered)
    exact ⟨contents, by rw [result.disk, read], rfl⟩

/-- A truncation keeps the sizes exactly when it leaves the length of a copy
that has attributes as it is. -/
theorem sizesFollow_truncateFile_iff {directory filename : Path} {size : Int}
    (follows : ∀ other, client.SizeFollows other)
    (truncates : client.truncateFile answers directory filename size =
      (client', true)) :
    (∀ other, client'.SizeFollows other) ↔
      client.TruncatesToLength (directory ++ filename) size := by
  unfold truncateFile at truncates
  split at truncates
  · next i refers _ =>
      split at truncates
      · simp at truncates
      next nonneg =>
      obtain ⟨rfl, -⟩ := Prod.mk.inj truncates
      have cutTo (contents : Bytes)
          (read : client.disk.read (directory ++ filename) = some contents) :
          ∃ cut, (client.disk.resize i size.toNat answers.now).read
              (directory ++ filename) = some cut ∧ (cut.length : Int) = size := by
        refine ⟨_, FileStore.read_resize size.toNat refers read, ?_⟩
        simp only [List.length_append, List.length_take, List.length_replicate]
        omega
      constructor
      · intro follows' info attr contents cached entered read
        obtain ⟨_, before, isLength⟩ := follows _ info attr cached entered
        obtain ⟨_, after, isLength'⟩ := follows' _ info attr cached entered
        obtain ⟨cut, readCut, isSize⟩ := cutTo contents read
        obtain rfl := Option.some.inj (before.symm.trans read)
        obtain rfl := Option.some.inj (readCut.symm.trans after)
        omega
      · intro toLength other info attr cached entered
        obtain ⟨contents, read, isLength⟩ := follows other info attr cached entered
        by_cases same : other = directory ++ filename
        · subst same
          obtain ⟨cut, readCut, isSize⟩ := cutTo contents read
          have sameLength := toLength info attr contents cached entered read
          exact ⟨cut, readCut, by omega⟩
        · refine ⟨contents, ?_, isLength⟩
          rw [← read]
          exact FileStore.read_resize_ne _ refers same
  · simp at truncates

/-- A look-up keeps the sizes exactly when it enters none for a copy of another
length. -/
theorem sizesFollow_getAttributes_iff {link link' : Link}
    {attr : FileAttributes} (onDisk : (client.entry path).OnDisk)
    (follows : ∀ other, client.SizeFollows other)
    (looksUp : client.getAttributes faulty path link =
      ((client', link'), some attr)) :
    (∀ other, client'.SizeFollows other) ↔
      client.AsLongOnServer path link.server := by
  unfold getAttributes at looksUp
  split at looksUp
  · next entered =>
      obtain ⟨⟨rfl, -⟩, -⟩ : (client = client' ∧ _) ∧ _ := by simpa using looksUp
      constructor
      · intro _ info contents stored _ noAttr
        simp [entered] at noAttr
      · exact fun _ => follows
  · next noAttr =>
      cases call : faulty.getattrCall link path with
      | mk after answer =>
          obtain ⟨answered, status⟩ := answer
          simp only [call] at looksUp
          split at looksUp
          · next ok =>
              obtain ⟨⟨rfl, -⟩, rfl⟩ : (_ = client' ∧ _) ∧ answered = attr := by
                simpa using looksUp
              obtain ⟨handles, -⟩ := getattrHandler_of_getattrCall call ok
              obtain ⟨stored, readStored, rfl⟩ :=
                Server.getattrHandler_ok handles ok
              rw [sizesFollow_iff_of_sameElsewhere
                (sameElsewhere_enterAttr path client _) follows]
              constructor
              · intro here info contents stored' cached _ read readStored'
                obtain rfl := Option.some.inj (readStored.symm.trans readStored')
                obtain ⟨_, readHere, isLength⟩ :=
                  here info _ cached (Function.update_self ..)
                obtain rfl := Option.some.inj (read.symm.trans readHere)
                exact Int.ofNat.inj isLength
              · intro asLong info attr cached entered
                obtain rfl : _ = attr := by simpa using entered
                obtain ⟨contents, read⟩ := onDisk.exists_read cached
                have sameLength :=
                  asLong info contents stored cached noAttr read readStored
                exact ⟨contents, read, congrArg Int.ofNat sameLength⟩
          · simp at looksUp

end Calls

end Client

section Steps

variable {event : ClientEvent} {state next : Client × Link}

theorem not_rename_of_completes {σ : Type*} {remote : Remote σ}
    {event : ClientEvent} {state : Client × σ}
    (completes : event.Completes remote state) (oldPath newPath : Path)
    (answers : LocalAnswers) :
    event ≠ .call (.renameFile oldPath newPath) answers := by
  rintro rfl
  exact completes

theorem sizesFollow_step_iff (completes : event.Completes faulty state)
    (onDisk : ∀ path, (state.1.entry path).OnDisk)
    (follows : ∀ path, state.1.SizeFollows path)
    (steps : event.step faulty state = some next) :
    (∀ path, next.1.SizeFollows path) ↔ event.KeepsSizes state := by
  have onDisk' := onDisk_of_step (not_rename_of_completes completes) onDisk steps
  obtain ⟨client, link⟩ := state
  cases event with
  | notified note => exact completes.elim
  | call operation answers =>
      cases operation with
      | openFile path =>
          obtain rfl := Option.some.inj steps
          have elsewhere := Client.sameElsewhere_openFile faulty answers path
            client link
          refine ⟨fun _ => trivial, fun _ => ?_⟩
          apply (Client.sizesFollow_iff_of_sameElsewhere elsewhere follows).mpr
          exact Client.sizeFollows_openFile (follows path)
            (Prod.ext rfl completes)
      | readFile path size offset =>
          obtain rfl := Option.some.inj steps
          refine ⟨fun _ => trivial, fun _ => ?_⟩
          rcases Client.readFile_eq client path size offset with eq | eq
          · dsimp only
            rw [eq]
            exact follows
          · dsimp only
            rw [eq]
            exact follows
      | writeFile path data position =>
          obtain rfl := Option.some.inj steps
          have writes : client.writeFile answers path data position = (_, true) :=
            Prod.ext rfl completes
          have result := Client.writeResult_of_writeFile writes
          obtain ⟨streams, opened, -⟩ := result.disk
          have refers := (onDisk path).onNode streams opened
          refine ⟨fun _ => trivial, fun _ => ?_⟩
          apply (Client.sizesFollow_iff_of_sameElsewhere
            (Client.sameElsewhere_of_writeResult result opened refers)
            follows).mpr
          exact Client.sizeFollows_writeFile (onDisk' path) writes
      | createFile path =>
          obtain rfl := Option.some.inj steps
          have creates : client.createFile answers path = (_, true) :=
            Prod.ext rfl completes
          have result := Client.createResult_of_createFile creates
          refine ⟨fun _ => trivial, fun _ => ?_⟩
          apply (Client.sizesFollow_iff_of_sameElsewhere result.elsewhere
            follows).mpr
          exact Client.sizeFollows_createFile creates
      | closeFile path =>
          obtain rfl := Option.some.inj steps
          have closes : client.closeFile faulty answers path link = (_, true) :=
            Prod.ext rfl completes
          obtain ⟨result, -⟩ := Client.closeFile_eq_true (fun _ => True)
            (fun _ _ _ _ => trivial) trivial closes
          refine ⟨fun _ => trivial, fun _ => ?_⟩
          apply (Client.sizesFollow_iff_of_sameElsewhere result.elsewhere
            follows).mpr
          exact Client.sizeFollows_closeFile (follows path) closes
      | truncateFile directory filename size =>
          obtain rfl := Option.some.inj steps
          exact Client.sizesFollow_truncateFile_iff follows
            (Prod.ext rfl completes)
      | getAttributes path =>
          obtain rfl := Option.some.inj steps
          obtain ⟨attr, isAttr⟩ := Option.isSome_iff_exists.mp completes
          exact Client.sizesFollow_getAttributes_iff (onDisk path) follows
            (Prod.ext rfl isAttr)
      | deleteFile path => exact completes.elim
      | renameFile oldPath newPath => exact completes.elim

end Steps

/-- In every state of a run of successful calls, cached sizes are the lengths of
the local copies if and only if every truncation of a copy with attributes
leaves its length as it is, and every look-up for a cached path without
attributes finds a file of the copy's length on the server. -/
theorem sizesFollow_throughout_iff {client : ClientId} {link : Link}
    {events : List ClientEvent} {final : Client × Link}
    (completes : Along (ClientEvent.step faulty) (ClientEvent.Completes faulty)
      events (Client.launch client, link))
    (reaches : run (ClientEvent.step faulty) events (Client.launch client, link) =
      some final) :
    Throughout (ClientEvent.step faulty)
        (fun state => ∀ path, state.1.SizeFollows path) events
        (Client.launch client, link) ↔
      Along (ClientEvent.step faulty) ClientEvent.KeepsSizes events
        (Client.launch client, link) := by
  apply throughout_iff_along
    (fun state : Client × Link => ∀ path, (state.1.entry path).OnDisk)
    _ _ reaches completes (onDisk_launch client)
  · intro path info attr cached
    simp [Client.launch] at cached
  · intro event state next completes onDisk steps
    exact onDisk_of_step (not_rename_of_completes completes) onDisk steps
  · intro event state next completes onDisk follows steps
    exact sizesFollow_step_iff completes onDisk follows steps

/-- A server with a file of one byte. -/
private def oneByteStored : Link :=
  ⟨Server.launch "/srv" (FileStore.empty.replace "/srv/a" [[97]] 0) 0, []⟩

/-- A file is created, written, cut to the length it has, and closed. -/
private def createdThenWritten : List ClientEvent :=
  [.call (.createFile "/srv/b") (.success 1),
    .call (.writeFile "/srv/b" [98] 0) (.success 2),
    .call (.truncateFile "/srv/" "b" 1) (.success 3),
    .call (.closeFile "/srv/b") (.success 4)]

theorem sizesFollow_throughout_written :
    Throughout (ClientEvent.step faulty)
      (fun state => ∀ path, state.1.SizeFollows path) createdThenWritten
      (Client.launch "writer", oneByteStored) := by
  have completes : Along (ClientEvent.step faulty)
      (ClientEvent.Completes faulty) createdThenWritten
      (Client.launch "writer", oneByteStored) := by
    refine ⟨rfl, fun _ created => ?_⟩
    obtain rfl := Option.some.inj created
    refine ⟨rfl, fun _ written => ?_⟩
    obtain rfl := Option.some.inj written
    refine ⟨rfl, fun _ cut => ?_⟩
    obtain rfl := Option.some.inj cut
    exact ⟨rfl, fun _ _ => trivial⟩
  apply (sizesFollow_throughout_iff completes rfl).mpr
  refine ⟨trivial, fun _ created => ?_⟩
  obtain rfl := Option.some.inj created
  refine ⟨trivial, fun _ written => ?_⟩
  obtain rfl := Option.some.inj written
  refine ⟨?_, fun _ _ => ⟨trivial, fun _ _ => trivial⟩⟩
  intro info attr contents _ _ read
  obtain rfl : [98] = contents := Option.some.inj read
  rfl

/-- A file is created and extended. -/
private def createdThenExtended : List ClientEvent :=
  [.call (.createFile "/srv/b") (.success 1),
    .call (.truncateFile "/srv/" "b" 5) (.success 2)]

/-- A file is opened and extended by a byte before its attributes are looked
up. -/
private def writtenThenLookedUp : List ClientEvent :=
  [.call (.openFile "/srv/a") (.success 1),
    .call (.writeFile "/srv/a" [98] 1) (.success 2),
    .call (.getAttributes "/srv/a") (.success 3)]

/-- After the truncation the new file is still reported as empty, and after the
look-up the written file as long as it was before. -/
theorem cached_sizes_outdated :
    (Along (ClientEvent.step faulty) (ClientEvent.Completes faulty)
        createdThenExtended (Client.launch "writer", oneByteStored) ∧
      ∃ final : Client × Link,
        run (ClientEvent.step faulty) createdThenExtended
          (Client.launch "writer", oneByteStored) = some final ∧
        (final.1.cache "/srv/b").isSome ∧
        (final.1.cachedAttr "/srv/b").map FileAttributes.size = some 0 ∧
        (final.1.disk.read "/srv/b").map List.length = some 5) ∧
    Along (ClientEvent.step faulty) (ClientEvent.Completes faulty)
        writtenThenLookedUp (Client.launch "writer", oneByteStored) ∧
      ∃ final : Client × Link,
        run (ClientEvent.step faulty) writtenThenLookedUp
          (Client.launch "writer", oneByteStored) = some final ∧
        (final.1.cache "/srv/a").isSome ∧
        (final.1.cachedAttr "/srv/a").map FileAttributes.size = some 1 ∧
        (final.1.disk.read "/srv/a").map List.length = some 2 := by
  refine ⟨⟨?_, _, rfl, rfl, rfl, rfl⟩, ?_, _, rfl, rfl, rfl, rfl⟩
  · refine ⟨rfl, fun _ created => ?_⟩
    obtain rfl := Option.some.inj created
    exact ⟨rfl, fun _ _ => trivial⟩
  · refine ⟨rfl, fun _ opened => ?_⟩
    obtain rfl := Option.some.inj opened
    refine ⟨rfl, fun _ written => ?_⟩
    obtain rfl := Option.some.inj written
    exact ⟨rfl, fun _ _ => trivial⟩

end DistributedFilesystem
