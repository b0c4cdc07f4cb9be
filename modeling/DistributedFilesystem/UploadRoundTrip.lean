import DistributedFilesystem.ClientEffects
import DistributedFilesystem.TransitionRuns

/-!
# Write, close, open

A client opens a file, writes to it any number of times and closes it; then
another client opens it.  Calls may fail on the way and be tried again: a failed
upload leaves some prefix of the file on the server, and the next attempt sends
the file from its beginning into a truncated file.
-/

namespace DistributedFilesystem

open TransitionRuns Remote

/-- One call of `write_file`. -/
structure Write where
  data : Bytes
  position : Int
  answers : LocalAnswers

/-- The contents after a sequence of writes. -/
def contentsAfter (contents : Bytes) (writes : List Write) : Bytes :=
  writes.foldl (fun contents write =>
    ByteContents.overlay contents write.position.toNat write.data) contents

/-- A call of `write_file` that returns true. -/
def Write.step (path : Path) (write : Write) (client : Client) :
    Option Client :=
  match client.writeFile write.answers path write.data write.position with
  | (client, true) => some client
  | (_, false) => none

variable {path : Path} {client client' : Client}

/-- The client has the path open; its copy holds `contents`, which are what the
server stores unless the copy is modified. -/
structure Editing (path : Path) (stored contents : Bytes) (client : Client) :
    Prop where
  opened : ∃ i streams, client.disk.node path = some i ∧
    client.openedFiles path = some streams ∧ streams.writeStream.node = i ∧
    (client.disk.nodes i).contents = contents
  cached : ∃ info, client.cache path = some info ∧
    (info.locallyModified = false → contents = stored)

theorem read_of_editing {stored contents : Bytes}
    (editing : Editing path stored contents client) :
    client.disk.read path = some contents := by
  obtain ⟨i, streams, refers, -, -, holds⟩ := editing.opened
  simp [FileStore.read, refers, holds]

theorem editing_of_justOpened {contents : Bytes}
    (justOpened : Client.JustOpened path client)
    (read : client.disk.read path = some contents)
    (cached : ∃ info, client.cache path = some info) :
    Editing path contents contents client := by
  obtain ⟨i, refers, opened⟩ := justOpened.streams
  obtain ⟨info, entry⟩ := cached
  have holds : (client.disk.nodes i).contents = contents := by
    simpa [FileStore.read, refers] using read
  exact ⟨⟨i, _, refers, opened, rfl, holds⟩, info, entry, fun _ => rfl⟩

/-- A write that returns true overlays its data. -/
theorem editing_of_step {stored contents : Bytes} {write : Write}
    (editing : Editing path stored contents client)
    (writes : write.step path client = some client') :
    Editing path stored
      (ByteContents.overlay contents write.position.toNat write.data)
      client' := by
  unfold Write.step at writes
  split at writes
  · next written eq =>
      obtain rfl := Option.some.inj writes
      have result := Client.writeResult_of_writeFile eq
      obtain ⟨i, streams, refers, opened, onNode, holds⟩ := editing.opened
      obtain ⟨streams', opened', disk⟩ := result.disk
      obtain rfl : streams = streams' := by simpa [opened] using opened'
      obtain ⟨timestamp, cache⟩ := result.cache
      constructor
      · refine ⟨i, streams, ?_, ?_, onNode, ?_⟩
        · rw [disk, FileStore.node_writeAt, refers]
        · rw [result.openedFiles, opened]
        · rw [disk, onNode, FileStore.contents_writeAt_self, holds]
      · exact ⟨⟨true, timestamp⟩, by simp [cache], by simp⟩
  · simp at writes

theorem editing_of_run {stored contents : Bytes} {writes : List Write}
    (editing : Editing path stored contents client)
    (written : run (Write.step path) writes client = some client') :
    Editing path stored (contentsAfter contents writes) client' := by
  induction writes generalizing client contents with
  | nil =>
      obtain rfl : client = client' := by simpa using written
      exact editing
  | cons write writes ih =>
      obtain ⟨next, stepEq, rest⟩ := run_cons_eq_some.mp written
      exact ih (editing_of_step editing stepEq) rest

/-- A client without a copy that opens the file gets what the server stores. -/
theorem freshCopy_of_openFile {answers : LocalAnswers} {link link' : Link}
    {contents : Bytes}
    (stored : link.server.disk.read path = some contents)
    (notCached : client.cache path = none)
    (opens : client.openFile faulty answers path link = ((client', link'), true)) :
    Client.FreshCopy path contents client client' ∧
      link'.server.disk.read path = some contents := by
  have uncached : client.openUncached faulty answers path link =
      ((client', link'), true) := by
    simpa [Client.openFile, notCached] using opens
  obtain ⟨before, responses, status, kept, call, ok, copy⟩ :=
    Client.freshCopy_of_openUncached
      (fun link : Link => link.server.disk.read path = some contents)
      (fun link kept => by rwa [faulty_openCall_disk]) stored uncached
  obtain ⟨sent, read, rfl⟩ :=
    Server.openHandler_ok (openHandler_of_openCall call ok) ok
  obtain rfl : contents = sent := Option.some.inj (kept.symm.trans read)
  rw [Client.downloaded_openResponses] at copy
  have unchanged := faulty_openCall_disk before ⟨path, client.clientId, []⟩
  rw [call] at unchanged
  dsimp only at unchanged
  exact ⟨copy, by rw [unchanged, kept]⟩

/-- A client may start to write: it has no copy of the file, or has one that is
not open and is current. -/
def MayOpen (path : Path) (contents : Bytes) (client : Client) : Prop :=
  client.cache path = none ∨
    client.openedFiles path = none ∧
      client.disk.read path = some contents

theorem editing_of_openFile {answers : LocalAnswers} {link link' : Link}
    {contents : Bytes}
    (stored : link.server.disk.read path = some contents)
    (mayOpen : MayOpen path contents client)
    (opens : client.openFile faulty answers path link = ((client', link'), true)) :
    Editing path contents contents client' ∧
      link'.server.disk.read path = some contents := by
  cases cached : client.cache path with
  | none =>
      obtain ⟨copy, unchanged⟩ := freshCopy_of_openFile stored cached opens
      obtain ⟨timestamp, entry⟩ := copy.cache
      exact ⟨editing_of_justOpened copy.justOpened copy.read ⟨_, entry⟩,
        unchanged⟩
  | some info =>
      obtain ⟨closed, read⟩ := mayOpen.resolve_left (by simp [cached])
      simp only [Client.openFile, cached, Prod.mk.injEq] at opens
      obtain ⟨⟨rfl, rfl⟩, returned⟩ := opens
      have copy : Client.CachedCopy path client
          (client.openCached answers path).1 :=
        Client.cachedCopy_of_openCached (Prod.ext rfl returned)
      rcases copy.opened with ⟨-, isOpen⟩ | ⟨-, justOpened⟩
      · simp [closed] at isOpen
      · refine ⟨editing_of_justOpened justOpened ?_ ⟨info, ?_⟩, stored⟩
        · rw [copy.disk, read]
        · rw [copy.cache, cached]

/-- A close that returns true leaves the local contents on the server. -/
theorem read_of_closeFile {answers : LocalAnswers} {link link' : Link}
    {stored contents : Bytes} (editing : Editing path stored contents client)
    (storedBefore : link.server.disk.read path = some stored)
    (closes : client.closeFile faulty answers path link =
      ((client', link'), true)) :
    link'.server.disk.read path = some contents := by
  obtain ⟨-, info, entry, ⟨clean, rfl⟩ |
    ⟨modified, before, local', response, status, -, read, call, ok⟩⟩ :=
    Client.closeFile_eq_true (fun _ => True)
      (fun _ _ _ _ => trivial) trivial closes
  · obtain ⟨info', entry', same⟩ := editing.cached
    obtain rfl : info = info' := Option.some.inj (entry.symm.trans entry')
    rw [same clean, storedBefore]
  · obtain rfl : contents = local' :=
      Option.some.inj ((read_of_editing editing).symm.trans read)
    rw [Server.read_closeHandler
      (fun request member => (Client.of_mem_uploadRequests member).1)
      (closeHandler_of_closeCall call ok) ok, Client.contents_uploadRequests]

/-- Whatever calls fail on the way: if `open_file`, any sequence of
`write_file` calls and `close_file` return true, the server stores the initial
contents with the data of the writes overlaid in order, and every client that
opens the file from there without a cached copy has these contents in its local
file.  Between the calls the server may do anything that spares the file. -/
theorem write_close_open_round_trip (path : Path) (contents : Bytes)
    (client : Client) (link linkBefore : Link) (answers answers' : LocalAnswers)
    {opened modified closed : Client} {linkOpened linkClosed : Link}
    (stored : link.server.disk.read path = some contents)
    (mayOpen : MayOpen path contents client)
    (opens : client.openFile faulty answers path link =
      ((opened, linkOpened), true))
    (writes : List Write)
    (written : run (Write.step path) writes opened = some modified)
    (spared : linkBefore.server.disk.read path =
      linkOpened.server.disk.read path)
    (closes : modified.closeFile faulty answers' path linkBefore =
      ((closed, linkClosed), true)) :
    linkClosed.server.disk.read path = some (contentsAfter contents writes) ∧
      ∀ (reader reading : Client) (link link' : Link) (answers : LocalAnswers),
        link.server.disk.read path = linkClosed.server.disk.read path →
        reader.cache path = none →
        reader.openFile faulty answers path link = ((reading, link'), true) →
        reading.disk.read path = some (contentsAfter contents writes) := by
  obtain ⟨editing, unchanged⟩ := editing_of_openFile stored mayOpen opens
  have uploaded := read_of_closeFile (editing_of_run editing written)
    (spared.trans unchanged) closes
  refine ⟨uploaded, ?_⟩
  intro reader reading link link' answers same notCached opensAgain
  exact (freshCopy_of_openFile (same.trans uploaded) notCached opensAgain).1.read

/-- A server with a file of one byte. -/
private def oneByteFile : Server :=
  Server.launch "/srv" (FileStore.empty.replace "/srv/a" [[7]] 0) 0

/-- The writer has the file open. -/
private def writerOpened : Client × Link :=
  ((Client.launch "writer").openFile faulty (.success 0) "/srv/a"
    ⟨oneByteFile, []⟩).1

/-- The writer leaves a gap of one byte. -/
private def gapWrite : Write := ⟨[97], 2, .success 0⟩

/-- Of the next two calls none delivers its answer, the second has delivered
the file. -/
private def twoFaults : List (Option Fault) :=
  [some ⟨0, .success, ⟨.unavailable, ""⟩, rfl⟩,
    some ⟨1, .success, ⟨.unavailable, ""⟩, rfl⟩]

/-- The upload succeeds at its third attempt. -/
theorem write_close_open_round_trip_retry :
    ∃ link : Link, link.server.disk.read "/srv/a" = some [7, 0, 97] ∧
      link.faults = [] := by
  have trip := write_close_open_round_trip "/srv/a" [7] (Client.launch "writer")
    ⟨oneByteFile, []⟩ ⟨writerOpened.2.server, twoFaults⟩ (.success 0)
    (.success 0) rfl (.inl rfl) rfl [gapWrite] rfl rfl rfl
  exact ⟨_, trip.1, rfl⟩

end DistributedFilesystem
