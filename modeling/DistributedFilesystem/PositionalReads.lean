import DistributedFilesystem.UploadRoundTrip

/-!
# Reads of an open file

All reads of an open file go through one stream, which keeps its position and
its bits from one read to the next.  `read_file` sets the position for each
read, so that only the bits matter: a read that meets the end of the file sets
the fail bit, which `seekg` does not clear.
-/

namespace DistributedFilesystem

open TransitionRuns

/-- One call of `read_file`. -/
structure Read where
  size : Nat
  offset : Int
  positive : 0 < size
  notNegative : 0 ≤ offset

/-- The bytes from the offset on, as many as the call asks for and there are. -/
def Read.bytes (read : Read) (contents : Bytes) : Bytes :=
  (contents.drop read.offset.toNat).take read.size

/-- The call asks for bytes of the contents only. -/
def Read.Full (read : Read) (contents : Bytes) : Prop :=
  read.offset + read.size ≤ contents.length

instance (read : Read) (contents : Bytes) : Decidable (read.Full contents) :=
  inferInstanceAs (Decidable (_ ≤ _))

/-- A call on an open file. -/
inductive FileAccess where
  | read (read : Read)
  | write (write : Write)

namespace FileAccess

/-- What the call writes. -/
def written : FileAccess → Option Write
  | .read _ => none
  | .write call => some call

/-- A call of `read_file`, or a call of `write_file` that returns true. -/
def step (path : Path) : FileAccess → Client → Option Client
  | .read call, client => some (client.readFile path call.size call.offset).1
  | .write call, client => call.step path client

end FileAccess

/-- The contents after the calls: the first contents with the writes
overlaid. -/
def contentsThrough (contents : Bytes) (calls : List FileAccess) : Bytes :=
  contentsAfter contents (calls.filterMap FileAccess.written)

/-- Each read of the sequence returns the bytes that the file has then. -/
def ReadsExactly (path : Path) (contents : Bytes) (calls : List FileAccess)
    (client : Client) : Prop :=
  ∀ before read later, calls = before ++ FileAccess.read read :: later →
    ∀ reading, run (FileAccess.step path) before client = some reading →
      (reading.readFile path read.size read.offset).2 =
        some (read.bytes (contentsThrough contents before))

/-- Each read that another one follows asks for bytes of the file only. -/
def ShortOnlyLast (contents : Bytes) (calls : List FileAccess) : Prop :=
  ∀ before read later, calls = before ++ FileAccess.read read :: later →
    (∃ next, FileAccess.read next ∈ later) →
      read.Full (contentsThrough contents before)

/-- The file is open at the client: its streams work on one local file, and the
read stream has failed or not. -/
structure StreamsOn (path : Path) (i : Nat) (failed : Bool) (client : Client) :
    Prop where
  cached : client.cache path ≠ none
  hasMutex : path ∈ client.fileMutexes
  streams : ∃ streams, client.openedFiles path = some streams ∧
    streams.readStream = ⟨i, true, failed⟩ ∧ streams.writeStream.node = i

variable {path : Path} {i : Nat} {failed : Bool} {client client' : Client}
variable {contents : Bytes} {calls : List FileAccess} {read : Read}
variable {write : Write}

theorem streamsOn_of_justOpened (cached : client.cache path ≠ none)
    (justOpened : Client.JustOpened path client) :
    ∃ i, client.disk.node path = some i ∧ StreamsOn path i false client := by
  obtain ⟨i, refers, opened⟩ := justOpened.streams
  exact ⟨i, refers, cached, justOpened.mutex, _, opened, rfl, rfl⟩

/-- The streams of a file that was not open are good once it is opened. -/
theorem streamsOn_of_openFile {σ : Type*} {remote : Remote σ}
    {answers : LocalAnswers} {r r' : σ}
    (closed : client.openedFiles path = none)
    (opens : client.openFile remote answers path r = ((client', r'), true)) :
    ∃ i, client'.disk.node path = some i ∧ StreamsOn path i false client' := by
  unfold Client.openFile at opens
  split at opens
  · obtain ⟨_, _, _, -, -, -, copy⟩ := Client.freshCopy_of_openUncached
      (fun _ => True) (fun _ _ => trivial) trivial opens
    obtain ⟨timestamp, cache⟩ := copy.cache
    exact streamsOn_of_justOpened (by simp [cache]) copy.justOpened
  · next info cached =>
      dsimp only at opens
      obtain ⟨same, returned⟩ := Prod.mk.inj opens
      obtain ⟨rfl, -⟩ := Prod.mk.inj same
      have copy : Client.CachedCopy path client
          (client.openCached answers path).1 :=
        Client.cachedCopy_of_openCached (Prod.ext rfl returned)
      rcases copy.opened with ⟨-, isOpen⟩ | ⟨-, justOpened⟩
      · simp [closed] at isOpen
      · exact streamsOn_of_justOpened (by simp [copy.cache, cached]) justOpened

section Calls

theorem usableStreams_of_streamsOn (on : StreamsOn path i failed client) :
    ∃ writeStream,
      client.usableStreams path = some ⟨⟨i, true, failed⟩, writeStream⟩ := by
  obtain ⟨⟨readStream, writeStream⟩, opened, rfl, -⟩ := on.streams
  obtain ⟨info, entry⟩ := Option.ne_none_iff_exists'.mp on.cached
  refine ⟨writeStream, ?_⟩
  simp only [Client.usableStreams, entry, opened, on.hasMutex, if_true]

/-- A read through a stream that has failed is refused. -/
theorem readFile_of_failed (on : StreamsOn path i true client) (read : Read) :
    (client.readFile path read.size read.offset).2 = none ∧
      StreamsOn path i true (client.readFile path read.size read.offset).1 := by
  obtain ⟨writeStream, usable⟩ := usableStreams_of_streamsOn on
  obtain ⟨streams, opened, isRead, isWrite⟩ := on.streams
  simp only [Client.readFile, usable, true_or, if_true]
  refine ⟨trivial, on.cached, on.hasMutex, ?_⟩
  refine ⟨{ streams with readStream := ⟨i, true, true⟩ }, ?_, rfl, isWrite⟩
  simp [Client.setStreams, opened, isRead]

theorem length_bytes_lt_iff (read : Read) (contents : Bytes) :
    (read.bytes contents).length < read.size ↔ ¬ read.Full contents := by
  have positive := read.positive
  have notNegative := read.notNegative
  unfold Read.bytes Read.Full
  rw [List.length_take, List.length_drop]
  omega

/-- A read through a stream that has not failed returns what is there, and the
stream fails if that is less than what was asked for. -/
theorem readFile_of_good (on : StreamsOn path i false client)
    (holds : (client.disk.nodes i).contents = contents) (read : Read) :
    (client.readFile path read.size read.offset).2 =
        some (read.bytes contents) ∧
      StreamsOn path i (decide (¬ read.Full contents))
        (client.readFile path read.size read.offset).1 := by
  obtain ⟨writeStream, usable⟩ := usableStreams_of_streamsOn on
  obtain ⟨streams, opened, isRead, isWrite⟩ := on.streams
  have accepted : ¬ (false = true ∨ true = false ∨ read.offset < 0) := by
    have := read.notNegative
    simp only [Bool.false_eq_true, Bool.true_eq_false, false_or, not_lt]
    exact this
  simp only [Client.readFile, usable, accepted, if_false, holds]
  have short_iff := length_bytes_lt_iff read contents
  unfold Read.bytes at short_iff
  simp only [short_iff]
  by_cases full : read.Full contents
  · simp only [full, not_true_eq_false, if_false, decide_false]
    exact ⟨rfl, on⟩
  · simp only [full, not_false_eq_true, if_true, decide_true]
    refine ⟨rfl, on.cached, on.hasMutex, ?_⟩
    refine ⟨{ streams with readStream := ⟨i, true, true⟩ }, ?_, rfl, isWrite⟩
    simp [Client.setStreams, opened, isRead]

theorem contents_readFile (size : Nat) (offset : Int) :
    (client.readFile path size offset).1.disk = client.disk := by
  rcases Client.readFile_eq client path size offset with eq | eq
  · rw [eq]
  · rw [eq]
    rfl

/-- A write that returns true leaves the streams as they are, and overlays its
data. -/
theorem streamsOn_of_write (on : StreamsOn path i failed client)
    (holds : (client.disk.nodes i).contents = contents)
    (writes : write.step path client = some client') :
    StreamsOn path i failed client' ∧
      (client'.disk.nodes i).contents =
        ByteContents.overlay contents write.position.toNat write.data := by
  unfold Write.step at writes
  split at writes
  · next written eq =>
      obtain rfl := Option.some.inj writes
      have result := Client.writeResult_of_writeFile eq
      obtain ⟨streams, opened, isRead, isWrite⟩ := on.streams
      obtain ⟨streams', opened', disk⟩ := result.disk
      obtain rfl : streams = streams' :=
        Option.some.inj (opened.symm.trans opened')
      obtain ⟨timestamp, cache⟩ := result.cache
      constructor
      · constructor
        case cached => simp [cache]
        case hasMutex =>
          rw [result.fileMutexes]
          exact on.hasMutex
        case streams =>
          rw [result.openedFiles]
          exact ⟨streams, opened, isRead, isWrite⟩
      · rw [disk, isWrite, FileStore.contents_writeAt_self, holds]
  · simp at writes

end Calls

section Sequences

theorem readsExactly_cons_read :
    ReadsExactly path contents (.read read :: calls) client ↔
      (client.readFile path read.size read.offset).2 =
          some (read.bytes contents) ∧
        ReadsExactly path contents calls
          (client.readFile path read.size read.offset).1 := by
  constructor
  · intro exactly
    refine ⟨exactly [] read calls rfl client rfl, ?_⟩
    rintro before next later rfl reading reaches
    exact exactly (.read read :: before) next later rfl reading reaches
  · rintro ⟨first, rest⟩ before next later split reading reaches
    cases before with
    | nil =>
        obtain ⟨same, -⟩ := List.cons.inj split
        obtain rfl := FileAccess.read.inj same
        obtain rfl : client = reading := by simpa using reaches
        exact first
    | cons call before =>
        obtain ⟨rfl, splitRest⟩ := List.cons.inj split
        exact rest before next later splitRest reading reaches

theorem readsExactly_cons_write
    (writes : write.step path client = some client') :
    ReadsExactly path contents (.write write :: calls) client ↔
      ReadsExactly path
        (ByteContents.overlay contents write.position.toNat write.data)
        calls client' := by
  constructor
  · rintro exactly before next later rfl reading reaches
    refine exactly (.write write :: before) next later rfl reading ?_
    exact run_cons_eq_some.mpr ⟨client', writes, reaches⟩
  · rintro rest before next later split reading reaches
    cases before with
    | nil => simp at split
    | cons call before =>
        obtain ⟨rfl, splitRest⟩ := List.cons.inj split
        obtain ⟨after, writes', reaches⟩ := run_cons_eq_some.mp reaches
        obtain rfl := Option.some.inj (writes.symm.trans writes')
        exact rest before next later splitRest reading reaches

theorem shortOnlyLast_nil : ShortOnlyLast contents [] := by
  simp [ShortOnlyLast]

theorem shortOnlyLast_cons_read :
    ShortOnlyLast contents (.read read :: calls) ↔
      ((∃ next, FileAccess.read next ∈ calls) → read.Full contents) ∧
        ShortOnlyLast contents calls := by
  constructor
  · intro shortOnlyLast
    refine ⟨shortOnlyLast [] read calls rfl, ?_⟩
    rintro before next later rfl
    exact shortOnlyLast (.read read :: before) next later rfl
  · rintro ⟨first, rest⟩ before next later split
    cases before with
    | nil =>
        obtain ⟨same, rfl⟩ := List.cons.inj split
        obtain rfl := FileAccess.read.inj same
        exact first
    | cons call before =>
        obtain ⟨rfl, splitRest⟩ := List.cons.inj split
        exact rest before next later splitRest

theorem shortOnlyLast_cons_write :
    ShortOnlyLast contents (.write write :: calls) ↔
      ShortOnlyLast
        (ByteContents.overlay contents write.position.toNat write.data)
        calls := by
  constructor
  · rintro shortOnlyLast before next later rfl
    exact shortOnlyLast (.write write :: before) next later rfl
  · rintro rest before next later split
    cases before with
    | nil => simp at split
    | cons call before =>
        obtain ⟨rfl, splitRest⟩ := List.cons.inj split
        exact rest before next later splitRest

end Sequences

/-- The reads of a sequence of calls return the bytes of the file if and only if
the read stream has not failed before, unless nothing is read, and at most the
last read asks for more than there is. -/
theorem readsExactly_iff {final : Client}
    (on : StreamsOn path i failed client)
    (holds : (client.disk.nodes i).contents = contents)
    (succeed : run (FileAccess.step path) calls client = some final) :
    ReadsExactly path contents calls client ↔
      (failed = true → ∀ read, FileAccess.read read ∉ calls) ∧
        ShortOnlyLast contents calls := by
  induction calls generalizing client contents failed with
  | nil => simp [ReadsExactly, shortOnlyLast_nil]
  | cons call calls ih =>
      obtain ⟨next, steps, rest⟩ := run_cons_eq_some.mp succeed
      cases call with
      | read read =>
          obtain rfl := Option.some.inj steps
          rw [readsExactly_cons_read, shortOnlyLast_cons_read]
          cases failed with
          | true =>
              obtain ⟨refused, -⟩ := readFile_of_failed on read
              simp only [refused, reduceCtorEq, false_and, true_imp_iff,
                false_iff, not_and]
              intro noReads
              exact absurd List.mem_cons_self (noReads read)
          | false =>
              obtain ⟨returns, on'⟩ := readFile_of_good on holds read
              have holds' : ((client.readFile path read.size
                  read.offset).1.disk.nodes i).contents = contents := by
                rw [contents_readFile, holds]
              rw [ih on' holds' rest]
              simp only [returns, true_and, Bool.false_eq_true,
                false_imp_iff, decide_eq_true_eq]
              refine and_congr_left fun _ => ?_
              constructor
              · rintro noReads ⟨next, member⟩
                by_contra short
                exact noReads short next member
              · intro full short next member
                exact short (full ⟨next, member⟩)
      | write write =>
          obtain ⟨on', holds'⟩ := streamsOn_of_write on holds steps
          rw [readsExactly_cons_write steps, shortOnlyLast_cons_write,
            ih on' holds' rest]
          simp

/-- The file `/srv/a` holds one byte, and the reader has opened it. -/
private def readingA : Client :=
  let server := Server.launch "/srv" (FileStore.empty.replace "/srv/a" [[97]] 0) 1
  ((Client.launch "reader").openFile .direct (.success 2) "/srv/a" server).1.1

private theorem streamsOn_readingA : StreamsOn "/srv/a" 0 false readingA where
  cached := by decide
  hasMutex := by decide
  streams := ⟨⟨.fresh 0, .fresh 0⟩, rfl, rfl, rfl⟩

private def readTwo : Read := ⟨2, 0, by decide, by decide⟩

private def readOne : Read := ⟨1, 0, by decide, by decide⟩

private def appendB : Write := ⟨[98], 1, .success 3⟩

/-- A byte is read, another one is appended, and both are read. -/
theorem readsExactly_append :
    ReadsExactly "/srv/a" [97]
      [.read readOne, .write appendB, .read readTwo] readingA := by
  refine (readsExactly_iff streamsOn_readingA rfl rfl).mpr ⟨by simp, ?_⟩
  rw [shortOnlyLast_cons_read, shortOnlyLast_cons_write, shortOnlyLast_cons_read]
  exact ⟨fun _ => by decide, by simp, shortOnlyLast_nil⟩

/-- A read of two bytes returns the only one, and the next read of it is
refused. -/
theorem read_after_short_refused :
    StreamsOn "/srv/a" 0 false readingA ∧
      (readingA.readFile "/srv/a" 2 0).2 = some [97] ∧
        ((readingA.readFile "/srv/a" 2 0).1.readFile "/srv/a" 1 0).2 = none ∧
          ¬ ReadsExactly "/srv/a" [97] [.read readTwo, .read readOne]
            readingA := by
  refine ⟨streamsOn_readingA, by decide, by decide, ?_⟩
  intro exactly
  have second := exactly [.read readTwo] readOne [] rfl _ rfl
  exact absurd second (by decide)

end DistributedFilesystem
