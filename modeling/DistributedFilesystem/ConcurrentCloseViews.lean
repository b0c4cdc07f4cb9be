import DistributedFilesystem.ConcurrentClose
import DistributedFilesystem.DirectCalls

/-!
# What a write and a close leave to do

The calls that write or close one file, as threads: what each of them can see of
the file, which instructions can be left of it, and how its actions change what
is seen.
-/

namespace DistributedFilesystem

open LockedThreads

variable {ι : Type*}

/-- What the calls for one file can see of the client and the server. -/
def SharedClient.raceView (s : SharedClient Server) (path : Path) (node : Nat) :
    RaceView where
  stale := s.stale
  node := s.client.disk.node path
  contents := (s.client.disk.nodes node).contents
  written := s.written
  modified := (s.client.cache path).map FileInfo.locallyModified
  writeNode := (s.client.openedFiles path).map fun streams =>
    streams.writeStream.node
  mutex := if path ∈ s.client.fileMutexes then some (s.mutexOf path) else none
  entry := s.entryOf path
  streams := s.streamsOf path
  stored := s.remote.disk.read path

/-- The variables of each call. -/
def Calls.locals {σ : Type*} (σ' : Calls ι σ) (i : ι) : CallLocals :=
  (σ'.threads i).locals

/-- The actions that each call has yet to run. -/
def Calls.pending {σ : Type*} (σ' : Calls ι σ) (i : ι) (a : CallAction) : Prop :=
  .act a ∈ (σ'.threads i).code

section Shapes

variable (path : Path) (mutex : Nat)

/-- The end of `close_file`. -/
def closing (action : CallAction) : CallCode :=
  [.lock .cacheMutex, .act action, .unlock (.fileMutex mutex),
    .unlock .cacheMutex]

/-- The end of a `write_file` that succeeded. -/
def marking : CallCode :=
  underCacheMutex (.markModified path) ++ underCacheMutex (.syncWrite path) ++
    [.unlock (.fileMutex mutex)]

/-- What is left of a `write_file` call. -/
def WriterCode (data : Bytes) (position : Int) (code : CallCode) : Prop :=
  code <:+ ClientCall.program (.writeFile path data position) ∨
    code <:+ [.unlock .cacheMutex, .lock (.fileMutex mutex),
      .act (.writeStream path data position mutex)] ∨
    code <:+ marking path mutex ∨ code <:+ [.unlock .cacheMutex] ∨
    code <:+ [.unlock (.fileMutex mutex)]

/-- What is left of a `close_file` call. -/
def CloserCode (code : CallCode) : Prop :=
  code <:+ ClientCall.program (.closeFile path) ∨
    code <:+ [.unlock .cacheMutex, .lock (.fileMutex mutex),
      .act (.flushStreams path mutex)] ∨
    (∃ left, code <:+ [.act (.upload path left mutex)]) ∨
    code <:+ closing mutex (.eraseOpened path) ∨
    code <:+ closing mutex (.finishUpload path) ∨
    code <:+ [.unlock (.fileMutex mutex)]

variable {path mutex} {data : Bytes} {position : Int} {code rest : CallCode}
variable {instr : Instr ClientLock CallAction} {a : CallAction}

theorem WriterCode.tail (shape : WriterCode path mutex data position (instr :: rest)) :
    WriterCode path mutex data position rest := by
  have shorter : rest <:+ instr :: rest := List.suffix_cons instr rest
  rcases shape with shape | shape | shape | shape | shape
  · exact .inl (shorter.trans shape)
  · exact .inr (.inl (shorter.trans shape))
  · exact .inr (.inr (.inl (shorter.trans shape)))
  · exact .inr (.inr (.inr (.inl (shorter.trans shape))))
  · exact .inr (.inr (.inr (.inr (shorter.trans shape))))

theorem CloserCode.tail (shape : CloserCode path mutex (instr :: rest)) :
    CloserCode path mutex rest := by
  have shorter : rest <:+ instr :: rest := List.suffix_cons instr rest
  rcases shape with shape | shape | shape | shape | shape | shape
  · exact .inl (shorter.trans shape)
  · exact .inr (.inl (shorter.trans shape))
  · obtain ⟨left, shape⟩ := shape
    exact .inr (.inr (.inl ⟨left, shorter.trans shape⟩))
  · exact .inr (.inr (.inr (.inl (shorter.trans shape))))
  · exact .inr (.inr (.inr (.inr (.inl (shorter.trans shape)))))
  · exact .inr (.inr (.inr (.inr (.inr (shorter.trans shape)))))

/-- The actions of `write_file`, and what follows them. -/
theorem WriterCode.cases_act
    (shape : WriterCode path mutex data position (.act a :: rest)) :
    a = .findWrite path data position ∧ rest = [] ∨
      a = .writeStream path data position mutex ∧ rest = [] ∨
      a = .markModified path ∧ rest = .unlock .cacheMutex ::
        (underCacheMutex (.syncWrite path) ++ [.unlock (.fileMutex mutex)]) ∨
      a = .syncWrite path ∧
        rest = [.unlock .cacheMutex, .unlock (.fileMutex mutex)] := by
  simpa [WriterCode, ClientCall.program, marking, underCacheMutex,
    List.suffix_cons_iff] using shape

/-- The actions of `close_file`, and what follows them. -/
theorem CloserCode.cases_act (shape : CloserCode path mutex (.act a :: rest)) :
    a = .decideFlush path ∧ rest = [] ∨
      a = .flushStreams path mutex ∧ rest = [] ∨
      (∃ left, a = .upload path left mutex ∧ rest = []) ∨
      a = .eraseOpened path ∧
        rest = [.unlock (.fileMutex mutex), .unlock .cacheMutex] ∨
      a = .finishUpload path ∧
        rest = [.unlock (.fileMutex mutex), .unlock .cacheMutex] := by
  simpa [CloserCode, ClientCall.program, closing, List.suffix_cons_iff]
    using shape

/-- The end of `close_file` releases the mutex of the file, without requesting
it. -/
theorem mem_of_suffix_closing (suffix : code <:+ closing mutex a)
    (member : .act a ∈ code) :
    .unlock (.fileMutex mutex) ∈ code ∧ .lock (.fileMutex mutex) ∉ code := by
  simp only [closing, List.suffix_cons_iff, List.suffix_nil] at suffix
  rcases suffix with rfl | rfl | rfl | rfl | rfl <;> simp at member ⊢

theorem CloserCode.releases (shape : CloserCode path mutex code)
    (member : .act (.finishUpload path) ∈ code) :
    .unlock (.fileMutex mutex) ∈ code ∧ .lock (.fileMutex mutex) ∉ code := by
  rcases shape with shape | shape | ⟨left, shape⟩ | shape | shape | shape
  case inr.inr.inr.inr.inl => exact mem_of_suffix_closing shape member
  all_goals
    have inside := shape.subset member
    simp [ClientCall.program, closing] at inside

/-- A call that is about to mark the file releases its mutex, without requesting
it. -/
theorem WriterCode.releases (shape : WriterCode path mutex data position code)
    (member : .act (.markModified path) ∈ code) :
    .unlock (.fileMutex mutex) ∈ code ∧ .lock (.fileMutex mutex) ∉ code := by
  rcases shape with shape | shape | shape | shape | shape
  case inr.inr.inl =>
    simp only [marking, underCacheMutex, List.cons_append, List.nil_append,
      List.suffix_cons_iff, List.suffix_nil] at shape
    rcases shape with rfl | rfl | rfl | rfl | rfl | rfl | rfl | rfl <;>
      simp at member ⊢
  all_goals
    have inside := shape.subset member
    simp [ClientCall.program] at inside

end Shapes

section Views

variable {s : SharedClient Server} {path : Path} {node : Nat}
variable {streams : FileStreams}

/-- Flags of the streams are not seen by other calls. -/
theorem raceView_setStreams (s : SharedClient Server) (path : Path)
    (node : Nat) (change : FileStreams → FileStreams)
    (keeps : ∀ streams, (change streams).writeStream.node =
      streams.writeStream.node) :
    ({ s with client := s.client.setStreams path change } :
      SharedClient Server).raceView path node = s.raceView path node := by
  ext1
  case writeNode =>
    simp only [SharedClient.raceView, Client.setStreams, Function.update_self,
      Option.map_map]
    congr 1
    funext streams
    exact keeps streams
  all_goals rfl

/-- Bytes that reach the file are recorded. -/
theorem raceView_writeAt (position : Int) (bytes : Bytes) (now : Int)
    (written : Nat × Nat × Bytes) :
    ({ s with
        client := { s.client with
          disk := s.client.disk.writeAt node position.toNat bytes now }
        written := s.written ++ [written] } :
      SharedClient Server).raceView path node =
        { s.raceView path node with
          contents := ByteContents.overlay (s.client.disk.nodes node).contents
            position.toNat bytes
          written := s.written ++ [written] } := by
  ext1
  case node => simp [SharedClient.raceView]
  case contents => simp [SharedClient.raceView, FileStore.contents_writeAt_self]
  all_goals rfl

/-- What `write_file` does to the file, as others see it. -/
theorem exists_raceView_writeStreams (answers : LocalAnswers) (data : Bytes)
    (position : Int)
    (opened : s.client.openedFiles path = some streams)
    (isNode : streams.writeStream.node = node) :
    ∃ (s' : SharedClient Server) (change : Option Bytes) (wrote : Bool),
      writeStreams s answers path data position true = (s', wrote) ∧
      s'.raceView path node = { s.raceView path node with
        contents := change.elim (s.client.disk.nodes node).contents
          (ByteContents.overlay (s.client.disk.nodes node).contents
            position.toNat)
        written := s.written ++
          (change.map fun bytes => (node, position.toNat, bytes)).toList } ∧
      (wrote = true → change = some data) := by
  subst isNode
  simp only [writeStreams, if_true, Client.writeStream, opened]
  split
  · refine ⟨_, none, false, rfl, ?_, by simp⟩
    simp only [Option.map_none, Option.toList_none, List.append_nil]
    exact raceView_setStreams s path _ _ fun _ => rfl
  · cases answers.write with
    | some amount =>
        refine ⟨_, some (data.take amount), false, rfl, ?_, by simp⟩
        let stored : SharedClient Server := { s with
          client := { s.client with
            disk := s.client.disk.writeAt streams.writeStream.node
              position.toNat (data.take amount) answers.now }
          written := s.written ++
            [(streams.writeStream.node, position.toNat, data.take amount)] }
        have flags := raceView_setStreams stored path
          streams.writeStream.node (fun streams => { streams with
            writeStream := { streams.writeStream with failed := true } })
          fun _ => rfl
        exact flags.trans (raceView_writeAt position (data.take amount)
          answers.now _)
    | none =>
        refine ⟨_, some data, true, rfl, ?_, by simp⟩
        exact raceView_writeAt position data answers.now _

/-- Before its call, `close_file` only changes flags of the streams. -/
theorem exists_setStreams_beginUpload (client : Client) (answers : LocalAnswers)
    (path : Path) (streams : FileStreams) :
    ∃ change : FileStreams → FileStreams,
      (∀ streams, (change streams).writeStream.node = streams.writeStream.node) ∧
      (client.beginUpload answers path streams).1 =
        client.setStreams path change := by
  unfold Client.beginUpload
  split
  · exact ⟨fun streams => { streams with
      writeStream := { streams.writeStream with failed := true } },
      fun _ => rfl, rfl⟩
  · have keepsNode : ∀ stream : FileStream, stream.close.node = stream.node := by
      intro stream
      unfold FileStream.close
      split <;> rfl
    refine ⟨fun streams =>
      ⟨streams.readStream.close, streams.writeStream.close⟩,
      fun streams => keepsNode streams.writeStream, ?_⟩
    dsimp only
    split <;> rfl

/-- Flushing changes nothing that others see, and finds the local copy. -/
theorem exists_raceView_flushStreams (answers : LocalAnswers) (node : Nat)
    (opened : s.client.openedFiles path = some streams) :
    ∃ (s' : SharedClient Server) (found : Option Nat),
      flushStreams s answers path true = (s', found) ∧
      s'.raceView path node = s.raceView path node ∧
      ∀ i, found = some i → s.client.disk.node path = some i := by
  obtain ⟨change, keeps, isChange⟩ :=
    exists_setStreams_beginUpload s.client answers path streams
  have sameView := raceView_setStreams s path node change keeps
  simp only [flushStreams, if_true, opened]
  cases begun : s.client.beginUpload answers path streams with
  | mk client requests =>
      rw [begun] at isChange
      obtain rfl : client = s.client.setStreams path change := isChange
      cases requests with
      | none => exact ⟨_, none, rfl, sameView, by simp⟩
      | some requests => exact ⟨_, _, rfl, sameView, fun _ found => found⟩

theorem raceView_markModified (s : SharedClient Server) (path : Path)
    (node : Nat) :
    ({ s with client := s.client.markModified path } :
      SharedClient Server).raceView path node =
        { s.raceView path node with modified := some true } := by
  ext1
  case modified => simp [SharedClient.raceView, Client.markModified, Client.enterCache]
  all_goals rfl

theorem raceView_eraseOpened (s : SharedClient Server) (path : Path)
    (node : Nat) :
    (s.erasing path (s.client.eraseOpened path)).raceView path node =
      { s.raceView path node with
        writeNode := none
        mutex := none
        entry := s.entryOf path + 1
        streams := s.streamsOf path + 1 } := by
  ext1
  case writeNode => simp [SharedClient.raceView, SharedClient.erasing, Client.eraseOpened]
  case mutex => simp [SharedClient.raceView, SharedClient.erasing, Client.eraseOpened]
  case entry => simp [SharedClient.raceView, SharedClient.erasing]
  case streams => simp [SharedClient.raceView, SharedClient.erasing]
  all_goals rfl

theorem raceView_finishUpload (cached : s.client.cache path ≠ none)
    (node : Nat) (timestamp : Int) :
    (s.erasing path (s.client.finishUpload path timestamp)).raceView path node =
      { s.raceView path node with
        modified := some false
        writeNode := none
        mutex := none
        entry := s.entryOf path + 1
        streams := s.streamsOf path + 1 } := by
  obtain ⟨info, isCached⟩ := Option.ne_none_iff_exists'.mp cached
  ext1
  case modified =>
    simp [SharedClient.raceView, SharedClient.erasing, Client.finishUpload,
      Client.eraseOpened, Client.syncUpload, Client.updateAttr, Client.markClean,
      isCached]
  case writeNode => simp [SharedClient.raceView, SharedClient.erasing,
    Client.finishUpload, Client.eraseOpened]
  case mutex => simp [SharedClient.raceView, SharedClient.erasing,
    Client.finishUpload, Client.eraseOpened]
  case entry => simp [SharedClient.raceView, SharedClient.erasing]
  case streams => simp [SharedClient.raceView, SharedClient.erasing]
  all_goals rfl

end Views

end DistributedFilesystem
