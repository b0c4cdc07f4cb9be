import DistributedFilesystem.OpenEffects

/-!
# What reading, writing, closing and deleting do

One statement for each operation: what it does to the entries of its own path
when it returns true, and that it leaves the other paths alone.  Later proofs
use these and do not unfold the operations.
-/

namespace DistributedFilesystem

namespace Client

variable {σ : Type*} {remote : Remote σ} {answers : LocalAnswers} {path : Path}
variable {client client' : Client} {r r' : σ}

/-! ## `read_file` and `write_file` -/

theorem usableStreams_eq_some {streams : FileStreams} :
    client.usableStreams path = some streams ↔
      (client.cache path).isSome ∧ client.openedFiles path = some streams ∧
        path ∈ client.fileMutexes := by
  unfold usableStreams
  split
  · next notCached => simp [notCached]
  · next info cached =>
      split
      · next closed => simp [closed]
      · next streams' opened =>
          split
          · next hasMutex => simp [cached, opened, hasMutex]
          · next noMutex => simp [noMutex]

/-- The effect of reading: only the streams of the path change, and only by
their fail bits. -/
theorem readFile_eq (client : Client) (path : Path) (size : Nat)
    (offset : Int) :
    (client.readFile path size offset).1 = client ∨
      (client.readFile path size offset).1 = client.setStreams path fun streams =>
        { streams with
          readStream := { streams.readStream with failed := true } } := by
  unfold readFile
  split
  · exact .inl rfl
  · split
    · exact .inr rfl
    · dsimp only
      split
      · exact .inr rfl
      · exact .inl rfl

/-- The effect of a write that returned true. -/
structure WriteResult (path : Path) (data : Bytes) (position : Int) (now : Int)
    (client client' : Client) : Prop where
  clientId : client'.clientId = client.clientId
  nonneg : 0 ≤ position
  wasCached : (client.cache path).isSome
  cache : ∃ timestamp, client'.cache =
    Function.update client.cache path (some ⟨true, timestamp⟩)
  openedFiles : client'.openedFiles = client.openedFiles
  fileMutexes : client'.fileMutexes = client.fileMutexes
  cachedAttr : ∀ other, other ≠ path →
    client'.cachedAttr other = client.cachedAttr other
  disk : ∃ streams, client.openedFiles path = some streams ∧
    client'.disk = client.disk.writeAt streams.writeStream.node
      position.toNat data now

theorem writeResult_of_writeFile {data : Bytes} {position : Int}
    (writes : client.writeFile answers path data position = (client', true)) :
    WriteResult path data position answers.now client client' := by
  unfold writeFile at writes
  dsimp only at writes
  split at writes
  · simp at writes
  next readStream stream usable =>
  obtain ⟨cached, opened, -⟩ := usableStreams_eq_some.mp usable
  split at writes
  · simp at writes
  next good =>
  split at writes
  · simp at writes
  obtain ⟨rfl, -⟩ := Prod.mk.inj writes
  push Not at good
  refine ⟨rfl, good.2.2, cached, ⟨_, rfl⟩, rfl, rfl, fun other apart => ?_,
    ⟨_, opened, rfl⟩⟩
  simp [syncWrite, updateAttr, markModified, enterCache, apart]

/-- A write to the file at the path spares the other paths. -/
theorem sameElsewhere_of_writeResult {data : Bytes} {position now : Int}
    {streams : FileStreams}
    (result : WriteResult path data position now client client')
    (isOpen : client.openedFiles path = some streams)
    (refers : client.disk.node path = some streams.writeStream.node) :
    SameElsewhere path client client' := by
  obtain ⟨timestamp, cache⟩ := result.cache
  obtain ⟨streams', isOpen', disk⟩ := result.disk
  obtain rfl := Option.some.inj (isOpen.symm.trans isOpen')
  constructor
  · exact result.clientId
  · intro other apart
    simp [cache, apart]
  · intro other _
    rw [result.openedFiles]
  · intro other _
    rw [result.fileMutexes]
  · exact result.cachedAttr
  · intro other _
    rw [disk, FileStore.node_writeAt]
  · intro other apart
    rw [disk, FileStore.read_writeAt_ne _ _ refers apart]

/-- A write that returned false, while the local file works, changes at most a
fail bit. -/
theorem writeFile_eq_false {data : Bytes} {position : Int}
    (works : answers.write = none)
    (fails : client.writeFile answers path data position = (client', false)) :
    client' = client ∨ client' = client.setStreams path fun streams =>
      { streams with
        writeStream := { streams.writeStream with failed := false } } := by
  unfold writeFile at fails
  dsimp only at fails
  split at fails
  · exact .inl (Prod.mk.inj fails).1.symm
  split at fails
  · exact .inr (Prod.mk.inj fails).1.symm
  · simp [works] at fails

/-! ## `create_file` -/

theorem sameElsewhere_finishCreate :
    SameElsewhere path client (client.finishCreate answers path).1 := by
  unfold finishCreate
  split
  · exact sameElsewhere_eraseCache
  · next streams _ =>
      have opened : SameElsewhere path client
          (client.insertOpened path streams) :=
        sameElsewhere_insertOpened streams
      dsimp only
      split
      · exact ⟨opened.clientId, opened.cache, opened.openedFiles,
          opened.fileMutexes, fun other apart => by
            simp [insertOpened, apart], opened.node, opened.read⟩
      · exact opened

/-- The effect of a `create_file` that returned true. -/
structure CreateResult (path : Path) (client client' : Client) : Prop where
  elsewhere : SameElsewhere path client client'
  cache : client'.cache path = some ⟨true, 0⟩

theorem createResult_of_createFile
    (creates : client.createFile answers path = (client', true)) :
    CreateResult path client client' := by
  unfold createFile at creates
  split at creates
  · next begun begins =>
      unfold beginCreate at begins
      split_ifs at begins
      obtain rfl := Option.some.inj begins
      have created : SameElsewhere path client
          { client with disk := client.disk.openTruncated path answers.now } :=
        sameElsewhere_disk (fun _ apart => FileStore.node_openTruncated_ne apart)
          (fun _ apart => FileStore.read_openTruncated_ne apart)
      have entered := created.trans (sameElsewhere_enterCache ⟨true, 0⟩)
      have finished : SameElsewhere path client client' := by
        have eq : _ = client' := congrArg Prod.fst creates
        rw [← eq]
        exact entered.trans sameElsewhere_finishCreate
      refine ⟨finished, ?_⟩
      unfold finishCreate at creates
      split at creates
      · simp at creates
      · dsimp only at creates
        split at creates
        · obtain ⟨rfl, -⟩ := Prod.mk.inj creates
          simp [insertOpened, enterCache]
        · simp at creates
  · simp at creates

/-! ## `close_file` -/

theorem flatten_chunkLoop {fuel : Nat} {rest : Bytes} (sent : Bool)
    (enough : rest.length ≤ fuel) :
    (chunkLoop (fuel + 1) rest sent).flatten = rest := by
  induction fuel generalizing rest sent with
  | zero =>
      obtain rfl : rest = [] := List.length_eq_zero_iff.mp (by omega)
      cases sent <;> rfl
  | succ fuel ih =>
      unfold chunkLoop
      split
      · next empty =>
          obtain rfl : rest = [] := List.length_eq_zero_iff.mp empty
          cases sent <;> rfl
      · have positive := chunkSize_pos
        have shorter : (rest.drop chunkSize).length ≤ fuel := by
          simp only [List.length_drop]
          omega
        rw [List.flatten_cons, ih true shorter, List.take_append_drop]

theorem chunkLoop_ne_nil {fuel : Nat} (rest : Bytes) :
    chunkLoop (fuel + 1) rest false ≠ [] := by
  unfold chunkLoop
  split <;> simp

/-- The requests of an upload attempt carry the whole file, and there is at
least one of them. -/
theorem contents_uploadRequests (contents : Bytes) :
    ((client.uploadRequests path contents).map FileRequest.content).flatten =
      contents := by
  simp [uploadRequests, Function.comp_def,
    flatten_chunkLoop false (Nat.le_refl contents.length)]

theorem uploadRequests_ne_nil (client : Client) (path : Path)
    (contents : Bytes) :
    client.uploadRequests path contents ≠ [] := by
  simpa [uploadRequests] using chunkLoop_ne_nil contents

theorem of_mem_uploadRequests {contents : Bytes} {request : FileRequest}
    (member : request ∈ client.uploadRequests path contents) :
    request.path = path ∧ request.clientId = client.clientId := by
  obtain ⟨chunk, -, rfl⟩ := List.mem_map.mp member
  exact ⟨rfl, rfl⟩

/-- The effect of a close that returned true; `upload` says what it sent last,
if the file was modified. -/
structure CloseResult (path : Path) (client client' : Client) : Prop where
  elsewhere : SameElsewhere path client client'
  disk : client'.disk = client.disk
  cache : ∃ info, client.cache path = some info ∧
    (info.locallyModified = false ∧ client'.cache = client.cache ∨
      info.locallyModified = true ∧
        ∃ timestamp, client'.cache path = some ⟨false, timestamp⟩)
  wasOpen : (client.openedFiles path).isSome
  openedFiles : client'.openedFiles path = none
  fileMutexes : path ∉ client'.fileMutexes

theorem sameElsewhere_finishUpload (timestamp : Int) :
    SameElsewhere path client (client.finishUpload path timestamp) :=
  ((sameElsewhere_markClean _).trans
    (sameElsewhere_updateAttr _)).trans sameElsewhere_eraseOpened

/-- The requests of an upload carry the local file, whose streams are then
closed. -/
theorem beginUpload_eq_some {streams : FileStreams}
    {requests : List FileRequest}
    (begins : client.beginUpload answers path streams =
      (client', some requests)) :
    ∃ contents, client.disk.read path = some contents ∧
      requests = client.uploadRequests path contents ∧
      client' = client.setStreams path fun streams =>
        ⟨streams.readStream.close, streams.writeStream.close⟩ := by
  unfold beginUpload at begins
  dsimp only at begins
  split at begins
  · simp at begins
  split at begins
  · next contents _ read =>
      obtain ⟨rfl, requestsEq⟩ := Prod.mk.inj begins
      exact ⟨contents, read, (Option.some.inj requestsEq).symm, rfl⟩
  · simp at begins

/-- Before the call, the branch of `close_file` for a modified file changes the
streams at most. -/
theorem beginUpload_client (answers : LocalAnswers) (path : Path)
    (client : Client) (streams : FileStreams) :
    ∃ change : FileStreams → FileStreams,
      (∀ streams, (change streams).writeStream.node =
        streams.writeStream.node) ∧
      (client.beginUpload answers path streams).1 =
        client.setStreams path change := by
  unfold beginUpload
  dsimp only
  split
  · refine ⟨_, ?_, rfl⟩
    exact fun _ => rfl
  have keeps : ∀ streams : FileStreams,
      streams.writeStream.close.node = streams.writeStream.node := by
    intro streams
    simp only [FileStream.close]
    split <;> rfl
  split
  · exact ⟨_, keeps, rfl⟩
  · exact ⟨_, keeps, rfl⟩

/-- When `close_file` returned true for a modified file, the last upload
attempt carried the local file and was answered with OK; `invariant` is
anything that failed calls preserve. -/
theorem upload_of_closeModified {streams : FileStreams} (invariant : σ → Prop)
    (keeps : ∀ r contents, invariant r →
      (remote.closeCall r (client.uploadRequests path contents)).2.2.isOk = false →
      invariant (remote.closeCall r (client.uploadRequests path contents)).1)
    (initially : invariant r)
    (closes : client.closeModified remote answers path streams r =
      ((client', r'), true)) :
    ∃ before contents response status, invariant before ∧
      client.disk.read path = some contents ∧
      remote.closeCall before (client.uploadRequests path contents) =
        (r', response, status) ∧
      status.isOk ∧
      client' = (client.setStreams path fun streams =>
        ⟨streams.readStream.close, streams.writeStream.close⟩).finishUpload path
          response.timestamp := by
  unfold closeModified at closes
  cases begins : client.beginUpload answers path streams with
  | mk flushed result =>
      simp only [begins] at closes
      cases result with
      | none => simp at closes
      | some requests =>
          obtain ⟨contents, read, rfl, rfl⟩ := beginUpload_eq_some begins
          dsimp only at closes
          split at closes
          · next r' response final result =>
              split at closes
              · next ok =>
                  simp only [Prod.mk.injEq, and_true] at closes
                  obtain ⟨rfl, rfl⟩ := closes
                  obtain ⟨left, ⟨before, old⟩, kept, last⟩ :=
                    exists_attempt_of_retry
                      (fun state : σ × FileResponse => invariant state.1)
                      (fun left state kept notOk =>
                        keeps state.1 contents kept (notOk _ rfl))
                      initially rfl result ok
                  simp only [uploadAttempt, Prod.mk.injEq, Option.some.injEq]
                    at last
                  obtain ⟨⟨rfl, rfl⟩, rfl⟩ := last
                  exact ⟨before, contents, _, _, kept, read, rfl, ok, rfl⟩
              · simp at closes
          · simp at closes

/-- What `close_file` did when it returned true. -/
theorem closeFile_eq_true (invariant : σ → Prop)
    (keeps : ∀ r contents, invariant r →
      (remote.closeCall r (client.uploadRequests path contents)).2.2.isOk = false →
      invariant (remote.closeCall r (client.uploadRequests path contents)).1)
    (initially : invariant r)
    (closes : client.closeFile remote answers path r = ((client', r'), true)) :
    CloseResult path client client' ∧
      ∃ info, client.cache path = some info ∧
        (info.locallyModified = false ∧ r' = r ∨
          info.locallyModified = true ∧
            ∃ before contents response status, invariant before ∧
              client.disk.read path = some contents ∧
              remote.closeCall before (client.uploadRequests path contents) =
                (r', response, status) ∧
              status.isOk) := by
  unfold closeFile at closes
  split at closes
  · simp at closes
  next streams opened =>
  split at closes
  · simp at closes
  split at closes
  · simp at closes
  next info cached =>
  split at closes
  · next modified =>
      obtain ⟨before, contents, response, status, kept, read, call, ok, rfl⟩ :=
        upload_of_closeModified invariant keeps initially closes
      refine ⟨⟨(sameElsewhere_setStreams _).trans
          (sameElsewhere_finishUpload _), rfl,
        ⟨info, cached, .inr ⟨modified, response.timestamp, ?_⟩⟩,
        by simp [opened], by simp [finishUpload, eraseOpened],
        by simp [finishUpload, eraseOpened]⟩,
        info, cached, .inr ⟨modified, before, contents, response, status, kept,
          read, call, ok⟩⟩
      simp [finishUpload, eraseOpened, syncUpload, updateAttr, markClean,
        setStreams, cached]
  · next unmodified =>
      simp only [Prod.mk.injEq, and_true] at closes
      obtain ⟨rfl, rfl⟩ := closes
      have clean : info.locallyModified = false := by simpa using unmodified
      exact ⟨⟨sameElsewhere_eraseOpened, rfl,
        ⟨info, cached, .inl ⟨clean, rfl⟩⟩, by simp [opened],
        by simp [eraseOpened], by simp [eraseOpened]⟩,
        info, cached, .inl ⟨clean, rfl⟩⟩

/-! ## `delete_file` -/

/-- The effect of `delete_file` on the client. -/
structure DeleteResult (path : Path) (client client' : Client) : Prop where
  elsewhere : SameElsewhere path client client'
  cache : client'.cache path = none
  openedFiles : client'.openedFiles path = none
  fileMutexes : path ∉ client'.fileMutexes

theorem deleteResult_beginDelete (path : Path) (client : Client) :
    DeleteResult path client (client.beginDelete path) where
  elsewhere :=
    (sameElsewhere_eraseOpened.trans sameElsewhere_eraseCache).trans
      sameElsewhere_eraseAttr
  cache := by simp [beginDelete, eraseOpened, eraseCache, eraseAttr]
  openedFiles := by simp [beginDelete, eraseOpened, eraseCache, eraseAttr]
  fileMutexes := by simp [beginDelete, eraseOpened, eraseCache, eraseAttr]

theorem deleteFile_eq (remote : Remote σ) (path : Path) (client : Client)
    (r : σ) :
    ∃ client' status,
      client.deleteFile remote path r =
        ((client', (remote.unlinkCall r path client.clientId).1), status) ∧
      DeleteResult path client client' := by
  have begun := deleteResult_beginDelete path client
  unfold deleteFile
  dsimp only
  split
  · exact ⟨_, _, rfl, begun.elsewhere.trans (sameElsewhere_remove _ _),
      begun.cache, begun.openedFiles, begun.fileMutexes⟩
  · exact ⟨_, _, rfl, begun⟩

end Client

end DistributedFilesystem
