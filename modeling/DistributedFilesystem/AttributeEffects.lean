import DistributedFilesystem.ClientEffects

/-!
# What the operations do to the attributes

One statement for each operation: what becomes of the entry of `cachedAttr` for
its path.  An attempt of `open_file` that stores what it read refreshes the
entry whatever its status, so the entry depends on the last such attempt.
-/

namespace DistributedFilesystem

namespace Client

variable {σ : Type*} {remote : Remote σ} {answers : LocalAnswers} {path : Path}
variable {client client' : Client} {r r' : σ} {left : Nat}

/-! ## `open_file` -/

/-- The attributes of a file that was stored from these responses. -/
def downloadAttr (responses : List FileResponse) : FileAttributes where
  size := (downloaded responses).length
  atime := lastTimestamp responses
  mtime := lastTimestamp responses
  ctime := lastTimestamp responses

/-- The local file for an attempt can be created and written. -/
def Stores (answers : LocalAnswers) (left : Nat) : Prop :=
  answers.create left = true ∧ answers.download left = none

instance : Decidable (Stores answers left) :=
  inferInstanceAs (Decidable (_ ∧ _))

/-- The answer that the loop of `open_file` stores last, if any: the loop ends
at the first answer that is OK or cannot be stored. -/
def lastStored (remote : Remote σ) (answers : LocalAnswers)
    (request : FileRequest) : Nat → σ → Option (List FileResponse × Status)
  | 0, _ => none
  | left + 1, r =>
      let (r, responses, status) := remote.openCall r request
      if Stores answers left then
        if status.isOk then some (responses, status)
        else (lastStored remote answers request left r).or
          (some (responses, status))
      else none

/-- What becomes of attributes by a loop that stored this last. -/
def refreshed (stored : Option (List FileResponse × Status))
    (attr : FileAttributes) : FileAttributes :=
  (stored.map fun answer => downloadAttr answer.1).getD attr

theorem refreshed_or (later : Option (List FileResponse × Status))
    (first : List FileResponse × Status) (attr : FileAttributes) :
    refreshed (later.or (some first)) attr =
      refreshed later (downloadAttr first.1) := by
  cases later with
  | none => rfl
  | some answer => rfl

theorem updateAttr_id (path : Path) (client : Client) :
    client.updateAttr path id = client := by
  simp [updateAttr]

theorem cachedAttr_updateAttr_twice (path : Path)
    (change later : FileAttributes → FileAttributes)
    (changed : client'.cachedAttr = (client.updateAttr path change).cachedAttr) :
    (client'.updateAttr path later).cachedAttr =
      (client.updateAttr path (later ∘ change)).cachedAttr := by
  simp [updateAttr, changed]

theorem storeDownload_of_stores (path : Path) (stores : Stores answers left)
    (responses : List FileResponse) (status : Status) (client : Client) :
    ∃ client', client.storeDownload answers path left responses status =
        (client', some status) ∧
      client'.clientId = client.clientId ∧
      client'.disk.read path = some (downloaded responses) ∧
      client'.cachedAttr =
        (client.updateAttr path fun _ => downloadAttr responses).cachedAttr := by
  obtain ⟨creates, writes⟩ := stores
  have read : (client.disk.replace path [downloaded responses]
      answers.now).read path = some (downloaded responses) := by
    simp [FileStore.read_replace]
  simp only [storeDownload, creates, writes]
  refine ⟨_, rfl, ?_, ?_, ?_⟩
  · split <;> rfl
  · split <;> exact read
  · split <;>
    · simp [syncDownload, updateAttr, enterCache, fileSize, read,
        downloadAttr]

theorem storeDownload_of_not_stores (path : Path)
    (fails : ¬ Stores answers left)
    (responses : List FileResponse) (status : Status) (client : Client) :
    ∃ client', client.storeDownload answers path left responses status =
        (client', none) ∧
      client'.cachedAttr = client.cachedAttr := by
  unfold storeDownload
  dsimp only
  split
  · exact ⟨client, rfl, rfl⟩
  · next creates =>
      split
      · exact ⟨_, rfl, rfl⟩
      · next writes =>
          exact (fails ⟨by simpa using creates, writes⟩).elim

/-- What the retry loop of `open_file` leaves. -/
structure AfterAttempts (stored : Option (List FileResponse × Status))
    (path : Path) (client client' : Client) (final : Option Status) : Prop where
  cachedAttr : client'.cachedAttr =
    (client.updateAttr path (refreshed stored)).cachedAttr
  ok : ∀ status, final = some status → status.isOk → ∃ responses,
    stored = some (responses, status) ∧
      client'.disk.read path = some (downloaded responses)
  ends : ∀ responses status, stored = some (responses, status) → status.isOk →
    final = some status

section Attempts

variable {responses : List FileResponse} {code : Status}

/-- Nothing is stored: there is no attempt left, or the next one fails at a
local operation. -/
theorem afterAttempts_of_nothing {final : Option Status}
    (same : client'.cachedAttr = client.cachedAttr)
    (notOk : ∀ status, final = some status → status.isOk = false) :
    AfterAttempts none path client client' final where
  cachedAttr := by
    have unchanged : refreshed none = id := rfl
    rw [same, unchanged, updateAttr_id]
  ok := by
    intro status isFinal ok
    simp [notOk status isFinal] at ok
  ends := by simp

/-- The attempt is stored and answered with OK, which ends the loop. -/
theorem afterAttempts_of_ok
    (read : client'.disk.read path = some (downloaded responses))
    (attributes : client'.cachedAttr =
      (client.updateAttr path fun _ => downloadAttr responses).cachedAttr) :
    AfterAttempts (some (responses, code)) path client client' (some code) where
  cachedAttr := attributes
  ok := by
    intro status isFinal _
    obtain rfl := Option.some.inj isFinal
    exact ⟨responses, rfl, read⟩
  ends := by
    intro responses' status isStored _
    obtain ⟨-, rfl⟩ := Prod.mk.inj (Option.some.inj isStored)
    rfl

/-- The attempt is stored and not answered with OK, and the loop goes on. -/
theorem afterAttempts_of_later {between : Client} {final : Option Status}
    {stored : Option (List FileResponse × Status)}
    (notOk : code.isOk = false)
    (attributes : between.cachedAttr =
      (client.updateAttr path fun _ => downloadAttr responses).cachedAttr)
    (later : AfterAttempts stored path between client' final) :
    AfterAttempts (stored.or (some (responses, code))) path client client'
      final where
  cachedAttr := by
    rw [later.cachedAttr, cachedAttr_updateAttr_twice path _ _ attributes]
    congr 2
    funext before
    rw [Function.comp_apply, refreshed_or]
  ok := by
    intro status isFinal ok
    obtain ⟨last, isLast, read⟩ := later.ok status isFinal ok
    exact ⟨last, by simp [isLast], read⟩
  ends := by
    intro last status isLast ok
    rcases Option.or_eq_some_iff.mp isLast with isLast | ⟨-, isFirst⟩
    · exact later.ends last status isLast ok
    · obtain ⟨-, rfl⟩ := Prod.mk.inj (Option.some.inj isFirst)
      simp [notOk] at ok

end Attempts

theorem afterAttempts_retry (remote : Remote σ) (answers : LocalAnswers)
    (path : Path) (left : Nat) (status : Status) (client : Client) (r : σ)
    (notYet : status.isOk = false) :
    AfterAttempts (lastStored remote answers ⟨path, client.clientId, []⟩ left r)
      path client
      (retry (downloadAttempt remote answers path) left status (client, r)).1.1
      (retry (downloadAttempt remote answers path) left status
        (client, r)).2 := by
  induction left generalizing status client r with
  | zero =>
      apply afterAttempts_of_nothing rfl
      rintro _ ⟨⟩
      exact notYet
  | succ left ih =>
      rw [retry, if_neg (by simp [notYet]), lastStored, downloadAttempt]
      cases call : remote.openCall r ⟨path, client.clientId, []⟩ with
      | mk r' answer =>
          obtain ⟨responses, code⟩ := answer
          dsimp only
          by_cases stores : Stores answers left
          · obtain ⟨client', stored, sameId, read, attributes⟩ :=
              storeDownload_of_stores path stores responses code client
            rw [stored, if_pos stores]
            dsimp only
            cases isOk : code.isOk with
            | true =>
                rw [retry_of_ok isOk, if_pos rfl]
                exact afterAttempts_of_ok read attributes
            | false =>
                have later := ih code client' r' isOk
                rw [sameId] at later
                rw [if_neg (by simp)]
                exact afterAttempts_of_later isOk attributes later
          · obtain ⟨client', failed, same⟩ :=
              storeDownload_of_not_stores path stores responses code client
            rw [failed, if_neg stores]
            apply afterAttempts_of_nothing same
            simp

/-- What `open_file` stores last, if it gets to store anything. -/
def storedByOpen (remote : Remote σ) (answers : LocalAnswers) (path : Path)
    (client : Client) (r : σ) : Option (List FileResponse × Status) :=
  match client.cache path with
  | some _ => none
  | none =>
      if answers.directories then
        lastStored remote answers ⟨path, client.clientId, []⟩ maxTries r
      else none

theorem sameElsewhere_openFile (remote : Remote σ) (answers : LocalAnswers)
    (path : Path) (client : Client) (r : σ) :
    SameElsewhere path client (client.openFile remote answers path r).1.1 := by
  unfold openFile
  cases cached : client.cache path with
  | none =>
      dsimp only
      cases opens : client.openUncached remote answers path r with
      | mk state opened =>
          cases opened with
          | false => exact (noCopy_of_openUncached cached opens).elsewhere
          | true =>
              obtain ⟨_, _, _, -, -, -, copy⟩ := freshCopy_of_openUncached
                (fun _ => True) (fun _ _ => trivial) trivial opens
              exact copy.elsewhere
  | some info =>
      dsimp only
      unfold openCached
      split
      · exact .refl path client
      · split
        · exact sameElsewhere_insertOpened _
        · exact .refl path client

theorem cachedAttr_openCached :
    (client.openCached answers path).1.cachedAttr = client.cachedAttr := by
  unfold openCached
  split
  · rfl
  · split <;> rfl

theorem cachedAttr_openFile (remote : Remote σ) (answers : LocalAnswers)
    (path : Path) (client : Client) (r : σ) :
    (client.openFile remote answers path r).1.1.cachedAttr =
      (client.updateAttr path (refreshed
        (client.storedByOpen remote answers path r))).cachedAttr := by
  have unchanged : refreshed none = id := rfl
  have notYet : Status.initial.isOk = false := rfl
  have after := afterAttempts_retry remote answers path maxTries .initial client r
    notYet
  unfold openFile storedByOpen
  cases client.cache path with
  | some info =>
      dsimp only
      rw [unchanged, updateAttr_id]
      exact cachedAttr_openCached
  | none =>
      dsimp only
      unfold openUncached
      cases answers.directories with
      | false =>
          simp only [if_true, Bool.false_eq_true, if_false]
          rw [unchanged, updateAttr_id]
      | true =>
          simp only [Bool.true_eq_false, if_false, if_true]
          rw [← after.cachedAttr]
          split
          · next loop =>
              rw [loop]
              split
              · split <;> rfl
              · rfl
          · next loop => rw [loop]

/-- A download that ended with `open_file` returning true. -/
theorem storedByOpen_of_openFile (notCached : client.cache path = none)
    (opens : client.openFile remote answers path r = ((client', r'), true)) :
    ∃ responses status,
      client.storedByOpen remote answers path r = some (responses, status) ∧
        status.isOk ∧ client'.disk.read path = some (downloaded responses) := by
  have notYet : Status.initial.isOk = false := rfl
  have after := afterAttempts_retry remote answers path maxTries .initial client r
    notYet
  unfold storedByOpen
  simp only [openFile, notCached] at opens ⊢
  unfold openUncached at opens
  cases directories : answers.directories with
  | false => simp [directories] at opens
  | true =>
      simp only [directories, Bool.true_eq_false, if_false] at opens
      split at opens
      · next final loop =>
          rw [loop] at after
          split at opens
          · next isOk =>
              obtain ⟨responses, stored, read⟩ := after.ok final rfl isOk
              refine ⟨responses, final, stored, isOk, ?_⟩
              split at opens
              · simp only [Prod.mk.injEq, and_true] at opens
                obtain ⟨rfl, -⟩ := opens
                exact read
              · simp at opens
          · simp at opens
      · simp at opens

/-- When `open_file` stored something, it returns true exactly if the answer it
stored last is OK and the local streams can be opened. -/
theorem openFile_eq_true_iff_of_stored {responses : List FileResponse}
    {status : Status}
    (stored : client.storedByOpen remote answers path r =
      some (responses, status)) :
    (client.openFile remote answers path r).2 = true ↔
      status.isOk ∧ answers.streams = true := by
  have notYet : Status.initial.isOk = false := rfl
  have after := afterAttempts_retry remote answers path maxTries .initial client r
    notYet
  unfold storedByOpen at stored
  split at stored
  · simp at stored
  next notCached =>
  split at stored
  · next directories =>
      simp only [openFile, notCached, openUncached, directories,
        Bool.true_eq_false, if_false]
      rw [stored] at after
      cases loop : retry (downloadAttempt remote answers path) maxTries .initial
          (client, r) with
      | mk state final =>
          rw [loop] at after
          cases final with
          | none =>
              simp only [Bool.false_eq_true, false_iff, not_and]
              intro isOk
              have ended := after.ends responses status rfl isOk
              simp at ended
          | some code =>
              dsimp only
              split
              · next isOk =>
                  obtain ⟨_, isStored, read⟩ := after.ok code rfl isOk
                  obtain ⟨-, rfl⟩ := Prod.mk.inj (Option.some.inj isStored)
                  have present : (state.1.disk.node path).isSome := by
                    rw [← FileStore.read_isSome_iff, read]
                    rfl
                  obtain ⟨i, refers⟩ := Option.isSome_iff_exists.mp present
                  cases streams : answers.streams with
                  | false => simp [openStreams, refers, streams]
                  | true => simp [openStreams, refers, streams, isOk]
              · next notOk =>
                  simp only [Bool.false_eq_true, false_iff, not_and]
                  intro isOk
                  have ended := after.ends responses status rfl isOk
                  exact (notOk (Option.some.inj ended ▸ isOk)).elim
  · simp at stored

/-! ## `write_file` -/

theorem cachedAttr_syncWrite {contents : Bytes}
    (read : client.disk.read path = some contents) :
    (client.syncWrite answers path).cachedAttr =
      (client.updateAttr path fun attr =>
        { attr with size := contents.length, mtime := answers.now }).cachedAttr := by
  simp only [syncWrite, read]

theorem cachedAttr_of_writeFile {data : Bytes} {position : Int}
    {contents : Bytes}
    (writes : client.writeFile answers path data position = (client', true))
    (read : client'.disk.read path = some contents) :
    client'.cachedAttr =
      (client.updateAttr path fun attr =>
        { attr with size := contents.length, mtime := answers.now }).cachedAttr := by
  unfold writeFile at writes
  dsimp only at writes
  split at writes
  · simp at writes
  split at writes
  · simp at writes
  split at writes
  · simp at writes
  obtain ⟨rfl, -⟩ := Prod.mk.inj writes
  exact cachedAttr_syncWrite read

theorem cachedAttr_of_writeFile_false {data : Bytes} {position : Int}
    (fails : client.writeFile answers path data position = (client', false)) :
    client'.cachedAttr = client.cachedAttr := by
  unfold writeFile at fails
  dsimp only at fails
  split at fails
  · obtain ⟨rfl, -⟩ := Prod.mk.inj fails
    rfl
  split at fails
  · obtain ⟨rfl, -⟩ := Prod.mk.inj fails
    rfl
  split at fails
  · obtain ⟨rfl, -⟩ := Prod.mk.inj fails
    rfl
  · simp at fails

/-! ## `create_file` -/

/-- The attributes of a file that was created at this time, in nanoseconds. -/
def createdAttr (time : Int) : FileAttributes where
  size := 0
  atime := time / 1000000000
  mtime := time / 1000000000
  ctime := time / 1000000000

theorem createFile_eq_true
    (creates : client.createFile answers path = (client', true)) :
    client'.cachedAttr = Function.update client.cachedAttr path
        (some (createdAttr answers.now)) ∧
      client'.disk.read path = some [] ∧
      client'.disk.modifiedAt path = some answers.now := by
  unfold createFile at creates
  split at creates
  · next begun begins =>
      unfold beginCreate at begins
      split_ifs at begins
      obtain rfl := Option.some.inj begins
      unfold finishCreate at creates
      split at creates
      · simp at creates
      · dsimp only at creates
        split at creates
        · next contents _ read =>
            obtain ⟨rfl, -⟩ := Prod.mk.inj creates
            have empty := FileStore.read_openTruncated client.disk path answers.now
            have time :=
              FileStore.modifiedAt_openTruncated client.disk path answers.now
            have noContents : contents = [] :=
              Option.some.inj (read.symm.trans empty)
            refine ⟨?_, empty, time⟩
            simp [insertOpened, enterCache, noContents, time, createdAttr]
        · simp at creates
  · simp at creates

/-- The condition on which `create_file` returns true. -/
structure Creates (answers : LocalAnswers) (path : Path) (client : Client) :
    Prop where
  notCached : client.cache path = none
  closed : client.openedFiles path = none
  directories : answers.directories = true
  create : answers.create 0 = true
  streams : answers.streams = true
  stat : answers.stat = true

theorem createFile_eq_true_iff :
    (client.createFile answers path).2 = true ↔ client.Creates answers path := by
  obtain ⟨i, refers, -⟩ :=
    FileStore.exists_node_openTruncated client.disk path answers.now
  have read := FileStore.read_openTruncated client.disk path answers.now
  constructor
  · intro creates
    unfold createFile at creates
    split at creates
    · next begun begins =>
        unfold beginCreate at begins
        split_ifs at begins with exists' fails
        obtain rfl := Option.some.inj begins
        push Not at exists' fails
        have notCached : client.cache path = none := by simpa using exists'.1
        have closed : client.openedFiles path = none := by simpa using exists'.2
        have directories : answers.directories = true := by simpa using fails.1
        have create : answers.create 0 = true := by simpa using fails.2
        unfold finishCreate at creates
        split at creates
        · simp at creates
        · next opens =>
            dsimp only at creates
            split at creates
            · next stat _ =>
                refine ⟨notCached, closed, directories, create, ?_, stat⟩
                unfold openStreams at opens
                split at opens
                · next streams => exact streams
                · simp at opens
            · simp at creates
    · simp at creates
  · intro creates
    simp [createFile, beginCreate, finishCreate, openStreams, enterCache,
      insertOpened, creates.notCached, creates.closed, creates.directories,
      creates.create, creates.streams, creates.stat, refers, read]

theorem cachedAttr_of_createFile_false
    (fails : client.createFile answers path = (client', false)) :
    client'.cachedAttr = client.cachedAttr := by
  unfold createFile at fails
  split at fails
  · next begun begins =>
      unfold beginCreate at begins
      split_ifs at begins
      obtain rfl := Option.some.inj begins
      unfold finishCreate at fails
      split at fails
      · obtain ⟨rfl, -⟩ := Prod.mk.inj fails
        rfl
      · dsimp only at fails
        split at fails
        · simp at fails
        · obtain ⟨rfl, -⟩ := Prod.mk.inj fails
          rfl
  · obtain ⟨rfl, -⟩ := Prod.mk.inj fails
    rfl

/-! ## `close_file` -/

/-- A `close_file` that returned true refreshed the attributes if it uploaded
the copy; `invariant` is anything that failed calls preserve. -/
theorem cachedAttr_of_closeFile (invariant : σ → Prop)
    (keeps : ∀ r contents, invariant r →
      (remote.closeCall r (client.uploadRequests path contents)).2.2.isOk = false →
      invariant (remote.closeCall r (client.uploadRequests path contents)).1)
    (initially : invariant r)
    (closes : client.closeFile remote answers path r = ((client', r'), true)) :
    ∃ info, client.cache path = some info ∧
      (info.locallyModified = false ∧ client'.cachedAttr = client.cachedAttr ∨
        info.locallyModified = true ∧
          ∃ before contents response status, invariant before ∧
            client.disk.read path = some contents ∧
            remote.closeCall before (client.uploadRequests path contents) =
              (r', response, status) ∧
            status.isOk ∧
            client'.cachedAttr = (client.updateAttr path fun attr =>
              { attr with
                size := contents.length
                mtime := response.timestamp
                ctime := response.timestamp }).cachedAttr) := by
  unfold closeFile at closes
  split at closes
  · simp at closes
  next streams opened =>
  split at closes
  · simp at closes
  split at closes
  · simp at closes
  next info cached =>
  refine ⟨info, cached, ?_⟩
  split at closes
  · next modified =>
      obtain ⟨before, contents, response, status, kept, read, call, ok, rfl⟩ :=
        upload_of_closeModified invariant keeps initially closes
      refine .inr ⟨modified, before, contents, response, status, kept, read, call,
        ok, ?_⟩
      have length : ∀ size, fileSize (Client.markClean (client.setStreams path
          fun streams => ⟨streams.readStream.close, streams.writeStream.close⟩)
            path response.timestamp) path size = contents.length := by
        intro size
        simp [fileSize, markClean, setStreams, read]
      simp only [finishUpload, syncUpload, length]
      rfl
  · next unmodified =>
      obtain ⟨⟨rfl, -⟩, -⟩ : (_ = client' ∧ _) ∧ True := by simpa using closes
      exact .inl ⟨by simpa using unmodified, rfl⟩

theorem cachedAttr_of_closeFile_false
    (fails : client.closeFile remote answers path r = ((client', r'), false)) :
    client'.cachedAttr = client.cachedAttr := by
  unfold closeFile at fails
  split at fails
  · obtain ⟨⟨rfl, -⟩, -⟩ : (_ = client' ∧ _) ∧ True := by simpa using fails
    rfl
  next streams _ =>
  split at fails
  · obtain ⟨⟨rfl, -⟩, -⟩ : (_ = client' ∧ _) ∧ True := by simpa using fails
    rfl
  split at fails
  · obtain ⟨⟨rfl, -⟩, -⟩ : (_ = client' ∧ _) ∧ True := by simpa using fails
    rfl
  split at fails
  · obtain ⟨change, -, flushed⟩ := beginUpload_client answers path client streams
    unfold closeModified at fails
    cases begins : client.beginUpload answers path streams with
    | mk begun result =>
        simp only [begins] at fails flushed
        have unchanged : begun.cachedAttr = client.cachedAttr := by
          rw [flushed]
          rfl
        cases result with
        | none =>
            obtain ⟨⟨rfl, -⟩, -⟩ : (_ = client' ∧ _) ∧ True := by
              simpa using fails
            exact unchanged
        | some requests =>
            dsimp only at fails
            split at fails
            · split at fails
              · simp at fails
              · obtain ⟨⟨rfl, -⟩, -⟩ : (_ = client' ∧ _) ∧ True := by
                  simpa using fails
                exact unchanged
            · obtain ⟨⟨rfl, -⟩, -⟩ : (_ = client' ∧ _) ∧ True := by
                simpa using fails
              exact unchanged
  · simp at fails

end Client

end DistributedFilesystem
