import DistributedFilesystem.ClientOperations

/-!
# What opening a file does

The retry loop of `open_file` keeps what its attempts keep and ends with the
attempt that was answered with OK.  One statement for each way in which
`open_file` ends says what it did to the entries of its own path, and that it
left the other paths alone.
-/

namespace DistributedFilesystem

section Retry

variable {α : Type*} {attempt : Nat → α → α × Option Status}

theorem retry_of_ok {left : Nat} {status : Status} {a : α}
    (ok : status.isOk) : retry attempt left status a = (a, some status) := by
  cases left <;> simp [retry, ok]

/-- What every attempt preserves, a retry loop preserves. -/
theorem retry_preserves (invariant : α → Prop)
    (keeps : ∀ left a, invariant a → invariant (attempt left a).1)
    (left : Nat) (status : Status) {a : α} (initially : invariant a) :
    invariant (retry attempt left status a).1 := by
  induction left generalizing status a with
  | zero => exact initially
  | succ left ih =>
      unfold retry
      split
      · exact initially
      · have next := keeps left a initially
        split
        · next later status' result =>
            rw [result] at next
            exact ih status' next
        · next later result =>
            rw [result] at next
            exact next

/-- What every attempt that is not OK preserves, a retry loop that does not end
with OK preserves. -/
theorem retry_preserves_of_not_ok (invariant : α → Prop)
    (keeps : ∀ left a, invariant a →
      (∀ code, (attempt left a).2 = some code → code.isOk = false) →
      invariant (attempt left a).1)
    (left : Nat) (status : Status) {a : α} (initially : invariant a)
    (fails : ∀ final, (retry attempt left status a).2 = some final →
      final.isOk = false) :
    invariant (retry attempt left status a).1 := by
  induction left generalizing status a with
  | zero => exact initially
  | succ left ih =>
      unfold retry at fails ⊢
      split
      · exact initially
      · next notYet =>
          rw [if_neg notYet] at fails
          have next := keeps left a initially
          split at fails
          · next later status' result =>
              rw [result] at next
              refine ih status' (next fun code isCode => ?_) fails
              obtain rfl := Option.some.inj isCode
              cases ok : status'.isOk with
              | false => rfl
              | true =>
                  rw [retry_of_ok ok] at fails
                  rw [← ok, fails status' rfl]
          · next later result =>
              rw [result] at next
              exact next (by simp)

/-- A retry loop that ends with OK ends with the attempt that gave OK; the
attempts before it kept the invariant. -/
theorem exists_attempt_of_retry (invariant : α → Prop)
    (keeps : ∀ left a, invariant a →
      (∀ code, (attempt left a).2 = some code → code.isOk = false) →
      invariant (attempt left a).1)
    {left : Nat} {status final : Status} {a a' : α} (initially : invariant a)
    (notYet : status.isOk = false)
    (ends : retry attempt left status a = (a', some final))
    (ok : final.isOk) :
    ∃ left' before, invariant before ∧
      attempt left' before = (a', some final) := by
  induction left generalizing status a with
  | zero =>
      obtain ⟨-, rfl⟩ : a = a' ∧ status = final := by simpa [retry] using ends
      simp [notYet] at ok
  | succ left ih =>
      rw [retry, if_neg (by simp [notYet])] at ends
      have next := keeps left a initially
      split at ends
      · next later status' result =>
          rw [result] at next
          cases ok' : status'.isOk with
          | false => exact ih (next (by simp [ok'])) ok' ends
          | true =>
              rw [retry_of_ok ok'] at ends
              obtain ⟨rfl, rfl⟩ : later = a' ∧ status' = final := by
                simpa using ends
              exact ⟨left, a, initially, result⟩
      · simp at ends

/-- If all attempts are the same step and end with a status, a retry loop ends
with the first step whose status is OK, or after all steps without one. -/
theorem retry_of_steps {next : α → α} {code : α → Status}
    (isStep : ∀ left a, attempt left a = (next a, some (code a)))
    (left : Nat) {status : Status} (a : α) (notYet : status.isOk = false) :
    (∃ k < left, (∀ j < k, (code (next^[j] a)).isOk = false) ∧
        (code (next^[k] a)).isOk = true ∧
        retry attempt left status a =
          (next^[k + 1] a, some (code (next^[k] a)))) ∨
      (∀ j < left, (code (next^[j] a)).isOk = false) ∧
        ∃ final : Status, final.isOk = false ∧
          retry attempt left status a = (next^[left] a, some final) := by
  induction left generalizing status a with
  | zero => exact .inr ⟨by simp, status, notYet, rfl⟩
  | succ left ih =>
      have begins : retry attempt (left + 1) status a =
          retry attempt left (code a) (next a) := by
        simp [retry, notYet, isStep]
      rw [begins]
      cases ok : (code a).isOk with
      | true =>
          exact .inl ⟨0, Nat.succ_pos _, by simp, ok, retry_of_ok ok⟩
      | false =>
          rcases ih (next a) ok with ⟨k, within, earlier, isOk, ends⟩ |
            ⟨all, final, fails, ends⟩
          · refine .inl ⟨k + 1, Nat.succ_lt_succ within, ?_, isOk, ends⟩
            intro j before
            cases j with
            | zero => exact ok
            | succ j => exact earlier j (Nat.lt_of_succ_lt_succ before)
          · refine .inr ⟨?_, final, fails, ends⟩
            intro j before
            cases j with
            | zero => exact ok
            | succ j => exact all j (Nat.lt_of_succ_lt_succ before)

end Retry

namespace Client

variable {σ : Type*} {remote : Remote σ} {answers : LocalAnswers} {path : Path}
variable {client client' : Client} {r r' : σ}

/-! ## `open_file` -/

/-- The effect of storing what an attempt to download a file delivered. -/
structure StoreResult (path : Path) (responses : List FileResponse)
    (code : Status) (client client' : Client) (status : Option Status) : Prop where
  elsewhere : SameElsewhere path client client'
  openedFiles : client'.openedFiles = client.openedFiles
  fileMutexes : client'.fileMutexes = client.fileMutexes
  outcome : status = none ∧ client'.cache = client.cache ∨
    status = some code ∧
      client'.disk.read path = some (downloaded responses) ∧
      client'.cache path =
        if code.isOk then some ⟨false, lastTimestamp responses⟩
        else client.cache path

theorem sameElsewhere_replace (path : Path) (client : Client)
    (contents : Bytes) (now : Int) :
    SameElsewhere path client
      { client with disk := client.disk.replace path [contents] now } :=
  sameElsewhere_disk
    (fun _ apart => FileStore.node_replace_ne apart _)
    (fun _ apart => FileStore.read_replace_ne apart _)

theorem sameElsewhere_remove (path : Path) (client : Client) :
    SameElsewhere path client
      { client with disk := client.disk.remove path } :=
  sameElsewhere_disk (fun _ apart => FileStore.node_remove_ne apart)
    (fun _ apart => FileStore.read_remove_ne apart)

theorem storeResult (answers : LocalAnswers) (path : Path) (left : Nat)
    (responses : List FileResponse) (code : Status) (client : Client) :
    StoreResult path responses code client
      (client.storeDownload answers path left responses code).1
      (client.storeDownload answers path left responses code).2 := by
  unfold storeDownload
  dsimp only
  split
  · exact ⟨.refl _ _, rfl, rfl, .inl ⟨rfl, rfl⟩⟩
  split
  · exact ⟨sameElsewhere_replace _ _ _ _, rfl, rfl, .inl ⟨rfl, rfl⟩⟩
  have stored := sameElsewhere_replace path client (downloaded responses)
    answers.now
  cases ok : code.isOk with
  | false =>
      refine ⟨stored.trans (sameElsewhere_updateAttr _), rfl, rfl,
        .inr ⟨rfl, ?_, ?_⟩⟩
      · simp [syncDownload, updateAttr]
      · simp [ok, syncDownload, updateAttr]
  | true =>
      refine ⟨(stored.trans (sameElsewhere_enterCache _)).trans
        (sameElsewhere_updateAttr _), rfl, rfl, .inr ⟨rfl, ?_, ?_⟩⟩
      · simp [syncDownload, updateAttr, enterCache]
      · simp [ok, syncDownload, updateAttr, enterCache]

/-- The effect of an attempt to download a file: a call, and storing what it
delivered. -/
theorem downloadResult (remote : Remote σ) (answers : LocalAnswers)
    (path : Path) (client : Client) (r : σ) (left : Nat) :
    ∃ responses code,
      remote.openCall r ⟨path, client.clientId, []⟩ =
        ((downloadAttempt remote answers path left (client, r)).1.2, responses,
          code) ∧
      StoreResult path responses code client
        (downloadAttempt remote answers path left (client, r)).1.1
        (downloadAttempt remote answers path left (client, r)).2 :=
  ⟨_, _, rfl, storeResult answers path left _ _ client⟩

/-- The path has just been opened: both streams are fresh and on the file that
is there. -/
structure JustOpened (path : Path) (client : Client) : Prop where
  streams : ∃ i, client.disk.node path = some i ∧
    client.openedFiles path = some ⟨.fresh i, .fresh i⟩
  mutex : path ∈ client.fileMutexes

theorem justOpened_insertOpened {streams : FileStreams}
    (opens : client.openStreams answers path = some streams) :
    JustOpened path (client.insertOpened path streams) := by
  unfold openStreams at opens
  split at opens
  · next i refers _ =>
      obtain rfl := Option.some.inj opens
      exact ⟨⟨i, refers, by simp [insertOpened]⟩, by simp [insertOpened]⟩
  · simp at opens

/-- The effect of a download that succeeded. -/
structure FreshCopy (path : Path) (contents : Bytes) (client client' : Client) :
    Prop where
  elsewhere : SameElsewhere path client client'
  cache : ∃ timestamp, client'.cache path = some ⟨false, timestamp⟩
  read : client'.disk.read path = some contents
  justOpened : JustOpened path client'

/-- When `open_file` downloaded a file, the copy is what its last call
delivered with OK; `invariant` is anything that failed calls preserve. -/
theorem freshCopy_of_openUncached (invariant : σ → Prop)
    (keeps : ∀ r, invariant r →
      invariant (remote.openCall r ⟨path, client.clientId, []⟩).1)
    (initially : invariant r)
    (opens : client.openUncached remote answers path r = ((client', r'), true)) :
    ∃ before responses status, invariant before ∧
      remote.openCall before ⟨path, client.clientId, []⟩ =
        (r', responses, status) ∧
      status.isOk ∧ FreshCopy path (downloaded responses) client client' := by
  unfold openUncached at opens
  split at opens
  · simp at opens
  split at opens
  · next later r' final result =>
      split at opens
      · next ok =>
          split at opens
          · next streams opened =>
              simp only [Prod.mk.injEq, and_true] at opens
              obtain ⟨rfl, rfl⟩ := opens
              obtain ⟨left, ⟨c, before⟩, ⟨kept, same⟩, last⟩ :=
                exists_attempt_of_retry
                  (fun state : Client × σ =>
                    invariant state.2 ∧ SameElsewhere path client state.1)
                  (fun left state ⟨kept, same⟩ _ => by
                    obtain ⟨responses, code, call, effect⟩ :=
                      downloadResult remote answers path state.1 state.2 left
                    have kept' := keeps state.2 kept
                    rw [← same.clientId, call] at kept'
                    exact ⟨kept', same.trans effect.elsewhere⟩)
                  ⟨initially, .refl _ _⟩ rfl result ok
              obtain ⟨responses, code, call, effect⟩ :=
                downloadResult remote answers path c before left
              rw [last] at call effect
              obtain ⟨⟨⟩, -⟩ | ⟨⟨⟩, read, cache⟩ := effect.outcome
              rw [same.clientId] at call
              rw [if_pos ok] at cache
              exact ⟨before, responses, final, kept, call, ok,
                (same.trans effect.elsewhere).trans
                  (sameElsewhere_insertOpened _),
                ⟨_, cache⟩, read, justOpened_insertOpened opened⟩
          · simp at opens
      · simp at opens
  · simp at opens

/-- When `open_file` of a file that is not cached returns false, the file is
neither cached nor open because of it. -/
structure NoCopy (path : Path) (client client' : Client) : Prop where
  elsewhere : SameElsewhere path client client'
  openedFiles : client'.openedFiles = client.openedFiles
  fileMutexes : client'.fileMutexes = client.fileMutexes
  cache : client'.cache path = none

theorem noCopy_of_openUncached (notCached : client.cache path = none)
    (fails : client.openUncached remote answers path r =
      ((client', r'), false)) : NoCopy path client client' := by
  unfold openUncached at fails
  split at fails
  · obtain ⟨rfl, -⟩ := by simpa using fails
    exact ⟨.refl _ _, rfl, rfl, notCached⟩
  have kept := retry_preserves
    (fun state : Client × σ => SameElsewhere path client state.1 ∧
      state.1.openedFiles = client.openedFiles ∧
      state.1.fileMutexes = client.fileMutexes)
    (fun left (c, r) ⟨same, opened, mutexes⟩ => by
      obtain ⟨_, _, -, effect⟩ := downloadResult remote answers path c r left
      exact ⟨same.trans effect.elsewhere, effect.openedFiles.trans opened,
        effect.fileMutexes.trans mutexes⟩)
    maxTries .initial
    (show _ ∧ (client, r).1.openedFiles = _ ∧ _ from ⟨.refl _ _, rfl, rfl⟩)
  have uncached : (∀ final, (retry (downloadAttempt remote answers path) maxTries
      .initial (client, r)).2 = some final → final.isOk = false) →
      (retry (downloadAttempt remote answers path) maxTries .initial
        (client, r)).1.1.cache path = none :=
    retry_preserves_of_not_ok
      (fun state : Client × σ => state.1.cache path = none)
      (fun left (c, r) cacheBefore notOk => by
        obtain ⟨_, code, -, effect⟩ := downloadResult remote answers path c r left
        obtain ⟨-, cache⟩ | ⟨status, -, cache⟩ := effect.outcome
        · rw [cache, cacheBefore]
        · rw [cache, notOk code status]
          simpa using cacheBefore)
      maxTries .initial notCached
  split at fails
  · next later r' final result =>
      rw [result] at kept uncached
      obtain ⟨same, opened, mutexes⟩ := kept
      split at fails
      · split at fails
        · simp at fails
        · obtain ⟨rfl, -⟩ := by simpa using fails
          exact ⟨same.trans sameElsewhere_eraseCache, opened, mutexes,
            by simp [eraseCache]⟩
      · next notOk =>
          obtain ⟨rfl, -⟩ := by simpa using fails
          refine ⟨same.trans (sameElsewhere_remove path later), opened, mutexes,
            ?_⟩
          exact uncached (by simpa using notOk)
  · next state result =>
      rw [result] at kept uncached
      obtain ⟨same, opened, mutexes⟩ := kept
      obtain ⟨rfl, -⟩ := by simpa using fails
      exact ⟨same, opened, mutexes, uncached (by simp)⟩

/-- What every call of `open` preserves, `open_file` preserves. -/
theorem openFile_preserves (invariant : σ → Prop)
    (keeps : ∀ r, invariant r →
      invariant (remote.openCall r ⟨path, client.clientId, []⟩).1)
    (initially : invariant r) :
    invariant (client.openFile remote answers path r).1.2 := by
  unfold openFile
  split
  · unfold openUncached
    have kept := retry_preserves
      (fun state : Client × σ =>
        invariant state.2 ∧ SameElsewhere path client state.1)
      (fun left (c, r) ⟨kept, same⟩ => by
        obtain ⟨responses, code, call, effect⟩ :=
          downloadResult remote answers path c r left
        have kept' := keeps r kept
        rw [← same.clientId, call] at kept'
        exact ⟨kept', same.trans effect.elsewhere⟩)
      maxTries .initial
      (show invariant (client, r).2 ∧ _ from ⟨initially, .refl _ _⟩)
    split
    · exact initially
    · split
      · next result =>
          rw [result] at kept
          split
          · split <;> exact kept.1
          · exact kept.1
      · next result =>
          rw [result] at kept
          exact kept.1
  · exact initially

/-- The effect of opening a file that is cached. -/
structure CachedCopy (path : Path) (client client' : Client) : Prop where
  elsewhere : SameElsewhere path client client'
  cache : client'.cache = client.cache
  disk : client'.disk = client.disk
  opened : client' = client ∧ (client.openedFiles path).isSome ∨
    client.openedFiles path = none ∧ JustOpened path client'

theorem cachedCopy_of_openCached
    (opens : client.openCached answers path = (client', true)) :
    CachedCopy path client client' := by
  unfold openCached at opens
  split at opens
  · next streams opened =>
      obtain ⟨rfl, -⟩ := Prod.mk.inj opens
      exact ⟨.refl _ _, rfl, rfl, .inl ⟨rfl, by simp [opened]⟩⟩
  · next closed =>
      split at opens
      · next streams opened =>
          obtain ⟨rfl, -⟩ := Prod.mk.inj opens
          exact ⟨sameElsewhere_insertOpened _, rfl, rfl,
            .inr ⟨closed, justOpened_insertOpened opened⟩⟩
      · simp at opens

/-- Opening a cached file neither calls the server nor changes the copy. -/
theorem openFile_of_cached (cached : (client.cache path).isSome) :
    ∃ client' opened,
      client.openFile remote answers path r = ((client', r), opened) ∧
        client'.disk = client.disk ∧ client'.cache = client.cache := by
  obtain ⟨info, entry⟩ := Option.isSome_iff_exists.mp cached
  simp only [openFile, entry, openCached]
  split
  · exact ⟨_, _, rfl, rfl, rfl⟩
  · split
    · exact ⟨_, _, rfl, rfl, rfl⟩
    · exact ⟨_, _, rfl, rfl, rfl⟩

/-- What `open` sends is stored as it is. -/
@[simp]
theorem downloaded_openResponses (contents : Bytes) (timestamp : Int) :
    downloaded (Server.openResponses contents timestamp) = contents := by
  have all : (Server.openResponses contents timestamp).filter
      (fun response => 0 < response.length) =
      Server.openResponses contents timestamp := by
    rw [List.filter_eq_self]
    intro response member
    simpa using Server.length_pos_of_mem_openResponses member
  rw [downloaded, all, Server.flatten_openResponses]

/-- The timestamp of a file arrives unless the file is empty. -/
theorem lastTimestamp_openResponses {contents : Bytes}
    (nonempty : contents ≠ []) (timestamp : Int) :
    lastTimestamp (Server.openResponses contents timestamp) = timestamp := by
  have sent : Server.openResponses contents timestamp ≠ [] := by
    intro nothing
    have flattened := Server.flatten_openResponses contents timestamp
    rw [nothing] at flattened
    exact nonempty flattened.symm
  unfold lastTimestamp
  rw [List.getLast?_eq_some_getLast sent]
  obtain ⟨block, -, last⟩ := List.mem_map.mp (List.getLast_mem sent)
  rw [Option.map_some, Option.getD_some, ← last]

end Client

end DistributedFilesystem
