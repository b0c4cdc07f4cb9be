import DistributedFilesystem.ClientThreads

/-!
# Deadlock freedom of a client

A call requests the mutex of a file only while it holds nothing, and
`cache_mutex` only while it holds at most the mutex of a file.  Every call
returns with all its mutexes released.  So the calls of a client and its
subscriber thread never wait for each other in a cycle.
-/

namespace DistributedFilesystem

open LockedThreads TransitionRuns

/-- The place of a mutex in the order of requests. -/
def ClientLock.rank : ClientLock → Nat
  | .fileMutex _ => 0
  | .cacheMutex => 1

theorem ClientLock.rank_le (l : ClientLock) : l.rank ≤ 1 := by
  cases l <;> simp [ClientLock.rank]

/-- The mutexes that a call holds exactly when it runs a branching action; the
other actions only access the maps. -/
def CallAction.scope : CallAction → Option (Set ClientLock)
  | .findAttr _ | .findCached _ | .findRead _ _ _ | .findWrite _ _ _
  | .findCreated _ | .decideFlush _ | .findMutex _ => some {.cacheMutex}
  | .readStream _ _ _ mutex | .writeStream _ _ _ mutex
  | .flushStreams _ mutex | .upload _ _ mutex => some {.fileMutex mutex}
  | .getattr _ | .makeDirectories _ | .download _ _ | .removePartial _
  | .openDownloaded _ | .openExisting _ | .createLocal _ | .openCreated _
  | .statCreated _ | .moveLocal _ _ | .renameOnServer _ _ | .unlinkOnServer _
  | .truncate _ _ _ | .readNote => some ∅
  | .storeAttr _ | .enterDownload _ | .syncDownload _ | .eraseCache _
  | .insertOpened _ | .markModified _ | .syncWrite _ | .enterCreated _
  | .insertCreated _ | .finishUpload _ | .eraseOpened _ | .updateKeys _ _
  | .eraseEntries _ | .processNote _ => none

/-- The program suits a call that holds these mutexes. -/
def CallSuited : Set ClientLock → CallCode → Prop
  | held, [] => held = ∅
  | held, .lock l :: rest =>
      (∀ m ∈ held, m.rank < l.rank) ∧
        (l ∉ held → CallSuited (insert l held) rest)
  | held, .unlock l :: rest => l ∈ held ∧ CallSuited (held \ {l}) rest
  | held, .act a :: rest =>
      match a.scope with
      | none => .cacheMutex ∈ held ∧ CallSuited held rest
      | some locks => held = locks ∧ rest = []

section Programs

variable {held : Set ClientLock} {rest : CallCode} {a : CallAction}
variable {mutex : Nat}

theorem callSuited_of_scope_none (keeps : a.scope = none) :
    CallSuited held (.act a :: rest) ↔
      .cacheMutex ∈ held ∧ CallSuited held rest := by
  rw [CallSuited, keeps]

theorem callSuited_of_scope_some {locks : Set ClientLock}
    (branches : a.scope = some locks) :
    CallSuited held (.act a :: rest) ↔ held = locks ∧ rest = [] := by
  rw [CallSuited, branches]

/-- A branching action suits a call that holds what the action needs. -/
theorem callSuited_last (branches : a.scope = some held) :
    CallSuited held [.act a] := by
  rw [callSuited_of_scope_some branches]
  exact ⟨rfl, rfl⟩

/-- Releasing a mutex that was not held before gives back what was held. -/
theorem callSuited_unlock {l : ClientLock} (fresh : l ∉ held)
    (later : CallSuited held rest) :
    CallSuited (insert l held) (.unlock l :: rest) := by
  refine ⟨Set.mem_insert l held, ?_⟩
  rwa [Set.insert_sdiff_self_of_notMem fresh]

theorem callSuited_underCacheMutex (keeps : a.scope = none)
    (below : ∀ m ∈ held, m.rank < ClientLock.cacheMutex.rank)
    (later : CallSuited held rest) :
    CallSuited held (underCacheMutex a ++ rest) := by
  change CallSuited held
    (.lock .cacheMutex :: .act a :: .unlock .cacheMutex :: rest)
  refine ⟨below, fun fresh => ?_⟩
  rw [callSuited_of_scope_none keeps]
  exact ⟨Set.mem_insert _ _, callSuited_unlock fresh later⟩

/-- Release `cache_mutex`, and go on without any mutex. -/
theorem callSuited_unlockCache (later : CallSuited ∅ rest) :
    CallSuited {.cacheMutex} (.unlock .cacheMutex :: rest) := by
  rw [← insert_empty_eq]
  exact callSuited_unlock (Set.notMem_empty _) later

theorem callSuited_unlockFile :
    CallSuited {.fileMutex mutex} [.unlock (.fileMutex mutex)] := by
  rw [← insert_empty_eq]
  exact callSuited_unlock (Set.notMem_empty _) rfl

theorem callSuited_lockFile (branches : a.scope = some {.fileMutex mutex}) :
    CallSuited ∅ [.lock (.fileMutex mutex), .act a] := by
  refine ⟨by simp, fun _ => ?_⟩
  rw [insert_empty_eq]
  exact callSuited_last branches

theorem rank_lt_of_mem_empty {level : Nat} :
    ∀ m ∈ (∅ : Set ClientLock), m.rank < level := by
  simp

theorem rank_lt_of_mem_file :
    ∀ m ∈ ({.fileMutex mutex} : Set ClientLock),
      m.rank < ClientLock.cacheMutex.rank := by
  simp [ClientLock.rank]

/-- The end of `close_file`, under both mutexes. -/
theorem callSuited_finishClose (keeps : a.scope = none) :
    CallSuited {.fileMutex mutex} [.lock .cacheMutex, .act a,
      .unlock (.fileMutex mutex), .unlock .cacheMutex] := by
  refine ⟨rank_lt_of_mem_file, fun _ => ?_⟩
  rw [callSuited_of_scope_none keeps]
  refine ⟨by simp, by simp, by simp, ?_⟩
  ext m
  simp only [Set.mem_sdiff, Set.mem_insert_iff, Set.mem_singleton_iff,
    Set.mem_empty_iff_false, iff_false]
  tauto

/-- The part of `delete_file` that runs under `cache_mutex`, and the call after
it. -/
theorem callSuited_eraseEntries (path : Path) :
    CallSuited {.cacheMutex} [.act (.eraseEntries path), .unlock .cacheMutex,
      .act (.unlinkOnServer path)] := by
  rw [callSuited_of_scope_none rfl]
  exact ⟨rfl, callSuited_unlockCache (callSuited_last rfl)⟩

/-- `delete_file` waits for the mutex of the file, and releases it once it
holds `cache_mutex` again. -/
theorem callSuited_awaitFile (path : Path) :
    CallSuited ∅ [.lock (.fileMutex mutex), .lock .cacheMutex,
      .unlock (.fileMutex mutex), .act (.eraseEntries path),
      .unlock .cacheMutex, .act (.unlinkOnServer path)] := by
  refine ⟨rank_lt_of_mem_empty, fun _ => ?_⟩
  rw [insert_empty_eq]
  refine ⟨rank_lt_of_mem_file, fun _ => ⟨by simp, ?_⟩⟩
  have released : insert ClientLock.cacheMutex {.fileMutex mutex} \
      {.fileMutex mutex} = ({.cacheMutex} : Set ClientLock) := by
    ext m
    cases m <;> simp
  rw [released]
  exact callSuited_eraseEntries path

/-- A mutex that a program releases without requesting it is held. -/
theorem mem_held_of_unlock {code : CallCode} {l : ClientLock}
    (suited : CallSuited held code) (releases : .unlock l ∈ code)
    (notRequested : .lock l ∉ code) : l ∈ held := by
  induction code generalizing held with
  | nil => simp at releases
  | cons instr rest ih =>
      have later : Instr.lock l ∉ rest :=
        fun member => notRequested (List.mem_cons_of_mem _ member)
      cases instr with
      | lock first =>
          have apart : l ≠ first := by
            rintro rfl
            exact notRequested List.mem_cons_self
          have fresh : first ∉ held :=
            fun owned => Nat.lt_irrefl _ (suited.1 first owned)
          have releasesLater : Instr.unlock l ∈ rest := by simpa using releases
          have member := ih (suited.2 fresh) releasesLater later
          exact member.resolve_left apart
      | unlock first =>
          by_cases same : l = first
          · rw [same]
            exact suited.1
          · have releasesLater : Instr.unlock l ∈ rest := by
              simpa [same] using releases
            exact (ih suited.2 releasesLater later).1
      | act a =>
          have releasesLater : Instr.unlock l ∈ rest := by simpa using releases
          cases scope : a.scope with
          | none =>
              rw [callSuited_of_scope_none scope] at suited
              exact ih suited.2 releasesLater later
          | some locks =>
              rw [callSuited_of_scope_some scope] at suited
              simp [suited.2] at releasesLater

end Programs

section Exec

variable {σ : Type*} {remote : Remote σ} {a : CallAction} {c : CallChoice}
variable {s s' : SharedClient σ} {t t' : CallLocals} {rest after : CallCode}

/-- An action that only accesses the maps is followed by the rest. -/
theorem after_of_scope_none (keeps : a.scope = none)
    (executes : execCall remote a c s t rest = some (s', t', after)) :
    after = rest := by
  cases a with
  | insertOpened path | insertCreated path =>
      simp only [execCall] at executes
      split at executes <;>
        simp only [Option.some.injEq, Prod.mk.injEq] at executes <;>
        exact executes.2.2.symm
  | storeAttr | enterDownload | syncDownload | eraseCache | markModified
  | syncWrite | enterCreated | finishUpload | eraseOpened | updateKeys
  | eraseEntries | processNote =>
      simp only [execCall, Option.some.injEq, Prod.mk.injEq] at executes
      exact executes.2.2.symm
  | _ => simp [CallAction.scope] at keeps

/-- A single action under `cache_mutex`. -/
theorem callSuited_underCacheMutex_last (keeps : a.scope = none) :
    CallSuited ∅ (underCacheMutex a) := by
  rw [← List.append_nil (underCacheMutex a)]
  exact callSuited_underCacheMutex keeps rank_lt_of_mem_empty rfl

/-- An action under `cache_mutex` and one without any mutex. -/
theorem callSuited_underCacheMutex_act {b : CallAction} (keeps : a.scope = none)
    (branches : b.scope = some ∅) :
    CallSuited ∅ (underCacheMutex a ++ [.act b]) :=
  callSuited_underCacheMutex keeps rank_lt_of_mem_empty (callSuited_last branches)

/-- What follows an attempt to download, whatever its status. -/
theorem callSuited_afterDownload (ok : Bool) (path : Path) (left : Nat) :
    CallSuited ∅ (if ok then
      underCacheMutex (.enterDownload path) ++
        underCacheMutex (.syncDownload path) ++ [.act (.openDownloaded path)]
      else
        match left with
        | left + 1 => underCacheMutex (.syncDownload path) ++
            [.act (.download path left)]
        | 0 => underCacheMutex (.syncDownload path) ++
            [.act (.removePartial path)]) := by
  cases ok with
  | true =>
      rw [if_pos rfl, List.append_assoc]
      exact callSuited_underCacheMutex rfl rank_lt_of_mem_empty
        (callSuited_underCacheMutex_act rfl rfl)
  | false =>
      rw [if_neg (by simp)]
      cases left with
      | zero => exact callSuited_underCacheMutex_act rfl rfl
      | succ left => exact callSuited_underCacheMutex_act rfl rfl

/-- What a branching action puts in its place suits the mutexes it runs
under. -/
theorem callSuited_of_branch {locks : Set ClientLock}
    (branches : a.scope = some locks)
    (executes : execCall remote a c s t [] = some (s', t', after)) :
    CallSuited locks after := by
  cases a with
  | findAttr path =>
      obtain rfl := Option.some.inj branches
      simp only [execCall] at executes
      split at executes
      · obtain ⟨-, -, rfl⟩ := by simpa using executes
        exact callSuited_unlockCache rfl
      · obtain ⟨-, -, rfl⟩ := by simpa using executes
        exact callSuited_unlockCache (callSuited_last rfl)
  | getattr path =>
      obtain rfl := Option.some.inj branches
      simp only [execCall] at executes
      split at executes
      · obtain ⟨-, -, rfl⟩ := by simpa using executes
        exact callSuited_underCacheMutex_last rfl
      · obtain ⟨-, -, rfl⟩ := by simpa using executes
        exact rfl
  | findCached path =>
      obtain rfl := Option.some.inj branches
      simp only [execCall] at executes
      split at executes
      · obtain ⟨-, -, rfl⟩ := by simpa using executes
        exact callSuited_unlockCache (callSuited_last rfl)
      · obtain ⟨-, -, rfl⟩ := by simpa using executes
        exact callSuited_unlockCache rfl
      · obtain ⟨-, -, rfl⟩ := by simpa using executes
        exact callSuited_unlockCache (callSuited_last rfl)
  | makeDirectories path =>
      obtain rfl := Option.some.inj branches
      simp only [execCall] at executes
      split at executes
      · obtain ⟨-, -, rfl⟩ := by simpa using executes
        exact callSuited_last rfl
      · obtain ⟨-, -, rfl⟩ := by simpa using executes
        exact rfl
  | download path left =>
      obtain rfl := Option.some.inj branches
      simp only [execCall] at executes
      split at executes
      · obtain ⟨-, -, rfl⟩ := by simpa using executes
        exact rfl
      · split at executes
        · obtain ⟨-, -, rfl⟩ := by simpa using executes
          exact rfl
        · obtain ⟨-, -, rfl⟩ := by simpa only [Option.some.injEq,
            Prod.mk.injEq] using executes
          exact callSuited_afterDownload _ path left
  | removePartial path =>
      obtain rfl := Option.some.inj branches
      simp only [execCall] at executes
      obtain ⟨-, -, rfl⟩ := by simpa using executes
      exact rfl
  | openDownloaded path =>
      obtain rfl := Option.some.inj branches
      simp only [execCall] at executes
      split at executes
      · obtain ⟨-, -, rfl⟩ := by simpa using executes
        exact callSuited_underCacheMutex_last rfl
      · obtain ⟨-, -, rfl⟩ := by simpa using executes
        exact callSuited_underCacheMutex_last rfl
  | openExisting path =>
      obtain rfl := Option.some.inj branches
      simp only [execCall] at executes
      split at executes
      · obtain ⟨-, -, rfl⟩ := by simpa using executes
        exact callSuited_underCacheMutex_last rfl
      · obtain ⟨-, -, rfl⟩ := by simpa using executes
        exact rfl
  | findRead path size offset =>
      obtain rfl := Option.some.inj branches
      simp only [execCall] at executes
      split at executes
      · obtain ⟨-, -, rfl⟩ := by simpa using executes
        exact callSuited_unlockCache (callSuited_lockFile rfl)
      · obtain ⟨-, -, rfl⟩ := by simpa using executes
        exact callSuited_unlockCache rfl
  | readStream path size offset mutex =>
      obtain rfl := Option.some.inj branches
      simp only [execCall] at executes
      split at executes
      · obtain ⟨-, -, rfl⟩ := by simpa using executes
        exact callSuited_unlockFile
      · obtain ⟨-, -, rfl⟩ := by simpa using executes
        exact callSuited_unlockFile
  | findWrite path data position =>
      obtain rfl := Option.some.inj branches
      simp only [execCall] at executes
      split at executes
      · obtain ⟨-, -, rfl⟩ := by simpa using executes
        exact callSuited_unlockCache (callSuited_lockFile rfl)
      · obtain ⟨-, -, rfl⟩ := by simpa using executes
        exact callSuited_unlockCache rfl
  | writeStream path data position mutex =>
      obtain rfl := Option.some.inj branches
      simp only [execCall] at executes
      split at executes
      · obtain ⟨-, -, rfl⟩ := by simpa using executes
        refine callSuited_underCacheMutex rfl rank_lt_of_mem_file ?_
        exact callSuited_underCacheMutex rfl rank_lt_of_mem_file
          callSuited_unlockFile
      · obtain ⟨-, -, rfl⟩ := by simpa using executes
        exact callSuited_unlockFile
  | findCreated path =>
      obtain rfl := Option.some.inj branches
      simp only [execCall] at executes
      split at executes
      · obtain ⟨-, -, rfl⟩ := by simpa using executes
        exact callSuited_unlockCache rfl
      · obtain ⟨-, -, rfl⟩ := by simpa using executes
        exact callSuited_unlockCache (callSuited_last rfl)
  | createLocal path =>
      obtain rfl := Option.some.inj branches
      simp only [execCall] at executes
      split at executes
      · obtain ⟨-, -, rfl⟩ := by simpa using executes
        exact rfl
      · obtain ⟨-, -, rfl⟩ := by simpa using executes
        exact callSuited_underCacheMutex_act rfl rfl
  | openCreated path =>
      obtain rfl := Option.some.inj branches
      simp only [execCall] at executes
      split at executes
      · obtain ⟨-, -, rfl⟩ := by simpa using executes
        exact callSuited_underCacheMutex_act rfl rfl
      · obtain ⟨-, -, rfl⟩ := by simpa using executes
        exact callSuited_underCacheMutex_last rfl
  | statCreated path =>
      obtain rfl := Option.some.inj branches
      simp only [execCall] at executes
      split at executes
      · obtain ⟨-, -, rfl⟩ := by simpa using executes
        exact callSuited_underCacheMutex_last rfl
      · obtain ⟨-, -, rfl⟩ := by simpa using executes
        exact rfl
  | decideFlush path =>
      obtain rfl := Option.some.inj branches
      simp only [execCall] at executes
      split at executes
      · obtain ⟨-, -, rfl⟩ := by simpa using executes
        exact callSuited_unlockCache rfl
      · split at executes
        · obtain ⟨-, -, rfl⟩ := by simpa using executes
          exact callSuited_unlockCache rfl
        · split at executes
          · obtain ⟨-, -, rfl⟩ := by simpa using executes
            exact callSuited_unlockCache rfl
          · obtain ⟨-, -, rfl⟩ := by simpa using executes
            exact callSuited_unlockCache (callSuited_lockFile rfl)
  | flushStreams path mutex =>
      obtain rfl := Option.some.inj branches
      simp only [execCall] at executes
      split at executes
      · split at executes
        · obtain ⟨-, -, rfl⟩ := by simpa using executes
          exact callSuited_last rfl
        · obtain ⟨-, -, rfl⟩ := by simpa using executes
          exact callSuited_unlockFile
      · obtain ⟨-, -, rfl⟩ := by simpa using executes
        exact callSuited_finishClose rfl
  | upload path left mutex =>
      obtain rfl := Option.some.inj branches
      simp only [execCall] at executes
      split at executes
      · obtain ⟨-, -, rfl⟩ := by simpa using executes
        exact callSuited_finishClose rfl
      · cases left with
        | zero =>
            obtain ⟨-, -, rfl⟩ := by simpa using executes
            exact callSuited_unlockFile
        | succ left =>
            obtain ⟨-, -, rfl⟩ := by simpa using executes
            exact callSuited_last rfl
  | moveLocal oldPath newPath =>
      obtain rfl := Option.some.inj branches
      simp only [execCall] at executes
      split at executes
      · obtain ⟨-, -, rfl⟩ := by simpa using executes
        exact callSuited_underCacheMutex_act rfl rfl
      · obtain ⟨-, -, rfl⟩ := by simpa using executes
        exact rfl
  | renameOnServer oldPath newPath =>
      obtain rfl := Option.some.inj branches
      simp only [execCall, Option.map_eq_some_iff] at executes
      obtain ⟨answer, -, result⟩ := executes
      obtain ⟨-, -, rfl⟩ := by simpa using result
      exact rfl
  | findMutex path =>
      obtain rfl := Option.some.inj branches
      simp only [execCall] at executes
      split at executes
      · obtain ⟨-, -, rfl⟩ := by simpa using executes
        exact callSuited_unlockCache (callSuited_awaitFile path)
      · obtain ⟨-, -, rfl⟩ := by simpa using executes
        exact callSuited_eraseEntries path
  | unlinkOnServer path =>
      obtain rfl := Option.some.inj branches
      simp only [execCall] at executes
      split at executes
      · obtain ⟨-, -, rfl⟩ := by simpa using executes
        exact rfl
      · obtain ⟨-, -, rfl⟩ := by simpa using executes
        exact rfl
  | truncate directory filename size =>
      obtain rfl := Option.some.inj branches
      simp only [execCall] at executes
      obtain ⟨-, -, rfl⟩ := by simpa using executes
      exact rfl
  | readNote =>
      obtain rfl := Option.some.inj branches
      simp only [execCall] at executes
      split at executes
      · obtain ⟨-, -, rfl⟩ := by simpa using executes
        exact callSuited_underCacheMutex_act rfl rfl
      · obtain ⟨-, -, rfl⟩ := by simpa using executes
        exact rfl
  | storeAttr | enterDownload | syncDownload | eraseCache | insertOpened
  | markModified | syncWrite | enterCreated | insertCreated | finishUpload
  | eraseOpened | updateKeys | eraseEntries | processNote =>
      simp [CallAction.scope] at branches

theorem callSuited_of_exec {held : Set ClientLock}
    (suited : CallSuited held (.act a :: rest))
    (executes : execCall remote a c s t rest = some (s', t', after)) :
    CallSuited held after := by
  cases scope : a.scope with
  | none =>
      rw [callSuited_of_scope_none scope] at suited
      rw [after_of_scope_none scope executes]
      exact suited.2
  | some locks =>
      rw [callSuited_of_scope_some scope] at suited
      obtain ⟨rfl, rfl⟩ := suited
      exact callSuited_of_branch scope executes

end Exec

section Runs

variable {ι σ : Type*} (remote : Remote σ)

/-- At most one of these is the mutex of a file. -/
def OneFileMutex (held : Set ClientLock) : Prop :=
  ∀ first second, .fileMutex first ∈ held → .fileMutex second ∈ held →
    first = second

theorem oneFileMutex_insert {held : Set ClientLock} {l : ClientLock}
    (one : OneFileMutex held) (below : ∀ m ∈ held, m.rank < l.rank) :
    OneFileMutex (insert l held) := by
  intro first second isFirst isSecond
  have noneBelow : ∀ mutex, l = .fileMutex mutex → held = ∅ := by
    rintro mutex rfl
    apply Set.eq_empty_of_forall_notMem
    intro m member
    exact Nat.not_lt_zero _ (below m member)
  obtain isFirst | isFirst := isFirst <;> obtain isSecond | isSecond := isSecond
  · exact ClientLock.fileMutex.inj (isFirst.trans isSecond.symm)
  · rw [noneBelow first isFirst.symm] at isSecond
    exact isSecond.elim
  · rw [noneBelow second isSecond.symm] at isFirst
    exact isFirst.elim
  · exact one first second isFirst isSecond

/-- The discipline of the calls. -/
def callDiscipline : Discipline (execCall remote) fun _ _ _ => True where
  Suits held _ code := OneFileMutex held ∧ CallSuited held code
  nil suited := suited.2
  lock suited fresh :=
    ⟨oneFileMutex_insert suited.1 suited.2.1, suited.2.2 fresh⟩
  unlock suited :=
    ⟨suited.2.1, fun first second isFirst isSecond =>
      suited.1 first second isFirst.1 isSecond.1, suited.2.2⟩
  act suited _ executes := ⟨suited.1, callSuited_of_exec suited.2 executes⟩

variable {remote}

theorem ranked_callDiscipline :
    (callDiscipline remote).Ranked ClientLock.rank :=
  fun suited => suited.2.1

/-- Every program suits a thread that holds no mutex. -/
theorem callSuited_program (thread : ClientThread) :
    CallSuited ∅ thread.program := by
  have locked : ∀ a : CallAction, a.scope = some {.cacheMutex} →
      CallSuited ∅ [.lock .cacheMutex, .act a] := by
    intro a branches
    refine ⟨rank_lt_of_mem_empty, fun _ => ?_⟩
    rw [insert_empty_eq]
    exact callSuited_last branches
  cases thread with
  | runSubscriber => exact callSuited_last rfl
  | call operation =>
      cases operation with
      | truncateFile directory filename size => exact callSuited_last rfl
      | renameFile oldPath newPath => exact callSuited_last rfl
      | _ => exact locked _ rfl

theorem callDiscipline_holds_start (s : SharedClient σ)
    (threads : ι → ClientThread) :
    (callDiscipline remote).Holds (Calls.start s threads) := by
  intro i
  have free : (Calls.start s threads).held i = ∅ := by
    simp [State.held, Calls.start]
  rw [free]
  exact ⟨fun _ _ isFirst _ => isFirst.elim, callSuited_program (threads i)⟩

/-- What the order of requests gives in one state: no thread requests a mutex
that it holds; it holds the mutex of one file at most, and requests one only
without `cache_mutex`; it has released its mutexes when it is over; and from
every thread that is not over, the chain of those who wait for each other leads
to one that is not over and does not wait. -/
structure CallsProceed (σ' : Calls ι σ) : Prop where
  noSelfRequest : ∀ i l, σ'.requests i = some l → σ'.owner l ≠ some i
  oneFileMutex : ∀ i first second, σ'.owner (.fileMutex first) = some i →
    σ'.owner (.fileMutex second) = some i → first = second
  fileMutexFirst : ∀ i mutex, σ'.requests i = some (.fileMutex mutex) →
    σ'.owner .cacheMutex ≠ some i
  released : ∀ i, (σ'.threads i).code = [] → ∀ l, σ'.owner l ≠ some i
  someoneMoves : ∀ i, (σ'.threads i).code ≠ [] →
    ∃ j, Relation.ReflTransGen σ'.WaitsFor i j ∧ (σ'.threads j).code ≠ [] ∧
      ∀ k, ¬ σ'.WaitsFor j k

theorem callsProceed_of_holds {σ' : Calls ι σ}
    (holds : (callDiscipline remote).Holds σ') : CallsProceed σ' := by
  have unfinished : ∀ i l, σ'.owner l = some i → (σ'.threads i).code ≠ [] := by
    intro i l owned finished
    have suited := (holds i).2
    rw [finished] at suited
    have nothing : σ'.held i = ∅ := suited
    have member : l ∈ σ'.held i := owned
    rw [nothing] at member
    exact member
  constructor
  case noSelfRequest =>
    intro i l
    exact Discipline.not_requests_own ranked_callDiscipline holds
  case oneFileMutex =>
    intro i first second isFirst isSecond
    exact (holds i).1 first second isFirst isSecond
  case fileMutexFirst =>
    intro i mutex requested owned
    have below := Discipline.rank_lt_of_requests ranked_callDiscipline holds
      requested owned
    exact Nat.not_lt_zero _ below
  case released =>
    intro i finished l owned
    exact unfinished i l owned finished
  case someoneMoves =>
    intro i running
    obtain ⟨j, chain, idle⟩ := Discipline.exists_not_waiting
      ranked_callDiscipline ClientLock.rank_le holds i
    refine ⟨j, chain, ?_, idle⟩
    cases chain with
    | refl => exact running
    | tail _ edge =>
        obtain ⟨l, -, owned⟩ := edge
        exact unfinished j l owned

/-- The calls of a client and its subscriber thread never deadlock. -/
theorem callsProceed_of_run [DecidableEq ι] (remote : Remote σ)
    (s : SharedClient σ) (threads : ι → ClientThread)
    (labels : List (ι × CallChoice)) (σ' : Calls ι σ)
    (reaches : run (step (execCall remote)) labels (Calls.start s threads) =
      some σ') : CallsProceed σ' := by
  have holds : (callDiscipline remote).Holds σ' := by
    refine invariant_of_run' ?_ reaches (callDiscipline_holds_start s threads)
    intro label before after holds steps
    exact (callDiscipline remote).holds_of_step holds (fun _ _ _ => trivial) steps
  exact callsProceed_of_holds holds

/-- Two calls that open the same file. -/
private def twoOpens : Calls Bool Server :=
  .start (.launch "client" (Server.launch "/srv" .empty 0)) fun _ =>
    .call (.openFile "/srv/a")

/-- While one call holds `cache_mutex`, another waits for it. -/
theorem callsProceed_of_run_twoOpens :
    ∃ σ' : Calls Bool Server,
      run (step (execCall Remote.direct)) [(true, ⟨.success 0, none⟩)]
        twoOpens = some σ' ∧
      σ'.WaitsFor false true ∧ CallsProceed σ' := by
  have reaches : ∃ σ', run (step (execCall Remote.direct))
      [(true, ⟨.success 0, none⟩)] twoOpens = some σ' ∧
        σ'.WaitsFor false true :=
    ⟨_, rfl, .cacheMutex, rfl, rfl⟩
  obtain ⟨σ', reached, waits⟩ := reaches
  exact ⟨σ', reached, waits, callsProceed_of_run Remote.direct _ _ _ σ' reached⟩

end Runs

end DistributedFilesystem
