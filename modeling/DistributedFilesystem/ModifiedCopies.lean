import DistributedFilesystem.ClientEntries
import DistributedFilesystem.TransitionRuns

/-!
# Modified copies are open, and open files are cached

Whatever the server and the local file system answer, and whatever
notifications are processed between the calls of a client, an open file has an
entry in the cache, and an entry that is marked as modified belongs to an open
file.
-/

namespace DistributedFilesystem

open TransitionRuns

/-- The entries of a path are in step: open implies cached, and modified
implies open. -/
structure CacheEntry.InStep (entry : CacheEntry) : Prop where
  cached : entry.streams.isSome → entry.info.isSome
  opened : ∀ info, entry.info = some info → info.locallyModified →
    entry.streams.isSome

theorem CacheEntry.InStep.closed {entry : CacheEntry} (inStep : entry.InStep)
    (notCached : entry.info = none) : entry.streams = none := by
  by_contra opened
  have cached := inStep.cached (Option.isSome_iff_ne_none.mpr opened)
  simp [notCached] at cached

/-- A rename is between separate paths. -/
def ClientEvent.Separates : ClientEvent → Prop
  | .call (.renameFile oldPath newPath) _ => Separate oldPath newPath
  | _ => True

theorem inStep_of_entryStep {refused : Prop} {entry entry' : CacheEntry}
    (step : EntryStep refused entry entry') (inStep : entry.InStep) :
    entry'.InStep := by
  cases step with
  | adjusted change keeps =>
      constructor
      · intro opened
        apply inStep.cached
        simpa using opened
      · intro info cached modified
        simpa using inStep.opened info cached modified
  | written timestamp cached opened =>
      constructor
      · exact fun _ => rfl
      · exact fun _ _ _ => opened
  | downloaded i timestamp notCached =>
      constructor
      · exact fun _ => rfl
      · exact fun _ _ _ => rfl
  | notDownloaded node notCached =>
      exact ⟨inStep.cached, inStep.opened⟩
  | reopened i cached closed refers =>
      constructor
      · exact fun _ => cached
      · exact fun _ _ _ => rfl
  | created i notCached closed =>
      constructor
      · exact fun _ => rfl
      · exact fun _ _ _ => rfl
  | closed timestamp cached hadMutex opened =>
      constructor
      · simp
      · intro info isInfo modified
        obtain rfl := Option.some.inj isInfo
        simp at modified
  | dropped notCached =>
      constructor
      · simp
      · simp [notCached]
  | uploadRefused reason =>
      constructor
      · intro opened
        apply inStep.cached
        simpa using opened
      · intro info cached modified
        simpa using inStep.opened info cached modified
  | deleted node =>
      constructor <;> simp
  | evicted closed =>
      constructor
      · simp [closed]
      · simp

theorem inStep_of_renameResult {answers : LocalAnswers} {oldPath newPath : Path}
    {client client' : Client} (separate : Separate oldPath newPath)
    (result : Client.RenameResult answers oldPath newPath client client')
    (inStep : ∀ path, (client.entry path).InStep) (path : Path) :
    (client'.entry path).InStep := by
  cases result with
  | refused notRenamed nonempty => exact inStep path
  | failed notRenamed fails => exact ⟨(inStep path).cached, (inStep path).opened⟩
  | moved renames =>
      cases renameRole_of_separate separate path with
      | target suffix belowNew notOld =>
          have ofSource := inStep (oldPath ++ suffix)
          have ofTarget := inStep path
          constructor
          · simp only [Client.entry, updateMapKeys_target _ belowNew notOld]
            intro opened
            rw [Option.isSome_or, Bool.or_eq_true] at opened ⊢
            exact opened.imp ofSource.cached ofTarget.cached
          · simp only [Client.entry, updateMapKeys_target _ belowNew notOld]
            intro info cached modified
            rw [Option.isSome_or, Bool.or_eq_true]
            rcases Option.or_eq_some_iff.mp cached with moved | ⟨-, kept⟩
            · exact .inl (ofSource.opened info moved modified)
            · exact .inr (ofTarget.opened info kept modified)
      | source suffix belowOld notNew =>
          constructor
          · simp [Client.entry, updateMapKeys_source _ belowOld notNew]
          · simp [Client.entry, updateMapKeys_source _ belowOld notNew]
      | bystander notOld notNew =>
          have ofPath := inStep path
          constructor
          · simpa [Client.entry, updateMapKeys_bystander _ notOld notNew] using
              ofPath.cached
          · simpa [Client.entry, updateMapKeys_bystander _ notOld notNew] using
              ofPath.opened

section Runs

variable {σ : Type*} {remote : Remote σ} {client : ClientId} {r : σ}

theorem inStep_launch (client : ClientId) (path : Path) :
    ((Client.launch client).entry path).InStep := by
  constructor <;> simp [Client.entry, Client.launch]

theorem inStep_of_step {event : ClientEvent} {state next : Client × σ}
    (separates : event.Separates)
    (inStep : ∀ path, (state.1.entry path).InStep)
    (steps : event.step remote state = some next) (path : Path) :
    (next.1.entry path).InStep := by
  apply forall_entry_of_step CacheEntry.InStep _ _ inStep steps
  · exact fun _ _ step => inStep_of_entryStep step
  · intro oldPath newPath answers isRename client' result
    subst isRename
    exact inStep_of_renameResult separates result inStep

/-- In every state that one client reaches by calls and notifications, the
entries of every path are in step. -/
theorem inStep_of_run {events : List ClientEvent} {final : Client × σ}
    (separates : ∀ event ∈ events, event.Separates)
    (reaches : run (ClientEvent.step remote) events (Client.launch client, r) =
      some final) (path : Path) : (final.1.entry path).InStep := by
  have along : Along (ClientEvent.step remote)
      (fun event _ => event.Separates) events (Client.launch client, r) :=
    along_of_forall (fun event member _ => separates event member) _
  have preserved : ∀ (event : ClientEvent) (state next : Client × σ),
      event.Separates → (∀ path, (state.1.entry path).InStep) →
      event.step remote state = some next →
      ∀ path, (next.1.entry path).InStep :=
    fun event state next separate inStep steps =>
      inStep_of_step separate inStep steps
  exact invariant_of_run preserved reaches along (inStep_launch client) path

end Runs

end DistributedFilesystem
