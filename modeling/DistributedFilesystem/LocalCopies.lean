import DistributedFilesystem.ModifiedCopies

/-!
# Cached copies are in place

A key of `cache` should name a local file, and the streams of an open file
should be on the file that is at its path now.  All operations keep this but
two: a rename removes a local file that the maps may still know, and a
`close_file` whose upload fails leaves closed streams behind.
-/

namespace DistributedFilesystem

open TransitionRuns

/-- Both streams are open and on the file. -/
structure FileStreams.On (streams : FileStreams) (i : Nat) : Prop where
  readNode : streams.readStream.node = i
  readOpen : streams.readStream.isOpen = true
  writeNode : streams.writeStream.node = i
  writeOpen : streams.writeStream.isOpen = true

/-- The entries of a path fit its local file. -/
structure CacheEntry.InPlace (entry : CacheEntry) : Prop where
  copy : entry.info.isSome → entry.node.isSome
  streams : ∀ streams, entry.streams = some streams →
    ∃ i, entry.node = some i ∧ streams.On i

/-- Cached paths name local files, the streams of open files are on the files
now at their paths, and so opening a cached path succeeds on the file that is
there. -/
structure Client.CopiesInPlace {σ : Type*} (remote : Remote σ)
    (client : Client) : Prop where
  copy : ∀ path, (client.cache path).isSome → (client.disk.read path).isSome
  streams : ∀ path streams, client.openedFiles path = some streams →
    ∃ i, client.disk.node path = some i ∧ streams.On i
  opens : ∀ path answers r, (client.cache path).isSome →
    answers.streams = true → ∃ client' streams i,
      client.openFile remote answers path r = ((client', r), true) ∧
      client'.openedFiles path = some streams ∧
      client'.disk = client.disk ∧
      client.disk.node path = some i ∧ streams.On i

theorem FileStreams.on_fresh (i : Nat) :
    FileStreams.On ⟨.fresh i, .fresh i⟩ i := by
  constructor <;> rfl

theorem FileStreams.On.of_keeps {change : FileStreams → FileStreams}
    (keeps : KeepsOpen change) {streams : FileStreams} {i : Nat}
    (on : streams.On i) : (change streams).On i where
  readNode := (keeps.readStream streams).node.trans on.readNode
  readOpen := (keeps.readStream streams).isOpen.trans on.readOpen
  writeNode := (keeps.writeStream streams).node.trans on.writeNode
  writeOpen := (keeps.writeStream streams).isOpen.trans on.writeOpen

theorem copiesInPlace_iff {σ : Type*} {remote : Remote σ} {client : Client} :
    client.CopiesInPlace remote ↔ ∀ path, (client.entry path).InPlace := by
  constructor
  · intro copies path
    constructor
    · intro cached
      apply FileStore.read_isSome_iff.mp
      exact copies.copy path cached
    · exact copies.streams path
  · intro inPlace
    constructor
    · intro path cached
      apply FileStore.read_isSome_iff.mpr
      exact (inPlace path).copy cached
    · exact fun path => (inPlace path).streams
    · intro path answers r cached works
      obtain ⟨info, isInfo⟩ := Option.isSome_iff_exists.mp cached
      cases opened : client.openedFiles path with
      | some streams =>
          obtain ⟨i, refers, on⟩ := (inPlace path).streams streams opened
          refine ⟨client, streams, i, ?_, opened, rfl, refers, on⟩
          simp [Client.openFile, isInfo, Client.openCached, opened]
      | none =>
          obtain ⟨i, refers⟩ :=
            Option.isSome_iff_exists.mp ((inPlace path).copy cached)
          simp only [Client.entry] at refers
          refine ⟨client.insertOpened path ⟨.fresh i, .fresh i⟩, _, i, ?_, ?_,
            rfl, refers, FileStreams.on_fresh i⟩
          · simp [Client.openFile, isInfo, Client.openCached, opened,
              Client.openStreams, refers, works]
          · simp [Client.insertOpened]

theorem inPlace_of_entryStep {refused : Prop} {entry entry' : CacheEntry}
    (step : EntryStep refused entry entry') (accepted : ¬ refused)
    (inStep : entry.InStep) (inPlace : entry.InPlace) : entry'.InPlace := by
  cases step with
  | adjusted change keeps =>
      constructor
      · exact inPlace.copy
      · intro streams isStreams
        obtain ⟨before, opened, rfl⟩ := Option.map_eq_some_iff.mp isStreams
        obtain ⟨i, refers, on⟩ := inPlace.streams before opened
        exact ⟨i, refers, on.of_keeps keeps⟩
  | written timestamp cached opened =>
      constructor
      · exact fun _ => inPlace.copy cached
      · exact inPlace.streams
  | downloaded i timestamp notCached =>
      constructor
      · exact fun _ => rfl
      · intro streams isStreams
        obtain rfl := Option.some.inj isStreams
        exact ⟨i, rfl, FileStreams.on_fresh i⟩
  | notDownloaded node notCached =>
      constructor
      · simp [notCached]
      · intro streams opened
        simp [inStep.closed notCached] at opened
  | reopened i cached closed refers =>
      constructor
      · exact inPlace.copy
      · intro streams isStreams
        obtain rfl := Option.some.inj isStreams
        exact ⟨i, refers, FileStreams.on_fresh i⟩
  | created i notCached closed =>
      constructor
      · exact fun _ => rfl
      · intro streams isStreams
        obtain rfl := Option.some.inj isStreams
        exact ⟨i, rfl, FileStreams.on_fresh i⟩
  | closed timestamp cached hadMutex opened =>
      constructor
      · exact fun _ => inPlace.copy cached
      · simp
  | dropped notCached =>
      constructor
      · exact inPlace.copy
      · simp
  | uploadRefused reason =>
      have missing : entry.node = none := reason.resolve_left accepted
      have closed : entry.streams = none := by
        by_contra opened
        obtain ⟨streams, isStreams⟩ := Option.ne_none_iff_exists'.mp opened
        obtain ⟨i, refers, -⟩ := inPlace.streams streams isStreams
        simp [missing] at refers
      constructor
      · exact inPlace.copy
      · simp [closed]
  | deleted node =>
      constructor <;> simp
  | evicted closed =>
      constructor
      · simp
      · exact inPlace.streams

section Renames

variable {answers : LocalAnswers} {oldPath newPath : Path} {client : Client}

/-- The paths of a rename are local files or not there: nothing is cached below
them. -/
structure Client.RenamesFile (answers : LocalAnswers) (oldPath newPath : Path)
    (client : Client) : Prop where
  oldNotDirectory : answers.directoryAt oldPath = none
  newNotDirectory : answers.directoryAt newPath = none
  nothingBelow : ∀ path suffix, suffix ≠ "" →
    suffixBelow oldPath path = some suffix ∨
      suffixBelow newPath path = some suffix →
    client.cache path = none

/-- After a rename the target is still in place: its local file, if the rename
removed it without moving another one there, was not cached, and it was not
open unless the source is. -/
structure Client.FreesTarget (answers : LocalAnswers) (oldPath newPath : Path)
    (client : Client) : Prop where
  failed : ¬ client.Renames answers oldPath newPath → client.cache newPath = none
  cached : client.Renames answers oldPath newPath →
    (client.cache newPath).isSome → (client.disk.read oldPath).isSome
  opened : client.Renames answers oldPath newPath →
    (client.openedFiles newPath).isSome → (client.openedFiles oldPath).isSome

theorem Separate.ne (separate : Separate oldPath newPath) :
    oldPath ≠ newPath := by
  rintro rfl
  have below := separate.newNotBelow
  simp [suffixBelow_self] at below

theorem node_renamedDisk_target (answers : LocalAnswers) (client : Client)
    (separate : Separate oldPath newPath) :
    (client.renamedDisk answers oldPath newPath).node newPath =
      client.disk.node oldPath := by
  have kept : (client.disk.remove newPath).node oldPath =
      client.disk.node oldPath :=
    FileStore.node_remove_ne separate.ne
  unfold Client.renamedDisk
  dsimp only
  split
  · rw [node_moveTree_target _ (suffixBelow_self newPath)]
    simpa using kept
  · next notLocal =>
      push Not at notLocal
      rw [kept] at notLocal
      have missing : client.disk.node oldPath = none := by
        simpa using notLocal.1
      simp [FileStore.remove, missing]

theorem node_renamedDisk_bystander (answers : LocalAnswers) (client : Client)
    {path : Path}
    (notOld : suffixBelow oldPath path = none)
    (notNew : suffixBelow newPath path = none) :
    (client.renamedDisk answers oldPath newPath).node path =
      client.disk.node path := by
  have apart : path ≠ newPath := by
    rintro rfl
    simp [suffixBelow_self] at notNew
  unfold Client.renamedDisk
  dsimp only
  split
  · rw [node_moveTree_bystander _ notOld notNew]
    exact FileStore.node_remove_ne apart
  · exact FileStore.node_remove_ne apart

variable {client' : Client}

theorem freesTarget_of_inPlace (separate : Separate oldPath newPath)
    (files : client.RenamesFile answers oldPath newPath)
    (result : Client.RenameResult answers oldPath newPath client client')
    (inPlace : ∀ path, (client.entry path).InPlace)
    (inPlace' : ∀ path, (client'.entry path).InPlace) :
    client.FreesTarget answers oldPath newPath := by
  have ofNew := inPlace newPath
  have ofNew' := inPlace' newPath
  cases result with
  | refused notRenamed nonempty =>
      simp [files.newNotDirectory] at nonempty
  | failed notRenamed fails =>
      constructor
      · intro _
        by_contra cached
        have copy := ofNew'.copy (Option.isSome_iff_ne_none.mpr cached)
        simp [Client.entry, FileStore.remove] at copy
      · exact fun renames => (notRenamed renames).elim
      · exact fun renames => (notRenamed renames).elim
  | moved renames =>
      have belowNew := suffixBelow_self newPath
      have target := node_renamedDisk_target answers client separate
      constructor
      · exact fun notRenamed => (notRenamed renames).elim
      · intro _ cached
        rw [FileStore.read_isSome_iff, ← target]
        apply ofNew'.copy
        simp only [Client.entry,
          updateMapKeys_target _ belowNew separate.newNotBelow]
        simp [cached]
      · intro _ opened
        by_contra closed
        obtain ⟨streams, isStreams⟩ := Option.isSome_iff_exists.mp opened
        obtain ⟨i, refers, on⟩ := ofNew.streams streams isStreams
        have moved : updateMapKeys oldPath newPath client.openedFiles newPath =
            some streams := by
          rw [updateMapKeys_target _ belowNew separate.newNotBelow]
          simp only [String.append_empty]
          rw [Option.not_isSome_iff_eq_none.mp closed, Option.none_or, isStreams]
        obtain ⟨j, refers', on'⟩ := ofNew'.streams streams moved
        simp only [Client.entry, target] at refers refers'
        have same : i = j := on.readNode.symm.trans on'.readNode
        subst same
        exact separate.ne (client.disk.node_injective refers' refers)

theorem inPlace_of_freesTarget (separate : Separate oldPath newPath)
    (files : client.RenamesFile answers oldPath newPath)
    (result : Client.RenameResult answers oldPath newPath client client')
    (inStep : ∀ path, (client.entry path).InStep)
    (inPlace : ∀ path, (client.entry path).InPlace)
    (frees : client.FreesTarget answers oldPath newPath) (path : Path) :
    (client'.entry path).InPlace := by
  have ofPath := inPlace path
  cases result with
  | refused notRenamed nonempty => exact ofPath
  | failed notRenamed fails =>
      by_cases same : path = newPath
      · subst same
        have notCached := frees.failed notRenamed
        have closed : client.openedFiles path = none :=
          (inStep path).closed notCached
        constructor
        · simp [Client.entry, notCached]
        · simp [Client.entry, closed]
      · have kept : (client.disk.remove newPath).node path =
            client.disk.node path :=
          FileStore.node_remove_ne same
        constructor
        · simpa [Client.entry, kept] using ofPath.copy
        · simpa [Client.entry, kept] using ofPath.streams
  | moved renames =>
      cases renameRole_of_separate separate path with
      | target suffix belowNew notOld =>
          obtain ⟨eq, isBelow⟩ := eq_append_of_suffixBelow belowNew
          by_cases atTarget : suffix = ""
          · obtain rfl : path = newPath := by simpa [atTarget] using eq
            have target := node_renamedDisk_target answers client separate
            have ofOld := inPlace oldPath
            constructor
            · simp only [Client.entry, updateMapKeys_target _ belowNew notOld,
                target, atTarget, String.append_empty]
              intro cached
              rw [Option.isSome_or, Bool.or_eq_true] at cached
              cases cached with
              | inl moved => exact ofOld.copy moved
              | inr kept =>
                  exact FileStore.read_isSome_iff.mp (frees.cached renames kept)
            · simp only [Client.entry, updateMapKeys_target _ belowNew notOld,
                target, atTarget, String.append_empty]
              intro streams opened
              rcases Option.or_eq_some_iff.mp opened with moved | ⟨closed, kept⟩
              · exact ofOld.streams streams moved
              · have opened := frees.opened renames (by rw [kept]; rfl)
                simp [closed] at opened
          · have belowOld := suffixBelow_append oldPath isBelow
            have notCached : client.cache path = none :=
              files.nothingBelow path suffix atTarget (.inr belowNew)
            have noSource : client.cache (oldPath ++ suffix) = none :=
              files.nothingBelow _ suffix atTarget (.inl belowOld)
            have closed : client.openedFiles path = none :=
              (inStep path).closed notCached
            have sourceClosed : client.openedFiles (oldPath ++ suffix) = none :=
              (inStep _).closed noSource
            constructor
            · simp [Client.entry, updateMapKeys_target _ belowNew notOld,
                notCached, noSource]
            · simp [Client.entry, updateMapKeys_target _ belowNew notOld, closed,
                sourceClosed]
      | source suffix belowOld notNew =>
          constructor
          · simp [Client.entry, updateMapKeys_source _ belowOld notNew]
          · simp [Client.entry, updateMapKeys_source _ belowOld notNew]
      | bystander notOld notNew =>
          have kept := node_renamedDisk_bystander answers client notOld notNew
          constructor
          · simpa [Client.entry, kept,
              updateMapKeys_bystander _ notOld notNew] using ofPath.copy
          · simpa [Client.entry, kept,
              updateMapKeys_bystander _ notOld notNew] using ofPath.streams

end Renames

/-! ## Runs -/

/-- Renames are of files. -/
def ClientEvent.OnFiles {σ : Type*} : ClientEvent → Client × σ → Prop
  | .call (.renameFile oldPath newPath) answers, state =>
      state.1.RenamesFile answers oldPath newPath
  | _, _ => True

/-- The event keeps maps and local files in step: a rename frees its target,
and an upload can open the local copy again. -/
def ClientEvent.KeepsInPlace {σ : Type*} : ClientEvent → Client × σ → Prop
  | .call (.renameFile oldPath newPath) answers, state =>
      state.1.FreesTarget answers oldPath newPath
  | .call (.closeFile path) answers, state =>
      state.1.Uploads answers path → answers.reopen = true
  | _, _ => True

/-- When `close_file` cannot open the copy again, it leaves closed streams
behind. -/
theorem closeFile_of_cannot_reopen {σ : Type*} (remote : Remote σ) (r : σ)
    {answers : LocalAnswers} {path : Path} {client : Client}
    (uploads : client.Uploads answers path) (cannot : answers.reopen = false) :
    (client.closeFile remote answers path r).1.1 =
      client.setStreams path FileStreams.close := by
  obtain ⟨info, cached, modified⟩ := uploads.modified
  obtain ⟨streams, opened, flushes⟩ := uploads.flushes
  simp [Client.closeFile, opened, uploads.hasMutex, cached, modified,
    Client.closeModified, Client.beginUpload, flushes, cannot]
  rfl

section Runs

variable {σ : Type*} {remote : Remote σ}

theorem reopen_of_inPlace {answers : LocalAnswers} {path : Path}
    {client : Client} {r : σ} (inPlace : ∀ path, (client.entry path).InPlace)
    (inPlace' : ∀ other,
      ((client.closeFile remote answers path r).1.1.entry other).InPlace)
    (uploads : client.Uploads answers path) : answers.reopen = true := by
  by_contra cannot
  have closes := closeFile_of_cannot_reopen remote r uploads
    (by simpa using cannot)
  obtain ⟨streams, opened, -⟩ := uploads.flushes
  have closed : (client.setStreams path FileStreams.close).openedFiles path =
      some streams.close := by
    simp [Client.setStreams, opened]
  have ofPath' := inPlace' path
  rw [closes] at ofPath'
  obtain ⟨i, -, on⟩ := (inPlace path).streams streams opened
  obtain ⟨j, -, on'⟩ := ofPath'.streams _ closed
  have isOpen := on'.readOpen
  simp [FileStreams.close, FileStream.close, on.readOpen] at isOpen

theorem copiesInPlace_step_iff {event : ClientEvent} {state next : Client × σ}
    (accepts : remote.AcceptsUploads) (separates : event.Separates)
    (onFiles : event.OnFiles state)
    (inStep : ∀ path, (state.1.entry path).InStep)
    (inPlace : state.1.CopiesInPlace remote)
    (steps : event.step remote state = some next) :
    next.1.CopiesInPlace remote ↔ event.KeepsInPlace state := by
  rw [copiesInPlace_iff] at inPlace ⊢
  by_cases isRename : ∃ oldPath newPath answers,
      event = .call (.renameFile oldPath newPath) answers
  · obtain ⟨oldPath, newPath, answers, rfl⟩ := isRename
    obtain ⟨result, renamed, rfl⟩ := Option.map_eq_some_iff.mp steps
    have effect := Client.renameResult_of_renameFile renamed
    constructor
    · exact freesTarget_of_inPlace separates onFiles effect inPlace
    · exact inPlace_of_freesTarget separates onFiles effect inStep inPlace
  · push Not at isRename
    constructor
    · intro inPlace'
      unfold ClientEvent.KeepsInPlace
      split
      · next oldPath newPath answers => exact (isRename _ _ _ rfl).elim
      · next path answers =>
          obtain rfl := Option.some.inj steps
          exact reopen_of_inPlace inPlace inPlace'
      · trivial
    · intro keeps
      have accepted : ¬ event.MayRefuse remote state.1 := by
        unfold ClientEvent.MayRefuse
        split
        · rintro ⟨uploads, cannot | rejects⟩
          · have reopens := keeps uploads
            simp [cannot] at reopens
          · exact rejects accepts
        · exact id
      obtain ⟨changed, change⟩ := exists_entryChange_of_step isRename steps
      intro path
      by_cases same : path = changed
      · rw [same]
        exact inPlace_of_entryStep change.here accepted (inStep changed)
          (inPlace changed)
      · rw [change.elsewhere path same]
        exact inPlace path

/-- In a run of one client whose uploads reach the server, with renames of
files only: cached copies are in place in every state if and only if every
rename frees its target and every upload can open the local copy again. -/
theorem copiesInPlace_throughout_iff {client : ClientId} {r : σ}
    {events : List ClientEvent} {final : Client × σ}
    (accepts : remote.AcceptsUploads)
    (separates : ∀ event ∈ events, event.Separates)
    (onFiles : Along (ClientEvent.step remote) ClientEvent.OnFiles events
      (Client.launch client, r))
    (reaches : run (ClientEvent.step remote) events (Client.launch client, r) =
      some final) :
    Throughout (ClientEvent.step remote)
        (fun state => state.1.CopiesInPlace remote) events
        (Client.launch client, r) ↔
      Along (ClientEvent.step remote) ClientEvent.KeepsInPlace events
        (Client.launch client, r) := by
  have separate : Along (ClientEvent.step remote)
      (fun event _ => event.Separates) events (Client.launch client, r) :=
    along_of_forall (fun event member _ => separates event member) _
  apply throughout_iff_along
    (fun state : Client × σ => ∀ path, (state.1.entry path).InStep)
    _ _ reaches (separate.and onFiles) (inStep_launch client)
  · rw [copiesInPlace_iff]
    intro path
    constructor <;> simp [Client.entry, Client.launch]
  · intro event state next suits inStep steps
    exact inStep_of_step suits.1 inStep steps
  · intro event state next suits inStep inPlace steps
    exact copiesInPlace_step_iff accepts suits.1 suits.2 inStep inPlace steps

end Runs

/-- Every upload that reaches the server is answered with OK. -/
theorem acceptsUploads_direct : Remote.direct.AcceptsUploads := by
  intro s stream nonempty
  cases stream with
  | nil => exact (nonempty rfl).elim
  | cons first later => rfl

/-- A server with two files of one byte. -/
private def twoFiles : Server :=
  Server.launch "/srv"
    ((FileStore.empty.replace "/srv/a" [[97]] 0).replace "/srv/b" [[98]] 0) 0

/-- One file is opened, closed and renamed to a new name. -/
private def renamedToFreeName : List ClientEvent :=
  [.call (.openFile "/srv/a") (.success 1),
    .call (.closeFile "/srv/a") (.success 2),
    .call (.renameFile "/srv/a" "/srv/c") (.success 3)]

/-- One file is opened and closed, and renamed to the other while that one is
open. -/
private def renamedOverOpenFile : List ClientEvent :=
  [.call (.openFile "/srv/a") (.success 1),
    .call (.closeFile "/srv/a") (.success 2),
    .call (.openFile "/srv/b") (.success 3),
    .call (.renameFile "/srv/a" "/srv/b") (.success 4)]

theorem copiesInPlace_throughout_freeName :
    Throughout (ClientEvent.step .direct)
      (fun state => state.1.CopiesInPlace .direct) renamedToFreeName
      (Client.launch "writer", twoFiles) := by
  have separate : Separate "/srv/a" "/srv/c" := by
    constructor <;> decide
  have separates : ∀ event ∈ renamedToFreeName, event.Separates := by
    simp [renamedToFreeName, ClientEvent.Separates, separate]
  have cacheEmpty : ∀ (path : Path) info, path ≠ "/srv/a" →
      Function.update (fun _ => none) "/srv/a" info path =
        (none : Option FileInfo) := by
    intro path info apart
    simp [apart]
  have onFiles : Along (ClientEvent.step .direct) ClientEvent.OnFiles
      renamedToFreeName (Client.launch "writer", twoFiles) := by
    refine ⟨trivial, fun _ opened => ?_⟩
    obtain rfl := Option.some.inj opened
    refine ⟨trivial, fun _ closed => ?_⟩
    obtain rfl := Option.some.inj closed
    refine ⟨⟨rfl, rfl, ?_⟩, fun _ _ => trivial⟩
    intro path suffix nonempty below
    by_cases same : path = "/srv/a"
    · subst same
      have isSuffix : suffixBelow "/srv/c" "/srv/a" = none := by decide
      simp [suffixBelow_self, isSuffix, Ne.symm nonempty] at below
    · exact cacheEmpty path _ same
  apply (copiesInPlace_throughout_iff acceptsUploads_direct separates onFiles
    rfl).mpr
  refine ⟨trivial, fun _ opened => ?_⟩
  obtain rfl := Option.some.inj opened
  refine ⟨fun _ => rfl, fun _ closed => ?_⟩
  obtain rfl := Option.some.inj closed
  refine ⟨⟨fun _ => rfl, fun _ cached => ?_, fun _ isOpen => ?_⟩,
    fun _ _ => trivial⟩
  · cases cached
  · cases isOpen

/-- After the rename the target is open, but its streams are on the file that
was replaced: they read its old content. -/
theorem renamed_over_open_file :
    ∃ final : Client × Server,
      run (ClientEvent.step .direct) renamedOverOpenFile
        (Client.launch "writer", twoFiles) = some final ∧
      (∃ streams, final.1.openedFiles "/srv/b" = some streams ∧
        final.1.disk.node "/srv/b" ≠ some streams.readStream.node) ∧
      (final.1.openFile .direct (.success 5) "/srv/b" final.2).2 = true ∧
      (final.1.readFile "/srv/b" 1 0).2 = some [98] ∧
      final.1.disk.read "/srv/b" = some [97] ∧
      final.2.disk.read "/srv/b" = some [97] :=
  ⟨_, rfl, ⟨_, rfl, by decide⟩, rfl, rfl, rfl, rfl⟩

end DistributedFilesystem
