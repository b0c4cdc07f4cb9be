import DistributedFilesystem.TreeRemovals
import DistributedFilesystem.ReportedRenames
import DistributedFilesystem.FailedDeletions

/-!
# Deletions that are reported as done

The handler of `unlink` serves files and directories.  It tells two error codes
of `std::filesystem::remove` from the others, and answers OK to the others as
it does when the path was removed.  So what it answers is true if and only if
nothing but missing permissions kept the path from being removed.
-/

namespace DistributedFilesystem

/-- A value of `std::error_code` that stands for an error. -/
inductive ErrorCode where
  | permissionDenied
  | noSuchFileOrDirectory
  | notADirectory
  | directoryNotEmpty
  | deviceOrResourceBusy
  | invalidArgument
  | other (value : Nat)
deriving DecidableEq

/-- What `std::filesystem::remove` returns and stores in its error code. -/
inductive RemoveOutcome where
  | removed
  | absent
  | error (code : ErrorCode)
deriving DecidableEq

/-- What the operating system answers to the handler of an unlink, where this
does not follow from the tree. -/
structure RemovalAnswers where
  workingDirectory : List (List Char)
  maySearch : List (List Char) → Bool
  mayWrite : List (List Char) → Bool
  /-- An error for a reason outside the tree and its permissions. -/
  refusal : Option ErrorCode

def ErrorCode.ofRemoval : RemovalError → ErrorCode
  | .accessDenied => .permissionDenied
  | .notDirectory => .notADirectory
  | .notEmpty => .directoryNotEmpty
  | .busy => .deviceOrResourceBusy
  | .invalid => .invalidArgument

/-- What stands between two slashes of a path. -/
def pathPart (part : List Char) : PathPart (List Char) :=
  if part = ['.'] then .here
  else if part = ['.', '.'] then .parent
  else .name part

/-- How the operating system takes the path of a request. -/
def RemovalAnswers.route (answers : RemovalAnswers) (path : Path) :
    PathRoute (List Char) where
  start :=
    if PosixPaths.isAbsolute '/' path.toList then [] else answers.workingDirectory
  parts := (pathNames path).map pathPart
  slash := path.toList.getLast? == some '/'

/-- What the path refers to; the empty path refers to nothing. -/
def RemovalAnswers.lookup (answers : RemovalAnswers)
    (tree : FileTree (List Char) Nat) (path : Path) : Option (TreeEntry Nat) :=
  if path = "" then none else tree.lookup (answers.route path)

/-- `std::filesystem::remove`, which returns false without an error where the
operating system answers `ENOENT`. -/
def filesystemRemove (answers : RemovalAnswers)
    (tree : FileTree (List Char) Nat) (path : Path) :
    FileTree (List Char) Nat × RemoveOutcome :=
  match answers.refusal with
  | some code => (tree, .error code)
  | none =>
      if path = "" then (tree, .absent)
      else
        let (tree, removal) :=
          tree.remove answers.maySearch answers.mayWrite (answers.route path)
        match removal with
        | .removed => (tree, .removed)
        | .missing => (tree, .absent)
        | .refused error => (tree, .error (.ofRemoval error))

/-- `unlink` on files and directories. -/
def TreeServer.unlinkHandler (answers : RemovalAnswers) (s : TreeServer)
    (path : Path) (clientId : ClientId) : TreeServer × Status :=
  let (tree, outcome) := filesystemRemove answers s.tree path
  match outcome with
  | .removed =>
      (⟨tree, s.server.fileChangeCallbackUnlink path clientId
        (Server.deleteNotification path)⟩, Status.OK)
  | .error .permissionDenied =>
      (⟨tree, s.server⟩, ⟨.permissionDenied, "Permission denied"⟩)
  | .error .noSuchFileOrDirectory =>
      (⟨tree, s.server⟩, ⟨.notFound, "Source file not found"⟩)
  -- Any other error code falls through to the final return.
  | .error _ => (⟨tree, s.server⟩, Status.OK)
  | .absent => (⟨tree, s.server⟩, ⟨.notFound, "Source file not found"⟩)

/-- A client is connected to the server, whose operating system gives these
answers to unlinks. -/
def Remote.withRemovals (remote : Remote TreeServer)
    (answers : RemovalAnswers) : Remote TreeServer :=
  { remote with unlinkCall := TreeServer.unlinkHandler answers }

/-- `unlink` answers OK if and only if it removed something, changes nothing
when it does not, and `delete_file` returns true only if the path is gone. -/
structure UnlinksTruly (remote : Remote TreeServer) (answers : RemovalAnswers)
    (client : Client) (s : TreeServer) (path : Path) : Prop where
  answersOK : (s.unlinkHandler answers path client.clientId).2.isOk = true ↔
    answers.lookup s.tree path ≠ none ∧
      answers.lookup (s.unlinkHandler answers path client.clientId).1.tree path =
        none
  unchanged : (s.unlinkHandler answers path client.clientId).2.isOk = false →
    (s.unlinkHandler answers path client.clientId).1 = s
  reported :
    (client.deleteFile (remote.withRemovals answers) path s).2 = true →
      answers.lookup
        (client.deleteFile (remote.withRemovals answers) path s).1.2.tree path =
          none

/-- Whatever keeps the path from being removed has an error code that the
handler knows. -/
structure KnownRefusals (answers : RemovalAnswers)
    (tree : FileTree (List Char) Nat) (path : Path) : Prop where
  refusal : ∀ code, answers.refusal = some code →
    code = .permissionDenied ∨ code = .noSuchFileOrDirectory
  inTree : answers.refusal = none → path ≠ "" →
    ¬ tree.Undeletable answers.maySearch answers.mayWrite (answers.route path)

section Handler

variable {answers : RemovalAnswers} {s : TreeServer} {path : Path}
variable {tree : FileTree (List Char) Nat} {clientId : ClientId}
variable {code : ErrorCode}

/-- `std::filesystem::remove` removes what is there, or changes nothing. -/
theorem filesystemRemove_cases (answers : RemovalAnswers)
    (tree : FileTree (List Char) Nat) (path : Path) :
    (filesystemRemove answers tree path).2 = .removed ∧
        answers.lookup tree path ≠ none ∧
        answers.lookup (filesystemRemove answers tree path).1 path = none ∨
      (filesystemRemove answers tree path).2 = .absent ∧
        answers.lookup tree path = none ∧
        (filesystemRemove answers tree path).1 = tree ∨
      (∃ code, (filesystemRemove answers tree path).2 = .error code) ∧
        (filesystemRemove answers tree path).1 = tree := by
  unfold filesystemRemove
  cases refusal : answers.refusal with
  | some code => simp
  | none =>
      by_cases isEmpty : path = ""
      · simp [isEmpty, RemovalAnswers.lookup]
      simp only [RemovalAnswers.lookup, isEmpty, if_false, FileTree.remove_snd]
      cases removal : tree.removal answers.maySearch answers.mayWrite
          (answers.route path) with
      | removed =>
          obtain ⟨inUse, after⟩ := FileTree.lookup_remove removal
          simp [inUse, after]
      | missing =>
          have same : (tree.remove answers.maySearch answers.mayWrite
              (answers.route path)).1 = tree :=
            FileTree.remove_fst_of_ne (by simp [removal])
          have nothing := FileTree.lookup_of_removal_missing removal
          simp [same, nothing]
      | refused error =>
          have same : (tree.remove answers.maySearch answers.mayWrite
              (answers.route path)).1 = tree :=
            FileTree.remove_fst_of_ne (by simp [removal])
          simp [same]

/-- An error code that the handler does not know is one that the operating
system reports, or stands for something else than missing permissions. -/
theorem knownRefusals_iff :
    KnownRefusals answers tree path ↔
      ∀ code, (filesystemRemove answers tree path).2 = .error code →
        code = .permissionDenied ∨ code = .noSuchFileOrDirectory := by
  have spelled : KnownRefusals answers tree path ↔
      (∀ code, answers.refusal = some code →
        code = .permissionDenied ∨ code = .noSuchFileOrDirectory) ∧
      (answers.refusal = none → path ≠ "" →
        ¬ ∃ error, tree.removal answers.maySearch answers.mayWrite
          (answers.route path) = .refused error ∧ error ≠ .accessDenied) := by
    rw [FileTree.removal_refused_iff]
    constructor
    · intro known
      exact ⟨known.refusal, known.inTree⟩
    · rintro ⟨refusal, inTree⟩
      exact ⟨refusal, inTree⟩
  rw [spelled]
  unfold filesystemRemove
  cases refusal : answers.refusal with
  | some code => simp
  | none =>
      by_cases isEmpty : path = ""
      · simp [isEmpty]
      simp only [isEmpty, if_false, FileTree.remove_snd]
      cases removal : tree.removal answers.maySearch answers.mayWrite
          (answers.route path) with
      | removed => simp
      | missing => simp
      | refused error => cases error <;> simp [ErrorCode.ofRemoval, isEmpty]

/-- A path that `std::filesystem::remove` reported as removed or absent, or
with a known error code, is answered truly. -/
theorem unlinkHandler_of_known
    (known : ∀ code, (filesystemRemove answers s.tree path).2 = .error code →
      code = .permissionDenied ∨ code = .noSuchFileOrDirectory) :
    ((s.unlinkHandler answers path clientId).2.isOk = true ↔
        answers.lookup s.tree path ≠ none ∧
          answers.lookup (s.unlinkHandler answers path clientId).1.tree path =
            none) ∧
      ((s.unlinkHandler answers path clientId).2.isOk = false →
        (s.unlinkHandler answers path clientId).1 = s) := by
  unfold TreeServer.unlinkHandler
  rcases filesystemRemove_cases answers s.tree path with
    ⟨outcome, inUse, gone⟩ | ⟨outcome, missing, same⟩ | ⟨⟨code, outcome⟩, same⟩
  · simp [outcome, inUse, gone]
  · simp [outcome, same, missing, Status.isOk]
  · obtain rfl | rfl := known code outcome
    · simp +contextual [outcome, same, Status.isOk]
    · simp +contextual [outcome, same, Status.isOk]

/-- The handler answers OK to any other error code, having changed nothing. -/
theorem unlinkHandler_of_unknown
    (outcome : (filesystemRemove answers s.tree path).2 = .error code)
    (unknown : ¬ (code = .permissionDenied ∨ code = .noSuchFileOrDirectory)) :
    s.unlinkHandler answers path clientId = (s, Status.OK) := by
  have same : (filesystemRemove answers s.tree path).1 = s.tree := by
    rcases filesystemRemove_cases answers s.tree path with
      ⟨removed, -⟩ | ⟨absent, -⟩ | ⟨-, same⟩
    · simp [outcome] at removed
    · simp [outcome] at absent
    · exact same
  unfold TreeServer.unlinkHandler
  dsimp only
  rw [same, outcome]
  cases code with
  | permissionDenied => simp at unknown
  | noSuchFileOrDirectory => simp at unknown
  | notADirectory => rfl
  | directoryNotEmpty => rfl
  | deviceOrResourceBusy => rfl
  | invalidArgument => rfl
  | other value => rfl

/-- What the handler on regular files does to its store, removing does to the
files of a tree. -/
theorem showsFiles_remove {disk : FileStore Path Byte}
    {route : PathRoute (List Char)} (shows : ShowsFiles tree disk)
    (areNames : ∀ name ∈ FileTree.destination route, PosixPaths.IsName '/' name)
    (removed : tree.removal answers.maySearch answers.mayWrite route =
      .removed) :
    ShowsFiles (tree.remove answers.maySearch answers.mayWrite route).1
      (disk.remove (String.ofList
        (PosixPaths.absolutePath '/' (FileTree.destination route)))) := by
  intro others i areOther
  rw [FileTree.entry_remove removed]
  by_cases same : others = FileTree.destination route
  · simp [same, FileStore.remove]
  · have apart : String.ofList (PosixPaths.absolutePath '/' others) ≠
        String.ofList
          (PosixPaths.absolutePath '/' (FileTree.destination route)) := by
      rwa [ne_eq, ofList_absolutePath_inj areOther areNames]
    rw [FileStore.node_remove_ne apart, Function.update_of_ne same]
    exact shows others i areOther

end Handler

/-- An unlink is answered truly if and only if whatever keeps the path from
being removed has an error code that the handler knows. -/
theorem unlinksTruly_iff (remote : Remote TreeServer)
    (answers : RemovalAnswers) (client : Client) (s : TreeServer)
    (path : Path) :
    UnlinksTruly remote answers client s path ↔
      KnownRefusals answers s.tree path := by
  rw [knownRefusals_iff]
  constructor
  · intro truly code outcome
    by_contra unknown
    have handled : s.unlinkHandler answers path client.clientId =
        (s, Status.OK) := unlinkHandler_of_unknown outcome unknown
    have answered := truly.answersOK
    rw [handled] at answered
    obtain ⟨inUse, gone⟩ := answered.mp rfl
    exact inUse gone
  · intro known
    have answersOK : (s.unlinkHandler answers path client.clientId).2.isOk =
        true ↔ answers.lookup s.tree path ≠ none ∧
          answers.lookup (s.unlinkHandler answers path client.clientId).1.tree
            path = none := (unlinkHandler_of_known known).1
    constructor
    case answersOK => exact answersOK
    case unchanged => exact (unlinkHandler_of_known known).2
    case reported =>
      obtain ⟨result, -⟩ :=
        Client.deleteFile_result (remote.withRemovals answers) path client s
      rw [result]
      intro ok
      have after :
          (client.deleteFile (remote.withRemovals answers) path s).1.2 =
            (s.unlinkHandler answers path client.clientId).1 := by
        unfold Client.deleteFile
        dsimp only
        split <;> rfl
      rw [after]
      exact (answersOK.mp ok).2

/-- A server with a directory that is not empty. -/
private def fullDirectory : TreeServer where
  tree :=
    let root : FileTree (List Char) Nat := .empty
    let docs := root.createDirectories (fun _ => true)
      ["srv".toList, "docs".toList]
    docs.1.createFile ["srv".toList, "docs".toList] "a".toList 0 (by decide)
      (by decide)
  server := .launch "/srv" (FileStore.empty.create "/srv/docs/a" 0) 0

/-- An operating system that refuses nothing by itself. -/
private def permitsRemovals : RemovalAnswers where
  workingDirectory := []
  maySearch _ := true
  mayWrite _ := true
  refusal := none

/-- A connection on which only unlinks get through. -/
private def onlyUnlinks : Remote TreeServer where
  openCall s _ := (s, [], ⟨.unavailable, ""⟩)
  closeCall s _ := (s, ⟨[], 0, 0⟩, ⟨.unavailable, ""⟩)
  unlinkCall := TreeServer.unlinkHandler permitsRemovals
  renameCall s _ _ _ := some (s, ⟨.unavailable, ""⟩)
  getattrCall s _ := (s, ⟨0, 0, 0, 0⟩, ⟨.unavailable, ""⟩)

/-- A client removes a directory that is not empty: this is reported as done,
and the directory stays. -/
theorem rmdir_of_nonempty_reported :
    ¬ UnlinksTruly onlyUnlinks permitsRemovals (.launch "writer") fullDirectory
      "/srv/docs" := by
  intro truly
  have stays := truly.reported (by decide)
  exact absurd stays (by decide)

end DistributedFilesystem
