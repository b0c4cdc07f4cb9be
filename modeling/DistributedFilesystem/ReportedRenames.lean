import DistributedFilesystem.FileTree
import DistributedFilesystem.PathKeys
import DistributedFilesystem.ClientEntries

/-!
# Renames that are reported as done

Here the server has directories besides files, so that a rename can fail there
in every way in which the operating system refuses it.  The server answers all
failures in the way that the client takes for a file that it has not uploaded
yet.  So a rename is reported as done whenever its call was answered, and it is
done unless something at the server kept the file or directory from moving.
-/

namespace DistributedFilesystem

/-- The names in a server path; `.` and `..` occur in the part that all server
paths share, and are names like all others. -/
def pathNames (path : Path) : List (List Char) :=
  PosixPaths.components '/' path.toList

/-- What the operating system answers to the handler of a rename, where this
does not follow from the tree. -/
structure RenameAnswers where
  mayCreate : List (List Char) → Bool
  mayRename : Bool
  /-- `get_file_timestamp` of the new path. -/
  timestamp : Int

/-- A server and the tree of its files, which are index nodes; the handler works
on this tree in place of the files that `server` has on disk. -/
structure TreeServer where
  tree : FileTree (List Char) Nat
  server : Server

/-- `rename` on files and directories; no result when the handler never
returns. -/
def TreeServer.renameHandler (answers : RenameAnswers) (s : TreeServer)
    (oldPath newPath : Path) (clientId : ClientId) :
    Option (TreeServer × Status) :=
  let disk := s.tree.renameInto answers.mayCreate answers.mayRename
    (pathNames oldPath) (pathNames newPath)
  if disk.2 then
    let notif := Server.renameNotification oldPath newPath answers.timestamp
    (s.server.fileChangeCallbackRename oldPath newPath clientId notif).map
      fun server => (⟨disk.1, server⟩, Status.OK)
  else some (⟨disk.1, s.server⟩, ⟨.notFound, "Source file not found"⟩)

/-- A client is connected to the server, whose operating system gives these
answers to renames. -/
def Remote.withTree (remote : Remote TreeServer) (answers : RenameAnswers) :
    Remote TreeServer :=
  { remote with renameCall := TreeServer.renameHandler answers }

/-- If the rename is reported as done, then the server has at the new path what
it had at the old one, and nothing at the old one, or it had nothing there. -/
def ReportedTruly (s after : TreeServer) (oldPath newPath : Path)
    (reported : Bool) : Prop :=
  reported = true →
    s.tree.Moved (pathNames oldPath) (pathNames newPath) after.tree ∨
      s.tree.entry (pathNames oldPath) = none

section Handler

variable {s after : TreeServer} {answers : RenameAnswers}
variable {oldPath newPath : Path} {clientId : ClientId} {status : Status}

/-- An answer is OK or says that nothing was found, and the tree is what the two
operations left. -/
theorem renameHandler_answers
    (handled : s.renameHandler answers oldPath newPath clientId =
      some (after, status)) :
    (status.isOk || status.code == .notFound) = true ∧
      after.tree = (s.tree.renameInto answers.mayCreate answers.mayRename
        (pathNames oldPath) (pathNames newPath)).1 := by
  unfold TreeServer.renameHandler at handled
  dsimp only at handled
  split at handled
  · obtain ⟨server, -, eq⟩ := Option.map_eq_some_iff.mp handled
    obtain ⟨rfl, rfl⟩ := Prod.mk.inj eq
    exact ⟨rfl, rfl⟩
  · obtain ⟨rfl, rfl⟩ := Prod.mk.inj (Option.some.inj handled)
    exact ⟨rfl, rfl⟩

end Handler

section RegularFiles

open PosixPaths

/-- The regular files of a tree are those in a store. -/
def ShowsFiles (tree : FileTree (List Char) Nat) (disk : FileStore Path Byte) :
    Prop :=
  ∀ names i, (∀ name ∈ names, IsName '/' name) →
    (disk.node (String.ofList (absolutePath '/' names)) = some i ↔
      tree.entry names = some (.file i))

variable {tree : FileTree (List Char) Nat} {disk : FileStore Path Byte}
variable {mayCreate : List (List Char) → Bool} {allowed : Bool}
variable {old new names : List (List Char)}

theorem ofList_absolutePath_inj (areNames : ∀ name ∈ names, IsName '/' name)
    (areOther : ∀ name ∈ old, IsName '/' name) :
    String.ofList (absolutePath '/' names) =
        String.ofList (absolutePath '/' old) ↔ names = old := by
  constructor
  · intro same
    have sameList := congrArg (components '/' ∘ String.toList) same
    simpa [components_absolutePath areNames,
      components_absolutePath areOther] using sameList
  · rintro rfl
    rfl

/-- What the handler on regular files does to its store, renaming does to the
files of a tree. -/
theorem showsFiles_renameInto {i : Nat} (shows : ShowsFiles tree disk)
    (areOld : ∀ name ∈ old, IsName '/' name)
    (areNew : ∀ name ∈ new, IsName '/' name)
    (isFile : tree.entry old = some (.file i))
    (canMove : tree.CanMoveInto mayCreate allowed old new) :
    ShowsFiles (tree.renameInto mayCreate allowed old new).1
      (disk.rename (String.ofList (absolutePath '/' old))
        (String.ofList (absolutePath '/' new))) := by
  obtain ⟨movable, renamed⟩ := FileTree.renameInto_of_canMoveInto canMove
  intro names j areNames
  rw [renamed]
  have nothingBelow : ∀ rest, rest ≠ [] → tree.entry (old ++ rest) = none := by
    intro rest below
    by_contra inUse
    simp [FileTree.entry_eq_directory inUse below] at isFile
  simp only [FileStore.rename, ofList_absolutePath_inj areNames areNew,
    ofList_absolutePath_inj areNames areOld]
  by_cases belowNew : new <+: names
  · obtain ⟨rest, rfl⟩ := belowNew
    rw [FileTree.entry_move_new,
      FileTree.entry_createDirectories_old canMove.notNested]
    by_cases isNew : rest = []
    · subst isNew
      simpa using shows old j areOld
    · have notDirectory : tree.entry new ≠ some .directory := by
        intro isDirectory
        have vacant := canMove.givesWay
        simp [FileTree.givesWay, isFile, isDirectory] at vacant
      have missing : tree.entry (new ++ rest) = none := by
        by_contra inUse
        exact notDirectory (FileTree.entry_eq_directory inUse isNew)
      simp [isNew, nothingBelow rest isNew, shows _ j areNames, missing]
  · have notNew : names ≠ new := by
      rintro rfl
      exact belowNew (List.prefix_refl _)
    rw [if_neg notNew]
    by_cases belowOld : old <+: names
    · obtain ⟨rest, rfl⟩ := belowOld
      rw [FileTree.entry_move_old]
      by_cases isOld : rest = []
      · simp [isOld]
      · simp [isOld, shows _ j areNames, nothingBelow rest isOld]
    · have notOld : names ≠ old := by
        rintro rfl
        exact belowOld (List.prefix_refl _)
      rw [if_neg notOld, FileTree.entry_move_of_apart movable belowNew belowOld,
        FileTree.entry_createDirectories_eq_file]
      exact shows names j areNames

end RegularFiles

section Client

variable {σ : Type*} {remote : Remote σ} {answers : LocalAnswers}
variable {oldPath newPath : Path} {client : Client} {r : σ}
variable {result : (Client × σ) × Bool}

/-- The result of a rename that got past the local checks is the server's
answer. -/
theorem Client.exists_answer_of_renames
    (renames : client.Renames answers oldPath newPath)
    (answered : client.renameFile remote answers oldPath newPath r =
      some result) :
    ∃ status, remote.renameCall r oldPath newPath client.clientId =
        some (result.1.2, status) ∧
      result.2 = (status.isOk || status.code == .notFound) := by
  obtain ⟨vacant, works⟩ := renames
  unfold renameFile at answered
  rw [if_neg vacant] at answered
  dsimp only at answered
  split at answered
  · next fails =>
      have isLocal := fails.1
      simp only [Option.isSome_iff_ne_none] at isLocal
      simp [works isLocal] at fails
  · obtain ⟨⟨after, status⟩, called, rfl⟩ := Option.map_eq_some_iff.mp answered
    exact ⟨status, called, rfl⟩

/-- A rename that did not get past the local checks is reported as failed. -/
theorem Client.result_of_not_renames
    (stays : ¬ client.Renames answers oldPath newPath)
    (answered : client.renameFile remote answers oldPath newPath r =
      some result) : result.2 = false := by
  unfold renameFile at answered
  split at answered
  · obtain rfl := Option.some.inj answered
    rfl
  · next vacant =>
      dsimp only at answered
      split at answered
      · obtain rfl := Option.some.inj answered
        rfl
      · next works =>
          simp only [Renames, not_and, Classical.not_imp] at stays
          have fails := stays vacant
          simp [Option.isSome_iff_ne_none, fails.1, fails.2] at works

end Client

/-- A rename that the server answers is reported truly if and only if the client
did not call the server, the server had nothing at the old path, or nothing
kept what was there from being moved. -/
theorem reportedTruly_iff {remote : Remote TreeServer}
    {diskAnswers : RenameAnswers} {answers : LocalAnswers}
    {oldPath newPath : Path} {client : Client} {s : TreeServer}
    {result : (Client × TreeServer) × Bool}
    (answered : client.renameFile (remote.withTree diskAnswers) answers oldPath
      newPath s = some result) :
    ReportedTruly s result.1.2 oldPath newPath result.2 ↔
      (client.Renames answers oldPath newPath →
        s.tree.entry (pathNames oldPath) ≠ none →
          s.tree.CanMoveInto diskAnswers.mayCreate diskAnswers.mayRename
            (pathNames oldPath) (pathNames newPath)) := by
  by_cases renames : client.Renames answers oldPath newPath
  · obtain ⟨status, called, reported⟩ :=
      Client.exists_answer_of_renames renames answered
    obtain ⟨positive, tree⟩ := renameHandler_answers called
    rw [positive] at reported
    simp only [ReportedTruly, reported, renames, true_imp_iff]
    constructor
    · rintro (moved | missing) inUse
      · rw [tree] at moved
        exact FileTree.canMoveInto_of_moved inUse moved
      · exact absurd missing inUse
    · intro canMove
      by_cases missing : s.tree.entry (pathNames oldPath) = none
      · exact .inr missing
      · left
        rw [tree]
        exact FileTree.moved_of_canMoveInto (canMove missing)
  · have reported := Client.result_of_not_renames renames answered
    simp [ReportedTruly, reported, renames]

/-- A server with a file, an empty directory and one that is not empty. -/
private def treeServer : TreeServer where
  tree :=
    let root : FileTree (List Char) Nat := .empty
    let drafts := root.createDirectories (fun _ => true)
      ["srv".toList, "drafts".toList]
    let docs := drafts.1.createDirectories (fun _ => true)
      ["srv".toList, "docs".toList, "old".toList]
    docs.1.createFile ["srv".toList] "a".toList 0 (by decide) (by decide)
  server :=
    { Server.launch "/srv" (FileStore.empty.create "/srv/a" 0) 0 with
      fileMap path := if path = "/srv/a" then some {"writer"} else none }

/-- A connection on which no call gets through. -/
private def disconnected : Remote TreeServer where
  openCall s _ := (s, [], ⟨.unavailable, ""⟩)
  closeCall s _ := (s, ⟨[], 0, 0⟩, ⟨.unavailable, ""⟩)
  unlinkCall s _ _ := (s, ⟨.unavailable, ""⟩)
  renameCall s _ _ _ := some (s, ⟨.unavailable, ""⟩)
  getattrCall s _ := (s, ⟨0, 0, 0, 0⟩, ⟨.unavailable, ""⟩)

private def permitsAll : RenameAnswers where
  mayCreate _ := true
  mayRename := true
  timestamp := 0

/-- The server does not move a directory to one that is not empty, and yet this
is reported as done. -/
theorem rename_to_nonempty_reported :
    ∃ result, (Client.launch "writer").renameFile
        (disconnected.withTree permitsAll) (.success 0) "/srv/drafts" "/srv/docs"
        treeServer = some result ∧
      ¬ ReportedTruly treeServer result.1.2 "/srv/drafts" "/srv/docs"
        result.2 := by
  refine ⟨_, rfl, ?_⟩
  intro truly
  rcases truly rfl with moved | missing
  · exact absurd (moved.leaves []) (by decide)
  · exact absurd missing (by decide)

/-- A file is moved into a directory that is made for it. -/
theorem reportedTruly_into_new_directory :
    ∃ result, (Client.launch "writer").renameFile
        (disconnected.withTree permitsAll) (.success 0) "/srv/a" "/srv/kept/a"
        treeServer = some result ∧
      ReportedTruly treeServer result.1.2 "/srv/a" "/srv/kept/a" result.2 := by
  have eachMayBe : ∀ before ∈ (pathNames "/srv/kept/a").dropLast.inits,
      treeServer.tree.mayBeDirectory permitsAll.mayCreate before = true := by
    decide
  have canMove : treeServer.tree.CanMoveInto permitsAll.mayCreate
      permitsAll.mayRename (pathNames "/srv/a") (pathNames "/srv/kept/a") := by
    constructor
    case allowed => rfl
    case onTheWay =>
      intro before isPrefix
      exact eachMayBe before ((List.mem_inits _ _).mpr isPrefix)
    case notNested => decide
    case notSame => decide
    case givesWay => decide
  have isAnswered : ∃ result, (Client.launch "writer").renameFile
      (disconnected.withTree permitsAll) (.success 0) "/srv/a" "/srv/kept/a"
        treeServer = some result := ⟨_, rfl⟩
  obtain ⟨result, answered⟩ := isAnswered
  have truly := (reportedTruly_iff answered).mpr fun _ _ => canMove
  exact ⟨result, answered, truly⟩

end DistributedFilesystem
