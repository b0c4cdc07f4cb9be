import DistributedFilesystem.DashboardRuns
import DistributedFilesystem.HandlerRuns
import DistributedFilesystem.PathKeys

/-!
# Paths on the dashboard

The dashboard asks for the root of the server's files and takes it off the paths
that `GetStatus` reports.  The clients put it in front of the paths of their
mounted file systems, so the dashboard shows these again, unless the root is
written in a way in which no client writes it.
-/

namespace DistributedFilesystem

open PosixPaths TransitionRuns

/-- `get_root_dir`, which sends no client id. -/
def Server.getRootDir (s : Server) : Server × String :=
  let (s, rootPath, status) :=
    s.requestDirHandler "I want input/output directory" ""
  (s, if status.isOk then rootPath else "")

/-- The key that `get_application_metric` makes of a path. -/
def strippedPath (serverBaseDir filepath : String) : String :=
  if serverBaseDir ≠ "" ∧ serverBaseDir.toList <+: filepath.toList then
    let stripped := filepath.toList.drop serverBaseDir.toList.length
    if stripped = [] then "/"
    else if stripped.head? = some '/' then String.ofList stripped
    else String.ofList ('/' :: stripped)
  else filepath

/-- The dictionary that `get_application_metric` makes of the reported map. -/
def fileToClientsDict (serverBaseDir : String)
    (items : List (Path × Finset ClientId)) :
    String → Option (Finset ClientId) :=
  items.foldl (fun dict item =>
    Function.update dict (strippedPath serverBaseDir item.1) (some item.2))
    fun _ => none

/-- What `get_status` returns about the file system. -/
structure StatusPage where
  connectedClients : Finset ClientId
  fileToClients : String → Option (Finset ClientId)

/-- `get_status`, given the order in which it receives the reported map. -/
def Server.getStatusPage (s : Server) (items : List (Path × Finset ClientId)) :
    Server × StatusPage :=
  let (s, serverBaseDir) := s.getRootDir
  (s, ⟨s.getStatusHandler.connectedClients,
    fileToClientsDict serverBaseDir items⟩)

/-- The list has the entries of the map. -/
def ClientMap.Enumerates (map : ClientMap)
    (items : List (Path × Finset ClientId)) : Prop :=
  ∀ path clients, (path, clients) ∈ items ↔ map path = some clients

/-- The key under which the dashboard shows the file of a mounted path. -/
def Mount.dashboardPath (mount : Mount) (path : String) : String :=
  strippedPath mount.serverRootPath (mount.resolveServerPath path)

/-- The root is not empty and has no successive slashes, or has nothing but
slashes. -/
def WellWritten (root : String) : Prop :=
  root ≠ "" ∧ (genericString '/' root.toList = root.toList ∨
    ∀ character ∈ root.toList, character = '/')

section Paths

variable {mount : Mount} {path : String}

theorem genericString_asDirectory {root : List Char}
    (isGeneric : genericString '/' root = root) :
    genericString '/' (asDirectory '/' root) = asDirectory '/' root := by
  unfold asDirectory
  split
  · exact isGeneric
  · next isFile =>
      have notSlash : root.getLast? ≠ some '/' := by
        intro isSlash
        obtain ⟨front, rfl⟩ := List.getLast?_eq_some_iff.mp isSlash
        simp [filename] at isFile
      rw [genericString_append_separator notSlash, isGeneric]

/-- The server path of a file is its root and then its path. -/
theorem exists_relative (mount : Mount) (normalized : IsNormalized path) :
    ∃ relative, relative ≠ [] ∧ relative.head? ≠ some '/' ∧
      path.toList = '/' :: relative ∧
      (mount.resolveServerPath path).toList = mount.base ++ relative := by
  obtain ⟨names, nonempty, areEntryNames, isPath⟩ := normalized
  obtain ⟨name, rest, rfl⟩ := List.exists_cons_of_ne_nil nonempty
  have areNames : ∀ other ∈ name :: rest, IsName '/' other :=
    fun other member => (areEntryNames other member).toIsName
  have isName := areNames name List.mem_cons_self
  refine ⟨name ++ absolutePath '/' rest, ?_, ?_, ?_, ?_⟩
  · simp [isName.nonempty]
  · rw [List.head?_append_of_ne_nil _ isName.nonempty]
    exact isName.head?_ne
  · rw [isPath, absolutePath_cons]
  · exact mount.toList_resolveServerPath areNames isPath

theorem strippedPath_append {root filepath : String} {rest : List Char}
    (rootNonempty : root ≠ "") (isAppend : filepath.toList = root.toList ++ rest)
    (nonempty : rest ≠ []) :
    (strippedPath root filepath).toList =
      if rest.head? = some '/' then rest else '/' :: rest := by
  have isPrefix : root ≠ "" ∧ root.toList <+: filepath.toList :=
    ⟨rootNonempty, rest, isAppend.symm⟩
  rw [strippedPath, if_pos isPrefix, isAppend, List.drop_left, if_neg nonempty]
  split <;> exact String.toList_ofList

/-- With a root that has nothing but slashes, the server path of a file is the
path that its users know. -/
theorem resolveServerPath_eq_iff (rootNonempty : mount.serverRootPath ≠ "")
    (normalized : IsNormalized path) :
    mount.resolveServerPath path = path ↔
      ∀ character ∈ mount.serverRootPath.toList, character = '/' := by
  obtain ⟨relative, -, -, isPath, isServerPath⟩ :=
    exists_relative mount normalized
  have baseSlash : mount.resolveServerPath path = path ↔ mount.base = ['/'] := by
    rw [← String.toList_inj, isServerPath, isPath, List.append_eq_cons_iff]
    constructor
    · rintro (⟨empty, -⟩ | ⟨rest, isBase, isRelative⟩)
      · exact absurd empty (Mount.base_ne_nil rootNonempty)
      · rw [List.self_eq_append_left.mp isRelative] at isBase
        exact isBase
    · intro isBase
      exact .inr ⟨[], isBase, rfl⟩
  have nonempty : mount.serverRootPath.toList ≠ [] := by
    simpa using rootNonempty
  rw [baseSlash, Mount.base, genericString_eq_singleton_iff]
  unfold asDirectory
  split
  · simp [nonempty]
  · simp [or_imp]

/-- With a root that is well written, the dashboard shows a file under the path
that its users know. -/
theorem dashboardPath_of_wellWritten
    (wellWritten : WellWritten mount.serverRootPath)
    (normalized : IsNormalized path) :
    mount.dashboardPath path = path := by
  obtain ⟨relative, nonempty, notSlash, isPath, isServerPath⟩ :=
    exists_relative mount normalized
  obtain ⟨rootNonempty, isGeneric | isSlashes⟩ := wellWritten
  · have isBase : mount.base = asDirectory '/' mount.serverRootPath.toList :=
      genericString_asDirectory isGeneric
    rw [isBase, asDirectory] at isServerPath
    rw [Mount.dashboardPath]
    apply String.toList_injective
    split at isServerPath
    · rw [strippedPath_append rootNonempty isServerPath nonempty,
        if_neg notSlash, isPath]
    · rw [List.append_assoc] at isServerPath
      rw [strippedPath_append rootNonempty isServerPath (by simp),
        if_pos (by rfl), isPath]
      rfl
  · have samePath := (resolveServerPath_eq_iff rootNonempty normalized).mpr isSlashes
    rw [Mount.dashboardPath, samePath, strippedPath]
    split
    · next isPrefix =>
        -- A root that has two slashes is not the beginning of a path.
        obtain ⟨rest, isAppend⟩ := isPrefix.2
        have isRoot : mount.serverRootPath.toList = ['/'] := by
          cases rootChars : mount.serverRootPath.toList with
          | nil => simp [rootNonempty] at rootChars
          | cons first more =>
              rw [rootChars, isPath, List.cons_append] at isAppend
              have isRelative := (List.cons.inj isAppend).2
              have isFirst : first = '/' := isSlashes first (by simp [rootChars])
              cases more with
              | nil => rw [isFirst]
              | cons second more =>
                  have isSecond : second = '/' :=
                    isSlashes second (by simp [rootChars])
                  rw [← isRelative, isSecond] at notSlash
                  simp at notSlash
        simp only [isRoot, isPath, List.length_singleton, List.drop_one,
          List.tail_cons, if_neg nonempty, if_neg notSlash]
        rw [← isPath, String.ofList_toList]
    · rfl

/-- Otherwise it shows the path on the server. -/
theorem dashboardPath_of_not_wellWritten
    (rootNonempty : mount.serverRootPath ≠ "")
    (notWellWritten : ¬ WellWritten mount.serverRootPath)
    (normalized : IsNormalized path) :
    mount.dashboardPath path = mount.resolveServerPath path ∧
      mount.resolveServerPath path ≠ path := by
  constructor
  · have isGeneric : genericString '/' (mount.resolveServerPath path).toList =
        (mount.resolveServerPath path).toList := by
      simp [Mount.resolveServerPath]
    rw [Mount.dashboardPath, strippedPath, if_neg]
    rintro ⟨-, isPrefix⟩
    exact notWellWritten
      ⟨rootNonempty, .inl (genericString_eq_self_of_front isPrefix isGeneric)⟩
  · intro samePath
    exact notWellWritten ⟨rootNonempty,
      .inr ((resolveServerPath_eq_iff rootNonempty normalized).mp samePath)⟩

theorem dashboardPath_injOn (mount : Mount)
    (rootNonempty : mount.serverRootPath ≠ "") :
    Set.InjOn mount.dashboardPath {path | IsNormalized path} := by
  intro path normalized other otherNormalized equal
  by_cases wellWritten : WellWritten mount.serverRootPath
  · rwa [dashboardPath_of_wellWritten wellWritten normalized,
      dashboardPath_of_wellWritten wellWritten otherNormalized] at equal
  · rw [(dashboardPath_of_not_wellWritten rootNonempty wellWritten normalized).1,
      (dashboardPath_of_not_wellWritten rootNonempty wellWritten
        otherNormalized).1] at equal
    exact mount.fileLocaServer_injOn normalized otherNormalized equal

end Paths

section OpenedPaths

/-- The root and the map of open files stay the same. -/
structure Server.SameOpened (s s' : Server) : Prop where
  rootDir : s'.rootDir = s.rootDir
  fileMapOpen : s'.fileMapOpen = s.fileMapOpen

/-- Every file that is open in the map was opened by one of the calls. -/
structure Server.OpenedBy (rootDir : Path) (calls : List ServerCall)
    (s : Server) : Prop where
  sameRoot : s.rootDir = rootDir
  opened : ∀ path, s.fileMapOpen path ≠ none →
    ∃ request outcome, .open request outcome ∈ calls ∧ path = request.path

variable {s s' : Server} {call : ServerCall} {notif : Notification}

theorem ClientMap.eraseClient_eq_none {map : ClientMap} {path other : Path}
    (absent : map other = none) (client : ClientId) :
    map.eraseClient path client other = none := by
  unfold eraseClient
  cases entry : map path with
  | none => exact absent
  | some clients =>
      have apart : other ≠ path := by
        rintro rfl
        rw [entry] at absent
        simp at absent
      exact (Function.update_of_ne apart _ _).trans absent

namespace Server

theorem sameOpened_notifyAll (s : Server) (clientId : ClientId)
    (notif : Notification) (clients : Finset ClientId) :
    s.SameOpened (s.notifyAll clientId notif clients) := by
  obtain ⟨queues, eq⟩ := notifyAll_eq s clientId notif clients
  rw [eq]
  exact ⟨rfl, rfl⟩

theorem sameOpened_fileChangeCallbackClose (s : Server) (path : Path)
    (clientId : ClientId) (notif : Notification) :
    s.SameOpened (s.fileChangeCallbackClose path clientId notif) := by
  unfold fileChangeCallbackClose
  split
  · exact sameOpened_notifyAll ..
  · exact ⟨rfl, rfl⟩

theorem sameOpened_fileChangeCallbackUnlink (s : Server) (path : Path)
    (clientId : ClientId) (notif : Notification) :
    s.SameOpened (s.fileChangeCallbackUnlink path clientId notif) := by
  unfold fileChangeCallbackUnlink
  split
  · next clients _ =>
      have told := s.sameOpened_notifyAll clientId notif clients
      exact ⟨told.rootDir, told.fileMapOpen⟩
  · exact ⟨rfl, rfl⟩

theorem sameOpened_fileChangeCallbackRename {oldPath newPath : Path}
    {clientId : ClientId}
    (calls : s.fileChangeCallbackRename oldPath newPath clientId notif =
      some s') : s.SameOpened s' := by
  unfold fileChangeCallbackRename at calls
  split at calls
  · next clients _ =>
      obtain rfl := Option.some.inj calls
      have told := s.sameOpened_notifyAll clientId notif clients
      exact ⟨told.rootDir, told.fileMapOpen⟩
  · simp at calls

theorem sameOpened_unlinkHandler (s : Server) (path : Path)
    (clientId : ClientId) (outcome : DiskOutcome) :
    s.SameOpened (s.unlinkHandler path clientId outcome).1 := by
  unfold unlinkHandler
  split
  · exact ⟨rfl, rfl⟩
  · have called := sameOpened_fileChangeCallbackUnlink
      { s with disk := s.disk.remove path } path clientId
      (deleteNotification path)
    exact ⟨called.rootDir, called.fileMapOpen⟩
  · exact ⟨rfl, rfl⟩
  · exact ⟨rfl, rfl⟩

theorem sameOpened_renameHandler {oldPath newPath : Path}
    {clientId : ClientId} {outcome : DiskOutcome} {status : Status}
    (renames : s.renameHandler oldPath newPath clientId outcome =
      some (s', status)) : s.SameOpened s' := by
  unfold renameHandler at renames
  split at renames
  · obtain ⟨after, called, same⟩ := Option.map_eq_some_iff.mp renames
    obtain ⟨rfl, -⟩ := Prod.mk.inj same
    have moved := sameOpened_fileChangeCallbackRename called
    exact ⟨moved.rootDir, moved.fileMapOpen⟩
  · obtain ⟨rfl, -⟩ := Prod.mk.inj (Option.some.inj renames)
    exact ⟨rfl, rfl⟩

theorem sameOpened_cleanupClient (s : Server) (clientId : ClientId) :
    s.SameOpened (s.cleanupClient clientId) := by
  unfold cleanupClient
  dsimp only
  split <;> exact ⟨rfl, rfl⟩

/-- `close` takes the client out of the map. -/
theorem opened_closeHandler (s : Server) (stream : List FileRequest)
    (outcome : DiskOutcome) :
    (s.closeHandler stream outcome).1.rootDir = s.rootDir ∧
      ∀ path, (s.closeHandler stream outcome).1.fileMapOpen path ≠ none →
        s.fileMapOpen path ≠ none := by
  unfold closeHandler
  split
  · exact ⟨rfl, fun _ => id⟩
  · dsimp only
    split
    · next first later _ =>
        have called := sameOpened_fileChangeCallbackClose
          (s.receiveFile first.path (first :: later)) first.path
          ((first :: later).getLast (by simp)).clientId
        refine ⟨(called _).rootDir, fun path present absent => present ?_⟩
        dsimp only [finishClose]
        rw [(called _).fileMapOpen]
        exact ClientMap.eraseClient_eq_none absent _
    · exact ⟨rfl, fun _ => id⟩

end Server

/-- Only `open` adds paths to `file_map_open`, and nothing changes the root. -/
theorem ServerCall.opened_of_step (steps : call.step s = some s') :
    s'.rootDir = s.rootDir ∧
      ∀ path, s'.fileMapOpen path ≠ none →
        s.fileMapOpen path ≠ none ∨
          ∃ request outcome, call = .open request outcome ∧
            path = request.path := by
  have unchanged : s.SameOpened s' → s'.rootDir = s.rootDir ∧
      ∀ path, s'.fileMapOpen path ≠ none →
        s.fileMapOpen path ≠ none ∨
          ∃ request outcome, call = .open request outcome ∧
            path = request.path := by
    intro same
    refine ⟨same.rootDir, fun path present => .inl ?_⟩
    rwa [same.fileMapOpen] at present
  cases call with
  | requestDir code clientId =>
      obtain rfl := Option.some.inj steps
      apply unchanged
      unfold Server.requestDirHandler
      split <;> exact ⟨rfl, rfl⟩
  | subscribe clientId =>
      obtain rfl := Option.some.inj steps
      exact unchanged ⟨rfl, rfl⟩
  | pop q =>
      apply unchanged
      simp only [ServerCall.step, Server.popQueue] at steps
      split at steps
      · obtain rfl := Option.some.inj steps
        exact ⟨rfl, rfl⟩
      · simp at steps
  | cancel q =>
      obtain rfl := Option.some.inj steps
      exact unchanged ⟨rfl, rfl⟩
  | «open» request outcome =>
      obtain rfl := Option.some.inj steps
      refine ⟨rfl, fun path present => ?_⟩
      by_cases same : path = request.path
      · exact .inr ⟨request, outcome, rfl, same⟩
      · left
        simpa [Server.openHandler, Server.registerOpen,
          ClientMap.insertClient, same] using present
  | close stream outcome =>
      obtain rfl := Option.some.inj steps
      have closes := s.opened_closeHandler stream outcome
      exact ⟨closes.1, fun path present => .inl (closes.2 path present)⟩
  | unlink path clientId outcome =>
      obtain rfl := Option.some.inj steps
      exact unchanged (s.sameOpened_unlinkHandler path clientId outcome)
  | rename oldPath newPath clientId outcome =>
      obtain ⟨⟨after, status⟩, renames, rfl⟩ := Option.map_eq_some_iff.mp steps
      exact unchanged (Server.sameOpened_renameHandler renames)
  | cleanupClient clientId =>
      obtain rfl := Option.some.inj steps
      exact unchanged (s.sameOpened_cleanupClient clientId)
  | elsewhere disk clock =>
      obtain rfl := Option.some.inj steps
      exact unchanged ⟨rfl, rfl⟩

theorem Server.openedBy_of_run {rootDir : Path} {disk : FileStore Path Byte}
    {clock : Int} {calls : List ServerCall}
    (reaches : run ServerCall.step calls (Server.launch rootDir disk clock) =
      some s) : s.OpenedBy rootDir calls := by
  have preserved : ∀ (call : ServerCall) (s next : Server), call ∈ calls →
      s.OpenedBy rootDir calls → call.step s = some next →
        next.OpenedBy rootDir calls := by
    intro call s next isCall openedBy steps
    obtain ⟨sameRoot, added⟩ := ServerCall.opened_of_step steps
    refine ⟨sameRoot.trans openedBy.sameRoot, fun path present => ?_⟩
    obtain before | ⟨request, outcome, rfl, isPath⟩ := added path present
    · exact openedBy.opened path before
    · exact ⟨request, outcome, isCall, isPath⟩
  exact invariant_of_run preserved reaches
    (along_of_forall (fun _ isCall _ => isCall) _)
    ⟨rfl, by simp [Server.launch]⟩

end OpenedPaths

section Polls

variable {s : Server} {mount : Mount} {items : List (Path × Finset ClientId)}

theorem foldl_update_eq_some_iff {κ ν β : Type*} [DecidableEq κ]
    {keyOf : β → κ} {valueOf : β → ν} {items : List β} {key : κ} {value : ν}
    (injective : ∀ item ∈ items, ∀ other ∈ items,
      keyOf item = keyOf other → item = other) :
    items.foldl (fun dict item =>
        Function.update dict (keyOf item) (some (valueOf item)))
        (fun _ => none) key = some value ↔
      ∃ item ∈ items, keyOf item = key ∧ valueOf item = value := by
  induction items using List.reverseRecOn with
  | nil => simp
  | append_singleton front last ih =>
      have before := ih fun item member other otherMember =>
        injective item (List.mem_append_left _ member) other
          (List.mem_append_left _ otherMember)
      rw [List.foldl_append, List.foldl_cons, List.foldl_nil]
      by_cases isLast : key = keyOf last
      · rw [isLast, Function.update_self]
        constructor
        · intro same
          exact ⟨last, by simp, rfl, Option.some.inj same⟩
        · rintro ⟨item, member, sameKey, rfl⟩
          rw [injective item member last (by simp) sameKey]
      · rw [Function.update_of_ne isLast, before]
        constructor
        · rintro ⟨item, member, isItem⟩
          exact ⟨item, List.mem_append_left _ member, isItem⟩
        · rintro ⟨item, member, rfl, isValue⟩
          refine ⟨item, ?_, rfl, isValue⟩
          obtain earlier | rfl := by simpa using member
          · exact earlier
          · exact absurd rfl isLast

/-- The page shows the clients, and the files of `file_map_open` under their
keys. -/
structure StatusPage.Reports (page : StatusPage) (mount : Mount) (s : Server) :
    Prop where
  connectedClients : page.connectedClients = s.clientsDb
  fileToClients : ∀ key clients,
    page.fileToClients key = some clients ↔
      ∃ path, IsNormalized path ∧ mount.dashboardPath path = key ∧
        s.fileMapOpen (mount.resolveServerPath path) = some clients

theorem Server.reports_getStatusPage (sameRoot : s.rootDir = mount.serverRootPath)
    (rootNonempty : mount.serverRootPath ≠ "")
    (fromMount : ∀ serverPath, s.fileMapOpen serverPath ≠ none →
      ∃ path, IsNormalized path ∧ serverPath = mount.resolveServerPath path)
    (enumerates : s.fileMapOpen.Enumerates items) :
    (s.getStatusPage items).1 = s ∧ (s.getStatusPage items).2.Reports mount s := by
  have fromItems : ∀ item ∈ items, s.fileMapOpen item.1 = some item.2 ∧
      ∃ path, IsNormalized path ∧ item.1 = mount.resolveServerPath path := by
    intro item member
    have entry := (enumerates item.1 item.2).mp member
    exact ⟨entry, fromMount item.1 (by simp [entry])⟩
  have injective : ∀ item ∈ items, ∀ other ∈ items,
      strippedPath s.rootDir item.1 = strippedPath s.rootDir other.1 →
        item = other := by
    intro item member other otherMember sameKey
    obtain ⟨entry, path, normalized, isPath⟩ := fromItems item member
    obtain ⟨otherEntry, otherPath, otherNormalized, isOther⟩ :=
      fromItems other otherMember
    rw [sameRoot, isPath, isOther] at sameKey
    have samePath := dashboardPath_injOn mount rootNonempty normalized
      otherNormalized sameKey
    have sameFirst : item.1 = other.1 := by rw [isPath, isOther, samePath]
    rw [sameFirst, otherEntry] at entry
    exact Prod.ext sameFirst (Option.some.inj entry).symm
  refine ⟨by simp [getStatusPage, getRootDir, requestDirHandler], ?_, ?_⟩
  · simp [getStatusPage, getRootDir, requestDirHandler, getStatusHandler]
  · intro key clients
    have isDict : (s.getStatusPage items).2.fileToClients =
        fileToClientsDict s.rootDir items := by
      simp [getStatusPage, getRootDir, requestDirHandler, Status.isOk, Status.OK]
    rw [isDict, fileToClientsDict, foldl_update_eq_some_iff injective]
    constructor
    · rintro ⟨item, member, rfl, rfl⟩
      obtain ⟨entry, path, normalized, isPath⟩ := fromItems item member
      refine ⟨path, normalized, ?_, ?_⟩
      · rw [Mount.dashboardPath, sameRoot, isPath]
      · rw [← isPath, entry]
    · rintro ⟨path, normalized, rfl, entry⟩
      refine ⟨(_, clients), (enumerates _ _).mpr entry, ?_, rfl⟩
      rw [Mount.dashboardPath, sameRoot]

/-- In every run in which clients open files of their mounted file systems, the
dashboard shows each open file once, with the clients that have it open.  The
files have the paths that the users know exactly when the root is well
written. -/
theorem dashboard_shows_files {disk : FileStore Path Byte} {clock : Int}
    {calls : List ServerCall} (rootNonempty : mount.serverRootPath ≠ "")
    (reaches : run ServerCall.step calls
      (Server.launch mount.serverRootPath disk clock) = some s)
    (fromMount : ∀ request outcome, .open request outcome ∈ calls →
      ∃ path, IsNormalized path ∧
        request.path = mount.resolveServerPath path)
    (enumerates : s.fileMapOpen.Enumerates items) :
    (s.getStatusPage items).1 = s ∧
      (s.getStatusPage items).2.Reports mount s ∧
      Set.InjOn mount.dashboardPath {path | IsNormalized path} ∧
      (WellWritten mount.serverRootPath →
        ∀ path, IsNormalized path → mount.dashboardPath path = path) ∧
      (¬ WellWritten mount.serverRootPath →
        ∀ path, IsNormalized path →
          mount.dashboardPath path = mount.resolveServerPath path ∧
            mount.resolveServerPath path ≠ path) := by
  have openedBy := Server.openedBy_of_run reaches
  have opened : ∀ serverPath, s.fileMapOpen serverPath ≠ none →
      ∃ path, IsNormalized path ∧
        serverPath = mount.resolveServerPath path := by
    intro serverPath present
    obtain ⟨request, outcome, isCall, rfl⟩ := openedBy.opened serverPath present
    exact fromMount request outcome isCall
  have reports := Server.reports_getStatusPage openedBy.sameRoot rootNonempty opened
    enumerates
  refine ⟨reports.1, reports.2, dashboardPath_injOn mount rootNonempty, ?_, ?_⟩
  · intro wellWritten path normalized
    exact dashboardPath_of_wellWritten wellWritten normalized
  · intro notWellWritten path normalized
    exact dashboardPath_of_not_wellWritten rootNonempty notWellWritten normalized

/-- With the root `/srv`, a client has `/a` open. -/
theorem dashboard_shows_files_opened :
    let s := ((Server.launch "/srv" (FileStore.empty.create "/srv/a" 0)
      0).registerOpen "/srv/a" "c")
    (s.getStatusPage [("/srv/a", {"c"})]).2.fileToClients "/a" =
      some {"c"} := by
  intro s
  have normalized : IsNormalized "/a" := by
    refine ⟨["a".toList], by simp, ?_, by decide⟩
    intro name member
    obtain rfl := List.mem_singleton.mp member
    exact ⟨⟨by decide, by decide⟩, by decide, by decide⟩
  have resolved : (Mount.mk "/srv" "./cache").resolveServerPath "/a" =
      "/srv/a" := by decide
  have opened : s.fileMapOpen =
      Function.update (fun _ => none) "/srv/a" (some {"c"}) := rfl
  have fromMount : ∀ request outcome, ServerCall.open request outcome ∈
      [.open ⟨"/srv/a", "c", []⟩ .success] →
        ∃ path, IsNormalized path ∧ request.path =
          (Mount.mk "/srv" "./cache").resolveServerPath path := by
    intro request outcome isCall
    simp only [List.mem_singleton, ServerCall.open.injEq] at isCall
    exact ⟨"/a", normalized, by rw [isCall.1, resolved]⟩
  have enumerates : s.fileMapOpen.Enumerates [("/srv/a", {"c"})] := by
    intro path clients
    rw [opened, Function.update_apply]
    split <;> simp_all [eq_comm]
  obtain ⟨-, ⟨-, fileToClients⟩, -, wellWritten, -⟩ :=
    dashboard_shows_files (by decide) rfl fromMount enumerates
  have entry : s.fileMapOpen "/srv/a" = some {"c"} := by rw [opened]; rfl
  rw [← resolved] at entry
  have shown := wellWritten ⟨by decide, .inl (by decide)⟩ "/a" normalized
  exact (fileToClients _ _).mpr ⟨"/a", normalized, shown, entry⟩

end Polls

end DistributedFilesystem
