import DistributedFilesystem.CacheConfinement
import DistributedFilesystem.DashboardSections
import DistributedFilesystem.DisconnectCleanup

/-!
# Calls that stay below the root

The handlers use the paths of their requests as they are: it is the clients that
put the server's root in front.  This file determines the paths that the clients
resolve to places below the root, which are all paths of a mounted file system,
and shows that calls with these change nothing elsewhere, apart from the
registrations of clients that are cleaned up.
-/

namespace DistributedFilesystem

open NormalPath PosixPaths TransitionRuns

/-- The root of the server's files. -/
def Mount.root (mount : Mount) : NormalPath Char :=
  normalForm mount.serverRootPath

/-- The path as it is followed from the current directory. -/
def fromCurrent (path : String) : NormalPath Char :=
  relative '.' (components '/' path.toList)

/-- The paths of a request. -/
def ServerCall.paths : ServerCall → List Path
  | .open request _ => [request.path]
  | .close stream _ => stream.head?.toList.map FileRequest.path
  | .unlink path _ _ => [path]
  | .rename oldPath newPath _ _ => [oldPath, newPath]
  | .requestDir _ _ | .subscribe _ | .pop _ | .cancel _ | .cleanupClient _
  | .elsewhere _ _ => []

/-- The call is made for paths of the mounted file system, and only handlers
change files. -/
def ServerCall.Mounted (mount : Mount) (call : ServerCall) (s : Server) : Prop :=
  (∀ path ∈ call.paths, ∃ userPath, IsNormalized userPath ∧
      path = mount.resolveServerPath userPath) ∧
    ∀ disk clock, call = .elsewhere disk clock → disk = s.disk

/-- The clients whose registrations the call cleans up. -/
def ServerCall.cleaned : ServerCall → List ClientId
  | .cleanupClient clientId => [clientId]
  | _ => []

/-- Only what concerns these paths is changed, and `file_map` loses other
registrations of these clients only. -/
structure Server.Spares (paths : List Path) (cleaned : List ClientId)
    (s s' : Server) : Prop where
  read : ∀ path ∉ paths, s'.disk.read path = s.disk.read path
  added : ∀ path ∉ paths, ∀ client,
    s'.fileMap.Registered path client → s.fileMap.Registered path client
  kept : ∀ path ∉ paths, ∀ client ∉ cleaned,
    s.fileMap.Registered path client → s'.fileMap.Registered path client
  fileMapOpen : ∀ path ∉ paths, ∀ client,
    s'.fileMapOpen.Registered path client ↔ s.fileMapOpen.Registered path client

section Resolving

variable {mount : Mount} {userPath : String}

/-- Any path is followed below the root. -/
theorem normalForm_resolveServerPath (rootNonempty : mount.serverRootPath ≠ "")
    (userPath : String) :
    normalForm (mount.resolveServerPath userPath) =
      follow '.' mount.root (components '/' userPath.toList) := by
  have nonempty : mount.serverRootPath.toList ≠ [] := by
    simpa using rootNonempty
  obtain ⟨below, isBelow, sameComponents, isRelative⟩ : ∃ below,
      (if isAbsolute '/' userPath.toList then relativePath '/' userPath.toList
        else userPath.toList) = below ∧
      components '/' below = components '/' userPath.toList ∧
      isAbsolute '/' below = false := by
    split
    · exact ⟨_, rfl, components_relativePath _, isAbsolute_relativePath _⟩
    · next notAbsolute => exact ⟨_, rfl, rfl, by simpa using notAbsolute⟩
  have endsWithSlash : (asDirectory '/' mount.serverRootPath.toList).getLast? =
      some '/' := getLast?_asDirectory nonempty
  obtain ⟨front, isRoot⟩ := List.getLast?_eq_some_iff.mp endsWithSlash
  have resolved : (mount.resolveServerPath userPath).toList =
      genericString '/' (front ++ '/' :: below) := by
    rw [Mount.resolveServerPath, String.toList_ofList]
    simp only [isBelow]
    rw [append_of_relative isRelative, isRoot, List.append_assoc,
      List.singleton_append]
  have ofFront : components '/' front =
      components '/' mount.serverRootPath.toList := by
    rw [← components_asDirectory mount.serverRootPath.toList, isRoot,
      components_append_separator]
    simp [components]
  have sameBegin : isAbsolute '/' (genericString '/' (front ++ '/' :: below)) =
      isAbsolute '/' mount.serverRootPath.toList := by
    have sameHead : (asDirectory '/' mount.serverRootPath.toList).head? =
        mount.serverRootPath.toList.head? := head?_asDirectory nonempty
    rw [isRoot] at sameHead
    rw [isAbsolute, head?_genericString, ← List.singleton_append,
      ← List.append_assoc, List.head?_append_of_ne_nil _ (by simp), sameHead,
      isAbsolute]
  rw [normalForm, lexicallyNormal, resolved, components_genericString,
    components_append_separator, ofFront, sameComponents, follow_append,
    sameBegin]
  rfl

/-- A path is resolved to a place inside the root if and only if it goes up
within what can be left, and enters again what it left. -/
theorem inside_resolveServerPath_iff (rootNonempty : mount.serverRootPath ≠ "")
    (userPath : String) :
    Inside mount.root (normalForm (mount.resolveServerPath userPath)) ↔
      ((fromCurrent userPath).ups ≤ mount.root.names.length ∨
          mount.root.absolute = true) ∧
        mount.root.names.drop
            (mount.root.names.length - (fromCurrent userPath).ups) <+:
          (fromCurrent userPath).names := by
  rw [normalForm_resolveServerPath rootNonempty]
  exact inside_follow_iff

theorem strictlyInside_resolveServerPath
    (rootNonempty : mount.serverRootPath ≠ "") (normalized : IsNormalized userPath) :
    StrictlyInside mount.root (normalForm (mount.resolveServerPath userPath)) := by
  obtain ⟨names, nonempty, areNames, isPath⟩ := normalized
  have notDots : ∀ name ∈ names, name ≠ ['.'] ∧ name ≠ ['.', '.'] :=
    fun name member => ⟨(areNames name member).notSelf,
      (areNames name member).notParent⟩
  have areComponents : components '/' userPath.toList = names := by
    rw [isPath]
    exact components_absolutePath fun name member =>
      (areNames name member).toIsName
  rw [normalForm_resolveServerPath rootNonempty, areComponents,
    follow_names notDots]
  refine ⟨⟨rfl, rfl, List.prefix_append _ _⟩, ?_⟩
  simpa using nonempty

end Resolving

section Handlers

namespace Server

variable {s s' s'' : Server} {path : Path} {paths : List Path}
variable {clientId : ClientId} {outcome : DiskOutcome}
variable {cleaned : List ClientId}

theorem spares_of_same (disk : s'.disk = s.disk)
    (fileMap : s'.fileMap = s.fileMap) (fileMapOpen : s'.fileMapOpen = s.fileMapOpen) :
    s.Spares paths cleaned s' where
  read _ _ := by rw [disk]
  added _ _ _ := by
    rw [fileMap]
    exact id
  kept _ _ _ _ := by
    rw [fileMap]
    exact id
  fileMapOpen _ _ _ := by rw [fileMapOpen]

theorem Spares.refl (paths : List Path) (cleaned : List ClientId) (s : Server) :
    s.Spares paths cleaned s :=
  spares_of_same rfl rfl rfl

theorem Spares.trans (first : s.Spares paths cleaned s')
    (second : s'.Spares paths cleaned s'') : s.Spares paths cleaned s'' where
  read path apart := (second.read path apart).trans (first.read path apart)
  added path apart client registered :=
    first.added path apart client (second.added path apart client registered)
  kept path apart client stays registered :=
    second.kept path apart client stays (first.kept path apart client stays registered)
  fileMapOpen path apart client :=
    (second.fileMapOpen path apart client).trans
      (first.fileMapOpen path apart client)

/-- Notifications change queues only. -/
theorem spares_notifyAll (paths : List Path) (cleaned : List ClientId) (s : Server)
    (clientId : ClientId) (notif : Notification) (clients : Finset ClientId) :
    s.Spares paths cleaned (s.notifyAll clientId notif clients) :=
  spares_of_same notifyAll_disk notifyAll_fileMap notifyAll_fileMapOpen

theorem spares_disk {disk : FileStore Path Byte}
    (read : ∀ path ∉ paths, disk.read path = s.disk.read path) :
    s.Spares paths cleaned { s with disk := disk } :=
  ⟨read, fun _ _ _ => id, fun _ _ _ _ => id, fun _ _ _ => Iff.rfl⟩

theorem spares_fileMap {fileMap : ClientMap}
    (registered : ∀ path ∉ paths, ∀ client,
      fileMap.Registered path client ↔ s.fileMap.Registered path client) :
    s.Spares paths cleaned { s with fileMap := fileMap } :=
  ⟨fun _ _ => rfl, fun path apart client => (registered path apart client).mp,
    fun path apart client _ => (registered path apart client).mpr,
    fun _ _ _ => Iff.rfl⟩

theorem registered_insertClient_of_ne {map : ClientMap} {other : Path}
    (apart : other ∉ [path]) (client : ClientId) :
    (map.insertClient path clientId).Registered other client ↔
      map.Registered other client := by
  rw [ClientMap.registered_insertClient]
  apply or_iff_left
  rintro ⟨rfl, -⟩
  simp at apart

theorem registered_update_of_ne {map : ClientMap} {other : Path}
    (apart : other ≠ path) (clients : Option (Finset ClientId))
    (client : ClientId) :
    ClientMap.Registered (Function.update map path clients) other client ↔
      map.Registered other client := by
  simp only [ClientMap.Registered, Function.update_of_ne apart]

theorem spares_registerOpen (s : Server) (path : Path) (clientId : ClientId) :
    s.Spares [path] cleaned (s.registerOpen path clientId) where
  read _ _ := rfl
  added _ apart client := (registered_insertClient_of_ne apart client).mp
  kept _ apart client _ := (registered_insertClient_of_ne apart client).mpr
  fileMapOpen _ apart client := registered_insertClient_of_ne apart client

theorem spares_fileChangeCallbackClose (s : Server) (path : Path)
    (clientId : ClientId) (notif : Notification) :
    s.Spares [path] cleaned (s.fileChangeCallbackClose path clientId notif) := by
  unfold fileChangeCallbackClose
  split
  · exact spares_notifyAll ..
  · exact spares_fileMap fun _ apart client =>
      registered_insertClient_of_ne apart client

theorem spares_fileChangeCallbackUnlink (s : Server) (path : Path)
    (clientId : ClientId) (notif : Notification) :
    s.Spares [path] cleaned (s.fileChangeCallbackUnlink path clientId notif) := by
  unfold fileChangeCallbackUnlink
  split
  · refine (spares_notifyAll ..).trans (spares_fileMap ?_)
    intro other apart client
    exact registered_update_of_ne (by simpa using apart) _ client
  · exact .refl ..

theorem spares_fileChangeCallbackRename {oldPath newPath : Path}
    {notif : Notification}
    (calls : s.fileChangeCallbackRename oldPath newPath clientId notif =
      some s') : s.Spares [oldPath, newPath] cleaned s' := by
  unfold fileChangeCallbackRename at calls
  split at calls
  · obtain rfl := Option.some.inj calls
    refine (spares_notifyAll ..).trans (spares_fileMap ?_)
    intro other apart client
    simp only [List.mem_cons, List.not_mem_nil, or_false, not_or] at apart
    exact (registered_update_of_ne apart.1 _ client).trans
      (registered_update_of_ne apart.2 _ client)
  · simp at calls

theorem spares_finishClose (s : Server) (path : Path) (clientId : ClientId)
    (timestamp : Int) :
    s.Spares [path] cleaned (s.finishClose path clientId timestamp) := by
  have called : s.Spares [path] cleaned _ :=
    s.spares_fileChangeCallbackClose path clientId
      (updateNotification path timestamp)
  refine ⟨called.read, called.added, called.kept, ?_⟩
  intro other apart client
  rw [← called.fileMapOpen other apart client]
  refine ClientMap.registered_eraseClient.trans (and_iff_left ?_)
  rintro ⟨rfl, -⟩
  simp at apart

theorem spares_closeHandler (s : Server) (stream : List FileRequest)
    (outcome : DiskOutcome) :
    s.Spares (stream.head?.toList.map FileRequest.path) cleaned
      (s.closeHandler stream outcome).1 := by
  unfold closeHandler
  split
  · exact .refl ..
  · next first later =>
      dsimp only
      split
      · have received : s.Spares [first.path] cleaned
            (s.receiveFile first.path (first :: later)) :=
          spares_disk fun other apart =>
            FileStore.read_replace_ne (by simpa using apart) _
        exact received.trans (spares_finishClose ..)
      · exact .refl ..

theorem spares_unlinkHandler (s : Server) (path : Path) (clientId : ClientId)
    (outcome : DiskOutcome) :
    s.Spares [path] cleaned (s.unlinkHandler path clientId outcome).1 := by
  unfold unlinkHandler
  split
  · exact .refl ..
  · have removed : s.Spares [path] cleaned
        { s with disk := s.disk.remove path } :=
      spares_disk fun other apart =>
        FileStore.read_remove_ne (by simpa using apart)
    exact removed.trans (spares_fileChangeCallbackUnlink ..)
  · exact .refl ..
  · exact .refl ..

theorem spares_renameHandler {oldPath newPath : Path} {status : Status}
    (renames : s.renameHandler oldPath newPath clientId outcome =
      some (s', status)) : s.Spares [oldPath, newPath] cleaned s' := by
  unfold renameHandler at renames
  split at renames
  · obtain ⟨after, called, same⟩ := Option.map_eq_some_iff.mp renames
    obtain ⟨rfl, -⟩ := Prod.mk.inj same
    have moved : s.Spares [oldPath, newPath] cleaned
        { s with disk := s.disk.rename oldPath newPath } := by
      refine spares_disk fun other apart => ?_
      simp only [List.mem_cons, List.not_mem_nil, or_false, not_or] at apart
      exact FileStore.read_rename_ne apart.1 apart.2
    exact moved.trans (spares_fileChangeCallbackRename called)
  · obtain ⟨rfl, -⟩ := Prod.mk.inj (Option.some.inj renames)
    exact .refl ..

theorem spares_cleanupClient (paths : List Path) (s : Server)
    (clientId : ClientId) :
    s.Spares paths [clientId] (s.cleanupClient clientId) := by
  have sameFileMap : (s.cleanupClient clientId).fileMap =
      s.fileMap.sweepClient clientId := fileMap_cleanupClient
  have sameOpen : (s.cleanupClient clientId).fileMapOpen = s.fileMapOpen := by
    unfold cleanupClient
    dsimp only
    split <;> rfl
  have sameDisk : (s.cleanupClient clientId).disk = s.disk := by
    unfold cleanupClient
    dsimp only
    split <;> rfl
  constructor
  · simp [sameDisk]
  · intro path _ client
    rw [sameFileMap]
    exact ClientMap.registered_of_sweepClient
  · intro path _ client stays
    rw [sameFileMap]
    exact (ClientMap.registered_sweepClient_of_ne (by simpa using stays)).mpr
  · simp [sameOpen]

end Server

variable {s s' : Server} {call : ServerCall}

theorem spares_of_step (steps : call.step s = some s')
    (sameDisk : ∀ disk clock, call = .elsewhere disk clock → disk = s.disk) :
    s.Spares call.paths call.cleaned s' := by
  cases call with
  | requestDir code clientId =>
      obtain rfl := Option.some.inj steps
      unfold Server.requestDirHandler
      split <;> exact Server.spares_of_same rfl rfl rfl
  | subscribe clientId =>
      obtain rfl := Option.some.inj steps
      exact Server.spares_of_same rfl rfl rfl
  | pop q =>
      simp only [ServerCall.step, Server.popQueue] at steps
      split at steps
      · obtain rfl := Option.some.inj steps
        exact Server.spares_of_same rfl rfl rfl
      · simp at steps
  | cancel q =>
      obtain rfl := Option.some.inj steps
      exact Server.spares_of_same rfl rfl rfl
  | «open» request outcome =>
      obtain rfl := Option.some.inj steps
      exact s.spares_registerOpen request.path request.clientId
  | close stream outcome =>
      obtain rfl := Option.some.inj steps
      exact s.spares_closeHandler stream outcome
  | unlink path clientId outcome =>
      obtain rfl := Option.some.inj steps
      exact s.spares_unlinkHandler path clientId outcome
  | rename oldPath newPath clientId outcome =>
      obtain ⟨⟨after, status⟩, renames, rfl⟩ := Option.map_eq_some_iff.mp steps
      exact Server.spares_renameHandler renames
  | cleanupClient clientId =>
      obtain rfl := Option.some.inj steps
      exact s.spares_cleanupClient [] clientId
  | elsewhere disk clock =>
      obtain rfl := Option.some.inj steps
      obtain rfl := sameDisk disk clock rfl
      exact Server.spares_of_same rfl rfl rfl

/-- In every run of handlers that are called for paths of a mounted file system,
nothing changes at the places that are not below the root, but that clean-ups
remove registrations of their clients. -/
theorem spares_of_run {mount : Mount} {calls : List ServerCall}
    (rootNonempty : mount.serverRootPath ≠ "")
    (reaches : run ServerCall.step calls s = some s')
    (mounted : Along ServerCall.step (ServerCall.Mounted mount) calls s)
    {path : Path} (outside : ¬ StrictlyInside mount.root (normalForm path)) :
    s'.disk.read path = s.disk.read path ∧
      ∀ client,
        (s'.fileMap.Registered path client → s.fileMap.Registered path client) ∧
        (s.fileMap.Registered path client → .cleanupClient client ∉ calls →
          s'.fileMap.Registered path client) ∧
        (s'.fileMapOpen.Registered path client ↔
          s.fileMapOpen.Registered path client) := by
  induction calls generalizing s with
  | nil =>
      obtain rfl : s = s' := by simpa using reaches
      exact ⟨rfl, fun _ => ⟨id, fun registered _ => registered, Iff.rfl⟩⟩
  | cons call calls ih =>
      obtain ⟨next, steps, later⟩ := run_cons_eq_some.mp reaches
      obtain ⟨⟨fromMount, sameDisk⟩, mountedLater⟩ := mounted
      have spares := spares_of_step steps sameDisk
      have apart : path ∉ call.paths := by
        intro isNamed
        obtain ⟨userPath, normalized, rfl⟩ := fromMount path isNamed
        exact outside (strictlyInside_resolveServerPath rootNonempty normalized)
      obtain ⟨read, registered⟩ := ih later (mountedLater next steps)
      refine ⟨read.trans (spares.read path apart), fun client => ?_⟩
      obtain ⟨added, kept, open_iff⟩ := registered client
      refine ⟨?_, ?_, ?_⟩
      · exact fun isRegistered => spares.added path apart client (added isRegistered)
      · intro isRegistered notCleaned
        rw [List.mem_cons, not_or] at notCleaned
        have stays : client ∉ call.cleaned := by
          intro isCleaned
          cases call with
          | cleanupClient other =>
              obtain rfl := List.mem_singleton.mp isCleaned
              exact notCleaned.1 rfl
          | _ => simp [ServerCall.cleaned] at isCleaned
        exact kept (spares.kept path apart client stays isRegistered) notCleaned.2
      · exact open_iff.trans (spares.fileMapOpen path apart client)

end Handlers

/-- A file is uploaded and deleted. -/
private def uploadAndDelete : List ServerCall :=
  [.close [⟨"/srv/a", "c", [97]⟩] .success, .unlink "/srv/a" "c" .success]

private theorem uploadAndDelete_mounted (s : Server) :
    Along ServerCall.step (ServerCall.Mounted ⟨"/srv", "./cache"⟩)
      uploadAndDelete s := by
  have normalized : IsNormalized "/a" := by
    refine ⟨["a".toList], by simp, ?_, by decide⟩
    intro name member
    obtain rfl := List.mem_singleton.mp member
    exact ⟨⟨by decide, by decide⟩, by decide, by decide⟩
  have resolved : (Mount.mk "/srv" "./cache").resolveServerPath "/a" =
      "/srv/a" := by decide
  apply along_of_forall
  intro call isCall s
  have cases : call = .close [⟨"/srv/a", "c", [97]⟩] .success ∨
      call = .unlink "/srv/a" "c" .success := by
    simpa [uploadAndDelete] using isCall
  refine ⟨fun path isNamed => ⟨"/a", normalized, ?_⟩, ?_⟩
  · obtain rfl | rfl := cases <;>
      simpa [ServerCall.paths, resolved] using isNamed
  · obtain rfl | rfl := cases <;> simp

end DistributedFilesystem
