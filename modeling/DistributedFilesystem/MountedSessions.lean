import DistributedFilesystem.FuseCallbacks
import DistributedFilesystem.SessionSharing

/-!
# Mounted file systems in sessions

Programs see the shared files through the callbacks of their mounted file
systems.  What the callbacks return, while the programs take turns, is what a
store of files with sessions answers that has the files under their mounted
paths.
-/

namespace DistributedFilesystem

open FileSessions PosixPaths TransitionRuns

/-- `afs_unlink`, and `afs_unlink_folder` for `rmdir`. -/
def Mount.afsUnlink {σ : Type*} (mount : Mount) (remote : Remote σ)
    (path : String) (client : Client) (r : σ) : (Client × σ) × Int :=
  let deleted := client.deleteFile remote (mount.resolveServerPath path) r
  (deleted.1, if deleted.2 then 0 else -noEntry)

/-- A callback at one client, or what happens besides. -/
inductive MountCall where
  | afsOpen (client : ClientId) (path : String) (now : Int)
  | afsRead (client : ClientId) (path : String) (size : Nat) (offset : Int)
  | afsWrite (client : ClientId) (path : String) (data : Bytes)
      (offset now : Int)
  | afsRelease (client : ClientId) (path : String) (now : Int)
  | afsUnlink (client : ClientId) (path : String)
  | send (client : ClientId)
  | deliver (client : ClientId)
  | tick (now : Int)

/-- What a callback returns, and what it copies to the kernel's buffer. -/
structure Reply where
  result : Int
  buffer : Bytes
deriving DecidableEq

namespace MountCall

section Callbacks

variable (mount : Mount)

/-- The callbacks change the clients and the server; `none` when the process
ends.  No file is opened to be truncated. -/
def step : MountCall → System → Option System
  | .afsOpen client path now, σ =>
      some (σ.setClient client (mount.afsOpen .direct (.success now) path false
        (σ.clients client) σ.server).1)
  | .afsRead client path size offset, σ =>
      let read := mount.afsRead path size offset (σ.clients client)
      read.2.map fun _ => σ.setClient client (read.1, σ.server)
  | .afsWrite client path data offset now, σ =>
      let written := mount.afsWrite (.success now) path data offset
        (σ.clients client)
      some (σ.setClient client (written.1, σ.server))
  | .afsRelease client path now, σ =>
      let released := mount.afsRelease .direct (.success now) path
        (σ.clients client) σ.server
      -- The uploads are kept as for `close_file`.
      let closed := SystemEvent.closeFile client (mount.callbackKey path) now
      (closed.step σ).map fun after =>
        { σ.setClient client released with uploads := after.uploads }
  | .afsUnlink client path, σ =>
      some (σ.setClient client
        (mount.afsUnlink .direct path (σ.clients client) σ.server).1)
  | .send client, σ => (SystemEvent.send client).step σ
  | .deliver client, σ => (SystemEvent.deliver client).step σ
  | .tick now, σ => (SystemEvent.tick now).step σ

/-- What the callbacks return. -/
def replies : MountCall → System → List Reply
  | .afsOpen client path now, σ =>
      [⟨(mount.afsOpen .direct (.success now) path false (σ.clients client)
        σ.server).2, []⟩]
  | .afsRead client path size offset, σ =>
      match (mount.afsRead path size offset (σ.clients client)).2 with
      | some (buffer, result) => [⟨result, buffer⟩]
      | none => []
  | .afsWrite client path data offset now, σ =>
      [⟨(mount.afsWrite (.success now) path data offset (σ.clients client)).2,
        []⟩]
  | .afsRelease _ _ _, _ => [⟨0, []⟩]
  | .afsUnlink client path, σ =>
      [⟨(mount.afsUnlink .direct path (σ.clients client) σ.server).2, []⟩]
  | .send _, _ | .deliver _, _ | .tick _, _ => []

/-- The call of the client that a callback makes. -/
def event : MountCall → SystemEvent
  | .afsOpen client path now => .openFile client (mount.callbackKey path) now
  | .afsRead client path size offset =>
      .readFile client (mount.callbackKey path) (intOf size).toNat (intOf offset)
  | .afsWrite client path data offset now =>
      .writeFile client (mount.callbackKey path) data offset now
  | .afsRelease client path now =>
      .closeFile client (mount.callbackKey path) now
  | .afsUnlink client path => .deleteFile client (mount.resolveServerPath path)
  | .send client => .send client
  | .deliver client => .deliver client
  | .tick now => .tick now

/-- The kernel's paths are normalised. -/
def Fits : MountCall → Prop
  | .afsOpen _ path _ | .afsRead _ path _ _ | .afsWrite _ path _ _ _
  | .afsRelease _ path _ | .afsUnlink _ path => IsNormalized path
  | .send _ | .deliver _ | .tick _ => True

/-- The programs take turns. -/
def Allowed (members : Set ClientId) (call : MountCall) (σ : System) : Prop :=
  call.Fits ∧ (call.event mount).Allowed members σ

end Callbacks

/-- What the program asks of the store. -/
def request : MountCall → Option (FileSessions.Request ClientId String Byte)
  | .afsOpen client path _ => some (.openFile client path)
  | .afsRead client path size offset =>
      some (.readFile client path (intOf size).toNat (intOf offset))
  | .afsWrite client path data offset _ =>
      some (.writeFile client path data offset)
  | .afsRelease client path _ => some (.closeFile client path)
  | .afsUnlink client path => some (.deleteFile client path)
  | .send _ | .deliver _ | .tick _ => none

/-- The store's answer as the callback returns it. -/
def reply : MountCall → Answer Byte → Reply
  | .afsOpen _ _ _, .done succeeds =>
      ⟨if succeeds then 0 else -accessDenied, []⟩
  | .afsRead _ _ _ _, .bytes (some buffer) => ⟨buffer.length, buffer⟩
  | .afsRead _ _ _ _, .bytes none => ⟨-accessDenied, []⟩
  | .afsWrite _ _ data _ _, .done succeeds =>
      ⟨if succeeds then intOf data.length else -accessDenied, []⟩
  | .afsUnlink _ _, .done succeeds => ⟨if succeeds then 0 else -noEntry, []⟩
  | _, _ => ⟨0, []⟩

/-- The callback at the store. -/
def serve (call : MountCall) (store : Store ClientId String Byte) :
    Store ClientId String Byte × List Reply :=
  match call.request with
  | some request =>
      ((request.serve store).1, [call.reply (request.serve store).2])
  | none => (store, [])

/-- Callbacks, one after the other, at the store. -/
def serveAll (store : Store ClientId String Byte) :
    List MountCall → Store ClientId String Byte × List Reply
  | [] => (store, [])
  | call :: calls =>
      let (store, replies) := call.serve store
      let (store, later) := serveAll store calls
      (store, replies ++ later)

end MountCall

section Mounts

variable {mount : Mount} {members : Set ClientId} {σ σ' : System}
variable {call : MountCall} {path : String}

theorem Mount.callbackKey_of_isNormalized
    (rootNonempty : mount.serverRootPath ≠ "") (normalized : IsNormalized path) :
    mount.callbackKey path = mount.resolveServerPath path :=
  (mount.keys_of_isDirectoryOf rootNonempty normalized (.inl rfl)).1

/-- A read that does not end the process asks for a size that is not negative as
an `int`, or is refused before the size matters. -/
theorem Mount.afsRead_eq {size : Nat} {offset : Int} {client : Client}
    {reply : Bytes × Int}
    (returns : (mount.afsRead path size offset client).2 = some reply) :
    mount.afsRead path size offset client =
      ((client.readFile (mount.callbackKey path) (intOf size).toNat
          (intOf offset)).1,
        some (match (client.readFile (mount.callbackKey path)
            (intOf size).toNat (intOf offset)).2 with
          | some buffer => (buffer, (buffer.length : Int))
          | none => ([], -accessDenied))) := by
  unfold Mount.afsRead at returns ⊢
  cases reads : client.readFile (mount.callbackKey path) (intOf size).toNat
      (intOf offset) with
  | mk client' buffer =>
      rw [reads] at returns
      cases buffer with
      | none => rfl
      | some buffer =>
          dsimp only at returns ⊢
          split at returns
          · simp at returns
          · next fits => exact if_neg fits

/-- The reply of a read that does not end the process. -/
theorem exists_reply_of_step {client : ClientId} {size : Nat} {offset : Int}
    (steps : (MountCall.afsRead client path size offset).step mount σ = some σ') :
    ∃ reply, (mount.afsRead path size offset (σ.clients client)).2 = some reply := by
  obtain ⟨reply, returns, -⟩ := Option.map_eq_some_iff.mp steps
  exact ⟨reply, returns⟩

theorem event_step_of_step (steps : call.step mount σ = some σ') :
    (call.event mount).step σ = some σ' := by
  cases call with
  | afsOpen client path now => exact steps
  | afsRead client path size offset =>
      obtain ⟨reply, returns⟩ := exists_reply_of_step steps
      simpa only [MountCall.step, MountCall.event, SystemEvent.step,
        Mount.afsRead_eq returns, Option.map_some] using steps
  | afsWrite client path data offset now => exact steps
  | afsRelease client path now =>
      simpa [MountCall.step, MountCall.event, SystemEvent.step, Mount.afsRelease_eq]
        using steps
  | afsUnlink client path => exact steps
  | send client => exact steps
  | deliver client => exact steps
  | tick now => exact steps

theorem replies_eq_answers (steps : call.step mount σ = some σ') :
    call.replies mount σ = ((call.event mount).answers σ).map call.reply := by
  cases call with
  | afsOpen client path now => rfl
  | afsRead client path size offset =>
      obtain ⟨reply, returns⟩ := exists_reply_of_step steps
      simp only [MountCall.replies, MountCall.event, SystemEvent.answers,
        Mount.afsRead_eq returns, List.map_cons, List.map_nil]
      cases ((σ.clients client).readFile (mount.callbackKey path)
          (intOf size).toNat (intOf offset)).2 with
      | none => rfl
      | some buffer => rfl
  | afsWrite client path data offset now => rfl
  | afsRelease client path now => rfl
  | afsUnlink client path => rfl
  | send client => rfl
  | deliver client => rfl
  | tick now => rfl

/-- The client asks the server for the file with the path that it has there. -/
theorem request_event (rootNonempty : mount.serverRootPath ≠ "")
    (fits : call.Fits) :
    (call.event mount).request =
      call.request.map (FileSessions.Request.rename mount.resolveServerPath) := by
  have key : ∀ {path}, IsNormalized path →
      mount.callbackKey path = mount.resolveServerPath path :=
    mount.callbackKey_of_isNormalized rootNonempty
  cases call with
  | afsOpen client path now =>
      simp [MountCall.event, MountCall.request, SystemEvent.request,
        FileSessions.Request.rename, key fits]
  | afsRead client path size offset =>
      simp [MountCall.event, MountCall.request, SystemEvent.request,
        FileSessions.Request.rename, key fits]
  | afsWrite client path data offset now =>
      simp [MountCall.event, MountCall.request, SystemEvent.request,
        FileSessions.Request.rename, key fits]
  | afsRelease client path now =>
      simp [MountCall.event, MountCall.request, SystemEvent.request,
        FileSessions.Request.rename, key fits]
  | afsUnlink client path => rfl
  | send client => rfl
  | deliver client => rfl
  | tick now => rfl

theorem name_of_request (fits : call.Fits)
    {request : FileSessions.Request ClientId String Byte}
    (requests : call.request = some request) : IsNormalized request.name := by
  cases call with
  | afsOpen client path now => cases requests; exact fits
  | afsRead client path size offset => cases requests; exact fits
  | afsWrite client path data offset now => cases requests; exact fits
  | afsRelease client path now => cases requests; exact fits
  | afsUnlink client path => cases requests; exact fits
  | send client => cases requests
  | deliver client => cases requests
  | tick now => cases requests

variable {initial : Path → Option Bytes} {onServer : Store ClientId Path Byte}
variable {store : Store ClientId String Byte} {calls : List MountCall}

/-- The store with the mounted paths follows the store with the server's. -/
theorem serves_of_call (rootNonempty : mount.serverRootPath ≠ "")
    (turns : TurnsTaken members initial σ)
    (represents : σ.Represents members onServer)
    (isRenamed : store.RenamedTo mount.resolveServerPath {path | IsNormalized path}
      onServer)
    (allowed : call.Allowed mount members σ) (steps : call.step mount σ = some σ') :
    TurnsTaken members initial σ' ∧
      call.replies mount σ = (call.serve store).2 ∧
      ∃ onServer', σ'.Represents members onServer' ∧
        (call.serve store).1.RenamedTo mount.resolveServerPath
          {path | IsNormalized path} onServer' := by
  obtain ⟨fits, allowed⟩ := allowed
  have stepsBelow := event_step_of_step steps
  obtain ⟨represents', answers⟩ :=
    matches_of_step turns represents allowed stepsBelow
  have requests := request_event rootNonempty fits
  refine ⟨turnsTaken_of_step allowed turns stepsBelow, ?_, _, represents', ?_⟩
  · rw [replies_eq_answers steps, answers, requests, MountCall.serve]
    cases isRequest : call.request with
    | none => rfl
    | some request =>
        have served := renamedTo_serve mount.fileLocaServer_injOn isRenamed
          (name_of_request fits isRequest)
        simp only [Option.map_some, Option.toList_some, Store.serve,
          List.map_cons, List.map_nil]
        exact congrArg (fun answer => [call.reply answer]) served.2
  · rw [requests, MountCall.serve]
    cases isRequest : call.request with
    | none => exact isRenamed
    | some request =>
        exact (renamedTo_serve mount.fileLocaServer_injOn isRenamed
          (name_of_request fits isRequest)).1

theorem serves_of_calls (rootNonempty : mount.serverRootPath ≠ "")
    (turns : TurnsTaken members initial σ)
    (represents : σ.Represents members onServer)
    (isRenamed : store.RenamedTo mount.resolveServerPath {path | IsNormalized path}
      onServer)
    (reaches : run (MountCall.step mount) calls σ = some σ')
    (allowed : Along (MountCall.step mount) (MountCall.Allowed mount members)
      calls σ) :
    trace (MountCall.step mount) (MountCall.replies mount) calls σ =
        (MountCall.serveAll store calls).2 ∧
      ∀ path, IsNormalized path →
        σ'.server.disk.read (mount.resolveServerPath path) =
          (MountCall.serveAll store calls).1.files path := by
  induction calls generalizing σ onServer store with
  | nil =>
      obtain rfl : σ = σ' := by simpa using reaches
      refine ⟨rfl, fun path normalized => ?_⟩
      rw [represents.files]
      exact isRenamed.files path normalized
  | cons call calls ih =>
      obtain ⟨next, steps, later⟩ := run_cons_eq_some.mp reaches
      obtain ⟨allowedNow, allowedLater⟩ := allowed
      obtain ⟨nextTurns, reply, onServer', nextRepresents, nextRenamed⟩ :=
        serves_of_call rootNonempty turns represents isRenamed allowedNow steps
      obtain ⟨replies, files⟩ := ih nextTurns nextRepresents nextRenamed later
        (allowedLater next steps)
      refine ⟨?_, files⟩
      simp [trace, MountCall.serveAll, steps, reply, replies]

/-- In every run in which the programs take turns, the callbacks return what a
store of files with sessions answers, which has the files under their mounted
paths, and the server ends with the files of that store. -/
theorem mounts_refine_sessions (rootNonempty : mount.serverRootPath ≠ "")
    (starts : σ.Starts members)
    (reaches : run (MountCall.step mount) calls σ = some σ')
    (allowed : Along (MountCall.step mount) (MountCall.Allowed mount members)
      calls σ) :
    let served := MountCall.serveAll
      (Store.closed fun path => σ.server.disk.read (mount.resolveServerPath path))
      calls
    trace (MountCall.step mount) (MountCall.replies mount) calls σ = served.2 ∧
      ∀ path, IsNormalized path →
        σ'.server.disk.read (mount.resolveServerPath path) =
          served.1.files path := by
  have represents : σ.Represents members (Store.closed σ.server.disk.read) :=
    ⟨fun _ => rfl, fun client member path => (starts.empty client member path).2.1⟩
  exact serves_of_calls rootNonempty (turnsTaken_of_starts starts) represents
    ⟨fun _ _ => rfl, fun _ _ _ => rfl⟩ reaches allowed

end Mounts

/-- One program reads the file before and after another changes it. -/
private def readAround : List MountCall :=
  [.afsOpen "reader" "/a" 1, .afsRead "reader" "/a" 2 0,
    .afsRelease "reader" "/a" 2, .afsOpen "writer" "/a" 3,
    .afsWrite "writer" "/a" [99] 0 4, .afsRelease "writer" "/a" 5,
    .send "reader", .deliver "reader", .afsOpen "reader" "/a" 6,
    .afsRead "reader" "/a" 2 0, .afsUnlink "reader" "/b"]

private theorem readAround_allowed :
    Along (MountCall.step ⟨"/srv", "./cache"⟩)
      (MountCall.Allowed ⟨"/srv", "./cache"⟩ {"reader", "writer"}) readAround
      twoBytes := by
  have reader : "reader" ∈ ({"reader", "writer"} : Set ClientId) := .inl rfl
  have writer : "writer" ∈ ({"reader", "writer"} : Set ClientId) := .inr rfl
  have oneName : ∀ path : String, ∀ name, path.toList = absolutePath '/' [name] →
      IsEntryName name → IsNormalized path := by
    intro path name isPath isName
    exact ⟨[name], by simp, by simpa using isName, isPath⟩
  have a : IsNormalized "/a" := oneName "/a" ['a'] (by decide)
    ⟨⟨by decide, by decide⟩, by decide, by decide⟩
  have b : IsNormalized "/b" := oneName "/b" ['b'] (by decide)
    ⟨⟨by decide, by decide⟩, by decide, by decide⟩
  refine ⟨⟨a, reader, by rintro other (rfl | rfl) <;> rfl, by rintro _ ⟨⟩⟩, ?_⟩
  rintro _ ⟨⟩
  refine ⟨⟨a, reader⟩, ?_⟩
  rintro _ ⟨⟩
  refine ⟨⟨a, reader⟩, ?_⟩
  rintro _ ⟨⟩
  refine ⟨⟨a, writer, by rintro other (rfl | rfl) <;> rfl, by rintro _ ⟨⟩⟩, ?_⟩
  rintro _ ⟨⟩
  refine ⟨⟨a, writer⟩, ?_⟩
  rintro _ ⟨⟩
  refine ⟨⟨a, writer⟩, ?_⟩
  rintro _ ⟨⟩
  refine ⟨⟨trivial, reader⟩, ?_⟩
  rintro _ ⟨⟩
  refine ⟨⟨trivial, reader⟩, ?_⟩
  rintro _ ⟨⟩
  refine ⟨⟨a, reader, by rintro other (rfl | rfl) <;> rfl, by rintro _ ⟨⟩⟩, ?_⟩
  rintro _ ⟨⟩
  refine ⟨⟨a, reader⟩, ?_⟩
  rintro _ ⟨⟩
  refine ⟨⟨b, reader, by rintro other (rfl | rfl) _ <;> rfl⟩, ?_⟩
  rintro _ ⟨⟩
  trivial

/-- The second session has the change, and the other file does not exist. -/
theorem mounts_refine_sessions_readAround :
    trace (MountCall.step ⟨"/srv", "./cache"⟩)
        (MountCall.replies ⟨"/srv", "./cache"⟩) readAround twoBytes =
      [⟨0, []⟩, ⟨2, [97, 98]⟩, ⟨0, []⟩, ⟨0, []⟩, ⟨1, []⟩, ⟨0, []⟩, ⟨0, []⟩,
        ⟨2, [99, 98]⟩, ⟨-2, []⟩] :=
  (mounts_refine_sessions (by decide) twoBytes_starts rfl readAround_allowed).1

end DistributedFilesystem
