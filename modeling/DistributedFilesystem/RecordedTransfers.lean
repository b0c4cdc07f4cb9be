import DistributedFilesystem.ModifiedCopies

/-!
# Recording what was transferred

`Remote.recording` passes every call on and keeps, for each path, the bytes of
its last transfer that was answered with OK: those that `open` sent or those
that `close` received.  It changes nothing else, so a run over it is a run over
the remote that it records.
-/

namespace DistributedFilesystem

/-- The bytes last transferred for each path, if any. -/
abbrev Transfers := Path → Option Bytes

namespace Remote

/-- The transfers after one that carried `content` and ended with `status`. -/
def record (transfers : Transfers) (path : Path) (content : List Bytes)
    (status : Status) : Transfers :=
  if status.isOk then Function.update transfers path (some content.flatten)
  else transfers

/-- Record the transfers of a remote. -/
def recording {σ : Type*} (remote : Remote σ) : Remote (σ × Transfers) where
  openCall state request :=
    let (r, responses, status) := remote.openCall state.1 request
    ((r, record state.2 request.path (responses.map FileResponse.content) status),
      responses, status)
  closeCall state stream :=
    let (r, response, status) := remote.closeCall state.1 stream
    match stream with
    | [] => ((r, state.2), response, status)
    | first :: _ =>
        ((r, record state.2 first.path (stream.map FileRequest.content) status),
          response, status)
  unlinkCall state path client :=
    let (r, status) := remote.unlinkCall state.1 path client
    ((r, state.2), status)
  renameCall state oldPath newPath client :=
    (remote.renameCall state.1 oldPath newPath client).map
      fun answer => ((answer.1, state.2), answer.2)
  getattrCall state path :=
    let (r, attr, status) := remote.getattrCall state.1 path
    ((r, state.2), attr, status)

variable {σ : Type*} {remote : Remote σ} {transfers : Transfers}
variable {path other : Path} {content : List Bytes} {status : Status}

theorem record_ok (ok : status.isOk) :
    record transfers path content status path = some content.flatten := by
  simp [record, ok]

theorem record_ne (apart : other ≠ path) :
    record transfers path content status other = transfers other := by
  unfold record
  split
  · exact Function.update_of_ne apart ..
  · rfl

theorem recording_openCall_eq {state after : σ × Transfers}
    {request : FileRequest} {responses : List FileResponse}
    (call : remote.recording.openCall state request =
      (after, responses, status)) :
    remote.openCall state.1 request = (after.1, responses, status) ∧
      after.2 = record state.2 request.path
        (responses.map FileResponse.content) status := by
  cases answer : remote.openCall state.1 request with
  | mk r rest =>
      obtain ⟨responses', status'⟩ := rest
      simp only [recording, answer, Prod.mk.injEq] at call
      obtain ⟨rfl, rfl, rfl⟩ := call
      exact ⟨rfl, rfl⟩

theorem recording_closeCall_eq {state after : σ × Transfers}
    {stream : List FileRequest} {response : FileResponse}
    (nonempty : stream ≠ [])
    (samePath : ∀ request ∈ stream, request.path = path)
    (call : remote.recording.closeCall state stream =
      (after, response, status)) :
    remote.closeCall state.1 stream = (after.1, response, status) ∧
      after.2 = record state.2 path
        (stream.map FileRequest.content) status := by
  cases stream with
  | nil => exact (nonempty rfl).elim
  | cons first later =>
      have isPath : first.path = path := samePath first List.mem_cons_self
      cases answer : remote.closeCall state.1 (first :: later) with
      | mk r rest =>
          obtain ⟨response', status'⟩ := rest
          simp only [recording, answer, Prod.mk.injEq] at call
          obtain ⟨rfl, rfl, rfl⟩ := call
          exact ⟨rfl, by rw [isPath]⟩

end Remote

/-! ## What transfers do to the server -/

namespace Server

/-- `close` leaves the files at all other paths alone. -/
theorem read_closeHandler_ne {s : Server} {path other : Path}
    {stream : List FileRequest} (outcome : DiskOutcome)
    (samePath : ∀ request ∈ stream, request.path = path)
    (apart : other ≠ path) :
    (s.closeHandler stream outcome).1.disk.read other = s.disk.read other := by
  unfold closeHandler
  split
  · rfl
  · next first later =>
      have isPath : first.path = path := samePath first List.mem_cons_self
      dsimp only
      split
      · rw [disk_finishClose, read_receiveFile_ne]
        rwa [isPath]
      · rfl

end Server

namespace Remote

theorem read_faulty_closeCall_ne {link : Link} {path other : Path}
    {stream : List FileRequest}
    (samePath : ∀ request ∈ stream, request.path = path)
    (apart : other ≠ path) :
    (faulty.closeCall link stream).1.server.disk.read other =
      link.server.disk.read other := by
  cases meets : link.fault with
  | none =>
      simp only [faulty, meets]
      exact Server.read_closeHandler_ne .success samePath apart
  | some fault =>
      simp only [faulty, meets]
      apply Server.read_closeHandler_ne fault.outcome _ apart
      intro request member
      exact samePath request (List.mem_of_mem_take member)

end Remote

end DistributedFilesystem
