import DistributedFilesystem.ClientState

/-!
# The server as a client calls it

A client sees the server through its stub: a call changes the state of the
server and answers.  `Remote.direct` runs the handlers and loses nothing.
`Remote.faulty` lets calls fail on the way: the handler of a failed call
receives only part of what was sent, or its answer does not arrive.
-/

namespace DistributedFilesystem

/-- The calls of a client, over the states `σ` of what it is connected to. -/
structure Remote (σ : Type*) where
  openCall : σ → FileRequest → σ × List FileResponse × Status
  closeCall : σ → List FileRequest → σ × FileResponse × Status
  unlinkCall : σ → Path → ClientId → σ × Status
  /-- No result when the call never returns. -/
  renameCall : σ → Path → Path → ClientId → Option (σ × Status)
  getattrCall : σ → Path → σ × FileAttributes × Status

namespace Remote

/-- Every call reaches its handler, whose disk operations succeed, and the
answer arrives. -/
def direct : Remote Server where
  openCall s request := s.openHandler request .success
  closeCall s stream := s.closeHandler stream .success
  unlinkCall s path client := s.unlinkHandler path client .success
  renameCall s oldPath newPath client :=
    s.renameHandler oldPath newPath client .success
  getattrCall s path := (s, s.getattrHandler path .success)

/-- A failed call: how many messages were delivered, to the server by `close`
and by the server otherwise, how the handler's disk operation ended, and the
status that the client sees. -/
structure Fault where
  delivered : Nat
  outcome : DiskOutcome
  status : Status
  failed : status.isOk = false

/-- A server and, for each of the next calls, the fault that it meets, if
any. -/
structure Link where
  server : Server
  faults : List (Option Fault)

namespace Link

/-- The fault that the next call meets. -/
def fault (link : Link) : Option Fault :=
  link.faults.head?.join

/-- The link after a call that left this server. -/
def after (link : Link) (s : Server) : Link :=
  ⟨s, link.faults.tail⟩

@[simp]
theorem server_after (link : Link) (s : Server) : (link.after s).server = s :=
  rfl

@[simp]
theorem fault_nil (s : Server) : fault ⟨s, []⟩ = none :=
  rfl

@[simp]
theorem after_nil (s s' : Server) : after ⟨s, []⟩ s' = ⟨s', []⟩ :=
  rfl

/-- The next so many calls all meet faults. -/
def Fails (link : Link) (calls : Nat) : Prop :=
  ∀ i < calls, (link.faults[i]?.join).isSome

instance (link : Link) (calls : Nat) : Decidable (link.Fails calls) :=
  inferInstanceAs (Decidable (∀ i < calls, (link.faults[i]?.join).isSome))

theorem exists_fault_of_fails {link : Link} {calls : Nat}
    (fails : link.Fails (calls + 1)) :
    ∃ fault, link.fault = some fault ∧ ∀ s, (link.after s).Fails calls := by
  have first := fails 0 (Nat.succ_pos calls)
  rw [← List.head?_eq_getElem?] at first
  obtain ⟨fault, isFault⟩ := Option.isSome_iff_exists.mp first
  refine ⟨fault, isFault, ?_⟩
  intro s i within
  have later := fails (i + 1) (Nat.succ_lt_succ within)
  simpa [after] using later

end Link

/-- Each call meets its fault, if it has one; the handler of the call has ended
when the call returns. -/
def faulty : Remote Link where
  openCall link request :=
    match link.fault with
    | none =>
        let (s, responses, status) := link.server.openHandler request .success
        (link.after s, responses, status)
    | some fault =>
        let (s, responses, _) := link.server.openHandler request fault.outcome
        (link.after s, responses.take fault.delivered, fault.status)
  closeCall link stream :=
    match link.fault with
    | none =>
        let (s, response, status) := link.server.closeHandler stream .success
        (link.after s, response, status)
    | some fault =>
        let (s, _, _) := link.server.closeHandler (stream.take fault.delivered)
          fault.outcome
        (link.after s, ⟨[], 0, 0⟩, fault.status)
  unlinkCall link path client :=
    match link.fault with
    | none =>
        let (s, status) := link.server.unlinkHandler path client .success
        (link.after s, status)
    | some fault =>
        let (s, _) := link.server.unlinkHandler path client fault.outcome
        (link.after s, fault.status)
  renameCall link oldPath newPath client :=
    match link.fault with
    | none =>
        (link.server.renameHandler oldPath newPath client .success).map
          fun (s, status) => (link.after s, status)
    | some fault =>
        (link.server.renameHandler oldPath newPath client fault.outcome).map
          fun (s, _) => (link.after s, fault.status)
  getattrCall link path :=
    match link.fault with
    | none => (link.after link.server, link.server.getattrHandler path .success)
    | some fault => (link.after link.server, ⟨0, 0, 0, 0⟩, fault.status)

/-- Opening a file changes no file. -/
@[simp]
theorem faulty_openCall_disk (link : Link) (request : FileRequest) :
    (faulty.openCall link request).1.server.disk = link.server.disk := by
  cases meets : link.fault with
  | none => simp [faulty, meets, Server.registerOpen]
  | some fault => simp [faulty, meets, Server.registerOpen]

/-- A call that ends with OK met no fault. -/
theorem openHandler_of_openCall {link link' : Link} {request : FileRequest}
    {responses : List FileResponse} {status : Status}
    (call : faulty.openCall link request = (link', responses, status))
    (ok : status.isOk) :
    link.server.openHandler request .success =
      (link'.server, responses, status) := by
  cases meets : link.fault with
  | none =>
      simp only [faulty, meets, Prod.mk.injEq] at call
      obtain ⟨rfl, rfl, rfl⟩ := call
      rfl
  | some fault =>
      simp only [faulty, meets, Prod.mk.injEq] at call
      obtain ⟨-, -, rfl⟩ := call
      simp [fault.failed] at ok

theorem closeHandler_of_closeCall {link link' : Link}
    {stream : List FileRequest} {response : FileResponse} {status : Status}
    (call : faulty.closeCall link stream = (link', response, status))
    (ok : status.isOk) :
    link.server.closeHandler stream .success =
      (link'.server, response, status) := by
  cases meets : link.fault with
  | none =>
      simp only [faulty, meets, Prod.mk.injEq] at call
      obtain ⟨rfl, rfl, rfl⟩ := call
      rfl
  | some fault =>
      simp only [faulty, meets, Prod.mk.injEq] at call
      obtain ⟨-, -, rfl⟩ := call
      simp [fault.failed] at ok

theorem getattrHandler_of_getattrCall {link link' : Link} {path : Path}
    {attr : FileAttributes} {status : Status}
    (call : faulty.getattrCall link path = (link', attr, status))
    (ok : status.isOk) :
    link.server.getattrHandler path .success = (attr, status) ∧
      link'.server = link.server := by
  cases meets : link.fault with
  | none =>
      simp only [faulty, meets, Prod.mk.injEq] at call
      obtain ⟨rfl, answer⟩ := call
      exact ⟨answer, rfl⟩
  | some fault =>
      simp only [faulty, meets, Prod.mk.injEq] at call
      obtain ⟨-, -, rfl⟩ := call
      simp [fault.failed] at ok

end Remote

end DistributedFilesystem
