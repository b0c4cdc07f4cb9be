import DistributedFilesystem.DirectCalls
import DistributedFilesystem.TransitionRuns

/-!
# Clients that take turns

A server and its clients, whose calls run one after the other: nobody opens a
file that somebody has open, nobody deletes a file that somebody else has open,
and nobody opens a file while a notification for it is on its way to it.
-/

namespace DistributedFilesystem

open TransitionRuns

/-- A server, its clients, the notifications that left a client's queue and
have yet to be processed, and the uploads so far, latest first. -/
structure System where
  server : Server
  clients : ClientId → Client
  inFlight : ClientId → List Notification
  uploads : List (Path × Bytes)

namespace System

/-- The notifications on their way to a client, oldest first. -/
def undelivered (σ : System) (client : ClientId) : List Notification :=
  σ.inFlight client ++ σ.server.pending client

/-- The system after a call of one client. -/
def setClient (σ : System) (client : ClientId) (result : Client × Server) :
    System :=
  { σ with
    server := result.2
    clients := Function.update σ.clients client result.1 }

/-- What the last upload of a path stored, the initial contents if there was
none. -/
def lastStored (initial : Path → Option Bytes) (uploads : List (Path × Bytes))
    (path : Path) : Option Bytes :=
  match uploads.find? fun upload => upload.1 == path with
  | some (_, contents) => some contents
  | none => initial path

end System

/-- What happens in the system: a call of a client at a time of its clock, the
subscribe handler sends the next notification of a client's queue, the client's
subscriber thread processes the next one that was sent, or the server's clock
advances. -/
inductive SystemEvent where
  | openFile (client : ClientId) (path : Path) (now : Int)
  | readFile (client : ClientId) (path : Path) (size : Nat) (offset : Int)
  | writeFile (client : ClientId) (path : Path) (data : Bytes) (position now : Int)
  | closeFile (client : ClientId) (path : Path) (now : Int)
  | deleteFile (client : ClientId) (path : Path)
  | send (client : ClientId)
  | deliver (client : ClientId)
  | tick (now : Int)

/-- One event; local file operations succeed and calls reach the server. -/
def SystemEvent.step : SystemEvent → System → Option System
  | .openFile client path now, σ =>
      some (σ.setClient client
        ((σ.clients client).openFile .direct (.success now) path σ.server).1)
  | .readFile client path size offset, σ =>
      some (σ.setClient client
        (((σ.clients client).readFile path size offset).1, σ.server))
  | .writeFile client path data position now, σ =>
      some (σ.setClient client
        (((σ.clients client).writeFile (.success now) path data position).1,
          σ.server))
  | .closeFile client path now, σ =>
      let before := σ.clients client
      let result := before.closeFile .direct (.success now) path σ.server
      let uploads :=
        match result.2, before.cache path, before.disk.read path with
        | true, some ⟨true, _⟩, some contents => (path, contents) :: σ.uploads
        | _, _, _ => σ.uploads
      some { σ.setClient client result.1 with uploads := uploads }
  | .deleteFile client path, σ =>
      some (σ.setClient client
        ((σ.clients client).deleteFile .direct path σ.server).1)
  | .send client, σ =>
      (σ.server.popNotification client).map fun (note, server) =>
        { σ with
          server := server
          inFlight := Function.update σ.inFlight client
            (σ.inFlight client ++ [note]) }
  | .deliver client, σ =>
      match σ.inFlight client with
      | [] => none
      | note :: notes =>
          some { σ.setClient client
            ((σ.clients client).processNotification note, σ.server) with
            inFlight := Function.update σ.inFlight client notes }
  | .tick now, σ => some { σ with server := { σ.server with clock := now } }

/-- The clients take turns, and only those of the set take part. -/
def SystemEvent.Allowed (members : Set ClientId) : SystemEvent → System → Prop
  | .openFile client path _, σ =>
      client ∈ members ∧
        (∀ other ∈ members, (σ.clients other).openedFiles path = none) ∧
        ∀ note ∈ σ.undelivered client, note.directory ≠ path
  | .deleteFile client path, σ =>
      client ∈ members ∧ ∀ other ∈ members, other ≠ client →
        (σ.clients other).openedFiles path = none
  | .readFile client _ _ _, _ | .writeFile client _ _ _ _, _
  | .closeFile client _ _, _ | .send client, _ | .deliver client, _ =>
      client ∈ members
  | .tick _, _ => True

/-- What is true of one path at one client, for the notifications that are on
their way to it. -/
structure CopySound (s : Server) (undelivered : List Notification) (path : Path)
    (client : Client) : Prop where
  mutex : path ∈ client.fileMutexes ↔ (client.openedFiles path).isSome
  opened : ∀ streams, client.openedFiles path = some streams →
    client.disk.node path = some streams.writeStream.node ∧
      (client.cache path).isSome ∧ (s.disk.read path).isSome ∧
      s.fileMap.Registered path client.clientId ∧
      ∀ note ∈ undelivered, note.directory ≠ path
  unmodified : ∀ info, client.cache path = some info →
    info.locallyModified = false →
    (∃ note ∈ undelivered, note.directory = path) ∨
      (client.disk.read path = s.disk.read path ∧ (s.disk.read path).isSome ∧
        s.fileMap.Registered path client.clientId)
  modified : ∀ info, client.cache path = some info →
    info.locallyModified = true → (client.openedFiles path).isSome

namespace CopySound

variable {s s' : Server} {undelivered undelivered' : List Notification}
variable {path other : Path} {client client' : Client}

/-- A change of the client's entries for another path does not matter. -/
theorem of_sameElsewhere (sound : CopySound s undelivered path client)
    (same : Client.SameElsewhere other client client') (apart : path ≠ other) :
    CopySound s undelivered path client' where
  mutex := by
    rw [same.fileMutexes path apart, same.openedFiles path apart]
    exact sound.mutex
  opened := by
    rw [same.openedFiles path apart, same.node path apart, same.cache path apart,
      same.clientId]
    exact sound.opened
  unmodified := by
    rw [same.cache path apart, same.read path apart, same.clientId]
    exact sound.unmodified
  modified := by
    rw [same.cache path apart, same.openedFiles path apart]
    exact sound.modified

/-- A change of the server that spares the path does not matter. -/
theorem of_spared (sound : CopySound s undelivered path client)
    (read : s'.disk.read path = s.disk.read path)
    (registered : s.fileMap.Registered path client.clientId →
      s'.fileMap.Registered path client.clientId)
    (kept : ∀ note ∈ undelivered, note.directory = path → note ∈ undelivered')
    (spared : ∀ note ∈ undelivered', note.directory = path → note ∈ undelivered) :
    CopySound s' undelivered' path client where
  mutex := sound.mutex
  opened streams isOpen := by
    obtain ⟨node, cached, present, isRegistered, none⟩ := sound.opened streams isOpen
    rw [read]
    refine ⟨node, cached, present, registered isRegistered, ?_⟩
    intro note member about
    exact none note (spared note member about) about
  unmodified info cached clean := by
    rw [read]
    rcases sound.unmodified info cached clean with ⟨note, member, about⟩ |
      ⟨same, present, isRegistered⟩
    · exact .inl ⟨note, kept note member about, about⟩
    · exact .inr ⟨same, present, registered isRegistered⟩
  modified := sound.modified

/-- A change of the file that is announced to the client, which does not have
it open, is all right. -/
theorem of_announced (sound : CopySound s undelivered path client)
    (closed : client.openedFiles path = none)
    (kept : ∀ note ∈ undelivered, note ∈ undelivered')
    (announced : s.fileMap.Registered path client.clientId →
      ∃ note ∈ undelivered', note.directory = path) :
    CopySound s' undelivered' path client where
  mutex := sound.mutex
  opened streams isOpen := by simp [closed] at isOpen
  unmodified info cached clean := by
    rcases sound.unmodified info cached clean with ⟨note, member, about⟩ |
      ⟨-, -, isRegistered⟩
    · exact .inl ⟨note, kept note member, about⟩
    · exact .inl (announced isRegistered)
  modified := sound.modified

/-- Neither does a change of the streams that keeps the write stream on its
file. -/
theorem of_setStreams (sound : CopySound s undelivered path client)
    {change : FileStreams → FileStreams}
    (keeps : ∀ streams, (change streams).writeStream.node =
      streams.writeStream.node) :
    CopySound s undelivered path (client.setStreams path change) where
  mutex := by simpa [Client.setStreams] using sound.mutex
  opened streams isOpen := by
    obtain ⟨before, wasOpen, rfl⟩ :=
      Option.map_eq_some_iff.mp (by simpa [Client.setStreams] using isOpen)
    rw [keeps]
    exact sound.opened before wasOpen
  unmodified := sound.unmodified
  modified info cached modified := by
    simpa [Client.setStreams] using sound.modified info cached modified

/-- A path that is neither cached nor open. -/
theorem of_absent (notCached : client.cache path = none)
    (closed : client.openedFiles path = none)
    (noMutex : path ∉ client.fileMutexes) :
    CopySound s undelivered path client where
  mutex := by simp [closed, noMutex]
  opened streams isOpen := by simp [closed] at isOpen
  unmodified info cached := by simp [notCached] at cached
  modified info cached := by simp [notCached] at cached

end CopySound

end DistributedFilesystem
