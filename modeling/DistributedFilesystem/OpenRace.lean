import DistributedFilesystem.OpenEffects
import DistributedFilesystem.ServerAnnouncements
import DistributedFilesystem.ServerPushes

/-!
# Opening a file while it is invalidated

One call of `open_file` runs next to the subscriber thread of its client and to
uploads of the same file by other clients.  The call gives up the client's lock
between its lookup in the cache, its download, its entry in the cache and its
entry in the opened files; the handler of its download and those of the uploads
take the steps of `ServerThreads`.
-/

namespace DistributedFilesystem

open LockedThreads

/-- Where the call of `open_file` is: before its lookup; during a download
attempt after which so many are left; in the cache after a download, or found
there, and not yet among the opened files; or returned. -/
inductive OpenPhase where
  | start
  | requesting (left : Nat)
  | entered
  | hit
  | returned (opened : Bool)
deriving DecidableEq

/-- The handlers of the call's downloads (`none`) and of the uploads, the
client, and the notifications that left its queue and have yet to be
processed. -/
structure Race (κ : Type*) where
  handlers : Handlers (Option κ)
  client : Client
  inFlight : List Notification
  phase : OpenPhase

/-- A step of a handler, the next section of the call, a notification leaves
the client's queue, or the subscriber thread processes one. -/
inductive RaceEvent (κ : Type*) where
  | handler (thread : Option κ) (choice : Choice)
  | call (answers : LocalAnswers)
  | send
  | deliver

/-- The client downloads, the others upload. -/
def racers {κ : Type*} (client : ClientId) (uploads : κ → ClientId × List Bytes) :
    Option κ → Participant
  | none => ⟨client, none⟩
  | some k => ⟨(uploads k).1, some (uploads k).2⟩

namespace Race

variable {κ : Type*}

def server (σ : Race κ) : Server := σ.handlers.shared.server

/-- The notifications on their way to the client, oldest first. -/
def undelivered (σ : Race κ) : List Notification :=
  σ.inFlight ++ σ.server.pending σ.client.clientId

/-- The call before its lookup and the uploads before their start. -/
def start (s : Server) (path : Path) (uploads : κ → ClientId × List Bytes)
    (client : Client) (inFlight : List Notification) : Race κ where
  handlers := Handlers.sharing s path (racers client.clientId uploads)
  client := client
  inFlight := inFlight
  phase := .start

/-- What a handler of a download has sent. -/
def responses (t : HandlerLocals) : List FileResponse :=
  t.sent.map fun chunk => ⟨chunk, chunk.length, t.timestamp⟩

variable [DecidableEq κ]

/-- A download attempt starts: its handler is at its start. -/
def request (σ : Race κ) (path : Path) (left : Nat) : Race κ :=
  { σ with
    handlers := { σ.handlers with
      threads := Function.update σ.handlers.threads none
        ⟨.start, openProgram path σ.client.clientId⟩ }
    phase := .requesting left }

/-- The section of the call after an answer of the server. -/
def answered (σ : Race κ) (path : Path) (answers : LocalAnswers) (left : Nat)
    (status : Status) : Race κ :=
  match σ.client.storeDownload answers path left
      (responses (σ.handlers.threads none).locals) status with
  | (client, none) => { σ with client := client, phase := .returned false }
  | (client, some status) =>
      let σ := { σ with client := client }
      if status.isOk then { σ with phase := .entered }
      else
        match left with
        | left + 1 => σ.request path left
        | 0 => { σ with
            client := { client with disk := client.disk.remove path }
            phase := .returned false }

/-- The last section of the call, in which the opened file is entered; without
streams the call fails, and a download is forgotten. -/
def finish (σ : Race κ) (path : Path) (answers : LocalAnswers)
    (forget : Client → Client) : Race κ :=
  match σ.client.openStreams answers path with
  | some streams =>
      { σ with
        client := σ.client.insertOpened path streams, phase := .returned true }
  | none => { σ with client := forget σ.client, phase := .returned false }

/-- The next section of the call. -/
def call (σ : Race κ) (path : Path) (answers : LocalAnswers) :
    Option (Race κ) :=
  match σ.phase with
  | .start =>
      match σ.client.cache path, σ.client.openedFiles path with
      | none, _ =>
          if answers.directories then some (σ.request path 2)
          else some { σ with phase := .returned false }
      | some _, some _ => some { σ with phase := .returned true }
      | some _, none => some { σ with phase := .hit }
  | .requesting left =>
      match σ.handlers.threads none with
      | ⟨t, []⟩ => t.status.map (σ.answered path answers left)
      | _ => none
  | .entered => some (σ.finish path answers fun client => client.eraseCache path)
  | .hit => some (σ.finish path answers id)
  | .returned _ => none

end Race

/-- One event; after the call has returned there is none. -/
def RaceEvent.step {κ : Type*} [DecidableEq κ] (path : Path) :
    RaceEvent κ → Race κ → Option (Race κ)
  | .handler thread choice, σ =>
      match thread, σ.phase with
      | _, .returned _ => none
      | none, .start | none, .entered | none, .hit => none
      | _, _ =>
          (LockedThreads.step exec (thread, choice) σ.handlers).map fun handlers =>
            { σ with handlers := handlers }
  | .call answers, σ => σ.call path answers
  | .send, σ =>
      match σ.phase with
      | .returned _ => none
      | _ =>
          (σ.server.popNotification σ.client.clientId).map fun (note, server) =>
            { σ with
              handlers := { σ.handlers with
                shared := { σ.handlers.shared with server := server } }
              inFlight := σ.inFlight ++ [note] }
  | .deliver, σ =>
      match σ.phase, σ.inFlight with
      | .returned _, _ | _, [] => none
      | _, note :: notes =>
          some { σ with
            client := σ.client.processNotification note
            inFlight := notes }

/-! ## When a copy keeps up with the uploads -/

namespace Race

variable {κ : Type*} (path : Path) (uploads : κ → ClientId × List Bytes)
variable (σ : Race κ)

/-- A notification about the file is on its way to the client. -/
def Waiting : Prop :=
  ∃ note ∈ σ.undelivered, note.directory = path

/-- The local copy is what the server stores. -/
def Current : Prop :=
  σ.client.disk.read path = σ.server.disk.read path

/-- What the call's download has read so far is what the server stores. -/
def DownloadCurrent : Prop :=
  UpToDate path σ.server.disk (σ.handlers.threads none).locals

/-- An upload that changed the file will still notify the client. -/
def Announced : Prop :=
  Owed path (racers σ.client.clientId uploads) σ.handlers σ.client.clientId

/-- The copy is current, or the client will hear of what it lacks. -/
def Informed : Prop :=
  σ.Waiting path ∨ σ.Current path ∨ σ.Announced path uploads

/-- The client will hear of what its copy lacks, and of later uploads. -/
def Watched : Prop :=
  σ.Waiting path ∨
    σ.server.fileMap.Registered path σ.client.clientId ∧
      (σ.Current path ∨ σ.Announced path uploads)

end Race

/-- The events after which the call can still return a copy that keeps up: the
lookup does not find a copy that has missed an upload; the subscriber thread
takes a notification about the file during the download only if the download
does not depend on it, and none once the call will use the copy. -/
def RaceEvent.Harmless {κ : Type*} (path : Path)
    (uploads : κ → ClientId × List Bytes) : RaceEvent κ → Race κ → Prop
  | .call _, σ =>
      match σ.phase, σ.client.cache path, σ.client.openedFiles path with
      | .start, some _, some _ =>
          path ∈ σ.client.fileMutexes ∧ σ.Informed path uploads
      | .start, some _, none => σ.Watched path uploads
      | _, _, _ => True
  | .deliver, σ =>
      match σ.phase, σ.inFlight with
      | .requesting _, note :: notes =>
          note.directory = path →
            Race.Waiting path { σ with inFlight := notes } ∨
              σ.DownloadCurrent path ∨ σ.Announced path uploads
      | .entered, note :: _ | .hit, note :: _ => note.directory ≠ path
      | _, _ => True
  | _, _ => True

end DistributedFilesystem
