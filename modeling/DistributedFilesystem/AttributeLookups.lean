import DistributedFilesystem.CacheRegistration

/-!
# Attributes at the clients

`get_attributes` asks the server for the attributes of a file and keeps them in
`cached_attr`; it does not register the client for the file.  Besides, opening,
writing and closing a file change the entry that is there.  This file adds calls
of `get_attributes` to the calls that interleave: any number of them at a time,
for the same file or not, and next to the other calls of their client.

No handler locks the file that it works on.  `getattr` calls `stat` twice;
`close` truncates the file and writes it chunk by chunk, so that the file has
other contents for a while, and other ones in the end if another call writes or
removes it meanwhile; and `open` may send some chunks of one file and some of
another.
-/

namespace DistributedFilesystem

/-- A call of `get_attributes`, and the section it has reached. -/
inductive Lookup where
  | idle
  /-- The request is on its way. -/
  | asking (client : ClientId) (path : Path)
  /-- The first `stat` of the handler found this. -/
  | sized (client : ClientId) (path : Path) (found : FileAttributes)
  /-- The handler has answered. -/
  | answered (client : ClientId) (path : Path) (attr : FileAttributes)
deriving DecidableEq

/-- A cluster, and the calls of `get_attributes` by the thread they run on. -/
structure AttrCluster extends Cluster where
  lookups : Nat → Lookup

/-- An event of the cluster, a section of a `get_attributes`, or what happens to
a file that several handlers work on. -/
inductive AttrEvent where
  | file (event : ClusterEvent)
  | lookUp (thread : Nat) (client : ClientId) (path : Path)
  | stat (thread : Nat)
  | answer (thread : Nat)
  | finish (thread : Nat)
  /-- An upload is not yet stored, and the file has these contents so far. -/
  | overwrite (client : ClientId) (path : Path) (stored : List FileRequest)
  /-- An upload ends, and what it wrote is not what is at the path. -/
  | endMixed (client : ClientId) (path : Path)
  /-- A download ends, and it read a file while it changed. -/
  | sendMixed (client : ClientId) (path : Path) (responses : List FileResponse)

namespace AttrCluster

/-- The calls of `get_attributes` stay where they are. -/
def withCluster (σ : AttrCluster) (cluster : Cluster) : AttrCluster :=
  { σ with toCluster := cluster }

/-- The client enters attributes in `cached_attr`. -/
def enterAttr (σ : AttrCluster) (client : ClientId) (path : Path)
    (attr : FileAttributes) : AttrCluster :=
  { σ with
    clients := Function.update σ.clients client
      { σ.clients client with
        cachedAttr := Function.update (σ.clients client).cachedAttr path
          (some attr) } }

/-- The handler of the client's call goes on; the client does nothing. -/
def handle (σ : AttrCluster) (client : ClientId) (path : Path) (server : Server)
    (phase : CallPhase) : AttrCluster :=
  σ.withCluster (σ.afterSection client path (σ.clients client, server, phase))

/-- A `get_attributes` goes on to its next section. -/
def setLookup (σ : AttrCluster) (thread : Nat) (lookup : Lookup) : AttrCluster :=
  { σ with lookups := Function.update σ.lookups thread lookup }

end AttrCluster

/-- One event. -/
def AttrEvent.step : AttrEvent → AttrCluster → Option AttrCluster
  | .file event, σ => (event.step σ.toCluster).map σ.withCluster
  | .lookUp thread client path, σ =>
      match σ.lookups thread with
      | .idle =>
          match (σ.clients client).cachedAttr path with
          | some _ => some σ
          | none => some (σ.setLookup thread (.asking client path))
      | _ => none
  | .stat thread, σ =>
      match σ.lookups thread with
      | .asking client path =>
          let (found, status) := σ.server.statHandler path .success
          some (σ.setLookup thread
            (if status.isOk then .sized client path found else .idle))
      | _ => none
  | .answer thread, σ =>
      match σ.lookups thread with
      | .sized client path found =>
          some (σ.setLookup thread
            (.answered client path (σ.server.getattrResponse path found)))
      | _ => none
  | .finish thread, σ =>
      match σ.lookups thread with
      | .answered client path attr =>
          some ((σ.enterAttr client path attr).setLookup thread .idle)
      | _ => none
  | .overwrite client path stored, σ =>
      match σ.calls client path with
      | .uploading requests =>
          some (σ.handle client path (σ.server.receiveFile path stored)
            (.uploading requests))
      | _ => none
  | .endMixed client path, σ =>
      match σ.calls client path with
      | .uploading _ =>
          some (σ.handle client path σ.server
            (.received (getFileTimestamp σ.server.disk path)))
      | _ => none
  | .sendMixed client path responses, σ =>
      match σ.calls client path with
      | .reading left =>
          some (σ.handle client path σ.server
            (.answered left responses Status.OK))
      | _ => none

/-- `get_attributes` is its sections, with nothing in between. -/
theorem getAttributes_sections (σ : AttrCluster) (thread : Nat)
    (client : ClientId) (path : Path) (idle : σ.lookups thread = .idle)
    (missing : (σ.clients client).cachedAttr path = none)
    (present : (σ.server.disk.read path).isSome) :
    ∃ τ, TransitionRuns.run AttrEvent.step
        [.lookUp thread client path, .stat thread, .answer thread,
          .finish thread] σ = some τ ∧
      ((σ.clients client).getAttributes .direct path σ.server).1 =
        (τ.clients client, τ.server) := by
  obtain ⟨contents, read⟩ := Option.isSome_iff_exists.mp present
  have stats : σ.server.statHandler path .success =
      (⟨contents.length, getFileTimestamp σ.server.disk path,
        getFileTimestamp σ.server.disk path,
        getFileTimestamp σ.server.disk path⟩, Status.OK) := by
    simp [Server.statHandler, read]
  simp [TransitionRuns.run, AttrEvent.step, idle, missing,
    AttrCluster.setLookup, AttrCluster.enterAttr, stats, Server.getattrHandler,
    Client.getAttributes, Remote.direct]

/-- The server has a file of this size and modification time at the path. -/
def Server.Shows (s : Server) (path : Path) (size mtime : Int) : Prop :=
  ∃ contents, s.disk.read path = some contents ∧ size = contents.length ∧
    mtime = getFileTimestamp s.disk path

/-- The client has the file open with changes that it has yet to upload. -/
def Client.OpenModified (client : Client) (path : Path) : Prop :=
  (client.openedFiles path).isSome ∧
    ∃ info, client.cache path = some info ∧ info.locallyModified = true

/-- The client has an entry for the path in `cached_attr`, and will not replace
it by an upload. -/
def Client.Holds (client : Client) (path : Path) (size mtime : Int) : Prop :=
  ¬ client.OpenModified path ∧ ∃ attr, client.cachedAttr path = some attr ∧
    attr.size = size ∧ attr.mtime = mtime

/-- What a call is about to enter for its file: a download that is not empty, or
an upload that the server has stored. -/
def CallPhase.Expects (path : Path) (client : Client) (size mtime : Int) :
    CallPhase → Prop
  | .answered _ responses _ => responses ≠ [] ∧
      size = (Client.downloaded responses).length ∧
        mtime = Client.lastTimestamp responses
  | .received timestamp | .uploaded timestamp =>
      ∃ contents, client.disk.read path = some contents ∧
        size = contents.length ∧ mtime = timestamp
  | _ => False

/-- These are the attributes that the call has from the server so far. -/
def Lookup.Carries (client : ClientId) (path : Path) (attr : FileAttributes)
    (lookup : Lookup) : Prop :=
  lookup = .sized client path attr ∨ lookup = .answered client path attr

/-- The next section changes the file at the server. -/
def CallPhase.Changes : CallPhase → Prop
  | .uploading _ | .removing => True
  | _ => False

/-- The next section notifies the other clients. -/
def CallPhase.Notifies : CallPhase → Prop
  | .received _ | .removed => True
  | _ => False

/-- The call has yet to notify the other clients, and will. -/
def CallPhase.WillNotify : CallPhase → Prop
  | .uploading _ | .received _ | .removed => True
  | _ => False

namespace AttrCluster

variable (σ : AttrCluster) (client : ClientId) (path : Path)

/-- A `get_attributes` of the client is about to enter this, or would be if the
file stayed as its handler found it. -/
def LookedUp (size mtime : Int) : Prop :=
  ∃ thread attr, (σ.lookups thread).Carries client path attr ∧
    attr.size = size ∧ attr.mtime = mtime

/-- A call of the client is about to enter this. -/
def Expects (size mtime : Int) : Prop :=
  (σ.calls client path).Expects path (σ.clients client) size mtime ∨
    σ.LookedUp client path size mtime

/-- The client holds this, or is about to. -/
def Knows (size mtime : Int) : Prop :=
  (σ.clients client).Holds path size mtime ∨ σ.Expects client path size mtime

/-- The client is registered, and another client's call has yet to notify the
clients that are. -/
def Announced : Prop :=
  σ.server.fileMap.Registered path client ∧
    ∃ other, other ≠ client ∧ (σ.calls other path).WillNotify

/-- A notification about the path is on its way to the client, or will be. -/
def Told : Prop :=
  σ.Waiting client path ∨ σ.Announced client path

/-- The file is on the server as given, or the client will be told that it
changed. -/
def UpToDate (size mtime : Int) : Prop :=
  σ.server.Shows path size mtime ∨ σ.Told client path

/-- Every client that holds attributes of the path, or is about to, is another
one and watches the path. -/
def OthersWatch (members : Set ClientId) (changer : ClientId) : Prop :=
  ∀ client ∈ members, ∀ size mtime, σ.Knows client path size mtime →
    client ≠ changer ∧ σ.Watches client path

end AttrCluster

/-- Members take part only, and do not create files.

* A client's call changes a file at the server, by writing or by removing it,
  only while every client that holds its attributes, or is about to, is another
  one and watches the file.
* Its `unlink` erases the registrations only while the client is not going to be
  notified through its own, or does without it.
* It takes an answer without contents only while it has no attributes of the
  file, or is going to be told of a change.
* The subscriber thread takes a notification that evicts nothing only while what
  the client holds is up to date without it, and any notification only while so
  is what the client's calls are about to enter. -/
def AttrEvent.Careful (members : Set ClientId) :
    AttrEvent → AttrCluster → Prop
  | .file (.start client _ call _), _ => client ∈ members ∧ call ≠ .createFile
  | .file (.advance client path _), σ =>
      client ∈ members ∧
        ((σ.calls client path).Changes → σ.OthersWatch path members client) ∧
        (σ.calls client path = .removed → σ.Announced client path →
          σ.Waiting client path ∨ ∀ size mtime,
            σ.Knows client path size mtime → σ.server.Shows path size mtime) ∧
        (∀ left status, σ.calls client path = .answered left [] status →
          (σ.clients client).cachedAttr path = none ∨ σ.Told client path)
  | .file (.send client), _ => client ∈ members
  | .file (.deliver client), σ =>
      client ∈ members ∧
        ∀ note notes, σ.inFlight client = note :: notes → ∀ size mtime,
          σ.Expects client note.directory size mtime ∨
              (σ.clients client).Holds note.directory size mtime ∧
                ((σ.clients client).openedFiles note.directory ≠ none ∨
                  (σ.clients client).cache note.directory = none) →
            AttrCluster.UpToDate { σ with
              inFlight := Function.update σ.inFlight client notes }
              client note.directory size mtime
  | .file (.tick _), _ => True
  | .lookUp _ client _, _ => client ∈ members
  | .overwrite client path _, σ =>
      client ∈ members ∧ σ.OthersWatch path members client
  | .endMixed client path, σ | .sendMixed client path _, σ =>
      client ∈ members ∧ σ.Told client path
  | _, _ => True

/-- The members are subscribed, hold nothing, and make no calls. -/
structure AttrCluster.Starts (members : Set ClientId) (σ : AttrCluster) :
    Prop extends Cluster.Starts members σ.toCluster where
  noAttributes : ∀ client ∈ members, ∀ path,
    (σ.clients client).cachedAttr path = none
  closed : ∀ client ∈ members, ∀ path,
    (σ.clients client).openedFiles path = none
  noLookups : ∀ thread, σ.lookups thread = .idle

end DistributedFilesystem
