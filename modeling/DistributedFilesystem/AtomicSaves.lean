import DistributedFilesystem.FailedCloses
import DistributedFilesystem.LocalCopies
import DistributedFilesystem.LockstepRekeying
import DistributedFilesystem.MountedSessions
import DistributedFilesystem.UninterruptedCalls

/-!
# Saving a file by renaming over it

A program that replaces a file writes a new one beside it and renames it over
the old one.  The callbacks promise less than that: `afs_release` returns 0
whatever became of the upload, so that the rename may find nothing on the
server, or only the front of the new file.
-/

namespace DistributedFilesystem

open PosixPaths Remote TransitionRuns

section Callbacks

variable {σ : Type*} (mount : Mount) (remote : Remote σ)
variable (answers : LocalAnswers)

/-- `afs_create`, which does not look at the mode. -/
def Mount.afsCreate (path : String) (client : Client) : Client × Int :=
  let keys := mount.createFileKeys (callbackFilename path)
    (callbackDirectoryOrEmpty path)
  let created := client.createFile answers keys.fileLocaServer
  (created.1, if created.2 then 0 else -accessDenied)

/-- `afs_rename`; no result when the server's handler never returns. -/
def Mount.afsRename (source target : String) (client : Client) (r : σ) :
    Option ((Client × σ) × Int) :=
  let keys := mount.renameFileKeys (callbackFilename source)
    (callbackFilename target) (callbackDirectoryOrEmpty source)
    (callbackDirectoryOrEmpty target)
  (client.renameFile remote answers keys.source.fileLocaServer
    keys.target.fileLocaServer r).map fun renamed =>
      (renamed.1, if renamed.2 then 0 else -noEntry)

/-- A call of `afs_write` that returns the size of the data. -/
def Write.callback (path : String) (write : Write) (client : Client) :
    Option Client :=
  match mount.afsWrite write.answers path write.data write.position client with
  | (client, result) => if result = write.data.length then some client else none

end Callbacks

section Paths

variable {mount : Mount}

theorem Mount.afsCreate_eq (answers : LocalAnswers) (path : String)
    (client : Client) :
    mount.afsCreate answers path client =
      ((client.createFile answers (mount.callbackKey path)).1,
        if (client.createFile answers (mount.callbackKey path)).2 then 0
        else -accessDenied) := by
  simp only [afsCreate, createFileKeys, callbackKey, locateOnServer,
    resolveServerPath_callbackDirectoryOrEmpty]
  rfl

theorem Mount.afsRename_eq {σ : Type*} (remote : Remote σ)
    (answers : LocalAnswers) (source target : String) (client : Client) (r : σ) :
    mount.afsRename remote answers source target client r =
      (client.renameFile remote answers (mount.callbackKey source)
        (mount.callbackKey target) r).map fun renamed =>
          (renamed.1, if renamed.2 then 0 else -noEntry) := by
  simp only [afsRename, renameFileKeys, callbackKey, locateOnServer,
    resolveServerPath_callbackDirectoryOrEmpty]

/-- A callback that returns the size has written. -/
theorem Write.step_of_callback {path : String} {write : Write}
    {client client' : Client}
    (writes : write.callback mount path client = some client') :
    write.step (mount.callbackKey path) client = some client' := by
  unfold Write.callback Mount.afsWrite at writes
  unfold Write.step
  cases written : client.writeFile write.answers (mount.callbackKey path)
      write.data write.position with
  | mk after succeeds =>
      rw [written] at writes
      cases succeeds with
      | true =>
          obtain ⟨-, rfl⟩ :
              intOf write.data.length = write.data.length ∧ after = client' := by
            simpa using writes
          rfl
      | false =>
          have negative : -accessDenied ≠ (write.data.length : Int) := by
            simp only [accessDenied]
            omega
          simp [negative] at writes

theorem Mount.suffixBelow_callbackKey (rootNonempty : mount.serverRootPath ≠ "")
    {base path : String} (baseNormalized : IsNormalized base)
    (normalized : IsNormalized path) :
    suffixBelow (mount.callbackKey base) (mount.callbackKey path) =
      suffixBelow base path := by
  obtain ⟨relativeBase, isBase, isBaseKey⟩ :=
    mount.toList_fileLocaServer baseNormalized
  obtain ⟨relative, isPath, isKey⟩ := mount.toList_fileLocaServer normalized
  have baseKey : mount.callbackKey base =
      String.ofList mount.base ++ String.ofList relativeBase := by
    apply String.toList_inj.mp
    rw [mount.callbackKey_of_isNormalized rootNonempty baseNormalized,
      String.toList_append, String.toList_ofList, String.toList_ofList]
    exact isBaseKey
  have key : mount.callbackKey path =
      String.ofList mount.base ++ String.ofList relative := by
    apply String.toList_inj.mp
    rw [mount.callbackKey_of_isNormalized rootNonempty normalized,
      String.toList_append, String.toList_ofList, String.toList_ofList]
    exact isKey
  have basePath : base = "/" ++ String.ofList relativeBase := by
    apply String.toList_inj.mp
    simpa using isBase
  have userPath : path = "/" ++ String.ofList relative := by
    apply String.toList_inj.mp
    simpa using isPath
  rw [baseKey, key, suffixBelow_append_left]
  rw [basePath, userPath, suffixBelow_append_left]

/-- Paths neither of which lies below the other have such keys. -/
theorem Mount.separate_callbackKey (rootNonempty : mount.serverRootPath ≠ "")
    {source target : String} (normalized : IsNormalized source)
    (targetNormalized : IsNormalized target) (separate : Separate source target) :
    Separate (mount.callbackKey source) (mount.callbackKey target) where
  newNotBelow := by
    rw [suffixBelow_callbackKey rootNonempty normalized targetNormalized]
    exact separate.newNotBelow
  oldNotBelow := by
    rw [suffixBelow_callbackKey rootNonempty targetNormalized normalized]
    exact separate.oldNotBelow

end Paths

/-! ## What uploads leave -/

/-- What the attempts to upload a file leave at the server, when the next calls
meet these faults. -/
def uploadedOver (contents : Bytes) :
    Nat → List (Option Fault) → Option Bytes → Option Bytes
  | 0, _, file => file
  | left + 1, faults, file =>
      match faults.head?.join with
      | none => some contents
      | some fault =>
          uploadedOver contents left faults.tail
            (if fault.delivered = 0 ∨ fault.outcome ≠ .success then file
            else some (contents.take (fault.delivered * chunkSize)))

/-- The front of a file, or what was there. -/
theorem uploadedOver_or (contents : Bytes) (left : Nat)
    (faults : List (Option Fault)) (file : Option Bytes) :
    uploadedOver contents left faults file = file ∨
      ∃ length, uploadedOver contents left faults file =
        some (contents.take length) := by
  induction left generalizing faults file with
  | zero => exact .inl rfl
  | succ left ih =>
      unfold uploadedOver
      split
      · exact .inr ⟨contents.length, by rw [List.take_length]⟩
      · next fault _ =>
          split_ifs
          · exact ih faults.tail file
          · rcases ih faults.tail
              (some (contents.take (fault.delivered * chunkSize))) with
              same | front
            · exact .inr ⟨_, same⟩
            · exact .inr front

theorem fails_succ_iff {link : Link} {left : Nat} {fault : Fault}
    (meets : link.fault = some fault) (s : Server) :
    link.Fails (left + 1) ↔ (link.after s).Fails left := by
  constructor
  · intro fails
    obtain ⟨-, -, later⟩ := Link.exists_fault_of_fails fails
    exact later s
  · intro fails i within
    cases i with
    | zero =>
        have first : link.faults.head?.join = some fault := meets
        simp [← List.head?_eq_getElem?, first]
    | succ i => simpa [Link.after] using fails i (Nat.lt_of_succ_lt_succ within)

theorem not_fails_of_fault_eq_none {link : Link} (left : Nat)
    (works : link.fault = none) : ¬ link.Fails (left + 1) := by
  intro fails
  obtain ⟨fault, meets, -⟩ := Link.exists_fault_of_fails fails
  simp [works] at meets

/-- An attempt that meets no fault uploads the whole file. -/
theorem uploadedOver_of_not_fails {contents : Bytes} {left : Nat} {link : Link}
    (works : ¬ link.Fails left) (file : Option Bytes) :
    uploadedOver contents left link.faults file = some contents := by
  induction left generalizing link file with
  | zero => exact absurd (fun _ within => absurd within (Nat.not_lt_zero _)) works
  | succ left ih =>
      unfold uploadedOver
      split
      · rfl
      · next fault meets =>
          apply @ih (link.after link.server)
          rwa [fails_succ_iff meets link.server] at works

section Uploads

variable {path : Path} {client client' : Client} {contents : Bytes}

/-- The first chunks of a file are its first bytes. -/
theorem Client.flatten_take_chunkLoop {fuel : Nat} {rest : Bytes} (sent : Bool)
    (enough : rest.length ≤ fuel) (count : Nat) :
    ((Client.chunkLoop (fuel + 1) rest sent).take count).flatten =
      rest.take (count * chunkSize) := by
  induction fuel generalizing rest sent count with
  | zero =>
      obtain rfl : rest = [] := List.length_eq_zero_iff.mp (by omega)
      cases sent <;> cases count <;> simp [Client.chunkLoop]
  | succ fuel ih =>
      unfold Client.chunkLoop
      split
      · next empty =>
          obtain rfl : rest = [] := List.length_eq_zero_iff.mp empty
          cases sent <;> cases count <;> simp
      · cases count with
        | zero => simp
        | succ count =>
            have positive := chunkSize_pos
            have shorter : (rest.drop chunkSize).length ≤ fuel := by
              simp only [List.length_drop]
              omega
            rw [List.take_succ_cons, List.flatten_cons, ih true shorter count,
              Nat.succ_mul, Nat.add_comm, List.take_add]

/-- What uploads spare: the other files, and that a file that is there is
registered. -/
structure SparedByUploads (path : Path) (s s' : Server) : Prop where
  others : ∀ other, other ≠ path → s'.disk.read other = s.disk.read other
  registered : ((s.disk.read path).isSome → (s.fileMap path).isSome) →
    (s'.disk.read path).isSome → (s'.fileMap path).isSome

theorem SparedByUploads.trans {s s' s'' : Server}
    (first : SparedByUploads path s s') (second : SparedByUploads path s' s'') :
    SparedByUploads path s s'' where
  others other apart := (second.others other apart).trans (first.others other apart)
  registered := second.registered ∘ first.registered

/-- A file that was closed is registered. -/
theorem isSome_fileMap_finishClose (s : Server) (path : Path)
    (clientId : ClientId) (timestamp : Int) :
    ((s.finishClose path clientId timestamp).fileMap path).isSome := by
  unfold Server.finishClose Server.fileChangeCallbackClose
  dsimp only
  split
  · next clientSet entry => simp [entry]
  · simp [ClientMap.insertClient]

/-- `close` stores what it receives. -/
theorem closeHandler_of_received {stream : List FileRequest}
    {clientId : ClientId} (s : Server) (nonempty : stream ≠ [])
    (sent : ∀ request ∈ stream,
      request.path = path ∧ request.clientId = clientId) :
    ∃ s' response, s.closeHandler stream .success = (s', response, Status.OK) ∧
      SparedByUploads path s s' ∧
      s'.disk.read path = some (stream.map FileRequest.content).flatten := by
  refine ⟨_, _, closeCall_of_sent s nonempty sent, ⟨?_, ?_⟩, ?_⟩
  · intro other apart
    rw [Server.disk_finishClose, Server.read_receiveFile_ne _ apart]
  · intro _ _
    exact isSome_fileMap_finishClose ..
  · rw [Server.disk_finishClose, Server.read_receiveFile]

/-- `close` cannot open the file. -/
theorem Server.closeHandler_of_failed (s : Server) (stream : List FileRequest)
    {outcome : DiskOutcome} (failed : outcome ≠ .success) :
    (s.closeHandler stream outcome).1 = s := by
  cases stream with
  | nil => rfl
  | cons first later =>
      cases outcome with
      | success => exact absurd rfl failed
      | permissionDenied => rfl
      | failure => rfl

/-- What `close` makes of the file when only the first messages of an upload
arrive. -/
theorem closeHandler_of_delivered (client : Client) (path : Path)
    (contents : Bytes) (s : Server) (delivered : Nat) (outcome : DiskOutcome) :
    let stream := (client.uploadRequests path contents).take delivered
    SparedByUploads path s (s.closeHandler stream outcome).1 ∧
      (s.closeHandler stream outcome).1.disk.read path =
        if delivered = 0 ∨ outcome ≠ .success then s.disk.read path
        else some (contents.take (delivered * chunkSize)) := by
  intro stream
  by_cases refused : delivered = 0 ∨ outcome ≠ .success
  · have same : (s.closeHandler stream outcome).1 = s := by
      rcases refused with rfl | failed
      · rfl
      · exact Server.closeHandler_of_failed s stream failed
    rw [same, if_pos refused]
    exact ⟨⟨fun _ _ => rfl, id⟩, rfl⟩
  · rw [if_neg refused]
    push Not at refused
    obtain ⟨arrives, rfl⟩ := refused
    have nonempty : stream ≠ [] := by
      simp only [stream, ne_eq, List.take_eq_nil_iff, arrives, false_or]
      exact client.uploadRequests_ne_nil path contents
    have sent : ∀ request ∈ stream,
        request.path = path ∧ request.clientId = client.clientId := by
      intro request member
      exact Client.of_mem_uploadRequests (List.mem_of_mem_take member)
    have carried : (stream.map FileRequest.content).flatten =
        contents.take (delivered * chunkSize) := by
      simp only [stream, Client.uploadRequests, ← List.map_take, List.map_map]
      simpa [Function.comp_def] using
        Client.flatten_take_chunkLoop false (Nat.le_refl contents.length) delivered
    obtain ⟨s', response, handled, spared, read⟩ :=
      closeHandler_of_received s nonempty sent
    rw [handled]
    exact ⟨spared, by rw [read, carried]⟩

/-- The attempts of one upload, over a link. -/
theorem uploadAttempts_leave (client : Client) (path : Path) (contents : Bytes)
    (left : Nat) {status : Status} (link : Link) (response : FileResponse)
    (notYet : status.isOk = false) :
    ∃ link' response' final,
      retry (Client.uploadAttempt faulty (client.uploadRequests path contents))
          left status (link, response) = ((link', response'), some final) ∧
        SparedByUploads path link.server link'.server ∧
        link'.server.disk.read path = uploadedOver contents left link.faults
          (link.server.disk.read path) ∧
        (final.isOk ↔ ¬ link.Fails left) := by
  induction left generalizing status link response with
  | zero =>
      refine ⟨link, response, status, rfl, ⟨fun _ _ => rfl, id⟩, rfl, ?_⟩
      simp [notYet, Link.Fails]
  | succ left ih =>
      cases meets : link.fault with
      | none =>
          obtain ⟨s', received, handled, spared, read⟩ :=
            closeHandler_of_received link.server
              (client.uploadRequests_ne_nil path contents)
              (fun request member => Client.of_mem_uploadRequests member)
          have attempt : Client.uploadAttempt faulty
              (client.uploadRequests path contents) left (link, response) =
                ((link.after s', received), some Status.OK) := by
            simp only [Client.uploadAttempt, faulty, meets, handled]
          have isOk : Status.OK.isOk = true := rfl
          refine ⟨link.after s', received, Status.OK, ?_, spared, ?_, ?_⟩
          · simp [retry, notYet, attempt, retry_of_ok isOk]
          · rw [uploadedOver_of_not_fails (not_fails_of_fault_eq_none left meets),
              Link.server_after, read, Client.contents_uploadRequests]
          · simp [isOk, not_fails_of_fault_eq_none left meets]
      | some fault =>
          obtain ⟨spared, read⟩ := closeHandler_of_delivered client path contents
            link.server fault.delivered fault.outcome
          have attempt : ∃ s', s' = (link.server.closeHandler
              ((client.uploadRequests path contents).take fault.delivered)
              fault.outcome).1 ∧ Client.uploadAttempt faulty
                (client.uploadRequests path contents) left (link, response) =
                  ((link.after s', ⟨[], 0, 0⟩), some fault.status) := by
            simp only [Client.uploadAttempt, faulty, meets, exists_eq_left]
          obtain ⟨s', isLeft, attempt⟩ := attempt
          rw [← isLeft] at spared read
          obtain ⟨link', response', final, ends, sparedLater, readLater, ok⟩ :=
            ih (link.after s') ⟨[], 0, 0⟩ fault.failed
          refine ⟨link', response', final, ?_, spared.trans sparedLater, ?_, ?_⟩
          · simp [retry, notYet, attempt, ends]
          · have meetsFirst : link.faults.head?.join = some fault := meets
            rw [readLater, uploadedOver, meetsFirst, Link.server_after, read]
            rfl
          · rw [ok, fails_succ_iff meets s']

end Uploads

/-! ## The new file at the client -/

section NewFile

variable {path : Path} {client client' : Client} {contents : Bytes}
variable {answers : LocalAnswers}

/-- The client has a file open that is to be uploaded, and whose streams
work. -/
structure Unsaved (path : Path) (contents : Bytes) (client : Client) : Prop
    extends client.OpenWithChanges path where
  node : ∃ i streams, client.disk.node path = some i ∧
    client.openedFiles path = some streams ∧ streams.writeStream.node = i ∧
    streams.writeStream.failed = false ∧
    (client.disk.nodes i).contents = contents

theorem unsaved_of_createFile
    (creates : client.createFile answers path = (client', true)) :
    Unsaved path [] client' := by
  unfold Client.createFile at creates
  split at creates
  · next begun begins =>
      unfold Client.beginCreate at begins
      split_ifs at begins
      obtain rfl := Option.some.inj begins
      obtain ⟨i, refers, empty⟩ :=
        FileStore.exists_node_openTruncated client.disk path answers.now
      unfold Client.finishCreate at creates
      split at creates
      · simp at creates
      next streams opens =>
      have fresh : streams = ⟨.fresh i, .fresh i⟩ := by
        simp only [Client.openStreams, Client.enterCache, refers] at opens
        split at opens
        · next j _ same _ =>
            obtain rfl := Option.some.inj same
            exact (Option.some.inj opens).symm
        · simp at opens
      dsimp only at creates
      split at creates
      · obtain ⟨rfl, -⟩ := Prod.mk.inj creates
        refine ⟨⟨?_, ?_, ?_⟩, ?_⟩
        · simp [Client.insertOpened]
        · simp [Client.insertOpened]
        · exact ⟨0, by simp [Client.insertOpened, Client.enterCache]⟩
        · refine ⟨i, streams, ?_, ?_, ?_, ?_, ?_⟩
          · simpa [Client.insertOpened, Client.enterCache] using refers
          · simp [Client.insertOpened]
          · rw [fresh, FileStream.fresh]
          · rw [fresh, FileStream.fresh]
          · simpa [Client.insertOpened, Client.enterCache] using empty
      · simp at creates
  · simp at creates

theorem unsaved_of_step {write : Write} (unsaved : Unsaved path contents client)
    (writes : write.step path client = some client') :
    Unsaved path
      (ByteContents.overlay contents write.position.toNat write.data)
      client' := by
  unfold Write.step at writes
  split at writes
  · next written eq =>
      obtain rfl := Option.some.inj writes
      have result := Client.writeResult_of_writeFile eq
      obtain ⟨i, streams, refers, opened, onNode, works, holds⟩ := unsaved.node
      obtain ⟨streams', opened', disk⟩ := result.disk
      obtain rfl : streams = streams' := by simpa [opened] using opened'
      obtain ⟨timestamp, cache⟩ := result.cache
      refine ⟨⟨?_, ?_, ?_⟩, ?_⟩
      · rw [result.openedFiles, opened]
        rfl
      · rw [result.fileMutexes]
        exact unsaved.mutex
      · exact ⟨timestamp, by simp [cache]⟩
      · refine ⟨i, streams, ?_, ?_, onNode, works, ?_⟩
        · rw [disk, FileStore.node_writeAt, refers]
        · rw [result.openedFiles, opened]
        · rw [disk, onNode, FileStore.contents_writeAt_self, holds]
  · simp at writes

theorem unsaved_of_run {mount : Mount} {path : String} {writes : List Write}
    (unsaved : Unsaved (mount.callbackKey path) contents client)
    (written : run (Write.callback mount path) writes client = some client') :
    Unsaved (mount.callbackKey path) (contentsAfter contents writes) client' := by
  induction writes generalizing client contents with
  | nil =>
      obtain rfl : client = client' := by simpa using written
      exact unsaved
  | cons write writes ih =>
      obtain ⟨next, stepEq, rest⟩ := run_cons_eq_some.mp written
      exact ih (unsaved_of_step unsaved (Write.step_of_callback stepEq)) rest

theorem read_of_unsaved (unsaved : Unsaved path contents client) :
    client.disk.read path = some contents := by
  obtain ⟨i, -, refers, -, -, -, holds⟩ := unsaved.node
  simp [FileStore.read, refers, holds]

/-- What releasing the new file does: nothing at the server if the copy cannot
be read again, and otherwise what the attempts to upload it leave. -/
theorem closeFile_of_unsaved (unsaved : Unsaved path contents client)
    (answers : LocalAnswers) (link : Link) :
    ∃ client' link' closed,
      client.closeFile faulty answers path link = ((client', link'), closed) ∧
        client'.disk = client.disk ∧
        SparedByUploads path link.server link'.server ∧
        (link'.server = link.server ∨
          link'.server.disk.read path = uploadedOver contents maxTries
            link.faults (link.server.disk.read path)) ∧
        (answers.flush = true → answers.reopen = true →
          link'.server.disk.read path = uploadedOver contents maxTries
            link.faults (link.server.disk.read path)) := by
  obtain ⟨i, streams, -, opened, -, works, -⟩ := unsaved.node
  obtain ⟨timestamp, cached⟩ := unsaved.modified
  have closes : client.closeFile faulty answers path link =
      client.closeModified faulty answers path streams link := by
    simp [Client.closeFile, opened, unsaved.mutex, cached]
  rw [closes, Client.closeModified]
  by_cases ready : answers.flush = true ∧ answers.reopen = true
  · have read : (client.closeStreams path).disk.read path = some contents := by
      rw [← read_of_unsaved unsaved]
      rfl
    have begins : client.beginUpload answers path streams =
        (client.closeStreams path,
          some (client.uploadRequests path contents)) := by
      rw [Client.closeStreams] at read ⊢
      simp only [Client.beginUpload, works, ready.1, ready.2, read]
      rfl
    obtain ⟨link', response, final, ends, spared, uploaded, -⟩ :=
      uploadAttempts_leave client path contents maxTries link ⟨[], 0, 0⟩
        (rfl : Status.initial.isOk = false)
    simp only [begins, ends]
    split
    · exact ⟨_, link', true, rfl, rfl, spared, .inr uploaded,
        fun _ _ => uploaded⟩
    · exact ⟨_, link', false, rfl, rfl, spared, .inr uploaded,
        fun _ _ => uploaded⟩
  · have begins : ∃ client', client.beginUpload answers path streams =
        (client', none) ∧ client'.disk = client.disk := by
      unfold Client.beginUpload
      by_cases flushes : answers.flush = true
      · have reopens : answers.reopen = false := by simpa [flushes] using ready
        simp [works, flushes, reopens, Client.setStreams]
      · simp [works, flushes, Client.setStreams]
    obtain ⟨client', begins, sameDisk⟩ := begins
    simp only [begins]
    refine ⟨client', link, false, rfl, sameDisk, ⟨fun _ _ => rfl, id⟩, .inl rfl,
      ?_⟩
    intro flushes reopens
    exact absurd ⟨flushes, reopens⟩ ready

end NewFile

/-! ## The rename -/

section Rename

variable {oldPath newPath : Path} {client : Client} {link : Link}

/-- `rename` on a registered file moves it, or refuses. -/
theorem renameHandler_of_registered (s : Server) (clientId : ClientId)
    (outcome : DiskOutcome) (apart : oldPath ≠ newPath)
    (registered : (s.disk.read oldPath).isSome → (s.fileMap oldPath).isSome) :
    ∃ s' status, s.renameHandler oldPath newPath clientId outcome =
        some (s', status) ∧
      (s' = s ∧ status.code = .notFound ∧
          (outcome = .success → s.disk.read oldPath = none) ∨
        status = Status.OK ∧ ∃ contents, s.disk.read oldPath = some contents ∧
          s'.disk.read newPath = some contents ∧
          s'.disk.read oldPath = none) := by
  have refused (missing : outcome = .success → s.disk.read oldPath = none)
      (handled : s.renameHandler oldPath newPath clientId outcome =
        some (s, ⟨.notFound, "Source file not found"⟩)) :
      ∃ s' status, s.renameHandler oldPath newPath clientId outcome =
          some (s', status) ∧
        (s' = s ∧ status.code = .notFound ∧
            (outcome = .success → s.disk.read oldPath = none) ∨
          status = Status.OK ∧ ∃ contents, s.disk.read oldPath = some contents ∧
            s'.disk.read newPath = some contents ∧
            s'.disk.read oldPath = none) :=
    ⟨s, _, handled, .inl ⟨rfl, rfl, missing⟩⟩
  cases refers : s.disk.node oldPath with
  | none =>
      apply refused
      · intro _
        simp [FileStore.read, refers]
      · simp only [Server.renameHandler, refers]
  | some i =>
      cases outcome with
      | permissionDenied =>
          exact refused (by simp) (by simp [Server.renameHandler, refers])
      | failure =>
          exact refused (by simp) (by simp [Server.renameHandler, refers])
      | success =>
          have read : s.disk.read oldPath = some (s.disk.nodes i).contents := by
            simp [FileStore.read, refers]
          obtain ⟨clients, entry⟩ :=
            Option.isSome_iff_exists.mp (registered (by simp [read]))
          have moves : ∃ s', s.renameHandler oldPath newPath clientId .success =
              some (s', Status.OK) ∧
                s'.disk = s.disk.rename oldPath newPath := by
            simp [Server.renameHandler, refers, Server.fileChangeCallbackRename,
              entry]
          obtain ⟨s', handled, disk⟩ := moves
          refine ⟨s', _, handled, .inr ⟨rfl, _, read, ?_, ?_⟩⟩
          · rw [disk, ← read]
            simp [FileStore.read, FileStore.rename]
          · rw [disk]
            simp [FileStore.read, FileStore.rename, apart]

/-- The file at the new path is as before or was moved there. -/
def MovedOrKept (oldPath newPath : Path) (s s' : Server) : Prop :=
  s'.disk.read newPath = s.disk.read newPath ∨
    ∃ contents, s.disk.read oldPath = some contents ∧
      s'.disk.read newPath = some contents

/-- What was at the old path is at the new one. -/
structure Moved (oldPath newPath : Path) (s s' : Server) : Prop where
  source : s'.disk.read oldPath = none
  target : s'.disk.read newPath =
    (s.disk.read oldPath).or (s.disk.read newPath)

/-- A call of `rename` on a registered file returns; if it meets no fault, it
moves what is there. -/
theorem renameCall_of_registered (clientId : ClientId) (apart : oldPath ≠ newPath)
    (registered : (link.server.disk.read oldPath).isSome →
      (link.server.fileMap oldPath).isSome) :
    ∃ link' status, faulty.renameCall link oldPath newPath clientId =
        some (link', status) ∧
      MovedOrKept oldPath newPath link.server link'.server ∧
      (link.fault = none → (status.isOk || status.code == .notFound) = true ∧
        Moved oldPath newPath link.server link'.server) := by
  obtain ⟨outcome, called⟩ : ∃ outcome,
      ∀ s' status, link.server.renameHandler oldPath newPath clientId outcome =
          some (s', status) →
        ∃ status', faulty.renameCall link oldPath newPath clientId =
            some (link.after s', status') ∧
          (link.fault = none → outcome = .success ∧ status' = status) := by
    cases meets : link.fault with
    | none =>
        refine ⟨.success, fun s' status handled =>
          ⟨status, ?_, fun _ => ⟨rfl, rfl⟩⟩⟩
        simp [faulty, meets, handled]
    | some fault =>
        refine ⟨fault.outcome, fun s' status handled =>
          ⟨fault.status, ?_, by simp⟩⟩
        simp [faulty, meets, handled]
  obtain ⟨s', status, handled, effect⟩ :=
    renameHandler_of_registered link.server clientId outcome apart registered
  obtain ⟨status', call, answers⟩ := called s' status handled
  refine ⟨link.after s', status', call, ?_, fun works => ?_⟩
  · rcases effect with ⟨rfl, -, -⟩ | ⟨-, contents, before, after, -⟩
    · exact .inl rfl
    · exact .inr ⟨contents, before, after⟩
  · obtain ⟨rfl, rfl⟩ := answers works
    rcases effect with ⟨rfl, notFound, missing⟩ |
      ⟨rfl, contents, before, after, gone⟩
    · have nothing := missing rfl
      exact ⟨by simp [notFound], nothing, by simp [nothing]⟩
    · exact ⟨rfl, gone, by simp [before, after]⟩

/-- The local file has moved with the rename. -/
theorem read_renamedDisk_target (client : Client) (answers : LocalAnswers)
    (separate : Separate oldPath newPath) :
    (client.renamedDisk answers oldPath newPath).read newPath =
      client.disk.read oldPath := by
  have sameNodes : (client.renamedDisk answers oldPath newPath).nodes =
      client.disk.nodes := by
    unfold Client.renamedDisk
    dsimp only
    split <;> rfl
  simp only [FileStore.read, node_renamedDisk_target answers client separate,
    sameNodes]

/-- `rename_file` on a registered file returns. -/
theorem renameFile_of_registered (client : Client) (answers : LocalAnswers)
    (separate : Separate oldPath newPath)
    (registered : (link.server.disk.read oldPath).isSome →
      (link.server.fileMap oldPath).isSome) :
    ∃ client' link' renamed,
      client.renameFile faulty answers oldPath newPath link =
          some ((client', link'), renamed) ∧
        MovedOrKept oldPath newPath link.server link'.server ∧
        (answers.directoryAt newPath = none → answers.rename = true →
          link.fault = none →
          renamed = true ∧ client'.disk.read newPath = client.disk.read oldPath ∧
            Moved oldPath newPath link.server link'.server) := by
  have kept : MovedOrKept oldPath newPath link.server link.server := .inl rfl
  obtain ⟨link', status, call, moved, works⟩ :=
    renameCall_of_registered client.clientId separate.ne registered
  unfold Client.renameFile
  dsimp only
  split
  · next nonempty =>
      refine ⟨client, link, false, rfl, kept, fun vacant => ?_⟩
      simp [vacant] at nonempty
  split
  · next fails =>
      refine ⟨_, link, false, rfl, kept, fun _ renames => ?_⟩
      simp [renames] at fails
  · refine ⟨_, link', _, by rw [call]; rfl, moved, fun _ _ noFault => ?_⟩
    obtain ⟨accepted, isMoved⟩ := works noFault
    refine ⟨accepted, ?_, isMoved⟩
    exact read_renamedDisk_target client answers separate

end Rename

/-! ## A save -/

/-- What the server may do before the rename: anything that spares the two files
and the registrations for the new one. -/
structure SparesSave (mount : Mount) (source target : String) (s s' : Server) :
    Prop where
  sourceKept : s'.disk.read (mount.callbackKey source) =
    s.disk.read (mount.callbackKey source)
  targetKept : s'.disk.read (mount.callbackKey target) =
    s.disk.read (mount.callbackKey target)
  registeredKept : (s.fileMap (mount.callbackKey source)).isSome →
    (s'.fileMap (mount.callbackKey source)).isSome

section Saves

variable {mount : Mount} {source target : String}

/-- What a release of the new file leaves. -/
structure ReleasedAt (source target : Path) (contents : Bytes)
    (faults : List (Option Fault)) (s s' : Server) : Prop where
  target : s'.disk.read target = s.disk.read target
  uploaded : s'.disk.read source = none ∨
    s'.disk.read source = uploadedOver contents maxTries faults none
  registered : (s'.disk.read source).isSome → (s'.fileMap source).isSome

theorem releasedAt_of_closeFile {source target : Path} {contents : Bytes}
    {modified released : Client} {link link' : Link} {closed : Bool}
    {answers : LocalAnswers} (apart : source ≠ target)
    (unsaved : Unsaved source contents modified)
    (isNew : link.server.disk.read source = none)
    (closes : modified.closeFile faulty answers source link =
      ((released, link'), closed)) :
    ReleasedAt source target contents link.faults link.server link'.server ∧
      released.disk = modified.disk ∧
      (answers.flush = true → answers.reopen = true →
        link'.server.disk.read source =
          uploadedOver contents maxTries link.faults none) := by
  obtain ⟨client, remote, result, eq, sameDisk, spared, leaves, uploads⟩ :=
    closeFile_of_unsaved unsaved answers link
  obtain ⟨⟨rfl, rfl⟩, rfl⟩ : (client = released ∧ remote = link') ∧
      result = closed := by
    simpa [eq] using closes
  rw [isNew] at leaves uploads
  refine ⟨⟨spared.others target apart.symm, ?_, ?_⟩, sameDisk, uploads⟩
  · rcases leaves with same | uploaded
    · exact .inl (by rw [same, isNew])
    · exact .inr uploaded
  · exact spared.registered (by simp [isNew])

/-- A save creates a new file, writes it, releases it and renames it over the
target, over calls that may fail.  The rename returns, and the target is what it
was or a front of the new contents: all of them if one of the three calls of the
upload reaches the server.  If only the upload meets faults, every callback
returns 0 and the target is replaced by what the upload left. -/
theorem saves_replace_files (rootNonempty : mount.serverRootPath ≠ "")
    (normalized : IsNormalized source) (targetNormalized : IsNormalized target)
    (separate : Separate source target) (writes : List Write)
    (answers answers' answers'' : LocalAnswers)
    {client created modified released : Client} {link link' before : Link}
    (creates : mount.afsCreate answers source client = (created, 0))
    (written : run (Write.callback mount source) writes created = some modified)
    (isNew : link.server.disk.read (mount.callbackKey source) = none)
    (releases : mount.afsRelease faulty answers' source modified link =
      (released, link'))
    (spared : SparesSave mount source target link'.server before.server) :
    ∃ renamed after result,
      mount.afsRename faulty answers'' source target released before =
          some ((renamed, after), result) ∧
        link'.server.disk.read (mount.callbackKey target) =
          link.server.disk.read (mount.callbackKey target) ∧
        (after.server.disk.read (mount.callbackKey target) =
            link.server.disk.read (mount.callbackKey target) ∨
          ∃ length, after.server.disk.read (mount.callbackKey target) =
            some ((contentsAfter [] writes).take length)) ∧
        (¬ link.Fails maxTries →
          after.server.disk.read (mount.callbackKey target) =
              link.server.disk.read (mount.callbackKey target) ∨
            after.server.disk.read (mount.callbackKey target) =
              some (contentsAfter [] writes)) ∧
        (answers'.flush = true → answers'.reopen = true →
          answers''.directoryAt (mount.callbackKey target) = none →
          answers''.rename = true → before.fault = none →
            result = 0 ∧
              renamed.disk.read (mount.callbackKey target) =
                some (contentsAfter [] writes) ∧
              after.server.disk.read (mount.callbackKey source) = none ∧
              after.server.disk.read (mount.callbackKey target) =
                (uploadedOver (contentsAfter [] writes) maxTries link.faults
                  none).or
                  (link.server.disk.read (mount.callbackKey target))) := by
  have keysSeparate := Mount.separate_callbackKey rootNonempty normalized
    targetNormalized separate
  have isCreated : client.createFile answers (mount.callbackKey source) =
      (created, true) := by
    rw [Mount.afsCreate_eq] at creates
    obtain ⟨isClient, succeeds⟩ := Prod.mk.inj creates
    refine Prod.ext isClient ?_
    by_contra fails
    simp [fails, accessDenied] at succeeds
  have unsaved := unsaved_of_run (unsaved_of_createFile isCreated) written
  obtain ⟨⟨⟨client', remote⟩, closed⟩, closes⟩ : ∃ result,
      modified.closeFile faulty answers' (mount.callbackKey source) link = result :=
    ⟨_, rfl⟩
  obtain ⟨rfl, rfl⟩ : client' = released ∧ remote = link' := by
    simpa [Mount.afsRelease_eq, closes] using releases
  obtain ⟨leaves, sameDisk, uploads⟩ :=
    releasedAt_of_closeFile keysSeparate.ne unsaved isNew closes
  have registered : (before.server.disk.read (mount.callbackKey source)).isSome →
      (before.server.fileMap (mount.callbackKey source)).isSome := by
    intro present
    rw [spared.sourceKept] at present
    exact spared.registeredKept (leaves.registered present)
  obtain ⟨renamed, after, isRenamed, call, moved, works⟩ :=
    renameFile_of_registered client' answers'' keysSeparate registered
  have old : before.server.disk.read (mount.callbackKey target) =
      link.server.disk.read (mount.callbackKey target) :=
    spared.targetKept.trans leaves.target
  have replaced : after.server.disk.read (mount.callbackKey target) =
        link.server.disk.read (mount.callbackKey target) ∨
      ∃ contents, uploadedOver (contentsAfter [] writes) maxTries link.faults
          none = some contents ∧
        after.server.disk.read (mount.callbackKey target) = some contents := by
    rcases moved with kept | ⟨contents, present, isMoved⟩
    · exact .inl (kept.trans old)
    · rw [spared.sourceKept] at present
      rcases leaves.uploaded with nothing | uploaded
      · simp [nothing] at present
      · exact .inr ⟨contents, uploaded.symm.trans present, isMoved⟩
  refine ⟨renamed, after, _, by rw [Mount.afsRename_eq, call]; rfl, leaves.target,
    ?_, ?_, ?_⟩
  · rcases replaced with kept | ⟨contents, uploaded, isMoved⟩
    · exact .inl kept
    · rcases uploadedOver_or (contentsAfter [] writes) maxTries link.faults none
        with nothing | ⟨length, front⟩
      · simp [nothing] at uploaded
      · exact .inr ⟨length, by rw [isMoved, ← uploaded, front]⟩
  · intro works
    rcases replaced with kept | ⟨contents, uploaded, isMoved⟩
    · exact .inl kept
    · rw [uploadedOver_of_not_fails works] at uploaded
      exact .inr (isMoved.trans uploaded.symm)
  · intro flushes reopens vacant renames noFault
    obtain ⟨rfl, sameFile, isMoved⟩ := works vacant renames noFault
    refine ⟨rfl, ?_, isMoved.source, ?_⟩
    · rw [sameFile, sameDisk, read_of_unsaved unsaved]
    · rw [isMoved.target, spared.sourceKept, uploads flushes reopens, old]

private def savingMount : Mount where
  serverRootPath := "/srv"
  cacheDirectory := "/cache"

/-- A server with a file of one byte; the next three calls to it fail before
anything is sent. -/
private def unreachableThrice : Link where
  server := Server.launch "/srv" (FileStore.empty.replace "/srv/a" [[7]] 0) 0
  faults := List.replicate 3
    (some ⟨0, .success, ⟨.unavailable, "No route to host"⟩, rfl⟩)

private def newByte : Write := ⟨[97], 0, .success 1⟩

private def savedClients : Client × Client × (Client × Link) :=
  let created := (savingMount.afsCreate (.success 0) "/b" (Client.launch "writer")).1
  let modified := (savingMount.afsWrite (.success 1) "/b" [97] 0 created).1
  (created, modified,
    savingMount.afsRelease faulty (.success 2) "/b" modified unreachableThrice)

/-- Every callback returns 0, and the save is lost. -/
theorem saves_replace_files_lost :
    ∃ renamed after,
      savingMount.afsRename faulty (.success 3) "/b" "/a" savedClients.2.2.1
          savedClients.2.2.2 = some ((renamed, after), 0) ∧
        renamed.disk.read "/srv/a" = some [97] ∧
        after.server.disk.read "/srv/a" = some [7] := by
  have isName (letter : Char) (notSlash : letter ≠ '/') (notDot : letter ≠ '.') :
      IsEntryName [letter] :=
    ⟨⟨by simp, by simpa using notSlash.symm⟩, by simpa using notDot, by simp⟩
  have normalized : IsNormalized "/b" :=
    ⟨[['b']], by simp, by simpa using isName 'b' (by decide) (by decide),
      by decide⟩
  have targetNormalized : IsNormalized "/a" :=
    ⟨[['a']], by simp, by simpa using isName 'a' (by decide) (by decide),
      by decide⟩
  have isTarget : savingMount.callbackKey "/a" = "/srv/a" := by decide
  obtain ⟨renamed, after, result, saved, -, -, -, works⟩ :=
    saves_replace_files (by decide) normalized targetNormalized
      ⟨by decide, by decide⟩ [newByte] (.success 0) (.success 2) (.success 3)
      (rfl : savingMount.afsCreate (.success 0) "/b" (Client.launch "writer") =
        (savedClients.1, 0))
      (rfl : run (Write.callback savingMount "/b") [newByte] savedClients.1 =
        some savedClients.2.1)
      (rfl : unreachableThrice.server.disk.read (savingMount.callbackKey "/b") =
        none)
      (rfl : savingMount.afsRelease faulty (.success 2) "/b" savedClients.2.1
        unreachableThrice = savedClients.2.2)
      ⟨rfl, rfl, id⟩
  rw [isTarget] at works
  obtain ⟨rfl, copy, -, kept⟩ := works rfl rfl rfl rfl rfl
  exact ⟨renamed, after, saved, copy, kept⟩

end Saves

end DistributedFilesystem
