import DistributedFilesystem.ClientEffects
import DistributedFilesystem.ServerAnnouncements

/-!
# Calls that reach the server

What `open_file` and `close_file` do at the server when every call reaches it:
an opening registers the client and downloads a file that is there, an upload
stores the local copy and announces it.
-/

namespace DistributedFilesystem

namespace Client

variable {answers : LocalAnswers} {path : Path} {client client' : Client}

variable {s s' : Server}

/-- `s'` differs from `s` in its registrations only, and has all of those. -/
structure OnlyRegisters (s s' : Server) : Prop where
  disk : s'.disk = s.disk
  subscribers : s'.subscribers = s.subscribers
  queues : s'.queues = s.queues
  registered : ∀ path client, s.fileMap.Registered path client →
    s'.fileMap.Registered path client

theorem onlyRegisters_registerOpen (before : OnlyRegisters s s') (path : Path)
    (client : ClientId) : OnlyRegisters s (s'.registerOpen path client) where
  disk := before.disk
  subscribers := before.subscribers
  queues := before.queues
  registered other member registered :=
    ClientMap.registered_insertClient.mpr
      (.inl (before.registered other member registered))

theorem onlyRegisters_openFile (answers : LocalAnswers) (path : Path)
    (client : Client) (s : Server) :
    OnlyRegisters s (client.openFile .direct answers path s).1.2 :=
  openFile_preserves (OnlyRegisters s)
    (fun r before => by
      have eq : (Remote.direct.openCall r ⟨path, client.clientId, []⟩).1 =
          r.registerOpen path client.clientId :=
        Server.openHandler_server ..
      rw [eq]
      exact onlyRegisters_registerOpen before path client.clientId)
    ⟨rfl, rfl, rfl, fun _ _ registered => registered⟩

/-- A file that is on the server and not cached is downloaded, and the client
is registered for it. -/
theorem openUncached_of_read (client : Client) (now : Int) {contents : Bytes}
    (stored : s.disk.read path = some contents) :
    ∃ client', client.openUncached .direct (.success now) path s =
        ((client', s.registerOpen path client.clientId), true) ∧
      FreshCopy path contents client client' := by
  have call : Remote.direct.openCall s ⟨path, client.clientId, []⟩ =
      (s.registerOpen path client.clientId,
        Server.openResponses contents (getFileTimestamp s.disk path),
        Status.OK) := by
    have read : (s.registerOpen path client.clientId).disk.read path =
        some contents := stored
    simp only [Remote.direct, Server.openHandler, Server.sendFile, read]
    rfl
  have opens : ∃ client', client.openUncached .direct (.success now) path s =
      ((client', s.registerOpen path client.clientId), true) := by
    obtain ⟨i, refers, -⟩ :=
      FileStore.exists_node_openTruncated client.disk path now
    have present : (client.disk.replace path
        [contents] now).node path = some i := by
      simp only [FileStore.replace, refers, FileStore.node_writeBlocks]
    simp [openUncached, retry, maxTries, Status.initial, Status.isOk,
      downloadAttempt, storeDownload, call, LocalAnswers.success, openStreams,
      present, syncDownload, updateAttr, enterCache, Status.OK]
  obtain ⟨client', opens⟩ := opens
  obtain ⟨before, responses, status, kept, last, ok, copy⟩ :=
    freshCopy_of_openUncached (fun r => r.disk.read path = some contents)
      (fun r kept => by
        have eq : (Remote.direct.openCall r ⟨path, client.clientId, []⟩).1 =
            r.registerOpen path client.clientId :=
          Server.openHandler_server ..
        rw [eq]
        exact kept)
      stored opens
  obtain ⟨sent, read, rfl⟩ := Server.openHandler_ok last ok
  obtain rfl : contents = sent := Option.some.inj (kept.symm.trans read)
  rw [downloaded_openResponses] at copy
  exact ⟨client', opens, copy⟩

/-- A file that is not on the server cannot be downloaded. -/
theorem openUncached_of_missing (answers : LocalAnswers) (missing : s.disk.read path = none)
    (notCached : client.cache path = none) :
    ∃ client' s', client.openUncached .direct answers path s =
        ((client', s'), false) ∧ NoCopy path client client' := by
  obtain ⟨⟨⟨client', s'⟩, opened⟩, result⟩ : ∃ result,
      client.openUncached .direct answers path s = result := ⟨_, rfl⟩
  cases opened with
  | false => exact ⟨client', s', result, noCopy_of_openUncached notCached result⟩
  | true =>
      obtain ⟨before, responses, status, kept, last, ok, -⟩ :=
        freshCopy_of_openUncached (fun r => r.disk.read path = none)
          (fun r kept => by
            have eq : (Remote.direct.openCall r ⟨path, client.clientId, []⟩).1 =
                r.registerOpen path client.clientId :=
              Server.openHandler_server ..
            rw [eq]
            exact kept)
          missing result
      obtain ⟨contents, read, -⟩ := Server.openHandler_ok last ok
      simp [kept] at read

/-- An upload stores the file and is answered with OK. -/
theorem stores_of_closeCall (client : Client) (path : Path) (s : Server)
    (contents : Bytes) :
    ∃ s' response,
      Remote.direct.closeCall s (client.uploadRequests path contents) =
          (s', response, Status.OK) ∧
        Server.Stores path contents client.clientId s s' := by
  have stores := Server.stores_of_closeHandler (s := s)
    (client.uploadRequests_ne_nil path contents)
    (fun request member => of_mem_uploadRequests member)
  rwa [contents_uploadRequests] at stores

/-- What `close_file` did when it returned true. -/
theorem closeFile_direct_eq_true
    (closes : client.closeFile .direct answers path s = ((client', s'), true)) :
    CloseResult path client client' ∧
      ∃ info, client.cache path = some info ∧
        (info.locallyModified = false ∧ s' = s ∨
          info.locallyModified = true ∧ ∃ contents,
            client.disk.read path = some contents ∧
            Server.Stores path contents client.clientId s s') := by
  have noFault : ∀ r contents, r = s →
      (Remote.direct.closeCall r
        (client.uploadRequests path contents)).2.2.isOk = false →
      (Remote.direct.closeCall r (client.uploadRequests path contents)).1 = s := by
    intro r contents _ notOk
    obtain ⟨_, _, call, -⟩ := stores_of_closeCall client path r contents
    simp [call] at notOk
  obtain ⟨effect, info, cached, ⟨clean, rfl⟩ |
    ⟨modified, before, contents, response, status, rfl, read, call, -⟩⟩ :=
    closeFile_eq_true (fun r => r = s) noFault rfl closes
  · exact ⟨effect, info, cached, .inl ⟨clean, rfl⟩⟩
  · obtain ⟨stored, response', call', effect'⟩ :=
      stores_of_closeCall client path before contents
    obtain ⟨rfl, -⟩ := Prod.mk.inj (call.symm.trans call')
    exact ⟨effect, info, cached, .inr ⟨modified, contents, read, effect'⟩⟩

/-- When `close_file` returned false for a modified file, it has not called the
server. -/
theorem closeModified_direct_eq_false {streams : FileStreams}
    (fails : client.closeModified .direct answers path streams s =
      ((client', s'), false)) :
    s' = s ∧ ∃ change : FileStreams → FileStreams,
      (∀ streams, (change streams).writeStream.node =
        streams.writeStream.node) ∧
      client' = client.setStreams path change := by
  obtain ⟨change, keeps, flushed⟩ :=
    beginUpload_client answers path client streams
  unfold closeModified at fails
  cases begins : client.beginUpload answers path streams with
  | mk client'' result =>
      rw [begins] at flushed
      simp only [begins] at fails
      cases result with
      | none =>
          obtain ⟨rfl, rfl⟩ := by simpa using fails
          exact ⟨rfl, change, keeps, flushed⟩
      | some requests =>
          obtain ⟨contents, -, rfl, -⟩ := beginUpload_eq_some begins
          obtain ⟨stored, response, call, -⟩ :=
            stores_of_closeCall client path s contents
          have attempt : uploadAttempt Remote.direct
              (client.uploadRequests path contents) 2 (s, ⟨[], 0, 0⟩) =
                ((stored, response), some Status.OK) := by
            simp only [uploadAttempt, call]
          simp [maxTries, retry, attempt, Status.initial, Status.isOk,
            Status.OK] at fails

/-- When `close_file` returned false, it has not called the server, and has
changed the streams of the path at most. -/
theorem closeFile_direct_eq_false
    (fails : client.closeFile .direct answers path s = ((client', s'), false)) :
    s' = s ∧
      (client' = client ∨
        client.cache path = none ∧ client' = client.eraseOpened path ∨
        ∃ change : FileStreams → FileStreams,
          (∀ streams, (change streams).writeStream.node =
            streams.writeStream.node) ∧
          client' = client.setStreams path change) := by
  unfold closeFile at fails
  split at fails
  · obtain ⟨rfl, rfl⟩ := by simpa using fails
    exact ⟨rfl, .inl rfl⟩
  split at fails
  · obtain ⟨rfl, rfl⟩ := by simpa using fails
    exact ⟨rfl, .inl rfl⟩
  split at fails
  · next notCached =>
      obtain ⟨rfl, rfl⟩ := by simpa using fails
      exact ⟨rfl, .inr (.inl ⟨notCached, rfl⟩)⟩
  split at fails
  · obtain ⟨rfl, change, keeps, rfl⟩ := closeModified_direct_eq_false fails
    exact ⟨rfl, .inr (.inr ⟨change, keeps, rfl⟩)⟩
  · simp at fails

end Client

end DistributedFilesystem
