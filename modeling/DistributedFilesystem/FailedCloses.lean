import DistributedFilesystem.DownloadAttempts
import DistributedFilesystem.UploadRoundTrip
import Mathlib.Logic.Relation

/-!
# Closing a file whose upload fails

`close_file` closes the streams of a modified file before it uploads it, and
keeps the file among the open ones when the upload fails.  The entries are
still there then, but the streams are closed: nothing can be read or written
through them, and another close sets their fail bits, after which `close_file`
does not get to its upload any more.
-/

namespace DistributedFilesystem

open Remote

namespace Client

/-- The path is open and locally modified. -/
structure OpenWithChanges (path : Path) (client : Client) : Prop where
  streams : (client.openedFiles path).isSome
  mutex : path ∈ client.fileMutexes
  modified : ∃ timestamp, client.cache path = some ⟨true, timestamp⟩

/-- `close_file` gets to its upload, and all three attempts fail. -/
structure UploadFails (answers : LocalAnswers) (path : Path) (client : Client)
    (link : Link) : Prop where
  withChanges : client.OpenWithChanges path
  flushes : ∀ streams, client.openedFiles path = some streams →
    streams.writeStream.failed = false
  flush : answers.flush = true
  reopen : answers.reopen = true
  copy : (client.disk.read path).isSome
  faults : link.Fails 3

/-- `later` is what a close whose upload fails leaves of the client. -/
def FailedClose (path : Path) (client later : Client) : Prop :=
  ∃ answers link, UploadFails answers path client link ∧
    (client.closeFile faulty answers path link).1.1 = later

/-- After a close that failed the file is still open, is read and written as
before the close, and can be closed once the server accepts the upload, however
many closes fail before. -/
structure Retryable (path : Path) (client client' : Client) : Prop where
  kept : client'.OpenWithChanges path
  reads : ∀ size offset, (client'.readFile path size offset).2 =
    (client.readFile path size offset).2
  writes : ∀ answers data position,
    (client'.writeFile answers path data position).2 =
        (client.writeFile answers path data position).2 ∧
      (client'.writeFile answers path data position).1.disk =
        (client.writeFile answers path data position).1.disk
  retried : ∀ later, Relation.ReflTransGen (FailedClose path) client' later →
    ∀ now server, ∃ closed link,
      later.closeFile faulty (.success now) path ⟨server, []⟩ =
          ((closed, link), true) ∧
        link.server.disk.read path = later.disk.read path

variable {answers : LocalAnswers} {path : Path} {client : Client} {link : Link}

/-- The streams of the path are closed once more. -/
def closeStreams (path : Path) (client : Client) : Client :=
  client.setStreams path fun streams =>
    ⟨streams.readStream.close, streams.writeStream.close⟩

/-- A call of `close` meets its fault. -/
theorem closeCall_of_fault {fault : Fault} (meets : link.fault = some fault)
    (stream : List FileRequest) :
    ∃ server response, faulty.closeCall link stream =
      (link.after server, response, fault.status) := by
  simp only [faulty, meets]
  exact ⟨_, _, rfl⟩

/-- Attempts that all meet faults do not end with OK. -/
theorem uploadAttempts_fail {link : Link} (requests : List FileRequest)
    (left : Nat) {status : Status} (response : FileResponse)
    (notYet : status.isOk = false) (faults : link.Fails left) :
    ∃ link' response' final,
      retry (uploadAttempt faulty requests) left status (link, response) =
          ((link', response'), some final) ∧
        final.isOk = false := by
  induction left generalizing status link response with
  | zero => exact ⟨link, response, status, rfl, notYet⟩
  | succ left ih =>
      obtain ⟨fault, meets, enough⟩ := Link.exists_fault_of_fails faults
      obtain ⟨server, received, call⟩ := closeCall_of_fault meets requests
      obtain ⟨link', response', final, ends, fails⟩ :=
        ih received fault.failed (enough server)
      refine ⟨link', response', final, ?_, fails⟩
      simp [retry, notYet, uploadAttempt, call, ends]

/-- A close whose upload fails closes the streams and does nothing else. -/
theorem closeFile_of_uploadFails (fails : UploadFails answers path client link) :
    ∃ link', client.closeFile faulty answers path link =
      ((client.closeStreams path, link'), false) := by
  obtain ⟨streams, opened⟩ :=
    Option.isSome_iff_exists.mp fails.withChanges.streams
  obtain ⟨timestamp, cached⟩ := fails.withChanges.modified
  obtain ⟨contents, read⟩ := Option.isSome_iff_exists.mp fails.copy
  have begins : client.beginUpload answers path streams =
      (client.closeStreams path,
        some (client.uploadRequests path contents)) := by
    have unchanged : (client.setStreams path fun streams =>
        ⟨streams.readStream.close, streams.writeStream.close⟩).disk.read path =
          some contents := read
    simp only [beginUpload, fails.flushes streams opened, fails.flush,
      fails.reopen, unchanged]
    rfl
  have notYet : Status.initial.isOk = false := rfl
  obtain ⟨link', response, final, ends, notOk⟩ :=
    uploadAttempts_fail (client.uploadRequests path contents) maxTries
      ⟨[], 0, 0⟩ notYet fails.faults
  refine ⟨link', ?_⟩
  simp [closeFile, opened, fails.withChanges.mutex, cached, closeModified,
    begins, ends, notOk]

/-- What stays when the streams are closed. -/
theorem openWithChanges_closeStreams (withChanges : client.OpenWithChanges path) :
    (client.closeStreams path).OpenWithChanges path where
  streams := by
    simpa [closeStreams, setStreams] using withChanges.streams
  mutex := withChanges.mutex
  modified := withChanges.modified

theorem openedFiles_closeStreams {streams : FileStreams}
    (opened : client.openedFiles path = some streams) :
    (client.closeStreams path).openedFiles path =
      some ⟨streams.readStream.close, streams.writeStream.close⟩ := by
  simp [closeStreams, setStreams, opened]

theorem usableStreams_of_openWithChanges {streams : FileStreams}
    (withChanges : client.OpenWithChanges path)
    (opened : client.openedFiles path = some streams) :
    client.usableStreams path = some streams := by
  obtain ⟨timestamp, cached⟩ := withChanges.modified
  exact usableStreams_eq_some.mpr ⟨by simp [cached], opened, withChanges.mutex⟩

theorem isOpen_close (stream : FileStream) : stream.close.isOpen = false := by
  cases isOpen : stream.isOpen <;> simp [FileStream.close, isOpen]

/-- Nothing is written through a stream that is closed or has failed. -/
theorem writeFile_of_closed {streams : FileStreams} (data : Bytes)
    (position : Int) (usable : client.usableStreams path = some streams)
    (closed : streams.writeStream.isOpen = false) :
    (client.writeFile answers path data position).2 = false := by
  simp [writeFile, usable, closed]

/-- Writing nothing at the start succeeds through a stream that is open. -/
theorem writeFile_of_open {streams : FileStreams} (now : Int)
    (usable : client.usableStreams path = some streams)
    (isOpen : streams.writeStream.isOpen = true)
    (good : streams.writeStream.failed = false) :
    (client.writeFile (.success now) path [] 0).2 = true := by
  simp [writeFile, usable, isOpen, good, LocalAnswers.success]

/-- A close that cannot flush fails, whatever the server would answer. -/
theorem closeFile_of_failed {streams : FileStreams}
    (withChanges : client.OpenWithChanges path)
    (opened : client.openedFiles path = some streams)
    (failed : streams.writeStream.failed = true) :
    (client.closeFile faulty answers path link).2 = false := by
  obtain ⟨timestamp, cached⟩ := withChanges.modified
  simp [closeFile, opened, withChanges.mutex, cached, closeModified,
    beginUpload, failed]

/-- A close that can flush succeeds when the server accepts the upload. -/
theorem closeFile_of_accepted {streams : FileStreams} (now : Int)
    (server : Server) (withChanges : client.OpenWithChanges path)
    (opened : client.openedFiles path = some streams)
    (good : streams.writeStream.failed = false)
    (copy : (client.disk.read path).isSome) :
    ∃ closed link,
      client.closeFile faulty (.success now) path ⟨server, []⟩ =
          ((closed, link), true) ∧
        link.server.disk.read path = client.disk.read path := by
  obtain ⟨timestamp, cached⟩ := withChanges.modified
  obtain ⟨contents, read⟩ := Option.isSome_iff_exists.mp copy
  have unchanged : (client.setStreams path fun streams =>
      ⟨streams.readStream.close, streams.writeStream.close⟩).disk.read path =
        some contents := read
  obtain ⟨stored, response, call, stores⟩ :=
    stores_of_closeCall (client.closeStreams path) path server contents
  have uploads : faulty.closeCall ⟨server, []⟩
      ((client.closeStreams path).uploadRequests path contents) =
        (⟨stored, []⟩, response, Status.OK) := by
    have handled : server.closeHandler
        ((client.closeStreams path).uploadRequests path contents) .success =
          (stored, response, Status.OK) := call
    simp only [faulty, handled, Link.fault_nil, Link.after_nil]
  refine ⟨((client.closeStreams path).finishUpload path response.timestamp),
    ⟨stored, []⟩, ?_, ?_⟩
  · rw [closeStreams] at uploads ⊢
    simp [closeFile, opened, withChanges.mutex, cached, closeModified,
      beginUpload, good, LocalAnswers.success, unchanged, retry, maxTries,
      Status.initial, Status.isOk, uploadAttempt, uploads, Status.OK]
  · rw [read]
    exact stores.read

/-- A closed stream that is closed again fails from then on. -/
theorem failed_iterate_close {stream : FileStream}
    (closed : stream.isOpen = false) (more : Nat) :
    (FileStream.close^[more + 1] stream).failed = true ∧
      (FileStream.close^[more + 1] stream).isOpen = false := by
  induction more with
  | zero => simp [FileStream.close, closed]
  | succ more ih =>
      rw [Function.iterate_succ_apply', FileStream.close, ih.2]
      exact ⟨rfl, rfl⟩

/-- The streams that so many failed closes leave. -/
theorem openedFiles_iterate_closeStreams {streams : FileStreams}
    (withChanges : client.OpenWithChanges path)
    (opened : client.openedFiles path = some streams) (closes : Nat) :
    ((closeStreams path)^[closes] client).OpenWithChanges path ∧
      ((closeStreams path)^[closes] client).openedFiles path =
        some ⟨FileStream.close^[closes] streams.readStream,
          FileStream.close^[closes] streams.writeStream⟩ ∧
      ((closeStreams path)^[closes] client).disk = client.disk := by
  induction closes with
  | zero => exact ⟨withChanges, opened, rfl⟩
  | succ closes ih =>
      obtain ⟨keptOpen, openedBefore, sameDisk⟩ := ih
      simp only [Function.iterate_succ_apply']
      exact ⟨openWithChanges_closeStreams keptOpen,
        openedFiles_closeStreams openedBefore, sameDisk⟩

/-- A file that was open can be closed after one failed close, and cannot be
closed after more. -/
theorem closeFile_after_failures_iff {streams : FileStreams} (now : Int)
    (server : Server) (closes : Nat) (withChanges : client.OpenWithChanges path)
    (opened : client.openedFiles path = some streams)
    (isOpen : streams.writeStream.isOpen = true)
    (good : streams.writeStream.failed = false)
    (copy : (client.disk.read path).isSome) :
    (((closeStreams path)^[closes] client).closeFile faulty (.success now) path
      ⟨server, []⟩).2 = true ↔ closes ≤ 1 := by
  obtain ⟨keptOpen, openedAfter, sameDisk⟩ :=
    openedFiles_iterate_closeStreams withChanges opened closes
  rw [← sameDisk] at copy
  have accepted (stillGood :
      (FileStream.close^[closes] streams.writeStream).failed = false) :
      (((closeStreams path)^[closes] client).closeFile faulty (.success now)
        path ⟨server, []⟩).2 = true := by
    obtain ⟨closed, link, closesNow, -⟩ :=
      closeFile_of_accepted now server keptOpen openedAfter stillGood copy
    rw [closesNow]
  match closes with
  | 0 => simpa using accepted good
  | 1 =>
      have once : streams.writeStream.close.failed = false := by
        simp [FileStream.close, isOpen, good]
      simpa using accepted once
  | closes + 2 =>
      have failed := (failed_iterate_close
        (isOpen_close streams.writeStream) closes).1
      rw [closeFile_of_failed keptOpen openedAfter failed]
      simp

end Client

open Client

/-- A close whose upload failed is not retryable, whatever the state was before
it: if the write stream was open, then nothing can be written any more, and if
it was closed, then the file cannot be closed any more. -/
theorem failedClose_not_retryable (answers : LocalAnswers) (path : Path)
    (client : Client) (link : Link)
    (fails : UploadFails answers path client link) :
    (client.closeFile faulty answers path link).2 = false ∧
      ¬ Retryable path client
        (client.closeFile faulty answers path link).1.1 := by
  obtain ⟨link', closes⟩ := closeFile_of_uploadFails fails
  rw [closes]
  refine ⟨rfl, ?_⟩
  intro retryable
  obtain ⟨streams, opened⟩ :=
    Option.isSome_iff_exists.mp fails.withChanges.streams
  have good := fails.flushes streams opened
  have openedAfter := openedFiles_closeStreams opened
  have keptOpen := openWithChanges_closeStreams fails.withChanges
  cases isOpen : streams.writeStream.isOpen with
  | true =>
      have before := writeFile_of_open 0
        (usableStreams_of_openWithChanges fails.withChanges opened) isOpen good
      have after : ((client.closeStreams path).writeFile (.success 0) path []
          0).2 = false :=
        writeFile_of_closed [] 0
          (usableStreams_of_openWithChanges keptOpen openedAfter)
          (isOpen_close streams.writeStream)
      have same := (retryable.writes (.success 0) [] 0).1
      rw [before, after] at same
      exact Bool.false_ne_true same
  | false =>
      have failed : streams.writeStream.close.failed = true := by
        simp [FileStream.close, isOpen]
      obtain ⟨closed, linkClosed, accepted, -⟩ :=
        retryable.retried _ .refl 0 link.server
      have refused : ((client.closeStreams path).closeFile faulty (.success 0)
          path ⟨link.server, []⟩).2 = false :=
        closeFile_of_failed keptOpen openedAfter failed
      rw [accepted] at refused
      exact Bool.false_ne_true refused.symm

/-- A client that has created a file of one byte, which is not uploaded yet. -/
private def createdByte : Client :=
  (((Client.launch "writer").createFile (.success 0) "/srv/new").1.writeFile
    (.success 0) "/srv/new" [7] 0).1

/-- A server that the next three calls do not reach. -/
private def unreachable : Link where
  server := .launch "/srv" .empty 0
  faults := List.replicate 3
    (some ⟨0, .success, ⟨.unavailable, "Connection refused"⟩, rfl⟩)

private theorem createdByte_uploadFails :
    UploadFails (.success 0) "/srv/new" createdByte unreachable := by
  constructor
  case withChanges => exact ⟨rfl, by decide, 0, rfl⟩
  case flushes =>
    intro streams opened
    obtain rfl := Option.some.inj opened
    rfl
  case flush => rfl
  case reopen => rfl
  case copy => decide
  case faults => decide

/-- The byte can be read before a close that fails, and not after it. -/
theorem createdByte_unreadable_after_failedClose :
    ¬ Retryable "/srv/new" createdByte
      (createdByte.closeFile faulty (.success 0) "/srv/new" unreachable).1.1 := by
  intro retryable
  have same := retryable.reads 1 0
  exact absurd same (by decide)

theorem createdByte_not_retryable :
    (createdByte.closeFile faulty (.success 0) "/srv/new" unreachable).2 =
        false ∧
      ¬ Retryable "/srv/new" createdByte
        (createdByte.closeFile faulty (.success 0) "/srv/new"
          unreachable).1.1 :=
  failedClose_not_retryable _ _ _ _ createdByte_uploadFails

end DistributedFilesystem
