import DistributedFilesystem.ClientEffects
import DistributedFilesystem.ClientRename
import DistributedFilesystem.TransitionRuns

/-!
# Notifications for an open file

`RunSubscriber` ignores a notification for a file that is open and keeps no
record of it.  So the notification changes nothing, neither at once nor when
the file is closed: the cached copy outlives it.
-/

namespace DistributedFilesystem

open TransitionRuns

/-- The event does not close, write, delete or rename the path.  Renames are
between paths neither of which is nested in the other. -/
def ClientEvent.Spares (path : Path) : ClientEvent → Prop
  | .notified _ => True
  | .call operation _ =>
      match operation with
      | .writeFile other _ _ | .closeFile other | .deleteFile other =>
          other ≠ path
      | .renameFile oldPath newPath =>
          suffixBelow oldPath path = none ∧
            suffixBelow oldPath newPath = none ∧
            suffixBelow newPath oldPath = none
      | _ => True

/-- The event is not a notification for the path. -/
def ClientEvent.isAboutOther (path : Path) : ClientEvent → Bool
  | .notified note => note.directory != path
  | .call _ _ => true

namespace Client

variable {σ : Type*} {remote : Remote σ} {answers : LocalAnswers}
variable {path other : Path} {client : Client} {r : σ}

theorem isSome_insertOpened (streams : FileStreams)
    (isOpen : (client.openedFiles path).isSome) :
    ((client.insertOpened other streams).openedFiles path).isSome := by
  by_cases same : path = other
  · simp [insertOpened, same]
  · simpa [insertOpened, same] using isOpen

theorem isSome_setStreams (change : FileStreams → FileStreams)
    (isOpen : (client.openedFiles path).isSome) :
    ((client.setStreams other change).openedFiles path).isSome := by
  by_cases same : path = other
  · subst same
    simpa [setStreams] using isOpen
  · simpa [setStreams, same] using isOpen

theorem isSome_eraseOpened (apart : other ≠ path)
    (isOpen : (client.openedFiles path).isSome) :
    ((client.eraseOpened other).openedFiles path).isSome := by
  simpa [eraseOpened, Ne.symm apart] using isOpen

theorem isSome_openCached (isOpen : (client.openedFiles path).isSome) :
    ((client.openCached answers other).1.openedFiles path).isSome := by
  unfold openCached
  split
  · exact isOpen
  · split
    · exact isSome_insertOpened _ isOpen
    · exact isOpen

theorem isSome_openFile (isOpen : (client.openedFiles path).isSome) :
    ((client.openFile remote answers other r).1.1.openedFiles path).isSome := by
  unfold openFile
  split
  · unfold openUncached
    have tried := retry_preserves
      (fun state : Client × σ => (state.1.openedFiles path).isSome)
      (fun left (client, r) kept => by
        obtain ⟨_, _, -, effect⟩ :=
          downloadResult remote answers other client r left
        rwa [effect.openedFiles])
      maxTries .initial (show ((client, r).1.openedFiles path).isSome from isOpen)
    split
    · exact isOpen
    · split
      · next result =>
          rw [result] at tried
          split
          · split
            · exact isSome_insertOpened _ tried
            · exact tried
          · exact tried
      · next result =>
          rw [result] at tried
          exact tried
  · exact isSome_openCached isOpen

theorem isSome_readFile (size : Nat) (offset : Int)
    (isOpen : (client.openedFiles path).isSome) :
    ((client.readFile other size offset).1.openedFiles path).isSome := by
  rcases readFile_eq client other size offset with eq | eq
  · rwa [eq]
  · rw [eq]
    exact isSome_setStreams _ isOpen

theorem isSome_writeFile (data : Bytes) (position : Int)
    (isOpen : (client.openedFiles path).isSome) :
    ((client.writeFile answers other data position).1.openedFiles path).isSome := by
  unfold writeFile
  dsimp only
  split
  · exact isOpen
  · split
    · exact isSome_setStreams _ isOpen
    · split
      · exact isSome_setStreams _ isOpen
      · exact isOpen

theorem isSome_createFile (isOpen : (client.openedFiles path).isSome) :
    ((client.createFile answers other).1.openedFiles path).isSome := by
  have kept : ∀ created, client.beginCreate answers other = some created →
      (created.openedFiles path).isSome := by
    intro created begins
    unfold beginCreate at begins
    split_ifs at begins
    obtain rfl := Option.some.inj begins
    exact isOpen
  unfold createFile
  split
  · next created begins =>
      have stillOpen := kept created begins
      unfold finishCreate
      split
      · exact stillOpen
      · dsimp only
        split <;> exact isSome_insertOpened _ stillOpen
  · exact isOpen

theorem isSome_closeFile (apart : other ≠ path)
    (isOpen : (client.openedFiles path).isSome) :
    ((client.closeFile remote answers other r).1.1.openedFiles path).isSome := by
  unfold closeFile
  split
  · exact isOpen
  next streams _ =>
  split
  · exact isOpen
  split
  · exact isSome_eraseOpened apart isOpen
  split
  · obtain ⟨change, -, flushed⟩ :=
      beginUpload_client answers other client streams
    have stillOpen :
        ((client.beginUpload answers other streams).1.openedFiles path).isSome := by
      rw [flushed]
      exact isSome_setStreams _ isOpen
    unfold closeModified
    split
    · next begins => rwa [begins] at stillOpen
    · next begins =>
        rw [begins] at stillOpen
        split
        · split
          · exact isSome_eraseOpened apart stillOpen
          · exact stillOpen
        · exact stillOpen
  · exact isSome_eraseOpened apart isOpen

theorem isSome_deleteFile (apart : other ≠ path)
    (isOpen : (client.openedFiles path).isSome) :
    ((client.deleteFile remote other r).1.1.openedFiles path).isSome := by
  unfold deleteFile
  dsimp only
  split <;> exact isSome_eraseOpened apart isOpen

theorem isSome_renameFile {oldPath newPath : Path}
    {result : (Client × σ) × Bool} (apart : suffixBelow oldPath path = none)
    (renames : client.renameFile remote answers oldPath newPath r = some result)
    (isOpen : (client.openedFiles path).isSome) :
    (result.1.1.openedFiles path).isSome := by
  have moved : (updateMapKeys oldPath newPath client.openedFiles path).isSome := by
    unfold updateMapKeys
    split
    · rfl
    · simpa [apart] using isOpen
  unfold renameFile at renames
  dsimp only at renames
  split at renames
  · obtain rfl := Option.some.inj renames
    exact isOpen
  · split at renames
    · obtain rfl := Option.some.inj renames
      exact isOpen
    · obtain ⟨answer, -, rfl⟩ := Option.map_eq_some_iff.mp renames
      exact moved

end Client

section Runs

variable {σ : Type*} {remote : Remote σ} {path : Path}

/-- An open file stays open through events that spare it. -/
theorem isSome_openedFiles_of_step {event : ClientEvent} {state next : Client × σ}
    (spares : event.Spares path)
    (isOpen : (state.1.openedFiles path).isSome)
    (steps : event.step remote state = some next) :
    (next.1.openedFiles path).isSome := by
  obtain ⟨client, r⟩ := state
  cases event with
  | notified note =>
      obtain rfl := Option.some.inj steps
      simpa using isOpen
  | call operation answers =>
      cases operation with
      | renameFile oldPath newPath =>
          obtain ⟨result, renames, rfl⟩ := Option.map_eq_some_iff.mp steps
          exact Client.isSome_renameFile spares.1 renames isOpen
      | openFile other =>
          obtain rfl := Option.some.inj steps
          exact Client.isSome_openFile isOpen
      | readFile other size offset =>
          obtain rfl := Option.some.inj steps
          exact Client.isSome_readFile size offset isOpen
      | writeFile other data position =>
          obtain rfl := Option.some.inj steps
          exact Client.isSome_writeFile data position isOpen
      | createFile other =>
          obtain rfl := Option.some.inj steps
          exact Client.isSome_createFile isOpen
      | closeFile other =>
          obtain rfl := Option.some.inj steps
          exact Client.isSome_closeFile spares isOpen
      | deleteFile other =>
          obtain rfl := Option.some.inj steps
          exact Client.isSome_deleteFile spares isOpen
      | getAttributes other =>
          obtain rfl := Option.some.inj steps
          unfold Client.getAttributes
          split
          · exact isOpen
          · dsimp only
            split <;> exact isOpen
      | truncateFile directory filename size =>
          obtain rfl := Option.some.inj steps
          unfold Client.truncateFile
          split
          · split <;> exact isOpen
          · exact isOpen

/-- Notifications for an open file leave no trace: without them the run is the
same. -/
theorem run_filter_isAboutOther {events : List ClientEvent}
    {state : Client × σ} (isOpen : (state.1.openedFiles path).isSome)
    (spares : ∀ event ∈ events, event.Spares path) :
    run (ClientEvent.step remote)
        (events.filter (ClientEvent.isAboutOther path)) state =
      run (ClientEvent.step remote) events state := by
  induction events generalizing state with
  | nil => rfl
  | cons event events ih =>
      have spared := spares event List.mem_cons_self
      have sparesLater : ∀ later ∈ events, later.Spares path :=
        fun later member => spares later (List.mem_cons_of_mem _ member)
      have same : ∀ next, event.step remote state = some next →
          run (ClientEvent.step remote)
              (events.filter (ClientEvent.isAboutOther path)) next =
            run (ClientEvent.step remote) events next :=
        fun next steps =>
          ih (isSome_openedFiles_of_step spared isOpen steps) sparesLater
      cases about : event.isAboutOther path with
      | true =>
          rw [List.filter_cons_of_pos about]
          simp only [run]
          cases steps : event.step remote state with
          | none => rfl
          | some next => exact same next steps
      | false =>
          rw [List.filter_cons_of_neg (by simp [about])]
          cases event with
          | call operation answers => simp [ClientEvent.isAboutOther] at about
          | notified note =>
              obtain rfl : note.directory = path := by
                simpa [ClientEvent.isAboutOther] using about
              have unchanged : ClientEvent.step remote (.notified note) state =
                  some state := by
                simp [ClientEvent.step, Client.processNotification_of_open isOpen]
              rw [run, unchanged, Option.bind_some, ← same state unchanged]

theorem length_filter_isAboutOther_lt {events : List ClientEvent}
    {note : Notification} (about : note.directory = path)
    (member : .notified note ∈ events) :
    (events.filter (ClientEvent.isAboutOther path)).length < events.length := by
  apply lt_of_le_of_ne (List.length_filter_le ..)
  intro same
  have all := List.length_filter_eq_length_iff.mp same _ member
  simp [ClientEvent.isAboutOther, about] at all

/-- Whatever the server answers and whatever else the client does while the
path is open: a notification for it is forgotten.  The state that the events
reach is reached without the notifications, and when `close_file` then returns
true the path is still cached, so that the next `open_file` neither calls the
server nor changes the copy. -/
theorem notification_while_open_forgotten (remote : Remote σ) (path : Path)
    (client : Client) (r : σ) {before closed : Client} {r' r'' : σ}
    (isOpen : (client.openedFiles path).isSome)
    (events : List ClientEvent)
    (spares : ∀ event ∈ events, event.Spares path)
    {note : Notification} (about : note.directory = path)
    (processed : .notified note ∈ events)
    (reaches : run (ClientEvent.step remote) events (client, r) =
      some (before, r'))
    (answers : LocalAnswers)
    (closes : before.closeFile remote answers path r' = ((closed, r''), true)) :
    (∃ fewer : List ClientEvent, fewer.length < events.length ∧
      (∀ event ∈ fewer, event.isAboutOther path) ∧
      run (ClientEvent.step remote) fewer (client, r) = some (before, r')) ∧
    (closed.cache path).isSome ∧ closed.openedFiles path = none ∧
    ∀ answers, ∃ reopened returned,
      closed.openFile remote answers path r'' = ((reopened, r''), returned) ∧
      reopened.disk = closed.disk ∧ reopened.cache = closed.cache := by
  constructor
  · refine ⟨events.filter (ClientEvent.isAboutOther path),
      length_filter_isAboutOther_lt about processed, ?_, ?_⟩
    · intro event member
      exact (List.mem_filter.mp member).2
    · rw [run_filter_isAboutOther isOpen spares, reaches]
  · have result := (Client.closeFile_eq_true (fun _ => True)
      (fun _ _ _ _ => trivial) trivial closes).1
    have cached : (closed.cache path).isSome := by
      obtain ⟨info, entry, ⟨-, same⟩ | ⟨-, timestamp, clean⟩⟩ := result.cache
      · simp [same, entry]
      · simp [clean]
    exact ⟨cached, result.openedFiles,
      fun answers => Client.openFile_of_cached cached⟩

end Runs

/-- A server with one empty file and a subscribed client. -/
private def watchedFile : Server :=
  { Server.launch "/srv" (FileStore.empty.create "/srv/a" 0) 0 with
    subscribers client := if client = "reader" then some 0 else none
    queues q := if q = 0 then some ⟨[], false⟩ else none }

/-- The reader has the file open. -/
private def readerOpened : Client × Server :=
  ((Client.launch "reader").openFile .direct (.success 0) "/srv/a"
    watchedFile).1

/-- Another client has then uploaded one byte. -/
private def writerUploaded : Server :=
  (readerOpened.2.closeHandler [⟨"/srv/a", "writer", [97]⟩] .success).1

/-- The reader is notified of an upload and closes the file. -/
theorem notification_while_open_forgotten_upload :
    ∃ closed : Client, (closed.cache "/srv/a").isSome ∧
      closed.disk.read "/srv/a" = some [] ∧
      writerUploaded.disk.read "/srv/a" = some [97] := by
  have forgotten := notification_while_open_forgotten Remote.direct "/srv/a"
    readerOpened.1 writerUploaded rfl
    [.notified (Server.updateNotification "/srv/a" 0)]
    (by simp [ClientEvent.Spares]) rfl List.mem_cons_self rfl (.success 0) rfl
  exact ⟨_, forgotten.2.1, rfl, rfl⟩

/-- The reader's next `open_file` returns true and exposes the old copy, while
nothing is left in its queue. -/
theorem reopened_copy_stale :
    ∃ note : Notification, writerUploaded.pending "reader" = [note] ∧
      note.directory = "/srv/a" ∧
      let closed := (readerOpened.1.processNotification note).closeFile
        .direct (.success 0) "/srv/a" writerUploaded
      let reopened := closed.1.1.openFile .direct (.success 0) "/srv/a" closed.1.2
      closed.2 = true ∧ (closed.1.1.cache "/srv/a").isSome ∧
        reopened.2 = true ∧
        reopened.1.1.disk.read "/srv/a" = some [] ∧
        reopened.1.2.disk.read "/srv/a" = some [97] :=
  ⟨Server.updateNotification "/srv/a" 0, rfl, rfl, rfl, rfl, rfl, rfl, rfl⟩

end DistributedFilesystem
