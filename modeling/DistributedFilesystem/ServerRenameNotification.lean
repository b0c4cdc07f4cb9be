import DistributedFilesystem.ServerHandlers

/-!
# Whom a rename notifies

A rename makes two kinds of copies wrong: those of the file that moves away
from the old path, and those of the file that it replaces at the new path.
Only the clients registered for the old path are notified.
-/

namespace DistributedFilesystem

namespace Server

/-- Between the two states a notification about the path was pushed to the
client's queue. -/
def NotifiedOf (s s' : Server) (client : ClientId) (path : Path) : Prop :=
  ∃ added, s'.pending client = s.pending client ++ added ∧
    ∃ notif ∈ added, notif.directory = path

/-- Every other subscribed client with a copy of one of the two files has been
notified of its path. -/
def RenameInvalidates (s s' : Server) (oldPath newPath : Path)
    (clientId : ClientId) : Prop :=
  ∀ client, client ≠ clientId → s.Subscribed client →
    (s.fileMap.Registered oldPath client →
      s.NotifiedOf s' client oldPath) ∧
    (s.disk.node newPath ≠ none → s.fileMap.Registered newPath client →
      s.NotifiedOf s' client newPath)

/-- A rename of a registered path pushes its notification to the clients
registered for the old path, and pushes nothing else. -/
theorem pending_renameHandler {s : Server} {oldPath : Path} (newPath : Path)
    (clientId : ClientId) {clients : Finset ClientId} {i : Nat}
    (present : s.disk.node oldPath = some i)
    (entry : s.fileMap oldPath = some clients) :
    ∃ s' timestamp, s.renameHandler oldPath newPath clientId .success =
        some (s', Status.OK) ∧
      ∀ client, s.Subscribed client → ∃ copies,
        s'.pending client = s.pending client ++
          List.replicate copies (renameNotification oldPath newPath timestamp) ∧
        (client ∈ clients → client ≠ clientId → 0 < copies) := by
  let renamed := { s with disk := s.disk.rename oldPath newPath }
  let timestamp := getFileTimestamp renamed.disk newPath
  let notified := renamed.notifyAll clientId
    (renameNotification oldPath newPath timestamp) clients
  let moved := Function.update notified.fileMap newPath (some clients)
  refine ⟨{ notified with fileMap := Function.update moved oldPath none },
    timestamp, ?_, fun client subscribed => ?_⟩
  · simp only [renameHandler, present, fileChangeCallbackRename, entry,
      Option.map_some]
    rfl
  · have subscribedRenamed : renamed.Subscribed client := subscribed
    exact pending_notifyAll _ _ _ subscribedRenamed

/-- A rename that succeeds on disk, of a registered path to another one,
notifies all clients with a copy it makes wrong exactly when no other
subscribed client is registered for a file that it replaces. -/
theorem renameHandler_invalidates_iff (s : Server) {oldPath newPath : Path}
    (clientId : ClientId) {i : Nat} (different : oldPath ≠ newPath)
    (present : s.disk.node oldPath = some i)
    (registered : s.fileMap oldPath ≠ none) :
    ∃ s', s.renameHandler oldPath newPath clientId .success =
        some (s', Status.OK) ∧
      (s.RenameInvalidates s' oldPath newPath clientId ↔
        s.disk.node newPath = none ∨
          ∀ client, client ≠ clientId → s.Subscribed client →
            ¬ s.fileMap.Registered newPath client) := by
  obtain ⟨clients, entry⟩ := Option.ne_none_iff_exists'.mp registered
  obtain ⟨s', timestamp, handled, pushes⟩ :=
    pending_renameHandler newPath clientId present entry
  refine ⟨s', handled, ?_, ?_⟩
  · intro invalidates
    by_cases replaces : s.disk.node newPath = none
    · exact .inl replaces
    refine .inr fun client other subscribed isRegistered => ?_
    obtain ⟨added, appended, notif, member, about⟩ :=
      (invalidates client other subscribed).2 replaces isRegistered
    obtain ⟨copies, appended', -⟩ := pushes client subscribed
    obtain rfl := List.append_cancel_left (appended.symm.trans appended')
    obtain ⟨-, rfl⟩ := List.mem_replicate.mp member
    exact different about
  · intro harmless client other subscribed
    obtain ⟨copies, appended, positive⟩ := pushes client subscribed
    refine ⟨?_, fun replaces isRegistered => ?_⟩
    · rintro ⟨members, entry', isMember⟩
      obtain rfl : clients = members := by simpa [entry] using entry'
      have some := positive isMember other
      exact ⟨_, appended, _, List.mem_replicate.mpr ⟨by omega, rfl⟩, rfl⟩
    · rcases harmless with vacant | unregistered
      · exact (replaces vacant).elim
      · exact (unregistered client other subscribed isRegistered).elim

end Server

/-- Two files on the server, each open at another client. -/
private def twoCopies : Server :=
  { Server.launch "/srv"
      ((FileStore.empty.create "/srv/a" 0).create "/srv/b" 0) 0 with
    fileMap path :=
      if path = "/srv/a" then some {"renamer"}
      else if path = "/srv/b" then some {"reader"} else none
    subscribers client := if client = "reader" then some 0 else none
    queues q := if q = 0 then some ⟨[], false⟩ else none }

/-- Renaming over a file leaves the client that holds a copy of it without a
notification. -/
theorem rename_over_copy_not_notified :
    ∃ s', twoCopies.renameHandler "/srv/a" "/srv/b" "renamer" .success =
        some (s', Status.OK) ∧
      ¬ twoCopies.RenameInvalidates s' "/srv/a" "/srv/b" "renamer" := by
  refine ⟨_, rfl, fun invalidates => ?_⟩
  obtain ⟨added, appended, notif, member, -⟩ :=
    (invalidates "reader" (by decide) ⟨0, _, rfl, rfl⟩).2 (by decide)
      ⟨_, rfl, by decide⟩
  obtain rfl : [] = added := appended
  simp at member

/-- Renaming to a vacant path notifies the other reader. -/
theorem renameHandler_invalidates_vacant :
    ∃ s', twoCopies.renameHandler "/srv/b" "/srv/c" "renamer" .success =
        some (s', Status.OK) ∧
      twoCopies.RenameInvalidates s' "/srv/b" "/srv/c" "renamer" := by
  have vacantDifferent : "/srv/b" ≠ "/srv/c" := by decide
  obtain ⟨s', handled, iff⟩ :=
    Server.renameHandler_invalidates_iff twoCopies "renamer" vacantDifferent
      rfl (by decide)
  exact ⟨s', handled, iff.mpr (.inl rfl)⟩

end DistributedFilesystem
