import DistributedFilesystem.AttributeLookups

/-!
# Sections at the server

What one section of a call does to the files and the registrations at the
server.  A file changes in one section, and the others are notified in the next
one of the same call.
-/

namespace DistributedFilesystem

section Sections

variable {path other : Path} {client : Client} {s : Server}
variable {answers : LocalAnswers} {size mtime : Int} {phase : CallPhase}
variable {result : Client × Server × CallPhase}

theorem shows_congr {s' : Server} (read : s'.disk.read path = s.disk.read path)
    (modifiedAt : s'.disk.modifiedAt path = s.disk.modifiedAt path) :
    s'.Shows path size mtime ↔ s.Shows path size mtime := by
  simp only [Server.Shows, getFileTimestamp, read, modifiedAt]

/-- The files at the server change in two phases only. -/
theorem disk_of_advance (spares : ¬ phase.Changes)
    (advances : phase.advance answers path client s = some result) :
    result.2.1.disk = s.disk := by
  cases phase with
  | idle => simp [CallPhase.advance] at advances
  | uploading _ | removing => exact (spares trivial).elim
  | received timestamp =>
      obtain rfl := Option.some.inj advances
      exact Server.disk_finishClose ..
  | removed =>
      obtain rfl := Option.some.inj advances
      exact Server.disk_fileChangeCallbackUnlink ..
  | _ =>
      obtain rfl := Option.some.inj advances
      rfl

/-- A section that changes a file leaves the file map alone, and the call is then
about to notify the other clients. -/
theorem notifies_of_advance (changes : phase.Changes)
    (advances : phase.advance answers path client s = some result) :
    result.2.1 = s ∨
      result.2.1.fileMap = s.fileMap ∧ result.2.2.Notifies := by
  cases phase with
  | uploading requests =>
      obtain rfl := Option.some.inj advances
      exact .inr ⟨rfl, trivial⟩
  | removing =>
      simp only [CallPhase.advance] at advances
      split at advances
      · obtain rfl := Option.some.inj advances
        exact .inl rfl
      · obtain rfl := Option.some.inj advances
        exact .inr ⟨rfl, trivial⟩
  | _ => exact changes.elim

/-- A section spares the other files. -/
theorem shows_of_advance_ne (apart : other ≠ path)
    (advances : phase.advance answers path client s = some result) :
    result.2.1.Shows other size mtime ↔ s.Shows other size mtime := by
  by_cases changes : phase.Changes
  · cases phase with
    | uploading requests =>
        obtain rfl := Option.some.inj advances
        apply shows_congr
        · exact Server.read_receiveFile_ne s apart requests
        · exact FileStore.modifiedAt_replace_ne apart _
    | removing =>
        simp only [CallPhase.advance] at advances
        split at advances
        · obtain rfl := Option.some.inj advances
          exact Iff.rfl
        · obtain rfl := Option.some.inj advances
          apply shows_congr
          · exact FileStore.read_remove_ne apart
          · exact FileStore.modifiedAt_remove_ne apart
    | _ => exact changes.elim
  · have disk := disk_of_advance changes advances
    apply shows_congr <;> rw [disk]

/-- A section that notifies announces the file. -/
theorem announces_of_advance (notifies : phase.Notifies)
    (advances : phase.advance answers path client s = some result) :
    s.Announces path client.clientId result.2.1 := by
  cases phase with
  | received timestamp =>
      obtain rfl := Option.some.inj advances
      exact Server.announces_finishClose ..
  | removed =>
      obtain rfl := Option.some.inj advances
      exact Server.announces_fileChangeCallbackUnlink s client.clientId _ rfl
  | _ => exact notifies.elim

/-- A section of a call that will notify announces the file, or leaves this to
the next one. -/
theorem willNotify_of_advance (will : phase.WillNotify)
    (advances : phase.advance answers path client s = some result) :
    s.Announces path client.clientId result.2.1 ∨
      result.2.1.fileMap = s.fileMap ∧ result.2.2.WillNotify := by
  cases phase with
  | uploading requests =>
      obtain rfl := Option.some.inj advances
      exact .inr ⟨rfl, trivial⟩
  | received timestamp =>
      have notifies : (CallPhase.received timestamp).Notifies := trivial
      exact .inl (announces_of_advance notifies advances)
  | removed =>
      have notifies : CallPhase.removed.Notifies := trivial
      exact .inl (announces_of_advance notifies advances)
  | _ => exact will.elim

theorem CallPhase.Notifies.willNotify (notifies : phase.Notifies) :
    phase.WillNotify := by
  cases phase with
  | received timestamp => trivial
  | removed => trivial
  | _ => exact notifies.elim

/-- Only the callback of `unlink` erases registrations. -/
theorem registered_of_advance {member : ClientId} (kept : phase ≠ .removed)
    (advances : phase.advance answers path client s = some result)
    (registered : s.fileMap.Registered other member) :
    result.2.1.fileMap.Registered other member := by
  cases phase with
  | idle => simp [CallPhase.advance] at advances
  | opening left =>
      obtain rfl := Option.some.inj advances
      exact ClientMap.registered_insertClient.mpr (.inl registered)
  | received timestamp =>
      obtain rfl := Option.some.inj advances
      exact Server.registered_finishClose _ _ _ registered
  | removing =>
      simp only [CallPhase.advance] at advances
      split at advances <;>
      · obtain rfl := Option.some.inj advances
        exact registered
  | removed => exact (kept rfl).elim
  | _ =>
      obtain rfl := Option.some.inj advances
      exact registered

end Sections

end DistributedFilesystem
