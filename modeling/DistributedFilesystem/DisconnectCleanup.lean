import DistributedFilesystem.HandlerRuns

/-!
# What a disconnected client leaves behind

`cleanup_client` removes a client from the list of clients, from `file_map` and
from `subscribers`.  As no entry of `file_map` is an empty set before, the
entries that its loop removes are exactly those of which the client was the only
member.
-/

namespace DistributedFilesystem

open TransitionRuns

namespace Server

/-- `cleanup_client`, with the order in which its loop meets the entries of
`file_map`. -/
def cleanupClientIn (s : Server) (clientId : ClientId)
    (entries : List (Path × Finset ClientId)) : Server :=
  let s := { s with clientsDb := s.clientsDb.erase clientId }
  let s := { s with
    fileMap := fun path =>
      (ClientMap.sweepFrom clientId [] entries).lookup path }
  match s.subscribers clientId with
  | some q =>
      let s := s.cancel q
      { s with subscribers := Function.update s.subscribers clientId none }
  | none => s

variable {s s' : Server} {clientId client : ClientId} {path : Path}
variable {q r : QueueId}

/-- Nothing of the client is left in the second server, except that it may still
have files open, and nothing else has changed. -/
structure CleansUp (s s' : Server) (clientId : ClientId) : Prop where
  notRegistered : ∀ path, ¬ s'.fileMap.Registered path clientId
  notListed : clientId ∉ s'.clientsDb
  notSubscribed : s'.subscribers clientId = none
  shutDown : ∀ q, s.subscribers clientId = some q → ∃ queue,
    s.queues q = some queue ∧ s'.queues q = some { queue with shutdown := true }
  removed : ∀ path, s.fileMap path ≠ none →
    (s'.fileMap path = none ↔ s.fileMap path = some {clientId})
  added : ∀ path, s.fileMap path = none → s'.fileMap path = none
  stayRegistered : ∀ path client, client ≠ clientId →
    (s'.fileMap.Registered path client ↔ s.fileMap.Registered path client)
  staysOpen : s'.fileMapOpen = s.fileMapOpen
  stayListed : ∀ client, client ≠ clientId →
    (client ∈ s'.clientsDb ↔ client ∈ s.clientsDb)
  staySubscribed : ∀ client, client ≠ clientId →
    s'.subscribers client = s.subscribers client ∧
      s'.queueOf client = s.queueOf client
  otherQueues : ∀ q, s.subscribers clientId ≠ some q → s'.queues q = s.queues q

/-- The loop over the entries of `file_map` sweeps it, whatever their order. -/
theorem cleanupClientIn_eq {entries : List (Path × Finset ClientId)}
    (lists : ClientMap.Lists entries s.fileMap) :
    s.cleanupClientIn clientId entries = s.cleanupClient clientId := by
  have swept : (fun path =>
      (ClientMap.sweepFrom clientId [] entries).lookup path) =
        s.fileMap.sweepClient clientId := by
    funext path
    exact ClientMap.lookup_of_lists (ClientMap.lists_sweepFrom lists) path
  cases owner : s.subscribers clientId <;>
    simp only [cleanupClientIn, cleanupClient, swept, owner]

section Cleanup

theorem fileMap_cleanupClient :
    (s.cleanupClient clientId).fileMap = s.fileMap.sweepClient clientId := by
  unfold cleanupClient
  dsimp only
  split <;> rfl

theorem subscribers_cleanupClient :
    (s.cleanupClient clientId).subscribers =
      Function.update s.subscribers clientId none := by
  unfold cleanupClient
  dsimp only
  split
  · rfl
  · next missing =>
      rw [← missing, Function.update_eq_self]

theorem queues_cleanupClient_of_owner (owner : s.subscribers clientId = some q) :
    (s.cleanupClient clientId).queues q =
      (s.queues q).map NotificationQueue.cancel := by
  simp only [cleanupClient, owner, cancel, Function.update_self]

theorem queues_cleanupClient_of_other (other : s.subscribers clientId ≠ some q) :
    (s.cleanupClient clientId).queues q = s.queues q := by
  unfold cleanupClient
  dsimp only
  split
  · next r owner =>
      have apart : q ≠ r := by
        rintro rfl
        exact other owner
      simp only [cancel, Function.update_of_ne apart]
  · rfl

theorem rest_cleanupClient :
    (s.cleanupClient clientId).clientsDb = s.clientsDb.erase clientId ∧
      (s.cleanupClient clientId).fileMapOpen = s.fileMapOpen := by
  unfold cleanupClient
  dsimp only
  split <;> exact ⟨rfl, rfl⟩

theorem cleansUp_cleanupClient (wellKept : s.WellKept) (clientId : ClientId) :
    s.CleansUp (s.cleanupClient clientId) clientId where
  notRegistered := by
    intro path
    rw [fileMap_cleanupClient]
    exact ClientMap.not_registered_sweepClient
  notListed := by
    rw [rest_cleanupClient.1]
    exact Finset.notMem_erase clientId s.clientsDb
  notSubscribed := by
    rw [subscribers_cleanupClient, Function.update_self]
  shutDown := by
    intro q owner
    obtain ⟨queue, present⟩ := Option.isSome_iff_exists.mp
      (wellKept.wellSubscribed.allocated owner)
    refine ⟨queue, present, ?_⟩
    rw [queues_cleanupClient_of_owner owner, present]
    rfl
  removed := by
    intro path inUse
    obtain ⟨clients, entry⟩ := Option.ne_none_iff_exists'.mp inUse
    have notEmpty : clients ≠ ∅ := by
      rintro rfl
      exact wellKept.fileMap.noEmptySet path entry
    rw [fileMap_cleanupClient]
    simp only [ClientMap.sweepClient, entry, Option.some.injEq]
    have empties_iff : clients.erase clientId = ∅ ↔ clients = {clientId} := by
      rw [Finset.erase_eq_empty_iff, or_iff_right notEmpty]
    rw [← empties_iff]
    split_ifs with empties <;> simp [empties]
  added := by
    intro path missing
    rw [fileMap_cleanupClient]
    simp only [ClientMap.sweepClient, missing]
  stayRegistered := by
    intro path client different
    rw [fileMap_cleanupClient]
    exact ClientMap.registered_sweepClient_of_ne different
  staysOpen := rest_cleanupClient.2
  stayListed := by
    intro client different
    rw [rest_cleanupClient.1, Finset.mem_erase, and_iff_right different]
  staySubscribed := by
    intro client different
    have same : (s.cleanupClient clientId).subscribers client =
        s.subscribers client := by
      rw [subscribers_cleanupClient, Function.update_of_ne different]
    refine ⟨same, ?_⟩
    unfold queueOf
    rw [same]
    cases subscriber : s.subscribers client with
    | none => rfl
    | some q =>
        refine queues_cleanupClient_of_other fun owner => different ?_
        exact wellKept.wellSubscribed.ownQueues client clientId q subscriber owner
  otherQueues := by
    intro q other
    exact queues_cleanupClient_of_other other

end Cleanup

end Server

/-- After any handlers, no entry of the two maps is an empty set; and
`cleanup_client` then removes everything of a client but its entries in
`file_map_open`, in whatever order its loop meets the entries of `file_map`, and
nothing of the other clients. -/
theorem cleanup_client_complete {rootDir : Path} {disk : FileStore Path Byte}
    {clock : Int} (calls : List ServerCall) {s : Server}
    (reaches : run ServerCall.step calls (Server.launch rootDir disk clock) =
      some s) :
    (∀ path, s.fileMap path ≠ some ∅ ∧ s.fileMapOpen path ≠ some ∅) ∧
      (∃ entries, ClientMap.Lists entries s.fileMap) ∧
        ∀ clientId entries, ClientMap.Lists entries s.fileMap →
          s.CleansUp (s.cleanupClientIn clientId entries) clientId := by
  have wellKept := Server.wellKept_of_run reaches
  refine ⟨?_, wellKept.fileMap.exists_lists, ?_⟩
  · intro path
    exact ⟨wellKept.fileMap.noEmptySet path, wellKept.fileMapOpen.noEmptySet path⟩
  · intro clientId entries lists
    rw [Server.cleanupClientIn_eq lists]
    exact Server.cleansUp_cleanupClient wellKept clientId

/-- Two clients open a file, and one of them uploads a second one. -/
private def twoReaders : List ServerCall :=
  [.requestDir "I want input/output directory" "reader", .subscribe "reader",
    .requestDir "I want input/output directory" "writer", .subscribe "writer",
    .open ⟨"/srv/a", "reader", []⟩ .success,
    .open ⟨"/srv/a", "writer", []⟩ .success,
    .close [⟨"/srv/b", "reader", [97]⟩] .success]

/-- The server cleans up the reader. -/
theorem cleanup_client_complete_reader :
    ∃ s, run ServerCall.step twoReaders (Server.launch "/srv" .empty 0) =
        some s ∧
      s.fileMap "/srv/b" = some {"reader"} ∧
        ∃ entries, s.CleansUp (s.cleanupClientIn "reader" entries) "reader" := by
  refine ⟨_, rfl, rfl, ?_⟩
  obtain ⟨-, ⟨entries, lists⟩, cleansUp⟩ := cleanup_client_complete twoReaders rfl
  exact ⟨entries, cleansUp "reader" entries lists⟩

end DistributedFilesystem
