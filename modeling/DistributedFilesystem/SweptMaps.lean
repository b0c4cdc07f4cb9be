import DistributedFilesystem.ServerState
import Mathlib.Data.Set.Finite.Basic

/-!
# Maps of clients without empty sets

The loop of `cleanup_client` erases a client from every entry of `file_map`, and
erases the entries that become empty from the map that it iterates over.  Here
it runs over the list of the entries, in any order, and leaves the entries of
the swept map.  Every operation on the maps of clients leaves them finite and
without empty sets.
-/

namespace DistributedFilesystem

namespace ClientMap

/-- The entries of a map in the order in which an iterator meets them. -/
structure Lists (entries : List (Path × Finset ClientId)) (map : ClientMap) :
    Prop where
  nodup : (entries.map Prod.fst).Nodup
  mem_iff : ∀ {path clients}, (path, clients) ∈ entries ↔ map path = some clients

/-- The loop of `cleanup_client` over the entries that lie ahead of the
iterator. -/
def sweepFrom (client : ClientId) (passed : List (Path × Finset ClientId)) :
    List (Path × Finset ClientId) → List (Path × Finset ClientId)
  | [] => passed
  | (path, clients) :: later =>
      if clients.erase client = ∅ then sweepFrom client passed later
      else sweepFrom client (passed ++ [(path, clients.erase client)]) later

/-- A map that has finitely many entries, none of them an empty set. -/
structure Tidy (map : ClientMap) : Prop where
  noEmptySet : ∀ path, map path ≠ some ∅
  finite : {path | map path ≠ none}.Finite

variable {map : ClientMap} {client : ClientId} {path : Path}
variable {entries : List (Path × Finset ClientId)}

section Sweeps

/-- The entry that the loop leaves of one, if it does not erase it. -/
def sweepEntry (client : ClientId) (entry : Path × Finset ClientId) :
    Option (Path × Finset ClientId) :=
  if entry.2.erase client = ∅ then none
  else some (entry.1, entry.2.erase client)

theorem sweepFrom_eq (client : ClientId)
    (passed entries : List (Path × Finset ClientId)) :
    sweepFrom client passed entries =
      passed ++ entries.filterMap (sweepEntry client) := by
  induction entries generalizing passed with
  | nil => simp [sweepFrom]
  | cons entry later ih =>
      by_cases empties : entry.2.erase client = ∅
      · have gone : sweepEntry client entry = none := by
          simp [sweepEntry, empties]
        rw [sweepFrom, if_pos empties, ih, List.filterMap_cons_none gone]
      · have stays : sweepEntry client entry =
            some (entry.1, entry.2.erase client) := by
          simp [sweepEntry, empties]
        rw [sweepFrom, if_neg empties, ih, List.filterMap_cons_some stays,
          List.append_assoc, List.singleton_append]

/-- The loop moves no entry to another path. -/
theorem keys_sweepFrom_sublist :
    ((sweepFrom client [] entries).map Prod.fst).Sublist
      (entries.map Prod.fst) := by
  rw [sweepFrom_eq, List.nil_append]
  induction entries with
  | nil => exact .slnil
  | cons entry later ih =>
      cases swept : sweepEntry client entry with
      | none =>
          rw [List.filterMap_cons_none swept]
          exact ih.cons _
      | some left =>
          have same : left.1 = entry.1 := by
            unfold sweepEntry at swept
            split_ifs at swept
            rw [← Option.some.inj swept]
          rw [List.filterMap_cons_some swept, List.map_cons, same]
          exact ih.cons_cons _

/-- The loop over the entries of a map leaves the entries of the swept map. -/
theorem lists_sweepFrom (lists : Lists entries map) :
    Lists (sweepFrom client [] entries) (map.sweepClient client) where
  nodup := lists.nodup.sublist keys_sweepFrom_sublist
  mem_iff := by
    intro path clients
    rw [sweepFrom_eq, List.nil_append, List.mem_filterMap]
    constructor
    · rintro ⟨⟨path', before⟩, member, swept⟩
      unfold sweepEntry at swept
      split_ifs at swept with empties
      obtain ⟨rfl, rfl⟩ := Prod.mk.inj (Option.some.inj swept)
      simp only [sweepClient, lists.mem_iff.mp member, empties, if_false]
    · intro entry
      unfold sweepClient at entry
      split at entry
      · next before entryBefore =>
          split_ifs at entry with empties
          obtain rfl := Option.some.inj entry
          refine ⟨(path, before), lists.mem_iff.mpr entryBefore, ?_⟩
          simp [sweepEntry, empties]
      · simp at entry

theorem lookup_of_lists (lists : Lists entries map) (path : Path) :
    entries.lookup path = map path := by
  have found : ∀ {clients}, entries.lookup path = some clients →
      map path = some clients := by
    intro clients isFound
    obtain ⟨front, later, rfl, -⟩ := List.lookup_eq_some_iff.mp isFound
    exact lists.mem_iff.mp (by simp)
  cases entry : map path with
  | none =>
      by_contra present
      obtain ⟨clients, isFound⟩ := Option.ne_none_iff_exists'.mp present
      exact Option.some_ne_none _ ((found isFound).symm.trans entry)
  | some clients =>
      have member := lists.mem_iff.mpr entry
      have isSome : (entries.lookup path).isSome :=
        List.lookup_isSome_iff.mpr ⟨(path, clients), member, by simp⟩
      obtain ⟨other, isFound⟩ := Option.isSome_iff_exists.mp isSome
      rw [isFound, ← entry, found isFound]

/-- A map with finitely many entries can be iterated. -/
theorem Tidy.exists_lists (tidy : map.Tidy) : ∃ entries, Lists entries map := by
  have values : ∀ path ∈ tidy.finite.toFinset,
      map path = some ((map path).getD ∅) := by
    intro path member
    obtain ⟨clients, entry⟩ :=
      Option.ne_none_iff_exists'.mp (tidy.finite.mem_toFinset.mp member)
    rw [entry, Option.getD_some]
  refine ⟨tidy.finite.toFinset.toList.map fun path =>
    (path, (map path).getD ∅), ?_, ?_⟩
  · rw [List.map_map]
    simpa [Function.comp_def] using tidy.finite.toFinset.nodup_toList
  · intro path clients
    rw [List.mem_map]
    constructor
    · rintro ⟨path', member, same⟩
      obtain ⟨rfl, rfl⟩ := Prod.mk.inj same
      exact values path' (Finset.mem_toList.mp member)
    · intro entry
      refine ⟨path, ?_, by rw [entry, Option.getD_some]⟩
      rw [Finset.mem_toList, Set.Finite.mem_toFinset]
      simp [entry]

/-- The other clients stay registered. -/
theorem registered_sweepClient_of_ne {member : ClientId}
    (different : member ≠ client) :
    Registered (map.sweepClient client) path member ↔
      Registered map path member := by
  constructor
  · exact registered_of_sweepClient
  · rintro ⟨clients, entry, isMember⟩
    have stays : member ∈ clients.erase client :=
      Finset.mem_erase.mpr ⟨different, isMember⟩
    refine ⟨clients.erase client, ?_, stays⟩
    simp only [sweepClient, entry, Finset.ne_empty_of_mem stays, if_false]

end Sweeps

section Tidiness

theorem tidy_empty : Tidy fun _ => none where
  noEmptySet := by simp
  finite := by simp

theorem Tidy.update (tidy : map.Tidy) (path : Path)
    {entry : Option (Finset ClientId)} (notEmpty : entry ≠ some ∅) :
    Tidy (Function.update map path entry) where
  noEmptySet := by
    intro other
    rw [Function.update_apply]
    split
    · exact notEmpty
    · exact tidy.noEmptySet other
  finite := by
    refine (tidy.finite.insert path).subset ?_
    intro other inUse
    by_cases same : other = path
    · exact .inl same
    · exact .inr (by simpa [same] using inUse)

theorem Tidy.insertClient (tidy : map.Tidy) (path : Path) (client : ClientId) :
    Tidy (map.insertClient path client) :=
  tidy.update path (by simp)

theorem Tidy.eraseClient (tidy : map.Tidy) (path : Path) (client : ClientId) :
    Tidy (map.eraseClient path client) := by
  unfold ClientMap.eraseClient
  split
  · exact tidy.update path (by split_ifs <;> simp_all)
  · exact tidy

theorem Tidy.sweepClient (tidy : map.Tidy) (client : ClientId) :
    Tidy (map.sweepClient client) where
  noEmptySet := by
    intro path
    unfold ClientMap.sweepClient
    split
    · split_ifs <;> simp_all
    · simp
  finite := by
    refine tidy.finite.subset ?_
    intro path inUse missing
    simp [ClientMap.sweepClient, missing] at inUse

end Tidiness

end ClientMap

end DistributedFilesystem
