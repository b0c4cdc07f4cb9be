import DistributedFilesystem.FailedRenames

/-!
# Renames that do not end

`update_map_keys` may meet an entry again that it has moved ahead of its
iterator.  Where the new path lies strictly inside the old one, an entry that
sorts before its new key is met again, has then a longer key, and sorts before
its next key for the same reason: the loop does not end.
-/

namespace DistributedFilesystem

section Runaways

variable {oldKey newKey key moved : String}

/-- Strings with a common beginning are ordered as their rests are. -/
theorem append_lt_append_left_iff (front first second : String) :
    front ++ first < front ++ second ↔ first < second := by
  simp only [String.lt_iff_toList_lt, String.toList_append]
  induction front.toList with
  | nil => rfl
  | cons head tail ih =>
      rw [List.cons_append, List.cons_append, List.cons_lt_cons_iff, ih]
      simp

/-- The new key lies strictly inside the old one, and the loop moves this key
ahead of itself. -/
def RunsAway (oldKey newKey key : String) : Prop :=
  (suffixBelow oldKey newKey).isSome ∧
    ∃ moved, rekeyedTo oldKey newKey key = some moved ∧ key < moved

theorem length_rekeyedTo (moves : rekeyedTo oldKey newKey key = some moved) :
    moved.length + oldKey.length = key.length + newKey.length := by
  obtain ⟨suffix, below, rfl⟩ := Option.map_eq_some_iff.mp moves
  obtain ⟨rfl, -⟩ := eq_append_of_suffixBelow below
  simp only [String.length_append]
  omega

/-- A key that runs away is moved to a key that runs away. -/
theorem exists_runsAway (runsAway : RunsAway oldKey newKey key) :
    ∃ moved, rekeyedTo oldKey newKey key = some moved ∧ key < moved ∧
      RunsAway oldKey newKey moved := by
  obtain ⟨nested, moved, moves, ahead⟩ := runsAway
  obtain ⟨inner, inside⟩ := Option.isSome_iff_exists.mp nested
  obtain ⟨newKey_eq, innerBelow⟩ := eq_append_of_suffixBelow inside
  obtain ⟨suffix, below, rfl⟩ := Option.map_eq_some_iff.mp moves
  obtain ⟨rfl, suffixBelow'⟩ := eq_append_of_suffixBelow below
  refine ⟨newKey ++ suffix, moves, ahead, nested, newKey ++ (inner ++ suffix),
    ?_, ?_⟩
  · have isBelow : inner ++ suffix = "" ∨ ∃ rest, inner ++ suffix = "/" ++ rest := by
      rcases innerBelow with rfl | ⟨rest, rfl⟩
      · simpa using suffixBelow'
      · exact .inr ⟨rest ++ suffix, String.append_assoc ..⟩
    have again : newKey ++ suffix = oldKey ++ (inner ++ suffix) := by
      rw [newKey_eq, String.append_assoc]
    rw [again, rekeyedTo, suffixBelow_append oldKey isBelow]
    rfl
  · rw [append_lt_append_left_iff]
    rwa [newKey_eq, String.append_assoc, append_lt_append_left_iff] at ahead

/-- A path below the new key that is not shorter than the old one lies below
the old one only if the new key does. -/
theorem isSome_suffixBelow_of_moved (notShorter : oldKey.length ≤ newKey.length)
    (moves : rekeyedTo oldKey newKey key = some moved)
    (again : (suffixBelow oldKey moved).isSome) :
    (suffixBelow oldKey newKey).isSome := by
  obtain ⟨suffix, below, rfl⟩ := Option.map_eq_some_iff.mp moves
  obtain ⟨-, isBelow⟩ := eq_append_of_suffixBelow below
  obtain ⟨rest, belowAgain⟩ := Option.isSome_iff_exists.mp again
  obtain ⟨twice, restBelow⟩ := eq_append_of_suffixBelow belowAgain
  have lists : newKey.toList ++ suffix.toList = oldKey.toList ++ rest.toList := by
    rw [← String.toList_append, ← String.toList_append, twice]
  rcases List.append_eq_append_iff.mp lists with
    ⟨between, leads, begins⟩ | ⟨between, leads, begins⟩
  · have lengths := congrArg List.length leads
    rw [List.length_append, String.length_toList, String.length_toList] at lengths
    have nothing : between = [] := List.eq_nil_of_length_eq_zero (by omega)
    have same : oldKey = newKey :=
      String.toList_inj.mp (by rw [leads, nothing, List.append_nil])
    rw [same, suffixBelow_self]
    rfl
  · exact isSome_suffixBelow_of_prefix leads begins restBelow

end Runaways

section Endings

variable {oldKey newKey : String} {α : Type*} {map : OrderedMap String α}

/-- Where the new key is not inside the old one, every entry that is moved gets
lighter. -/
theorem exists_rekeys_of_outside (outside : suffixBelow oldKey newKey = none) :
    ∃ final, map.Rekeys (rekeyedTo oldKey newKey) final := by
  rcases lt_or_ge newKey.length oldKey.length with shorter | notShorter
  · refine OrderedMap.exists_rekeys_of_lighter (fun _ => True) String.length
      ?_ (fun _ _ => trivial)
    intro key moved _ moves
    have lengths := length_rekeyedTo moves
    exact .inr ⟨trivial, by omega⟩
  · refine OrderedMap.exists_rekeys_of_lighter (fun _ => True)
      (fun key => if (suffixBelow oldKey key).isSome then 1 else 0)
      ?_ (fun _ _ => trivial)
    intro key moved _ moves
    have isBelow : (suffixBelow oldKey key).isSome := by
      obtain ⟨suffix, below, -⟩ := Option.map_eq_some_iff.mp moves
      simp [below]
    have notAgain : ¬ (suffixBelow oldKey moved).isSome := by
      intro again
      have nested := isSome_suffixBelow_of_moved notShorter moves again
      simp [outside] at nested
    exact .inr ⟨trivial, by simp [isBelow, notAgain]⟩

/-- The loop over one map ends if and only if no key runs away. -/
theorem exists_rekeys_iff :
    (∃ final, map.Rekeys (rekeyedTo oldKey newKey) final) ↔
      ∀ key ∈ map.keys, ¬ RunsAway oldKey newKey key := by
  constructor
  · rintro ⟨final, rekeys⟩ key isKey runsAway
    exact OrderedMap.not_rekeys_of_growing exists_runsAway runsAway isKey final
      rekeys
  · intro noneRunsAway
    cases inside : suffixBelow oldKey newKey with
    | none => exact exists_rekeys_of_outside inside
    | some inner =>
        refine OrderedMap.exists_rekeys_of_lighter
          (fun key => ¬ RunsAway oldKey newKey key) (fun _ => 0) ?_ noneRunsAway
        intro key moved stays moves
        left
        by_contra ahead
        exact stays ⟨by simp [inside], moved, moves, not_le.mp ahead⟩

end Endings

/-- No key of a map runs away: those of `cache` and of `opened_files` are local
paths, those of `cached_attr` paths on the server. -/
structure KeyedMaps.NoneRunsAway (keys : RenameKeys) (maps : KeyedMaps) :
    Prop where
  cache : ∀ key ∈ maps.cache.keys,
    ¬ RunsAway keys.source.fileLocation keys.target.fileLocation key
  openedFiles : ∀ key ∈ maps.openedFiles.keys,
    ¬ RunsAway keys.source.fileLocation keys.target.fileLocation key
  cachedAttr : ∀ key ∈ maps.cachedAttr.keys,
    ¬ RunsAway keys.source.fileLocaServer keys.target.fileLocaServer key

/-- What the loops leave when they have ended within so many turns. -/
theorem KeyedMaps.rekeyed_of_rekey {maps final : KeyedMaps} {keys : RenameKeys}
    {turns : Nat} (ends : maps.rekey turns keys = some final) :
    maps.Rekeyed keys final := by
  unfold KeyedMaps.rekey at ends
  dsimp only at ends
  split at ends
  · next cache openedFiles cachedAttr cacheEnds openedEnds attrEnds =>
      obtain rfl := Option.some.inj ends
      exact
        { cache := OrderedMap.rekeys_of_rekey cacheEnds
          openedFiles := OrderedMap.rekeys_of_rekey openedEnds
          cachedAttr := OrderedMap.rekeys_of_rekey attrEnds }
  · simp at ends

namespace RenamingClient

variable {σ : Type*} {remote : Remote σ} {answers : RenamingAnswers}
variable {keys : RenameKeys} {client : RenamingClient} {r : σ}

/-- The target is not refused and the local steps succeed, so that `rename_file`
locks `cache_mutex` and enters its loops. -/
def ReachesLoops (answers : RenamingAnswers) (keys : RenameKeys)
    (client : RenamingClient) : Prop :=
  ¬ client.TargetRefused keys ∧ ∃ cleared moved,
    makeWay answers (pathNames keys.target.fileLocation) client.tree =
        some cleared ∧
      moveLocally answers (pathNames keys.source.fileLocation)
        (pathNames keys.target.fileLocation) cleared = some moved

/-- A rename that enters loops that do not end does not return. -/
theorem renameKeys_eq_none_of_endless (reaches : client.ReachesLoops answers keys)
    (endless : ¬ ∃ final, client.maps.Rekeyed keys final) :
    client.renameKeys remote answers keys r = none := by
  obtain ⟨notRefused, cleared, moved, made, moves⟩ := reaches
  have noEnd : client.maps.rekey answers.turns keys = none := by
    by_contra ends
    obtain ⟨final, rekeyed⟩ := Option.ne_none_iff_exists'.mp ends
    exact endless ⟨final, KeyedMaps.rekeyed_of_rekey rekeyed⟩
  unfold TargetRefused at notRefused
  simp only [renameKeys, notRefused, if_false, made, moves, noEnd]

end RenamingClient

/-- The three loops of `rename_file` end if and only if no key runs away. -/
theorem rekeying_ends_iff (mount : Mount)
    (fromName toName oldPath newPath : String) (client : RenamingClient) :
    (∃ final, client.maps.Rekeyed
        (mount.renameFileKeys fromName toName oldPath newPath) final) ↔
      client.maps.NoneRunsAway
        (mount.renameFileKeys fromName toName oldPath newPath) := by
  constructor
  · rintro ⟨final, rekeyed⟩
    exact
      { cache := exists_rekeys_iff.mp ⟨_, rekeyed.cache⟩
        openedFiles := exists_rekeys_iff.mp ⟨_, rekeyed.openedFiles⟩
        cachedAttr := exists_rekeys_iff.mp ⟨_, rekeyed.cachedAttr⟩ }
  · intro noneRunsAway
    obtain ⟨cache, cacheEnds⟩ := exists_rekeys_iff.mpr noneRunsAway.cache
    obtain ⟨openedFiles, openedEnds⟩ :=
      exists_rekeys_iff.mpr noneRunsAway.openedFiles
    obtain ⟨cachedAttr, attrEnds⟩ :=
      exists_rekeys_iff.mpr noneRunsAway.cachedAttr
    exact ⟨⟨cache, openedFiles, cachedAttr⟩, cacheEnds, openedEnds, attrEnds⟩

private def mountedAtCache : Mount where
  serverRootPath := "/srv"
  cacheDirectory := "/cache"

/-- A client that has asked for the attributes of `a`, and has nothing of it on
its disk. -/
private def statedA : RenamingClient where
  clientId := "reader"
  maps :=
    { cache := .empty
      openedFiles := .empty
      cachedAttr := OrderedMap.empty.assign "/srv/a" ⟨0, 1, 1, 1⟩ }
  tree := .empty

/-- The file is renamed into itself: nothing is refused, and whatever the
server would answer, and however long the loop goes on, `rename_file` does not
return. -/
theorem rename_into_itself_never_returns :
    statedA.ReachesLoops ⟨true, true, 0⟩
        (mountedAtCache.renameFileKeys "a" "b" "/" "/a") ∧
      (¬ ∃ final, statedA.maps.Rekeyed
        (mountedAtCache.renameFileKeys "a" "b" "/" "/a") final) ∧
      ∀ turns server, statedA.renameFile Remote.direct ⟨true, true, turns⟩
        mountedAtCache "a" "b" "/" "/a" server = none := by
  have endless : ¬ ∃ final, statedA.maps.Rekeyed
      (mountedAtCache.renameFileKeys "a" "b" "/" "/a") final := by
    rintro ⟨final, rekeyed⟩
    have runsAway : RunsAway "/srv/a" "/srv/a/b" "/srv/a" :=
      ⟨by decide, "/srv/a/b", by decide, by decide⟩
    exact OrderedMap.not_rekeys_of_growing exists_runsAway runsAway
      (by decide) _ rekeyed.cachedAttr
  have reaches : ∀ turns, statedA.ReachesLoops ⟨true, true, turns⟩
      (mountedAtCache.renameFileKeys "a" "b" "/" "/a") := by
    intro turns
    refine ⟨?_, statedA.tree, statedA.tree, rfl, rfl⟩
    rintro ⟨isDirectory, -⟩
    exact absurd isDirectory (by decide)
  refine ⟨reaches 0, endless, ?_⟩
  intro turns server
  exact RenamingClient.renameKeys_eq_none_of_endless (reaches turns) endless

end DistributedFilesystem
