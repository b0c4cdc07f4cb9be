import DistributedFilesystem.ClientOperations

/-!
# Renaming at a client, and what happens at a client

`rename_file` moves the local copies and re-keys the maps of the client before
it calls the server.  With it, all calls of a client that work on files are
events of one kind.
-/

namespace DistributedFilesystem

/-- What follows `base` in a path that is `base` or lies below it. -/
def suffixBelow (base path : Path) : Option String :=
  if path = base then some ""
  else if (base ++ "/").toList.isPrefixOf path.toList then
    some (String.ofList (path.toList.drop base.length))
  else none

/-- The path that a rename moves to this one. -/
def renamedFrom (oldPath newPath path : Path) : Option Path :=
  match suffixBelow newPath path with
  | some suffix => some (oldPath ++ suffix)
  | none => if (suffixBelow oldPath path).isSome then none else some path

/-- `update_map_keys`, for paths neither of which is nested in the other. -/
def updateMapKeys {α : Type*} (oldPath newPath : Path) (map : Path → Option α) :
    Path → Option α := fun path =>
  match (suffixBelow newPath path).bind fun suffix => map (oldPath ++ suffix) with
  | some value => some value
  | none => if (suffixBelow oldPath path).isSome then none else map path

theorem suffixBelow_append (base : Path) {suffix : String}
    (isBelow : suffix = "" ∨ ∃ rest, suffix = "/" ++ rest) :
    suffixBelow base (base ++ suffix) = some suffix := by
  unfold suffixBelow
  rcases isBelow with rfl | ⟨rest, rfl⟩
  · simp
  · have longer : (base ++ "/").toList.isPrefixOf
        (base ++ ("/" ++ rest)).toList = true := by
      rw [List.isPrefixOf_iff_prefix]
      exact ⟨rest.toList, by simp⟩
    have apart : base ++ ("/" ++ rest) ≠ base := by
      intro same
      have := congrArg (List.length ∘ String.toList) same
      simp at this
    rw [if_neg apart, if_pos longer, ← String.length_toList]
    congr 1
    apply String.toList_inj.mp
    simp

theorem eq_append_of_suffixBelow {base path : Path} {suffix : String}
    (below : suffixBelow base path = some suffix) :
    path = base ++ suffix ∧ (suffix = "" ∨ ∃ rest, suffix = "/" ++ rest) := by
  unfold suffixBelow at below
  split_ifs at below with same longer
  · obtain rfl := Option.some.inj below
    exact ⟨by simp [same], .inl rfl⟩
  · obtain rfl := Option.some.inj below
    obtain ⟨rest, eq⟩ := List.isPrefixOf_iff_prefix.mp longer
    have rest_eq : path.toList.drop base.length = '/' :: rest := by
      rw [← eq, ← String.length_toList]
      simp
    constructor
    · apply String.toList_inj.mp
      rw [rest_eq]
      simp [← eq]
    · right
      refine ⟨String.ofList rest, ?_⟩
      rw [rest_eq]
      apply String.toList_inj.mp
      simp

theorem renamedFrom_injective (oldPath newPath : Path) {first second path : Path}
    (fromFirst : renamedFrom oldPath newPath first = some path)
    (fromSecond : renamedFrom oldPath newPath second = some path) :
    first = second := by
  unfold renamedFrom at fromFirst fromSecond
  cases belowFirst : suffixBelow newPath first with
  | some suffix =>
      obtain ⟨rfl, isBelow⟩ := eq_append_of_suffixBelow belowFirst
      rw [belowFirst] at fromFirst
      obtain rfl := Option.some.inj fromFirst
      cases belowSecond : suffixBelow newPath second with
      | some suffix' =>
          obtain ⟨rfl, -⟩ := eq_append_of_suffixBelow belowSecond
          rw [belowSecond] at fromSecond
          have := Option.some.inj fromSecond
          rw [(String.append_right_inj oldPath).mp this]
      | none =>
          rw [belowSecond] at fromSecond
          dsimp only at fromSecond
          split_ifs at fromSecond with moved
          obtain rfl := Option.some.inj fromSecond
          simp [suffixBelow_append oldPath isBelow] at moved
  | none =>
      rw [belowFirst] at fromFirst
      dsimp only at fromFirst
      split_ifs at fromFirst with moved
      obtain rfl := Option.some.inj fromFirst
      cases belowSecond : suffixBelow newPath second with
      | some suffix' =>
          obtain ⟨rfl, isBelow⟩ := eq_append_of_suffixBelow belowSecond
          rw [belowSecond] at fromSecond
          obtain rfl := Option.some.inj fromSecond
          simp [suffixBelow_append oldPath isBelow] at moved
      | none =>
          rw [belowSecond] at fromSecond
          dsimp only at fromSecond
          split_ifs at fromSecond
          exact (Option.some.inj fromSecond).symm

/-- `std::filesystem::rename` of a file or of a directory with everything in
it. -/
def moveTree (disk : FileStore Path Byte) (oldPath newPath : Path) :
    FileStore Path Byte :=
  disk.reindex (renamedFrom oldPath newPath)
    (renamedFrom_injective oldPath newPath)

/-- `rename_file`, for paths neither of which is nested in the other; no result
when the server's handler never returns. -/
def Client.renameFile {σ : Type*} (remote : Remote σ) (answers : LocalAnswers)
    (oldPath newPath : Path) (client : Client) (r : σ) :
    Option ((Client × σ) × Bool) :=
  if answers.directoryAt newPath = some false then some ((client, r), false)
  else
    let client := { client with disk := client.disk.remove newPath }
    let isLocal := (client.disk.node oldPath).isSome ∨
      (answers.directoryAt oldPath).isSome
    if isLocal ∧ answers.rename = false then some ((client, r), false)
    else
      let disk :=
        if isLocal then moveTree client.disk oldPath newPath else client.disk
      let client := { client with
        disk := disk
        cache := updateMapKeys oldPath newPath client.cache
        openedFiles := updateMapKeys oldPath newPath client.openedFiles
        cachedAttr := updateMapKeys oldPath newPath client.cachedAttr }
      (remote.renameCall r oldPath newPath client.clientId).map
        fun (r, status) =>
          ((client, r), status.isOk || status.code == .notFound)

/-! ## Runs of one client -/

/-- A call of one of the client's functions. -/
inductive ClientCall where
  | openFile (path : Path)
  | readFile (path : Path) (size : Nat) (offset : Int)
  | writeFile (path : Path) (data : Bytes) (position : Int)
  | createFile (path : Path)
  | closeFile (path : Path)
  | deleteFile (path : Path)
  | getAttributes (path : Path)
  | truncateFile (directory filename : Path) (size : Int)
  | renameFile (oldPath newPath : Path)

/-- What happens at a client: a call, or its subscriber thread processes a
notification. -/
inductive ClientEvent where
  | call (operation : ClientCall) (answers : LocalAnswers)
  | notified (note : Notification)

/-- The client and its server after an event. -/
def ClientEvent.step {σ : Type*} (remote : Remote σ) :
    ClientEvent → Client × σ → Option (Client × σ)
  | .notified note, (client, r) => some (client.processNotification note, r)
  | .call operation answers, (client, r) =>
      match operation with
      | .openFile path => some (client.openFile remote answers path r).1
      | .readFile path size offset => some ((client.readFile path size offset).1, r)
      | .writeFile path data position =>
          some ((client.writeFile answers path data position).1, r)
      | .createFile path => some ((client.createFile answers path).1, r)
      | .closeFile path => some (client.closeFile remote answers path r).1
      | .deleteFile path => some (client.deleteFile remote path r).1
      | .getAttributes path => some (client.getAttributes remote path r).1
      | .truncateFile directory filename size =>
          some ((client.truncateFile answers directory filename size).1, r)
      | .renameFile oldPath newPath =>
          (client.renameFile remote answers oldPath newPath r).map Prod.fst

end DistributedFilesystem
