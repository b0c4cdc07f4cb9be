import DistributedFilesystem.ByteContents
import Mathlib.Data.Option.Basic
import Mathlib.Logic.Function.Basic

/-!
# Files behind names

A store of regular files: each name in use refers to an index node, and each
index node holds contents and a modification time.  A program that opened a
file keeps the node, so it goes on reading and writing the same file when the
name is removed or moved.  The store carries the facts that no two names share
a node and that nodes yet to be handed out are unused.
-/

/-- An index node. -/
structure FileNode (α : Type*) where
  contents : List α
  modified : Int

/-- Names, the nodes they refer to, and the nodes themselves. -/
structure FileStore (Name α : Type*) where
  node : Name → Option Nat
  nodes : Nat → FileNode α
  unused : Nat
  node_lt : ∀ {name i}, node name = some i → i < unused
  node_injective : ∀ {first second i}, node first = some i →
    node second = some i → first = second

namespace FileStore

variable {Name α : Type*} (store : FileStore Name α)

/-- The store without files. -/
def empty : FileStore Name α where
  node _ := none
  nodes _ := ⟨[], 0⟩
  unused := 0
  node_lt := by simp
  node_injective := by simp

/-- The contents of the file with this name. -/
def read (name : Name) : Option (List α) :=
  (store.node name).map fun i => (store.nodes i).contents

/-- The modification time of the file with this name. -/
def modifiedAt (name : Name) : Option Int :=
  (store.node name).map fun i => (store.nodes i).modified

/-- Replace the contents of a node. -/
def setContents (i : Nat) (contents : List α) (now : Int) :
    FileStore Name α :=
  { store with nodes := Function.update store.nodes i ⟨contents, now⟩ }

/-- Write at a position of a node; writing nothing changes nothing. -/
def writeAt [Zero α] (i position : Nat) (data : List α) (now : Int) :
    FileStore Name α :=
  if data = [] then store
  else store.setContents i
    (ByteContents.overlay (store.nodes i).contents position data) now

/-- Cut the contents of a node to a size, or extend them with zeros. -/
def resize [Zero α] (i size : Nat) (now : Int) : FileStore Name α :=
  let contents := (store.nodes i).contents
  store.setContents i
    (contents.take size ++ List.replicate (size - contents.length) 0) now

section Contents

variable {store} {name other : Name} {i : Nat} {now : Int}

theorem read_isSome_iff :
    (store.read name).isSome ↔ (store.node name).isSome := by
  simp [read]

@[simp]
theorem node_setContents (contents : List α) :
    (store.setContents i contents now).node = store.node :=
  rfl

@[simp]
theorem nodes_setContents_self (contents : List α) :
    (store.setContents i contents now).nodes i = ⟨contents, now⟩ := by
  simp [setContents]

theorem nodes_setContents_ne (contents : List α) {j : Nat} (different : j ≠ i) :
    (store.setContents i contents now).nodes j = store.nodes j := by
  simp [setContents, different]

theorem read_setContents (contents : List α)
    (refers : store.node name = some i) :
    (store.setContents i contents now).read name = some contents := by
  simp [read, refers]

theorem read_setContents_ne (contents : List α)
    (refers : store.node name = some i) (different : other ≠ name) :
    (store.setContents i contents now).read other = store.read other := by
  unfold read
  rw [node_setContents]
  cases target : store.node other with
  | none => rfl
  | some j =>
      have apart : j ≠ i := by
        rintro rfl
        exact different (store.node_injective target refers)
      simp [nodes_setContents_ne contents apart]

@[simp]
theorem node_writeAt [Zero α] (position : Nat) (data : List α) :
    (store.writeAt i position data now).node = store.node := by
  unfold writeAt
  split <;> rfl

theorem contents_writeAt_self [Zero α] (position : Nat) (data : List α) :
    ((store.writeAt i position data now).nodes i).contents =
      ByteContents.overlay (store.nodes i).contents position data := by
  unfold writeAt
  split
  · next empty => simp [empty]
  · simp

theorem read_writeAt [Zero α] (position : Nat) (data : List α)
    (refers : store.node name = some i) :
    (store.writeAt i position data now).read name =
      some (ByteContents.overlay (store.nodes i).contents position data) := by
  simp [read, refers, contents_writeAt_self]

theorem read_writeAt_ne [Zero α] (position : Nat) (data : List α)
    (refers : store.node name = some i) (different : other ≠ name) :
    (store.writeAt i position data now).read other = store.read other := by
  unfold writeAt
  split
  · rfl
  · exact read_setContents_ne _ refers different

theorem read_resize [Zero α] {contents : List α} (size : Nat)
    (refers : store.node name = some i)
    (holds : store.read name = some contents) :
    (store.resize i size now).read name =
      some (contents.take size ++
        List.replicate (size - contents.length) 0) := by
  have eq : (store.nodes i).contents = contents := by
    simpa [read, refers] using holds
  rw [resize, read_setContents _ refers, eq]

theorem read_resize_ne [Zero α] (size : Nat) (refers : store.node name = some i)
    (different : other ≠ name) :
    (store.resize i size now).read other = store.read other :=
  read_setContents_ne _ refers different

/-- Writing into a node spares the files that do not refer to it. -/
theorem read_writeAt_of_node_ne [Zero α] (position : Nat) (data : List α)
    (apart : store.node name ≠ some i) :
    (store.writeAt i position data now).read name = store.read name := by
  unfold writeAt
  split
  · rfl
  unfold read
  rw [node_setContents]
  cases target : store.node name with
  | none => rfl
  | some j =>
      have different : j ≠ i := by
        rintro rfl
        exact apart target
      simp [nodes_setContents_ne _ different]

theorem nodes_writeAt_ne [Zero α] (position : Nat) (data : List α) {j : Nat}
    (different : j ≠ i) :
    (store.writeAt i position data now).nodes j = store.nodes j := by
  unfold writeAt
  split
  · rfl
  · exact nodes_setContents_ne _ different

theorem unused_writeAt [Zero α] (position : Nat) (data : List α) :
    (store.writeAt i position data now).unused = store.unused := by
  unfold writeAt
  split <;> rfl

/-- Write blocks one after the other, from a position on. -/
def writeBlocks [Zero α] (store : FileStore Name α) (i : Nat) (now : Int) :
    Nat → List (List α) → FileStore Name α
  | _, [] => store
  | position, block :: blocks =>
      writeBlocks (store.writeAt i position block now) i now
        (position + block.length) blocks

@[simp]
theorem node_writeBlocks [Zero α] (position : Nat) (blocks : List (List α)) :
    (store.writeBlocks i now position blocks).node = store.node := by
  induction blocks generalizing store position with
  | nil => rfl
  | cons block blocks ih => rw [writeBlocks, ih, node_writeAt]

theorem nodes_writeBlocks_ne [Zero α] {j : Nat} (different : j ≠ i)
    (position : Nat) (blocks : List (List α)) :
    (store.writeBlocks i now position blocks).nodes j = store.nodes j := by
  induction blocks generalizing store position with
  | nil => rfl
  | cons block blocks ih =>
      rw [writeBlocks, ih, nodes_writeAt_ne _ _ different]

theorem unused_writeBlocks [Zero α] (position : Nat) (blocks : List (List α)) :
    (store.writeBlocks i now position blocks).unused = store.unused := by
  induction blocks generalizing store position with
  | nil => rfl
  | cons block blocks ih => rw [writeBlocks, ih, unused_writeAt]

/-- Blocks written from the end of a file on are appended to it. -/
theorem read_writeBlocks [Zero α] (refers : store.node name = some i)
    (blocks : List (List α)) {contents : List α}
    (written : store.read name = some contents) :
    (store.writeBlocks i now contents.length blocks).read name =
      some (contents ++ blocks.flatten) := by
  induction blocks generalizing store contents with
  | nil => simpa [writeBlocks] using written
  | cons block blocks ih =>
      have before : (store.nodes i).contents = contents := by
        simpa [read, refers] using written
      have after : (store.writeAt i contents.length block now).read name =
          some (contents ++ block) := by
        rw [read_writeAt contents.length block refers, before,
          ByteContents.overlay_length_self]
      have refersAfter :
          (store.writeAt i contents.length block now).node name = some i := by
        simpa using refers
      rw [writeBlocks, ← List.length_append, ih refersAfter after]
      simp

/-- Two blocks that are written at the end, one after the other. -/
theorem writeAt_writeAt [Zero α] {position : Nat}
    (atEnd : (store.nodes i).contents.length = position)
    (first second : List α) :
    (store.writeAt i position first now).writeAt i (position + first.length)
        second now = store.writeAt i position (first ++ second) now := by
  subst atEnd
  have appended : (store.writeAt i (store.nodes i).contents.length first
      now).writeAt i ((store.nodes i).contents.length + first.length) second
        now =
      if second = [] then store.writeAt i (store.nodes i).contents.length first now
      else (store.writeAt i (store.nodes i).contents.length first now).setContents
        i ((store.nodes i).contents ++ first ++ second) now := by
    rw [writeAt]
    split
    · rfl
    · rw [contents_writeAt_self, ByteContents.overlay_length_self,
        ← List.length_append, ByteContents.overlay_length_self]
  rw [appended]
  by_cases noSecond : second = []
  · simp [noSecond]
  · have noBoth : first ++ second ≠ [] := by simp [noSecond]
    rw [if_neg noSecond, writeAt, writeAt, if_neg noBoth,
      ByteContents.overlay_length_self]
    split
    · next noFirst => simp [noFirst]
    · simp [setContents, List.append_assoc]

/-- Blocks that are written at the end are written in one go. -/
theorem writeBlocks_eq_writeAt [Zero α] {position : Nat}
    (atEnd : (store.nodes i).contents.length = position)
    (blocks : List (List α)) :
    store.writeBlocks i now position blocks =
      store.writeAt i position blocks.flatten now := by
  induction blocks generalizing store position with
  | nil => simp [writeBlocks, writeAt]
  | cons block blocks ih =>
      have stillAtEnd : ((store.writeAt i position block now).nodes
          i).contents.length = position + block.length := by
        rw [contents_writeAt_self, ← atEnd, ByteContents.overlay_length_self,
          List.length_append]
      rw [writeBlocks, ih stillAtEnd, writeAt_writeAt atEnd, List.flatten_cons]

theorem read_writeBlocks_ne [Zero α] (refers : store.node name = some i)
    (different : other ≠ name) (position : Nat) (blocks : List (List α)) :
    (store.writeBlocks i now position blocks).read other = store.read other := by
  induction blocks generalizing store position with
  | nil => rfl
  | cons block blocks ih =>
      rw [writeBlocks, ih (by simpa using refers)]
      exact read_writeAt_ne _ _ refers different

end Contents

variable [DecidableEq Name]

/-- A new empty file under a name. -/
def create (name : Name) (now : Int) : FileStore Name α where
  node := Function.update store.node name (some store.unused)
  nodes := Function.update store.nodes store.unused ⟨[], now⟩
  unused := store.unused + 1
  node_lt := by
    intro other i refers
    by_cases same : other = name
    · subst same
      obtain rfl : store.unused = i := by simpa using refers
      exact Nat.lt_succ_self _
    · rw [Function.update_of_ne same] at refers
      exact Nat.lt_succ_of_lt (store.node_lt refers)
  node_injective := by
    intro first second i refersFirst refersSecond
    by_cases isFirst : first = name <;> by_cases isSecond : second = name
    · rw [isFirst, isSecond]
    · subst isFirst
      rw [Function.update_of_ne isSecond] at refersSecond
      have old := store.node_lt refersSecond
      obtain rfl : store.unused = i := by simpa using refersFirst
      omega
    · subst isSecond
      rw [Function.update_of_ne isFirst] at refersFirst
      have old := store.node_lt refersFirst
      obtain rfl : store.unused = i := by simpa using refersSecond
      omega
    · rw [Function.update_of_ne isFirst] at refersFirst
      rw [Function.update_of_ne isSecond] at refersSecond
      exact store.node_injective refersFirst refersSecond

/-- Open a file for writing from scratch: truncate it, or create it. -/
def openTruncated (name : Name) (now : Int) : FileStore Name α :=
  match store.node name with
  | some i => store.setContents i [] now
  | none => store.create name now

/-- Remove a name. -/
def remove (name : Name) : FileStore Name α where
  node := Function.update store.node name none
  nodes := store.nodes
  unused := store.unused
  node_lt := by
    intro other i refers
    by_cases same : other = name
    · simp [same] at refers
    · rw [Function.update_of_ne same] at refers
      exact store.node_lt refers
  node_injective := by
    intro first second i refersFirst refersSecond
    by_cases isFirst : first = name
    · simp [isFirst] at refersFirst
    by_cases isSecond : second = name
    · simp [isSecond] at refersSecond
    rw [Function.update_of_ne isFirst] at refersFirst
    rw [Function.update_of_ne isSecond] at refersSecond
    exact store.node_injective refersFirst refersSecond

/-- Give the files new names: `source` says which old name, if any, the file
with a new name had. -/
def reindex (source : Name → Option Name)
    (injective : ∀ {first second name}, source first = some name →
      source second = some name → first = second) : FileStore Name α where
  node name := (source name).bind store.node
  nodes := store.nodes
  unused := store.unused
  node_lt := by
    intro name i refers
    obtain ⟨old, -, refersOld⟩ := Option.bind_eq_some_iff.mp refers
    exact store.node_lt refersOld
  node_injective := by
    intro first second i refersFirst refersSecond
    obtain ⟨old, sourceFirst, oldFirst⟩ := Option.bind_eq_some_iff.mp refersFirst
    obtain ⟨old', sourceSecond, oldSecond⟩ :=
      Option.bind_eq_some_iff.mp refersSecond
    obtain rfl := store.node_injective oldFirst oldSecond
    exact injective sourceFirst sourceSecond

/-- Move a name onto another one, which it replaces. -/
def rename (old new : Name) : FileStore Name α where
  node name :=
    if name = new then store.node old
    else if name = old then none else store.node name
  nodes := store.nodes
  unused := store.unused
  node_lt := by
    intro name i refers
    split_ifs at refers with isNew isOld
    · exact store.node_lt refers
    · exact store.node_lt refers
  node_injective := by
    intro first second i refersFirst refersSecond
    split_ifs at refersFirst refersSecond with firstNew secondNew secondOld
    · rw [firstNew, secondNew]
    · exact (secondOld (store.node_injective refersSecond refersFirst)).elim
    · next firstOld secondNew =>
        exact (firstOld (store.node_injective refersFirst refersSecond)).elim
    · exact store.node_injective refersFirst refersSecond

variable {store} {name other : Name} {i : Nat} {now : Int}

theorem nodes_create_of_lt {j : Nat} (old : j < store.unused) :
    (store.create name now).nodes j = store.nodes j := by
  have apart : j ≠ store.unused := by omega
  simp [create, apart]

theorem read_create : (store.create name now).read name = some [] := by
  simp [read, create]

theorem read_create_ne (different : other ≠ name) :
    (store.create name now).read other = store.read other := by
  unfold read
  have sameNode : (store.create name now).node other = store.node other := by
    simp [create, different]
  rw [sameNode]
  cases target : store.node other with
  | none => rfl
  | some j => simp [nodes_create_of_lt (store.node_lt target)]

@[simp]
theorem read_openTruncated (store : FileStore Name α) (name : Name)
    (now : Int) : (store.openTruncated name now).read name = some [] := by
  unfold openTruncated
  split
  · next i refers => exact read_setContents [] refers
  · exact read_create

@[simp]
theorem modifiedAt_openTruncated (store : FileStore Name α) (name : Name)
    (now : Int) : (store.openTruncated name now).modifiedAt name = some now := by
  unfold openTruncated modifiedAt
  split
  · next i refers => simp [refers]
  · simp [create]

theorem read_openTruncated_ne (different : other ≠ name) :
    (store.openTruncated name now).read other = store.read other := by
  unfold openTruncated
  split
  · next i refers => exact read_setContents_ne [] refers different
  · exact read_create_ne different

theorem node_openTruncated_ne (different : other ≠ name) :
    (store.openTruncated name now).node other = store.node other := by
  unfold openTruncated
  split
  · rfl
  · simp [create, different]

/-- After opening from scratch the name refers to an empty node. -/
theorem exists_node_openTruncated (store : FileStore Name α) (name : Name)
    (now : Int) :
    ∃ i, (store.openTruncated name now).node name = some i ∧
      ((store.openTruncated name now).nodes i).contents = [] := by
  have empty := read_openTruncated store name now
  unfold read at empty
  obtain ⟨i, refers, contents⟩ := Option.map_eq_some_iff.mp empty
  exact ⟨i, refers, contents⟩

/-- Open a file from scratch and write blocks into it. -/
def replace [Zero α] (store : FileStore Name α) (name : Name)
    (blocks : List (List α)) (now : Int) : FileStore Name α :=
  let opened := store.openTruncated name now
  match opened.node name with
  | some i => opened.writeBlocks i now 0 blocks
  | none => opened

@[simp]
theorem read_replace [Zero α] (store : FileStore Name α) (name : Name)
    (blocks : List (List α)) (now : Int) :
    (store.replace name blocks now).read name = some blocks.flatten := by
  obtain ⟨i, refers, -⟩ := exists_node_openTruncated store name now
  simp only [replace, refers]
  exact read_writeBlocks refers blocks (read_openTruncated _ _ _)

theorem read_replace_ne [Zero α] (different : other ≠ name)
    (blocks : List (List α)) :
    (store.replace name blocks now).read other = store.read other := by
  obtain ⟨i, refers, -⟩ := exists_node_openTruncated store name now
  simp only [replace, refers]
  rw [read_writeBlocks_ne refers different]
  exact read_openTruncated_ne different

theorem node_replace_ne [Zero α] (different : other ≠ name)
    (blocks : List (List α)) :
    (store.replace name blocks now).node other = store.node other := by
  obtain ⟨i, refers, -⟩ := exists_node_openTruncated store name now
  simp only [replace, refers, node_writeBlocks]
  exact node_openTruncated_ne different

/-- Opening a file from scratch changes no node that another name refers to. -/
theorem nodes_openTruncated_ne {j : Nat} (refers : store.node other = some j)
    (different : other ≠ name) :
    (store.openTruncated name now).nodes j = store.nodes j := by
  unfold openTruncated
  split
  · next i refersName =>
      have apart : j ≠ i := by
        rintro rfl
        exact different (store.node_injective refers refersName)
      exact nodes_setContents_ne [] apart
  · exact nodes_create_of_lt (store.node_lt refers)

theorem nodes_replace_ne [Zero α] {j : Nat} (refers : store.node other = some j)
    (different : other ≠ name) (blocks : List (List α)) :
    (store.replace name blocks now).nodes j = store.nodes j := by
  obtain ⟨i, refersName, -⟩ := exists_node_openTruncated store name now
  have refersOther : (store.openTruncated name now).node other = some j := by
    rw [node_openTruncated_ne different, refers]
  have apart : j ≠ i := by
    rintro rfl
    exact different
      ((store.openTruncated name now).node_injective refersOther refersName)
  simp only [replace, refersName]
  rw [nodes_writeBlocks_ne apart, nodes_openTruncated_ne refers different]

theorem modifiedAt_replace_ne [Zero α] (different : other ≠ name)
    (blocks : List (List α)) :
    (store.replace name blocks now).modifiedAt other =
      store.modifiedAt other := by
  unfold modifiedAt
  rw [node_replace_ne different]
  cases refers : store.node other with
  | none => rfl
  | some j => simp [nodes_replace_ne refers different]

/-- A name refers to the node it referred to before, or to one that was
unused. -/
theorem node_openTruncated_or {i : Nat}
    (refers : (store.openTruncated name now).node other = some i) :
    store.node other = some i ∨ store.unused ≤ i := by
  unfold openTruncated at refers
  split at refers
  · exact .inl refers
  · by_cases same : other = name
    · right
      have isNew : store.unused = i := by simpa [create, same] using refers
      exact Nat.le_of_eq isNew
    · left
      simpa [create, same] using refers

theorem unused_le_openTruncated (store : FileStore Name α) (name : Name)
    (now : Int) : store.unused ≤ (store.openTruncated name now).unused := by
  unfold openTruncated
  split
  · exact Nat.le_refl _
  · exact Nat.le_succ _

theorem node_replace_or [Zero α] {blocks : List (List α)} {i : Nat}
    (refers : (store.replace name blocks now).node other = some i) :
    store.node other = some i ∨ store.unused ≤ i := by
  obtain ⟨j, refersName, -⟩ := exists_node_openTruncated store name now
  simp only [replace, refersName, node_writeBlocks] at refers
  exact node_openTruncated_or refers

theorem unused_le_replace [Zero α] (store : FileStore Name α) (name : Name)
    (blocks : List (List α)) (now : Int) :
    store.unused ≤ (store.replace name blocks now).unused := by
  obtain ⟨j, refersName, -⟩ := exists_node_openTruncated store name now
  simp only [replace, refersName, unused_writeBlocks]
  exact unused_le_openTruncated store name now

@[simp]
theorem read_remove : (store.remove name).read name = none := by
  simp [read, remove]

theorem node_remove_ne (different : other ≠ name) :
    (store.remove name).node other = store.node other := by
  simp [remove, different]

theorem modifiedAt_remove_ne (different : other ≠ name) :
    (store.remove name).modifiedAt other = store.modifiedAt other := by
  simp [modifiedAt, remove, different]

theorem read_remove_ne (different : other ≠ name) :
    (store.remove name).read other = store.read other := by
  simp [read, remove, different]

theorem read_rename_ne {old new : Name} (notOld : other ≠ old)
    (notNew : other ≠ new) :
    (store.rename old new).read other = store.read other := by
  simp [read, rename, notOld, notNew]

end FileStore
