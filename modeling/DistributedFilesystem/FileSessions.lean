import DistributedFilesystem.ByteContents
import Mathlib.Data.Int.Init
import Mathlib.Data.Set.Function
import Mathlib.Logic.Function.Basic

/-!
# Files in sessions

A store of files as its users see it, without copies and messages.  Opening a
file takes what is stored into a session, reads and writes work on the session,
and closing the file stores what was written.  A store may know the same files
under other names.
-/

namespace FileSessions

/-- A file that a user has open. -/
structure Session (α : Type*) where
  contents : List α
  /-- The session was written to. -/
  modified : Bool
  /-- A read came short: there are no further reads. -/
  exhausted : Bool

/-- The files, and who has which of them open. -/
structure Store (User Name α : Type*) where
  files : Name → Option (List α)
  sessions : User → Name → Option (Session α)

/-- What a user asks of a file. -/
inductive Request (User Name α : Type*) where
  | openFile (user : User) (name : Name)
  | readFile (user : User) (name : Name) (size : Nat) (offset : Int)
  | writeFile (user : User) (name : Name) (data : List α) (position : Int)
  | closeFile (user : User) (name : Name)
  | deleteFile (user : User) (name : Name)

/-- What the user is told. -/
inductive Answer (α : Type*) where
  | done (succeeds : Bool)
  | bytes (read : Option (List α))
deriving DecidableEq

namespace Store

variable {User Name α : Type*}

/-- Nobody has a file open. -/
def closed (files : Name → Option (List α)) : Store User Name α where
  files := files
  sessions _ _ := none

/-- Change one session. -/
def setSession [DecidableEq User] [DecidableEq Name]
    (store : Store User Name α) (user : User) (name : Name)
    (session : Option (Session α)) : Store User Name α :=
  { store with
    sessions := Function.update store.sessions user
      (Function.update (store.sessions user) name session) }

/-- Change one file. -/
def setFile [DecidableEq Name] (store : Store User Name α) (name : Name)
    (file : Option (List α)) : Store User Name α :=
  { store with files := Function.update store.files name file }

section Changes

variable [DecidableEq Name] (store : Store User Name α) (name : Name)

@[simp]
theorem sessions_setFile (file : Option (List α)) :
    (store.setFile name file).sessions = store.sessions :=
  rfl

@[simp]
theorem files_setFile (file : Option (List α)) :
    (store.setFile name file).files name = file := by
  simp [setFile]

theorem files_setFile_ne (file : Option (List α)) {other : Name}
    (apart : other ≠ name) :
    (store.setFile name file).files other = store.files other := by
  simp [setFile, apart]

variable [DecidableEq User] (user : User) (session : Option (Session α))

@[simp]
theorem files_setSession :
    (store.setSession user name session).files = store.files :=
  rfl

@[simp]
theorem sessions_setSession :
    (store.setSession user name session).sessions user name = session := by
  simp [setSession]

theorem sessions_setSession_ne {other : User} {otherName : Name}
    (apart : other ≠ user ∨ otherName ≠ name) :
    (store.setSession user name session).sessions other otherName =
      store.sessions other otherName := by
  by_cases isUser : other = user
  · subst isUser
    have apart : otherName ≠ name := apart.resolve_left fun ne => ne rfl
    simp [setSession, apart]
  · simp [setSession, isUser]

@[simp]
theorem setSession_self :
    store.setSession user name (store.sessions user name) = store := by
  simp [setSession]

end Changes

end Store

section Serve

variable {User Name α : Type*} [DecidableEq User] [DecidableEq Name] [Zero α]

/-- One request. -/
def Request.serve (store : Store User Name α) :
    Request User Name α → Store User Name α × Answer α
  | .openFile user name =>
      match store.sessions user name, store.files name with
      | some _, _ => (store, .done true)
      | none, some contents =>
          (store.setSession user name (some ⟨contents, false, false⟩), .done true)
      | none, none => (store, .done false)
  | .readFile user name size offset =>
      match store.sessions user name with
      | none => (store, .bytes none)
      | some session =>
          let exhaust :=
            store.setSession user name (some { session with exhausted := true })
          if session.exhausted ∨ offset < 0 then (exhaust, .bytes none)
          else
            let read := (session.contents.drop offset.toNat).take size
            (if read.length < size then exhaust else store, .bytes (some read))
  | .writeFile user name data position =>
      match store.sessions user name with
      | none => (store, .done false)
      | some session =>
          if position < 0 then (store, .done false)
          else
            let contents :=
              ByteContents.overlay session.contents position.toNat data
            (store.setSession user name
              (some { session with contents := contents, modified := true }),
              .done true)
  | .closeFile user name =>
      match store.sessions user name with
      | none => (store, .done false)
      | some session =>
          let stored :=
            if session.modified then store.setFile name (some session.contents)
            else store
          (stored.setSession user name none, .done true)
  | .deleteFile user name =>
      ((store.setFile name none).setSession user name none,
        .done (store.files name).isSome)

/-- Requests, one after the other. -/
def Store.serve (store : Store User Name α) :
    List (Request User Name α) → Store User Name α × List (Answer α)
  | [] => (store, [])
  | request :: requests =>
      let (store, answer) := request.serve store
      let (store, answers) := store.serve requests
      (store, answer :: answers)

/-- The second part of the requests finds the store as the first part left it. -/
theorem serve_append (store : Store User Name α)
    (first second : List (Request User Name α)) :
    store.serve (first ++ second) =
      (((store.serve first).1.serve second).1,
        (store.serve first).2 ++ ((store.serve first).1.serve second).2) := by
  induction first generalizing store with
  | nil => rfl
  | cons request first ih => simp [Store.serve, ih]

end Serve

section Names

variable {User Name Name' α : Type*}

namespace Request

/-- The name of the file. -/
def name : Request User Name α → Name
  | .openFile _ name | .readFile _ name _ _ | .writeFile _ name _ _
  | .closeFile _ name | .deleteFile _ name => name

/-- The request, with another name for the file. -/
def rename (newName : Name → Name') :
    Request User Name α → Request User Name' α
  | .openFile user name => .openFile user (newName name)
  | .readFile user name size offset =>
      .readFile user (newName name) size offset
  | .writeFile user name data position =>
      .writeFile user (newName name) data position
  | .closeFile user name => .closeFile user (newName name)
  | .deleteFile user name => .deleteFile user (newName name)

end Request

/-- The second store has the files with these names under the new names. -/
structure Store.RenamedTo (newName : Name → Name') (names : Set Name)
    (store : Store User Name α) (renamed : Store User Name' α) : Prop where
  files : ∀ name ∈ names, renamed.files (newName name) = store.files name
  sessions : ∀ user, ∀ name ∈ names,
    renamed.sessions user (newName name) = store.sessions user name

variable {newName : Name → Name'} {names : Set Name} {name : Name}
variable {store : Store User Name α} {renamed : Store User Name' α}
variable [DecidableEq Name] [DecidableEq Name']

theorem renamedTo_setFile (injective : Set.InjOn newName names)
    (isRenamed : store.RenamedTo newName names renamed) (isName : name ∈ names)
    (file : Option (List α)) :
    (store.setFile name file).RenamedTo newName names
      (renamed.setFile (newName name) file) where
  files other isOther := by
    by_cases same : other = name
    · rw [same, Store.files_setFile, Store.files_setFile]
    · have apart : newName other ≠ newName name := by
        intro sameNew
        exact same (injective isOther isName sameNew)
      rw [Store.files_setFile_ne _ _ _ same, Store.files_setFile_ne _ _ _ apart,
        isRenamed.files other isOther]
  sessions := isRenamed.sessions

variable [DecidableEq User]

theorem renamedTo_setSession (injective : Set.InjOn newName names)
    (isRenamed : store.RenamedTo newName names renamed) (isName : name ∈ names)
    (user : User) (session : Option (Session α)) :
    (store.setSession user name session).RenamedTo newName names
      (renamed.setSession user (newName name) session) where
  files := isRenamed.files
  sessions other otherName isOther := by
    by_cases same : other = user ∧ otherName = name
    · rw [same.1, same.2, Store.sessions_setSession, Store.sessions_setSession]
    · have apart : other ≠ user ∨ otherName ≠ name := by tauto
      have apartNew : other ≠ user ∨ newName otherName ≠ newName name := by
        refine apart.imp_right fun apartName sameNew => apartName ?_
        exact injective isOther isName sameNew
      rw [Store.sessions_setSession_ne _ _ _ _ apart,
        Store.sessions_setSession_ne _ _ _ _ apartNew,
        isRenamed.sessions other otherName isOther]

variable [Zero α]

/-- The answers do not depend on the names. -/
theorem renamedTo_serve (injective : Set.InjOn newName names)
    (isRenamed : store.RenamedTo newName names renamed)
    {request : Request User Name α} (isName : request.name ∈ names) :
    (request.serve store).1.RenamedTo newName names
        ((request.rename newName).serve renamed).1 ∧
      ((request.rename newName).serve renamed).2 = (request.serve store).2 := by
  have setSession := renamedTo_setSession injective isRenamed isName
  cases request with
  | openFile user name =>
      simp only [Request.serve, Request.rename,
        isRenamed.sessions user name isName, isRenamed.files name isName]
      split
      · exact ⟨isRenamed, rfl⟩
      · exact ⟨setSession .., rfl⟩
      · exact ⟨isRenamed, rfl⟩
  | readFile user name size offset =>
      simp only [Request.serve, Request.rename,
        isRenamed.sessions user name isName]
      split
      · exact ⟨isRenamed, rfl⟩
      · split
        · exact ⟨setSession .., rfl⟩
        · split
          · exact ⟨setSession .., rfl⟩
          · exact ⟨isRenamed, rfl⟩
  | writeFile user name data position =>
      simp only [Request.serve, Request.rename,
        isRenamed.sessions user name isName]
      split
      · exact ⟨isRenamed, rfl⟩
      · split
        · exact ⟨isRenamed, rfl⟩
        · exact ⟨setSession .., rfl⟩
  | closeFile user name =>
      simp only [Request.serve, Request.rename,
        isRenamed.sessions user name isName]
      split
      · exact ⟨isRenamed, rfl⟩
      · split
        · next session _ _ =>
            have stored := renamedTo_setFile injective isRenamed isName
              (some session.contents)
            exact ⟨renamedTo_setSession injective stored isName user none, rfl⟩
        · exact ⟨setSession .., rfl⟩
  | deleteFile user name =>
      simp only [Request.serve, Request.rename, isRenamed.files name isName]
      have removed := renamedTo_setFile injective isRenamed isName none
      exact ⟨renamedTo_setSession injective removed isName user none, trivial⟩

end Names

end FileSessions
