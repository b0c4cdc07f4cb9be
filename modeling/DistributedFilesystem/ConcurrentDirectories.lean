import DistributedFilesystem.DirectoryHandlers
import DistributedFilesystem.TransitionRuns

/-!
# Directories made at the same time

Any number of `mkdir` handlers at once.  A handler asks whether there is
something at its path, then looks at it or makes a directory, and then sets the
permissions of that; anything can happen in other handlers between these
sections.  The handlers agree on who made which directory, and none of them
answers what was never the case.
-/

namespace DistributedFilesystem

open TransitionRuns

/-- Which section a `mkdir` handler has reached. -/
inductive MkdirPhase where
  | checking
  /-- `exists` returned true. -/
  | found
  /-- `exists` returned false. -/
  | creating
  /-- `create_directory` returned true. -/
  | made
  /-- The handler has returned, and it made the directory or did not. -/
  | answered (isMade : Bool) (status : Status)

/-- The handler made its directory. -/
def MkdirPhase.HasMade : MkdirPhase → Prop
  | .made | .answered true _ => True
  | _ => False

/-- A `mkdir` handler. -/
structure MkdirThread where
  directory : Path
  phase : MkdirPhase

/-- The next section of a handler, if it has not returned. -/
def MkdirThread.advance (answers : MkdirAnswers) :
    FileTree (List Char) Nat × MkdirThread →
      Option (FileTree (List Char) Nat × MkdirThread)
  | (tree, ⟨directory, .checking⟩) =>
      match filesystemExists answers.maySearch tree directory with
      | none => some (tree, ⟨directory, .answered false ⟨.unknown, answers.what⟩⟩)
      | some true => some (tree, ⟨directory, .found⟩)
      | some false => some (tree, ⟨directory, .creating⟩)
  | (tree, ⟨directory, .found⟩) =>
      -- `is_directory` throws where `exists` does.
      match filesystemExists answers.maySearch tree directory with
      | none => some (tree, ⟨directory, .answered false ⟨.unknown, answers.what⟩⟩)
      | some _ => some (tree,
          ⟨directory, .answered false (mkdirFound tree (pathNames directory))⟩)
  | (tree, ⟨directory, .creating⟩) =>
      let names := pathNames directory
      let (tree, making) :=
        tree.makeDirectory answers.maySearch answers.mayWrite names
      match making with
      | .made => some (tree, ⟨directory, .made⟩)
      | _ => some (tree,
          ⟨directory, .answered false (mkdirFailed answers tree names making)⟩)
  | (tree, ⟨directory, .made⟩) =>
      some (tree, ⟨directory, .answered true (mkdirMade answers)⟩)
  | (_, ⟨_, .answered _ _⟩) => none

/-- A handler that runs alone does what the function does in one go. -/
theorem mkdirHandler_of_advances (answers : MkdirAnswers) (s : TreeServer)
    (directory : Path) :
    ∃ n isMade, run (fun _ => MkdirThread.advance answers) (List.replicate n ())
        (s.tree, ⟨directory, .checking⟩) =
      some ((s.mkdirHandler answers directory).1.tree,
        ⟨directory, .answered isMade (s.mkdirHandler answers directory).2⟩) := by
  unfold TreeServer.mkdirHandler
  cases found : filesystemExists answers.maySearch s.tree directory with
  | none => exact ⟨1, false, by simp [run, MkdirThread.advance, found]⟩
  | some present =>
      cases present with
      | true => exact ⟨2, false, by simp [run, MkdirThread.advance, found]⟩
      | false =>
          cases making : s.tree.making answers.maySearch answers.mayWrite
              (pathNames directory) with
          | made =>
              exact ⟨3, true, by simp [run, MkdirThread.advance, found, making]⟩
          | inUse =>
              exact ⟨2, false, by simp [run, MkdirThread.advance, found, making]⟩
          | missing =>
              exact ⟨2, false, by simp [run, MkdirThread.advance, found, making]⟩
          | refused error =>
              exact ⟨2, false, by simp [run, MkdirThread.advance, found, making]⟩

/-- The tree of a server and its `mkdir` handlers. -/
structure MkdirSystem where
  tree : FileTree (List Char) Nat
  threads : Nat → Option MkdirThread

/-- What happens: a handler is called, or goes on. -/
inductive MkdirEvent where
  | request (thread : Nat) (directory : Path)
  | advance (thread : Nat) (answers : MkdirAnswers)

/-- One event. -/
def MkdirEvent.step : MkdirEvent → MkdirSystem → Option MkdirSystem
  | .request thread directory, σ =>
      match σ.threads thread with
      | none =>
          some { σ with
            threads := Function.update σ.threads thread
              (some ⟨directory, .checking⟩) }
      | some _ => none
  | .advance thread answers, σ =>
      (σ.threads thread).bind fun handler =>
        (MkdirThread.advance answers (σ.tree, handler)).map fun (tree, handler) =>
          ⟨tree, Function.update σ.threads thread (some handler)⟩

section Sections

variable {initial tree tree' : FileTree (List Char) Nat}
variable {handler handler' : MkdirThread} {answers : MkdirAnswers}

/-- Nothing that was there has changed. -/
def GrowsTo (tree tree' : FileTree (List Char) Nat) : Prop :=
  ∀ path, tree.entry path ≠ none → tree'.entry path = tree.entry path

/-- What a handler that has reached this section relies on, or has answered, is
the case, and stays so while the tree grows. -/
def MkdirPhase.Sound (initial tree : FileTree (List Char) Nat)
    (names : List (List Char)) : MkdirPhase → Prop
  | .checking => True
  | .found => tree.entry names ≠ none
  | .creating => initial.entry names = none
  | .made => initial.entry names = none ∧ tree.entry names = some .directory
  | .answered true status =>
      initial.entry names = none ∧ tree.entry names = some .directory ∧
        (status.code = .ok ∨ status.code = .internal)
  | .answered false status =>
      (status.isOk = true → tree.entry names = some .directory) ∧
      (status.code = .permissionDenied →
        initial.entry names = none ∧ tree.entry names = some .directory) ∧
      (status.code = .invalidArgument →
        ∃ file, tree.entry names = some (.file file))

theorem MkdirPhase.sound_of_growsTo {phase : MkdirPhase}
    {names : List (List Char)} (grows : GrowsTo tree tree')
    (sound : phase.Sound initial tree names) :
    phase.Sound initial tree' names := by
  have kept : ∀ {entry}, tree.entry names = some entry →
      tree'.entry names = some entry := by
    intro entry here
    rw [grows names (by simp [here]), here]
  cases phase with
  | checking => trivial
  | found =>
      obtain ⟨entry, here⟩ := Option.ne_none_iff_exists'.mp sound
      simp [MkdirPhase.Sound, kept here]
  | creating => exact sound
  | made => exact ⟨sound.1, kept sound.2⟩
  | answered isMade status =>
      cases isMade with
      | true => exact ⟨sound.1, kept sound.2.1, sound.2.2⟩
      | false =>
          obtain ⟨ok, denied, invalid⟩ := sound
          refine ⟨fun isOk => kept (ok isOk), fun isDenied => ?_,
            fun isInvalid => ?_⟩
          · exact ⟨(denied isDenied).1, kept (denied isDenied).2⟩
          · obtain ⟨file, here⟩ := invalid isInvalid
            exact ⟨file, kept here⟩

/-- What one section of a handler does. -/
structure MkdirEffect (tree tree' : FileTree (List Char) Nat)
    (handler handler' : MkdirThread) : Prop where
  directory : handler'.directory = handler.directory
  grows : GrowsTo tree tree'
  keepsMade : handler.phase.HasMade → handler'.phase.HasMade
  makes : ∀ path, tree.entry path = none → tree'.entry path ≠ none →
    path = pathNames handler.directory ∧ handler'.phase.HasMade
  madeNow : handler'.phase.HasMade → handler.phase.HasMade ∨
    tree.entry (pathNames handler.directory) = none

/-- A section that leaves the tree alone and does not make the directory. -/
theorem mkdirEffect_of_same {phase phase' : MkdirPhase} {directory : Path}
    (made : phase'.HasMade ↔ phase.HasMade) :
    MkdirEffect tree tree ⟨directory, phase⟩ ⟨directory, phase'⟩ where
  directory := rfl
  grows _ _ := rfl
  keepsMade := made.mpr
  makes _ missing inUse := absurd missing inUse
  madeNow hasMade := .inl (made.mp hasMade)

theorem mkdirEffect_of_advance
    (advances : MkdirThread.advance answers (tree, handler) =
      some (tree', handler')) : MkdirEffect tree tree' handler handler' := by
  obtain ⟨directory, phase⟩ := handler
  cases phase with
  | checking =>
      simp only [MkdirThread.advance] at advances
      split at advances
      all_goals
        obtain ⟨rfl, rfl⟩ := Prod.mk.inj (Option.some.inj advances)
        exact mkdirEffect_of_same Iff.rfl
  | found =>
      simp only [MkdirThread.advance] at advances
      split at advances
      all_goals
        obtain ⟨rfl, rfl⟩ := Prod.mk.inj (Option.some.inj advances)
        exact mkdirEffect_of_same Iff.rfl
  | creating =>
      by_cases made : tree.making answers.maySearch answers.mayWrite
          (pathNames directory) = .made
      · simp only [MkdirThread.advance, FileTree.makeDirectory_snd, made]
          at advances
        obtain ⟨rfl, rfl⟩ := Prod.mk.inj (Option.some.inj advances)
        have vacant := (FileTree.making_eq_made_iff.mp made).2.1
        constructor
        case directory => rfl
        case grows =>
          exact fun path inUse => FileTree.entry_makeDirectory_of_inUse inUse
        case keepsMade => exact fun _ => trivial
        case makes =>
          intro path missing inUse
          refine ⟨?_, trivial⟩
          by_contra apart
          rw [FileTree.entry_makeDirectory made, Function.update_of_ne apart]
            at inUse
          exact inUse missing
        case madeNow => exact fun _ => .inr vacant
      · simp only [MkdirThread.advance, FileTree.makeDirectory_snd,
          FileTree.makeDirectory_fst_of_ne made] at advances
        obtain ⟨rfl, rfl⟩ := Prod.mk.inj (Option.some.inj advances)
        exact mkdirEffect_of_same Iff.rfl
  | made =>
      obtain ⟨rfl, rfl⟩ := Prod.mk.inj (Option.some.inj advances)
      exact mkdirEffect_of_same Iff.rfl
  | answered isMade status => simp [MkdirThread.advance] at advances

/-- What `mkdir` answers when it found something. -/
theorem sound_mkdirFound {names : List (List Char)}
    (inUse : tree.entry names ≠ none) :
    (MkdirPhase.answered false (mkdirFound tree names)).Sound initial tree
      names := by
  obtain ⟨entry, here⟩ := Option.ne_none_iff_exists'.mp inUse
  unfold mkdirFound
  cases entry with
  | directory => simp [MkdirPhase.Sound, here, Status.OK]
  | file file => simp [MkdirPhase.Sound, here, Status.isOk]

/-- What `mkdir` answers when it failed to make the directory. -/
theorem sound_mkdirFailed {names : List (List Char)}
    (vacant : initial.entry names = none) (making : Making) :
    (MkdirPhase.answered false (mkdirFailed answers tree names making)).Sound
      initial tree names := by
  unfold mkdirFailed
  split
  · next inUse => simp [MkdirPhase.Sound, Status.isOk, vacant, inUse.2]
  · simp [MkdirPhase.Sound, Status.isOk]

/-- A section keeps what its handler relies on. -/
theorem sound_of_advance (grew : GrowsTo initial tree)
    (sound : handler.phase.Sound initial tree (pathNames handler.directory))
    (advances : MkdirThread.advance answers (tree, handler) =
      some (tree', handler')) :
    handler'.phase.Sound initial tree' (pathNames handler.directory) := by
  obtain ⟨directory, phase⟩ := handler
  have throws : (MkdirPhase.answered false ⟨.unknown, answers.what⟩).Sound
      initial tree (pathNames directory) := by
    simp [MkdirPhase.Sound, Status.isOk]
  cases phase with
  | checking =>
      simp only [MkdirThread.advance] at advances
      split at advances
      · obtain ⟨rfl, rfl⟩ := Prod.mk.inj (Option.some.inj advances)
        exact throws
      · next present =>
          obtain ⟨rfl, rfl⟩ := Prod.mk.inj (Option.some.inj advances)
          exact (filesystemExists_eq_true_iff.mp present).2
      · next absent =>
          obtain ⟨rfl, rfl⟩ := Prod.mk.inj (Option.some.inj advances)
          by_contra inUse
          have missing := entry_of_filesystemExists absent
          exact inUse ((grew _ inUse).symm.trans missing)
  | found =>
      simp only [MkdirThread.advance] at advances
      split at advances
      · obtain ⟨rfl, rfl⟩ := Prod.mk.inj (Option.some.inj advances)
        exact throws
      · obtain ⟨rfl, rfl⟩ := Prod.mk.inj (Option.some.inj advances)
        exact sound_mkdirFound sound
  | creating =>
      by_cases made : tree.making answers.maySearch answers.mayWrite
          (pathNames directory) = .made
      · simp only [MkdirThread.advance, FileTree.makeDirectory_snd, made]
          at advances
        obtain ⟨rfl, rfl⟩ := Prod.mk.inj (Option.some.inj advances)
        refine ⟨sound, ?_⟩
        rw [FileTree.entry_makeDirectory made, Function.update_self]
      · simp only [MkdirThread.advance, FileTree.makeDirectory_snd,
          FileTree.makeDirectory_fst_of_ne made] at advances
        obtain ⟨rfl, rfl⟩ := Prod.mk.inj (Option.some.inj advances)
        exact sound_mkdirFailed sound _
  | made =>
      obtain ⟨rfl, rfl⟩ := Prod.mk.inj (Option.some.inj advances)
      refine ⟨sound.1, sound.2, ?_⟩
      unfold mkdirMade
      split
      · exact .inl rfl
      · exact .inr rfl
  | answered isMade status => simp [MkdirThread.advance] at advances

end Sections

section Runs

variable {initial : FileTree (List Char) Nat} {σ σ' : MkdirSystem}

/-- The handler of this thread has made the directory with these names. -/
def MkdirSystem.MadeBy (σ : MkdirSystem) (names : List (List Char))
    (thread : Nat) : Prop :=
  ∃ handler, σ.threads thread = some handler ∧ handler.phase.HasMade ∧
    pathNames handler.directory = names

/-- The handlers agree on what has happened to the tree. -/
structure MkdirsAgree (initial : FileTree (List Char) Nat) (σ : MkdirSystem) :
    Prop where
  grew : GrowsTo initial σ.tree
  made : ∀ names, initial.entry names = none → σ.tree.entry names ≠ none →
    ∃ thread, σ.MadeBy names thread
  sound : ∀ thread handler, σ.threads thread = some handler →
    handler.phase.Sound initial σ.tree (pathNames handler.directory)
  unique : ∀ names first second, σ.MadeBy names first → σ.MadeBy names second →
    first = second

/-- A directory that a handler made was not there at first, and is there. -/
theorem entry_of_madeBy {names : List (List Char)} {thread : Nat}
    (agree : MkdirsAgree initial σ) (made : σ.MadeBy names thread) :
    initial.entry names = none ∧ σ.tree.entry names = some .directory := by
  obtain ⟨⟨directory, phase⟩, isHandler, hasMade, rfl⟩ := made
  have sound := agree.sound thread _ isHandler
  cases phase with
  | checking => exact hasMade.elim
  | found => exact hasMade.elim
  | creating => exact hasMade.elim
  | made => exact sound
  | answered isMade status =>
      cases isMade with
      | false => exact hasMade.elim
      | true => exact ⟨sound.1, sound.2.1⟩

theorem mkdirsAgree_of_request {thread : Nat} {directory : Path}
    (agree : MkdirsAgree initial σ)
    (steps : (MkdirEvent.request thread directory).step σ = some σ') :
    MkdirsAgree initial σ' := by
  simp only [MkdirEvent.step] at steps
  split at steps
  · next unused =>
      obtain rfl := Option.some.inj steps
      have madeBy : ∀ names other, MkdirSystem.MadeBy { σ with
            threads := Function.update σ.threads thread
              (some ⟨directory, .checking⟩) } names other ↔
          σ.MadeBy names other := by
        intro names other
        by_cases isThread : other = thread
        · subst isThread
          simp [MkdirSystem.MadeBy, unused, MkdirPhase.HasMade]
        · simp [MkdirSystem.MadeBy, isThread]
      constructor
      case grew => exact agree.grew
      case made =>
        intro names missing inUse
        obtain ⟨other, made⟩ := agree.made names missing inUse
        exact ⟨other, (madeBy names other).mpr made⟩
      case sound =>
        intro other handler isHandler
        by_cases isThread : other = thread
        · subst isThread
          obtain rfl : ⟨directory, .checking⟩ = handler := by
            simpa using isHandler
          trivial
        · exact agree.sound other handler (by simpa [isThread] using isHandler)
      case unique =>
        intro names first second isFirst isSecond
        exact agree.unique names first second ((madeBy _ _).mp isFirst)
          ((madeBy _ _).mp isSecond)
  · simp at steps

theorem mkdirsAgree_of_advance {thread : Nat} {answers : MkdirAnswers}
    (agree : MkdirsAgree initial σ)
    (steps : (MkdirEvent.advance thread answers).step σ = some σ') :
    MkdirsAgree initial σ' := by
  obtain ⟨handler, isHandler, advanced⟩ := Option.bind_eq_some_iff.mp steps
  obtain ⟨⟨tree, handler'⟩, advances, rfl⟩ := Option.map_eq_some_iff.mp advanced
  have effect := mkdirEffect_of_advance advances
  have self : ∀ names, MkdirSystem.MadeBy ⟨tree, Function.update σ.threads thread
        (some handler')⟩ names thread ↔
      handler'.phase.HasMade ∧ pathNames handler'.directory = names := by
    simp [MkdirSystem.MadeBy]
  have others : ∀ names other, other ≠ thread →
      (MkdirSystem.MadeBy ⟨tree, Function.update σ.threads thread
          (some handler')⟩ names other ↔ σ.MadeBy names other) := by
    intro names other apart
    simp [MkdirSystem.MadeBy, apart]
  -- What another handler made was there before this section.
  have alone : ∀ names other, other ≠ thread → σ.MadeBy names other →
      ¬ (handler'.phase.HasMade ∧ pathNames handler'.directory = names) := by
    rintro names other apart made ⟨madeNow, rfl⟩
    rw [effect.directory] at made
    rcases effect.madeNow madeNow with hasMade | missing
    · exact apart (agree.unique _ other thread made
        ⟨handler, isHandler, hasMade, rfl⟩)
    · simp [(entry_of_madeBy agree made).2] at missing
  constructor
  case grew =>
    intro path inUse
    have before := agree.grew path inUse
    rw [effect.grows path (by rwa [before]), before]
  case made =>
    intro names missing inUse
    by_cases before : σ.tree.entry names = none
    · obtain ⟨rfl, hasMade⟩ := effect.makes names before inUse
      exact ⟨thread, (self _).mpr ⟨hasMade, by rw [effect.directory]⟩⟩
    · obtain ⟨other, made⟩ := agree.made names missing before
      refine ⟨other, ?_⟩
      by_cases isThread : other = thread
      · subst isThread
        obtain ⟨maker, isMaker, hasMade, isNames⟩ := made
        obtain rfl := Option.some.inj (isHandler.symm.trans isMaker)
        exact (self _).mpr ⟨effect.keepsMade hasMade, by rwa [effect.directory]⟩
      · exact (others names other isThread).mpr made
  case sound =>
    intro other handler'' isOther
    by_cases isThread : other = thread
    · subst isThread
      obtain rfl : handler' = handler'' := by simpa using isOther
      rw [effect.directory]
      exact sound_of_advance agree.grew (agree.sound other handler isHandler)
        advances
    · exact MkdirPhase.sound_of_growsTo effect.grows
        (agree.sound other handler'' (by simpa [isThread] using isOther))
  case unique =>
    intro names first second isFirst isSecond
    by_cases firstIs : first = thread <;> by_cases secondIs : second = thread
    · rw [firstIs, secondIs]
    · subst firstIs
      exact absurd ((self names).mp isFirst)
        (alone names second secondIs ((others _ _ secondIs).mp isSecond))
    · subst secondIs
      exact absurd ((self names).mp isSecond)
        (alone names first firstIs ((others _ _ firstIs).mp isFirst))
    · exact agree.unique names first second ((others _ _ firstIs).mp isFirst)
        ((others _ _ secondIs).mp isSecond)

/-- What every run of `mkdir` handlers comes to. -/
structure MkdirsSettle (σ σ' : MkdirSystem) : Prop where
  kept : ∀ names, σ.tree.entry names ≠ none →
    σ'.tree.entry names = σ.tree.entry names
  made : ∀ names, σ.tree.entry names = none → σ'.tree.entry names ≠ none →
    σ'.tree.entry names = some .directory ∧ ∃! thread, σ'.MadeBy names thread
  ok : ∀ thread directory isMade status,
    σ'.threads thread = some ⟨directory, .answered isMade status⟩ →
    status.isOk = true →
      σ'.tree.entry (pathNames directory) = some .directory
  permissionDenied : ∀ thread directory isMade status,
    σ'.threads thread = some ⟨directory, .answered isMade status⟩ →
    status.code = .permissionDenied →
      ∃ other, other ≠ thread ∧ σ'.MadeBy (pathNames directory) other
  invalidArgument : ∀ thread directory isMade status,
    σ'.threads thread = some ⟨directory, .answered isMade status⟩ →
    status.code = .invalidArgument →
      ∃ file, σ.tree.entry (pathNames directory) = some (.file file)

/-- However `mkdir` handlers interleave, what was there stays as it was, and
each directory that is new was made by exactly one handler.  A handler that
answered OK has its directory there, one that answered `PERMISSION_DENIED` has
it too, made by another handler, and one that answered `INVALID_ARGUMENT` has
always had a file there. -/
theorem mkdirs_settle (events : List MkdirEvent)
    (starts : ∀ thread, σ.threads thread = none)
    (reaches : run MkdirEvent.step events σ = some σ') : MkdirsSettle σ σ' := by
  have initially : MkdirsAgree σ.tree σ := by
    constructor
    case grew => exact fun _ _ => rfl
    case made => exact fun names missing inUse => absurd missing inUse
    case sound => simp [starts]
    case unique => simp [MkdirSystem.MadeBy, starts]
  have agree : MkdirsAgree σ.tree σ' := by
    refine invariant_of_run' ?_ reaches initially
    intro event before after agree steps
    cases event with
    | request thread directory => exact mkdirsAgree_of_request agree steps
    | advance thread answers => exact mkdirsAgree_of_advance agree steps
  constructor
  case kept => exact agree.grew
  case made =>
    intro names missing inUse
    obtain ⟨thread, made⟩ := agree.made names missing inUse
    exact ⟨(entry_of_madeBy agree made).2, thread, made,
      fun other madeToo => agree.unique names other thread madeToo made⟩
  case ok =>
    intro thread directory isMade status answered isOk
    have sound := agree.sound thread _ answered
    cases isMade with
    | true => exact sound.2.1
    | false => exact sound.1 isOk
  case permissionDenied =>
    intro thread directory isMade status answered isDenied
    have sound := agree.sound thread _ answered
    cases isMade with
    | true => exact absurd sound.2.2 (by simp [isDenied])
    | false =>
        obtain ⟨missing, here⟩ := sound.2.1 isDenied
        obtain ⟨other, made⟩ := agree.made _ missing (by simp [here])
        refine ⟨other, ?_, made⟩
        rintro rfl
        obtain ⟨maker, isMaker, hasMade, -⟩ := made
        obtain rfl := Option.some.inj (answered.symm.trans isMaker)
        exact hasMade
  case invalidArgument =>
    intro thread directory isMade status answered isInvalid
    have sound := agree.sound thread _ answered
    cases isMade with
    | true => exact absurd sound.2.2 (by simp [isInvalid])
    | false =>
        obtain ⟨file, here⟩ := sound.2.2 isInvalid
        refine ⟨file, ?_⟩
        by_cases missing : σ.tree.entry (pathNames directory) = none
        · obtain ⟨other, made⟩ := agree.made _ missing (by simp [here])
          simp [(entry_of_madeBy agree made).2] at here
        · rw [← agree.grew _ missing, here]

end Runs

/-- An empty directory, and no handlers. -/
private def emptyRoot : MkdirSystem where
  tree := (FileTree.empty.createDirectories (fun _ => true) ["srv".toList]).1
  threads _ := none

/-- Two handlers make one directory: both find nothing there, and then one of
them makes it. -/
private def madeTwice : List MkdirEvent :=
  let answers : MkdirAnswers := ⟨fun _ => true, fun _ => true, true, ""⟩
  [.request 0 "/srv/docs", .request 1 "/srv/docs", .advance 0 answers,
    .advance 1 answers, .advance 0 answers, .advance 1 answers,
    .advance 0 answers]

/-- The slower one is denied permission, because the other one made the
directory. -/
theorem mkdirs_settle_madeTwice :
    ∃ σ : MkdirSystem, run MkdirEvent.step madeTwice emptyRoot = some σ ∧
      ∃ other, other ≠ 1 ∧ σ.MadeBy (pathNames "/srv/docs") other := by
  refine ⟨_, rfl, ?_⟩
  have settle : MkdirsSettle emptyRoot _ :=
    mkdirs_settle madeTwice (fun _ => rfl) rfl
  exact settle.permissionDenied 1 "/srv/docs" false
    ⟨.permissionDenied, "Error occurred trying to create directory"⟩ rfl rfl

end DistributedFilesystem
