import DistributedFilesystem.FuseCallbacks
import DistributedFilesystem.PositionalReads

/-!
# Sizes and offsets that do not fit into an int

`afs_truncate` and `afs_read` get 64-bit sizes and offsets from the kernel and
pass them to functions that take an `int`.  The conversion keeps the value
modulo 2^32: from 2^31 on it is negative, which the functions refuse, or it is
another size or offset, which they take.
-/

namespace DistributedFilesystem

section Conversions

/-- The conversion keeps the residue modulo 2^32 where this is less than 2^31,
and is negative otherwise. -/
theorem intOf_natCast (n : Nat) :
    intOf n = if n % 2 ^ 32 < 2 ^ 31 then ((n % 2 ^ 32 : Nat) : Int)
      else ((n % 2 ^ 32 : Nat) : Int) - 2 ^ 32 := by
  unfold intOf
  rw [Int.bmod_def]
  split_ifs <;> omega

theorem intOf_neg_iff (n : Nat) : intOf n < 0 ↔ 2 ^ 31 ≤ n % 2 ^ 32 := by
  rw [intOf_natCast]
  split_ifs <;> omega

theorem toNat_intOf {n : Nat} (fits : n % 2 ^ 32 < 2 ^ 31) :
    (intOf n).toNat = n % 2 ^ 32 := by
  rw [intOf_natCast, if_pos fits, Int.toNat_natCast]

end Conversions

variable {mount : Mount} {path : String} {answers : LocalAnswers}
variable {client : Client}

/-- `afs_truncate` fails, or leaves a local file of so many bytes. -/
def TruncatesTo (mount : Mount) (answers : LocalAnswers) (path : String)
    (size : Nat) (client : Client) : Prop :=
  (mount.afsTruncate answers path size client).2 < 0 ∨
    ∃ contents, (mount.afsTruncate answers path size client).1.disk.read
      (mount.callbackKey path) = some contents ∧ contents.length = size

/-- `afs_read` fails, or returns the bytes from the offset on, as many as it is
asked for and there are. -/
def ReadsAt (mount : Mount) (path : String) (size offset : Nat)
    (contents : Bytes) (client : Client) : Prop :=
  ∀ buffer returned,
    (mount.afsRead path size offset client).2 = some (buffer, returned) →
      returned < 0 ∨ buffer = (contents.drop offset).take size ∧
        returned = buffer.length

/-- The file is not there or cannot be resized, or the size survives the
conversion or becomes negative. -/
def TruncationSurvives (mount : Mount) (answers : LocalAnswers) (path : String)
    (size : Nat) (client : Client) : Prop :=
  client.disk.node (mount.callbackKey path) = none ∨ answers.resize = false ∨
    size < 2 ^ 31 ∨ 2 ^ 31 ≤ size % 2 ^ 32

/-- The offset or the size becomes negative; or the offset survives, and the
size does or leaves enough for the rest of the file; or the file happens to have
the same bytes at both offsets. -/
def ReadSurvives (size offset : Nat) (contents : Bytes) : Prop :=
  2 ^ 31 ≤ offset % 2 ^ 32 ∨ 2 ^ 31 ≤ size % 2 ^ 32 ∨
    offset < 2 ^ 31 ∧
      (size < 2 ^ 31 ∨ contents.length ≤ offset + size % 2 ^ 32) ∨
    2 ^ 32 ≤ offset ∧
      (contents.drop (offset % 2 ^ 32)).take (size % 2 ^ 32) =
        (contents.drop offset).take size

section Truncations

/-- In the root directory `truncate_file` finds the file. -/
theorem truncatedKey_of_root {name : List Char}
    (rootNonempty : mount.serverRootPath ≠ "") (isName : PosixPaths.IsName '/' name)
    (isPath : path.toList = '/' :: name) :
    mount.resolveServerPath (callbackDirectory path) ++ callbackFilename path =
      mount.callbackKey path := by
  have isAbsolutePath : path.toList = PosixPaths.absolutePath '/' ([] ++ [name]) := by
    rw [isPath]
    simp [PosixPaths.absolutePath]
  have isRoot : callbackDirectory path = "" ∨ callbackDirectory path = "/" := by
    rcases toList_of_isDirectoryOf (by simpa using isName) isAbsolutePath
      (.inl rfl) with ⟨-, atRoot⟩ | ⟨below, -⟩
    · exact atRoot
    · exact absurd rfl below
  have endsInSlash :
      backIsSlash (mount.resolveServerPath (callbackDirectory path)) = true := by
    rw [backIsSlash, mount.toList_resolveServerPath_root isRoot,
      mount.getLast?_base rootNonempty]
    rfl
  rw [Mount.callbackKey, Mount.locateOnServer, joinName, if_pos endsInSlash,
    String.append_empty]

theorem truncatesTo_iff {name : List Char} {size : Nat}
    (rootNonempty : mount.serverRootPath ≠ "") (isName : PosixPaths.IsName '/' name)
    (isPath : path.toList = '/' :: name) :
    TruncatesTo mount answers path size client ↔
      TruncationSurvives mount answers path size client := by
  have sameKey := truncatedKey_of_root rootNonempty isName isPath
  unfold TruncatesTo TruncationSurvives Mount.afsTruncate Client.truncateFile
  simp only [sameKey]
  cases refers : client.disk.node (mount.callbackKey path) with
  | none => simp [noEntry]
  | some i =>
      cases allowed : answers.resize with
      | false => simp [noEntry]
      | true =>
          by_cases negative : intOf size < 0
          · have wrapped := (intOf_neg_iff size).mp negative
            refine iff_of_true (.inl ?_) (.inr (.inr (.inr wrapped)))
            simp [negative, noEntry]
          · have fits : size % 2 ^ 32 < 2 ^ 31 := by
              rw [intOf_neg_iff] at negative
              omega
            obtain ⟨contents, holds⟩ := Option.isSome_iff_exists.mp
              (FileStore.read_isSome_iff.mpr (Option.isSome_iff_exists.mpr
                ⟨i, refers⟩))
            have resized : (client.disk.resize i (size % 2 ^ 32)
                answers.now).read (mount.callbackKey path) =
                  some (contents.take (size % 2 ^ 32) ++ List.replicate
                    (size % 2 ^ 32 - contents.length) 0) :=
              FileStore.read_resize _ refers holds
            have length : (contents.take (size % 2 ^ 32) ++ List.replicate
                (size % 2 ^ 32 - contents.length) 0).length = size % 2 ^ 32 := by
              rw [List.length_append, List.length_take, List.length_replicate]
              omega
            simp only [negative, if_false, if_true, toNat_intOf fits, resized,
              lt_irrefl, false_or, Option.some.injEq, exists_eq_left', length,
              reduceCtorEq, Bool.true_eq_false]
            omega

end Truncations

section Reads

theorem take_eq_take_iff_of_le {bytes : Bytes} {less more : Nat}
    (le : less ≤ more) :
    bytes.take less = bytes.take more ↔ less = more ∨ bytes.length ≤ less := by
  constructor
  · intro same
    have lengths := congrArg List.length same
    rw [List.length_take, List.length_take] at lengths
    omega
  · rintro (rfl | short)
    · rfl
    · rw [List.take_of_length_le short, List.take_of_length_le (short.trans le)]

/-- The bytes at the wrapped offset are those at the offset. -/
theorem readSurvives_iff_of_nonneg {size offset : Nat} {contents : Bytes}
    (offsetFits : offset % 2 ^ 32 < 2 ^ 31) (sizeFits : size % 2 ^ 32 < 2 ^ 31) :
    ReadSurvives size offset contents ↔
      (contents.drop (offset % 2 ^ 32)).take (size % 2 ^ 32) =
        (contents.drop offset).take size := by
  unfold ReadSurvives
  rw [or_iff_right (by omega), or_iff_right (by omega)]
  by_cases small : offset < 2 ^ 31
  · have same : offset % 2 ^ 32 = offset := Nat.mod_eq_of_lt (by omega)
    rw [same, take_eq_take_iff_of_le (Nat.mod_le size (2 ^ 32)), List.length_drop]
    constructor
    · rintro (⟨-, holds⟩ | ⟨large, -⟩) <;> omega
    · intro holds
      left
      omega
  · have large : 2 ^ 32 ≤ offset := by omega
    simp only [small, large, false_and, false_or, true_and]

theorem readsAt_iff {i size offset : Nat} {contents : Bytes}
    (on : StreamsOn (mount.callbackKey path) i false client)
    (holds : (client.disk.nodes i).contents = contents) :
    ReadsAt mount path size offset contents client ↔
      ReadSurvives size offset contents := by
  obtain ⟨writeStream, usable⟩ := usableStreams_of_streamsOn on
  by_cases offsetNegative : intOf offset < 0
  · have wrapped := (intOf_neg_iff offset).mp offsetNegative
    have refused : (mount.afsRead path size offset client).2 =
        some ([], -accessDenied) := by
      simp [Mount.afsRead, Client.readFile, usable, offsetNegative]
    refine iff_of_true ?_ (.inl wrapped)
    intro buffer returned reads
    obtain ⟨-, rfl⟩ := Prod.mk.inj (Option.some.inj (refused.symm.trans reads))
    exact .inl (by decide)
  have offsetFits : offset % 2 ^ 32 < 2 ^ 31 := by
    rw [intOf_neg_iff] at offsetNegative
    omega
  have returns : (client.readFile (mount.callbackKey path) (intOf size).toNat
      (intOf offset)).2 =
        some ((contents.drop (offset % 2 ^ 32)).take (intOf size).toNat) := by
    have accepted : ¬ (false = true ∨ true = false ∨ intOf offset < 0) := by
      simpa using offsetNegative
    simp only [Client.readFile, usable, accepted, if_false, holds,
      toNat_intOf offsetFits]
    split <;> rfl
  cases reads : client.readFile (mount.callbackKey path) (intOf size).toNat
      (intOf offset) with
  | mk client' result =>
  rw [reads] at returns
  subst returns
  by_cases sizeNegative : intOf size < 0
  · have wrapped := (intOf_neg_iff size).mp sizeNegative
    refine iff_of_true ?_ (.inr (.inl wrapped))
    intro buffer returned reads'
    simp [Mount.afsRead, reads, sizeNegative] at reads'
  have sizeFits : size % 2 ^ 32 < 2 ^ 31 := by
    rw [intOf_neg_iff] at sizeNegative
    omega
  rw [readSurvives_iff_of_nonneg offsetFits sizeFits]
  unfold ReadsAt Mount.afsRead
  simp only [reads, sizeNegative, if_false, Option.some.injEq, Prod.mk.injEq]
  rw [toNat_intOf sizeFits]
  constructor
  · intro exactly
    rcases exactly _ _ ⟨rfl, rfl⟩ with negative | ⟨same, -⟩
    · omega
    · exact same
  · rintro same buffer returned ⟨rfl, rfl⟩
    exact .inr ⟨same, rfl⟩

end Reads

/-- `afs_truncate` of a file in the root directory, and the first `afs_read` of
an open file, do what they are asked for or fail, if and only if the conversions
let the size and the offset survive. -/
theorem wrapped_offsets_iff (mount : Mount)
    (rootNonempty : mount.serverRootPath ≠ "") :
    (∀ {name : List Char} {path : String}, PosixPaths.IsName '/' name →
      path.toList = '/' :: name →
        ∀ (answers : LocalAnswers) (client : Client) (size : Nat),
          TruncatesTo mount answers path size client ↔
            TruncationSurvives mount answers path size client) ∧
      ∀ {path : String} {client : Client} {i : Nat} {contents : Bytes},
        StreamsOn (mount.callbackKey path) i false client →
          (client.disk.nodes i).contents = contents →
            ∀ size offset : Nat,
              ReadsAt mount path size offset contents client ↔
                ReadSurvives size offset contents := by
  constructor
  · intro name path isName isPath answers client size
    exact truncatesTo_iff rootNonempty isName isPath
  · intro path client i contents on holds size offset
    exact readsAt_iff on holds

private def mountedSrv : Mount where
  serverRootPath := "/srv"
  cacheDirectory := "/cache"

/-- The file `a` of the root directory holds one byte and is open. -/
private def oneByteOpen : Client :=
  let server := Server.launch "/srv" (FileStore.empty.replace "/srv/a" [[97]] 0) 1
  ((Client.launch "reader").openFile .direct (.success 2)
    (mountedSrv.callbackKey "/a") server).1.1

private theorem streamsOn_oneByteOpen :
    StreamsOn (mountedSrv.callbackKey "/a") 0 false oneByteOpen where
  cached := by decide
  hasMutex := by decide
  streams := ⟨⟨.fresh 0, .fresh 0⟩, rfl, rfl, rfl⟩

/-- A file is extended to two bytes, and read up to its end. -/
theorem wrapped_offsets_small :
    TruncatesTo mountedSrv (.success 3) "/a" 2 oneByteOpen ∧
      ReadsAt mountedSrv "/a" 5 0 [97] oneByteOpen := by
  obtain ⟨truncates_iff, reads_iff⟩ := wrapped_offsets_iff mountedSrv (by decide)
  have isName : PosixPaths.IsName '/' ['a'] := ⟨by decide, by decide⟩
  constructor
  · refine (truncates_iff isName rfl _ _ _).mpr ?_
    exact .inr (.inr (.inl (by decide)))
  · refine (reads_iff streamsOn_oneByteOpen rfl _ _).mpr ?_
    exact .inr (.inr (.inl ⟨by decide, .inl (by decide)⟩))

/-- Truncating to 2^32 bytes succeeds and leaves none, and a read at the offset
2^32 returns the first byte. -/
theorem wrapped_offset_acts_elsewhere :
    mountedSrv.callbackKey "/a" = "/srv/a" ∧
      (mountedSrv.afsTruncate (.success 3) "/a" 4294967296 oneByteOpen).2 = 0 ∧
      (mountedSrv.afsTruncate (.success 3) "/a" 4294967296
        oneByteOpen).1.disk.read "/srv/a" = some [] ∧
      (mountedSrv.afsRead "/a" 1 4294967296 oneByteOpen).2 = some ([97], 1) ∧
      ¬ TruncatesTo mountedSrv (.success 3) "/a" 4294967296 oneByteOpen ∧
        ¬ ReadsAt mountedSrv "/a" 1 4294967296 [97] oneByteOpen := by
  refine ⟨by decide, by decide, by decide, by decide, ?_, ?_⟩
  · rintro (fails | ⟨contents, left, length⟩)
    · exact absurd fails (by decide)
    · have isEmpty : (mountedSrv.afsTruncate (.success 3) "/a" (4294967296 : Nat)
          oneByteOpen).1.disk.read (mountedSrv.callbackKey "/a") = some [] := by
        decide
      obtain rfl := Option.some.inj (isEmpty.symm.trans left)
      exact absurd length (by decide)
  · intro reads
    rcases reads [97] 1 (by decide) with negative | ⟨same, -⟩
    · exact absurd negative (by decide)
    · exact absurd same (by decide)

end DistributedFilesystem
