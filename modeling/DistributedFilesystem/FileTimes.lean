import DistributedFilesystem.FuseCallbacks

/-!
# Times of files

The server sends the modification time of a file as one number of nanoseconds,
and `afs_getattr` splits the number into seconds and nanoseconds again.  The
division of the language rounds towards zero, so the two are inverse to each
other for the times from 1970 on only.
-/

namespace DistributedFilesystem

/-- The nanoseconds of a second. -/
def nanoseconds : Int := 1000000000

/-- `struct timespec` -/
structure TimeSpec where
  sec : Int
  nsec : Int
deriving DecidableEq

/-- A time as the file system keeps it. -/
structure FileTime extends TimeSpec where
  nsec_nonneg : 0 ≤ nsec
  nsec_lt : nsec < nanoseconds

/-- The number is one of `int64_t`. -/
def FitsInt64 (n : Int) : Prop :=
  -2 ^ 63 ≤ n ∧ n < 2 ^ 63

instance (n : Int) : Decidable (FitsInt64 n) :=
  inferInstanceAs (Decidable (_ ∧ _))

/-- The result of an operation on `int64_t`, if it does not overflow. -/
def checkedInt64 (n : Int) : Option Int :=
  if FitsInt64 n then some n else none

/-- What `get_file_timestamp` makes of the time that `stat` reports. -/
def FileTime.timestamp (time : FileTime) : Option Int :=
  (checkedInt64 (time.sec * nanoseconds)).bind fun product =>
    checkedInt64 (product + time.nsec)

/-- What `afs_getattr` makes of a number of nanoseconds. -/
def timeSpecOf (timestamp : Int) : TimeSpec where
  sec := timestamp.tdiv nanoseconds
  nsec := timestamp.tmod nanoseconds

/-- The fields of `struct stat` that depend on the contents of a file. -/
structure FileStat where
  size : Int
  mtim : TimeSpec
  atim : TimeSpec
  ctim : TimeSpec

/-- What `afs_getattr` fills in. -/
def FileAttributes.stat (attrs : FileAttributes) : FileStat where
  size := attrs.size
  mtim := timeSpecOf attrs.mtime
  atim := timeSpecOf attrs.atime
  ctim := timeSpecOf attrs.ctime

/-- `afs_getattr`: what it fills in, and what it returns. -/
def Mount.afsGetattr {σ : Type*} (mount : Mount) (remote : Remote σ)
    (path : String) (client : Client) (r : σ) :
    (Client × σ) × Option FileStat × Int :=
  let key := mount.getAttributesKey (callbackFilename path)
    (callbackDirectoryOrEmpty path)
  let result := client.getAttributes remote key r
  match result.2 with
  | some attrs => (result.1, some attrs.stat, 0)
  | none => (result.1, none, -noEntry)

section Splitting

variable {timestamp : Int}

/-- The parts add up to the number. -/
theorem timeSpecOf_total (timestamp : Int) :
    (timeSpecOf timestamp).sec * nanoseconds + (timeSpecOf timestamp).nsec =
      timestamp := by
  have parts := Int.mul_tdiv_add_tmod timestamp nanoseconds
  rw [Int.mul_comm]
  exact parts

/-- The nanoseconds are those of a time exactly for the numbers that are not
negative and for those of whole seconds. -/
theorem nsec_timeSpecOf_nonneg_iff :
    0 ≤ (timeSpecOf timestamp).nsec ↔
      0 ≤ timestamp ∨ (timeSpecOf timestamp).nsec = 0 := by
  constructor
  · intro nonneg
    by_cases negative : timestamp < 0
    · right
      have opposite := Int.tmod_nonneg nanoseconds (Int.neg_nonneg.mpr negative.le)
      rw [Int.neg_tmod] at opposite
      have noSign : timestamp.tmod nanoseconds = (timeSpecOf timestamp).nsec :=
        rfl
      omega
    · exact .inl (not_lt.mp negative)
  · rintro (nonneg | whole)
    · exact Int.tmod_nonneg nanoseconds nonneg
    · exact whole.ge

/-- The parts of a number that is not negative. -/
theorem timeSpecOf_of_nonneg {sec nsec : Int} (fromEpoch : 0 ≤ sec)
    (nonneg : 0 ≤ nsec) (below : nsec < nanoseconds) :
    timeSpecOf (sec * nanoseconds + nsec) = ⟨sec, nsec⟩ := by
  have notNegative : 0 ≤ sec * nanoseconds + nsec := by
    unfold nanoseconds
    omega
  unfold timeSpecOf
  rw [Int.tdiv_eq_ediv_of_nonneg notNegative,
    Int.tmod_eq_emod_of_nonneg notNegative]
  unfold nanoseconds at *
  congr 1
  · omega
  · omega

theorem timeSpecOf_whole (sec : Int) :
    timeSpecOf (sec * nanoseconds) = ⟨sec, 0⟩ := by
  have positive : nanoseconds ≠ 0 := by decide
  unfold timeSpecOf
  rw [Int.mul_tdiv_cancel sec positive, Int.mul_tmod_left]

end Splitting

section Encoding

variable {time : FileTime}

/-- A number that fits is encoded without overflow if and only if its whole
seconds fit. -/
theorem timestamp_eq_some_iff
    (representable : FitsInt64 (time.sec * nanoseconds + time.nsec))
    {timestamp : Int} :
    time.timestamp = some timestamp ↔
      FitsInt64 (time.sec * nanoseconds) ∧
        time.sec * nanoseconds + time.nsec = timestamp := by
  unfold FileTime.timestamp checkedInt64
  by_cases fits : FitsInt64 (time.sec * nanoseconds)
  · simp [fits, representable]
  · simp [fits]

end Encoding

/-- The time is encoded without overflow, and is split again into what it
was. -/
structure FileTime.Survives (time : FileTime) (timestamp : Int) : Prop where
  encoded : time.timestamp = some timestamp
  split : timeSpecOf timestamp = time.toTimeSpec
  nsec_nonneg : 0 ≤ (timeSpecOf timestamp).nsec
  nsec_lt : (timeSpecOf timestamp).nsec < nanoseconds

/-- A time that can be encoded survives if and only if it is not before 1970 or
is one of whole seconds. -/
theorem fileTime_survives_iff (time : FileTime)
    (representable : FitsInt64 (time.sec * nanoseconds + time.nsec)) :
    (∃ timestamp, time.Survives timestamp) ↔ 0 ≤ time.sec ∨ time.nsec = 0 := by
  have nonneg := time.nsec_nonneg
  have below := time.nsec_lt
  constructor
  · rintro ⟨timestamp, survives⟩
    obtain ⟨-, rfl⟩ :=
      (timestamp_eq_some_iff representable).mp survives.encoded
    have sameNsec := congrArg TimeSpec.nsec survives.split
    rw [← sameNsec]
    rcases nsec_timeSpecOf_nonneg_iff.mp survives.nsec_nonneg with
      notBefore | whole
    · left
      unfold nanoseconds at below notBefore
      omega
    · exact .inr whole
  · intro fromEpochOrWhole
    have fits : FitsInt64 (time.sec * nanoseconds) := by
      unfold FitsInt64 nanoseconds at *
      omega
    have split : timeSpecOf (time.sec * nanoseconds + time.nsec) =
        time.toTimeSpec := by
      rcases fromEpochOrWhole with fromEpoch | whole
      · exact timeSpecOf_of_nonneg fromEpoch nonneg below
      · rw [whole, Int.add_zero, timeSpecOf_whole, ← whole]
    refine ⟨time.sec * nanoseconds + time.nsec, ?_, split, ?_, ?_⟩
    · exact (timestamp_eq_some_iff representable).mpr ⟨fits, rfl⟩
    · rw [split]
      exact nonneg
    · rw [split]
      exact below

/-- The second before the last of 2024, and half a second. -/
private def beforeNewYear : FileTime where
  sec := 1735689598
  nsec := 500000000
  nsec_nonneg := by decide
  nsec_lt := by decide

theorem fileTime_survives_newYear :
    ∃ timestamp, beforeNewYear.Survives timestamp :=
  (fileTime_survives_iff beforeNewYear (by decide)).mpr (.inl (by decide))

/-- Half a second before 1970. -/
private def beforeEpoch : FileTime where
  sec := -1
  nsec := 500000000
  nsec_nonneg := by decide
  nsec_lt := by decide

/-- The least number, whose whole seconds do not fit. -/
private def earliest : FileTime where
  sec := -9223372037
  nsec := 145224192
  nsec_nonneg := by decide
  nsec_lt := by decide

/-- A time before 1970 is reported with negative nanoseconds, and for the
earliest times the product overflows. -/
theorem fileTime_before_epoch_lost :
    FitsInt64 (beforeEpoch.sec * nanoseconds + beforeEpoch.nsec) ∧
      beforeEpoch.timestamp = some (-500000000) ∧
        timeSpecOf (-500000000) = ⟨0, -500000000⟩ ∧
          (∀ timestamp, ¬ beforeEpoch.Survives timestamp) ∧
            FitsInt64 (earliest.sec * nanoseconds + earliest.nsec) ∧
              earliest.timestamp = none := by
  refine ⟨by decide, by decide, by decide, ?_, by decide, by decide⟩
  intro timestamp survives
  obtain ⟨-, rfl⟩ :=
    (timestamp_eq_some_iff (by decide)).mp survives.encoded
  exact absurd survives.nsec_nonneg (by decide)

end DistributedFilesystem
