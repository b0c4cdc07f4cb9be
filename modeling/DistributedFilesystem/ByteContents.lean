import Mathlib.Data.List.Basic
import Mathlib.Algebra.Notation.Defs
import Mathlib.Tactic.Common

/-!
# Contents of a file as a list

Two operations on the contents of a file: `overlay` writes a block at a
position, filling a gap past the end with zeros, and `blocks` cuts the contents
into blocks of a fixed size, the last of which may be shorter.  Appending
blocks one after the other is a sequence of overlays at the growing length.
-/

namespace ByteContents

variable {α : Type*}

section Overlay

variable [Zero α]

/-- Write `data` at `position`; a gap between the end and `position` is filled
with zeros, and writing nothing changes nothing. -/
def overlay (contents : List α) (position : Nat) (data : List α) : List α :=
  if data = [] then contents
  else
    contents.take position ++
      List.replicate (position - contents.length) 0 ++ data ++
      contents.drop (position + data.length)

@[simp]
theorem overlay_nil (contents : List α) (position : Nat) :
    overlay contents position [] = contents := by
  simp [overlay]

@[simp]
theorem overlay_length_self (contents data : List α) :
    overlay contents contents.length data = contents ++ data := by
  unfold overlay
  split
  · next empty => simp [empty]
  · simp

end Overlay

section Blocks

/-- Cut a list into blocks of `size`, with fuel for at most `fuel` blocks. -/
def blocksUpTo (size : Nat) : Nat → List α → List (List α)
  | 0, _ => []
  | fuel + 1, contents =>
      if contents.length = 0 then []
      else contents.take size :: blocksUpTo size fuel (contents.drop size)

/-- Cut a list into blocks of `size`. -/
def blocks (size : Nat) (contents : List α) : List (List α) :=
  blocksUpTo size contents.length contents

theorem flatten_blocksUpTo {size : Nat} (positive : 0 < size) {fuel : Nat}
    {contents : List α} (enough : contents.length ≤ fuel) :
    (blocksUpTo size fuel contents).flatten = contents := by
  induction fuel generalizing contents with
  | zero =>
      have : contents = [] := List.length_eq_zero_iff.mp (by omega)
      simp [this, blocksUpTo]
  | succ fuel ih =>
      unfold blocksUpTo
      split
      · next empty => simp [List.length_eq_zero_iff.mp empty]
      · rw [List.flatten_cons, ih (by simp only [List.length_drop]; omega),
          List.take_append_drop]

@[simp]
theorem flatten_blocks {size : Nat} (positive : 0 < size) (contents : List α) :
    (blocks size contents).flatten = contents :=
  flatten_blocksUpTo positive (Nat.le_refl _)

theorem ne_nil_of_mem_blocksUpTo {size : Nat} (positive : 0 < size) {fuel : Nat}
    {contents block : List α} (member : block ∈ blocksUpTo size fuel contents) :
    block ≠ [] := by
  induction fuel generalizing contents with
  | zero => simp [blocksUpTo] at member
  | succ fuel ih =>
      unfold blocksUpTo at member
      split at member
      · simp at member
      · next nonempty =>
          rcases List.mem_cons.mp member with rfl | later
          · intro empty
            have : (contents.take size).length = 0 := by simp [empty]
            simp only [List.length_take] at this
            omega
          · exact ih later

/-- More fuel than needed does not matter. -/
theorem blocksUpTo_of_le {size : Nat} (positive : 0 < size) {fuel more : Nat}
    {contents : List α} (enough : contents.length ≤ fuel)
    (enoughMore : contents.length ≤ more) :
    blocksUpTo size fuel contents = blocksUpTo size more contents := by
  induction fuel generalizing contents more with
  | zero =>
      have empty : contents.length = 0 := by omega
      cases more <;> simp [blocksUpTo, empty]
  | succ fuel ih =>
      cases more with
      | zero =>
          have empty : contents.length = 0 := by omega
          simp [blocksUpTo, empty]
      | succ more =>
          unfold blocksUpTo
          split
          · rfl
          · have shorter : (contents.drop size).length ≤ fuel := by
              simp only [List.length_drop]
              omega
            have shorterMore : (contents.drop size).length ≤ more := by
              simp only [List.length_drop]
              omega
            rw [ih shorter shorterMore]

@[simp]
theorem blocks_nil (size : Nat) : blocks size ([] : List α) = [] :=
  rfl

theorem blocks_of_ne_nil {size : Nat} (positive : 0 < size) {contents : List α}
    (nonempty : contents ≠ []) :
    blocks size contents =
      contents.take size :: blocks size (contents.drop size) := by
  have some := List.length_pos_iff.mpr nonempty
  obtain ⟨fuel, length⟩ : ∃ fuel, contents.length = fuel + 1 :=
    ⟨contents.length - 1, by omega⟩
  unfold blocks
  rw [length, blocksUpTo, if_neg (by omega), blocksUpTo_of_le positive]
  · simp only [List.length_drop]
    omega
  · exact Nat.le_refl _

end Blocks

end ByteContents
