import SingBoxMini.Support.Bytes

/-!
# Support — Slices

A buffer that is read and written in place: ranges of it, `copy_from_slice` and `copy_within`.  An
operation is `none` where the range is not inside the buffer, which is a panic.

The lemmas see a buffer as pieces put together: a range is one of the pieces, and writing a piece of
the same length leaves the others (`slice_append`, `write_append`).  Moving a piece to the left over
a gap leaves a gap of the same length behind it (`copyWithin_append`).
-/

namespace Slices

variable {α : Type}

/-- `&b[start..stop]` -/
def slice (b : List α) (start stop : Nat) : Option (List α) :=
  if start ≤ stop ∧ stop ≤ b.length then some ((b.take stop).drop start) else none

/-- `b[start..start + xs.len()].copy_from_slice(xs)` -/
def write (b : List α) (start : Nat) (xs : List α) : Option (List α) :=
  if start + xs.length ≤ b.length then
    some (b.take start ++ xs ++ b.drop (start + xs.length))
  else none

/-- `f(&mut b[start..stop])` -/
def modify (b : List α) (start stop : Nat) (f : List α → List α) : Option (List α) :=
  (slice b start stop).bind fun xs => write b start (f xs)

/-- `b.copy_within(start..stop, dest)` -/
def copyWithin (b : List α) (start stop dest : Nat) : Option (List α) :=
  (slice b start stop).bind (write b dest)

/-- `(0..stop).step_by(stride)` -/
def stepBy (stop stride : Nat) : List Nat := List.range' 0 (Bytes.divCeil stop stride) stride

/-! ### Pieces -/

theorem slice_append (a x c : List α) :
    slice (a ++ x ++ c) a.length (a.length + x.length) = some x := by
  rw [slice, if_pos (by simp), ← List.length_append, List.take_left, List.drop_left]

theorem write_append {x y : List α} (h : y.length = x.length) (a c : List α) :
    write (a ++ x ++ c) a.length y = some (a ++ y ++ c) := by
  rw [write, if_pos (by simp [h]), h, ← List.length_append, List.drop_left, List.append_assoc a x,
    List.take_left]

theorem modify_append {x : List α} {f : List α → List α} (h : (f x).length = x.length)
    (a c : List α) : modify (a ++ x ++ c) a.length (a.length + x.length) f =
      some (a ++ f x ++ c) := by
  rw [modify, slice_append, Option.bind_some, write_append h]

/-- **Moving a piece to the left.** -/
theorem copyWithin_append (a gap x c : List α) : ∃ gap', gap'.length = gap.length ∧
    copyWithin (a ++ gap ++ x ++ c) (a.length + gap.length) (a.length + gap.length + x.length)
      a.length = some (a ++ x ++ gap' ++ c) := by
  have hslice := slice_append (a ++ gap) x c
  rw [List.length_append] at hslice
  -- the gap and the piece are as long as the piece and what is left of the two
  refine ⟨(gap ++ x).drop x.length, by simp, ?_⟩
  have hpieces : a ++ gap ++ x ++ c =
      a ++ (gap ++ x).take x.length ++ ((gap ++ x).drop x.length ++ c) := by
    simp only [List.append_assoc]
    rw [← List.append_assoc ((gap ++ x).take _), List.take_append_drop, List.append_assoc]
  rw [copyWithin, hslice, Option.bind_some, hpieces, write_append (by simp), List.append_assoc,
    List.append_assoc, List.append_assoc]

/-! ### Chunks -/

theorem chunks_eq_stepBy (n : Nat) (l : List α) :
    Bytes.chunks n l = (stepBy l.length n).map fun start => (l.drop start).take n := by
  apply List.ext_getElem
  · simp [stepBy]
  · intro i _ _
    simp [Bytes.chunks, stepBy, Nat.mul_comm]

end Slices
