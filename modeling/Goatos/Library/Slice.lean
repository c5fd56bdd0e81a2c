import Mathlib.Data.List.Basic

namespace Goatos
namespace Library

/-!
# Checked slices

A slice with bounds outside its array is an error of the program, so taking one
is partial.  Writing a block into an array keeps its length if the block fits.
Both are used on arrays that are known as a concatenation of their parts, and
the lemmas say what they do there.
-/

variable {Item : Type}

/-- `items[start..stop]`; `none` if the bounds are out of range. -/
def slice (items : List Item) (start stop : Nat) : Option (List Item) :=
  if start ≤ stop ∧ stop ≤ items.length then some ((items.drop start).take (stop - start))
  else none

/-- Replace the items from `start` on by a block.  The block has to fit if the length
is to stay the same. -/
def overwrite (items : List Item) (start : Nat) (block : List Item) : List Item :=
  items.take start ++ (block ++ items.drop (start + block.length))

theorem slice_zero {items : List Item} {stop : Nat} (inside : stop ≤ items.length) :
    slice items 0 stop = some (items.take stop) := by
  rw [slice, if_pos ⟨Nat.zero_le _, inside⟩]
  rfl

theorem slice_append {start stop : Nat} (before part after : List Item)
    (atStart : start = before.length) (atStop : stop = start + part.length) :
    slice (before ++ (part ++ after)) start stop = some part := by
  subst atStop atStart
  rw [slice, if_pos (by simp)]
  simp

theorem overwrite_append {start : Nat} (before part after block : List Item)
    (atStart : start = before.length) (same : block.length = part.length) :
    overwrite (before ++ (part ++ after)) start block = before ++ (block ++ after) := by
  subst atStart
  rw [overwrite, same]
  simp

theorem slice_eq_some {items : List Item} {start stop : Nat} (ordered : start ≤ stop)
    (inside : stop ≤ items.length) :
    slice items start stop = some ((items.drop start).take (stop - start)) :=
  if_pos ⟨ordered, inside⟩

theorem length_overwrite {items : List Item} {start : Nat} {block : List Item}
    (inside : start + block.length ≤ items.length) :
    (overwrite items start block).length = items.length := by
  rw [overwrite, List.length_append, List.length_append, List.length_take, List.length_drop]
  omega

theorem overwrite_all {items block : List Item} (same : block.length = items.length) :
    overwrite items 0 block = block := by
  rw [overwrite, Nat.zero_add, same, List.drop_length, List.take_zero, List.nil_append,
    List.append_nil]

/-- Two adjacent blocks make one. -/
theorem overwrite_overwrite {items : List Item} {start : Nat} (first second : List Item)
    (inside : start ≤ items.length) :
    overwrite (overwrite items start first) (start + first.length) second =
      overwrite items start (first ++ second) := by
  have before : (items.take start).length = start := List.length_take_of_le inside
  have kept : (items.take start ++ (first ++ items.drop (start + first.length))).take
      (start + first.length) = items.take start ++ first := by
    rw [← List.append_assoc, List.take_left' (by rw [List.length_append, before])]
  have left : (items.take start ++ (first ++ items.drop (start + first.length))).drop
      (start + first.length + second.length) =
        items.drop (start + (first ++ second).length) := by
    rw [← List.append_assoc, ← List.drop_drop,
      List.drop_left' (by rw [List.length_append, before]), List.drop_drop, List.length_append,
      Nat.add_assoc]
  rw [overwrite, overwrite, overwrite, kept, left]
  simp only [List.append_assoc]

end Library
end Goatos
