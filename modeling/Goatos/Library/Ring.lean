import Mathlib.Data.List.Basic
import Mathlib.Data.Nat.ModEq

namespace Goatos
namespace Library

/-!
# Ring buffers

A fixed array is used as a queue: the live items are a stretch of it that begins
at some position and wraps around at the end.  `ringItems` reads the stretch as a
list, oldest item first.  Writing behind the stretch appends to that list as long
as there is room, and moving the start forward drops its head; no other fact
about the array is needed to reason about the queue.
-/

variable {Item : Type} {capacity : Nat}

/-- The position a number of places after another one, wrapping at the end. -/
def ringIndex (start : Fin capacity) (offset : Nat) : Fin capacity :=
  ⟨(start.val + offset) % capacity, Nat.mod_lt _ (Nat.zero_lt_of_lt start.isLt)⟩

/-- The items of the stretch of the given length, oldest first, around the end of
the array if need be. -/
def ringItems (slots : Vector Item capacity) (start : Fin capacity) (length : Nat) : List Item :=
  (List.range length).map (fun offset => slots.get (ringIndex start offset))

theorem ringIndex_zero (start : Fin capacity) : ringIndex start 0 = start := by
  apply Fin.ext
  exact Nat.mod_eq_of_lt start.isLt

theorem ringIndex_ringIndex (start : Fin capacity) (first second : Nat) :
    ringIndex (ringIndex start first) second = ringIndex start (first + second) := by
  apply Fin.ext
  simp only [ringIndex, Nat.mod_add_mod, Nat.add_assoc]

theorem ringIndex_ne (start : Fin capacity) {first second : Nat} (order : first < second)
    (within : second < first + capacity) : ringIndex start first ≠ ringIndex start second := by
  intro same
  have congruent : first ≡ second [MOD capacity] :=
    Nat.ModEq.add_left_cancel' start.val (Fin.val_eq_of_eq same)
  have divides : capacity ∣ second - first := (Nat.modEq_iff_dvd' (Nat.le_of_lt order)).mp congruent
  have bound := Nat.le_of_dvd (Nat.sub_pos_of_lt order) divides
  omega

@[simp] theorem length_ringItems (slots : Vector Item capacity) (start : Fin capacity)
    (length : Nat) : (ringItems slots start length).length = length := by
  simp [ringItems]

/-- Writing to the position behind the stretch appends an item. -/
theorem ringItems_push (slots : Vector Item capacity) (start : Fin capacity) {length : Nat}
    (room : length < capacity) (item : Item) :
    ringItems (slots.set (ringIndex start length).val item (ringIndex start length).isLt) start
      (length + 1) = ringItems slots start length ++ [item] := by
  rw [ringItems, ringItems, List.range_succ, List.map_append, List.map_singleton]
  congr 1
  · apply List.map_congr_left
    intro offset member
    have below := List.mem_range.mp member
    have different := ringIndex_ne start below (by omega)
    exact Vector.getElem_set_ne _ _ (fun same => different (Fin.ext same.symm))
  · exact congrArg (fun last => [last]) (Vector.getElem_set_self _)

/-- The item at the start is the oldest; the others begin one place further. -/
theorem ringItems_succ (slots : Vector Item capacity) (start : Fin capacity) (length : Nat) :
    ringItems slots start (length + 1) =
      slots.get start :: ringItems slots (ringIndex start 1) length := by
  rw [ringItems, List.range_succ_eq_map, List.map_cons, List.map_map, ringIndex_zero]
  congr 1
  apply List.map_congr_left
  intro offset _
  rw [Function.comp_apply, ringIndex_ringIndex, Nat.add_comm]

end Library
end Goatos
