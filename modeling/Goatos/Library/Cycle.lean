import Mathlib.Data.Int.CardIntervalMod
import Mathlib.Data.List.Nodup
import Mathlib.Data.List.Rotate

namespace Goatos
namespace Library

/-!
# Taking turns

A list is gone through over and over again.  The first turns of this are a list
in which no two items of the cycle appear more than once apart, whatever the
number of turns.
-/

variable {Item : Type}

/-- The first turns of going through a list over and over.  An empty list has
none. -/
def takeTurns (cycle : List Item) (turns : Nat) : List Item :=
  (List.range turns).filterMap (fun turn => cycle[turn % cycle.length]?)

theorem takeTurns_snoc (cycle : List Item) (turns : Nat) :
    takeTurns cycle (turns + 1) =
      takeTurns cycle turns ++ (cycle[turns % cycle.length]?).toList := by
  rw [takeTurns, List.range_succ, List.filterMap_append]
  congr 1

/-- The next turn is that of the head, after as many rotations as there were turns. -/
theorem takeTurns_of_rotate {cycle rest : List Item} {turns : Nat} {item : Item}
    (rotated : cycle.rotate turns = item :: rest) :
    takeTurns cycle (turns + 1) = takeTurns cycle turns ++ [item] := by
  have nonempty : 0 < cycle.length := by
    rw [← List.length_rotate cycle turns, rotated, List.length_cons]
    exact Nat.succ_pos _
  have head : cycle[turns % cycle.length]? = some item := by
    rw [← Nat.zero_add turns, ← List.getElem?_rotate nonempty, rotated]
    rfl
  rw [takeTurns_snoc, head]
  rfl

section Balance

variable [DecidableEq Item] {cycle : List Item}

theorem count_takeTurns (distinct : cycle.Nodup) {position : Nat} {item : Item}
    (found : cycle[position]? = some item) (turns : Nat) :
    (takeTurns cycle turns).count item =
      Nat.count (fun turn => turn ≡ position [MOD cycle.length]) turns := by
  rcases List.getElem?_eq_some_iff.mp found with ⟨bound, _⟩
  induction turns with
  | zero => rfl
  | succ turns inductionHypothesis =>
      have inside : turns % cycle.length < cycle.length := Nat.mod_lt _ (Nat.zero_lt_of_lt bound)
      have same : cycle[turns % cycle.length] = item ↔ turns ≡ position [MOD cycle.length] := by
        rw [← Option.some_inj, ← found, ← List.getElem?_eq_getElem inside,
          List.getElem?_inj inside distinct, Nat.ModEq, Nat.mod_eq_of_lt bound]
      rw [takeTurns_snoc, List.count_append, inductionHypothesis, Nat.count_succ,
        List.getElem?_eq_getElem inside, Option.toList_some, List.count_singleton]
      simp only [beq_iff_eq, same]

/-- Every item of the cycle has had the same number of turns, up to one. -/
theorem count_takeTurns_le (distinct : cycle.Nodup) {first second : Item} (inFirst : first ∈ cycle)
    (inSecond : second ∈ cycle) (turns : Nat) :
    (takeTurns cycle turns).count first ≤ (takeTurns cycle turns).count second + 1 := by
  rcases List.mem_iff_getElem?.mp inFirst with ⟨position, found⟩
  rcases List.mem_iff_getElem?.mp inSecond with ⟨position', found'⟩
  have nonempty : 0 < cycle.length := List.length_pos_of_mem inFirst
  rw [count_takeTurns distinct found, count_takeTurns distinct found',
    Nat.count_modEq_card _ nonempty, Nat.count_modEq_card _ nonempty]
  split
  · omega
  · omega

end Balance

end Library
end Goatos
