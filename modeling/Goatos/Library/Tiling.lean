import Mathlib.Data.List.Pairwise

namespace Goatos
namespace Library

/-!
# Blocks that tile an interval

A list of blocks tiles `[start, stop)` when each block begins where the one
before it ends.  The address is redundant in such a list, but the program that
keeps the blocks knows them by address, so both are carried and the tiling says
that they agree.
-/

section Tiling

variable {Block : Type} (address size : Block -> Nat)

/-- The blocks cover `[start, stop)` in order, without gap or overlap. -/
def Tiles : (start : Nat) -> List Block -> (stop : Nat) -> Prop
  | start, [], stop => start = stop
  | start, block :: rest, stop => address block = start ∧ Tiles (start + size block) rest stop

variable {address size} {start stop : Nat} {blocks : List Block}

theorem tiles_append {left right : List Block} :
    Tiles address size start (left ++ right) stop ↔
      Exists fun middle =>
        Tiles address size start left middle ∧ Tiles address size middle right stop := by
  induction left generalizing start with
  | nil => simp [Tiles]
  | cons block rest inductionHypothesis => simp [Tiles, inductionHypothesis, and_assoc]

namespace Tiles

theorem le (tiles : Tiles address size start blocks stop) : start ≤ stop := by
  induction blocks generalizing start with
  | nil => exact Nat.le_of_eq tiles
  | cons block rest inductionHypothesis =>
      exact Nat.le_trans (Nat.le_add_right _ _) (inductionHypothesis tiles.2)

theorem bounds (tiles : Tiles address size start blocks stop) {block : Block}
    (member : block ∈ blocks) : start ≤ address block ∧ address block + size block ≤ stop := by
  induction blocks generalizing start with
  | nil => cases member
  | cons first rest inductionHypothesis =>
      rcases tiles with ⟨same, tail⟩
      rcases List.mem_cons.mp member with rfl | later
      · exact ⟨Nat.le_of_eq same.symm, same ▸ tail.le⟩
      · have within := inductionHypothesis tail later
        exact ⟨Nat.le_trans (Nat.le_add_right _ _) within.1, within.2⟩

/-- Each block ends before every later one begins. -/
theorem pairwise (tiles : Tiles address size start blocks stop) :
    blocks.Pairwise (fun left right => address left + size left ≤ address right) := by
  induction blocks generalizing start with
  | nil => exact List.Pairwise.nil
  | cons first rest inductionHypothesis =>
      rcases tiles with ⟨same, tail⟩
      refine List.pairwise_cons.mpr ⟨?_, inductionHypothesis tail⟩
      intro later member
      rw [same]
      exact (tail.bounds member).1

theorem apart (tiles : Tiles address size start blocks stop) {left right : Block}
    (inLeft : left ∈ blocks) (inRight : right ∈ blocks) :
    left = right ∨ address left + size left ≤ address right ∨
      address right + size right ≤ address left := by
  have symmetric : Std.Symm (fun left right : Block =>
      address left + size left ≤ address right ∨ address right + size right ≤ address left) :=
    ⟨fun _ _ => Or.symm⟩
  have everywhere : blocks.Pairwise (fun left right =>
      address left + size left ≤ address right ∨ address right + size right ≤ address left) :=
    tiles.pairwise.imp Or.inl
  by_cases same : left = right
  · exact Or.inl same
  · exact Or.inr (everywhere.forall inLeft inRight same)

/-- With blocks of sizes divisible by a number, so are all addresses once the
first is. -/
theorem dvd_address (tiles : Tiles address size start blocks stop) {unit : Nat}
    (sizes : forall block, block ∈ blocks -> unit ∣ size block) (first : unit ∣ start)
    {block : Block} (member : block ∈ blocks) : unit ∣ address block := by
  induction blocks generalizing start with
  | nil => cases member
  | cons head rest inductionHypothesis =>
      rcases tiles with ⟨same, tail⟩
      rcases List.mem_cons.mp member with rfl | later
      · exact same ▸ first
      · exact inductionHypothesis tail
          (fun block inRest => sizes block (List.mem_cons_of_mem _ inRest))
          (Nat.dvd_add first (sizes head List.mem_cons_self)) later

end Tiles

end Tiling

end Library
end Goatos
