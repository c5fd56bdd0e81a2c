import Mathlib.Algebra.GroupWithZero.Nat
import Mathlib.Data.List.Chain
import Mathlib.Order.Interval.Set.Basic
import Goatos.Library.Tiling

namespace Goatos
namespace Library

/-!
# Maximal runs

A set of addresses falls into stretches without a gap, and a stretch that cannot
be made longer is a maximal run.  When an interval is tiled by blocks, some of
them chosen and no two neighbours both chosen, the maximal runs of the chosen
bytes are the chosen blocks themselves.  So the bytes alone determine the blocks,
whatever was done to arrive at them.
-/

/-- `[low, high)` is a stretch of the set that cannot be made longer. -/
structure MaximalRun (members : Set Nat) (low high : Nat) : Prop where
  nonempty : low < high
  inside : Set.Ico low high ⊆ members
  before : forall previous, previous + 1 = low -> previous ∉ members
  after : high ∉ members

namespace MaximalRun

variable {members : Set Nat} {low high otherLow otherHigh : Nat}

private theorem low_le_of_meets (run : MaximalRun members low high)
    (other : MaximalRun members otherLow otherHigh) {meeting : Nat}
    (inRun : meeting ∈ Set.Ico low high) (inOther : meeting ∈ Set.Ico otherLow otherHigh) :
    low ≤ otherLow := by
  apply Nat.le_of_not_lt
  intro earlier
  rcases Nat.exists_eq_succ_of_ne_zero (Nat.ne_zero_of_lt earlier) with ⟨previous, succ⟩
  refine run.before previous succ.symm (other.inside ⟨by omega, ?_⟩)
  have bounds := inRun.1
  have within := inOther.2
  omega

private theorem high_le_of_meets (run : MaximalRun members low high)
    (other : MaximalRun members otherLow otherHigh) {meeting : Nat}
    (inRun : meeting ∈ Set.Ico low high) (inOther : meeting ∈ Set.Ico otherLow otherHigh) :
    otherHigh ≤ high := by
  apply Nat.le_of_not_lt
  intro longer
  refine run.after (other.inside ⟨?_, longer⟩)
  exact Nat.le_trans inOther.1 (Nat.le_of_lt inRun.2)

/-- Maximal runs that meet are the same, so an address lies in one of them at
most. -/
theorem eq_of_meets (run : MaximalRun members low high)
    (other : MaximalRun members otherLow otherHigh) {meeting : Nat}
    (inRun : meeting ∈ Set.Ico low high) (inOther : meeting ∈ Set.Ico otherLow otherHigh) :
    low = otherLow ∧ high = otherHigh :=
  ⟨Nat.le_antisymm (run.low_le_of_meets other inRun inOther)
      (other.low_le_of_meets run inOther inRun),
    Nat.le_antisymm (other.high_le_of_meets run inOther inRun)
      (run.high_le_of_meets other inRun inOther)⟩

end MaximalRun

section Tilings

variable {Block : Type} (address size : Block -> Nat) (chosen : Block -> Bool)

/-- The addresses that the chosen blocks cover. -/
def chosenBytes (blocks : List Block) : Set Nat :=
  fun target => Exists fun block => block ∈ blocks ∧ chosen block = true ∧
    target ∈ Set.Ico (address block) (address block + size block)

variable {address size chosen} {start stop : Nat} {blocks before after : List Block} {block : Block}

theorem mem_chosenBytes {target : Nat} : target ∈ chosenBytes address size chosen blocks ↔
    Exists fun block => block ∈ blocks ∧ chosen block = true ∧
      target ∈ Set.Ico (address block) (address block + size block) :=
  Iff.rfl

@[simp] theorem chosenBytes_append {left right : List Block} :
    chosenBytes address size chosen (left ++ right) =
      chosenBytes address size chosen left ∪ chosenBytes address size chosen right := by
  ext target
  simp only [mem_chosenBytes, Set.mem_union, List.mem_append, or_and_right, exists_or]

theorem chosenBytes_cons_of_chosen (isChosen : chosen block = true) :
    chosenBytes address size chosen (block :: after) =
      Set.Ico (address block) (address block + size block) ∪
        chosenBytes address size chosen after := by
  ext target
  simp only [mem_chosenBytes, Set.mem_union, List.mem_cons, or_and_right, exists_or,
    exists_eq_left, isChosen, true_and]

theorem chosenBytes_cons_of_not (notChosen : chosen block = false) :
    chosenBytes address size chosen (block :: after) = chosenBytes address size chosen after := by
  ext target
  simp only [mem_chosenBytes, List.mem_cons, or_and_right, exists_or, exists_eq_left, notChosen,
    Bool.false_eq_true, false_and, false_or]

namespace Tiles

theorem head_of_le (tiles : Tiles address size start blocks stop)
    (positive : forall block, block ∈ blocks -> 0 < size block) (member : block ∈ blocks)
    (early : address block ≤ start) : block ∈ blocks.head? := by
  cases blocks with
  | nil => cases member
  | cons first rest =>
      rcases List.mem_cons.mp member with rfl | later
      · rfl
      · have bounds := tiles.2.bounds later
        have room := positive first List.mem_cons_self
        omega

theorem last_of_le (tiles : Tiles address size start blocks stop)
    (positive : forall block, block ∈ blocks -> 0 < size block) (member : block ∈ blocks)
    (late : stop ≤ address block + size block) : block ∈ blocks.getLast? := by
  rcases List.eq_nil_or_concat' blocks with rfl | ⟨early, last, rfl⟩
  · cases member
  · rcases tiles_append.mp tiles with ⟨middle, tilesEarly, same, ends⟩
    rcases List.mem_append.mp member with earlier | isLast
    · have bounds := tilesEarly.bounds earlier
      have room := positive last (by simp)
      simp only [Tiles] at ends
      omega
    · rw [List.mem_singleton.mp isLast]
      exact List.getLast?_concat

theorem exists_covering (tiles : Tiles address size start blocks stop) {target : Nat}
    (inside : target ∈ Set.Ico start stop) :
    Exists fun block => block ∈ blocks ∧
      target ∈ Set.Ico (address block) (address block + size block) := by
  induction blocks generalizing start with
  | nil =>
      cases tiles
      exact absurd (Nat.lt_of_le_of_lt inside.1 inside.2) (Nat.lt_irrefl _)
  | cons first rest inductionHypothesis =>
      rcases Nat.lt_or_ge target (start + size first) with early | late
      · refine ⟨first, List.mem_cons_self, ?_⟩
        rw [tiles.1]
        exact ⟨inside.1, early⟩
      · rcases inductionHypothesis tiles.2 ⟨late, inside.2⟩ with ⟨block, member, covers⟩
        exact ⟨block, List.mem_cons_of_mem _ member, covers⟩

/-- What the other blocks do not cover, the chosen ones do. -/
theorem diff_chosenBytes (tiles : Tiles address size start blocks stop) :
    Set.Ico start stop \ chosenBytes address size (fun block => !chosen block) blocks =
      chosenBytes address size chosen blocks := by
  ext target
  constructor
  · rintro ⟨inside, uncovered⟩
    rcases tiles.exists_covering inside with ⟨block, member, covers⟩
    refine ⟨block, member, ?_, covers⟩
    cases isChosen : chosen block with
    | true => rfl
    | false => exact absurd ⟨block, member, by simp [isChosen], covers⟩ uncovered
  · rintro ⟨block, member, isChosen, covers⟩
    have bounds := tiles.bounds member
    have lower := covers.1
    have upper := covers.2
    refine ⟨⟨by omega, by omega⟩, ?_⟩
    rintro ⟨other, otherMember, otherChosen, otherCovers⟩
    have otherLower := otherCovers.1
    have otherUpper := otherCovers.2
    rcases tiles.apart member otherMember with rfl | earlier | later
    · simp [isChosen] at otherChosen
    · omega
    · omega

theorem sum_size (tiles : Tiles address size start blocks stop) :
    start + (blocks.map size).sum = stop := by
  induction blocks generalizing start with
  | nil => exact tiles
  | cons first rest inductionHypothesis =>
      rw [List.map_cons, List.sum_cons, ← Nat.add_assoc]
      exact inductionHypothesis tiles.2

/-- A chosen block between blocks that are not chosen is a maximal run. -/
theorem maximalRun_of_mem (tiles : Tiles address size start blocks stop)
    (positive : forall block, block ∈ blocks -> 0 < size block)
    (separate : blocks.IsChain (fun left right => ¬ (chosen left = true ∧ chosen right = true)))
    (member : block ∈ blocks) (isChosen : chosen block = true) :
    MaximalRun (chosenBytes address size chosen blocks) (address block)
      (address block + size block) := by
  rcases List.append_of_mem member with ⟨before, after, rfl⟩
  rcases tiles_append.mp tiles with ⟨middle, tilesBefore, rfl, tilesAfter⟩
  rcases List.isChain_append.mp separate with ⟨_, following, preceding⟩
  have room := positive block member
  refine ⟨by omega, fun target inside => ⟨block, member, isChosen, inside⟩, ?_, ?_⟩
  · rintro previous succ ⟨other, inRow, otherChosen, inside⟩
    have lower := inside.1
    have upper := inside.2
    rcases List.mem_append.mp inRow with early | late
    · have bounds := tilesBefore.bounds early
      have isLast := tilesBefore.last_of_le
        (fun block inBefore => positive block (List.mem_append_left _ inBefore)) early (by omega)
      exact preceding other isLast block rfl ⟨otherChosen, isChosen⟩
    · rcases List.mem_cons.mp late with rfl | later
      · omega
      · have bounds := tilesAfter.bounds later
        omega
  · rintro ⟨other, inRow, otherChosen, inside⟩
    have lower := inside.1
    have upper := inside.2
    rcases List.mem_append.mp inRow with early | late
    · have bounds := tilesBefore.bounds early
      omega
    · rcases List.mem_cons.mp late with rfl | later
      · omega
      · have isHead := tilesAfter.head_of_le
          (fun block inAfter => positive block (by simp [inAfter])) later lower
        exact (List.isChain_cons.mp following).1 other isHead ⟨isChosen, otherChosen⟩

/-- If no two chosen blocks are neighbours, the maximal runs of the chosen bytes are
exactly the chosen blocks. -/
theorem maximalRun_iff (tiles : Tiles address size start blocks stop)
    (positive : forall block, block ∈ blocks -> 0 < size block)
    (separate : blocks.IsChain (fun left right => ¬ (chosen left = true ∧ chosen right = true)))
    {low high : Nat} :
    MaximalRun (chosenBytes address size chosen blocks) low high ↔
      Exists fun block => block ∈ blocks ∧ chosen block = true ∧ address block = low ∧
        address block + size block = high := by
  constructor
  · intro run
    have first : low ∈ Set.Ico low high := ⟨Nat.le_refl low, run.nonempty⟩
    rcases run.inside first with ⟨block, member, isChosen, inside⟩
    have whole := tiles.maximalRun_of_mem positive separate member isChosen
    have same := whole.eq_of_meets run inside first
    exact ⟨block, member, isChosen, same⟩
  · rintro ⟨block, member, isChosen, rfl, rfl⟩
    exact tiles.maximalRun_of_mem positive separate member isChosen

end Tiles

end Tilings

end Library
end Goatos
