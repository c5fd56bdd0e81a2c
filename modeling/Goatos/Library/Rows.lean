import Mathlib.Data.List.Basic
import Mathlib.Data.List.Induction

namespace Goatos
namespace Library

/-!
# Lines and rows of a text

A text is divided into lines by a separator, and every line is broken into rows of
a given width.  The same rows come about by typing the text on a roll, one item at
a time, where a full row is left only when there is something to put into the next
one.
-/

variable {Item : Type}

/-- How many rows a line takes: at least one, and no empty one after a full one. -/
def rowCount (width length : Nat) : Nat :=
  max 1 ((length + width - 1) / width)

def breakRows (width : Nat) (line : List Item) : List (List Item) :=
  (List.range (rowCount width line.length)).map
    (fun index => (line.drop (width * index)).take width)

def textRows [BEq Item] (width : Nat) (separator : Item) (text : List Item) : List (List Item) :=
  (text.splitOn separator).flatMap (breakRows width)

/-- Rows that are finished and the one that is being written.  This is how a device
that has no lines keeps a text. -/
structure Roll (Item : Type) where
  above : List (List Item)
  last : List Item

namespace Roll

def empty : Roll Item :=
  ⟨[], []⟩

def rows (roll : Roll Item) : List (List Item) :=
  roll.above ++ [roll.last]

def feed (roll : Roll Item) : Roll Item :=
  ⟨roll.above ++ [roll.last], []⟩

def append (roll : Roll Item) (item : Item) : Roll Item :=
  { roll with last := roll.last ++ [item] }

def type [DecidableEq Item] (width : Nat) (separator : Item) (roll : Roll Item) (item : Item) :
    Roll Item :=
  if item = separator then roll.feed
  else if roll.last.length ≥ width then roll.feed.append item
  else roll.append item

end Roll

/-! ## One more item -/

theorem getElem?_append_singleton_of_ne {items : List Item} {index : Nat}
    (other : index ≠ items.length) (last : Item) : (items ++ [last])[index]? = items[index]? := by
  rcases Nat.lt_or_gt_of_ne other with below | above
  · exact List.getElem?_append_left below
  · rw [List.getElem?_eq_none (Nat.le_of_lt above), List.getElem?_eq_none]
    rw [List.length_append, List.length_singleton]
    exact above

theorem rowCount_eq {width length full : Nat} (lower : width * full ≤ length)
    (upper : length ≤ width * (full + 1)) (several : full = 0 ∨ width * full < length)
    (positive : 0 < width) : rowCount width length = full + 1 := by
  rw [Nat.mul_succ] at upper
  by_cases none : length = 0
  · have zero : full = 0 := by omega
    rw [rowCount, none, zero, Nat.zero_add, Nat.div_eq_of_lt (by omega)]
    rfl
  · have rest : width * full < length := by
      rcases several with zero | rest
      · rw [zero, Nat.mul_zero]
        omega
      · exact rest
    have quotient : (length + width - 1) / width = full + 1 := by
      apply Nat.div_eq_of_lt_le
      · rw [Nat.succ_mul, Nat.mul_comm]
        omega
      · rw [Nat.succ_mul, Nat.succ_mul, Nat.mul_comm]
        omega
    rw [rowCount, quotient]
    omega

/-- The rows of a line are full but for the last, which has the rest. -/
theorem rowCount_bounds {width : Nat} (length : Nat) (positive : 0 < width) :
    Exists fun full => rowCount width length = full + 1 ∧ width * full ≤ length ∧
      length ≤ width * (full + 1) ∧ (full = 0 ∨ width * full < length) := by
  by_cases none : length = 0
  · subst none
    exact ⟨0, rowCount_eq (Nat.zero_le _) (Nat.zero_le _) (Or.inl rfl) positive, Nat.zero_le _,
      Nat.zero_le _, Or.inl rfl⟩
  · have divided := Nat.div_add_mod (length - 1) width
    have small := Nat.mod_lt (length - 1) positive
    have lower : width * ((length - 1) / width) < length := by omega
    have upper : length ≤ width * ((length - 1) / width + 1) := by
      rw [Nat.mul_succ]
      omega
    exact ⟨_, rowCount_eq (Nat.le_of_lt lower) upper (Or.inr lower) positive, Nat.le_of_lt lower,
      upper, Or.inr lower⟩

theorem breakRows_nil {width : Nat} (positive : 0 < width) :
    breakRows width ([] : List Item) = [[]] := by
  rw [breakRows, List.length_nil,
    rowCount_eq (Nat.zero_le _) (Nat.zero_le _) (Or.inl rfl) positive]
  simp

theorem row_append {width index : Nat} (line more : List Item)
    (inside : width * index + width ≤ line.length) :
    ((line ++ more).drop (width * index)).take width =
      (line.drop (width * index)).take width := by
  rw [List.drop_append_of_le_length (by omega), List.take_append_of_le_length]
  rw [List.length_drop]
  omega

/-- Nor do the rows above the last one. -/
theorem rows_append {width full : Nat} (line more : List Item) (lower : width * full ≤ line.length) :
    (List.range full).map (fun index => ((line ++ more).drop (width * index)).take width) =
      (List.range full).map (fun index => (line.drop (width * index)).take width) := by
  apply List.map_congr_left
  intro index member
  apply row_append
  have next := Nat.mul_le_mul_left width (List.mem_range.mp member)
  rw [Nat.succ_eq_add_one, Nat.mul_succ] at next
  omega

/-- Breaking a line that is one item longer. -/
theorem breakRows_snoc {width : Nat} (positive : 0 < width) (line : List Item) (item : Item) :
    Exists fun above => Exists fun last => breakRows width line = above ++ [last] ∧
      breakRows width (line ++ [item]) =
        if last.length ≥ width then above ++ [last] ++ [[item]] else above ++ [last ++ [item]] := by
  rcases rowCount_bounds line.length positive with ⟨full, count, lower, upper, several⟩
  rw [Nat.mul_succ] at upper
  have rest : (line.drop (width * full)).length ≤ width := by
    rw [List.length_drop]
    omega
  have length : (line ++ [item]).length = line.length + 1 := by
    rw [List.length_append, List.length_singleton]
  refine ⟨(List.range full).map (fun index => (line.drop (width * index)).take width),
    line.drop (width * full), ?_, ?_⟩
  · rw [breakRows, count, List.range_succ, List.map_append, List.map_singleton,
      List.take_of_length_le rest]
  · by_cases filled : (line.drop (width * full)).length ≥ width
    · rw [if_pos filled]
      rw [List.length_drop] at filled
      have exact : line.length = width * full + width := by omega
      have more : rowCount width (line ++ [item]).length = full + 1 + 1 := by
        apply rowCount_eq
        · rw [Nat.mul_succ]
          omega
        · rw [Nat.mul_succ, Nat.mul_succ]
          omega
        · rw [Nat.mul_succ]
          omega
        · exact positive
      rw [breakRows, more, List.range_succ, List.range_succ, List.map_append, List.map_append,
        rows_append line [item] lower, List.map_singleton, List.map_singleton,
        row_append line [item] (by omega), List.take_of_length_le rest]
      congr 2
      rw [Nat.mul_succ, ← exact, List.drop_left]
      exact List.take_of_length_le (by simp only [List.length_singleton]; omega)
    · rw [if_neg filled]
      rw [List.length_drop] at filled
      have same : rowCount width (line ++ [item]).length = full + 1 := by
        apply rowCount_eq
        · omega
        · rw [Nat.mul_succ]
          omega
        · omega
        · exact positive
      rw [breakRows, same, List.range_succ, List.map_append, rows_append line [item] lower,
        List.map_singleton, List.drop_append_of_le_length lower]
      congr 2
      apply List.take_of_length_le
      rw [List.length_append, List.length_drop, List.length_singleton]
      omega

theorem splitOn_snoc [DecidableEq Item] (separator : Item) (text : List Item) (item : Item) :
    Exists fun lines => Exists fun last => text.splitOn separator = lines ++ [last] ∧
      (text ++ [item]).splitOn separator =
        if item = separator then lines ++ [last] ++ [[]] else lines ++ [last ++ [item]] := by
  induction text with
  | nil =>
      refine ⟨[], [], rfl, ?_⟩
      rw [List.nil_append, List.splitOn, List.splitOnP_cons_eq_if_modifyHead]
      simp only [beq_iff_eq]
      split
      · rfl
      · rfl
  | cons first text inductionHypothesis =>
      rcases inductionHypothesis with ⟨lines, last, split, longer⟩
      rw [List.splitOn] at split longer
      rw [List.cons_append, List.splitOn, List.splitOn, List.splitOnP_cons_eq_if_modifyHead,
        List.splitOnP_cons_eq_if_modifyHead, split, longer]
      by_cases separates : first = separator
      · rw [if_pos (beq_iff_eq.mpr separates), if_pos (beq_iff_eq.mpr separates)]
        refine ⟨[] :: lines, last, rfl, ?_⟩
        split
        · rfl
        · rfl
      · rw [if_neg (fun same => separates (beq_iff_eq.mp same)),
          if_neg (fun same => separates (beq_iff_eq.mp same))]
        cases lines with
        | nil =>
            refine ⟨[], first :: last, rfl, ?_⟩
            split
            · rfl
            · rfl
        | cons line lines =>
            refine ⟨(first :: line) :: lines, last, rfl, ?_⟩
            split
            · rfl
            · rfl

/-- Typing a text on an empty roll, one item after the other, gives the rows of the
whole text. -/
theorem rows_typed [DecidableEq Item] {width : Nat} (positive : 0 < width) (separator : Item)
    (text : List Item) :
    (text.foldl (Roll.type width separator) Roll.empty).rows = textRows width separator text := by
  induction text using List.reverseRecOn with
  | nil =>
      have single : breakRows width ([] : List Item) = [[]] := breakRows_nil positive
      simp [textRows, Roll.rows, Roll.empty, single]
  | append_singleton text item inductionHypothesis =>
      rcases splitOn_snoc separator text item with ⟨lines, line, split, longer⟩
      rcases breakRows_snoc positive line item with ⟨above, last, rows, moreRows⟩
      rw [List.foldl_append, List.foldl_cons, List.foldl_nil]
      generalize text.foldl (Roll.type width separator) Roll.empty = roll at inductionHypothesis
      have known : roll.above ++ [roll.last] = (lines.flatMap (breakRows width) ++ above) ++ [last] := by
        rw [← Roll.rows, inductionHypothesis, textRows, split, List.flatMap_append,
          List.flatMap_singleton, rows, List.append_assoc]
      rcases List.append_inj' known rfl with ⟨sameAbove, sameLast⟩
      rw [List.cons.injEq] at sameLast
      rw [textRows, longer, Roll.type]
      by_cases separates : item = separator
      · rw [if_pos separates, if_pos separates, List.flatMap_append, ← split, ← textRows,
          ← inductionHypothesis, List.flatMap_singleton, breakRows_nil positive]
        rfl
      · rw [if_neg separates, if_neg separates, List.flatMap_append, List.flatMap_singleton,
          moreRows, sameLast.1]
        by_cases filled : last.length ≥ width
        · rw [if_pos filled, if_pos filled, Roll.rows, Roll.append, Roll.feed, known]
          simp only [List.append_assoc, List.nil_append]
        · rw [if_neg filled, if_neg filled, Roll.rows, Roll.append, sameAbove, sameLast.1,
            List.append_assoc]

end Library
end Goatos
