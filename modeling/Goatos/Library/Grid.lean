import Mathlib.Data.Nat.Basic
import Goatos.Library.Loop

namespace Goatos
namespace Library

/-!
# Grids in row-major order

A grid of cells is one array, and the place of a cell is computed from its row and
column.  Accesses fail outside the array.  Inside the grid a write changes the
cell it names and no other.
-/

variable {Cell : Type} {height width : Nat}

abbrev Grid (Cell : Type) (height width : Nat) :=
  Vector Cell (height * width)

namespace Grid

def get (grid : Grid Cell height width) (row column : Nat) : Option Cell :=
  grid[row * width + column]?

def put (grid : Grid Cell height width) (row column : Nat) (cell : Cell) :
    Option (Grid Cell height width) :=
  if inside : row * width + column < height * width then
    some (grid.set (row * width + column) cell inside)
  else none

theorem index_lt {row column : Nat} (inRow : row < height) (inColumn : column < width) :
    row * width + column < height * width := by
  have next : row * width + width ≤ height * width := by
    rw [← Nat.succ_mul]
    exact Nat.mul_le_mul_right width inRow
  omega

/-- A place in the array belongs to one row and column only. -/
theorem index_inj {row column row' column' : Nat} (inColumn : column < width)
    (inColumn' : column' < width)
    (same : row * width + column = row' * width + column') : row = row' ∧ column = column' := by
  have positive : 0 < width := Nat.zero_lt_of_lt inColumn
  have rows := congrArg (fun index => index / width) same
  have columns := congrArg (fun index => index % width) same
  simp only [Nat.mul_comm _ width, Nat.mul_add_div positive, Nat.div_eq_of_lt inColumn,
    Nat.div_eq_of_lt inColumn', Nat.add_zero] at rows
  simp only [Nat.mul_add_mod_self_right, Nat.mod_eq_of_lt inColumn, Nat.mod_eq_of_lt inColumn']
    at columns
  exact ⟨rows, columns⟩

theorem put_inside (grid : Grid Cell height width) {row column : Nat} (inRow : row < height)
    (inColumn : column < width) (cell : Cell) :
    Exists fun next => grid.put row column cell = some next ∧
      forall row' column', column' < width -> next.get row' column' =
        if row' = row ∧ column' = column then some cell else grid.get row' column' := by
  refine ⟨_, dif_pos (index_lt inRow inColumn), ?_⟩
  intro row' column' inColumn'
  rw [get, get, Vector.getElem?_set]
  by_cases same : row' = row ∧ column' = column
  · rw [if_pos same, same.1, same.2, if_pos rfl]
  · rw [if_neg same, if_neg]
    intro index
    exact same ⟨(index_inj inColumn inColumn' index).1.symm, (index_inj inColumn inColumn' index).2.symm⟩

/-- The first cells of a row have been written, and nothing else. -/
def RowWritten (original : Grid Cell height width) (row : Nat) (value : Nat -> Cell) (done : Nat)
    (grid : Grid Cell height width) : Prop :=
  forall row' column, column < width -> grid.get row' column =
    if row' = row ∧ column < done then some (value column) else original.get row' column

/-- A loop that writes a row from left to right, where each pass may look at the
other rows. -/
theorem forRange_row {body : Nat -> Grid Cell height width -> Option (Grid Cell height width)}
    (original : Grid Cell height width) {row : Nat} (inRow : row < height) (value : Nat -> Cell)
    (writes : forall column (grid : Grid Cell height width), column < width ->
      (forall row' column', row' ≠ row -> column' < width ->
        grid.get row' column' = original.get row' column') ->
      body column grid = grid.put row column (value column)) :
    Exists fun final => forRange body 0 width original = some final ∧
      forall row' column, column < width -> final.get row' column =
        if row' = row then some (value column) else original.get row' column := by
  have initially : RowWritten original row value 0 original := by
    intro row' column _
    rw [if_neg (fun both => Nat.not_lt_zero _ both.2)]
  have loop := forRange_rule body 0 width (RowWritten original row value) initially ?_
  · rcases loop with ⟨final, ran, cells⟩
    refine ⟨final, ran, ?_⟩
    intro row' column inColumn
    rw [cells row' column inColumn]
    exact if_congr (by omega) rfl rfl
  · intro done grid _ upper cells
    have others : forall row' column', row' ≠ row -> column' < width ->
        grid.get row' column' = original.get row' column' := by
      intro row' column' other inColumn
      rw [cells row' column' inColumn, if_neg (fun both => other both.1)]
    have inColumn : done < width := by omega
    rcases grid.put_inside inRow inColumn (value done) with ⟨next, put, changed⟩
    refine ⟨next, (writes done grid inColumn others).trans put, ?_⟩
    intro row' column inside
    rw [changed row' column inside, cells row' column inside]
    by_cases here : row' = row ∧ column = done
    · rw [if_pos here, if_pos ⟨here.1, by omega⟩, here.2]
    · rw [if_neg here]
      exact if_congr (by omega) rfl rfl

end Grid

end Library
end Goatos
