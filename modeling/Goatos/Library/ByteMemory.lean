import Mathlib.Algebra.Order.Ring.Nat
import Mathlib.Data.Set.Function
import Mathlib.Data.Set.Lattice
import Mathlib.Order.CompletePartialOrder
import Mathlib.Order.Interval.Set.Basic

namespace Goatos
namespace Library

/-!
# Byte-addressed memory and little-endian words

Every structure that a machine keeps in raw memory is a sequence of bytes at
fixed addresses.  A word is read and written as `width` consecutive bytes,
least significant first, so one development of loads and stores serves links,
headers, table entries and firmware records of any width.

The two rules used everywhere are that a store is seen by a load of the same
word, and that it is not seen by a load of bytes it does not touch.  The
second one is stated through agreement on the bytes that are read, because
that form also covers writes made by somebody else.
-/

/-- The contents of memory: one byte at every address.  There is no end to the
addresses; the bounds of a machine are stated where they matter. -/
abbrev ByteMemory := Nat -> UInt8

namespace ByteMemory

/-- The bytes of the half-open extent `[start, start + length)`. -/
def extent (start length : Nat) : Set Nat :=
  Set.Ico start (start + length)

/-- Read `width` bytes at `address` as a little-endian number. -/
def load (memory : ByteMemory) (address : Nat) : (width : Nat) -> Nat
  | 0 => 0
  | width + 1 => (memory address).toNat + 256 * load memory (address + 1) width

/-- Write the low `width` bytes of `value` at `address`, little-endian. -/
def store (memory : ByteMemory) (address width value : Nat) : ByteMemory :=
  fun target =>
    if address ≤ target ∧ target < address + width then
      UInt8.ofNat (value / 256 ^ (target - address))
    else memory target

def fill (memory : ByteMemory) (address count : Nat) (byte : UInt8) : ByteMemory :=
  fun target => if address ≤ target ∧ target < address + count then byte else memory target

theorem mem_extent {start length address : Nat} :
    address ∈ extent start length ↔ start ≤ address ∧ address < start + length :=
  Iff.rfl

/-- Extents that end before the other begins share no byte. -/
theorem disjoint_extent {start length start' length' : Nat}
    (apart : start + length ≤ start' ∨ start' + length' ≤ start) :
    Disjoint (extent start length) (extent start' length') := by
  rw [Set.disjoint_left]
  intro address inFirst inSecond
  have first := mem_extent.mp inFirst
  have second := mem_extent.mp inSecond
  omega

/-- A load depends only on the bytes of its own word, so it survives changes
elsewhere. -/
theorem load_congr {left right : ByteMemory} {address width : Nat}
    (agree : Set.EqOn left right (extent address width)) :
    left.load address width = right.load address width := by
  induction width generalizing address with
  | zero => rfl
  | succ width inductionHypothesis =>
      have head : left address = right address :=
        agree (mem_extent.mpr ⟨Nat.le_refl _, by omega⟩)
      have tail : Set.EqOn left right (extent (address + 1) width) := by
        intro target member
        have bounds := mem_extent.mp member
        exact agree (mem_extent.mpr ⟨by omega, by omega⟩)
      simp only [load, head, inductionHypothesis tail]

theorem load_eq_zero {memory : ByteMemory} {address width : Nat}
    (zeros : forall target, target ∈ extent address width -> memory target = 0) :
    memory.load address width = 0 := by
  induction width generalizing address with
  | zero => rfl
  | succ width inductionHypothesis =>
      have head : memory address = 0 := zeros address (mem_extent.mpr ⟨Nat.le_refl _, by omega⟩)
      have tail : memory.load (address + 1) width = 0 := by
        apply inductionHypothesis
        intro target member
        have bounds := mem_extent.mp member
        exact zeros target (mem_extent.mpr ⟨by omega, by omega⟩)
      rw [load, head, tail]
      rfl

theorem load_lt (memory : ByteMemory) (address width : Nat) :
    memory.load address width < 256 ^ width := by
  induction width generalizing address with
  | zero => exact Nat.one_pos
  | succ width inductionHypothesis =>
      have tail := inductionHypothesis (address + 1)
      have head := (memory address).toNat_lt
      rw [load, Nat.pow_succ]
      omega

/-- A word is made of the word of its low bytes and that of the rest. -/
theorem load_add (memory : ByteMemory) (address low high : Nat) :
    memory.load address (low + high) =
      memory.load address low + 256 ^ low * memory.load (address + low) high := by
  induction low generalizing address with
  | zero => rw [Nat.zero_add, Nat.pow_zero, Nat.one_mul, Nat.add_zero, load, Nat.zero_add]
  | succ low inductionHypothesis =>
      have rest := inductionHypothesis (address + 1)
      rw [Nat.add_assoc address, Nat.add_comm 1 low] at rest
      rw [Nat.succ_add, load, rest, load, Nat.pow_succ', Nat.mul_add, Nat.mul_assoc, Nat.add_assoc]

theorem store_outside (memory : ByteMemory) {address width value target : Nat}
    (outside : target < address ∨ address + width ≤ target) :
    memory.store address width value target = memory target := by
  rw [store, if_neg]
  omega

theorem store_zero (memory : ByteMemory) (address width target : Nat) :
    memory.store address width 0 target =
      if address ≤ target ∧ target < address + width then 0 else memory target := by
  rw [store, Nat.zero_div]
  rfl

theorem fill_outside (memory : ByteMemory) {address count target : Nat} {byte : UInt8}
    (outside : target < address ∨ address + count ≤ target) :
    memory.fill address count byte target = memory target := by
  rw [fill, if_neg]
  omega

theorem fill_inside (memory : ByteMemory) {address count target : Nat} {byte : UInt8}
    (inside : address ≤ target ∧ target < address + count) :
    memory.fill address count byte target = byte := by
  rw [fill, if_pos inside]

/-- A load of bytes that a store does not touch is unchanged by it. -/
theorem load_store_of_disjoint (memory : ByteMemory) {address width value target size : Nat}
    (apart : target + size ≤ address ∨ address + width ≤ target) :
    (memory.store address width value).load target size = memory.load target size := by
  apply load_congr
  intro byte member
  have bounds := mem_extent.mp member
  exact store_outside memory (by omega)

/-- The bytes of a stored word, read back one suffix at a time.  This is the
induction behind reading a whole word. -/
private theorem load_store_suffix (memory : ByteMemory) (address width value : Nat) :
    forall offset size, offset + size = width ->
      (memory.store address width value).load (address + offset) size =
        value / 256 ^ offset % 256 ^ size := by
  intro offset size
  induction size generalizing offset with
  | zero => intro _; simp only [load, Nat.pow_zero, Nat.mod_one]
  | succ size inductionHypothesis =>
      intro total
      have tail := inductionHypothesis (offset + 1) (by omega)
      have head : (memory.store address width value (address + offset)).toNat =
          value / 256 ^ offset % 256 := by
        rw [store, if_pos (by omega), Nat.add_sub_cancel_left]
        exact UInt8.toNat_ofNat'
      rw [load, head, Nat.add_assoc, tail, Nat.pow_succ 256 offset, ← Nat.div_div_eq_div_mul,
        Nat.pow_succ', Nat.mod_mul]

theorem load_store_same (memory : ByteMemory) (address width value : Nat) :
    (memory.store address width value).load address width = value % 256 ^ width := by
  have whole := load_store_suffix memory address width value 0 width (Nat.zero_add _)
  rwa [Nat.add_zero, Nat.pow_zero, Nat.div_one] at whole

/-- A value that fits its word survives the round trip exactly. -/
theorem load_store_of_lt (memory : ByteMemory) {address width value : Nat}
    (fits : value < 256 ^ width) :
    (memory.store address width value).load address width = value := by
  rw [load_store_same, Nat.mod_eq_of_lt fits]

attribute [irreducible] load store fill

end ByteMemory

end Library
end Goatos
