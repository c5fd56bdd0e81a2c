import Goatos.Library.ByteMemory

namespace Goatos
namespace Library

/-!
# Little-endian numbers as lists of bytes

Records that are written by one program and read by another are lists of bytes
in between.  Here a number is encoded as a fixed number of bytes and decoded
again, and a list of bytes is put into memory as a whole.  Encoding a number
and storing the bytes is the same as storing the word.
-/

def leBytes : (width value : Nat) -> List UInt8
  | 0, _ => []
  | width + 1, value => UInt8.ofNat value :: leBytes width (value / 256)

def ofLeBytes : List UInt8 -> Nat
  | [] => 0
  | byte :: rest => byte.toNat + 256 * ofLeBytes rest

@[simp] theorem length_leBytes (width value : Nat) : (leBytes width value).length = width := by
  induction width generalizing value with
  | zero => rfl
  | succ width inductionHypothesis => simp [leBytes, inductionHypothesis]

/-- Decoding inverts encoding for numbers that fit. -/
theorem ofLeBytes_leBytes {width value : Nat} (fits : value < 256 ^ width) :
    ofLeBytes (leBytes width value) = value := by
  induction width generalizing value with
  | zero =>
      rw [Nat.pow_zero] at fits
      simp [leBytes, ofLeBytes]
      omega
  | succ width inductionHypothesis =>
      have rest : value / 256 < 256 ^ width := by
        rw [Nat.pow_succ] at fits
        omega
      simp [leBytes, ofLeBytes, inductionHypothesis rest]
      omega

theorem getElem?_leBytes {width index : Nat} (value : Nat) (inRange : index < width) :
    (leBytes width value)[index]? = some (UInt8.ofNat (value / 256 ^ index)) := by
  induction width generalizing value index with
  | zero => exact absurd inRange (Nat.not_lt_zero _)
  | succ width inductionHypothesis =>
      cases index with
      | zero => simp [leBytes]
      | succ index =>
          rw [leBytes, List.getElem?_cons_succ, inductionHypothesis _ (Nat.lt_of_succ_lt_succ inRange),
            Nat.div_div_eq_div_mul, Nat.pow_succ']

namespace ByteMemory

def storeBytes (memory : ByteMemory) (address : Nat) (bytes : List UInt8) : ByteMemory :=
  fun target =>
    if target < address then memory target
    else bytes[target - address]?.getD (memory target)

theorem storeBytes_outside (memory : ByteMemory) {address target : Nat} {bytes : List UInt8}
    (outside : target < address ∨ address + bytes.length ≤ target) :
    memory.storeBytes address bytes target = memory target := by
  unfold storeBytes
  split
  · rfl
  · rename_i later
    rw [List.getElem?_eq_none (by omega), Option.getD_none]

theorem storeBytes_nil (memory : ByteMemory) (address : Nat) :
    memory.storeBytes address [] = memory := by
  funext target
  apply storeBytes_outside
  rw [List.length_nil]
  omega

/-- Lists of bytes that follow each other may be stored one after the other. -/
theorem storeBytes_append (memory : ByteMemory) (address : Nat) (first second : List UInt8) :
    memory.storeBytes address (first ++ second) =
      (memory.storeBytes address first).storeBytes (address + first.length) second := by
  funext target
  by_cases before : target < address + first.length
  · rw [storeBytes_outside _ (Or.inl before)]
    unfold storeBytes
    split
    · rfl
    · rename_i later
      rw [List.getElem?_append_left (by omega)]
  · have offset : target - address - first.length = target - (address + first.length) := by omega
    have short : first[target - address]? = none := List.getElem?_eq_none (by omega)
    unfold storeBytes
    rw [if_neg (by omega), if_neg before, List.getElem?_append_right (by omega), offset,
      if_neg (by omega), short, Option.getD_none]

/-- Storing the bytes of a number stores the word. -/
theorem storeBytes_leBytes (memory : ByteMemory) (address width value : Nat) :
    memory.storeBytes address (leBytes width value) = memory.store address width value := by
  funext target
  by_cases inside : address ≤ target ∧ target < address + width
  · unfold storeBytes store
    rw [if_neg (by omega), if_pos inside, getElem?_leBytes value (by omega), Option.getD_some]
  · rw [storeBytes_outside _ (by rw [length_leBytes]; omega), store_outside _ (by omega)]

attribute [irreducible] storeBytes

end ByteMemory

end Library
end Goatos
