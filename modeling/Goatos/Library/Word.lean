import Mathlib.Data.Nat.Bitwise

namespace Goatos
namespace Library

/-!
# Unsigned machine words

Machine words are natural numbers below a power of two, and the operations that
differ from those on natural numbers carry the width explicitly.
-/

/-- What holds of all numbers below 256 holds of every byte.  Tables over bytes are
decided this way. -/
theorem forall_byte {property : UInt8 -> Prop}
    (all : forall value : Fin 256, property (UInt8.ofNat value.val)) (byte : UInt8) :
    property byte := by
  have found := all ⟨byte.toNat, byte.toNat_lt⟩
  rwa [UInt8.ofNat_toNat] at found

/-- Addition of two unsigned machine integers of `bits` bits that stops at the
largest one. -/
def saturatingAdd (bits left right : Nat) : Nat :=
  min (left + right) (2 ^ bits - 1)

def checkedAdd (bits left right : Nat) : Option Nat :=
  if left + right < 2 ^ bits then some (left + right) else none

/-- What an addition does whose result does not fit its word: a checked build
stops, another one wraps around. -/
inductive Overflow where
  | panics
  | wraps
  deriving DecidableEq, Repr

/-- Addition of machine integers; `none` is a panic. -/
def addWord (mode : Overflow) (bits left right : Nat) : Option Nat :=
  if left + right < 2 ^ bits then some (left + right)
  else
    match mode with
    | .panics => none
    | .wraps => some ((left + right) % 2 ^ bits)

theorem addWord_of_lt (mode : Overflow) {bits left right : Nat} (fits : left + right < 2 ^ bits) :
    addWord mode bits left right = some (left + right) :=
  if_pos fits

/-- Multiplication of machine integers; `none` is a panic. -/
def mulWord (mode : Overflow) (bits left right : Nat) : Option Nat :=
  if left * right < 2 ^ bits then some (left * right)
  else
    match mode with
    | .panics => none
    | .wraps => some (left * right % 2 ^ bits)

theorem mulWord_of_lt (mode : Overflow) {bits left right : Nat} (fits : left * right < 2 ^ bits) :
    mulWord mode bits left right = some (left * right) :=
  if_pos fits

/-- `value & !mask` on words of `bits` bits. -/
def andNot (bits value mask : Nat) : Nat :=
  value &&& ((2 ^ bits - 1) ^^^ mask)

/-- Clearing the low bits of a word rounds it down to a multiple. -/
theorem andNot_low {bits value : Nat} (shift : Nat) (fits : value < 2 ^ bits) :
    andNot bits value (2 ^ shift - 1) = value / 2 ^ shift * 2 ^ shift := by
  apply Nat.eq_of_testBit_eq
  intro index
  rw [andNot, Nat.testBit_and, Nat.testBit_xor, Nat.testBit_two_pow_sub_one,
    Nat.testBit_two_pow_sub_one, Nat.testBit_mul_two_pow, Nat.testBit_div_two_pow]
  by_cases inWord : index < bits
  · by_cases low : index < shift
    · simp [inWord, low, Nat.not_le_of_lt low]
    · have high := Nat.le_of_not_lt low
      simp [inWord, low, high, Nat.sub_add_cancel high]
  · have above := Nat.lt_of_lt_of_le fits
      (Nat.pow_le_pow_right Nat.two_pos (Nat.le_of_not_lt inWord))
    by_cases low : index < shift
    · simp [Nat.testBit_lt_two_pow above, Nat.not_le_of_lt low]
    · have high := Nat.le_of_not_lt low
      simp [Nat.testBit_lt_two_pow above, high, Nat.sub_add_cancel high]

/-- A part above `shift` bits needs as many bits more as it has itself. -/
theorem add_shifted_lt {low middle shift width : Nat} (lowSmall : low < 2 ^ shift)
    (middleSmall : middle < 2 ^ width) : low + middle * 2 ^ shift < 2 ^ (shift + width) := by
  calc low + middle * 2 ^ shift < 2 ^ shift + middle * 2 ^ shift := Nat.add_lt_add_right lowSmall _
    _ = (middle + 1) * 2 ^ shift := by rw [Nat.add_mul, Nat.one_mul, Nat.add_comm]
    _ ≤ 2 ^ width * 2 ^ shift := Nat.mul_le_mul_right _ middleSmall
    _ = 2 ^ (shift + width) := by rw [Nat.add_comm, Nat.pow_add]

/-- The bits from `shift` on of a number that is put together from parts. -/
theorem digits_eq {value middle : Nat} (shift width low high : Nat)
    (parts : value = low + middle * 2 ^ shift + high * 2 ^ (shift + width))
    (lowSmall : low < 2 ^ shift) (middleSmall : middle < 2 ^ width) :
    value / 2 ^ shift % 2 ^ width = middle := by
  have above : value = low + (middle + high * 2 ^ width) * 2 ^ shift := by
    rw [parts, Nat.pow_add, Nat.add_mul, Nat.mul_assoc, Nat.mul_comm (2 ^ width), Nat.add_assoc]
  rw [above, Nat.add_mul_div_right _ _ (Nat.two_pow_pos shift), Nat.div_eq_of_lt lowSmall,
    Nat.zero_add, Nat.add_mul_mod_self_right, Nat.mod_eq_of_lt middleSmall]

/-- Flags in the low bits of an aligned word are simply added to it. -/
theorem or_eq_add {base flags shift : Nat} (aligned : 2 ^ shift ∣ base) (small : flags < 2 ^ shift) :
    base ||| flags = base + flags := by
  rcases aligned with ⟨high, rfl⟩
  exact (Nat.two_pow_add_eq_or_of_lt small high).symm

end Library
end Goatos
