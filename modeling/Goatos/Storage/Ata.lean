import Goatos.Library.Word

namespace Goatos
namespace Storage

open Library

/-!
# Reading sectors

`read_lba` checks its arguments and leaves the transfer to the controller.  A
transfer fills the caller's buffer sector by sector and may fail in between, so
it returns the buffer in either case.  The buffer is a slice: its length is the
caller's, whatever the drive does.
-/

def sectorSize : Nat := 512

/-- Why a read failed.  No drive answers, it never gets ready, it shows an error, or
it was never asked because no command can express the request. -/
inductive AtaError where
  | notPresent
  | timeout
  | driveError
  | badArgument
  deriving DecidableEq, Repr

/-- A way to read sectors into a buffer, over the state of a device.  Whatever
happens on the way, the buffer keeps its length. -/
structure Reader (Device : Type) where
  read : Device -> (lba : Nat) -> (buf : List UInt8) -> Except AtaError Unit × List UInt8 × Device
  keepsLength : forall device lba buf, (read device lba buf).2.1.length = buf.length

/-- The arguments that `read_lba` accepts. -/
def validRead (lba length : Nat) : Bool :=
  length ≠ 0 && length % sectorSize = 0 && length / sectorSize ≤ 256 && lba < 2 ^ 28

/-- The checks of `read_lba`, in the order in which they are made, and then the
transfer of `buf.len() / 512` contiguous sectors. -/
def readLba {Device : Type} (present : Bool) (readPio : Reader Device) : Reader Device where
  read := fun device lba buf =>
    if buf.isEmpty || buf.length % sectorSize ≠ 0 then (.error .badArgument, buf, device)
    else
      let sectorCount := buf.length / sectorSize
      if sectorCount > 256 ∨ andNot 32 lba 0x0fffffff ≠ 0 then (.error .badArgument, buf, device)
      else if sectorCount = 0 then (.error .badArgument, buf, device)
      else if !present then (.error .notPresent, buf, device)
      else readPio.read device lba buf
  keepsLength := by
    intro device lba buf
    simp only
    split
    · rfl
    · split
      · rfl
      · split
        · rfl
        · split
          · rfl
          · exact readPio.keepsLength device lba buf

/-- The contents of a disk, byte by byte and without an end. -/
abbrev Disk := Nat -> UInt8

def Disk.bytes (disk : Disk) (start count : Nat) : List UInt8 :=
  (List.range count).map (fun offset => disk (start + offset))

theorem Disk.bytes_append (disk : Disk) (start first second : Nat) :
    disk.bytes start (first + second) =
      disk.bytes start first ++ disk.bytes (start + first) second := by
  simp only [Disk.bytes, List.range_add, List.map_append, List.map_map]
  congr 1
  apply List.map_congr_left
  intro offset _
  exact congrArg disk (Nat.add_assoc _ _ _).symm

@[simp] theorem Disk.length_bytes (disk : Disk) (start count : Nat) :
    (disk.bytes start count).length = count := by
  simp [Disk.bytes]

/-- Reads with valid arguments succeed and deliver the sectors of the disk.  Nothing
is said of other reads. -/
def Reader.Returns {Device : Type} (reader : Reader Device) (disk : Disk) : Prop :=
  forall device lba buf, validRead lba buf.length = true ->
    (reader.read device lba buf).1 = .ok () ∧
      (reader.read device lba buf).2.1 = disk.bytes (lba * sectorSize) buf.length

/-- The checks of the arguments amount to `validRead`.  They come before the question
whether there is a drive. -/
theorem readLba_eq {Device : Type} (present : Bool) (readPio : Reader Device) (device : Device)
    {lba : Nat} (word : lba < 2 ^ 32) (buf : List UInt8) :
    (readLba present readPio).read device lba buf =
      if validRead lba buf.length = true then
        if present = true then readPio.read device lba buf else (.error .notPresent, buf, device)
      else (.error .badArgument, buf, device) := by
  have low : andNot 32 lba 0x0fffffff = lba / 2 ^ 28 * 2 ^ 28 := andNot_low 28 word
  have emptiness : buf.isEmpty = true ↔ buf.length = 0 := by
    rw [List.isEmpty_iff, List.length_eq_zero_iff]
  unfold readLba validRead sectorSize
  simp only [low, Bool.or_eq_true, emptiness, Bool.and_eq_true, decide_eq_true_eq, ne_eq,
    Bool.not_eq_eq_eq_not, Bool.not_true]
  by_cases unaligned : buf.length = 0 ∨ ¬ buf.length % 512 = 0
  · rw [if_pos unaligned, if_neg (by omega)]
  · by_cases beyond : buf.length / 512 > 256 ∨ ¬ lba / 2 ^ 28 * 2 ^ 28 = 0
    · rw [if_neg unaligned, if_pos beyond, if_neg (by omega)]
    · have valid : ((¬ buf.length = 0 ∧ buf.length % 512 = 0) ∧ buf.length / 512 ≤ 256) ∧
          lba < 2 ^ 28 := by omega
      rw [if_neg unaligned, if_neg beyond, if_neg (by omega), if_pos valid]
      cases present with
      | false => rfl
      | true => rfl

/-- A valid read is one of 1 to 256 whole sectors, at a 28-bit address. -/
theorem validRead_sectors {lba length : Nat} (valid : validRead lba length = true) :
    length / sectorSize * sectorSize = length ∧ 0 < length / sectorSize ∧
      length / sectorSize ≤ 256 ∧ lba < 2 ^ 28 := by
  unfold validRead sectorSize at *
  simp only [Bool.and_eq_true, decide_eq_true_eq, ne_eq] at valid
  omega

/-- A controller that delivers the disk makes `read_lba` deliver it. -/
theorem readLba_returns {Device : Type} {readPio : Reader Device} {disk : Disk}
    (returns : readPio.Returns disk) : (readLba true readPio).Returns disk := by
  intro device lba buf valid
  have small := (validRead_sectors valid).2.2.2
  rw [readLba_eq true readPio device (by omega), if_pos valid, if_pos rfl]
  exact returns device lba buf valid

end Storage
end Goatos
