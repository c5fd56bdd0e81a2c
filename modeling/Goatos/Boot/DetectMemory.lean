import Goatos.Library.LittleEndian
import Goatos.Library.Loop

namespace Goatos
namespace Boot

open Library

/-!
# Asking the BIOS for the memory map

`detect_memory` runs in real mode.  It calls `INT 15h` with `EAX=E820h` until
the BIOS has no more entries, and leaves what it got at a fixed address in low
memory.  The firmware is a function of its own hidden state and of the registers
it is called with, so that nothing is assumed about how it finds its answers.
What it stores goes to the buffer at `ES:DI`; it preserves `EBP` and `DI`.
-/

/-- Where the memory map is left for the kernel (`MEMMAP_ADDR`).  The block lies
above the BIOS data area and below everything else that the boot sector uses. -/
def memmapAddr : Nat := 0x500

def memmapSignature : Nat := 0x54414f47

def memmapEntrySize : Nat := 24

def memmapMaxEntries : Nat := 32

/-- "SMAP" as a word.  The call passes it in `EDX`, and a working BIOS echoes it back
in `EAX`. -/
def smap : UInt32 := 0x534d4150

/-- The registers of the call. -/
structure Request where
  eax : UInt32
  edx : UInt32
  ecx : UInt32
  ebx : UInt32
  deriving DecidableEq, Repr

/-- What comes back: the carry flag, two registers, and the bytes stored at
`ES:DI`. -/
structure Reply where
  carry : Bool
  eax : UInt32
  ebx : UInt32
  stored : List UInt8
  deriving DecidableEq, Repr

/-- The service behind `INT 15h`, over some hidden state of the firmware.  Two calls
with the same registers may be answered differently. -/
abbrev Firmware (Hidden : Type) := Hidden -> Request -> Reply × Hidden

/-- The state of the walk: memory, the registers that live across passes, and
the firmware. -/
structure Walk (Hidden : Type) where
  memory : ByteMemory
  di : Nat
  ebx : UInt32
  ebp : Nat
  hidden : Hidden

section Program

variable {Hidden : Type}

def queryMap (continuation : UInt32) : Request where
  eax := 0xe820
  edx := smap
  ecx := 24
  ebx := continuation

/-- One pass from `.next_entry`.  The attribute word is set before the call, because
a BIOS that answers 20 bytes leaves it alone.  `DI` and the addresses formed from it
have 16 bits, `EBP` has 32. -/
def nextEntry (int15 : Firmware Hidden) (walk : Walk Hidden) : Pass (Walk Hidden) (Walk Hidden) :=
  let memory := walk.memory.store ((walk.di + 20) % 2 ^ 16) 4 1
  let (reply, hidden) := int15 walk.hidden (queryMap walk.ebx)
  let walk := { walk with
    memory := memory.storeBytes walk.di reply.stored
    ebx := reply.ebx
    hidden := hidden }
  if reply.carry then .leave walk
  else if reply.eax ≠ smap then .leave walk
  else
    let walk := { walk with
      ebp := (walk.ebp + 1) % 2 ^ 32
      di := (walk.di + memmapEntrySize) % 2 ^ 16 }
    if walk.ebx = 0 then .leave walk
    else if walk.ebp < memmapMaxEntries then .again walk
    else .leave walk

theorem nextEntry_again {int15 : Firmware Hidden} {walk next : Walk Hidden}
    (pass : nextEntry int15 walk = .again next) :
    next.ebp = (walk.ebp + 1) % 2 ^ 32 ∧ next.ebp < memmapMaxEntries := by
  unfold nextEntry at pass
  simp only at pass
  split at pass
  · cases pass
  · split at pass
    · cases pass
    · split at pass
      · cases pass
      · split at pass
        · rename_i room
          cases pass
          exact ⟨rfl, room⟩
        · cases pass

/-- The loop of `detect_memory`.  The second case of the measure is for counts
that the loop never starts with. -/
def detectLoop (int15 : Firmware Hidden) : WhileLoop (Walk Hidden) (Walk Hidden) where
  body := nextEntry int15
  measure := fun walk =>
    if walk.ebp < memmapMaxEntries then memmapMaxEntries - walk.ebp else memmapMaxEntries + 1
  decreases := by
    intro walk next pass
    rcases nextEntry_again pass with ⟨counted, room⟩
    rw [if_pos room]
    unfold memmapMaxEntries at *
    split
    · omega
    · omega

/-- Store the memory map at its fixed address.  The signature goes there before the
first call and the count after the last one. -/
def detectMemory (int15 : Firmware Hidden) (hidden : Hidden) (memory : ByteMemory) : ByteMemory :=
  let walk := (detectLoop int15).run {
    memory := memory.store memmapAddr 4 memmapSignature
    di := memmapAddr + 8
    ebx := 0
    ebp := 0
    hidden := hidden }
  walk.memory.store (memmapAddr + 4) 4 walk.ebp

end Program

end Boot
end Goatos
