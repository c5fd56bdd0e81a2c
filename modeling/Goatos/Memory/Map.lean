import Goatos.Library.ByteMemory
import Goatos.Library.Word

namespace Goatos
namespace Memory

open Library

/-!
# The BIOS memory map

The boot sector leaves the raw E820 entries at a fixed low address, behind a
signature and a count.  `load` validates that block, drops the entries it must
ignore, and presents the others as regions in the order the BIOS reported
them.  Addresses and lengths stay 64-bit, as reported: each consumer decides
what to do with memory that a 32-bit CPU cannot reach.
-/

/-- Physical address of the handoff block (`HANDOFF_ADDR`). -/
def handoffAddr : Nat := 0x500

/-- The mark of a block that the boot sector wrote: "GOAT", little-endian. -/
def signature : Nat := 0x54414f47

def maxEntries : Nat := 32

def entriesOffset : Nat := 8

/-- Size of one raw E820 entry, extended attributes included (`ENTRY_SIZE`). -/
def entrySize : Nat := 24

/-- What the BIOS says a region is for. -/
inductive RegionKind where
  | usable
  | reserved
  | acpiReclaimable
  | acpiNvs
  | badMemory
  | unknown (raw : UInt32)
  deriving DecidableEq, Repr

/-- The E820 numbering.  Anything outside it is kept as unknown, which is not
usable. -/
def RegionKind.fromRaw (raw : UInt32) : RegionKind :=
  match raw with
  | 1 => .usable
  | 2 => .reserved
  | 3 => .acpiReclaimable
  | 4 => .acpiNvs
  | 5 => .badMemory
  | other => .unknown other

/-- One contiguous physical address range, as the BIOS described it. -/
structure Region where
  base : UInt64
  length : UInt64
  kind : RegionKind
  deriving DecidableEq, Repr

namespace Region

/-- One past the last byte of the region, saturating at the top of the 64-bit
address space. -/
def «end» (region : Region) : Nat :=
  saturatingAdd 64 region.base.toNat region.length.toNat

def isUsable (region : Region) : Bool :=
  region.kind = .usable

end Region

/-- The machine's physical memory layout.  The fixed array and its fill count
are one list, and the array's capacity is a field of the structure. -/
structure MemoryMap where
  regions : List Region
  reported : Nat
  available : Bool
  withinCapacity : regions.length ≤ maxEntries

namespace MemoryMap

def empty : MemoryMap where
  regions := []
  reported := 0
  available := false
  withinCapacity := Nat.zero_le _

/-- Whether the BIOS reported more regions than the block can hold, as far as the
count in the block tells. -/
def truncated (map : MemoryMap) : Bool :=
  map.reported > maxEntries

def usableRegions (map : MemoryMap) : List Region :=
  map.regions.filter Region.isUsable

end MemoryMap

def entryAddr (index : Nat) : Nat :=
  handoffAddr + entriesOffset + index * entrySize

/-- The four fields of a raw entry, as they are read from the block. -/
structure RawEntry where
  base : UInt64
  length : UInt64
  kind : UInt32
  attributes : UInt32
  deriving DecidableEq

/-- The volatile reads of one entry. -/
def readEntry (memory : ByteMemory) (index : Nat) : RawEntry where
  base := UInt64.ofNat (memory.load (entryAddr index) 8)
  length := UInt64.ofNat (memory.load (entryAddr index + 8) 8)
  kind := UInt32.ofNat (memory.load (entryAddr index + 16) 4)
  attributes := UInt32.ofNat (memory.load (entryAddr index + 20) 4)

/-- One pass of the loop in `load`: an entry is pushed unless it is empty or
its ACPI "valid" bit is clear. -/
def loadEntry (regions : List Region) (entry : RawEntry) : List Region :=
  if entry.length = 0 ∨ entry.attributes &&& 1 = 0 then regions
  else regions ++ [⟨entry.base, entry.length, RegionKind.fromRaw entry.kind⟩]

/-- The loop of `load` over the first `count` entries. -/
def loadEntries (memory : ByteMemory) (count : Nat) : List Region :=
  (List.range count).foldl (fun regions index => loadEntry regions (readEntry memory index)) []

theorem loadEntries_succ (memory : ByteMemory) (count : Nat) :
    loadEntries memory (count + 1) =
      loadEntry (loadEntries memory count) (readEntry memory count) := by
  rw [loadEntries, List.range_succ, List.foldl_append, List.foldl_cons, List.foldl_nil]
  rfl

theorem loadEntry_cases (regions : List Region) (entry : RawEntry) :
    loadEntry regions entry = regions ∨
      Exists fun region : Region => region.length ≠ 0 ∧
        loadEntry regions entry = regions ++ [region] := by
  by_cases skipped : entry.length = 0 ∨ entry.attributes &&& 1 = 0
  · exact Or.inl (if_pos skipped)
  · exact Or.inr ⟨_, (not_or.mp skipped).1, if_neg skipped⟩

theorem loadEntries_length_le (memory : ByteMemory) (count : Nat) :
    (loadEntries memory count).length ≤ count := by
  induction count with
  | zero => exact Nat.le_refl 0
  | succ count inductionHypothesis =>
      rw [loadEntries_succ]
      rcases loadEntry_cases (loadEntries memory count) (readEntry memory count) with same | ⟨region, _, pushed⟩
      · rw [same]
        exact Nat.le_succ_of_le inductionHypothesis
      · rw [pushed, List.length_append]
        exact Nat.succ_le_succ inductionHypothesis

/-- Read the handoff block the boot sector left behind.  An absent block comes
back as the empty map. -/
def load (memory : ByteMemory) : MemoryMap :=
  if memory.load handoffAddr 4 ≠ signature then MemoryMap.empty
  else
    let reported := memory.load (handoffAddr + 4) 4
    { regions := loadEntries memory (min reported maxEntries)
      reported := reported
      available := true
      withinCapacity := Nat.le_trans (loadEntries_length_le memory _) (Nat.min_le_right _ _) }

theorem load_length_ne_zero (memory : ByteMemory) (region : Region)
    (member : region ∈ (load memory).regions) : region.length ≠ 0 := by
  have nonempty : forall count region, region ∈ loadEntries memory count -> region.length ≠ 0 := by
    intro count
    induction count with
    | zero => intro region impossible; cases impossible
    | succ count inductionHypothesis =>
        intro region member
        rw [loadEntries_succ] at member
        rcases loadEntry_cases (loadEntries memory count) (readEntry memory count) with same | ⟨pushed, real, equal⟩
        · exact inductionHypothesis region (same ▸ member)
        · rw [equal] at member
          rcases List.mem_append.mp member with earlier | last
          · exact inductionHypothesis region earlier
          · rw [List.mem_singleton.mp last]
            exact real
  unfold load at member
  split at member
  · cases member
  · exact nonempty _ region member

end Memory
end Goatos
