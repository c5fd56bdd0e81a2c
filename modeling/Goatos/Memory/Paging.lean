import Goatos.Library.PageWalk
import Goatos.Memory.FrameRegions

namespace Goatos
namespace Memory

open Library

/-!
# Paging

`init` builds a page directory and its tables from frames of the pool, installs
the directory, and turns paging on.  The map is the identity on a window that is
meant to cover everything the kernel uses, with one hole below the kernel stack.

The machine state has two views of memory.  Until paging is on, an address is a
physical one, so the builder stores into memory directly.  Afterwards every load
goes through the tables, and a load from an address they do not map is a page
fault.  That matters for `isPresent`, which reads the tables after the switch: it
finds them only if they lie inside the window themselves.
-/

namespace Paging

def present : Nat := 1 <<< 0

def writable : Nat := 1 <<< 1

/-- Flags of every identity-mapped page. -/
def kernelPage : Nat := present ||| writable

def entries : Nat := 1024

def bytesPerDirectoryEntry : Nat := frameSize * entries

def cr0Pg : Nat := 1 <<< 31

/-- Exclusive end of the window that `init` maps: the highest usable byte below
4 GiB, rounded up to a directory entry and capped at the last full one. -/
def identityMapEnd (map : MemoryMap) : Nat :=
  let stop := map.usableRegions.foldl (fun stop region => max stop (min region.end (1 <<< 32))) 0
  if stop = 0 then 0
  else
    let rounded := (stop + (bytesPerDirectoryEntry - 1)) / bytesPerDirectoryEntry *
      bytesPerDirectoryEntry
    min rounded ((1 <<< 32) - bytesPerDirectoryEntry)

/-- What paging works on: the frame pool, memory, the two control registers and
the page-directory fields of the two task state segments. -/
structure Machine where
  allocator : FrameAllocator
  memory : ByteMemory
  cr0 : Nat
  cr3 : Nat
  mainTssCr3 : Nat
  doubleFaultTssCr3 : Nat

/-- What `init` built and whether it stuck. -/
structure Report where
  cr3 : Nat
  mappedEnd : Nat
  pageTables : Nat
  pagingEnabled : Bool
  stackGuard : Nat
  deriving DecidableEq, Repr

def Report.failed : Report where
  cr3 := 0
  mappedEnd := 0
  pageTables := 0
  pagingEnabled := false
  stackGuard := 0

def writeEntry (memory : ByteMemory) (table : Frame) (index value : Nat) : ByteMemory :=
  memory.store (table.startAddress + index * 4) 4 value

/-- The inner loop of `init`: map the pages from `base` on, except the guard. -/
def fillTable (memory : ByteMemory) (table : Frame) (base guard count : Nat) : ByteMemory :=
  (List.range count).foldl (fun memory page =>
    let phys := base + page * frameSize
    if phys = guard then memory
    else writeEntry memory table page (phys ||| kernelPage)) memory

namespace Machine

def allocateZeroedFrame (machine : Machine) : Option Frame × Machine :=
  match machine.allocator.allocate machine.memory with
  | (none, allocator) => (none, { machine with allocator := allocator })
  | (some frame, allocator) => (some frame, { machine with
      allocator := allocator
      memory := machine.memory.fill frame.startAddress frameSize 0 })

/-- One pass of the outer loop of `init`, once it has its table. -/
def installTable (machine : Machine) (guard : Nat) (directory table : Frame) (tableIndex : Nat) :
    Machine :=
  { machine with
    memory := writeEntry
      (fillTable machine.memory table (tableIndex * bytesPerDirectoryEntry) guard entries)
      directory tableIndex (table.startAddress ||| kernelPage) }

/-- The outer loop of `init` over the given indices; it gives up when a frame
cannot be had. -/
def buildTables (guard : Nat) (directory : Frame) : List Nat -> Machine -> Bool × Machine
  | [], machine => (true, machine)
  | tableIndex :: rest, machine =>
      match machine.allocateZeroedFrame with
      | (none, machine) => (false, machine)
      | (some table, machine) =>
          buildTables guard directory rest (machine.installTable guard directory table tableIndex)

/-- Record the directory in both task state segments. -/
def setPageDirectory (machine : Machine) (cr3 : Nat) : Machine :=
  { machine with mainTssCr3 := cr3, doubleFaultTssCr3 := cr3 }

/-- Load `CR3` and set `CR0.PG`. -/
def enable (machine : Machine) (pageDirectory : Nat) : Machine :=
  { machine with cr3 := pageDirectory, cr0 := machine.cr0 ||| cr0Pg }

def pagingIsEnabled (machine : Machine) : Bool :=
  machine.cr0 &&& cr0Pg ≠ 0

/-- The processor's walk from the installed directory.  It reads physical memory,
whatever is mapped. -/
def walk (machine : Machine) (virt : Nat) : Option Translation :=
  Library.walk machine.memory machine.cr3 virt

/-- Where a load from an address goes; `none` is a page fault. -/
def translate (machine : Machine) (address : Nat) : Option Nat :=
  if machine.pagingIsEnabled then (machine.walk address).map Translation.physical
  else some address

def readEntry (machine : Machine) (table : Frame) (index : Nat) : Option Nat :=
  (machine.translate (table.startAddress + index * 4)).map fun physical =>
    machine.memory.load physical 4

/-- Whether the page of an address is present.  The kernel looks its tables up
through the map that is in force, so `none` is a page fault: a table that is not
mapped cannot be read. -/
def isPresent (machine : Machine) (virt : Nat) : Option Bool :=
  if machine.cr3 = 0 then some false
  else
    let pdIndex := virt / bytesPerDirectoryEntry
    let ptIndex := virt % bytesPerDirectoryEntry / frameSize
    (machine.readEntry (Frame.containingAddress machine.cr3) pdIndex).bind fun pde =>
      if pde &&& present = 0 then some false
      else
        let table := Frame.containingAddress (andNot 32 pde (frameSize - 1))
        (machine.readEntry table ptIndex).map fun pte => pte &&& present ≠ 0

/-- Build the identity map and turn paging on.  The report is missing if the
check of the guard page at the end runs into a page fault. -/
def init (machine : Machine) (map : MemoryMap) (stackGuard : Nat) : Option Report × Machine :=
  let mappedEnd := identityMapEnd map
  if mappedEnd = 0 then (some Report.failed, machine)
  else
    let pageTableCount := mappedEnd / bytesPerDirectoryEntry
    match machine.allocateZeroedFrame with
    | (none, machine) => (some Report.failed, machine)
    | (some directory, machine) =>
        match machine.buildTables stackGuard directory (List.range pageTableCount) with
        | (false, machine) => (some Report.failed, machine)
        | (true, machine) =>
            let cr3 := directory.startAddress
            let machine := (machine.setPageDirectory cr3).enable cr3
            let report := (machine.isPresent stackGuard).map fun guardPresent =>
              { cr3 := machine.cr3
                mappedEnd := mappedEnd
                pageTables := pageTableCount
                pagingEnabled := machine.pagingIsEnabled && machine.cr3 == cr3 && !guardPresent
                stackGuard := if guardPresent then 0 else stackGuard }
            (report, machine)

end Machine

end Paging

end Memory
end Goatos
