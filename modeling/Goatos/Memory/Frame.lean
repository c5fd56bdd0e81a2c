import Goatos.Library.IntrusiveList
import Goatos.Library.Loop
import Goatos.Memory.Map

namespace Goatos
namespace Memory

open Library

/-!
# The physical frame allocator

The usable regions of the memory map become runs of 4 KiB frames.  Frames are
handed out by a bump cursor that walks the regions in map order, and frames
that come back are kept on an intrusive free list: the first four bytes of a
free frame hold the index of the next one.  Ranges of memory that are already
occupied are reservations, and every frame is checked against them.

Indices, counts and cursors are natural numbers; the saturating and wrapping
operations of the source are written out.  `usize` is 32 bits wide on this
target, so the conversion of a count to `u32` loses nothing.
-/

/-- Size of a physical frame (`FRAME_SIZE`). -/
def frameSize : Nat := 4096

def frameShift : Nat := 12

/-- One past the last frame index a 32-bit physical address can name. -/
def maxFrameIndex : Nat := 1 <<< (32 - frameShift)

/-- "No frame" in the intrusive free list: `u32::MAX`.  No frame index is as large,
since indices end at the 4 GiB line. -/
def noFrame : Nat := 2 ^ 32 - 1

def maxRegions : Nat := maxEntries

def maxReservations : Nat := 4

def biosLowMemoryEnd : Nat := 0x1000

def bootSectorPage : Nat := 0x7000

def legacyRomStart : Nat := 0xa0000

def legacyRomEnd : Nat := 0x100000

/-- One physical frame, named by its index. -/
structure Frame where
  index : Nat
  deriving DecidableEq, Repr

namespace Frame

/-- The frame this physical address falls in. -/
def containingAddress (address : Nat) : Frame :=
  ⟨address >>> frameShift⟩

/-- Physical address of the frame's first byte. -/
def startAddress (frame : Frame) : Nat :=
  frame.index <<< frameShift

end Frame

/-- Index of the frame containing `address`, saturating at the 4 GiB line: memory
above it cannot be named by a 32-bit pointer. -/
def indexFloor (address : Nat) : Nat :=
  min (address >>> frameShift) maxFrameIndex

/-- As `indexFloor`, rounded the other way; the 64-bit sum saturates. -/
def indexCeil (address : Nat) : Nat :=
  indexFloor (saturatingAdd 64 address (frameSize - 1))

/-- A run of frames, `start..end` in frame indices. -/
structure FrameRange where
  start : Nat
  «end» : Nat
  deriving DecidableEq, Repr

namespace FrameRange

/-- The frames lying entirely inside a byte range.  Usable regions are rounded this
way, so a frame that is only partly usable is none. -/
def inside (start «end» : Nat) : FrameRange where
  start := indexCeil start
  «end» := max (indexFloor «end») (indexCeil start)

/-- The frames a byte range touches at all.  Reservations are rounded this way, so
one reserved byte keeps its whole frame back. -/
def covering (start «end» : Nat) : FrameRange where
  start := indexFloor start
  «end» := indexCeil «end»

def contains (range : FrameRange) (index : Nat) : Bool :=
  index ≥ range.start && index < range.end

def len (range : FrameRange) : Nat :=
  range.end - range.start

def isEmpty (range : FrameRange) : Bool :=
  range.start ≥ range.end

theorem contains_iff {range : FrameRange} {index : Nat} :
    range.contains index = true ↔ range.start ≤ index ∧ index < range.end := by
  simp only [contains, ge_iff_le, Bool.and_eq_true, decide_eq_true_eq]

theorem apart_of_le {left right : FrameRange} (order : left.end ≤ right.start) (index : Nat) :
    ¬ (left.contains index = true ∧ right.contains index = true) := by
  rw [contains_iff, contains_iff]
  omega

theorem isEmpty_eq_false_iff {range : FrameRange} :
    range.isEmpty = false ↔ range.start < range.end := by
  simp only [isEmpty, ge_iff_le, decide_eq_false_iff_not, Nat.not_le]

end FrameRange

theorem indexFloor_le (address : Nat) : indexFloor address ≤ maxFrameIndex :=
  Nat.min_le_right _ _

theorem FrameRange.inside_end_le (start stop : Nat) :
    (FrameRange.inside start stop).end ≤ maxFrameIndex :=
  Nat.max_le.mpr ⟨indexFloor_le _, indexFloor_le _⟩

/-- A range of physical memory the allocator must never hand out, and why. -/
structure Reservation where
  range : FrameRange
  reason : String
  deriving DecidableEq, Repr

/-- Why a frame could not be given back. -/
inductive FreeError where
  | notManaged
  | neverAllocated
  | alreadyFree
  deriving DecidableEq, Repr

/-- Where the linker put the kernel: the addresses of `__kernel_start` and
`__kernel_end`. -/
structure KernelImage where
  start : UInt32
  «end» : UInt32
  deriving DecidableEq, Repr

/-- The allocator's state.  The region and reservation arrays and their fill
counts are lists; every stored region is a nonempty run below the 4 GiB line. -/
structure FrameAllocator where
  regions : List FrameRange
  reservations : List Reservation
  cursorRegion : Nat
  cursorFrame : Nat
  freeList : Nat
  freeCount : Nat
  total : Nat
  inUse : Nat
  regionsBounded : forall region, region ∈ regions ->
    region.start < region.end ∧ region.end ≤ maxFrameIndex

/-- Address of the first four bytes of a frame, where its link is kept while it is
on the free list.  A frame that a client holds has no link. -/
def linkOf (index : Nat) : Nat :=
  index <<< frameShift

/-- The link stored in a free frame. -/
def nextFree (memory : ByteMemory) (index : Nat) : Nat :=
  memory.load (linkOf index) 4

namespace FrameAllocator

def empty : FrameAllocator where
  regions := []
  reservations := []
  cursorRegion := 0
  cursorFrame := 0
  freeList := noFrame
  freeCount := 0
  total := 0
  inUse := 0
  regionsBounded := fun _ impossible => absurd impossible List.not_mem_nil

def reserve (allocator : FrameAllocator) (start «end» : Nat) (reason : String) : FrameAllocator :=
  if allocator.reservations.length = maxReservations then allocator
  else { allocator with
    reservations := allocator.reservations ++ [⟨FrameRange.covering start «end», reason⟩] }

/-- Whether any reservation covers this frame. -/
def isReserved (allocator : FrameAllocator) (index : Nat) : Bool :=
  allocator.reservations.any (fun reservation => reservation.range.contains index)

/-- Which region holds this frame, if any. -/
def regionOf (allocator : FrameAllocator) (index : Nat) : Option Nat :=
  allocator.regions.findIdx? (fun region => region.contains index)

/-- The nested counting loops that `new` runs once. -/
def countAllocatable (allocator : FrameAllocator) : Nat :=
  allocator.regions.foldl (fun count region =>
    (List.range' region.start region.len).foldl (fun count index =>
      if !allocator.isReserved index then count + 1 else count) count) 0

theorem regionsBounded_append (allocator : FrameAllocator) {range : FrameRange}
    (full : range.isEmpty = false) (top : range.end ≤ maxFrameIndex) :
    forall region, region ∈ allocator.regions ++ [range] ->
      region.start < region.end ∧ region.end ≤ maxFrameIndex := by
  intro region member
  rcases List.mem_append.mp member with old | new
  · exact allocator.regionsBounded region old
  · rw [List.mem_singleton.mp new]
    exact ⟨FrameRange.isEmpty_eq_false_iff.mp full, top⟩

/-- One pass of the loop over usable regions in `new`.  A region without a whole
frame is dropped, and so is one for which the array has no room. -/
def addRegion (allocator : FrameAllocator) (region : Region) : FrameAllocator :=
  if allocator.regions.length = maxRegions then allocator
  else
    let range := FrameRange.inside region.base.toNat region.end
    if empty : range.isEmpty then allocator
    else { allocator with
      regions := allocator.regions ++ [range]
      regionsBounded := allocator.regionsBounded_append (Bool.eq_false_iff.mpr empty)
        (FrameRange.inside_end_le _ _) }

/-- The four reservations, in the order `new` makes them. -/
def reserveAll (allocator : FrameAllocator) (image : KernelImage) : FrameAllocator :=
  (((allocator.reserve 0 biosLowMemoryEnd "IVT, BIOS data area, E820 handoff block").reserve
    bootSectorPage (bootSectorPage + frameSize) "boot sector image and real-mode stack").reserve
    image.start.toNat image.end.toNat "kernel image, .bss and stack").reserve
    legacyRomStart legacyRomEnd "legacy video memory and BIOS ROM"

/-- Build the pool: every usable region this CPU can address, minus
everything already spoken for. -/
def new (image : KernelImage) (map : MemoryMap) : FrameAllocator :=
  let allocator := map.usableRegions.foldl addRegion (empty.reserveAll image)
  let allocator := { allocator with
    cursorFrame := match allocator.regions with
      | [] => allocator.cursorFrame
      | first :: _ => first.start }
  { allocator with total := allocator.countAllocatable }

/-- Whether the bump cursor has already passed this frame. -/
def handedOut (allocator : FrameAllocator) (index : Nat) : Bool :=
  match allocator.regionOf index with
  | some region =>
      match compare region allocator.cursorRegion with
      | .lt => true
      | .eq => index < allocator.cursorFrame
      | .gt => false
  | none => false

def pushFree (allocator : FrameAllocator) (memory : ByteMemory) (index : Nat) :
    FrameAllocator × ByteMemory :=
  ({ allocator with freeList := index, freeCount := allocator.freeCount + 1 },
    memory.store (linkOf index) 4 allocator.freeList)

def popFree (allocator : FrameAllocator) (memory : ByteMemory) : Option Frame × FrameAllocator :=
  if allocator.freeList = noFrame then (none, allocator)
  else
    (some ⟨allocator.freeList⟩,
      { allocator with
        freeList := nextFree memory allocator.freeList
        freeCount := allocator.freeCount - 1 })

/-- Walk the free list looking for `index`, never taking more steps than the
list is long. -/
def onFreeList (allocator : FrameAllocator) (memory : ByteMemory) (index : Nat) : Bool :=
  walkFinds (nextFree memory) noFrame index allocator.freeCount allocator.freeList

/-- Move the bump cursor to the start of the next region, if there is one. -/
def nextRegion (allocator : FrameAllocator) : FrameAllocator :=
  match allocator.regions[allocator.cursorRegion + 1]? with
  | some region => { allocator with
      cursorRegion := allocator.cursorRegion + 1
      cursorFrame := region.start }
  | none => { allocator with cursorRegion := allocator.cursorRegion + 1 }

/-- One pass of the `while` loop in `allocate`. -/
def bumpBody (allocator : FrameAllocator) :
    Pass FrameAllocator (Option Frame × FrameAllocator) :=
  match allocator.regions[allocator.cursorRegion]? with
  | none => .leave (none, allocator)
  | some region =>
      if allocator.cursorFrame ≥ region.end then .again allocator.nextRegion
      else if allocator.isReserved allocator.cursorFrame then
        .again { allocator with cursorFrame := allocator.cursorFrame + 1 }
      else
        .leave (some ⟨allocator.cursorFrame⟩, { allocator with
          cursorFrame := allocator.cursorFrame + 1
          inUse := allocator.inUse + 1 })

/-- One pass of the `while` loop in `allocate_contiguous`.  It tests the window that
starts at the cursor, and if a frame of it is reserved it goes on behind that
frame. -/
def contiguousBody (count : Nat) (allocator : FrameAllocator) :
    Pass FrameAllocator (Option Frame × FrameAllocator) :=
  match allocator.regions[allocator.cursorRegion]? with
  | none => .leave (none, allocator)
  | some region =>
      if allocator.cursorFrame ≥ region.end then .again allocator.nextRegion
      else if allocator.isReserved allocator.cursorFrame then
        .again { allocator with cursorFrame := allocator.cursorFrame + 1 }
      else if saturatingAdd 32 allocator.cursorFrame count > region.end then
        .again allocator.nextRegion
      else
        match (List.range' allocator.cursorFrame count).find? allocator.isReserved with
        | some reserved => .again { allocator with cursorFrame := reserved + 1 }
        | none => .leave (some ⟨allocator.cursorFrame⟩, { allocator with
            cursorFrame := allocator.cursorFrame + count
            inUse := allocator.inUse + count })

/-- How many frames the bump cursor has still to look at. -/
def pendingCount (allocator : FrameAllocator) : Nat :=
  match allocator.regions.drop allocator.cursorRegion with
  | [] => 0
  | region :: later => (region.end - allocator.cursorFrame) + (later.map FrameRange.len).sum

/-- Why both loops end: every further round passes a frame, or the end of a region,
and neither comes back. -/
def cursorMeasure (allocator : FrameAllocator) : Nat :=
  allocator.pendingCount + (allocator.regions.length - allocator.cursorRegion)

/-! ## What one pass of each loop can do -/

/-- The region the bump cursor works through. -/
def Current (allocator : FrameAllocator) (region : FrameRange) : Prop :=
  allocator.regions[allocator.cursorRegion]? = some region

/-- A further pass of the bump loop leaves a finished region or steps over a
reserved frame. -/
theorem bumpBody_again {allocator next : FrameAllocator}
    (pass : bumpBody allocator = .again next) :
    Exists fun region => allocator.Current region ∧
      ((region.end ≤ allocator.cursorFrame ∧ next = allocator.nextRegion) ∨
        (allocator.cursorFrame < region.end ∧ allocator.isReserved allocator.cursorFrame = true ∧
          next = { allocator with cursorFrame := allocator.cursorFrame + 1 })) := by
  unfold bumpBody at pass
  split at pass
  · cases pass
  · rename_i region current
    refine ⟨region, current, ?_⟩
    split at pass
    · rename_i finished
      cases pass
      exact Or.inl ⟨finished, rfl⟩
    · rename_i inside
      split at pass
      · rename_i reserved
        cases pass
        exact Or.inr ⟨Nat.lt_of_not_le inside, reserved, rfl⟩
      · cases pass

theorem bumpBody_leave {allocator : FrameAllocator} {result : Option Frame × FrameAllocator}
    (pass : bumpBody allocator = .leave result) :
    (allocator.regions[allocator.cursorRegion]? = none ∧ result = (none, allocator)) ∨
      Exists fun region => allocator.Current region ∧ allocator.cursorFrame < region.end ∧
        allocator.isReserved allocator.cursorFrame = false ∧
        result = (some ⟨allocator.cursorFrame⟩, { allocator with
          cursorFrame := allocator.cursorFrame + 1, inUse := allocator.inUse + 1 }) := by
  unfold bumpBody at pass
  split at pass
  · rename_i finished
    cases pass
    exact Or.inl ⟨finished, rfl⟩
  · rename_i region current
    refine Or.inr ⟨region, current, ?_⟩
    split at pass
    · cases pass
    · rename_i inside
      split at pass
      · cases pass
      · rename_i free
        cases pass
        exact ⟨Nat.lt_of_not_le inside, Bool.eq_false_iff.mpr free, rfl⟩

/-- A further pass of the contiguous search leaves a finished region, steps
over a reserved frame, gives up a region whose rest is too short, or jumps
past the first reserved frame of the window. -/
theorem contiguousBody_again {count : Nat} {allocator next : FrameAllocator}
    (pass : contiguousBody count allocator = .again next) :
    Exists fun region => allocator.Current region ∧
      ((region.end ≤ allocator.cursorFrame ∧ next = allocator.nextRegion) ∨
        (allocator.cursorFrame < region.end ∧
          ((allocator.isReserved allocator.cursorFrame = true ∧
              next = { allocator with cursorFrame := allocator.cursorFrame + 1 }) ∨
            (allocator.isReserved allocator.cursorFrame = false ∧
              ((region.end < saturatingAdd 32 allocator.cursorFrame count ∧
                  next = allocator.nextRegion) ∨
                (saturatingAdd 32 allocator.cursorFrame count ≤ region.end ∧
                  Exists fun reserved =>
                    (List.range' allocator.cursorFrame count).find? allocator.isReserved =
                      some reserved ∧
                    next = { allocator with cursorFrame := reserved + 1 })))))) := by
  unfold contiguousBody at pass
  split at pass
  · cases pass
  · rename_i region current
    refine ⟨region, current, ?_⟩
    split at pass
    · rename_i finished
      cases pass
      exact Or.inl ⟨finished, rfl⟩
    · rename_i inside
      refine Or.inr ⟨Nat.lt_of_not_le inside, ?_⟩
      split at pass
      · rename_i reserved
        cases pass
        exact Or.inl ⟨reserved, rfl⟩
      · rename_i free
        refine Or.inr ⟨Bool.eq_false_iff.mpr free, ?_⟩
        split at pass
        · rename_i short
          cases pass
          exact Or.inl ⟨short, rfl⟩
        · rename_i fits
          refine Or.inr ⟨Nat.le_of_not_lt fits, ?_⟩
          split at pass
          · rename_i reserved found
            cases pass
            exact ⟨reserved, found, rfl⟩
          · cases pass

/-- The contiguous search leaves after the last region, or with a window that
fits its region and holds no reserved frame. -/
theorem contiguousBody_leave {count : Nat} {allocator : FrameAllocator}
    {result : Option Frame × FrameAllocator}
    (pass : contiguousBody count allocator = .leave result) :
    (allocator.regions[allocator.cursorRegion]? = none ∧ result = (none, allocator)) ∨
      Exists fun region => allocator.Current region ∧ allocator.cursorFrame < region.end ∧
        saturatingAdd 32 allocator.cursorFrame count ≤ region.end ∧
        allocator.isReserved allocator.cursorFrame = false ∧
        (List.range' allocator.cursorFrame count).find? allocator.isReserved = none ∧
        result = (some ⟨allocator.cursorFrame⟩, { allocator with
          cursorFrame := allocator.cursorFrame + count, inUse := allocator.inUse + count }) := by
  unfold contiguousBody at pass
  split at pass
  · rename_i finished
    cases pass
    exact Or.inl ⟨finished, rfl⟩
  · rename_i region current
    refine Or.inr ⟨region, current, ?_⟩
    split at pass
    · cases pass
    · rename_i inside
      split at pass
      · cases pass
      · rename_i free
        split at pass
        · cases pass
        · rename_i fits
          split at pass
          · cases pass
          · rename_i clear
            cases pass
            exact ⟨Nat.lt_of_not_le inside, Nat.le_of_not_lt fits,
              Bool.eq_false_iff.mpr free, clear, rfl⟩

/-! ## Both loops terminate -/

theorem pendingCount_of_current {allocator : FrameAllocator} {region : FrameRange}
    (current : allocator.Current region) :
    allocator.pendingCount = (region.end - allocator.cursorFrame) +
      ((allocator.regions.drop (allocator.cursorRegion + 1)).map FrameRange.len).sum := by
  rcases List.getElem?_eq_some_iff.mp current with ⟨bound, equal⟩
  rw [pendingCount, List.drop_eq_getElem_cons bound, equal]

theorem nextRegion_measure_lt {allocator : FrameAllocator} {region : FrameRange}
    (current : allocator.Current region) :
    allocator.nextRegion.cursorMeasure < allocator.cursorMeasure := by
  have bound := (List.getElem?_eq_some_iff.mp current).1
  rw [cursorMeasure, cursorMeasure, pendingCount_of_current current]
  unfold nextRegion
  split
  · rename_i next following
    rcases List.getElem?_eq_some_iff.mp following with ⟨nextBound, equal⟩
    rw [@pendingCount_of_current { allocator with
      cursorRegion := allocator.cursorRegion + 1, cursorFrame := next.start } next following]
    simp only [List.drop_eq_getElem_cons nextBound, equal, List.map_cons, List.sum_cons,
      FrameRange.len]
    omega
  · rename_i missing
    have past := List.getElem?_eq_none_iff.mp missing
    simp only [pendingCount, List.drop_eq_nil_of_le past]
    omega

theorem advance_measure_lt {allocator : FrameAllocator} {region : FrameRange} {frame : Nat}
    (current : allocator.Current region)
    (inside : allocator.cursorFrame < region.end) (forward : allocator.cursorFrame < frame) :
    cursorMeasure { allocator with cursorFrame := frame } < allocator.cursorMeasure := by
  rw [cursorMeasure, cursorMeasure, pendingCount_of_current current,
    @pendingCount_of_current { allocator with cursorFrame := frame } region current]
  simp only
  omega

def bumpLoop : WhileLoop FrameAllocator (Option Frame × FrameAllocator) where
  body := bumpBody
  measure := cursorMeasure
  decreases := by
    intro allocator next pass
    rcases bumpBody_again pass with ⟨region, current, ⟨_, moved⟩ | ⟨inside, _, moved⟩⟩
    · exact moved ▸ nextRegion_measure_lt current
    · exact moved ▸ advance_measure_lt current inside (Nat.lt_succ_self _)

def contiguousLoop (count : Nat) : WhileLoop FrameAllocator (Option Frame × FrameAllocator) where
  body := contiguousBody count
  measure := cursorMeasure
  decreases := by
    intro allocator next pass
    rcases contiguousBody_again pass with ⟨region, current, ⟨_, moved⟩ | ⟨inside, within⟩⟩
    · exact moved ▸ nextRegion_measure_lt current
    · rcases within with ⟨_, moved⟩ | ⟨_, ⟨_, moved⟩ | ⟨_, reserved, found, moved⟩⟩
      · exact moved ▸ advance_measure_lt current inside (Nat.lt_succ_self _)
      · exact moved ▸ nextRegion_measure_lt current
      · have member := List.mem_of_find?_eq_some found
        exact moved ▸ advance_measure_lt current inside
          (Nat.lt_succ_of_le (List.mem_range'_1.mp member).1)

/-- Take one frame out of the pool: from the free list first, else from the
bump cursor. -/
def allocate (allocator : FrameAllocator) (memory : ByteMemory) : Option Frame × FrameAllocator :=
  match allocator.popFree memory with
  | (some frame, allocator) => (some frame, { allocator with inUse := allocator.inUse + 1 })
  | (none, allocator) => bumpLoop.run allocator

/-- Take `count` contiguous frames, from the bump cursor only.  Frames on the free
list are not considered, contiguous or not. -/
def allocateContiguous (allocator : FrameAllocator) (count : Nat) :
    Option Frame × FrameAllocator :=
  if count = 0 then (none, allocator) else (contiguousLoop count).run allocator

/-- Put a frame back.  It must belong to the pool, be behind the cursor and not be on
the list already; whether anybody holds it is not known here. -/
def free (allocator : FrameAllocator) (memory : ByteMemory) (frame : Frame) :
    Except FreeError Unit × FrameAllocator × ByteMemory :=
  let index := frame.index
  if (allocator.regionOf index).isNone || allocator.isReserved index then
    (.error .notManaged, allocator, memory)
  else if !allocator.handedOut index then (.error .neverAllocated, allocator, memory)
  else if allocator.onFreeList memory index then (.error .alreadyFree, allocator, memory)
  else
    let (allocator, memory) := allocator.pushFree memory index
    (.ok (), { allocator with inUse := allocator.inUse - 1 }, memory)

end FrameAllocator

end Memory
end Goatos
