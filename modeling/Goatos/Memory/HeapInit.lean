import Goatos.Memory.ContiguousSearch
import Goatos.Memory.HeapGuarantees

namespace Goatos
namespace Memory

open Library

/-!
# Where the heap comes from

`init` asks the frame allocator for one contiguous run and makes a heap of it.
The end of the heap is computed twice, by an ordinary addition for the heap
itself and by a saturating one for the report.  The run may end exactly at the
4 GiB line.  Then the ordinary addition leaves its word: a checked build stops,
another one ends up with a heap whose end is zero, and the report says that it
is ready.  For every other run the two ends agree and the heap works.
-/

def heapSize : Nat := 1024 * 1024

def heapFrames : Nat := heapSize / frameSize

/-- What `init` claims to have reserved. -/
structure HeapReport where
  start : Nat
  size : Nat
  ready : Bool
  deriving DecidableEq, Repr

def HeapReport.end (report : HeapReport) : Nat :=
  saturatingAdd 32 report.start report.size

namespace Heap

/-- `Heap::init` with its addition as the machine makes it; `none` is a panic.
The assertions are compiled into a checked build only. -/
def initWords (mode : Overflow) (memory : ByteMemory) (start size : Nat) :
    Option (Heap × ByteMemory) :=
  if mode = .panics ∧ ¬ (headerSize ≤ size ∧ heapAlign ∣ start ∧ heapAlign ∣ size) then none
  else
    (addWord mode 32 start size).map fun stop =>
      ({ heapStart := start
         heapEnd := stop
         freeList := start
         used := 0
         allocations := 0 },
        setNext (setSize memory start size) start null)

end Heap

/-- What `init` leaves behind. -/
structure HeapSetup where
  report : HeapReport
  heap : Heap
  allocator : FrameAllocator
  memory : ByteMemory

/-- Reserve a contiguous run and install it as the heap.  If there is no such run,
the report says so and the heap stays as it was; `none` is a panic. -/
def heapInit (mode : Overflow) (allocator : FrameAllocator) (heap : Heap) (memory : ByteMemory) :
    Option HeapSetup :=
  match allocator.allocateContiguous heapFrames with
  | (none, allocator) => some ⟨⟨0, 0, false⟩, heap, allocator, memory⟩
  | (some startFrame, allocator) =>
      let start := startFrame.startAddress
      (Heap.initWords mode memory start heapSize).map fun made =>
        ⟨⟨start, heapSize, true⟩, made.1, allocator, made.2⟩

theorem heapInit_of_found {allocator : FrameAllocator} {frame : Frame}
    (found : (allocator.allocateContiguous heapFrames).1 = some frame) (mode : Overflow)
    (heap : Heap) (memory : ByteMemory) :
    heapInit mode allocator heap memory =
      (Heap.initWords mode memory frame.startAddress heapSize).map fun made =>
        ⟨⟨frame.startAddress, heapSize, true⟩, made.1,
          (allocator.allocateContiguous heapFrames).2, made.2⟩ := by
  unfold heapInit
  split
  · rename_i missing
    rw [missing] at found
    cases found
  · rename_i startFrame next answer
    rw [answer] at found
    cases found
    rw [answer]

/-- The heap is what the report says: ready, with the reported end, a whole heap
in between, and room for a first allocation of any size that fits beside a
header. -/
structure ReadyAsReported (setup : HeapSetup) : Prop where
  reported : setup.report.ready = true
  noOverflow : setup.report.start + heapSize < 2 ^ 32
  ready : setup.heap.isReady = true
  sameEnd : setup.heap.heapEnd = setup.report.end
  wholeSize : setup.report.end - setup.report.start = heapSize
  firstAllocation : forall layout : Layout, 1 ≤ layout.size -> layout.size ≤ heapSize - headerSize ->
    layout.align ≤ heapAlign -> Exists fun fuel => Exists fun answer =>
      setup.heap.allocate setup.memory layout fuel = some answer ∧ answer.1 ≠ null

theorem heapRun_bounds {image : KernelImage} {map : MemoryMap} {memory : ByteMemory}
    {events : List FrameEvent} {world : FrameWorld}
    (run : Run FrameStep (FrameWorld.init image map memory) events world) {frame : Frame}
    (found : (world.allocator.allocateContiguous heapFrames).1 = some frame) :
    0 < frame.startAddress ∧ frame.startAddress + heapSize ≤ 2 ^ 32 := by
  rcases frameRun_map run with ⟨valid, _, reservations⟩
  have positive : 0 < heapFrames := by decide
  rcases (FrameAllocator.findsFirstRun positive valid).first frame found with ⟨position, first, _⟩
  rcases first.run with ⟨region, atPosition, _, upper, clear⟩
  have bounded := (world.allocator.regionsBounded region (List.mem_of_getElem? atPosition)).2
  have nullReserved : world.allocator.isReserved 0 = true := by
    rw [FrameAllocator.isReserved, reservations]
    rfl
  have real : frame.index ≠ 0 := by
    intro isNull
    have unreserved := clear 0 (Nat.le_of_eq isNull) (by omega)
    rw [nullReserved] at unreserved
    cases unreserved
  have top : maxFrameIndex = 1048576 := by decide
  have frames : heapFrames = 256 := by decide
  have size : heapSize = 256 * 4096 := by decide
  rw [Frame.startAddress_eq, size]
  omega

theorem HeapRegion.allocates (region : HeapRegion) (memory : ByteMemory) {layout : Layout}
    (positive : 1 ≤ layout.size) (fits : blockSize layout.size ≤ region.size)
    (lenient : layout.align ≤ heapAlign) :
    Exists fun fuel => Exists fun answer =>
      (region.world memory).heap.allocate (region.world memory).memory layout fuel = some answer ∧
        answer.1 ≠ null := by
  have invariant := region.world_invariant memory
  have bounded : blockSize layout.size < 2 ^ 32 := by
    have top := region.fits
    omega
  rcases invariant.allocate_returns layout with ⟨fuel, answer, call⟩
  refine ⟨fuel, answer, call, ?_⟩
  rcases invariant.allocate_firstFit call with ⟨_, reason⟩ |
    ⟨_, needed, before, block, after, sized, split, _, free, large, took⟩
  · exfalso
    rcases reason with notReady | empty | strict | overflow | ⟨needed, sized, tooSmall⟩
    · have room := region.positive
      have ends : (region.world memory).heap.heapEnd = region.start + region.size :=
        Nat.mod_eq_of_lt region.fits
      rw [Heap.isReady, decide_eq_false_iff_not, ends] at notReady
      exact notReady (Nat.lt_add_of_pos_right room)
    · omega
    · exact Nat.not_le_of_lt strict lenient
    · exact Nat.not_le_of_lt bounded (alignedBlockSize_eq_none_iff.mp overflow)
    · rcases alignedBlockSize_eq_some_iff.mp sized with ⟨rfl, _⟩
      exact Nat.not_le_of_lt (tooSmall _ (List.mem_singleton.mpr rfl) rfl) fits
  · rw [split] at invariant
    rcases invariant.carve free sized large took with ⟨same, _⟩
    rw [same]
    exact Nat.succ_ne_zero _

/-- The region of a heap that ends below the line. -/
def heapRegion (frame : Frame) (real : 0 < frame.startAddress)
    (fits : frame.startAddress + heapSize < 2 ^ 32) : HeapRegion where
  start := frame.startAddress
  size := heapSize
  nonNull := real
  startAligned := Nat.dvd_trans (by decide) frame.startAddress_aligned
  positive := by decide
  sizeAligned := by decide
  fits := fits

theorem heapRegion_world {frame : Frame} (real : 0 < frame.startAddress)
    (fits : frame.startAddress + heapSize < 2 ^ 32) (memory : ByteMemory) :
    (heapRegion frame real fits).world memory =
      { heap := ⟨frame.startAddress, frame.startAddress + heapSize, frame.startAddress, 0, 0⟩
        memory := setNext (setSize memory frame.startAddress heapSize) frame.startAddress null
        held := ∅ } := by
  simp only [HeapRegion.world, HeapWorld.init, Heap.init, heapRegion, Nat.mod_eq_of_lt fits]

/-- In every state of the frame allocator in which `init` finds its run, over any
map and in either build, the heap is as reported unless the run ends at the 4 GiB
line. -/
theorem heap_ready_iff (mode : Overflow) (image : KernelImage) (map : MemoryMap)
    (memory : ByteMemory) {events : List FrameEvent} {world : FrameWorld}
    (run : Run FrameStep (FrameWorld.init image map memory) events world) (heap : Heap)
    {frame : Frame} (found : (world.allocator.allocateContiguous heapFrames).1 = some frame) :
    (Exists fun setup => heapInit mode world.allocator heap world.memory = some setup ∧
      ReadyAsReported setup) ↔ frame.startAddress + heapSize ≠ 2 ^ 32 := by
  rcases heapRun_bounds run found with ⟨real, below⟩
  have size : heapSize = 1048576 := by decide
  have asserted : ¬ (mode = .panics ∧ ¬ (headerSize ≤ heapSize ∧ heapAlign ∣ frame.startAddress ∧
      heapAlign ∣ heapSize)) := by
    rintro ⟨_, violated⟩
    exact violated ⟨by decide, Nat.dvd_trans (by decide) frame.startAddress_aligned, by decide⟩
  have outcome : heapInit mode world.allocator heap world.memory =
      (addWord mode 32 frame.startAddress heapSize).map fun stop =>
        ⟨⟨frame.startAddress, heapSize, true⟩,
          ⟨frame.startAddress, stop, frame.startAddress, 0, 0⟩,
          (world.allocator.allocateContiguous heapFrames).2,
          setNext (setSize world.memory frame.startAddress heapSize) frame.startAddress null⟩ := by
    rw [heapInit_of_found found, Heap.initWords, if_neg asserted, Option.map_map]
    rfl
  rw [outcome]
  constructor
  · rintro ⟨setup, made, readyAsReported⟩ atLine
    rcases Option.map_eq_some_iff.mp made with ⟨stop, _, rfl⟩
    exact absurd readyAsReported.noOverflow (by simp only; omega)
  · intro notAtLine
    have fits : frame.startAddress + heapSize < 2 ^ 32 := by omega
    rw [addWord_of_lt mode fits]
    refine ⟨_, rfl, ⟨rfl, fits, ?_, ?_, ?_, ?_⟩⟩
    · rw [Heap.isReady, decide_eq_true_iff]
      simp only
      omega
    · simp only [HeapReport.end, saturatingAdd]
      omega
    · simp only [HeapReport.end, saturatingAdd]
      omega
    · intro layout positive small lenient
      have room : blockSize layout.size ≤ heapSize := by
        unfold blockSize headerSize at *
        omega
      have answers := (heapRegion frame real fits).allocates world.memory positive room lenient
      rw [heapRegion_world] at answers
      exact answers

def heapMap (base : UInt64) : MemoryMap where
  regions := [⟨base, 0x100000, .usable⟩]
  reported := 1
  available := true
  withinCapacity := by simp [maxEntries]

/-- With its run at 1 MiB, the heap is ready as reported, in a checked build. -/
theorem heap_ready_low :
    Exists fun setup =>
      heapInit .panics (FrameAllocator.new smallImage (heapMap 0x100000)) Heap.empty (fun _ => 0) =
        some setup ∧ ReadyAsReported setup := by
  have found : ((FrameAllocator.new smallImage (heapMap 0x100000)).allocateContiguous
      heapFrames).1 = some ⟨0x100⟩ := by decide +kernel
  exact (heap_ready_iff .panics smallImage (heapMap 0x100000) (fun _ => 0) Run.nil Heap.empty
    found).mpr (by decide)

/-- With its run at the end of the address space, a checked build stops in `init`.
Another build reports a heap that is ready and ends at the last address, and the
heap itself is not ready and ends at zero. -/
theorem heap_not_ready_at_line :
    let allocator := FrameAllocator.new smallImage (heapMap 0xfff00000)
    (allocator.allocateContiguous heapFrames).1 = some ⟨0xfff00⟩ ∧
      heapInit .panics allocator Heap.empty (fun _ => 0) = none ∧
      Exists fun setup => heapInit .wraps allocator Heap.empty (fun _ => 0) = some setup ∧
        setup.report = ⟨0xfff00000, 0x100000, true⟩ ∧ setup.report.end = 0xffffffff ∧
        setup.heap.heapEnd = 0 ∧ setup.heap.isReady = false ∧ ¬ ReadyAsReported setup := by
  intro allocator
  have found : (allocator.allocateContiguous heapFrames).1 = some ⟨0xfff00⟩ := by decide +kernel
  refine ⟨found, ?_, ?_⟩
  · rw [heapInit_of_found found]
    rfl
  · rw [heapInit_of_found found]
    refine ⟨_, rfl, rfl, by decide, rfl, rfl, ?_⟩
    intro readyAsReported
    exact absurd readyAsReported.ready Bool.false_ne_true

end Memory
end Goatos
