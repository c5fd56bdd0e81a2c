import Goatos.Memory.FramePool

namespace Goatos
namespace Memory

open Library

/-!
# The regions of the pool

This module connects three views of the same frames: the byte ranges that the
BIOS reported, the region list that `new` builds from them, and the position
of a frame relative to the bump cursor.  Whether a frame was handed out is not
recorded anywhere; `handedOut` infers it from the cursor, and on disjoint
regions that inference is exactly "the cursor has nothing more to do with it".
-/

/-! ## Byte ranges and frame indices -/

theorem shiftRight_frameShift (address : Nat) : address >>> frameShift = address / 4096 :=
  Nat.shiftRight_eq_div_pow address 12

theorem shiftLeft_frameShift (index : Nat) : index <<< frameShift = index * 4096 :=
  Nat.shiftLeft_eq index 12

theorem Frame.startAddress_eq (frame : Frame) : frame.startAddress = frame.index * 4096 :=
  shiftLeft_frameShift frame.index

theorem Frame.startAddress_aligned (frame : Frame) : 4096 ∣ frame.startAddress := by
  rw [Frame.startAddress_eq]
  exact Nat.dvd_mul_left _ _

theorem Frame.containing_startAddress (frame : Frame) :
    Frame.containingAddress frame.startAddress = frame := by
  rw [Frame.containingAddress, shiftRight_frameShift, Frame.startAddress_eq,
    Nat.mul_div_cancel _ (by decide)]

/-! ## What `new` builds -/

/-- The whole frames of a usable region, below the 4 GiB line. -/
def Region.frameRange (region : Region) : FrameRange :=
  FrameRange.inside region.base.toNat region.end

/-- The frames of a region are those below the 4 GiB line all of whose bytes
lie in the mathematical range `[base, base + length)`, even when that range
runs off the end of the 64-bit address space. -/
theorem Region.contains_frameRange_iff {region : Region} {index : Nat} :
    region.frameRange.contains index = true ↔
      index < maxFrameIndex ∧ region.base.toNat ≤ index * frameSize ∧
        (index + 1) * frameSize ≤ region.base.toNat + region.length.toNat := by
  have small : maxFrameIndex = 1048576 := by decide
  have baseBound := region.base.toNat_lt
  rw [FrameRange.contains_iff]
  simp only [frameRange, FrameRange.inside, Region.end, indexCeil, indexFloor, saturatingAdd,
    shiftRight_frameShift, small, frameSize]
  omega

/-- A frame that a 32-bit address can name and that lies in a byte range with all
of its bytes. -/
def WholeFrame (start stop index : Nat) : Prop :=
  index < 2 ^ 20 ∧ forall byte, 4096 * index ≤ byte -> byte < 4096 * (index + 1) ->
    start ≤ byte ∧ byte < stop

/-- A frame that shares a byte with a range. -/
def TouchedFrame (start stop index : Nat) : Prop :=
  Exists fun byte => 4096 * index ≤ byte ∧ byte < 4096 * (index + 1) ∧ start ≤ byte ∧ byte < stop

theorem wholeFrame_iff {start stop index : Nat} :
    WholeFrame start stop index ↔
      index < 2 ^ 20 ∧ start ≤ index * 4096 ∧ (index + 1) * 4096 ≤ stop := by
  refine and_congr_right fun _ => ?_
  constructor
  · intro inside
    have first := inside (4096 * index) (Nat.le_refl _) (by omega)
    have last := inside (4096 * index + 4095) (by omega) (by omega)
    omega
  · intro bounds byte lower upper
    omega

theorem touchedFrame_iff {start stop index : Nat} (proper : start < stop) :
    TouchedFrame start stop index ↔ start < (index + 1) * 4096 ∧ index * 4096 < stop := by
  constructor
  · rintro ⟨byte, lower, upper, above, below⟩
    omega
  · intro meets
    refine ⟨max start (4096 * index), ?_⟩
    omega

/-- Rounding to frames loses nothing: a region keeps its whole frames and no other
one, also at the end of the 64-bit address space, and a reservation takes every
frame that it touches. -/
theorem frame_ranges_exact :
    (forall region : Region,
      let range := FrameRange.inside region.base.toNat region.end
      (forall index, range.contains index = true ↔
        WholeFrame region.base.toNat (region.base.toNat + region.length.toNat) index) ∧
      range.start ≤ range.end ∧
      ((forall index, ¬ WholeFrame region.base.toNat
        (region.base.toNat + region.length.toNat) index) -> range.start = range.end)) ∧
    (forall start stop, start < stop -> stop < 2 ^ 32 -> forall index,
      (FrameRange.covering start stop).contains index = true ↔ TouchedFrame start stop index) := by
  constructor
  · intro region range
    have exactly : forall index, range.contains index = true ↔
        WholeFrame region.base.toNat (region.base.toNat + region.length.toNat) index := by
      intro index
      rw [wholeFrame_iff]
      exact Region.contains_frameRange_iff
    have ordered : range.start ≤ range.end := Nat.le_max_right _ _
    refine ⟨exactly, ordered, ?_⟩
    intro nothing
    apply Nat.le_antisymm ordered
    apply Nat.le_of_not_lt
    intro full
    exact nothing range.start ((exactly range.start).mp
      (FrameRange.contains_iff.mpr ⟨Nat.le_refl _, full⟩))
  · intro start stop proper word index
    have small : maxFrameIndex = 1048576 := by decide
    rw [touchedFrame_iff proper, FrameRange.contains_iff]
    simp only [FrameRange.covering, indexCeil, indexFloor, saturatingAdd, shiftRight_frameShift,
      small, frameSize]
    omega

/-- A region over the end of the address space, and a single byte before the last
page. -/
theorem frame_ranges_exact_ends :
    (FrameRange.inside (Region.mk 0xfffff001 0xffffffffffffffff .usable).base.toNat
        (Region.mk 0xfffff001 0xffffffffffffffff .usable).end).start =
      (FrameRange.inside (Region.mk 0xfffff001 0xffffffffffffffff .usable).base.toNat
        (Region.mk 0xfffff001 0xffffffffffffffff .usable).end).end ∧
    (FrameRange.covering 0xffffefff 0xfffff000).contains 0xffffe = true := by
  constructor
  · refine (frame_ranges_exact.1 (Region.mk 0xfffff001 0xffffffffffffffff .usable)).2.2 ?_
    intro index whole
    have bounds := wholeFrame_iff.mp whole
    have base : (Region.mk 0xfffff001 0xffffffffffffffff .usable).base.toNat = 0xfffff001 := by
      decide
    rw [base] at bounds
    omega
  · exact (frame_ranges_exact.2 0xffffefff 0xfffff000 (by decide) (by decide) 0xffffe).mpr
      ⟨0xffffefff, by decide⟩

/-- The usable regions, reduced to whole frames, are pairwise disjoint.  A BIOS
need not guarantee this; what happens without it is the subject of a module of its
own. -/
def MemoryMap.FramesDisjoint (map : MemoryMap) : Prop :=
  map.usableRegions.Pairwise (fun left right =>
    forall index, ¬ (left.frameRange.contains index = true ∧ right.frameRange.contains index = true))

namespace FrameAllocator

theorem addRegion_regions (allocator : FrameAllocator) (region : Region)
    (room : allocator.regions.length < maxRegions) :
    (allocator.addRegion region).regions =
      allocator.regions ++ [region.frameRange].filter (fun range => !range.isEmpty) := by
  unfold addRegion
  rw [if_neg (Nat.ne_of_lt room)]
  simp only
  split
  · rename_i empty
    rw [List.filter_cons_of_neg (by simpa only [Region.frameRange, Bool.not_eq_true', Bool.not_eq_false] using empty),
      List.filter_nil, List.append_nil]
  · rename_i full
    rw [List.filter_cons_of_pos (by simpa only [Region.frameRange, Bool.not_eq_true', Bool.not_eq_true] using full),
      List.filter_nil]
    rfl

theorem foldl_addRegion_regions (regions : List Region) (allocator : FrameAllocator)
    (room : allocator.regions.length + regions.length ≤ maxRegions) :
    (regions.foldl addRegion allocator).regions =
      allocator.regions ++ (regions.map Region.frameRange).filter (fun range => !range.isEmpty) := by
  induction regions generalizing allocator with
  | nil => rw [List.map_nil, List.filter_nil, List.append_nil]; rfl
  | cons region rest inductionHypothesis =>
      rw [List.length_cons] at room
      have added := addRegion_regions allocator region (by omega)
      have short : ([region.frameRange].filter (fun range => !range.isEmpty)).length ≤ 1 :=
        List.length_filter_le _ _
      rw [List.foldl_cons, inductionHypothesis, added, List.append_assoc, ← List.filter_append]
      · rfl
      · rw [added, List.length_append]
        omega

theorem foldl_addRegion_eq (regions : List Region) (allocator : FrameAllocator) :
    Exists fun ranges => Exists fun bounded =>
      regions.foldl addRegion allocator =
        { allocator with regions := ranges, regionsBounded := bounded } := by
  induction regions generalizing allocator with
  | nil => exact ⟨allocator.regions, allocator.regionsBounded, rfl⟩
  | cons region rest inductionHypothesis =>
      have one : Exists fun ranges => Exists fun bounded => allocator.addRegion region =
          { allocator with regions := ranges, regionsBounded := bounded } := by
        unfold addRegion
        split
        · exact ⟨allocator.regions, allocator.regionsBounded, rfl⟩
        · simp only
          split
          · exact ⟨allocator.regions, allocator.regionsBounded, rfl⟩
          · rename_i full
            exact ⟨_, allocator.regionsBounded_append (Bool.eq_false_iff.mpr full)
              (FrameRange.inside_end_le _ _), rfl⟩
      rcases one with ⟨ranges, bounded, equal⟩
      rw [List.foldl_cons, equal]
      exact inductionHypothesis _

end FrameAllocator

/-- The region list of a fresh pool: the usable regions that hold at least
one whole frame below the 4 GiB line, in map order. -/
def MemoryMap.poolRegions (map : MemoryMap) : List FrameRange :=
  (map.usableRegions.map Region.frameRange).filter (fun range => !range.isEmpty)

/-- The reservations of a fresh pool: the low memory of the BIOS, the boot sector,
the ROM area and the kernel image. -/
def KernelImage.reservations (image : KernelImage) : List Reservation :=
  (FrameAllocator.empty.reserveAll image).reservations

/-- A frame of the pool, in terms of what the BIOS and the linker reported: it
lies wholly inside one usable region and below 4 GiB, and no reservation covers
it. -/
def PoolFrame (image : KernelImage) (map : MemoryMap) (index : Nat) : Prop :=
  (Exists fun region => region ∈ map.regions ∧ region.isUsable = true ∧
    region.base.toNat ≤ index * frameSize ∧
    (index + 1) * frameSize ≤ region.base.toNat + region.length.toNat) ∧
  (index + 1) * frameSize ≤ 2 ^ 32 ∧
  forall reservation, reservation ∈ image.reservations -> reservation.range.contains index = false

theorem exists_poolRegion_iff {map : MemoryMap} {index : Nat} :
    (Exists fun range => range ∈ map.poolRegions ∧ range.contains index = true) ↔
      (Exists fun region => region ∈ map.regions ∧ region.isUsable = true ∧
        region.base.toNat ≤ index * frameSize ∧
        (index + 1) * frameSize ≤ region.base.toNat + region.length.toNat) ∧
      (index + 1) * frameSize ≤ 2 ^ 32 := by
  have top : index < maxFrameIndex ↔ (index + 1) * frameSize ≤ 2 ^ 32 := by
    have small : maxFrameIndex = 1048576 := by decide
    rw [small, frameSize]
    omega
  constructor
  · rintro ⟨range, member, holds⟩
    rcases List.mem_map.mp (List.mem_filter.mp member).1 with ⟨region, usable, rfl⟩
    have bounds := Region.contains_frameRange_iff.mp holds
    exact ⟨⟨region, (List.mem_filter.mp usable).1, (List.mem_filter.mp usable).2, bounds.2⟩,
      top.mp bounds.1⟩
  · rintro ⟨⟨region, member, usable, bounds⟩, below⟩
    have holds : region.frameRange.contains index = true :=
      Region.contains_frameRange_iff.mpr ⟨top.mpr below, bounds⟩
    refine ⟨region.frameRange, List.mem_filter.mpr ⟨List.mem_map.mpr
      ⟨region, List.mem_filter.mpr ⟨member, usable⟩, rfl⟩, ?_⟩, holds⟩
    have ends := FrameRange.contains_iff.mp holds
    rw [FrameRange.isEmpty_eq_false_iff.mpr (Nat.lt_of_le_of_lt ends.1 ends.2)]
    rfl

namespace FrameAllocator

/-- The fresh pool, field by field: an empty free list, nothing in use, and the
cursor at the start of the first region. -/
theorem new_eq (image : KernelImage) (map : MemoryMap) :
    Exists fun frame => Exists fun total => Exists fun bounded =>
      new image map = {
        regions := map.poolRegions
        reservations := image.reservations
        cursorRegion := 0
        cursorFrame := frame
        freeList := noFrame
        freeCount := 0
        total := total
        inUse := 0
        regionsBounded := bounded } ∧
      forall first, map.poolRegions[0]? = some first -> frame = first.start := by
  have capacity : (empty.reserveAll image).regions.length + map.usableRegions.length ≤ maxRegions := by
    have short : map.usableRegions.length ≤ map.regions.length := List.length_filter_le _ _
    have none : (empty.reserveAll image).regions.length = 0 := rfl
    have room : map.regions.length ≤ maxRegions := map.withinCapacity
    omega
  have regionsEq : (map.usableRegions.foldl addRegion (empty.reserveAll image)).regions =
      map.poolRegions :=
    (foldl_addRegion_regions map.usableRegions (empty.reserveAll image) capacity).trans
      (List.nil_append _)
  rcases foldl_addRegion_eq map.usableRegions (empty.reserveAll image) with ⟨ranges, bounded, equal⟩
  rw [equal] at regionsEq
  simp only at regionsEq
  subst regionsEq
  unfold new
  rw [equal]
  refine ⟨_, _, bounded, rfl, ?_⟩
  intro first atZero
  simp only
  split
  · rename_i noRegions
    rw [noRegions] at atZero
    cases atZero
  · rename_i range rest someRegions
    rw [someRegions] at atZero
    cases atZero
    rfl

/-! ## Frames relative to the cursor -/

/-- The pool manages a frame: some region holds it and no reservation covers it. -/
def Managed (allocator : FrameAllocator) (index : Nat) : Prop :=
  (Exists fun region => region ∈ allocator.regions ∧ region.contains index = true) ∧
    allocator.isReserved index = false

/-- An allocator with the regions and reservations of a fresh pool manages
exactly the frames of the pool. -/
theorem managed_iff_poolFrame {allocator : FrameAllocator} {image : KernelImage} {map : MemoryMap}
    (regions : allocator.regions = map.poolRegions)
    (reservations : allocator.reservations = image.reservations) {index : Nat} :
    allocator.Managed index ↔ PoolFrame image map index := by
  rw [Managed, PoolFrame, ← and_assoc, regions, exists_poolRegion_iff, isReserved, reservations,
    List.any_eq_false]
  simp only [Bool.not_eq_true]

/-- The regions of the pool share no frame. -/
def RegionsDisjoint (allocator : FrameAllocator) : Prop :=
  allocator.regions.Pairwise (fun left right =>
    forall index, ¬ (left.contains index = true ∧ right.contains index = true))

/-- The frame indices the cursor has still to visit. -/
def pendingFrames (allocator : FrameAllocator) : List Nat :=
  allocator.pending.map Slot.index

/-- The frames that the cursor has still to hand out. -/
def unreservedFrames (allocator : FrameAllocator) : List Nat :=
  allocator.pendingFrames.filter (fun index => !allocator.isReserved index)

theorem bumpLoop_unreserved (allocator : FrameAllocator) :
    Exists fun region => Exists fun frame =>
      (bumpLoop.run allocator = (none, allocator.moved region frame allocator.inUse) ∧
        allocator.unreservedFrames = [] ∧
        (allocator.moved region frame allocator.inUse).unreservedFrames = []) ∨
      Exists fun index =>
        bumpLoop.run allocator =
          (some ⟨index⟩, allocator.moved region frame (allocator.inUse + 1)) ∧
        allocator.unreservedFrames =
          index :: (allocator.moved region frame (allocator.inUse + 1)).unreservedFrames := by
  rcases bumpLoop_outcome allocator with ⟨skipped, reserved, region, frame, outcome, _⟩
  have nothing : (skipped.map Slot.index).filter (fun index => !allocator.isReserved index) = [] := by
    rw [List.filter_eq_nil_iff]
    intro index member
    rcases List.mem_map.mp member with ⟨slot, inSkipped, rfl⟩
    rw [reserved slot inSkipped]
    decide
  refine ⟨region, frame, ?_⟩
  rcases outcome with ⟨equal, before, after⟩ | ⟨slot, equal, free, before⟩
  · refine Or.inl ⟨equal, ?_, ?_⟩
    · rw [unreservedFrames, pendingFrames, before, nothing]
    · rw [equal] at after
      rw [unreservedFrames, pendingFrames, after]
      rfl
  · refine Or.inr ⟨slot.index, equal, ?_⟩
    rw [equal] at before
    rw [unreservedFrames, pendingFrames, before, List.map_append, List.filter_append, nothing,
      List.map_cons, List.filter_cons_of_pos (by rw [free]; rfl)]
    rfl

theorem regionOf_isNone_iff {allocator : FrameAllocator} {index : Nat} :
    (allocator.regionOf index).isNone = true ↔
      ¬ Exists fun region => region ∈ allocator.regions ∧ region.contains index = true := by
  rw [regionOf, Option.isNone_iff_eq_none, List.findIdx?_eq_none_iff]
  constructor
  · rintro absent ⟨region, member, holds⟩
    exact absurd holds (by rw [absent region member]; exact Bool.false_ne_true)
  · intro absent region member
    exact Bool.eq_false_iff.mpr (fun holds => absent ⟨region, member, holds⟩)

theorem RegionsDisjoint.position_unique {allocator : FrameAllocator} {left right index : Nat}
    {leftRegion rightRegion : FrameRange} (disjoint : allocator.RegionsDisjoint)
    (atLeft : allocator.regions[left]? = some leftRegion)
    (atRight : allocator.regions[right]? = some rightRegion)
    (inLeft : leftRegion.contains index = true) (inRight : rightRegion.contains index = true) :
    left = right := by
  rcases List.getElem?_eq_some_iff.mp atLeft with ⟨leftBound, rfl⟩
  rcases List.getElem?_eq_some_iff.mp atRight with ⟨rightBound, rfl⟩
  have apart := List.pairwise_iff_getElem.mp disjoint
  rcases Nat.lt_trichotomy left right with before | same | after
  · exact absurd ⟨inLeft, inRight⟩ (apart left right leftBound rightBound before index)
  · exact same
  · exact absurd ⟨inRight, inLeft⟩ (apart right left rightBound leftBound after index)

/-- A frame is pending when a region after the cursor's holds it, or the
cursor's own region does and the cursor has not reached it. -/
theorem mem_pendingFrames_iff {allocator : FrameAllocator} (valid : allocator.CursorValid)
    {index : Nat} :
    index ∈ allocator.pendingFrames ↔
      Exists fun position => Exists fun region =>
        allocator.regions[position]? = some region ∧ region.contains index = true ∧
        (allocator.cursorRegion < position ∨
          (position = allocator.cursorRegion ∧ allocator.cursorFrame ≤ index)) := by
  have later : index ∈ ((allocator.regions.drop (allocator.cursorRegion + 1)).flatMap
      FrameRange.slots).map Slot.index ↔
      Exists fun position => Exists fun region =>
        allocator.regions[position]? = some region ∧ region.contains index = true ∧
        allocator.cursorRegion < position := by
    rw [List.mem_map]
    constructor
    · rintro ⟨slot, member, rfl⟩
      rcases List.mem_flatMap.mp member with ⟨region, inDrop, inSlots⟩
      rcases List.mem_iff_getElem?.mp inDrop with ⟨offset, found⟩
      rw [List.getElem?_drop] at found
      exact ⟨_, region, found, (FrameRange.mem_slots.mp inSlots).1, by omega⟩
    · rintro ⟨position, region, found, holds, after⟩
      refine ⟨⟨index, region.end⟩, List.mem_flatMap.mpr ⟨region, ?_, ?_⟩, rfl⟩
      · apply List.mem_iff_getElem?.mpr
        refine ⟨position - (allocator.cursorRegion + 1), ?_⟩
        rw [List.getElem?_drop, Nat.add_sub_cancel' after]
        exact found
      · exact FrameRange.mem_slots.mpr ⟨holds, rfl⟩
  cases current : allocator.regions[allocator.cursorRegion]? with
  | none =>
      rw [pendingFrames, pending_of_past current]
      constructor
      · intro impossible
        cases impossible
      · rintro ⟨position, region, found, _, after | ⟨same, _⟩⟩
        · have past := List.getElem?_eq_none_iff.mp current
          have bound := (List.getElem?_eq_some_iff.mp found).1
          omega
        · rw [same, current] at found
          cases found
  | some region =>
      rw [pendingFrames, pending_of_current current, List.map_append, List.mem_append, later]
      constructor
      · rintro (here | ⟨position, other, found, holds, after⟩)
        · rcases List.mem_map.mp here with ⟨slot, member, rfl⟩
          have bounds := FrameRange.mem_slotsFrom.mp member
          have reached := valid region current
          exact ⟨_, region, current, FrameRange.contains_iff.mpr ⟨by omega, bounds.2.1⟩,
            Or.inr ⟨rfl, bounds.1⟩⟩
        · exact ⟨position, other, found, holds, Or.inl after⟩
      · rintro ⟨position, other, found, holds, after | ⟨rfl, reached⟩⟩
        · exact Or.inr ⟨position, other, found, holds, after⟩
        · rw [current] at found
          cases found
          exact Or.inl (List.mem_map.mpr ⟨⟨index, region.end⟩, FrameRange.mem_slotsFrom.mpr
            ⟨reached, (FrameRange.contains_iff.mp holds).2, rfl⟩, rfl⟩)

theorem exists_region_of_pending {allocator : FrameAllocator} (valid : allocator.CursorValid)
    {index : Nat} (pending : index ∈ allocator.pendingFrames) :
    Exists fun region => region ∈ allocator.regions ∧ region.contains index = true := by
  rcases (mem_pendingFrames_iff valid).mp pending with ⟨position, region, found, holds, _⟩
  exact ⟨region, List.mem_of_getElem? found, holds⟩

/-- On disjoint regions, a frame of the pool counts as handed out exactly when
the cursor has nothing more to do with it. -/
theorem handedOut_iff {allocator : FrameAllocator} (valid : allocator.CursorValid)
    (disjoint : allocator.RegionsDisjoint) {index : Nat}
    (inPool : Exists fun region => region ∈ allocator.regions ∧ region.contains index = true) :
    allocator.handedOut index = true ↔ index ∉ allocator.pendingFrames := by
  rw [mem_pendingFrames_iff valid, handedOut]
  cases position : allocator.regionOf index with
  | none => exact absurd inPool (regionOf_isNone_iff.mp (by rw [position]; rfl))
  | some found =>
      rcases List.findIdx?_eq_some_iff_getElem.mp position with ⟨bound, holds, _⟩
      have atFound : allocator.regions[found]? = some allocator.regions[found] :=
        List.getElem?_eq_getElem bound
      have unique : forall other region, allocator.regions[other]? = some region ->
          region.contains index = true -> other = found :=
        fun other region atOther inOther =>
          disjoint.position_unique atOther atFound inOther holds
      simp only
      cases order : compare found allocator.cursorRegion with
      | lt =>
          have before := Nat.compare_eq_lt.mp order
          simp only [true_iff]
          rintro ⟨other, region, atOther, inOther, later⟩
          have same := unique other region atOther inOther
          omega
      | eq =>
          have same := Nat.compare_eq_eq.mp order
          simp only [decide_eq_true_eq]
          constructor
          · rintro reached ⟨other, region, atOther, inOther, later⟩
            have equal := unique other region atOther inOther
            omega
          · intro passed
            apply Nat.lt_of_not_le
            intro notReached
            exact passed ⟨found, _, atFound, holds, Or.inr ⟨same, notReached⟩⟩
      | gt =>
          have after := Nat.compare_eq_gt.mp order
          simp only [Bool.false_eq_true, false_iff, not_not]
          exact ⟨found, _, atFound, holds, Or.inl after⟩

/-- On disjoint regions the cursor meets every frame once. -/
theorem pendingFrames_nodup {allocator : FrameAllocator} (valid : allocator.CursorValid)
    (disjoint : allocator.RegionsDisjoint) : allocator.pendingFrames.Nodup := by
  have suffix : forall ranges : List FrameRange, ranges.Pairwise (fun left right =>
      forall index, ¬ (left.contains index = true ∧ right.contains index = true)) ->
      ((ranges.flatMap FrameRange.slots).map Slot.index).Nodup := by
    intro ranges apart
    rw [List.map_flatMap, List.nodup_flatMap]
    refine ⟨fun range _ => range.nodup_slotsFrom range.start, apart.imp ?_⟩
    intro left right separate index inLeft inRight
    rcases List.mem_map.mp inLeft with ⟨leftSlot, leftMember, rfl⟩
    rcases List.mem_map.mp inRight with ⟨rightSlot, rightMember, same⟩
    exact separate leftSlot.index ⟨(FrameRange.mem_slots.mp leftMember).1,
      same ▸ (FrameRange.mem_slots.mp rightMember).1⟩
  cases current : allocator.regions[allocator.cursorRegion]? with
  | none =>
      rw [pendingFrames, pending_of_past current]
      exact List.nodup_nil
  | some region =>
      rw [pendingFrames, pending_of_current current, List.map_append, List.nodup_append']
      refine ⟨region.nodup_slotsFrom _, suffix _ (disjoint.sublist (List.drop_sublist _ _)), ?_⟩
      intro index here there
      rcases List.mem_map.mp here with ⟨slot, member, rfl⟩
      have bounds := FrameRange.mem_slotsFrom.mp member
      have reached := valid region current
      rcases List.mem_map.mp there with ⟨other, otherMember, same⟩
      rcases List.mem_flatMap.mp otherMember with ⟨later, inDrop, inSlots⟩
      rcases List.mem_iff_getElem?.mp inDrop with ⟨offset, found⟩
      rw [List.getElem?_drop] at found
      have holds := (FrameRange.mem_slots.mp inSlots).1
      rw [same] at holds
      have samePosition := disjoint.position_unique current found
        (FrameRange.contains_iff.mpr ⟨by omega, bounds.2.1⟩) holds
      omega

end FrameAllocator

end Memory
end Goatos
