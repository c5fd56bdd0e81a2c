import Mathlib.Data.List.Nodup
import Goatos.Memory.FrameOwnership

namespace Goatos
namespace Memory

open Library

/-!
# Maps whose entries overlap

Nothing sorts, merges or checks the entries that the BIOS reports.  The pool
takes every usable entry as it stands, so a frame that two of them hold is met
twice by the cursor, and one that a reserved entry also holds is met all the
same.  The results here say that these are the only two ways in which repeated
allocation from a fresh pool can go wrong: the calls always succeed exactly as
often as the pool counted, and in the absence of such frames they return
exactly the sound ones.
-/

/-- A frame has a byte in common with a region. -/
def SharesByte (region : Region) (index : Nat) : Prop :=
  Exists fun address => address / frameSize = index ∧ region.base.toNat ≤ address ∧
    address < region.base.toNat + region.length.toNat

/-- A frame that may be handed out: it belongs to the pool, and no region that
is not usable has a byte of it. -/
def SoundFrame (image : KernelImage) (map : MemoryMap) (index : Nat) : Prop :=
  PoolFrame image map index ∧
    forall region, region ∈ map.regions -> region.isUsable = false -> ¬ SharesByte region index

/-- The pool after a number of calls of `allocate`, whatever memory holds at the
time of each. -/
def afterCalls (memory : Nat -> ByteMemory) (allocator : FrameAllocator) : Nat -> FrameAllocator
  | 0 => allocator
  | calls + 1 =>
      ((afterCalls memory allocator calls).allocate (memory calls)).2

/-- The answer of each call. -/
def answerOf (memory : Nat -> ByteMemory) (allocator : FrameAllocator) (call : Nat) :
    Option Frame :=
  ((afterCalls memory allocator call).allocate (memory call)).1

/-- Repeated allocation from a fresh pool does what it should: every frame that is
returned may be handed out, none is returned twice, and none that may be is left
out. -/
structure PoolSound (image : KernelImage) (map : MemoryMap) (memory : Nat -> ByteMemory) :
    Prop where
  succeeds : forall call, call < (FrameAllocator.new image map).total ->
    (answerOf memory (FrameAllocator.new image map) call).isSome = true
  fails : forall call, (FrameAllocator.new image map).total ≤ call ->
    answerOf memory (FrameAllocator.new image map) call = none
  distinct : forall first second frame,
    answerOf memory (FrameAllocator.new image map) first = some frame ->
    answerOf memory (FrameAllocator.new image map) second = some frame -> first = second
  exactly : forall index,
    (Exists fun call => answerOf memory (FrameAllocator.new image map) call = some ⟨index⟩) ↔
      SoundFrame image map index

/-- No frame of the pool lies inside two usable entries, and none shares a byte
with an entry that is not usable. -/
structure EntriesApart (image : KernelImage) (map : MemoryMap) : Prop where
  usable : map.usableRegions.Pairwise (fun left right => forall index,
    PoolFrame image map index ->
      ¬ (left.frameRange.contains index = true ∧ right.frameRange.contains index = true))
  unusable : forall region, region ∈ map.regions -> region.isUsable = false ->
    forall index, PoolFrame image map index -> ¬ SharesByte region index

/-! ## The answers -/

namespace FrameAllocator

theorem allocate_of_empty_list {allocator : FrameAllocator} (empty : allocator.freeList = noFrame)
    (memory : ByteMemory) : allocator.allocate memory = bumpLoop.run allocator := by
  rw [allocate, popFree, if_pos empty]

end FrameAllocator

/-- Without frees, the calls answer the unreserved frames in order.  The writes of
the clients in between do not matter, because nothing is ever read back. -/
theorem afterCalls_unreserved (memory : Nat -> ByteMemory) {allocator : FrameAllocator}
    (empty : allocator.freeList = noFrame) (calls : Nat) :
    (afterCalls memory allocator calls).freeList = noFrame ∧
      (afterCalls memory allocator calls).unreservedFrames =
        allocator.unreservedFrames.drop calls := by
  induction calls with
  | zero => exact ⟨empty, rfl⟩
  | succ calls inductionHypothesis =>
      rcases inductionHypothesis with ⟨stillEmpty, line⟩
      rw [afterCalls, FrameAllocator.allocate_of_empty_list stillEmpty]
      rcases (afterCalls memory allocator calls).bumpLoop_unreserved with
        ⟨region, frame, ⟨equal, none, after⟩ | ⟨index, equal, first⟩⟩
      · rw [equal]
        refine ⟨stillEmpty, after.trans ?_⟩
        rw [line] at none
        rw [← List.drop_drop, none, List.drop_nil]
      · rw [equal]
        refine ⟨stillEmpty, ?_⟩
        rw [line] at first
        rw [← List.drop_drop, first]
        rfl

theorem answerOf_eq (memory : Nat -> ByteMemory) {allocator : FrameAllocator}
    (empty : allocator.freeList = noFrame) (call : Nat) :
    answerOf memory allocator call = (allocator.unreservedFrames[call]?).map Frame.mk := by
  rcases afterCalls_unreserved memory empty call with ⟨stillEmpty, line⟩
  rw [answerOf, FrameAllocator.allocate_of_empty_list stillEmpty, ← List.head?_drop, ← line]
  rcases (afterCalls memory allocator call).bumpLoop_unreserved with
    ⟨region, frame, ⟨equal, none, _⟩ | ⟨index, equal, first⟩⟩
  · rw [equal, none]
    rfl
  · rw [equal, first]
    rfl

/-! ## The frames of a fresh pool -/

section Fresh

variable (image : KernelImage) (map : MemoryMap)

/-- The unreserved frames of a range, in order. -/
def FrameRange.unreserved (range : FrameRange) (image : KernelImage) : List Nat :=
  (List.range' range.start range.len).filter (fun index =>
    !image.reservations.any (fun reservation => reservation.range.contains index))

theorem new_freeList : (FrameAllocator.new image map).freeList = noFrame := by
  rcases FrameAllocator.new_eq image map with ⟨frame, total, bounded, equal, _⟩
  rw [equal]

theorem new_unreservedFrames :
    (FrameAllocator.new image map).unreservedFrames =
      map.poolRegions.flatMap (fun range => range.unreserved image) := by
  rcases FrameAllocator.new_eq image map with ⟨frame, total, bounded, equal, starts⟩
  have pending : (FrameAllocator.new image map).pending =
      map.poolRegions.flatMap FrameRange.slots := by
    rw [equal, FrameAllocator.pending]
    simp only [List.drop_zero]
    cases regions : map.poolRegions with
    | nil => rfl
    | cons first rest =>
        have same : frame = first.start := starts first (by rw [regions]; rfl)
        rw [same, List.flatMap_cons]
        rfl
  have reserved : forall index, (FrameAllocator.new image map).isReserved index =
      image.reservations.any (fun reservation => reservation.range.contains index) := by
    intro index
    rw [equal]
    rfl
  have indices : forall range : FrameRange,
      range.slots.map Slot.index = List.range' range.start range.len := by
    intro range
    rw [FrameRange.slots, FrameRange.slotsFrom, List.map_map]
    exact List.map_id _
  rw [FrameAllocator.unreservedFrames, FrameAllocator.pendingFrames, pending, List.map_flatMap,
    List.filter_flatMap]
  simp only [reserved, indices]
  rfl

theorem foldl_count (test : Nat -> Bool) (indices : List Nat) (count : Nat) :
    indices.foldl (fun count index => if test index then count + 1 else count) count =
      count + (indices.filter test).length := by
  induction indices generalizing count with
  | nil => rfl
  | cons index rest inductionHypothesis =>
      rw [List.foldl_cons, inductionHypothesis, List.filter_cons]
      split
      · rw [List.length_cons]
        omega
      · rfl

theorem new_total :
    (FrameAllocator.new image map).total =
      (FrameAllocator.new image map).unreservedFrames.length := by
  have counted : (FrameAllocator.new image map).total =
      (FrameAllocator.new image map).countAllocatable := rfl
  rcases FrameAllocator.new_eq image map with ⟨frame, total, bounded, equal, _⟩
  have loops : (FrameAllocator.new image map).countAllocatable = map.poolRegions.foldl
      (fun count range => count + (range.unreserved image).length) 0 := by
    rw [equal, FrameAllocator.countAllocatable]
    congr 1
    funext count range
    exact foldl_count _ _ _
  have outer : forall (ranges : List FrameRange) (count : Nat),
      ranges.foldl (fun count range => count + (range.unreserved image).length) count =
        count + (ranges.flatMap (fun range => range.unreserved image)).length := by
    intro ranges
    induction ranges with
    | nil => intro count; rfl
    | cons range rest inductionHypothesis =>
        intro count
        rw [List.foldl_cons, inductionHypothesis, List.flatMap_cons, List.length_append,
          Nat.add_assoc]
  rw [counted, loops, outer, new_unreservedFrames, Nat.zero_add]

variable {image map}

theorem mem_unreserved {range : FrameRange} {index : Nat} :
    index ∈ range.unreserved image ↔ range.contains index = true ∧
      forall reservation, reservation ∈ image.reservations ->
        reservation.range.contains index = false := by
  rw [FrameRange.unreserved, List.mem_filter, List.mem_range'_1, FrameRange.contains_iff,
    FrameRange.len, Bool.not_eq_true', List.any_eq_false]
  simp only [Bool.not_eq_true]
  apply and_congr_left
  intro _
  omega

theorem mem_new_unreservedFrames {index : Nat} :
    index ∈ (FrameAllocator.new image map).unreservedFrames ↔ PoolFrame image map index := by
  rw [new_unreservedFrames, List.mem_flatMap, PoolFrame, ← and_assoc, ← exists_poolRegion_iff]
  simp only [mem_unreserved]
  constructor
  · rintro ⟨range, member, holds, free⟩
    exact ⟨⟨range, member, holds⟩, free⟩
  · rintro ⟨⟨range, member, holds⟩, free⟩
    exact ⟨range, member, holds, free⟩

/-- The cursor meets no frame twice exactly if no frame of the pool lies inside
two usable entries. -/
theorem nodup_new_unreservedFrames_iff :
    (FrameAllocator.new image map).unreservedFrames.Nodup ↔
      map.usableRegions.Pairwise (fun left right => forall index, PoolFrame image map index ->
        ¬ (left.frameRange.contains index = true ∧ right.frameRange.contains index = true)) := by
  have within : forall range, range ∈ map.poolRegions -> (range.unreserved image).Nodup :=
    fun range _ => List.Nodup.filter _ List.nodup_range'
  rw [new_unreservedFrames, List.nodup_flatMap, and_iff_right within, MemoryMap.poolRegions,
    List.pairwise_filter, List.pairwise_map]
  apply List.Pairwise.iff_of_mem
  intro left right inLeft inRight
  constructor
  · rintro apart index ⟨_, _, free⟩ ⟨holdsLeft, holdsRight⟩
    have leftBounds := FrameRange.contains_iff.mp holdsLeft
    have rightBounds := FrameRange.contains_iff.mp holdsRight
    have leftFull := FrameRange.isEmpty_eq_false_iff.mpr
      (Nat.lt_of_le_of_lt leftBounds.1 leftBounds.2)
    have rightFull := FrameRange.isEmpty_eq_false_iff.mpr
      (Nat.lt_of_le_of_lt rightBounds.1 rightBounds.2)
    exact apart (by rw [leftFull]; rfl) (by rw [rightFull]; rfl)
      (mem_unreserved.mpr ⟨holdsLeft, free⟩) (mem_unreserved.mpr ⟨holdsRight, free⟩)
  · intro apart leftFull _ index memberLeft memberRight
    rcases mem_unreserved.mp memberLeft with ⟨holdsLeft, free⟩
    rcases mem_unreserved.mp memberRight with ⟨holdsRight, _⟩
    have inPool : index ∈ (FrameAllocator.new image map).unreservedFrames := by
      rw [new_unreservedFrames]
      exact List.mem_flatMap.mpr ⟨left.frameRange, List.mem_filter.mpr
        ⟨List.mem_map.mpr ⟨left, inLeft, rfl⟩, leftFull⟩, memberLeft⟩
    exact apart index (mem_new_unreservedFrames.mp inPool) ⟨holdsLeft, holdsRight⟩

end Fresh

/-- Repeated allocation from a fresh pool does what it should exactly if no
frame of the pool is reported twice as usable, or as usable and as something
else. -/
theorem pool_sound_iff (image : KernelImage) (map : MemoryMap) (memory : Nat -> ByteMemory) :
    PoolSound image map memory ↔ EntriesApart image map := by
  have answers : forall call, answerOf memory (FrameAllocator.new image map) call =
      ((FrameAllocator.new image map).unreservedFrames[call]?).map Frame.mk :=
    answerOf_eq memory (new_freeList image map)
  have answered : forall call index,
      answerOf memory (FrameAllocator.new image map) call = some ⟨index⟩ ↔
        (FrameAllocator.new image map).unreservedFrames[call]? = some index := by
    intro call index
    rw [answers, Option.map_eq_some_iff]
    constructor
    · rintro ⟨other, found, same⟩
      cases same
      exact found
    · exact fun found => ⟨index, found, rfl⟩
  have returned : forall index,
      (Exists fun call => answerOf memory (FrameAllocator.new image map) call = some ⟨index⟩) ↔
        PoolFrame image map index := by
    intro index
    rw [← mem_new_unreservedFrames, List.mem_iff_getElem?]
    exact exists_congr fun call => answered call index
  constructor
  · rintro ⟨_, _, distinct, exactly⟩
    constructor
    · rw [← nodup_new_unreservedFrames_iff, List.nodup_iff_getElem?_ne_getElem?]
      intro first second order bound same
      have found := List.getElem?_eq_getElem bound
      have firstAnswer := (answered first _).mpr (same.trans found)
      have secondAnswer := (answered second _).mpr found
      exact absurd (distinct first second _ firstAnswer secondAnswer) (Nat.ne_of_lt order)
    · intro region member unusable index inPool
      exact ((exactly index).mp ((returned index).mpr inPool)).2 region member unusable
  · rintro ⟨usable, unusable⟩
    constructor
    · intro call below
      rw [new_total] at below
      rw [answers, List.getElem?_eq_getElem below]
      rfl
    · intro call past
      rw [new_total] at past
      rw [answers, List.getElem?_eq_none past]
      rfl
    · intro first second frame firstAnswer secondAnswer
      have firstFound := (answered first frame.index).mp firstAnswer
      have secondFound := (answered second frame.index).mp secondAnswer
      rcases List.getElem?_eq_some_iff.mp firstFound with ⟨bound, _⟩
      exact (List.getElem?_inj bound (nodup_new_unreservedFrames_iff.mpr usable)).mp
        (firstFound.trans secondFound.symm)
    · intro index
      rw [returned]
      constructor
      · exact fun inPool => ⟨inPool, fun region member other => unusable region member other index inPool⟩
      · exact fun sound => sound.1

/-- Write one entry of a handoff block: base, length and type, marked as valid. -/
def storeEntry (memory : ByteMemory) (index base length kind : Nat) : ByteMemory :=
  (((memory.store (entryAddr index) 8 base).store (entryAddr index + 8) 8 length).store
    (entryAddr index + 16) 4 kind).store (entryAddr index + 20) 4 1

def storeHeader (count : Nat) : ByteMemory :=
  (ByteMemory.store (fun _ => 0) handoffAddr 4 signature).store (handoffAddr + 4) 4 count

theorem pool_sound_apart :
    let map := load (storeEntry (storeEntry (storeHeader 2) 0 0x100000 0x4000 1) 1 0x104000 0x1000 2)
    map.regions = [⟨0x100000, 0x4000, .usable⟩, ⟨0x104000, 0x1000, .reserved⟩] ∧
      PoolSound smallImage map (fun _ _ => 0) := by
  intro map
  have regions : map.regions = [⟨0x100000, 0x4000, .usable⟩, ⟨0x104000, 0x1000, .reserved⟩] := by
    decide +kernel
  have usableRegions : map.usableRegions = [⟨0x100000, 0x4000, .usable⟩] := by
    rw [MemoryMap.usableRegions, regions]
    decide
  refine ⟨regions, (pool_sound_iff smallImage map (fun _ _ => 0)).mpr ⟨?_, ?_⟩⟩
  · rw [usableRegions]
    exact List.pairwise_singleton _ _
  · intro region member unusable index inPool
    rintro ⟨address, inFrame, lower, upper⟩
    rcases inPool with ⟨⟨other, otherMember, usable, otherLower, otherUpper⟩, _⟩
    rw [regions] at member otherMember
    simp only [List.mem_cons, List.not_mem_nil, or_false] at member otherMember
    rcases member with rfl | rfl
    · cases unusable
    · rcases otherMember with rfl | rfl
      · have ends : (0x100000 : UInt64).toNat + (0x4000 : UInt64).toNat = 0x104000 := by decide
        have starts : (0x104000 : UInt64).toNat = 0x104000 := by decide
        simp only [frameSize] at *
        omega
      · cases usable

/-- Two usable entries overlap, and a reserved one lies inside the first.  Frame
`0x102` is returned twice, and frame `0x101`, which is reserved, is returned
too. -/
theorem pool_unsound_overlapping :
    let map := load (storeEntry (storeEntry (storeEntry (storeHeader 3) 0 0x100000 0x4000 1)
      1 0x102000 0x4000 1) 2 0x101000 0x1000 2)
    map.regions = [⟨0x100000, 0x4000, .usable⟩, ⟨0x102000, 0x4000, .usable⟩,
        ⟨0x101000, 0x1000, .reserved⟩] ∧
      answerOf (fun _ _ => 0) (FrameAllocator.new smallImage map) 1 = some ⟨0x101⟩ ∧
      answerOf (fun _ _ => 0) (FrameAllocator.new smallImage map) 2 = some ⟨0x102⟩ ∧
      answerOf (fun _ _ => 0) (FrameAllocator.new smallImage map) 4 = some ⟨0x102⟩ ∧
      ¬ PoolSound smallImage map (fun _ _ => 0) := by
  intro map
  have second : answerOf (fun _ _ => 0) (FrameAllocator.new smallImage map) 2 = some ⟨0x102⟩ := by
    decide +kernel
  have fourth : answerOf (fun _ _ => 0) (FrameAllocator.new smallImage map) 4 = some ⟨0x102⟩ := by
    decide +kernel
  refine ⟨by decide +kernel, by decide +kernel, second, fourth, ?_⟩
  intro sound
  exact absurd (sound.distinct 2 4 ⟨0x102⟩ second fourth) (by decide)

end Memory
end Goatos
