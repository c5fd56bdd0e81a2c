import Mathlib.Data.Finset.Basic
import Mathlib.Order.Interval.Finset.Nat
import Goatos.Library.Transition
import Goatos.Memory.FrameRegions

namespace Goatos
namespace Memory

open Library

/-!
# Who owns each frame

The allocator is run together with its clients.  A world records the
allocator, the contents of memory, the frames that are held (returned and not
successfully freed since) and the frames that were ever returned; the last two
are not stored by the source and only serve to state what its answers mean.

Clients may ask for frames, give any frame back, and overwrite the frames they
hold, links included.  Memory outside the pool may change as well.  What stays
fixed are the frames of the pool that nobody holds, and the free list lives in
some of them.
-/

/-- The frames that an answer of an allocation with this count grants. -/
def grantedFrames (count : Nat) : Option Frame -> Finset Nat
  | none => ∅
  | some frame => Finset.Ico frame.index (frame.index + count)

theorem card_grantedFrames_some (count first : Nat) :
    (grantedFrames count (some ⟨first⟩)).card = count := by
  rw [grantedFrames, Nat.card_Ico, Nat.add_sub_cancel_left]

theorem mem_grantedFrames_one {index first : Nat} :
    index ∈ grantedFrames 1 (some ⟨first⟩) ↔ index = first := by
  rw [grantedFrames, Finset.mem_Ico]
  simp only
  omega

/-- A call with its answer, or a burst of writes by the clients.  The answers are
part of the events, so that statements about runs can speak of them. -/
inductive FrameEvent where
  | allocate (result : Option Frame)
  | allocateContiguous (count : Nat) (result : Option Frame)
  | free (frame : Frame) (result : Except FreeError Unit)
  | write

/-- The frames an event hands to its caller. -/
def FrameEvent.granted : FrameEvent -> Finset Nat
  | .allocate result => grantedFrames 1 result
  | .allocateContiguous count result => grantedFrames count result
  | .free _ _ => ∅
  | .write => ∅

structure FrameWorld where
  allocator : FrameAllocator
  memory : ByteMemory
  held : Finset Nat
  returned : Finset Nat

namespace FrameWorld

/-- A fresh pool over arbitrary memory contents. -/
def init (image : KernelImage) (map : MemoryMap) (memory : ByteMemory) : FrameWorld where
  allocator := FrameAllocator.new image map
  memory := memory
  held := ∅
  returned := ∅

/-- Hand the given frames to a client. -/
def grant (world : FrameWorld) (allocator : FrameAllocator) (frames : Finset Nat) : FrameWorld where
  allocator := allocator
  memory := world.memory
  held := world.held ∪ frames
  returned := world.returned ∪ frames

/-- Take a frame back if the allocator accepted it.  A refused frame stays with
whoever holds it. -/
def release (world : FrameWorld) (frame : Frame)
    (answer : Except FreeError Unit × FrameAllocator × ByteMemory) : FrameWorld where
  allocator := answer.2.1
  memory := answer.2.2
  held := match answer.1 with
    | .ok _ => world.held.erase frame.index
    | .error _ => world.held
  returned := world.returned

end FrameWorld

/-- The steps of the allocator and its clients.  Clients may free any frame, held or
not, and may write everywhere but to frames of the pool that nobody holds. -/
inductive FrameStep : FrameWorld -> FrameEvent -> FrameWorld -> Prop
  | allocate {world : FrameWorld} {result : Option Frame} {next : FrameAllocator} :
      world.allocator.allocate world.memory = (result, next) ->
      FrameStep world (.allocate result) (world.grant next (grantedFrames 1 result))
  | allocateContiguous {world : FrameWorld} {count : Nat} {result : Option Frame}
      {next : FrameAllocator} :
      world.allocator.allocateContiguous count = (result, next) ->
      FrameStep world (.allocateContiguous count result)
        (world.grant next (grantedFrames count result))
  | free {world : FrameWorld} {frame : Frame}
      {answer : Except FreeError Unit × FrameAllocator × ByteMemory} :
      world.allocator.free world.memory frame = answer ->
      FrameStep world (.free frame answer.1) (world.release frame answer)
  | write {world : FrameWorld} {memory : ByteMemory} :
      (forall address, world.allocator.Managed (address / frameSize) ->
        address / frameSize ∉ world.held -> memory address = world.memory address) ->
      FrameStep world .write { world with memory := memory }

namespace FrameWorld

/-- The world after the call `allocate`. -/
def afterAllocate (world : FrameWorld) : FrameWorld :=
  world.grant (world.allocator.allocate world.memory).2
    (grantedFrames 1 (world.allocator.allocate world.memory).1)

def afterContiguous (world : FrameWorld) (count : Nat) : FrameWorld :=
  world.grant (world.allocator.allocateContiguous count).2
    (grantedFrames count (world.allocator.allocateContiguous count).1)

def afterFree (world : FrameWorld) (frame : Frame) : FrameWorld :=
  world.release frame (world.allocator.free world.memory frame)

theorem step_allocate {world : FrameWorld} {result : Option Frame}
    (answer : (world.allocator.allocate world.memory).1 = result) :
    FrameStep world (.allocate result) world.afterAllocate := by
  subst answer
  exact FrameStep.allocate (Prod.mk.eta).symm

theorem step_allocateContiguous {world : FrameWorld} {count : Nat} {result : Option Frame}
    (answer : (world.allocator.allocateContiguous count).1 = result) :
    FrameStep world (.allocateContiguous count result) (world.afterContiguous count) := by
  subst answer
  exact FrameStep.allocateContiguous (Prod.mk.eta).symm

theorem step_free {world : FrameWorld} {frame : Frame} {result : Except FreeError Unit}
    (answer : (world.allocator.free world.memory frame).1 = result) :
    FrameStep world (.free frame result) (world.afterFree frame) := by
  subst answer
  exact FrameStep.free rfl

end FrameWorld

/-! ## The invariant -/

/-- The free list in memory is the chain `nodes`.  Its frames and the held
frames are frames of the pool behind the cursor, and no frame is both. -/
structure FrameInvariant (world : FrameWorld) (nodes : List Nat) : Prop where
  cursor : world.allocator.CursorValid
  disjoint : world.allocator.RegionsDisjoint
  linked : Linked (nextFree world.memory) noFrame world.allocator.freeList nodes
  counted : world.allocator.freeCount = nodes.length
  distinct : nodes.Nodup
  listed : forall index, index ∈ nodes -> world.allocator.Managed index ∧
    index ∉ world.allocator.pendingFrames ∧ index ∉ world.held
  owned : forall index, index ∈ world.held -> world.allocator.Managed index ∧
    index ∉ world.allocator.pendingFrames

theorem FrameAllocator.Managed.lt {allocator : FrameAllocator} {index : Nat}
    (managed : allocator.Managed index) : index < maxFrameIndex := by
  rcases managed.1 with ⟨region, member, holds⟩
  exact Nat.lt_of_lt_of_le (FrameRange.contains_iff.mp holds).2
    (allocator.regionsBounded region member).2

/-- Frames handed out by moving the cursor: they were pending, are not any
more, and are not reserved. -/
structure CursorAdvance (before after : FrameAllocator) (taken : Finset Nat) : Prop where
  moved : Exists fun region => Exists fun frame => Exists fun inUse =>
    after = before.moved region frame inUse
  cursor : after.CursorValid
  used : after.inUse = before.inUse + taken.card
  pending : forall index, index ∈ after.pendingFrames -> index ∈ before.pendingFrames
  taken : forall index, index ∈ taken -> index ∈ before.pendingFrames ∧
    index ∉ after.pendingFrames ∧ before.isReserved index = false

namespace CursorAdvance

variable {before after : FrameAllocator} {taken : Finset Nat}

theorem regions_eq (advance : CursorAdvance before after taken) :
    after.regions = before.regions := by
  rcases advance.moved with ⟨region, frame, inUse, rfl⟩
  rfl

theorem reservations_eq (advance : CursorAdvance before after taken) :
    after.reservations = before.reservations := by
  rcases advance.moved with ⟨region, frame, inUse, rfl⟩
  rfl

end CursorAdvance

namespace FrameAllocator

private theorem not_mem_rest {skipped window rest : List Nat}
    (distinct : (skipped ++ (window ++ rest)).Nodup) {index : Nat} (member : index ∈ window) :
    index ∉ rest :=
  fun later => (List.nodup_append'.mp (List.nodup_append'.mp distinct).2.1).2.2 member later

theorem bumpLoop_advance {allocator : FrameAllocator} (valid : allocator.CursorValid)
    (disjoint : allocator.RegionsDisjoint) :
    CursorAdvance allocator (bumpLoop.run allocator).2
      (grantedFrames 1 (bumpLoop.run allocator).1) := by
  have distinct := pendingFrames_nodup valid disjoint
  rcases bumpLoop_outcome allocator with ⟨skipped, _, region, frame, outcome, kept⟩
  rcases outcome with ⟨equal, _, after⟩ | ⟨slot, equal, free, before⟩
  · refine ⟨⟨region, frame, _, congrArg Prod.snd equal⟩, kept valid, ?_, ?_, ?_⟩
    · rw [equal]
      rfl
    · intro index member
      rw [pendingFrames, after] at member
      cases member
    · intro index member
      rw [equal] at member
      exact absurd member (Finset.notMem_empty index)
  · have split : allocator.pendingFrames = skipped.map Slot.index ++
        ([slot.index] ++ (bumpLoop.run allocator).2.pendingFrames) := by
      rw [pendingFrames, before, List.map_append]
      rfl
    refine ⟨⟨region, frame, _, congrArg Prod.snd equal⟩, kept valid, ?_, ?_, ?_⟩
    · rw [equal, card_grantedFrames_some]
      rfl
    · intro index member
      rw [split]
      exact List.mem_append_right _ (List.mem_append_right _ member)
    · intro index member
      rw [equal] at member
      have same : index = slot.index := mem_grantedFrames_one.mp member
      subst same
      rw [split] at distinct
      refine ⟨?_, not_mem_rest distinct (List.mem_singleton.mpr rfl), free⟩
      rw [split]
      exact List.mem_append_right _ (List.mem_append_left _ (List.mem_singleton.mpr rfl))

theorem contiguousLoop_advance (count : Nat) {allocator : FrameAllocator}
    (valid : allocator.CursorValid) (disjoint : allocator.RegionsDisjoint) :
    CursorAdvance allocator ((contiguousLoop count).run allocator).2
      (grantedFrames count ((contiguousLoop count).run allocator).1) := by
  have distinct := pendingFrames_nodup valid disjoint
  rcases contiguousLoop_outcome count allocator with ⟨skipped, _, region, frame, outcome, kept⟩
  rcases outcome with ⟨equal, _, after⟩ | ⟨slot, equal, free, fits, before⟩
  · refine ⟨⟨region, frame, _, congrArg Prod.snd equal⟩, kept valid, ?_, ?_, ?_⟩
    · rw [equal]
      rfl
    · intro index member
      rw [pendingFrames, after] at member
      cases member
    · intro index member
      rw [equal] at member
      exact absurd member (Finset.notMem_empty index)
  · have split : allocator.pendingFrames = skipped.map Slot.index ++
        (List.range' slot.index count ++
          ((contiguousLoop count).run allocator).2.pendingFrames) := by
      rw [pendingFrames, before, List.map_append, List.map_append, List.map_map]
      exact congrArg (fun window => _ ++ (window ++ _)) (List.map_id _)
    refine ⟨⟨region, frame, _, congrArg Prod.snd equal⟩, kept valid, ?_, ?_, ?_⟩
    · rw [equal, card_grantedFrames_some]
      rfl
    · intro index member
      rw [split]
      exact List.mem_append_right _ (List.mem_append_right _ member)
    · intro index member
      rw [equal] at member
      have bounds := Finset.mem_Ico.mp member
      have inWindow : index ∈ List.range' slot.index count :=
        List.mem_range'_1.mpr ⟨bounds.1, bounds.2⟩
      rw [split] at distinct
      refine ⟨?_, not_mem_rest distinct inWindow, fits.2 index bounds.1 bounds.2⟩
      rw [split]
      exact List.mem_append_right _ (List.mem_append_left _ inWindow)

theorem allocateContiguous_advance (count : Nat) {allocator : FrameAllocator}
    (valid : allocator.CursorValid) (disjoint : allocator.RegionsDisjoint) :
    CursorAdvance allocator (allocator.allocateContiguous count).2
      (grantedFrames count (allocator.allocateContiguous count).1) := by
  unfold allocateContiguous
  split
  · exact ⟨⟨_, _, _, rfl⟩, valid, rfl, fun _ member => member,
      fun index member => absurd member (Finset.notMem_empty index)⟩
  · exact contiguousLoop_advance count valid disjoint

end FrameAllocator

namespace FrameInvariant

variable {world : FrameWorld} {nodes : List Nat}

/-- Frames taken by the cursor are frames of the pool that nobody holds and
that are not on the free list. -/
theorem fresh_of_advance (invariant : FrameInvariant world nodes) {next : FrameAllocator}
    {taken : Finset Nat} (advance : CursorAdvance world.allocator next taken) {index : Nat}
    (member : index ∈ taken) :
    world.allocator.Managed index ∧ index ∉ world.held ∧ index ∉ nodes := by
  rcases advance.taken index member with ⟨pending, _, free⟩
  refine ⟨⟨FrameAllocator.exists_region_of_pending invariant.cursor pending, free⟩, ?_, ?_⟩
  · exact fun held => (invariant.owned index held).2 pending
  · exact fun listed => (invariant.listed index listed).2.1 pending

theorem advance (invariant : FrameInvariant world nodes) {next : FrameAllocator}
    {taken : Finset Nat} (advance : CursorAdvance world.allocator next taken) :
    FrameInvariant (world.grant next taken) nodes := by
  have fresh := fun index (member : index ∈ taken) => invariant.fresh_of_advance advance member
  rcases advance with ⟨⟨region, frame, inUse, rfl⟩, cursor, _, shrinks, gone⟩
  refine ⟨cursor, invariant.disjoint, invariant.linked, invariant.counted, invariant.distinct, ?_, ?_⟩
  · intro index member
    rcases invariant.listed index member with ⟨managed, passed, unheld⟩
    refine ⟨managed, fun pending => passed (shrinks index pending), ?_⟩
    intro held
    rcases Finset.mem_union.mp held with old | new
    · exact unheld old
    · exact (fresh index new).2.2 member
  · intro index held
    rcases Finset.mem_union.mp held with old | new
    · exact ⟨(invariant.owned index old).1,
        fun pending => (invariant.owned index old).2 (shrinks index pending)⟩
    · exact ⟨(fresh index new).1, (gone index new).2.1⟩

theorem allocate_listed {head : Nat} {rest : List Nat}
    (invariant : FrameInvariant world (head :: rest)) :
    world.allocator.allocate world.memory = (some ⟨head⟩, { world.allocator with
      freeList := nextFree world.memory head
      freeCount := rest.length
      inUse := world.allocator.inUse + 1 }) := by
  have atHead : world.allocator.freeList = head := invariant.linked.1
  have real : world.allocator.freeList ≠ noFrame := atHead ▸ invariant.linked.2.1
  have counted : world.allocator.freeCount - 1 = rest.length := by
    rw [invariant.counted, List.length_cons, Nat.add_sub_cancel]
  rw [FrameAllocator.allocate, FrameAllocator.popFree, if_neg real, counted, atHead]

theorem allocate_bump (invariant : FrameInvariant world []) :
    world.allocator.allocate world.memory = FrameAllocator.bumpLoop.run world.allocator := by
  have atEnd : world.allocator.freeList = noFrame := invariant.linked
  rw [FrameAllocator.allocate, FrameAllocator.popFree, if_pos atEnd]

/-- Popping the head moves one frame from the list to its new holder. -/
theorem pop {head : Nat} {rest : List Nat} (invariant : FrameInvariant world (head :: rest)) :
    FrameInvariant (world.grant { world.allocator with
      freeList := nextFree world.memory head
      freeCount := rest.length
      inUse := world.allocator.inUse + 1 } (grantedFrames 1 (some ⟨head⟩))) rest := by
  have unique := List.nodup_cons.mp invariant.distinct
  refine ⟨invariant.cursor, invariant.disjoint, invariant.linked.2.2, rfl, unique.2, ?_, ?_⟩
  · intro index member
    rcases invariant.listed index (List.mem_cons_of_mem _ member) with ⟨managed, passed, unheld⟩
    refine ⟨managed, passed, ?_⟩
    intro held
    rcases Finset.mem_union.mp held with old | new
    · exact unheld old
    · exact unique.1 (mem_grantedFrames_one.mp new ▸ member)
  · intro index held
    rcases Finset.mem_union.mp held with old | new
    · exact invariant.owned index old
    · rw [mem_grantedFrames_one.mp new]
      have atHead := invariant.listed head List.mem_cons_self
      exact ⟨atHead.1, atHead.2.1⟩

/-- The allocator that `free` leaves behind when it accepts a frame. -/
def freed (allocator : FrameAllocator) (index : Nat) : FrameAllocator :=
  { allocator with
    freeList := index
    freeCount := allocator.freeCount + 1
    inUse := allocator.inUse - 1 }

/-- Everything `free` can answer, and when: the three reasons to refuse a frame, in
their order, and an accepted frame if there is none. -/
theorem free_cases (invariant : FrameInvariant world nodes) (frame : Frame) :
    (¬ world.allocator.Managed frame.index ∧
      world.allocator.free world.memory frame =
        (.error .notManaged, world.allocator, world.memory)) ∨
    (world.allocator.Managed frame.index ∧
      ((frame.index ∈ world.allocator.pendingFrames ∧
        world.allocator.free world.memory frame =
          (.error .neverAllocated, world.allocator, world.memory)) ∨
      (frame.index ∉ world.allocator.pendingFrames ∧
        ((frame.index ∈ nodes ∧ world.allocator.free world.memory frame =
            (.error .alreadyFree, world.allocator, world.memory)) ∨
          (frame.index ∉ nodes ∧ world.allocator.free world.memory frame =
            (.ok (), freed world.allocator frame.index,
              world.memory.store (linkOf frame.index) 4 world.allocator.freeList)))))) := by
  have walk : world.allocator.onFreeList world.memory frame.index = true ↔ frame.index ∈ nodes := by
    rw [FrameAllocator.onFreeList, invariant.counted]
    exact walkFinds_iff_mem invariant.linked frame.index
  by_cases managed : world.allocator.Managed frame.index
  · refine Or.inr ⟨managed, ?_⟩
    have accepted : ((world.allocator.regionOf frame.index).isNone ||
        world.allocator.isReserved frame.index) = false := by
      rw [Bool.or_eq_false_iff]
      refine ⟨Bool.eq_false_iff.mpr ?_, managed.2⟩
      exact fun absent => FrameAllocator.regionOf_isNone_iff.mp absent managed.1
    have passed := FrameAllocator.handedOut_iff invariant.cursor invariant.disjoint managed.1
    rw [FrameAllocator.free, accepted]
    by_cases pending : frame.index ∈ world.allocator.pendingFrames
    · refine Or.inl ⟨pending, ?_⟩
      have never : world.allocator.handedOut frame.index = false :=
        Bool.eq_false_iff.mpr (fun out => passed.mp out pending)
      rw [never]
      rfl
    · refine Or.inr ⟨pending, ?_⟩
      rw [passed.mpr pending]
      by_cases listed : frame.index ∈ nodes
      · refine Or.inl ⟨listed, ?_⟩
        rw [walk.mpr listed]
        rfl
      · refine Or.inr ⟨listed, ?_⟩
        rw [Bool.eq_false_iff.mpr (mt walk.mp listed)]
        rfl
  · refine Or.inl ⟨managed, ?_⟩
    have refused : ((world.allocator.regionOf frame.index).isNone ||
        world.allocator.isReserved frame.index) = true := by
      by_cases reserved : world.allocator.isReserved frame.index = true
      · rw [reserved, Bool.or_true]
      · rw [FrameAllocator.regionOf_isNone_iff.mpr
          (fun inPool => managed ⟨inPool, Bool.eq_false_iff.mpr reserved⟩), Bool.true_or]
    rw [FrameAllocator.free, refused]
    rfl

/-- `free` refuses a frame and leaves everything as it is, or accepts it. -/
theorem free_outcome (invariant : FrameInvariant world nodes) (frame : Frame) :
    (Exists fun error => world.allocator.free world.memory frame =
      (.error error, world.allocator, world.memory)) ∨
    (world.allocator.Managed frame.index ∧ frame.index ∉ world.allocator.pendingFrames ∧
      frame.index ∉ nodes ∧ world.allocator.free world.memory frame =
        (.ok (), freed world.allocator frame.index,
          world.memory.store (linkOf frame.index) 4 world.allocator.freeList)) := by
  rcases invariant.free_cases frame with
    ⟨_, equal⟩ | ⟨managed, ⟨_, equal⟩ | ⟨passed, ⟨_, equal⟩ | ⟨unlisted, equal⟩⟩⟩
  · exact Or.inl ⟨_, equal⟩
  · exact Or.inl ⟨_, equal⟩
  · exact Or.inl ⟨_, equal⟩
  · exact Or.inr ⟨managed, passed, unlisted, equal⟩

theorem free_error_unchanged (invariant : FrameInvariant world nodes) (frame : Frame)
    (error : FreeError) (refused : (world.allocator.free world.memory frame).1 = .error error) :
    (world.allocator.free world.memory frame).2 = (world.allocator, world.memory) := by
  rcases invariant.free_outcome frame with ⟨_, equal⟩ | ⟨_, _, _, equal⟩
  · rw [equal]
  · rw [equal] at refused
    cases refused

theorem freeList_lt (invariant : FrameInvariant world nodes) :
    world.allocator.freeList < 256 ^ 4 := by
  cases nodes with
  | nil =>
      have atEnd : world.allocator.freeList = noFrame := invariant.linked
      rw [atEnd]
      decide
  | cons head rest =>
      have atHead : world.allocator.freeList = head := invariant.linked.1
      have small := (invariant.listed head List.mem_cons_self).1.lt
      rw [atHead]
      exact Nat.lt_trans small (by decide)

/-- Pushing a frame writes one link and disturbs no other: the link is in the frame
that is pushed, which is not on the list. -/
theorem push (invariant : FrameInvariant world nodes) {index : Nat}
    (managed : world.allocator.Managed index) (passed : index ∉ world.allocator.pendingFrames)
    (unlisted : index ∉ nodes) :
    FrameInvariant {
      allocator := freed world.allocator index
      memory := world.memory.store (linkOf index) 4 world.allocator.freeList
      held := world.held.erase index
      returned := world.returned } (index :: nodes) := by
  have real : index ≠ noFrame := by
    have small := managed.lt
    have large : maxFrameIndex < noFrame := by decide
    omega
  have link : nextFree (world.memory.store (linkOf index) 4 world.allocator.freeList) index =
      world.allocator.freeList := by
    rw [nextFree, ByteMemory.load_store_of_lt _ invariant.freeList_lt]
  have apart : forall other, other ∈ nodes ->
      nextFree (world.memory.store (linkOf index) 4 world.allocator.freeList) other =
        nextFree world.memory other := by
    intro other member
    have different : other ≠ index := fun same => unlisted (same ▸ member)
    apply ByteMemory.load_store_of_disjoint
    rw [linkOf, linkOf, shiftLeft_frameShift, shiftLeft_frameShift]
    omega
  have chain : Linked (nextFree (world.memory.store (linkOf index) 4 world.allocator.freeList))
      noFrame index (index :: nodes) := invariant.linked.push real link apart
  refine ⟨invariant.cursor, invariant.disjoint, ?_, ?_, ?_, ?_, ?_⟩
  · exact chain
  · exact congrArg (· + 1) invariant.counted
  · exact List.nodup_cons.mpr ⟨unlisted, invariant.distinct⟩
  · intro other member
    rcases List.mem_cons.mp member with rfl | old
    · exact ⟨managed, passed, Finset.notMem_erase _ _⟩
    · rcases invariant.listed other old with ⟨otherManaged, otherPassed, unheld⟩
      exact ⟨otherManaged, otherPassed, fun held => unheld (Finset.mem_of_mem_erase held)⟩
  · intro other held
    exact invariant.owned other (Finset.mem_of_mem_erase held)

/-- Client writes cannot reach the links. -/
theorem nextFree_eq (invariant : FrameInvariant world nodes) {memory : ByteMemory}
    (untouched : forall address, world.allocator.Managed (address / frameSize) ->
      address / frameSize ∉ world.held -> memory address = world.memory address) {index : Nat}
    (member : index ∈ nodes) : nextFree memory index = nextFree world.memory index := by
  rcases invariant.listed index member with ⟨managed, _, unheld⟩
  apply ByteMemory.load_congr
  intro address inLink
  have bounds := ByteMemory.mem_extent.mp inLink
  rw [linkOf, shiftLeft_frameShift] at bounds
  have inFrame : address / frameSize = index := by
    unfold frameSize
    omega
  exact untouched address (inFrame ▸ managed) (inFrame ▸ unheld)

theorem write (invariant : FrameInvariant world nodes) {memory : ByteMemory}
    (untouched : forall address, world.allocator.Managed (address / frameSize) ->
      address / frameSize ∉ world.held -> memory address = world.memory address) :
    FrameInvariant { world with memory := memory } nodes :=
  ⟨invariant.cursor, invariant.disjoint,
    invariant.linked.congr (fun _ member => invariant.nextFree_eq untouched member),
    invariant.counted, invariant.distinct, invariant.listed, invariant.owned⟩

theorem allocate_congr (invariant : FrameInvariant world nodes) {memory : ByteMemory}
    (untouched : forall address, world.allocator.Managed (address / frameSize) ->
      address / frameSize ∉ world.held -> memory address = world.memory address) :
    world.allocator.allocate memory = world.allocator.allocate world.memory := by
  have written := invariant.write untouched
  cases nodes with
  | nil => exact written.allocate_bump.trans invariant.allocate_bump.symm
  | cons head rest =>
      have answer := written.allocate_listed
      simp only at answer
      rw [answer, invariant.allocate_listed, invariant.nextFree_eq untouched List.mem_cons_self]

/-- Every step keeps some free list, and never changes regions or reservations. -/
theorem step (invariant : FrameInvariant world nodes) {event : FrameEvent} {next : FrameWorld}
    (taken : FrameStep world event next) :
    (Exists fun nodes' => FrameInvariant next nodes') ∧
      next.allocator.regions = world.allocator.regions ∧
      next.allocator.reservations = world.allocator.reservations := by
  cases taken with
  | allocate call =>
      cases nodes with
      | nil =>
          rw [invariant.allocate_bump] at call
          have advance := FrameAllocator.bumpLoop_advance invariant.cursor invariant.disjoint
          rw [call] at advance
          exact ⟨⟨_, invariant.advance advance⟩, advance.regions_eq, advance.reservations_eq⟩
      | cons head rest =>
          rw [invariant.allocate_listed] at call
          cases call
          exact ⟨⟨_, invariant.pop⟩, rfl, rfl⟩
  | allocateContiguous call =>
      rename_i count _ _
      have advance := FrameAllocator.allocateContiguous_advance count invariant.cursor
        invariant.disjoint
      rw [call] at advance
      exact ⟨⟨_, invariant.advance advance⟩, advance.regions_eq, advance.reservations_eq⟩
  | free call =>
      rename_i frame answer
      subst call
      rcases invariant.free_outcome frame with ⟨_, equal⟩ | ⟨managed, passed, unlisted, equal⟩
      · rw [FrameWorld.release, equal]
        exact ⟨⟨_, invariant⟩, rfl, rfl⟩
      · rw [FrameWorld.release, equal]
        exact ⟨⟨_, invariant.push managed passed unlisted⟩, rfl, rfl⟩
  | write untouched => exact ⟨⟨_, invariant.write untouched⟩, rfl, rfl⟩

end FrameInvariant

/-! ## Whole runs -/

/-- A fresh pool over disjoint regions satisfies the invariant with nothing on
its free list. -/
theorem FrameWorld.init_invariant (image : KernelImage) {map : MemoryMap}
    (disjoint : map.FramesDisjoint) (memory : ByteMemory) :
    FrameInvariant (FrameWorld.init image map memory) [] := by
  rcases FrameAllocator.new_eq image map with ⟨frame, total, bounded, equal, start⟩
  unfold FrameWorld.init
  rw [equal]
  refine ⟨?_, ?_, rfl, rfl, List.nodup_nil, ?_, ?_⟩
  · intro region current
    exact Nat.le_of_eq (start region current).symm
  · exact List.Pairwise.filter _ (List.pairwise_map.mpr disjoint)
  · intro index impossible
    cases impossible
  · intro index impossible
    exact absurd impossible (Finset.notMem_empty index)

/-- After every run the invariant holds, over the regions and reservations the
pool was built with. -/
theorem frameRun_sound {image : KernelImage} {map : MemoryMap} (disjoint : map.FramesDisjoint)
    {memory : ByteMemory} {events : List FrameEvent} {world : FrameWorld}
    (run : Run FrameStep (FrameWorld.init image map memory) events world) :
    (Exists fun nodes => FrameInvariant world nodes) ∧
      world.allocator.regions = map.poolRegions ∧
      world.allocator.reservations = image.reservations := by
  refine run.invariant (fun world =>
    (Exists fun nodes => FrameInvariant world nodes) ∧
      world.allocator.regions = map.poolRegions ∧
      world.allocator.reservations = image.reservations) ?_ ?_
  · refine ⟨⟨[], FrameWorld.init_invariant image disjoint memory⟩, ?_⟩
    rcases FrameAllocator.new_eq image map with ⟨frame, total, bounded, equal, _⟩
    unfold FrameWorld.init
    rw [equal]
    exact ⟨rfl, rfl⟩
  · rintro state event next ⟨⟨nodes, invariant⟩, regions, reservations⟩ taken
    rcases invariant.step taken with ⟨kept, sameRegions, sameReservations⟩
    exact ⟨kept, sameRegions.trans regions, sameReservations.trans reservations⟩

theorem FrameInvariant.granted_fresh {world next : FrameWorld} {nodes : List Nat}
    (invariant : FrameInvariant world nodes) {event : FrameEvent}
    (taken : FrameStep world event next) {index : Nat} (granted : index ∈ event.granted) :
    world.allocator.Managed index ∧ index ∉ world.held := by
  cases taken with
  | allocate call =>
      cases nodes with
      | nil =>
          rw [invariant.allocate_bump] at call
          have advance := FrameAllocator.bumpLoop_advance invariant.cursor invariant.disjoint
          rw [call] at advance
          have fresh := invariant.fresh_of_advance advance granted
          exact ⟨fresh.1, fresh.2.1⟩
      | cons head rest =>
          rw [invariant.allocate_listed] at call
          cases call
          have atHead := invariant.listed head List.mem_cons_self
          rw [mem_grantedFrames_one.mp granted]
          exact ⟨atHead.1, atHead.2.2⟩
  | allocateContiguous call =>
      rename_i count _ _
      have advance := FrameAllocator.allocateContiguous_advance count invariant.cursor
        invariant.disjoint
      rw [call] at advance
      have fresh := invariant.fresh_of_advance advance granted
      exact ⟨fresh.1, fresh.2.1⟩
  | free call => exact absurd granted (Finset.notMem_empty index)
  | write untouched => exact absurd granted (Finset.notMem_empty index)

theorem card_grant {held taken : Finset Nat} (fresh : forall index, index ∈ taken -> index ∉ held) :
    (held ∪ taken).card = held.card + taken.card :=
  Finset.card_union_of_disjoint (Finset.disjoint_left.mpr
    (fun index inHeld inTaken => fresh index inTaken inHeld))

/-- How a step moves the use count and the number of held frames: both by the
frames it grants, except that an accepted `free` counts down whether or not
anybody held the frame. -/
theorem FrameInvariant.count_cases {world next : FrameWorld} {nodes : List Nat}
    (invariant : FrameInvariant world nodes) {event : FrameEvent}
    (taken : FrameStep world event next) :
    (Exists fun gained => next.allocator.inUse = world.allocator.inUse + gained ∧
      next.held.card = world.held.card + gained) ∨
    Exists fun frame => event = .free frame (.ok ()) ∧
      next.allocator.inUse = world.allocator.inUse - 1 ∧
      next.held = world.held.erase frame.index := by
  have fresh : forall index, index ∈ event.granted -> index ∉ world.held :=
    fun index granted => (invariant.granted_fresh taken granted).2
  cases taken with
  | allocate call =>
      refine Or.inl ⟨_, ?_, card_grant fresh⟩
      cases nodes with
      | nil =>
          rw [invariant.allocate_bump] at call
          have advance := FrameAllocator.bumpLoop_advance invariant.cursor invariant.disjoint
          rw [call] at advance
          exact advance.used
      | cons head rest =>
          rw [invariant.allocate_listed] at call
          cases call
          rw [card_grantedFrames_some]
          rfl
  | allocateContiguous call =>
      rename_i count _ _
      have advance := FrameAllocator.allocateContiguous_advance count invariant.cursor
        invariant.disjoint
      rw [call] at advance
      exact Or.inl ⟨_, advance.used, card_grant fresh⟩
  | free call =>
      rename_i frame answer
      subst call
      rcases invariant.free_outcome frame with ⟨_, equal⟩ | ⟨_, _, _, equal⟩
      · rw [FrameWorld.release, equal]
        exact Or.inl ⟨0, rfl, rfl⟩
      · rw [FrameWorld.release, equal]
        exact Or.inr ⟨frame, rfl, rfl, rfl⟩
  | write _ => exact Or.inl ⟨0, rfl, rfl⟩

/-- The use count never exceeds the number of held frames.  It can fall behind,
because `free` may accept a frame that nobody holds. -/
theorem frameRun_inUse_le {image : KernelImage} {map : MemoryMap} (disjoint : map.FramesDisjoint)
    {memory : ByteMemory} {events : List FrameEvent} {world : FrameWorld}
    (run : Run FrameStep (FrameWorld.init image map memory) events world) :
    world.allocator.inUse ≤ world.held.card := by
  have both := run.invariant (fun world => (Exists fun nodes => FrameInvariant world nodes) ∧
    world.allocator.inUse ≤ world.held.card)
    ⟨⟨[], FrameWorld.init_invariant image disjoint memory⟩, ?_⟩ ?_
  · exact both.2
  · rcases FrameAllocator.new_eq image map with ⟨frame, total, bounded, equal, _⟩
    unfold FrameWorld.init
    rw [equal]
    exact Nat.le_refl 0
  · rintro state event next ⟨⟨nodes, invariant⟩, bound⟩ taken
    refine ⟨(invariant.step taken).1, ?_⟩
    rcases invariant.count_cases taken with ⟨gained, used, card⟩ | ⟨frame, _, used, held⟩
    · omega
    · rw [used, held]
      exact Nat.le_trans (Nat.sub_le_sub_right bound 1) Finset.pred_card_le_card_erase

/-- No frame has two owners.  Whatever the clients do, every frame that a call
returns is at that moment held by nobody, lies wholly inside one usable region
below 4 GiB, and is covered by no reservation. -/
theorem granted_frames_have_no_other_owner (image : KernelImage) (map : MemoryMap)
    (disjoint : map.FramesDisjoint) (memory : ByteMemory) {events : List FrameEvent}
    {world next : FrameWorld} {event : FrameEvent}
    (run : Run FrameStep (FrameWorld.init image map memory) events world)
    (taken : FrameStep world event next) (index : Nat) (granted : index ∈ event.granted) :
    index ∉ world.held ∧ PoolFrame image map index := by
  rcases frameRun_sound disjoint run with ⟨⟨nodes, invariant⟩, regions, reservations⟩
  rcases invariant.granted_fresh taken granted with ⟨managed, unheld⟩
  exact ⟨unheld, (FrameAllocator.managed_iff_poolFrame regions reservations).mp managed⟩

/-- A machine with two usable regions of four and eight frames. -/
def smallMap : MemoryMap where
  regions := [⟨0x100000, 0x4000, .usable⟩, ⟨0x200000, 0x8000, .usable⟩]
  reported := 2
  available := true
  withinCapacity := by decide

def smallImage : KernelImage where
  start := 0x10000
  «end» := 0x20000

theorem smallMap_framesDisjoint : smallMap.FramesDisjoint := by
  refine List.pairwise_cons.mpr ⟨?_, List.pairwise_singleton _ _⟩
  intro right member
  rw [List.mem_singleton.mp member]
  exact FrameRange.apart_of_le (by decide +kernel)

theorem granted_frames_have_no_other_owner_smallMap :
    let start := FrameWorld.init smallImage smallMap (fun _ => 0)
    let world := start.afterAllocate.afterFree ⟨0x100⟩
    FrameStep world (.allocate (some ⟨0x100⟩)) world.afterAllocate ∧
      0x100 ∈ world.returned ∧ 0x100 ∉ world.held ∧ PoolFrame smallImage smallMap 0x100 := by
  intro start world
  have first : FrameStep start (.allocate (some ⟨0x100⟩)) start.afterAllocate :=
    FrameWorld.step_allocate (by decide +kernel)
  have second : FrameStep start.afterAllocate (.free ⟨0x100⟩ _) world := FrameWorld.step_free rfl
  have third : FrameStep world (.allocate (some ⟨0x100⟩)) world.afterAllocate :=
    FrameWorld.step_allocate (by decide +kernel)
  have unowned := granted_frames_have_no_other_owner smallImage smallMap smallMap_framesDisjoint
    (fun _ => 0) ((Run.nil.snoc first).snoc second) third 0x100 (by decide)
  exact ⟨third, by decide +kernel, unowned.1, unowned.2⟩

end Memory
end Goatos
