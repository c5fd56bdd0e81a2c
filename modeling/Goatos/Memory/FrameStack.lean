import Goatos.Memory.FrameOwnership

namespace Goatos
namespace Memory

open Library

/-!
# The intrusive free list is a stack

What the allocator is for, without bump cursors, links or counters: a stack of
free frames and a set of held ones.  A frame that is not on the stack may be
supplied from elsewhere when the stack is empty, and a contiguous run never
comes from the stack.

The concrete allocator simulates this abstract one in every run whose clients
give back only frames that they once received.  That restriction matters for
the use count only: a client that gives back a frame it never had may find it
accepted, and then the count is decremented for a frame that was not counted.
-/

/-- The abstract allocator: a stack of free frames, most recently freed first,
and the set of held frames. -/
structure StackAllocator where
  free : List Nat
  held : Finset Nat

/-- The abstract allocator before the first call. -/
def StackAllocator.init : StackAllocator where
  free := []
  held := ∅

/-- The steps of the abstract allocator, under the labels of the concrete one.  It
says nothing about where fresh frames come from, only that nobody has them. -/
inductive StackStep : StackAllocator -> FrameEvent -> StackAllocator -> Prop
  | pop {top : Nat} {rest : List Nat} {held : Finset Nat} :
      StackStep ⟨top :: rest, held⟩ (.allocate (some ⟨top⟩)) ⟨rest, held ∪ grantedFrames 1 (some ⟨top⟩)⟩
  | supply {index : Nat} {held : Finset Nat} : index ∉ held ->
      StackStep ⟨[], held⟩ (.allocate (some ⟨index⟩)) ⟨[], held ∪ grantedFrames 1 (some ⟨index⟩)⟩
  | exhausted {held : Finset Nat} : StackStep ⟨[], held⟩ (.allocate none) ⟨[], held⟩
  | supplyRun {stack : StackAllocator} {count : Nat} {frame : Frame} :
      (forall index, index ∈ grantedFrames count (some frame) ->
        index ∉ stack.held ∧ index ∉ stack.free) ->
      StackStep stack (.allocateContiguous count (some frame))
        ⟨stack.free, stack.held ∪ grantedFrames count (some frame)⟩
  | noRun {stack : StackAllocator} {count : Nat} :
      StackStep stack (.allocateContiguous count none) stack
  | push {stack : StackAllocator} {frame : Frame} : frame.index ∈ stack.held ->
      StackStep stack (.free frame (.ok ()))
        ⟨frame.index :: stack.free, stack.held.erase frame.index⟩
  | doubleFree {stack : StackAllocator} {frame : Frame} : frame.index ∈ stack.free ->
      StackStep stack (.free frame (.error .alreadyFree)) stack
  | write {stack : StackAllocator} : StackStep stack .write stack

/-- A step in which a client gives back only a frame that was returned before;
it may have been freed since. -/
def DisciplinedStep (world : FrameWorld) (event : FrameEvent) (next : FrameWorld) : Prop :=
  FrameStep world event next ∧
    forall frame result, event = .free frame result -> frame.index ∈ world.returned

/-- The simulation relation.  The stack is the chain in memory, every returned
frame is on it or held, and the use count is the number of held frames. -/
structure StackRelated (world : FrameWorld) (stack : StackAllocator) : Prop where
  invariant : FrameInvariant world stack.free
  held : world.held = stack.held
  returned : forall index, index ∈ world.returned ↔ index ∈ world.held ∨ index ∈ stack.free
  inUse : world.allocator.inUse = world.held.card

namespace StackRelated

variable {world : FrameWorld} {stack : StackAllocator}

theorem of_returned (related : StackRelated world stack) {index : Nat}
    (returned : index ∈ world.returned) :
    world.allocator.Managed index ∧ index ∉ world.allocator.pendingFrames := by
  rcases (related.returned index).mp returned with held | listed
  · exact related.invariant.owned index held
  · have facts := related.invariant.listed index listed
    exact ⟨facts.1, facts.2.1⟩

/-- Freeing a returned frame: accepted when held, refused when on the stack. -/
theorem free_returned (related : StackRelated world stack) {frame : Frame}
    (returned : frame.index ∈ world.returned) :
    (frame.index ∈ stack.free ∧ frame.index ∉ stack.held ∧
      world.allocator.free world.memory frame =
        (.error .alreadyFree, world.allocator, world.memory)) ∨
    (frame.index ∈ stack.held ∧ frame.index ∉ stack.free ∧
      world.allocator.free world.memory frame =
        (.ok (), FrameInvariant.freed world.allocator frame.index,
          world.memory.store (linkOf frame.index) 4 world.allocator.freeList)) := by
  rcases related.of_returned returned with ⟨managed, passed⟩
  rcases related.invariant.free_cases frame with ⟨unmanaged, _⟩ | ⟨_, ⟨pending, _⟩ | ⟨_, rest⟩⟩
  · exact absurd managed unmanaged
  · exact absurd pending passed
  · rcases rest with ⟨listed, equal⟩ | ⟨unlisted, equal⟩
    · exact Or.inl ⟨listed, related.held ▸ (related.invariant.listed _ listed).2.2, equal⟩
    · refine Or.inr ⟨?_, unlisted, equal⟩
      rcases (related.returned frame.index).mp returned with held | listed
      · exact related.held ▸ held
      · exact absurd listed unlisted

theorem advance (related : StackRelated world stack) {next : FrameAllocator} {taken : Finset Nat}
    (advance : CursorAdvance world.allocator next taken) :
    StackRelated (world.grant next taken) ⟨stack.free, stack.held ∪ taken⟩ := by
  have fresh := fun index (member : index ∈ taken) =>
    related.invariant.fresh_of_advance advance member
  refine ⟨related.invariant.advance advance, ?_, ?_, ?_⟩
  · exact congrArg (· ∪ taken) related.held
  · intro index
    simp only [FrameWorld.grant, Finset.mem_union, related.returned index]
    exact or_right_comm
  · rw [FrameWorld.grant]
    simp only
    rw [card_grant (fun index member => (fresh index member).2.1), advance.used, related.inUse]

theorem pop {top : Nat} {rest : List Nat} {held : Finset Nat}
    (related : StackRelated world ⟨top :: rest, held⟩) :
    StackRelated world.afterAllocate ⟨rest, held ∪ grantedFrames 1 (some ⟨top⟩)⟩ := by
  have atTop := related.invariant.listed top List.mem_cons_self
  rw [FrameWorld.afterAllocate, related.invariant.allocate_listed]
  refine ⟨related.invariant.pop, congrArg (· ∪ _) related.held, ?_, ?_⟩
  · intro index
    simp only [FrameWorld.grant, Finset.mem_union, related.returned index, List.mem_cons,
      mem_grantedFrames_one]
    constructor
    · rintro ((inHeld | atHead | later) | atHead)
      · exact Or.inl (Or.inl inHeld)
      · exact Or.inl (Or.inr atHead)
      · exact Or.inr later
      · exact Or.inl (Or.inr atHead)
    · rintro ((inHeld | atHead) | later)
      · exact Or.inl (Or.inl inHeld)
      · exact Or.inr atHead
      · exact Or.inl (Or.inr (Or.inr later))
  · have fresh : forall index, index ∈ grantedFrames 1 (some ⟨top⟩) -> index ∉ world.held := by
      intro index member
      rw [mem_grantedFrames_one.mp member]
      exact atTop.2.2
    have one : (grantedFrames 1 (some ⟨top⟩)).card = 1 := by
      rw [grantedFrames, Nat.card_Ico, Nat.add_sub_cancel_left]
    rw [FrameWorld.grant]
    simp only
    rw [card_grant fresh, one, related.inUse]

theorem push (related : StackRelated world stack) {frame : Frame}
    (inHeld : frame.index ∈ stack.held) (unlisted : frame.index ∉ stack.free)
    (accepted : world.allocator.free world.memory frame =
      (.ok (), FrameInvariant.freed world.allocator frame.index,
        world.memory.store (linkOf frame.index) 4 world.allocator.freeList)) :
    StackRelated (world.afterFree frame)
      ⟨frame.index :: stack.free, stack.held.erase frame.index⟩ := by
  have held : frame.index ∈ world.held := related.held ▸ inHeld
  have facts := related.invariant.owned _ held
  rw [FrameWorld.afterFree, FrameWorld.release, accepted]
  refine ⟨related.invariant.push facts.1 facts.2 unlisted,
    congrArg (fun frames => Finset.erase frames frame.index) related.held, ?_, ?_⟩
  · intro index
    simp only [related.returned index, Finset.mem_erase, List.mem_cons]
    by_cases same : index = frame.index
    · subst same
      exact ⟨fun _ => Or.inr (Or.inl rfl), fun _ => Or.inl held⟩
    · constructor
      · rintro (stays | listed)
        · exact Or.inl ⟨same, stays⟩
        · exact Or.inr (Or.inr listed)
      · rintro (stays | atTop | listed)
        · exact Or.inl stays.2
        · exact absurd atTop same
        · exact Or.inr listed
  · rw [FrameInvariant.freed]
    simp only
    rw [Finset.card_erase_of_mem held, related.inUse]

/-- Every disciplined step of the allocator is a step of the stack under the same
label, into related states. -/
theorem simulate (related : StackRelated world stack) {event : FrameEvent} {next : FrameWorld}
    (taken : DisciplinedStep world event next) :
    Exists fun stackNext => StackStep stack event stackNext ∧ StackRelated next stackNext := by
  rcases taken with ⟨step, discipline⟩
  rcases stack with ⟨free, held⟩
  cases step with
  | allocate call =>
      cases free with
      | nil =>
          rename_i result _
          rw [related.invariant.allocate_bump] at call
          have advance := FrameAllocator.bumpLoop_advance related.invariant.cursor
            related.invariant.disjoint
          rw [call] at advance
          cases result with
          | none =>
              have after := related.advance advance
              rw [show grantedFrames 1 none = ∅ from rfl, Finset.union_empty] at after
              exact ⟨_, StackStep.exhausted, after⟩
          | some frame =>
              have fresh := related.invariant.fresh_of_advance advance
                (mem_grantedFrames_one.mpr (Eq.refl frame.index))
              have sameHeld : world.held = held := related.held
              exact ⟨_, StackStep.supply (sameHeld ▸ fresh.2.1), related.advance advance⟩
      | cons top rest =>
          have answer := related.invariant.allocate_listed
          have after := related.pop
          rw [FrameWorld.afterAllocate, call] at after
          rw [call] at answer
          cases answer
          exact ⟨_, StackStep.pop, after⟩
  | allocateContiguous call =>
      rename_i count result _
      have advance := FrameAllocator.allocateContiguous_advance count related.invariant.cursor
        related.invariant.disjoint
      rw [call] at advance
      cases result with
      | none =>
          have after := related.advance advance
          rw [show grantedFrames count none = ∅ from rfl, Finset.union_empty] at after
          exact ⟨_, StackStep.noRun, after⟩
      | some frame =>
          refine ⟨_, StackStep.supplyRun ?_, related.advance advance⟩
          intro index member
          have fresh := related.invariant.fresh_of_advance advance member
          exact ⟨related.held ▸ fresh.2.1, fresh.2.2⟩
  | free call =>
      rename_i frame answer
      subst call
      rcases related.free_returned (discipline frame _ rfl) with
        ⟨listed, _, equal⟩ | ⟨inHeld, unlisted, equal⟩
      · refine ⟨⟨free, held⟩, ?_, ?_⟩
        · rw [equal]
          exact StackStep.doubleFree listed
        · rw [FrameWorld.release, equal]
          exact related
      · refine ⟨_, ?_, related.push inHeld unlisted equal⟩
        rw [equal]
        exact StackStep.push inHeld
  | write untouched =>
      exact ⟨_, StackStep.write, ⟨related.invariant.write untouched, related.held,
        related.returned, related.inUse⟩⟩

end StackRelated

/-- What the stack says about the allocator's representation and its next
answer. -/
structure RefinesStack (world : FrameWorld) (stack : StackAllocator) : Prop where
  chain : Linked (nextFree world.memory) noFrame world.allocator.freeList stack.free
  held : world.held = stack.held
  freeCount : world.allocator.freeCount = stack.free.length
  inUse : world.allocator.inUse = stack.held.card
  allocatesTop : forall top rest, stack.free = top :: rest ->
    (world.allocator.allocate world.memory).1 = some ⟨top⟩
  freeOk : forall frame : Frame, frame.index ∈ world.returned ->
    ((world.allocator.free world.memory frame).1 = .ok () ↔ frame.index ∈ stack.held)
  freeTwice : forall frame : Frame, frame.index ∈ world.returned ->
    ((world.allocator.free world.memory frame).1 = .error .alreadyFree ↔ frame.index ∈ stack.free)
  errorUnchanged : forall (frame : Frame) error,
    (world.allocator.free world.memory frame).1 = .error error ->
    (world.allocator.free world.memory frame).2 = (world.allocator, world.memory)
  popExact : world.allocator.freeList ≠ noFrame -> 0 < world.allocator.freeCount
  releaseExact : forall frame : Frame, frame.index ∈ world.returned ->
    (world.allocator.free world.memory frame).1 = .ok () -> 0 < world.allocator.inUse

theorem StackRelated.refines {world : FrameWorld} {stack : StackAllocator}
    (related : StackRelated world stack) : RefinesStack world stack where
  chain := related.invariant.linked
  held := related.held
  freeCount := related.invariant.counted
  inUse := related.held ▸ related.inUse
  allocatesTop := by
    intro top rest nonempty
    have invariant := related.invariant
    rw [nonempty] at invariant
    rw [invariant.allocate_listed]
  freeOk := by
    intro frame returned
    rcases related.free_returned returned with ⟨_, unheld, equal⟩ | ⟨inHeld, _, equal⟩
    · rw [equal]
      exact ⟨fun impossible => (nomatch impossible), fun inHeld => absurd inHeld unheld⟩
    · rw [equal]
      exact ⟨fun _ => inHeld, fun _ => rfl⟩
  freeTwice := by
    intro frame returned
    rcases related.free_returned returned with ⟨listed, _, equal⟩ | ⟨_, unlisted, equal⟩
    · rw [equal]
      exact ⟨fun _ => listed, fun _ => rfl⟩
    · rw [equal]
      exact ⟨fun impossible => (nomatch impossible), fun listed => absurd listed unlisted⟩
  errorUnchanged := related.invariant.free_error_unchanged
  popExact := by
    intro real
    rw [related.invariant.counted]
    apply List.length_pos_iff.mpr
    exact fun empty => real (related.invariant.linked.eq_nil_iff.mpr empty)
  releaseExact := by
    intro frame returned accepted
    rcases related.free_returned returned with ⟨_, _, equal⟩ | ⟨inHeld, _, _⟩
    · rw [equal] at accepted
      cases accepted
    · rw [related.inUse, related.held]
      exact Finset.card_pos.mpr ⟨frame.index, inHeld⟩

/-- The allocator refines the stack: every disciplined run is a run of the
stack over the same calls and answers, and in the state it reaches the links in
memory, the counters and the next answers are the stack's. -/
theorem allocator_refines_stack (image : KernelImage) (map : MemoryMap)
    (disjoint : map.FramesDisjoint) (memory : ByteMemory) {events : List FrameEvent}
    {world : FrameWorld}
    (run : Run DisciplinedStep (FrameWorld.init image map memory) events world) :
    Exists fun stack =>
      Run StackStep StackAllocator.init events stack ∧ RefinesStack world stack := by
  have initially : StackRelated (FrameWorld.init image map memory) StackAllocator.init := by
    refine ⟨FrameWorld.init_invariant image disjoint memory, rfl, ?_, ?_⟩
    · intro index
      simp only [FrameWorld.init, StackAllocator.init, Finset.notMem_empty, List.not_mem_nil, or_self]
    · rcases FrameAllocator.new_eq image map with ⟨frame, total, bounded, equal, _⟩
      rw [FrameWorld.init, equal]
      rfl
  rcases run.simulate initially (fun _ _ _ _ related taken => related.simulate taken) with
    ⟨stack, stackRun, related⟩
  exact ⟨stack, stackRun, related.refines⟩

/-- A frame and a run of two are taken, and the frame is given back: the stack
that the run reaches holds one frame, and two frames are in use. -/
theorem allocator_refines_stack_smallMap :
    let start := FrameWorld.init smallImage smallMap (fun _ => 0)
    let world := (start.afterAllocate.afterContiguous 2).afterFree ⟨0x100⟩
    Exists fun stack => RefinesStack world stack ∧ stack.free.length = 1 ∧ stack.held.card = 2 := by
  intro start world
  have first : DisciplinedStep start (.allocate (some ⟨0x100⟩)) start.afterAllocate :=
    ⟨FrameWorld.step_allocate (by decide +kernel), fun _ _ impossible => nomatch impossible⟩
  have second : DisciplinedStep start.afterAllocate (.allocateContiguous 2 (some ⟨0x101⟩))
      (start.afterAllocate.afterContiguous 2) :=
    ⟨FrameWorld.step_allocateContiguous (by decide +kernel),
      fun _ _ impossible => nomatch impossible⟩
  have third : DisciplinedStep (start.afterAllocate.afterContiguous 2) (.free ⟨0x100⟩ (.ok ())) world := by
    refine ⟨FrameWorld.step_free (by decide +kernel), ?_⟩
    intro frame result same
    cases same
    decide +kernel
  rcases allocator_refines_stack smallImage smallMap smallMap_framesDisjoint (fun _ => 0)
    (((Run.nil.snoc first).snoc second).snoc third) with ⟨stack, _, refines⟩
  refine ⟨stack, refines, ?_, ?_⟩
  · rw [← refines.freeCount]
    decide +kernel
  · rw [← refines.inUse]
    decide +kernel

end Memory
end Goatos
