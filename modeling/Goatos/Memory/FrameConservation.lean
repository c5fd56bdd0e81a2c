import Goatos.Memory.FrameClassification
import Goatos.Memory.OverlappingMap

namespace Goatos
namespace Memory

open Library

/-!
# No frame is lost to single-frame calls

The pool counts its frames once, when it is built.  From then on every frame of
it is in use, on the free list, or still ahead of the cursor, and single-frame
calls move it from one of these places to another.  So the three counts always
add up to the total, and an allocation fails only when all of them are in use.
-/

/-- The events of single-frame calls, and the writes of the clients in between. -/
def FrameEvent.SingleFrames : FrameEvent -> Prop
  | .allocate _ => True
  | .free _ _ => True
  | .write => True
  | .allocateContiguous _ _ => False

/-- A step of the allocator and its clients without contiguous calls. -/
def SingleStep (world : FrameWorld) (event : FrameEvent) (next : FrameWorld) : Prop :=
  FrameStep world event next ∧ event.SingleFrames

theorem SingleStep.careful {world next : FrameWorld} {event : FrameEvent}
    (taken : SingleStep world event next) : CarefulStep world event next := by
  refine ⟨taken.1, ?_⟩
  rintro count result rfl
  exact taken.2.elim

/-- The accounts of the pool balance: what is in use, what is on the free list and
what is ahead of the cursor add up to the total, and `allocate` fails exactly when
everything is in use. -/
structure PoolConserved (world : FrameWorld) : Prop where
  withinTotal : world.allocator.inUse ≤ world.allocator.total
  exhausted : (world.allocator.allocate world.memory).1 = none ↔
    world.allocator.inUse = world.allocator.total
  conserved : world.allocator.inUse + world.allocator.freeCount +
    world.allocator.unreservedFrames.length = world.allocator.total

namespace CarefulInvariant

variable {world next : FrameWorld} {nodes : List Nat} {event : FrameEvent}

/-- As long as `free` accepts held frames only, the use count is the number of
held frames. -/
theorem inUse_step (careful : CarefulInvariant world nodes) (taken : FrameStep world event next)
    (counted : world.allocator.inUse = world.held.card) :
    next.allocator.inUse = next.held.card := by
  rcases careful.invariant.count_cases taken with ⟨gained, used, card⟩ | ⟨frame, rfl, used, held⟩
  · omega
  · have accepted : (world.allocator.free world.memory frame).1 = .ok () := by
      generalize answer : Except.ok () = result at taken
      cases taken with
      | free call => rw [call]
    rw [used, held, Finset.card_erase_of_mem ((careful.free_ok_iff frame).mp accepted), counted]

/-- A single-frame call moves frames between the three accounts. -/
theorem conserved_step (careful : CarefulInvariant world nodes) (taken : SingleStep world event next)
    (counted : world.allocator.inUse = world.held.card) :
    next.allocator.inUse + next.allocator.freeCount + next.allocator.unreservedFrames.length =
        world.allocator.inUse + world.allocator.freeCount +
          world.allocator.unreservedFrames.length ∧
      next.allocator.total = world.allocator.total := by
  have invariant := careful.invariant
  rcases taken with ⟨step, single⟩
  cases step with
  | allocate call =>
      cases nodes with
      | nil =>
          rw [invariant.allocate_bump] at call
          rcases world.allocator.bumpLoop_unreserved with
            ⟨region, frame, ⟨equal, before, after⟩ | ⟨index, equal, before⟩⟩
          · cases equal.symm.trans call
            rw [before]
            exact ⟨congrArg (fun line : List Nat => _ + _ + line.length) after, rfl⟩
          · cases equal.symm.trans call
            rw [before, List.length_cons]
            refine ⟨?_, rfl⟩
            simp only [FrameWorld.grant, FrameAllocator.moved]
            omega
      | cons head rest =>
          have length := invariant.counted
          rw [invariant.allocate_listed] at call
          cases call
          refine ⟨?_, rfl⟩
          have same : world.allocator.unreservedFrames = FrameAllocator.unreservedFrames
              { world.allocator with
                freeList := nextFree world.memory head
                freeCount := rest.length
                inUse := world.allocator.inUse + 1 } := rfl
          rw [same, length, List.length_cons]
          simp only [FrameWorld.grant]
          omega
  | allocateContiguous _ => exact single.elim
  | free call =>
      rename_i frame answer
      subst call
      rcases invariant.free_outcome frame with ⟨_, equal⟩ | ⟨_, _, _, equal⟩
      · rw [FrameWorld.release, equal]
        exact ⟨rfl, rfl⟩
      · have held := (careful.free_ok_iff frame).mp (congrArg Prod.fst equal)
        have positive := Finset.card_pos.mpr ⟨_, held⟩
        rw [FrameWorld.release, equal]
        refine ⟨?_, rfl⟩
        have same : world.allocator.unreservedFrames =
          (FrameInvariant.freed world.allocator frame.index).unreservedFrames := rfl
        rw [same]
        simp only [FrameInvariant.freed]
        omega
  | write _ => exact ⟨rfl, rfl⟩

theorem allocate_none_iff (careful : CarefulInvariant world nodes) :
    (world.allocator.allocate world.memory).1 = none ↔
      world.allocator.freeCount = 0 ∧ world.allocator.unreservedFrames = [] := by
  have invariant := careful.invariant
  rw [invariant.counted]
  cases nodes with
  | nil =>
      rw [invariant.allocate_bump]
      rcases world.allocator.bumpLoop_unreserved with
        ⟨region, frame, ⟨equal, before, _⟩ | ⟨index, equal, before⟩⟩
      · rw [equal, before]
        exact iff_of_true rfl ⟨rfl, rfl⟩
      · rw [equal, before]
        exact iff_of_false (Option.some_ne_none _) (fun both => List.cons_ne_nil _ _ both.2)
  | cons head rest =>
      rw [invariant.allocate_listed]
      exact iff_of_false (Option.some_ne_none _) (fun both => Nat.succ_ne_zero _ both.1)

end CarefulInvariant

/-- Single-frame allocation fails only when the pool is exhausted: after every
run of `allocate` and `free` from a fresh pool over disjoint regions, the frames
in use, on the free list and ahead of the cursor add up to the total. -/
theorem pool_conserved (image : KernelImage) (map : MemoryMap) (disjoint : map.FramesDisjoint)
    (memory : ByteMemory) {events : List FrameEvent} {world : FrameWorld}
    (run : Run SingleStep (FrameWorld.init image map memory) events world) :
    PoolConserved world ∧ world.allocator.total = (FrameAllocator.new image map).total := by
  have balanced := run.invariant (fun world => (Exists fun nodes => CarefulInvariant world nodes) ∧
    world.allocator.inUse = world.held.card ∧
    world.allocator.inUse + world.allocator.freeCount + world.allocator.unreservedFrames.length =
      (FrameAllocator.new image map).total ∧
    world.allocator.total = (FrameAllocator.new image map).total) ?_ ?_
  · rcases balanced with ⟨⟨nodes, careful⟩, _, sum, total⟩
    refine ⟨⟨by omega, ?_, by omega⟩, total⟩
    rw [careful.allocate_none_iff, ← List.length_eq_zero_iff]
    omega
  · refine ⟨⟨[], FrameWorld.init_careful image disjoint memory⟩, ?_⟩
    have line := new_total image map
    rcases FrameAllocator.new_eq image map with ⟨frame, total, bounded, equal, _⟩
    unfold FrameWorld.init
    rw [equal] at line ⊢
    refine ⟨rfl, ?_, rfl⟩
    simp only [Nat.zero_add]
    exact line.symm
  · rintro state event next ⟨⟨nodes, careful⟩, counted, sum, total⟩ taken
    rcases careful.conserved_step taken counted with ⟨sameSum, sameTotal⟩
    exact ⟨careful.step taken.careful, careful.inUse_step taken.1 counted, sameSum.trans sum,
      sameTotal.trans total⟩

theorem pool_conserved_smallMap :
    let start := FrameWorld.init smallImage smallMap (fun _ => 0)
    let world := (start.afterAllocate.afterFree ⟨0x100⟩).afterAllocate
    PoolConserved world ∧ world.allocator.total = 12 ∧ world.allocator.inUse = 1 := by
  intro start world
  have first : FrameStep start (.allocate (some ⟨0x100⟩)) start.afterAllocate :=
    FrameWorld.step_allocate (by decide +kernel)
  have second : FrameStep start.afterAllocate (.free ⟨0x100⟩ (.ok ()))
      (start.afterAllocate.afterFree ⟨0x100⟩) := FrameWorld.step_free (by decide +kernel)
  have third : FrameStep (start.afterAllocate.afterFree ⟨0x100⟩) (.allocate (some ⟨0x100⟩)) world :=
    FrameWorld.step_allocate (by decide +kernel)
  have conserved := pool_conserved smallImage smallMap smallMap_framesDisjoint (fun _ => 0)
    (((Run.nil.snoc ⟨first, trivial⟩).snoc ⟨second, trivial⟩).snoc ⟨third, trivial⟩)
  exact ⟨conserved.1, by decide +kernel, by decide +kernel⟩

end Memory
end Goatos
