import Goatos.Memory.FrameAvailability

namespace Goatos
namespace Memory

open Library

/-!
# What the answers of `free` mean

`free` decides whether a frame was ever handed out by comparing it with the
cursor.  The comparison is right as long as everything behind the cursor was
returned to somebody or is reserved.  Single-frame allocation keeps that up, and
a contiguous call does so exactly when its search loses nothing.  After a call
that loses a frame, that frame is taken for one that is in use: freeing it is
accepted although nobody ever had it.
-/

/-- A frame is on the free list when the chain in memory reaches it. -/
def OnFreeList (world : FrameWorld) (index : Nat) : Prop :=
  Exists fun nodes =>
    Linked (nextFree world.memory) noFrame world.allocator.freeList nodes ∧ index ∈ nodes

/-- Every answer of `free` says what it means, an error changes nothing, and
only frames that were handed out are on the free list. -/
structure ClassifiesFree (image : KernelImage) (map : MemoryMap) (world : FrameWorld) : Prop where
  notManaged : forall frame : Frame,
    (world.allocator.free world.memory frame).1 = .error .notManaged ↔
      ¬ PoolFrame image map frame.index
  neverAllocated : forall frame : Frame,
    (world.allocator.free world.memory frame).1 = .error .neverAllocated ↔
      PoolFrame image map frame.index ∧ frame.index ∉ world.returned
  alreadyFree : forall frame : Frame,
    (world.allocator.free world.memory frame).1 = .error .alreadyFree ↔
      frame.index ∈ world.returned ∧ OnFreeList world frame.index
  ok : forall frame : Frame,
    (world.allocator.free world.memory frame).1 = .ok () ↔ frame.index ∈ world.held
  errorUnchanged : forall (frame : Frame) error,
    (world.allocator.free world.memory frame).1 = .error error ->
      (world.allocator.free world.memory frame).2 = (world.allocator, world.memory)
  listedReturned : forall index, OnFreeList world index -> index ∈ world.returned

/-- A step whose contiguous search, if it has one, loses nothing.  All other steps
are careful. -/
def CarefulStep (world : FrameWorld) (event : FrameEvent) (next : FrameWorld) : Prop :=
  FrameStep world event next ∧
    forall count result, event = .allocateContiguous count result ->
      world.allocator.LosesNothing count

/-- Behind the cursor lies exactly what was returned, and each of these frames
is held or on the free list. -/
structure CarefulInvariant (world : FrameWorld) (nodes : List Nat) : Prop where
  invariant : FrameInvariant world nodes
  passed : forall index, index ∈ world.returned ↔
    world.allocator.Managed index ∧ index ∉ world.allocator.pendingFrames
  placed : forall index, index ∈ world.returned ↔ index ∈ world.held ∨ index ∈ nodes

namespace CarefulInvariant

variable {world : FrameWorld} {nodes : List Nat}

/-- A lossless move of the cursor passes reserved frames and the frames it
grants, nothing else. -/
theorem advance (careful : CarefulInvariant world nodes) {next : FrameAllocator}
    {taken : Finset Nat} (advance : CursorAdvance world.allocator next taken)
    (lossless : FrameAllocator.Lossless world.allocator next taken) :
    CarefulInvariant (world.grant next taken) nodes := by
  have after := careful.invariant.advance advance
  have fresh := fun index (member : index ∈ taken) =>
    careful.invariant.fresh_of_advance advance member
  rcases advance with ⟨⟨region, frame, inUse, rfl⟩, _, _, shrinks, gone⟩
  refine ⟨after, ?_, ?_⟩
  · intro index
    constructor
    · intro returned
      rcases Finset.mem_union.mp returned with old | new
      · rcases (careful.passed index).mp old with ⟨managed, passed⟩
        exact ⟨managed, fun pending => passed (shrinks index pending)⟩
      · exact ⟨(fresh index new).1, (gone index new).2.1⟩
    · rintro ⟨managed, passed⟩
      by_cases pending : index ∈ world.allocator.pendingFrames
      · exact Finset.mem_union_right _ ((lossless index pending managed.2).resolve_right passed)
      · exact Finset.mem_union_left _ ((careful.passed index).mpr ⟨managed, pending⟩)
  · intro index
    simp only [FrameWorld.grant, Finset.mem_union, careful.placed index]
    exact or_right_comm

theorem pop {head : Nat} {rest : List Nat} (careful : CarefulInvariant world (head :: rest)) :
    CarefulInvariant (world.grant { world.allocator with
      freeList := nextFree world.memory head
      freeCount := rest.length
      inUse := world.allocator.inUse + 1 } (grantedFrames 1 (some ⟨head⟩))) rest := by
  have headReturned := (careful.placed head).mpr (Or.inr List.mem_cons_self)
  have sameReturned : forall index,
      index ∈ world.returned ∪ grantedFrames 1 (some ⟨head⟩) ↔ index ∈ world.returned := by
    intro index
    rw [Finset.mem_union, mem_grantedFrames_one]
    exact or_iff_left_of_imp (fun same => same ▸ headReturned)
  refine ⟨careful.invariant.pop, fun index => (sameReturned index).trans (careful.passed index), ?_⟩
  intro index
  refine (sameReturned index).trans ((careful.placed index).trans ?_)
  simp only [FrameWorld.grant, Finset.mem_union, mem_grantedFrames_one, List.mem_cons, or_assoc]

theorem push (careful : CarefulInvariant world nodes) {index : Nat}
    (managed : world.allocator.Managed index) (passed : index ∉ world.allocator.pendingFrames)
    (unlisted : index ∉ nodes) :
    CarefulInvariant {
      allocator := FrameInvariant.freed world.allocator index
      memory := world.memory.store (linkOf index) 4 world.allocator.freeList
      held := world.held.erase index
      returned := world.returned } (index :: nodes) := by
  refine ⟨careful.invariant.push managed passed unlisted, careful.passed, ?_⟩
  intro other
  refine (careful.placed other).trans ?_
  rw [Finset.mem_erase, List.mem_cons]
  by_cases same : other = index
  · subst same
    have held := ((careful.placed other).mp ((careful.passed other).mpr ⟨managed, passed⟩))
    exact iff_of_true held (Or.inr (Or.inl rfl))
  · simp only [ne_eq, same, not_false_eq_true, true_and, false_or]

/-- Every careful step keeps the invariant, over the same regions and
reservations. -/
theorem step (careful : CarefulInvariant world nodes) {event : FrameEvent} {next : FrameWorld}
    (taken : CarefulStep world event next) :
    Exists fun nodes' => CarefulInvariant next nodes' := by
  rcases taken with ⟨step, care⟩
  have invariant := careful.invariant
  cases step with
  | allocate call =>
      cases nodes with
      | nil =>
          rw [invariant.allocate_bump] at call
          have advance := FrameAllocator.bumpLoop_advance invariant.cursor invariant.disjoint
          have lossless := FrameAllocator.bumpLoop_lossless invariant.cursor invariant.disjoint
          rw [call] at advance lossless
          exact ⟨_, careful.advance advance lossless⟩
      | cons head rest =>
          rw [invariant.allocate_listed] at call
          cases call
          exact ⟨_, careful.pop⟩
  | allocateContiguous call =>
      rename_i count _ _
      have advance := FrameAllocator.allocateContiguous_advance count invariant.cursor
        invariant.disjoint
      have lossless := (FrameAllocator.allocateContiguous_lossless_iff count invariant.cursor
        invariant.disjoint).mpr (care count _ rfl)
      rw [call] at advance lossless
      exact ⟨_, careful.advance advance lossless⟩
  | free call =>
      rename_i frame answer
      subst call
      rcases invariant.free_outcome frame with ⟨_, equal⟩ | ⟨managed, passed, unlisted, equal⟩
      · rw [FrameWorld.release, equal]
        exact ⟨_, careful⟩
      · rw [FrameWorld.release, equal]
        exact ⟨_, careful.push managed passed unlisted⟩
  | write untouched =>
      exact ⟨_, invariant.write untouched, careful.passed, careful.placed⟩

/-- `free` accepts exactly the frames that are held. -/
theorem free_ok_iff (careful : CarefulInvariant world nodes) (frame : Frame) :
    (world.allocator.free world.memory frame).1 = .ok () ↔ frame.index ∈ world.held := by
  rcases careful.invariant.free_cases frame with
    ⟨unmanaged, equal⟩ | ⟨managed, ⟨pending, equal⟩ | ⟨passed, rest⟩⟩
  · rw [equal]
    exact iff_of_false (fun impossible => nomatch impossible)
      (fun held => unmanaged (careful.invariant.owned _ held).1)
  · rw [equal]
    exact iff_of_false (fun impossible => nomatch impossible)
      (fun held => (careful.invariant.owned _ held).2 pending)
  · rcases rest with ⟨listed, equal⟩ | ⟨unlisted, equal⟩
    · rw [equal]
      exact iff_of_false (fun impossible => nomatch impossible)
        (careful.invariant.listed _ listed).2.2
    · rw [equal]
      have returned := (careful.passed _).mpr ⟨managed, passed⟩
      exact iff_of_true rfl (((careful.placed _).mp returned).resolve_right unlisted)

theorem classifies (careful : CarefulInvariant world nodes) {image : KernelImage} {map : MemoryMap}
    (regions : world.allocator.regions = map.poolRegions)
    (reservations : world.allocator.reservations = image.reservations) :
    ClassifiesFree image map world := by
  have pool := fun index => @FrameAllocator.managed_iff_poolFrame _ _ _ regions reservations index
  have onList : forall index, OnFreeList world index ↔ index ∈ nodes := by
    intro index
    constructor
    · rintro ⟨others, linked, member⟩
      exact careful.invariant.linked.unique linked ▸ member
    · exact fun member => ⟨nodes, careful.invariant.linked, member⟩
  have cases := careful.invariant.free_cases
  constructor
  all_goals intro frame
  · rw [← pool]
    rcases cases frame with ⟨unmanaged, equal⟩ | ⟨managed, rest⟩
    · rw [equal]
      exact iff_of_true rfl unmanaged
    · refine iff_of_false ?_ (not_not.mpr managed)
      rcases rest with ⟨_, equal⟩ | ⟨_, ⟨_, equal⟩ | ⟨_, equal⟩⟩
      all_goals rw [equal]; intro impossible; cases impossible
  · rw [← pool, careful.passed, not_and, not_not]
    rcases cases frame with ⟨unmanaged, equal⟩ | ⟨managed, ⟨pending, equal⟩ | ⟨passed, rest⟩⟩
    · rw [equal]
      exact iff_of_false (fun impossible => nomatch impossible) (fun both => unmanaged both.1)
    · rw [equal]
      exact iff_of_true rfl ⟨managed, fun _ => pending⟩
    · refine iff_of_false ?_ (fun both => passed (both.2 both.1))
      rcases rest with ⟨_, equal⟩ | ⟨_, equal⟩
      all_goals rw [equal]; intro impossible; cases impossible
  · rw [onList, careful.passed]
    rcases cases frame with ⟨unmanaged, equal⟩ | ⟨managed, ⟨pending, equal⟩ | ⟨passed, rest⟩⟩
    · rw [equal]
      exact iff_of_false (fun impossible => nomatch impossible) (fun both => unmanaged both.1.1)
    · rw [equal]
      exact iff_of_false (fun impossible => nomatch impossible) (fun both => both.1.2 pending)
    · rcases rest with ⟨listed, equal⟩ | ⟨unlisted, equal⟩
      · rw [equal]
        exact iff_of_true rfl ⟨⟨managed, passed⟩, listed⟩
      · rw [equal]
        exact iff_of_false (fun impossible => nomatch impossible) (fun both => unlisted both.2)
  · exact careful.free_ok_iff frame
  · exact careful.invariant.free_error_unchanged frame
  · intro listed
    exact (careful.placed frame).mpr (Or.inr ((onList frame).mp listed))

/-- A frame that the search loses is accepted by `free` although nobody holds
it. -/
theorem free_lost (careful : CarefulInvariant world nodes) {count : Nat}
    (loses : ¬ world.allocator.LosesNothing count) :
    Exists fun frame : Frame => frame.index ∉ (world.afterContiguous count).returned ∧
      frame.index ∉ (world.afterContiguous count).held ∧
      ((world.afterContiguous count).allocator.free world.memory frame).1 = .ok () := by
  have invariant := careful.invariant
  have advance := FrameAllocator.allocateContiguous_advance count invariant.cursor invariant.disjoint
  rw [← FrameAllocator.allocateContiguous_lossless_iff count invariant.cursor invariant.disjoint]
    at loses
  unfold FrameAllocator.Lossless at loses
  push Not at loses
  rcases loses with ⟨index, pending, free, untaken, lost⟩
  have after := invariant.advance advance
  have unreturned : index ∉ world.returned :=
    fun returned => ((careful.passed index).mp returned).2 pending
  have managed : (world.allocator.allocateContiguous count).2.Managed index := by
    rw [FrameAllocator.Managed, FrameAllocator.isReserved, advance.regions_eq,
      advance.reservations_eq]
    exact ⟨FrameAllocator.exists_region_of_pending invariant.cursor pending, free⟩
  refine ⟨⟨index⟩, ?_, ?_, ?_⟩
  · exact fun member => (Finset.mem_union.mp member).elim unreturned untaken
  · refine fun member => (Finset.mem_union.mp member).elim (fun held => ?_) untaken
    exact (invariant.owned index held).2 pending
  · rcases after.free_cases ⟨index⟩ with ⟨unmanaged, _⟩ | ⟨_, ⟨again, _⟩ | ⟨_, rest⟩⟩
    · exact absurd managed unmanaged
    · exact absurd again lost
    · rcases rest with ⟨listed, _⟩ | ⟨_, equal⟩
      · exact absurd pending (invariant.listed index listed).2.1
      · exact congrArg Prod.fst equal

end CarefulInvariant

theorem FrameAllocator.new_pending (image : KernelImage) (map : MemoryMap)
    (valid : (new image map).CursorValid) {index : Nat}
    (inPool : Exists fun region =>
      region ∈ (new image map).regions ∧ region.contains index = true) :
    index ∈ (new image map).pendingFrames := by
  rcases inPool with ⟨region, member, holds⟩
  rcases List.mem_iff_getElem?.mp member with ⟨position, found⟩
  refine (mem_pendingFrames_iff valid).mpr ⟨position, region, found, holds, ?_⟩
  rcases new_eq image map with ⟨frame, _, _, equal, start⟩
  rw [equal] at found ⊢
  rcases Nat.eq_zero_or_pos position with first | later
  · subst first
    refine Or.inr ⟨rfl, ?_⟩
    rw [start region found]
    exact (FrameRange.contains_iff.mp holds).1
  · exact Or.inl later

theorem FrameWorld.init_careful (image : KernelImage) {map : MemoryMap}
    (disjoint : map.FramesDisjoint) (memory : ByteMemory) :
    CarefulInvariant (FrameWorld.init image map memory) [] := by
  have invariant := FrameWorld.init_invariant image disjoint memory
  refine ⟨invariant, ?_, ?_⟩
  · intro index
    refine iff_of_false (Finset.notMem_empty index) ?_
    rintro ⟨managed, passed⟩
    exact passed (FrameAllocator.new_pending image map invariant.cursor managed.1)
  · intro index
    exact iff_of_false (Finset.notMem_empty index) (fun either =>
      either.elim (Finset.notMem_empty index) List.not_mem_nil)

/-- After every run whose contiguous searches lose nothing, `free` classifies
every frame correctly; and from such a run on, the first search that does lose a
frame leaves a state in which `free` does not. -/
theorem free_classifies_while_nothing_lost (image : KernelImage) (map : MemoryMap)
    (disjoint : map.FramesDisjoint) (memory : ByteMemory) {events : List FrameEvent}
    {world : FrameWorld}
    (run : Run CarefulStep (FrameWorld.init image map memory) events world) :
    ClassifiesFree image map world ∧
      forall count, ¬ world.allocator.LosesNothing count ->
        ¬ ClassifiesFree image map (world.afterContiguous count) := by
  have sound := frameRun_sound disjoint (run.mono (fun _ _ _ taken => taken.1))
  have careful := run.invariant (fun world => Exists fun nodes => CarefulInvariant world nodes)
    ⟨[], FrameWorld.init_careful image disjoint memory⟩
    (fun _ _ _ ⟨_, careful⟩ taken => careful.step taken)
  rcases careful with ⟨nodes, careful⟩
  refine ⟨careful.classifies sound.2.1 sound.2.2, ?_⟩
  intro count loses classifies
  rcases careful.free_lost loses with ⟨frame, _, unheld, accepted⟩
  exact unheld ((classifies.ok frame).mp accepted)

/-- A frame is taken and given back, a careful run; the frame is then refused a
second time for what it is. -/
theorem free_classifies_while_nothing_lost_smallMap :
    let start := FrameWorld.init smallImage smallMap (fun _ => 0)
    let world := start.afterAllocate.afterFree ⟨0x100⟩
    (world.allocator.free world.memory ⟨0x100⟩).1 = .error .alreadyFree ∧
      OnFreeList world 0x100 ∧ ClassifiesFree smallImage smallMap world := by
  intro start world
  have first : CarefulStep start (.allocate (some ⟨0x100⟩)) start.afterAllocate :=
    ⟨FrameWorld.step_allocate (by decide +kernel), fun _ _ impossible => nomatch impossible⟩
  have second : CarefulStep start.afterAllocate (.free ⟨0x100⟩ (.ok ())) world :=
    ⟨FrameWorld.step_free (by decide +kernel), fun _ _ impossible => nomatch impossible⟩
  have classifies := (free_classifies_while_nothing_lost smallImage smallMap
    smallMap_framesDisjoint (fun _ => 0) ((Run.nil.snoc first).snoc second)).1
  have refused : (world.allocator.free world.memory ⟨0x100⟩).1 = .error .alreadyFree := by
    decide +kernel
  exact ⟨refused, ((classifies.alreadyFree ⟨0x100⟩).mp refused).2, classifies⟩

/-- After a run of six frames was taken from the second region, freeing the
first frame of the first region is accepted, although it was never returned, and
puts it on the free list. -/
theorem free_accepts_frame_never_returned :
    let start := FrameWorld.init smallImage smallMap (fun _ => 0)
    let world := start.afterContiguous 6
    FrameStep start (.allocateContiguous 6 (some ⟨0x200⟩)) world ∧
      PoolFrame smallImage smallMap 0x100 ∧ 0x100 ∉ world.returned ∧
      (world.allocator.free world.memory ⟨0x100⟩).1 = .ok () ∧
      OnFreeList (world.afterFree ⟨0x100⟩) 0x100 ∧
      ¬ ClassifiesFree smallImage smallMap world := by
  intro start world
  have unheld : 0x100 ∉ world.held := by decide +kernel
  have accepted : (world.allocator.free world.memory ⟨0x100⟩).1 = .ok () := by decide +kernel
  have inPool : PoolFrame smallImage smallMap 0x100 :=
    ⟨⟨_, List.mem_cons_self, by decide +kernel⟩, by decide +kernel, by decide +kernel⟩
  have linked : Linked (nextFree (world.afterFree ⟨0x100⟩).memory) noFrame
      (world.afterFree ⟨0x100⟩).allocator.freeList [0x100] := by
    unfold Linked Linked
    decide +kernel
  exact ⟨FrameWorld.step_allocateContiguous (by decide +kernel), inPool, by decide +kernel, accepted,
    ⟨[0x100], linked, List.mem_singleton.mpr rfl⟩,
    fun classifies => unheld ((classifies.ok _).mp accepted)⟩

end Memory
end Goatos
