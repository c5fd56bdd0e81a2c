import Goatos.Memory.FrameOwnership

namespace Goatos
namespace Memory

open Library

/-!
# What later allocations can still hand out

A frame is available when some later sequence of single-frame allocations
returns it.  This is a statement about runs, and the first theorem turns it
into one about the state: the available frames are those on the free list and
the unreserved ones that the cursor has not passed.

The contiguous search moves the same cursor.  It returns the window it found,
but every unreserved frame that it stepped over on the way is behind the cursor
afterwards and on no list, so it is not available any more.  The second theorem
says exactly when the search steps over none.
-/

/-- Events of single-frame allocation: calls of `allocate`, and the writes of
the clients in between. -/
def FrameEvent.AllocatesOnly : FrameEvent -> Prop
  | .allocate _ => True
  | .write => True
  | .allocateContiguous _ _ => False
  | .free _ _ => False

/-- The frames that later single-frame allocations can still hand out, over all runs
of such calls. -/
def stillAllocatable (world : FrameWorld) : Set Nat :=
  fun index => Exists fun events => Exists fun middle => Exists fun next =>
    Run FrameStep world events middle ∧ (forall event, event ∈ events -> event.AllocatesOnly) ∧
      FrameStep middle (.allocate (some ⟨index⟩)) next

/-- The state-level description of an available frame. -/
def Available (world : FrameWorld) (nodes : List Nat) (index : Nat) : Prop :=
  index ∈ nodes ∨
    (index ∈ world.allocator.pendingFrames ∧ world.allocator.isReserved index = false)

namespace FrameInvariant

variable {world : FrameWorld} {nodes : List Nat}

theorem available_of_allocate (invariant : FrameInvariant world nodes) {index : Nat}
    {next : FrameWorld} (taken : FrameStep world (.allocate (some ⟨index⟩)) next) :
    Available world nodes index := by
  cases taken with
  | allocate call =>
      cases nodes with
      | nil =>
          rw [invariant.allocate_bump] at call
          have advance := FrameAllocator.bumpLoop_advance invariant.cursor invariant.disjoint
          rw [call] at advance
          have facts := advance.taken index (Finset.mem_Ico.mpr ⟨Nat.le_refl _, Nat.lt_succ_self _⟩)
          exact Or.inr ⟨facts.1, facts.2.2⟩
      | cons head rest =>
          rw [invariant.allocate_listed] at call
          cases call
          exact Or.inl List.mem_cons_self

/-- Single-frame allocation makes no frame available. -/
theorem available_of_step (invariant : FrameInvariant world nodes) {event : FrameEvent}
    {next : FrameWorld} (taken : FrameStep world event next) (only : event.AllocatesOnly) :
    Exists fun nodes' => FrameInvariant next nodes' ∧
      forall index, Available next nodes' index -> Available world nodes index := by
  cases taken with
  | allocate call =>
      cases nodes with
      | nil =>
          rw [invariant.allocate_bump] at call
          have advance := FrameAllocator.bumpLoop_advance invariant.cursor invariant.disjoint
          rw [call] at advance
          refine ⟨[], invariant.advance advance, ?_⟩
          rintro index (impossible | ⟨pending, free⟩)
          · cases impossible
          · refine Or.inr ⟨advance.pending index pending, ?_⟩
            rwa [FrameAllocator.isReserved, ← advance.reservations_eq]
      | cons head rest =>
          rw [invariant.allocate_listed] at call
          cases call
          refine ⟨rest, invariant.pop, ?_⟩
          rintro index (listed | pending)
          · exact Or.inl (List.mem_cons_of_mem _ listed)
          · exact Or.inr pending
  | allocateContiguous call => exact False.elim only
  | free call => exact False.elim only
  | write untouched => exact ⟨nodes, invariant.write untouched, fun _ available => available⟩

theorem available_of_run (invariant : FrameInvariant world nodes) {events : List FrameEvent}
    {finish : FrameWorld} (run : Run FrameStep world events finish)
    (only : forall event, event ∈ events -> event.AllocatesOnly) :
    Exists fun nodes' => FrameInvariant finish nodes' ∧
      forall index, Available finish nodes' index -> Available world nodes index := by
  induction run with
  | nil => exact ⟨nodes, invariant, fun _ available => available⟩
  | snoc _ last inductionHypothesis =>
      rcases inductionHypothesis (fun event member => only event (List.mem_append_left _ member)) with
        ⟨middleNodes, middleInvariant, shrinks⟩
      rcases middleInvariant.available_of_step last
        (only _ (List.mem_append_right _ (List.mem_singleton.mpr rfl))) with
        ⟨lastNodes, lastInvariant, shrinksAgain⟩
      exact ⟨lastNodes, lastInvariant, fun index available => shrinks index (shrinksAgain index available)⟩

/-- The next `allocate` either returns a given available frame or leaves it
available, with less to go before it. -/
theorem allocate_approaches (invariant : FrameInvariant world nodes) {index : Nat}
    (available : Available world nodes index) :
    Exists fun result => FrameStep world (.allocate result) world.afterAllocate ∧
      (result = some ⟨index⟩ ∨ Exists fun nodes' => FrameInvariant world.afterAllocate nodes' ∧
        Available world.afterAllocate nodes' index ∧
        nodes'.length + world.afterAllocate.allocator.pendingFrames.length <
          nodes.length + world.allocator.pendingFrames.length) := by
  refine ⟨_, FrameWorld.step_allocate rfl, ?_⟩
  unfold FrameWorld.afterAllocate
  cases nodes with
  | nil =>
      rcases available with impossible | ⟨pending, free⟩
      · cases impossible
      · rw [invariant.allocate_bump]
        have advance := FrameAllocator.bumpLoop_advance invariant.cursor invariant.disjoint
        rcases FrameAllocator.bumpLoop_outcome world.allocator with
          ⟨skipped, reserved, region, frame, outcome, _⟩
        have notSkipped : index ∉ skipped.map Slot.index := by
          intro member
          rcases List.mem_map.mp member with ⟨slot, slotMember, rfl⟩
          rw [reserved slot slotMember] at free
          cases free
        rcases outcome with ⟨_, before, _⟩ | ⟨slot, equal, _, before⟩
        · rw [FrameAllocator.pendingFrames, before] at pending
          exact absurd pending notSkipped
        · have split : world.allocator.pendingFrames = skipped.map Slot.index ++
              slot.index :: (FrameAllocator.bumpLoop.run world.allocator).2.pendingFrames := by
            rw [FrameAllocator.pendingFrames, before, List.map_append]
            rfl
          rw [split] at pending
          rcases List.mem_append.mp pending with early | late
          · exact absurd early notSkipped
          · rcases List.mem_cons.mp late with here | later
            · left
              rw [equal, here]
            · refine Or.inr ⟨[], invariant.advance advance, Or.inr ⟨later, ?_⟩, ?_⟩
              · rwa [FrameWorld.grant, FrameAllocator.isReserved, advance.reservations_eq]
              · rw [split, List.length_append, List.length_cons, FrameWorld.grant]
                simp only
                omega
  | cons head rest =>
      rw [invariant.allocate_listed]
      by_cases atHead : index = head
      · left
        rw [atHead]
      · refine Or.inr ⟨rest, invariant.pop, ?_, ?_⟩
        · rcases available with listed | pending
          · exact Or.inl ((List.mem_cons.mp listed).resolve_left atHead)
          · exact Or.inr pending
        · rw [List.length_cons, FrameWorld.grant]
          exact Nat.add_lt_add_right (Nat.lt_succ_self _) _

/-- Availability is a matter of the free list and the cursor: a frame is available
if it is on the list, or ahead of the cursor and not reserved. -/
theorem mem_stillAllocatable_iff (invariant : FrameInvariant world nodes) {index : Nat} :
    index ∈ stillAllocatable world ↔ Available world nodes index := by
  constructor
  · rintro ⟨events, middle, next, run, only, taken⟩
    rcases invariant.available_of_run run only with ⟨nodes', middleInvariant, shrinks⟩
    exact shrinks index (middleInvariant.available_of_allocate taken)
  · intro available
    suffices reach : forall bound world nodes, FrameInvariant world nodes ->
        Available world nodes index ->
        nodes.length + world.allocator.pendingFrames.length < bound ->
        index ∈ stillAllocatable world from reach _ _ _ invariant available (Nat.lt_succ_self _)
    intro bound
    induction bound with
    | zero => intro _ _ _ _ impossible; exact absurd impossible (Nat.not_lt_zero _)
    | succ bound inductionHypothesis =>
        intro world nodes invariant available within
        rcases invariant.allocate_approaches available with ⟨result, taken, answer⟩
        rcases answer with returned | ⟨nodes', after, stillAvailable, closer⟩
        · exact ⟨[], world, _, Run.nil, fun _ impossible => absurd impossible List.not_mem_nil,
            returned ▸ taken⟩
        · rcases inductionHypothesis _ nodes' after stillAvailable (by omega) with
            ⟨events, middle, next, run, only, last⟩
          refine ⟨[.allocate result] ++ events, middle, next, (Run.single taken).append run, ?_, last⟩
          intro event member
          rcases List.mem_append.mp member with first | later
          · rw [List.mem_singleton.mp first]
            trivial
          · exact only event later

end FrameInvariant

/-! ## The contiguous search -/

namespace FrameAllocator

/-- The search steps over no unreserved frame: nothing was asked for, or no
unreserved frame is left at or after the cursor, or the first one begins a
window of `count` unreserved frames of its own region. -/
def LosesNothing (allocator : FrameAllocator) (count : Nat) : Prop :=
  count = 0 ∨
    match allocator.pending.find? (fun slot => !allocator.isReserved slot.index) with
    | none => True
    | some slot => allocator.WindowFits count slot

/-- The slots that the search skipped are all reserved exactly when it loses
nothing. -/
theorem losesNothing_iff_skipped_reserved {allocator : FrameAllocator} {count : Nat}
    (positive : count ≠ 0) {skipped rest : List Slot}
    (why : forall slot, slot ∈ skipped ->
      allocator.isReserved slot.index = true ∨ ¬ allocator.WindowFits count slot)
    (split : allocator.pending = skipped ++ rest)
    (next : rest = [] ∨ Exists fun slot => Exists fun others => rest = slot :: others ∧
      allocator.isReserved slot.index = false ∧ allocator.WindowFits count slot) :
    allocator.LosesNothing count ↔
      forall slot, slot ∈ skipped -> allocator.isReserved slot.index = true := by
  rw [LosesNothing, split, List.find?_append]
  cases found : skipped.find? (fun slot => !allocator.isReserved slot.index) with
  | some slot =>
      have member := List.mem_of_find?_eq_some found
      have free : allocator.isReserved slot.index = false := by
        have holds := List.find?_some found
        rwa [Bool.not_eq_true'] at holds
      simp only [positive, false_or]
      constructor
      · intro fits
        rcases why slot member with reserved | misfit
        · rw [free] at reserved
          cases reserved
        · exact absurd fits misfit
      · intro allReserved
        have reserved := allReserved slot member
        rw [free] at reserved
        cases reserved
  | none =>
      have allReserved : forall slot, slot ∈ skipped -> allocator.isReserved slot.index = true := by
        intro slot member
        have refused := List.find?_eq_none.mp found slot member
        simpa only [Bool.not_eq_true', Bool.not_eq_false] using refused
      simp only [Option.none_or]
      refine ⟨fun _ => allReserved, fun _ => Or.inr ?_⟩
      rcases next with empty | ⟨slot, others, equal, free, fits⟩
      · rw [empty]
        trivial
      · rw [equal, List.find?_cons_of_pos (by rw [free]; rfl)]
        exact fits

/-- Nothing but the taken frames and reserved ones falls behind the cursor. -/
def Lossless (before after : FrameAllocator) (taken : Finset Nat) : Prop :=
  forall index, index ∈ before.pendingFrames -> before.isReserved index = false ->
    index ∈ taken ∨ index ∈ after.pendingFrames

/-- A move of the cursor is lossless exactly when every slot it skipped is
reserved. -/
theorem lossless_iff_skipped_reserved {before after : FrameAllocator} {taken : Finset Nat}
    {skipped : List Slot} (window : List Nat) (distinct : before.pendingFrames.Nodup)
    (split : before.pendingFrames = skipped.map Slot.index ++ (window ++ after.pendingFrames))
    (same : forall index, index ∈ taken ↔ index ∈ window) :
    Lossless before after taken ↔
      forall slot, slot ∈ skipped -> before.isReserved slot.index = true := by
  constructor
  · intro lossless slot member
    have early : slot.index ∈ skipped.map Slot.index := List.mem_map_of_mem member
    by_contra free
    rw [split] at distinct
    refine (List.nodup_append'.mp distinct).2.2 early (List.mem_append.mpr ?_)
    rcases lossless slot.index (split ▸ List.mem_append_left _ early)
      (Bool.eq_false_iff.mpr free) with taken | pending
    · exact Or.inl ((same _).mp taken)
    · exact Or.inr pending
  · intro allReserved index pending free
    rw [split] at pending
    rcases List.mem_append.mp pending with early | late
    · rcases List.mem_map.mp early with ⟨slot, member, rfl⟩
      rw [allReserved slot member] at free
      cases free
    · rcases List.mem_append.mp late with inWindow | later
      · exact Or.inl ((same _).mpr inWindow)
      · exact Or.inr later

theorem bumpLoop_lossless {allocator : FrameAllocator} (valid : allocator.CursorValid)
    (disjoint : allocator.RegionsDisjoint) :
    Lossless allocator (bumpLoop.run allocator).2 (grantedFrames 1 (bumpLoop.run allocator).1) := by
  have distinct := pendingFrames_nodup valid disjoint
  rcases bumpLoop_outcome allocator with ⟨skipped, allReserved, region, frame, outcome, _⟩
  rcases outcome with ⟨equal, before, after⟩ | ⟨slot, equal, _, before⟩
  · refine (lossless_iff_skipped_reserved [] distinct ?_ ?_).mpr allReserved
    · rw [pendingFrames, pendingFrames, before, after, List.map_nil, List.append_nil,
        List.append_nil]
    · intro index
      rw [equal]
      exact iff_of_false (Finset.notMem_empty index) List.not_mem_nil
  · refine (lossless_iff_skipped_reserved [slot.index] distinct ?_ ?_).mpr allReserved
    · rw [pendingFrames, before, List.map_append]
      rfl
    · intro index
      rw [equal, mem_grantedFrames_one, List.mem_singleton]

theorem allocateContiguous_lossless_iff (count : Nat) {allocator : FrameAllocator}
    (valid : allocator.CursorValid) (disjoint : allocator.RegionsDisjoint) :
    Lossless allocator (allocator.allocateContiguous count).2
      (grantedFrames count (allocator.allocateContiguous count).1) ↔
        allocator.LosesNothing count := by
  have distinct := pendingFrames_nodup valid disjoint
  unfold allocateContiguous
  split
  · rename_i zero
    exact ⟨fun _ => Or.inl zero, fun _ index pending _ => Or.inr pending⟩
  · rename_i positive
    rcases contiguousLoop_outcome count allocator with ⟨skipped, why, region, frame, outcome, _⟩
    rcases outcome with ⟨equal, before, after⟩ | ⟨slot, equal, free, fits, before⟩
    · rw [losesNothing_iff_skipped_reserved positive why (before.trans (List.append_nil _).symm)
        (Or.inl rfl)]
      refine lossless_iff_skipped_reserved [] distinct ?_ ?_
      · rw [pendingFrames, pendingFrames, before, after, List.map_nil, List.append_nil,
          List.append_nil]
      · intro index
        rw [equal]
        exact iff_of_false (Finset.notMem_empty index) List.not_mem_nil
    · rcases Nat.exists_eq_succ_of_ne_zero positive with ⟨others, succ⟩
      rw [losesNothing_iff_skipped_reserved positive why before
        (Or.inr ⟨slot, _, by rw [succ, List.range'_succ]; rfl, free, fits⟩)]
      refine lossless_iff_skipped_reserved (List.range' slot.index count) distinct ?_ ?_
      · rw [pendingFrames, before, List.map_append, List.map_append, List.map_map]
        exact congrArg (fun window => _ ++ (window ++ _)) (List.map_id _)
      · intro index
        rw [equal, List.mem_range'_1]
        exact Finset.mem_Ico

end FrameAllocator

/-- The contiguous call takes exactly what it returns: a run that is returned
leaves the available frames without that run, and a refusal leaves the available
frames and the use count as they were. -/
def TakesExactly (world : FrameWorld) (count : Nat) : Prop :=
  match (world.allocator.allocateContiguous count).1 with
  | some frame => stillAllocatable (world.afterContiguous count) =
      stillAllocatable world \ Set.Ico frame.index (frame.index + count)
  | none => stillAllocatable (world.afterContiguous count) = stillAllocatable world ∧
      (world.afterContiguous count).allocator.inUse = world.allocator.inUse

namespace FrameInvariant

variable {world : FrameWorld} {nodes : List Nat}

/-- A move of the cursor takes exactly the given frames from the available ones
if and only if it is lossless. -/
theorem stillAllocatable_advance_iff (invariant : FrameInvariant world nodes)
    {next : FrameAllocator} {taken : Finset Nat}
    (advance : CursorAdvance world.allocator next taken) :
    stillAllocatable (world.grant next taken) = stillAllocatable world \ taken ↔
      FrameAllocator.Lossless world.allocator next taken := by
  have after := invariant.advance advance
  have sameReserved : forall index, next.isReserved index = world.allocator.isReserved index := by
    intro index
    rw [FrameAllocator.isReserved, FrameAllocator.isReserved, advance.reservations_eq]
  simp only [Set.ext_iff, Set.mem_sdiff, after.mem_stillAllocatable_iff,
    invariant.mem_stillAllocatable_iff, Finset.mem_coe]
  constructor
  · intro exact index pending free
    by_cases member : index ∈ taken
    · exact Or.inl member
    · rcases (exact index).mpr ⟨Or.inr ⟨pending, free⟩, member⟩ with listed | ⟨later, _⟩
      · exact absurd pending (invariant.listed index listed).2.1
      · exact Or.inr later
  · intro lossless index
    constructor
    · rintro (listed | ⟨later, free⟩)
      · exact ⟨Or.inl listed, fun member => (invariant.fresh_of_advance advance member).2.2 listed⟩
      · exact ⟨Or.inr ⟨advance.pending index later, (sameReserved index).symm.trans free⟩,
          fun member => (advance.taken index member).2.1 later⟩
    · rintro ⟨listed | ⟨pending, free⟩, outside⟩
      · exact Or.inl listed
      · exact Or.inr ⟨(lossless index pending free).resolve_left outside,
          (sameReserved index).trans free⟩

/-- The contiguous call takes exactly what it returns if and only if its search
steps over no unreserved frame. -/
theorem takesExactly_iff (invariant : FrameInvariant world nodes) (count : Nat) :
    TakesExactly world count ↔ world.allocator.LosesNothing count := by
  have advance := FrameAllocator.allocateContiguous_advance count invariant.cursor invariant.disjoint
  have exact := (invariant.stillAllocatable_advance_iff advance).trans
    (FrameAllocator.allocateContiguous_lossless_iff count invariant.cursor invariant.disjoint)
  have used := advance.used
  rw [← exact, TakesExactly, FrameWorld.afterContiguous]
  cases answer : (world.allocator.allocateContiguous count).1 with
  | none =>
      rw [answer] at used
      rw [grantedFrames, Finset.coe_empty, Set.sdiff_empty]
      exact and_iff_left used
  | some frame => rw [grantedFrames, Finset.coe_Ico]

end FrameInvariant

/-- In every reachable state, the contiguous call takes exactly what it returns
if and only if nothing was asked for, or no unreserved frame is left, or the
first unreserved frame at or after the cursor begins the window. -/
theorem allocateContiguous_takes_exactly_iff (image : KernelImage) (map : MemoryMap)
    (disjoint : map.FramesDisjoint) (memory : ByteMemory) {events : List FrameEvent}
    {world : FrameWorld} (run : Run FrameStep (FrameWorld.init image map memory) events world)
    (count : Nat) :
    TakesExactly world count ↔ world.allocator.LosesNothing count := by
  rcases frameRun_sound disjoint run with ⟨⟨nodes, invariant⟩, _, _⟩
  exact invariant.takesExactly_iff count

/-- After one frame was taken, the three that are left of the first region are
the next window, so a run of three loses nothing. -/
theorem allocateContiguous_takes_exactly_smallMap :
    let world := (FrameWorld.init smallImage smallMap (fun _ => 0)).afterAllocate
    world.allocator.LosesNothing 3 ∧ TakesExactly world 3 := by
  intro world
  have first : FrameStep (FrameWorld.init smallImage smallMap (fun _ => 0))
      (.allocate (some ⟨0x100⟩)) world := FrameWorld.step_allocate (by decide +kernel)
  have losesNothing : world.allocator.LosesNothing 3 := by
    have next : world.allocator.pending.find? (fun slot => !world.allocator.isReserved slot.index) =
        some ⟨0x101, 0x104⟩ := by decide +kernel
    have clear : forall offset, offset < 3 -> world.allocator.isReserved (0x101 + offset) = false := by
      decide +kernel
    rw [FrameAllocator.LosesNothing, next]
    refine Or.inr ⟨by decide, ?_⟩
    intro index lower upper
    have unreserved := clear (index - 0x101) (by simp only at upper; omega)
    rwa [Nat.add_sub_cancel' lower] at unreserved
  exact ⟨losesNothing, (allocateContiguous_takes_exactly_iff smallImage smallMap
    smallMap_framesDisjoint (fun _ => 0) (Run.nil.snoc first) 3).mpr losesNothing⟩

/-- A run of six does not fit the first region, and its four frames are lost:
the answer lies in the second region, and the frames of the first could be
allocated before the call but not after it. -/
theorem allocateContiguous_loses_first_region :
    let world := FrameWorld.init smallImage smallMap (fun _ => 0)
    (world.allocator.allocateContiguous 6).1 = some ⟨0x200⟩ ∧
      (forall index, index ∈ Finset.Ico 0x100 0x104 -> index ∈ stillAllocatable world ∧
        index ∉ stillAllocatable (world.afterContiguous 6)) ∧
      ¬ TakesExactly world 6 := by
  intro world
  have before : FrameInvariant world [] :=
    FrameWorld.init_invariant smallImage smallMap_framesDisjoint _
  have after : FrameInvariant (world.afterContiguous 6) [] :=
    before.advance (FrameAllocator.allocateContiguous_advance 6 before.cursor before.disjoint)
  refine ⟨by decide +kernel, ?_, ?_⟩
  · intro index member
    rw [before.mem_stillAllocatable_iff, after.mem_stillAllocatable_iff]
    unfold Available
    revert index
    decide +kernel
  · rw [before.takesExactly_iff]
    have next : world.allocator.pending.find? (fun slot => !world.allocator.isReserved slot.index) =
        some ⟨0x100, 0x104⟩ := by decide +kernel
    rw [FrameAllocator.LosesNothing, next]
    rintro (impossible | ⟨room, _⟩)
    · cases impossible
    · exact absurd room (by decide)

end Memory
end Goatos
