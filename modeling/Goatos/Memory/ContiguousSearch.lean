import Goatos.Memory.FrameOwnership

namespace Goatos
namespace Memory

open Library

/-!
# The contiguous search finds the first run

A run is a stretch of unreserved frames inside one region.  The search moves its
cursor in four ways without returning, and none of them steps over the start of
a run that is long enough: leaving a region happens when the rest of it is too
short, and a jump lands right behind a reserved frame that every skipped window
would have contained.  So the runs ahead of the cursor are the same before and
after a pass, and the first of them is what the search returns.

Nothing here asks the regions to be disjoint.
-/

namespace FrameAllocator

variable {allocator : FrameAllocator} {count : Nat}

/-- A run of `count` unreserved frames inside the region at a position. -/
def RunAt (allocator : FrameAllocator) (count position start : Nat) : Prop :=
  Exists fun region => allocator.regions[position]? = some region ∧ region.start ≤ start ∧
    start + count ≤ region.end ∧
    forall index, start ≤ index -> index < start + count -> allocator.isReserved index = false

/-- At or after the bump cursor: in its region from its frame on, or in a later
region. -/
def Ahead (allocator : FrameAllocator) (position start : Nat) : Prop :=
  allocator.cursorRegion < position ∨
    (position = allocator.cursorRegion ∧ allocator.cursorFrame ≤ start)

/-- The first run ahead of the cursor, in region order and then by index. -/
structure FirstRun (allocator : FrameAllocator) (count position start : Nat) : Prop where
  run : allocator.RunAt count position start
  ahead : allocator.Ahead position start
  first : forall otherPosition otherStart, allocator.RunAt count otherPosition otherStart ->
    allocator.Ahead otherPosition otherStart ->
    position < otherPosition ∨ (position = otherPosition ∧ start ≤ otherStart)

theorem ahead_nextRegion {region : FrameRange} (current : allocator.Current region)
    (short : region.end < allocator.cursorFrame + count) {position start : Nat}
    (run : allocator.RunAt count position start) :
    allocator.nextRegion.Ahead position start ↔ allocator.Ahead position start := by
  rcases run with ⟨other, found, lower, upper, _⟩
  unfold nextRegion Ahead
  split
  · rename_i following next
    simp only
    constructor
    · rintro (later | ⟨same, _⟩)
      · exact Or.inl (by omega)
      · exact Or.inl (by omega)
    · rintro (later | ⟨rfl, reached⟩)
      · rcases Nat.lt_or_eq_of_le later with beyond | same
        · exact Or.inl beyond
        · subst same
          cases next.symm.trans found
          exact Or.inr ⟨rfl, lower⟩
      · cases current.symm.trans found
        omega
  · rename_i missing
    simp only
    constructor
    · rintro (later | ⟨same, _⟩)
      · exact Or.inl (by omega)
      · exact Or.inl (by omega)
    · rintro (later | ⟨rfl, reached⟩)
      · rcases Nat.lt_or_eq_of_le later with beyond | same
        · exact Or.inl beyond
        · subst same
          cases missing.symm.trans found
      · cases current.symm.trans found
        omega

/-- Moving right behind a reserved frame passes no run, if every window that
starts in between contains that frame. -/
theorem ahead_behind_reserved {blocked : Nat} (reserved : allocator.isReserved blocked = true)
    (near : blocked < allocator.cursorFrame + count) {position start : Nat}
    (run : allocator.RunAt count position start) (forward : allocator.cursorFrame ≤ blocked) :
    Ahead { allocator with cursorFrame := blocked + 1 } position start ↔
      allocator.Ahead position start := by
  rcases run with ⟨other, found, lower, upper, clear⟩
  unfold Ahead
  simp only
  refine or_congr_right (and_congr_right fun _ => ⟨fun reached => by omega, fun reached => ?_⟩)
  apply Nat.lt_of_not_le
  intro early
  have unreserved := clear blocked early (by omega)
  rw [reserved] at unreserved
  cases unreserved

/-- What the search comes to: nothing, because there is no run ahead, or the
first run, with the cursor right behind it. -/
def SearchOutcome (count : Nat) (allocator : FrameAllocator)
    (result : Option Frame × FrameAllocator) : Prop :=
  (result.1 = none ∧ forall position start, allocator.RunAt count position start ->
      ¬ allocator.Ahead position start) ∨
    Exists fun position => Exists fun start => allocator.FirstRun count position start ∧
      result = (some ⟨start⟩,
        allocator.moved position (start + count) (allocator.inUse + count))

theorem SearchOutcome.of_moved {region frame : Nat} {result : Option Frame × FrameAllocator}
    (outcome : (allocator.moved region frame allocator.inUse).SearchOutcome count result)
    (same : forall position start, allocator.RunAt count position start ->
      ((allocator.moved region frame allocator.inUse).Ahead position start ↔
        allocator.Ahead position start)) :
    allocator.SearchOutcome count result := by
  rcases outcome with ⟨nothing, behind⟩ | ⟨position, start, first, equal⟩
  · refine Or.inl ⟨nothing, ?_⟩
    intro position start run ahead
    exact behind position start run ((same position start run).mpr ahead)
  · refine Or.inr ⟨position, start, ⟨first.run, (same _ _ first.run).mp first.ahead, ?_⟩, equal⟩
    intro otherPosition otherStart run ahead
    exact first.first otherPosition otherStart run ((same _ _ run).mpr ahead)

/-- The search returns the first run ahead of the cursor.  The loop rule is applied
to the outcome, which every pass leaves unchanged. -/
theorem contiguousLoop_search (positive : 0 < count) (valid : allocator.CursorValid) :
    allocator.SearchOutcome count ((contiguousLoop count).run allocator) := by
  refine (contiguousLoop count).run_rule (fun allocator result =>
    allocator.CursorValid -> allocator.SearchOutcome count result) ?_ ?_ allocator valid
  · intro allocator result pass valid
    rcases contiguousBody_leave pass with ⟨past, rfl⟩ | ⟨region, current, inside, fits, _, clear, rfl⟩
    · refine Or.inl ⟨rfl, ?_⟩
      rintro position start ⟨region, found, _⟩ (later | ⟨rfl, _⟩)
      · have length := List.getElem?_eq_none_iff.mp past
        have bound := (List.getElem?_eq_some_iff.mp found).1
        omega
      · cases past.symm.trans found
    · refine Or.inr ⟨allocator.cursorRegion, allocator.cursorFrame, ⟨?_, ?_, ?_⟩, rfl⟩
      · refine ⟨region, current, valid region current, (saturatingAdd_le_iff current _ _).mp fits, ?_⟩
        intro index lower upper
        exact Bool.eq_false_iff.mpr
          (List.find?_eq_none.mp clear index (List.mem_range'_1.mpr ⟨lower, upper⟩))
      · exact Or.inr ⟨rfl, Nat.le_refl _⟩
      · rintro position start _ (later | ⟨rfl, reached⟩)
        · exact Or.inl later
        · exact Or.inr ⟨rfl, reached⟩
  · intro allocator next result pass outcome valid
    have leaves : forall {region : FrameRange}, allocator.Current region ->
        region.end < allocator.cursorFrame + count -> next = allocator.nextRegion ->
        allocator.SearchOutcome count result := by
      rintro region current short rfl
      rcases allocator.nextRegion_eq_moved with ⟨frame, equal, nextValid, _⟩
      have carried := outcome nextValid
      rw [equal] at carried
      refine carried.of_moved ?_
      intro position start run
      rw [← equal]
      exact ahead_nextRegion current short run
    have jumps : forall {blocked : Nat}, allocator.isReserved blocked = true ->
        allocator.cursorFrame ≤ blocked -> blocked < allocator.cursorFrame + count ->
        next = { allocator with cursorFrame := blocked + 1 } ->
        allocator.SearchOutcome count result := by
      rintro blocked reserved forward near rfl
      have carried := outcome (valid.advance allocator.inUse (Nat.le_succ_of_le forward))
      exact SearchOutcome.of_moved carried
        (fun position start run => ahead_behind_reserved reserved near run forward)
    rcases contiguousBody_again pass with ⟨region, current, ⟨past, moved⟩ | ⟨inside, within⟩⟩
    · exact leaves current (by omega) moved
    · rcases within with ⟨reserved, moved⟩ | ⟨_, ⟨short, moved⟩ | ⟨_, blocked, found, moved⟩⟩
      · exact jumps reserved (Nat.le_refl _) (by omega) moved
      · refine leaves current (Nat.lt_of_not_le ?_) moved
        exact mt (saturatingAdd_le_iff current _ count).mpr (Nat.not_le_of_lt short)
      · have bounds := List.mem_range'_1.mp (List.mem_of_find?_eq_some found)
        exact jumps (List.find?_some found) bounds.1 bounds.2 moved

/-! ## The same loop on machine words -/

/-- One pass with the additions of `u32` values as the machine makes them.  The
result `none` is a panic. -/
def contiguousWordBody (mode : Overflow) (count : Nat) (allocator : FrameAllocator) :
    Pass FrameAllocator (Option (Option Frame × FrameAllocator)) :=
  match allocator.regions[allocator.cursorRegion]? with
  | none => .leave (some (none, allocator))
  | some region =>
      if allocator.cursorFrame ≥ region.end then .again allocator.nextRegion
      else if allocator.isReserved allocator.cursorFrame then
        match addWord mode 32 allocator.cursorFrame 1 with
        | none => .leave none
        | some frame => .again { allocator with cursorFrame := frame }
      else if saturatingAdd 32 allocator.cursorFrame count > region.end then
        .again allocator.nextRegion
      else
        match addWord mode 32 allocator.cursorFrame count with
        | none => .leave none
        | some stop =>
            match (List.range' allocator.cursorFrame (stop - allocator.cursorFrame)).find?
              allocator.isReserved with
            | some reserved =>
                match addWord mode 32 reserved 1 with
                | none => .leave none
                | some frame => .again { allocator with cursorFrame := frame }
            | none => .leave (some (some ⟨allocator.cursorFrame⟩, { allocator with
                cursorFrame := stop
                inUse := allocator.inUse + count }))

/-- The call with those additions, given enough passes. -/
def allocateContiguousWords (mode : Overflow) (count : Nat) (allocator : FrameAllocator)
    (fuel : Nat) : Option (Option (Option Frame × FrameAllocator)) :=
  if count = 0 then some (some (none, allocator))
  else runFor (contiguousWordBody mode count) fuel allocator

theorem contiguousWordBody_eq (mode : Overflow) (count : Nat) (allocator : FrameAllocator) :
    contiguousWordBody mode count allocator =
      match contiguousBody count allocator with
      | .again next => .again next
      | .leave result => .leave (some result) := by
  cases current : allocator.regions[allocator.cursorRegion]? with
  | none => rw [contiguousWordBody, contiguousBody, current]
  | some region =>
      have bounded := (allocator.regionsBounded region (List.mem_of_getElem? current)).2
      have small : maxFrameIndex < 2 ^ 32 - 1 := by decide
      rw [contiguousWordBody, contiguousBody, current]
      simp only
      by_cases finished : allocator.cursorFrame ≥ region.end
      · rw [if_pos finished, if_pos finished]
      · rw [if_neg finished, if_neg finished]
        by_cases reserved : allocator.isReserved allocator.cursorFrame = true
        · rw [if_pos reserved, if_pos reserved, addWord_of_lt mode (by omega)]
        · rw [if_neg reserved, if_neg reserved]
          by_cases short : saturatingAdd 32 allocator.cursorFrame count > region.end
          · rw [if_pos short, if_pos short]
          · have room := (saturatingAdd_le_iff current _ count).mp (Nat.le_of_not_lt short)
            rw [if_neg short, if_neg short, addWord_of_lt mode (by omega)]
            simp only [Nat.add_sub_cancel_left]
            cases found : (List.range' allocator.cursorFrame count).find? allocator.isReserved with
            | none => rfl
            | some blocked =>
                have bounds := List.mem_range'_1.mp (List.mem_of_find?_eq_some found)
                simp only
                rw [addWord_of_lt mode (by omega)]

/-- The call on machine words comes to the same end, without a panic and after
finitely many passes. -/
theorem allocateContiguousWords_eq (mode : Overflow) (count : Nat) (allocator : FrameAllocator) :
    Exists fun fuel => allocator.allocateContiguousWords mode count fuel =
      some (some (allocator.allocateContiguous count)) := by
  unfold allocateContiguousWords allocateContiguous
  split
  · exact ⟨0, rfl⟩
  · refine (contiguousLoop count).run_rule (fun allocator result => Exists fun fuel =>
      runFor (contiguousWordBody mode count) fuel allocator = some (some result)) ?_ ?_ allocator
    · intro allocator result pass
      refine ⟨1, ?_⟩
      rw [runFor, contiguousWordBody_eq, show contiguousBody count allocator = _ from pass]
    · rintro allocator next result pass ⟨fuel, returns⟩
      refine ⟨fuel + 1, ?_⟩
      rw [runFor, contiguousWordBody_eq, show contiguousBody count allocator = _ from pass]
      exact returns

end FrameAllocator

/-! ## Every map, every run -/

/-- Whatever the map, a step changes neither regions nor reservations, and it
leaves the cursor inside the region it names. -/
theorem FrameStep.keeps_map {world next : FrameWorld} {event : FrameEvent}
    (taken : FrameStep world event next) :
    next.allocator.regions = world.allocator.regions ∧
      next.allocator.reservations = world.allocator.reservations ∧
      (world.allocator.CursorValid -> next.allocator.CursorValid) := by
  cases taken with
  | allocate call =>
      unfold FrameAllocator.allocate FrameAllocator.popFree at call
      split at call
      · rename_i popped
        split at popped
        · cases popped
        · cases popped
          cases call
          exact ⟨rfl, rfl, fun valid => valid⟩
      · rename_i popped
        split at popped
        · cases popped
          rcases world.allocator.bumpLoop_outcome with ⟨_, _, _, _, outcome, kept⟩
          rw [call] at outcome kept
          rcases outcome with ⟨equal, _⟩ | ⟨_, equal, _⟩
          · cases equal
            exact ⟨rfl, rfl, kept⟩
          · cases equal
            exact ⟨rfl, rfl, kept⟩
        · cases popped
  | allocateContiguous call =>
      unfold FrameAllocator.allocateContiguous at call
      split at call
      · cases call
        exact ⟨rfl, rfl, fun valid => valid⟩
      · rcases world.allocator.contiguousLoop_outcome _ with ⟨_, _, _, _, outcome, kept⟩
        rw [call] at outcome kept
        rcases outcome with ⟨equal, _⟩ | ⟨_, equal, _⟩
        · cases equal
          exact ⟨rfl, rfl, kept⟩
        · cases equal
          exact ⟨rfl, rfl, kept⟩
  | free call =>
      subst call
      unfold FrameWorld.release FrameAllocator.free
      simp only
      split
      · exact ⟨rfl, rfl, fun valid => valid⟩
      · split
        · exact ⟨rfl, rfl, fun valid => valid⟩
        · split
          · exact ⟨rfl, rfl, fun valid => valid⟩
          · exact ⟨rfl, rfl, fun valid => valid⟩
  | write _ => exact ⟨rfl, rfl, fun valid => valid⟩

/-- After every run over any map the cursor is in place, and regions and
reservations are those of the fresh pool. -/
theorem frameRun_map {image : KernelImage} {map : MemoryMap} {memory : ByteMemory}
    {events : List FrameEvent} {world : FrameWorld}
    (run : Run FrameStep (FrameWorld.init image map memory) events world) :
    world.allocator.CursorValid ∧ world.allocator.regions = map.poolRegions ∧
      world.allocator.reservations = image.reservations := by
  refine run.invariant (fun world => world.allocator.CursorValid ∧
    world.allocator.regions = map.poolRegions ∧
    world.allocator.reservations = image.reservations) ?_ ?_
  · rcases FrameAllocator.new_eq image map with ⟨frame, total, bounded, equal, start⟩
    unfold FrameWorld.init
    rw [equal]
    exact ⟨fun region current => Nat.le_of_eq (start region current).symm, rfl, rfl⟩
  · rintro state event next ⟨valid, regions, reservations⟩ taken
    rcases taken.keeps_map with ⟨sameRegions, sameReservations, kept⟩
    exact ⟨kept valid, sameRegions.trans regions, sameReservations.trans reservations⟩

/-- What a call for `count` frames does: it succeeds exactly if there is a run of
that length ahead of the cursor, it takes the first one, and it moves the cursor
right behind it.  On machine words it does the same, so no addition overflows. -/
structure FindsFirstRun (allocator : FrameAllocator) (count : Nat) : Prop where
  succeeds : (allocator.allocateContiguous count).1.isSome = true ↔
    Exists fun position => Exists fun start => allocator.RunAt count position start ∧
      allocator.Ahead position start
  first : forall frame, (allocator.allocateContiguous count).1 = some frame ->
    Exists fun position => allocator.FirstRun count position frame.index ∧
      (allocator.allocateContiguous count).2 = { allocator with
        cursorRegion := position
        cursorFrame := frame.index + count
        inUse := allocator.inUse + count }
  words : forall mode, Exists fun fuel =>
    allocator.allocateContiguousWords mode count fuel =
      some (some (allocator.allocateContiguous count))

theorem FrameAllocator.findsFirstRun {allocator : FrameAllocator} {count : Nat}
    (positive : 0 < count) (valid : allocator.CursorValid) : FindsFirstRun allocator count := by
  have search : allocator.SearchOutcome count (allocator.allocateContiguous count) := by
    rw [allocateContiguous, if_neg (Nat.ne_of_gt positive)]
    exact contiguousLoop_search positive valid
  refine ⟨?_, ?_, fun mode => allocateContiguousWords_eq mode count allocator⟩
  · rcases search with ⟨nothing, behind⟩ | ⟨position, start, first, equal⟩
    · rw [nothing]
      refine iff_of_false Bool.false_ne_true ?_
      rintro ⟨position, start, run, ahead⟩
      exact behind position start run ahead
    · rw [equal]
      exact iff_of_true rfl ⟨position, start, first.run, first.ahead⟩
  · intro frame found
    rcases search with ⟨nothing, _⟩ | ⟨position, start, first, equal⟩
    · rw [nothing] at found
      cases found
    · rw [equal] at found ⊢
      cases found
      exact ⟨position, first, rfl⟩

/-- In every state that a run over any map reaches, the contiguous search is a
complete first-fit search.  Over a map whose entries do not overlap, the use count
stays within its word as well. -/
theorem allocateContiguous_finds_first_run (image : KernelImage) (map : MemoryMap)
    (memory : ByteMemory) {events : List FrameEvent} {world : FrameWorld}
    (run : Run FrameStep (FrameWorld.init image map memory) events world) (count : Nat)
    (positive : 0 < count) :
    FindsFirstRun world.allocator count ∧
      (map.FramesDisjoint -> (world.allocator.allocateContiguous count).2.inUse < 2 ^ 32) := by
  refine ⟨FrameAllocator.findsFirstRun positive (frameRun_map run).1, ?_⟩
  intro disjoint
  have after : Run FrameStep (FrameWorld.init image map memory) _ (world.afterContiguous count) :=
    run.snoc (FrameWorld.step_allocateContiguous rfl)
  rcases frameRun_sound disjoint after with ⟨⟨nodes, invariant⟩, _⟩
  have below : (world.afterContiguous count).held ⊆ Finset.range maxFrameIndex :=
    fun index held => Finset.mem_range.mpr (invariant.owned index held).1.lt
  calc (world.afterContiguous count).allocator.inUse
      ≤ (world.afterContiguous count).held.card := frameRun_inUse_le disjoint after
    _ ≤ (Finset.range maxFrameIndex).card := Finset.card_le_card below
    _ = maxFrameIndex := Finset.card_range _
    _ < 2 ^ 32 := by decide

/-- After one frame of the first region was taken, six frames are first found in
the second region. -/
theorem allocateContiguous_finds_first_run_smallMap :
    let start := FrameWorld.init smallImage smallMap (fun _ => 0)
    let world := start.afterAllocate
    FindsFirstRun world.allocator 6 ∧
      (world.allocator.allocateContiguous 6).1 = some ⟨0x200⟩ := by
  intro start world
  have first : FrameStep start (.allocate (some ⟨0x100⟩)) world :=
    FrameWorld.step_allocate (by decide +kernel)
  exact ⟨(allocateContiguous_finds_first_run smallImage smallMap (fun _ => 0)
    (Run.single first) 6 (by decide)).1, by decide +kernel⟩

end Memory
end Goatos
