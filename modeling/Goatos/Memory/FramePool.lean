import Mathlib.Data.List.Nodup
import Goatos.Memory.Frame

namespace Goatos
namespace Memory

open Library

/-!
# What the bump cursor has still to visit

The cursor is a region number and a frame index, but everything the loops do
with it is to drop a prefix of one fixed sequence: the frames of the regions in
map order.  `pending` is the part of that sequence at or after the cursor.
Each entry records where its region ends, because a contiguous run must not
leave the region in which it starts, and because overlapping regions may list
one frame twice.

The two outcome theorems say all that later arguments need about the loops:
which entries were skipped and why, which were taken, and that nothing but the
cursor and the use count has changed.
-/

/-- A frame together with the end of the region in which the cursor meets it.
Where regions overlap, the cursor meets a frame more than once, and the ends may
differ. -/
structure Slot where
  index : Nat
  limit : Nat
  deriving DecidableEq

namespace FrameRange

/-- The slots of a region from a given frame on. -/
def slotsFrom (range : FrameRange) (first : Nat) : List Slot :=
  (List.range' first (range.end - first)).map (fun index => ⟨index, range.end⟩)

def slots (range : FrameRange) : List Slot :=
  range.slotsFrom range.start

theorem mem_slotsFrom {range : FrameRange} {first : Nat} {slot : Slot} :
    slot ∈ range.slotsFrom first ↔
      first ≤ slot.index ∧ slot.index < range.end ∧ slot.limit = range.end := by
  rw [slotsFrom, List.mem_map]
  constructor
  · rintro ⟨index, member, rfl⟩
    have bounds := List.mem_range'_1.mp member
    exact ⟨bounds.1, by simp only; omega, rfl⟩
  · rintro ⟨lower, upper, limit⟩
    refine ⟨slot.index, List.mem_range'_1.mpr ⟨lower, by omega⟩, ?_⟩
    rw [← limit]

theorem mem_slots {range : FrameRange} {slot : Slot} :
    slot ∈ range.slots ↔ range.contains slot.index = true ∧ slot.limit = range.end := by
  rw [slots, mem_slotsFrom, contains_iff, and_assoc]

theorem slotsFrom_of_le {range : FrameRange} {first : Nat} (past : range.end ≤ first) :
    range.slotsFrom first = [] := by
  rw [slotsFrom, Nat.sub_eq_zero_of_le past]
  rfl

theorem slotsFrom_split {range : FrameRange} {first middle : Nat}
    (order : first ≤ middle) (within : middle ≤ range.end) :
    range.slotsFrom first =
      (List.range' first (middle - first)).map (fun index => ⟨index, range.end⟩) ++
        range.slotsFrom middle := by
  have total : range.end - first = (middle - first) + (range.end - middle) := by omega
  have junction : first + (middle - first) = middle := by omega
  have halves := @List.range'_append_1 first (middle - first) (range.end - middle)
  rw [junction] at halves
  rw [slotsFrom, slotsFrom, total, ← halves, List.map_append]

theorem nodup_slotsFrom (range : FrameRange) (first : Nat) :
    ((range.slotsFrom first).map Slot.index).Nodup := by
  rw [slotsFrom, List.map_map]
  exact (List.map_id _).symm ▸ List.nodup_range'

end FrameRange

namespace FrameAllocator

/-- The slots at or after the bump cursor, in the order it will meet them.
Everything that the two loops do is to take and drop slots from the front. -/
def pending (allocator : FrameAllocator) : List Slot :=
  match allocator.regions.drop allocator.cursorRegion with
  | [] => []
  | region :: later => region.slotsFrom allocator.cursorFrame ++ later.flatMap FrameRange.slots

/-- Move the cursor and set the use count; everything else stays. -/
def moved (allocator : FrameAllocator) (region frame inUse : Nat) : FrameAllocator :=
  { allocator with cursorRegion := region, cursorFrame := frame, inUse := inUse }

/-- The cursor never stands before the region it is in. -/
def CursorValid (allocator : FrameAllocator) : Prop :=
  forall region, allocator.Current region -> region.start ≤ allocator.cursorFrame

theorem pending_of_current {allocator : FrameAllocator} {region : FrameRange}
    (current : allocator.Current region) :
    allocator.pending = region.slotsFrom allocator.cursorFrame ++
      (allocator.regions.drop (allocator.cursorRegion + 1)).flatMap FrameRange.slots := by
  rcases List.getElem?_eq_some_iff.mp current with ⟨bound, equal⟩
  rw [pending, List.drop_eq_getElem_cons bound, equal]

theorem pending_of_past {allocator : FrameAllocator}
    (past : allocator.regions[allocator.cursorRegion]? = none) : allocator.pending = [] := by
  rw [pending, List.drop_eq_nil_of_le (List.getElem?_eq_none_iff.mp past)]

theorem nextRegion_eq_moved (allocator : FrameAllocator) :
    Exists fun frame =>
      allocator.nextRegion = allocator.moved (allocator.cursorRegion + 1) frame allocator.inUse ∧
      allocator.nextRegion.CursorValid ∧
      allocator.nextRegion.pending =
        (allocator.regions.drop (allocator.cursorRegion + 1)).flatMap FrameRange.slots := by
  unfold nextRegion
  split
  · rename_i region following
    refine ⟨region.start, rfl, ?_, ?_⟩
    · intro other current
      have same : some region = some other := following.symm.trans current
      cases same
      exact Nat.le_refl _
    · rcases List.getElem?_eq_some_iff.mp following with ⟨bound, equal⟩
      rw [@pending_of_current { allocator with
        cursorRegion := allocator.cursorRegion + 1, cursorFrame := region.start } region following]
      simp only [List.drop_eq_getElem_cons bound, equal, List.flatMap_cons, FrameRange.slots]
  · rename_i missing
    refine ⟨allocator.cursorFrame, rfl, ?_, ?_⟩
    · intro other current
      exact absurd (missing.symm.trans current) (by intro impossible; cases impossible)
    · rw [@pending_of_past { allocator with cursorRegion := allocator.cursorRegion + 1 } missing,
        List.drop_eq_nil_of_le (List.getElem?_eq_none_iff.mp missing)]
      rfl

theorem pending_advance {allocator : FrameAllocator} {region : FrameRange} {frame : Nat}
    (inUse : Nat) (current : allocator.Current region) (forward : allocator.cursorFrame ≤ frame)
    (within : frame ≤ region.end) :
    allocator.pending =
      (List.range' allocator.cursorFrame (frame - allocator.cursorFrame)).map
        (fun index => ⟨index, region.end⟩) ++
      (allocator.moved allocator.cursorRegion frame inUse).pending := by
  rw [pending_of_current current,
    @pending_of_current (allocator.moved allocator.cursorRegion frame inUse) region current,
    FrameRange.slotsFrom_split forward within, List.append_assoc]
  rfl

/-- Inside its region the cursor stands on the next pending slot. -/
theorem pending_step {allocator : FrameAllocator} {region : FrameRange} (inUse : Nat)
    (current : allocator.Current region) (inside : allocator.cursorFrame < region.end) :
    allocator.pending = ⟨allocator.cursorFrame, region.end⟩ ::
      (allocator.moved allocator.cursorRegion (allocator.cursorFrame + 1) inUse).pending := by
  rw [pending_advance inUse current (Nat.le_add_right _ 1) inside,
    Nat.add_sub_cancel_left]
  rfl

theorem CursorValid.advance {allocator : FrameAllocator} {frame : Nat} (inUse : Nat)
    (valid : allocator.CursorValid) (forward : allocator.cursorFrame ≤ frame) :
    (allocator.moved allocator.cursorRegion frame inUse).CursorValid :=
  fun region current => Nat.le_trans (valid region current) forward

/-! ## The bump loop -/

/-- What the bump loop of `allocate` may do from a given state: it skips
reserved slots only, and takes the first one that is not reserved. -/
def BumpOutcome (allocator : FrameAllocator) (result : Option Frame × FrameAllocator) : Prop :=
  Exists fun skipped : List Slot =>
    (forall slot, slot ∈ skipped -> allocator.isReserved slot.index = true) ∧
    Exists fun region => Exists fun frame =>
      ((result = (none, allocator.moved region frame allocator.inUse) ∧
          allocator.pending = skipped ∧ result.2.pending = []) ∨
        Exists fun slot : Slot =>
          result = (some ⟨slot.index⟩, allocator.moved region frame (allocator.inUse + 1)) ∧
          allocator.isReserved slot.index = false ∧
          allocator.pending = skipped ++ slot :: result.2.pending) ∧
      (allocator.CursorValid -> result.2.CursorValid)

theorem bumpLoop_outcome (allocator : FrameAllocator) :
    allocator.BumpOutcome (bumpLoop.run allocator) := by
  refine bumpLoop.run_rule BumpOutcome ?_ ?_ allocator
  · intro allocator result pass
    rcases bumpBody_leave pass with ⟨past, rfl⟩ | ⟨region, current, inside, free, rfl⟩
    · exact ⟨[], fun _ impossible => absurd impossible List.not_mem_nil,
        allocator.cursorRegion, allocator.cursorFrame,
        Or.inl ⟨rfl, pending_of_past past, pending_of_past past⟩, fun valid => valid⟩
    · exact ⟨[], fun _ impossible => absurd impossible List.not_mem_nil,
        allocator.cursorRegion, allocator.cursorFrame + 1,
        Or.inr ⟨⟨allocator.cursorFrame, region.end⟩, rfl, free,
          pending_step (allocator.inUse + 1) current inside⟩,
        fun valid => valid.advance (allocator.inUse + 1) (Nat.le_succ _)⟩
  · intro allocator next result pass outcome
    rcases bumpBody_again pass with ⟨region, current, ⟨past, rfl⟩ | ⟨inside, reserved, rfl⟩⟩
    · rcases allocator.nextRegion_eq_moved with ⟨start, equal, valid, following⟩
      have same : allocator.pending = allocator.nextRegion.pending := by
        rw [pending_of_current current, FrameRange.slotsFrom_of_le past, following, List.nil_append]
      rw [equal] at outcome same valid
      rcases outcome with ⟨skipped, allReserved, newRegion, newFrame, moved, kept⟩
      refine ⟨skipped, allReserved, newRegion, newFrame, ?_, fun _ => kept valid⟩
      rw [same]
      exact moved
    · have split := pending_step allocator.inUse current inside
      rcases outcome with ⟨skipped, allReserved, newRegion, newFrame, moved, kept⟩
      refine ⟨⟨allocator.cursorFrame, region.end⟩ :: skipped, ?_, newRegion, newFrame, ?_,
        fun valid => kept (valid.advance allocator.inUse (Nat.le_succ _))⟩
      · intro slot member
        rcases List.mem_cons.mp member with rfl | later
        · exact reserved
        · exact allReserved slot later
      · rcases moved with ⟨equal, before, after⟩ | ⟨slot, equal, free, before⟩
        · refine Or.inl ⟨equal, split.trans ?_, after⟩
          exact congrArg _ before
        · refine Or.inr ⟨slot, equal, free, split.trans ?_⟩
          exact congrArg _ before

/-! ## The contiguous search -/

/-- The window of `count` frames that starts at a slot stays in the slot's
region and holds no reserved frame. -/
def WindowFits (allocator : FrameAllocator) (count : Nat) (slot : Slot) : Prop :=
  slot.index + count ≤ slot.limit ∧
    forall index, slot.index ≤ index -> index < slot.index + count ->
      allocator.isReserved index = false

/-- What the contiguous search may do from a given state: no window that
starts at a skipped slot would have served, and the window that is taken is
the next stretch of the sequence. -/
def ContiguousOutcome (count : Nat) (allocator : FrameAllocator)
    (result : Option Frame × FrameAllocator) : Prop :=
  Exists fun skipped : List Slot =>
    (forall slot, slot ∈ skipped ->
      allocator.isReserved slot.index = true ∨ ¬ allocator.WindowFits count slot) ∧
    Exists fun region => Exists fun frame =>
      ((result = (none, allocator.moved region frame allocator.inUse) ∧
          allocator.pending = skipped ∧ result.2.pending = []) ∨
        Exists fun slot : Slot =>
          result = (some ⟨slot.index⟩, allocator.moved region frame (allocator.inUse + count)) ∧
          allocator.isReserved slot.index = false ∧
          allocator.WindowFits count slot ∧
          allocator.pending = skipped ++
            ((List.range' slot.index count).map (fun index => ⟨index, slot.limit⟩) ++
              result.2.pending)) ∧
      (allocator.CursorValid -> result.2.CursorValid)

theorem saturatingAdd_le_iff {allocator : FrameAllocator} {region : FrameRange}
    (current : allocator.Current region) (first count : Nat) :
    saturatingAdd 32 first count ≤ region.end ↔ first + count ≤ region.end := by
  have bound := (allocator.regionsBounded region (List.mem_of_getElem? current)).2
  have small : maxFrameIndex < 2 ^ 32 - 1 := by decide
  unfold saturatingAdd
  omega

/-- Skipping some slots first, all for a stated reason, only adds to the
skipped prefix of an outcome. -/
theorem ContiguousOutcome.cons {count : Nat} {allocator : FrameAllocator}
    {region frame : Nat} {result : Option Frame × FrameAllocator} (prior : List Slot)
    (outcome : (allocator.moved region frame allocator.inUse).ContiguousOutcome count result)
    (reasons : forall slot, slot ∈ prior ->
      allocator.isReserved slot.index = true ∨ ¬ allocator.WindowFits count slot)
    (split : allocator.pending =
      prior ++ (allocator.moved region frame allocator.inUse).pending)
    (valid : allocator.CursorValid ->
      (allocator.moved region frame allocator.inUse).CursorValid) :
    allocator.ContiguousOutcome count result := by
  rcases outcome with ⟨skipped, why, newRegion, newFrame, moved, kept⟩
  refine ⟨prior ++ skipped, ?_, newRegion, newFrame, ?_, fun before => kept (valid before)⟩
  · intro slot member
    rcases List.mem_append.mp member with early | late
    · exact reasons slot early
    · exact why slot late
  · rcases moved with ⟨equal, before, after⟩ | ⟨slot, equal, free, fits, before⟩
    · exact Or.inl ⟨equal, split.trans (congrArg _ before), after⟩
    · refine Or.inr ⟨slot, equal, free, fits, ?_⟩
      rw [split, before, List.append_assoc]

theorem contiguousLoop_outcome (count : Nat) (allocator : FrameAllocator) :
    allocator.ContiguousOutcome count ((contiguousLoop count).run allocator) := by
  refine (contiguousLoop count).run_rule (ContiguousOutcome count) ?_ ?_ allocator
  · intro allocator result pass
    rcases contiguousBody_leave pass with ⟨past, rfl⟩ | ⟨region, current, inside, fits, free, clear, rfl⟩
    · exact ⟨[], fun _ impossible => absurd impossible List.not_mem_nil,
        allocator.cursorRegion, allocator.cursorFrame,
        Or.inl ⟨rfl, pending_of_past past, pending_of_past past⟩, fun valid => valid⟩
    · have room := (saturatingAdd_le_iff current _ _).mp fits
      refine ⟨[], fun _ impossible => absurd impossible List.not_mem_nil,
        allocator.cursorRegion, allocator.cursorFrame + count,
        Or.inr ⟨⟨allocator.cursorFrame, region.end⟩, rfl, free, ⟨room, ?_⟩, ?_⟩,
        fun valid => valid.advance (allocator.inUse + count) (Nat.le_add_right _ _)⟩
      · intro index lower upper
        have unreserved := List.find?_eq_none.mp clear index (List.mem_range'_1.mpr ⟨lower, upper⟩)
        exact Bool.eq_false_iff.mpr unreserved
      · have split := pending_advance (allocator.inUse + count) current
          (Nat.le_add_right _ _) room
        rwa [Nat.add_sub_cancel_left] at split
  · intro allocator next result pass outcome
    rcases contiguousBody_again pass with ⟨region, current, ⟨past, rfl⟩ | ⟨inside, within⟩⟩
    · rcases allocator.nextRegion_eq_moved with ⟨start, equal, valid, following⟩
      rw [equal] at outcome following valid
      refine outcome.cons [] (fun _ impossible => absurd impossible List.not_mem_nil)
        ?_ (fun _ => valid)
      rw [pending_of_current current, FrameRange.slotsFrom_of_le past, following]
    · rcases within with ⟨reserved, rfl⟩ | ⟨free, ⟨short, rfl⟩ | ⟨fits, blocked, found, rfl⟩⟩
      · refine outcome.cons [⟨allocator.cursorFrame, region.end⟩] ?_
          (pending_step allocator.inUse current inside)
          (fun valid => valid.advance allocator.inUse (Nat.le_succ _))
        intro slot member
        rw [List.mem_singleton.mp member]
        exact Or.inl reserved
      · rcases allocator.nextRegion_eq_moved with ⟨start, equal, valid, following⟩
        rw [equal] at outcome following valid
        refine outcome.cons (region.slotsFrom allocator.cursorFrame) ?_ ?_
          (fun _ => valid)
        · intro slot member
          have bounds := FrameRange.mem_slotsFrom.mp member
          have tooLong := mt (saturatingAdd_le_iff current _ count).mpr (Nat.not_le_of_lt short)
          refine Or.inr (fun windowFits => tooLong ?_)
          have room := windowFits.1
          omega
        · rw [pending_of_current current, following]
      · have room := (saturatingAdd_le_iff current _ _).mp fits
        have blockedBounds := List.mem_range'_1.mp (List.mem_of_find?_eq_some found)
        have blockedReserved : allocator.isReserved blocked = true := List.find?_some found
        have split := pending_advance allocator.inUse current
          (Nat.le_succ_of_le blockedBounds.1) (show blocked + 1 ≤ region.end by omega)
        refine outcome.cons _ ?_ split
          (fun valid => valid.advance allocator.inUse (Nat.le_succ_of_le blockedBounds.1))
        intro slot member
        rcases List.mem_map.mp member with ⟨index, indexMember, rfl⟩
        have indexBounds := List.mem_range'_1.mp indexMember
        refine Or.inr (fun windowFits => ?_)
        have clear := windowFits.2 blocked (by simp only; omega) (by simp only; omega)
        rw [blockedReserved] at clear
        cases clear

end FrameAllocator

end Memory
end Goatos
