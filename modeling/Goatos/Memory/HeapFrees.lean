import Mathlib.Data.List.Sort
import Goatos.Memory.HeapFirstFit

namespace Goatos
namespace Memory

open Library

/-!
# Frees in any order

A coalesced row has one free node for each maximal run of free bytes, in address
order, so the bytes of the live blocks determine the free list and the use count.
Giving a block back removes its bytes from that set and changes no other header.
In whatever order a set of blocks is given back, the same live blocks remain, and
with them the same list.
-/

theorem liveBytes_add_freeNodes (blocks : List Block) :
    liveBytes blocks + ((freeNodes blocks).map Prod.snd).sum = (blocks.map Block.size).sum := by
  induction blocks with
  | nil => rfl
  | cons block rest inductionHypothesis =>
      cases free : block.isFree with
      | true =>
          rw [liveBytes_cons_of_free free, freeNodes_cons_of_free free]
          simp only [List.map_cons, List.sum_cons]
          omega
      | false =>
          rw [liveBytes_cons_of_live free, freeNodes_cons_of_live free]
          simp only [List.map_cons, List.sum_cons]
          omega

theorem HeapWorld.takenBytes_congr {world other : HeapWorld} (held : world.held = other.held)
    (headers : forall payload, payload ∈ other.held ->
      sizeAt world.memory (payload.address - headerSize) =
        sizeAt other.memory (payload.address - headerSize)) :
    world.takenBytes = other.takenBytes := by
  ext target
  constructor
  · rintro ⟨payload, inHeld, inside⟩
    rw [held] at inHeld
    rw [headers payload inHeld] at inside
    exact ⟨payload, inHeld, inside⟩
  · rintro ⟨payload, inHeld, inside⟩
    rw [← headers payload inHeld] at inside
    rw [← held] at inHeld
    exact ⟨payload, inHeld, inside⟩

namespace HeapInvariant

variable {world other : HeapWorld} {blocks blocks' : List Block}

theorem freeNodes_pairwise (invariant : HeapInvariant world blocks) :
    (freeNodes blocks).Pairwise (fun left right => left.1 < right.1) := by
  rw [← List.pairwise_map (f := Prod.fst) (R := fun left right => left < right),
    freeNodes_addresses]
  exact invariant.represents.increasing

/-- The nodes of the free list are the maximal runs of free bytes. -/
theorem mem_freeNodes_iff (invariant : HeapInvariant world blocks) {node : Nat × Nat} :
    node ∈ freeNodes blocks ↔ MaximalRun world.freeBytes node.1 (node.1 + node.2) := by
  rw [invariant.maximalRun_iff, mem_freeNodes]
  refine exists_congr fun block => and_congr_right fun _ => and_congr_right fun _ => ?_
  rw [Prod.ext_iff]
  refine and_congr_right fun same => ?_
  rw [← same, Nat.add_left_cancel_iff]

/-- Two heaps over one region with the same live bytes have the same free list
and the same use count. -/
theorem same_of_takenBytes (invariant : HeapInvariant world blocks)
    (invariant' : HeapInvariant other blocks') (start : world.heap.heapStart = other.heap.heapStart)
    (stop : world.heap.heapEnd = other.heap.heapEnd) (taken : world.takenBytes = other.takenBytes) :
    freeNodes blocks = freeNodes blocks' ∧ world.heap.used = other.heap.used := by
  have free : world.freeBytes = other.freeBytes := by
    rw [HeapWorld.freeBytes, HeapWorld.freeBytes, start, stop, taken]
  have irreflexive : Std.Irrefl (fun left right : Nat × Nat => left.1 < right.1) :=
    ⟨fun _ => Nat.lt_irrefl _⟩
  have antisymmetric : Std.Antisymm (fun left right : Nat × Nat => left.1 < right.1) :=
    ⟨fun _ _ before after => absurd before (Nat.lt_asymm after)⟩
  have nodes : freeNodes blocks = freeNodes blocks' := by
    refine List.Pairwise.eq_of_mem_iff invariant.freeNodes_pairwise invariant'.freeNodes_pairwise ?_
    intro node
    rw [invariant.mem_freeNodes_iff, invariant'.mem_freeNodes_iff, free]
  refine ⟨nodes, ?_⟩
  have total := liveBytes_add_freeNodes blocks
  have total' := liveBytes_add_freeNodes blocks'
  have sum := invariant.shape.tiles.sum_size
  have sum' := invariant'.shape.tiles.sum_size
  rw [nodes] at total
  rw [invariant.used, invariant'.used]
  omega

end HeapInvariant

/-! ## Giving back a set of blocks -/

/-- What is left after some payloads were given back: the others, with the
headers they had, in a heap of the same bounds. -/
structure Freed (world : HeapWorld) (freed : List Payload) (next : HeapWorld) : Prop where
  row : Exists fun blocks => HeapInvariant next blocks
  held : forall payload, payload ∈ next.held ↔ payload ∈ world.held ∧ payload ∉ freed
  headers : forall payload, payload ∈ next.held ->
    sizeAt next.memory (payload.address - headerSize) =
      sizeAt world.memory (payload.address - headerSize)
  start : next.heap.heapStart = world.heap.heapStart
  stop : next.heap.heapEnd = world.heap.heapEnd

namespace Freed

variable {world next next' : HeapWorld} {freed freed' : List Payload}

theorem refl {blocks : List Block} (invariant : HeapInvariant world blocks) :
    Freed world [] world :=
  ⟨⟨blocks, invariant⟩, fun _ => by simp, fun _ _ => rfl, rfl, rfl⟩

theorem step (before : Freed world freed next) {payload : Payload}
    (taken : HeapStep next (.deallocate payload) next') : Freed world (freed ++ [payload]) next' := by
  rcases before.row with ⟨blocks, invariant⟩
  rcases invariant.step taken with ⟨row, start, stop⟩
  have held : forall other, other ∈ next'.held ↔ other ≠ payload ∧ other ∈ next.held := by
    cases taken with
    | deallocate _ _ => exact fun other => Finset.mem_erase
  refine ⟨row, ?_, ?_, start.trans before.start, stop.trans before.stop⟩
  · intro other
    rw [held, before.held, List.mem_append, List.mem_singleton, not_or]
    tauto
  · intro other stays
    have inNext := ((held other).mp stays).2
    rw [invariant.call_header taken (by simp) inNext stays, before.headers other inNext]

/-- Two ways of giving back the same payloads leave the same free list and use
count. -/
theorem same (left : Freed world freed next) (right : Freed world freed' next')
    (members : forall payload, payload ∈ freed ↔ payload ∈ freed') :
    Exists fun nodes => next.FreeList nodes ∧ next'.FreeList nodes ∧
      next.heap.used = next'.heap.used := by
  rcases left.row with ⟨blocks, invariant⟩
  rcases right.row with ⟨blocks', invariant'⟩
  have held : next.held = next'.held := by
    ext payload
    rw [left.held, right.held, members]
  have taken : next.takenBytes = next'.takenBytes := by
    refine HeapWorld.takenBytes_congr held ?_
    intro payload inHeld
    rw [right.headers payload inHeld, left.headers payload (held ▸ inHeld)]
  rcases invariant.same_of_takenBytes invariant' (left.start.trans right.start.symm)
    (left.stop.trans right.stop.symm) taken with ⟨nodes, used⟩
  refine ⟨freeNodes blocks, invariant.freeList, ?_, used⟩
  rw [nodes]
  exact invariant'.freeList

end Freed

namespace HeapInvariant

variable {world : HeapWorld} {blocks : List Block}

theorem freed (invariant : HeapInvariant world blocks) {freed : List Payload} {next : HeapWorld}
    (run : Run HeapStep world (freed.map HeapEvent.deallocate) next) : Freed world freed next := by
  generalize events : freed.map HeapEvent.deallocate = labels at run
  induction run generalizing freed with
  | nil =>
      rw [List.map_eq_nil_iff.mp events]
      exact Freed.refl invariant
  | snoc _ last inductionHypothesis =>
      rcases List.map_eq_append_iff.mp events with ⟨early, final, rfl, earlyEvents, finalEvent⟩
      rcases List.map_eq_singleton_iff.mp finalEvent with ⟨payload, rfl, rfl⟩
      exact (inductionHypothesis earlyEvents).step last

/-- Distinct held payloads can be given back in any order, and each call comes to an
end. -/
theorem exists_freed (invariant : HeapInvariant world blocks) {freed : List Payload}
    (distinct : freed.Nodup) (held : forall payload, payload ∈ freed -> payload ∈ world.held) :
    Exists fun next => Run HeapStep world (freed.map HeapEvent.deallocate) next := by
  induction freed using List.reverseRecOn with
  | nil => exact ⟨world, Run.nil⟩
  | append_singleton early payload inductionHypothesis =>
      rcases List.nodup_append.mp distinct with ⟨distinctEarly, _, apart⟩
      rcases inductionHypothesis distinctEarly
        (fun other member => held other (List.mem_append_left _ member)) with ⟨middle, run⟩
      have before := invariant.freed run
      rcases before.row with ⟨row, kept⟩
      have stillHeld : payload ∈ middle.held := by
        refine (before.held payload).mpr ⟨held payload (by simp), ?_⟩
        intro member
        exact apart payload member payload (by simp) rfl
      rcases kept.deallocate_returns stillHeld with ⟨fuel, answer, call⟩
      rw [List.map_append, List.map_singleton]
      exact ⟨_, run.snoc (HeapStep.deallocate stillHeld call)⟩

theorem new_not_held (invariant : HeapInvariant world blocks) {layout : Layout} {result : Nat}
    {next : HeapWorld} (taken : HeapStep world (.allocate layout result) next)
    (real : result ≠ null) : (⟨result, layout.size⟩ : Payload) ∉ world.held := by
  intro held
  rcases (invariant.firstFitAnswer taken).places real with ⟨low, high, lowest, same, _⟩
  rcases invariant.maximalRun_iff.mp lowest.run with ⟨block, member, free, atLow, _⟩
  rcases (invariant.held _).mp held with ⟨other, inBlocks, asked, otherSame⟩
  have equal : other = block := by
    refine invariant.shape.eq_of_address_eq inBlocks member ?_
    rw [atLow]
    exact Nat.add_right_cancel (otherSame.trans same)
  exact Block.ne_of_live_of_free (Block.live_of_request asked) free equal

/-- Giving back what was just allocated restores the free list and the use
count. -/
theorem undo (invariant : HeapInvariant world blocks) {layout : Layout} {result : Nat}
    {next final : HeapWorld} (allocated : HeapStep world (.allocate layout result) next)
    (real : result ≠ null) (freed : HeapStep next (.deallocate ⟨result, layout.size⟩) final) :
    Exists fun nodes => world.FreeList nodes ∧ final.FreeList nodes ∧
      final.heap.used = world.heap.used := by
  rcases invariant.step allocated with ⟨⟨row, kept⟩, start, stop⟩
  rcases kept.step freed with ⟨⟨row', restored⟩, start', stop'⟩
  have fresh := invariant.new_not_held allocated real
  have insertion : next.held = insert ⟨result, layout.size⟩ world.held := by
    cases allocated with
    | allocate _ => exact if_neg real
  have held : final.held = world.held := by
    cases freed with
    | deallocate _ _ =>
        rw [HeapWorld.deallocated, insertion]
        exact Finset.erase_insert fresh
  have headers : forall payload, payload ∈ world.held ->
      sizeAt final.memory (payload.address - headerSize) =
        sizeAt world.memory (payload.address - headerSize) := by
    intro payload inHeld
    have inNext : payload ∈ next.held := by
      rw [insertion]
      exact Finset.mem_insert_of_mem inHeld
    rw [kept.call_header freed (by simp) inNext (held ▸ inHeld),
      invariant.call_header allocated (by simp) inHeld inNext]
  rcases restored.same_of_takenBytes invariant (start'.trans start) (stop'.trans stop)
    (HeapWorld.takenBytes_congr held headers) with ⟨nodes, used⟩
  refine ⟨freeNodes blocks, invariant.freeList, ?_, used⟩
  rw [← nodes]
  exact restored.freeList

end HeapInvariant

/-- What giving blocks back amounts to: the order does not matter, a fresh block
given back leaves no trace, and without live blocks the heap is one free block. -/
structure FreesCommute (world : HeapWorld) : Prop where
  anyOrder : forall freed : Finset Payload, freed ⊆ world.held ->
    Exists fun nodes => Exists fun used => forall order : List Payload, order.Nodup ->
      order.toFinset = freed ->
      (Exists fun next => Run HeapStep world (order.map HeapEvent.deallocate) next) ∧
      forall next, Run HeapStep world (order.map HeapEvent.deallocate) next ->
        next.FreeList nodes ∧ next.heap.used = used
  undoes : forall layout result next, HeapStep world (.allocate layout result) next ->
    result ≠ null ->
    (Exists fun final => HeapStep next (.deallocate ⟨result, layout.size⟩) final) ∧
    forall final, HeapStep next (.deallocate ⟨result, layout.size⟩) final ->
      Exists fun nodes => world.FreeList nodes ∧ final.FreeList nodes ∧
        final.heap.used = world.heap.used
  allFreed : world.heap.isReady = true -> forall order : List Payload, order.Nodup ->
    order.toFinset = world.held -> forall next,
    Run HeapStep world (order.map HeapEvent.deallocate) next ->
      next.FreeList [(world.heap.heapStart, world.heap.heapEnd - world.heap.heapStart)] ∧
      next.heap.used = 0

/-- Before the heap is initialised there is nothing to give back. -/
theorem freesCommute_unready (memory : ByteMemory) : FreesCommute ⟨Heap.empty, memory, ∅⟩ where
  anyOrder := by
    intro freed subset
    refine ⟨[], 0, ?_⟩
    rintro order _ rfl
    have nothing : order = [] := by
      rwa [Finset.subset_empty, List.toFinset_eq_empty_iff] at subset
    subst nothing
    refine ⟨⟨_, Run.nil⟩, ?_⟩
    intro next run
    rw [run.eq_of_nil]
    exact ⟨⟨rfl, fun _ impossible => absurd impossible List.not_mem_nil⟩, rfl⟩
  undoes := by
    intro layout result next taken real
    cases taken with
    | allocate call =>
        cases (Heap.allocate_unready rfl memory layout _).symm.trans call
        exact absurd rfl real
  allFreed := fun impossible => absurd impossible Bool.false_ne_true

/-- In every reachable state of the heap, frees commute and undo allocations, and
freeing everything restores the single block that the heap began with. -/
theorem heap_frees_commute {world : HeapWorld} (reachable : HeapReachable world) :
    FreesCommute world := by
  cases reachable with
  | unready memory => exact freesCommute_unready memory
  | @run region memory events _ steps =>
      rcases heapRun_sound steps with ⟨⟨blocks, invariant⟩, start, stop⟩
      refine ⟨?_, ?_, ?_⟩
      · intro freed subset
        have inHeld : forall {order : List Payload}, order.toFinset = freed ->
            forall payload, payload ∈ order -> payload ∈ world.held := by
          rintro order rfl payload member
          exact subset (List.mem_toFinset.mpr member)
        rcases invariant.exists_freed freed.nodup_toList (inHeld freed.toList_toFinset) with
          ⟨reference, run⟩
        have left := invariant.freed run
        rcases left.row with ⟨row, kept⟩
        refine ⟨freeNodes row, reference.heap.used, ?_⟩
        intro order distinct same
        refine ⟨invariant.exists_freed distinct (inHeld same), ?_⟩
        intro next run'
        have members : forall payload, payload ∈ freed.toList ↔ payload ∈ order := by
          intro payload
          rw [Finset.mem_toList, ← same, List.mem_toFinset]
        rcases left.same (invariant.freed run') members with ⟨nodes, list, list', used⟩
        rw [kept.freeList.unique list]
        exact ⟨list', used.symm⟩
      · intro layout result next taken real
        refine ⟨?_, fun final freed => invariant.undo taken real freed⟩
        rcases invariant.new_payload taken real with ⟨row, kept, ⟨block, member, asked, same⟩, _⟩
        have held := (kept.held ⟨result, layout.size⟩).mpr ⟨block, member, asked, same⟩
        rcases kept.deallocate_returns held with ⟨fuel, answer, call⟩
        exact ⟨_, HeapStep.deallocate held call⟩
      · intro _ order _ all next run
        have freed := invariant.freed run
        rcases freed.row with ⟨row, kept⟩
        have emptied : next.held = ∅ := by
          ext payload
          rw [freed.held, ← all, List.mem_toFinset]
          simp
        have fresh := region.world_invariant memory
        have nothing : next.takenBytes = (region.world memory).takenBytes := by
          refine HeapWorld.takenBytes_congr emptied ?_
          intro payload impossible
          cases impossible
        have sameStop : next.heap.heapEnd = (region.world memory).heap.heapEnd :=
          (freed.stop.trans stop).trans (heapRun_sound (Run.nil : Run HeapStep _ [] _)).2.2.symm
        rcases kept.same_of_takenBytes fresh (freed.start.trans start) sameStop nothing with
          ⟨nodes, used⟩
        refine ⟨?_, used⟩
        have list := kept.freeList
        rw [nodes] at list
        rw [start, stop, Nat.add_sub_cancel_left]
        exact list

/-- Two blocks are live in a small heap; giving them back in either order, or one
of them alone, is covered. -/
theorem heap_frees_commute_smallRegion :
    twoTaken.held = {⟨0x1008, 10⟩, ⟨0x1020, 8⟩} ∧ FreesCommute twoTaken :=
  ⟨by decide +kernel, heap_frees_commute (.run (oneTaken_run.snoc twoTaken_step))⟩

end Memory
end Goatos
