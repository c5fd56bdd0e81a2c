import Goatos.Memory.HeapRuns

namespace Goatos
namespace Memory

open Library

/-!
# What the heap guarantees

Over whole runs, from a fresh heap on any region it can be given: the headers
and links always describe a coalesced row of blocks, and no client's bytes are
handed to another or written by the heap.
-/

/-- A region that can become a heap: not at null, made of whole aligned units,
and ending below 4 GiB. -/
structure HeapRegion where
  start : Nat
  size : Nat
  nonNull : null < start
  startAligned : 8 ∣ start
  positive : 0 < size
  sizeAligned : 8 ∣ size
  fits : start + size < 2 ^ 32

/-- The world of a fresh heap on a region. -/
def HeapRegion.world (region : HeapRegion) (memory : ByteMemory) : HeapWorld :=
  HeapWorld.init memory region.start region.size

namespace HeapInvariant

variable {world : HeapWorld} {blocks : List Block}

/-- Writes into held payloads spare every header. -/
theorem write (invariant : HeapInvariant world blocks) {memory : ByteMemory}
    (untouched : forall target, world.heap.heapStart ≤ target -> target < world.heap.heapEnd ->
      (forall payload, payload ∈ world.held -> target ∉ payload.bytes) ->
      memory target = world.memory target) :
    HeapInvariant { world with memory := memory } blocks := by
  have shape := invariant.shape
  refine ⟨shape.congr ?_, invariant.aligned, invariant.coalesced, invariant.requests,
    invariant.used, invariant.held⟩
  intro block member target lower upper
  have bounds := shape.tiles.bounds member
  have size := (shape.sized block member).2
  refine untouched target (by omega) (by omega) ?_
  intro payload held inside
  rcases (invariant.held payload).mp held with ⟨other, otherMember, asked, same⟩
  have within := ByteMemory.mem_extent.mp inside
  have room := invariant.requests other otherMember payload.size asked
  rcases shape.tiles.apart member otherMember with rfl | earlier | later
  · omega
  · omega
  · omega

/-- Every step keeps the invariant for some row of blocks, and the bounds of the
heap. -/
theorem step (invariant : HeapInvariant world blocks) {event : HeapEvent} {next : HeapWorld}
    (taken : HeapStep world event next) :
    (Exists fun blocks' => HeapInvariant next blocks') ∧
      next.heap.heapStart = world.heap.heapStart ∧ next.heap.heapEnd = world.heap.heapEnd := by
  cases taken with
  | allocate call =>
      rcases invariant.allocate call with rfl | allocation
      · exact ⟨⟨blocks, invariant⟩, rfl, rfl⟩
      · rcases allocation.carved with ⟨_, _, _, _, _, _, _, _, _, after⟩
        exact ⟨⟨_, after⟩, allocation.bounds⟩
  | deallocate held call =>
      have deallocation := invariant.deallocate held call
      rcases deallocation.joined with ⟨_, _, _, _, _, after⟩
      exact ⟨⟨_, after⟩, deallocation.bounds⟩
  | write untouched => exact ⟨⟨blocks, invariant.write untouched⟩, rfl, rfl⟩

end HeapInvariant

theorem HeapRegion.world_invariant (region : HeapRegion) (memory : ByteMemory) :
    HeapInvariant (region.world memory) [⟨region.start, region.size, none⟩] := by
  have nonNull := region.nonNull
  have positive := region.positive
  have fits := region.fits
  have multiple := region.sizeAligned
  have ends : (region.world memory).heap.heapEnd = region.start + region.size :=
    Nat.mod_eq_of_lt fits
  refine ⟨⟨nonNull, ?_, ?_, ?_, ?_, ?_⟩, region.startAligned, List.isChain_singleton _, ?_, rfl, ?_⟩
  · rw [ends]
    exact fits
  · rw [ends]
    exact ⟨rfl, rfl⟩
  · intro block member
    rw [List.mem_singleton.mp member]
    exact ⟨multiple, by unfold headerSize; simp only; omega⟩
  · intro block member
    rw [List.mem_singleton.mp member]
    change sizeAt (setNext (setSize memory region.start region.size) region.start null)
      region.start = region.size
    rw [sizeAt_setNext, sizeAt_setSize (by omega)]
  · refine ⟨rfl, Nat.ne_of_gt nonNull, ?_⟩
    exact nextAt_setNext (by decide)
  · intro block member size asked
    rw [List.mem_singleton.mp member] at asked
    cases asked
  · intro payload
    refine iff_of_false (Finset.notMem_empty payload) ?_
    rintro ⟨block, member, asked, _⟩
    rw [List.mem_singleton.mp member] at asked
    cases asked

/-- After every run some row of blocks describes the heap, over the region it
was made from. -/
theorem heapRun_sound {region : HeapRegion} {memory : ByteMemory} {events : List HeapEvent}
    {world : HeapWorld} (run : Run HeapStep (region.world memory) events world) :
    (Exists fun blocks => HeapInvariant world blocks) ∧
      world.heap.heapStart = region.start ∧ world.heap.heapEnd = region.start + region.size := by
  refine run.invariant (fun world => (Exists fun blocks => HeapInvariant world blocks) ∧
    world.heap.heapStart = region.start ∧ world.heap.heapEnd = region.start + region.size) ?_ ?_
  · exact ⟨⟨_, region.world_invariant memory⟩, rfl, Nat.mod_eq_of_lt region.fits⟩
  · rintro state event next ⟨⟨blocks, invariant⟩, start, stop⟩ taken
    rcases invariant.step taken with ⟨kept, sameStart, sameStop⟩
    exact ⟨kept, sameStart.trans start, sameStop.trans stop⟩

/-! ## The representation -/

/-- A row of blocks is exactly what the heap's fields, headers and links say, and
its live blocks are exactly what the clients hold. -/
structure HeapRepresentation (world : HeapWorld) (blocks : List Block) : Prop where
  tiles : Tiles Block.address Block.size world.heap.heapStart blocks world.heap.heapEnd
  multiples : forall block, block ∈ blocks ->
    8 ∣ block.address ∧ 8 ∣ block.size ∧ 8 ≤ block.size
  chain : Linked (nextAt world.memory) null world.heap.freeList (freeAddresses blocks)
  increasing : (freeAddresses blocks).Pairwise (fun left right => left < right)
  coalesced : Coalesced blocks
  headers : forall block, block ∈ blocks -> sizeAt world.memory block.address = block.size
  live : forall payload, payload ∈ world.held ↔ Exists fun block => block ∈ blocks ∧
    block.request = some payload.size ∧ block.address + headerSize = payload.address
  used : world.heap.used = liveBytes blocks
  subtractionExact : forall payload, payload ∈ world.held ->
    sizeAt world.memory (payload.address - headerSize) ≤ world.heap.used

theorem HeapInvariant.represents {world : HeapWorld} {blocks : List Block}
    (invariant : HeapInvariant world blocks) : HeapRepresentation world blocks where
  tiles := invariant.shape.tiles
  multiples := by
    intro block member
    have sized := invariant.shape.sized block member
    exact ⟨invariant.shape.tiles.dvd_address
      (fun other inBlocks => (invariant.shape.sized other inBlocks).1) invariant.aligned member,
      sized.1, sized.2⟩
  chain := invariant.shape.linked
  increasing := by
    refine (HeapShape.freeAddresses_pairwise invariant.shape.tiles invariant.shape.sized).imp ?_
    intro left right gap
    omega
  coalesced := invariant.coalesced
  headers := invariant.shape.headers
  live := invariant.held
  used := invariant.used
  subtractionExact := by
    intro payload held
    rcases invariant.exists_block held with ⟨before, block, after, rfl, _, live, same⟩
    rw [← same, Nat.add_sub_cancel, invariant.shape.headers block (by simp), invariant.used,
      liveBytes_append, liveBytes_cons_of_live live]
    omega

/-- In every reachable state the free blocks and the live blocks together tile
the heap, the free list is the coalesced chain of the free ones in address
order, headers tell the truth, and the use count is the bytes of the live
blocks. -/
theorem heap_representation (region : HeapRegion) (memory : ByteMemory)
    {events : List HeapEvent} {world : HeapWorld}
    (run : Run HeapStep (region.world memory) events world) :
    world.heap.heapStart = region.start ∧ world.heap.heapEnd = region.start + region.size ∧
      Exists fun blocks => HeapRepresentation world blocks := by
  rcases heapRun_sound run with ⟨⟨blocks, invariant⟩, start, stop⟩
  exact ⟨start, stop, blocks, invariant.represents⟩

/-- A small heap: 64 bytes at 4 KiB. -/
def smallRegion : HeapRegion where
  start := 0x1000
  size := 64
  nonNull := by decide
  startAligned := by decide
  positive := by decide
  sizeAligned := by decide
  fits := by decide

/-- The small heap after a request for ten bytes; `twoTaken` is after one more for
eight, and `gapLeft` after the first block has been given back. -/
def oneTaken : HeapWorld :=
  (smallRegion.world (fun _ => 0)).afterAllocate ⟨10, 4⟩ 4

def twoTaken : HeapWorld :=
  oneTaken.afterAllocate ⟨8, 8⟩ 4

def gapLeft : HeapWorld :=
  twoTaken.afterDeallocate ⟨0x1008, 10⟩ 4

theorem oneTaken_run :
    Run HeapStep (smallRegion.world (fun _ => 0)) [.allocate ⟨10, 4⟩ 0x1008] oneTaken :=
  Run.single (HeapWorld.step_allocate (by decide +kernel))

theorem twoTaken_step : HeapStep oneTaken (.allocate ⟨8, 8⟩ 0x1020) twoTaken :=
  HeapWorld.step_allocate (by decide +kernel)

theorem gapLeft_run :
    Run HeapStep (smallRegion.world (fun _ => 0))
      [.allocate ⟨10, 4⟩ 0x1008, .allocate ⟨8, 8⟩ 0x1020, .deallocate ⟨0x1008, 10⟩] gapLeft :=
  (oneTaken_run.snoc twoTaken_step).snoc
    (HeapWorld.step_deallocate (by decide +kernel) (by decide +kernel))

/-- Two blocks are taken and the first is given back: its 24 bytes are free
again, and the 16 of the second are in use. -/
theorem heap_representation_smallRegion :
    Exists fun blocks => HeapRepresentation gapLeft blocks ∧ liveBytes blocks = 16 := by
  rcases heap_representation smallRegion (fun _ => 0) gapLeft_run with
    ⟨_, _, blocks, represents⟩
  refine ⟨blocks, represents, ?_⟩
  rw [← represents.used]
  decide +kernel

/-! ## Isolation -/

/-- The next call of a client disturbs no other client.  A pointer is aligned and
inside the heap, its bytes belong to nobody else, and the bytes of all others stay
as they are; calls come to an end. -/
structure IsolatesClients (world : HeapWorld) : Prop where
  aligned : forall layout result next, HeapStep world (.allocate layout result) next ->
    result ≠ null -> 8 ∣ result
  inside : forall layout result next, HeapStep world (.allocate layout result) next ->
    result ≠ null ->
    world.heap.heapStart ≤ result ∧ result + layout.size ≤ world.heap.heapEnd
  awayFromPayloads : forall layout result next, HeapStep world (.allocate layout result) next ->
    result ≠ null -> forall payload, payload ∈ world.held ->
      Disjoint (Payload.bytes ⟨result, layout.size⟩) payload.bytes
  awayFromHeaders : forall layout result next, HeapStep world (.allocate layout result) next ->
    result ≠ null -> forall payload, payload ∈ next.held ->
      Disjoint (Payload.bytes ⟨result, layout.size⟩) payload.header
  awayFromFree : forall layout result next, HeapStep world (.allocate layout result) next ->
    result ≠ null -> Exists fun nodes =>
      Linked (nextAt next.memory) null next.heap.freeList nodes ∧
      forall node, node ∈ nodes -> Disjoint (Payload.bytes ⟨result, layout.size⟩)
        (ByteMemory.extent node (sizeAt next.memory node))
  untouched : forall event next, HeapStep world event next -> event ≠ .write ->
    forall payload, payload ∈ world.held -> payload ∈ next.held ->
      Set.EqOn next.memory world.memory payload.bytes
  allocateReturns : forall layout, Exists fun result => Exists fun next =>
    HeapStep world (.allocate layout result) next
  deallocateReturns : forall payload, payload ∈ world.held -> Exists fun next =>
    HeapStep world (.deallocate payload) next

namespace HeapInvariant

variable {world : HeapWorld} {blocks : List Block}

/-- The bytes of a held payload lie in its block, behind the header. -/
theorem bytes_subset (invariant : HeapInvariant world blocks) {payload : Payload} {block : Block}
    (member : block ∈ blocks) (asked : block.request = some payload.size)
    (same : block.address + headerSize = payload.address) :
    payload.bytes ⊆ ByteMemory.extent block.address block.size := by
  intro target inside
  have room := invariant.requests block member payload.size asked
  have bounds := ByteMemory.mem_extent.mp inside
  exact ByteMemory.mem_extent.mpr ⟨by omega, by omega⟩

/-- What a step that returned a pointer says about the row of blocks: the new
payload is a live block of it, carved from a block that was free. -/
theorem new_payload (invariant : HeapInvariant world blocks) {layout : Layout} {result : Nat}
    {next : HeapWorld} (taken : HeapStep world (.allocate layout result) next)
    (real : result ≠ null) :
    Exists fun row => HeapInvariant next row ∧
      (Exists fun block => block ∈ row ∧ block.request = some layout.size ∧
        block.address + headerSize = result) ∧
      Exists fun old => old ∈ blocks ∧ old.isFree = true ∧
        Payload.bytes ⟨result, layout.size⟩ ⊆ ByteMemory.extent old.address old.size := by
  cases taken with
  | allocate call =>
      rcases invariant.allocate call with rfl | allocation
      · exact absurd rfl real
      · rcases allocation.carved with
          ⟨before, block, after, needed, rfl, free, fits, room, same, kept⟩
        rcases carve_eq layout.size fits with ⟨extent, tail, carved, _⟩
        refine ⟨_, kept, ⟨⟨block.address, extent, some layout.size⟩, ?_, rfl, same.symm⟩,
          block, by simp, free, ?_⟩
        · simp [carved]
        · intro target inside
          have bounds := ByteMemory.mem_extent.mp inside
          simp only [same] at bounds
          exact ByteMemory.mem_extent.mpr ⟨by omega, by omega⟩

theorem call_untouched_block (invariant : HeapInvariant world blocks) {event : HeapEvent}
    {next : HeapWorld} (taken : HeapStep world event next) (call : event ≠ .write)
    {payload : Payload} (stays : payload ∈ next.held) {block : Block} (member : block ∈ blocks)
    (asked : block.request = some payload.size)
    (same : block.address + headerSize = payload.address) :
    Set.EqOn next.memory world.memory (ByteMemory.extent block.address block.size) := by
  have live := Block.live_of_request asked
  cases taken with
  | allocate answered =>
      rcases invariant.allocate answered with rfl | allocation
      · exact Set.eqOn_refl _ _
      · exact allocation.untouched block member live
  | deallocate otherHeld answered =>
      have deallocation := invariant.deallocate otherHeld answered
      refine deallocation.untouched block member live ?_
      intro sameBlock
      rcases (invariant.held _).mp otherHeld with ⟨other, inBlocks, otherAsked, otherSame⟩
      have equal : block = other := invariant.shape.eq_of_address_eq member inBlocks
        (Nat.add_right_cancel (sameBlock.trans otherSame.symm))
      subst equal
      have samePayload := Payload.ext (same.symm.trans sameBlock)
        (Option.some.inj (asked.symm.trans otherAsked))
      exact (Finset.mem_erase.mp stays).1 samePayload
  | write _ => exact absurd rfl call

theorem call_untouched (invariant : HeapInvariant world blocks) {event : HeapEvent}
    {next : HeapWorld} (taken : HeapStep world event next) (call : event ≠ .write)
    {payload : Payload} (held : payload ∈ world.held) (stays : payload ∈ next.held) :
    Set.EqOn next.memory world.memory payload.bytes := by
  rcases (invariant.held payload).mp held with ⟨block, member, asked, same⟩
  exact (invariant.call_untouched_block taken call stays member asked same).mono
    (invariant.bytes_subset member asked same)

theorem call_header (invariant : HeapInvariant world blocks) {event : HeapEvent}
    {next : HeapWorld} (taken : HeapStep world event next) (call : event ≠ .write)
    {payload : Payload} (held : payload ∈ world.held) (stays : payload ∈ next.held) :
    sizeAt next.memory (payload.address - headerSize) =
      sizeAt world.memory (payload.address - headerSize) := by
  rcases (invariant.held payload).mp held with ⟨block, member, asked, same⟩
  have size := (invariant.shape.sized block member).2
  unfold headerSize at size
  rw [← same, Nat.add_sub_cancel]
  apply sizeAt_congr
  intro target lower upper
  exact invariant.call_untouched_block taken call stays member asked same
    (ByteMemory.mem_extent.mpr ⟨lower, by omega⟩)

theorem isolates (invariant : HeapInvariant world blocks) : IsolatesClients world where
  aligned := by
    intro layout result next taken real
    rcases invariant.new_payload taken real with ⟨row, kept, ⟨block, member, _, same⟩, _⟩
    rw [← same]
    exact Nat.dvd_add (kept.represents.multiples block member).1 (Nat.dvd_refl 8)
  inside := by
    intro layout result next taken real
    have sameBounds := (invariant.step taken).2
    rcases invariant.new_payload taken real with ⟨row, kept, ⟨block, member, asked, same⟩, _⟩
    have bounds := kept.shape.tiles.bounds member
    have room := kept.requests block member _ asked
    omega
  awayFromPayloads := by
    intro layout result next taken real payload held
    rcases invariant.new_payload taken real with ⟨_, _, _, old, member, free, within⟩
    rcases (invariant.held payload).mp held with ⟨block, inBlocks, asked, same⟩
    have apart := invariant.shape.apart_of_live_of_free inBlocks (Block.live_of_request asked)
      member free
    exact Disjoint.mono within (invariant.bytes_subset inBlocks asked same)
      (ByteMemory.disjoint_extent apart.symm)
  awayFromHeaders := by
    intro layout result next taken real payload held
    rcases invariant.new_payload taken real with ⟨row, kept, ⟨block, member, asked, same⟩, _⟩
    rcases (kept.held payload).mp held with ⟨other, inRow, _, otherSame⟩
    have room := kept.requests block member _ asked
    have size := (kept.shape.sized other inRow).2
    apply ByteMemory.disjoint_extent
    simp only
    rcases kept.shape.tiles.apart member inRow with rfl | earlier | later
    · omega
    · omega
    · omega
  awayFromFree := by
    intro layout result next taken real
    rcases invariant.new_payload taken real with ⟨row, kept, ⟨block, member, asked, same⟩, _⟩
    refine ⟨freeAddresses row, kept.shape.linked, ?_⟩
    intro node inList
    rcases mem_freeAddresses.mp inList with ⟨other, inRow, free, rfl⟩
    have apart := kept.shape.apart_of_live_of_free member (Block.live_of_request asked) inRow free
    have within := @bytes_subset next row kept ⟨result, layout.size⟩ block member asked same
    rw [kept.shape.headers other inRow]
    exact Disjoint.mono_left within (ByteMemory.disjoint_extent apart)
  untouched := by
    intro event next taken call payload held stays
    exact invariant.call_untouched taken call held stays
  allocateReturns := by
    intro layout
    rcases invariant.allocate_returns layout with ⟨fuel, answer, call⟩
    exact ⟨_, _, HeapStep.allocate call⟩
  deallocateReturns := by
    intro payload held
    rcases invariant.deallocate_returns held with ⟨fuel, answer, call⟩
    exact ⟨_, HeapStep.deallocate held call⟩

end HeapInvariant

/-- Clients are isolated from each other and from the heap's own data, in every
state that any run reaches. -/
theorem heap_isolates_clients (region : HeapRegion) (memory : ByteMemory)
    {events : List HeapEvent} {world : HeapWorld}
    (run : Run HeapStep (region.world memory) events world) : IsolatesClients world := by
  rcases heapRun_sound run with ⟨⟨blocks, invariant⟩, _⟩
  exact invariant.isolates

theorem heap_isolates_clients_smallRegion :
    IsolatesClients oneTaken ∧
      Disjoint (Payload.bytes ⟨0x1020, 8⟩) (Payload.bytes ⟨0x1008, 10⟩) := by
  have isolates := heap_isolates_clients smallRegion (fun _ => 0) oneTaken_run
  exact ⟨isolates, isolates.awayFromPayloads _ _ _ twoTaken_step (by decide) _ (by decide +kernel)⟩

end Memory
end Goatos
