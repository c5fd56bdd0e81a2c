import Goatos.Memory.HeapLayout

namespace Goatos
namespace Memory

open Library

/-!
# Headers and links describe a row of blocks

`HeapShape` says that a row of blocks is what the headers in memory describe,
and that the free list is the chain of its free blocks.  It does not ask for the
row to be coalesced, because between two merges of a deallocation it is not.

`HeapShape.replace` is the one rule for surgery on the list.  A stretch of the
row may be exchanged for another one that covers the same bytes, provided that
nothing was written outside that stretch except the link that leads into it.
Carving a block, linking a block in and merging two blocks are instances.
-/

/-- The row of blocks that headers and links in memory describe: the blocks tile the
heap, each has a header with its size, and the free ones are linked in address
order. -/
structure HeapShape (start stop freeList : Nat) (memory : ByteMemory) (blocks : List Block) :
    Prop where
  positive : null < start
  bounded : stop < 2 ^ 32
  tiles : Tiles Block.address Block.size start blocks stop
  sized : forall block, block ∈ blocks -> block.Sized
  headers : forall block, block ∈ blocks -> sizeAt memory block.address = block.size
  linked : Linked (nextAt memory) null freeList (freeAddresses blocks)

/-- What surgery on the stretch `[low, high)` may do to memory: write inside
the stretch, and redirect the link of the free block before it. -/
structure Surgery (low high prev newHead : Nat) (memory memory' : ByteMemory) : Prop where
  outside : forall target, (target < low ∨ high ≤ target) ->
    (prev = null ∨ target < prev + 4 ∨ prev + 8 ≤ target) -> memory' target = memory target
  relinked : prev ≠ null -> nextAt memory' prev = newHead

namespace HeapShape

variable {start stop freeList : Nat} {memory memory' : ByteMemory} {before after : List Block}

/-- A live block and a free block lie apart. -/
theorem apart_of_live_of_free {blocks : List Block}
    (shape : HeapShape start stop freeList memory blocks) {block other : Block}
    (member : block ∈ blocks) (live : block.isFree = false) (inBlocks : other ∈ blocks)
    (free : other.isFree = true) :
    block.address + block.size ≤ other.address ∨ other.address + other.size ≤ block.address :=
  (shape.tiles.apart member inBlocks).resolve_left (Block.ne_of_live_of_free live free)

theorem eq_of_address_eq {blocks : List Block}
    (shape : HeapShape start stop freeList memory blocks) {block other : Block}
    (member : block ∈ blocks) (inBlocks : other ∈ blocks)
    (same : block.address = other.address) : block = other := by
  have size := (shape.sized block member).2
  have otherSize := (shape.sized other inBlocks).2
  unfold headerSize at size otherSize
  rcases shape.tiles.apart member inBlocks with equal | earlier | later
  · exact equal
  · omega
  · omega

theorem freeAddresses_pairwise {blocks : List Block} {low high : Nat}
    (tiles : Tiles Block.address Block.size low blocks high)
    (sized : forall block, block ∈ blocks -> block.Sized) :
    (freeAddresses blocks).Pairwise (fun left right => left + 8 ≤ right) := by
  refine List.pairwise_map.mpr (List.Pairwise.filter _ (tiles.pairwise.imp_of_mem ?_))
  intro left right inLeft _ order
  exact Nat.le_trans (Nat.add_le_add_left (sized left inLeft).2 _) order

/-- The last free block of a row, or null. -/
theorem lastFree_cases {blocks : List Block} {low high prev : Nat}
    (tiles : Tiles Block.address Block.size low blocks high)
    (sized : forall block, block ∈ blocks -> block.Sized)
    (last : prev = (freeAddresses blocks).getLastD null) :
    (freeAddresses blocks = [] ∧ prev = null) ∨
      Exists fun early => freeAddresses blocks = early ++ [prev] ∧ low ≤ prev ∧ prev + 8 ≤ high ∧
        forall address, address ∈ early -> address + 8 ≤ prev := by
  rcases List.eq_nil_or_concat (freeAddresses blocks) with empty | ⟨early, final, split⟩
  · rw [empty] at last
    exact Or.inl ⟨empty, last⟩
  · rw [List.concat_eq_append] at split
    have same : prev = final := by
      rw [last, split]
      simp
    subst same
    have member : prev ∈ freeAddresses blocks := by
      rw [split]
      exact List.mem_append_right _ (List.mem_singleton.mpr rfl)
    rcases mem_freeAddresses.mp member with ⟨block, inBlocks, _, address⟩
    have bounds := tiles.bounds inBlocks
    have size := (sized block inBlocks).2
    have order := freeAddresses_pairwise tiles sized
    rw [split] at order
    refine Or.inr ⟨early, split, address ▸ bounds.1, ?_, ?_⟩
    · unfold headerSize at size
      omega
    · intro other inEarly
      exact (List.pairwise_append.mp order).2.2 other inEarly prev (List.mem_singleton.mpr rfl)

section Replace

variable {low high prev newHead : Nat}

private theorem sizeAt_before (surgery : Surgery low high prev newHead memory memory')
    (tiles : Tiles Block.address Block.size start before low)
    (sized : forall block, block ∈ before -> block.Sized)
    (last : prev = (freeAddresses before).getLastD null) {block : Block}
    (member : block ∈ before) : sizeAt memory' block.address = sizeAt memory block.address := by
  have size := (sized block member).2
  have bounds := tiles.bounds member
  unfold headerSize at size
  apply sizeAt_congr
  intro target lower upper
  refine surgery.outside target (Or.inl (by omega)) ?_
  rcases lastFree_cases tiles sized last with ⟨_, isNull⟩ | ⟨early, split, _⟩
  · exact Or.inl isNull
  · have isFree : prev ∈ freeAddresses before := by
      rw [split]
      exact List.mem_append_right _ (List.mem_singleton.mpr rfl)
    rcases mem_freeAddresses.mp isFree with ⟨free, inBefore, _, rfl⟩
    have freeSize := (sized free inBefore).2
    unfold headerSize at freeSize
    rcases tiles.apart member inBefore with rfl | earlier | later
    · exact Or.inr (Or.inl upper)
    · exact Or.inr (Or.inl (by omega))
    · exact Or.inr (Or.inr (by omega))

private theorem unchanged_after (surgery : Surgery low high prev newHead memory memory')
    (tiles : Tiles Block.address Block.size start before low)
    (sized : forall block, block ∈ before -> block.Sized)
    (last : prev = (freeAddresses before).getLastD null) (order : low ≤ high) {target : Nat}
    (later : high ≤ target) : memory' target = memory target := by
  refine surgery.outside target (Or.inr later) ?_
  rcases lastFree_cases tiles sized last with ⟨_, isNull⟩ | ⟨_, _, _, upper, _⟩
  · exact Or.inl isNull
  · exact Or.inr (Or.inr (by omega))

theorem linked_after (old : List Block)
    (shape : HeapShape start stop freeList memory (before ++ (old ++ after)))
    (surgery : Surgery low high prev newHead memory memory')
    (tilesBefore : Tiles Block.address Block.size start before low)
    (tilesOld : Tiles Block.address Block.size low old high)
    (tilesAfter : Tiles Block.address Block.size high after stop)
    (last : prev = (freeAddresses before).getLastD null) :
    Linked (nextAt memory') null ((freeAddresses after).headD null) (freeAddresses after) := by
  have whole := shape.linked
  rw [freeAddresses_append, freeAddresses_append, ← List.append_assoc] at whole
  refine whole.drop.congr ?_
  intro address member
  rcases mem_freeAddresses.mp member with ⟨block, inAfter, _, rfl⟩
  have bounds := tilesAfter.bounds inAfter
  apply nextAt_congr
  intro target lower _
  exact unchanged_after surgery tilesBefore
    (fun block inBefore => shape.sized block (List.mem_append_left _ inBefore)) last
    tilesOld.le (by omega)

/-- Exchange a stretch of the row for another one over the same bytes.  All
operations are such exchanges, and this lemma has what they share. -/
theorem replace (old new : List Block)
    (shape : HeapShape start stop freeList memory (before ++ (old ++ after)))
    (surgery : Surgery low high prev newHead memory memory')
    (tilesBefore : Tiles Block.address Block.size start before low)
    (tilesOld : Tiles Block.address Block.size low old high)
    (tilesNew : Tiles Block.address Block.size low new high)
    (tilesAfter : Tiles Block.address Block.size high after stop)
    (last : prev = (freeAddresses before).getLastD null)
    (sized : forall block, block ∈ new -> block.Sized)
    (headers : forall block, block ∈ new -> sizeAt memory' block.address = block.size)
    (chain : Linked (nextAt memory') null newHead (freeAddresses new ++ freeAddresses after)) :
    HeapShape start stop (if prev = null then newHead else freeList) memory'
      (before ++ (new ++ after)) := by
  have sizedBefore : forall block, block ∈ before -> block.Sized :=
    fun block member => shape.sized block (List.mem_append_left _ member)
  have inAfter : forall block, block ∈ after -> block ∈ before ++ (old ++ after) :=
    fun block member => List.mem_append_right _ (List.mem_append_right _ member)
  refine ⟨shape.positive, shape.bounded, ?_, ?_, ?_, ?_⟩
  · exact tiles_append.mpr ⟨low, tilesBefore, tiles_append.mpr ⟨high, tilesNew, tilesAfter⟩⟩
  · intro block member
    rcases List.mem_append.mp member with early | late
    · exact sizedBefore block early
    · rcases List.mem_append.mp late with fresh | later
      · exact sized block fresh
      · exact shape.sized block (inAfter block later)
  · intro block member
    rcases List.mem_append.mp member with early | late
    · rw [sizeAt_before surgery tilesBefore sizedBefore last early]
      exact shape.headers block (List.mem_append_left _ early)
    · rcases List.mem_append.mp late with fresh | later
      · exact headers block fresh
      · have bounds := tilesAfter.bounds later
        rw [← shape.headers block (inAfter block later)]
        apply sizeAt_congr
        intro target lower _
        exact unchanged_after surgery tilesBefore sizedBefore last tilesOld.le (by omega)
  · rw [freeAddresses_append, freeAddresses_append]
    rcases lastFree_cases tilesBefore sizedBefore last with
      ⟨empty, isNull⟩ | ⟨early, split, lower, upper, apart⟩
    · rw [empty, if_pos isNull]
      exact chain
    · have positive := shape.positive
      have real : prev ≠ null := by
        unfold null at positive ⊢
        omega
      have whole := shape.linked
      rw [freeAddresses_append, freeAddresses_append, split, List.append_assoc] at whole
      rw [split, List.append_assoc, if_neg real]
      refine whole.splice ?_ (surgery.relinked real) chain
      intro address inEarly
      have gap := apart address inEarly
      apply nextAt_congr
      intro target _ above
      exact surgery.outside target (Or.inl (by omega)) (Or.inr (Or.inl (by omega)))

end Replace

/-- Writes that spare the headers keep the shape. -/
theorem congr {blocks : List Block} (shape : HeapShape start stop freeList memory blocks)
    (agree : forall block, block ∈ blocks -> forall target, block.address ≤ target ->
      target < block.address + headerSize -> memory' target = memory target) :
    HeapShape start stop freeList memory' blocks := by
  unfold headerSize at agree
  refine ⟨shape.positive, shape.bounded, shape.tiles, shape.sized, ?_, ?_⟩
  · intro block member
    rw [← shape.headers block member]
    apply sizeAt_congr
    intro target lower upper
    exact agree block member target lower (by omega)
  · refine shape.linked.congr ?_
    intro address member
    rcases mem_freeAddresses.mp member with ⟨block, inBlocks, _, rfl⟩
    apply nextAt_congr
    intro target lower upper
    exact agree block inBlocks target (by omega) upper

end HeapShape

end Memory
end Goatos
