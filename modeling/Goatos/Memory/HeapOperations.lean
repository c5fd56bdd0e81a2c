import Goatos.Memory.HeapShape

namespace Goatos
namespace Memory

open Library

/-!
# What the heap operations do to the row of blocks

Each operation is a handful of stores into headers.  The lemmas below say which
row of blocks the headers describe afterwards, and which bytes were not written.
-/

namespace Heap

variable {heap : Heap} {memory : ByteMemory} {prev newNext target : Nat}

theorem unlink_heap : (heap.unlink memory prev newNext).1 =
    { heap with freeList := if prev = null then newNext else heap.freeList } := by
  unfold unlink
  split
  · rfl
  · rfl

theorem unlink_outside (outside : prev = null ∨ target < prev + 4 ∨ prev + 8 ≤ target) :
    (heap.unlink memory prev newNext).2 target = memory target := by
  unfold unlink
  split
  · rfl
  · rename_i real
    exact setNext_outside (outside.resolve_left real)

theorem unlink_relinked (real : prev ≠ null) (fits : newNext < 2 ^ 32) :
    nextAt (heap.unlink memory prev newNext).2 prev = newNext := by
  rw [unlink, if_neg real]
  exact nextAt_setNext fits

/-- The link that `unlink` writes is the only thing a header away from it can
notice. -/
theorem unlink_apart {block : Nat} (apart : prev = null ∨ prev + 8 ≤ block) :
    sizeAt (heap.unlink memory prev newNext).2 block = sizeAt memory block ∧
      nextAt (heap.unlink memory prev newNext).2 block = nextAt memory block := by
  constructor
  · apply sizeAt_congr
    intro target lower _
    exact unlink_outside (by omega)
  · apply nextAt_congr
    intro target lower _
    exact unlink_outside (by omega)

theorem handOut_eq {current size : Nat} (fits : size < 2 ^ 32) :
    heap.handOut memory current size = (current + headerSize,
      { heap with
        used := heap.used + size
        allocations := (heap.allocations + 1) % 2 ^ 32 },
      setNext (setSize memory current size) current null) := by
  rw [handOut, sizeAt_setNext, sizeAt_setSize fits]

end Heap

namespace HeapShape

variable {start stop freeList : Nat} {memory : ByteMemory} {before after : List Block}
  {block : Block}

theorem tiles_around (shape : HeapShape start stop freeList memory (before ++ block :: after)) :
    Tiles Block.address Block.size start before block.address ∧
      Tiles Block.address Block.size (block.address + block.size) after stop := by
  rcases tiles_append.mp shape.tiles with ⟨middle, early, same, late⟩
  subst same
  exact ⟨early, late⟩

theorem sized_before (shape : HeapShape start stop freeList memory (before ++ after)) :
    forall other, other ∈ before -> other.Sized :=
  fun other member => shape.sized other (List.mem_append_left _ member)

/-- The free block before a given one ends before it begins. -/
theorem lastFree_le (shape : HeapShape start stop freeList memory (before ++ block :: after))
    {prev : Nat} (last : prev = (freeAddresses before).getLastD null) :
    prev = null ∨ prev + 8 ≤ block.address := by
  rcases lastFree_cases shape.tiles_around.1 shape.sized_before last with
    ⟨_, isNull⟩ | ⟨_, _, _, upper, _⟩
  · exact Or.inl isNull
  · exact Or.inr upper

theorem nextAt_eq (shape : HeapShape start stop freeList memory (before ++ block :: after))
    (free : block.isFree = true) :
    nextAt memory block.address = (freeAddresses after).headD null := by
  have whole := shape.linked
  rw [freeAddresses_append, freeAddresses_cons_of_free free] at whole
  exact whole.drop.2.2.head_eq

theorem headFree_cases (shape : HeapShape start stop freeList memory (before ++ after)) :
    (freeAddresses after = [] ∧ (freeAddresses after).headD null = null) ∨
      Exists fun other => other ∈ after ∧ other.isFree = true ∧
        (freeAddresses after).headD null = other.address ∧ other.address < 2 ^ 32 := by
  cases split : freeAddresses after with
  | nil => exact Or.inl ⟨rfl, rfl⟩
  | cons address rest =>
      have member : address ∈ freeAddresses after := by
        rw [split]
        exact List.mem_cons_self
      rcases mem_freeAddresses.mp member with ⟨other, inAfter, free, same⟩
      have bounds := shape.tiles.bounds (List.mem_append_right before inAfter)
      have bounded := shape.bounded
      exact Or.inr ⟨other, inAfter, free, same.symm, by omega⟩

theorem headFree_lt (shape : HeapShape start stop freeList memory (before ++ after)) :
    (freeAddresses after).headD null < 2 ^ 32 := by
  rcases shape.headFree_cases with ⟨_, isNull⟩ | ⟨_, _, _, same, small⟩
  · rw [isNull]
    decide
  · rw [same]
    exact small

theorem nextFree_lt (shape : HeapShape start stop freeList memory (before ++ block :: after)) :
    (freeAddresses after).headD null < 2 ^ 32 := by
  have whole : HeapShape start stop freeList memory ((before ++ [block]) ++ after) := by
    rwa [List.append_assoc]
  exact whole.headFree_lt

/-! ## Taking a block -/

theorem carve_sized {needed request : Nat} (sized : block.Sized) (aligned : 8 ∣ needed)
    (large : headerSize ≤ needed) :
    forall other, other ∈ block.carve needed request -> other.Sized := by
  intro other member
  unfold Block.carve at member
  split at member
  · rename_i room
    rcases List.mem_cons.mp member with rfl | tail
    · exact ⟨aligned, large⟩
    · rw [List.mem_singleton.mp tail]
      exact ⟨Nat.dvd_sub sized.1 aligned, room⟩
  · rw [List.mem_singleton.mp member]
    exact sized

theorem carve_tiles {needed request : Nat} (fits : needed ≤ block.size) :
    Tiles Block.address Block.size block.address (block.carve needed request)
      (block.address + block.size) := by
  unfold Block.carve
  split
  · refine ⟨rfl, rfl, ?_⟩
    change block.address + needed + (block.size - needed) = block.address + block.size
    omega
  · exact ⟨rfl, rfl⟩

/-- A tail too small for a header is no tail at all, because sizes and requests are
multiples of eight and a header is eight bytes. -/
theorem size_eq_needed {needed : Nat} (sized : block.Sized) (aligned : 8 ∣ needed)
    (fits : needed ≤ block.size) (small : ¬ headerSize ≤ block.size - needed) :
    block.size = needed := by
  have multiple := sized.1
  unfold headerSize at small
  omega

/-- The outcome of `take`: the request is carved out of the block, and nothing
was written but bytes of that block and the link that led to it. -/
def Taken (heap : Heap) (memory : ByteMemory) (before : List Block) (block : Block)
    (after : List Block) (needed request prev : Nat) : Prop :=
  Exists fun freeList => Exists fun memory' =>
    heap.take memory needed prev block.address = (block.address + headerSize,
      { heap with
        freeList := freeList
        used := heap.used + liveBytes (block.carve needed request)
        allocations := (heap.allocations + 1) % 2 ^ 32 }, memory') ∧
    HeapShape heap.heapStart heap.heapEnd freeList memory'
      (before ++ (block.carve needed request ++ after)) ∧
    forall target, (target < block.address ∨ block.address + block.size ≤ target) ->
      (prev = null ∨ target < prev + 4 ∨ prev + 8 ≤ target) -> memory' target = memory target

section Take

variable {heap : Heap} {needed prev : Nat}

/-- A block with room for another one is split, and the tail takes its place on
the free list. -/
private theorem take_split
    (shape : HeapShape heap.heapStart heap.heapEnd heap.freeList memory (before ++ block :: after))
    (free : block.isFree = true) (request : Nat) (aligned : 8 ∣ needed)
    (large : headerSize ≤ needed) (fits : needed ≤ block.size)
    (last : prev = (freeAddresses before).getLastD null)
    (room : headerSize ≤ block.size - needed) :
    Taken heap memory before block after needed request prev := by
  have sized := shape.sized block (by simp)
  have gap := shape.lastFree_le last
  have bounds := shape.tiles.bounds (List.mem_append_right before List.mem_cons_self)
  have bounded := shape.bounded
  have positive := shape.positive
  have nextSmall := shape.nextFree_lt
  rcases shape.tiles_around with ⟨tilesBefore, tilesAfter⟩
  have carved : block.carve needed request = [⟨block.address, needed, some request⟩,
      ⟨block.address + needed, block.size - needed, none⟩] := if_pos room
  have tiles := @carve_tiles block needed request fits
  have newSized := @carve_sized block needed request sized aligned large
  rw [carved] at tiles newSized
  rw [Taken, carved, Heap.take]
  simp only [shape.headers block (by simp), shape.nextAt_eq free, if_pos room]
  unfold headerSize at large room
  unfold null at positive
  rw [Heap.handOut_eq (by omega), Heap.unlink_heap]
  have surgery : Surgery block.address (block.address + block.size) prev (block.address + needed)
      memory (setNext (setSize (heap.unlink (setNext (setSize memory (block.address + needed)
        (block.size - needed)) (block.address + needed) ((freeAddresses after).headD null)) prev
        (block.address + needed)).2 block.address needed) block.address null) := by
    constructor
    · intro target out away
      rw [setNext_outside (by omega), setSize_outside (by omega), Heap.unlink_outside away,
        setNext_outside (by omega), setSize_outside (by omega)]
    · intro real
      rw [nextAt_setNext_of_apart (by omega), nextAt_setSize_of_apart (by omega)]
      exact Heap.unlink_relinked real (by omega)
  have tailHeader := fun inner => @Heap.unlink_apart heap inner prev (block.address + needed)
    (block.address + needed) (by omega)
  refine ⟨if prev = null then block.address + needed else heap.freeList, _, rfl, ?_,
    surgery.outside⟩
  refine shape.replace [block] _ surgery tilesBefore ⟨rfl, rfl⟩ tiles tilesAfter last newSized ?_ ?_
  · intro other member
    rcases List.mem_cons.mp member with rfl | tail
    · rw [sizeAt_setNext, sizeAt_setSize (by omega)]
    · rw [List.mem_singleton.mp tail, sizeAt_setNext_of_apart (by simp only; omega),
        sizeAt_setSize_of_apart (by simp only; omega), (tailHeader _).1, sizeAt_setNext,
        sizeAt_setSize (by omega)]
  · refine ⟨rfl, by unfold null; simp only; omega, ?_⟩
    rw [nextAt_setNext_of_apart (by simp only; omega), nextAt_setSize_of_apart (by simp only; omega),
      (tailHeader _).2, nextAt_setNext nextSmall]
    exact shape.linked_after [block] surgery tilesBefore ⟨rfl, rfl⟩ tilesAfter last

private theorem take_whole
    (shape : HeapShape heap.heapStart heap.heapEnd heap.freeList memory (before ++ block :: after))
    (free : block.isFree = true) (request : Nat) (aligned : 8 ∣ needed)
    (fits : needed ≤ block.size) (last : prev = (freeAddresses before).getLastD null)
    (small : ¬ headerSize ≤ block.size - needed) :
    Taken heap memory before block after needed request prev := by
  have sized := shape.sized block (by simp)
  have gap := shape.lastFree_le last
  have bounds := shape.tiles.bounds (List.mem_append_right before List.mem_cons_self)
  have bounded := shape.bounded
  have nextSmall := shape.nextFree_lt
  have large := sized.2
  rcases shape.tiles_around with ⟨tilesBefore, tilesAfter⟩
  have carved : block.carve needed request = [⟨block.address, block.size, some request⟩] :=
    if_neg small
  have exact := size_eq_needed sized aligned fits small
  have whole : needed + (block.size - needed) = block.size := by omega
  rw [Taken, carved, Heap.take]
  simp only [shape.headers block (by simp), shape.nextAt_eq free, if_neg small, whole]
  unfold headerSize at large
  rw [Heap.handOut_eq (by omega), Heap.unlink_heap]
  have surgery : Surgery block.address (block.address + block.size) prev
      ((freeAddresses after).headD null) memory (setNext (setSize (heap.unlink memory prev
        ((freeAddresses after).headD null)).2 block.address block.size) block.address null) := by
    constructor
    · intro target out away
      rw [setNext_outside (by omega), setSize_outside (by omega), Heap.unlink_outside away]
    · intro real
      rw [nextAt_setNext_of_apart (by omega), nextAt_setSize_of_apart (by omega)]
      exact Heap.unlink_relinked real nextSmall
  refine ⟨if prev = null then (freeAddresses after).headD null else heap.freeList, _, rfl, ?_,
    surgery.outside⟩
  refine shape.replace [block] [⟨block.address, block.size, some request⟩] surgery tilesBefore
    ⟨rfl, rfl⟩ ⟨rfl, rfl⟩ tilesAfter last ?_ ?_ ?_
  · intro other member
    rw [List.mem_singleton.mp member]
    exact sized
  · intro other member
    rw [List.mem_singleton.mp member, sizeAt_setNext, sizeAt_setSize (by omega)]
  · exact shape.linked_after [block] surgery tilesBefore ⟨rfl, rfl⟩ tilesAfter last

/-- Whatever its size, a block that is large enough can be taken. -/
theorem take
    (shape : HeapShape heap.heapStart heap.heapEnd heap.freeList memory (before ++ block :: after))
    (free : block.isFree = true) (request : Nat) (aligned : 8 ∣ needed)
    (large : headerSize ≤ needed) (fits : needed ≤ block.size)
    (last : prev = (freeAddresses before).getLastD null) :
    Taken heap memory before block after needed request prev := by
  by_cases room : headerSize ≤ block.size - needed
  · exact shape.take_split free request aligned large fits last room
  · exact shape.take_whole free request aligned fits last room

end Take

/-! ## Giving a block back -/

/-- The free list, or the link of the last free block before it, leads to a free
block. -/
theorem leads_to (shape : HeapShape start stop freeList memory (before ++ block :: after))
    (free : block.isFree = true) {prev : Nat} (last : prev = (freeAddresses before).getLastD null) :
    (prev ≠ null -> nextAt memory prev = block.address) ∧
      (if prev = null then block.address else freeList) = freeList := by
  have whole := shape.linked
  rw [freeAddresses_append, freeAddresses_cons_of_free free] at whole
  rcases lastFree_cases shape.tiles_around.1 shape.sized_before last with
    ⟨empty, isNull⟩ | ⟨early, split, _⟩
  · rw [empty] at whole
    exact ⟨fun real => absurd isNull real, (if_pos isNull).trans whole.1.symm⟩
  · rw [split, List.append_assoc] at whole
    have onward := whole.drop
    have real : prev ≠ null := onward.2.1
    exact ⟨fun _ => onward.2.2.1, if_neg real⟩

/-- Absorbing the right one of two adjacent free blocks merges them. -/
theorem absorb {left right : Block}
    (shape : HeapShape start stop freeList memory (before ++ left :: right :: after))
    (leftFree : left.isFree = true) (rightFree : right.isFree = true) :
    HeapShape start stop freeList (Heap.absorb memory left.address right.address)
      (before ++ ⟨left.address, left.size + right.size, none⟩ :: after) := by
  have shape' : HeapShape start stop freeList memory ((before ++ [left]) ++ right :: after) := by
    rwa [List.append_assoc]
  have leftSized := shape.sized left (by simp)
  have rightSized := shape.sized right (by simp)
  have leftHeader := shape.headers left (by simp)
  have rightHeader := shape.headers right (by simp)
  have next := shape'.nextAt_eq rightFree
  have adjacent : right.address = left.address + left.size := shape.tiles_around.2.1
  have bounds := shape'.tiles_around.2.le
  have bounded := shape.bounded
  have large := leftSized.2
  have leads := shape.leads_to leftFree rfl
  have gap := shape.lastFree_le rfl
  have real := shape.linked.ne_last (mem_freeAddresses.mpr ⟨left, by simp, leftFree, rfl⟩)
  rcases shape.tiles_around with ⟨tilesBefore, _, tilesAfter⟩
  unfold headerSize at large
  have surgery : Surgery left.address (left.address + left.size + right.size)
      ((freeAddresses before).getLastD null) left.address memory
      (Heap.absorb memory left.address right.address) := by
    constructor
    · intro target out away
      rw [Heap.absorb, setNext_outside (by omega), setSize_outside (by omega)]
    · intro isReal
      rw [Heap.absorb, nextAt_setNext_of_apart (by omega), nextAt_setSize_of_apart (by omega)]
      exact leads.1 isReal
  rw [← leads.2]
  refine shape.replace [left, right] [⟨left.address, left.size + right.size, none⟩] surgery
    tilesBefore ⟨rfl, adjacent, rfl⟩ ⟨rfl, (Nat.add_assoc _ _ _).symm⟩ tilesAfter rfl ?_ ?_ ?_
  · intro other member
    rw [List.mem_singleton.mp member]
    exact ⟨Nat.dvd_add leftSized.1 rightSized.1, Nat.le_trans leftSized.2 (Nat.le_add_right _ _)⟩
  · intro other member
    rw [List.mem_singleton.mp member, Heap.absorb, sizeAt_setNext, sizeAt_setSize (by omega),
      leftHeader, rightHeader]
  · have link : nextAt (Heap.absorb memory left.address right.address) left.address =
        (freeAddresses after).headD null := by
      rw [Heap.absorb, nextAt_setNext (nextAt_lt _ _), next]
    refine ⟨rfl, real, ?_⟩
    rw [link]
    exact shape.linked_after [left, right] surgery tilesBefore ⟨rfl, adjacent, rfl⟩ tilesAfter rfl

/-- The test for touching the next free block is right: a free block absorbs its
successor exactly when that is free. -/
theorem join_forward (shape : HeapShape start stop freeList memory (before ++ block :: after))
    (free : block.isFree = true) {current : Nat}
    (first : current = (freeAddresses after).headD null) :
    HeapShape start stop freeList
      (if current ≠ null ∧ block.address + sizeAt memory block.address = current then
        Heap.absorb memory block.address current else memory)
      (before ++ join [block] after) := by
  have header := shape.headers block (by simp)
  have tilesAfter := shape.tiles_around.2
  rw [header]
  cases after with
  | nil =>
      have untouched : ¬ (current ≠ null ∧ block.address + block.size = current) :=
        fun both => both.1 first
      rw [if_neg untouched]
      exact shape
  | cons next rest =>
      have touching : next.address = block.address + block.size := tilesAfter.1
      cases nextFree : next.isFree with
      | true =>
          rw [freeAddresses_cons_of_free nextFree] at first
          have real : next.address ≠ null :=
            shape.linked.ne_last (mem_freeAddresses.mpr ⟨next, by simp, nextFree, rfl⟩)
          subst first
          rw [List.headD_cons, if_pos ⟨real, touching.symm⟩, join, if_pos ⟨free, nextFree⟩]
          exact shape.absorb free nextFree
      | false =>
          rw [freeAddresses_cons_of_live nextFree] at first
          have tail : HeapShape start stop freeList memory ((before ++ [block, next]) ++ rest) := by
            rwa [List.append_assoc]
          have apart : ¬ (current ≠ null ∧ block.address + block.size = current) := by
            rintro ⟨real, same⟩
            rcases tail.headFree_cases with ⟨_, isNull⟩ | ⟨other, inRest, _, isOther, _⟩
            · exact real (first.trans isNull)
            · have size := (shape.sized next (by simp)).2
              have later := (tilesAfter.2.bounds inRest).1
              unfold headerSize at size
              omega
          rw [if_neg apart, join, if_neg (fun both => by rw [nextFree] at both; cases both.2)]
          exact shape

theorem join_backward (shape : HeapShape start stop freeList memory (before ++ block :: after))
    (free : block.isFree = true) {prev : Nat} (last : prev = (freeAddresses before).getLastD null) :
    HeapShape start stop freeList
      (if prev ≠ null ∧ prev + sizeAt memory prev = block.address then
        Heap.absorb memory prev block.address else memory)
      (join before (block :: after)) := by
  rcases List.eq_nil_or_concat before with rfl | ⟨early, final, rfl⟩
  · have untouched : ¬ (prev ≠ null ∧ prev + sizeAt memory prev = block.address) :=
      fun both => both.1 last
    rw [if_neg untouched]
    exact shape
  · rw [List.concat_eq_append] at shape last ⊢
    have tilesBefore := shape.tiles_around.1
    rcases tiles_append.mp tilesBefore with ⟨middle, tilesEarly, same, touching⟩
    subst same
    have header := shape.headers final (by simp)
    rw [join_append_singleton, join]
    cases finalFree : final.isFree with
    | true =>
        have isFinal : prev = final.address := by
          rw [last, freeAddresses_append, freeAddresses_cons_of_free finalFree]
          simp
        have real : final.address ≠ null :=
          shape.linked.ne_last (mem_freeAddresses.mpr ⟨final, by simp, finalFree, rfl⟩)
        subst isFinal
        rw [header, if_pos ⟨real, touching⟩, if_pos ⟨rfl, free⟩]
        rw [List.append_assoc] at shape
        exact shape.absorb finalFree free
    | false =>
        rw [freeAddresses_append, freeAddresses_cons_of_live finalFree, freeAddresses_nil,
          List.append_nil] at last
        have apart : ¬ (prev ≠ null ∧ prev + sizeAt memory prev = block.address) := by
          rintro ⟨real, same⟩
          have sized := fun other (member : other ∈ early) =>
            shape.sized_before other (List.mem_append_left _ member)
          rcases lastFree_cases tilesEarly sized last with ⟨_, isNull⟩ | ⟨others, split, _⟩
          · exact real isNull
          · have isFree : prev ∈ freeAddresses early := by
              rw [split]
              exact List.mem_append_right _ (List.mem_singleton.mpr rfl)
            rcases mem_freeAddresses.mp isFree with ⟨other, inEarly, _, rfl⟩
            have size := (shape.sized final (by simp)).2
            have bounds := (tilesEarly.bounds inEarly).2
            rw [shape.headers other (by simp [inEarly])] at same
            unfold headerSize at size
            have ends : final.address + final.size = block.address := touching
            omega
        rw [if_neg apart, if_neg (fun both => by cases both.1)]
        rwa [List.append_assoc] at shape

/-- Linking a live block in makes it a free one. -/
theorem link {heap : Heap} {prev : Nat}
    (shape : HeapShape heap.heapStart heap.heapEnd heap.freeList memory (before ++ block :: after))
    (last : prev = (freeAddresses before).getLastD null) :
    HeapShape heap.heapStart heap.heapEnd (if prev = null then block.address else heap.freeList)
      (heap.unlink (setNext (setNext (setSize memory block.address block.size) block.address null)
        block.address ((freeAddresses after).headD null)) prev block.address).2
      (before ++ block.freed :: after) := by
  have sized := shape.sized block (by simp)
  have gap := shape.lastFree_le last
  have bounds := shape.tiles.bounds (List.mem_append_right before List.mem_cons_self)
  have bounded := shape.bounded
  have positive := shape.positive
  have nextSmall := shape.nextFree_lt
  have large := sized.2
  rcases shape.tiles_around with ⟨tilesBefore, tilesAfter⟩
  unfold headerSize at large
  unfold null at positive
  have header := fun inner => @Heap.unlink_apart heap inner prev block.address block.address gap
  have surgery : Surgery block.address (block.address + block.size) prev block.address memory
      (heap.unlink (setNext (setNext (setSize memory block.address block.size) block.address null)
        block.address ((freeAddresses after).headD null)) prev block.address).2 := by
    constructor
    · intro target out away
      rw [Heap.unlink_outside away, setNext_outside (by omega), setNext_outside (by omega),
        setSize_outside (by omega)]
    · intro real
      exact Heap.unlink_relinked real (by omega)
  refine shape.replace [block] [block.freed] surgery tilesBefore ⟨rfl, rfl⟩ ⟨rfl, rfl⟩ tilesAfter
    last ?_ ?_ ?_
  · intro other member
    rw [List.mem_singleton.mp member]
    exact sized
  · intro other member
    rw [List.mem_singleton.mp member]
    change sizeAt _ block.address = block.size
    rw [(header _).1, sizeAt_setNext, sizeAt_setNext, sizeAt_setSize (by omega)]
  · refine ⟨rfl, by unfold null Block.freed; simp only; omega, ?_⟩
    change Linked _ _ (nextAt _ block.address) _
    rw [(header _).2, nextAt_setNext nextSmall]
    exact shape.linked_after [block] surgery tilesBefore ⟨rfl, rfl⟩ tilesAfter last

/-- Giving a live block back marks it free and joins it with both neighbours.  This
is where all the tests of `linkBetween` come together. -/
theorem linkBetween {heap : Heap} {prev current : Nat}
    (shape : HeapShape heap.heapStart heap.heapEnd heap.freeList memory (before ++ block :: after))
    (last : prev = (freeAddresses before).getLastD null)
    (first : current = (freeAddresses after).headD null) :
    Exists fun freeList => Exists fun memory' =>
      heap.linkBetween (setNext (setSize memory block.address block.size) block.address null)
        block.address prev current = ({ heap with freeList := freeList }, memory') ∧
      HeapShape heap.heapStart heap.heapEnd freeList memory'
        (join before (join [block.freed] after)) := by
  have linked := shape.link last
  rw [← first] at linked
  have forward := linked.join_forward Block.isFree_freed first
  rcases @join_singleton after block.freed Block.isFree_freed with ⟨merged, rest, equal, same, free⟩
  rw [equal] at forward
  have backward := forward.join_backward free last
  rw [← equal, same] at backward
  refine ⟨_, _, ?_, backward⟩
  rw [Heap.linkBetween, Heap.unlink_heap]
  rfl

end HeapShape

theorem Heap.absorb_outside {memory : ByteMemory} {left right target : Nat} {touching : Prop}
    [Decidable touching] (away : touching -> target < left ∨ left + 8 ≤ target) :
    (if touching then absorb memory left right else memory) target = memory target := by
  split
  · rename_i holds
    have out := away holds
    rw [absorb, setNext_outside (by omega), setSize_outside (by omega)]
  · rfl

/-- Linking a block in writes only its own header and that of the free block
before it. -/
theorem Heap.linkBetween_outside {heap : Heap} {memory : ByteMemory}
    {block prev current target : Nat} (away : target < block ∨ block + 8 ≤ target)
    (awayFromPrev : prev = null ∨ target < prev ∨ prev + 8 ≤ target) :
    (heap.linkBetween memory block prev current).2 target = memory target := by
  rw [linkBetween]
  simp only
  rw [absorb_outside (fun touching => awayFromPrev.resolve_left touching.1),
    absorb_outside (fun _ => away), unlink_outside (by omega), setNext_outside (by omega)]

end Memory
end Goatos
