import Mathlib.Data.List.Chain
import Goatos.Library.Tiling
import Goatos.Memory.Heap

namespace Goatos
namespace Memory

open Library

/-!
# The heap as a row of blocks

What the heap is for, without headers and links: a row of blocks that tile a
region, some free and some live.  Allocation carves the request out of the first
free block that is large enough.  Giving a block back marks it free and joins it
with its free neighbours.
-/

/-- A block of the heap; a live one records how many bytes its holder asked
for. -/
structure Block where
  address : Nat
  size : Nat
  request : Option Nat
  deriving DecidableEq, Repr

namespace Block

def isFree (block : Block) : Bool :=
  block.request.isNone

/-- The same block, given back. -/
def freed (block : Block) : Block :=
  { block with request := none }

/-- A free block after a request was carved out of its front.  What is left
becomes a free block if it can hold a header. -/
def carve (block : Block) (needed request : Nat) : List Block :=
  if headerSize ≤ block.size - needed then
    [⟨block.address, needed, some request⟩,
      ⟨block.address + needed, block.size - needed, none⟩]
  else [⟨block.address, block.size, some request⟩]

/-- Blocks are multiples of eight bytes and hold at least a header. -/
def Sized (block : Block) : Prop :=
  8 ∣ block.size ∧ headerSize ≤ block.size

theorem live_of_request {block : Block} {request : Nat} (asked : block.request = some request) :
    block.isFree = false := by
  rw [isFree, asked]
  rfl

theorem ne_of_live_of_free {block other : Block} (live : block.isFree = false)
    (free : other.isFree = true) : block ≠ other := by
  rintro rfl
  rw [free] at live
  cases live

end Block

/-- The addresses of the free blocks of a row. -/
def freeAddresses (blocks : List Block) : List Nat :=
  (blocks.filter Block.isFree).map Block.address

/-- The bytes of the live blocks of a row, headers included. -/
def liveBytes (blocks : List Block) : Nat :=
  ((blocks.filter (fun block => !block.isFree)).map Block.size).sum

/-- No two neighbours are both free.  The free list is then as short as it can be,
and free blocks are maximal runs of free bytes. -/
def Coalesced (blocks : List Block) : Prop :=
  blocks.IsChain (fun left right => ¬ (left.isFree = true ∧ right.isFree = true))

/-- Carve a request out of the first free block that is large enough.  This is what
the search over the free list comes to, in terms of the row. -/
def firstFit (needed request : Nat) : List Block -> Option (Nat × List Block)
  | [] => none
  | block :: rest =>
      if block.isFree = true ∧ needed ≤ block.size then
        some (block.address, block.carve needed request ++ rest)
      else (firstFit needed request rest).map fun found => (found.1, block :: found.2)

/-- Put two rows side by side, merging the blocks at the seam if both are free. -/
def join : List Block -> List Block -> List Block
  | [], right => right
  | [block], [] => [block]
  | [block], next :: rest =>
      if block.isFree = true ∧ next.isFree = true then
        ⟨block.address, block.size + next.size, none⟩ :: rest
      else block :: next :: rest
  | block :: second :: more, right => block :: join (second :: more) right

section Rows

variable {before after left right : List Block} {block : Block}

@[simp] theorem freeAddresses_nil : freeAddresses [] = [] := rfl

@[simp] theorem freeAddresses_append :
    freeAddresses (left ++ right) = freeAddresses left ++ freeAddresses right := by
  simp [freeAddresses]

theorem freeAddresses_cons_of_free (free : block.isFree = true) :
    freeAddresses (block :: after) = block.address :: freeAddresses after := by
  simp [freeAddresses, free]

theorem freeAddresses_cons_of_live (live : block.isFree = false) :
    freeAddresses (block :: after) = freeAddresses after := by
  simp [freeAddresses, live]

theorem mem_freeAddresses {address : Nat} :
    address ∈ freeAddresses left ↔
      Exists fun block => block ∈ left ∧ block.isFree = true ∧ block.address = address := by
  simp [freeAddresses, and_assoc]

@[simp] theorem liveBytes_append :
    liveBytes (left ++ right) = liveBytes left + liveBytes right := by
  simp [liveBytes]

theorem liveBytes_cons_of_free (free : block.isFree = true) :
    liveBytes (block :: after) = liveBytes after := by
  simp [liveBytes, free]

theorem liveBytes_cons_of_live (live : block.isFree = false) :
    liveBytes (block :: after) = block.size + liveBytes after := by
  simp [liveBytes, live]

@[simp] theorem Block.isFree_freed : block.freed.isFree = true := rfl

/-! ## First fit -/

theorem firstFit_eq_some {needed request address : Nat} {blocks : List Block}
    (found : firstFit needed request left = some (address, blocks)) :
    Exists fun before => Exists fun block => Exists fun after =>
      left = before ++ block :: after ∧
      (forall other, other ∈ before -> other.isFree = true -> other.size < needed) ∧
      block.isFree = true ∧ needed ≤ block.size ∧ address = block.address ∧
      blocks = before ++ (block.carve needed request ++ after) := by
  induction left generalizing blocks with
  | nil => cases found
  | cons first rest inductionHypothesis =>
      rw [firstFit] at found
      split at found
      · rename_i fits
        cases found
        exact ⟨[], first, rest, rfl, fun _ impossible => absurd impossible List.not_mem_nil,
          fits.1, fits.2, rfl, rfl⟩
      · rename_i misfit
        rcases Option.map_eq_some_iff.mp found with ⟨⟨inner, others⟩, inRest, same⟩
        cases same
        rcases inductionHypothesis inRest with
          ⟨before, block, after, equal, small, free, large, same, result⟩
        refine ⟨first :: before, block, after, congrArg _ equal, ?_, free, large, same,
          congrArg _ result⟩
        intro other member isFree
        rcases List.mem_cons.mp member with rfl | later
        · exact Nat.lt_of_not_le (fun enough => misfit ⟨isFree, enough⟩)
        · exact small other later isFree

theorem firstFit_eq_none {needed request : Nat} (none : firstFit needed request left = none) :
    forall other, other ∈ left -> other.isFree = true -> other.size < needed := by
  induction left with
  | nil => intro _ impossible; cases impossible
  | cons first rest inductionHypothesis =>
      rw [firstFit] at none
      split at none
      · cases none
      · rename_i misfit
        intro other member isFree
        rcases List.mem_cons.mp member with rfl | later
        · exact Nat.lt_of_not_le (fun enough => misfit ⟨isFree, enough⟩)
        · exact inductionHypothesis (Option.map_eq_none_iff.mp none) other later isFree

/-! ## Joining -/

/-- Joining either changes nothing, the seam not being free on both sides, or
merges the two blocks at the seam. -/
theorem join_cases (left right : List Block) :
    (join left right = left ++ right ∧
      forall block, block ∈ left.getLast? -> forall next, next ∈ right.head? ->
        ¬ (block.isFree = true ∧ next.isFree = true)) ∨
    Exists fun before => Exists fun block => Exists fun next => Exists fun after =>
      left = before ++ [block] ∧ right = next :: after ∧ block.isFree = true ∧
      next.isFree = true ∧
      join left right = before ++ ⟨block.address, block.size + next.size, none⟩ :: after := by
  fun_induction join left right with
  | case1 right => exact Or.inl ⟨rfl, fun _ impossible => by cases impossible⟩
  | case2 block => exact Or.inl ⟨rfl, fun _ _ _ impossible => by cases impossible⟩
  | case3 block next rest both =>
      exact Or.inr ⟨[], block, next, rest, rfl, rfl, both.1, both.2, rfl⟩
  | case4 block next rest apart =>
      refine Or.inl ⟨rfl, ?_⟩
      intro other isLast following isHead
      cases isLast
      cases isHead
      exact apart
  | case5 block second more right inductionHypothesis =>
      rcases inductionHypothesis with ⟨equal, apart⟩ | ⟨before, last, next, after, split, rest⟩
      · refine Or.inl ⟨congrArg _ equal, ?_⟩
        intro other isLast
        rw [List.getLast?_cons_cons] at isLast
        exact apart other isLast
      · rcases rest with ⟨same, free, nextFree, equal⟩
        exact Or.inr ⟨block :: before, last, next, after, congrArg _ split, same, free, nextFree,
          congrArg _ equal⟩

theorem join_append_singleton : join (before ++ [block]) right = before ++ join [block] right := by
  induction before with
  | nil => rfl
  | cons first rest inductionHypothesis =>
      cases rest with
      | nil => rfl
      | cons second more => exact congrArg _ inductionHypothesis

theorem mem_join_of_live (live : block.isFree = false) :
    block ∈ join left right ↔ block ∈ left ++ right := by
  have different : forall other : Block, other.isFree = true -> block ≠ other :=
    fun _ free => Block.ne_of_live_of_free live free
  rcases join_cases left right with
    ⟨equal, _⟩ | ⟨before, last, next, after, rfl, rfl, lastFree, nextFree, equal⟩
  · rw [equal]
  · rw [equal]
    simp [different last lastFree, different next nextFree,
      different ⟨last.address, last.size + next.size, none⟩ rfl]

/-- A row in which a block was freed and joined with its neighbours has the live
blocks around it. -/
theorem mem_join_freed_of_live {other : Block} (live : other.isFree = false) :
    other ∈ join before (join [block.freed] after) ↔ other ∈ before ∨ other ∈ after := by
  have different : other ≠ block.freed := Block.ne_of_live_of_free live rfl
  rw [mem_join_of_live live, List.mem_append, mem_join_of_live live, List.mem_append,
    List.mem_singleton]
  simp only [different, false_or]

theorem liveBytes_join : liveBytes (join left right) = liveBytes (left ++ right) := by
  rcases join_cases left right with
    ⟨equal, _⟩ | ⟨before, last, next, after, rfl, rfl, lastFree, nextFree, equal⟩
  · rw [equal]
  · rw [equal, liveBytes_append, liveBytes_append, liveBytes_append,
      liveBytes_cons_of_free lastFree, liveBytes_cons_of_free nextFree,
      @liveBytes_cons_of_free after ⟨last.address, last.size + next.size, none⟩ rfl]
    rfl

theorem join_coalesced (leftCoalesced : Coalesced left) (rightCoalesced : Coalesced right) :
    Coalesced (join left right) := by
  rcases join_cases left right with
    ⟨equal, apart⟩ | ⟨before, last, next, after, rfl, rfl, lastFree, nextFree, equal⟩
  · rw [equal]
    exact List.isChain_append.mpr ⟨leftCoalesced, rightCoalesced, apart⟩
  · rw [equal]
    rcases List.isChain_append.mp leftCoalesced with ⟨early, _, seam⟩
    rcases List.isChain_cons.mp rightCoalesced with ⟨following, late⟩
    refine List.isChain_append.mpr ⟨early, List.isChain_cons.mpr ⟨?_, late⟩, ?_⟩
    · intro other isHead both
      exact following other isHead ⟨nextFree, both.2⟩
    · intro other isLast merged isHead both
      exact seam other isLast last rfl ⟨both.1, lastFree⟩

theorem join_singleton (free : block.isFree = true) :
    Exists fun first => Exists fun rest =>
      join [block] right = first :: rest ∧ first.address = block.address ∧ first.isFree = true := by
  cases right with
  | nil => exact ⟨block, [], rfl, rfl, free⟩
  | cons next rest =>
      rw [join]
      split
      · exact ⟨_, rest, rfl, rfl, rfl⟩
      · exact ⟨block, _, rfl, rfl, free⟩

end Rows

end Memory
end Goatos
