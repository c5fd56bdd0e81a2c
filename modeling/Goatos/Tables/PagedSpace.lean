import Goatos.Memory.PagingInit
import Goatos.Tables.DoubleFault

namespace Goatos
namespace Tables

open Library
open ProtectedMode
open Memory
open Paging

/-!
# The address space after `paging::init`

The tables of the identity map are in frames of the pool, and no frame of the pool is
part of the kernel image.  So the map reaches the tables of the processor and all stacks
but for the guard page, and it goes on to do so as long as nobody writes into its frames.
-/

/-- The space that a map in the given frames spans: the window without the guard
page. -/
def pagedSpace (guard mappedEnd : Nat) (frames : List Frame) : AddressSpace where
  tables := {address | Exists fun frame => frame ∈ frames ∧ address / frameSize = frame.index}
  window := {virt | virt < mappedEnd ∧ virt / frameSize * frameSize ≠ guard}
  hole := {virt | virt < 2 ^ 32 ∧ virt / frameSize * frameSize = guard}

section Map

variable {guard : Nat} {directory : Frame} {tables : List Frame}

/-- The entries depend only on the frames that hold them. -/
theorem built_of_eqOn {memory changed : ByteMemory} (built : Built guard directory tables memory)
    (few : tables.length ≤ 1024)
    (agree : Set.EqOn changed memory (pagedSpace guard 0 (directory :: tables)).tables) :
    Built guard directory tables changed := by
  have same (table : Frame) (member : table ∈ directory :: tables) (index : Nat)
      (inRange : index < 1024) :
      entryAt changed table.startAddress index = entryAt memory table.startAddress index :=
    entryAt_congr inRange fun _ inFrame => agree ⟨table, member, inFrame⟩
  refine ⟨?_, ?_, ?_⟩
  · intro index table found
    have inList := (List.getElem?_eq_some_iff.mp found).1
    rw [same directory List.mem_cons_self index (by omega)]
    exact built.named index table found
  · intro index beyond inRange
    rw [same directory List.mem_cons_self index inRange]
    exact built.blank index beyond inRange
  · intro index table found page inRange
    rw [same table (List.mem_cons_of_mem _ (List.mem_of_getElem? found)) page inRange]
    exact built.mapped index table found page inRange

theorem pagedSpace_holds {machine : Paging.Machine}
    (installed : Installed guard directory tables machine) (few : tables.length ≤ 1024) :
    (pagedSpace guard (tables.length * bytesPerDirectoryEntry) (directory :: tables)).Holds
      machine.cr0 machine.cr3 machine.memory := by
  have span : tables.length * bytesPerDirectoryEntry ≤ 2 ^ 32 := by
    rw [bytesPerDirectoryEntry_eq]
    omega
  have on : machine.cr0 &&& pagingBit ≠ 0 := of_decide_eq_true installed.enabled
  intro changed agree
  have built := built_of_eqOn installed.built few agree
  have walks {virt : Nat} (fits : virt < 2 ^ 32) :=
    built.walk_eq (installed.inMemory directory List.mem_cons_self).2 fits
  constructor
  · rintro virt ⟨below, notGuard⟩
    rw [ProtectedMode.translate, if_neg on, installed.root, Nat.mod_eq_of_lt (by omega),
      walks (by omega), if_pos ⟨below, notGuard⟩]
    rfl
  · rintro virt ⟨fits, isGuard⟩
    rw [ProtectedMode.translate, if_neg on, installed.root, Nat.mod_eq_of_lt fits, walks fits,
      if_neg (fun both => both.2 isGuard)]
    rfl

end Map

/-! ## Where the frames are -/

/-- Frames of the pool are not reserved. -/
theorem unreserved_of_nextFrames {world : FrameWorld} {nodes : List Nat}
    (invariant : FrameInvariant world nodes) {count : Nat} {frames : List Frame}
    (found : nextFrames world.memory count world.allocator = some frames) {frame : Frame}
    (member : frame ∈ frames) : world.allocator.isReserved frame.index = false := by
  rw [nextFrames_eq invariant] at found
  split at found
  · cases found
    have inLine := List.mem_of_mem_take member
    rw [inLine_eq invariant, List.mem_map] at inLine
    rcases inLine with ⟨index, inEither, rfl⟩
    rcases List.mem_append.mp inEither with listed | pending
    · exact (invariant.listed index listed).1.2
    · have free := (List.mem_filter.mp pending).2
      rw [Bool.not_eq_true'] at free
      exact free
  · cases found

/-- The frame of a byte of the kernel image is reserved. -/
theorem reserved_of_image {image : KernelImage} {allocator : FrameAllocator}
    (reservations : allocator.reservations = image.reservations) {address : Nat}
    (inImage : image.start.toNat ≤ address ∧ address < image.end.toNat) :
    allocator.isReserved (address / frameSize) = true := by
  have fits := image.end.toNat_lt
  rw [FrameAllocator.isReserved, reservations, List.any_eq_true]
  refine ⟨⟨FrameRange.covering image.start.toNat image.end.toNat,
    "kernel image, .bss and stack"⟩, ?_, ?_⟩
  · exact List.mem_of_getElem? (show image.reservations[2]? = some _ from rfl)
  · have small : maxFrameIndex = 1048576 := by decide
    rw [FrameRange.contains_iff]
    simp only [FrameRange.covering, indexCeil, indexFloor, saturatingAdd, shiftRight_frameShift,
      small, frameSize]
    omega

/-! ## Turning paging on -/

variable {image : KernelImage} {statics : Statics image}

/-- What `paging::init` works on, taken from the processor. -/
def pagingMachine (statics : Statics image) (pool : FrameWorld) (processor : Processor) : Paging.Machine :=
  Paging.Machine.onPool pool processor.cr0 processor.cr3
    (processor.memory.load (statics.mainTss + cr3Slot) 4)
    (processor.memory.load (statics.doubleFaultTss + cr3Slot) 4)

/-- `paging::init`, with the page directory recorded in the task state segments. -/
def pagingInit (statics : Statics image) (map : MemoryMap) (pool : FrameWorld)
    (processor : Processor) : Processor :=
  let machine := ((pagingMachine statics pool processor).init map statics.stackGuardPage).2
  { processor with
    cr0 := machine.cr0
    cr3 := machine.cr3
    memory := (machine.memory.store (statics.mainTss + cr3Slot) 4 machine.mainTssCr3).store
      (statics.doubleFaultTss + cr3Slot) 4 machine.doubleFaultTssCr3 }

theorem allocateZeroedFrame_registers (machine : Paging.Machine) :
    machine.allocateZeroedFrame.2.registers = machine.registers := by
  rw [Paging.Machine.allocateZeroedFrame]
  split <;> rfl

theorem buildTables_registers (guard : Nat) (directory : Frame) (indices : List Nat)
    (machine : Paging.Machine) :
    (machine.buildTables guard directory indices).2.registers = machine.registers := by
  induction indices generalizing machine with
  | nil => rfl
  | cons index rest inductionHypothesis =>
      have allocated := allocateZeroedFrame_registers machine
      rw [Paging.Machine.buildTables]
      split
      · rename_i next equal
        rw [equal] at allocated
        exact allocated
      · rename_i table next equal
        rw [equal] at allocated
        rw [inductionHypothesis]
        exact allocated

/-- Either nothing came of it, or the directory in use is recorded for the handler
of double faults, too. -/
theorem init_registers (machine : Paging.Machine) (map : MemoryMap) (guard : Nat) :
    (machine.init map guard).2.registers = machine.registers ∨
      (machine.init map guard).2.doubleFaultTssCr3 = (machine.init map guard).2.cr3 := by
  rw [Paging.Machine.init]
  split
  · exact Or.inl rfl
  · have allocated := allocateZeroedFrame_registers machine
    split
    · rename_i next equal
      rw [equal] at allocated
      exact Or.inl allocated
    · rename_i directory next equal
      rw [equal] at allocated
      have built := buildTables_registers guard directory
        (List.range (identityMapEnd map / bytesPerDirectoryEntry)) next
      simp only
      split
      · rename_i last gaveUp
        rw [gaveUp] at built
        exact Or.inl (built.trans allocated)
      · exact Or.inr rfl

/-- Frames of the pool that hold a map of at least the image. -/
structure MapFrames (image : KernelImage) (mappedEnd : Nat) (frames : List Frame) : Prop where
  covers : image.end.toNat ≤ mappedEnd
  outside : forall address, image.start.toNat ≤ address -> address < image.end.toNat ->
    forall frame, frame ∈ frames -> address / frameSize ≠ frame.index

section Reach

variable {mappedEnd : Nat} {frames : List Frame}

/-- The image is mapped outside the guard page, and no table is in it. -/
theorem MapFrames.reaches (map : MapFrames image mappedEnd frames) {address : Nat}
    (inImage : image.start.toNat ≤ address ∧ address < image.end.toNat)
    (notGuard : address ∉ Set.Ico statics.stackGuardPage statics.stackBottom) :
    address ∈ (pagedSpace statics.stackGuardPage mappedEnd frames).window \
      (pagedSpace statics.stackGuardPage mappedEnd frames).tables := by
  have bounds := statics.stack_bounds
  have covers := map.covers
  refine ⟨⟨by omega, ?_⟩, ?_⟩
  · intro inGuard
    unfold frameSize at inGuard
    exact notGuard ⟨by omega, by omega⟩
  · rintro ⟨frame, member, inFrame⟩
    exact map.outside address inImage.1 inImage.2 frame member inFrame

theorem MapFrames.reachable (map : MapFrames image mappedEnd frames) :
    Reachable statics (pagedSpace statics.stackGuardPage mappedEnd frames) := by
  have bounds := statics.stack_bounds
  have table (block : Block) (member : block ∈ statics.tables) :
      block.bytes ⊆ (pagedSpace statics.stackGuardPage mappedEnd frames).window \
        (pagedSpace statics.stackGuardPage mappedEnd frames).tables := by
    intro address inBlock
    have inside := statics.table_inside block member
    have position := ByteMemory.mem_extent.mp inBlock
    apply map.reaches (by omega)
    intro inGuard
    have lower := inGuard.1
    have upper := inGuard.2
    exact statics.notMem_stacks member inBlock ⟨by omega, by omega⟩
  refine ⟨table ⟨statics.gdt, gdtSize⟩ (by simp [Addresses.tables]),
    table ⟨statics.idt, idtSize⟩ (by simp [Addresses.tables]),
    table ⟨statics.mainTss, tssSize⟩ (by simp [Addresses.tables]),
    table ⟨statics.doubleFaultTss, tssSize⟩ (by simp [Addresses.tables]), ?_⟩
  intro address member
  have position := ByteMemory.mem_extent.mp member
  unfold doubleFaultStackSize at position
  apply map.reaches (by omega)
  intro inGuard
  have lower := inGuard.1
  omega

theorem MapFrames.stackAboveHole (map : MapFrames image mappedEnd frames) :
    (pagedSpace statics.stackGuardPage mappedEnd frames).StackAboveHole statics.stackGuardPage
      statics.stackBottom statics.stackTop := by
  have bounds := statics.stack_bounds
  have aligned := statics.aligned
  refine ⟨by omega, by omega, ?_, ?_, by omega⟩
  · intro address member
    have lower := member.1
    have upper := member.2
    refine ⟨by omega, ?_⟩
    unfold frameSize
    omega
  · intro address member
    have lower := member.1
    have upper := member.2
    apply map.reaches (by omega)
    intro inGuard
    have above := inGuard.2
    omega

end Reach

section Init

variable {map : MemoryMap} {memory : ByteMemory} {events : List FrameEvent} {pool : FrameWorld}
  {frames : List Frame} {processor : Processor}

/-- The call of `paging::init` finds what it needs: the pool as it was made from the map
and used since then, memory as the processor sees it, enough frames, and paging off.

Two of the conditions exclude machines on which the kernel does go wrong.  `disjoint` is
about maps that report a frame as usable twice, for which the allocator hands out the
frames of the page tables once more.  `covers` is about an image that reaches beyond the
highest usable address, so that the window ends before the image does. -/
structure PagingReady (statics : Statics image) (map : MemoryMap) (pool : FrameWorld)
    (frames : List Frame) (processor : Processor) : Prop where
  disjoint : map.FramesDisjoint
  covers : image.end.toNat ≤ identityMapEnd map
  reached : Exists fun memory => Exists fun events =>
    Run FrameStep (FrameWorld.init image map memory) events pool
  sameMemory : pool.memory = processor.memory
  off : processor.cr0 &&& pagingBit = 0
  enough : nextFrames pool.memory (identityMapEnd map / bytesPerDirectoryEntry + 1)
    pool.allocator = some frames

theorem PagingReady.window (able : PagingReady statics map pool frames processor) :
    identityMapEnd map ≠ 0 := by
  have bounds := statics.stack_bounds
  have covers := able.covers
  omega

theorem PagingReady.mapFrames (able : PagingReady statics map pool frames processor) :
    MapFrames image (identityMapEnd map) frames := by
  rcases able.reached with ⟨memory, events, run⟩
  rcases frameRun_sound able.disjoint run with ⟨⟨nodes, invariant⟩, _, reservations⟩
  refine ⟨able.covers, ?_⟩
  intro address above below frame member same
  have reserved := reserved_of_image reservations ⟨above, below⟩
  rw [same, unreserved_of_nextFrames invariant able.enough member] at reserved
  cases reserved

/-- What the machine is after `init`. -/
theorem PagingReady.initDone (able : PagingReady statics map pool frames processor) :
    InitDone map statics.stackGuardPage frames (pagingMachine statics pool processor)
      ((pagingMachine statics pool processor).init map statics.stackGuardPage).2
      ((pagingMachine statics pool processor).init map statics.stackGuardPage).1 := by
  rcases able.reached with ⟨memory, events, run⟩
  have outcome := init_outcome able.disjoint run processor.cr0 processor.cr3
    (processor.memory.load (statics.mainTss + cr3Slot) 4)
    (processor.memory.load (statics.doubleFaultTss + cr3Slot) 4) statics.stackGuardPage able.window
  simp only [able.enough] at outcome
  exact outcome

/-- The tables are outside the frames that `init` writes, so they are as they
were. -/
theorem PagingReady.kept (able : PagingReady statics map pool frames processor) :
    Set.EqOn (pagingInit statics map pool processor).memory processor.memory
      (systemBytes statics \ ByteMemory.extent (statics.doubleFaultTss + cr3Slot) 4) := by
  rintro address ⟨inSystem, notSlot⟩
  have inImage := statics.systemBytes_inside inSystem
  have apart := statics.systemBytes_apart_mainTss inSystem
  rw [ByteMemory.mem_extent] at notSlot
  unfold tssSize at apart
  have frameless := able.initDone.outside address
    fun frame member => able.mapFrames.outside address inImage.1 inImage.2 frame member
  simp only [pagingInit]
  rw [ByteMemory.store_outside _ (by omega),
    ByteMemory.store_outside _ (by unfold cr3Slot; omega), frameless]
  exact congrFun able.sameMemory address

theorem PagingReady.ready (able : PagingReady statics map pool frames processor)
    {entryPoint : Idt.EntryPoints} {table : UInt8 -> Option Interrupt.Entry}
    {doubleFaultEntry : UInt32}
    (ready : Ready statics entryPoint table doubleFaultEntry processor) :
    Ready statics entryPoint table doubleFaultEntry (pagingInit statics map pool processor) := by
  have apart := statics.apart_idt_doubleFaultTss
  refine ready.of_kept ?_ ?_ rfl rfl rfl rfl ?_ ready.words
  · rintro address ⟨inGdt | inTss, notSlot⟩
    · exact able.kept ⟨Or.inl (Or.inl inGdt), notSlot⟩
    · exact able.kept ⟨Or.inr inTss, notSlot⟩
  · rw [← ready.gates]
    funext vector
    refine Idt.entry_congr (fun address member => able.kept ⟨Or.inl (Or.inr member), ?_⟩) vector
    have position := ByteMemory.mem_extent.mp member
    rw [ByteMemory.mem_extent]
    unfold Block.Apart tssSize at apart
    unfold cr3Slot
    simp only at apart
    omega
  intro on
  rcases able.initDone.installed with ⟨directory, tables, _, _, _, installed⟩
  have small := (installed.inMemory directory List.mem_cons_self).2
  have recorded : ((pagingMachine statics pool processor).init map
      statics.stackGuardPage).2.doubleFaultTssCr3 = ((pagingMachine statics pool processor).init map
        statics.stackGuardPage).2.cr3 := by
    rcases init_registers (pagingMachine statics pool processor) map statics.stackGuardPage with
      unchanged | recorded
    · have cr0 : (pagingInit statics map pool processor).cr0 = processor.cr0 :=
        congrArg Prod.fst unchanged
      rw [cr0] at on
      exact absurd able.off on
    · exact recorded
  have fits : directory.startAddress < 256 ^ 4 := by
    rw [Frame.startAddress_eq]
    omega
  show (ByteMemory.store _ _ 4 _).load _ 4 = _
  rw [recorded, installed.root]
  exact (ByteMemory.load_store_of_lt _ fits).trans installed.root.symm

theorem PagingReady.inSpace (able : PagingReady statics map pool frames processor) :
    (pagingInit statics map pool processor).cr0 &&& pagingBit ≠ 0 ∧
      (pagingInit statics map pool processor).In
        (pagedSpace statics.stackGuardPage (identityMapEnd map) frames) := by
  have done := able.initDone
  rcases done.installed with ⟨directory, tables, same, length, few, installed⟩
  have on : (pagingInit statics map pool processor).cr0 &&& pagingBit ≠ 0 :=
    of_decide_eq_true installed.enabled
  refine ⟨on, ?_⟩
  have space := pagedSpace_holds installed few
  rw [length, ← same] at space
  have kept : Set.EqOn (pagingInit statics map pool processor).memory
      ((pagingMachine statics pool processor).init map statics.stackGuardPage).2.memory
      (pagedSpace statics.stackGuardPage (identityMapEnd map) frames).tables := by
    have reachable := @MapFrames.reachable _ statics _ _ able.mapFrames
    intro address member
    have apart (start size : Nat) (inside : ByteMemory.extent start size ⊆
        (pagedSpace statics.stackGuardPage (identityMapEnd map) frames).window \
          (pagedSpace statics.stackGuardPage (identityMapEnd map) frames).tables) :
        address < start ∨ start + size ≤ address := by
      by_contra inBlock
      exact (inside (ByteMemory.mem_extent.mpr (by omega))).2 member
    have main := apart _ _ reachable.mainTss
    have handler := apart _ _ reachable.doubleFaultTss
    unfold tssSize at main handler
    simp only [pagingInit]
    rw [ByteMemory.store_outside _ (by unfold cr3Slot; omega),
      ByteMemory.store_outside _ (by unfold cr3Slot; omega)]
  intro changed agree
  exact space changed (agree.trans kept)

end Init

end Tables
end Goatos
