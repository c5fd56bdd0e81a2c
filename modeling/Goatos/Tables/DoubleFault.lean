import Goatos.Tables.Idt

namespace Goatos
namespace Tables

open Library
open ProtectedMode

/-!
# Double faults

A double fault goes through a task gate.  The processor saves the interrupted registers
in the main task state segment and starts the handler with those of the other one, on
its private stack.  Nothing of the interrupted stack is touched, so this works whatever
state it is in.
-/

variable {image : Memory.KernelImage} {statics : Statics image}

/-- Everything that a double fault needs: the tables, with the image of the handler and
its page directory. -/
structure Ready (statics : Statics image) (entryPoint : Idt.EntryPoints)
    (table : UInt8 -> Option Interrupt.Entry) (doubleFaultEntry : UInt32)
    (processor : Processor) : Prop where
  gdt : Gdt.InForce statics processor
  idtr : processor.idtr = ⟨statics.idt, idtSize - 1⟩
  gates : Idt.entry statics processor.memory = Idt.gateFor entryPoint table
  registers : forall register, processor.memory.load (statics.doubleFaultTss + register.slot) 4 =
    ((Tss.doubleFaultImage statics doubleFaultEntry).general register).toNat
  selectors : forall name, processor.memory.load (statics.doubleFaultTss + name.slot) 2 =
    ((Tss.doubleFaultImage statics doubleFaultEntry).selector name).toNat
  noLdt : processor.memory.load (statics.doubleFaultTss + ldtSlot) 2 = 0
  directory : processor.cr0 &&& pagingBit ≠ 0 ->
    processor.memory.load (statics.doubleFaultTss + cr3Slot) 4 = processor.cr3
  words : forall register, processor.general register < 2 ^ 32

/-- The bytes of the tables that a double fault depends on.  Code that keeps away
from them cannot break it. -/
def systemBytes (statics : Statics image) : Set Nat :=
  ByteMemory.extent statics.gdt gdtSize ∪ ByteMemory.extent statics.idt idtSize ∪
    ByteMemory.extent statics.doubleFaultTss tssSize

/-- The tables and the private stack are mapped, and are not part of the map, so
that writing to them changes no address. -/
structure Reachable (statics : Statics image) (space : AddressSpace) : Prop where
  gdt : ByteMemory.extent statics.gdt gdtSize ⊆ space.window \ space.tables
  idt : ByteMemory.extent statics.idt idtSize ⊆ space.window \ space.tables
  mainTss : ByteMemory.extent statics.mainTss tssSize ⊆ space.window \ space.tables
  doubleFaultTss : ByteMemory.extent statics.doubleFaultTss tssSize ⊆ space.window \ space.tables
  stack : ByteMemory.extent statics.doubleFaultStackBottom doubleFaultStackSize ⊆
    space.window \ space.tables

/-- What a double fault may write: the two task state segments, the mark of the task in
the descriptor table, and the error code on the private stack. -/
def doubleFaultWrites (statics : Statics image) : Set Nat :=
  ByteMemory.extent statics.gdt gdtSize ∪ ByteMemory.extent statics.mainTss tssSize ∪
    ByteMemory.extent statics.doubleFaultTss tssSize ∪
    ByteMemory.extent (statics.doubleFaultStackTop - 4) 4

/-- The handler is at its first instruction, on its own stack and with interrupts off,
and finds the state of the interrupted task. -/
structure Started (statics : Statics image) (doubleFaultEntry : UInt32) (errorCode : Option Nat)
    (before after : Processor) : Prop where
  eip : after.general .eip = doubleFaultEntry.toNat
  esp : after.general .esp = statics.doubleFaultStackTop - 4 * errorCode.toList.length
  ebp : after.general .ebp = statics.doubleFaultStackTop
  uninterrupted : after.general .eflags &&& interruptEnable = 0
  segments : after.segment = before.segment
  interrupted : Tss.interruptedState statics after.memory = {
    eip := before.general .eip
    cs := kernelCodeSelector.toNat
    eflags := before.general .eflags
    esp := before.general .esp
    ss := kernelDataSelector.toNat
    ebp := before.general .ebp
    previousTaskLink := mainTssSelector.toNat }
  kept : Set.EqOn after.memory before.memory (doubleFaultWrites statics)ᶜ

/-! ## What it depends on -/

theorem Statics.systemBytes_inside (statics : Statics image) {address : Nat}
    (member : address ∈ systemBytes statics) :
    image.start.toNat ≤ address ∧ address < image.end.toNat := by
  have gdt := statics.table_inside ⟨statics.gdt, gdtSize⟩ (by simp [Addresses.tables])
  have idt := statics.table_inside ⟨statics.idt, idtSize⟩ (by simp [Addresses.tables])
  have tss := statics.table_inside ⟨statics.doubleFaultTss, tssSize⟩ (by simp [Addresses.tables])
  simp only [systemBytes, Set.mem_union, ByteMemory.mem_extent] at member
  simp only at gdt idt tss
  omega

theorem Statics.systemBytes_apart_mainTss (statics : Statics image) {address : Nat}
    (member : address ∈ systemBytes statics) :
    address < statics.mainTss ∨ statics.mainTss + tssSize ≤ address := by
  have gdt := statics.apart_gdt_mainTss
  have idt := statics.apart_idt_mainTss
  have tss := statics.apart_mainTss_doubleFaultTss
  simp only [systemBytes, Set.mem_union, ByteMemory.mem_extent] at member
  simp only [Block.Apart] at gdt idt tss
  omega

/-- The tables and the registers that name them decide.  Gates may be replaced, and the
page directory may change together with the control registers. -/
theorem Ready.of_kept {entryPoint : Idt.EntryPoints}
    {table nextTable : UInt8 -> Option Interrupt.Entry} {doubleFaultEntry : UInt32}
    {processor after : Processor}
    (ready : Ready statics entryPoint table doubleFaultEntry processor)
    (kept : Set.EqOn after.memory processor.memory
      ((ByteMemory.extent statics.gdt gdtSize ∪ ByteMemory.extent statics.doubleFaultTss tssSize) \
        ByteMemory.extent (statics.doubleFaultTss + cr3Slot) 4))
    (gates : Idt.entry statics after.memory = Idt.gateFor entryPoint nextTable)
    (gdtr : after.gdtr = processor.gdtr) (idtr : after.idtr = processor.idtr)
    (task : after.task = processor.task) (segment : after.segment = processor.segment)
    (directory : after.cr0 &&& pagingBit ≠ 0 ->
      after.memory.load (statics.doubleFaultTss + cr3Slot) 4 = after.cr3)
    (words : forall register, after.general register < 2 ^ 32) :
    Ready statics entryPoint nextTable doubleFaultEntry after := by
  have apartGdt := statics.apart_gdt_doubleFaultTss
  unfold Block.Apart gdtSize tssSize at apartGdt
  simp only at apartGdt
  have word (selector : Nat) (inTable : selector + 8 ≤ gdtSize) :
      after.memory.load (statics.gdt + selector) 8 =
        processor.memory.load (statics.gdt + selector) 8 := by
    apply ByteMemory.load_congr
    intro address member
    have bounds := ByteMemory.mem_extent.mp member
    unfold gdtSize at inTable
    refine kept ⟨Or.inl (ByteMemory.mem_extent.mpr ⟨by omega, by unfold gdtSize; omega⟩), ?_⟩
    rw [ByteMemory.mem_extent]
    unfold cr3Slot
    omega
  have slot {offset width : Nat} (apart : offset + width ≤ cr3Slot ∨ cr3Slot + 4 ≤ offset)
      (within : offset + width ≤ tssSize) :
      after.memory.load (statics.doubleFaultTss + offset) width =
        processor.memory.load (statics.doubleFaultTss + offset) width := by
    apply ByteMemory.load_congr
    intro address member
    have bounds := ByteMemory.mem_extent.mp member
    refine kept ⟨Or.inr (ByteMemory.mem_extent.mpr ⟨by omega, by omega⟩), ?_⟩
    rw [ByteMemory.mem_extent]
    omega
  refine ⟨⟨gdtr.trans ready.gdt.table, ?_, ?_, ?_, task.trans ready.gdt.task, ?_⟩,
    idtr.trans ready.idtr, gates, ?_, ?_, ?_, directory, words⟩
  · rw [word _ (by decide)]
    exact ready.gdt.code
  · rw [word _ (by decide)]
    exact ready.gdt.data
  · rw [word _ (by decide)]
    exact ready.gdt.doubleFaultTask
  · rw [segment]
    exact ready.gdt.segments
  · intro register
    rw [slot (by cases register <;> decide) register.slot_within.2]
    exact ready.registers register
  · intro name
    rw [slot (by cases name <;> decide) name.slot_within.2]
    exact ready.selectors name
  · rw [slot (by decide) (by decide)]
    exact ready.noLdt

/-- Code that leaves the tables, the segments and the system registers alone.
General registers and other memory may change. -/
structure Computes (statics : Statics image) (kept : Set Nat) (before after : Processor) : Prop where
  memory : Set.EqOn after.memory before.memory (systemBytes statics ∪ kept)
  gdtr : after.gdtr = before.gdtr
  idtr : after.idtr = before.idtr
  task : after.task = before.task
  segment : after.segment = before.segment
  cr0 : after.cr0 = before.cr0
  cr3 : after.cr3 = before.cr3
  words : forall register, after.general register < 2 ^ 32

theorem Ready.of_computes {entryPoint : Idt.EntryPoints} {table : UInt8 -> Option Interrupt.Entry}
    {doubleFaultEntry : UInt32} {processor after : Processor} {kept : Set Nat}
    (ready : Ready statics entryPoint table doubleFaultEntry processor)
    (computes : Computes statics kept processor after) :
    Ready statics entryPoint table doubleFaultEntry after := by
  have system := computes.memory.mono Set.subset_union_left
  refine ready.of_kept ?_ ?_ computes.gdtr computes.idtr computes.task computes.segment ?_
    computes.words
  · rintro address ⟨inGdt | inTss, _⟩
    · exact system (Or.inl (Or.inl inGdt))
    · exact system (Or.inr inTss)
  · rw [← ready.gates]
    funext vector
    exact Idt.entry_congr (fun address member => system (Or.inl (Or.inr member))) vector
  · intro on
    rw [computes.cr0] at on
    rw [computes.cr3, ← ready.directory on]
    apply ByteMemory.load_congr
    intro address member
    have position := ByteMemory.mem_extent.mp member
    refine system (Or.inr (ByteMemory.mem_extent.mpr ⟨by omega, ?_⟩))
    unfold cr3Slot at position
    unfold tssSize
    omega

/-! ## The switch -/

/-- Memory once the registers are saved and the new task is linked to the old one. -/
def linkedMemory (statics : Statics image) (processor : Processor) : ByteMemory :=
  (processor.memory.storeFields statics.mainTss processor.savedFields).store
    (statics.doubleFaultTss + linkSlot) 2 mainTssSelector.toNat

/-- Memory after the switch: the new task is marked as running, too. -/
def switchedMemory (statics : Statics image) (processor : Processor) : ByteMemory :=
  (linkedMemory statics processor).store (statics.gdt + 4 * 8 + 5) 1 (accessTssAvailable ||| 2)

section Memory

variable {processor : Processor}

theorem switchedMemory_outside {target : Nat}
    (mark : target ≠ statics.gdt + 37)
    (main : target < statics.mainTss ∨ statics.mainTss + tssSize ≤ target)
    (link : target < statics.doubleFaultTss ∨ statics.doubleFaultTss + 2 ≤ target) :
    switchedMemory statics processor target = processor.memory target := by
  unfold switchedMemory linkedMemory linkSlot
  rw [ByteMemory.store_outside _ (by omega), ByteMemory.store_outside _ (by omega)]
  apply ByteMemory.storeFields_outside
  intro field member
  have within := savedFields_within processor member
  unfold tssSize at main
  unfold tssBytes at within
  omega

theorem load_switchedMemory_kept {address width : Nat}
    (mark : address + width ≤ statics.gdt + 37 ∨ statics.gdt + 38 ≤ address)
    (main : address + width ≤ statics.mainTss ∨ statics.mainTss + tssSize ≤ address)
    (link : address + width ≤ statics.doubleFaultTss ∨ statics.doubleFaultTss + 2 ≤ address) :
    (switchedMemory statics processor).load address width =
      processor.memory.load address width := by
  apply ByteMemory.load_congr
  intro target member
  have bounds := ByteMemory.mem_extent.mp member
  exact switchedMemory_outside (by omega) (by omega) (by omega)

theorem load_switchedMemory_saved (processor : Processor) {field : Field}
    (member : field ∈ processor.savedFields) (fits : field.value < 256 ^ field.width) :
    (switchedMemory statics processor).load (statics.mainTss + field.offset) field.width =
      field.value := by
  have within := savedFields_within processor member
  have apartGdt := statics.apart_gdt_mainTss
  have apartTss := statics.apart_mainTss_doubleFaultTss
  unfold Block.Apart gdtSize tssSize at *
  unfold tssBytes at within
  simp only at apartGdt apartTss
  unfold switchedMemory linkedMemory linkSlot
  rw [ByteMemory.load_store_of_disjoint _ (by omega), ByteMemory.load_store_of_disjoint _ (by omega)]
  exact processor.memory.load_storeFields _ (savedFields_apart processor) member fits

theorem load_switchedMemory_link (processor : Processor) :
    (switchedMemory statics processor).load (statics.doubleFaultTss + linkSlot) 2 =
      mainTssSelector.toNat := by
  have apartGdt := statics.apart_gdt_doubleFaultTss
  unfold Block.Apart gdtSize tssSize at apartGdt
  simp only at apartGdt
  unfold switchedMemory linkedMemory
  rw [ByteMemory.load_store_of_disjoint _ (by unfold linkSlot; omega)]
  exact ByteMemory.load_store_of_lt _ (by decide)

end Memory

/-- The processor right after the switch, before the error code is pushed. -/
def handlerTask (statics : Statics image) (doubleFaultEntry : UInt32) (processor : Processor) :
    Processor :=
  { processor with
    general := fun register =>
      let value := ((Tss.doubleFaultImage statics doubleFaultEntry).general register).toNat
      if register = .eflags then value ||| nestedTask else value
    task := ⟨doubleFaultTssSelector.toNat, statics.doubleFaultTss, tssSize - 1⟩
    cr0 := processor.cr0 ||| taskSwitched
    cr3 := processor.memory.load (statics.doubleFaultTss + cr3Slot) 4
    memory := switchedMemory statics processor }

section Switch

variable {space : AddressSpace} {entryPoint : Idt.EntryPoints}
  {table : UInt8 -> Option Interrupt.Entry} {doubleFaultEntry : UInt32} {processor : Processor}

/-- The switch does not touch the page tables, so the map is the same before and
after. -/
theorem switchedMemory_tables (reachable : Reachable statics space) :
    Set.EqOn (switchedMemory statics processor) processor.memory space.tables := by
  intro address member
  apply switchedMemory_outside
  · rintro rfl
    exact (reachable.gdt (ByteMemory.mem_extent.mpr ⟨by omega, by unfold gdtSize; omega⟩)).2 member
  · by_contra inside
    exact (reachable.mainTss (ByteMemory.mem_extent.mpr (by omega))).2 member
  · by_contra inside
    exact (reachable.doubleFaultTss
      (ByteMemory.mem_extent.mpr ⟨by omega, by unfold tssSize; omega⟩)).2 member

theorem setMemory_switched_in (inSpace : processor.In space) (reachable : Reachable statics space) :
    (processor.setMemory (switchedMemory statics processor)).In space :=
  inSpace.of_eqOn rfl rfl (switchedMemory_tables reachable)

theorem handlerTask_in (ready : Ready statics entryPoint table doubleFaultEntry processor)
    (inSpace : processor.In space) (reachable : Reachable statics space) :
    (handlerTask statics doubleFaultEntry processor).In space := by
  refine inSpace.of_control ?_ ready.directory (switchedMemory_tables reachable)
  show (processor.cr0 ||| taskSwitched) &&& pagingBit = _
  rw [Nat.and_or_distrib_right, show taskSwitched &&& pagingBit = 0 by decide, Nat.or_zero]

theorem load_image (offset width : Nat) (past : 2 ≤ offset) (within : offset + width ≤ tssSize) :
    (switchedMemory statics processor).load (statics.doubleFaultTss + offset) width =
      processor.memory.load (statics.doubleFaultTss + offset) width := by
  have apartGdt := statics.apart_gdt_doubleFaultTss
  have apartTss := statics.apart_mainTss_doubleFaultTss
  unfold Block.Apart gdtSize tssSize at *
  simp only at apartGdt apartTss
  exact load_switchedMemory_kept (by omega) (by unfold tssSize; omega) (by omega)

/-- The kernel's segments, as the processor finds them during the switch. -/
theorem segment_found (ready : Ready statics entryPoint table doubleFaultEntry processor)
    (reachable : Reachable statics space) {current : Processor}
    (memory : current.memory = switchedMemory statics processor)
    (table : current.gdtr = processor.gdtr) :
    current.HasDescriptor space (1 * 8) (Gdt.flatSegment (accessKernelCode ||| 1)) ∧
      current.HasDescriptor space (2 * 8) (Gdt.flatSegment (accessKernelData ||| 1)) := by
  have tableAt : current.gdtr = ⟨statics.gdt, gdtSize - 1⟩ := table.trans ready.gdt.table
  have covered : ByteMemory.extent statics.gdt gdtSize ⊆ space.window :=
    fun _ member => (reachable.gdt member).1
  have apartMain := statics.apart_gdt_mainTss
  have apartTss := statics.apart_gdt_doubleFaultTss
  unfold Block.Apart gdtSize tssSize at apartMain apartTss
  simp only at apartMain apartTss
  have word (index : Nat) (early : index < 4) :
      current.memory.load (statics.gdt + index * 8) 8 =
        processor.memory.load (statics.gdt + index * 8) 8 := by
    rw [memory]
    exact load_switchedMemory_kept (by omega) (by unfold tssSize; omega) (by omega)
  constructor
  · apply Gdt.hasEntry tableAt covered (by decide)
    rw [word 1 (by decide)]
    exact ready.gdt.code
  · apply Gdt.hasEntry tableAt covered (by decide)
    rw [word 2 (by decide)]
    exact ready.gdt.data

/-- The words of the handler's image, as the processor reads them after it wrote the
rest. -/
theorem load_view (inSpace : processor.In space) (reachable : Reachable statics space)
    {offset width : Nat} (past : 2 ≤ offset) (within : offset + width ≤ tssSize) :
    (processor.setMemory (switchedMemory statics processor)).view.load
      (statics.doubleFaultTss + offset) width =
        processor.memory.load (statics.doubleFaultTss + offset) width := by
  have inside : ByteMemory.extent (statics.doubleFaultTss + offset) width ⊆ space.window := by
    intro address member
    have bounds := ByteMemory.mem_extent.mp member
    exact (reachable.doubleFaultTss (ByteMemory.mem_extent.mpr ⟨by omega, by omega⟩)).1
  rw [ByteMemory.load_congr ((setMemory_switched_in inSpace reachable).view_eqOn.mono inside)]
  exact load_image offset width past within

/-- The last part of the switch: the registers are taken from the image, and the segments
are those of the interrupted task. -/
theorem loadTask_eq (ready : Ready statics entryPoint table doubleFaultEntry processor)
    (inSpace : processor.In space) (reachable : Reachable statics space) :
    SegmentName.all.foldlM (fun entered name =>
      entered.loadSegment .invalidTss name
        ((processor.setMemory (switchedMemory statics processor)).view.load
          (statics.doubleFaultTss + name.slot) 2))
      ((processor.setMemory (switchedMemory statics processor)).loadTask (4 * 8)
        (Gdt.taskSegment statics.doubleFaultTss accessTssAvailable) nestedTask
        (processor.setMemory (switchedMemory statics processor)).view) =
      .ok (handlerTask statics doubleFaultEntry processor) := by
  have entered : (processor.setMemory (switchedMemory statics processor)).loadTask (4 * 8)
      (Gdt.taskSegment statics.doubleFaultTss accessTssAvailable) nestedTask
      (processor.setMemory (switchedMemory statics processor)).view =
        handlerTask statics doubleFaultEntry processor := by
    have registers : forall register : GeneralRegister,
        (processor.setMemory (switchedMemory statics processor)).view.load
          (statics.doubleFaultTss + register.slot) 4 =
            ((Tss.doubleFaultImage statics doubleFaultEntry).general register).toNat := by
      intro register
      rw [load_view inSpace reachable register.slot_within.1 register.slot_within.2]
      exact ready.registers register
    have root := @load_view _ statics space processor inSpace reachable cr3Slot 4 (by decide)
      (by decide)
    simp only [Processor.loadTask, handlerTask, Gdt.lastByte_taskSegment, Gdt.base_taskSegment,
      registers, root]
    rfl
  have selected (name : SegmentName) :
      (processor.setMemory (switchedMemory statics processor)).view.load
        (statics.doubleFaultTss + name.slot) 2 = if name = .cs then 1 * 8 else 2 * 8 := by
    rw [load_view inSpace reachable name.slot_within.1 name.slot_within.2, ready.selectors name,
      Tss.selector_doubleFaultImage]
    cases name <;> decide
  have loads := @loadSegments_eq (handlerTask statics doubleFaultEntry processor) .invalidTss
    (fun name => if name = .cs then 1 * 8 else 2 * 8) processor.segment SegmentName.all
  have complete : (fun name => if name ∈ SegmentName.all then processor.segment name
      else (handlerTask statics doubleFaultEntry processor).segment name) = processor.segment := by
    funext name
    exact ite_self _
  rw [entered]
  simp only [selected]
  rw [loads, complete]
  · rfl
  · intro name _ current memory table cr0 cr3
    have inside : current.In space := by
      apply (handlerTask_in ready inSpace reachable).of_eqOn cr0 cr3
      rw [memory]
      exact Set.eqOn_refl _ _
    have found := segment_found ready reachable memory table
    rw [ready.gdt.segments name]
    by_cases isCode : name = .cs
    · rw [if_pos isCode, if_pos isCode, isCode,
        found.1.loadSegment_eq inside (by decide) (Gdt.code_suits (by decide)) (by decide)
          (by decide), Gdt.lastByte_flatSegment]
      rfl
    · rw [if_neg isCode, if_neg isCode,
        found.2.loadSegment_eq inside (by decide) (Gdt.data_suits isCode (by decide)) (by decide)
          (by decide), Gdt.lastByte_flatSegment]
      rfl

theorem untouched (ready : Ready statics entryPoint table doubleFaultEntry processor) :
    Set.EqOn (linkedMemory statics processor) processor.memory
      (ByteMemory.extent (processor.descriptorAddress (4 * 8)) 8) := by
  intro address member
  have bounds := ByteMemory.mem_extent.mp member
  rw [Gdt.descriptorAddress_eq ready.gdt.table] at bounds
  have apartMain := statics.apart_gdt_mainTss
  have apartTss := statics.apart_gdt_doubleFaultTss
  unfold Block.Apart gdtSize tssSize at apartMain apartTss
  simp only at apartMain apartTss
  rw [linkedMemory, ByteMemory.store_outside _ (by unfold linkSlot; omega)]
  apply ByteMemory.storeFields_outside
  intro field inFields
  have within := savedFields_within processor inFields
  unfold tssBytes at within
  omega

theorem switchTask_eq (ready : Ready statics entryPoint table doubleFaultEntry processor)
    (inSpace : processor.In space) (reachable : Reachable statics space) :
    processor.switchTask doubleFaultTssSelector.toNat =
      .ok (handlerTask statics doubleFaultEntry processor) := by
  have selector : doubleFaultTssSelector.toNat = 4 * 8 := by decide
  have covered : ByteMemory.extent statics.gdt gdtSize ⊆ space.window :=
    fun _ member => (reachable.gdt member).1
  have found := Gdt.hasEntry ready.gdt.table covered (show 4 < 5 by decide)
    ready.gdt.doubleFaultTask
  have savedInside : forall field, field ∈ processor.savedFields ->
      ByteMemory.extent (statics.mainTss + field.offset) field.width ⊆
        space.window \ space.tables := by
    intro field member address inField
    have within := savedFields_within processor member
    have bounds := ByteMemory.mem_extent.mp inField
    unfold tssBytes at within
    exact reachable.mainTss (ByteMemory.mem_extent.mpr ⟨by omega, by unfold tssSize; omega⟩)
  have linkInside : ByteMemory.extent (statics.doubleFaultTss + linkSlot) 2 ⊆
      space.window \ space.tables := by
    intro address member
    have bounds := ByteMemory.mem_extent.mp member
    unfold linkSlot at bounds
    exact reachable.doubleFaultTss (ByteMemory.mem_extent.mpr ⟨by omega, by unfold tssSize; omega⟩)
  have savedIn := inSpace.storeFields savedInside
  have linkedIn : (processor.setMemory (linkedMemory statics processor)).In space :=
    savedIn.store (Set.disjoint_left.mpr fun _ member => (linkInside member).2)
      mainTssSelector.toNat
  have linkedFound : (processor.setMemory (linkedMemory statics processor)).HasDescriptor space
      (4 * 8) (Gdt.taskSegment statics.doubleFaultTss accessTssAvailable) :=
    found.of_eqOn rfl (untouched ready)
  have links : (processor.setMemory (processor.memory.storeFields statics.mainTss
      processor.savedFields)).write (statics.doubleFaultTss + linkSlot) 2 mainTssSelector.toNat =
        some (processor.setMemory (linkedMemory statics processor)) :=
    savedIn.write_eq (fun _ member => (linkInside member).1) _
  have address : (processor.setMemory (linkedMemory statics processor)).descriptorAddress (4 * 8) =
      statics.gdt + 4 * 8 := Gdt.descriptorAddress_eq ready.gdt.table 4
  have marks : (processor.setMemory (linkedMemory statics processor)).setAccess (4 * 8)
      ((Gdt.taskSegment statics.doubleFaultTss accessTssAvailable).access ||| 2) =
        .ok (processor.setMemory (switchedMemory statics processor)) := by
    rw [linkedFound.setAccess_eq linkedIn, address]
    rfl
  have reached : (processor.setMemory (switchedMemory statics processor)).reaches
      statics.doubleFaultTss tssBytes = true :=
    (setMemory_switched_in inSpace reachable).reaches
      (fun _ member => (reachable.doubleFaultTss member).1)
  have noLdt := @load_view _ statics space processor inSpace reachable ldtSlot 2 (by decide)
    (by decide)
  rw [Processor.switchTask, selector, found.availableTss_eq inSpace (by decide)
    (Gdt.available_taskSegment _).1 (Gdt.available_taskSegment _).2, ok_bind,
    Gdt.lastByte_taskSegment, if_neg (by decide), ready.gdt.task, Gdt.base_taskSegment,
    inSpace.writeFields_eq savedInside, require_some, ok_bind, links, require_some, ok_bind,
    marks, ok_bind, Processor.enterTaskState, Gdt.base_taskSegment, if_pos reached, require_some,
    ok_bind, if_neg (by rw [noLdt, ready.noLdt]; decide)]
  exact loadTask_eq ready inSpace reachable

/-! ## Delivery -/

theorem Ready.hasGate (ready : Ready statics entryPoint table doubleFaultEntry processor)
    (reachable : Reachable statics space) (vector : UInt8) :
    processor.HasGate space vector.toNat (Idt.gateFor entryPoint table vector).decoded := by
  have small := vector.toNat_lt
  have word := @Idt.decode_entry _ statics processor.memory vector
  rw [ready.gates] at word
  refine ⟨?_, ?_, ?_⟩
  · rw [ready.idtr]
    simp only [idtSize]
    omega
  · rw [ready.idtr]
    intro address member
    have bounds := ByteMemory.mem_extent.mp member
    simp only at bounds
    exact (reachable.idt (ByteMemory.mem_extent.mpr ⟨by omega, by unfold idtSize; omega⟩)).1
  · rw [ready.idtr]
    exact word

/-- What the handler reads back is the state that was saved. -/
theorem interruptedState_eq (ready : Ready statics entryPoint table doubleFaultEntry processor)
    {memory : ByteMemory}
    (main : Set.EqOn memory (switchedMemory statics processor)
      (ByteMemory.extent statics.mainTss tssSize))
    (handler : Set.EqOn memory (switchedMemory statics processor)
      (ByteMemory.extent statics.doubleFaultTss tssSize)) :
    Tss.interruptedState statics memory = {
      eip := processor.general .eip
      cs := kernelCodeSelector.toNat
      eflags := processor.general .eflags
      esp := processor.general .esp
      ss := kernelDataSelector.toNat
      ebp := processor.general .ebp
      previousTaskLink := mainTssSelector.toNat } := by
  have saved (field : Field) (member : field ∈ processor.savedFields)
      (fits : field.value < 256 ^ field.width) :
      memory.load (statics.mainTss + field.offset) field.width = field.value := by
    have within := savedFields_within processor member
    unfold tssBytes at within
    rw [← load_switchedMemory_saved processor member fits]
    apply ByteMemory.load_congr
    intro address inField
    have bounds := ByteMemory.mem_extent.mp inField
    exact main (ByteMemory.mem_extent.mpr ⟨by omega, by unfold tssSize; omega⟩)
  have general (register : GeneralRegister) :
      memory.load (statics.mainTss + register.slot) 4 = processor.general register :=
    saved ⟨register.slot, 4, _⟩ (general_saved processor register) (ready.words register)
  have selector (name : SegmentName) :
      memory.load (statics.mainTss + name.slot) 2 =
        if name = .cs then kernelCodeSelector.toNat else kernelDataSelector.toNat := by
    have found := saved ⟨name.slot, 2, _⟩ (segment_saved processor name)
    rw [ready.gdt.segments name] at found
    exact found (by cases name <;> decide)
  have link : memory.load (statics.doubleFaultTss + linkSlot) 2 = mainTssSelector.toNat := by
    rw [← @load_switchedMemory_link _ statics processor]
    apply ByteMemory.load_congr
    intro address inField
    have bounds := ByteMemory.mem_extent.mp inField
    unfold linkSlot at bounds
    exact handler (ByteMemory.mem_extent.mpr ⟨by omega, by unfold tssSize; omega⟩)
  simp only [Tss.interruptedState, general, selector, link]
  rfl

/-- The gate switches to the handler's task, and the error code goes on its stack. -/
theorem enters_handlerTask (ready : Ready statics entryPoint table doubleFaultEntry processor)
    (inSpace : processor.In space) (reachable : Reachable statics space) {event : Event}
    (isEight : event.vector = 8) :
    processor.vectorTo event = event.errorCode.toList.foldlM Processor.push
      (handlerTask statics doubleFaultEntry processor) := by
  have found : processor.HasGate space event.vector
      (Gate.task doubleFaultTssSelector).decoded := by
    rw [isEight]
    exact ready.hasGate reachable 8
  have selector : (Gate.task doubleFaultTssSelector).decoded.selector =
      doubleFaultTssSelector.toNat := by
    rw [Gate.decoded_task]
  rw [found.vectorTo_eq inSpace, Processor.enter, (Gate.kind_task _).1]
  simp only [(Gate.kind_task _).2, Bool.not_true, Bool.false_eq_true, if_false]
  rw [Processor.enterTask, selector, switchTask_eq ready inSpace reachable, ok_bind]

/-- A double fault starts the handler whatever the interrupted stack looks like, as
the task gate brings a stack of its own. -/
theorem deliver_doubleFault (ready : Ready statics entryPoint table doubleFaultEntry processor)
    (inSpace : processor.In space) (reachable : Reachable statics space) {event : Event}
    (isEight : event.vector = 8) :
    Exists fun started => processor.deliver event = .ok started ∧
      Started statics doubleFaultEntry event.errorCode processor started := by
  have words : event.errorCode.toList.length ≤ 1 := Option.length_toList_le
  have bounds := statics.stack_bounds
  have esp : (handlerTask statics doubleFaultEntry processor).general .esp =
      statics.doubleFaultStackTop := by
    show (UInt32.ofNat statics.doubleFaultStackTop).toNat = _
    rw [UInt32.toNat_ofNat', Nat.mod_eq_of_lt (by omega)]
  have flat : (handlerTask statics doubleFaultEntry processor).FlatStack := by
    have stack := ready.gdt.segments .ss
    exact ⟨congrArg SegmentRegister.base stack, congrArg SegmentRegister.limit stack⟩
  have pushes := pushes_eq (handlerTask_in ready inSpace reachable) flat
    (show 4 * event.errorCode.toList.length ≤ _ by rw [esp]; omega) (by rw [esp]; omega)
    (by
      rw [esp]
      intro address member
      have lower := member.1
      have upper := member.2
      exact reachable.stack (ByteMemory.mem_extent.mpr
        ⟨by omega, by unfold doubleFaultStackSize; omega⟩))
  rw [esp] at pushes
  have kept {target : Nat} (outside : target ∉ ByteMemory.extent (statics.doubleFaultStackTop - 4) 4) :
      pushed (switchedMemory statics processor) statics.doubleFaultStackTop
        event.errorCode.toList target = switchedMemory statics processor target := by
    apply pushed_outside _ (by omega)
    by_contra inside
    exact outside (ByteMemory.mem_extent.mpr (by omega))
  have apart (block : Block) (member : block ∈ statics.tables) {target : Nat}
      (inBlock : target ∈ block.bytes) :
      target ∉ ByteMemory.extent (statics.doubleFaultStackTop - 4) 4 := by
    intro inStack
    have onStack := ByteMemory.mem_extent.mp inStack
    exact statics.notMem_stacks member inBlock ⟨by omega, by omega⟩
  have enters := enters_handlerTask ready inSpace reachable isEight
  refine ⟨_, deliver_of_ok (enters.trans pushes), rfl, rfl, ?_, ?_, rfl, ?_, ?_⟩
  · show (UInt32.ofNat statics.doubleFaultStackTop).toNat = _
    rw [UInt32.toNat_ofNat', Nat.mod_eq_of_lt (by omega)]
  · show ((2 : UInt32).toNat ||| nestedTask) &&& interruptEnable = 0
    decide
  · refine interruptedState_eq ready (fun address member => kept ?_) (fun address member => kept ?_)
    · exact apart ⟨statics.mainTss, tssSize⟩ (by simp [Addresses.tables]) member
    · exact apart ⟨statics.doubleFaultTss, tssSize⟩ (by simp [Addresses.tables]) member
  · intro address outside
    simp only [doubleFaultWrites, Set.compl_union, Set.mem_inter_iff, Set.mem_compl_iff,
      ByteMemory.mem_extent] at outside
    refine (kept (fun member => outside.2 (ByteMemory.mem_extent.mp member))).trans ?_
    unfold gdtSize tssSize at outside
    exact switchedMemory_outside (by omega) (by unfold tssSize; omega) (by omega)

end Switch

end Tables
end Goatos
