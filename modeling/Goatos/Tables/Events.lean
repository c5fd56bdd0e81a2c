import Goatos.Tables.PagedSpace

namespace Goatos
namespace Tables

open Library
open ProtectedMode

/-!
# Events over whole runs of the kernel

After `kernel_main` set up the tables, the kernel computes, takes interrupts, registers
its drivers, turns paging on, and in the debug builds takes a handler away again.  None
of this touches what a double fault depends on.  With paging on, every event on the
kernel stack ends in a handler, or in the one for double faults on its private stack;
the processor never shuts down.
-/

variable {image : Memory.KernelImage} {statics : Statics image}

/-! ## The vectors -/

/-- The gates that lead to a handler on the interrupted stack. -/
def handlerGates (entryPoint : Idt.EntryPoints) (table : UInt8 -> Option Interrupt.Entry)
    (vector : Nat) : Option ProtectedMode.Gate :=
  (table (UInt8.ofNat vector)).map fun handler =>
    (Gate.interrupt (entryPoint (UInt8.ofNat vector) handler) kernelCodeSelector).decoded

section Vectors

variable {space : AddressSpace} {entryPoint : Idt.EntryPoints}
  {table : UInt8 -> Option Interrupt.Entry} {doubleFaultEntry : UInt32} {processor : Processor}

/-- Words on the kernel stack do not matter to the tables. -/
theorem Ready.of_stack (ready : Ready statics entryPoint table doubleFaultEntry processor)
    {memory : ByteMemory}
    (kept : Set.EqOn memory processor.memory (Set.Ico statics.stackBottom statics.stackTop)ᶜ) :
    Ready statics entryPoint table doubleFaultEntry (processor.setMemory memory) := by
  have bounds := statics.stack_bounds
  have apart {block : Block} (member : block ∈ statics.tables) {address : Nat}
      (inBlock : address ∈ block.bytes) :
      address ∈ (Set.Ico statics.stackBottom statics.stackTop)ᶜ := by
    intro onStack
    have lower := onStack.1
    exact statics.notMem_stacks member inBlock ⟨by omega, onStack.2⟩
  refine ready.of_computes (show Computes statics ∅ processor (processor.setMemory memory) from
    ⟨?_, rfl, rfl, rfl, rfl, rfl, rfl, ready.words⟩)
  rw [Set.union_empty]
  rintro address ((inGdt | inIdt) | inTss)
  · exact kept (@apart ⟨statics.gdt, gdtSize⟩ (by simp [Addresses.tables]) _ inGdt)
  · exact kept (@apart ⟨statics.idt, idtSize⟩ (by simp [Addresses.tables]) _ inIdt)
  · exact kept (@apart ⟨statics.doubleFaultTss, tssSize⟩ (by simp [Addresses.tables]) _ inTss)

theorem Ready.hasHandler (ready : Ready statics entryPoint table doubleFaultEntry processor)
    (reachable : Reachable statics space) {vector : Nat} {gate : ProtectedMode.Gate}
    (small : vector < 256) (different : vector ≠ 8)
    (installed : handlerGates entryPoint table vector = some gate) :
    processor.HasHandler space vector gate (Gdt.flatSegment (accessKernelCode ||| 1)) := by
  have number : (UInt8.ofNat vector).toNat = vector := by
    rw [UInt8.toNat_ofNat', Nat.mod_eq_of_lt small]
  have other : UInt8.ofNat vector ≠ 8 := fun same =>
    different (number.symm.trans (congrArg UInt8.toNat same))
  rcases Option.map_eq_some_iff.mp installed with ⟨handler, found, rfl⟩
  have hasGate := ready.hasGate reachable (UInt8.ofNat vector)
  rw [number, Idt.gateFor, if_neg other, found] at hasGate
  have selector : (Gate.interrupt (entryPoint (UInt8.ofNat vector) handler)
      kernelCodeSelector).decoded.selector = 1 * 8 := by
    rw [Gate.decoded_interrupt]
    exact show kernelCodeSelector.toNat = 1 * 8 by decide
  have code : processor.HasDescriptor space (1 * 8) (Gdt.flatSegment (accessKernelCode ||| 1)) :=
    Gdt.hasEntry ready.gdt.table (fun _ member => (reachable.gdt member).1) (by decide)
      ready.gdt.code
  refine ⟨hasGate, (Gate.kind_interrupt _ _).1, (Gate.kind_interrupt _ _).2, ?_, ?_,
    Gdt.code_suits (by decide), by decide, by decide⟩
  · rw [selector]
    exact code
  · rw [selector]
    decide

theorem Ready.vectored (ready : Ready statics entryPoint table doubleFaultEntry processor)
    (reachable : Reachable statics space) :
    processor.Vectored space (Set.Ico statics.stackBottom statics.stackTop)
      (handlerGates entryPoint table) (Gdt.flatSegment (accessKernelCode ||| 1)) := by
  refine ⟨?_, ?_⟩
  · intro memory kept vector gate small different installed
    exact (ready.of_stack kept).hasHandler reachable small different installed
  · intro memory kept vector small different absent
    have number : (UInt8.ofNat vector).toNat = vector := by
      rw [UInt8.toNat_ofNat', Nat.mod_eq_of_lt small]
    have other : UInt8.ofNat vector ≠ 8 := fun same =>
      different (number.symm.trans (congrArg UInt8.toNat same))
    have hasGate := (ready.of_stack kept).hasGate reachable (UInt8.ofNat vector)
    rw [number, Idt.gateFor, if_neg other, Option.map_eq_none_iff.mp absent] at hasGate
    exact ⟨_, hasGate, show Gate.missing.decoded.kind = none by decide⟩

end Vectors

/-! ## At the first instruction of a handler -/

/-- The handler finds the usual frame, with interrupts off and with the segments as
they were. -/
structure Entered (handler : UInt32) (event : Event) (before after : Processor) : Prop where
  eip : after.general .eip = handler.toNat
  esp : after.general .esp =
    before.general .esp - (12 + 4 * event.errorCode.toList.length)
  eflags : after.general .eflags =
    andNot 32 (before.general .eflags) (clearedFlags + interruptEnable)
  others : forall register, register ≠ .eip -> register ≠ .esp -> register ≠ .eflags ->
    after.general register = before.general register
  segments : after.segment = before.segment
  frame : forall index value, (before.frame event)[index]? = some value -> value < 2 ^ 32 ->
    after.memory.load (before.general .esp - 4 * (index + 1)) 4 = value
  kept : Set.EqOn after.memory before.memory
    (Set.Ico (before.general .esp - (12 + 4 * event.errorCode.toList.length))
      (before.general .esp))ᶜ
  system : (after.task, after.gdtr, after.idtr, after.cr0, after.cr3) =
    (before.task, before.gdtr, before.idtr, before.cr0, before.cr3)

theorem entered_of_gate {processor : Processor} (inForce : Gdt.InForce statics processor)
    (handler : UInt32) (event : Event)
    (room : 12 + 4 * event.errorCode.toList.length ≤ processor.general .esp) :
    Entered handler event processor (processor.entered event
      (Gate.interrupt handler kernelCodeSelector).decoded
      (Gdt.flatSegment (accessKernelCode ||| 1))) := by
  have length := processor.length_frame event
  have code := inForce.segments .cs
  refine ⟨?_, ?_, rfl, ?_, ?_, ?_, ?_, rfl⟩
  · rw [Gate.decoded_interrupt]
    rfl
  · rw [← length]
    rfl
  · intro register notEip notEsp notEflags
    simp only [Processor.entered, Processor.setGeneral, Processor.setMemory, Processor.setSegment,
      if_neg notEip, if_neg notEsp, if_neg notEflags]
  · funext name
    simp only [Processor.entered, Processor.setGeneral, Processor.setMemory, Processor.setSegment]
    split
    · rename_i isCode
      rw [isCode, code, Gate.decoded_interrupt, Gdt.lastByte_flatSegment]
      rfl
    · rfl
  · intro index value found fits
    exact load_pushed processor.memory (by omega) found fits
  · intro address outside
    have apart : ¬ (_ ≤ address ∧ address < _) := outside
    exact pushed_outside processor.memory (by omega) (by omega)

/-! ## The runs -/

/-- The kernel as far as the delivery of events depends on it: the processor, the
handlers of the vectors, and the address space. -/
structure World where
  processor : Processor
  table : UInt8 -> Option Interrupt.Entry
  space : AddressSpace

inductive Action where
  | compute
  | interrupt (event : Event)
  | register (driver : Idt.Driver)
  | clear (vector : UInt8)
  | enablePaging

/-- What the kernel does.  Code keeps to its own memory: it does not write into the tables
of the processor or into the frames of the map, and leaves the system registers alone.
Interrupts come at any time, and find a stack outside of both.  Gates are replaced through
the functions of `idt.rs`, and the one for double faults is not cleared. -/
inductive Step (statics : Statics image) (entryPoint : Idt.EntryPoints) :
    World -> Action -> World -> Prop
  | compute {world : World} {after : Processor} :
      Computes statics world.space.tables world.processor after ->
      Step statics entryPoint world .compute { world with processor := after }
  | interrupt {world : World} {event : Event} {after : Processor} :
      event.vector < 256 -> event.vector ≠ 8 ->
      4 * (world.processor.frame event).length ≤ world.processor.general .esp ->
      Set.Ico (world.processor.general .esp - 4 * (world.processor.frame event).length)
        (world.processor.general .esp) ⊆
          (world.space.window \ world.space.tables) \ systemBytes statics ->
      world.processor.deliver event = .ok after ->
      Step statics entryPoint world (.interrupt event) { world with processor := after }
  | register {world : World} (driver : Idt.Driver) :
      Step statics entryPoint world (.register driver) { world with
        processor := world.processor.setMemory
          (driver.register statics entryPoint world.processor.memory)
        table := Function.update world.table driver.vector (some driver.handler) }
  | clear {world : World} {vector : UInt8} :
      vector ≠ 8 ->
      Step statics entryPoint world (.clear vector) { world with
        processor := world.processor.setMemory
          (Idt.clearHandler statics vector world.processor.memory)
        table := Function.update world.table vector none }
  | enablePaging {world : World} {map : Memory.MemoryMap} {pool : Memory.FrameWorld}
      {frames : List Memory.Frame} :
      PagingReady statics map pool frames world.processor ->
      Step statics entryPoint world .enablePaging { world with
        processor := pagingInit statics map pool world.processor
        space := pagedSpace statics.stackGuardPage (Memory.Paging.identityMapEnd map) frames }

/-- The invariant of the runs: the tables are in force, the gates are those of the
handlers, and the map, if there is one, reaches the tables. -/
structure Sound (statics : Statics image) (entryPoint : Idt.EntryPoints) (doubleFaultEntry : UInt32)
    (world : World) : Prop where
  ready : Ready statics entryPoint world.table doubleFaultEntry world.processor
  inSpace : world.processor.In world.space
  reachable : Reachable statics world.space
  guarded : world.processor.cr0 &&& pagingBit ≠ 0 ->
    world.space.StackAboveHole statics.stackGuardPage statics.stackBottom statics.stackTop

section Invariant

variable {entryPoint : Idt.EntryPoints} {doubleFaultEntry : UInt32} {world next : World}

theorem Sound.compute (sound : Sound statics entryPoint doubleFaultEntry world)
    {after : Processor} (computes : Computes statics world.space.tables world.processor after) :
    Sound statics entryPoint doubleFaultEntry { world with processor := after } where
  ready := sound.ready.of_computes computes
  inSpace := sound.inSpace.of_eqOn computes.cr0 computes.cr3
    (computes.memory.mono Set.subset_union_right)
  reachable := sound.reachable
  guarded := by
    intro on
    rw [computes.cr0] at on
    exact sound.guarded on

/-- With a frame that fits, a vector is entered exactly if it has a handler. -/
theorem Sound.enters (sound : Sound statics entryPoint doubleFaultEntry world) {event : Event}
    {after : Processor} (small : event.vector < 256) (different : event.vector ≠ 8)
    (room : 4 * (world.processor.frame event).length ≤ world.processor.general .esp)
    (stack : Set.Ico (world.processor.general .esp - 4 * (world.processor.frame event).length)
      (world.processor.general .esp) ⊆ world.space.window \ world.space.tables) :
    world.processor.deliver event = .ok after ↔
      Exists fun handler => world.table (UInt8.ofNat event.vector) = some handler ∧
        after = world.processor.entered event
          (Gate.interrupt (entryPoint (UInt8.ofNat event.vector) handler)
            kernelCodeSelector).decoded (Gdt.flatSegment (accessKernelCode ||| 1)) := by
  have vectored := sound.ready.vectored sound.reachable
  have flat : world.processor.FlatStack := by
    have register := sound.ready.gdt.segments .ss
    exact ⟨congrArg SegmentRegister.base register, congrArg SegmentRegister.limit register⟩
  cases found : world.table (UInt8.ofNat event.vector) with
  | none =>
      have absent : handlerGates entryPoint world.table event.vector = none := by
        rw [handlerGates, found, Option.map_none]
      rcases vectored.missing world.processor.memory (Set.eqOn_refl _ _) _ small different absent
        with ⟨missing, hasGate, noKind⟩
      have faults : world.processor.vectorTo event =
          .error (.generalProtection event.gateCode, world.processor.memory) := by
        rw [Processor.HasGate.vectorTo_eq sound.inSpace hasGate, Processor.enter, noKind]
        rfl
      rw [deliver_of_error faults]
      constructor
      · intro impossible
        cases impossible
      · rintro ⟨handler, impossible, _⟩
        cases impossible
  | some handler =>
      have installed : handlerGates entryPoint world.table event.vector =
          some (Gate.interrupt (entryPoint (UInt8.ofNat event.vector) handler)
            kernelCodeSelector).decoded := by
        rw [handlerGates, found, Option.map_some]
      have handled := vectored.handled world.processor.memory (Set.eqOn_refl _ _) _ _ small
        different installed
      rw [Processor.HasHandler.deliver_fits sound.inSpace handled flat room
        (sound.ready.words .esp) stack]
      constructor
      · intro equal
        exact ⟨handler, rfl, (Except.ok.inj equal).symm⟩
      · rintro ⟨other, same, rfl⟩
        cases same
        rfl

/-- Entering a handler writes a frame and changes three registers. -/
theorem Sound.interrupt_computes (sound : Sound statics entryPoint doubleFaultEntry world)
    {event : Event} {after : Processor} (small : event.vector < 256) (different : event.vector ≠ 8)
    (room : 4 * (world.processor.frame event).length ≤ world.processor.general .esp)
    (stack : Set.Ico (world.processor.general .esp - 4 * (world.processor.frame event).length)
      (world.processor.general .esp) ⊆
        (world.space.window \ world.space.tables) \ systemBytes statics)
    (delivers : world.processor.deliver event = .ok after) :
    Computes statics world.space.tables world.processor after := by
  rcases (sound.enters small different room fun _ member => (stack member).1).mp delivers with
    ⟨handler, _, rfl⟩
  have length := world.processor.length_frame event
  have before := sound.ready.words
  have entered := entered_of_gate sound.ready.gdt
    (entryPoint (UInt8.ofNat event.vector) handler) event (by omega)
  refine ⟨?_, rfl, rfl, rfl, entered.segments, rfl, rfl, ?_⟩
  · apply entered.kept.mono
    rintro address inEither onStack
    rw [← length] at onStack
    exact inEither.elim (stack onStack).2 (stack onStack).1.2
  · intro register
    by_cases isEip : register = .eip
    · rw [isEip, entered.eip]
      exact UInt32.toNat_lt _
    by_cases isEsp : register = .esp
    · rw [isEsp, entered.esp]
      exact Nat.lt_of_le_of_lt (Nat.sub_le _ _) (before .esp)
    by_cases isEflags : register = .eflags
    · rw [isEflags, entered.eflags]
      exact Nat.lt_of_le_of_lt Nat.and_le_left (before .eflags)
    rw [entered.others register isEip isEsp isEflags]
    exact before register

/-- Replacing a gate changes nothing but that vector, if it is not the one of double
faults. -/
theorem Sound.setEntry (sound : Sound statics entryPoint doubleFaultEntry world) {vector : UInt8}
    (other : vector ≠ 8) {gate : Gate} {handler : Option Interrupt.Entry}
    (same : gate = match handler with
      | some handler => Gate.interrupt (entryPoint vector handler) kernelCodeSelector
      | none => Gate.missing) :
    Sound statics entryPoint doubleFaultEntry { world with
      processor := world.processor.setMemory
        (Idt.setEntry statics vector gate world.processor.memory)
      table := Function.update world.table vector handler } := by
  have apartGdt := statics.apart_gdt_idt
  have apartTss := statics.apart_idt_doubleFaultTss
  simp only [Block.Apart] at apartGdt apartTss
  have kept {address : Nat} (outside : address ∉ ByteMemory.extent statics.idt idtSize) :
      Idt.setEntry statics vector gate world.processor.memory address =
        world.processor.memory address := by
    apply Idt.setEntry_outside
    by_contra inside
    exact outside (ByteMemory.mem_extent.mpr (by omega))
  have system : Set.EqOn (Idt.setEntry statics vector gate world.processor.memory)
      world.processor.memory
      (ByteMemory.extent statics.gdt gdtSize ∪ ByteMemory.extent statics.doubleFaultTss tssSize) := by
    rintro address (inGdt | inTss)
    · have position := ByteMemory.mem_extent.mp inGdt
      exact kept (fun inIdt => by
        have bounds := ByteMemory.mem_extent.mp inIdt
        omega)
    · have position := ByteMemory.mem_extent.mp inTss
      exact kept (fun inIdt => by
        have bounds := ByteMemory.mem_extent.mp inIdt
        omega)
  have tables : Set.EqOn (Idt.setEntry statics vector gate world.processor.memory)
      world.processor.memory world.space.tables := by
    intro address member
    exact kept fun inIdt => (sound.reachable.idt inIdt).2 member
  refine ⟨?_, sound.inSpace.of_eqOn rfl rfl tables, sound.reachable, sound.guarded⟩
  refine sound.ready.of_kept (system.mono Set.sdiff_subset)
    (Idt.setEntry_refines entryPoint sound.ready.gates other same) rfl rfl rfl rfl ?_
    sound.ready.words
  intro on
  refine Eq.trans (ByteMemory.load_congr fun address member => ?_) (sound.ready.directory on)
  have position := ByteMemory.mem_extent.mp member
  unfold cr3Slot at position
  exact system (Or.inr (ByteMemory.mem_extent.mpr ⟨by omega, by unfold tssSize; omega⟩))

theorem Sound.enablePaging (sound : Sound statics entryPoint doubleFaultEntry world)
    {map : Memory.MemoryMap} {pool : Memory.FrameWorld} {frames : List Memory.Frame}
    (able : PagingReady statics map pool frames world.processor) :
    Sound statics entryPoint doubleFaultEntry { world with
      processor := pagingInit statics map pool world.processor
      space := pagedSpace statics.stackGuardPage (Memory.Paging.identityMapEnd map) frames } where
  ready := able.ready sound.ready
  inSpace := able.inSpace.2
  reachable := able.mapFrames.reachable
  guarded := fun _ => able.mapFrames.stackAboveHole

theorem Step.sound {action : Action} (step : Step statics entryPoint world action next)
    (sound : Sound statics entryPoint doubleFaultEntry world) :
    Sound statics entryPoint doubleFaultEntry next := by
  cases step with
  | compute computes => exact sound.compute computes
  | interrupt small different room stack delivers =>
      exact sound.compute (sound.interrupt_computes small different room stack delivers)
  | register driver => exact sound.setEntry driver.vector_ne_eight rfl
  | clear other => exact sound.setEntry other rfl
  | enablePaging able => exact sound.enablePaging able

end Invariant

/-! ## Boot -/

/-- The tables in the order of `kernel_main`: `tss::init`, `gdt::init`, and the interrupt
table. -/
def bootTables (statics : Statics image) (entryPoint : Idt.EntryPoints) (doubleFaultEntry : UInt32)
    (processor : Processor) : Attempt Processor := do
  let loaded ← Gdt.init statics
    (processor.setMemory (Tss.init statics doubleFaultEntry processor.memory))
  return (Idt.boot statics entryPoint loaded).2

/-- The vectors after boot, none of which is missing. -/
def bootHandlers : UInt8 -> Option Interrupt.Entry :=
  Idt.full (Interrupt.interruptsInit Interrupt.exceptionsInit)

section Boot

variable {entryPoint : Idt.EntryPoints} {doubleFaultEntry : UInt32} {processor : Processor}

theorem boot_registers (processor : Processor) :
    (Idt.boot statics entryPoint processor).2 =
      (processor.lidt ⟨statics.idt, idtSize - 1⟩).setMemory
        (Idt.boot statics entryPoint processor).2.memory := by
  simp only [Idt.boot, Idt.init, Processor.lidt, Processor.setMemory]

/-- Both table loads leave the task state segment of the handler alone. -/
theorem boot_keeps_handlerTss {loaded : Processor}
    (kept : Set.EqOn loaded.memory (Tss.init statics doubleFaultEntry processor.memory)
      (ByteMemory.extent statics.gdt gdtSize)ᶜ) :
    Set.EqOn (Idt.boot statics entryPoint loaded).2.memory
      (Tss.init statics doubleFaultEntry processor.memory)
      (ByteMemory.extent statics.doubleFaultTss tssSize) := by
  have apartGdt := statics.apart_gdt_doubleFaultTss
  have apartIdt := statics.apart_idt_doubleFaultTss
  simp only [Block.Apart] at apartGdt apartIdt
  intro address member
  have position := ByteMemory.mem_extent.mp member
  rw [Idt.boot_outside entryPoint loaded (by omega) (Idt.notMem_counters
    (show ⟨statics.doubleFaultTss, tssSize⟩ ∈ statics.tables by simp [Addresses.tables]) member)]
  apply kept
  intro inGdt
  have bounds := ByteMemory.mem_extent.mp inGdt
  omega

theorem bootTables_ready (off : processor.cr0 &&& pagingBit = 0)
    (words : forall register, processor.general register < 2 ^ 32) :
    Exists fun booted => bootTables statics entryPoint doubleFaultEntry processor = .ok booted ∧
      Ready statics entryPoint bootHandlers doubleFaultEntry booted ∧
      booted.general = processor.general ∧ booted.cr0 = processor.cr0 := by
  rcases @Gdt.init_spec _ (processor.setMemory (Tss.init statics doubleFaultEntry processor.memory))
    statics off with ⟨loaded, loads, inForce, general, _, cr0, _, kept⟩
  have apart := statics.apart_gdt_idt
  simp only [Block.Apart] at apart
  have registers := @boot_registers _ statics entryPoint loaded
  have word (selector : Nat) (inTable : selector + 8 ≤ gdtSize) :
      (Idt.boot statics entryPoint loaded).2.memory.load (statics.gdt + selector) 8 =
        loaded.memory.load (statics.gdt + selector) 8 := by
    apply ByteMemory.load_congr
    intro address member
    have position := ByteMemory.mem_extent.mp member
    have inGdt : address ∈ ByteMemory.extent statics.gdt gdtSize :=
      ByteMemory.mem_extent.mpr ⟨by omega, by omega⟩
    exact Idt.boot_outside entryPoint loaded (by omega) (Idt.notMem_counters
      (show ⟨statics.gdt, gdtSize⟩ ∈ statics.tables by simp [Addresses.tables]) inGdt)
  have slot {offset width : Nat} (within : offset + width ≤ tssSize) :
      (Idt.boot statics entryPoint loaded).2.memory.load (statics.doubleFaultTss + offset) width =
        (Tss.init statics doubleFaultEntry processor.memory).load
          (statics.doubleFaultTss + offset) width := by
    apply ByteMemory.load_congr
    intro address member
    have position := ByteMemory.mem_extent.mp member
    exact boot_keeps_handlerTss kept (ByteMemory.mem_extent.mpr ⟨by omega, by omega⟩)
  have cr0Kept : (Idt.boot statics entryPoint loaded).2.cr0 = processor.cr0 := by
    rw [registers]
    exact cr0
  have generalKept : (Idt.boot statics entryPoint loaded).2.general = processor.general := by
    rw [registers]
    exact general
  refine ⟨(Idt.boot statics entryPoint loaded).2, ?_, ?_, generalKept, cr0Kept⟩
  · rw [bootTables, loads]
    rfl
  · refine ⟨⟨?_, ?_, ?_, ?_, ?_, ?_⟩, ?_, Idt.entry_boot entryPoint loaded, ?_, ?_, ?_, ?_, ?_⟩
    · rw [registers]
      exact inForce.table
    · rw [word _ (by decide)]
      exact inForce.code
    · rw [word _ (by decide)]
      exact inForce.data
    · rw [word _ (by decide)]
      exact inForce.doubleFaultTask
    · rw [registers]
      exact inForce.task
    · rw [registers]
      exact inForce.segments
    · rw [registers]
      rfl
    · intro register
      rw [slot register.slot_within.2]
      exact TaskStateSegment.load_general _ _ _ register
    · intro name
      rw [slot name.slot_within.2]
      exact TaskStateSegment.load_selector _ _ _ name
    · rw [slot (by decide)]
      exact TaskStateSegment.load_ldtSelector _ _ _
    · intro on
      rw [cr0Kept] at on
      exact absurd off on
    · rw [generalKept]
      exact words

theorem reachable_physical : Reachable statics AddressSpace.physical := by
  have bounds := statics.stack_bounds
  have table (block : Block) (member : block ∈ statics.tables) :
      block.bytes ⊆ AddressSpace.physical.window \ AddressSpace.physical.tables := by
    intro address inBlock
    have inside := statics.table_inside block member
    have position := ByteMemory.mem_extent.mp inBlock
    exact ⟨Set.mem_Iio.mpr (by omega), Set.notMem_empty address⟩
  refine ⟨table ⟨statics.gdt, gdtSize⟩ (by simp [Addresses.tables]),
    table ⟨statics.idt, idtSize⟩ (by simp [Addresses.tables]),
    table ⟨statics.mainTss, tssSize⟩ (by simp [Addresses.tables]),
    table ⟨statics.doubleFaultTss, tssSize⟩ (by simp [Addresses.tables]), ?_⟩
  intro address member
  have position := ByteMemory.mem_extent.mp member
  unfold doubleFaultStackSize at position
  exact ⟨Set.mem_Iio.mpr (by omega), Set.notMem_empty address⟩

/-- The kernel right after the tables were set up, with paging off. -/
def bootWorld (booted : Processor) : World :=
  ⟨booted, bootHandlers, AddressSpace.physical⟩

theorem run_sound (off : processor.cr0 &&& pagingBit = 0)
    (words : forall register, processor.general register < 2 ^ 32) {booted : Processor}
    (boots : bootTables statics entryPoint doubleFaultEntry processor = .ok booted)
    {actions : List Action} {world : World}
    (run : Run (Step statics entryPoint) (bootWorld booted) actions world) :
    Sound statics entryPoint doubleFaultEntry world := by
  rcases @bootTables_ready _ statics entryPoint doubleFaultEntry _ off words with
    ⟨found, finds, ready, _, cr0⟩
  have same : found = booted := Except.ok.inj (finds.symm.trans boots)
  subst same
  refine run.invariant _ ⟨ready, Processor.in_physical ?_, reachable_physical, ?_⟩
    (fun _ _ _ sound step => step.sound sound)
  · rw [show (bootWorld found).processor.cr0 = processor.cr0 from cr0]
    exact off
  · intro on
    rw [show (bootWorld found).processor.cr0 = processor.cr0 from cr0] at on
    exact absurd off on

end Boot

/-! ## Every event is handled -/

section Handled

variable {entryPoint : Idt.EntryPoints} {doubleFaultEntry : UInt32} {world : World}

theorem Sound.deliverable (sound : Sound statics entryPoint doubleFaultEntry world)
    (paging : world.processor.cr0 &&& pagingBit ≠ 0)
    (above : statics.stackGuardPage < world.processor.general .esp)
    (inStack : world.processor.general .esp ≤ statics.stackTop) :
    world.processor.Deliverable world.space statics.stackGuardPage statics.stackBottom
      statics.stackTop (handlerGates entryPoint world.table)
      (Gdt.flatSegment (accessKernelCode ||| 1)) := by
  have register := sound.ready.gdt.segments .ss
  have flat : world.processor.FlatStack :=
    ⟨congrArg SegmentRegister.base register, congrArg SegmentRegister.limit register⟩
  exact ⟨sound.inSpace, ⟨sound.guarded paging, flat, above, inStack⟩,
    sound.ready.vectored sound.reachable⟩

/-- Words pushed in vain do not keep the handler from starting. -/
theorem Sound.started (sound : Sound statics entryPoint doubleFaultEntry world)
    {memory : ByteMemory}
    (kept : Set.EqOn memory world.processor.memory
      (Set.Ico statics.stackBottom statics.stackTop)ᶜ)
    (inSpace : (world.processor.setMemory memory).In world.space) {event : Event}
    (isEight : event.vector = 8) :
    Exists fun after => raise (world.processor.setMemory memory) event = .running after ∧
      Started statics doubleFaultEntry event.errorCode (world.processor.setMemory memory) after := by
  rcases deliver_doubleFault (sound.ready.of_stack kept) inSpace sound.reachable isEight with
    ⟨after, delivers, started⟩
  exact ⟨after, raise_of_delivered delivers, started⟩

/-- The processor never shuts down.  After any run of the steps above, an event that comes
with paging on and the stack pointer in the kernel stack, or run into the guard page, ends
in a handler.  It is entered on the stack if there is room for the frame.  Otherwise the
handler for double faults starts on its private stack, and finds the registers that were
saved for the interrupted code.

The stack pointer has to be above the first byte of the guard page.  At that byte, the next
word would be pushed below the guard page. -/
theorem every_event_is_handled {processor booted : Processor}
    (off : processor.cr0 &&& pagingBit = 0)
    (words : forall register, processor.general register < 2 ^ 32)
    (boots : bootTables statics entryPoint doubleFaultEntry processor = .ok booted)
    {actions : List Action} (run : Run (Step statics entryPoint) (bootWorld booted) actions world)
    (paging : world.processor.cr0 &&& pagingBit ≠ 0)
    (above : statics.stackGuardPage < world.processor.general .esp)
    (inStack : world.processor.general .esp ≤ statics.stackTop) (event : Event)
    (small : event.vector < 256) :
    Exists fun after => raise world.processor event = .running after ∧
      match settled (fun vector => (world.table (UInt8.ofNat vector)).isSome)
        (world.processor.general .esp - statics.stackBottom) event with
      | some last => Exists fun handler => world.table (UInt8.ofNat last.vector) = some handler ∧
          Entered (entryPoint (UInt8.ofNat last.vector) handler) last world.processor after
      | none => Exists fun memory =>
          Set.EqOn memory world.processor.memory
            (Set.Ico statics.stackBottom (world.processor.general .esp))ᶜ ∧
          Started statics doubleFaultEntry (if event.vector = 8 then event.errorCode else some 0)
            (world.processor.setMemory memory) after := by
  have sound := run_sound off words boots run
  have deliverable := sound.deliverable paging above inStack
  by_cases isEight : event.vector = 8
  · rcases sound.started (Set.eqOn_refl _ _) sound.inSpace isEight with ⟨after, raised, started⟩
    refine ⟨after, raised, ?_⟩
    rw [settled, if_pos isEight, if_pos isEight]
    exact ⟨world.processor.memory, Set.eqOn_refl _ _, started⟩
  · have outcome := deliverable.raise_settled event small isEight
    have present : (fun vector => (handlerGates entryPoint world.table vector).isSome) =
        fun vector => (world.table (UInt8.ofNat vector)).isSome := by
      funext vector
      exact Option.isSome_map
    rw [present] at outcome
    cases ends : settled (fun vector => (world.table (UInt8.ofNat vector)).isSome)
        (world.processor.general .esp - statics.stackBottom) event with
    | some last =>
        rw [ends] at outcome
        rcases outcome with ⟨gate, installed, raised⟩
        rcases Option.map_eq_some_iff.mp installed with ⟨handler, found, rfl⟩
        have room := room_of_settled ends
        exact ⟨_, raised, handler, found, entered_of_gate sound.ready.gdt _ last (by omega)⟩
    | none =>
        rw [ends] at outcome
        rcases outcome with ⟨memory, raised, kept⟩
        have wider : Set.EqOn memory world.processor.memory
            (Set.Ico statics.stackBottom statics.stackTop)ᶜ :=
          kept.mono (Set.compl_subset_compl.mpr (Set.Ico_subset_Ico_right inStack))
        rcases sound.started wider (deliverable.of_eqOn kept).inSpace
            (show doubleFault.vector = 8 from rfl) with ⟨after, started, finds⟩
        rw [if_neg isEight]
        exact ⟨after, raised.trans started, memory, kept, finds⟩

end Handled

/-- An image with tables and stacks at the addresses that a linker might choose. -/
def sampleImage : Memory.KernelImage where
  start := 0x10000
  «end» := 0x30000

def sampleStatics : Statics sampleImage where
  gdt := 0x10000
  idt := 0x10100
  mainTss := 0x10900
  doubleFaultTss := 0x10a00
  unhandledTotal := 0x10b00
  reported := 0x10b04
  doubleFaultStackBottom := 0x11000
  separate := by decide
  inside := by decide
  aligned := by decide

/-- A processor before boot, with the given stack pointer. -/
def sampleProcessor (esp : Nat) : Processor where
  general := fun register => if register = .esp then esp else 0x202
  segment := fun _ => ⟨0, 0, 0⟩
  task := ⟨0, 0, 0⟩
  gdtr := ⟨0, 0⟩
  idtr := ⟨0, 0⟩
  cr0 := 0x11
  cr3 := 0
  memory := fun _ => 0

theorem sample_words {esp : Nat} (fits : esp < 2 ^ 32) (register : GeneralRegister) :
    (sampleProcessor esp).general register < 2 ^ 32 := by
  simp only [sampleProcessor]
  split
  · exact fits
  · decide

theorem sample_pagingReady (processor : Processor) (off : processor.cr0 &&& pagingBit = 0) :
    PagingReady sampleStatics (Memory.Paging.oneRegion 0x100000 0x700000)
      (Memory.FrameWorld.init sampleImage (Memory.Paging.oneRegion 0x100000 0x700000)
        processor.memory) [⟨0x100⟩, ⟨0x101⟩, ⟨0x102⟩] processor := by
  have window : Memory.Paging.identityMapEnd (Memory.Paging.oneRegion 0x100000 0x700000) =
      0x800000 := by decide +kernel
  have unlisted : (Memory.FrameAllocator.new sampleImage
      (Memory.Paging.oneRegion 0x100000 0x700000)).freeCount = 0 := by decide +kernel
  have line : 3 ≤ (Memory.FrameAllocator.new sampleImage
        (Memory.Paging.oneRegion 0x100000 0x700000)).unreservedFrames.length ∧
      (Memory.FrameAllocator.new sampleImage
        (Memory.Paging.oneRegion 0x100000 0x700000)).unreservedFrames.take 3 =
          [0x100, 0x101, 0x102] := by decide +kernel
  have start := Memory.FrameWorld.init_invariant sampleImage
    (Memory.Paging.oneRegion_framesDisjoint 0x100000 0x700000) processor.memory
  have next := Memory.Paging.nextFrames_eq start 3
  have queued : Memory.Paging.inLine processor.memory (Memory.FrameAllocator.new sampleImage
      (Memory.Paging.oneRegion 0x100000 0x700000)) = (Memory.FrameAllocator.new sampleImage
        (Memory.Paging.oneRegion 0x100000 0x700000)).unreservedFrames.map Memory.Frame.mk := by
    rw [Memory.Paging.inLine, unlisted]
    rfl
  refine ⟨Memory.Paging.oneRegion_framesDisjoint _ _, ?_, ⟨_, _, Run.nil⟩, rfl, off, ?_⟩
  · rw [window]
    decide
  · rw [window]
    refine next.trans ?_
    simp only [Memory.FrameWorld.init, queued, List.length_map, if_pos line.1, ← List.map_take,
      line.2]
    rfl

/-- The kernel after boot and `paging::init`. -/
def sampleWorld (booted : Processor) : World where
  processor := pagingInit sampleStatics (Memory.Paging.oneRegion 0x100000 0x700000)
    (Memory.FrameWorld.init sampleImage (Memory.Paging.oneRegion 0x100000 0x700000)
      booted.memory) booted
  table := bootHandlers
  space := pagedSpace sampleStatics.stackGuardPage
    (Memory.Paging.identityMapEnd (Memory.Paging.oneRegion 0x100000 0x700000))
    [⟨0x100⟩, ⟨0x101⟩, ⟨0x102⟩]

theorem sampleWorld_paging {booted : Processor} (off : booted.cr0 &&& pagingBit = 0) :
    (sampleWorld booted).processor.cr0 &&& pagingBit ≠ 0 := by
  rw [sampleWorld]
  exact (sample_pagingReady booted off).inSpace.1

theorem sampleWorld_stack (booted : Processor) :
    Set.Ico sampleStatics.stackBottom sampleStatics.stackTop ⊆
      ((sampleWorld booted).space.window \ (sampleWorld booted).space.tables) \
        systemBytes sampleStatics := by
  have window : Memory.Paging.identityMapEnd (Memory.Paging.oneRegion 0x100000 0x700000) =
      0x800000 := by decide +kernel
  have bottom : sampleStatics.stackBottom = 0x13000 := by decide
  have top : sampleStatics.stackTop = 0x23000 := by decide
  have guard : sampleStatics.stackGuardPage = 0x12000 := by decide
  intro address member
  rw [Set.mem_Ico, bottom, top] at member
  simp only [sampleWorld, window, guard]
  refine ⟨⟨⟨by omega, ?_⟩, ?_⟩, ?_⟩
  · unfold Memory.frameSize
    omega
  · rintro ⟨frame, inFrames, inFrame⟩
    unfold Memory.frameSize at inFrame
    simp only [List.mem_cons, List.not_mem_nil, or_false] at inFrames
    rcases inFrames with rfl | rfl | rfl <;> simp only at inFrame <;> omega
  · simp only [systemBytes, Set.mem_union, ByteMemory.mem_extent, sampleStatics, gdtSize, idtSize,
      tssSize]
    omega

/-- A run that ends with paging on, the given stack pointer and a usable stack. -/
theorem sample_run {esp : Nat} (fits : esp < 2 ^ 32) :
    Exists fun booted => Exists fun world =>
      bootTables sampleStatics (fun _ _ => 0x10000) 0x20000 (sampleProcessor esp) = .ok booted ∧
      Run (Step sampleStatics fun _ _ => 0x10000) (bootWorld booted) [.enablePaging] world ∧
      world.processor.general .esp = esp ∧ world.table = bootHandlers ∧
      world.processor.cr0 &&& pagingBit ≠ 0 ∧
      Set.Ico sampleStatics.stackBottom sampleStatics.stackTop ⊆
        (world.space.window \ world.space.tables) \ systemBytes sampleStatics := by
  have off : (sampleProcessor esp).cr0 &&& pagingBit = 0 := show 0x11 &&& pagingBit = 0 by decide
  rcases @bootTables_ready _ sampleStatics (fun _ _ => 0x10000) 0x20000 _ off (sample_words fits) with
    ⟨booted, boots, _, general, cr0⟩
  have still : booted.cr0 &&& pagingBit = 0 := by
    rw [cr0]
    exact off
  exact ⟨booted, sampleWorld booted, boots,
    Run.single (Step.enablePaging (sample_pagingReady booted still)), congrFun general .esp, rfl,
    sampleWorld_paging still, sampleWorld_stack booted⟩

/-- A page fault with no room at all on the stack reaches the handler for double faults. -/
theorem every_event_is_handled_overflow :
    Exists fun world : World => Exists fun after =>
      raise world.processor ⟨14, some 2, .exception⟩ = .running after ∧
        after.general .eip = 0x20000 ∧ after.general .ebp = 0x12000 ∧
        (Tss.interruptedState sampleStatics after.memory).esp = 0x13000 := by
  rcases @sample_run 0x13000 (by decide) with ⟨booted, world, boots, run, esp, table, paging, _⟩
  obtain ⟨event, isPageFault⟩ : Exists fun event : Event => event = ⟨14, some 2, .exception⟩ :=
    ⟨_, rfl⟩
  have small : event.vector < 256 := by
    rw [isPageFault]
    exact show 14 < 256 by decide
  have above : sampleStatics.stackGuardPage < world.processor.general .esp := by
    rw [esp]
    decide
  have inStack : world.processor.general .esp ≤ sampleStatics.stackTop := by
    rw [esp]
    decide
  have ends : settled (fun vector => (world.table (UInt8.ofNat vector)).isSome)
      (world.processor.general .esp - sampleStatics.stackBottom) event = none := by
    have used : 0x13000 - sampleStatics.stackBottom = 0 := by decide
    rw [esp, used, table, isPageFault]
    rfl
  rcases every_event_is_handled (by decide) (sample_words (by decide)) boots run paging above inStack
      event small with ⟨after, raised, outcome⟩
  rw [ends] at outcome
  rcases outcome with ⟨memory, _, started⟩
  refine ⟨world, after, isPageFault ▸ raised, started.eip, started.ebp, ?_⟩
  rw [started.interrupted]
  exact esp

end Tables
end Goatos
