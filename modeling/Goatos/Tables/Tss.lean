import Goatos.Library.ProtectedMode
import Goatos.Memory.Frame

namespace Goatos
namespace Tables

open Library
open ProtectedMode

/-!
# The task state segments

The kernel has two task state segments.  The processor saves the interrupted
registers in the main one, and loads those of the double-fault handler from the
other, its private stack included.  Both are records in the kernel image, laid out
in the order of the fields.
-/

/-! ## What the linker placed -/

/-- Where an object of the kernel image begins and how long it is. -/
structure Block where
  start : Nat
  size : Nat
  deriving DecidableEq, Repr

namespace Block

def bytes (block : Block) : Set Nat :=
  ByteMemory.extent block.start block.size

def Apart (left right : Block) : Prop :=
  left.start + left.size ≤ right.start ∨ right.start + right.size ≤ left.start

instance (left right : Block) : Decidable (left.Apart right) :=
  inferInstanceAs (Decidable (_ ∨ _))

end Block

/-- Bytes of the stacks and the page between them, as `entry.s` reserves them. -/
def doubleFaultStackSize : Nat := 4096

def guardPageSize : Nat := 4096

def kernelStackSize : Nat := 64 * 1024

def gdtSize : Nat := 40

def idtSize : Nat := 2048

def tssSize : Nat := 104

/-- Bytes of `UNHANDLED_TOTAL` and of `REPORTED`, which `interrupts::init` resets. -/
def unhandledTotalSize : Nat := 4

def reportedSize : Nat := 8 * 4

/-- Where the linker put the tables, the counters of the catch-all and the stacks. -/
structure Addresses where
  gdt : Nat
  idt : Nat
  mainTss : Nat
  doubleFaultTss : Nat
  unhandledTotal : Nat
  reported : Nat
  doubleFaultStackBottom : Nat

namespace Addresses

variable (addresses : Addresses)

/-- The tables that the processor works with. -/
def tables : List Block :=
  [⟨addresses.gdt, gdtSize⟩, ⟨addresses.idt, idtSize⟩, ⟨addresses.mainTss, tssSize⟩,
    ⟨addresses.doubleFaultTss, tssSize⟩]

def counters : List Block :=
  [⟨addresses.unhandledTotal, unhandledTotalSize⟩, ⟨addresses.reported, reportedSize⟩]

/-- `entry.s` puts the stack for double faults, the guard page and the kernel stack one
after the other, so they are one block. -/
def stackBlock : Block :=
  ⟨addresses.doubleFaultStackBottom, doubleFaultStackSize + guardPageSize + kernelStackSize⟩

def objects : List Block :=
  addresses.tables ++ (addresses.counters ++ [addresses.stackBlock])

end Addresses

/-- The objects are separate parts of the kernel image, and the guard page is a
page.  Where they are is up to the linker. -/
structure Statics (image : Memory.KernelImage) extends Addresses where
  separate : toAddresses.objects.Pairwise Block.Apart
  inside : forall block, block ∈ toAddresses.objects ->
    image.start.toNat ≤ block.start ∧ block.start + block.size ≤ image.end.toNat
  aligned : 4096 ∣ doubleFaultStackBottom

namespace Statics

variable {image : Memory.KernelImage} (statics : Statics image)

def doubleFaultStackTop : Nat :=
  statics.doubleFaultStackBottom + doubleFaultStackSize

def stackGuardPage : Nat :=
  statics.doubleFaultStackTop

def stackBottom : Nat :=
  statics.stackGuardPage + guardPageSize

def stackTop : Nat :=
  statics.stackBottom + kernelStackSize

theorem table_inside (block : Block) (member : block ∈ statics.tables) :
    image.start.toNat ≤ block.start ∧ block.start + block.size ≤ image.end.toNat :=
  statics.inside block (List.mem_append_left _ member)

theorem tables_separate : statics.tables.Pairwise Block.Apart :=
  (List.pairwise_append.mp statics.separate).1

theorem apart_gdt_mainTss :
    Block.Apart ⟨statics.gdt, gdtSize⟩ ⟨statics.mainTss, tssSize⟩ :=
  (List.pairwise_cons.mp statics.tables_separate).1 _ (by simp)

theorem apart_gdt_doubleFaultTss :
    Block.Apart ⟨statics.gdt, gdtSize⟩ ⟨statics.doubleFaultTss, tssSize⟩ :=
  (List.pairwise_cons.mp statics.tables_separate).1 _ (by simp)

theorem apart_gdt_idt :
    Block.Apart ⟨statics.gdt, gdtSize⟩ ⟨statics.idt, idtSize⟩ :=
  (List.pairwise_cons.mp statics.tables_separate).1 _ (by simp)

theorem apart_idt_mainTss :
    Block.Apart ⟨statics.idt, idtSize⟩ ⟨statics.mainTss, tssSize⟩ :=
  (List.pairwise_cons.mp (List.pairwise_cons.mp statics.tables_separate).2).1 _ (by simp)

theorem apart_idt_doubleFaultTss :
    Block.Apart ⟨statics.idt, idtSize⟩ ⟨statics.doubleFaultTss, tssSize⟩ :=
  (List.pairwise_cons.mp (List.pairwise_cons.mp statics.tables_separate).2).1 _ (by simp)

theorem apart_mainTss_doubleFaultTss :
    Block.Apart ⟨statics.mainTss, tssSize⟩ ⟨statics.doubleFaultTss, tssSize⟩ :=
  (List.pairwise_cons.mp (List.pairwise_cons.mp (List.pairwise_cons.mp
    statics.tables_separate).2).2).1 _ (by simp)

theorem apart_counters {table counter : Block} (isTable : table ∈ statics.tables)
    (isCounter : counter ∈ statics.counters) : table.Apart counter :=
  (List.pairwise_append.mp statics.separate).2.2 table isTable counter
    (List.mem_append_left _ isCounter)

theorem notMem_stacks {block : Block} (member : block ∈ statics.tables) {target : Nat}
    (inBlock : target ∈ block.bytes) :
    target ∉ Set.Ico statics.doubleFaultStackBottom statics.stackTop := by
  have apart : block.Apart statics.stackBlock :=
    (List.pairwise_append.mp statics.separate).2.2 block member _
      (List.mem_append_right _ (List.mem_singleton_self _))
  have top : statics.stackTop = statics.doubleFaultStackBottom +
      (doubleFaultStackSize + guardPageSize + kernelStackSize) := by
    simp only [stackTop, stackBottom, stackGuardPage, doubleFaultStackTop, Nat.add_assoc]
  intro onStack
  have bounds := ByteMemory.mem_extent.mp inBlock
  have lower := onStack.1
  have upper := onStack.2
  rw [top] at upper
  unfold Block.Apart Addresses.stackBlock at apart
  simp only at apart
  omega

/-- The stacks are inside the image, so below 4 GiB. -/
theorem stack_bounds : image.start.toNat ≤ statics.doubleFaultStackBottom ∧
    statics.doubleFaultStackTop = statics.doubleFaultStackBottom + 4096 ∧
    statics.stackGuardPage = statics.doubleFaultStackBottom + 4096 ∧
    statics.stackBottom = statics.doubleFaultStackBottom + 8192 ∧
    statics.stackTop = statics.doubleFaultStackBottom + 73728 ∧
    statics.stackTop ≤ image.end.toNat ∧ image.end.toNat < 2 ^ 32 := by
  have bounds := statics.inside statics.stackBlock (by simp [Addresses.objects])
  refine ⟨bounds.1, rfl, rfl, ?_, ?_, ?_, image.end.toNat_lt⟩
  · simp only [stackBottom, stackGuardPage, doubleFaultStackTop, doubleFaultStackSize,
      guardPageSize, Nat.add_assoc, Nat.reduceAdd]
  · simp only [stackTop, stackBottom, stackGuardPage, doubleFaultStackTop, doubleFaultStackSize,
      guardPageSize, kernelStackSize, Nat.add_assoc, Nat.reduceMul, Nat.reduceAdd]
  · have last := bounds.2
    simp only [Addresses.stackBlock, ← Nat.add_assoc] at last
    exact last

end Statics

/-! ## The segments -/

/-- Selectors of the descriptor table (`gdt.rs`). -/
def kernelCodeSelector : UInt16 := 0x08

def kernelDataSelector : UInt16 := 0x10

def mainTssSelector : UInt16 := 0x18

def doubleFaultTssSelector : UInt16 := 0x20

structure TaskStateSegment where
  previousTaskLink : UInt16
  reserved0 : UInt16
  esp0 : UInt32
  ss0 : UInt16
  reserved1 : UInt16
  esp1 : UInt32
  ss1 : UInt16
  reserved2 : UInt16
  esp2 : UInt32
  ss2 : UInt16
  reserved3 : UInt16
  cr3 : UInt32
  eip : UInt32
  eflags : UInt32
  eax : UInt32
  ecx : UInt32
  edx : UInt32
  ebx : UInt32
  esp : UInt32
  ebp : UInt32
  esi : UInt32
  edi : UInt32
  es : UInt16
  reserved4 : UInt16
  cs : UInt16
  reserved5 : UInt16
  ss : UInt16
  reserved6 : UInt16
  ds : UInt16
  reserved7 : UInt16
  fs : UInt16
  reserved8 : UInt16
  gs : UInt16
  reserved9 : UInt16
  ldtSelector : UInt16
  reserved10 : UInt16
  debugTrap : UInt16
  iomapBase : UInt16

namespace TaskStateSegment

/-- The fields in the order of their declaration, with their widths. -/
def fields (tss : TaskStateSegment) : List (Nat × Nat) :=
  [(2, tss.previousTaskLink.toNat), (2, tss.reserved0.toNat),
   (4, tss.esp0.toNat), (2, tss.ss0.toNat), (2, tss.reserved1.toNat),
   (4, tss.esp1.toNat), (2, tss.ss1.toNat), (2, tss.reserved2.toNat),
   (4, tss.esp2.toNat), (2, tss.ss2.toNat), (2, tss.reserved3.toNat),
   (4, tss.cr3.toNat), (4, tss.eip.toNat), (4, tss.eflags.toNat),
   (4, tss.eax.toNat), (4, tss.ecx.toNat), (4, tss.edx.toNat), (4, tss.ebx.toNat),
   (4, tss.esp.toNat), (4, tss.ebp.toNat), (4, tss.esi.toNat), (4, tss.edi.toNat),
   (2, tss.es.toNat), (2, tss.reserved4.toNat), (2, tss.cs.toNat), (2, tss.reserved5.toNat),
   (2, tss.ss.toNat), (2, tss.reserved6.toNat), (2, tss.ds.toNat), (2, tss.reserved7.toNat),
   (2, tss.fs.toNat), (2, tss.reserved8.toNat), (2, tss.gs.toNat), (2, tss.reserved9.toNat),
   (2, tss.ldtSelector.toNat), (2, tss.reserved10.toNat),
   (2, tss.debugTrap.toNat), (2, tss.iomapBase.toNat)]

def layout (tss : TaskStateSegment) : List Field :=
  Field.consecutive 0 tss.fields

def empty : TaskStateSegment where
  previousTaskLink := 0
  reserved0 := 0
  esp0 := 0
  ss0 := 0
  reserved1 := 0
  esp1 := 0
  ss1 := 0
  reserved2 := 0
  esp2 := 0
  ss2 := 0
  reserved3 := 0
  cr3 := 0
  eip := 0
  eflags := 0
  eax := 0
  ecx := 0
  edx := 0
  ebx := 0
  esp := 0
  ebp := 0
  esi := 0
  edi := 0
  es := 0
  reserved4 := 0
  cs := 0
  reserved5 := 0
  ss := 0
  reserved6 := 0
  ds := 0
  reserved7 := 0
  fs := 0
  reserved8 := 0
  gs := 0
  reserved9 := 0
  ldtSelector := 0
  reserved10 := 0
  debugTrap := 0
  iomapBase := UInt16.ofNat tssSize

/-- The register that a general slot of the hardware layout belongs to. -/
def general (tss : TaskStateSegment) : GeneralRegister -> UInt32
  | .eip => tss.eip
  | .eflags => tss.eflags
  | .eax => tss.eax
  | .ecx => tss.ecx
  | .edx => tss.edx
  | .ebx => tss.ebx
  | .esp => tss.esp
  | .ebp => tss.ebp
  | .esi => tss.esi
  | .edi => tss.edi

def selector (tss : TaskStateSegment) : SegmentName -> UInt16
  | .es => tss.es
  | .cs => tss.cs
  | .ss => tss.ss
  | .ds => tss.ds
  | .fs => tss.fs
  | .gs => tss.gs

variable (tss : TaskStateSegment) (memory : ByteMemory) (base : Nat)

/-- A register is where the processor looks for it. -/
theorem load_general (register : GeneralRegister) :
    (memory.storeFields base tss.layout).load (base + register.slot) 4 =
      (tss.general register).toNat := by
  have member : ⟨register.slot, 4, (tss.general register).toNat⟩ ∈ tss.layout := by
    cases register <;>
      simp [layout, fields, Field.consecutive, GeneralRegister.slot, general]
  exact memory.load_storeFields base (Field.consecutive_apart 0 tss.fields) member
    (tss.general register).toNat_lt

theorem load_selector (name : SegmentName) :
    (memory.storeFields base tss.layout).load (base + name.slot) 2 =
      (tss.selector name).toNat := by
  have member : ⟨name.slot, 2, (tss.selector name).toNat⟩ ∈ tss.layout := by
    cases name <;> simp [layout, fields, Field.consecutive, SegmentName.slot, selector]
  exact memory.load_storeFields base (Field.consecutive_apart 0 tss.fields) member
    (tss.selector name).toNat_lt

theorem load_ldtSelector :
    (memory.storeFields base tss.layout).load (base + ldtSlot) 2 = tss.ldtSelector.toNat := by
  have member : ⟨ldtSlot, 2, tss.ldtSelector.toNat⟩ ∈ tss.layout := by
    simp [layout, fields, Field.consecutive, ldtSlot]
  exact memory.load_storeFields base (Field.consecutive_apart 0 tss.fields) member
    tss.ldtSelector.toNat_lt

end TaskStateSegment

/-- `Location`: a segment and the offset of its last byte. -/
structure Location where
  base : Nat
  limit : Nat
  deriving DecidableEq, Repr

/-- What was saved of the interrupted task. -/
structure InterruptedState where
  eip : Nat
  cs : Nat
  eflags : Nat
  esp : Nat
  ss : Nat
  ebp : Nat
  previousTaskLink : Nat
  deriving DecidableEq, Repr

namespace Tss

variable {image : Memory.KernelImage} (statics : Statics image)

/-- The registers with which the handler for double faults starts. -/
def doubleFaultImage (doubleFaultEntry : UInt32) : TaskStateSegment :=
  let stackTop := UInt32.ofNat statics.doubleFaultStackTop
  { TaskStateSegment.empty with
    eip := doubleFaultEntry
    esp := stackTop
    ebp := stackTop
    esp0 := stackTop
    ss0 := kernelDataSelector
    cs := kernelCodeSelector
    ss := kernelDataSelector
    ds := kernelDataSelector
    es := kernelDataSelector
    fs := kernelDataSelector
    gs := kernelDataSelector
    eflags := 0x00000002 }

theorem selector_doubleFaultImage (doubleFaultEntry : UInt32) (name : SegmentName) :
    (doubleFaultImage statics doubleFaultEntry).selector name =
      if name = .cs then kernelCodeSelector else kernelDataSelector := by
  cases name <;> rfl

def init (doubleFaultEntry : UInt32) (memory : ByteMemory) : ByteMemory :=
  (memory.storeFields statics.mainTss TaskStateSegment.empty.layout).storeFields
    statics.doubleFaultTss (doubleFaultImage statics doubleFaultEntry).layout

def mainTask : Location :=
  ⟨statics.mainTss, tssSize - 1⟩

def doubleFaultTask : Location :=
  ⟨statics.doubleFaultTss, tssSize - 1⟩

/-- Read back what the processor saved of the task that was interrupted by a double
fault. -/
def interruptedState (memory : ByteMemory) : InterruptedState where
  eip := memory.load (statics.mainTss + GeneralRegister.eip.slot) 4
  cs := memory.load (statics.mainTss + SegmentName.cs.slot) 2
  eflags := memory.load (statics.mainTss + GeneralRegister.eflags.slot) 4
  esp := memory.load (statics.mainTss + GeneralRegister.esp.slot) 4
  ss := memory.load (statics.mainTss + SegmentName.ss.slot) 2
  ebp := memory.load (statics.mainTss + GeneralRegister.ebp.slot) 4
  previousTaskLink := memory.load (statics.doubleFaultTss + linkSlot) 2

end Tss

end Tables
end Goatos
