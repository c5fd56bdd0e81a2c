import Goatos.Library.Delivery
import Goatos.Tables.Tss

namespace Goatos
namespace Tables

open Library
open ProtectedMode

/-!
# The global descriptor table

The kernel replaces the table of the boot sector by one of its own, with the same two
flat segments and the descriptors of the two task state segments.  The fields of a
descriptor are scattered over its 64 bits; taken apart again by the processor they
are what was put in.  Loading the table and the registers leaves marks in it, since
the processor notes which segments were used and which task is running.
-/

/-! ## Descriptors -/

def accessKernelCode : Nat := 0b10011010

def accessKernelData : Nat := 0b10010010

def accessTssAvailable : Nat := 0b10001001

def flags32Bit4K : Nat := 0b1100

def flagsTss : Nat := 0b0000

namespace Descriptor

def null : Nat := 0

def new (base limit access flags : Nat) : Nat :=
  (limit &&& 0xffff) |||
    ((base &&& 0xffff) <<< 16) |||
    (((base >>> 16) &&& 0xff) <<< 32) |||
    (access <<< 40) |||
    (((limit >>> 16) &&& 0xf) <<< 48) |||
    ((flags &&& 0xf) <<< 52) |||
    (((base >>> 24) &&& 0xff) <<< 56)

def flat (access : Nat) : Nat :=
  new 0 0xfffff access flags32Bit4K

def tss (location : Location) : Nat :=
  new location.base location.limit accessTssAvailable flagsTss

/-- A shifted part above the bits of the rest is added to it. -/
theorem or_shiftLeft_eq_add {low : Nat} (high : Nat) {shift : Nat} (small : low < 2 ^ shift) :
    low ||| high <<< shift = low + high * 2 ^ shift := by
  rw [Nat.or_comm, Nat.shiftLeft_eq, or_eq_add (Nat.dvd_mul_left _ _) small, Nat.add_comm]

/-- The scattered parts of a descriptor are the digits of one number. -/
theorem new_eq {base limit access flags : Nat} (accessFits : access < 2 ^ 8) (flagsFit : flags < 2 ^ 4) :
    new base limit access flags =
      limit % 2 ^ 16 + base % 2 ^ 16 * 2 ^ 16 + base / 2 ^ 16 % 2 ^ 8 * 2 ^ 32 + access * 2 ^ 40 +
        limit / 2 ^ 16 % 2 ^ 4 * 2 ^ 48 + flags * 2 ^ 52 + base / 2 ^ 24 % 2 ^ 8 * 2 ^ 56 := by
  have word (value : Nat) : value &&& 0xffff = value % 2 ^ 16 := Nat.and_two_pow_sub_one_eq_mod value 16
  have byte (value : Nat) : value &&& 0xff = value % 2 ^ 8 := Nat.and_two_pow_sub_one_eq_mod value 8
  have nibble (value : Nat) : value &&& 0xf = value % 2 ^ 4 := Nat.and_two_pow_sub_one_eq_mod value 4
  unfold new
  rw [word, word, byte, nibble, nibble, byte, Nat.shiftRight_eq_div_pow, Nat.shiftRight_eq_div_pow,
    Nat.shiftRight_eq_div_pow, Nat.mod_eq_of_lt flagsFit]
  have limitLow : limit % 2 ^ 16 < 2 ^ 16 := Nat.mod_lt _ (by decide)
  have baseLow : base % 2 ^ 16 < 2 ^ 16 := Nat.mod_lt _ (by decide)
  have baseMiddle : base / 2 ^ 16 % 2 ^ 8 < 2 ^ 8 := Nat.mod_lt _ (by decide)
  have limitHigh : limit / 2 ^ 16 % 2 ^ 4 < 2 ^ 4 := Nat.mod_lt _ (by decide)
  generalize limit % 2 ^ 16 = limitLowPart at *
  generalize base % 2 ^ 16 = baseLowPart at *
  generalize base / 2 ^ 16 % 2 ^ 8 = baseMiddlePart at *
  generalize limit / 2 ^ 16 % 2 ^ 4 = limitHighPart at *
  rw [or_shiftLeft_eq_add baseLowPart limitLow,
    or_shiftLeft_eq_add baseMiddlePart (show _ < 2 ^ 32 by omega),
    or_shiftLeft_eq_add access (show _ < 2 ^ 40 by omega),
    or_shiftLeft_eq_add limitHighPart (show _ < 2 ^ 48 by omega),
    or_shiftLeft_eq_add flags (show _ < 2 ^ 52 by omega),
    or_shiftLeft_eq_add _ (show _ < 2 ^ 56 by omega)]

theorem new_lt {base limit access flags : Nat} (accessFits : access < 2 ^ 8)
    (flagsFit : flags < 2 ^ 4) : new base limit access flags < 256 ^ 8 := by
  rw [new_eq accessFits flagsFit]
  omega

/-- The processor reads the fields that were put in. -/
theorem decode_new {base limit access flags : Nat} (baseFits : base < 2 ^ 32)
    (limitFits : limit < 2 ^ 20) (accessFits : access < 2 ^ 8) (flagsFit : flags < 2 ^ 4) :
    ProtectedMode.Descriptor.decode (new base limit access flags) = ⟨base, limit, access, flags⟩ := by
  have below40 : limit % 2 ^ 16 + base % 2 ^ 24 * 2 ^ 16 < 2 ^ 40 := by omega
  have below48 : limit % 2 ^ 16 + base % 2 ^ 24 * 2 ^ 16 + access * 2 ^ 40 < 2 ^ 48 := by omega
  have below52 : limit % 2 ^ 16 + base % 2 ^ 24 * 2 ^ 16 + access * 2 ^ 40 +
      limit / 2 ^ 16 % 2 ^ 4 * 2 ^ 48 < 2 ^ 52 := by omega
  have below56 : limit % 2 ^ 16 + base % 2 ^ 24 * 2 ^ 16 + access * 2 ^ 40 +
      limit / 2 ^ 16 % 2 ^ 4 * 2 ^ 48 + flags * 2 ^ 52 < 2 ^ 56 := by omega
  have lowBase : new base limit access flags / 2 ^ 16 % 2 ^ 24 = base % 2 ^ 24 :=
    digits_eq 16 24 (limit % 2 ^ 16) (access + limit / 2 ^ 16 % 2 ^ 4 * 2 ^ 8 + flags * 2 ^ 12 +
      base / 2 ^ 24 % 2 ^ 8 * 2 ^ 16) (by rw [new_eq accessFits flagsFit]; omega)
      (Nat.mod_lt _ (by decide)) (Nat.mod_lt _ (by decide))
  have highBase : new base limit access flags / 2 ^ 56 % 2 ^ 8 = base / 2 ^ 24 % 2 ^ 8 :=
    digits_eq 56 8 _ 0 (by rw [new_eq accessFits flagsFit]; omega) below56
      (Nat.mod_lt _ (by decide))
  have lowLimit : new base limit access flags / 2 ^ 0 % 2 ^ 16 = limit % 2 ^ 16 :=
    digits_eq 0 16 0 (base % 2 ^ 24 + access * 2 ^ 24 + limit / 2 ^ 16 % 2 ^ 4 * 2 ^ 32 +
      flags * 2 ^ 36 + base / 2 ^ 24 % 2 ^ 8 * 2 ^ 40) (by rw [new_eq accessFits flagsFit]; omega)
      (by decide) (Nat.mod_lt _ (by decide))
  have highLimit : new base limit access flags / 2 ^ 48 % 2 ^ 4 = limit / 2 ^ 16 % 2 ^ 4 :=
    digits_eq 48 4 _ (flags + base / 2 ^ 24 % 2 ^ 8 * 2 ^ 4)
      (by rw [new_eq accessFits flagsFit]; omega) below48 (Nat.mod_lt _ (by decide))
  have accessByte : new base limit access flags / 2 ^ 40 % 2 ^ 8 = access :=
    digits_eq 40 8 _ (limit / 2 ^ 16 % 2 ^ 4 + flags * 2 ^ 4 + base / 2 ^ 24 % 2 ^ 8 * 2 ^ 8)
      (by rw [new_eq accessFits flagsFit]; omega) below40 accessFits
  have flagBits : new base limit access flags / 2 ^ 52 % 2 ^ 4 = flags :=
    digits_eq 52 4 _ (base / 2 ^ 24 % 2 ^ 8) (by rw [new_eq accessFits flagsFit]; omega) below52
      flagsFit
  rw [Nat.pow_zero, Nat.div_one] at lowLimit
  unfold ProtectedMode.Descriptor.decode
  rw [lowBase, highBase, lowLimit, highLimit, accessByte, flagBits]
  simp only [ProtectedMode.Descriptor.mk.injEq, and_true]
  omega

end Descriptor

/-! ## The table -/

namespace Gdt

variable {image : Memory.KernelImage} (statics : Statics image)

def entries : List Nat :=
  [Descriptor.null, Descriptor.flat accessKernelCode, Descriptor.flat accessKernelData,
   Descriptor.tss (Tss.mainTask statics), Descriptor.tss (Tss.doubleFaultTask statics)]

/-- Load the table, reload `cs` by a far jump and then the other segment registers. -/
def load (table : TableRegister) (processor : Processor) : Attempt Processor := do
  let jumped ← (processor.lgdt table).loadSegment .generalProtection .cs kernelCodeSelector.toNat
  [SegmentName.ds, .es, .fs, .gs, .ss].foldlM (fun processor name =>
    processor.loadSegment .generalProtection name kernelDataSelector.toNat) jumped

def init (processor : Processor) : Attempt Processor := do
  let written := processor.setMemory (processor.memory.storeFields statics.gdt
    (Field.consecutive 0 ((entries statics).map fun entry => (8, entry))))
  let loaded ← load ⟨statics.gdt, gdtSize - 1⟩ written
  loaded.ltr mainTssSelector.toNat

/-- A segment of the whole address space, as the processor sees it. -/
def flatSegment (access : Nat) : ProtectedMode.Descriptor :=
  ⟨0, 0xfffff, access, flags32Bit4K⟩

/-- A task state segment, as the processor sees it. -/
def taskSegment (base access : Nat) : ProtectedMode.Descriptor :=
  ⟨base, tssSize - 1, access, flagsTss⟩

theorem code_suits {access : Nat} (isCode : access / 8 % 16 = 3) :
    (flatSegment access).suits .cs = true :=
  decide_eq_true isCode

theorem data_suits {name : SegmentName} (notCode : name ≠ .cs) {access : Nat}
    (writable : access / 8 % 16 = 2 ∧ access / 2 % 2 = 1 ∧ access / 16 % 2 = 1) :
    (flatSegment access).suits name = true := by
  cases name <;> simp_all [ProtectedMode.Descriptor.suits, flatSegment]

theorem lastByte_flatSegment (access : Nat) : (flatSegment access).lastByte = 2 ^ 32 - 1 := by
  have limit : (flatSegment access).limit = 0xfffff := rfl
  have flags : (flatSegment access).flags = flags32Bit4K := rfl
  rw [ProtectedMode.Descriptor.lastByte, limit, flags, if_pos (by decide)]
  decide

theorem lastByte_taskSegment (base access : Nat) :
    (taskSegment base access).lastByte = tssSize - 1 := by
  simp [ProtectedMode.Descriptor.lastByte, taskSegment, flagsTss]

theorem base_taskSegment (base access : Nat) : (taskSegment base access).base = base :=
  rfl

theorem available_taskSegment (base : Nat) :
    (taskSegment base accessTssAvailable).isAvailableTss = true ∧
      (taskSegment base accessTssAvailable).isPresent = true :=
  ⟨show decide (accessTssAvailable % 32 = 9) = true by decide,
    show decide (accessTssAvailable / 128 = 1) = true by decide⟩

/-- The table in memory and the registers that were loaded from it.  This is the
state in which `init` leaves the processor. -/
structure InForce (processor : Processor) : Prop where
  table : processor.gdtr = ⟨statics.gdt, gdtSize - 1⟩
  code : ProtectedMode.Descriptor.decode
    (processor.memory.load (statics.gdt + kernelCodeSelector.toNat) 8) =
      flatSegment (accessKernelCode ||| 1)
  data : ProtectedMode.Descriptor.decode
    (processor.memory.load (statics.gdt + kernelDataSelector.toNat) 8) =
      flatSegment (accessKernelData ||| 1)
  doubleFaultTask : ProtectedMode.Descriptor.decode
    (processor.memory.load (statics.gdt + doubleFaultTssSelector.toNat) 8) =
      taskSegment statics.doubleFaultTss accessTssAvailable
  task : processor.task = ⟨mainTssSelector.toNat, statics.mainTss, tssSize - 1⟩
  segments : forall name, processor.segment name =
    ⟨if name = .cs then kernelCodeSelector.toNat else kernelDataSelector.toNat, 0, 2 ^ 32 - 1⟩

/-! ## Loading it -/

section Init

variable {statics} {memory : ByteMemory} {processor : Processor} {space : AddressSpace}

def Holds (statics : Statics image) (memory : ByteMemory)
    (descriptors : Nat -> ProtectedMode.Descriptor) : Prop :=
  forall index, index < 5 ->
    ProtectedMode.Descriptor.decode (memory.load (statics.gdt + index * 8) 8) = descriptors index

/-- What `init` writes. -/
def fresh (statics : Statics image) : Nat -> ProtectedMode.Descriptor
  | 1 => flatSegment accessKernelCode
  | 2 => flatSegment accessKernelData
  | 3 => taskSegment statics.mainTss accessTssAvailable
  | 4 => taskSegment statics.doubleFaultTss accessTssAvailable
  | _ => ⟨0, 0, 0, 0⟩

theorem tss_lt (statics : Statics image) :
    statics.mainTss < 2 ^ 32 ∧ statics.doubleFaultTss < 2 ^ 32 := by
  have main := statics.table_inside ⟨statics.mainTss, tssSize⟩ (by simp [Addresses.tables])
  have doubleFault := statics.table_inside ⟨statics.doubleFaultTss, tssSize⟩
    (by simp [Addresses.tables])
  have top := image.end.toNat_lt
  simp only [tssSize] at main doubleFault
  omega

theorem decode_written (statics : Statics image) (memory : ByteMemory) {index value : Nat}
    {descriptor : ProtectedMode.Descriptor}
    (member : ⟨index * 8, 8, value⟩ ∈
      Field.consecutive 0 ((entries statics).map fun entry => (8, entry)))
    (fits : value < 256 ^ 8) (decodes : ProtectedMode.Descriptor.decode value = descriptor) :
    ProtectedMode.Descriptor.decode ((memory.storeFields statics.gdt
      (Field.consecutive 0 ((entries statics).map fun entry => (8, entry)))).load
        (statics.gdt + index * 8) 8) = descriptor := by
  have loaded := memory.load_storeFields statics.gdt (Field.consecutive_apart 0 _) member fits
  simp only at loaded
  rw [loaded, decodes]

theorem holds_fresh (statics : Statics image) (memory : ByteMemory) :
    Holds statics (memory.storeFields statics.gdt
      (Field.consecutive 0 ((entries statics).map fun entry => (8, entry)))) (fresh statics) := by
  intro index inTable
  have bounds := tss_lt statics
  match index, inTable with
  | 0, _ =>
      exact @decode_written _ statics memory 0 Descriptor.null _
        (by simp [entries, Field.consecutive]) (by decide) rfl
  | 1, _ =>
      exact @decode_written _ statics memory 1 (Descriptor.flat accessKernelCode) _
        (by simp [entries, Field.consecutive]) (Descriptor.new_lt (by decide) (by decide))
        (Descriptor.decode_new (by decide) (by decide) (by decide) (by decide))
  | 2, _ =>
      exact @decode_written _ statics memory 2 (Descriptor.flat accessKernelData) _
        (by simp [entries, Field.consecutive]) (Descriptor.new_lt (by decide) (by decide))
        (Descriptor.decode_new (by decide) (by decide) (by decide) (by decide))
  | 3, _ =>
      exact @decode_written _ statics memory 3 (Descriptor.tss (Tss.mainTask statics)) _
        (by simp [entries, Field.consecutive]) (Descriptor.new_lt (by decide) (by decide))
        (Descriptor.decode_new bounds.1 (show tssSize - 1 < 2 ^ 20 by decide) (by decide)
          (by decide))
  | 4, _ =>
      exact @decode_written _ statics memory 4 (Descriptor.tss (Tss.doubleFaultTask statics)) _
        (by simp [entries, Field.consecutive]) (Descriptor.new_lt (by decide) (by decide))
        (Descriptor.decode_new bounds.2 (show tssSize - 1 < 2 ^ 20 by decide) (by decide)
          (by decide))

/-- Marking one entry leaves the others as they are. -/
theorem Holds.store_access {descriptors : Nat -> ProtectedMode.Descriptor}
    (held : Holds statics memory descriptors) (index : Nat) {access : Nat} (fits : access < 2 ^ 8) :
    Holds statics (memory.store (statics.gdt + index * 8 + 5) 1 access)
      (Function.update descriptors index { descriptors index with access := access }) := by
  intro other inTable
  by_cases same : other = index
  · subst same
    rw [Function.update_self, ← held other inTable]
    exact ProtectedMode.Descriptor.decode_store_access memory _ fits
  · rw [Function.update_of_ne same, memory.load_store_of_disjoint (by omega), held other inTable]

theorem descriptorAddress_eq (table : processor.gdtr = ⟨statics.gdt, gdtSize - 1⟩) (index : Nat) :
    processor.descriptorAddress (index * 8) = statics.gdt + index * 8 := by
  rw [Processor.descriptorAddress, table, Nat.mul_div_cancel _ (by decide)]

/-- An entry of the table, as the processor finds it. -/
theorem hasEntry (table : processor.gdtr = ⟨statics.gdt, gdtSize - 1⟩)
    (covered : ByteMemory.extent statics.gdt gdtSize ⊆ space.window) {index : Nat}
    (inTable : index < 5) {descriptor : ProtectedMode.Descriptor}
    (word : ProtectedMode.Descriptor.decode (processor.memory.load (statics.gdt + index * 8) 8) =
      descriptor) : processor.HasDescriptor space (index * 8) descriptor := by
  have address := descriptorAddress_eq table index
  refine ⟨by omega, ?_, ?_, by rw [address, word]⟩
  · rw [table, Nat.mul_div_cancel _ (by decide)]
    simp only [gdtSize]
    omega
  · rw [address]
    intro target member
    have bounds := ByteMemory.mem_extent.mp member
    exact covered (ByteMemory.mem_extent.mpr ⟨by omega, by simp only [gdtSize]; omega⟩)

theorem Holds.hasDescriptor {descriptors : Nat -> ProtectedMode.Descriptor}
    (held : Holds statics processor.memory descriptors)
    (table : processor.gdtr = ⟨statics.gdt, gdtSize - 1⟩)
    (covered : ByteMemory.extent statics.gdt gdtSize ⊆ space.window) {index : Nat}
    (inTable : index < 5) :
    processor.HasDescriptor space (index * 8) (descriptors index) :=
  hasEntry table covered inTable (held index inTable)

theorem covered_physical (statics : Statics image) :
    ByteMemory.extent statics.gdt gdtSize ⊆ AddressSpace.physical.window := by
  intro target member
  have bounds := ByteMemory.mem_extent.mp member
  have inside := (statics.table_inside ⟨statics.gdt, gdtSize⟩ (by simp [Addresses.tables])).2
  have top := image.end.toNat_lt
  exact Set.mem_Iio.mpr (by simp only at inside; omega)

/-- A point in the course of `init`: the table is loaded, with the given entries, and is
the only thing that was written. -/
structure Stage (statics : Statics image) (before : Processor)
    (descriptors : Nat -> ProtectedMode.Descriptor) (processor : Processor) : Prop where
  table : processor.gdtr = ⟨statics.gdt, gdtSize - 1⟩
  held : Holds statics processor.memory descriptors
  general : processor.general = before.general
  idtr : processor.idtr = before.idtr
  cr0 : processor.cr0 = before.cr0
  cr3 : processor.cr3 = before.cr3
  kept : Set.EqOn processor.memory before.memory (ByteMemory.extent statics.gdt gdtSize)ᶜ

namespace Stage

variable {before : Processor} {descriptors : Nat -> ProtectedMode.Descriptor} {index : Nat}
  {name : SegmentName}

theorem inPhysical (stage : Stage statics before descriptors processor)
    (off : before.cr0 &&& pagingBit = 0) : processor.In AddressSpace.physical :=
  Processor.in_physical (by rw [stage.cr0]; exact off)

theorem mark (stage : Stage statics before descriptors processor) (inTable : index < 5)
    {access : Nat} (fits : access < 2 ^ 8) :
    Stage statics before (Function.update descriptors index
      { descriptors index with access := access })
      (processor.setMemory (processor.memory.store (statics.gdt + index * 8 + 5) 1 access)) where
  table := stage.table
  held := stage.held.store_access index fits
  general := stage.general
  idtr := stage.idtr
  cr0 := stage.cr0
  cr3 := stage.cr3
  kept := by
    intro target outside
    have away : ¬ (statics.gdt ≤ target ∧ target < statics.gdt + gdtSize) := outside
    simp only [gdtSize] at away
    exact (processor.memory.store_outside (by omega)).trans (stage.kept outside)

/-- A segment that is loaded for the first time: the processor marks its descriptor
as accessed. -/
theorem load_first (stage : Stage statics before descriptors processor)
    (off : before.cr0 &&& pagingBit = 0) (inTable : index < 5) (nonnull : index ≠ 0)
    (descriptor : ProtectedMode.Descriptor) (entry : descriptors index = descriptor)
    (suits : descriptor.suits name = true) (present : descriptor.isPresent = true) (unused : descriptor.access % 2 = 0)
    (fits : descriptor.access ||| 1 < 2 ^ 8) (wrong : Nat -> Fault) :
    Exists fun next => processor.loadSegment wrong name (index * 8) = .ok next ∧
      Stage statics before (Function.update descriptors index
        { descriptor with access := descriptor.access ||| 1 }) next ∧
      next.task = processor.task ∧
      next.segment = fun other => if other = name then
        ⟨index * 8, descriptor.base, descriptor.lastByte⟩
      else processor.segment other := by
  subst entry
  have loads := (stage.held.hasDescriptor stage.table (covered_physical statics)
    inTable).loadSegment_marks (stage.inPhysical off) (show index * 8 / 4 ≠ 0 by omega) suits present
      unused wrong
  rw [descriptorAddress_eq stage.table] at loads
  have marked := stage.mark inTable fits
  exact ⟨_, loads, ⟨marked.table, marked.held, marked.general, marked.idtr, marked.cr0, marked.cr3,
    marked.kept⟩, rfl, rfl⟩

/-- A segment that was loaded before. -/
theorem load_again (stage : Stage statics before descriptors processor)
    (off : before.cr0 &&& pagingBit = 0) (inTable : index < 5) (nonnull : index ≠ 0)
    (descriptor : ProtectedMode.Descriptor) (entry : descriptors index = descriptor)
    (suits : descriptor.suits name = true) (present : descriptor.isPresent = true) (used : descriptor.access % 2 = 1)
    (wrong : Nat -> Fault) :
    Exists fun next => processor.loadSegment wrong name (index * 8) = .ok next ∧
      Stage statics before descriptors next ∧ next.task = processor.task ∧
      next.segment = fun other => if other = name then
        ⟨index * 8, descriptor.base, descriptor.lastByte⟩
      else processor.segment other := by
  subst entry
  have loads := (stage.held.hasDescriptor stage.table (covered_physical statics)
    inTable).loadSegment_eq (stage.inPhysical off) (show index * 8 / 4 ≠ 0 by omega) suits present
      used wrong
  exact ⟨_, loads, ⟨stage.table, stage.held, stage.general, stage.idtr, stage.cr0, stage.cr3,
    stage.kept⟩, rfl, rfl⟩

/-- A task state segment that is put to use. -/
theorem load_task (stage : Stage statics before descriptors processor)
    (off : before.cr0 &&& pagingBit = 0) (inTable : index < 5) (nonnull : index ≠ 0)
    (descriptor : ProtectedMode.Descriptor) (entry : descriptors index = descriptor)
    (available : descriptor.isAvailableTss = true) (present : descriptor.isPresent = true)
    (fits : descriptor.access ||| 2 < 2 ^ 8) :
    Exists fun next => processor.ltr (index * 8) = .ok next ∧
      Stage statics before (Function.update descriptors index
        { descriptor with access := descriptor.access ||| 2 }) next ∧
      next.task = ⟨index * 8, descriptor.base, descriptor.lastByte⟩ ∧
      next.segment = processor.segment := by
  subst entry
  have inSpace := stage.inPhysical off
  have found := stage.held.hasDescriptor stage.table (covered_physical statics) inTable
  have loads : processor.ltr (index * 8) =
      .ok { processor.setMemory (processor.memory.store (statics.gdt + index * 8 + 5) 1
          ((descriptors index).access ||| 2)) with
        task := ⟨index * 8, (descriptors index).base, (descriptors index).lastByte⟩ } := by
    rw [Processor.ltr, found.availableTss_eq inSpace (by omega) available present, ok_bind,
      found.setAccess_eq inSpace, descriptorAddress_eq stage.table, ok_bind]
    rfl
  have marked := stage.mark inTable fits
  exact ⟨_, loads, ⟨marked.table, marked.held, marked.general, marked.idtr, marked.cr0, marked.cr3,
    marked.kept⟩, rfl, rfl⟩

end Stage

theorem stage_written (statics : Statics image) (processor : Processor) :
    Stage statics processor (fresh statics)
      ((processor.setMemory (processor.memory.storeFields statics.gdt
        (Field.consecutive 0 ((entries statics).map fun entry => (8, entry))))).lgdt
          ⟨statics.gdt, gdtSize - 1⟩) where
  table := rfl
  held := holds_fresh statics processor.memory
  general := rfl
  idtr := rfl
  cr0 := rfl
  cr3 := rfl
  kept := by
    intro target outside
    have away : ¬ (statics.gdt ≤ target ∧ target < statics.gdt + gdtSize) := outside
    apply ByteMemory.storeFields_outside
    intro field member
    have bounds := Field.consecutive_within member
    have size : Field.size ((entries statics).map fun entry => (8, entry)) = gdtSize := by
      simp only [Field.size, entries, List.map_cons, List.map_nil, List.sum_cons, List.sum_nil]
      decide
    rw [size] at bounds
    omega

/-- Without paging `init` cannot fail.  It writes nothing but the table. -/
theorem init_spec (statics : Statics image) (off : processor.cr0 &&& pagingBit = 0) :
    Exists fun loaded => init statics processor = .ok loaded ∧ InForce statics loaded ∧
      loaded.general = processor.general ∧ loaded.idtr = processor.idtr ∧
      loaded.cr0 = processor.cr0 ∧ loaded.cr3 = processor.cr3 ∧
      Set.EqOn loaded.memory processor.memory (ByteMemory.extent statics.gdt gdtSize)ᶜ := by
  rcases (stage_written statics processor).load_first off (show 1 < 5 by decide) (by decide)
      (flatSegment accessKernelCode) rfl (code_suits (by decide)) (by decide) (by decide) (by decide)
      .generalProtection
    with ⟨jumped, jump, stage, _, codeLoaded⟩
  rcases stage.load_first off (show 2 < 5 by decide) (by decide) (flatSegment accessKernelData) rfl
      (data_suits (show SegmentName.ds ≠ .cs by decide) (by decide)) (by decide) (by decide) (by decide)
      .generalProtection
    with ⟨withDs, loadDs, stage, _, dsLoaded⟩
  rcases stage.load_again off (show 2 < 5 by decide) (by decide)
      (flatSegment (accessKernelData ||| 1)) rfl
      (data_suits (show SegmentName.es ≠ .cs by decide) (by decide)) (by decide) (by decide) .generalProtection
    with ⟨withEs, loadEs, stage, _, esLoaded⟩
  rcases stage.load_again off (show 2 < 5 by decide) (by decide)
      (flatSegment (accessKernelData ||| 1)) rfl
      (data_suits (show SegmentName.fs ≠ .cs by decide) (by decide)) (by decide) (by decide) .generalProtection
    with ⟨withFs, loadFs, stage, _, fsLoaded⟩
  rcases stage.load_again off (show 2 < 5 by decide) (by decide)
      (flatSegment (accessKernelData ||| 1)) rfl
      (data_suits (show SegmentName.gs ≠ .cs by decide) (by decide)) (by decide) (by decide) .generalProtection
    with ⟨withGs, loadGs, stage, _, gsLoaded⟩
  rcases stage.load_again off (show 2 < 5 by decide) (by decide)
      (flatSegment (accessKernelData ||| 1)) rfl
      (data_suits (show SegmentName.ss ≠ .cs by decide) (by decide)) (by decide) (by decide) .generalProtection
    with ⟨withSs, loadSs, stage, _, ssLoaded⟩
  rcases stage.load_task off (show 3 < 5 by decide) (by decide)
      (taskSegment statics.mainTss accessTssAvailable) rfl (available_taskSegment _).1
      (available_taskSegment _).2 (show accessTssAvailable ||| 2 < 2 ^ 8 by decide)
    with ⟨final, loadTask, stage, task, segments⟩
  rw [lastByte_taskSegment] at task
  refine ⟨final, ?_, ⟨stage.table, stage.held 1 (by decide), stage.held 2 (by decide),
    stage.held 4 (by decide), task, ?_⟩, stage.general, stage.idtr, stage.cr0, stage.cr3, stage.kept⟩
  · have codeSelector : kernelCodeSelector.toNat = 1 * 8 := by decide
    have dataSelector : kernelDataSelector.toNat = 2 * 8 := by decide
    have taskSelector : mainTssSelector.toNat = 3 * 8 := by decide
    rw [init, load, codeSelector, dataSelector, taskSelector, jump, ok_bind, List.foldlM_cons,
      loadDs, ok_bind, List.foldlM_cons, loadEs, ok_bind, List.foldlM_cons, loadFs, ok_bind,
      List.foldlM_cons, loadGs, ok_bind, List.foldlM_cons, loadSs, ok_bind, List.foldlM_nil]
    exact loadTask
  · intro name
    rw [segments, ssLoaded, gsLoaded, fsLoaded, esLoaded, dsLoaded, codeLoaded]
    simp only [lastByte_flatSegment]
    cases name <;> rfl

end Init

end Gdt

end Tables
end Goatos
