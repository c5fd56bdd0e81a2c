import Goatos.Interrupt.Handlers
import Goatos.Tables.Gdt

namespace Goatos
namespace Tables

open Library
open ProtectedMode

/-!
# The interrupt descriptor table

The table is 256 gates of eight bytes in memory.  The kernel writes and reads them by
their fields, the processor as one word each.  `exceptions::init` registers four
vectors, and `interrupts::init` fills the rest and resets the counters of the catch-all.
In the end the bytes are those of the table by which the handlers are chosen elsewhere in
this development.
-/

/-! ## Gates -/

structure Gate where
  offsetLow : UInt16
  selector : UInt16
  reserved : UInt8
  typeAttr : UInt8
  offsetHigh : UInt16
  deriving DecidableEq, Repr

namespace Gate

def present : UInt8 := 0b10000000

def interruptType : UInt8 := 0xe

def taskType : UInt8 := 0x5

def missing : Gate where
  offsetLow := 0
  selector := 0
  reserved := 0
  typeAttr := 0
  offsetHigh := 0

/-- `Gate::interrupt`.  The offset is stored in two halves. -/
def interrupt (offset : UInt32) (selector : UInt16) : Gate where
  offsetLow := offset.toUInt16
  selector := selector
  reserved := 0
  typeAttr := present ||| interruptType
  offsetHigh := (offset >>> 16).toUInt16

def task (tssSelector : UInt16) : Gate where
  offsetLow := 0
  selector := tssSelector
  reserved := 0
  typeAttr := present ||| taskType
  offsetHigh := 0

def isPresent (gate : Gate) : Bool :=
  gate.typeAttr &&& present ≠ 0

def fields (gate : Gate) : List (Nat × Nat) :=
  [(2, gate.offsetLow.toNat), (2, gate.selector.toNat), (1, gate.reserved.toNat),
   (1, gate.typeAttr.toNat), (2, gate.offsetHigh.toNat)]

def layout (gate : Gate) : List Field :=
  Field.consecutive 0 gate.fields

/-- The gate as the processor takes it apart. -/
def decoded (gate : Gate) : ProtectedMode.Gate where
  offset := gate.offsetLow.toNat + gate.offsetHigh.toNat * 2 ^ 16
  selector := gate.selector.toNat
  attributes := gate.typeAttr.toNat

theorem layout_eq (gate : Gate) : gate.layout =
    [⟨0, 2, gate.offsetLow.toNat⟩, ⟨2, 2, gate.selector.toNat⟩, ⟨4, 1, gate.reserved.toNat⟩,
     ⟨5, 1, gate.typeAttr.toNat⟩, ⟨6, 2, gate.offsetHigh.toNat⟩] :=
  rfl

theorem layout_within (gate : Gate) {field : Field} (member : field ∈ gate.layout) :
    field.offset + field.width ≤ 8 := by
  have bounds := (Field.consecutive_within member).2
  have size : Field.size gate.fields = 8 := by
    simp only [Field.size, fields, List.map_cons, List.map_nil, List.sum_cons, List.sum_nil]
    decide
  omega

theorem layout_fits (gate : Gate) {field : Field} (member : field ∈ gate.layout) :
    field.value < 256 ^ field.width := by
  rw [layout_eq] at member
  simp only [List.mem_cons, List.not_mem_nil, or_false] at member
  rcases member with rfl | rfl | rfl | rfl | rfl
  · exact gate.offsetLow.toNat_lt
  · exact gate.selector.toNat_lt
  · exact gate.reserved.toNat_lt
  · exact gate.typeAttr.toNat_lt
  · exact gate.offsetHigh.toNat_lt

/-- The handler's address survives being cut in two. -/
theorem decoded_interrupt (offset : UInt32) (selector : UInt16) :
    (interrupt offset selector).decoded = ⟨offset.toNat, selector.toNat, 0x8e⟩ := by
  have bound := offset.toNat_lt
  have low : offset.toUInt16.toNat = offset.toNat % 2 ^ 16 := UInt32.toNat_toUInt16 offset
  have high : (offset >>> 16).toUInt16.toNat = offset.toNat / 2 ^ 16 % 2 ^ 16 := by
    rw [UInt32.toNat_toUInt16, UInt32.toNat_shiftRight, show UInt32.toNat 16 % 32 = 16 by decide,
      Nat.shiftRight_eq_div_pow]
  have attributes : (present ||| interruptType).toNat = 0x8e := by decide
  simp only [decoded, interrupt, low, high, attributes, ProtectedMode.Gate.mk.injEq, and_true]
  omega

theorem decoded_task (tssSelector : UInt16) :
    (task tssSelector).decoded = ⟨0, tssSelector.toNat, 0x85⟩ := by
  have attributes : (present ||| taskType).toNat = 0x85 := by decide
  have offset : (0 : UInt16).toNat + (0 : UInt16).toNat * 2 ^ 16 = 0 := by decide
  simp only [decoded, task, attributes, offset]

theorem kind_interrupt (offset : UInt32) (selector : UInt16) :
    (interrupt offset selector).decoded.kind = some .interrupt ∧
      (interrupt offset selector).decoded.isPresent = true := by
  rw [decoded_interrupt]
  simp [ProtectedMode.Gate.kind, ProtectedMode.Gate.isPresent]

theorem kind_task (tssSelector : UInt16) :
    (task tssSelector).decoded.kind = some .task ∧ (task tssSelector).decoded.isPresent = true := by
  rw [decoded_task]
  simp [ProtectedMode.Gate.kind, ProtectedMode.Gate.isPresent]

theorem isPresent_interrupt (offset : UInt32) (selector : UInt16) :
    (interrupt offset selector).isPresent = true :=
  show decide ((present ||| interruptType) &&& present ≠ 0) = true by decide

theorem isPresent_task (tssSelector : UInt16) : (task tssSelector).isPresent = true :=
  show decide ((present ||| taskType) &&& present ≠ 0) = true by decide

end Gate

/-! ## The table -/

namespace Idt

variable {image : Memory.KernelImage} (statics : Statics image)

def entryCount : Nat := 256

def vectors : List UInt8 :=
  (List.range entryCount).map UInt8.ofNat

def entryAddress (vector : UInt8) : Nat :=
  statics.idt + vector.toNat * 8

/-- `idt.entries[vector as usize] = gate` -/
def setEntry (vector : UInt8) (gate : Gate) (memory : ByteMemory) : ByteMemory :=
  memory.storeFields (entryAddress statics vector) gate.layout

/-- Make every vector missing and load the table. -/
def init (processor : Processor) : Processor :=
  (processor.setMemory (vectors.foldl
    (fun memory vector => setEntry statics vector Gate.missing memory) processor.memory)).lidt
      ⟨statics.idt, idtSize - 1⟩

def setGate (vector : UInt8) (offset : UInt32) (memory : ByteMemory) : ByteMemory :=
  setEntry statics vector (Gate.interrupt offset kernelCodeSelector) memory

def setHandler (vector : UInt8) (handler : UInt32) (memory : ByteMemory) : ByteMemory :=
  setGate statics vector handler memory

def setHandlerWithErrorCode (vector : UInt8) (handler : UInt32) (memory : ByteMemory) :
    ByteMemory :=
  setGate statics vector handler memory

def setTaskGate (vector : UInt8) (tssSelector : UInt16) (memory : ByteMemory) : ByteMemory :=
  setEntry statics vector (Gate.task tssSelector) memory

def clearHandler (vector : UInt8) (memory : ByteMemory) : ByteMemory :=
  setEntry statics vector Gate.missing memory

/-- The gate that is stored for a vector. -/
def entry (memory : ByteMemory) (vector : UInt8) : Gate where
  offsetLow := UInt16.ofNat (memory.load (entryAddress statics vector) 2)
  selector := UInt16.ofNat (memory.load (entryAddress statics vector + 2) 2)
  reserved := UInt8.ofNat (memory.load (entryAddress statics vector + 4) 1)
  typeAttr := UInt8.ofNat (memory.load (entryAddress statics vector + 5) 1)
  offsetHigh := UInt16.ofNat (memory.load (entryAddress statics vector + 6) 2)

def hasHandler (memory : ByteMemory) (vector : UInt8) : Bool :=
  (entry statics memory vector).isPresent

/-- What `sidt` reads, and how many gates are present. -/
structure Loaded where
  base : Nat
  limit : Nat
  handlers : Nat
  deriving DecidableEq, Repr

def Loaded.entries (loaded : Loaded) : Nat :=
  (loaded.limit + 1) / 8

def loaded (processor : Processor) : Loaded where
  base := processor.idtr.base
  limit := processor.idtr.limit
  handlers := (vectors.filter fun vector => hasHandler statics processor.memory vector).length

/-! ## Registration -/

/-- The addresses of the entry points, by vector and by what they do. -/
abbrev EntryPoints := UInt8 -> Interrupt.Entry -> UInt32

def exceptionsInit (entryPoint : EntryPoints) (memory : ByteMemory) : ByteMemory :=
  let memory := setHandler statics 0 (entryPoint 0 .exception) memory
  let memory := setHandler statics 6 (entryPoint 6 .exception) memory
  let memory := setHandlerWithErrorCode statics 13 (entryPoint 13 .exception) memory
  setTaskGate statics 8 doubleFaultTssSelector memory

/-- One pass of the loop of `interrupts::init`, with the count of handlers
installed.  A vector that has a handler is left alone. -/
def fillVector (entryPoint : EntryPoints) (state : Nat × ByteMemory) (vector : UInt8) :
    Nat × ByteMemory :=
  if hasHandler statics state.2 vector then state
  else
    (state.1 + 1,
      if vector ∈ Interrupt.errorCodeVectors then
        setHandlerWithErrorCode statics vector (entryPoint vector (.unhandledWithErrorCode vector))
          state.2
      else setHandler statics vector (entryPoint vector (Interrupt.stub vector)) state.2)

/-- `UNHANDLED_TOTAL` and the words of `REPORTED` start from zero. -/
def resetCounters (memory : ByteMemory) : ByteMemory :=
  (List.range 8).foldl (fun memory index => memory.store (statics.reported + index * 4) 4 0)
    (memory.store statics.unhandledTotal 4 0)

def interruptsInit (entryPoint : EntryPoints) (memory : ByteMemory) : Nat × ByteMemory :=
  vectors.foldl (fillVector statics entryPoint) (0, resetCounters statics memory)

/-! ## The table as a function -/

theorem mem_vectors (vector : UInt8) : vector ∈ vectors := by
  refine List.mem_map.mpr ⟨vector.toNat, List.mem_range.mpr vector.toNat_lt, ?_⟩
  exact UInt8.ofNat_toNat

theorem nodup_vectors : vectors.Nodup := by
  apply List.Nodup.map_on _ List.nodup_range
  intro left leftBound right rightBound same
  have leftLt : left < 2 ^ 8 := List.mem_range.mp leftBound
  have rightLt : right < 2 ^ 8 := List.mem_range.mp rightBound
  have values := congrArg UInt8.toNat same
  rwa [UInt8.toNat_ofNat', UInt8.toNat_ofNat', Nat.mod_eq_of_lt leftLt,
    Nat.mod_eq_of_lt rightLt] at values

section Entries

variable {statics} {memory : ByteMemory} {vector other : UInt8} {gate : Gate}

/-- Two gates share no byte. -/
theorem entry_apart (different : other ≠ vector) {field : Field}
    (within : field.offset + field.width ≤ 8) :
    entryAddress statics other + 8 ≤ entryAddress statics vector + field.offset ∨
      entryAddress statics vector + field.offset + field.width ≤ entryAddress statics other := by
  have apart : other.toNat ≠ vector.toNat := fun same => different (UInt8.toNat_inj.mp same)
  unfold entryAddress
  omega

/-- A gate reads back as it was stored. -/
theorem entry_setEntry_self (vector : UInt8) (gate : Gate) (memory : ByteMemory) :
    entry statics (setEntry statics vector gate memory) vector = gate := by
  have field {found : Field} (member : found ∈ gate.layout) :
      (setEntry statics vector gate memory).load (entryAddress statics vector + found.offset)
        found.width = found.value :=
    memory.load_storeFields _ (Field.consecutive_apart 0 gate.fields) member (gate.layout_fits member)
  have offsetLow := @field ⟨0, 2, gate.offsetLow.toNat⟩ (by simp [Gate.layout_eq])
  have selector := @field ⟨2, 2, gate.selector.toNat⟩ (by simp [Gate.layout_eq])
  have reserved := @field ⟨4, 1, gate.reserved.toNat⟩ (by simp [Gate.layout_eq])
  have typeAttr := @field ⟨5, 1, gate.typeAttr.toNat⟩ (by simp [Gate.layout_eq])
  have offsetHigh := @field ⟨6, 2, gate.offsetHigh.toNat⟩ (by simp [Gate.layout_eq])
  simp only [Nat.add_zero] at offsetLow selector reserved typeAttr offsetHigh
  simp only [entry, offsetLow, selector, reserved, typeAttr, offsetHigh, UInt16.ofNat_toNat,
    UInt8.ofNat_toNat]

/-- The gates depend only on the bytes of the table. -/
theorem entry_congr {changed : ByteMemory}
    (agree : Set.EqOn changed memory (ByteMemory.extent statics.idt idtSize)) (vector : UInt8) :
    entry statics changed vector = entry statics memory vector := by
  have small := vector.toNat_lt
  have word {offset width : Nat} (within : offset + width ≤ 8) :
      changed.load (entryAddress statics vector + offset) width =
        memory.load (entryAddress statics vector + offset) width := by
    apply ByteMemory.load_congr
    intro address member
    have bounds := ByteMemory.mem_extent.mp member
    apply agree
    unfold entryAddress at bounds
    exact ByteMemory.mem_extent.mpr ⟨by omega, by unfold idtSize; omega⟩
  have first := @word 0 2 (by decide)
  rw [Nat.add_zero] at first
  simp only [entry, first, @word 2 2 (by decide), @word 4 1 (by decide), @word 5 1 (by decide),
    @word 6 2 (by decide)]

theorem entry_setEntry_other (different : other ≠ vector) :
    entry statics (setEntry statics vector gate memory) other = entry statics memory other := by
  have word {offset width : Nat} (within : offset + width ≤ 8) :
      (setEntry statics vector gate memory).load (entryAddress statics other + offset) width =
        memory.load (entryAddress statics other + offset) width := by
    apply ByteMemory.load_storeFields_of_disjoint
    intro field member
    have apart := @entry_apart image statics vector other different field (gate.layout_within member)
    omega
  have first := @word 0 2 (by decide)
  rw [Nat.add_zero] at first
  simp only [entry, first, @word 2 2 (by decide), @word 4 1 (by decide), @word 5 1 (by decide),
    @word 6 2 (by decide)]

theorem entry_setEntry (vector : UInt8) (gate : Gate) (memory : ByteMemory) :
    entry statics (setEntry statics vector gate memory) =
      Function.update (entry statics memory) vector gate := by
  funext other
  by_cases same : other = vector
  · rw [same, Function.update_self, entry_setEntry_self]
  · rw [Function.update_of_ne same, entry_setEntry_other same]

theorem setEntry_outside {target : Nat}
    (outside : target < statics.idt ∨ statics.idt + idtSize ≤ target) :
    setEntry statics vector gate memory target = memory target := by
  apply ByteMemory.storeFields_outside
  intro field member
  have within := gate.layout_within member
  have small := vector.toNat_lt
  unfold idtSize at outside
  unfold entryAddress
  omega

/-- The processor finds the gate that is stored. -/
theorem decode_entry (memory : ByteMemory) (vector : UInt8) :
    ProtectedMode.Gate.decode (memory.load (entryAddress statics vector) 8) =
      (entry statics memory vector).decoded := by
  have offsetLow : memory.load (entryAddress statics vector) 2 < 2 ^ 16 :=
    memory.load_lt _ _
  have selector : memory.load (entryAddress statics vector + 2) 2 < 2 ^ 16 :=
    memory.load_lt _ _
  have reserved : memory.load (entryAddress statics vector + 4) 1 < 2 ^ 8 :=
    memory.load_lt _ _
  have typeAttr : memory.load (entryAddress statics vector + 5) 1 < 2 ^ 8 :=
    memory.load_lt _ _
  have offsetHigh : memory.load (entryAddress statics vector + 6) 2 < 2 ^ 16 :=
    memory.load_lt _ _
  have split : memory.load (entryAddress statics vector) 8 =
      memory.load (entryAddress statics vector) 2 +
      memory.load (entryAddress statics vector + 2) 2 * 2 ^ 16 +
      memory.load (entryAddress statics vector + 4) 1 * 2 ^ 32 +
      memory.load (entryAddress statics vector + 5) 1 * 2 ^ 40 +
      memory.load (entryAddress statics vector + 6) 2 * 2 ^ 48 := by
    rw [show 8 = 2 + (2 + (1 + (1 + 2))) from rfl, memory.load_add, memory.load_add,
      memory.load_add, memory.load_add]
    simp only [Nat.add_assoc, Nat.reduceAdd]
    omega
  simp only [ProtectedMode.Gate.decode, Gate.decoded, entry, UInt16.toNat_ofNat',
    UInt8.toNat_ofNat', split]
  generalize memory.load (entryAddress statics vector) 2 = offsetLowPart at *
  generalize memory.load (entryAddress statics vector + 2) 2 = selectorPart at *
  generalize memory.load (entryAddress statics vector + 4) 1 = reservedPart at *
  generalize memory.load (entryAddress statics vector + 5) 1 = typeAttrPart at *
  generalize memory.load (entryAddress statics vector + 6) 2 = offsetHighPart at *
  have below32 : offsetLowPart + selectorPart * 2 ^ 16 < 2 ^ 32 := add_shifted_lt offsetLow selector
  have below40 : offsetLowPart + selectorPart * 2 ^ 16 + reservedPart * 2 ^ 32 < 2 ^ 40 :=
    add_shifted_lt below32 reserved
  have below48 : offsetLowPart + selectorPart * 2 ^ 16 + reservedPart * 2 ^ 32 +
      typeAttrPart * 2 ^ 40 < 2 ^ 48 := add_shifted_lt below40 typeAttr
  have middle := digits_eq 16 16 offsetLowPart (reservedPart + typeAttrPart * 2 ^ 8 +
    offsetHighPart * 2 ^ 16) (show offsetLowPart + selectorPart * 2 ^ 16 + reservedPart * 2 ^ 32 +
      typeAttrPart * 2 ^ 40 + offsetHighPart * 2 ^ 48 = _ + selectorPart * 2 ^ 16 + _ by omega)
    offsetLow selector
  have attributes := digits_eq 40 8 (offsetLowPart + selectorPart * 2 ^ 16 + reservedPart * 2 ^ 32)
    offsetHighPart rfl below40 typeAttr
  have high := digits_eq 48 16 (offsetLowPart + selectorPart * 2 ^ 16 + reservedPart * 2 ^ 32 +
    typeAttrPart * 2 ^ 40) 0 (show offsetLowPart + selectorPart * 2 ^ 16 + reservedPart * 2 ^ 32 +
      typeAttrPart * 2 ^ 40 + offsetHighPart * 2 ^ 48 = _ + offsetHighPart * 2 ^ 48 + _ by omega)
    below48 offsetHigh
  have low : (offsetLowPart + selectorPart * 2 ^ 16 + reservedPart * 2 ^ 32 +
      typeAttrPart * 2 ^ 40 + offsetHighPart * 2 ^ 48) % 2 ^ 16 = offsetLowPart := by
    rw [show offsetLowPart + selectorPart * 2 ^ 16 + reservedPart * 2 ^ 32 +
      typeAttrPart * 2 ^ 40 + offsetHighPart * 2 ^ 48 = offsetLowPart + (selectorPart +
        reservedPart * 2 ^ 16 + typeAttrPart * 2 ^ 24 + offsetHighPart * 2 ^ 32) * 2 ^ 16 by omega,
      Nat.add_mul_mod_self_right, Nat.mod_eq_of_lt offsetLow]
  rw [middle, attributes, high, low, Nat.mod_eq_of_lt offsetLow, Nat.mod_eq_of_lt offsetHigh,
    Nat.mod_eq_of_lt selector, Nat.mod_eq_of_lt typeAttr]

end Entries

/-! ## The table of the handlers -/

/-- The gates for a table of handlers: a task gate for double faults, and for the rest an
interrupt gate or none at all. -/
def gateFor (entryPoint : EntryPoints) (table : UInt8 -> Option Interrupt.Entry) (vector : UInt8) :
    Gate :=
  if vector = 8 then Gate.task doubleFaultTssSelector
  else
    match table vector with
    | some handler => Gate.interrupt (entryPoint vector handler) kernelCodeSelector
    | none => Gate.missing

/-- A table without gaps. -/
def full (table : Interrupt.Idt) (vector : UInt8) : Option Interrupt.Entry :=
  some (table vector)

section Registration

variable {statics} {memory : ByteMemory} (entryPoint : EntryPoints)

/-- Writing an entry replaces it in the table of handlers, and leaves all others as
they are. -/
theorem setEntry_refines {table : UInt8 -> Option Interrupt.Entry}
    (stored : entry statics memory = gateFor entryPoint table) {vector : UInt8}
    (other : vector ≠ 8) {gate : Gate} {handler : Option Interrupt.Entry}
    (same : gate = match handler with
      | some handler => Gate.interrupt (entryPoint vector handler) kernelCodeSelector
      | none => Gate.missing) :
    entry statics (setEntry statics vector gate memory) =
      gateFor entryPoint (Function.update table vector handler) := by
  rw [entry_setEntry, stored]
  funext found
  by_cases isVector : found = vector
  · rw [isVector, Function.update_self, gateFor, if_neg other, Function.update_self, same]
  · rw [Function.update_of_ne isVector, gateFor, gateFor, Function.update_of_ne isVector]

theorem isPresent_gateFor (table : UInt8 -> Option Interrupt.Entry) (vector : UInt8) :
    (gateFor entryPoint table vector).isPresent = (decide (vector = 8) || (table vector).isSome) := by
  unfold gateFor
  split
  · rename_i isEight
    rw [Gate.isPresent_task, decide_eq_true isEight, Bool.true_or]
  · rename_i different
    rw [decide_eq_false different, Bool.false_or]
    cases table vector with
    | some handler => exact Gate.isPresent_interrupt _ _
    | none => exact show Gate.missing.isPresent = false by decide

theorem entry_clear (cleared : List UInt8) (memory : ByteMemory) (vector : UInt8) :
    entry statics (cleared.foldl
      (fun memory vector => setEntry statics vector Gate.missing memory) memory) vector =
        if vector ∈ cleared then Gate.missing else entry statics memory vector := by
  induction cleared generalizing memory with
  | nil => rw [if_neg List.not_mem_nil, List.foldl_nil]
  | cons head rest inductionHypothesis =>
      rw [List.foldl_cons, inductionHypothesis, entry_setEntry]
      by_cases later : vector ∈ rest
      · rw [if_pos later, if_pos (List.mem_cons_of_mem _ later)]
      · rw [if_neg later]
        by_cases same : vector = head
        · rw [same, Function.update_self, if_pos List.mem_cons_self]
        · rw [Function.update_of_ne same, if_neg (by simp [same, later])]

theorem clear_outside (cleared : List UInt8) (memory : ByteMemory) {target : Nat}
    (outside : target < statics.idt ∨ statics.idt + idtSize ≤ target) :
    cleared.foldl (fun memory vector => setEntry statics vector Gate.missing memory) memory target =
      memory target := by
  induction cleared generalizing memory with
  | nil => rfl
  | cons head rest inductionHypothesis =>
      rw [List.foldl_cons, inductionHypothesis, setEntry_outside outside]

theorem entry_init (statics : Statics image) (processor : Processor) :
    entry statics (init statics processor).memory = fun _ => Gate.missing := by
  funext vector
  simp only [init, Processor.lidt, Processor.setMemory]
  rw [entry_clear, if_pos (mem_vectors vector)]

/-- The vectors that `exceptions::init` registers. -/
theorem entry_exceptionsInit (missing : entry statics memory = fun _ => Gate.missing) :
    entry statics (exceptionsInit statics entryPoint memory) =
      gateFor entryPoint Interrupt.exceptionsInit := by
  funext vector
  simp only [exceptionsInit, setHandler, setHandlerWithErrorCode, setTaskGate, setGate,
    entry_setEntry, missing, gateFor, Interrupt.exceptionsInit]
  by_cases isEight : vector = 8
  · rw [isEight, Function.update_self, if_pos rfl]
  · rw [Function.update_of_ne isEight, if_neg isEight]
    by_cases registered : vector ∈ [(0 : UInt8), 6, 8, 13]
    · rw [if_pos registered]
      simp only [List.mem_cons, List.not_mem_nil, or_false, isEight, false_or] at registered
      rcases registered with rfl | rfl | rfl
      · rw [Function.update_of_ne (by decide), Function.update_of_ne (by decide),
          Function.update_self]
      · rw [Function.update_of_ne (by decide), Function.update_self]
      · rw [Function.update_self]
    · rw [if_neg registered]
      simp only [List.mem_cons, List.not_mem_nil, or_false, not_or] at registered
      rw [Function.update_of_ne registered.2.2.2, Function.update_of_ne registered.2.1,
        Function.update_of_ne registered.1]

/-- The handler that fills a vector, in the form that fits whether the processor
pushes an error code. -/
def catchAll (vector : UInt8) : Interrupt.Entry :=
  Interrupt.interruptsInit (fun _ => none) vector

theorem fillVector_eq (state : Nat × ByteMemory) (vector : UInt8) :
    fillVector statics entryPoint state vector =
      if hasHandler statics state.2 vector then state
      else (state.1 + 1, setEntry statics vector
        (Gate.interrupt (entryPoint vector (catchAll vector)) kernelCodeSelector) state.2) := by
  unfold fillVector catchAll Interrupt.interruptsInit setHandler setHandlerWithErrorCode setGate
  split
  · rfl
  · split <;> rfl

/-- The loop of `interrupts::init` over any vectors: the missing ones get a handler and
are counted, the others stay. -/
theorem fillVectors_spec (statics : Statics image) {filled : List UInt8} (distinct : filled.Nodup)
    (state : Nat × ByteMemory) :
    (filled.foldl (fillVector statics entryPoint) state).1 =
      state.1 + (filled.filter fun vector => !hasHandler statics state.2 vector).length ∧
    (forall vector, entry statics (filled.foldl (fillVector statics entryPoint) state).2 vector =
      if vector ∈ filled ∧ (entry statics state.2 vector).isPresent = false then
        Gate.interrupt (entryPoint vector (catchAll vector)) kernelCodeSelector
      else entry statics state.2 vector) ∧
    forall target, target < statics.idt ∨ statics.idt + idtSize ≤ target ->
      (filled.foldl (fillVector statics entryPoint) state).2 target = state.2 target := by
  induction filled generalizing state with
  | nil => exact ⟨rfl, fun _ => (if_neg (by simp)).symm, fun _ _ => rfl⟩
  | cons head rest inductionHypothesis =>
      rcases List.nodup_cons.mp distinct with ⟨fresh, restDistinct⟩
      rw [List.foldl_cons, fillVector_eq]
      by_cases present : hasHandler statics state.2 head = true
      · rw [if_pos present]
        rcases inductionHypothesis restDistinct state with ⟨count, entries, outside⟩
        refine ⟨?_, ?_, outside⟩
        · rw [count, List.filter_cons_of_neg (by simp [present])]
        · intro vector
          rw [entries]
          refine if_congr ?_ rfl rfl
          constructor
          · rintro ⟨member, absent⟩
            exact ⟨List.mem_cons_of_mem _ member, absent⟩
          · rintro ⟨member, absent⟩
            rcases List.mem_cons.mp member with rfl | later
            · rw [hasHandler, absent] at present
              cases present
            · exact ⟨later, absent⟩
      · rw [if_neg present]
        have absent : (entry statics state.2 head).isPresent = false := by
          rw [← Bool.not_eq_true]
          exact present
        rcases inductionHypothesis restDistinct (state.1 + 1, setEntry statics head
            (Gate.interrupt (entryPoint head (catchAll head)) kernelCodeSelector) state.2)
          with ⟨count, entries, outside⟩
        have others : forall vector, vector ∈ rest ->
            entry statics (setEntry statics head (Gate.interrupt (entryPoint head (catchAll head))
              kernelCodeSelector) state.2) vector = entry statics state.2 vector := by
          intro vector member
          apply entry_setEntry_other
          rintro rfl
          exact fresh member
        refine ⟨?_, ?_, ?_⟩
        · rw [count, List.filter_cons_of_pos (by simp [present]), List.length_cons]
          have same : rest.filter (fun vector => !hasHandler statics (setEntry statics head
                (Gate.interrupt (entryPoint head (catchAll head)) kernelCodeSelector) state.2)
                vector) =
              rest.filter fun vector => !hasHandler statics state.2 vector := by
            apply List.filter_congr
            intro vector member
            rw [hasHandler, others vector member, hasHandler]
          rw [same]
          omega
        · intro vector
          rw [entries]
          by_cases same : vector = head
          · subst same
            rw [if_neg (fun both => fresh both.1), entry_setEntry_self,
              if_pos ⟨List.mem_cons_self, absent⟩]
          · rw [entry_setEntry_other same]
            refine if_congr ?_ rfl rfl
            simp [same]
        · intro target away
          rw [outside target away]
          exact setEntry_outside away

/-! ## The counters -/

/-- The bytes that `interrupts::init` writes besides the table. -/
def counterBytes (statics : Statics image) : Set Nat :=
  ByteMemory.extent statics.unhandledTotal unhandledTotalSize ∪
    ByteMemory.extent statics.reported reportedSize

theorem resetWords_apply (base : Nat) (indices : List Nat) (memory : ByteMemory) (target : Nat) :
    indices.foldl (fun memory index => memory.store (base + index * 4) 4 0) memory target =
      if Exists fun index => index ∈ indices ∧
          (base + index * 4 ≤ target ∧ target < base + index * 4 + 4) then 0
      else memory target := by
  induction indices generalizing memory with
  | nil => simp
  | cons head rest inductionHypothesis =>
      rw [List.foldl_cons, inductionHypothesis, ByteMemory.store_zero]
      by_cases later : Exists fun index => index ∈ rest ∧
          (base + index * 4 ≤ target ∧ target < base + index * 4 + 4)
      · rcases later with ⟨index, member, inWord⟩
        rw [if_pos ⟨index, member, inWord⟩, if_pos ⟨index, List.mem_cons_of_mem _ member, inWord⟩]
      · simp only [List.mem_cons, exists_eq_or_imp, later, or_false, if_false]

theorem resetCounters_outside {target : Nat} (outside : target ∉ counterBytes statics) :
    resetCounters statics memory target = memory target := by
  simp only [counterBytes, Set.mem_union, ByteMemory.mem_extent, unhandledTotalSize,
    reportedSize] at outside
  rw [resetCounters, resetWords_apply, if_neg]
  · exact ByteMemory.store_outside memory (by omega)
  · rintro ⟨index, member, inWord⟩
    have small := List.mem_range.mp member
    omega

/-- No counter is part of a table. -/
theorem notMem_counters {table : Block} (isTable : table ∈ statics.tables) {target : Nat}
    (inTable : target ∈ table.bytes) : target ∉ counterBytes statics := by
  have bounds := ByteMemory.mem_extent.mp inTable
  have total := @Statics.apart_counters _ statics table
    ⟨statics.unhandledTotal, unhandledTotalSize⟩ isTable (by simp [Addresses.counters])
  have reported := @Statics.apart_counters _ statics table
    ⟨statics.reported, reportedSize⟩ isTable (by simp [Addresses.counters])
  simp only [Block.Apart] at total reported
  simp only [counterBytes, Set.mem_union, ByteMemory.mem_extent]
  omega

/-! ## Boot and drivers -/

/-- The table as `kernel_main` sets it up: `idt::init`, `exceptions::init` and
`interrupts::init`.  The number is what the last one returns. -/
def boot (statics : Statics image) (entryPoint : EntryPoints) (processor : Processor) :
    Nat × Processor :=
  let cleared := init statics processor
  let filled := interruptsInit statics entryPoint
    (exceptionsInit statics entryPoint cleared.memory)
  (filled.1, cleared.setMemory filled.2)

/-- A driver that takes over a vector afterwards. -/
inductive Driver where
  | timer
  | keyboard
  deriving DecidableEq, Repr

namespace Driver

def vector : Driver -> UInt8
  | .timer => Interrupt.irqVectorBase + Interrupt.timerIrq
  | .keyboard => Interrupt.irqVectorBase + Interrupt.keyboardIrq

def handler : Driver -> Interrupt.Entry
  | .timer => .timer
  | .keyboard => .keyboard

/-- The table of handlers with the one of the driver. -/
def install : Driver -> Interrupt.Idt -> Interrupt.Idt
  | .timer => Interrupt.installTimer
  | .keyboard => Interrupt.installKeyboard

/-- The call of `set_handler` in `pit::init` or `keyboard::init`. -/
def register (statics : Statics image) (entryPoint : EntryPoints) (memory : ByteMemory)
    (driver : Driver) : ByteMemory :=
  setHandler statics driver.vector (entryPoint driver.vector driver.handler) memory

theorem vector_ne_eight (driver : Driver) : driver.vector ≠ 8 := by
  cases driver <;> decide

end Driver

theorem exceptionsInit_outside {target : Nat}
    (outside : target < statics.idt ∨ statics.idt + idtSize ≤ target) :
    exceptionsInit statics entryPoint memory target = memory target := by
  simp only [exceptionsInit, setHandler, setHandlerWithErrorCode, setTaskGate, setGate]
  rw [setEntry_outside outside, setEntry_outside outside, setEntry_outside outside,
    setEntry_outside outside]

/-- The entries that the loop of `interrupts::init` finds. -/
theorem entry_resetCounters (memory : ByteMemory) :
    entry statics (resetCounters statics memory) = entry statics memory := by
  funext vector
  refine entry_congr (fun address member => resetCounters_outside ?_) vector
  exact @notMem_counters _ statics ⟨statics.idt, idtSize⟩ (by simp [Addresses.tables]) _ member

theorem boot_outside (processor : Processor) {target : Nat}
    (outside : target < statics.idt ∨ statics.idt + idtSize ≤ target)
    (uncounted : target ∉ counterBytes statics) :
    (boot statics entryPoint processor).2.memory target = processor.memory target := by
  have cleared : (init statics processor).memory target = processor.memory target := by
    simp only [init, Processor.lidt, Processor.setMemory]
    exact clear_outside vectors processor.memory outside
  simp only [boot, Processor.setMemory, interruptsInit]
  rw [(fillVectors_spec entryPoint statics nodup_vectors _).2.2 target outside]
  exact (resetCounters_outside uncounted).trans
    ((exceptionsInit_outside entryPoint outside).trans cleared)

theorem entry_boot (processor : Processor) :
    entry statics (boot statics entryPoint processor).2.memory =
      gateFor entryPoint (full (Interrupt.interruptsInit Interrupt.exceptionsInit)) := by
  have registered := entry_exceptionsInit entryPoint (entry_init statics processor)
  have filled := (fillVectors_spec entryPoint statics nodup_vectors (0, resetCounters statics
    (exceptionsInit statics entryPoint (init statics processor).memory))).2.1
  funext vector
  simp only [boot, Processor.setMemory, interruptsInit]
  rw [filled, entry_resetCounters, registered, isPresent_gateFor]
  by_cases isEight : vector = 8
  · rw [if_neg (by simp [isEight]), gateFor, gateFor, if_pos isEight, if_pos isEight]
  · rw [decide_eq_false isEight, Bool.false_or, gateFor, gateFor, if_neg isEight, if_neg isEight]
    cases owned : Interrupt.exceptionsInit vector with
    | some handler =>
        rw [if_neg (by simp)]
        simp only [full, Interrupt.interruptsInit, owned]
    | none =>
        rw [if_pos ⟨mem_vectors vector, rfl⟩]
        simp only [full, catchAll, Interrupt.interruptsInit, owned]

end Registration

end Idt

end Tables
end Goatos
