import Goatos.Library.PageWalk
import Goatos.Library.Record

namespace Goatos
namespace Library
namespace ProtectedMode

/-!
# Interrupts and tasks of a 32-bit processor

What the processor itself does in ring 0 when an exception or an interrupt
arrives.  It finds a gate in the interrupt table and either pushes a frame on the
current stack or saves all registers in one task state segment and loads them
from another.  Everything it needs for that lies in memory and is reached through
the page tables, so that each access may fault in turn.  A fault while another
one is being delivered is delivered itself or turns into a double fault, and the
processor shuts down if that cannot be delivered either.

A double fault is delivered with the registers of the interrupted code.  Real processors
leave open which address they save then, so this is one of the behaviours they may have.
Rings other than 0, virtual 8086 mode, local descriptor tables, the limit check on the
next instruction and the resume and debug-trap machinery are left out.
-/

/-- The registers that a task state segment holds in 32 bits. -/
inductive GeneralRegister where
  | eip | eflags | eax | ecx | edx | ebx | esp | ebp | esi | edi
  deriving DecidableEq, Repr

inductive SegmentName where
  | es | cs | ss | ds | fs | gs
  deriving DecidableEq, Repr

/-- A segment register with the part of its descriptor that the processor keeps. -/
structure SegmentRegister where
  selector : Nat
  base : Nat
  limit : Nat
  deriving DecidableEq, Repr

/-- Where a descriptor table is, and the offset of its last byte. -/
structure TableRegister where
  base : Nat
  limit : Nat
  deriving DecidableEq, Repr

structure Processor where
  general : GeneralRegister -> Nat
  segment : SegmentName -> SegmentRegister
  /-- The task register. -/
  task : SegmentRegister
  gdtr : TableRegister
  idtr : TableRegister
  cr0 : Nat
  cr3 : Nat
  memory : ByteMemory

/-- An exception that the processor raises while it executes an instruction or delivers
another event.  The number is its error code, without the bit for external events. -/
inductive Fault where
  | invalidTss (code : Nat)
  | segmentNotPresent (code : Nat)
  | stackFault (code : Nat)
  | generalProtection (code : Nat)
  | pageFault (code : Nat)
  deriving DecidableEq, Repr

/-- The result of something that may fault.  What was written until then stays
in memory, while the registers are as before. -/
abbrev Attempt (Result : Type) := Except (Fault × ByteMemory) Result

/-! ## Memory through the page tables -/

def pagingBit : Nat := 2 ^ 31

/-- The physical address of a linear one; `none` is a page fault. -/
def translate (cr0 cr3 : Nat) (memory : ByteMemory) (linear : Nat) : Option Nat :=
  if cr0 &&& pagingBit = 0 then some (linear % 2 ^ 32)
  else (walk memory cr3 (linear % 2 ^ 32)).map Translation.physical

/-- Store the low bytes of a number at the given addresses, lowest byte first. -/
def storeAt (memory : ByteMemory) : List Nat -> Nat -> ByteMemory
  | [], _ => memory
  | target :: rest, value => storeAt (memory.store target 1 value) rest (value / 256)

namespace Processor

def translate (processor : Processor) (linear : Nat) : Option Nat :=
  ProtectedMode.translate processor.cr0 processor.cr3 processor.memory linear

/-- Every byte of a stretch of linear addresses is mapped. -/
def reaches (processor : Processor) (linear width : Nat) : Bool :=
  (List.range width).all fun offset => (processor.translate (linear + offset)).isSome

/-- Memory by linear addresses.  Where nothing is mapped it does not matter what is
found. -/
def view (processor : Processor) : ByteMemory :=
  fun linear => processor.memory ((processor.translate linear).getD 0)

def read (processor : Processor) (linear width : Nat) : Option Nat :=
  if processor.reaches linear width then some (processor.view.load linear width) else none

def setMemory (processor : Processor) (memory : ByteMemory) : Processor :=
  { processor with memory := memory }

def write (processor : Processor) (linear width value : Nat) : Option Processor :=
  if processor.reaches linear width then
    let targets := (List.range width).map fun offset =>
      (processor.translate (linear + offset)).getD 0
    some (processor.setMemory (storeAt processor.memory targets value))
  else none

def writeFields (processor : Processor) (base : Nat) (fields : List Field) : Option Processor :=
  fields.foldlM (fun processor field =>
    processor.write (base + field.offset) field.width field.value) processor

def setGeneral (processor : Processor) (register : GeneralRegister) (value : Nat) : Processor :=
  { processor with
    general := fun other => if other = register then value else processor.general other }

def setSegment (processor : Processor) (name : SegmentName) (value : SegmentRegister) : Processor :=
  { processor with
    segment := fun other => if other = name then value else processor.segment other }

def refuse {Result : Type} (processor : Processor) (fault : Fault) : Attempt Result :=
  .error (fault, processor.memory)

/-- Go on with the result of an access, or fault with what was written so far. -/
def require {Result : Type} (processor : Processor) (code : Nat) :
    Option Result -> Attempt Result
  | none => processor.refuse (.pageFault code)
  | some result => .ok result

end Processor

/-! ## Descriptors and segments -/

/-- The error code that names a selector; the requested privilege level is no part
of it. -/
def selectorCode (selector : Nat) : Nat :=
  selector / 4 * 4

/-- A descriptor, as the processor takes it apart. -/
structure Descriptor where
  base : Nat
  limit : Nat
  access : Nat
  flags : Nat
  deriving DecidableEq, Repr

namespace Descriptor

def decode (word : Nat) : Descriptor where
  base := word / 2 ^ 16 % 2 ^ 24 + word / 2 ^ 56 % 2 ^ 8 * 2 ^ 24
  limit := word % 2 ^ 16 + word / 2 ^ 48 % 2 ^ 4 * 2 ^ 16
  access := word / 2 ^ 40 % 2 ^ 8
  flags := word / 2 ^ 52 % 2 ^ 4

/-- The offset of the last byte; the limit counts pages if the highest flag is set. -/
def lastByte (descriptor : Descriptor) : Nat :=
  if descriptor.flags / 8 = 1 then descriptor.limit * 4096 + 4095 else descriptor.limit

def isPresent (descriptor : Descriptor) : Bool :=
  descriptor.access / 128 = 1

/-- The access byte fits the segment register in ring 0: code for `cs`, writable data
for `ss`, anything readable for the rest. -/
def suits (descriptor : Descriptor) : SegmentName -> Bool
  | .cs => descriptor.access / 8 % 16 = 3
  | .ss => descriptor.access / 8 % 16 = 2 && descriptor.access / 2 % 2 = 1
  | _ => descriptor.access / 16 % 2 = 1 &&
      (descriptor.access / 8 % 2 = 0 || descriptor.access / 2 % 2 = 1)

def isAvailableTss (descriptor : Descriptor) : Bool :=
  descriptor.access % 32 = 9

/-- The type of one that belongs to a task that runs or waits for another one. -/
def isBusyTss (descriptor : Descriptor) : Bool :=
  descriptor.access % 32 = 11

end Descriptor

namespace Processor

variable (processor : Processor)

def descriptorAddress (selector : Nat) : Nat :=
  processor.gdtr.base + selector / 8 * 8

/-- The descriptor of a selector; `wrong` is the fault for a selector outside the
table. -/
def descriptorAt (wrong : Nat -> Fault) (selector : Nat) : Attempt Descriptor :=
  if selector / 4 % 2 = 1 ∨ processor.gdtr.limit < selector / 8 * 8 + 7 then
    processor.refuse (wrong (selectorCode selector))
  else do
    let word ← processor.require 0 (processor.read (processor.descriptorAddress selector) 8)
    return Descriptor.decode word

def setAccess (selector access : Nat) : Attempt Processor :=
  processor.require 2 (processor.write (processor.descriptorAddress selector + 5) 1 access)

/-- Load a segment register; the descriptor is marked as accessed. -/
def loadSegment (wrong : Nat -> Fault) (name : SegmentName) (selector : Nat) :
    Attempt Processor :=
  if selector / 4 = 0 then
    if name = .cs ∨ name = .ss then processor.refuse (wrong 0)
    else return processor.setSegment name ⟨selector, 0, 0⟩
  else do
    let descriptor ← processor.descriptorAt wrong selector
    if !descriptor.suits name then processor.refuse (wrong (selectorCode selector))
    else if !descriptor.isPresent then
      processor.refuse (if name = .ss then .stackFault (selectorCode selector)
        else .segmentNotPresent (selectorCode selector))
    else do
      let marked ←
        if descriptor.access % 2 = 1 then pure processor
        else processor.setAccess selector (descriptor.access ||| 1)
      return marked.setSegment name ⟨selector, descriptor.base, descriptor.lastByte⟩

def lgdt (table : TableRegister) : Processor :=
  { processor with gdtr := table }

def lidt (table : TableRegister) : Processor :=
  { processor with idtr := table }

/-- The descriptor of a task state segment that is free to be used. -/
def availableTss (selector : Nat) : Attempt Descriptor :=
  if selector / 4 = 0 then processor.refuse (.generalProtection 0)
  else do
    let descriptor ← processor.descriptorAt .generalProtection selector
    if !descriptor.isAvailableTss then
      processor.refuse (.generalProtection (selectorCode selector))
    else if !descriptor.isPresent then
      processor.refuse (.segmentNotPresent (selectorCode selector))
    else return descriptor

/-- `ltr`: the task state segment is in use from now on. -/
def ltr (selector : Nat) : Attempt Processor := do
  let descriptor ← processor.availableTss selector
  let marked ← processor.setAccess selector (descriptor.access ||| 2)
  return { marked with task := ⟨selector, descriptor.base, descriptor.lastByte⟩ }

/-! ## Stack -/

def push (value : Nat) : Attempt Processor :=
  let esp := (2 ^ 32 - 4 + processor.general .esp) % 2 ^ 32
  if (processor.segment .ss).limit < esp + 3 then processor.refuse (.stackFault 0)
  else do
    let pushed ← processor.require 2
      (processor.write ((processor.segment .ss).base + esp) 4 value)
    return pushed.setGeneral .esp esp

def pop : Attempt (Nat × Processor) :=
  let esp := processor.general .esp
  if (processor.segment .ss).limit < esp + 3 then processor.refuse (.stackFault 0)
  else do
    let value ← processor.require 0 (processor.read ((processor.segment .ss).base + esp) 4)
    return (value, processor.setGeneral .esp ((4 + esp) % 2 ^ 32))

end Processor

/-! ## Task switches -/

def GeneralRegister.slot : GeneralRegister -> Nat
  | .eip => 32
  | .eflags => 36
  | .eax => 40
  | .ecx => 44
  | .edx => 48
  | .ebx => 52
  | .esp => 56
  | .ebp => 60
  | .esi => 64
  | .edi => 68

def GeneralRegister.all : List GeneralRegister :=
  [.eip, .eflags, .eax, .ecx, .edx, .ebx, .esp, .ebp, .esi, .edi]

def SegmentName.slot : SegmentName -> Nat
  | .es => 72
  | .cs => 76
  | .ss => 80
  | .ds => 84
  | .fs => 88
  | .gs => 92

def SegmentName.all : List SegmentName :=
  [.es, .cs, .ss, .ds, .fs, .gs]

/-- The offsets of the link to the task before, of the page directory and of the
local descriptor table. -/
def linkSlot : Nat := 0

def cr3Slot : Nat := 28

def ldtSlot : Nat := 96

def tssBytes : Nat := 104

/-- `EFLAGS` bit 14, set in a task that was entered from another one. -/
def nestedTask : Nat := 2 ^ 14

def taskSwitched : Nat := 2 ^ 3

namespace Processor

variable (processor : Processor)

/-- What a task switch saves of the task that it leaves. -/
def savedFields : List Field :=
  GeneralRegister.all.map (fun register => ⟨register.slot, 4, processor.general register⟩) ++
    SegmentName.all.map (fun name => ⟨name.slot, 2, (processor.segment name).selector⟩)

/-- Take over the registers from a task state segment, with the given flags on top; the
selectors are loaded afterwards. -/
def loadTask (selector : Nat) (descriptor : Descriptor) (flags : Nat) (memory : ByteMemory) :
    Processor :=
  { processor with
    general := fun register =>
      let value := memory.load (descriptor.base + register.slot) 4
      if register = .eflags then value ||| flags else value
    task := ⟨selector, descriptor.base, descriptor.lastByte⟩
    cr0 := processor.cr0 ||| taskSwitched
    cr3 := memory.load (descriptor.base + cr3Slot) 4 }

/-- The second half of a task switch, once the task that is left has been saved. -/
def enterTaskState (selector : Nat) (descriptor : Descriptor) (flags : Nat) : Attempt Processor := do
  let image ← processor.require 0
    (if processor.reaches descriptor.base tssBytes then some processor.view else none)
  if image.load (descriptor.base + ldtSlot) 2 / 4 ≠ 0 then
    processor.refuse (.invalidTss (selectorCode selector))
  else
    SegmentName.all.foldlM (fun entered name =>
      entered.loadSegment .invalidTss name (image.load (descriptor.base + name.slot) 2))
      (processor.loadTask selector descriptor flags image)

/-- Leave the current task for another one, to which it is linked.  All of both task
state segments has to be mapped. -/
def switchTask (selector : Nat) : Attempt Processor := do
  let descriptor ← processor.availableTss selector
  if descriptor.lastByte + 1 < tssBytes then
    processor.refuse (.invalidTss (selectorCode selector))
  else do
    let saved ← processor.require 2
      (processor.writeFields processor.task.base processor.savedFields)
    let linked ← saved.require 2
      (saved.write (descriptor.base + linkSlot) 2 processor.task.selector)
    let marked ← linked.setAccess selector (descriptor.access ||| 2)
    marked.enterTaskState selector descriptor nestedTask

/-- Go back to the task that the current one is linked to, and which still counts as
busy.  The current one is free to be entered again. -/
def returnTask : Attempt Processor := do
  let link ← processor.require 0 (processor.read (processor.task.base + linkSlot) 2)
  let descriptor ← processor.descriptorAt .invalidTss link
  if !descriptor.isBusyTss then processor.refuse (.invalidTss (selectorCode link))
  else if !descriptor.isPresent then
    processor.refuse (.segmentNotPresent (selectorCode link))
  else if descriptor.lastByte + 1 < tssBytes then
    processor.refuse (.invalidTss (selectorCode link))
  else do
    let current ← processor.descriptorAt .invalidTss processor.task.selector
    let freed ← processor.setAccess processor.task.selector (andNot 8 current.access 2)
    let left := freed.setGeneral .eflags (andNot 32 (freed.general .eflags) nestedTask)
    let saved ← freed.require 2 (freed.writeFields freed.task.base left.savedFields)
    saved.enterTaskState link descriptor 0

end Processor

/-! ## Delivery of events -/

/-- An entry of the interrupt table, as the processor takes it apart. -/
structure Gate where
  offset : Nat
  selector : Nat
  attributes : Nat
  deriving DecidableEq, Repr

def Gate.decode (word : Nat) : Gate where
  offset := word % 2 ^ 16 + word / 2 ^ 48 % 2 ^ 16 * 2 ^ 16
  selector := word / 2 ^ 16 % 2 ^ 16
  attributes := word / 2 ^ 40 % 2 ^ 8

def Gate.isPresent (gate : Gate) : Bool :=
  gate.attributes / 128 = 1

inductive GateKind where
  | task
  | interrupt
  | trap
  deriving DecidableEq, Repr

def Gate.kind (gate : Gate) : Option GateKind :=
  match gate.attributes % 32 with
  | 5 => some .task
  | 14 => some .interrupt
  | 15 => some .trap
  | _ => none

def interruptEnable : Nat := 2 ^ 9

/-- The flags that every gate clears: trap, nested task, resume and virtual 8086. -/
def clearedFlags : Nat := 2 ^ 8 + 2 ^ 14 + 2 ^ 16 + 2 ^ 17

/-- Where an event comes from.  This decides how bad it is if the event cannot be
delivered, and what the error codes of faults on the way say. -/
inductive Origin where
  | exception
  /-- An interrupt line. -/
  | hardware
  /-- An `int` instruction. -/
  | software
  deriving DecidableEq, Repr

/-- An exception or interrupt, with the error code if it has one. -/
structure Event where
  vector : Nat
  errorCode : Option Nat
  origin : Origin
  deriving DecidableEq, Repr

/-- Bit 0 of the error code of a fault during delivery: the event did not come from the
program itself. -/
def Event.external (event : Event) : Nat :=
  if event.origin = .software then 0 else 1

/-- A fault that the delivery of an event ran into.  Page faults have error codes of a
different kind. -/
def Fault.during (event : Event) : Fault -> Fault
  | .invalidTss code => .invalidTss (code + event.external)
  | .segmentNotPresent code => .segmentNotPresent (code + event.external)
  | .stackFault code => .stackFault (code + event.external)
  | .generalProtection code => .generalProtection (code + event.external)
  | .pageFault code => .pageFault code

def Fault.event : Fault -> Event
  | .invalidTss code => ⟨10, some code, .exception⟩
  | .segmentNotPresent code => ⟨11, some code, .exception⟩
  | .stackFault code => ⟨12, some code, .exception⟩
  | .generalProtection code => ⟨13, some code, .exception⟩
  | .pageFault code => ⟨14, some code, .exception⟩

def doubleFault : Event := ⟨8, some 0, .exception⟩

/-- The error code that names an entry of the interrupt table. -/
def Event.gateCode (event : Event) : Nat :=
  event.vector * 8 + 2

/-- How bad it is if an event cannot be delivered. -/
inductive Severity where
  | benign
  | contributory
  | pageFault
  | doubleFault
  deriving DecidableEq, Repr

def Severity.rank : Severity -> Nat
  | .benign => 0
  | .contributory => 1
  | .pageFault => 2
  | .doubleFault => 3

/-- Only exceptions make matters worse; interrupts are benign whatever their vector. -/
def severity (event : Event) : Severity :=
  if event.origin ≠ .exception then .benign
  else if event.vector = 8 then .doubleFault
  else if event.vector = 14 then .pageFault
  else if event.vector = 0 ∨ 10 ≤ event.vector ∧ event.vector ≤ 13 then .contributory
  else .benign

/-- The event that takes the place of one whose delivery ran into a fault; `none` is a
shutdown. -/
def escalate (first : Severity) (second : Fault) : Option Event :=
  match first, second with
  | .doubleFault, _ => none
  | .pageFault, _ => some doubleFault
  | .contributory, .pageFault code => some (Fault.pageFault code).event
  | .contributory, _ => some doubleFault
  | .benign, fault => some fault.event

theorem rank_lt_of_escalate {event next : Event} {fault : Fault}
    (escalated : escalate (severity event) fault = some next) :
    (severity event).rank < (severity next).rank := by
  generalize severity event = first at escalated
  cases first <;> cases fault <;> cases escalated <;> exact Nat.le_of_ble_eq_true rfl

theorem rank_le (event : Event) : (severity event).rank ≤ 3 := by
  cases severity event <;> decide

namespace Processor

variable (processor : Processor)

/-- Enter a handler on the current stack, at the offset of the gate and in its code
segment. -/
def enterHandler (gate : Gate) (clears : Nat) (errorCode : Option Nat) : Attempt Processor := do
  let entered ← processor.loadSegment .generalProtection .cs gate.selector
  let frame := [processor.general .eflags, (processor.segment .cs).selector,
    processor.general .eip] ++ errorCode.toList
  let pushed ← frame.foldlM push entered
  return (pushed.setGeneral .eflags (andNot 32 (processor.general .eflags) clears)).setGeneral
    .eip gate.offset

/-- Enter a handler in a task of its own; the error code goes on the stack of that
task. -/
def enterTask (gate : Gate) (errorCode : Option Nat) : Attempt Processor := do
  let entered ← processor.switchTask gate.selector
  errorCode.toList.foldlM push entered

/-- Go through a gate on behalf of an event. -/
def enter (gate : Gate) (event : Event) : Attempt Processor :=
  match gate.kind with
  | none => processor.refuse (.generalProtection event.gateCode)
  | some kind =>
      if !gate.isPresent then processor.refuse (.segmentNotPresent event.gateCode)
      else
        match kind with
        | .task => processor.enterTask gate event.errorCode
        | .interrupt => processor.enterHandler gate (clearedFlags + interruptEnable) event.errorCode
        | .trap => processor.enterHandler gate clearedFlags event.errorCode

/-- Go through the gate of an event's vector, which has to lie within the table. -/
def vectorTo (event : Event) : Attempt Processor :=
  if processor.idtr.limit < event.vector * 8 + 7 then
    processor.refuse (.generalProtection event.gateCode)
  else do
    let word ← processor.require 0 (processor.read (processor.idtr.base + event.vector * 8) 8)
    processor.enter (Gate.decode word) event

/-- Deliver an event; what it runs into is marked as arising from it. -/
def deliver (event : Event) : Attempt Processor :=
  (processor.vectorTo event).mapError fun (fault, memory) => (fault.during event, memory)

/-- `iret` to the same ring.  In a task that was entered from another one it goes back to
that task instead. -/
def interruptReturn : Attempt Processor :=
  if processor.general .eflags &&& nestedTask ≠ 0 then processor.returnTask
  else do
    let (eip, first) ← processor.pop
    let (cs, second) ← first.pop
    let (eflags, third) ← second.pop
    let returned ← third.loadSegment .generalProtection .cs (cs % 2 ^ 16)
    return (returned.setGeneral .eip eip).setGeneral .eflags eflags

end Processor

/-- What becomes of the processor when an event arrives: it goes on somewhere, or it
shuts down. -/
inductive Outcome where
  | running (processor : Processor)
  | shutdown

/-- Deliver an event, and in its place whatever goes wrong with that.  A fault during
the delivery of a double fault shuts the processor down. -/
def raise (processor : Processor) (event : Event) : Outcome :=
  match processor.deliver event with
  | .ok entered => .running entered
  | .error (fault, memory) =>
      match escalated : escalate (severity event) fault with
      | none => .shutdown
      | some next =>
          have := rank_lt_of_escalate escalated
          have := rank_le next
          raise (processor.setMemory memory) next
termination_by 3 - (severity event).rank

end ProtectedMode
end Library
end Goatos
