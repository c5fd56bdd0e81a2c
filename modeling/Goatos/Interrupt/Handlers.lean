import Mathlib.Logic.Function.Basic
import Goatos.Interrupt.Pic
import Goatos.Input.Keyboard

namespace Goatos
namespace Interrupt

open Library
open PortProgram
open Input

/-!
# The interrupt handlers

Three handlers can be entered for the vectors of the controllers: that of the timer,
that of the keyboard, and the catch-all behind every vector without a handler of its
own.  What they print is kept as lines of text; that printing does not change the
interrupt flag is a matter of the print locks.

A handler returns nothing to the code it interrupted.  Here it ends with what
`end_of_interrupt` answered, which the timer and the keyboard drop.
-/

/-- The memory of the kernel that the handlers share, and the lines they print. -/
structure Kernel where
  /-- `TICKS` -/
  ticks : UInt32
  /-- `UNHANDLED_TOTAL` -/
  unhandledTotal : UInt32
  /-- `REPORTED`, a bit for every vector. -/
  reported : Vector UInt32 8
  keyboard : Keyboard
  /-- The lines printed. -/
  printed : List (List Char)

structure StackFrame where
  eip : UInt32
  cs : UInt32
  eflags : UInt32
  deriving DecidableEq, Repr

/-- How a handler ends: it returns, or it halts the machine. -/
inductive Ending where
  | returned (answer : Option Acknowledged)
  | halted
  deriving DecidableEq, Repr

/-- A handler, from its first instruction to its last. -/
abbrev Handler := PortProgram Kernel Ending

/-- Change the memory; the answer is the memory before. -/
def atomically (change : Kernel -> Kernel) : PortProgram Kernel Kernel :=
  .atomic change .done

/-! ## Timer and keyboard -/

def timerIrq : UInt8 := 0

def keyboardIrq : UInt8 := 1

/-- `STATUS_PORT` of the keyboard controller. -/
def statusPort : UInt16 := 0x64

/-- `DATA_PORT` of the keyboard controller. -/
def dataPort : UInt16 := 0x60

def statusOutputFull : UInt8 := (1 : UInt8) <<< 0

/-- Count a tick, and acknowledge the interrupt. -/
def timerInterrupt : Handler := do
  let _ ← atomically fun kernel => { kernel with ticks := kernel.ticks + 1 }
  let answer ← endOfInterrupt timerIrq
  return .returned (some answer)

/-- Fetch a scancode if there is one, acknowledge the interrupt, and only then
handle the scancode. -/
def keyboardInterrupt : Handler := do
  let status ← inb statusPort
  if status &&& statusOutputFull ≠ 0 then
    let scancode ← inb dataPort
    let answer ← endOfInterrupt keyboardIrq
    let _ ← atomically fun kernel =>
      { kernel with keyboard := handleScancode scancode kernel.keyboard }
    return .returned (some answer)
  else
    let answer ← endOfInterrupt keyboardIrq
    return .returned (some answer)

/-! ## The catch-all -/

def exceptionVectorCount : UInt8 := 32

def exceptionName (vector : UInt8) : String :=
  match vector with
  | 0 => "divide error"
  | 1 => "debug"
  | 2 => "non-maskable interrupt"
  | 3 => "breakpoint"
  | 4 => "overflow"
  | 5 => "bound range exceeded"
  | 6 => "invalid opcode"
  | 7 => "device not available"
  | 8 => "double fault"
  | 9 => "coprocessor segment overrun"
  | 10 => "invalid TSS"
  | 11 => "segment not present"
  | 12 => "stack-segment fault"
  | 13 => "general protection fault"
  | 14 => "page fault"
  | 16 => "x87 floating-point error"
  | 17 => "alignment check"
  | 18 => "machine check"
  | 19 => "SIMD floating-point exception"
  | 20 => "virtualization exception"
  | 21 => "control protection exception"
  | 28 => "hypervisor injection exception"
  | 29 => "VMM communication exception"
  | 30 => "security exception"
  | _ => "reserved exception"

def decimal (number : UInt8) : List Char :=
  Nat.toDigits 10 number.toNat

/-- Hexadecimal digits with leading zeros, as by `:#010x` for 8 digits. -/
def hexadecimal (digits : Nat) (number : UInt32) : List Char :=
  "0x".toList ++ (Nat.toDigits 16 number.toNat).leftpad digits '0'

/-- The lines that the catch-all prints, which depend on whether the vector is one
of the controllers and whether there is an error code. -/
def unhandledReport (vector : UInt8) (irq : Option UInt8) (spurious : Option Bool)
    (errorCode : Option UInt32) (frame : StackFrame) : List (List Char) :=
  let title := "*** UNHANDLED INTERRUPT #".toList ++ decimal vector ++ ": ".toList
  let registers := "    eip=".toList ++ hexadecimal 8 frame.eip ++ " cs=".toList ++
    hexadecimal 4 frame.cs ++ " eflags=".toList ++ hexadecimal 8 frame.eflags
  [[],
   match irq, spurious with
   | some irq, some true => title ++ "spurious IRQ".toList ++ decimal irq
   | some irq, _ => title ++ "IRQ".toList ++ decimal irq ++ ", no driver".toList
   | _, _ =>
      if vector < exceptionVectorCount then title ++ (exceptionName vector).toList
      else title ++ "no handler".toList,
   match errorCode with
   | some code => registers ++ " error=".toList ++ hexadecimal 8 code
   | none => registers] ++
  if vector < exceptionVectorCount then
    ["    Halted - an unhandled CPU exception cannot be resumed.".toList]
  else
    [if spurious = some true then "    Resuming - spurious, so the PIC got no EOI.".toList
     else if irq.isSome then "    Resuming - the IRQ was acknowledged and dropped.".toList
     else "    Resuming - nothing can raise this vector but the kernel.".toList,
     "    Further reports for this vector are suppressed.".toList]

theorem reportedWord_lt (vector : UInt8) : (vector / 32).toNat < 8 := by
  have small := vector.toNat_lt
  rw [UInt8.toNat_div]
  exact Nat.div_lt_of_lt_mul small

/-- Whether a vector was reported before; it is from now on.  There is one bit for
each vector. -/
def markReported (vector : UInt8) : PortProgram Kernel Bool := do
  let bit : UInt32 := 1 <<< (vector % 32).toUInt32
  let word := (vector / 32).toNat
  have inside := reportedWord_lt vector
  let kernel ← atomically fun kernel =>
    { kernel with reported := kernel.reported.set word (kernel.reported.get ⟨word, inside⟩ ||| bit) }
  return kernel.reported.get ⟨word, inside⟩ &&& bit ≠ 0

/-- `end_of_interrupt` for a vector that belongs to the controllers. -/
def endIfIrq : Option UInt8 -> PortProgram Kernel (Option Acknowledged)
  | some irq => do
      let answer ← endOfInterrupt irq
      return some answer
  | none => return none

/-- The catch-all.  It counts the interrupt, ends it if it came from the controllers,
reports a vector the first time it shows up, and halts after an exception. -/
def dispatch (vector : UInt8) (errorCode : Option UInt32) (frame : StackFrame) : Handler := do
  let _ ← atomically fun kernel => { kernel with unhandledTotal := kernel.unhandledTotal + 1 }
  let alreadyReported ← markReported vector
  let irq := irqOfVector vector
  let answer ← endIfIrq irq
  let spurious := answer.map fun answer => decide (answer = .spurious)
  if !alreadyReported then
    let _ ← atomically fun kernel =>
      { kernel with
        printed := kernel.printed ++ unhandledReport vector irq spurious errorCode frame }
  if vector < exceptionVectorCount then return .halted
  else return .returned answer

/-! ## The interrupt descriptor table -/

/-- What a vector leads to. -/
inductive Entry where
  | timer
  | keyboard
  | unhandled (vector : UInt8)
  | unhandledWithErrorCode (vector : UInt8)
  /-- A handler for a processor exception, which no interrupt line raises. -/
  | exception
  deriving DecidableEq, Repr

abbrev Idt := UInt8 -> Entry

/-- The handler of an entry.  Those for exceptions are not modelled. -/
def Entry.handler (frame : StackFrame) (errorCode : UInt32) : Entry -> Option Handler
  | .timer => some timerInterrupt
  | .keyboard => some keyboardInterrupt
  | .unhandled vector => some (dispatch vector none frame)
  | .unhandledWithErrorCode vector => some (dispatch vector (some errorCode) frame)
  | .exception => none

def exceptionsInit (vector : UInt8) : Option Entry :=
  if vector ∈ [0, 6, 8, 13] then some .exception else none

/-- The vectors that `error_code_stub` has a catch-all for. -/
def errorCodeVectors : List UInt8 := [8, 10, 11, 12, 13, 14, 17, 21, 29, 30]

/-- The vector that the entry point in the given row and column reports as its own. -/
def stubRow (base column : UInt8) : UInt8 :=
  base + column

def stub (vector : UInt8) : Entry :=
  .unhandled (stubRow ((vector >>> 4) * 0x10) (vector &&& 0x0f))

/-- `interrupts::init`: every vector without a handler gets the catch-all, in the
form that fits whether the processor pushes an error code. -/
def interruptsInit (registered : UInt8 -> Option Entry) : Idt :=
  fun vector =>
    match registered vector with
    | some entry => entry
    | none =>
        if vector ∈ errorCodeVectors then .unhandledWithErrorCode vector else stub vector

def installTimer (idt : Idt) : Idt :=
  Function.update idt (irqVectorBase + timerIrq) .timer

def installKeyboard (idt : Idt) : Idt :=
  Function.update idt (irqVectorBase + keyboardIrq) .keyboard

end Interrupt
end Goatos
