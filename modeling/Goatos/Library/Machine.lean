import Mathlib.Logic.Function.Basic
import Goatos.Library.ByteMemory

namespace Goatos
namespace Library

/-!
# A fragment of the i386

Registers, flags and memory, and the few instructions that hand-written stack
code is made of.  Straight-line code is a list of instructions.

Reasoning about such code goes through what lies on the stack: `HoldsWords` says
which words are found from an address upwards.  A push puts a word in front, a
pop takes it away, and writes elsewhere do not matter.
-/

open ByteMemory

/-- The words found from an address upwards, four bytes each. -/
def HoldsWords (memory : ByteMemory) : Nat -> List UInt32 -> Prop
  | _, [] => True
  | address, word :: words =>
      memory.load address 4 = word.toNat ∧ HoldsWords memory (address + 4) words

namespace HoldsWords

variable {memory : ByteMemory} {address : Nat} {words : List UInt32}

/-- Only the bytes of the words themselves matter. -/
theorem congr {memory' : ByteMemory} (holds : HoldsWords memory address words)
    (agree : Set.EqOn memory memory' (extent address (4 * words.length))) :
    HoldsWords memory' address words := by
  induction words generalizing address with
  | nil => trivial
  | cons word words inductionHypothesis =>
      rw [List.length_cons] at agree
      have head : Set.EqOn memory memory' (extent address 4) := by
        intro target member
        have bounds := mem_extent.mp member
        exact agree (mem_extent.mpr ⟨bounds.1, by omega⟩)
      have tail : Set.EqOn memory memory' (extent (address + 4) (4 * words.length)) := by
        intro target member
        have bounds := mem_extent.mp member
        exact agree (mem_extent.mpr ⟨by omega, by omega⟩)
      exact ⟨(load_congr head).symm.trans holds.1, inductionHypothesis holds.2 tail⟩

/-- A word stored right below goes in front. -/
theorem push (holds : HoldsWords memory address words) (room : 4 ≤ address) (word : UInt32) :
    HoldsWords (memory.store (address - 4) 4 word.toNat) (address - 4) (word :: words) := by
  refine ⟨load_store_of_lt _ word.toNat_lt, ?_⟩
  rw [Nat.sub_add_cancel room]
  apply holds.congr
  intro target member
  have bounds := mem_extent.mp member
  exact (store_outside _ (by omega)).symm

end HoldsWords

inductive Register where
  | eax
  | edx
  | ebx
  | esi
  | edi
  | ebp
  | esp
  deriving DecidableEq, Repr

/-- The state of the processor and the memory: the registers that the code uses, the
flags and the next instruction. -/
structure Machine where
  registers : Register -> UInt32
  eip : UInt32
  eflags : UInt32
  memory : ByteMemory

/-- The interrupt flag, bit 9 of `eflags`. -/
def interruptFlag : UInt32 := (1 : UInt32) <<< 9

def interruptsOn (flags : UInt32) : Bool :=
  flags &&& interruptFlag ≠ 0

theorem interruptsOn_masked (flags : UInt32) :
    interruptsOn (flags &&& ~~~interruptFlag) = false := by
  rw [interruptsOn, UInt32.and_assoc, UInt32.not_and_self, UInt32.and_zero]
  rfl

theorem interruptsOn_set (flags : UInt32) : interruptsOn (flags ||| interruptFlag) = true := by
  apply decide_eq_true
  intro clear
  have bit := congrArg (fun word : UInt32 => word.toNat.testBit 9) clear
  have one : interruptFlag.toNat.testBit 9 = true := by decide
  simp [UInt32.toNat_or, UInt32.toNat_and, one] at bit

/-- Instructions, in the operand order of the AT&T assembler. -/
inductive Instruction where
  /-- `movl displacement(%base), %target` -/
  | load (displacement : UInt32) (base target : Register)
  /-- `movl %source, (%base)` -/
  | store (source base : Register)
  /-- `pushl %source` -/
  | push (source : Register)
  /-- `pushl $value` -/
  | pushImmediate (value : UInt32)
  /-- `pushfl` -/
  | pushFlags
  /-- `popl %target` -/
  | pop (target : Register)
  /-- `addl $amount, %target` -/
  | add (amount : UInt32) (target : Register)
  /-- `subl $amount, %target` -/
  | sub (amount : UInt32) (target : Register)
  /-- `call *%target`, with the address of the next instruction -/
  | call (target : Register) (following : UInt32)
  /-- `ret` -/
  | ret
  /-- `cli` -/
  | cli
  /-- A test of the interrupt flag in a register and `sti` if it is set there. -/
  | stiIfSet (source : Register)
  deriving DecidableEq, Repr

namespace Machine

def esp (machine : Machine) : UInt32 :=
  machine.registers .esp

def set (machine : Machine) (register : Register) (value : UInt32) : Machine :=
  { machine with registers := Function.update machine.registers register value }

def word (machine : Machine) (address : UInt32) : UInt32 :=
  UInt32.ofNat (machine.memory.load address.toNat 4)

def pushWord (machine : Machine) (value : UInt32) : Machine :=
  let esp := machine.esp - 4
  { machine.set .esp esp with memory := machine.memory.store esp.toNat 4 value.toNat }

def execute (machine : Machine) : Instruction -> Machine
  | .load displacement base target =>
      machine.set target (machine.word (machine.registers base + displacement))
  | .store source base =>
      { machine with
        memory := machine.memory.store (machine.registers base).toNat 4
          (machine.registers source).toNat }
  | .push source => machine.pushWord (machine.registers source)
  | .pushImmediate value => machine.pushWord value
  | .pushFlags => machine.pushWord machine.eflags
  | .pop target => (machine.set .esp (machine.esp + 4)).set target (machine.word machine.esp)
  | .add amount target => machine.set target (machine.registers target + amount)
  | .sub amount target => machine.set target (machine.registers target - amount)
  | .call target following =>
      { machine.pushWord following with eip := machine.registers target }
  | .ret => { machine.set .esp (machine.esp + 4) with eip := machine.word machine.esp }
  | .cli => { machine with eflags := machine.eflags &&& ~~~interruptFlag }
  | .stiIfSet source =>
      if machine.registers source &&& interruptFlag ≠ 0 then
        { machine with eflags := machine.eflags ||| interruptFlag }
      else machine

def run (machine : Machine) (code : List Instruction) : Machine :=
  code.foldl execute machine

def InterruptsEnabled (machine : Machine) : Prop :=
  machine.eflags &&& interruptFlag ≠ 0

instance (machine : Machine) : Decidable machine.InterruptsEnabled :=
  inferInstanceAs (Decidable (_ ≠ _))

theorem run_append (machine : Machine) (first second : List Instruction) :
    machine.run (first ++ second) = (machine.run first).run second :=
  List.foldl_append

theorem run_cons (machine : Machine) (first : Instruction) (rest : List Instruction) :
    machine.run (first :: rest) = (machine.execute first).run rest :=
  rfl

theorem not_interruptsEnabled_of_masked {machine : Machine} {flags : UInt32}
    (masked : machine.eflags = flags &&& ~~~interruptFlag) : ¬ machine.InterruptsEnabled := by
  rw [InterruptsEnabled, masked]
  exact of_decide_eq_false (interruptsOn_masked flags)

theorem interruptsEnabled_of_set {machine : Machine} {flags : UInt32}
    (set : machine.eflags = flags ||| interruptFlag) : machine.InterruptsEnabled := by
  rw [InterruptsEnabled, set]
  exact of_decide_eq_true (interruptsOn_set flags)

variable {machine : Machine}

@[simp] theorem registers_set_self (machine : Machine) (register : Register) (value : UInt32) :
    (machine.set register value).registers register = value := by
  simp only [set, Function.update_self]

theorem registers_set_of_ne {register other : Register} (different : other ≠ register)
    (value : UInt32) : (machine.set register value).registers other = machine.registers other := by
  simp only [set, Function.update_of_ne different]

@[simp] theorem esp_set_esp (machine : Machine) (value : UInt32) :
    (machine.set .esp value).esp = value :=
  registers_set_self _ _ _

@[simp] theorem esp_pushWord (machine : Machine) (value : UInt32) :
    (machine.pushWord value).esp = machine.esp - 4 :=
  registers_set_self machine .esp _

theorem toNat_add_of_fits {address offset : UInt32} (fits : address.toNat + offset.toNat < 2 ^ 32) :
    (address + offset).toNat = address.toNat + offset.toNat := by
  rw [UInt32.toNat_add, Nat.mod_eq_of_lt fits]

theorem word_of_holdsWords {address : UInt32} {value : UInt32} {words : List UInt32}
    (holds : HoldsWords machine.memory address.toNat (value :: words)) :
    machine.word address = value := by
  rw [word, holds.1, UInt32.ofNat_toNat]

/-! ## Pushes -/

/-- What pushing some words does: they lie below the old stack pointer, the last
one lowest, and nothing else has changed. -/
structure Pushed (machine next : Machine) (words : List UInt32) : Prop where
  esp : next.esp.toNat + 4 * words.length = machine.esp.toNat
  others : forall register, register ≠ .esp -> next.registers register = machine.registers register
  holds : forall below, HoldsWords machine.memory machine.esp.toNat below ->
    HoldsWords next.memory next.esp.toNat (words ++ below)
  outside : forall target, target < next.esp.toNat ∨ machine.esp.toNat ≤ target ->
    next.memory target = machine.memory target

theorem Pushed.nil (machine : Machine) : Pushed machine machine [] :=
  ⟨rfl, fun _ _ => rfl, fun _ holds => holds, fun _ _ => rfl⟩

theorem Pushed.snoc {next : Machine} {words : List UInt32} (pushed : Pushed machine next words)
    (room : 4 * (words.length + 1) ≤ machine.esp.toNat) (value : UInt32) :
    Pushed machine (next.pushWord value) (value :: words) := by
  have total := pushed.esp
  have enough : 4 ≤ next.esp.toNat := by omega
  have lower : (next.esp - 4).toNat = next.esp.toNat - 4 :=
    UInt32.toNat_sub_of_le _ _ (UInt32.le_iff_toNat_le.mpr enough)
  have memory : (next.pushWord value).memory =
      next.memory.store (next.esp.toNat - 4) 4 value.toNat := by
    rw [← lower]
    rfl
  refine ⟨?_, ?_, ?_, ?_⟩
  · rw [esp_pushWord, lower, List.length_cons]
    omega
  · intro register other
    exact (registers_set_of_ne other _).trans (pushed.others register other)
  · intro below holds
    rw [memory, esp_pushWord, lower]
    exact (pushed.holds below holds).push enough value
  · intro target outside
    rw [esp_pushWord, lower] at outside
    rw [memory, store_outside _ (by omega)]
    exact pushed.outside target (by omega)

/-- A row of register pushes, after some words that were pushed already.  The stack
must have room for all of them. -/
theorem pushed_registers {next : Machine} {words : List UInt32} (registers : List Register)
    (pushed : Pushed machine next words) (other : Register.esp ∉ registers)
    (room : 4 * (words.length + registers.length) ≤ machine.esp.toNat) :
    Pushed machine (next.run (registers.map .push))
        ((registers.map machine.registers).reverse ++ words) ∧
      (next.run (registers.map .push)).eip = next.eip ∧
      (next.run (registers.map .push)).eflags = next.eflags := by
  induction registers generalizing next words with
  | nil => exact ⟨pushed, rfl, rfl⟩
  | cons register registers inductionHypothesis =>
      rw [List.length_cons] at room
      have value : next.registers register = machine.registers register :=
        pushed.others register (fun same => other (same ▸ List.mem_cons_self))
      have step := pushed.snoc (by omega) (next.registers register)
      have rest := inductionHypothesis step (fun member => other (List.mem_cons_of_mem _ member))
        (by rw [List.length_cons]; omega)
      rw [value] at rest
      rw [List.map_cons, run_cons, List.map_cons, List.reverse_cons, List.append_assoc,
        List.singleton_append, execute, value]
      exact rest

/-! ## Pops -/

/-- A row of register pops takes the words from the stack, the first register the
lowest word, and leaves memory alone. -/
theorem popped_registers {machine : Machine} (registers : List Register)
    {words rest : List UInt32} (holds : HoldsWords machine.memory machine.esp.toNat (words ++ rest))
    (length : words.length = registers.length) (distinct : registers.Nodup)
    (other : Register.esp ∉ registers)
    (fits : machine.esp.toNat + 4 * words.length < 2 ^ 32) :
    let next := machine.run (registers.map .pop)
    next.memory = machine.memory ∧ next.eflags = machine.eflags ∧
      next.esp.toNat = machine.esp.toNat + 4 * words.length ∧
      registers.map next.registers = words ∧
      (forall register, register ≠ .esp -> register ∉ registers ->
        next.registers register = machine.registers register) := by
  induction registers generalizing machine words with
  | nil =>
      cases words with
      | nil => exact ⟨rfl, rfl, rfl, rfl, fun _ _ _ => rfl⟩
      | cons _ _ => cases length
  | cons register registers inductionHypothesis =>
      cases words with
      | nil => cases length
      | cons value words =>
          rw [List.nodup_cons] at distinct
          rw [List.length_cons] at fits
          have different : Register.esp ≠ register := fun same => other (same ▸ List.mem_cons_self)
          have popped : (machine.execute (.pop register)).registers register = value := by
            rw [execute, registers_set_self, word_of_holdsWords holds]
          have higher : (machine.execute (.pop register)).esp.toNat = machine.esp.toNat + 4 := by
            rw [esp, execute, registers_set_of_ne different, registers_set_self]
            exact toNat_add_of_fits (by simp only [UInt32.reduceToNat]; omega)
          have below : HoldsWords (machine.execute (.pop register)).memory
              (machine.execute (.pop register)).esp.toNat (words ++ rest) := by
            rw [higher]
            exact holds.2
          have step := inductionHypothesis below (Nat.succ.inj length) distinct.2
            (fun member => other (List.mem_cons_of_mem _ member)) (by rw [higher]; omega)
          rcases step with ⟨memory, eflags, esp, values, kept⟩
          refine ⟨memory, eflags, ?_, ?_, ?_⟩
          · rw [List.length_cons]
            refine esp.trans ?_
            rw [higher]
            omega
          · rw [List.map_cons, List.cons.injEq]
            exact ⟨(kept register (Ne.symm different) distinct.1).trans popped, values⟩
          · intro target notEsp outside
            rw [List.mem_cons, not_or] at outside
            refine (kept target notEsp outside.2).trans ?_
            exact (registers_set_of_ne outside.1 _).trans (registers_set_of_ne notEsp _)

theorem executed_ret {machine : Machine} {back : UInt32} {rest : List UInt32}
    (holds : HoldsWords machine.memory machine.esp.toNat (back :: rest))
    (fits : machine.esp.toNat + 4 < 2 ^ 32) :
    (machine.execute .ret).eip = back ∧
      (machine.execute .ret).esp.toNat = machine.esp.toNat + 4 ∧
      (forall register, register ≠ .esp ->
        (machine.execute .ret).registers register = machine.registers register) := by
  refine ⟨word_of_holdsWords holds, ?_, fun register other => registers_set_of_ne other _⟩
  have updated : (machine.execute .ret).esp = machine.esp + 4 := registers_set_self machine .esp _
  rw [updated]
  exact toNat_add_of_fits fits

end Machine

end Library
end Goatos
