import Goatos.Library.Machine
import Goatos.Task.Scheduler

namespace Goatos
namespace Task

open Library
open Library.ByteMemory
open Library.Machine

/-!
# Switching stacks

The routines of `switch.s` and the machine-level part of `yield_now`: what lies on
the stack of a task while it waits, and what the processor does when the task is
switched to.

A waiting task is found through its context word, which has the address of a
frame.  A task that yielded left a frame with its registers, the way back into
`yield_now` and the way back to its own code; a task that never ran has the frame
that `spawn` built.  `contextSwitch` does not know the difference, since both
begin with four registers and a return address.
-/

/-- Where the linker put the code and the data of the switch, with what its proofs
need to know of these places: the contexts are inside the static and do not overlap,
and the kernel stack is elsewhere. -/
structure SwitchLayout extends Layout where
  /-- The instruction after the call of `context_switch` in `yield_now`. -/
  afterSwitch : UInt32
  /-- The instruction after the call of the entry function in the trampoline. -/
  afterEntry : UInt32
  /-- The stack from `entry.s`, on which task 0 runs. -/
  kernelStack : BoxedSlice
  /-- The place of the static `SCHEDULER`. -/
  statics : BoxedSlice
  landingsDiffer : afterSwitch ≠ taskTrampoline
  contextsInside : forall id, statics.address ≤ (contextAddr id).toNat ∧
    (contextAddr id).toNat + 4 ≤ statics.address + statics.length
  contextsApart : forall id other, id ≠ other ->
    (contextAddr id).toNat + 4 ≤ (contextAddr other).toNat ∨
      (contextAddr other).toNat + 4 ≤ (contextAddr id).toNat
  kernelStackApart : kernelStack.address + kernelStack.length ≤ statics.address ∨
    statics.address + statics.length ≤ kernelStack.address
  kernelStackFits : kernelStack.address + kernelStack.length < 2 ^ 32

/-! ## The code -/

/-- `context_switch` of `switch.s`. -/
def contextSwitch : List Instruction :=
  [.load 4 .esp .eax,
   .load 8 .esp .edx,
   .push .ebp,
   .push .edi,
   .push .esi,
   .push .ebx,
   .store .esp .eax,
   .load 0 .edx .esp,
   .pop .ebx,
   .pop .esi,
   .pop .edi,
   .pop .ebp,
   .ret]

/-- `task_trampoline` of `switch.s`. -/
def taskTrampoline (layout : SwitchLayout) : List Instruction :=
  [.pop .eax,
   .sub 12 .esp,
   .call .eax layout.afterEntry]

/-- The way of `yield_now` into the switch: the flags are read into a local of its
frame, interrupts are masked and `context_switch` is called. -/
def enterSwitch (layout : SwitchLayout) (old new : TaskId) : List Instruction :=
  [.pushFlags,
   .cli,
   .pushImmediate (layout.contextAddr new),
   .pushImmediate (layout.contextAddr old),
   .pushImmediate layout.afterSwitch]

/-- The rest of `yield_now`: the arguments are dropped, the interrupt flag is put
back if it was set, and the call returns. -/
def leaveSwitch : List Instruction :=
  [.add 8 .esp,
   .pop .eax,
   .stiIfSet .eax,
   .ret]

/-- The code that `context_switch` returns into: the rest of `yield_now` for a task
that yielded, and the trampoline for a task that never ran. -/
def landing (layout : SwitchLayout) (eip : UInt32) : List Instruction :=
  if eip = layout.afterSwitch then leaveSwitch
  else if eip = layout.taskTrampoline then taskTrampoline layout
  else []

/-- A call of `yield_now`, from the call instruction to the first instruction of a
task's own code.  `none` is a panic. -/
def yieldNow (layout : SwitchLayout) (returnAddress : UInt32) (machine : Machine)
    (system : System) : Option (Machine × System) :=
  let machine := machine.pushWord returnAddress
  match selectNext system with
  | none => none
  | some (none, system) => some (machine.execute .ret, system)
  | some (some (old, new), system) =>
      let machine := machine.run (enterSwitch layout old new ++ contextSwitch)
      some (machine.run (landing layout machine.eip), system)

/-! ## Frames -/

/-- What a task that yielded has on its stack, from its context upwards. -/
def parkedFrame (layout : SwitchLayout) (machine : Machine) (returnAddress : UInt32)
    (old new : TaskId) : List UInt32 :=
  [machine.registers .ebx, machine.registers .esi, machine.registers .edi,
    machine.registers .ebp, layout.afterSwitch, layout.contextAddr old, layout.contextAddr new,
    machine.eflags, returnAddress]

/-- What a task that never ran has on its stack. -/
def freshFrame (layout : Layout) (entry : UInt32) : List UInt32 :=
  [0, 0, 0, 0, layout.taskTrampoline, entry]

/-- The part of `context_switch` up to the load of the other stack pointer.  It runs
on the stack of the task that yields, and `resumeCode` on that of the other one. -/
def parkCode : List Instruction :=
  [.load 4 .esp .eax, .load 8 .esp .edx] ++ [Register.ebp, .edi, .esi, .ebx].map .push ++
    [.store .esp .eax]

def resumeCode : List Instruction :=
  [.load 0 .edx .esp] ++ [Register.ebx, .esi, .edi, .ebp].map .pop ++ [.ret]

theorem contextSwitch_eq : contextSwitch = parkCode ++ resumeCode := rfl

/-- The machine in the middle of a switch, when nothing runs on either stack.  The
caller has its frame and its context word, and nothing else has been written. -/
structure Parked (layout : SwitchLayout) (returnAddress : UInt32) (old new : TaskId)
    (machine next : Machine) : Prop where
  edx : next.registers .edx = layout.contextAddr new
  eflags : next.eflags = machine.eflags &&& ~~~interruptFlag
  context : next.memory.load (layout.contextAddr old).toNat 4 = machine.esp.toNat - 36
  frame : HoldsWords next.memory (machine.esp.toNat - 36)
    (parkedFrame layout machine returnAddress old new)
  outside : forall target, target < machine.esp.toNat - 36 ∨ machine.esp.toNat ≤ target ->
    target < (layout.contextAddr old).toNat ∨ (layout.contextAddr old).toNat + 4 ≤ target ->
    next.memory target = machine.memory target

section Halves

variable {layout : SwitchLayout} {machine : Machine} {returnAddress : UInt32} {old new : TaskId}

theorem pushed_enterSwitch (layout : SwitchLayout) (returnAddress : UInt32) (old new : TaskId)
    (room : 36 ≤ machine.esp.toNat) :
    let next := (machine.pushWord returnAddress).run (enterSwitch layout old new)
    Pushed machine next [layout.afterSwitch, layout.contextAddr old, layout.contextAddr new,
        machine.eflags, returnAddress] ∧
      next.eflags = machine.eflags &&& ~~~interruptFlag := by
  intro next
  have enough : forall words, 4 * (words + 1) ≤ 36 -> 4 * (words + 1) ≤ machine.esp.toNat :=
    fun _ few => Nat.le_trans few room
  have first := (Pushed.nil machine).snoc (enough 0 (by decide)) returnAddress
  have second := first.snoc (enough 1 (by decide)) machine.eflags
  have masked : Pushed machine (((machine.pushWord returnAddress).pushWord machine.eflags).execute .cli)
      [machine.eflags, returnAddress] :=
    ⟨second.esp, second.others, second.holds, second.outside⟩
  have third := masked.snoc (enough 2 (by decide)) (layout.contextAddr new)
  have fourth := third.snoc (enough 3 (by decide)) (layout.contextAddr old)
  have fifth := fourth.snoc (enough 4 (by decide)) layout.afterSwitch
  exact ⟨fifth, rfl⟩

theorem run_loadArguments {back first second : UInt32} {rest : List UInt32}
    (holds : HoldsWords machine.memory machine.esp.toNat (back :: first :: second :: rest))
    (fits : machine.esp.toNat + 8 < 2 ^ 32) :
    machine.run [.load 4 .esp .eax, .load 8 .esp .edx] =
      (machine.set .eax first).set .edx second := by
  have address : forall offset : UInt32, offset.toNat ≤ 8 ->
      (machine.esp + offset).toNat = machine.esp.toNat + offset.toNat :=
    fun offset small => toNat_add_of_fits (by omega)
  have argument : machine.word (machine.esp + 4) = first := by
    apply word_of_holdsWords
    rw [address 4 (by decide)]
    exact holds.2
  have argument' : (machine.set .eax first).word (machine.esp + 8) = second := by
    apply word_of_holdsWords
    rw [address 8 (by decide)]
    exact holds.2.2
  rw [run_cons, execute, show machine.registers .esp = machine.esp from rfl, argument, run_cons,
    execute, registers_set_of_ne (by decide), show machine.registers .esp = machine.esp from rfl,
    argument']
  rfl

/-- Saving the registers below some words and the stack pointer where `eax`
points. -/
theorem run_saveRegisters (machine : Machine) {words : List UInt32}
    (room : 16 ≤ machine.esp.toNat)
    (holds : HoldsWords machine.memory machine.esp.toNat words)
    (apart : (machine.registers .eax).toNat + 4 ≤ machine.esp.toNat - 16 ∨
      machine.esp.toNat + 4 * words.length ≤ (machine.registers .eax).toNat) :
    let next := machine.run ([Register.ebp, .edi, .esi, .ebx].map .push ++ [.store .esp .eax])
    next.registers .edx = machine.registers .edx ∧ next.eflags = machine.eflags ∧
      next.memory.load (machine.registers .eax).toNat 4 = machine.esp.toNat - 16 ∧
      HoldsWords next.memory (machine.esp.toNat - 16)
        ([machine.registers .ebx, machine.registers .esi, machine.registers .edi,
          machine.registers .ebp] ++ words) ∧
      (forall target, target < machine.esp.toNat - 16 ∨ machine.esp.toNat ≤ target ->
        target < (machine.registers .eax).toNat ∨ (machine.registers .eax).toNat + 4 ≤ target ->
        next.memory target = machine.memory target) := by
  rcases pushed_registers [.ebp, .edi, .esi, .ebx] (Pushed.nil machine) (by decide) room with
    ⟨pushed, _, eflags⟩
  have depth := pushed.esp
  have eax := pushed.others .eax (by decide)
  have edx := pushed.others .edx (by decide)
  have stacked := pushed.holds words holds
  have outside := pushed.outside
  simp only [run_append]
  generalize machine.run ([Register.ebp, .edi, .esi, .ebx].map .push) = saved
    at eflags depth eax edx stacked outside
  have lower : saved.esp.toNat = machine.esp.toNat - 16 := by
    simp only [List.append_nil, List.length_reverse, List.length_map, List.length_cons,
      List.length_nil] at depth
    omega
  have stored : (saved.run [.store .esp .eax]).memory =
      saved.memory.store (machine.registers .eax).toNat 4 (machine.esp.toNat - 16) := by
    rw [← lower, ← eax]
    rfl
  rw [lower] at stacked outside
  refine ⟨edx, eflags, ?_, ?_, ?_⟩
  · rw [stored]
    exact load_store_of_lt _ (by have := machine.esp.toNat_lt; omega)
  · rw [stored]
    apply stacked.congr
    intro target member
    have bounds := mem_extent.mp member
    simp only [List.append_nil, List.length_append, List.length_reverse, List.length_map,
      List.length_cons, List.length_nil] at bounds
    exact (store_outside _ (by omega)).symm
  · intro target notFrame notContext
    rw [stored, store_outside _ notContext]
    exact outside target notFrame

/-- Up to the middle of the switch: the frame is complete and the context word has
its address. -/
theorem parked_of_room (room : 36 ≤ machine.esp.toNat)
    (apart : (layout.contextAddr old).toNat + 4 ≤ machine.esp.toNat - 36 ∨
      machine.esp.toNat ≤ (layout.contextAddr old).toNat) :
    Parked layout returnAddress old new machine
      ((machine.pushWord returnAddress).run (enterSwitch layout old new ++ parkCode)) := by
  rcases pushed_enterSwitch layout returnAddress old new room with ⟨entered, eflags⟩
  rw [parkCode, List.append_assoc, run_append, run_append]
  generalize (machine.pushWord returnAddress).run (enterSwitch layout old new) = called
    at entered eflags
  have depth : called.esp.toNat = machine.esp.toNat - 20 := Nat.eq_sub_of_add_eq entered.esp
  have words := entered.holds [] trivial
  have outside := entered.outside
  rw [depth] at outside
  rw [List.append_nil] at words
  rw [run_loadArguments words (by have := machine.esp.toNat_lt; omega)]
  have sameEsp : ((called.set .eax (layout.contextAddr old)).set .edx
      (layout.contextAddr new)).esp = called.esp := by
    rw [esp, registers_set_of_ne (by decide), registers_set_of_ne (by decide), esp]
  have saved := run_saveRegisters
    ((called.set .eax (layout.contextAddr old)).set .edx (layout.contextAddr new))
    (by rw [sameEsp]; omega) (by rw [sameEsp]; exact words)
    (by
      rw [sameEsp, registers_set_of_ne (by decide), registers_set_self, depth]
      simp only [List.length_cons, List.length_nil]
      omega)
  simp only [registers_set_of_ne, registers_set_self, ne_eq, reduceCtorEq, not_false_iff,
    sameEsp, depth] at saved
  rcases saved with ⟨edx, flags, context, frame, unchanged⟩
  refine ⟨edx, flags.trans eflags, ?_, ?_, ?_⟩
  · rw [context]
    omega
  · rw [entered.others .ebx (by decide), entered.others .esi (by decide),
      entered.others .edi (by decide), entered.others .ebp (by decide), Nat.sub_sub] at frame
    exact frame
  · intro target notFrame notContext
    exact (unchanged target (by omega) notContext).trans (outside target (by omega))

/-- From the middle of the switch: the registers come from the frame that `edx`
leads to, and the return address is the next word there. -/
theorem run_resumeCode {ebx esi edi ebp back : UInt32} {rest : List UInt32} {frame : Nat}
    (context : machine.memory.load (machine.registers .edx).toNat 4 = frame)
    (holds : HoldsWords machine.memory frame (ebx :: esi :: edi :: ebp :: back :: rest))
    (fits : frame + 20 < 2 ^ 32) :
    let next := machine.run resumeCode
    next.memory = machine.memory ∧ next.eflags = machine.eflags ∧ next.eip = back ∧
      next.esp.toNat = frame + 20 ∧
      [Register.ebx, .esi, .edi, .ebp].map next.registers = [ebx, esi, edi, ebp] := by
  have switched : (machine.run [.load 0 .edx .esp]).esp.toNat = frame := by
    have loaded : (machine.run [.load 0 .edx .esp]).esp =
        machine.word (machine.registers .edx + 0) :=
      esp_set_esp _ _
    rw [loaded, UInt32.add_zero, word, context]
    exact Nat.mod_eq_of_lt (by omega)
  have sameMemory : (machine.run [.load 0 .edx .esp]).memory = machine.memory := rfl
  have sameFlags : (machine.run [.load 0 .edx .esp]).eflags = machine.eflags := rfl
  simp only [resumeCode, run_append]
  generalize machine.run [.load 0 .edx .esp] = loaded at switched sameMemory sameFlags
  have words : HoldsWords loaded.memory loaded.esp.toNat ([ebx, esi, edi, ebp] ++ back :: rest) := by
    rw [sameMemory, switched]
    exact holds
  have popped := popped_registers [.ebx, .esi, .edi, .ebp] words rfl (by decide)
    (by decide) (by rw [switched]; simp only [List.length_cons, List.length_nil]; omega)
  simp only at popped
  generalize loaded.run ([Register.ebx, .esi, .edi, .ebp].map .pop) = restored at popped
  rcases popped with ⟨memory, eflags, esp, values, _⟩
  have higher : restored.esp.toNat = frame + 16 := by
    rw [esp, switched]
    rfl
  have top : HoldsWords restored.memory restored.esp.toNat (back :: rest) := by
    rw [memory, sameMemory, higher]
    exact holds.2.2.2.2
  rcases executed_ret top (by omega) with ⟨eip, above, others⟩
  refine ⟨memory.trans sameMemory, eflags.trans sameFlags, eip, above.trans (by rw [higher]), ?_⟩
  rw [← values]
  apply List.map_congr_left
  intro register member
  exact others register (by rintro rfl; revert member; decide)

/-- A task that comes back from the switch returns to the caller of `yield_now`
with its interrupt flag put back. -/
theorem run_leaveSwitch {first second flags back : UInt32} {rest : List UInt32}
    (holds : HoldsWords machine.memory machine.esp.toNat (first :: second :: flags :: back :: rest))
    (fits : machine.esp.toNat + 16 < 2 ^ 32) :
    let next := machine.run leaveSwitch
    next.memory = machine.memory ∧ next.eip = back ∧ next.esp.toNat = machine.esp.toNat + 16 ∧
      next.eflags = (if flags &&& interruptFlag ≠ 0 then machine.eflags ||| interruptFlag
        else machine.eflags) ∧
      (forall register, register ≠ .eax -> register ≠ .esp ->
        next.registers register = machine.registers register) := by
  have higher : (machine.execute (.add 8 .esp)).esp.toNat = machine.esp.toNat + 8 := by
    have added : (machine.execute (.add 8 .esp)).esp = machine.esp + 8 := esp_set_esp _ _
    rw [added]
    exact toNat_add_of_fits (by simp only [UInt32.reduceToNat]; omega)
  have kept : forall register, register ≠ .esp ->
      (machine.execute (.add 8 .esp)).registers register = machine.registers register :=
    fun register other => registers_set_of_ne other _
  have sameMemory : (machine.execute (.add 8 .esp)).memory = machine.memory := rfl
  have sameFlags : (machine.execute (.add 8 .esp)).eflags = machine.eflags := rfl
  rw [leaveSwitch, run_cons]
  generalize machine.execute (.add 8 .esp) = dropped at higher kept sameMemory sameFlags
  have words : HoldsWords dropped.memory dropped.esp.toNat ([flags] ++ back :: rest) := by
    rw [sameMemory, higher]
    exact holds.2.2
  have popped := popped_registers [.eax] words rfl (by decide) (by decide)
    (by rw [higher]; simp only [List.length_cons, List.length_nil]; omega)
  simp only [List.map_cons, List.map_nil, List.cons.injEq, and_true] at popped
  rw [show dropped.run [.pop .eax, .stiIfSet .eax, .ret] =
    ((dropped.run [.pop .eax]).execute (.stiIfSet .eax)).execute .ret from rfl]
  generalize dropped.run [.pop .eax] = restored at popped
  rcases popped with ⟨memory, eflags, esp, eax, others⟩
  have enabled : (restored.execute (.stiIfSet .eax)) =
      { restored with
        eflags := if flags &&& interruptFlag ≠ 0 then machine.eflags ||| interruptFlag
          else machine.eflags } := by
    rw [execute, eax, eflags, sameFlags]
    split
    · rfl
    · rw [← sameFlags, ← eflags]
  rw [enabled]
  have lower : restored.esp.toNat = machine.esp.toNat + 12 := by
    rw [esp, higher]
    rfl
  have top : HoldsWords restored.memory restored.esp.toNat (back :: rest) := by
    rw [memory, sameMemory, lower]
    exact holds.2.2.2
  rcases executed_ret top (by omega) with ⟨eip, above, returned⟩
  refine ⟨memory.trans sameMemory, eip, above.trans (by rw [lower]), rfl, ?_⟩
  intro register notEax notEsp
  refine (returned register notEsp).trans ?_
  rw [others register notEsp (by simpa using notEax), kept register notEsp]

/-- A task that never ran starts at its entry function. -/
theorem run_taskTrampoline (layout : SwitchLayout) {entry : UInt32} {rest : List UInt32}
    (holds : HoldsWords machine.memory machine.esp.toNat (entry :: rest))
    (room : 12 ≤ machine.esp.toNat) (fits : machine.esp.toNat + 4 < 2 ^ 32) :
    let next := machine.run (taskTrampoline layout)
    next.eip = entry ∧ next.esp.toNat = machine.esp.toNat - 12 ∧ next.eflags = machine.eflags ∧
      (forall target, target < machine.esp.toNat - 12 ∨ machine.esp.toNat - 8 ≤ target ->
        next.memory target = machine.memory target) := by
  have words : HoldsWords machine.memory machine.esp.toNat ([entry] ++ rest) := holds
  have popped := popped_registers [.eax] words rfl (by decide) (by decide) fits
  simp only [List.map_cons, List.map_nil, List.cons.injEq, and_true] at popped
  rw [taskTrampoline, show machine.run [.pop .eax, .sub 12 .esp, .call .eax layout.afterEntry] =
    ((machine.run [.pop .eax]).execute (.sub 12 .esp)).execute (.call .eax layout.afterEntry)
    from rfl]
  generalize machine.run [.pop .eax] = called at popped
  rcases popped with ⟨memory, eflags, esp, eax, _⟩
  simp only [List.length_cons, List.length_nil] at esp
  have lowered : (called.execute (.sub 12 .esp)).esp.toNat = machine.esp.toNat - 8 := by
    have subtracted : (called.execute (.sub 12 .esp)).esp = called.esp - 12 := esp_set_esp _ _
    rw [subtracted, UInt32.toNat_sub_of_le _ _ (UInt32.le_iff_toNat_le.mpr ?_), esp]
    · exact (by simp only [UInt32.reduceToNat]; omega)
    · exact (by simp only [UInt32.reduceToNat]; omega)
  have eip : (called.execute (.sub 12 .esp)).registers .eax = entry :=
    (registers_set_of_ne (show Register.eax ≠ .esp by decide) _).trans eax
  have pushed := (Pushed.nil (called.execute (.sub 12 .esp))).snoc
    (by rw [lowered, List.length_nil]; omega) layout.afterEntry
  have depth : ((called.execute (.sub 12 .esp)).pushWord layout.afterEntry).esp.toNat =
      machine.esp.toNat - 12 := by
    have total := pushed.esp
    rw [lowered, List.length_singleton] at total
    omega
  refine ⟨eip, depth, eflags, ?_⟩
  intro target outside
  refine (pushed.outside target ?_).trans (congrFun memory target)
  rw [lowered, depth]
  exact outside

/-- From the middle of the switch to the entry function of a task that never ran: the
stack pointer ends up two words above the frame. -/
theorem run_firstEntry (layout : SwitchLayout) {entry : UInt32} {frame : Nat}
    (context : machine.memory.load (machine.registers .edx).toNat 4 = frame)
    (holds : HoldsWords machine.memory frame (freshFrame layout.toLayout entry))
    (fits : frame + 24 < 2 ^ 32) :
    let next := (machine.run resumeCode).run (landing layout (machine.run resumeCode).eip)
    next.eip = entry ∧ next.esp.toNat = frame + 8 ∧ next.eflags = machine.eflags ∧
      (forall target, target < frame + 8 ∨ frame + 12 ≤ target ->
        next.memory target = machine.memory target) := by
  have resumed := run_resumeCode context holds (by omega)
  simp only at resumed ⊢
  generalize machine.run resumeCode = returned at resumed
  rcases resumed with ⟨memory, eflags, eip, esp, _⟩
  have words : HoldsWords returned.memory returned.esp.toNat [entry] := by
    rw [memory, esp]
    exact holds.2.2.2.2.2
  rw [eip, landing, if_neg (Ne.symm layout.landingsDiffer), if_pos rfl]
  rcases run_taskTrampoline layout words (by omega) (by omega) with
    ⟨started, lower, flags, outside⟩
  refine ⟨started, by rw [lower, esp]; omega, flags.trans eflags, ?_⟩
  intro target notWord
  rw [outside target (by omega), memory]

end Halves

/-- The part of `spawn` that ends at the new stack pointer: six words below the
rounded end of the stack. -/
theorem primeStack_address (layout : Layout) (entry : UInt32) (stack : BoxedSlice)
    (memory : ByteMemory) (fits : stack.address + stack.length < 2 ^ 32) :
    (primeStack layout entry stack memory).1 =
      (stack.address + stack.length) / 16 * 16 - 24 := by
  have rounded : andNot 32 (stack.address + stack.length) 0xf =
      (stack.address + stack.length) / 16 * 16 :=
    andNot_low 4 fits
  rw [primeStack, rounded]
  simp only [List.range, List.range.loop, List.foldl_cons, List.foldl_nil]
  omega

theorem primeStack_fresh (layout : Layout) (entry : UInt32) (stack : BoxedSlice)
    (memory : ByteMemory) (large : 64 ≤ stack.length)
    (fits : stack.address + stack.length < 2 ^ 32) :
    let primed := primeStack layout entry stack memory
    HoldsWords primed.2 primed.1 (freshFrame layout entry) ∧ stack.address ≤ primed.1 ∧
      primed.1 + 24 ≤ stack.address + stack.length ∧
      (forall target, target ∉ extent stack.address stack.length ->
        primed.2 target = memory target) := by
  have aligned : andNot 32 (stack.address + stack.length) 0xf =
      (stack.address + stack.length) / 16 * 16 :=
    andNot_low 4 fits
  have top : Exists fun top => andNot 32 (stack.address + stack.length) 0xf = top ∧
      stack.address + 48 ≤ top ∧ top ≤ stack.address + stack.length :=
    ⟨_, aligned, by omega, by omega⟩
  rcases top with ⟨top, rounded, above, below⟩
  have primed : primeStack layout entry stack memory = (top - 24,
      (((((memory.store (top - 4) 4 entry.toNat).store (top - 8) 4 layout.taskTrampoline.toNat).store
        (top - 12) 4 0).store (top - 16) 4 0).store (top - 20) 4 0).store (top - 24) 4 0) := by
    rw [primeStack, rounded]
    rfl
  rw [primed]
  have empty : HoldsWords memory top [] := trivial
  have entryWord := empty.push (by omega) entry
  have trampolineWord := entryWord.push (by omega) layout.taskTrampoline
  have first := trampolineWord.push (by omega) 0
  have second := first.push (by omega) 0
  have third := second.push (by omega) 0
  have fourth := third.push (by omega) 0
  refine ⟨fourth, by simp only; omega, by simp only; omega, ?_⟩
  intro target outside
  have apart : target < stack.address ∨ stack.address + stack.length ≤ target := by
    rw [mem_extent] at outside
    omega
  simp only
  rw [store_outside _ (by omega), store_outside _ (by omega), store_outside _ (by omega),
    store_outside _ (by omega), store_outside _ (by omega), store_outside _ (by omega)]

end Task
end Goatos
