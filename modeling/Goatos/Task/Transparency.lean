import Goatos.Task.Switch

namespace Goatos
namespace Task

open Library
open Library.ByteMemory
open Library.Machine
open Scheduler

/-!
# Tasks do not notice being switched

A world is the machine together with the scheduler's tables.  The running task
executes its own code, spawns tasks and yields, in any order and any number of
times.  The events of a run are its history: the last spawn of a task or the last
call of `yield_now` that it made says how the task must be found when it is next
switched to.

The invariant is that every task that does not run has a frame of the right kind
in its own stack, reached through its context word.  Both lie where nobody else
writes, so the other tasks' steps cannot disturb them.
-/

structure World where
  machine : Machine
  system : System

/-- A call of `yield_now`: who made it, in which state, and where it returns to. -/
structure Call where
  caller : TaskId
  machine : Machine
  returnAddress : UInt32

/-- A step of the running task.  A yield is recorded with the state in which a task
continues after it. -/
inductive Event where
  | own
  | setInterrupts (enabled : Bool)
  | spawn (entry : UInt32) (answer : Option TaskId)
  | yield (call : Call) (arrival : Machine)

/-- What a task waits with: a first entry, or the return from a call. -/
inductive Waiting where
  | entry (entry : UInt32)
  | call (call : Call) (arrival : Machine)

/-- The last thing known of every task after one more event. -/
def Event.record (waiting : TaskId -> Option Waiting) : Event -> TaskId -> Option Waiting
  | .own => waiting
  | .setInterrupts _ => waiting
  | .spawn _ none => waiting
  | .spawn entry (some id) => Function.update waiting id (some (.entry entry))
  | .yield call arrival => Function.update waiting call.caller (some (.call call arrival))

/-- The last thing known of every task after a history: how it was spawned, or the
call of `yield_now` that it has not returned from. -/
def waitingAfter (events : List Event) : TaskId -> Option Waiting :=
  events.foldl Event.record (fun _ => none)

def BoxedSlice.bytes (slice : BoxedSlice) : Set Nat :=
  extent slice.address slice.length

/-- The stack of a task. -/
def stackOf (layout : SwitchLayout) (system : System) (id : TaskId) : BoxedSlice :=
  match system.scheduler.tasks.get id with
  | some ⟨some stack⟩ => stack
  | _ => layout.kernelStack

/-- The world in which `init` returns. -/
def World.start (layout : SwitchLayout) (machine : Machine) : World where
  machine := { machine with memory := (init layout.toLayout System.boot machine.memory).2 }
  system := (init layout.toLayout System.boot machine.memory).1

/-- The stack pointer of the running task is in its stack, with room below it for
the frames of a yield. -/
structure HasRoom (layout : SwitchLayout) (world : World) : Prop where
  room : (stackOf layout world.system world.system.scheduler.current).address + 36 ≤
    world.machine.esp.toNat
  inside : world.machine.esp.toNat ≤
    (stackOf layout world.system world.system.scheduler.current).address +
      (stackOf layout world.system world.system.scheduler.current).length

/-- The steps of the running task.  Its own code may change registers, its own
stack and everything outside the stacks and the scheduler.  The stack that a spawn
gets from the heap overlaps no other one.  A yield needs room for its frames. -/
inductive WorldStep (layout : SwitchLayout) : World -> Event -> World -> Prop
  | own {world : World} (machine : Machine)
      (otherStacks : forall id, world.system.scheduler.Occupied id ->
        id ≠ world.system.scheduler.current ->
          Set.EqOn machine.memory world.machine.memory (stackOf layout world.system id).bytes)
      (statics : Set.EqOn machine.memory world.machine.memory layout.statics.bytes)
      (flag : machine.eflags &&& interruptFlag = world.machine.eflags &&& interruptFlag) :
      WorldStep layout world .own { world with machine := machine }
  | setInterrupts {world : World} (enabled : Bool) :
      WorldStep layout world (.setInterrupts enabled)
        { world with machine := { world.machine with
            eflags := if enabled then world.machine.eflags ||| interruptFlag
              else world.machine.eflags &&& ~~~interruptFlag } }
  | spawn {world : World} {answer : Option TaskId} {system : System} {memory : ByteMemory}
      (entry : UInt32) (address : Nat) (fits : address + stackSize < 2 ^ 32)
      (otherStacks : forall id, world.system.scheduler.Occupied id ->
        Disjoint (extent address stackSize) (stackOf layout world.system id).bytes)
      (statics : Disjoint (extent address stackSize) layout.statics.bytes)
      (spawned : spawn layout.toLayout entry address world.system world.machine.memory =
        (answer, system, memory)) :
      WorldStep layout world (.spawn entry answer)
        ⟨{ world.machine with memory := memory }, system⟩
  | yield {world : World} {machine : Machine} {system : System} (returnAddress : UInt32)
      (hasRoom : HasRoom layout world)
      (yielded : yieldNow layout returnAddress world.machine world.system = some (machine, system)) :
      WorldStep layout world
        (.yield ⟨world.system.scheduler.current, world.machine, returnAddress⟩ machine)
        ⟨machine, system⟩

/-- A task continues as its history demands: at its entry function and on its own
stack, or where it called `yield_now`, with the registers of that call, with the
part of the stack that was in use at that call as it was then, and with everything
from its parked stack pointer upwards as it was when it was parked. -/
def Continues (layout : SwitchLayout) (id : TaskId) (stack : BoxedSlice) (machine : Machine) :
    Waiting -> Prop
  | .entry entry => machine.eip = entry ∧ machine.esp.toNat ∈ stack.bytes
  | .call call arrival =>
      machine.eip = call.returnAddress ∧
      (forall register, register ∈ [Register.ebx, .esi, .edi, .ebp, .esp] ->
        machine.registers register = call.machine.registers register) ∧
      Set.EqOn machine.memory call.machine.memory
        (Set.Ico call.machine.esp.toNat (stack.address + stack.length)) ∧
      Set.EqOn machine.memory arrival.memory
        (Set.Ico (arrival.memory.load (layout.contextAddr id).toNat 4)
          (stack.address + stack.length))

/-! ## Frames in other tasks' stacks -/

/-- A task that made a call of `yield_now` and has not been switched to since.  Its
frame is below the stack pointer of the call, and above it nothing has changed. -/
structure ParkedCall (layout : SwitchLayout) (id : TaskId) (stack : BoxedSlice)
    (memory : ByteMemory) (call : Call) (arrival : Machine) : Prop where
  room : stack.address + 36 ≤ call.machine.esp.toNat
  inside : call.machine.esp.toNat ≤ stack.address + stack.length
  context : memory.load (layout.contextAddr id).toNat 4 = call.machine.esp.toNat - 36
  arrived : arrival.memory.load (layout.contextAddr id).toNat 4 = call.machine.esp.toNat - 36
  frame : Exists fun new => HoldsWords memory (call.machine.esp.toNat - 36)
    (parkedFrame layout call.machine call.returnAddress id new)
  atCall : Set.EqOn memory call.machine.memory
    (Set.Ico call.machine.esp.toNat (stack.address + stack.length))
  atArrival : Set.EqOn memory arrival.memory
    (Set.Ico (call.machine.esp.toNat - 36) (stack.address + stack.length))

/-- How a task that does not run is found in memory. -/
def Waits (layout : SwitchLayout) (id : TaskId) (stack : BoxedSlice) (memory : ByteMemory) :
    Waiting -> Prop
  | .entry entry => Exists fun frame =>
      memory.load (layout.contextAddr id).toNat 4 = frame ∧
      HoldsWords memory frame (freshFrame layout.toLayout entry) ∧
      stack.address ≤ frame ∧ frame + 24 ≤ stack.address + stack.length
  | .call call arrival => ParkedCall layout id stack memory call arrival

/-- The invariant: stacks do not overlap each other or the static, and every task
but the running one waits in memory with what its history says. -/
structure Sound (layout : SwitchLayout) (waiting : TaskId -> Option Waiting) (world : World) :
    Prop where
  scheduler : world.system.scheduler.Consistent
  apart : forall id other, world.system.scheduler.Occupied id ->
    world.system.scheduler.Occupied other -> id ≠ other ->
      Disjoint (stackOf layout world.system id).bytes (stackOf layout world.system other).bytes
  statics : forall id, Disjoint (stackOf layout world.system id).bytes layout.statics.bytes
  fits : forall id, (stackOf layout world.system id).address +
    (stackOf layout world.system id).length < 2 ^ 32
  waiting : forall id, world.system.scheduler.Occupied id ->
    id ≠ world.system.scheduler.current -> Exists fun reason => waiting id = some reason ∧
      Waits layout id (stackOf layout world.system id) world.machine.memory reason

theorem Waits.congr {layout : SwitchLayout} {id : TaskId} {stack : BoxedSlice}
    {memory memory' : ByteMemory} {reason : Waiting} (waits : Waits layout id stack memory reason)
    (sameStack : Set.EqOn memory memory' stack.bytes)
    (sameContext : Set.EqOn memory memory' (extent (layout.contextAddr id).toNat 4)) :
    Waits layout id stack memory' reason := by
  have context := load_congr sameContext
  have upward : forall low, stack.address ≤ low -> Set.EqOn memory memory'
      (Set.Ico low (stack.address + stack.length)) := by
    intro low above target member
    exact sameStack (mem_extent.mpr ⟨Nat.le_trans above member.1, member.2⟩)
  have words : forall low words, stack.address ≤ low ->
      low + 4 * words.length ≤ stack.address + stack.length ->
      HoldsWords memory low words -> HoldsWords memory' low words := by
    intro low words above below holds
    apply holds.congr
    intro target member
    have bounds := mem_extent.mp member
    exact sameStack (mem_extent.mpr ⟨Nat.le_trans above bounds.1, by omega⟩)
  cases reason with
  | entry entry =>
      rcases waits with ⟨frame, found, holds, above, below⟩
      exact ⟨frame, context.symm.trans found, words _ _ above below holds, above, below⟩
  | call call arrival =>
      have room := waits.room
      have inside := waits.inside
      rcases waits.frame with ⟨new, holds⟩
      have lower : stack.address ≤ call.machine.esp.toNat - 36 := by omega
      refine ⟨room, inside, context.symm.trans waits.context, waits.arrived,
        ⟨new, words _ _ lower ?_ holds⟩, ?_, ?_⟩
      · simp only [parkedFrame, List.length_cons, List.length_nil]
        omega
      · exact (upward _ (by omega)).symm.trans waits.atCall
      · exact (upward _ lower).symm.trans waits.atArrival

/-! ## One switch -/

/-- Whether a task will continue with interrupts enabled. -/
def Waiting.InterruptsEnabled : Waiting -> Prop
  | .entry _ => False
  | .call made _ => made.machine.InterruptsEnabled

/-- What a switch from the running task to another one leads to: the other task
continues, and the memory of all tasks that take no part is as it was. -/
structure Switched (layout : SwitchLayout) (world : World) (returnAddress : UInt32)
    (front : TaskId) (reason : Waiting) (machine : Machine) : Prop where
  continues : Continues layout front (stackOf layout world.system front) machine reason
  interrupts : machine.InterruptsEnabled ↔ reason.InterruptsEnabled
  context : machine.memory.load (layout.contextAddr world.system.scheduler.current).toNat 4 =
    world.machine.esp.toNat - 36
  frame : HoldsWords machine.memory (world.machine.esp.toNat - 36)
    (parkedFrame layout world.machine returnAddress world.system.scheduler.current front)
  outside : forall target,
    target < world.machine.esp.toNat - 36 ∨ world.machine.esp.toNat ≤ target ->
    target ∉ extent (layout.contextAddr world.system.scheduler.current).toNat 4 ->
    target ∉ (stackOf layout world.system front).bytes ->
      machine.memory target = world.machine.memory target

section Switch

variable {layout : SwitchLayout} {world : World} {waiting : TaskId -> Option Waiting}

theorem context_subset (layout : SwitchLayout) (id : TaskId) :
    extent (layout.contextAddr id).toNat 4 ⊆ layout.statics.bytes := by
  intro target member
  have bounds := mem_extent.mp member
  have inside := layout.contextsInside id
  exact mem_extent.mpr ⟨by omega, by omega⟩

theorem contexts_disjoint (layout : SwitchLayout) {id other : TaskId} (different : id ≠ other) :
    Disjoint (extent (layout.contextAddr id).toNat 4)
      (extent (layout.contextAddr other).toNat 4) :=
  disjoint_extent (layout.contextsApart id other different)

theorem Sound.context_apart (sound : Sound layout waiting world) (id other : TaskId) :
    Disjoint (extent (layout.contextAddr id).toNat 4) (stackOf layout world.system other).bytes :=
  ((sound.statics other).mono_right (context_subset layout id)).symm

theorem HasRoom.own (hasRoom : HasRoom layout world) {target : Nat}
    (inFrame : world.machine.esp.toNat - 36 ≤ target ∧ target < world.machine.esp.toNat) :
    target ∈ (stackOf layout world.system world.system.scheduler.current).bytes := by
  have room := hasRoom.room
  have inside := hasRoom.inside
  exact mem_extent.mpr ⟨by omega, by omega⟩

/-- Writes to the frames of a yield and to the caller's context leave the other
tasks' stacks and contexts alone. -/
theorem Sound.other_unchanged (sound : Sound layout waiting world)
    (hasRoom : HasRoom layout world) {id : TaskId}
    (occupied : world.system.scheduler.Occupied id)
    (other : id ≠ world.system.scheduler.current) {target : Nat}
    (member : target ∈ (stackOf layout world.system id).bytes ∪
      extent (layout.contextAddr id).toNat 4) :
    (target < world.machine.esp.toNat - 36 ∨ world.machine.esp.toNat ≤ target) ∧
      target ∉ extent (layout.contextAddr world.system.scheduler.current).toNat 4 := by
  have apart := sound.apart id _ occupied sound.scheduler.running other
  constructor
  · apply Classical.byContradiction
    intro inFrame
    have own : target ∈ (stackOf layout world.system world.system.scheduler.current).bytes :=
      hasRoom.own (by omega)
    rcases member with inStack | inContext
    · exact Set.disjoint_left.mp apart inStack own
    · exact Set.disjoint_left.mp (sound.context_apart id _) inContext own
  · intro inOwnContext
    rcases member with inStack | inContext
    · exact Set.disjoint_left.mp (sound.context_apart _ id) inOwnContext inStack
    · exact Set.disjoint_left.mp (contexts_disjoint layout other) inContext inOwnContext

/-- Halfway through a switch, the stack and the context of the other task are as they
were. -/
theorem Parked.unchanged (sound : Sound layout waiting world) (hasRoom : HasRoom layout world)
    {front : TaskId} (occupied : world.system.scheduler.Occupied front)
    (other : front ≠ world.system.scheduler.current) {returnAddress : UInt32} {next : Machine}
    (parked : Parked layout returnAddress world.system.scheduler.current front world.machine next)
    {target : Nat} (member : target ∈ (stackOf layout world.system front).bytes ∪
      extent (layout.contextAddr front).toNat 4) :
    world.machine.memory target = next.memory target := by
  rcases sound.other_unchanged hasRoom occupied other member with ⟨notFrame, notContext⟩
  rw [mem_extent] at notContext
  exact (parked.outside target notFrame (by omega)).symm

theorem Waits.parked (sound : Sound layout waiting world) (hasRoom : HasRoom layout world)
    {front : TaskId} (occupied : world.system.scheduler.Occupied front)
    (other : front ≠ world.system.scheduler.current) {reason : Waiting}
    (waits : Waits layout front (stackOf layout world.system front) world.machine.memory reason)
    {returnAddress : UInt32} {next : Machine}
    (parked : Parked layout returnAddress world.system.scheduler.current front world.machine next) :
    Waits layout front (stackOf layout world.system front) next.memory reason :=
  waits.congr (fun _ member => parked.unchanged sound hasRoom occupied other (Or.inl member))
    (fun _ member => parked.unchanged sound hasRoom occupied other (Or.inr member))

/-- After the frames are exchanged, only the stack of the task that continues is
written to. -/
theorem Parked.switched (sound : Sound layout waiting world) (hasRoom : HasRoom layout world)
    {front : TaskId} (occupied : world.system.scheduler.Occupied front)
    (other : front ≠ world.system.scheduler.current) {returnAddress : UInt32}
    {middle machine : Machine} {reason : Waiting}
    (parked : Parked layout returnAddress world.system.scheduler.current front world.machine middle)
    (settled : forall target, target ∉ (stackOf layout world.system front).bytes ->
      machine.memory target = middle.memory target)
    (continues : Continues layout front (stackOf layout world.system front) machine reason)
    (interrupts : machine.InterruptsEnabled ↔ reason.InterruptsEnabled) :
    Switched layout world returnAddress front reason machine := by
  have apart := sound.apart _ front sound.scheduler.running occupied (Ne.symm other)
  refine ⟨continues, interrupts, ?_, ?_, ?_⟩
  · rw [← parked.context]
    apply load_congr
    intro target member
    exact settled target (Set.disjoint_left.mp (sound.context_apart _ front) member)
  · apply parked.frame.congr
    intro target member
    have bounds := mem_extent.mp member
    simp only [parkedFrame, List.length_cons, List.length_nil] at bounds
    have room := hasRoom.room
    exact (settled target (Set.disjoint_left.mp apart (hasRoom.own (by omega)))).symm
  · intro target notFrame notContext notFront
    rw [mem_extent] at notContext
    rw [settled target notFront]
    exact parked.outside target notFrame (by omega)

/-- A switch to a task that never ran. -/
theorem switched_entry (sound : Sound layout waiting world) (hasRoom : HasRoom layout world)
    {front : TaskId} (occupied : world.system.scheduler.Occupied front)
    (other : front ≠ world.system.scheduler.current) {returnAddress : UInt32} {middle : Machine}
    (parked : Parked layout returnAddress world.system.scheduler.current front world.machine middle)
    {entry : UInt32}
    (waits : Waits layout front (stackOf layout world.system front) middle.memory (.entry entry)) :
    Switched layout world returnAddress front (.entry entry)
      ((middle.run resumeCode).run (landing layout (middle.run resumeCode).eip)) := by
  rcases waits with ⟨frame, found, holds, above, below⟩
  have fits := sound.fits front
  rw [← parked.edx] at found
  rcases run_firstEntry layout found holds (by omega) with ⟨started, esp, flags, outside⟩
  apply parked.switched sound hasRoom occupied other
  · intro target notFront
    rw [BoxedSlice.bytes, mem_extent] at notFront
    exact outside target (by omega)
  · exact ⟨started, mem_extent.mpr ⟨by omega, by omega⟩⟩
  · apply iff_of_false (not_interruptsEnabled_of_masked (flags.trans parked.eflags))
    exact id

/-- A switch back to a task that yielded. -/
theorem switched_call (sound : Sound layout waiting world) (hasRoom : HasRoom layout world)
    {front : TaskId} (occupied : world.system.scheduler.Occupied front)
    (other : front ≠ world.system.scheduler.current) {returnAddress : UInt32} {middle : Machine}
    (parked : Parked layout returnAddress world.system.scheduler.current front world.machine middle)
    {call : Call} {arrival : Machine}
    (waits : Waits layout front (stackOf layout world.system front) middle.memory
      (.call call arrival)) :
    Switched layout world returnAddress front (.call call arrival)
      ((middle.run resumeCode).run (landing layout (middle.run resumeCode).eip)) := by
  have fits := sound.fits front
  have room := waits.room
  have inside := waits.inside
  have found := waits.context
  rcases waits.frame with ⟨new, holds⟩
  rw [← parked.edx] at found
  have resumed := run_resumeCode found holds (by omega)
  simp only at resumed
  generalize middle.run resumeCode = returned at resumed
  rcases resumed with ⟨memory, eflags, eip, esp, values⟩
  have words : HoldsWords returned.memory returned.esp.toNat
      [layout.contextAddr front, layout.contextAddr new, call.machine.eflags, call.returnAddress] := by
    rw [memory, esp]
    exact holds.2.2.2.2.2
  have left := run_leaveSwitch words (by omega)
  simp only at left
  rw [eip, landing, if_pos rfl]
  generalize returned.run leaveSwitch = machine at left
  rcases left with ⟨sameMemory, back, higher, flags, others⟩
  rw [memory] at sameMemory
  apply parked.switched sound hasRoom occupied other
  · intro target _
    rw [sameMemory]
  · refine ⟨back, ?_, ?_, ?_⟩
    · have saved := List.map_inj_left.mp (values.trans
        (show _ = [Register.ebx, .esi, .edi, .ebp].map call.machine.registers from rfl))
      have sameEsp : machine.esp = call.machine.esp := UInt32.toNat_inj.mp (by omega)
      simp only [List.mem_cons, List.not_mem_nil, or_false, forall_eq_or_imp, forall_eq] at saved ⊢
      rw [others .ebx (by decide) (by decide), others .esi (by decide) (by decide),
        others .edi (by decide) (by decide), others .ebp (by decide) (by decide)]
      exact ⟨saved.1, saved.2.1, saved.2.2.1, saved.2.2.2, sameEsp⟩
    · rw [sameMemory]
      exact waits.atCall
    · rw [sameMemory, waits.arrived]
      exact waits.atArrival
  · rw [Waiting.InterruptsEnabled]
    by_cases enabled : call.machine.eflags &&& interruptFlag ≠ 0
    · rw [if_pos enabled] at flags
      exact iff_of_true (interruptsEnabled_of_set flags) enabled
    · rw [if_neg enabled] at flags
      exact iff_of_false
        (not_interruptsEnabled_of_masked ((flags.trans eflags).trans parked.eflags)) enabled

/-- A call and its immediate return change nothing but a word below the stack
pointer. -/
theorem returned_at_once (machine : Machine) (returnAddress : UInt32) (room : 36 ≤ machine.esp.toNat) :
    let next := (machine.pushWord returnAddress).execute .ret
    next.eip = returnAddress ∧ next.eflags = machine.eflags ∧
      next.registers = machine.registers ∧
      (forall target, target < machine.esp.toNat - 36 ∨ machine.esp.toNat ≤ target ->
        next.memory target = machine.memory target) := by
  have pushed := (Pushed.nil machine).snoc (by rw [List.length_nil]; omega) returnAddress
  have depth := pushed.esp
  rw [List.length_singleton] at depth
  have small := machine.esp.toNat_lt
  rcases executed_ret (pushed.holds [] trivial) (by omega) with ⟨eip, above, others⟩
  refine ⟨eip, rfl, ?_, ?_⟩
  · funext register
    by_cases isEsp : register = .esp
    · subst isEsp
      exact UInt32.toNat_inj.mp (above.trans depth)
    · rw [others register isEsp, pushed.others register isEsp]
  · intro target outside
    exact pushed.outside target (by omega)

theorem Sound.context_outside (sound : Sound layout waiting world)
    (hasRoom : HasRoom layout world) :
    (layout.contextAddr world.system.scheduler.current).toNat + 4 ≤
        world.machine.esp.toNat - 36 ∨
      world.machine.esp.toNat ≤ (layout.contextAddr world.system.scheduler.current).toNat := by
  apply Classical.byContradiction
  intro overlap
  have room := hasRoom.room
  rw [not_or, Nat.not_le, Nat.not_le] at overlap
  have apart := Set.disjoint_left.mp (sound.context_apart world.system.scheduler.current
    world.system.scheduler.current)
  by_cases first : world.machine.esp.toNat - 36 ≤
      (layout.contextAddr world.system.scheduler.current).toNat
  · exact apart (mem_extent.mpr ⟨Nat.le_refl _, by omega⟩) (hasRoom.own ⟨first, overlap.2⟩)
  · exact apart (mem_extent.mpr ⟨by omega, overlap.1⟩)
      (hasRoom.own ⟨Nat.le_refl _, by omega⟩)

theorem yieldNow_eq (layout : SwitchLayout) (returnAddress : UInt32) (machine : Machine)
    {system after : System} {old new : TaskId}
    (selected : selectNext system = some (some (old, new), after)) :
    let middle := (machine.pushWord returnAddress).run (enterSwitch layout old new ++ parkCode)
    yieldNow layout returnAddress machine system =
      some ((middle.run resumeCode).run (landing layout (middle.run resumeCode).eip), after) := by
  have code : enterSwitch layout old new ++ contextSwitch =
      (enterSwitch layout old new ++ parkCode) ++ resumeCode := by
    rw [contextSwitch_eq, List.append_assoc]
  rw [yieldNow, selected]
  simp only [code, run_append _ _ resumeCode]

theorem Sound.parked (sound : Sound layout waiting world) (hasRoom : HasRoom layout world)
    (returnAddress : UInt32) {front : TaskId} (occupied : world.system.scheduler.Occupied front)
    (other : front ≠ world.system.scheduler.current) {reason : Waiting}
    (waits : Waits layout front (stackOf layout world.system front) world.machine.memory reason) :
    let middle := (world.machine.pushWord returnAddress).run
      (enterSwitch layout world.system.scheduler.current front ++ parkCode)
    Parked layout returnAddress world.system.scheduler.current front world.machine middle ∧
      Waits layout front (stackOf layout world.system front) middle.memory reason := by
  have room := hasRoom.room
  have parked : Parked layout returnAddress world.system.scheduler.current front world.machine _ :=
    parked_of_room (by omega) (sound.context_outside hasRoom)
  exact ⟨parked, waits.parked sound hasRoom occupied other parked⟩

theorem yieldNow_switched (sound : Sound layout waiting world) (hasRoom : HasRoom layout world)
    (returnAddress : UInt32) {front : TaskId} (occupied : world.system.scheduler.Occupied front)
    (other : front ≠ world.system.scheduler.current) {reason : Waiting}
    (waits : Waits layout front (stackOf layout world.system front) world.machine.memory reason)
    {system : System}
    (selected : selectNext world.system =
      some (some (world.system.scheduler.current, front), system)) :
    Exists fun machine =>
      yieldNow layout returnAddress world.machine world.system = some (machine, system) ∧
      Switched layout world returnAddress front reason machine := by
  rcases sound.parked hasRoom returnAddress occupied other waits with ⟨parked, there⟩
  refine ⟨_, yieldNow_eq layout returnAddress world.machine selected, ?_⟩
  cases reason with
  | entry entry => exact switched_entry sound hasRoom occupied other parked there
  | call call arrival => exact switched_call sound hasRoom occupied other parked there

/-- A yield returns at once for the only task, and otherwise switches to the task
in front of the queue. -/
theorem yieldNow_cases (sound : Sound layout waiting world) (hasRoom : HasRoom layout world)
    (returnAddress : UInt32) :
    (world.system.scheduler.readyQueue = [] ∧ Exists fun scheduler =>
      scheduler.tasks = world.system.scheduler.tasks ∧
      scheduler.current = world.system.scheduler.current ∧
      scheduler.Consistent ∧
      yieldNow layout returnAddress world.machine world.system =
        some ((world.machine.pushWord returnAddress).execute .ret,
          { world.system with scheduler := scheduler })) ∨
    (world.system.scheduler.readyQueue ≠ [] ∧ Exists fun front => Exists fun reason =>
      Exists fun machine => Exists fun system : System =>
        world.system.scheduler.Occupied front ∧ front ≠ world.system.scheduler.current ∧
        waiting front = some reason ∧
        system.scheduler.tasks = world.system.scheduler.tasks ∧
        system.scheduler.current = front ∧ system.scheduler.Consistent ∧
        yieldNow layout returnAddress world.machine world.system = some (machine, system) ∧
        Switched layout world returnAddress front reason machine) := by
  rcases selectNext_cases sound.scheduler with ⟨empty, scheduler, selected, _, tasks, current⟩ |
    ⟨front, rest, queue, scheduler, selected, _, tasks, current⟩
  · refine Or.inl ⟨empty, scheduler, tasks, current, sound.scheduler.selectNext selected, ?_⟩
    rw [yieldNow, selected]
  · have ready := (sound.scheduler.ready front).mp (by rw [queue]; exact List.mem_cons_self)
    rcases sound.waiting front ready.1 ready.2 with ⟨reason, known, waits⟩
    rcases yieldNow_switched sound hasRoom returnAddress ready.1 ready.2 waits selected with
      ⟨machine, yielded, switched⟩
    exact Or.inr ⟨by rw [queue]; exact List.cons_ne_nil _ _, front, reason, machine, _, ready.1,
      ready.2, known, tasks, current, sound.scheduler.selectNext selected, yielded, switched⟩

end Switch

/-! ## Runs -/

section Runs

variable {layout : SwitchLayout} {world next : World} {waiting : TaskId -> Option Waiting}

theorem stackOf_congr {system system' : System}
    (tasks : system'.scheduler.tasks = system.scheduler.tasks) :
    stackOf layout system' = stackOf layout system := by
  funext id
  rw [stackOf, stackOf, tasks]

theorem occupied_congr {scheduler scheduler' : Scheduler}
    (tasks : scheduler'.tasks = scheduler.tasks) : scheduler'.Occupied = scheduler.Occupied := by
  funext id
  rw [Scheduler.Occupied, Scheduler.Occupied, tasks]

theorem Sound.of_unchanged (sound : Sound layout waiting world) {machine : Machine}
    (sameStacks : forall id, world.system.scheduler.Occupied id ->
      id ≠ world.system.scheduler.current ->
        Set.EqOn world.machine.memory machine.memory (stackOf layout world.system id).bytes)
    (sameContexts : forall id, world.system.scheduler.Occupied id ->
      Set.EqOn world.machine.memory machine.memory (extent (layout.contextAddr id).toNat 4)) :
    Sound layout waiting { world with machine := machine } := by
  refine ⟨sound.scheduler, sound.apart, sound.statics, sound.fits, ?_⟩
  intro id occupied other
  rcases sound.waiting id occupied other with ⟨reason, known, waits⟩
  exact ⟨reason, known, waits.congr (sameStacks id occupied other) (sameContexts id occupied)⟩

theorem Sound.alone (sound : Sound layout waiting world)
    (empty : world.system.scheduler.readyQueue = []) {scheduler : Scheduler}
    (tasks : scheduler.tasks = world.system.scheduler.tasks)
    (current : scheduler.current = world.system.scheduler.current)
    (consistent : scheduler.Consistent) (machine : Machine)
    (waiting' : TaskId -> Option Waiting) :
    Sound layout waiting' ⟨machine, { world.system with scheduler := scheduler }⟩ := by
  have same : stackOf layout { world.system with scheduler := scheduler } =
      stackOf layout world.system := stackOf_congr tasks
  refine ⟨consistent, ?_, ?_, ?_, ?_⟩
  · rw [same, occupied_congr tasks]
    exact sound.apart
  · rw [same]
    exact sound.statics
  · rw [same]
    exact sound.fits
  · intro id occupied other
    rw [occupied_congr tasks] at occupied
    rw [current] at other
    have ready := (sound.scheduler.ready id).mpr ⟨occupied, other⟩
    rw [empty] at ready
    cases ready

theorem Switched.unchanged (sound : Sound layout waiting world) (hasRoom : HasRoom layout world)
    {returnAddress : UInt32} {front : TaskId} {reason : Waiting} {machine : Machine}
    (switched : Switched layout world returnAddress front reason machine)
    (occupied : world.system.scheduler.Occupied front) {id : TaskId}
    (occupiedId : world.system.scheduler.Occupied id)
    (notCaller : id ≠ world.system.scheduler.current) (notFront : id ≠ front) {target : Nat}
    (member : target ∈ (stackOf layout world.system id).bytes ∪
      extent (layout.contextAddr id).toNat 4) :
    world.machine.memory target = machine.memory target := by
  have apart := sound.apart id front occupiedId occupied notFront
  rcases sound.other_unchanged hasRoom occupiedId notCaller member with ⟨notFrame, notContext⟩
  refine (switched.outside target notFrame notContext ?_).symm
  rcases member with inStack | inContext
  · exact Set.disjoint_left.mp apart inStack
  · exact Set.disjoint_left.mp (sound.context_apart id front) inContext

/-- The invariant through a switch: the caller is now one of those that wait, with
the frame that the switch has built, and the task that continues is not any more. -/
theorem Sound.switched (sound : Sound layout waiting world) (hasRoom : HasRoom layout world)
    {returnAddress : UInt32} {front : TaskId} {reason : Waiting} {machine : Machine}
    {system : System} (occupied : world.system.scheduler.Occupied front)
    (tasks : system.scheduler.tasks = world.system.scheduler.tasks)
    (current : system.scheduler.current = front) (consistent : system.scheduler.Consistent)
    (switched : Switched layout world returnAddress front reason machine) :
    Sound layout
      (Event.record waiting
        (.yield ⟨world.system.scheduler.current, world.machine, returnAddress⟩ machine))
      ⟨machine, system⟩ := by
  have same : stackOf layout system = stackOf layout world.system := stackOf_congr tasks
  refine ⟨consistent, ?_, ?_, ?_, ?_⟩
  · rw [same, occupied_congr tasks]
    exact sound.apart
  · rw [same]
    exact sound.statics
  · rw [same]
    exact sound.fits
  · intro id occupiedId notFront
    rw [occupied_congr tasks] at occupiedId
    rw [current] at notFront
    rw [same]
    have apart := sound.apart id front occupiedId occupied notFront
    by_cases caller : id = world.system.scheduler.current
    · subst caller
      refine ⟨_, Function.update_self _ _ _, hasRoom.room, hasRoom.inside, switched.context,
        switched.context, ⟨front, switched.frame⟩, ?_, fun _ _ => rfl⟩
      intro target member
      have room := hasRoom.room
      have above : world.machine.esp.toNat ≤ target := member.1
      have own : target ∈ (stackOf layout world.system world.system.scheduler.current).bytes :=
        mem_extent.mpr ⟨by omega, member.2⟩
      exact switched.outside target (Or.inr above)
        (Set.disjoint_right.mp (sound.context_apart _ _) own) (Set.disjoint_left.mp apart own)
    · rcases sound.waiting id occupiedId caller with ⟨reason, known, waits⟩
      refine ⟨reason, (Function.update_of_ne caller _ _).trans known, ?_⟩
      exact waits.congr
        (fun _ member => switched.unchanged sound hasRoom occupied occupiedId caller notFront
          (Or.inl member))
        (fun _ member => switched.unchanged sound hasRoom occupied occupiedId caller notFront
          (Or.inr member))

theorem stackOf_addTask_self (layout : SwitchLayout) (system : System) (id : TaskId)
    (stack : BoxedSlice) : stackOf layout (system.addTask id stack) id = stack := by
  have slot : (system.addTask id stack).scheduler.tasks.get id = some ⟨some stack⟩ :=
    Vector.getElem_set_self _
  rw [stackOf, slot]

theorem stackOf_addTask_of_ne (layout : SwitchLayout) (system : System) {id other : TaskId}
    (different : other ≠ id) (stack : BoxedSlice) :
    stackOf layout (system.addTask id stack) other = stackOf layout system other := by
  have slot : (system.addTask id stack).scheduler.tasks.get other =
      system.scheduler.tasks.get other :=
    Vector.getElem_set_ne id.isLt other.isLt (fun equal => different (Fin.ext equal.symm))
  rw [stackOf, slot, stackOf]

theorem forall_stackOf_addTask (layout : SwitchLayout) (system : System) (id : TaskId)
    (stack : BoxedSlice) (property : BoxedSlice -> Prop) (new : property stack)
    (old : forall task, property (stackOf layout system task)) (task : TaskId) :
    property (stackOf layout (system.addTask id stack) task) := by
  by_cases same : task = id
  · subst same
    rw [stackOf_addTask_self]
    exact new
  · rw [stackOf_addTask_of_ne _ _ same]
    exact old task

theorem Sound.apart_addTask (sound : Sound layout waiting world) (id : TaskId) {stack : BoxedSlice}
    (otherStacks : forall other, world.system.scheduler.Occupied other ->
      Disjoint stack.bytes (stackOf layout world.system other).bytes) (first second : TaskId)
    (occupiedFirst : (world.system.addTask id stack).scheduler.Occupied first)
    (occupiedSecond : (world.system.addTask id stack).scheduler.Occupied second)
    (different : first ≠ second) :
    Disjoint (stackOf layout (world.system.addTask id stack) first).bytes
      (stackOf layout (world.system.addTask id stack) second).bytes := by
  rw [occupied_addTask] at occupiedFirst occupiedSecond
  by_cases firstNew : first = id
  · subst firstNew
    have old := Or.resolve_left occupiedSecond (Ne.symm different)
    rw [stackOf_addTask_self, stackOf_addTask_of_ne _ _ (Ne.symm different)]
    exact otherStacks second old
  · have old := Or.resolve_left occupiedFirst firstNew
    rw [stackOf_addTask_of_ne _ _ firstNew]
    by_cases secondNew : second = id
    · subst secondNew
      rw [stackOf_addTask_self]
      exact (otherStacks first old).symm
    · rw [stackOf_addTask_of_ne _ _ secondNew]
      exact sound.apart first second old (Or.resolve_left occupiedSecond secondNew) different

theorem primed_outside (layout : Layout) (entry : UInt32) {address : Nat} (memory : ByteMemory)
    (fits : address + stackSize < 2 ^ 32) {target : Nat}
    (outside : target ∉ extent address stackSize) :
    (primeStack layout entry ⟨address, stackSize⟩ (memory.fill address stackSize 0)).2 target =
      memory target := by
  rcases primeStack_fresh layout entry ⟨address, stackSize⟩ (memory.fill address stackSize 0)
    (show 64 ≤ stackSize by decide) fits with ⟨_, _, _, kept⟩
  rw [kept target outside]
  rw [mem_extent] at outside
  exact fill_outside _ (by omega)

theorem waits_primed (layout : SwitchLayout) (id : TaskId) (entry : UInt32) {address : Nat}
    (memory : ByteMemory) (fits : address + stackSize < 2 ^ 32)
    (statics : Disjoint (extent address stackSize) layout.statics.bytes) :
    let primed := primeStack layout.toLayout entry ⟨address, stackSize⟩ memory
    Waits layout id ⟨address, stackSize⟩ (primed.2.store (layout.contextAddr id).toNat 4 primed.1)
      (.entry entry) := by
  intro primed
  rcases primeStack_fresh layout.toLayout entry ⟨address, stackSize⟩ memory
    (show 64 ≤ stackSize by decide) fits with ⟨holds, above, below, _⟩
  simp only at above below
  have contextApart := statics.mono_right (context_subset layout id)
  have small : primed.1 < 2 ^ 32 :=
    Nat.lt_of_le_of_lt (Nat.le_trans (Nat.le_add_right _ _) below) fits
  refine ⟨primed.1, load_store_of_lt _ small, ?_, above, below⟩
  apply holds.congr
  intro target member
  have bounds := mem_extent.mp member
  simp only [freshFrame, List.length_cons, List.length_nil] at bounds
  have outside := Set.disjoint_left.mp contextApart
    (mem_extent.mpr (show address ≤ target ∧ target < address + stackSize by omega))
  rw [mem_extent] at outside
  exact (store_outside _ (by omega)).symm

/-- The invariant through a spawn. -/
theorem Sound.spawned (sound : Sound layout waiting world) {entry : UInt32} {address : Nat}
    (fits : address + stackSize < 2 ^ 32)
    (otherStacks : forall id, world.system.scheduler.Occupied id ->
      Disjoint (extent address stackSize) (stackOf layout world.system id).bytes)
    (statics : Disjoint (extent address stackSize) layout.statics.bytes)
    {answer : Option TaskId} {system : System} {memory : ByteMemory}
    (spawned : spawn layout.toLayout entry address world.system world.machine.memory =
      (answer, system, memory)) :
    Sound layout (Event.record waiting (.spawn entry answer))
      ⟨{ world.machine with memory := memory }, system⟩ := by
  have kept : forall {target}, target ∉ extent address stackSize -> _ =
      world.machine.memory target :=
    fun outside => primed_outside layout.toLayout entry world.machine.memory fits outside
  rcases spawn_cases layout.toLayout entry address world.system world.machine.memory with
    refused | ⟨id, free, added⟩
  · rw [refused] at spawned
    cases spawned
    apply sound.of_unchanged
    · intro id occupied _ target member
      exact (kept (Set.disjoint_right.mp (otherStacks id occupied) member)).symm
    · intro id _ target member
      exact (kept (Set.disjoint_right.mp statics (context_subset layout id member))).symm
  · rw [added] at spawned
    cases spawned
    have fresh := waits_primed layout id entry (world.machine.memory.fill address stackSize 0)
      fits statics
    refine ⟨sound.scheduler.addTask free _, sound.apart_addTask id otherStacks,
      forall_stackOf_addTask layout _ id _ (fun stack => Disjoint stack.bytes layout.statics.bytes)
        statics sound.statics,
      forall_stackOf_addTask layout _ id _ (fun stack => stack.address + stack.length < 2 ^ 32)
        fits sound.fits, ?_⟩
    intro task occupiedTask other
    rw [occupied_addTask] at occupiedTask
    by_cases new : task = id
    · subst new
      rw [stackOf_addTask_self]
      exact ⟨.entry entry, Function.update_self _ _ _, fresh⟩
    · have old := Or.resolve_left occupiedTask new
      rcases sound.waiting task old other with ⟨reason, known, waits⟩
      rw [stackOf_addTask_of_ne _ _ new]
      refine ⟨reason, (Function.update_of_ne new _ _).trans known, ?_⟩
      apply waits.congr
      · intro target member
        have outside := Set.disjoint_right.mp (sound.context_apart id task) member
        rw [mem_extent] at outside
        refine Eq.symm ((store_outside _ (by omega)).trans (kept ?_))
        exact Set.disjoint_right.mp (otherStacks task old) member
      · intro target member
        have outside := Set.disjoint_left.mp (contexts_disjoint layout new) member
        rw [mem_extent] at outside
        refine Eq.symm ((store_outside _ (by omega)).trans (kept ?_))
        exact Set.disjoint_right.mp statics (context_subset layout task member)

theorem WorldStep.sound {event : Event} (step : WorldStep layout world event next)
    (sound : Sound layout waiting world) : Sound layout (Event.record waiting event) next := by
  cases step with
  | own machine otherStacks statics flag =>
      apply sound.of_unchanged
      · intro id occupied other
        exact (otherStacks id occupied other).symm
      · intro id _
        exact (statics.mono (context_subset layout id)).symm
  | setInterrupts enabled => exact sound.of_unchanged (fun _ _ _ _ _ => rfl) (fun _ _ _ _ => rfl)
  | spawn entry address fits otherStacks statics spawned =>
      exact sound.spawned fits otherStacks statics spawned
  | yield returnAddress hasRoom yielded =>
      rcases yieldNow_cases sound hasRoom returnAddress with
        ⟨empty, scheduler, tasks, current, consistent, equation⟩ |
        ⟨_, front, reason, _, _, occupied, _, _, tasks, current, consistent, equation, switched⟩
      · rw [equation] at yielded
        cases yielded
        exact sound.alone empty tasks current consistent _ _
      · rw [equation] at yielded
        cases yielded
        exact sound.switched hasRoom occupied tasks current consistent switched

theorem sound_start (layout : SwitchLayout) (machine : Machine) :
    Sound layout (fun _ => none) (World.start layout machine) := by
  have kernel : stackOf layout (World.start layout machine).system =
      fun _ => layout.kernelStack := by
    funext id
    have slot : forall id : TaskId,
        (System.boot.scheduler.tasks.set 0 (some ⟨none⟩)).get id = none ∨
          (System.boot.scheduler.tasks.set 0 (some ⟨none⟩)).get id = some ⟨none⟩ := by
      decide
    rw [stackOf]
    rcases slot id with empty | bootstrap
    · rw [show (World.start layout machine).system.scheduler.tasks.get id = none from empty]
    · rw [show (World.start layout machine).system.scheduler.tasks.get id = some ⟨none⟩
        from bootstrap]
  have only : forall id : TaskId, (World.start layout machine).system.scheduler.Occupied id ->
      id = 0 := by
    have closed : forall id : TaskId,
        ((System.boot.scheduler.tasks.set 0 (some ⟨none⟩)).get id).isSome = true -> id = 0 := by
      decide
    exact closed
  refine ⟨consistent_init layout.toLayout machine.memory, ?_, ?_, ?_, ?_⟩
  · intro id other occupied occupied' different
    exact absurd ((only id occupied).trans (only other occupied').symm) different
  · intro id
    rw [kernel]
    exact disjoint_extent layout.kernelStackApart
  · intro id
    rw [kernel]
    exact layout.kernelStackFits
  · intro id occupied other
    exact absurd (only id occupied) other

theorem run_sound {machine : Machine} {events : List Event}
    (run : Run (WorldStep layout) (World.start layout machine) events world) :
    Sound layout (waitingAfter events) world := by
  induction run with
  | nil => exact sound_start layout machine
  | snoc _ last inductionHypothesis =>
      rw [waitingAfter, List.foldl_append]
      exact last.sound inductionHypothesis

end Runs

/-- Whatever has happened, a task that calls `yield_now` hands the processor to a
task that continues as its own history demands.  The call never fails, so a task that
waits is not lost. -/
theorem switch_is_transparent {layout : SwitchLayout} {machine : Machine} {events : List Event}
    {world : World} (run : Run (WorldStep layout) (World.start layout machine) events world)
    (hasRoom : HasRoom layout world) (returnAddress : UInt32) :
    Exists fun next => Exists fun system =>
      yieldNow layout returnAddress world.machine world.system = some (next, system) ∧
      Exists fun reason =>
        waitingAfter (events ++
            [.yield ⟨world.system.scheduler.current, world.machine, returnAddress⟩ next])
          system.scheduler.current = some reason ∧
        Continues layout system.scheduler.current
          (stackOf layout system system.scheduler.current) next reason := by
  have sound := run_sound run
  have known : forall event, waitingAfter (events ++ [event]) =
      Event.record (waitingAfter events) event :=
    fun event => List.foldl_append
  rcases yieldNow_cases sound hasRoom returnAddress with
    ⟨_, scheduler, tasks, current, _, equation⟩ |
    ⟨_, front, reason, next, system, _, other, waits, tasks, current, _, equation, switched⟩
  · have room := hasRoom.room
    rcases returned_at_once world.machine returnAddress (by omega) with
      ⟨eip, _, registers, outside⟩
    refine ⟨_, _, equation,
      .call ⟨world.system.scheduler.current, world.machine, returnAddress⟩ _, ?_, eip, ?_, ?_,
      fun _ _ => rfl⟩
    · rw [known]
      simp only [current]
      exact Function.update_self _ _ _
    · intro register _
      exact congrFun registers register
    · intro target member
      exact outside target (Or.inr member.1)
  · refine ⟨next, system, equation, reason, ?_, ?_⟩
    · rw [known, current]
      exact (Function.update_of_ne other _ _).trans waits
    · rw [stackOf_congr tasks, current]
      exact switched.continues

theorem yieldNow_system {layout : SwitchLayout} {returnAddress : UInt32} {machine next : Machine}
    {system after : System}
    (yielded : yieldNow layout returnAddress machine system = some (next, after)) :
    (selectNext system).map Prod.snd = some after := by
  rw [yieldNow] at yielded
  cases selected : selectNext system with
  | none =>
      rw [selected] at yielded
      cases yielded
  | some selection =>
      rcases selection with ⟨switch, tables⟩
      rw [selected] at yielded
      cases switch with
      | none =>
          cases yielded
          rfl
      | some tasks =>
          cases yielded
          rfl

/-- A layout with the kernel stack below the statics and some code addresses. -/
def smallLayout : SwitchLayout where
  contextAddr := fun id => 0x30000 + 8 * UInt32.ofNat id.val
  taskTrampoline := 0x10200
  afterSwitch := 0x10300
  afterEntry := 0x1020c
  kernelStack := ⟨0x1e000, 0x1000⟩
  statics := ⟨0x30000, 0x40⟩
  landingsDiffer := by decide
  contextsInside := by decide
  contextsApart := by decide
  kernelStackApart := by decide
  kernelStackFits := by decide

def smallMachine : Machine :=
  ⟨fun _ => 0x1ef00, 0x10000, interruptFlag, fun _ => 0⟩

/-- Task 0 has spawned a task. -/
def spawnedWorld : World :=
  let start := World.start smallLayout smallMachine
  let outcome := spawn smallLayout.toLayout 0x10400 0x200000 start.system start.machine.memory
  ⟨{ start.machine with memory := outcome.2.2 }, outcome.2.1⟩

theorem spawnedWorld_step :
    WorldStep smallLayout (World.start smallLayout smallMachine) (.spawn 0x10400 (some 1))
      spawnedWorld := by
  have kernelOnly : forall id : TaskId,
      stackOf smallLayout (World.start smallLayout smallMachine).system id =
        smallLayout.kernelStack := by
    decide
  refine WorldStep.spawn 0x10400 0x200000 (by decide) ?_ (disjoint_extent (by decide)) rfl
  intro id _
  rw [kernelOnly id]
  exact disjoint_extent (by decide)

theorem spawnedWorld_hasRoom : HasRoom smallLayout spawnedWorld :=
  ⟨by decide, by decide⟩

/-- Task 1 after some code of its own, which has put something else into every
register. -/
def busyMachine (arrival : Machine) : Machine :=
  { arrival with registers := fun _ => 0x201f00 }

/-- Task 0 spawns a task and yields: the entry function of that task runs, on the
task's stack.  The task runs on and yields in turn: task 0 returns from its call, with
its registers and the part of its stack that it used as they were. -/
theorem switch_is_transparent_there_and_back :
    Exists fun arrival => Exists fun between => Exists fun final => Exists fun after =>
      Run (WorldStep smallLayout) (World.start smallLayout smallMachine)
          [.spawn 0x10400 (some 1), .yield ⟨0, spawnedWorld.machine, 0x10500⟩ arrival, .own]
          ⟨busyMachine arrival, between⟩ ∧
        arrival.eip = 0x10400 ∧
        arrival.esp.toNat ∈ (BoxedSlice.mk 0x200000 stackSize).bytes ∧
        yieldNow smallLayout 0x10600 (busyMachine arrival) between = some (final, after) ∧
        final.eip = 0x10500 ∧
        (forall register, register ∈ [Register.ebx, .esi, .edi, .ebp, .esp] ->
          final.registers register = 0x1ef00) ∧
        Set.EqOn final.memory spawnedWorld.machine.memory (Set.Ico 0x1ef00 0x1f000) := by
  have spawned := Run.single spawnedWorld_step
  rcases switch_is_transparent spawned spawnedWorld_hasRoom 0x10500 with
    ⟨arrival, between, yielded, reason, known, enters⟩
  have tables := yieldNow_system yielded
  have second : between.scheduler.current = 1 := by
    rw [← Option.some.inj tables]
    rfl
  have stack : stackOf smallLayout between 1 = ⟨0x200000, stackSize⟩ := by
    rw [← Option.some.inj tables]
    rfl
  rw [second] at known enters
  rw [stack] at enters
  cases Option.some.inj known
  have ran := (spawned.snoc (.yield 0x10500 spawnedWorld_hasRoom yielded)).snoc
    (.own (busyMachine arrival) (fun _ _ _ => Set.eqOn_refl _ _) (Set.eqOn_refl _ _) rfl)
  have hasRoom : HasRoom smallLayout ⟨busyMachine arrival, between⟩ := by
    constructor
    · simp only [second, stack]
      exact (by decide : 0x200000 + 36 ≤ (0x201f00 : UInt32).toNat)
    · simp only [second, stack]
      exact (by decide : (0x201f00 : UInt32).toNat ≤ 0x200000 + stackSize)
  rcases switch_is_transparent ran hasRoom 0x10600 with
    ⟨final, after, yieldedBack, reason, known, returns⟩
  have tablesAfter := yieldNow_system yieldedBack
  rw [← Option.some.inj tables] at tablesAfter
  have first : after.scheduler.current = 0 := by
    rw [← Option.some.inj tablesAfter]
    rfl
  have kernelStack : stackOf smallLayout after 0 = smallLayout.kernelStack := by
    rw [← Option.some.inj tablesAfter]
    rfl
  rw [first] at known returns
  rw [kernelStack] at returns
  simp only [second] at known
  cases Option.some.inj known
  exact ⟨arrival, between, final, after, ran, enters.1, enters.2, yieldedBack, returns.1,
    returns.2.1, returns.2.2.1⟩

end Task
end Goatos
