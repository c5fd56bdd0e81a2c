import Goatos.Task.Transparency

namespace Goatos
namespace Task

open Library
open Library.ByteMemory
open Library.Machine
open Scheduler

/-!
# The stack of a task at its entry

The calling convention of the i386 wants the stack pointer at a multiple of 16
when a function is called.  The call pushes the return address, so a function
starts with its stack pointer four below such a multiple.

`spawn` rounds the end of the stack down to a multiple of 16, and the trampoline
leaves a gap of twelve bytes below it before the call.  That puts the return
address, not the stack pointer of the caller, at a multiple of 16.
-/

/-- The end of a stack as `spawn` rounds it. -/
def stackTop (stack : BoxedSlice) : Nat :=
  andNot 32 (stack.address + stack.length) 0xf

theorem stackTop_eq {stack : BoxedSlice} (fits : stack.address + stack.length < 2 ^ 32) :
    stackTop stack = (stack.address + stack.length) / 16 * 16 :=
  andNot_low 4 fits

/-- Every task that waits for its first entry has the frame from `spawn` at the end
of its stack, with the context leading there. -/
def EntriesPrimed (layout : SwitchLayout) (waiting : TaskId -> Option Waiting) (world : World) :
    Prop :=
  forall id entry, world.system.scheduler.Occupied id -> id ≠ world.system.scheduler.current ->
    waiting id = some (.entry entry) ->
      (stackOf layout world.system id).length = stackSize ∧
        world.machine.memory.load (layout.contextAddr id).toNat 4 =
          stackTop (stackOf layout world.system id) - 24

section Runs

variable {layout : SwitchLayout} {world next : World} {waiting : TaskId -> Option Waiting}

theorem EntriesPrimed.of_unchanged (primed : EntriesPrimed layout waiting world)
    {machine : Machine}
    (sameContexts : forall id,
      Set.EqOn world.machine.memory machine.memory (extent (layout.contextAddr id).toNat 4)) :
    EntriesPrimed layout waiting { world with machine := machine } := by
  intro id entry occupied other known
  rcases primed id entry occupied other known with ⟨length, context⟩
  exact ⟨length, (load_congr (sameContexts id)).symm.trans context⟩

theorem EntriesPrimed.spawned (primed : EntriesPrimed layout waiting world) {entry : UInt32}
    {address : Nat} (fits : address + stackSize < 2 ^ 32)
    (statics : Disjoint (extent address stackSize) layout.statics.bytes)
    {answer : Option TaskId} {system : System} {memory : ByteMemory}
    (spawned : spawn layout.toLayout entry address world.system world.machine.memory =
      (answer, system, memory)) :
    EntriesPrimed layout (Event.record waiting (.spawn entry answer))
      ⟨{ world.machine with memory := memory }, system⟩ := by
  have kept : forall id, Set.EqOn world.machine.memory _ (extent (layout.contextAddr id).toNat 4) :=
    fun id _ member => (primed_outside layout.toLayout entry world.machine.memory fits
      (Set.disjoint_right.mp statics (context_subset layout id member))).symm
  rcases spawn_cases layout.toLayout entry address world.system world.machine.memory with
    refused | ⟨id, free, added⟩
  · rw [refused] at spawned
    cases spawned
    exact primed.of_unchanged kept
  · rw [added] at spawned
    cases spawned
    intro task first occupied other known
    rw [occupied_addTask] at occupied
    by_cases new : task = id
    · subst new
      rw [stackOf_addTask_self]
      refine ⟨rfl, ?_⟩
      have place := primeStack_address layout.toLayout entry ⟨address, stackSize⟩
        (world.machine.memory.fill address stackSize 0) fits
      rw [← stackTop_eq fits] at place
      simp only
      rw [place]
      apply load_store_of_lt
      rw [stackTop_eq fits]
      simp only
      omega
    · rw [Event.record, Function.update_of_ne new] at known
      rw [stackOf_addTask_of_ne _ _ new]
      rcases primed task first (Or.resolve_left occupied new) other known with ⟨length, context⟩
      refine ⟨length, ?_⟩
      rw [← context]
      apply load_congr
      intro target member
      have outside := Set.disjoint_left.mp (contexts_disjoint layout new) member
      rw [mem_extent] at outside
      exact (store_outside _ (by omega)).trans (kept task member).symm

theorem EntriesPrimed.yielded (primed : EntriesPrimed layout waiting world)
    (sound : Sound layout waiting world) (hasRoom : HasRoom layout world) {returnAddress : UInt32}
    {machine : Machine} {system : System}
    (yielded : yieldNow layout returnAddress world.machine world.system = some (machine, system)) :
    EntriesPrimed layout (Event.record waiting
      (.yield ⟨world.system.scheduler.current, world.machine, returnAddress⟩ machine))
      ⟨machine, system⟩ := by
  rcases yieldNow_cases sound hasRoom returnAddress with
    ⟨empty, scheduler, tasks, current, _, equation⟩ |
    ⟨_, front, reason, machine, system, occupied, other, _, tasks, current, _, equation, switched⟩
  · rw [equation] at yielded
    cases yielded
    intro id entry occupied different _
    simp only [occupied_congr tasks, current] at occupied different
    have ready := (sound.scheduler.ready id).mpr ⟨occupied, different⟩
    rw [empty] at ready
    cases ready
  · rw [equation] at yielded
    cases yielded
    intro id entry occupiedId different known
    simp only [occupied_congr tasks, current] at occupiedId different
    by_cases caller : id = world.system.scheduler.current
    · subst caller
      rw [Event.record, Function.update_self] at known
      cases known
    · rw [Event.record, Function.update_of_ne caller] at known
      rw [stackOf_congr tasks]
      rcases primed id entry occupiedId caller known with ⟨length, context⟩
      refine ⟨length, context ▸ (load_congr ?_).symm⟩
      exact fun _ member => switched.unchanged sound hasRoom occupied occupiedId caller different
        (Or.inr member)

theorem WorldStep.entriesPrimed {event : Event} (step : WorldStep layout world event next)
    (sound : Sound layout waiting world) (primed : EntriesPrimed layout waiting world) :
    EntriesPrimed layout (Event.record waiting event) next := by
  cases step with
  | own machine otherStacks statics flag =>
      exact primed.of_unchanged (fun id => (statics.mono (context_subset layout id)).symm)
  | setInterrupts enabled => exact primed.of_unchanged (fun _ _ _ => rfl)
  | spawn entry address fits otherStacks statics spawned => exact primed.spawned fits statics spawned
  | yield returnAddress hasRoom yielded => exact primed.yielded sound hasRoom yielded

theorem run_entriesPrimed {machine : Machine} {events : List Event}
    (run : Run (WorldStep layout) (World.start layout machine) events world) :
    EntriesPrimed layout (waitingAfter events) world := by
  induction run with
  | nil =>
      intro id entry _ _ known
      cases known
  | snoc earlier last inductionHypothesis =>
      rw [waitingAfter, List.foldl_append]
      exact last.entriesPrimed (run_sound earlier) inductionHypothesis

/-- A task is entered for the first time with its stack pointer sixteen bytes below the
rounded end of its stack. -/
theorem EntriesPrimed.entered (primed : EntriesPrimed layout waiting world)
    (sound : Sound layout waiting world) (hasRoom : HasRoom layout world) {returnAddress : UInt32}
    {machine : Machine} {system : System} {entry : UInt32}
    (yielded : yieldNow layout returnAddress world.machine world.system = some (machine, system))
    (first : Event.record waiting
      (.yield ⟨world.system.scheduler.current, world.machine, returnAddress⟩ machine)
        system.scheduler.current = some (.entry entry)) :
    let stack := stackOf layout system system.scheduler.current
    machine.eip = entry ∧ stack.length = stackSize ∧ stack.address + stackSize < 2 ^ 32 ∧
      machine.esp.toNat + 16 = stackTop stack := by
  intro stack
  rcases selectNext_cases sound.scheduler with ⟨_, scheduler, selected, _, _, current⟩ |
    ⟨front, rest, queue, scheduler, selected, _, tasks, current⟩
  · rw [yieldNow, selected] at yielded
    cases yielded
    rw [current, Event.record, Function.update_self] at first
    cases first
  · have ready := (sound.scheduler.ready front).mp (by rw [queue]; exact List.mem_cons_self)
    rcases sound.waiting front ready.1 ready.2 with ⟨reason, known, waits⟩
    rw [yieldNow_eq layout returnAddress world.machine selected] at yielded
    cases yielded
    have same : stack = stackOf layout world.system front := by
      rw [← current]
      exact congrFun (stackOf_congr tasks) _
    simp only [current] at first
    rw [Event.record, Function.update_of_ne ready.2, known] at first
    cases first
    rcases primed front entry ready.1 ready.2 known with ⟨length, context⟩
    have fits := sound.fits front
    rcases sound.parked hasRoom returnAddress ready.1 ready.2 waits with
      ⟨parked, frame, found, holds, above, below⟩
    have unmoved := load_congr fun _ member =>
      parked.unchanged sound hasRoom ready.1 ready.2 (Or.inr member)
    rw [← parked.edx] at found
    rcases run_firstEntry layout found holds (by omega) with ⟨started, esp, _⟩
    rw [parked.edx, ← unmoved, context] at found
    rw [stackTop_eq fits] at found
    rw [same, stackTop_eq fits]
    rw [length] at fits found below ⊢
    refine ⟨started, rfl, fits, ?_⟩
    have size : stackSize = 8192 := rfl
    omega

end Runs

/-- However the heap places a stack, `spawn` writes inside it and the task starts inside
it, but never as the calling convention wants: the stack pointer is then four bytes
off. -/
theorem task_entry_misaligned {layout : SwitchLayout} {machine : Machine} {events : List Event}
    {world : World} (run : Run (WorldStep layout) (World.start layout machine) events world)
    (hasRoom : HasRoom layout world) (returnAddress : UInt32) :
    (forall (entry : UInt32) (address : Nat) (memory : ByteMemory), address + stackSize < 2 ^ 32 ->
      let primed := primeStack layout.toLayout entry ⟨address, stackSize⟩ memory
      HoldsWords primed.2 primed.1 (freshFrame layout.toLayout entry) ∧
        extent primed.1 24 ⊆ (BoxedSlice.mk address stackSize).bytes) ∧
    Exists fun next => Exists fun system =>
      yieldNow layout returnAddress world.machine world.system = some (next, system) ∧
      forall entry, waitingAfter (events ++
          [.yield ⟨world.system.scheduler.current, world.machine, returnAddress⟩ next])
        system.scheduler.current = some (.entry entry) ->
          next.eip = entry ∧
          next.esp.toNat ∈ (stackOf layout system system.scheduler.current).bytes ∧
          (next.esp.toNat + 4) % 16 = 4 := by
  constructor
  · intro entry address memory fits primed
    rcases primeStack_fresh layout.toLayout entry ⟨address, stackSize⟩ memory
      (show 64 ≤ stackSize by decide) fits with ⟨holds, above, below, _⟩
    refine ⟨holds, ?_⟩
    intro target member
    have bounds := mem_extent.mp member
    exact mem_extent.mpr ⟨Nat.le_trans above bounds.1, Nat.lt_of_lt_of_le bounds.2 below⟩
  · have sound := run_sound run
    have yields : Exists fun next => Exists fun system =>
        yieldNow layout returnAddress world.machine world.system = some (next, system) := by
      rcases yieldNow_cases sound hasRoom returnAddress with
        ⟨_, _, _, _, _, equation⟩ | ⟨_, _, _, _, _, _, _, _, _, _, _, equation, _⟩
      · exact ⟨_, _, equation⟩
      · exact ⟨_, _, equation⟩
    rcases yields with ⟨next, system, yielded⟩
    refine ⟨next, system, yielded, ?_⟩
    intro entry first
    rw [waitingAfter, List.foldl_append] at first
    rcases (run_entriesPrimed run).entered sound hasRoom yielded first with
      ⟨eip, length, fits, esp⟩
    rw [← length] at fits
    rw [stackTop_eq fits] at esp
    have size : stackSize = 8192 := rfl
    refine ⟨eip, mem_extent.mpr ⟨by omega, by omega⟩, by omega⟩

theorem spawnedWorld_yield {next : Machine} {system : System}
    (yielded : yieldNow smallLayout 0x10500 spawnedWorld.machine spawnedWorld.system =
      some (next, system)) :
    system.scheduler.current = 1 ∧ stackOf smallLayout system 1 = ⟨0x200000, stackSize⟩ := by
  rw [← Option.some.inj (yieldNow_system yielded)]
  exact ⟨rfl, rfl⟩

theorem task_entry_misaligned_first :
    Exists fun next => Exists fun system =>
      yieldNow smallLayout 0x10500 spawnedWorld.machine spawnedWorld.system = some (next, system) ∧
        next.eip = 0x10400 ∧ (next.esp.toNat + 4) % 16 = 4 := by
  rcases (task_entry_misaligned (Run.single spawnedWorld_step) spawnedWorld_hasRoom 0x10500).2 with
    ⟨next, system, yielded, enters⟩
  rw [(spawnedWorld_yield yielded).1] at enters
  rcases enters 0x10400 rfl with ⟨eip, _, misaligned⟩
  exact ⟨next, system, yielded, eip, misaligned⟩

/-- The stack of that task is page-aligned, and its stack pointer at the entry is none
that the convention allows. -/
theorem task_entry_breaks_convention :
    Run (WorldStep smallLayout) (World.start smallLayout smallMachine) [.spawn 0x10400 (some 1)]
        spawnedWorld ∧
      Exists fun next => Exists fun system =>
        yieldNow smallLayout 0x10500 spawnedWorld.machine spawnedWorld.system =
            some (next, system) ∧
          next.eip = 0x10400 ∧ next.esp.toNat = 0x201ff0 ∧ ¬ 16 ∣ next.esp.toNat + 4 := by
  have run := Run.single spawnedWorld_step
  have sound := run_sound run
  rcases yieldNow_cases sound spawnedWorld_hasRoom 0x10500 with
    ⟨empty, _⟩ | ⟨_, _, _, next, system, _, _, _, _, _, _, yielded, _⟩
  · exact absurd empty (by decide)
  · rcases spawnedWorld_yield yielded with ⟨current, stack⟩
    have entered := (run_entriesPrimed run).entered sound spawnedWorld_hasRoom yielded
      (show Event.record _ _ system.scheduler.current = some (.entry 0x10400) by
        rw [current]
        rfl)
    simp only [current, stack] at entered
    rcases entered with ⟨eip, _, _, esp⟩
    have top : stackTop ⟨0x200000, stackSize⟩ = 0x202000 := by decide
    rw [top] at esp
    refine ⟨run, next, system, yielded, eip, by omega, ?_⟩
    omega

end Task
end Goatos
