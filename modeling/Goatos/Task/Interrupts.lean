import Goatos.Task.Transparency

namespace Goatos
namespace Task

open Library
open Library.ByteMemory
open Library.Machine
open Scheduler

/-!
# Interrupts in task code

`yield_now` masks interrupts for the switch and puts the flag of its caller back
when that caller is switched to again.  A task that is entered for the first time
does not come back from a `yield_now`, and the trampoline has no `sti`: the task
starts with interrupts masked, and since its own yields save that flag, it stays
so.  Interrupts are enabled exactly while the bootstrap task runs.
-/

/-- A step in which no task's own code changes the interrupt flag.  What is left are
the changes that `yield_now` makes. -/
def QuietStep (layout : SwitchLayout) (world : World) (event : Event) (next : World) : Prop :=
  WorldStep layout world event next ∧ forall enabled, event ≠ .setInterrupts enabled

/-- A quiet step that is no yield while another task is ready. -/
def UnswitchedStep (layout : SwitchLayout) (world : World) (event : Event) (next : World) : Prop :=
  QuietStep layout world event next ∧
    forall call arrival, event = .yield call arrival -> world.system.scheduler.readyQueue = []

/-- Only the bootstrap task runs, or will run, with interrupts enabled.  A task that
waits has its flag in its frame, and one that never ran has none. -/
structure BootstrapEnabled (waiting : TaskId -> Option Waiting) (world : World) : Prop where
  bootstrap : world.system.scheduler.Occupied 0
  running : world.machine.InterruptsEnabled ↔ world.system.scheduler.current = 0
  parked : forall id reason, id ≠ world.system.scheduler.current -> waiting id = some reason ->
    (reason.InterruptsEnabled ↔ id = 0)

section Runs

variable {layout : SwitchLayout} {world next : World} {waiting : TaskId -> Option Waiting}

/-- A new task will be entered with interrupts masked, and it is not the bootstrap
task. -/
theorem BootstrapEnabled.spawned (flags : BootstrapEnabled waiting world) {entry : UInt32}
    {address : Nat} {answer : Option TaskId} {system : System} {memory : ByteMemory}
    (spawned : spawn layout.toLayout entry address world.system world.machine.memory =
      (answer, system, memory)) :
    BootstrapEnabled (Event.record waiting (.spawn entry answer))
      ⟨{ world.machine with memory := memory }, system⟩ := by
  rcases spawn_cases layout.toLayout entry address world.system world.machine.memory with
    refused | ⟨id, free, added⟩
  · rw [refused] at spawned
    cases spawned
    exact ⟨flags.bootstrap, flags.running, flags.parked⟩
  · rw [added] at spawned
    cases spawned
    refine ⟨(occupied_addTask _ _ _ _).mpr (Or.inr flags.bootstrap), flags.running, ?_⟩
    intro task reason other known
    by_cases new : task = id
    · subst new
      rw [Event.record, Function.update_self] at known
      cases known
      refine iff_of_false id ?_
      rintro rfl
      exact free flags.bootstrap
    · rw [Event.record, Function.update_of_ne new] at known
      exact flags.parked task reason other known

/-- A yield leaves the flag of the caller with the caller, and takes up the flag of
the task that runs next. -/
theorem BootstrapEnabled.yielded (flags : BootstrapEnabled waiting world)
    (sound : Sound layout waiting world) (hasRoom : HasRoom layout world) {returnAddress : UInt32}
    {machine : Machine} {system : System}
    (yielded : yieldNow layout returnAddress world.machine world.system = some (machine, system)) :
    BootstrapEnabled (Event.record waiting
      (.yield ⟨world.system.scheduler.current, world.machine, returnAddress⟩ machine))
      ⟨machine, system⟩ := by
  rcases yieldNow_cases sound hasRoom returnAddress with
    ⟨_, scheduler, tasks, current, _, equation⟩ |
    ⟨_, front, reason, machine, system, _, other, known, tasks, current, _, equation, switched⟩
  · rw [equation] at yielded
    cases yielded
    have room := hasRoom.room
    rcases returned_at_once world.machine returnAddress (by omega) with ⟨_, eflags, _⟩
    refine ⟨?_, ?_, ?_⟩
    · rw [occupied_congr tasks]
      exact flags.bootstrap
    · rw [InterruptsEnabled, eflags, ← InterruptsEnabled, current]
      exact flags.running
    · intro id reason different known
      simp only [current] at different
      rw [Event.record, Function.update_of_ne different] at known
      exact flags.parked id reason different known
  · rw [equation] at yielded
    cases yielded
    refine ⟨?_, ?_, ?_⟩
    · rw [occupied_congr tasks]
      exact flags.bootstrap
    · rw [switched.interrupts, current]
      exact flags.parked front reason other known
    · intro id reason different known
      by_cases caller : id = world.system.scheduler.current
      · subst caller
        rw [Event.record, Function.update_self] at known
        cases known
        exact flags.running
      · rw [Event.record, Function.update_of_ne caller] at known
        exact flags.parked id reason caller known

theorem QuietStep.bootstrapEnabled {event : Event} (step : QuietStep layout world event next)
    (sound : Sound layout waiting world) (flags : BootstrapEnabled waiting world) :
    BootstrapEnabled (Event.record waiting event) next := by
  rcases step with ⟨step, quiet⟩
  cases step with
  | own machine otherStacks statics flag =>
      refine ⟨flags.bootstrap, ?_, flags.parked⟩
      rw [← flags.running, InterruptsEnabled, flag, InterruptsEnabled]
  | setInterrupts enabled => exact absurd rfl (quiet enabled)
  | spawn entry address fits otherStacks statics spawned => exact flags.spawned spawned
  | yield returnAddress hasRoom yielded => exact flags.yielded sound hasRoom yielded

/-- Interrupts are enabled in task code exactly while the bootstrap task runs.
`yield_now` masks them for the switch and puts back what the task that continues
had; a task that is entered for the first time had nothing. -/
theorem interrupts_enabled_iff_bootstrap {machine : Machine} {events : List Event}
    (enabled : machine.InterruptsEnabled)
    (run : Run (QuietStep layout) (World.start layout machine) events world) :
    world.machine.InterruptsEnabled ↔ world.system.scheduler.current = 0 := by
  have flags : Sound layout (waitingAfter events) world ∧
      BootstrapEnabled (waitingAfter events) world := by
    induction run with
    | nil =>
        refine ⟨sound_start layout machine, (consistent_init layout.toLayout machine.memory).running,
          iff_of_true enabled rfl, ?_⟩
        intro id reason _ known
        cases known
    | snoc _ last inductionHypothesis =>
        rcases inductionHypothesis with ⟨sound, flags⟩
        rw [waitingAfter, List.foldl_append]
        exact ⟨last.1.sound sound, last.bootstrapEnabled sound flags⟩
  exact flags.2.running

theorem UnswitchedStep.current {event : Event} (step : UnswitchedStep layout world event next)
    (sound : Sound layout waiting world) :
    next.system.scheduler.current = world.system.scheduler.current := by
  rcases step with ⟨⟨step, _⟩, alone⟩
  cases step with
  | own machine otherStacks statics flag => rfl
  | setInterrupts enabled => rfl
  | spawn entry address fits otherStacks statics spawned =>
      rcases spawn_cases layout.toLayout entry address world.system world.machine.memory with
        refused | ⟨id, free, added⟩
      · rw [refused] at spawned
        cases spawned
        rfl
      · rw [added] at spawned
        cases spawned
        rfl
  | yield returnAddress hasRoom yielded =>
      rcases yieldNow_cases sound hasRoom returnAddress with
        ⟨_, scheduler, _, current, _, equation⟩ | ⟨others, _⟩
      · rw [equation] at yielded
        cases yielded
        exact current
      · exact absurd (alone _ _ rfl) others

end Runs

/-- As long as no task yields while another one is ready, interrupts are enabled in
task code; the first yield that does switch leaves them masked. -/
theorem interrupts_stay_enabled_unless_switched {layout : SwitchLayout} {machine : Machine}
    {events : List Event} {world : World} (enabled : machine.InterruptsEnabled)
    (run : Run (UnswitchedStep layout) (World.start layout machine) events world) :
    world.machine.InterruptsEnabled ∧
      forall call arrival next, WorldStep layout world (.yield call arrival) next ->
        (next.machine.InterruptsEnabled ↔ world.system.scheduler.readyQueue = []) := by
  have quiet : Run (QuietStep layout) (World.start layout machine) events world :=
    run.mono (fun _ _ _ step => step.1)
  have steps : Run (WorldStep layout) (World.start layout machine) events world :=
    quiet.mono (fun _ _ _ step => step.1)
  have sound := run_sound steps
  have bootstrap : world.system.scheduler.current = 0 := by
    clear quiet steps sound
    induction run with
    | nil => rfl
    | snoc before last inductionHypothesis =>
        have soundBefore := run_sound (before.mono (fun _ _ _ step => step.1.1))
        exact (last.current soundBefore).trans inductionHypothesis
  refine ⟨(interrupts_enabled_iff_bootstrap enabled quiet).mpr bootstrap, ?_⟩
  intro call arrival next step
  have more : Run (QuietStep layout) (World.start layout machine) _ next :=
    quiet.snoc ⟨step, fun _ impossible => nomatch impossible⟩
  rw [interrupts_enabled_iff_bootstrap enabled more]
  cases step with
  | yield returnAddress hasRoom yielded =>
      rcases yieldNow_cases sound hasRoom returnAddress with
        ⟨empty, scheduler, _, current, _, equation⟩ |
        ⟨others, front, _, _, _, _, other, _, _, current, _, equation, _⟩
      · rw [equation] at yielded
        cases yielded
        exact iff_of_true (current.trans bootstrap) empty
      · rw [equation] at yielded
        cases yielded
        refine iff_of_false ?_ others
        rw [current, ← bootstrap]
        exact other

/-- Before its first yield the bootstrap task has interrupts enabled, and that yield
will mask them. -/
theorem interrupts_stay_enabled_spawned :
    Run (UnswitchedStep smallLayout) (World.start smallLayout smallMachine)
        [.spawn 0x10400 (some 1)] spawnedWorld ∧
      spawnedWorld.machine.InterruptsEnabled ∧
      forall call arrival next, WorldStep smallLayout spawnedWorld (.yield call arrival) next ->
        (next.machine.InterruptsEnabled ↔ spawnedWorld.system.scheduler.readyQueue = []) := by
  have run : Run (UnswitchedStep smallLayout) (World.start smallLayout smallMachine)
      [.spawn 0x10400 (some 1)] spawnedWorld :=
    Run.single ⟨⟨spawnedWorld_step, fun _ impossible => nomatch impossible⟩,
      fun _ _ impossible => nomatch impossible⟩
  exact ⟨run, interrupts_stay_enabled_unless_switched (by decide) run⟩

theorem interrupts_masked_at_first_entry :
    (World.start smallLayout smallMachine).machine.InterruptsEnabled ∧
      Exists fun event => Exists fun next =>
        Run (QuietStep smallLayout) (World.start smallLayout smallMachine)
          [.spawn 0x10400 (some 1), event] next ∧
        next.system.scheduler.current = 1 ∧ next.machine.eip = 0x10400 ∧
        ¬ next.machine.InterruptsEnabled := by
  have run : Run (QuietStep smallLayout) (World.start smallLayout smallMachine)
      [.spawn 0x10400 (some 1)] spawnedWorld :=
    Run.single ⟨spawnedWorld_step, fun _ impossible => nomatch impossible⟩
  have sound := run_sound (Run.single spawnedWorld_step)
  rcases yieldNow_cases sound spawnedWorld_hasRoom 0x10500 with
    ⟨empty, _⟩ | ⟨_, front, reason, next, system, _, _, known, _, current, _, yielded, switched⟩
  · exact absurd empty (by decide)
  · have first : system.scheduler.current = 1 := by
      rw [← Option.some.inj (yieldNow_system yielded)]
      rfl
    rw [← current, first] at known
    cases Option.some.inj known
    refine ⟨by decide, _, _, run.snoc ⟨WorldStep.yield 0x10500 spawnedWorld_hasRoom yielded,
      fun _ impossible => nomatch impossible⟩, first, switched.continues.1, ?_⟩
    rw [switched.interrupts]
    exact id

end Task
end Goatos
