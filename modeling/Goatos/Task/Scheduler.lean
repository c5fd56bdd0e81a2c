import Mathlib.Data.Fintype.Card
import Goatos.Library.ByteMemory
import Goatos.Library.Cycle
import Goatos.Library.Ring
import Goatos.Library.Transition
import Goatos.Library.Word

namespace Goatos
namespace Task

open Library

/-!
# The round-robin scheduler

A fixed table of tasks and a ring of the ids that are ready to run.  The running
task is not in the ring: a yield puts it behind the others and takes the one in
front.  This module has everything that happens under the scheduler's lock; the
switch of stacks that follows a yield is in `Goatos.Task.Switch`.

The saved stack pointer of a task is not a field here but a word of memory at a
place that belongs to the slot, because the switch reads and writes it through a
raw pointer after the lock has been released.
-/

def stackSize : Nat := 8 * 1024

def maxTasks : Nat := 4

instance : NeZero maxTasks := ⟨by decide⟩

abbrev TaskId := Fin maxTasks

structure BoxedSlice where
  address : Nat
  length : Nat
  deriving DecidableEq, Repr

/-- What the table keeps of a task beside its context.  The bootstrap task has no
stack of its own. -/
structure TaskRecord where
  stack : Option BoxedSlice
  deriving DecidableEq, Repr

structure Scheduler where
  tasks : Vector (Option TaskRecord) maxTasks
  ready : Vector TaskId maxTasks
  readyHead : TaskId
  readyLen : Nat
  current : TaskId
  deriving DecidableEq

/-- The statics of the module: the table, `TASK_COUNT` and `TURNS`. -/
structure System where
  scheduler : Scheduler
  taskCount : UInt32
  turnCounters : Vector UInt32 maxTasks
  deriving DecidableEq

/-- Where the linker put what the switch needs to find. -/
structure Layout where
  /-- The context word of every slot of the table. -/
  contextAddr : TaskId -> UInt32
  /-- The code a fresh task returns to. -/
  taskTrampoline : UInt32

namespace Scheduler

def new : Scheduler where
  tasks := Vector.replicate maxTasks none
  ready := Vector.replicate maxTasks 0
  readyHead := 0
  readyLen := 0
  current := 0

/-- Put an id behind the ready ones.  The source asserts in a debug build that
there is room; `Consistent.room` is that assertion. -/
def enqueueReady (scheduler : Scheduler) (id : TaskId) : Scheduler :=
  let tail := ringIndex scheduler.readyHead scheduler.readyLen
  { scheduler with
    ready := scheduler.ready.set tail.val id tail.isLt
    readyLen := scheduler.readyLen + 1 }

/-- Take the id in front. -/
def dequeueReady (scheduler : Scheduler) : Option TaskId × Scheduler :=
  if scheduler.readyLen = 0 then (none, scheduler)
  else
    (some (scheduler.ready.get scheduler.readyHead), { scheduler with
      readyHead := ringIndex scheduler.readyHead 1
      readyLen := scheduler.readyLen - 1 })

/-- The ids in the ring, front first.  This is what the array, the head and the
length stand for, and all statements about the order are about it. -/
def readyQueue (scheduler : Scheduler) : List TaskId :=
  ringItems scheduler.ready scheduler.readyHead scheduler.readyLen

def Occupied (scheduler : Scheduler) (id : TaskId) : Prop :=
  (scheduler.tasks.get id).isSome = true

instance (scheduler : Scheduler) (id : TaskId) : Decidable (scheduler.Occupied id) :=
  inferInstanceAs (Decidable (_ = _))

def occupied (scheduler : Scheduler) : List TaskId :=
  (List.finRange maxTasks).filter (fun id => scheduler.Occupied id)

end Scheduler

namespace System

def boot : System where
  scheduler := Scheduler.new
  taskCount := 0
  turnCounters := Vector.replicate maxTasks 0

/-- How often a task has been switched to. -/
def turns (system : System) (id : Nat) : UInt32 :=
  if inside : id < maxTasks then system.turnCounters.get ⟨id, inside⟩ else 0

end System

/-- Register the caller as task 0. -/
def init (layout : Layout) (system : System) (memory : ByteMemory) : System × ByteMemory :=
  ({ system with
      scheduler := { system.scheduler with
        tasks := system.scheduler.tasks.set 0 (some ⟨none⟩)
        current := 0
        readyHead := 0
        readyLen := 0 }
      taskCount := 1 },
    memory.store (layout.contextAddr 0).toNat 4 0)

/-- Build the frame a fresh task is resumed from: the entry pointer, the
trampoline as return address and four saved registers.  The answer has the stack
pointer to resume with. -/
def primeStack (layout : Layout) (entry : UInt32) (stack : BoxedSlice) (memory : ByteMemory) :
    Nat × ByteMemory :=
  let stackTop := andNot 32 (stack.address + stack.length) 0xf
  let memory := memory.store (stackTop - 4) 4 entry.toNat
  let memory := memory.store (stackTop - 8) 4 layout.taskTrampoline.toNat
  (List.range 4).foldl (fun (esp, memory) _ => (esp - 4, ByteMemory.store memory (esp - 4) 4 0))
    (stackTop - 8, memory)

/-- Fill a slot of the table with a new task and make it ready. -/
def System.addTask (system : System) (id : TaskId) (stack : BoxedSlice) : System :=
  let scheduler := { system.scheduler with
    tasks := system.scheduler.tasks.set id.val (some ⟨some stack⟩) id.isLt }
  { system with
    scheduler := scheduler.enqueueReady id
    taskCount := system.taskCount + 1 }

/-- Create a task that will start at `entry`.  The address is that of the stack
the heap has allocated. -/
def spawn (layout : Layout) (entry : UInt32) (address : Nat) (system : System) (memory : ByteMemory) :
    Option TaskId × System × ByteMemory :=
  let stack : BoxedSlice := ⟨address, stackSize⟩
  let primed := primeStack layout entry stack (memory.fill address stackSize 0)
  match (List.finRange maxTasks).find?
      (fun id => (system.scheduler.tasks.get id).isNone) with
  | none => (none, system, primed.2)
  | some id =>
      (some id, system.addTask id stack, primed.2.store (layout.contextAddr id).toNat 4 primed.1)

/-- The part of `yield_now` under the lock.  `none` is a panic: an empty queue or
an empty slot.  The inner `none` is the early return of the only task, otherwise
the tasks to switch between are answered. -/
def selectNext (system : System) : Option (Option (TaskId × TaskId) × System) :=
  let current := system.scheduler.current
  match (system.scheduler.enqueueReady current).dequeueReady with
  | (none, _) => none
  | (some next, scheduler) =>
      if next = current then some (none, { system with scheduler := scheduler })
      else if (scheduler.tasks.get current).isNone ∨ (scheduler.tasks.get next).isNone then none
      else
        some (some (current, next),
          { system with
            scheduler := { scheduler with current := next }
            turnCounters := system.turnCounters.set next.val
              (system.turnCounters.get next + 1) next.isLt })

/-! ## The invariant of the ring -/

namespace Scheduler

variable {scheduler : Scheduler}

/-- The ring has exactly the ids of the other tasks, each of them once.  The running
task is a task as well, so there is always one to switch back to. -/
structure Consistent (scheduler : Scheduler) : Prop where
  running : scheduler.Occupied scheduler.current
  once : scheduler.readyQueue.Nodup
  ready : forall id, id ∈ scheduler.readyQueue ↔
    scheduler.Occupied id ∧ id ≠ scheduler.current

@[simp] theorem length_readyQueue (scheduler : Scheduler) :
    scheduler.readyQueue.length = scheduler.readyLen :=
  length_ringItems _ _ _

/-- The order in which the tasks run from now on, the current one last.  A yield
turns it by one place. -/
def cycle (scheduler : Scheduler) : List TaskId :=
  scheduler.readyQueue ++ [scheduler.current]

theorem Consistent.cycle_nodup (consistent : scheduler.Consistent) : scheduler.cycle.Nodup := by
  rw [cycle, List.nodup_append_comm, List.singleton_append, List.nodup_cons]
  exact ⟨fun member => ((consistent.ready _).mp member).2 rfl, consistent.once⟩

theorem Consistent.mem_cycle (consistent : scheduler.Consistent) (id : TaskId) :
    id ∈ scheduler.cycle ↔ scheduler.Occupied id := by
  rw [cycle, List.mem_append, List.mem_singleton, consistent.ready]
  constructor
  · rintro (⟨occupied, _⟩ | rfl)
    · exact occupied
    · exact consistent.running
  · intro occupied
    by_cases current : id = scheduler.current
    · exact Or.inr current
    · exact Or.inl ⟨occupied, current⟩

theorem Consistent.room (consistent : scheduler.Consistent) : scheduler.readyLen < maxTasks := by
  have bound := consistent.cycle_nodup.length_le_card
  rw [cycle, List.length_append, length_readyQueue, List.length_singleton, Fintype.card_fin]
    at bound
  exact bound

theorem readyQueue_enqueueReady (room : scheduler.readyLen < maxTasks) (id : TaskId) :
    (scheduler.enqueueReady id).readyQueue = scheduler.readyQueue ++ [id] :=
  ringItems_push scheduler.ready scheduler.readyHead room id

theorem dequeueReady_cons {front : TaskId} {rest : List TaskId}
    (queue : scheduler.readyQueue = front :: rest) :
    Exists fun next => scheduler.dequeueReady = (some front, next) ∧ next.readyQueue = rest ∧
      next.tasks = scheduler.tasks ∧ next.current = scheduler.current := by
  have length := scheduler.length_readyQueue
  rw [queue, List.length_cons] at length
  have items : scheduler.readyQueue = scheduler.ready.get scheduler.readyHead ::
      ringItems scheduler.ready (ringIndex scheduler.readyHead 1) rest.length := by
    rw [readyQueue, ← length, ringItems_succ]
  rw [queue, List.cons.injEq] at items
  rw [dequeueReady, if_neg (by omega), items.1]
  refine ⟨_, rfl, ?_, rfl, rfl⟩
  rw [readyQueue]
  simp only [← length, Nat.add_sub_cancel]
  exact items.2.symm

end Scheduler

open Scheduler

section Operations

variable {system : System}

/-- What a yield does under the lock: nothing of note for the only task,
otherwise the front of the ring becomes the running task. -/
theorem selectNext_cases (consistent : system.scheduler.Consistent) :
    (system.scheduler.readyQueue = [] ∧ Exists fun scheduler =>
      selectNext system = some (none, { system with scheduler := scheduler }) ∧
      scheduler.readyQueue = [] ∧ scheduler.tasks = system.scheduler.tasks ∧
      scheduler.current = system.scheduler.current) ∨
    (Exists fun front => Exists fun rest => system.scheduler.readyQueue = front :: rest ∧
      Exists fun scheduler =>
        selectNext system = some (some (system.scheduler.current, front),
          { system with
            scheduler := scheduler
            turnCounters := system.turnCounters.set front.val
              (system.turnCounters.get front + 1) front.isLt }) ∧
        scheduler.readyQueue = rest ++ [system.scheduler.current] ∧
        scheduler.tasks = system.scheduler.tasks ∧ scheduler.current = front) := by
  have enqueued := readyQueue_enqueueReady consistent.room system.scheduler.current
  cases queue : system.scheduler.readyQueue with
  | nil =>
      rw [queue, List.nil_append] at enqueued
      rcases dequeueReady_cons enqueued with ⟨next, dequeued, left, tasks, current⟩
      refine Or.inl ⟨rfl, next, ?_, left, tasks, current⟩
      simp only [selectNext, dequeued, if_true]
  | cons front rest =>
      have ready := (consistent.ready front).mp (by rw [queue]; exact List.mem_cons_self)
      rw [queue, List.cons_append] at enqueued
      rcases dequeueReady_cons enqueued with ⟨next, dequeued, left, tasks, _⟩
      have running : (next.tasks.get system.scheduler.current).isNone = false := by
        rw [tasks, ← Option.not_isSome]
        exact congrArg not consistent.running
      have present : (next.tasks.get front).isNone = false := by
        rw [tasks, ← Option.not_isSome]
        exact congrArg not ready.1
      refine Or.inr ⟨front, rest, rfl, { next with current := front }, ?_, left, tasks, rfl⟩
      simp [selectNext, dequeued, ready.2, running, present]

/-- What a spawn does: the frame is built in any case, and with a free slot a task
is added whose context is that frame. -/
theorem spawn_cases (layout : Layout) (entry : UInt32) (address : Nat) (system : System)
    (memory : ByteMemory) :
    let primed := primeStack layout entry ⟨address, stackSize⟩ (memory.fill address stackSize 0)
    spawn layout entry address system memory = (none, system, primed.2) ∨
    Exists fun id => ¬ system.scheduler.Occupied id ∧
      spawn layout entry address system memory =
        (some id, system.addTask id ⟨address, stackSize⟩,
          primed.2.store (layout.contextAddr id).toNat 4 primed.1) := by
  intro primed
  rw [spawn]
  cases found : (List.finRange maxTasks).find?
      (fun id => (system.scheduler.tasks.get id).isNone) with
  | none => exact Or.inl rfl
  | some id =>
      have free := List.find?_some found
      refine Or.inr ⟨id, ?_, rfl⟩
      rw [Scheduler.Occupied, Option.isNone_iff_eq_none.mp free]
      exact Bool.noConfusion

theorem occupied_addTask (system : System) (id other : TaskId) (stack : BoxedSlice) :
    (system.addTask id stack).scheduler.Occupied other ↔
      other = id ∨ system.scheduler.Occupied other := by
  by_cases same : other = id
  · subst same
    refine iff_of_true ?_ (Or.inl rfl)
    exact congrArg Option.isSome (Vector.getElem_set_self _)
  · have kept : (system.addTask id stack).scheduler.tasks.get other =
        system.scheduler.tasks.get other :=
      Vector.getElem_set_ne id.isLt other.isLt (fun equal => same (Fin.ext equal.symm))
    rw [Scheduler.Occupied, kept, or_iff_right same]
    rfl

theorem Scheduler.Consistent.addTask (consistent : system.scheduler.Consistent) {id : TaskId}
    (free : ¬ system.scheduler.Occupied id) (stack : BoxedSlice) :
    (system.addTask id stack).scheduler.Consistent := by
  have queue : (system.addTask id stack).scheduler.readyQueue =
      system.scheduler.readyQueue ++ [id] :=
    @readyQueue_enqueueReady { system.scheduler with
      tasks := system.scheduler.tasks.set id.val (some ⟨some stack⟩) id.isLt } consistent.room id
  have other : id ≠ system.scheduler.current := by
    rintro rfl
    exact free consistent.running
  refine ⟨?_, ?_, ?_⟩
  · exact (occupied_addTask _ _ _ _).mpr (Or.inr consistent.running)
  · rw [queue, List.nodup_append_comm, List.singleton_append, List.nodup_cons]
    exact ⟨fun member => free ((consistent.ready id).mp member).1, consistent.once⟩
  · intro task
    rw [queue, List.mem_append, List.mem_singleton, consistent.ready, occupied_addTask]
    constructor
    · rintro (⟨occupied, different⟩ | rfl)
      · exact ⟨Or.inr occupied, different⟩
      · exact ⟨Or.inl rfl, other⟩
    · rintro ⟨rfl | occupied, different⟩
      · exact Or.inr rfl
      · exact Or.inl ⟨occupied, different⟩

theorem Scheduler.Consistent.selectNext (consistent : system.scheduler.Consistent)
    {switch : Option (TaskId × TaskId)} {next : System}
    (selected : Task.selectNext system = some (switch, next)) : next.scheduler.Consistent := by
  rcases selectNext_cases consistent with ⟨empty, scheduler, equation, queue, tasks, current⟩ |
    ⟨front, rest, filled, scheduler, equation, queue, tasks, current⟩
  · rw [equation] at selected
    cases selected
    refine ⟨?_, ?_, ?_⟩
    · rw [Scheduler.Occupied, tasks, current]
      exact consistent.running
    · rw [queue]
      exact List.nodup_nil
    · intro id
      rw [queue, ← empty, consistent.ready, Scheduler.Occupied, Scheduler.Occupied, tasks, current]
  · rw [equation] at selected
    cases selected
    have cycle : system.scheduler.cycle = front :: (rest ++ [system.scheduler.current]) := by
      rw [Scheduler.cycle, filled, List.cons_append]
    have distinct := consistent.cycle_nodup
    rw [cycle, List.nodup_cons] at distinct
    refine ⟨?_, ?_, ?_⟩
    · rw [Scheduler.Occupied, tasks, current]
      exact (consistent.mem_cycle front).mp (by rw [cycle]; exact List.mem_cons_self)
    · rw [queue]
      exact distinct.2
    · intro id
      rw [queue, Scheduler.Occupied, tasks, current]
      have member := consistent.mem_cycle id
      rw [cycle, List.mem_cons] at member
      rw [← Scheduler.Occupied, ← member]
      constructor
      · intro inside
        refine ⟨Or.inr inside, ?_⟩
        rintro rfl
        exact distinct.1 inside
      · rintro ⟨rfl | inside, different⟩
        · exact absurd rfl different
        · exact inside

theorem consistent_init (layout : Layout) (memory : ByteMemory) :
    (init layout System.boot memory).1.scheduler.Consistent := by
  have closed : (init ⟨fun _ => 0, 0⟩ System.boot (fun _ => 0)).1.scheduler.Consistent :=
    ⟨by decide, by decide, by decide⟩
  exact closed

end Operations

/-! ## Runs -/

/-- A call of a task with its outcome: the id that a spawn answered, and the task
that a yield switched to. -/
inductive TaskCall where
  | spawn (answer : Option TaskId)
  | yield (switchedTo : Option TaskId)
  deriving DecidableEq, Repr

inductive TaskStep (layout : Layout) : System -> TaskCall -> System -> Prop
  | spawn {system : System} (entry : UInt32) (address : Nat) (memory : ByteMemory) :
      TaskStep layout system (.spawn (spawn layout entry address system memory).1)
        (spawn layout entry address system memory).2.1
  | yield {system next : System} {switch : Option (TaskId × TaskId)}
      (selected : selectNext system = some (switch, next)) :
      TaskStep layout system (.yield (switch.map Prod.snd)) next

/-- The tasks that were switched to, in order. -/
def switchedTo (calls : List TaskCall) : List TaskId :=
  calls.filterMap fun
    | .yield task => task
    | .spawn _ => none

def OnlyYields (calls : List TaskCall) : Prop :=
  forall call, call ∈ calls -> Exists fun task => call = .yield task

/-- What the scheduler guarantees in a state, for the next call and for every
stretch of yields that follows. -/
structure RoundRobin (layout : Layout) (system : System) : Prop where
  ready : forall id, id ∈ system.scheduler.readyQueue ↔
    system.scheduler.Occupied id ∧ id ≠ system.scheduler.current
  once : system.scheduler.readyQueue.Nodup
  appends : forall id, (system.scheduler.enqueueReady id).readyQueue =
    system.scheduler.readyQueue ++ [id]
  yields : (selectNext system).isSome = true
  refused : forall entry address memory, (spawn layout entry address system memory).1 = none ->
    (spawn layout entry address system memory).2.1 = system
  switches : forall calls next, 2 ≤ system.scheduler.occupied.length -> OnlyYields calls ->
    Run (TaskStep layout) system calls next ->
      switchedTo calls = takeTurns system.scheduler.cycle calls.length
  balanced : forall calls next, 2 ≤ system.scheduler.occupied.length -> OnlyYields calls ->
    Run (TaskStep layout) system calls next -> forall first second,
      system.scheduler.Occupied first -> system.scheduler.Occupied second ->
        (switchedTo calls).count first ≤ (switchedTo calls).count second + 1
  counted : forall calls next, Run (TaskStep layout) system calls next -> forall id : TaskId,
    next.turns id.val = system.turns id.val + UInt32.ofNat ((switchedTo calls).count id)

section Runs

variable {layout : Layout} {system next : System} {calls : List TaskCall}

theorem TaskStep.consistent {call : TaskCall} (step : TaskStep layout system call next)
    (consistent : system.scheduler.Consistent) : next.scheduler.Consistent := by
  cases step with
  | spawn entry address memory =>
      rcases spawn_cases layout entry address system memory with refused | ⟨id, free, added⟩
      · rw [refused]
        exact consistent
      · rw [added]
        exact consistent.addTask free _
  | yield selected => exact consistent.selectNext selected

theorem OnlyYields.init {call : TaskCall} (only : OnlyYields (calls ++ [call])) :
    OnlyYields calls :=
  fun other member => only other (List.mem_append_left _ member)

theorem switchedTo_append (calls more : List TaskCall) :
    switchedTo (calls ++ more) = switchedTo calls ++ switchedTo more :=
  List.filterMap_append

theorem switchedTo_yield (task : Option TaskId) : switchedTo [.yield task] = task.toList := by
  cases task with
  | none => rfl
  | some id => rfl

theorem Scheduler.Consistent.length_cycle {scheduler : Scheduler}
    (consistent : scheduler.Consistent) : scheduler.cycle.length = scheduler.occupied.length := by
  apply List.Perm.length_eq
  rw [Scheduler.occupied,
    List.perm_ext_iff_of_nodup consistent.cycle_nodup ((List.nodup_finRange _).filter _)]
  intro id
  rw [consistent.mem_cycle, List.mem_filter, decide_eq_true_iff]
  exact ⟨fun occupied => ⟨List.mem_finRange id, occupied⟩, And.right⟩

/-- With two tasks or more, a yield turns the cycle by one place. -/
theorem selectNext_rotates (consistent : system.scheduler.Consistent)
    (several : 2 ≤ system.scheduler.cycle.length) {switch : Option (TaskId × TaskId)}
    (selected : selectNext system = some (switch, next)) :
    Exists fun front => Exists fun rest => system.scheduler.cycle = front :: rest ∧
      switch.map Prod.snd = some front ∧ next.scheduler.cycle = rest ++ [front] := by
  rcases selectNext_cases consistent with ⟨empty, _⟩ |
    ⟨front, rest, filled, scheduler, equation, queue, _, current⟩
  · rw [Scheduler.cycle, empty] at several
    simp only [List.nil_append, List.length_singleton] at several
    omega
  · rw [equation] at selected
    cases selected
    refine ⟨front, rest ++ [system.scheduler.current], ?_, rfl, ?_⟩
    · rw [Scheduler.cycle, filled, List.cons_append]
    · rw [Scheduler.cycle, queue, current]

/-- A stretch of yields goes through the cycle: the tasks it switched to are the
next ones of the cycle repeated without end. -/
theorem yields_rotate (consistent : system.scheduler.Consistent)
    (several : 2 ≤ system.scheduler.cycle.length) (only : OnlyYields calls)
    (run : Run (TaskStep layout) system calls next) :
    next.scheduler.Consistent ∧
      next.scheduler.cycle = system.scheduler.cycle.rotate calls.length ∧
      switchedTo calls = takeTurns system.scheduler.cycle calls.length := by
  induction run with
  | nil => exact ⟨consistent, (List.rotate_zero _).symm, rfl⟩
  | snoc _ last inductionHypothesis =>
      rcases inductionHypothesis only.init with ⟨kept, rotated, order⟩
      have label := only _ (List.mem_append_right _ List.mem_cons_self)
      cases last with
      | spawn entry address memory =>
          rcases label with ⟨_, impossible⟩
          cases impossible
      | yield selected =>
          rw [← List.length_rotate, ← rotated] at several
          rcases selectNext_rotates kept several selected with
            ⟨front, rest, split, switched, turned⟩
          rw [rotated] at split
          refine ⟨kept.selectNext selected, ?_, ?_⟩
          · rw [turned, List.length_append, List.length_singleton, ← List.rotate_rotate, split,
              List.rotate_cons_succ, List.rotate_zero]
          · rw [switched, switchedTo_append, switchedTo_yield, order, List.length_append,
              List.length_singleton, takeTurns_of_rotate split, Option.toList_some]

theorem TaskStep.turns {call : TaskCall} (step : TaskStep layout system call next)
    (consistent : system.scheduler.Consistent) (id : TaskId) :
    next.turns id.val = system.turns id.val + UInt32.ofNat ((switchedTo [call]).count id) := by
  have counter : forall system : System, system.turns id.val = system.turnCounters.get id :=
    fun system => dif_pos id.isLt
  rw [counter, counter]
  cases step with
  | spawn entry address memory =>
      rcases spawn_cases layout entry address system memory with refused | ⟨_, _, added⟩
      · rw [refused]
        exact (UInt32.add_zero _).symm
      · rw [added]
        exact (UInt32.add_zero _).symm
  | yield selected =>
      rcases selectNext_cases consistent with ⟨_, _, equation, _⟩ | ⟨front, _, _, _, equation, _⟩
      · rw [equation] at selected
        cases selected
        exact (UInt32.add_zero _).symm
      · rw [equation] at selected
        cases selected
        by_cases same : front = id
        · subst same
          rw [Option.map_some, switchedTo_yield, Option.toList_some, List.count_singleton_self]
          exact Vector.getElem_set_self _
        · have zero : [front].count id = 0 := by simp [same]
          rw [Option.map_some, switchedTo_yield, Option.toList_some, zero]
          refine Eq.trans ?_ (UInt32.add_zero _).symm
          exact Vector.getElem_set_ne front.isLt id.isLt (fun equal => same (Fin.ext equal))

theorem turns_counted (consistent : system.scheduler.Consistent)
    (run : Run (TaskStep layout) system calls next) (id : TaskId) :
    next.scheduler.Consistent ∧
      next.turns id.val = system.turns id.val + UInt32.ofNat ((switchedTo calls).count id) := by
  induction run with
  | nil => exact ⟨consistent, (UInt32.add_zero _).symm⟩
  | snoc _ last inductionHypothesis =>
      rcases inductionHypothesis with ⟨kept, counted⟩
      refine ⟨last.consistent kept, ?_⟩
      rw [last.turns kept, counted, switchedTo_append, List.count_append, UInt32.ofNat_add,
        UInt32.add_assoc]

end Runs

/-- After `init`, whatever is spawned and yielded, the ring holds the other tasks
and the tasks take turns in its order. -/
theorem scheduler_round_robin {layout : Layout} {memory : ByteMemory} {calls : List TaskCall}
    {system : System}
    (run : Run (TaskStep layout) (init layout System.boot memory).1 calls system) :
    RoundRobin layout system := by
  have consistent : system.scheduler.Consistent :=
    run.invariant (fun system => system.scheduler.Consistent) (consistent_init layout memory)
      (fun _ _ _ consistent step => step.consistent consistent)
  refine ⟨consistent.ready, consistent.once, readyQueue_enqueueReady consistent.room,
    ?_, ?_, ?_, ?_, ?_⟩
  · rcases selectNext_cases consistent with ⟨_, _, equation, _⟩ | ⟨_, _, _, _, equation, _⟩
    · rw [equation]
      rfl
    · rw [equation]
      rfl
  · intro entry address memory refused
    rcases spawn_cases layout entry address system memory with unchanged | ⟨_, _, added⟩
    · rw [unchanged]
    · rw [added] at refused
      cases refused
  · intro calls next several only run
    rw [← consistent.length_cycle] at several
    exact (yields_rotate consistent several only run).2.2
  · intro calls next several only run first second occupiedFirst occupiedSecond
    rw [← consistent.length_cycle] at several
    rw [(yields_rotate consistent several only run).2.2]
    exact count_takeTurns_le consistent.cycle_nodup ((consistent.mem_cycle first).mpr occupiedFirst)
      ((consistent.mem_cycle second).mpr occupiedSecond) calls.length
  · intro calls next run id
    exact (turns_counted consistent run id).2

theorem scheduler_round_robin_spawned :
    let layout : Layout := ⟨fun id => 0x30000 + 8 * UInt32.ofNat id.val, 0x10200⟩
    let memory : ByteMemory := fun _ => 0
    Exists fun system =>
      Run (TaskStep layout) (init layout System.boot memory).1
        [.spawn (some 1), .spawn (some 2), .yield (some 1)] system ∧
      RoundRobin layout system ∧ system.scheduler.cycle = [2, 0, 1] := by
  intro layout memory
  have run : Run (TaskStep layout) (init layout System.boot memory).1
      [.spawn (some 1), .spawn (some 2), .yield (some 1)] _ :=
    ((Run.nil.snoc (TaskStep.spawn 0x10400 0x200000 memory)).snoc
      (TaskStep.spawn 0x10800 0x210000 memory)).snoc
      (@TaskStep.yield layout _ _ (some (0, 1)) rfl)
  exact ⟨_, run, scheduler_round_robin run, by decide⟩

end Task
end Goatos
