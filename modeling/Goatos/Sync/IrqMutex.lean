import Mathlib.Logic.Function.Basic
import Goatos.Library.Nesting
import Goatos.Library.Machine

namespace Goatos
namespace Sync

open Library

/-!
# `IrqMutex`

`with` reads the flags, masks interrupts, tries to take the lock, runs the closure
whether or not it got the lock, gives the lock back if it had got it, and enables
interrupts again if they were enabled.  An interrupt can come between any two of
these.

A frame is a call of `with`, with the place it has reached and its local variables,
or a handler with the flags its `iret` will put back.  What a closure or a handler
does is left open, except that it changes the interrupt flag only by calling `with`.
The protected value and the result of the closure are not modelled: `with` passes
them on and looks at neither.
-/

/-- The place in `with`: the statement that comes next, and the local variables that
are still needed. -/
inductive Phase where
  | readEflags
  | cli (savedFlags : UInt32)
  | compareExchange (savedFlags : UInt32)
  | call (savedFlags : UInt32) (acquired : Bool)
  /-- The closure is running. -/
  | closure (savedFlags : UInt32) (acquired : Bool)
  | release (savedFlags : UInt32) (acquired : Bool)
  | restore (savedFlags : UInt32)
  | leave
  deriving DecidableEq, Repr

/-- Code that has not returned yet: a call of `with`, or a handler with the flags
that its `iret` will put back. -/
inductive Frame (Mutex : Type) where
  | within (mutex : Mutex) (phase : Phase)
  | handler (flags : UInt32)
  deriving DecidableEq, Repr

/-- The processor, the `locked` flags and the frames, innermost first. -/
structure Cpu (Mutex : Type) where
  eflags : UInt32
  locked : Mutex -> Bool
  frames : List (Frame Mutex)

/-- Where an interrupt comes from.  Software interrupts and exceptions do not look at
the interrupt flag. -/
inductive Source where
  | hardware
  | software
  | exception
  deriving DecidableEq, Repr

inductive Event (Mutex : Type) where
  /-- Other code of a closure, a handler or the main program. -/
  | computes
  /-- A call of `with`. -/
  | begins (mutex : Mutex)
  /-- A statement of `with`. -/
  | proceeds
  /-- `with` calls the closure. -/
  | calls
  /-- `with` returns. -/
  | completes
  | interrupts (source : Source)
  | iret
  deriving DecidableEq, Repr

variable {Mutex : Type} [DecidableEq Mutex]

def Phase.event : Phase -> Event Mutex
  | .call _ _ => .calls
  | .leave => .completes
  | _ => .proceeds

/-- `compare_exchange(false, true)`: whether the lock was free, and the flags after.
A lock that is taken stays as it is. -/
def compareExchange (locked : Mutex -> Bool) (mutex : Mutex) : Bool × (Mutex -> Bool) :=
  if locked mutex = false then (true, Function.update locked mutex true) else (false, locked)

namespace Cpu

def initial (eflags : UInt32) : Cpu Mutex where
  eflags := eflags
  locked := fun _ => false
  frames := []

def advance (cpu : Cpu Mutex) (mutex : Mutex) (outer : List (Frame Mutex)) : Phase -> Cpu Mutex
  | .readEflags => { cpu with frames := .within mutex (.cli cpu.eflags) :: outer }
  | .cli savedFlags =>
      { cpu with
        eflags := cpu.eflags &&& ~~~interruptFlag
        frames := .within mutex (.compareExchange savedFlags) :: outer }
  | .compareExchange savedFlags =>
      let (acquired, locked) := compareExchange cpu.locked mutex
      { cpu with
        locked := locked
        frames := .within mutex (.call savedFlags acquired) :: outer }
  | .call savedFlags acquired =>
      { cpu with frames := .within mutex (.closure savedFlags acquired) :: outer }
  | .closure savedFlags acquired =>
      { cpu with frames := .within mutex (.release savedFlags acquired) :: outer }
  | .release savedFlags acquired =>
      { cpu with
        locked := if acquired then Function.update cpu.locked mutex false else cpu.locked
        frames := .within mutex (.restore savedFlags) :: outer }
  | .restore savedFlags =>
      { cpu with
        eflags := if savedFlags &&& interruptFlag ≠ 0 then cpu.eflags ||| interruptFlag
          else cpu.eflags
        frames := .within mutex .leave :: outer }
  | .leave => { cpu with frames := outer }

end Cpu

/-- The code that runs is a closure, a handler or the main program.  Only such code
calls `with`. -/
def runsClient : List (Frame Mutex) -> Bool
  | [] => true
  | .handler _ :: _ => true
  | .within _ (.closure _ _) :: _ => true
  | .within _ _ :: _ => false

/-- Steps, labelled with the number of frames and what happened.  The number tells
the calls that are nested in each other apart. -/
inductive Step : Cpu Mutex -> Nat × Event Mutex -> Cpu Mutex -> Prop
  | computes {cpu : Cpu Mutex} (client : runsClient cpu.frames = true) (eflags : UInt32)
      (kept : cpu.frames ≠ [] -> interruptsOn eflags = interruptsOn cpu.eflags) :
      Step cpu (cpu.frames.length, .computes) { cpu with eflags := eflags }
  | begins {cpu : Cpu Mutex} (client : runsClient cpu.frames = true) (mutex : Mutex) :
      Step cpu (cpu.frames.length, .begins mutex)
        { cpu with frames := .within mutex .readEflags :: cpu.frames }
  | advance {cpu : Cpu Mutex} {mutex : Mutex} {phase : Phase} {outer : List (Frame Mutex)}
      (innermost : cpu.frames = .within mutex phase :: outer) :
      Step cpu (cpu.frames.length, phase.event) (cpu.advance mutex outer phase)
  | interrupts {cpu : Cpu Mutex} (source : Source)
      (admitted : source = .hardware -> interruptsOn cpu.eflags = true) :
      Step cpu (cpu.frames.length, .interrupts source)
        { cpu with
          eflags := cpu.eflags &&& ~~~interruptFlag
          frames := .handler cpu.eflags :: cpu.frames }
  | iret {cpu : Cpu Mutex} {flags : UInt32} {outer : List (Frame Mutex)}
      (innermost : cpu.frames = .handler flags :: outer) :
      Step cpu (cpu.frames.length, .iret) { cpu with eflags := flags, frames := outer }

/-- A call of `with` from beginning to end, and the labels of what is done inside
it: all of that happens above the frames that were there before. -/
def Completed (mutex : Mutex) (cpu : Cpu Mutex) (labels : List (Nat × Event Mutex))
    (finish : Cpu Mutex) : Prop :=
  Exists fun entered => Exists fun last =>
    Step cpu (cpu.frames.length, .begins mutex) entered ∧
    Run Step entered labels last ∧ (forall label, label ∈ labels -> cpu.frames.length < label.1) ∧
    Step last (cpu.frames.length + 1, .completes) finish

/-- A call of `with` that got the lock and has not given it back.  A call that did
not get it runs its closure all the same. -/
def Frame.Holds (mutex : Mutex) : Frame Mutex -> Prop
  | .within mutex' (.call _ acquired) => mutex' = mutex ∧ acquired = true
  | .within mutex' (.closure _ acquired) => mutex' = mutex ∧ acquired = true
  | .within mutex' (.release _ acquired) => mutex' = mutex ∧ acquired = true
  | _ => False

/-- What `IrqMutex` promises in a state: what a completed call leaves behind, that a
call always goes on, that nested code keeps the locks of outer calls, and that no
hardware interrupt is taken under a lock. -/
structure Transparent (cpu : Cpu Mutex) : Prop where
  restores : forall mutex labels finish, Completed mutex cpu labels finish ->
    interruptsOn finish.eflags = interruptsOn cpu.eflags ∧ finish.locked = cpu.locked ∧
    finish.frames = cpu.frames ∧ labels.count (cpu.frames.length + 1, .calls) = 1
  neverWaits : forall mutex phase outer, cpu.frames = .within mutex phase :: outer ->
    Exists fun next => Step cpu (cpu.frames.length, phase.event) next
  keepsOuter : forall mutex outer, outer ∈ cpu.frames.tail -> outer.Holds mutex ->
    cpu.locked mutex = true ∧ forall label next, Step cpu label next -> next.locked mutex = true
  excludes : forall next, Step cpu (cpu.frames.length, .interrupts .hardware) next ->
    forall mutex, cpu.locked mutex = false

/-! ## What each frame knows -/

/-- The interrupt flag and the `locked` flags: all that frames leave as they found
it. -/
@[ext] structure View (Mutex : Type) where
  interrupts : Bool
  locked : Mutex -> Bool

def Cpu.view (cpu : Cpu Mutex) : View Mutex :=
  ⟨interruptsOn cpu.eflags, cpu.locked⟩

namespace Phase

/-- The view at the call of `with`, computed back from the present one and the local
variables. -/
def before (mutex : Mutex) (view : View Mutex) : Phase -> View Mutex
  | .readEflags => view
  | .cli savedFlags => ⟨interruptsOn savedFlags, view.locked⟩
  | .compareExchange savedFlags => ⟨interruptsOn savedFlags, view.locked⟩
  | .call savedFlags acquired | .closure savedFlags acquired | .release savedFlags acquired =>
      ⟨interruptsOn savedFlags,
        if acquired then Function.update view.locked mutex false else view.locked⟩
  | .restore savedFlags => ⟨interruptsOn savedFlags, view.locked⟩
  | .leave => view

/-- What holds at each place.  Between the `cli` and the last statement interrupts
are masked, and from the exchange to the release the mutex is locked, by this call
or by an outer one. -/
def Fits (mutex : Mutex) (view : View Mutex) : Phase -> Prop
  | .readEflags => True
  | .cli savedFlags => view.interrupts = interruptsOn savedFlags
  | .compareExchange _ => view.interrupts = false
  | .call _ _ | .closure _ _ | .release _ _ =>
      view.interrupts = false ∧ view.locked mutex = true
  | .restore _ => view.interrupts = false
  | .leave => True

def calls : Phase -> Nat
  | .readEflags | .cli _ | .compareExchange _ | .call _ _ => 0
  | .closure _ _ | .release _ _ | .restore _ | .leave => 1

end Phase

namespace Frame

def before : Frame Mutex -> View Mutex -> View Mutex
  | .within mutex phase, view => phase.before mutex view
  | .handler flags, view => ⟨interruptsOn flags, view.locked⟩

def Fits : Frame Mutex -> View Mutex -> Prop
  | .within mutex phase, view => phase.Fits mutex view
  | .handler _, view => view.interrupts = false

end Frame

def Unlocked (view : View Mutex) : Prop :=
  forall mutex, view.locked mutex = false

def Sound (cpu : Cpu Mutex) : Prop :=
  Nested Frame.before Frame.Fits Unlocked cpu.frames cpu.view

variable {cpu next : Cpu Mutex} {mutex : Mutex} {outer : List (Frame Mutex)}

/-! ## The steps -/

/-- A statement of `with` keeps what was before the call. -/
theorem advance_keeps (phase : Phase) (fitting : phase.Fits mutex cpu.view)
    (innermost : cpu.frames = .within mutex phase :: outer) :
    Move Frame.before Frame.Fits cpu.frames cpu.view (cpu.advance mutex outer phase).frames
      (cpu.advance mutex outer phase).view := by
  rw [innermost]
  cases phase with
  | readEflags => exact .proceed _ _ rfl rfl
  | cli savedFlags => exact .proceed _ _ rfl (interruptsOn_masked _)
  | compareExchange savedFlags =>
      by_cases free : cpu.locked mutex = false
      · have taken : compareExchange cpu.locked mutex
            = (true, Function.update cpu.locked mutex true) := if_pos free
        simp only [Cpu.advance, taken]
        refine .proceed _ _ ?_ ⟨fitting, Function.update_self ..⟩
        simp only [Frame.before, Phase.before, Cpu.view, if_true, Function.update_idem]
        rw [← free, Function.update_eq_self]
      · have held : compareExchange cpu.locked mutex = (false, cpu.locked) := if_neg free
        simp only [Cpu.advance, held]
        exact .proceed _ _ rfl ⟨fitting, Bool.eq_true_of_not_eq_false free⟩
  | call savedFlags acquired => exact .proceed _ _ rfl fitting
  | closure savedFlags acquired => exact .proceed _ _ rfl fitting
  | release savedFlags acquired => exact .proceed _ _ rfl fitting.1
  | restore savedFlags =>
      refine .proceed _ _ (View.ext ?_ rfl) trivial
      simp only [Frame.before, Phase.before, Cpu.advance, Cpu.view]
      split
      next set => rw [interruptsOn_set, interruptsOn, decide_eq_true set]
      next clear => exact fitting.trans (decide_eq_false clear).symm
  | leave => exact .leave

namespace Step

variable {label : Nat × Event Mutex}

theorem depth (step : Step cpu label next) : label.1 = cpu.frames.length := by
  cases step <;> rfl

theorem of_begins (step : Step cpu label next) (begins : label.2 = .begins mutex) :
    next = { cpu with frames := .within mutex .readEflags :: cpu.frames } := by
  cases step with
  | begins client mutex' =>
      cases begins
      rfl
  | advance innermost =>
      rename_i phase outer
      cases phase <;> cases begins
  | computes | interrupts | iret => cases begins

theorem of_hardware (step : Step cpu label next) (hardware : label.2 = .interrupts .hardware) :
    interruptsOn cpu.eflags = true := by
  cases step with
  | interrupts source admitted =>
      cases hardware
      exact admitted rfl
  | advance innermost =>
      rename_i phase outer
      cases phase <;> cases hardware
  | computes | begins | iret => cases hardware

/-- Every step is a move between frames, except that the main program may change the
interrupt flag while there are none. -/
theorem move (step : Step cpu label next) (sound : Sound cpu) :
    Move Frame.before Frame.Fits cpu.frames cpu.view next.frames next.view ∨
      cpu.frames = [] ∧ next.frames = [] ∧ next.locked = cpu.locked := by
  cases step with
  | computes client eflags kept =>
      by_cases none : cpu.frames = []
      · exact Or.inr ⟨none, none, rfl⟩
      · rcases List.exists_cons_of_ne_nil none with ⟨frame, outer, frames⟩
        have same : Cpu.view { cpu with eflags := eflags } = cpu.view :=
          View.ext (kept none) rfl
        rw [Sound, frames] at sound
        refine Or.inl ?_
        rw [same]
        simp only [frames]
        exact .proceed frame _ rfl sound.1
  | begins client mutex => exact Or.inl (.enter _ _ rfl trivial)
  | advance innermost =>
      rw [Sound, innermost] at sound
      exact Or.inl (advance_keeps _ sound.1 innermost)
  | interrupts source admitted => exact Or.inl (.enter _ _ rfl (interruptsOn_masked _))
  | iret innermost =>
      refine Or.inl ?_
      rw [innermost]
      exact .leave

theorem move_inside (step : Step cpu label next) (sound : Sound cpu) {frame : Frame Mutex}
    (frames : cpu.frames = frame :: outer) :
    Move Frame.before Frame.Fits cpu.frames cpu.view next.frames next.view := by
  rcases step.move sound with move | ⟨none, _⟩
  · exact move
  · exact absurd (frames.symm.trans none) (List.cons_ne_nil _ _)

theorem sound (step : Step cpu label next) (sound : Sound cpu) : Sound next := by
  rcases step.move sound with move | ⟨none, stillNone, locked⟩
  · exact move.nested sound
  · rw [Sound, none] at sound
    rw [Sound, stillNone]
    intro mutex
    rw [Cpu.view, locked]
    exact sound mutex

end Step

/-! ## Locks and frames -/

/-- While a mutex is locked, interrupts are masked: some frame holds it, and code
inside that frame leaves the flag alone. -/
theorem masked_of_locked {frames : List (Frame Mutex)} {view : View Mutex}
    (nested : Nested Frame.before Frame.Fits Unlocked frames view)
    (locked : view.locked mutex = true) : view.interrupts = false := by
  induction frames generalizing view with
  | nil => exact absurd locked (by rw [nested mutex]; exact Bool.false_ne_true)
  | cons frame frames inductionHypothesis =>
      rcases nested with ⟨fitting, nested⟩
      cases frame with
      | handler flags => exact fitting
      | within mutex' phase =>
          cases phase with
          | readEflags => exact inductionHypothesis nested locked
          | cli savedFlags => exact fitting.trans (inductionHypothesis nested locked)
          | compareExchange savedFlags => exact fitting
          | call savedFlags acquired => exact fitting.1
          | closure savedFlags acquired => exact fitting.1
          | release savedFlags acquired => exact fitting.1
          | restore savedFlags => exact fitting
          | leave => exact inductionHypothesis nested locked

/-- What was locked before is still locked. -/
theorem locked_of_before {frame : Frame Mutex} {view : View Mutex}
    (locked : (frame.before view).locked mutex = true) : view.locked mutex = true := by
  have released : forall (mutex' : Mutex) (acquired : Bool),
      (if acquired then Function.update view.locked mutex' false else view.locked) mutex = true ->
        view.locked mutex = true := by
    intro mutex' acquired locked
    cases acquired with
    | false => exact locked
    | true =>
        rw [if_pos rfl] at locked
        by_cases same : mutex = mutex'
        · rw [same, Function.update_self] at locked
          exact absurd locked Bool.false_ne_true
        · rwa [Function.update_of_ne same] at locked
  cases frame with
  | handler flags => exact locked
  | within mutex' phase =>
      cases phase with
      | readEflags => exact locked
      | cli savedFlags => exact locked
      | compareExchange savedFlags => exact locked
      | call savedFlags acquired => exact released mutex' acquired locked
      | closure savedFlags acquired => exact released mutex' acquired locked
      | release savedFlags acquired => exact released mutex' acquired locked
      | restore savedFlags => exact locked
      | leave => exact locked

omit [DecidableEq Mutex] in
theorem Frame.Holds.locked {frame : Frame Mutex} (holds : frame.Holds mutex) {view : View Mutex}
    (fitting : frame.Fits view) : view.locked mutex = true := by
  cases frame with
  | handler flags => exact holds.elim
  | within mutex' phase =>
      cases phase with
      | readEflags => exact holds.elim
      | cli savedFlags => exact holds.elim
      | compareExchange savedFlags => exact holds.elim
      | call savedFlags acquired => exact holds.1 ▸ fitting.2
      | closure savedFlags acquired => exact holds.1 ▸ fitting.2
      | release savedFlags acquired => exact holds.1 ▸ fitting.2
      | restore savedFlags => exact holds.elim
      | leave => exact holds.elim

/-- The lock that a frame holds is locked, whatever is nested inside that frame. -/
theorem locked_of_holds {frames : List (Frame Mutex)} {view : View Mutex}
    (nested : Nested Frame.before Frame.Fits Unlocked frames view) {frame : Frame Mutex}
    (member : frame ∈ frames) (holds : frame.Holds mutex) : view.locked mutex = true := by
  induction frames generalizing view with
  | nil => exact absurd member List.not_mem_nil
  | cons innermost frames inductionHypothesis =>
      rcases List.mem_cons.mp member with rfl | deeper
      · exact holds.locked nested.1
      · exact locked_of_before (inductionHypothesis nested.2 deeper)

/-- Code that runs inside another frame leaves the lock of that frame alone. -/
theorem outer_kept (sound : Sound cpu) {frame : Frame Mutex} (deeper : frame ∈ cpu.frames.tail)
    (holds : frame.Holds mutex) {label : Nat × Event Mutex} (step : Step cpu label next) :
    next.locked mutex = true := by
  cases frames : cpu.frames with
  | nil => exact absurd deeper (by rw [frames]; exact List.not_mem_nil)
  | cons innermost outer =>
      rcases (step.move_inside sound frames).keeps_below [innermost] outer frames
        (List.cons_ne_nil _ _) with ⟨above, kept, _⟩
      have member : frame ∈ next.frames := by
        rw [kept]
        rw [frames] at deeper
        exact List.mem_append_right _ deeper
      exact locked_of_holds (step.sound sound) member holds

/-! ## A call from beginning to end -/

/-- The state inside a call of `with` that began at `start`: above the frame of the
call are those of the code nested in it. -/
structure Inside (mutex : Mutex) (start : Cpu Mutex) (labels : List (Nat × Event Mutex))
    (above : List (Frame Mutex)) (phase : Phase) (cpu : Cpu Mutex) : Prop where
  frames : cpu.frames = above ++ .within mutex phase :: start.frames
  before : unwind Frame.before (above ++ [.within mutex phase]) cpu.view = start.view
  calls : labels.count (start.frames.length + 1, .calls) = phase.calls

def GoesOn (mutex : Mutex) (start : Cpu Mutex) (labels : List (Nat × Event Mutex))
    (label : Nat × Event Mutex) (next : Cpu Mutex) : Prop :=
  label ≠ (start.frames.length + 1, .completes) ∧ Exists fun above => Exists fun phase =>
    Inside mutex start (labels ++ [label]) above phase next

/-- The call has returned, and the interrupt flag, the locks and the frames are as
they were. -/
structure Restored (start : Cpu Mutex) (labels : List (Nat × Event Mutex)) (next : Cpu Mutex) :
    Prop where
  frames : next.frames = start.frames
  view : next.view = start.view
  calls : labels.count (start.frames.length + 1, .calls) = 1

namespace Inside

variable {start : Cpu Mutex} {labels : List (Nat × Event Mutex)} {label : Nat × Event Mutex}
  {above : List (Frame Mutex)} {phase : Phase}

/-- A label that is no call of this closure does not count. -/
theorem count_other (different : label ≠ (start.frames.length + 1, .calls)) :
    (labels ++ [label]).count (start.frames.length + 1, .calls) =
      labels.count (start.frames.length + 1, .calls) := by
  have none : [label].count (start.frames.length + 1, .calls) = 0 := by
    apply List.count_eq_zero_of_not_mem
    rw [List.mem_singleton]
    exact different.symm
  rw [List.count_append, none, Nat.add_zero]

theorem nested_step {innermost : Frame Mutex}
    (inside : Inside mutex start labels (innermost :: above) phase cpu) (sound : Sound cpu)
    (step : Step cpu label next) :
    label.1 ≠ start.frames.length + 1 ∧
      Exists fun above' => Inside mutex start (labels ++ [label]) above' phase next := by
  have deeper : label.1 ≠ start.frames.length + 1 := by
    rw [step.depth, inside.frames, List.length_append, List.length_cons, List.length_cons]
    omega
  rcases (step.move_inside sound inside.frames).keeps_below _ _ inside.frames
    (List.cons_ne_nil _ _) with ⟨above', frames, unwound⟩
  refine ⟨deeper, above', frames, ?_, ?_⟩
  · rw [unwind_append, unwound, ← unwind_append]
    exact inside.before
  · rw [count_other (fun same => deeper (congrArg Prod.fst same)), inside.calls]

theorem goesOn (inside : Inside mutex start labels [] phase cpu) (sound : Sound cpu)
    (step : Step cpu label next) (unfinished : label.2 ≠ .completes)
    (above' : List (Frame Mutex)) {phase' : Phase}
    (frames' : next.frames = above' ++ .within mutex phase' :: start.frames)
    (calls : (labels ++ [label]).count (start.frames.length + 1, .calls) = phase'.calls) :
    GoesOn mutex start labels label next := by
  have frames : cpu.frames = .within mutex phase :: start.frames := inside.frames
  rcases (step.move_inside sound frames).keeps_below [_] _ frames (List.cons_ne_nil _ _) with
    ⟨kept, split, unwound⟩
  have same : kept ++ start.frames = (above' ++ [.within mutex phase']) ++ start.frames := by
    rw [← split, frames', List.append_assoc, List.singleton_append]
  refine ⟨fun completes => unfinished (congrArg Prod.snd completes), above', phase', frames', ?_,
    calls⟩
  rw [← List.append_cancel_right same, unwound]
  exact inside.before

theorem own_step (inside : Inside mutex start labels [] phase cpu) (sound : Sound cpu)
    (step : Step cpu label next) :
    GoesOn mutex start labels label next ∨ Restored start labels next := by
  have frames : cpu.frames = .within mutex phase :: start.frames := inside.frames
  have passes : label.2 ≠ .calls -> label.2 ≠ .completes -> forall above' phase',
      next.frames = above' ++ .within mutex phase' :: start.frames ->
      phase'.calls = phase.calls -> GoesOn mutex start labels label next := by
    intro other unfinished above' phase' frames' calls
    apply inside.goesOn sound step unfinished above' frames'
    rw [count_other (fun same => other (congrArg Prod.snd same)), inside.calls, calls]
  cases step with
  | computes client eflags kept => exact Or.inl (passes nofun nofun [] phase frames rfl)
  | begins client mutex' =>
      exact Or.inl (passes nofun nofun [_] phase (congrArg (_ :: ·) frames) rfl)
  | interrupts source admitted =>
      exact Or.inl (passes nofun nofun [_] phase (congrArg (_ :: ·) frames) rfl)
  | iret innermost =>
      rw [frames] at innermost
      cases innermost
  | advance innermost =>
      rw [frames] at innermost
      cases innermost
      cases phase with
      | readEflags => exact Or.inl (passes nofun nofun [] _ rfl rfl)
      | cli savedFlags => exact Or.inl (passes nofun nofun [] _ rfl rfl)
      | compareExchange savedFlags => exact Or.inl (passes nofun nofun [] _ rfl rfl)
      | call savedFlags acquired =>
          have depth : cpu.frames.length = start.frames.length + 1 := by
            rw [frames, List.length_cons]
          have uncalled : labels.count (start.frames.length + 1, .calls) = 0 := inside.calls
          refine Or.inl (inside.goesOn sound (.advance frames) nofun [] rfl ?_)
          rw [List.count_append, uncalled, depth, Nat.zero_add]
          exact List.count_singleton_self
      | closure savedFlags acquired => exact Or.inl (passes nofun nofun [] _ rfl rfl)
      | release savedFlags acquired => exact Or.inl (passes nofun nofun [] _ rfl rfl)
      | restore savedFlags => exact Or.inl (passes nofun nofun [] _ rfl rfl)
      | leave => exact Or.inr ⟨rfl, inside.before, inside.calls⟩

theorem step (inside : Inside mutex start labels above phase cpu) (sound : Sound cpu)
    (step : Step cpu label next) :
    GoesOn mutex start labels label next ∨ Restored start labels next := by
  cases above with
  | nil => exact inside.own_step sound step
  | cons innermost above =>
      rcases inside.nested_step sound step with ⟨deeper, above', inside⟩
      exact Or.inl ⟨fun completes => deeper (congrArg Prod.fst completes), above', phase, inside⟩

/-- As long as everything is done above the frame of the call, the call is not over,
or nothing was done since. -/
theorem run {entered last : Cpu Mutex} (run : Run Step entered labels last)
    (inside : Inside mutex start [] [] .readEflags entered) (sound : Sound entered)
    (deep : forall label, label ∈ labels -> start.frames.length < label.1) :
    Sound last ∧ ((Exists fun above => Exists fun phase =>
      Inside mutex start labels above phase last) ∨ last.frames = start.frames) := by
  induction run with
  | nil => exact ⟨sound, Or.inl ⟨[], .readEflags, inside⟩⟩
  | snoc _ last inductionHypothesis =>
      rcases inductionHypothesis (fun label member => deep label (List.mem_append_left _ member))
        with ⟨sound, ⟨above, phase, inside⟩ | ended⟩
      · refine ⟨last.sound sound, ?_⟩
        rcases inside.step sound last with goesOn | restored
        · exact Or.inl goesOn.2
        · exact Or.inr restored.frames
      · have below := deep _ (List.mem_append_right _ List.mem_cons_self)
        rw [last.depth, ended] at below
        exact absurd below (Nat.lt_irrefl _)

end Inside

theorem Completed.restores {labels : List (Nat × Event Mutex)} {finish : Cpu Mutex}
    (completed : Completed mutex cpu labels finish) (sound : Sound cpu) :
    Restored cpu labels finish := by
  rcases completed with ⟨entered, last, begins, run, deep, completes⟩
  have inside : Inside mutex cpu [] [] .readEflags entered := by
    rw [begins.of_begins rfl]
    exact ⟨rfl, rfl, rfl⟩
  rcases Inside.run run inside (begins.sound sound) deep with
    ⟨sound, ⟨above, phase, inside⟩ | ended⟩
  · rcases inside.step sound completes with goesOn | restored
    · exact absurd rfl goesOn.1
    · exact restored
  · have depth := completes.depth
    rw [ended] at depth
    exact absurd depth (Nat.succ_ne_self _)

/-- Calls of `with` leave the interrupt flag and all locks as they found them, run
their closure once and never wait; no nested call unlocks what an outer one locked,
and a hardware interrupt is only taken while nothing is locked. -/
theorem irqMutex_is_transparent {eflags : UInt32} {labels : List (Nat × Event Mutex)}
    (run : Run Step (Cpu.initial eflags) labels cpu) : Transparent cpu := by
  have sound : Sound cpu := run.invariant Sound (fun _ => rfl)
    (fun _ _ _ sound step => step.sound sound)
  refine ⟨?_, ?_, ?_, ?_⟩
  · intro mutex labels finish completed
    have restored := completed.restores sound
    exact ⟨congrArg View.interrupts restored.view, congrArg View.locked restored.view,
      restored.frames, restored.calls⟩
  · intro mutex phase outer innermost
    exact ⟨_, .advance innermost⟩
  · intro mutex outer deeper holds
    refine ⟨locked_of_holds sound (List.mem_of_mem_tail deeper) holds, ?_⟩
    intro label next step
    exact outer_kept sound deeper holds step
  · intro next interrupted mutex
    apply Bool.eq_false_iff.mpr
    intro locked
    have masked : interruptsOn cpu.eflags = false := masked_of_locked sound locked
    rw [interrupted.of_hardware rfl] at masked
    cases masked

inductive PrintLock where
  | vga
  | serial
  deriving DecidableEq, Repr

/-- `trigger_print_reentrancy`: a software interrupt while both writers are locked,
whose handler prints. -/
theorem irqMutex_is_transparent_reentrant :
    Exists fun labels => Exists fun cpu : Cpu PrintLock =>
      Run Step (Cpu.initial 0x202) labels cpu ∧ Transparent cpu ∧
      cpu.frames = [.handler 0x2, .within .serial (.closure 0x2 true),
        .within .vga (.closure 0x202 true)] ∧
      Exists fun inner => Exists fun finish =>
        Completed .vga cpu inner finish ∧ finish.locked .vga = true := by
  have run : Run Step (Cpu.initial 0x202 : Cpu PrintLock) _ _ :=
    Run.nil
      |>.snoc (.begins rfl .vga)
      |>.snoc (.advance rfl) |>.snoc (.advance rfl) |>.snoc (.advance rfl) |>.snoc (.advance rfl)
      |>.snoc (.begins rfl .serial)
      |>.snoc (.advance rfl) |>.snoc (.advance rfl) |>.snoc (.advance rfl) |>.snoc (.advance rfl)
      |>.snoc (.interrupts .software nofun)
  refine ⟨_, _, run, irqMutex_is_transparent run, rfl, _, _,
    ⟨_, _, .begins rfl PrintLock.vga, Run.nil
      |>.snoc (.advance rfl) |>.snoc (.advance rfl) |>.snoc (.advance rfl) |>.snoc (.advance rfl)
      |>.snoc (.advance rfl) |>.snoc (.advance rfl) |>.snoc (.advance rfl), ?_,
      @Step.advance _ _ _ .vga .leave _ rfl⟩, ?_⟩
  · decide
  · rfl

end Sync
end Goatos
