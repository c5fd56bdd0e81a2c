import Goatos.Interrupt.Handlers
import Goatos.Library.Transition

namespace Goatos
namespace Interrupt

open Library
open PortProgram

/-!
# Every interrupt is acknowledged once

The processor accepts an interrupt only while its interrupt flag is set, and enters
the handler with the flag clear.  Between any two accesses of a handler, requests and
masks may change.  The main program, while it runs, may change the flag and the
memory and install the two drivers.

An end-of-interrupt command names no line.  It ends the right one because handlers
do not nest: when a handler is entered, nothing but its own interrupt is in service,
and it tells exactly the controllers that have something in service.
-/

/-- A handler that has not returned: why it was entered, the flag that its `iret`
puts back, and what is left to do. -/
structure Activation where
  irq : Irq
  flag : Bool
  program : Handler

/-- The machine, with the handlers that have not returned, innermost first.  Nothing
in it keeps handlers from nesting. -/
structure System where
  pics : Pics
  interruptFlag : Bool
  idt : Idt
  kernel : Kernel
  running : List Activation

/-- The machine when interrupts are enabled for the first time: the controllers are
set up, and the vectors are those of `interrupts::init`. -/
def System.start (kernel : Kernel) : System where
  pics := .initialized
  interruptFlag := true
  idt := interruptsInit exceptionsInit
  kernel := kernel
  running := []

inductive Event where
  /-- Requests or masks change. -/
  | lines
  /-- The main program does something. -/
  | main
  | accepts (irq : Irq)
  /-- An access of the innermost handler. -/
  | handler (event : PortEvent)
  /-- The innermost handler returns. -/
  | returns (answer : Option Acknowledged)
  deriving DecidableEq, Repr

def Event.written : Event -> Written
  | .handler event => event.written
  | _ => []

/-- What can happen: the lines change, the main program does something, an interrupt
is accepted, or the innermost handler goes on or returns. -/
inductive Step : System -> Event -> System -> Prop
  | lines {system : System} (masterRequests masterMask slaveRequests slaveMask : UInt8) :
      Step system .lines
        { system with
          pics := system.pics.disturb masterRequests masterMask slaveRequests slaveMask }
  | main {system : System} (idle : system.running = []) (flag : Bool) (kernel : Kernel) :
      Step system .main { system with interruptFlag := flag, kernel := kernel }
  | installTimer {system : System} (idle : system.running = []) :
      Step system .main { system with idt := installTimer system.idt }
  | installKeyboard {system : System} (idle : system.running = []) :
      Step system .main { system with idt := installKeyboard system.idt }
  | accepts {system : System} (enabled : system.interruptFlag = true) (frame : StackFrame)
      (errorCode : UInt32) {handler : Handler}
      (found : (system.idt system.pics.acknowledge.1.vector).handler frame errorCode =
        some handler) :
      Step system (.accepts system.pics.acknowledge.1)
        { system with
          pics := system.pics.acknowledge.2
          interruptFlag := false
          running := ⟨system.pics.acknowledge.1, system.interruptFlag, handler⟩ :: system.running }
  | handler {system : System} {irq : Irq} {flag : Bool} {program program' : Handler}
      {outer : List Activation} {event : PortEvent} {kernel : Kernel} {pics : Pics}
      (innermost : system.running = ⟨irq, flag, program⟩ :: outer)
      (step : PortProgram.Step Pics.bus program system.kernel system.pics event program' kernel
        pics) :
      Step system (.handler event)
        { system with
          pics := pics
          kernel := kernel
          running := ⟨irq, flag, program'⟩ :: outer }
  | returns {system : System} {irq : Irq} {flag : Bool} {outer : List Activation}
      {answer : Option Acknowledged}
      (innermost : system.running = ⟨irq, flag, .done (.returned answer)⟩ :: outer) :
      Step system (.returns answer) { system with interruptFlag := flag, running := outer }

/-- A handler from its entry to its return, with changes of lines and masks in
between. -/
structure HandlerRun (system : System) (irq : Irq) (entered : System) (events : List Event)
    (last : System) (answer : Option Acknowledged) : Prop where
  accepts : Step system (.accepts irq) entered
  run : Run Step entered events last
  within : forall event, event ∈ events -> forall answer, event ≠ .returns answer
  returns : Exists fun finish => Step last (.returns answer) finish

/-- The innermost handler can run to its end. -/
def Completes (system : System) : Prop :=
  Exists fun events => Exists fun last => Exists fun answer => Exists fun finish =>
    Run Step system events last ∧
    (forall event, event ∈ events -> Exists fun access => event = .handler access) ∧
    Step last (.returns answer) finish

/-- How the kernel deals with interrupts in a state: what a handler that returns has
ended, that every handler can run to its end, and what can be accepted. -/
structure Acknowledges (system : System) : Prop where
  /-- Nothing is in service unless a handler runs. -/
  idle : system.running = [] ->
    system.pics.master.inService = 0 ∧ system.pics.slave.inService = 0
  /-- Every interrupt finds a handler, and none while another one runs. -/
  ready : system.interruptFlag = true ->
    system.running = [] ∧ Exists fun next => Step system (.accepts system.pics.acknowledge.1) next
  /-- A handler that was entered does not get stuck. -/
  completes : system.running ≠ [] -> Completes system
  /-- A handler clears the bits of its own interrupt and no others, tells each
  controller concerned once, and knows whether the interrupt was spurious. -/
  handled : forall irq entered events last answer,
    HandlerRun system irq entered events last answer ->
    entered.pics.master.inService &&& ~~~last.pics.master.inService = irq.masterBits ∧
    entered.pics.slave.inService &&& ~~~last.pics.slave.inService = irq.slaveBits ∧
    endsWritten (events.flatMap Event.written) = irq.commandPorts ∧
    Exists fun answered => answer = some answered ∧
      (answered = .spurious ↔ irq.spurious = true)

/-! ## What the handlers do to the controllers -/

def HandlerEnds (irq : Irq) (ending : Ending) (written : Written) (service : Service × Service) :
    Prop :=
  Exists fun answer => ending = .returned (some answer) ∧ Ended irq answer written service

section Handlers

variable {irq : Irq} {service : Service × Service}

theorem timerInterrupt_ensures (timer : irq.number = timerIrq)
    (master : service.1.inService = irq.masterBits) (slave : service.2.inService = irq.slaveBits) :
    timerInterrupt.Ensures serviceBus (HandlerEnds irq) [] service := by
  intro kernel
  apply (ensures_bind (endOfInterrupt timerIrq)).mpr
  rw [← timer]
  apply (endOfInterrupt_ensures master slave).mono
  intro answer written service ended
  exact ⟨answer, rfl, ended⟩

theorem keyboardInterrupt_ensures (keyboard : irq.number = keyboardIrq)
    (master : service.1.inService = irq.masterBits) (slave : service.2.inService = irq.slaveBits) :
    keyboardInterrupt.Ensures serviceBus (HandlerEnds irq) [] service := by
  intro status _
  by_cases full : status &&& statusOutputFull ≠ 0
  · simp only [PortProgram.bind, if_pos full]
    intro scancode _
    apply (ensures_bind (endOfInterrupt keyboardIrq)).mpr
    rw [← keyboard]
    apply (endOfInterrupt_ensures master slave).mono
    intro answer written service ended kernel
    exact ⟨answer, rfl, ended⟩
  · simp only [PortProgram.bind, if_neg full]
    apply (ensures_bind (endOfInterrupt keyboardIrq)).mpr
    rw [← keyboard]
    apply (endOfInterrupt_ensures master slave).mono
    intro answer written service ended
    exact ⟨answer, rfl, ended⟩

theorem irqOfVector_vector : forall irq : Irq, irqOfVector irq.vector = some irq.number := by
  decide

theorem not_exception : forall irq : Irq, ¬ irq.vector < exceptionVectorCount := by
  decide

theorem dispatch_ensures (frame : StackFrame) (errorCode : Option UInt32)
    (master : service.1.inService = irq.masterBits) (slave : service.2.inService = irq.slaveBits) :
    (dispatch irq.vector errorCode frame).Ensures serviceBus (HandlerEnds irq) [] service := by
  intro kernel kernel'
  apply (ensures_bind (endIfIrq (irqOfVector irq.vector))).mpr
  rw [irqOfVector_vector]
  apply (ensures_bind (endOfInterrupt irq.number)).mpr
  apply (endOfInterrupt_ensures master slave).mono
  intro answer written service ended
  have ends : HandlerEnds irq (.returned (some answer)) written service := ⟨answer, rfl, ended⟩
  simp only [if_neg (not_exception irq)]
  show Ensures serviceBus (HandlerEnds irq) (ite _ _ _) written service
  split
  · intro kernel
    exact ends
  · exact ends

/-- What the vectors of the controllers lead to: the catch-all, or the driver that
took the vector over. -/
def Wired (idt : Idt) : Prop :=
  forall irq : Irq, idt irq.vector = .unhandled irq.vector ∨
    irq.number = timerIrq ∧ idt irq.vector = .timer ∨
    irq.number = keyboardIrq ∧ idt irq.vector = .keyboard

theorem wired_start : Wired (interruptsInit exceptionsInit) := by
  have all : forall irq : Irq, interruptsInit exceptionsInit irq.vector = .unhandled irq.vector := by
    decide
  intro irq
  exact Or.inl (all irq)

theorem Wired.installTimer {idt : Idt} (wired : Wired idt) : Wired (installTimer idt) := by
  intro irq
  rw [Interrupt.installTimer]
  by_cases timer : irq.vector = irqVectorBase + timerIrq
  · have number : forall irq : Irq, irq.vector = irqVectorBase + timerIrq ->
        irq.number = timerIrq := by decide
    rw [timer, Function.update_self]
    exact Or.inr (Or.inl ⟨number irq timer, rfl⟩)
  · rw [Function.update_of_ne timer]
    exact wired irq

theorem Wired.installKeyboard {idt : Idt} (wired : Wired idt) : Wired (installKeyboard idt) := by
  intro irq
  rw [Interrupt.installKeyboard]
  by_cases keyboard : irq.vector = irqVectorBase + keyboardIrq
  · have number : forall irq : Irq, irq.vector = irqVectorBase + keyboardIrq ->
        irq.number = keyboardIrq := by decide
    rw [keyboard, Function.update_self]
    exact Or.inr (Or.inr ⟨number irq keyboard, rfl⟩)
  · rw [Function.update_of_ne keyboard]
    exact wired irq

/-- Every interrupt finds a handler, and that one ends it. -/
theorem Wired.handler_ensures {idt : Idt} (wired : Wired idt) (irq : Irq) (frame : StackFrame)
    (errorCode : UInt32) :
    Exists fun handler => (idt irq.vector).handler frame errorCode = some handler ∧
      forall service : Service × Service, service.1.inService = irq.masterBits ->
        service.2.inService = irq.slaveBits ->
        handler.Ensures serviceBus (HandlerEnds irq) [] service := by
  rcases wired irq with unhandled | ⟨timer, entry⟩ | ⟨keyboard, entry⟩
  · rw [unhandled]
    exact ⟨_, rfl, fun service master slave => dispatch_ensures frame none master slave⟩
  · rw [entry]
    exact ⟨_, rfl, fun service master slave => timerInterrupt_ensures timer master slave⟩
  · rw [entry]
    exact ⟨_, rfl, fun service master slave => keyboardInterrupt_ensures keyboard master slave⟩

end Handlers

/-! ## The handler that runs -/

/-- One handler runs, with interrupts masked, and the rest of it will end its
interrupt. -/
structure Handling (irq : Irq) (flag : Bool) (program : Handler) (written : Written)
    (system : System) : Prop where
  running : system.running = [⟨irq, flag, program⟩]
  masked : system.interruptFlag = false
  ensures : program.Ensures serviceBus (HandlerEnds irq) written system.pics.service

structure Idle (system : System) : Prop where
  running : system.running = []
  master : system.pics.master.inService = 0
  slave : system.pics.slave.inService = 0

variable {system next : System} {event : Event} {irq : Irq} {flag : Bool} {program : Handler}
  {written : Written}

theorem Step.wired (step : Step system event next) (wired : Wired system.idt) : Wired next.idt := by
  cases step with
  | lines | main | accepts | handler | returns => exact wired
  | installTimer idle => exact wired.installTimer
  | installKeyboard idle => exact wired.installKeyboard

namespace Handling

theorem access (handling : Handling irq flag program written system) {event : PortEvent}
    {program' : Handler} {kernel : Kernel} {pics : Pics}
    (step : PortProgram.Step Pics.bus program system.kernel system.pics event program' kernel pics) :
    Exists fun next => Step system (.handler event) next ∧
      Handling irq flag program' (written ++ event.written) next :=
  ⟨_, .handler handling.running step, rfl, handling.masked,
    handling.ensures.step bus_abstracts step⟩

theorem not_accepts (handling : Handling irq flag program written system) {irq' : Irq} :
    ¬ Step system (.accepts irq') next := by
  intro step
  cases step with
  | accepts enabled frame errorCode found =>
      rw [handling.masked] at enabled
      cases enabled

/-- A step while a handler runs: the handler goes on, or it returns and has ended its
interrupt. -/
theorem step (handling : Handling irq flag program written system)
    (step : Step system event next) :
    (forall answer, event ≠ .returns answer) ∧
      (Exists fun program' => Handling irq flag program' (written ++ event.written) next) ∨
    Exists fun answer => event = .returns (some answer) ∧ next.running = [] ∧
      next.pics = system.pics ∧ Ended irq answer written system.pics.service := by
  have busy : system.running ≠ [] := by
    rw [handling.running]
    exact List.cons_ne_nil _ _
  cases step with
  | lines masterRequests masterMask slaveRequests slaveMask =>
      have same : written ++ Event.lines.written = written := List.append_nil written
      refine Or.inl ⟨nofun, program, handling.running, handling.masked, ?_⟩
      rw [same]
      exact handling.ensures
  | main idle flag kernel => exact absurd idle busy
  | installTimer idle => exact absurd idle busy
  | installKeyboard idle => exact absurd idle busy
  | accepts enabled frame errorCode found =>
      exact absurd (.accepts enabled frame errorCode found) handling.not_accepts
  | handler innermost step =>
      rw [handling.running] at innermost
      cases innermost
      exact Or.inl ⟨nofun, _, rfl, handling.masked, handling.ensures.step bus_abstracts step⟩
  | returns innermost =>
      rw [handling.running] at innermost
      cases innermost
      rcases handling.ensures with ⟨answer, ending, ended⟩
      cases ending
      exact Or.inr ⟨answer, rfl, rfl, rfl, ended⟩

/-- Until the handler returns, it is the one that runs. -/
theorem run (handling : Handling irq flag program written system) {events : List Event}
    {last : System} (run : Run Step system events last)
    (within : forall event, event ∈ events -> forall answer, event ≠ .returns answer) :
    Exists fun program' =>
      Handling irq flag program' (written ++ events.flatMap Event.written) last := by
  induction run with
  | nil =>
      refine ⟨program, ?_⟩
      rw [List.flatMap_nil, List.append_nil]
      exact handling
  | snoc _ step inductionHypothesis =>
      rcases inductionHypothesis (fun event member => within event (List.mem_append_left _ member))
        with ⟨program', handling⟩
      rcases handling.step step with ⟨_, program'', handling⟩ | ⟨answer, returns, _⟩
      · refine ⟨program'', ?_⟩
        rw [List.flatMap_append, List.flatMap_singleton, ← List.append_assoc]
        exact handling
      · exact absurd returns (within _ (List.mem_append_right _ List.mem_cons_self) _)

end Handling

theorem Completes.access {event : PortEvent} (completes : Completes next)
    (step : Step system (.handler event) next) : Completes system := by
  rcases completes with ⟨events, last, answer, finish, run, accesses, returns⟩
  refine ⟨.handler event :: events, last, answer, finish, (Run.single step).append run, ?_, returns⟩
  intro event' member
  rcases List.mem_cons.mp member with rfl | later
  · exact ⟨event, rfl⟩
  · exact accesses event' later

theorem Handling.completes (handling : Handling irq flag program written system) :
    Completes system := by
  induction program generalizing written system with
  | done ending =>
      rcases handling.ensures with ⟨answer, ending, _⟩
      cases ending
      exact ⟨[], system, some answer, _, Run.nil, nofun, .returns handling.running⟩
  | outb port byte rest inductionHypothesis =>
      rcases handling.ensures with ⟨after, wrote, _⟩
      rcases bus_abstracts.write _ _ _ _ wrote with ⟨pics, wrote, _⟩
      rcases handling.access (.outb wrote) with ⟨next, step, handling⟩
      exact (inductionHypothesis handling).access step
  | inb port rest inductionHypothesis =>
      rcases bus_abstracts.answers system.pics port with ⟨byte, answer⟩
      rcases handling.access (.inb answer) with ⟨next, step, handling⟩
      exact (inductionHypothesis byte handling).access step
  | atomic change rest inductionHypothesis =>
      rcases handling.access .atomic with ⟨next, step, handling⟩
      exact (inductionHypothesis _ handling).access step

/-! ## All runs -/

/-- Nothing is in service, or one handler runs.  Two handlers never run at a time, as
each begins with interrupts masked. -/
def Sound (system : System) : Prop :=
  Wired system.idt ∧ (Idle system ∨ Exists fun irq => Exists fun flag => Exists fun program =>
    Exists fun written => Handling irq flag program written system)

theorem sound_start (kernel : Kernel) : Sound (.start kernel) :=
  ⟨wired_start, Or.inl ⟨rfl, rfl, rfl⟩⟩

theorem Idle.accepts (idle : Idle system) (wired : Wired system.idt)
    (step : Step system (.accepts irq) next) :
    (next.pics.master.inService = irq.masterBits ∧ next.pics.slave.inService = irq.slaveBits) ∧
      Exists fun flag => Exists fun program => Handling irq flag program [] next := by
  rcases acknowledge_inService idle.master idle.slave with ⟨master, slave⟩
  cases step with
  | accepts enabled frame errorCode found =>
      rcases wired.handler_ensures system.pics.acknowledge.1 frame errorCode with
        ⟨handler, registered, ensures⟩
      rw [found] at registered
      cases registered
      exact ⟨⟨master, slave⟩, system.interruptFlag, _,
        ⟨congrArg (_ :: ·) idle.running, rfl, ensures _ master slave⟩⟩

theorem Step.sound (step : Step system event next) (sound : Sound system) : Sound next := by
  refine ⟨step.wired sound.1, ?_⟩
  rcases sound with ⟨wired, idle | ⟨irq, flag, program, written, handling⟩⟩
  · cases step with
    | lines => exact Or.inl ⟨idle.running, idle.master, idle.slave⟩
    | main => exact Or.inl ⟨idle.running, idle.master, idle.slave⟩
    | installTimer => exact Or.inl ⟨idle.running, idle.master, idle.slave⟩
    | installKeyboard => exact Or.inl ⟨idle.running, idle.master, idle.slave⟩
    | accepts enabled frame errorCode found =>
        rcases idle.accepts wired (.accepts enabled frame errorCode found) with
          ⟨_, flag, program, handling⟩
        exact Or.inr ⟨_, flag, program, [], handling⟩
    | handler innermost step =>
        rw [idle.running] at innermost
        cases innermost
    | returns innermost =>
        rw [idle.running] at innermost
        cases innermost
  · rcases handling.step step with ⟨_, program', handling⟩ | ⟨answer, _, running, pics, ended⟩
    · exact Or.inr ⟨irq, flag, program', _, handling⟩
    · refine Or.inl ⟨running, ?_, ?_⟩
      · rw [pics]
        exact ended.master
      · rw [pics]
        exact ended.slave

theorem Sound.handled (sound : Sound system) {entered last : System} {events : List Event}
    {answer : Option Acknowledged} (run : HandlerRun system irq entered events last answer) :
    Exists fun answered => answer = some answered ∧
      entered.pics.master.inService = irq.masterBits ∧
      entered.pics.slave.inService = irq.slaveBits ∧
      Ended irq answered (events.flatMap Event.written) last.pics.service := by
  rcases sound with ⟨wired, idle | ⟨irq', flag, program, written, handling⟩⟩
  · rcases idle.accepts wired run.accepts with ⟨⟨master, slave⟩, flag, program, handling⟩
    rcases handling.run run.run run.within with ⟨program', handling⟩
    rcases run.returns with ⟨finish, returns⟩
    rcases handling.step returns with ⟨goesOn, _⟩ | ⟨answered, returned, _, _, ended⟩
    · exact absurd rfl (goesOn answer)
    · cases returned
      exact ⟨answered, rfl, master, slave, ended⟩
  · exact absurd run.accepts handling.not_accepts

/-- However lines and masks change, every handler ends its own interrupt and no other. -/
theorem interrupts_are_acknowledged {kernel : Kernel} {events : List Event}
    (run : Run Step (.start kernel) events system) : Acknowledges system := by
  have sound : Sound system := run.invariant Sound (sound_start kernel)
    (fun _ _ _ sound step => step.sound sound)
  have cleared : forall bits : UInt8, bits &&& ~~~0 = bits := fun bits => by simp
  refine ⟨?_, ?_, ?_, ?_⟩
  · intro none
    rcases sound.2 with idle | ⟨irq, flag, program, written, handling⟩
    · exact ⟨idle.master, idle.slave⟩
    · rw [handling.running] at none
      cases none
  · intro enabled
    rcases sound.2 with idle | ⟨irq, flag, program, written, handling⟩
    · rcases sound.1.handler_ensures system.pics.acknowledge.1 ⟨0, 0, 0⟩ 0 with ⟨handler, found, _⟩
      exact ⟨idle.running, _, .accepts enabled _ _ found⟩
    · rw [handling.masked] at enabled
      cases enabled
  · intro busy
    rcases sound.2 with idle | ⟨irq, flag, program, written, handling⟩
    · exact absurd idle.running busy
    · exact handling.completes
  · intro irq entered events last answer handlerRun
    rcases sound.handled handlerRun with ⟨answered, answer, master, slave, ended⟩
    have masterEnded : last.pics.master.inService = 0 := ended.master
    have slaveEnded : last.pics.slave.inService = 0 := ended.slave
    rw [master, slave, masterEnded, slaveEnded, cleared, cleared]
    exact ⟨rfl, rfl, ended.ends, answered, answer, ended.answer⟩

def Kernel.initial : Kernel where
  ticks := 0
  unhandledTotal := 0
  reported := Vector.replicate 8 0
  keyboard := ⟨false, false, 0, .new⟩
  printed := []

/-- The machine with a request on the line between the controllers, and none at the
slave any more. -/
def withdrawn : System :=
  { System.start .initial with pics := Pics.initialized.disturb 0b100 0 0 0 }

/-- What the catch-all does to the ports then: it finds nothing in service at the slave
and ends the line between the controllers only. -/
def withdrawnEvents : List Event :=
  [.handler .computed, .handler .computed, .handler (.wrote slaveCommand ocw3ReadInService),
    .handler (.read slaveCommand 0), .handler (.wrote masterCommand ocw2EndOfInterrupt),
    .handler .computed]

theorem withdrawn_handled :
    Exists fun entered => Exists fun last => Exists fun finish =>
      HandlerRun withdrawn .spuriousSlave entered withdrawnEvents last (some .spurious) ∧
      entered.pics.master.inService = lineBit 2 ∧ entered.pics.slave.inService = 0 ∧
      last.pics.master.inService = 0 ∧ Step last (.returns (some .spurious)) finish ∧
      finish.running = [] := by
  have within : forall event, event ∈ withdrawnEvents -> forall answer, event ≠ .returns answer := by
    simp [withdrawnEvents]
  -- The handler counts the interrupt, marks its vector as reported, asks the slave, ends
  -- the interrupt at the master and prints its report.
  exact ⟨_, _, _, ⟨.accepts rfl ⟨0, 0, 0⟩ 0 rfl,
    .cons (.handler rfl .atomic) <| .cons (.handler rfl .atomic) <|
      .cons (.handler rfl (.outb rfl)) <| .cons (.handler rfl (.inb rfl)) <|
      .cons (.handler rfl (.outb rfl)) <| .cons (.handler rfl .atomic) .nil,
    within, _, .returns rfl⟩, by decide, by decide, by decide, .returns rfl, rfl⟩

/-- The interrupt that follows is a spurious one of the slave, from its acceptance to
the return of its handler. -/
theorem interrupts_are_acknowledged_spurious :
    Run Step (.start .initial) [.lines] withdrawn ∧ Acknowledges withdrawn ∧
      Exists fun entered => Exists fun last => Exists fun finish =>
        HandlerRun withdrawn .spuriousSlave entered withdrawnEvents last (some .spurious) ∧
        Acknowledges entered ∧ entered.pics.master.inService = lineBit 2 ∧
        entered.pics.slave.inService = 0 ∧ last.pics.master.inService = 0 ∧
        Step last (.returns (some .spurious)) finish ∧ Acknowledges finish ∧
        finish.running = [] := by
  have raised : Run Step (.start .initial) [.lines] withdrawn :=
    .cons (.lines 0b100 0 0 0) .nil
  rcases withdrawn_handled with
    ⟨entered, last, finish, handled, master, slave, ended, returned, idle⟩
  have reached := raised.snoc handled.accepts
  exact ⟨raised, interrupts_are_acknowledged raised, entered, last, finish, handled,
    interrupts_are_acknowledged reached, master, slave, ended, returned,
    interrupts_are_acknowledged ((reached.append handled.run).snoc returned), idle⟩

end Interrupt
end Goatos
