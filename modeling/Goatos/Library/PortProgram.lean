namespace Goatos
namespace Library

/-!
# Code that accesses ports

A program is a finite tree of accesses to ports and to memory: it goes on with the
byte that a port answers, and with what it found in the memory.  While it runs, the
devices behind the ports may change on their own.

`Ensures` is the weakest precondition of such a program over a bus.  The bus it
speaks of may be a coarser one than that of the machine: it has to keep only what
devices do not change on their own, and to say of the other reads that anything may
be answered.  Then what a program ensures survives its own steps and whatever the
devices do between them.
-/

inductive PortProgram (Memory Value : Type) where
  | done (value : Value)
  | outb (port : UInt16) (byte : UInt8) (next : PortProgram Memory Value)
  | inb (port : UInt16) (next : UInt8 -> PortProgram Memory Value)
  /-- Change the memory, and go on with what was there before. -/
  | atomic (change : Memory -> Memory) (next : Memory -> PortProgram Memory Value)

/-- What writing to a port does, and what reading from one may answer.  A write that
is not allowed has no result. -/
structure Bus (State : Type) where
  write : State -> UInt16 -> UInt8 -> Option State
  Reads : State -> UInt16 -> UInt8 -> Prop

/-- What a step of a program did.  Accesses to memory are not told apart. -/
inductive PortEvent where
  | wrote (port : UInt16) (byte : UInt8)
  | read (port : UInt16) (byte : UInt8)
  | computed
  deriving DecidableEq, Repr

/-- Bytes written, with their ports, oldest first. -/
abbrev Written := List (UInt16 × UInt8)

def PortEvent.written : PortEvent -> Written
  | .wrote port byte => [(port, byte)]
  | _ => []

/-- One bus gives a coarser view of another one: writes agree, every answer of the
finer one is an answer of the coarser one, and there always is one. -/
structure Bus.Abstracts {State View : Type} (bus : Bus State) (coarse : Bus View)
    (view : State -> View) : Prop where
  write : forall state port byte after, coarse.write (view state) port byte = some after ->
    Exists fun state' => bus.write state port byte = some state' ∧ view state' = after
  reads : forall state port byte, bus.Reads state port byte -> coarse.Reads (view state) port byte
  answers : forall state port, Exists fun byte => bus.Reads state port byte

namespace PortProgram

variable {Memory Value Value' State View : Type}

def bind : PortProgram Memory Value -> (Value -> PortProgram Memory Value') ->
    PortProgram Memory Value'
  | .done value, next => next value
  | .outb port byte rest, next => .outb port byte (rest.bind next)
  | .inb port rest, next => .inb port fun byte => (rest byte).bind next
  | .atomic change rest, next => .atomic change fun memory => (rest memory).bind next

instance : Monad (PortProgram Memory) where
  pure := .done
  bind := bind

inductive Step (bus : Bus State) : PortProgram Memory Value -> Memory -> State -> PortEvent ->
    PortProgram Memory Value -> Memory -> State -> Prop
  | outb {port : UInt16} {byte : UInt8} {next : PortProgram Memory Value} {memory : Memory}
      {state state' : State} (written : bus.write state port byte = some state') :
      Step bus (.outb port byte next) memory state (.wrote port byte) next memory state'
  | inb {port : UInt16} {next : UInt8 -> PortProgram Memory Value} {memory : Memory}
      {state : State} {byte : UInt8} (answer : bus.Reads state port byte) :
      Step bus (.inb port next) memory state (.read port byte) (next byte) memory state
  | atomic {change : Memory -> Memory} {next : Memory -> PortProgram Memory Value}
      {memory : Memory} {state : State} :
      Step bus (.atomic change next) memory state .computed (next memory) (change memory) state

/-- Whatever is answered, the program ends, and then with something that holds of its
value, of what was written and of the state of the bus. -/
def Ensures (bus : Bus State) (post : Value -> Written -> State -> Prop) :
    PortProgram Memory Value -> Written -> State -> Prop
  | .done value, written, state => post value written state
  | .outb port byte next, written, state => Exists fun state' =>
      bus.write state port byte = some state' ∧
        next.Ensures bus post (written ++ [(port, byte)]) state'
  | .inb port next, written, state => forall byte, bus.Reads state port byte ->
      (next byte).Ensures bus post written state
  | .atomic _ next, written, state => forall memory, (next memory).Ensures bus post written state

theorem ensures_bind {bus : Bus State} {post : Value' -> Written -> State -> Prop}
    {next : Value -> PortProgram Memory Value'} (program : PortProgram Memory Value)
    {written : Written} {state : State} :
    (program.bind next).Ensures bus post written state ↔
      program.Ensures bus (fun value => (next value).Ensures bus post) written state := by
  induction program generalizing written state with
  | done value => rfl
  | outb port byte rest inductionHypothesis =>
      simp only [bind, Ensures, inductionHypothesis]
  | inb port rest inductionHypothesis =>
      simp only [bind, Ensures, inductionHypothesis]
  | atomic change rest inductionHypothesis =>
      simp only [bind, Ensures, inductionHypothesis]

theorem Ensures.mono {bus : Bus State} {post post' : Value -> Written -> State -> Prop}
    (weaker : forall value written state, post value written state -> post' value written state)
    {program : PortProgram Memory Value} {written : Written} {state : State}
    (ensures : program.Ensures bus post written state) :
    program.Ensures bus post' written state := by
  induction program generalizing written state with
  | done value => exact weaker _ _ _ ensures
  | outb port byte rest inductionHypothesis =>
      rcases ensures with ⟨state', wrote, ensures⟩
      exact ⟨state', wrote, inductionHypothesis ensures⟩
  | inb port rest inductionHypothesis =>
      intro byte answer
      exact inductionHypothesis byte (ensures byte answer)
  | atomic change rest inductionHypothesis =>
      intro memory
      exact inductionHypothesis memory (ensures memory)

/-- One program after another: what the first one ensures is enough for the second
one. -/
theorem Ensures.andThen {bus : Bus State} {middle : Value -> Written -> State -> Prop}
    {post : Value' -> Written -> State -> Prop} {program : PortProgram Memory Value}
    {next : Value -> PortProgram Memory Value'} {written : Written} {state : State}
    (first : program.Ensures bus middle written state)
    (rest : forall value written state, middle value written state ->
      (next value).Ensures bus post written state) :
    (program >>= next).Ensures bus post written state :=
  (ensures_bind program).mpr (first.mono rest)

section Runs

variable {bus : Bus State} {coarse : Bus View} {view : State -> View}
  {post : Value -> Written -> View -> Prop} {program program' : PortProgram Memory Value}
  {memory memory' : Memory} {state state' : State} {event : PortEvent} {written : Written}

/-- What a program ensures, the rest of it ensures after a step, also if the step is
one of the finer bus. -/
theorem Ensures.step (ensures : program.Ensures coarse post written (view state))
    (abstracts : bus.Abstracts coarse view)
    (step : Step bus program memory state event program' memory' state') :
    program'.Ensures coarse post (written ++ event.written) (view state') := by
  cases step with
  | outb wrote =>
      rcases ensures with ⟨after, coarseWrote, ensures⟩
      rcases abstracts.write _ _ _ _ coarseWrote with ⟨state'', wrote', rfl⟩
      rw [wrote] at wrote'
      cases wrote'
      exact ensures
  | inb answer =>
      simp only [PortEvent.written, List.append_nil]
      exact ensures _ (abstracts.reads _ _ _ answer)
  | atomic =>
      simp only [PortEvent.written, List.append_nil]
      exact ensures _

end Runs

end PortProgram

end Library
end Goatos
