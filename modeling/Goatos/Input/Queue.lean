import Goatos.Library.Ring
import Goatos.Library.Transition
import Goatos.Library.Word

namespace Goatos
namespace Input

open Library

/-!
# The input queue

The keyboard interrupt pushes translated keys and the shell pops them.  Both
sides take the lock, so calls are atomic and a history of the queue is a sequence
of calls, in whatever order the two sides make them.

The queue keeps the next slot to write, the next slot to read and the number of
events redundantly.  Every assignment to a slot number is reduced modulo the
capacity, so slot numbers are positions in the array by their type.
-/

def capacity : Nat := 64

/-- A translated key: all that the shell is told of a stroke. -/
inductive KeyEvent where
  | char (c : Char)
  | enter
  | backspace
  deriving DecidableEq, Repr

structure Queue where
  /-- The storage. -/
  buf : Vector KeyEvent capacity
  /-- Next slot to write. -/
  head : Fin capacity
  /-- Next slot to read. -/
  tail : Fin capacity
  /-- How many events are currently stored. -/
  len : Nat
  /-- Events dropped because the queue was full, a 32-bit counter. -/
  dropped : Nat
  deriving DecidableEq

namespace Queue

def new : Queue where
  buf := Vector.replicate capacity (.char '\x00')
  head := ⟨0, by decide⟩
  tail := ⟨0, by decide⟩
  len := 0
  dropped := 0

/-- Store an event, or count it as dropped if there is no room.  The count of dropped
events stops at the largest word. -/
def push (queue : Queue) (event : KeyEvent) : Bool × Queue :=
  if queue.len = capacity then
    (false, { queue with dropped := saturatingAdd 32 queue.dropped 1 })
  else
    (true, { queue with
      buf := queue.buf.set queue.head.val event queue.head.isLt
      head := ringIndex queue.head 1
      len := queue.len + 1 })

/-- Remove and return the oldest event. -/
def pop (queue : Queue) : Option KeyEvent × Queue :=
  if queue.len = 0 then (none, queue)
  else
    (some (queue.buf.get queue.tail), { queue with
      tail := ringIndex queue.tail 1
      len := queue.len - 1 })

/-- The events in the live slots, oldest first: as many as the count says, from the
next slot to read on. -/
def stored (queue : Queue) : List KeyEvent :=
  ringItems queue.buf queue.tail queue.len

/-- The slot numbers and the count agree, and the count fits the array.  This is what
the redundant fields owe each other. -/
structure Consistent (queue : Queue) : Prop where
  head : queue.head = ringIndex queue.tail queue.len
  len : queue.len ≤ capacity

@[simp] theorem length_stored (queue : Queue) : queue.stored.length = queue.len :=
  length_ringItems _ _ _

theorem push_full {queue : Queue} (full : queue.len = capacity) (event : KeyEvent) :
    queue.push event = (false, { queue with dropped := saturatingAdd 32 queue.dropped 1 }) := by
  rw [push, if_pos full]

/-- With room, a push appends its event to the live slots. -/
theorem push_room {queue : Queue} (consistent : queue.Consistent) (room : queue.len ≠ capacity)
    (event : KeyEvent) :
    (queue.push event).1 = true ∧ (queue.push event).2.Consistent ∧
      (queue.push event).2.stored = queue.stored ++ [event] ∧
      (queue.push event).2.dropped = queue.dropped := by
  have below : queue.len < capacity := Nat.lt_of_le_of_ne consistent.len room
  rw [push, if_neg room]
  refine ⟨rfl, ⟨?_, below⟩, ?_, rfl⟩
  · simp only [consistent.head, ringIndex_ringIndex]
  · have appended := ringItems_push queue.buf queue.tail below event
    rw [← consistent.head] at appended
    exact appended

theorem pop_empty {queue : Queue} (empty : queue.len = 0) : queue.pop = (none, queue) := by
  rw [pop, if_pos empty]

/-- A pop takes the head of the live slots. -/
theorem pop_nonempty {queue : Queue} (consistent : queue.Consistent) (some : queue.len ≠ 0) :
    Exists fun event => queue.pop.1 = .some event ∧ queue.pop.2.Consistent ∧
      queue.stored = event :: queue.pop.2.stored ∧ queue.pop.2.dropped = queue.dropped := by
  rcases Nat.exists_eq_succ_of_ne_zero some with ⟨rest, count⟩
  have bound := consistent.len
  rw [pop, if_neg some]
  refine ⟨queue.buf.get queue.tail, rfl, ⟨?_, by simp only; omega⟩, ?_, rfl⟩
  · simp only [consistent.head, ringIndex_ringIndex, count]
    rw [Nat.succ_sub_one, Nat.add_comm]
  · rw [stored, stored]
    simp only [count]
    exact ringItems_succ _ _ _

end Queue

/-! ## Histories -/

/-- A call on the queue with its answer, as the side that makes it sees it. -/
inductive QueueCall where
  | push (event : KeyEvent) (accepted : Bool)
  | pop (answer : Option KeyEvent)
  deriving DecidableEq, Repr

/-- One call, by whichever side. -/
inductive QueueStep : Queue -> QueueCall -> Queue -> Prop
  | push (queue : Queue) (event : KeyEvent) :
      QueueStep queue (.push event (queue.push event).1) (queue.push event).2
  | pop (queue : Queue) : QueueStep queue (.pop queue.pop.1) queue.pop.2

def acceptedEvents (calls : List QueueCall) : List KeyEvent :=
  calls.filterMap fun
    | .push event true => some event
    | _ => none

def poppedEvents (calls : List QueueCall) : List KeyEvent :=
  calls.filterMap fun
    | .pop answer => answer
    | _ => none

def refusedPushes (calls : List QueueCall) : Nat :=
  calls.countP fun
    | .push _ false => true
    | _ => false

section Snoc

variable (calls : List QueueCall) (event : KeyEvent)

@[simp] theorem poppedEvents_push (accepted : Bool) :
    poppedEvents (calls ++ [.push event accepted]) = poppedEvents calls := by
  simp [poppedEvents]

@[simp] theorem poppedEvents_pop (answer : Option KeyEvent) :
    poppedEvents (calls ++ [.pop answer]) = poppedEvents calls ++ answer.toList := by
  cases answer with
  | none => simp [poppedEvents]
  | some event => simp [poppedEvents]

@[simp] theorem acceptedEvents_push (accepted : Bool) :
    acceptedEvents (calls ++ [.push event accepted]) =
      acceptedEvents calls ++ if accepted then [event] else [] := by
  cases accepted with
  | false => simp [acceptedEvents]
  | true => simp [acceptedEvents]

@[simp] theorem acceptedEvents_pop (answer : Option KeyEvent) :
    acceptedEvents (calls ++ [.pop answer]) = acceptedEvents calls := by
  simp [acceptedEvents]

@[simp] theorem refusedPushes_push (accepted : Bool) :
    refusedPushes (calls ++ [.push event accepted]) =
      refusedPushes calls + if accepted then 0 else 1 := by
  cases accepted with
  | false => simp [refusedPushes]
  | true => simp [refusedPushes]

@[simp] theorem refusedPushes_pop (answer : Option KeyEvent) :
    refusedPushes (calls ++ [.pop answer]) = refusedPushes calls := by
  simp [refusedPushes]

end Snoc

/-- What a history says about the queue it leads to, and what the next call will
do there. -/
structure LosslessFifo (calls : List QueueCall) (queue : Queue) : Prop where
  order : poppedEvents calls ++ queue.stored = acceptedEvents calls
  refused : forall event, (queue.push event).1 = false ↔ queue.stored.length = 64
  refusal : forall event, (queue.push event).1 = false ->
    (queue.push event).2 = { queue with dropped := (queue.push event).2.dropped }
  emptyPop : queue.pop.1 = none ↔ queue.stored = []
  dropped : queue.dropped = min (refusedPushes calls) (2 ^ 32 - 1)

/-- One more call keeps the order of events and the drop count in step with the
history. -/
theorem QueueStep.history {calls : List QueueCall} {queue next : Queue} {call : QueueCall}
    (step : QueueStep queue call next) (consistent : queue.Consistent)
    (order : poppedEvents calls ++ queue.stored = acceptedEvents calls)
    (dropped : queue.dropped = min (refusedPushes calls) (2 ^ 32 - 1)) :
    next.Consistent ∧
      poppedEvents (calls ++ [call]) ++ next.stored = acceptedEvents (calls ++ [call]) ∧
      next.dropped = min (refusedPushes (calls ++ [call])) (2 ^ 32 - 1) := by
  cases step with
  | push event =>
      rw [poppedEvents_push, acceptedEvents_push, refusedPushes_push]
      by_cases full : queue.len = capacity
      · rw [Queue.push_full full]
        refine ⟨⟨consistent.head, consistent.len⟩, ?_, ?_⟩
        · exact order.trans (List.append_nil _).symm
        · simp only [dropped, saturatingAdd, Bool.false_eq_true, if_false]
          omega
      · rcases Queue.push_room consistent full event with ⟨accepted, kept, appended, same⟩
        rw [accepted]
        refine ⟨kept, ?_, same.trans dropped⟩
        rw [appended, ← List.append_assoc, order]
        rfl
  | pop =>
      rw [poppedEvents_pop, acceptedEvents_pop, refusedPushes_pop]
      by_cases empty : queue.len = 0
      · rw [Queue.pop_empty empty]
        refine ⟨consistent, ?_, dropped⟩
        rwa [Option.toList_none, List.append_nil]
      · rcases Queue.pop_nonempty consistent empty with ⟨event, answer, kept, split, same⟩
        rw [answer]
        refine ⟨kept, ?_, same.trans dropped⟩
        rw [Option.toList_some, List.append_assoc, List.singleton_append, ← split, order]

/-- However the two sides interleave their calls, the queue is a bounded FIFO
that loses nothing it accepted. -/
theorem queue_is_lossless_fifo {calls : List QueueCall} {queue : Queue}
    (run : Run QueueStep Queue.new calls queue) : LosslessFifo calls queue := by
  have history : queue.Consistent ∧ poppedEvents calls ++ queue.stored = acceptedEvents calls ∧
      queue.dropped = min (refusedPushes calls) (2 ^ 32 - 1) := by
    induction run with
    | nil => exact ⟨⟨rfl, by decide⟩, rfl, rfl⟩
    | snoc _ last inductionHypothesis =>
        rcases inductionHypothesis with ⟨consistent, order, dropped⟩
        exact last.history consistent order dropped
  rcases history with ⟨consistent, order, dropped⟩
  refine ⟨order, ?_, ?_, ?_, dropped⟩
  · intro event
    rw [Queue.length_stored]
    by_cases full : queue.len = capacity
    · rw [Queue.push_full full]
      exact iff_of_true rfl full
    · rw [(Queue.push_room consistent full event).1]
      exact iff_of_false Bool.noConfusion full
  · intro event refused
    by_cases full : queue.len = capacity
    · rw [Queue.push_full full]
    · rw [(Queue.push_room consistent full event).1] at refused
      cases refused
  · rw [← List.length_eq_zero_iff, Queue.length_stored]
    by_cases empty : queue.len = 0
    · rw [Queue.pop_empty empty]
      exact iff_of_true rfl empty
    · rcases Queue.pop_nonempty consistent empty with ⟨event, answer, _⟩
      rw [answer]
      exact iff_of_false (fun impossible => nomatch impossible) empty

/-- Two keys arrive and one is taken; the other is still stored. -/
theorem queue_is_lossless_fifo_typed :
    let calls : List QueueCall := [.push (.char 'g') true, .push .enter true, .pop (some (.char 'g'))]
    Exists fun queue => Run QueueStep Queue.new calls queue ∧ LosslessFifo calls queue ∧
      queue.stored = [.enter] := by
  intro calls
  have run : Run QueueStep Queue.new calls _ :=
    ((Run.nil.snoc (QueueStep.push Queue.new (.char 'g'))).snoc (QueueStep.push _ .enter)).snoc
      (QueueStep.pop _)
  exact ⟨_, run, queue_is_lossless_fifo run, by decide⟩

end Input
end Goatos
