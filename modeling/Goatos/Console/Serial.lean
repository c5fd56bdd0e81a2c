import Mathlib.Data.List.Basic
import Goatos.Library.Loop

namespace Goatos
namespace Console

open Library

/-!
# The serial line

`send` offers a message to the UART until it is gone.  The device may be slow, may
never be ready, and may have nobody at its other end; printing must not hang on
any of this, so `send` drops the rest of a message rather than wait for ever.

The device is known by its answers, one for every round of the loop.
-/

/-- How long to wait for a device without capacity (`TRANSMIT_SPIN_LIMIT`). -/
def transmitSpinLimit : Nat := 1000000

/-- Why the device does not take a byte: its queue is full, or the other end is not
ready. -/
inductive ByteSendError where
  | noCapacity
  | remoteNotClearToSend
  deriving DecidableEq, Repr

/-- What the device answers in the rounds of the loop.  Of `send_bytes` it is only
known that it has sent as many of the first bytes as it returns. -/
structure Uart where
  readyToSend : (round : Nat) -> Except ByteSendError Unit
  sendBytes : (round : Nat) -> List UInt8 -> Nat
  sendBytes_le : forall round bytes, sendBytes round bytes ≤ bytes.length

/-- The variables of `send`, with the number of rounds made and the bytes that are
on the wire. -/
structure Sending where
  remaining : List UInt8
  spins : Nat
  round : Nat
  wire : List UInt8
  deriving DecidableEq, Repr

namespace Sending

def start (bytes : List UInt8) : Sending :=
  ⟨bytes, 0, 0, []⟩

def sent (state : Sending) (count : Nat) : Sending where
  remaining := state.remaining.drop count
  spins := 0
  round := state.round + 1
  wire := state.wire ++ state.remaining.take count

def spun (state : Sending) : Sending :=
  { state with spins := state.spins + 1, round := state.round + 1 }

end Sending

/-- One round.  If the other end is not clear to send, the driver writes one byte to
the transmit register itself. -/
def sendRound (uart : Uart) (state : Sending) : Pass Sending (List UInt8) :=
  if state.remaining.isEmpty then .leave state.wire
  else
    match uart.readyToSend state.round with
    | .ok _ =>
        match uart.sendBytes state.round state.remaining with
        | 0 => .leave state.wire
        | count + 1 => .again (state.sent (count + 1))
    | .error .noCapacity =>
        if state.spins + 1 > transmitSpinLimit then .leave state.wire
        else .again state.spun
    | .error .remoteNotClearToSend => .again (state.sent 1)

section Round

variable {uart : Uart} {state next : Sending} {wire : List UInt8}

/-- A round that is followed by another one has sent something or has spun. -/
theorem sendRound_again (passed : sendRound uart state = .again next) :
    (Exists fun count => 0 < count ∧ count ≤ state.remaining.length ∧ next = state.sent count) ∨
      (uart.readyToSend state.round = .error .noCapacity ∧ state.spins < transmitSpinLimit ∧
        next = state.spun) := by
  unfold sendRound at passed
  split at passed
  · cases passed
  · rename_i more
    have some : 0 < state.remaining.length := by
      rw [List.isEmpty_iff, ← List.length_eq_zero_iff] at more
      exact Nat.pos_of_ne_zero more
    split at passed
    · split at passed
      · cases passed
      · rename_i count answered
        cases passed
        have bound := uart.sendBytes_le state.round state.remaining
        rw [answered] at bound
        exact .inl ⟨count + 1, Nat.succ_pos _, bound, rfl⟩
    · rename_i full
      split at passed
      · cases passed
      · cases passed
        exact .inr ⟨full, by omega, rfl⟩
    · cases passed
      exact .inl ⟨1, Nat.one_pos, some, rfl⟩

/-- The last round leaves the wire alone, and has a reason to be the last: nothing
remains, or the device is given up on. -/
theorem sendRound_leave (passed : sendRound uart state = .leave wire) :
    wire = state.wire ∧ (state.remaining = [] ∨
      (state.remaining ≠ [] ∧ uart.sendBytes state.round state.remaining = 0) ∨
      (uart.readyToSend state.round = .error .noCapacity ∧ transmitSpinLimit ≤ state.spins)) := by
  unfold sendRound at passed
  split at passed
  · rename_i done
    cases passed
    exact ⟨rfl, .inl (List.isEmpty_iff.mp done)⟩
  · rename_i more
    rw [List.isEmpty_iff] at more
    split at passed
    · split at passed
      · rename_i refused
        cases passed
        exact ⟨rfl, .inr (.inl ⟨more, refused⟩)⟩
      · cases passed
    · rename_i full
      split at passed
      · cases passed
        exact ⟨rfl, .inr (.inr ⟨full, by omega⟩)⟩
      · cases passed
    · cases passed

end Round

/-- The rounds that may still be made: a full set of spins for every byte. -/
def Sending.measure (state : Sending) : Nat :=
  state.remaining.length * (transmitSpinLimit + 1) + (transmitSpinLimit - state.spins)

theorem Sending.measure_sent (state : Sending) {count : Nat} (some : 0 < count)
    (inside : count ≤ state.remaining.length) : (state.sent count).measure < state.measure := by
  have fewer : (state.sent count).remaining.length + 1 ≤ state.remaining.length := by
    rw [sent, List.length_drop]
    omega
  calc
    (state.sent count).measure ≤
        (state.sent count).remaining.length * (transmitSpinLimit + 1) + transmitSpinLimit :=
      Nat.add_le_add_left (Nat.sub_le _ _) _
    _ < ((state.sent count).remaining.length + 1) * (transmitSpinLimit + 1) := by
      rw [Nat.succ_mul]
      omega
    _ ≤ state.remaining.length * (transmitSpinLimit + 1) := Nat.mul_le_mul_right _ fewer
    _ ≤ state.measure := Nat.le_add_right _ _

theorem Sending.measure_spun (state : Sending) (few : state.spins < transmitSpinLimit) :
    state.spun.measure < state.measure := by
  unfold measure spun
  simp only
  omega

def sendLoop (uart : Uart) : WhileLoop Sending (List UInt8) where
  body := sendRound uart
  measure := Sending.measure
  decreases := by
    intro state next passed
    rcases sendRound_again passed with ⟨count, some, inside, rfl⟩ | ⟨_, few, rfl⟩
    · exact state.measure_sent some inside
    · exact state.measure_spun few

/-- The bytes that `send` puts on the wire, in their order. -/
def send (uart : Uart) (bytes : List UInt8) : List UInt8 :=
  (sendLoop uart).run (.start bytes)

/-! ## What arrives -/

/-- A device that always takes something when it is ready, and that is not without
capacity for longer than `send` waits. -/
structure Uart.Drains (uart : Uart) : Prop where
  sends : forall round bytes, bytes ≠ [] -> uart.sendBytes round bytes ≠ 0
  frees : forall round, Exists fun wait => wait ≤ transmitSpinLimit ∧
    uart.readyToSend (round + wait) ≠ .error .noCapacity

/-- What is on the wire and what remains make up the message, and the spins count
the rounds since the device last had capacity. -/
structure Sending.Tracks (uart : Uart) (bytes : List UInt8) (state : Sending) : Prop where
  whole : state.wire ++ state.remaining = bytes
  spins : state.spins ≤ state.round
  full : forall round, state.round ≤ round + state.spins -> round < state.round ->
    uart.readyToSend round = .error .noCapacity

namespace Sending.Tracks

variable {uart : Uart} {bytes wire : List UInt8} {state next : Sending}

theorem start (uart : Uart) (bytes : List UInt8) : Tracks uart bytes (.start bytes) :=
  ⟨rfl, Nat.le_refl _, fun _ _ before => absurd before (Nat.not_lt_zero _)⟩

theorem again (tracks : Tracks uart bytes state) (passed : sendRound uart state = .again next) :
    Tracks uart bytes next := by
  rcases sendRound_again passed with ⟨count, _, _, rfl⟩ | ⟨noCapacity, _, rfl⟩
  · refine ⟨?_, Nat.zero_le _, ?_⟩
    · rw [sent, List.append_assoc, List.take_append_drop, tracks.whole]
    · intro round atLeast below
      simp only [sent] at atLeast below
      omega
  · refine ⟨tracks.whole, Nat.succ_le_succ tracks.spins, ?_⟩
    intro round atLeast below
    simp only [spun] at atLeast below
    rcases Nat.lt_or_eq_of_le (Nat.le_of_lt_succ below) with earlier | rfl
    · exact tracks.full round (by omega) earlier
    · exact noCapacity

/-- A device that drains is not given up on, so nothing remains at the end. -/
theorem complete (tracks : Tracks uart bytes state) (drains : uart.Drains)
    (passed : sendRound uart state = .leave wire) : wire = bytes := by
  rcases sendRound_leave passed with ⟨rfl, done | ⟨more, refused⟩ | ⟨noCapacity, used⟩⟩
  · rw [← tracks.whole, done, List.append_nil]
  · exact absurd refused (drains.sends _ _ more)
  · have spins := tracks.spins
    rcases drains.frees (state.round - transmitSpinLimit) with ⟨wait, short, free⟩
    refine absurd ?_ free
    by_cases last : state.round - transmitSpinLimit + wait = state.round
    · rw [last]
      exact noCapacity
    · exact tracks.full _ (by omega) (by omega)

end Sending.Tracks

/-- Whatever the device answers, `send` returns, and what is on the wire is the
beginning of the message; it is all of it if the device drains. -/
theorem serial_send_terminates_in_order (uart : Uart) (bytes : List UInt8) :
    (Exists fun rounds => runFor (sendRound uart) rounds (.start bytes) = some (send uart bytes)) ∧
      send uart bytes <+: bytes ∧ (uart.Drains -> send uart bytes = bytes) := by
  have outcome : (sendLoop uart).run (.start bytes) <+: bytes ∧
      (uart.Drains -> (sendLoop uart).run (.start bytes) = bytes) := by
    refine (sendLoop uart).run_rule (fun state wire => Sending.Tracks uart bytes state ->
      wire <+: bytes ∧ (uart.Drains -> wire = bytes)) ?_ ?_ _ (Sending.Tracks.start uart bytes)
    · intro state wire passed tracks
      refine ⟨?_, fun drains => tracks.complete drains passed⟩
      rw [(sendRound_leave passed).1, ← tracks.whole]
      exact List.prefix_append _ _
    · intro state next wire passed rest tracks
      exact rest (tracks.again passed)
  exact ⟨⟨_, (sendLoop uart).runFor_of_lt (Nat.lt_succ_self _)⟩, outcome⟩

/-- A device that has capacity in every other round, for one byte. -/
def slowUart : Uart where
  readyToSend := fun round => if round % 2 = 0 then .error .noCapacity else .ok ()
  sendBytes := fun _ bytes => min 1 bytes.length
  sendBytes_le := fun _ _ => Nat.min_le_right _ _

theorem serial_send_slow : send slowUart [0x6f, 0x6b] = [0x6f, 0x6b] := by
  refine (serial_send_terminates_in_order slowUart [0x6f, 0x6b]).2.2 ⟨?_, ?_⟩
  · intro round bytes some none
    have length := List.length_pos_iff.mpr some
    simp only [slowUart] at none
    omega
  · intro round
    refine ⟨(round + 1) % 2, by unfold transmitSpinLimit; omega, ?_⟩
    have odd : (round + (round + 1) % 2) % 2 ≠ 0 := by omega
    simp only [slowUart, if_neg odd]
    exact fun full => nomatch full

end Console
end Goatos
