import Mathlib.Data.List.Basic

namespace Goatos
namespace Library

/-!
# Devices known by their answers

Nothing is assumed of the device behind a range of ports: what it answers may
depend on everything that was done to it before.  A device is therefore a
function of the history of accesses, and code that drives it extends that
history.  The answers stand in the history, so that a result about the code can
speak of what the device delivered in the course of a run.
-/

/-- One access to a port, with the value written or answered. -/
inductive PortAccess where
  | wrote (port : UInt16) (value : UInt8)
  | readByte (port : UInt16) (value : UInt8)
  | readWord (port : UInt16) (value : UInt16)
  deriving DecidableEq, Repr

def PortAccess.isRead : PortAccess -> Bool
  | .wrote _ _ => false
  | _ => true

abbrev PortHistory := List PortAccess

def outb (port : UInt16) (value : UInt8) (history : PortHistory) : PortHistory :=
  history ++ [.wrote port value]

/-- What a device answers to a read of a byte or a word after a history.  It may
depend on all accesses before, and on nothing else. -/
structure PortDevice where
  byte : PortHistory -> UInt16 -> UInt8
  word : PortHistory -> UInt16 -> UInt16

namespace PortDevice

variable {device : PortDevice} {history first second : PortHistory}

def inb (device : PortDevice) (port : UInt16) (history : PortHistory) : UInt8 × PortHistory :=
  (device.byte history port, history ++ [.readByte port (device.byte history port)])

def inw (device : PortDevice) (port : UInt16) (history : PortHistory) : UInt16 × PortHistory :=
  (device.word history port, history ++ [.readWord port (device.word history port)])

/-- The access has the answer that the device gives after the history. -/
def Gives (device : PortDevice) (history : PortHistory) : PortAccess -> Prop
  | .wrote _ _ => True
  | .readByte port value => value = device.byte history port
  | .readWord port value => value = device.word history port

/-- All answers are those of the device, each after the accesses before it. -/
def Answers (device : PortDevice) : (history accesses : PortHistory) -> Prop
  | _, [] => True
  | history, access :: rest => device.Gives history access ∧ device.Answers (history ++ [access]) rest

theorem Answers.append (before : device.Answers history first)
    (after : device.Answers (history ++ first) second) :
    device.Answers history (first ++ second) := by
  induction first generalizing history with
  | nil => rwa [List.append_nil] at after
  | cons access rest inductionHypothesis =>
      refine ⟨before.1, inductionHypothesis before.2 ?_⟩
      rwa [List.append_assoc]

end PortDevice

end Library
end Goatos
