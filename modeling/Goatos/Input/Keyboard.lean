import Goatos.Input.Queue

namespace Goatos
namespace Input

/-!
# Scancodes

The keyboard sends a byte for every key pressed and released, of scancode set 1.
The driver remembers whether a byte belongs to an extended key and whether shift is
held, and puts what it can translate into the input queue.
-/

def scancodeExtended : UInt8 := 0xe0

def scancodeBreak : UInt8 := 0x80

def scanLshift : UInt8 := 0x2a

def scanRshift : UInt8 := 0x36

def scanEnter : UInt8 := 0x1c

def scanBackspace : UInt8 := 0x0e

def scanSpace : UInt8 := 0x39

def scanDot : UInt8 := 0x34

def scanMinus : UInt8 := 0x0c

/-- The state of the driver, and the queue it fills.  One bit stands for both Shift
keys. -/
structure Keyboard where
  extended : Bool
  shift : Bool
  /-- A 32-bit counter of the events that found room in the queue. -/
  enqueued : UInt32
  queue : Queue

def letter (lower : Char) (shift : Bool) : Char :=
  if shift then Char.ofNat (lower.toNat - 'a'.toNat + 'A'.toNat) else lower

/-- The event of a key that is pressed, by its make code.  Keys that are not listed
have none. -/
def translate (make : UInt8) (shift : Bool) : Option KeyEvent :=
  if make = scanEnter then some .enter
  else if make = scanBackspace then some .backspace
  else if make = scanSpace then some (.char ' ')
  else if make = scanDot then some (.char '.')
  else if make = scanMinus then some (.char (if shift then '_' else '-'))
  else
    match make with
    | 0x02 => some (.char '1')
    | 0x03 => some (.char '2')
    | 0x04 => some (.char '3')
    | 0x05 => some (.char '4')
    | 0x06 => some (.char '5')
    | 0x07 => some (.char '6')
    | 0x08 => some (.char '7')
    | 0x09 => some (.char '8')
    | 0x0a => some (.char '9')
    | 0x0b => some (.char '0')
    | 0x1e => some (.char (letter 'a' shift))
    | 0x30 => some (.char (letter 'b' shift))
    | 0x2e => some (.char (letter 'c' shift))
    | 0x20 => some (.char (letter 'd' shift))
    | 0x12 => some (.char (letter 'e' shift))
    | 0x21 => some (.char (letter 'f' shift))
    | 0x22 => some (.char (letter 'g' shift))
    | 0x23 => some (.char (letter 'h' shift))
    | 0x17 => some (.char (letter 'i' shift))
    | 0x24 => some (.char (letter 'j' shift))
    | 0x25 => some (.char (letter 'k' shift))
    | 0x26 => some (.char (letter 'l' shift))
    | 0x32 => some (.char (letter 'm' shift))
    | 0x31 => some (.char (letter 'n' shift))
    | 0x18 => some (.char (letter 'o' shift))
    | 0x19 => some (.char (letter 'p' shift))
    | 0x10 => some (.char (letter 'q' shift))
    | 0x13 => some (.char (letter 'r' shift))
    | 0x1f => some (.char (letter 's' shift))
    | 0x14 => some (.char (letter 't' shift))
    | 0x16 => some (.char (letter 'u' shift))
    | 0x2f => some (.char (letter 'v' shift))
    | 0x11 => some (.char (letter 'w' shift))
    | 0x2d => some (.char (letter 'x' shift))
    | 0x15 => some (.char (letter 'y' shift))
    | 0x2c => some (.char (letter 'z' shift))
    | _ => none

/-- What the interrupt handler does with one byte.  Extended keys are dropped, and of
other releases only those of the Shift keys matter. -/
def handleScancode (scancode : UInt8) (keyboard : Keyboard) : Keyboard :=
  if scancode = scancodeExtended then { keyboard with extended := true }
  else if keyboard.extended then { keyboard with extended := false }
  else
    let released : Bool := scancode &&& scancodeBreak ≠ 0
    let make := scancode &&& ~~~scancodeBreak
    if make = scanLshift ∨ make = scanRshift then { keyboard with shift := !released }
    else if released then keyboard
    else
      match translate make keyboard.shift with
      | some event =>
          let (pushed, queue) := keyboard.queue.push event
          { keyboard with
            queue := queue
            enqueued := if pushed then keyboard.enqueued + 1 else keyboard.enqueued }
      | none => keyboard

end Input
end Goatos
