import Goatos.Console.Vga
import Goatos.Input.Queue
import Goatos.Storage.Fs

namespace Goatos
namespace Console

open Library
open Input
open Storage

/-!
# The shell

Typed characters go into a line buffer and are echoed, backspace takes the last one
back, and enter hands the line to the built-in commands.  Everything is printed
twice, on the screen and on the serial line; the serial line is the record of what
was asked to be sent.

A `&str` is a list of characters.  What the file system answers is a parameter, and
the commands are defined for every answer.
-/

def lineCapacity : Nat := 72

def prompt : List Char := "> ".toList

def utf8 (text : List Char) : List UInt8 :=
  text.flatMap String.utf8EncodeChar

/-- `core::str::from_utf8` -/
def fromUtf8 (bytes : List UInt8) : Option (List Char) :=
  bytes.toByteArray.utf8Decode?.map Array.toList

/-- `char::is_whitespace`: the characters with the property `White_Space`. -/
def isWhitespace (c : Char) : Bool :=
  let code := c.toNat
  (0x09 ≤ code && code ≤ 0x0d) || code == 0x20 || code == 0x85 || code == 0xa0 ||
    code == 0x1680 || (0x2000 ≤ code && code ≤ 0x200a) || code == 0x2028 || code == 0x2029 ||
    code == 0x202f || code == 0x205f || code == 0x3000

def trimStart (text : List Char) : List Char :=
  text.dropWhile isWhitespace

/-- `trim`: the text without the white space at both ends. -/
def trim (text : List Char) : List Char :=
  ((trimStart text).reverse.dropWhile isWhitespace).reverse

/-- The screen and what was sent to the serial line.  The shell prints to both. -/
structure Terminal where
  screen : Screen
  serial : List UInt8

namespace Terminal

def vgaPrint (terminal : Terminal) (text : List Char) : Option Terminal := do
  let screen ← terminal.screen.writeString (utf8 text)
  some { terminal with screen := screen }

/-- `serial_print!`.  Nothing is lost on the way: how the bytes are sent is a matter
of the driver. -/
def serialPrint (terminal : Terminal) (text : List Char) : Terminal :=
  { terminal with serial := terminal.serial ++ utf8 text }

def vgaPrintln (terminal : Terminal) (text : List Char) : Option Terminal :=
  terminal.vgaPrint (text ++ ['\n'])

def serialPrintln (terminal : Terminal) (text : List Char) : Terminal :=
  terminal.serialPrint (text ++ ['\n'])

/-- Some lines on the screen and then the same on the serial line. -/
def say (terminal : Terminal) (lines : List (List Char)) : Option Terminal := do
  let terminal ← lines.foldlM vgaPrintln terminal
  some (lines.foldl serialPrintln terminal)

end Terminal

/-! ## The built-in commands -/

/-- What the file system answers to a path: the bytes of the file, or an error. -/
abbrev Files := List Char -> Except FsError (List UInt8)

def ataErrorText : AtaError -> List Char
  | .notPresent => "not present".toList
  | .timeout => "timeout".toList
  | .driveError => "drive error".toList
  | .badArgument => "bad argument".toList

/-- The text of an error of the file system, as `Display` writes it.  Errors of the
disk have texts of their own. -/
def fsErrorText : FsError -> List Char
  | .ata error => "ata: ".toList ++ ataErrorText error
  | .badSuperblock => "bad superblock".toList
  | .badDirectory => "bad directory".toList
  | .notMounted => "not mounted".toList
  | .notFound => "not found".toList
  | .tooLarge => "file too large".toList

/-- The first word of a line and the rest without the blanks between them.  A line
without blanks is a word without arguments. -/
def splitCommand (line : List Char) : List Char × List Char :=
  let trimmed := trimStart line
  match trimmed.findIdx? isWhitespace with
  | some index => (trimmed.take index, trimStart (trimmed.drop index))
  | none => (trimmed, [])

def cmdHelp (terminal : Terminal) : Option Terminal :=
  terminal.say
    ["Built-in commands:".toList,
     "  help   - list commands".toList,
     "  clear  - clear the VGA screen".toList,
     "  echo   - print arguments".toList,
     "  about  - about GOATos".toList,
     "  cat    - print a file from disk".toList]

def cmdClear (terminal : Terminal) : Option Terminal := do
  let screen ← terminal.screen.clearScreen
  some ({ terminal with screen := screen }.serialPrintln "(screen cleared)".toList)

def cmdEcho (args : List Char) (terminal : Terminal) : Option Terminal :=
  terminal.say [args]

def cmdAbout (terminal : Terminal) : Option Terminal :=
  terminal.say
    ["GOATos - a from-scratch 32-bit x86 OS in Rust".toList,
     "Booted via a hand-written MBR bootloader.".toList]

/-- Print a file, or say why that does not work.  The contents are printed as text
only if they are UTF-8. -/
def cmdCat (files : Files) (args : List Char) (terminal : Terminal) : Option Terminal :=
  let path := trim args
  if path.isEmpty then terminal.say ["usage: cat <file>".toList]
  else if path.any isWhitespace then terminal.say ["usage: cat <file>".toList]
  else
    match files path with
    | .ok bytes =>
        match fromUtf8 bytes with
        | some text =>
            if text.getLast? = some '\n' then do
              let terminal ← terminal.vgaPrint text
              some (terminal.serialPrint text)
            else terminal.say [text]
        | none =>
            terminal.say ["cat: ".toList ++ path ++ ": not valid UTF-8 (".toList ++
              (toString bytes.length).toList ++ " bytes)".toList]
    | .error .notFound => terminal.say ["cat: ".toList ++ path ++ ": not found".toList]
    | .error .notMounted => terminal.say ["cat: filesystem not mounted".toList]
    | .error error =>
        terminal.say ["cat: ".toList ++ path ++ ": ".toList ++ fsErrorText error]

/-- Run a submitted line. -/
def runLine (files : Files) (line : List Char) (terminal : Terminal) : Option Terminal :=
  let line := trim line
  if line.isEmpty then some terminal
  else
    let (command, rest) := splitCommand line
    if command = "help".toList then cmdHelp terminal
    else if command = "clear".toList then cmdClear terminal
    else if command = "echo".toList then cmdEcho rest terminal
    else if command = "about".toList then cmdAbout terminal
    else if command = "cat".toList then cmdCat files rest terminal
    else terminal.say ["unknown command: ".toList ++ command]

/-! ## The line editor -/

/-- What a line can hold: `' '..='~'`. -/
def Printable (c : Char) : Prop :=
  ' ' ≤ c ∧ c ≤ '~'

instance (c : Char) : Decidable (Printable c) :=
  inferInstanceAs (Decidable (_ ∧ _))

/-- The editable line. -/
structure LineEditor where
  buf : Vector UInt8 lineCapacity
  len : Nat
  fits : len ≤ lineCapacity

namespace LineEditor

def new : LineEditor where
  buf := Vector.replicate lineCapacity 0
  len := 0
  fits := Nat.zero_le _

def clear (editor : LineEditor) : LineEditor :=
  { editor with len := 0, fits := Nat.zero_le _ }

def bytes (editor : LineEditor) : List UInt8 :=
  editor.buf.toList.take editor.len

/-- The line as text, which is empty if the buffer is not UTF-8. -/
def asStr (editor : LineEditor) : List Char :=
  (fromUtf8 editor.bytes).getD []

/-- Append a printable character, if there is room.  The answer says whether it was
appended. -/
def pushChar (editor : LineEditor) (c : Char) : Bool × LineEditor :=
  if full : editor.len ≥ lineCapacity then (false, editor)
  else if ¬ Printable c then (false, editor)
  else
    (true,
      { buf := editor.buf.set editor.len (UInt8.ofNat c.toNat) (Nat.lt_of_not_le full)
        len := editor.len + 1
        fits := Nat.lt_of_not_le full })

/-- Drop the last character.  The answer says whether there was one. -/
def popChar (editor : LineEditor) : Bool × LineEditor :=
  if editor.len = 0 then (false, editor)
  else
    (true,
      { editor with
        len := editor.len - 1
        fits := Nat.le_trans (Nat.sub_le _ _) editor.fits })

end LineEditor

def printPrompt (terminal : Terminal) : Option Terminal := do
  let terminal ← terminal.vgaPrint prompt
  some (terminal.serialPrint prompt)

def init (terminal : Terminal) : Option Terminal :=
  printPrompt terminal

/-- What enter does with the line it submits. -/
def submitLine (files : Files) (line : List Char) (editor : LineEditor) (terminal : Terminal) :
    Option (Bool × LineEditor × Terminal) := do
  let terminal ← terminal.vgaPrintln []
  let terminal := terminal.serialPrintln []
  let terminal ← runLine files line terminal
  let terminal ← printPrompt terminal
  some (true, editor.clear, terminal)

/-- Apply one key.  The answer says whether a line was submitted. -/
def handleEvent (files : Files) (editor : LineEditor) (terminal : Terminal) :
    KeyEvent -> Option (Bool × LineEditor × Terminal)
  | .char c =>
      match editor.pushChar c with
      | (true, editor) => do
          let terminal ← terminal.vgaPrint [c]
          some (false, editor, terminal.serialPrint [c])
      | (false, editor) => some (false, editor, terminal)
  | .backspace =>
      match editor.popChar with
      | (true, editor) => do
          let screen ← terminal.screen.backspace
          some (false, editor,
            { terminal with screen := screen }.serialPrint "\x08 \x08".toList)
      | (false, editor) => some (false, editor, terminal)
  | .enter => submitLine files editor.asStr editor terminal

end Console
end Goatos
