import Goatos.Library.Grid
import Goatos.Library.Loop

namespace Goatos
namespace Console

open Library

/-!
# The VGA text writer

The writer keeps a cursor and puts bytes into a buffer of 25 rows of 80 cells.  A
cell access computes its place from row and column and does not check it; here an
access outside the buffer is a failure, and that there is none is part of what is
proved.

`Page` is the same screen without the buffer: a picture, which is a byte for every
row and column, and the cursor.  Each operation of the writer does to the buffer
what the operation of that name does to the page, so everything else about the
screen is a matter of pages.
-/

def bufferWidth : Nat := 80

def bufferHeight : Nat := 25

inductive Color where
  | black | blue | green | cyan | red | magenta | brown | lightGray | darkGray | lightBlue
  | lightGreen | lightCyan | lightRed | pink | yellow | white
  deriving DecidableEq, Repr

structure ColorCode where
  bits : UInt8
  deriving DecidableEq, Repr

/-- The attribute byte, with the background in the high nibble. -/
def ColorCode.new (foreground background : Color) : ColorCode :=
  ⟨(UInt8.ofNat background.ctorIdx <<< 4) ||| UInt8.ofNat foreground.ctorIdx⟩

structure ScreenChar where
  asciiCharacter : UInt8
  colorCode : ColorCode
  deriving DecidableEq, Repr

abbrev Buffer := Grid ScreenChar bufferHeight bufferWidth

/-- Where the next byte goes, and in which colour.  The column is one past the row
once the row is full. -/
structure Writer where
  column : Nat
  row : Nat
  colorCode : ColorCode
  deriving DecidableEq, Repr

def Writer.initial : Writer where
  column := 0
  row := 0
  colorCode := ColorCode.new .white .black

/-- The writer and the buffer it writes to. -/
structure Screen where
  writer : Writer
  buffer : Buffer

def lineFeed : UInt8 := 0x0a

def space : UInt8 := 0x20

namespace Screen

/-- Fill a row with blanks in the colour of the writer. -/
def clearRow (screen : Screen) (row : Nat) : Option Screen := do
  let blank : ScreenChar := ⟨space, screen.writer.colorCode⟩
  let buffer ← forRange (fun column (buffer : Buffer) => buffer.put row column blank) 0 bufferWidth
    screen.buffer
  some { screen with buffer := buffer }

/-- Copy a row to the one above it, cell by cell. -/
def copyUp (row : Nat) (buffer : Buffer) : Option Buffer :=
  forRange (fun column (buffer : Buffer) => do
    let cell ← buffer.get row column
    buffer.put (row - 1) column cell) 0 bufferWidth buffer

/-- Go to the next row.  In the last row everything scrolls up instead, and the row
is cleared. -/
def newLine (screen : Screen) : Option Screen :=
  if screen.writer.row + 1 < bufferHeight then
    some { screen with writer := { screen.writer with row := screen.writer.row + 1, column := 0 } }
  else do
    let buffer ← forRange copyUp 1 (bufferHeight - 1) screen.buffer
    let screen ← { screen with buffer := buffer }.clearRow (bufferHeight - 1)
    some { screen with writer := { screen.writer with column := 0 } }

/-- Write one byte at the cursor.  A full row is left only when there is something to
put into the next one. -/
def writeByte (screen : Screen) (byte : UInt8) : Option Screen :=
  if byte = lineFeed then screen.newLine
  else do
    let screen ← if screen.writer.column ≥ bufferWidth then screen.newLine else some screen
    let buffer ← screen.buffer.put screen.writer.row screen.writer.column
      ⟨byte, screen.writer.colorCode⟩
    some ⟨{ screen.writer with column := screen.writer.column + 1 }, buffer⟩

end Screen

/-- Printable bytes and line feeds are kept; everything else is shown as a block. -/
def displayed (byte : UInt8) : UInt8 :=
  if 0x20 ≤ byte ∧ byte ≤ 0x7e ∨ byte = lineFeed then byte else 0xfe

namespace Screen

/-- Write the bytes of a string, each as it is displayed. -/
def writeString (screen : Screen) (string : List UInt8) : Option Screen :=
  string.foldlM (fun screen byte => screen.writeByte (displayed byte)) screen

/-- Clear the whole screen and put the cursor into the top left corner. -/
def clearScreen (screen : Screen) : Option Screen := do
  let screen ← forRange (fun row (screen : Screen) => screen.clearRow row) 0 bufferHeight screen
  some { screen with writer := { screen.writer with row := 0, column := 0 } }

/-- Erase the character left of the cursor, and do nothing at the start of a row. -/
def backspace (screen : Screen) : Option Screen :=
  if screen.writer.column = 0 then some screen
  else do
    let column := screen.writer.column - 1
    let buffer ← screen.buffer.put screen.writer.row column ⟨space, screen.writer.colorCode⟩
    some ⟨{ screen.writer with column := column }, buffer⟩

end Screen

/-! ## Pages -/

/-- What is shown, and where the cursor is, without colours and without the buffer
behind it. -/
structure Page where
  picture : Nat -> Nat -> UInt8
  row : Nat
  column : Nat

namespace Page

def blank : Page where
  picture := fun _ _ => space
  row := 0
  column := 0

def scrolled (picture : Nat -> Nat -> UInt8) (row column : Nat) : UInt8 :=
  if row + 1 < bufferHeight then picture (row + 1) column else space

def newLine (page : Page) : Page :=
  if page.row + 1 < bufferHeight then { page with row := page.row + 1, column := 0 }
  else { page with picture := scrolled page.picture, column := 0 }

def mark (page : Page) (changed : Nat) (byte : UInt8) (row column : Nat) : UInt8 :=
  if row = page.row ∧ column = changed then byte else page.picture row column

def put (page : Page) (byte : UInt8) : Page :=
  { page with picture := page.mark page.column byte, column := page.column + 1 }

def writeByte (page : Page) (byte : UInt8) : Page :=
  if byte = lineFeed then page.newLine
  else if page.column ≥ bufferWidth then page.newLine.put byte
  else page.put byte

def writeString (page : Page) (string : List UInt8) : Page :=
  string.foldl (fun page byte => page.writeByte (displayed byte)) page

def backspace (page : Page) : Page :=
  if page.column = 0 then page
  else { page with picture := page.mark (page.column - 1) space, column := page.column - 1 }

end Page

/-- The buffer shows the picture, in the colour of the writer, and the cursors
agree and are inside. -/
structure Shows (screen : Screen) (page : Page) : Prop where
  row : screen.writer.row = page.row
  column : screen.writer.column = page.column
  rowInside : page.row < bufferHeight
  columnInside : page.column ≤ bufferWidth
  cells : forall row column, row < bufferHeight -> column < bufferWidth ->
    screen.buffer.get row column = some ⟨page.picture row column, screen.writer.colorCode⟩

/-! ## The loops over the buffer -/

theorem clearRow_cells (screen : Screen) {row : Nat} (inside : row < bufferHeight) :
    Exists fun buffer => screen.clearRow row = some { screen with buffer := buffer } ∧
      forall row' column, column < bufferWidth -> buffer.get row' column =
        if row' = row then some ⟨space, screen.writer.colorCode⟩
        else screen.buffer.get row' column := by
  rcases Grid.forRange_row screen.buffer inside (fun _ => ⟨space, screen.writer.colorCode⟩)
    (fun _ _ _ _ => rfl) with ⟨buffer, ran, cells⟩
  refine ⟨buffer, ?_, cells⟩
  rw [Screen.clearRow]
  simp only [ran]
  rfl

theorem copyUp_cells (buffer : Buffer) {row : Nat} (inside : row + 1 < bufferHeight)
    (cells : Nat -> ScreenChar)
    (shown : forall column, column < bufferWidth ->
      buffer.get (row + 1) column = some (cells column)) :
    Exists fun next => Screen.copyUp (row + 1) buffer = some next ∧
      forall row' column, column < bufferWidth -> next.get row' column =
        if row' = row then some (cells column) else buffer.get row' column := by
  apply Grid.forRange_row buffer (by omega) cells
  intro column grid inColumn others
  rw [others (row + 1) column (by omega) inColumn, shown column inColumn]
  rfl

/-- Scrolling copies the rows from top to bottom, so that each row is read before
it is overwritten. -/
theorem scroll_cells (buffer : Buffer) (color : ColorCode) (picture : Nat -> Nat -> UInt8)
    (shown : forall row column, row < bufferHeight -> column < bufferWidth ->
      buffer.get row column = some ⟨picture row column, color⟩) :
    Exists fun next => forRange Screen.copyUp 1 (bufferHeight - 1) buffer = some next ∧
      forall row column, row < bufferHeight -> column < bufferWidth -> next.get row column =
        some ⟨if row + 1 < bufferHeight then picture (row + 1) column else picture row column,
          color⟩ := by
  refine forRange_rule Screen.copyUp 1 (bufferHeight - 1)
    (fun done (buffer : Buffer) => forall row column, row < bufferHeight -> column < bufferWidth ->
      buffer.get row column =
        some ⟨if row + 1 < done then picture (row + 1) column else picture row column, color⟩)
    ?_ ?_
  · intro row column inRow inColumn
    rw [shown row column inRow inColumn, if_neg (by omega)]
  · intro done buffer lower upper cells
    rcases Nat.exists_eq_add_of_le' lower with ⟨row, rfl⟩
    have inside : row + 1 < bufferHeight := by
      simp only [bufferHeight] at upper ⊢
      omega
    have source : forall column, column < bufferWidth ->
        buffer.get (row + 1) column = some ⟨picture (row + 1) column, color⟩ := by
      intro column inColumn
      rw [cells (row + 1) column inside inColumn, if_neg (by omega)]
    rcases copyUp_cells buffer inside _ source with ⟨next, copied, changed⟩
    refine ⟨next, copied, ?_⟩
    intro row' column inRow inColumn
    rw [changed row' column inColumn]
    by_cases here : row' = row
    · rw [if_pos here, if_pos (by omega), here]
    · rw [if_neg here, cells row' column inRow inColumn]
      rw [if_congr (show row' + 1 < row + 1 ↔ row' + 1 < row + 1 + 1 by omega) rfl rfl]

/-! ## The operations on pages -/

section Operations

variable {screen : Screen} {page : Page}

theorem Shows.newLine (shows : Shows screen page) :
    Exists fun next => screen.newLine = some next ∧ Shows next page.newLine ∧
      next.writer.colorCode = screen.writer.colorCode := by
  rw [Screen.newLine, Page.newLine, shows.row]
  by_cases below : page.row + 1 < bufferHeight
  · rw [if_pos below, if_pos below]
    exact ⟨_, rfl, ⟨rfl, rfl, below, Nat.zero_le _, shows.cells⟩, rfl⟩
  · rw [if_neg below, if_neg below]
    rcases scroll_cells screen.buffer _ page.picture shows.cells with ⟨moved, scrolled, cells⟩
    rcases clearRow_cells { screen with buffer := moved }
      (show bufferHeight - 1 < bufferHeight by decide) with ⟨buffer, cleared, bottom⟩
    rw [scrolled]
    refine ⟨⟨{ screen.writer with column := 0 }, buffer⟩, ?_, ⟨shows.row, rfl, shows.rowInside,
      Nat.zero_le _, ?_⟩, rfl⟩
    · simp only [Option.bind_eq_bind, Option.bind_some, cleared]
    · intro row column inRow inColumn
      rw [bottom row column inColumn]
      simp only [Page.scrolled]
      by_cases last : row = bufferHeight - 1
      · rw [if_pos last, if_neg (by rw [last]; decide)]
      · have notLast : row + 1 < bufferHeight := by
          simp only [bufferHeight] at last inRow ⊢
          omega
        rw [if_neg last, if_pos notLast, cells row column inRow inColumn, if_pos notLast]

/-- A byte put at the cursor, where the row is not full. -/
theorem Shows.put (shows : Shows screen page) (room : page.column < bufferWidth) (byte : UInt8) :
    Exists fun buffer =>
      screen.buffer.put screen.writer.row screen.writer.column ⟨byte, screen.writer.colorCode⟩ =
        some buffer ∧
      Shows ⟨{ screen.writer with column := screen.writer.column + 1 }, buffer⟩
        (page.put byte) := by
  rw [shows.row, shows.column]
  rcases screen.buffer.put_inside shows.rowInside room ⟨byte, screen.writer.colorCode⟩ with
    ⟨buffer, put, changed⟩
  refine ⟨buffer, put, shows.row, rfl, shows.rowInside, room, ?_⟩
  intro row column inRow inColumn
  rw [changed row column inColumn]
  simp only [Page.put, Page.mark]
  split
  · rfl
  · exact shows.cells row column inRow inColumn

theorem Page.newLine_column (page : Page) : page.newLine.column = 0 := by
  rw [Page.newLine]
  split
  · rfl
  · rfl

theorem Shows.writeByte (shows : Shows screen page) (byte : UInt8) :
    Exists fun next => screen.writeByte byte = some next ∧ Shows next (page.writeByte byte) ∧
      next.writer.colorCode = screen.writer.colorCode := by
  rw [Screen.writeByte, Page.writeByte]
  by_cases feed : byte = lineFeed
  · rw [if_pos feed, if_pos feed]
    exact shows.newLine
  · rw [if_neg feed, if_neg feed, shows.column]
    by_cases full : page.column ≥ bufferWidth
    · rcases shows.newLine with ⟨next, broken, shown, color⟩
      have room : page.newLine.column < bufferWidth := by
        rw [page.newLine_column]
        decide
      rcases shown.put room byte with ⟨buffer, put, shown⟩
      rw [if_pos full, if_pos full, broken]
      refine ⟨_, ?_, shown, color⟩
      simp only [Option.bind_eq_bind, Option.bind_some, put]
    · rcases shows.put (Nat.lt_of_not_le full) byte with ⟨buffer, put, shown⟩
      rw [if_neg full, if_neg full]
      refine ⟨_, ?_, shown, rfl⟩
      simp only [Option.bind_eq_bind, Option.bind_some, put]

theorem Shows.writeString (shows : Shows screen page) (string : List UInt8) :
    Exists fun next => screen.writeString string = some next ∧
      Shows next (page.writeString string) ∧
      next.writer.colorCode = screen.writer.colorCode := by
  induction string generalizing screen page with
  | nil => exact ⟨screen, rfl, shows, rfl⟩
  | cons byte string inductionHypothesis =>
      rcases shows.writeByte (displayed byte) with ⟨middle, written, shown, color⟩
      rcases inductionHypothesis shown with ⟨next, rest, shown, color'⟩
      refine ⟨next, ?_, shown, color'.trans color⟩
      rw [Screen.writeString, List.foldlM_cons, written]
      exact rest

theorem Shows.backspace (shows : Shows screen page) :
    Exists fun next => screen.backspace = some next ∧ Shows next page.backspace ∧
      next.writer.colorCode = screen.writer.colorCode := by
  rw [Screen.backspace, Page.backspace, shows.column]
  by_cases start : page.column = 0
  · rw [if_pos start, if_pos start]
    exact ⟨screen, rfl, shows, rfl⟩
  · rw [if_neg start, if_neg start]
    have inside := shows.columnInside
    rcases screen.buffer.put_inside shows.rowInside
      (show page.column - 1 < bufferWidth by omega) ⟨space, screen.writer.colorCode⟩ with
      ⟨buffer, put, changed⟩
    refine ⟨⟨{ screen.writer with column := page.column - 1 }, buffer⟩, ?_,
      ⟨shows.row, rfl, shows.rowInside, by simp only; omega, ?_⟩, rfl⟩
    · simp only [Option.bind_eq_bind, Option.bind_some, shows.row, put]
    · intro row column inRow inColumn
      rw [changed row column inColumn]
      simp only [Page.mark]
      split
      · rfl
      · exact shows.cells row column inRow inColumn

end Operations

/-- Whatever the buffer held, it is blank after `clear_screen`. -/
theorem clearScreen_shows (screen : Screen) :
    Exists fun next => screen.clearScreen = some next ∧ Shows next Page.blank ∧
      next.writer.colorCode = screen.writer.colorCode := by
  have loop := forRange_rule (fun row (screen : Screen) => screen.clearRow row) 0 bufferHeight
    (fun done cleared => cleared.writer = screen.writer ∧
      forall row column, row < done -> column < bufferWidth ->
        cleared.buffer.get row column = some ⟨space, screen.writer.colorCode⟩)
    ⟨rfl, fun _ _ below _ => absurd below (Nat.not_lt_zero _)⟩ ?_
  · rcases loop with ⟨cleared, ran, writer, cells⟩
    refine ⟨{ cleared with writer := { cleared.writer with row := 0, column := 0 } }, ?_,
      ⟨rfl, rfl, by decide, Nat.zero_le _, ?_⟩, ?_⟩
    · simp only [Screen.clearScreen, Option.bind_eq_bind, ran, Option.bind_some]
    · intro row column inRow inColumn
      rw [writer]
      exact cells row column (by omega) inColumn
    · rw [writer]
  · intro done cleared _ upper ⟨writer, cells⟩
    rcases clearRow_cells cleared (show done < bufferHeight by omega) with ⟨buffer, ran, changed⟩
    refine ⟨_, ran, writer, ?_⟩
    intro row column inRow inColumn
    rw [changed row column inColumn, writer]
    split
    · rfl
    · exact cells row column (by omega) inColumn

end Console
end Goatos
