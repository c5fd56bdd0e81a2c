import Goatos.Console.Vga
import Goatos.Library.Rows

namespace Goatos
namespace Console

open Library

/-!
# The screen shows the end of the transcript

What was written since the screen was cleared is a transcript.  It is read as
lines, and a line is broken into rows of the width of the screen; the screen shows
the last rows.  The proof types the transcript on a roll: the page always shows the
end of the roll.
-/

/-- The rows of a transcript as it is displayed, broken at the width of the
screen. -/
def transcriptRows (transcript : List UInt8) : List (List UInt8) :=
  textRows bufferWidth lineFeed (transcript.map displayed)

/-- The byte at a place of a screen that shows the last rows, with blanks behind the
end of a row and below the last one. -/
def tailByte (rows : List (List UInt8)) (row column : Nat) : UInt8 :=
  (((rows.drop (rows.length - bufferHeight))[row]?.getD [])[column]?).getD space

/-- The screen shows the last rows and the cursor is behind them. -/
structure ShowsTail (rows : List (List UInt8)) (screen : Screen) : Prop where
  row : screen.writer.row = min rows.length 25 - 1
  column : screen.writer.column = (rows.getLastD []).length
  cells : forall row column, row < 25 -> column < 80 ->
    screen.buffer.get row column = some ⟨tailByte rows row column, screen.writer.colorCode⟩

/-- The page shows the end of a roll: as many of its last rows as fit, with the
cursor behind the last item. -/
structure AtEnd (roll : Roll UInt8) (page : Page) : Prop where
  row : page.row = min (roll.above.length + 1) bufferHeight - 1
  column : page.column = roll.last.length
  picture : forall row column, row < bufferHeight -> column < bufferWidth ->
    page.picture row column = tailByte roll.rows row column

theorem tailByte_eq (rows : List (List UInt8)) (row column : Nat) :
    tailByte rows row column =
      ((rows[rows.length - bufferHeight + row]?.getD [])[column]?).getD space := by
  rw [tailByte, List.getElem?_drop]

theorem AtEnd.empty : AtEnd Roll.empty Page.blank := by
  refine ⟨rfl, rfl, ?_⟩
  intro row column _ _
  rw [tailByte_eq]
  cases row with
  | zero => rfl
  | succ row => rfl

section Typing

variable {roll : Roll UInt8} {page : Page}

theorem getD_append_nil (rows : List (List UInt8)) (index : Nat) :
    (rows ++ [[]])[index]?.getD [] = rows[index]?.getD [] := by
  by_cases inside : index < rows.length
  · rw [List.getElem?_append_left inside]
  · rw [List.getElem?_append_right (Nat.le_of_not_lt inside),
      List.getElem?_eq_none (Nat.le_of_not_lt inside)]
    cases index - rows.length with
    | zero => rfl
    | succ _ => rfl

/-- A new row below: either there is room for it, or everything moves up. -/
theorem AtEnd.feed (atEnd : AtEnd roll page) : AtEnd roll.feed page.newLine := by
  have positive : 0 < bufferHeight := by decide
  have cursor := atEnd.row
  have picture := atEnd.picture
  have length : roll.rows.length = roll.above.length + 1 := by
    rw [Roll.rows, List.length_append, List.length_singleton]
  have longer : roll.feed.rows = roll.rows ++ [[]] := rfl
  have longerAbove : roll.feed.above.length = roll.above.length + 1 := length
  simp only [tailByte_eq, length] at picture
  rw [Page.newLine]
  by_cases below : page.row + 1 < bufferHeight
  · rw [if_pos below]
    refine ⟨?_, rfl, ?_⟩
    · rw [longerAbove]
      simp only
      omega
    · intro row column inRow inColumn
      have index : roll.above.length + 1 + 1 - bufferHeight + row =
          roll.above.length + 1 - bufferHeight + row := by
        omega
      rw [tailByte_eq, longer, getD_append_nil, List.length_append, length,
        List.length_singleton, index]
      exact picture row column inRow inColumn
  · rw [if_neg below]
    refine ⟨?_, rfl, ?_⟩
    · rw [longerAbove]
      simp only
      omega
    · intro row column inRow inColumn
      rw [tailByte_eq, longer, getD_append_nil, List.length_append, length, List.length_singleton]
      simp only [Page.scrolled]
      by_cases notLast : row + 1 < bufferHeight
      · have index : roll.above.length + 1 + 1 - bufferHeight + row =
            roll.above.length + 1 - bufferHeight + (row + 1) := by
          omega
        rw [if_pos notLast, index]
        exact picture (row + 1) column notLast inColumn
      · have beyond : roll.rows[roll.above.length + 1 + 1 - bufferHeight + row]? = none :=
          List.getElem?_eq_none (by rw [length]; omega)
        rw [if_neg notLast, beyond]
        rfl

theorem AtEnd.append (atEnd : AtEnd roll page) (byte : UInt8) :
    AtEnd (roll.append byte) (page.put byte) := by
  have positive : 0 < bufferHeight := by decide
  have cursor := atEnd.row
  have picture := atEnd.picture
  have length : forall last, (roll.above ++ [last]).length = roll.above.length + 1 := by
    intro last
    rw [List.length_append, List.length_singleton]
  simp only [tailByte_eq, Roll.rows, length] at picture
  refine ⟨atEnd.row, ?_, ?_⟩
  · rw [Roll.append, List.length_append, List.length_singleton, ← atEnd.column]
    rfl
  · intro row column inRow inColumn
    simp only [Page.put, Page.mark, tailByte_eq, Roll.append, Roll.rows, length]
    rw [picture row column inRow inColumn, atEnd.column]
    by_cases here : row = page.row
    · have last : roll.above.length + 1 - bufferHeight + row = roll.above.length := by omega
      rw [last, List.getElem?_concat_length, List.getElem?_concat_length, Option.getD_some,
        Option.getD_some]
      by_cases next : column = roll.last.length
      · rw [if_pos ⟨here, next⟩, next, List.getElem?_concat_length, Option.getD_some]
      · rw [if_neg (fun both => next both.2), getElem?_append_singleton_of_ne next]
    · rw [if_neg (fun both => here both.1), getElem?_append_singleton_of_ne (by omega),
        getElem?_append_singleton_of_ne (by omega)]

theorem AtEnd.type (atEnd : AtEnd roll page) (byte : UInt8) :
    AtEnd (roll.type bufferWidth lineFeed byte) (page.writeByte byte) := by
  rw [Roll.type, Page.writeByte, atEnd.column]
  by_cases feed : byte = lineFeed
  · rw [if_pos feed, if_pos feed]
    exact atEnd.feed
  · rw [if_neg feed, if_neg feed]
    by_cases full : roll.last.length ≥ bufferWidth
    · rw [if_pos full, if_pos full]
      exact atEnd.feed.append byte
    · rw [if_neg full, if_neg full]
      exact atEnd.append byte

end Typing

theorem Page.writeString_append (page : Page) (first second : List UInt8) :
    page.writeString (first ++ second) = (page.writeString first).writeString second :=
  List.foldl_append

/-- The page after a transcript shows the end of the roll it was typed on. -/
theorem atEnd_writeString (transcript : List UInt8) :
    AtEnd ((transcript.map displayed).foldl (Roll.type bufferWidth lineFeed) Roll.empty)
      (Page.blank.writeString transcript) := by
  induction transcript using List.reverseRecOn with
  | nil => exact AtEnd.empty
  | append_singleton transcript byte inductionHypothesis =>
      rw [List.map_append, List.map_singleton, List.foldl_append, Page.writeString_append]
      exact inductionHypothesis.type (displayed byte)

/-- Writing any number of strings to a screen that shows a page. -/
theorem Shows.writeStrings {screen : Screen} {page : Page} (shows : Shows screen page)
    (strings : List (List UInt8)) :
    Exists fun next => strings.foldlM Screen.writeString screen = some next ∧
      Shows next (page.writeString strings.flatten) := by
  induction strings generalizing screen page with
  | nil => exact ⟨screen, rfl, shows⟩
  | cons string strings inductionHypothesis =>
      rcases shows.writeString string with ⟨middle, written, shown, _⟩
      rcases inductionHypothesis shown with ⟨next, rest, shown⟩
      refine ⟨next, ?_, ?_⟩
      · rw [List.foldlM_cons, written]
        exact rest
      · rwa [List.flatten_cons, Page.writeString_append]

/-- After `clear_screen`, whatever is written, every access is inside the buffer and
the screen shows the last rows of the transcript. -/
theorem screen_shows_transcript_tail (screen : Screen) (strings : List (List UInt8)) :
    Exists fun cleared => Exists fun final => screen.clearScreen = some cleared ∧
      strings.foldlM Screen.writeString cleared = some final ∧
      ShowsTail (transcriptRows strings.flatten) final := by
  rcases clearScreen_shows screen with ⟨cleared, clears, blank, _⟩
  rcases blank.writeStrings strings with ⟨final, written, shows⟩
  refine ⟨cleared, final, clears, written, ?_⟩
  have atEnd := atEnd_writeString strings.flatten
  have rows := rows_typed (show 0 < bufferWidth by decide) lineFeed (strings.flatten.map displayed)
  rw [← transcriptRows] at rows
  generalize (strings.flatten.map displayed).foldl (Roll.type bufferWidth lineFeed) Roll.empty = roll
    at atEnd rows
  rw [← rows]
  refine ⟨?_, ?_, ?_⟩
  · rw [shows.row, atEnd.row, Roll.rows, List.length_append, List.length_singleton]
    rfl
  · rw [shows.column, atEnd.column, Roll.rows, List.getLastD_concat]
  · intro row column inRow inColumn
    rw [shows.cells row column inRow inColumn, atEnd.picture row column inRow inColumn]

/-- A line of exactly the width of the screen is not followed by an empty row. -/
example : transcriptRows (List.replicate 80 0x41 ++ [0x0a, 0x42]) =
    [List.replicate 80 0x41, [0x42]] := by
  decide

end Console
end Goatos
