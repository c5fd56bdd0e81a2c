import Goatos.Console.Shell
import Goatos.Library.Rows

namespace Goatos
namespace Console

open Library
open Input
open Storage

/-!
# The edited line and its echo

The editor and the screen are changed by different code.  What keeps them together
is that the row of the cursor shows the prompt and the line, that everything to the
right of the cursor and below it is blank, and that whatever a command prints ends
with a line feed.
-/

/-- The line that keys make out of a line: a character is appended unless the line
is full or the character is not printable, backspace drops the last one. -/
def typeKey (line : List Char) : KeyEvent -> List Char
  | .char c => if line.length ≥ 72 ∨ ¬ Printable c then line else line ++ [c]
  | .backspace => line.dropLast
  | .enter => []

namespace Page

/-- Nothing is shown to the right of the cursor and below it, so that what is echoed
next stands alone. -/
def Clean (page : Page) : Prop :=
  forall row column, page.row < row ∨ row = page.row ∧ page.column ≤ column ->
    page.picture row column = space

/-- The row of the cursor shows some bytes and the cursor is behind them. -/
structure RowShows (page : Page) (bytes : List UInt8) : Prop where
  column : page.column = bytes.length
  cells : forall column, page.picture page.row column = (bytes[column]?).getD space
  below : forall row column, page.row < row -> page.picture row column = space

variable {page : Page}

theorem Clean.newLine (clean : page.Clean) : page.newLine.Clean := by
  rw [Page.newLine]
  split
  · intro row column behind
    apply clean
    simp only at behind
    omega
  · intro row column behind
    simp only [scrolled] at behind ⊢
    split
    · exact clean _ _ (by omega)
    · rfl

theorem Clean.put (clean : page.Clean) (byte : UInt8) : (page.put byte).Clean := by
  intro row column behind
  simp only [Page.put, mark] at behind ⊢
  rw [if_neg (by omega)]
  exact clean _ _ (by omega)

theorem Clean.writeByte (clean : page.Clean) (byte : UInt8) : (page.writeByte byte).Clean := by
  rw [Page.writeByte]
  split
  · exact clean.newLine
  · split
    · exact clean.newLine.put byte
    · exact clean.put byte

theorem Clean.writeString (clean : page.Clean) (string : List UInt8) :
    (page.writeString string).Clean := by
  induction string generalizing page with
  | nil => exact clean
  | cons byte string inductionHypothesis => exact inductionHypothesis (clean.writeByte _)

theorem RowShows.clean {bytes : List UInt8} (shows : page.RowShows bytes) : page.Clean := by
  intro row column behind
  rcases behind with below | ⟨rfl, right⟩
  · exact shows.below row column below
  · rw [shows.cells, List.getElem?_eq_none (by rw [← shows.column]; exact right)]
    rfl

theorem Clean.rowShows (clean : page.Clean) (start : page.column = 0) : page.RowShows [] := by
  refine ⟨start, ?_, fun row column below => clean row column (Or.inl below)⟩
  intro column
  exact clean _ _ (Or.inr ⟨rfl, by rw [start]; exact Nat.zero_le _⟩)

theorem RowShows.writeByte {bytes : List UInt8} (shows : page.RowShows bytes) {byte : UInt8}
    (noFeed : byte ≠ lineFeed) (room : bytes.length < bufferWidth) :
    (page.writeByte byte).RowShows (bytes ++ [byte]) ∧ (page.writeByte byte).row = page.row := by
  rw [Page.writeByte, if_neg noFeed, if_neg (by rw [shows.column]; omega)]
  refine ⟨⟨?_, ?_, ?_⟩, rfl⟩
  · rw [List.length_append, List.length_singleton, ← shows.column]
    rfl
  · intro column
    simp only [Page.put, mark, true_and, shows.column, shows.cells]
    by_cases next : column = bytes.length
    · rw [if_pos next, next, List.getElem?_concat_length]
      rfl
    · rw [if_neg next, getElem?_append_singleton_of_ne next]
  · intro row column below
    simp only [Page.put, mark] at below ⊢
    rw [if_neg (by omega)]
    exact shows.below row column below

theorem RowShows.writeString {bytes string : List UInt8} (shows : page.RowShows bytes)
    (printable : forall byte, byte ∈ string -> 0x20 ≤ byte ∧ byte ≤ 0x7e)
    (room : bytes.length + string.length ≤ bufferWidth) :
    (page.writeString string).RowShows (bytes ++ string) := by
  induction string generalizing page bytes with
  | nil => rwa [List.append_nil]
  | cons byte string inductionHypothesis =>
      rw [List.length_cons] at room
      have here := printable byte List.mem_cons_self
      have same : displayed byte = byte := if_pos (Or.inl here)
      have noFeed : byte ≠ lineFeed := by
        rintro rfl
        exact absurd here.1 (by decide)
      have written := (shows.writeByte noFeed (by omega)).1
      have rest := inductionHypothesis written
        (fun other member => printable other (List.mem_cons_of_mem _ member))
        (by rw [List.length_append, List.length_singleton]; omega)
      rw [List.append_assoc, List.singleton_append] at rest
      rwa [Page.writeString, List.foldl_cons, same, ← Page.writeString]

theorem RowShows.backspace {front : List UInt8} {last : UInt8}
    (shows : page.RowShows (front ++ [last])) : page.backspace.RowShows front := by
  have column := shows.column
  rw [List.length_append, List.length_singleton] at column
  rw [Page.backspace, if_neg (by omega)]
  refine ⟨by simp only; omega, ?_, ?_⟩
  · intro column'
    simp only [mark, true_and, column, Nat.add_sub_cancel, shows.cells]
    by_cases erased : column' = front.length
    · rw [if_pos erased, erased, List.getElem?_eq_none (Nat.le_refl _)]
      rfl
    · rw [if_neg erased, getElem?_append_singleton_of_ne erased]
  · intro row column' below
    simp only [mark] at below ⊢
    rw [if_neg (by omega)]
    exact shows.below row column' below

theorem column_writeString_feed (page : Page) (string : List UInt8) :
    (page.writeString (string ++ [lineFeed])).column = 0 := by
  rw [Page.writeString, List.foldl_append]
  exact Page.newLine_column _

end Page

/-! ## What is printed -/

/-- The screen shows a page that is blank behind the cursor.  Printing keeps this. -/
def Tidy (terminal : Terminal) : Prop :=
  Exists fun page => Shows terminal.screen page ∧ page.Clean

/-- Moreover the cursor is at the start of a row. -/
def Fresh (terminal : Terminal) : Prop :=
  Exists fun page => Shows terminal.screen page ∧ page.Clean ∧ page.column = 0

theorem Fresh.tidy {terminal : Terminal} (fresh : Fresh terminal) : Tidy terminal := by
  rcases fresh with ⟨page, shows, clean, _⟩
  exact ⟨page, shows, clean⟩

theorem utf8_append (first second : List Char) :
    utf8 (first ++ second) = utf8 first ++ utf8 second :=
  List.flatMap_append

/-- Printing a line leaves the cursor at the start of a row. -/
theorem Tidy.vgaPrintln {terminal : Terminal} (tidy : Tidy terminal) (text : List Char) :
    Exists fun next => terminal.vgaPrintln text = some next ∧ Fresh next := by
  rcases tidy with ⟨page, shows, clean⟩
  rcases shows.writeString (utf8 (text ++ ['\n'])) with ⟨screen, written, shown, _⟩
  refine ⟨{ terminal with screen := screen }, ?_, _, shown, clean.writeString _, ?_⟩
  · rw [Terminal.vgaPrintln, Terminal.vgaPrint, written]
    rfl
  · rw [utf8_append, show utf8 ['\n'] = [lineFeed] by decide]
    exact page.column_writeString_feed _

theorem Fresh.say {terminal : Terminal} (fresh : Fresh terminal) (lines : List (List Char)) :
    Exists fun next => terminal.say lines = some next ∧ Fresh next := by
  have printed : Exists fun next => lines.foldlM Terminal.vgaPrintln terminal = some next ∧
      Fresh next := by
    induction lines generalizing terminal with
    | nil => exact ⟨terminal, rfl, fresh⟩
    | cons line lines inductionHypothesis =>
        rcases fresh.tidy.vgaPrintln line with ⟨middle, first, fresh⟩
        rcases inductionHypothesis fresh with ⟨next, rest, fresh⟩
        refine ⟨next, ?_, fresh⟩
        rw [List.foldlM_cons, first]
        exact rest
  rcases printed with ⟨next, printed, fresh⟩
  have serial : forall terminal : Terminal,
      (lines.foldl Terminal.serialPrintln terminal).screen = terminal.screen := by
    clear printed
    induction lines with
    | nil => exact fun _ => rfl
    | cons line lines inductionHypothesis => exact fun terminal => inductionHypothesis _
  refine ⟨lines.foldl Terminal.serialPrintln next, ?_, ?_⟩
  · rw [Terminal.say, printed]
    rfl
  · rw [Fresh, serial]
    exact fresh

theorem Fresh.cmdClear {terminal : Terminal} (_ : Fresh terminal) :
    Exists fun next => cmdClear terminal = some next ∧ Fresh next := by
  rcases clearScreen_shows terminal.screen with ⟨screen, cleared, shows, _⟩
  refine ⟨{ terminal with screen := screen }.serialPrintln "(screen cleared)".toList, ?_,
    Page.blank, shows, fun _ _ _ => rfl, rfl⟩
  rw [Console.cmdClear, cleared]
  rfl

/-- Whatever the file system answers, the output of `cat` ends with a line feed. -/
theorem Fresh.cmdCat {terminal : Terminal} (fresh : Fresh terminal) (files : Files)
    (args : List Char) :
    Exists fun next => cmdCat files args terminal = some next ∧ Fresh next := by
  rw [Console.cmdCat]
  split
  · exact fresh.say _
  · split
    · exact fresh.say _
    · split
      · split
        · rename_i text _
          split
          · rename_i ends
            rcases List.getLast?_eq_some_iff.mp ends with ⟨front, rfl⟩
            rcases fresh.tidy.vgaPrintln front with ⟨next, printed, fresh⟩
            rw [Terminal.vgaPrintln] at printed
            exact ⟨next.serialPrint (front ++ ['\n']), by rw [printed]; rfl, fresh⟩
          · exact fresh.say _
        · exact fresh.say _
      · exact fresh.say _
      · exact fresh.say _
      · exact fresh.say _

/-- Every command leaves the cursor at the start of a row, so that the next prompt
begins a row of its own. -/
theorem Fresh.runLine {terminal : Terminal} (fresh : Fresh terminal) (files : Files)
    (line : List Char) :
    Exists fun next => runLine files line terminal = some next ∧ Fresh next := by
  rw [Console.runLine]
  split
  · exact ⟨terminal, rfl, fresh⟩
  · split
    split
    · exact fresh.say _
    · split
      · exact fresh.cmdClear
      · split
        · exact fresh.say _
        · split
          · exact fresh.say _
          · split
            · exact fresh.cmdCat files _
            · exact fresh.say _

/-! ## The line in the editor -/

theorem utf8EncodeChar_printable {c : Char} (printable : Printable c) :
    String.utf8EncodeChar c = [UInt8.ofNat c.toNat] := by
  have small : c.toNat ≤ 126 := printable.2
  rw [String.utf8EncodeChar]
  exact if_pos (Nat.le_trans small (by decide))

theorem byte_printable {c : Char} (printable : Printable c) :
    0x20 ≤ UInt8.ofNat c.toNat ∧ UInt8.ofNat c.toNat ≤ 0x7e := by
  have lower : 32 ≤ c.toNat := printable.1
  have upper : c.toNat ≤ 126 := printable.2
  have value : (UInt8.ofNat c.toNat).toNat = c.toNat := UInt8.toNat_ofNat_of_lt' (Nat.lt_of_le_of_lt upper (by decide))
  rw [UInt8.le_iff_toNat_le, UInt8.le_iff_toNat_le, value]
  exact ⟨lower, upper⟩

theorem utf8_printable {line : List Char} (printable : forall c, c ∈ line -> Printable c) :
    utf8 line = line.map (fun c => UInt8.ofNat c.toNat) := by
  induction line with
  | nil => rfl
  | cons c line inductionHypothesis =>
      rw [utf8, List.flatMap_cons, utf8EncodeChar_printable (printable c List.mem_cons_self),
        ← utf8, inductionHypothesis (fun other member => printable other
          (List.mem_cons_of_mem _ member))]
      rfl

theorem bytes_printable {line : List Char} (printable : forall c, c ∈ line -> Printable c) :
    forall byte, byte ∈ utf8 line -> 0x20 ≤ byte ∧ byte ≤ 0x7e := by
  intro byte member
  rw [utf8_printable printable, List.mem_map] at member
  rcases member with ⟨c, inLine, rfl⟩
  exact byte_printable (printable c inLine)

theorem fromUtf8_utf8 (text : List Char) : fromUtf8 (utf8 text) = some text := by
  have decoded : (utf8 text).toByteArray.utf8Decode? = some text.toArray :=
    List.utf8Decode?_utf8Encode
  rw [fromUtf8, decoded]
  rfl

namespace LineEditor

variable {editor : LineEditor}

theorem length_bytes (editor : LineEditor) : editor.bytes.length = editor.len := by
  rw [bytes, List.length_take, Vector.length_toList, Nat.min_eq_left editor.fits]

theorem pushChar_accepted {c : Char} (room : editor.len < lineCapacity)
    (printable : Printable c) :
    (editor.pushChar c).1 = true ∧
      (editor.pushChar c).2.bytes = editor.bytes ++ [UInt8.ofNat c.toNat] ∧
      (editor.pushChar c).2.len = editor.len + 1 := by
  rw [pushChar, dif_neg (Nat.not_le_of_lt room), if_neg (not_not_intro printable)]
  refine ⟨rfl, ?_, rfl⟩
  rw [bytes, bytes]
  simp only
  rw [Vector.toList_set, List.take_add_one, List.take_set_of_le (Nat.le_refl _),
    List.getElem?_set_self (by rw [Vector.length_toList]; exact room)]
  rfl

theorem pushChar_rejected {c : Char}
    (rejected : editor.len ≥ lineCapacity ∨ ¬ Printable c) :
    editor.pushChar c = (false, editor) := by
  rw [pushChar]
  split
  · rfl
  · rename_i room
    rw [if_pos (rejected.resolve_left room)]

theorem popChar_nonempty (some : editor.len ≠ 0) :
    editor.popChar.1 = true ∧ editor.popChar.2.bytes = editor.bytes.dropLast ∧
      editor.popChar.2.len = editor.len - 1 := by
  rw [popChar, if_neg some]
  refine ⟨rfl, ?_, rfl⟩
  rw [List.dropLast_eq_take, editor.length_bytes, bytes, bytes, List.take_take,
    Nat.min_eq_left (Nat.sub_le _ _)]

end LineEditor

/-! ## Keys -/

/-- The editor holds a line of printable characters, and the row of the cursor shows
it behind the prompt. -/
structure Edits (line : List Char) (editor : LineEditor) (terminal : Terminal) : Prop where
  printable : forall c, c ∈ line -> Printable c
  bytes : editor.bytes = utf8 line
  shown : Exists fun page => Shows terminal.screen page ∧
    page.RowShows (utf8 prompt ++ editor.bytes)

namespace Edits

variable {line : List Char} {editor : LineEditor} {terminal : Terminal}

theorem length (edits : Edits line editor terminal) : line.length = editor.len := by
  rw [← editor.length_bytes, edits.bytes, utf8_printable edits.printable, List.length_map]

theorem asStr (edits : Edits line editor terminal) : editor.asStr = line := by
  rw [LineEditor.asStr, edits.bytes, fromUtf8_utf8]
  rfl

theorem utf8_prompt : utf8 prompt = [0x3e, 0x20] := by
  decide

theorem prompt_printable : forall c, c ∈ prompt -> Printable c := by
  intro c member
  have either : c = '>' ∨ c = ' ' := by simpa [prompt] using member
  rcases either with rfl | rfl
  · decide
  · decide

theorem printPrompt {terminal : Terminal} (fresh : Fresh terminal) (editor : LineEditor) :
    Exists fun next => Console.printPrompt terminal = some next ∧ Edits [] editor.clear next := by
  rcases fresh with ⟨page, shows, clean, start⟩
  rcases shows.writeString (utf8 prompt) with ⟨screen, written, shown, _⟩
  have row : (page.writeString (utf8 prompt)).RowShows ([] ++ utf8 prompt) := by
    apply (clean.rowShows start).writeString (bytes_printable prompt_printable)
    rw [utf8_prompt]
    decide
  refine ⟨{ terminal with screen := screen }.serialPrint prompt, ?_, ?_, rfl, _, shown, ?_⟩
  · rw [Console.printPrompt, Terminal.vgaPrint, written]
    rfl
  · intro c member
    cases member
  · rw [show editor.clear.bytes = [] from rfl, List.append_nil]
    exact row

/-- An accepted character is appended and echoed.  Another one changes neither the
line nor the screen. -/
theorem char (edits : Edits line editor terminal) (files : Files) (c : Char) :
    Exists fun editor' => Exists fun terminal' =>
      handleEvent files editor terminal (.char c) = some (false, editor', terminal') ∧
      Edits (typeKey line (.char c)) editor' terminal' := by
  have length := edits.length
  rw [typeKey, length]
  by_cases rejected : editor.len ≥ 72 ∨ ¬ Printable c
  · rw [if_pos rejected]
    refine ⟨editor, terminal, ?_, edits⟩
    rw [handleEvent, LineEditor.pushChar_rejected rejected]
  · rw [if_neg rejected]
    rw [not_or, not_not] at rejected
    have room : editor.len < lineCapacity := Nat.lt_of_not_le rejected.1
    rcases LineEditor.pushChar_accepted room rejected.2 with ⟨accepted, bytes, _⟩
    rcases edits.shown with ⟨page, shows, row⟩
    rcases shows.writeString (utf8 [c]) with ⟨screen, written, shown, _⟩
    have single : utf8 [c] = [UInt8.ofNat c.toNat] := by
      rw [utf8, List.flatMap_singleton, utf8EncodeChar_printable rejected.2]
    have pushed : editor.pushChar c = (true, (editor.pushChar c).2) := Prod.ext accepted rfl
    refine ⟨(editor.pushChar c).2, { terminal with screen := screen }.serialPrint [c], ?_, ?_, ?_,
      _, shown, ?_⟩
    · rw [handleEvent, pushed]
      simp only [Terminal.vgaPrint, written]
      rfl
    · intro other member
      rw [List.mem_append, List.mem_singleton] at member
      rcases member with old | rfl
      · exact edits.printable other old
      · exact rejected.2
    · rw [bytes, edits.bytes, utf8_append, single]
    · rw [bytes, ← List.append_assoc, single]
      apply row.writeString
      · intro byte member
        rw [List.mem_singleton] at member
        rw [member]
        exact byte_printable rejected.2
      · rw [utf8_prompt, List.length_append, editor.length_bytes]
        simp only [List.length_cons, List.length_nil, bufferWidth, lineCapacity] at room ⊢
        omega

/-- Backspace takes the last character from the line and from the screen, and does
nothing on an empty line. -/
theorem backspace (edits : Edits line editor terminal) (files : Files) :
    Exists fun editor' => Exists fun terminal' =>
      handleEvent files editor terminal .backspace = some (false, editor', terminal') ∧
      Edits (typeKey line .backspace) editor' terminal' := by
  have length := edits.length
  rw [typeKey]
  by_cases empty : editor.len = 0
  · have nothing : line = [] := List.length_eq_zero_iff.mp (length.trans empty)
    refine ⟨editor, terminal, ?_, ?_⟩
    · rw [handleEvent, LineEditor.popChar, if_pos empty]
    · rw [nothing] at edits ⊢
      exact edits
  · rcases LineEditor.popChar_nonempty empty with ⟨popped, bytes, _⟩
    rcases edits.shown with ⟨page, shows, row⟩
    rcases shows.backspace with ⟨screen, erased, shown, _⟩
    have pop : editor.popChar = (true, editor.popChar.2) := Prod.ext popped rfl
    rcases List.eq_nil_or_concat' line with rfl | ⟨front, last, rfl⟩
    · exact absurd length.symm empty
    · have single : utf8 [last] = [UInt8.ofNat last.toNat] := by
        rw [utf8, List.flatMap_singleton, utf8EncodeChar_printable (edits.printable last
          (List.mem_append_right _ List.mem_cons_self))]
      have split : editor.bytes = utf8 front ++ [UInt8.ofNat last.toNat] := by
        rw [edits.bytes, utf8_append, single]
      rw [split, List.dropLast_concat] at bytes
      rw [split, ← List.append_assoc] at row
      refine ⟨editor.popChar.2,
        { terminal with screen := screen }.serialPrint "\x08 \x08".toList, ?_, ?_, ?_, _, shown, ?_⟩
      · rw [handleEvent, pop]
        simp only [erased]
        rfl
      · intro c member
        rw [List.dropLast_concat] at member
        exact edits.printable c (List.mem_append_left _ member)
      · rw [bytes, List.dropLast_concat]
      · rw [bytes]
        exact row.backspace

/-- Enter runs the line and begins an empty one. -/
theorem enter (edits : Edits line editor terminal) (files : Files) :
    Exists fun editor' => Exists fun terminal' =>
      handleEvent files editor terminal .enter = some (true, editor', terminal') ∧
      Edits (typeKey line .enter) editor' terminal' := by
  rcases edits.shown with ⟨page, shows, row⟩
  have tidy : Tidy terminal := ⟨page, shows, row.clean⟩
  rcases tidy.vgaPrintln [] with ⟨fed, feeds, fresh⟩
  have kept : Fresh (fed.serialPrintln []) := fresh
  rcases kept.runLine files editor.asStr with ⟨ran, runs, fresh⟩
  rcases printPrompt fresh editor with ⟨prompted, prompts, empty⟩
  refine ⟨editor.clear, prompted, ?_, empty⟩
  rw [handleEvent, submitLine, feeds]
  simp only [Option.bind_eq_bind, Option.bind_some, runs, prompts]

theorem handleEvent (edits : Edits line editor terminal) (files : Files) (event : KeyEvent) :
    Exists fun submitted => Exists fun editor' => Exists fun terminal' =>
      Console.handleEvent files editor terminal event = some (submitted, editor', terminal') ∧
      Edits (typeKey line event) editor' terminal' := by
  cases event with
  | char c => exact ⟨false, edits.char files c⟩
  | backspace => exact ⟨false, edits.backspace files⟩
  | enter => exact ⟨true, edits.enter files⟩

end Edits

end Console
end Goatos
