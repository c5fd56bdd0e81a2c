import Mathlib.Logic.Function.Basic
import Goatos.Input.Keyboard

namespace Goatos
namespace Input

open Library

/-!
# The keys that are held

A keyboard of scancode set 1 sends one byte for an ordinary key and a prefix with a
second byte for an extended one.  It sends the same code for a press and for every
repetition, and the code with the break flag for a release.

The driver remembers one bit for both Shift keys.  A stroke of either of them
overwrites it, so the bit tells what the last of these strokes was, and not whether
a Shift key is held.  The two differ after the release of one Shift key while the
other one is held.
-/

/-! ## Keys and strokes -/

/-- A key by its code.  With the break flag a code must not look like the prefix. -/
structure Key where
  extended : Bool
  code : UInt8
  code_lt : code < 0x80
  code_ne : code ≠ 0x60
  deriving DecidableEq

def leftShift : Key := ⟨false, scanLshift, by decide, by decide⟩

def rightShift : Key := ⟨false, scanRshift, by decide, by decide⟩

def Key.isShift (key : Key) : Bool :=
  key = leftShift || key = rightShift

inductive Action where
  | press
  | autoRepeat
  | release
  deriving DecidableEq, Repr

structure Stroke where
  key : Key
  action : Action
  deriving DecidableEq

namespace Stroke

def isRelease (stroke : Stroke) : Bool :=
  stroke.action = .release

/-- The bytes that the keyboard sends for a stroke: the code, with the break flag
for a release, and the prefix before it for an extended key. -/
def scancodes (stroke : Stroke) : List UInt8 :=
  let scancode := if stroke.isRelease then stroke.key.code ||| scancodeBreak else stroke.key.code
  if stroke.key.extended then [scancodeExtended, scancode] else [scancode]

/-- The event of a stroke, given whether Shift counts as held: the make of an ordinary
key that the layout maps. -/
def event (shift : Bool) (stroke : Stroke) : Option KeyEvent :=
  if stroke.key.extended || stroke.isRelease then none else translate stroke.key.code shift

/-- The stroke makes a key whose event depends on Shift, so that the driver has to
know. -/
def Cased (stroke : Stroke) : Prop :=
  stroke.event true ≠ stroke.event false

def hold (held : Key -> Bool) (stroke : Stroke) : Key -> Bool :=
  Function.update held stroke.key (!stroke.isRelease)

/-- Whether the last stroke of a Shift key was a make. -/
def lastShift (made : Bool) (stroke : Stroke) : Bool :=
  if stroke.key.isShift then !stroke.isRelease else made

end Stroke

/-- The keys that are held after some strokes, if none was held before.  The driver's
bit is compared with this. -/
def heldAfter (strokes : List Stroke) : Key -> Bool :=
  strokes.foldl Stroke.hold (fun _ => false)

def shiftHeld (held : Key -> Bool) : Bool :=
  held leftShift || held rightShift

def lastShiftAfter (strokes : List Stroke) : Bool :=
  strokes.foldl Stroke.lastShift false

/-- The events that the keys call for, each with the Shift keys as they are held at
that moment. -/
def keyEvents : (held : Key -> Bool) -> List Stroke -> List KeyEvent
  | _, [] => []
  | held, stroke :: rest =>
      (stroke.event (shiftHeld held)).toList ++ keyEvents (stroke.hold held) rest

/-! ## What the driver offers to the queue -/

namespace Keyboard

/-- The event that `handle_scancode` pushes, or tries to.  Whether there is room for
it is the queue's affair. -/
def offers (keyboard : Keyboard) (scancode : UInt8) : Option KeyEvent :=
  if scancode = scancodeExtended ∨ keyboard.extended = true then none
  else
    let make := scancode &&& ~~~scancodeBreak
    if (make = scanLshift ∨ make = scanRshift) ∨ scancode &&& scancodeBreak ≠ 0 then none
    else translate make keyboard.shift

def receive (keyboard : Keyboard) (scancodes : List UInt8) : Keyboard :=
  scancodes.foldl (fun keyboard scancode => handleScancode scancode keyboard) keyboard

/-- The events offered in the course of some bytes. -/
def offeredEvents : Keyboard -> List UInt8 -> List KeyEvent
  | _, [] => []
  | keyboard, scancode :: rest =>
      (keyboard.offers scancode).toList ++ (handleScancode scancode keyboard).offeredEvents rest

def typed (keyboard : Keyboard) (strokes : List Stroke) : Keyboard :=
  keyboard.receive (strokes.flatMap Stroke.scancodes)

end Keyboard

/-- The queue after some events were pushed, whether they found room or not. -/
def Queue.pushAll (queue : Queue) (events : List KeyEvent) : Queue :=
  events.foldl (fun queue event => (queue.push event).2) queue

/-- The driver follows the keys.  The events it offers are those of the makes, with the
Shift keys as they are held; they go to the queue in this order; and extended keys
and the releases of other keys leave the Shift state alone. -/
structure FollowsKeys (keyboard : Keyboard) (strokes : List Stroke) : Prop where
  events : keyboard.offeredEvents (strokes.flatMap Stroke.scancodes) =
    keyEvents (fun _ => false) strokes
  queue : (keyboard.typed strokes).queue = keyboard.queue.pushAll
    (keyboard.offeredEvents (strokes.flatMap Stroke.scancodes))
  quiet : forall before stroke after, strokes = before ++ stroke :: after ->
    stroke.key.extended = true ∨ (stroke.isRelease = true ∧ stroke.key.isShift = false) ->
      (keyboard.typed (before ++ [stroke])).shift = (keyboard.typed before).shift

/-! ## One byte -/

theorem handleScancode_extended (keyboard : Keyboard) :
    handleScancode scancodeExtended keyboard = { keyboard with extended := true } ∧
      keyboard.offers scancodeExtended = none :=
  ⟨if_pos rfl, if_pos (Or.inl rfl)⟩

theorem handleScancode_second {keyboard : Keyboard} {scancode : UInt8}
    (notPrefix : scancode ≠ scancodeExtended) (second : keyboard.extended = true) :
    handleScancode scancode keyboard = { keyboard with extended := false } ∧
      keyboard.offers scancode = none := by
  rw [handleScancode, if_neg notPrefix, if_pos second]
  exact ⟨rfl, if_pos (Or.inr second)⟩

/-- A byte that belongs to no extended key concerns a Shift key, is a release, or is
translated; in each case this is all that happens. -/
theorem handleScancode_plain {keyboard : Keyboard} {scancode : UInt8}
    (notPrefix : scancode ≠ scancodeExtended) (plain : keyboard.extended = false) :
    let make := scancode &&& ~~~scancodeBreak
    ((make = scanLshift ∨ make = scanRshift) ∧ keyboard.offers scancode = none ∧
      handleScancode scancode keyboard =
        { keyboard with shift := !(scancode &&& scancodeBreak ≠ 0 : Bool) }) ∨
    (¬ (make = scanLshift ∨ make = scanRshift) ∧ scancode &&& scancodeBreak ≠ 0 ∧
      keyboard.offers scancode = none ∧ handleScancode scancode keyboard = keyboard) ∨
    (¬ (make = scanLshift ∨ make = scanRshift) ∧ scancode &&& scancodeBreak = 0 ∧
      keyboard.offers scancode = translate make keyboard.shift ∧
      (handleScancode scancode keyboard).extended = false ∧
      (handleScancode scancode keyboard).shift = keyboard.shift ∧
      (handleScancode scancode keyboard).queue =
        keyboard.queue.pushAll (translate make keyboard.shift).toList) := by
  intro make
  have notSecond : ¬ keyboard.extended = true := by
    rw [plain]
    exact Bool.false_ne_true
  rw [Keyboard.offers, if_neg (not_or.mpr ⟨notPrefix, notSecond⟩), handleScancode,
    if_neg notPrefix, if_neg notSecond]
  simp only [decide_eq_true_eq]
  by_cases shift : make = scanLshift ∨ make = scanRshift
  · rw [if_pos (Or.inl shift), if_pos shift]
    exact Or.inl ⟨shift, rfl, rfl⟩
  · rw [if_neg shift]
    by_cases released : scancode &&& scancodeBreak ≠ 0
    · rw [if_pos (Or.inr released), if_pos released]
      exact Or.inr (Or.inl ⟨shift, released, rfl, rfl⟩)
    · rw [if_neg (not_or.mpr ⟨shift, released⟩), if_neg released]
      refine Or.inr (Or.inr ⟨shift, Decidable.not_not.mp released, rfl, ?_⟩)
      cases translate make keyboard.shift with
      | none => exact ⟨plain, rfl, rfl⟩
      | some event => exact ⟨plain, rfl, rfl⟩

theorem handleScancode_queue (keyboard : Keyboard) (scancode : UInt8) :
    (handleScancode scancode keyboard).queue =
      keyboard.queue.pushAll (keyboard.offers scancode).toList := by
  by_cases first : scancode = scancodeExtended
  · rw [first, (handleScancode_extended keyboard).1, (handleScancode_extended keyboard).2]
    rfl
  · cases second : keyboard.extended with
    | true =>
        rw [(handleScancode_second first second).1, (handleScancode_second first second).2]
        rfl
    | false =>
        rcases handleScancode_plain first second with
          ⟨_, offered, handled⟩ | ⟨_, _, offered, handled⟩ | ⟨_, _, offered, _, _, pushed⟩
        · rw [offered, handled]
          rfl
        · rw [offered, handled]
          rfl
        · rw [offered, pushed]

theorem receive_queue (keyboard : Keyboard) (scancodes : List UInt8) :
    (keyboard.receive scancodes).queue =
      keyboard.queue.pushAll (keyboard.offeredEvents scancodes) := by
  induction scancodes generalizing keyboard with
  | nil => rfl
  | cons scancode rest inductionHypothesis =>
      rw [Keyboard.receive, List.foldl_cons, ← Keyboard.receive, inductionHypothesis,
        handleScancode_queue, Keyboard.offeredEvents, Queue.pushAll, Queue.pushAll, Queue.pushAll,
        List.foldl_append]

/-! ## One stroke -/

/-- A code and its break flag are found again in the byte that is sent. -/
theorem Key.code_bits (key : Key) (released : Bool) :
    let scancode := if released then key.code ||| scancodeBreak else key.code
    scancode ≠ scancodeExtended ∧ (scancode &&& scancodeBreak ≠ 0 ↔ released = true) ∧
      scancode &&& ~~~scancodeBreak = key.code := by
  have all : forall (code : Fin 128) (released : Bool), code.val ≠ 0x60 ->
      let scancode := if released then UInt8.ofNat code.val ||| scancodeBreak
        else UInt8.ofNat code.val
      scancode ≠ scancodeExtended ∧ (scancode &&& scancodeBreak ≠ 0 ↔ released = true) ∧
        scancode &&& ~~~scancodeBreak = UInt8.ofNat code.val := by
    decide +kernel
  have low : key.code.toNat < 128 := UInt8.lt_iff_toNat_lt.mp key.code_lt
  have found := all ⟨key.code.toNat, low⟩ released
    (fun same => key.code_ne (UInt8.toNat_inj.mp same))
  simp only [UInt8.ofNat_toNat] at found
  exact found

theorem translate_shift {code : UInt8} (shift : code = scanLshift ∨ code = scanRshift)
    (held : Bool) : translate code held = none := by
  rcases shift with rfl | rfl
  · cases held with
    | false => decide
    | true => decide
  · cases held with
    | false => decide
    | true => decide

/-- The form of an event that goes with Shift: a letter in upper case, and the underscore
for the minus sign.  Nothing else has a second form. -/
def KeyEvent.shifted : KeyEvent -> KeyEvent
  | .char c => .char (if c = '-' then '_' else c.toUpper)
  | .enter => .enter
  | .backspace => .backspace

/-- With Shift, a code stands for the shifted form of what it stands for without. -/
theorem translate_shifted (code : UInt8) :
    translate code true = (translate code false).map KeyEvent.shifted := by
  revert code
  refine forall_byte ?_
  decide +kernel

/-- Shift changes an event, but not whether there is one. -/
theorem isSome_translate (code : UInt8) (shift other : Bool) :
    (translate code shift).isSome = (translate code other).isSome := by
  have plain : forall shift, (translate code shift).isSome = (translate code false).isSome := by
    intro shift
    cases shift with
    | false => rfl
    | true => rw [translate_shifted, Option.isSome_map]
  rw [plain shift, plain other]

section Strokes

variable {keyboard : Keyboard}

theorem Key.isShift_iff (key : Key) :
    key.isShift = true ↔ key.extended = false ∧ (key.code = scanLshift ∨ key.code = scanRshift) := by
  rcases key with ⟨extended, code, _, _⟩
  simp only [isShift, leftShift, rightShift, Bool.or_eq_true, decide_eq_true_eq, Key.mk.injEq]
  exact and_or_left.symm

/-- A stroke leaves the driver ready for the next one, with its Shift bit overwritten
by a Shift key only, and has offered the event that this bit stands for. -/
theorem receive_stroke (plain : keyboard.extended = false) (stroke : Stroke) :
    (keyboard.receive stroke.scancodes).extended = false ∧
      (keyboard.receive stroke.scancodes).shift = stroke.lastShift keyboard.shift ∧
      keyboard.offeredEvents stroke.scancodes = (stroke.event keyboard.shift).toList := by
  rcases stroke.key.code_bits stroke.isRelease with ⟨notPrefix, released, code⟩
  have shift := stroke.key.isShift_iff
  unfold Stroke.scancodes Stroke.lastShift Stroke.event
  generalize (if stroke.isRelease = true then stroke.key.code ||| scancodeBreak
    else stroke.key.code) = scancode at notPrefix released code ⊢
  cases extended : stroke.key.extended with
  | true =>
      have other : ¬ stroke.key.isShift = true := by
        rw [shift, extended]
        exact fun both => Bool.noConfusion both.1
      rcases handleScancode_extended keyboard with ⟨remembered, first⟩
      rcases @handleScancode_second { keyboard with extended := true } scancode notPrefix rfl with
        ⟨dropped, second⟩
      have received : keyboard.receive [scancodeExtended, scancode] =
          { keyboard with extended := false } := by
        simp only [Keyboard.receive, List.foldl_cons, List.foldl_nil, remembered, dropped]
      rw [if_pos rfl, received, if_neg other]
      refine ⟨rfl, rfl, ?_⟩
      simp only [Keyboard.offeredEvents, first, remembered, second]
      rfl
  | false =>
      have received : keyboard.receive [scancode] = handleScancode scancode keyboard := rfl
      have offered : keyboard.offeredEvents [scancode] = (keyboard.offers scancode).toList :=
        List.append_nil _
      rw [if_neg Bool.false_ne_true, received, offered, Bool.false_or]
      rw [extended, ← code] at shift
      rcases handleScancode_plain notPrefix plain with
        ⟨isShift, none, handled⟩ | ⟨other, isRelease, none, handled⟩ |
        ⟨other, isMake, event, stillPlain, kept, _⟩
      · have flag : decide (scancode &&& scancodeBreak ≠ 0) = stroke.isRelease := by
          rw [Bool.eq_iff_iff, decide_eq_true_eq, released]
        have unmapped : translate stroke.key.code keyboard.shift = Option.none := by
          rw [← code]
          exact translate_shift isShift _
        rw [handled, none, if_pos (shift.mpr ⟨rfl, isShift⟩), flag, unmapped, ite_self]
        exact ⟨plain, rfl, rfl⟩
      · rw [handled, none, if_neg (fun isShift => other (shift.mp isShift).2),
          if_pos (released.mp isRelease)]
        exact ⟨plain, rfl, rfl⟩
      · have isPress : ¬ stroke.isRelease = true := fun isRelease => released.mpr isRelease isMake
        rw [event, stillPlain, kept, code, if_neg (fun isShift => other (shift.mp isShift).2),
          if_neg isPress]
        exact ⟨rfl, rfl, rfl⟩

/-! ## Runs of strokes -/

theorem receive_append (keyboard : Keyboard) (first second : List UInt8) :
    keyboard.receive (first ++ second) = (keyboard.receive first).receive second :=
  List.foldl_append

theorem offeredEvents_append (keyboard : Keyboard) (first second : List UInt8) :
    keyboard.offeredEvents (first ++ second) =
      keyboard.offeredEvents first ++ (keyboard.receive first).offeredEvents second := by
  induction first generalizing keyboard with
  | nil => rfl
  | cons scancode rest inductionHypothesis =>
      rw [List.cons_append, Keyboard.offeredEvents, Keyboard.offeredEvents, inductionHypothesis,
        List.append_assoc]
      rfl

/-- Between strokes the driver is never in the middle of an extended key, and its bit
is the last stroke of a Shift key. -/
theorem typed_state (plain : keyboard.extended = false) (strokes : List Stroke) :
    (keyboard.typed strokes).extended = false ∧
      (keyboard.typed strokes).shift = strokes.foldl Stroke.lastShift keyboard.shift := by
  induction strokes generalizing keyboard with
  | nil => exact ⟨plain, rfl⟩
  | cons stroke rest inductionHypothesis =>
      rcases receive_stroke plain stroke with ⟨stillPlain, shift, _⟩
      rw [Keyboard.typed, List.flatMap_cons, receive_append, List.foldl_cons, ← shift]
      exact inductionHypothesis stillPlain

theorem typed_quiet (plain : keyboard.extended = false) (before : List Stroke) {stroke : Stroke}
    (other : stroke.key.extended = true ∨
      (stroke.isRelease = true ∧ stroke.key.isShift = false)) :
    (keyboard.typed (before ++ [stroke])).shift = (keyboard.typed before).shift := by
  have notShift : ¬ stroke.key.isShift = true := by
    rcases other with extended | ⟨_, notShift⟩
    · rw [stroke.key.isShift_iff, extended]
      exact fun both => Bool.noConfusion both.1
    · rw [notShift]
      exact Bool.false_ne_true
  rw [(typed_state plain _).2, (typed_state plain _).2, List.foldl_append, List.foldl_cons,
    List.foldl_nil, Stroke.lastShift, if_neg notShift]

/-- The two events of a stroke agree if the bit is right, or if it does not matter
for this key. -/
theorem event_eq_iff (stroke : Stroke) (shift other : Bool) :
    stroke.event shift = stroke.event other ↔ (stroke.Cased -> shift = other) := by
  unfold Stroke.Cased
  cases shift with
  | false =>
      cases other with
      | false => exact iff_of_true rfl (fun _ => rfl)
      | true =>
          constructor
          · exact fun same cased => absurd same.symm cased
          · exact fun uncased => Decidable.byContradiction fun differ =>
              Bool.false_ne_true (uncased (Ne.symm differ))
  | true =>
      cases other with
      | true => exact iff_of_true rfl (fun _ => rfl)
      | false =>
          constructor
          · exact fun same cased => absurd same cased
          · exact fun uncased => Decidable.byContradiction fun differ =>
              Bool.false_ne_true (uncased differ).symm

theorem isSome_event (stroke : Stroke) (shift other : Bool) :
    (stroke.event shift).isSome = (stroke.event other).isSome := by
  unfold Stroke.event
  split
  · rfl
  · exact isSome_translate _ _ _

theorem toList_append_inj {left right : Option KeyEvent} {first second : List KeyEvent}
    (both : left.isSome = right.isSome) :
    left.toList ++ first = right.toList ++ second ↔ left = right ∧ first = second := by
  cases left with
  | none =>
      cases right with
      | none => exact (and_iff_right rfl).symm
      | some event => cases both
  | some event =>
      cases right with
      | none => cases both
      | some other =>
          rw [Option.some.injEq]
          exact List.cons.injEq _ _ _ _ ▸ Iff.rfl

/-- The events are right exactly if the bit is right at every stroke for which it
matters. -/
theorem offeredEvents_iff (plain : keyboard.extended = false) (held : Key -> Bool)
    (strokes : List Stroke) :
    keyboard.offeredEvents (strokes.flatMap Stroke.scancodes) = keyEvents held strokes ↔
      forall before stroke after, strokes = before ++ stroke :: after -> stroke.Cased ->
        before.foldl Stroke.lastShift keyboard.shift =
          shiftHeld (before.foldl Stroke.hold held) := by
  induction strokes generalizing keyboard held with
  | nil =>
      refine iff_of_true rfl ?_
      intro before stroke after split
      cases before with
      | nil => cases split
      | cons => cases split
  | cons stroke rest inductionHypothesis =>
      rcases receive_stroke plain stroke with ⟨stillPlain, shift, offered⟩
      rw [List.flatMap_cons, offeredEvents_append, offered, keyEvents,
        toList_append_inj (isSome_event _ _ _), event_eq_iff, inductionHypothesis stillPlain, shift]
      constructor
      · rintro ⟨here, later⟩ before other after split cased
        cases before with
        | nil =>
            cases split
            exact here cased
        | cons first before =>
            cases split
            exact later before other after rfl cased
      · intro all
        refine ⟨all [] stroke rest rfl, ?_⟩
        intro before other after split cased
        exact all (stroke :: before) other after (by rw [split]; rfl) cased

end Strokes

/-- A stroke keeps it true that a Shift key is held if the last stroke of a Shift
key was a make. -/
theorem shiftHeld_hold {held : Key -> Bool} {made : Bool}
    (sound : made = true -> shiftHeld held = true) (stroke : Stroke)
    (stillMade : stroke.lastShift made = true) : shiftHeld (stroke.hold held) = true := by
  unfold Stroke.lastShift at stillMade
  unfold Stroke.hold shiftHeld
  by_cases shift : stroke.key.isShift = true
  · rw [if_pos shift] at stillMade
    rw [stillMade]
    unfold Key.isShift at shift
    rw [Bool.or_eq_true, decide_eq_true_eq, decide_eq_true_eq] at shift
    rcases shift with left | right
    · rw [left, Function.update_self, Bool.true_or]
    · rw [right, Function.update_self, Bool.or_true]
  · rw [if_neg shift] at stillMade
    unfold Key.isShift at shift
    rw [Bool.or_eq_true, decide_eq_true_eq, decide_eq_true_eq, not_or] at shift
    rw [Function.update_of_ne (Ne.symm shift.1), Function.update_of_ne (Ne.symm shift.2)]
    exact sound stillMade

theorem shiftHeld_of_lastShift (strokes : List Stroke) {held : Key -> Bool} {made : Bool}
    (sound : made = true -> shiftHeld held = true)
    (stillMade : strokes.foldl Stroke.lastShift made = true) :
    shiftHeld (strokes.foldl Stroke.hold held) = true := by
  induction strokes generalizing held made with
  | nil => exact sound stillMade
  | cons stroke rest inductionHypothesis =>
      exact inductionHypothesis (shiftHeld_hold sound stroke) stillMade

/-- A Shift key is held, but the last stroke of a Shift key was the release of the other
one. -/
def Stale (strokes : List Stroke) : Prop :=
  shiftHeld (heldAfter strokes) = true ∧ lastShiftAfter strokes = false

/-- The driver follows the keys exactly as long as no key with two forms is made between
the release of one Shift key, the other one being held, and the next make of a Shift
key. -/
theorem keyboard_follows_keys_iff {keyboard : Keyboard} (plain : keyboard.extended = false)
    (unshifted : keyboard.shift = false) (strokes : List Stroke) :
    FollowsKeys keyboard strokes ↔
      forall before stroke after, strokes = before ++ stroke :: after -> stroke.Cased ->
        ¬ Stale before := by
  have follows : FollowsKeys keyboard strokes ↔
      keyboard.offeredEvents (strokes.flatMap Stroke.scancodes) =
        keyEvents (fun _ => false) strokes :=
    ⟨FollowsKeys.events, fun events => ⟨events, receive_queue _ _,
      fun before _ _ _ other => typed_quiet plain before other⟩⟩
  rw [follows, offeredEvents_iff plain, unshifted]
  have agree : forall before : List Stroke,
      lastShiftAfter before = shiftHeld (heldAfter before) ↔ ¬ Stale before := by
    intro before
    have held : lastShiftAfter before = true -> shiftHeld (heldAfter before) = true :=
      shiftHeld_of_lastShift before (fun made => Bool.noConfusion made)
    unfold Stale
    cases last : lastShiftAfter before with
    | true => exact iff_of_true (held last).symm (fun stale => Bool.noConfusion stale.2)
    | false =>
        rw [and_iff_left rfl, Bool.not_eq_true]
        exact eq_comm
  exact forall_congr' fun before => forall_congr' fun stroke => forall_congr' fun after =>
    forall_congr' fun _ => forall_congr' fun _ => agree before

/-- The driver as `init` leaves it, with an empty queue. -/
def freshKeyboard : Keyboard := ⟨false, false, 0, Queue.new⟩

def letterKey : Key := ⟨false, 0x1e, by decide, by decide⟩

/-- Shift is held with one hand, and a letter is typed with the other one. -/
theorem keyboard_follows_keys_shifted :
    FollowsKeys freshKeyboard [⟨leftShift, .press⟩, ⟨letterKey, .press⟩] := by
  refine (keyboard_follows_keys_iff rfl rfl _).mpr ?_
  intro before stroke after split cased stale
  rcases before with _ | ⟨first, _ | ⟨second, rest⟩⟩
  · cases split
    exact cased (by decide)
  · cases split
    exact Bool.noConfusion stale.2
  · simp at split

/-- Both Shift keys are pressed and one is released: the letter comes out small, with a
Shift key held. -/
theorem keyboard_forgets_held_shift :
    let strokes : List Stroke := [⟨leftShift, .press⟩, ⟨rightShift, .press⟩, ⟨rightShift, .release⟩,
      ⟨letterKey, .press⟩]
    shiftHeld (heldAfter strokes) = true ∧
      freshKeyboard.offeredEvents (strokes.flatMap Stroke.scancodes) = [.char 'a'] ∧
      keyEvents (fun _ => false) strokes = [.char 'A'] ∧ ¬ FollowsKeys freshKeyboard strokes := by
  intro strokes
  have offered : freshKeyboard.offeredEvents (strokes.flatMap Stroke.scancodes) = [.char 'a'] := by
    decide
  have due : keyEvents (fun _ => false) strokes = [.char 'A'] := by decide
  refine ⟨by decide, offered, due, ?_⟩
  intro follows
  have same := follows.events
  rw [offered, due] at same
  exact absurd same (by decide)

end Input
end Goatos
