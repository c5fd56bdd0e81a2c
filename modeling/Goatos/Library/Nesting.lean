import Goatos.Library.Transition

namespace Goatos
namespace Library

/-!
# Nested activations

Code that calls other code, or is interrupted, leaves its frame on a stack until
that code returns.  Here a frame knows how the state was when it was entered:
`before frame` computes that from the present state, or from the part of it that is
of interest.  A frame that is entered, and one that goes on, may change the state
as long as it still knows what was before; a frame that is left must have put it
back.

If all steps are of this kind, code that was entered and has been left again has
changed nothing, however many activations were nested inside it.
-/

variable {Frame View : Type} {before : Frame -> View -> View} {fits : Frame -> View -> Prop}
  {bottom : View -> Prop}

/-- The view below some frames, innermost frame first: what is there once all of
them have been left. -/
def unwind (before : Frame -> View -> View) : List Frame -> View -> View
  | [], view => view
  | frame :: frames, view => unwind before frames (before frame view)

theorem unwind_append (above below : List Frame) (view : View) :
    unwind before (above ++ below) view = unwind before below (unwind before above view) := by
  induction above generalizing view with
  | nil => rfl
  | cons frame above inductionHypothesis => exact inductionHypothesis _

/-- Every frame fits the view that the frames inside it lead back to. -/
def Nested (before : Frame -> View -> View) (fits : Frame -> View -> Prop)
    (bottom : View -> Prop) : List Frame -> View -> Prop
  | [], view => bottom view
  | frame :: frames, view => fits frame view ∧ Nested before fits bottom frames (before frame view)

/-- A frame is entered, the innermost one goes on, or it is left.  In the first two
cases what was before stays the same. -/
inductive Move (before : Frame -> View -> View) (fits : Frame -> View -> Prop) :
    List Frame -> View -> List Frame -> View -> Prop
  | enter {frames : List Frame} {view : View} (frame : Frame) (view' : View)
      (kept : before frame view' = view) (fitting : fits frame view') :
      Move before fits frames view (frame :: frames) view'
  | proceed {frame : Frame} {frames : List Frame} {view : View} (frame' : Frame) (view' : View)
      (kept : before frame' view' = before frame view) (fitting : fits frame' view') :
      Move before fits (frame :: frames) view (frame' :: frames) view'
  | leave {frame : Frame} {frames : List Frame} {view : View} :
      Move before fits (frame :: frames) view frames (before frame view)

namespace Move

variable {frames frames' : List Frame} {view view' : View}

theorem nested (move : Move before fits frames view frames' view')
    (nested : Nested before fits bottom frames view) : Nested before fits bottom frames' view' := by
  cases move with
  | enter frame view' kept fitting =>
      refine ⟨fitting, ?_⟩
      rw [kept]
      exact nested
  | proceed frame' view' kept fitting =>
      refine ⟨fitting, ?_⟩
      rw [kept]
      exact nested.2
  | leave => exact nested.2

/-- Whatever happens above some frames, these frames stay, and so does the view that
is found below the others. -/
theorem keeps_below (move : Move before fits frames view frames' view') (above below : List Frame)
    (split : frames = above ++ below) (inside : above ≠ []) :
    Exists fun above' => frames' = above' ++ below ∧
      unwind before above' view' = unwind before above view := by
  rcases List.exists_cons_of_ne_nil inside with ⟨top, rest, rfl⟩
  cases move with
  | enter frame view' kept fitting =>
      refine ⟨frame :: top :: rest, by rw [split]; rfl, ?_⟩
      rw [unwind, kept]
  | proceed frame' view' kept fitting =>
      rcases List.cons.inj split with ⟨rfl, rfl⟩
      refine ⟨frame' :: rest, rfl, ?_⟩
      rw [unwind, unwind, kept]
  | leave =>
      rcases List.cons.inj split with ⟨rfl, rfl⟩
      exact ⟨rest, rfl, rfl⟩

end Move

end Library
end Goatos
