namespace Goatos
namespace Library

/-!
# Labelled runs, invariants and forward simulation

A system is a step relation between states that records what was asked and
answered in its label.  A run is a finite sequence of steps, newest last, so
that an induction over it has the last step at hand.
-/

variable {State Label : Type}

/-- The finite runs of a labelled step relation, with their labels in order.  They
grow at the end, as induction on the last step is what invariants need. -/
inductive Run (step : State -> Label -> State -> Prop) (start : State) :
    List Label -> State -> Prop
  | nil : Run step start [] start
  | snoc {labels : List Label} {middle finish : State} {label : Label} :
      Run step start labels middle -> step middle label finish ->
      Run step start (labels ++ [label]) finish

namespace Run

variable {step : State -> Label -> State -> Prop} {start finish : State} {labels : List Label}

/-- A property of the start that every step preserves holds after every run. -/
theorem invariant (property : State -> Prop) (run : Run step start labels finish)
    (atStart : property start)
    (preserved : forall state label next, property state -> step state label next -> property next) :
    property finish := by
  induction run with
  | nil => exact atStart
  | snoc _ last inductionHypothesis => exact preserved _ _ _ inductionHypothesis last

theorem single {label : Label} (last : step start label finish) : Run step start [label] finish :=
  Run.snoc Run.nil last

theorem eq_of_nil (run : Run step start [] finish) : finish = start := by
  generalize empty : ([] : List Label) = labels at run
  cases run with
  | nil => rfl
  | snoc => simp at empty

theorem append {final : State} {more : List Label} (first : Run step start labels finish)
    (second : Run step finish more final) : Run step start (labels ++ more) final := by
  induction second with
  | nil => rwa [List.append_nil]
  | snoc _ last inductionHypothesis =>
      rw [← List.append_assoc]
      exact Run.snoc inductionHypothesis last

theorem cons {middle : State} {label : Label} (first : step start label middle)
    (rest : Run step middle labels finish) : Run step start (label :: labels) finish :=
  (Run.single first).append rest

theorem mono {step' : State -> Label -> State -> Prop}
    (included : forall state label next, step state label next -> step' state label next)
    (run : Run step start labels finish) : Run step' start labels finish := by
  induction run with
  | nil => exact Run.nil
  | snoc _ last inductionHypothesis => exact Run.snoc inductionHypothesis (included _ _ _ last)

end Run

/-- Forward simulation: a relation that every concrete step can answer with an
abstract step of the same label turns every concrete run into an abstract one
over the same labels, ending in related states. -/
theorem Run.simulate {Abstract : Type} {step : State -> Label -> State -> Prop}
    {abstractStep : Abstract -> Label -> Abstract -> Prop} {related : State -> Abstract -> Prop}
    {start finish : State} {abstractStart : Abstract} {labels : List Label}
    (run : Run step start labels finish) (initially : related start abstractStart)
    (simulates : forall state label next abstract, related state abstract ->
      step state label next ->
        Exists fun abstractNext => abstractStep abstract label abstractNext ∧ related next abstractNext) :
    Exists fun abstractFinish =>
      Run abstractStep abstractStart labels abstractFinish ∧ related finish abstractFinish := by
  induction run with
  | nil => exact ⟨abstractStart, Run.nil, initially⟩
  | snoc _ last inductionHypothesis =>
      rcases inductionHypothesis with ⟨abstractMiddle, abstractRun, relatedMiddle⟩
      rcases simulates _ _ _ _ relatedMiddle last with ⟨abstractNext, answer, relatedNext⟩
      exact ⟨abstractNext, Run.snoc abstractRun answer, relatedNext⟩

end Library
end Goatos
