namespace Goatos
namespace Library

/-!
# Loops

The body of a `while` loop either goes round again from a changed state or
leaves with a result; `continue`, `break` and `return` are all of this form.
Two ways of running such a body are provided.

`WhileLoop` carries a measure that every further pass decreases, so its run
is a total function.  `runFor` needs no measure and gives up after a number of
passes; it is used where the loop follows pointers and terminates only because
of an invariant.  Both are structurally recursive, so they compute.

`forRange` is a counting loop whose body can fail.
-/

/-- The outcome of one pass through a loop body: go round again, or leave with a
result. -/
inductive Pass (State Result : Type) where
  | again (state : State)
  | leave (result : Result)

variable {State Result : Type}

/-- Run at most `fuel` passes of a body; `none` means it has not left yet. -/
def runFor (body : State -> Pass State Result) : (fuel : Nat) -> State -> Option Result
  | 0, _ => none
  | fuel + 1, state =>
      match body state with
      | .again next => runFor body fuel next
      | .leave result => some result

/-- However many passes are allowed, a body that leaves does so with one
result. -/
theorem runFor_unique {body : State -> Pass State Result} {fuel fuel' : Nat} {state : State}
    {result result' : Result} (first : runFor body fuel state = some result)
    (second : runFor body fuel' state = some result') : result = result' := by
  induction fuel generalizing fuel' state with
  | zero => cases first
  | succ fuel inductionHypothesis =>
      cases fuel' with
      | zero => cases second
      | succ fuel' =>
          simp only [runFor] at first second
          cases pass : body state with
          | again next =>
              rw [pass] at first second
              exact inductionHypothesis first second
          | leave left =>
              rw [pass] at first second
              exact Option.some.inj (first.symm.trans second)

/-- A loop body together with the reason why it cannot run forever. -/
structure WhileLoop (State Result : Type) where
  body : State -> Pass State Result
  measure : State -> Nat
  decreases : forall state next, body state = .again next -> measure next < measure state

namespace WhileLoop

/-- Run a measured body.  The fuel is more than the measure, so the case without fuel
is impossible. -/
def runWithin (loop : WhileLoop State Result) :
    (fuel : Nat) -> (state : State) -> loop.measure state < fuel -> Result
  | 0, _, bound => absurd bound (Nat.not_lt_zero _)
  | fuel + 1, state, bound =>
      match pass : loop.body state with
      | .again next => loop.runWithin fuel next
          (Nat.lt_of_lt_of_le (loop.decreases state next pass) (Nat.le_of_lt_succ bound))
      | .leave result => result

def run (loop : WhileLoop State Result) (state : State) : Result :=
  loop.runWithin (loop.measure state + 1) state (Nat.lt_succ_self _)

/-- Backward rule: a relation between entry state and result that holds at
every exit and is carried back over every further pass holds of the run. -/
theorem run_rule (loop : WhileLoop State Result) (relation : State -> Result -> Prop)
    (atLeave : forall state result, loop.body state = .leave result -> relation state result)
    (atAgain : forall state next result, loop.body state = .again next ->
      relation next result -> relation state result)
    (state : State) : relation state (loop.run state) := by
  suffices within : forall fuel state (bound : loop.measure state < fuel),
      relation state (loop.runWithin fuel state bound) from within _ _ _
  intro fuel
  induction fuel with
  | zero => intro state bound; exact absurd bound (Nat.not_lt_zero _)
  | succ fuel inductionHypothesis =>
      intro state bound
      rw [runWithin]
      split
      · rename_i next pass
        exact atAgain state next _ pass (inductionHypothesis next _)
      · rename_i result pass
        exact atLeave state result pass

/-- More passes than the measure are enough, so both ways of running a body
agree. -/
theorem runFor_of_lt (loop : WhileLoop State Result) {fuel : Nat} {state : State}
    (bound : loop.measure state < fuel) : runFor loop.body fuel state = some (loop.run state) := by
  refine loop.run_rule (fun state result => forall fuel, loop.measure state < fuel ->
    runFor loop.body fuel state = some result) ?_ ?_ state fuel bound
  · intro state result pass fuel bound
    cases fuel with
    | zero => exact absurd bound (Nat.not_lt_zero _)
    | succ fuel => simp only [runFor, pass]
  · intro state next result pass rest fuel bound
    cases fuel with
    | zero => exact absurd bound (Nat.not_lt_zero _)
    | succ fuel =>
        have fewer := Nat.lt_of_lt_of_le (loop.decreases state next pass) (Nat.le_of_lt_succ bound)
        simp only [runFor, pass, rest fuel fewer]

end WhileLoop

/-- Run a body for `count` values of the counter from `start` on; `none` is a
failure of the body. -/
def forRange (body : Nat -> State -> Option State) : (start count : Nat) -> State -> Option State
  | _, 0, state => some state
  | start, count + 1, state =>
      match body start state with
      | none => none
      | some next => forRange body (start + 1) count next

/-- An invariant that every pass carries to the next value of the counter holds at
the end, and the loop gets there. -/
theorem forRange_rule (body : Nat -> State -> Option State) (start count : Nat)
    (invariant : Nat -> State -> Prop) {state : State} (initially : invariant start state)
    (pass : forall index state, start ≤ index -> index < start + count -> invariant index state ->
      Exists fun next => body index state = some next ∧ invariant (index + 1) next) :
    Exists fun final => forRange body start count state = some final ∧
      invariant (start + count) final := by
  induction count generalizing start state with
  | zero => exact ⟨state, rfl, initially⟩
  | succ count inductionHypothesis =>
      rcases pass start state (Nat.le_refl _) (by omega) initially with ⟨next, passed, carried⟩
      have rest := inductionHypothesis (start + 1) carried
        (fun index state lower upper => pass index state (by omega) (by omega))
      rcases rest with ⟨final, ran, holds⟩
      refine ⟨final, ?_, ?_⟩
      · rw [forRange, passed]
        exact ran
      · rwa [Nat.add_assoc, Nat.add_comm 1] at holds

end Library
end Goatos
