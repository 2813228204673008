/-
  Machines that are driven by a table of transitions.

  A trigger without a row for the present state is refused
  and leaves the state as it is.

  Key definitions include:
    * `Transition`
    * `StateMachine`
    * `StateMachine.make?`
    * `StateMachine.target?`
    * `StateMachine.fire`
-/

namespace TradeTape

/- One row of a table of transitions. -/
structure Transition (σ τ : Type) where
  source : σ
  trigger : τ
  target : σ
deriving DecidableEq, Repr

/- A state together with the rows it moves by. -/
structure StateMachine (σ τ : Type) where
  state : σ
  rows : List (Transition σ τ)
deriving Repr

namespace StateMachine

variable {σ τ : Type} [DecidableEq σ] [DecidableEq τ]

/- A machine needs at least one row. -/
def make?
    (initial : σ)
    (rows : List (Transition σ τ)) :
    Option (StateMachine σ τ) :=
  if rows.isEmpty then none
  else some { state := initial, rows := rows }

/- The message for a table without rows. -/
def emptyTableMessage : String :=
  "state_transition_table cannot be empty"

/-
  Where a trigger leads from the present state.  Of two rows
  for one state and trigger the later one counts.
-/
def target?
    (m : StateMachine σ τ)
    (trigger : τ) : Option σ :=
  (m.rows.reverse.find? fun row =>
    row.source = m.state ∧ row.trigger = trigger).map
    Transition.target

/- The machine after a trigger, if the trigger is accepted. -/
def fire
    (m : StateMachine σ τ)
    (trigger : τ) : Option (StateMachine σ τ) :=
  (m.target? trigger).map fun s => { m with state := s }

/- The message for a refused trigger. -/
def refusalMessage (state trigger : String) : String :=
  s!"Invalid state transition: {state} -> {trigger}"

end StateMachine

end TradeTape
