/-
  Settings that may come from the environment.

  Key definitions include:
    * `Environment.missingMessage`
    * `Environment.optional`
-/

namespace TradeTape

namespace Environment

/- The message for a variable that has to be set. -/
def missingMessage (name : String) : String :=
  s!"environment variable '{name}' must be set"

/-
  A value given directly, whatever it is, or else that of a
  variable, which counts only when it is not empty.
-/
def optional
    (given fromEnvironment : Option String) : Option String :=
  match given with
  | some v => some v
  | none => fromEnvironment.filter fun v => v ≠ ""

end Environment

end TradeTape
