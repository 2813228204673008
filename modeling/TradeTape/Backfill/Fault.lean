/-
  Why a call to a venue, or the walk over a window, failed.

  Key definitions include:
    * `Fault`
    * `Fault.message`
    * `Fault.Retryable`
    * `Fault.RateLimited`
-/

namespace TradeTape

/- The cause of a failed call or walk. -/
inductive Fault where
  | transient (detail : String)
  | rateLimited (detail : String)
  | timeout (detail : String)
  | malformed (detail : String)
  | venue (code : Int) (detail : String)
  | pageCeiling (requests : Nat)
  | saturated (ms : Int)
  | canceled (detail : String)
deriving DecidableEq, Repr

namespace Fault

/- What a person reads about a fault. -/
def message : Fault → String
  | .transient d => "transient error: " ++ d
  | .rateLimited d => "rate limited: " ++ d
  | .timeout d => "timed out: " ++ d
  | .malformed d => "malformed response: " ++ d
  | .venue code d => s!"venue error {code}: {d}"
  | .pageCeiling n => s!"page ceiling of {n} requests reached"
  | .saturated ms =>
      s!"saturated timestamp {ms}: a full page shares one millisecond"
  | .canceled d => "canceled: " ++ d

/- The faults after which the same call may succeed. -/
def Retryable : Fault → Prop
  | .transient _ | .rateLimited _ | .timeout _ => True
  | _ => False

instance (f : Fault) : Decidable f.Retryable := by
  cases f <;> unfold Retryable <;> infer_instance

/- The faults by which a venue asks for fewer calls. -/
def RateLimited : Fault → Prop
  | .rateLimited _ => True
  | _ => False

instance (f : Fault) : Decidable f.RateLimited := by
  cases f <;> unfold RateLimited <;> infer_instance

end Fault

end TradeTape
