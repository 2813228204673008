import TradeTape.Backfill.Fault
import TradeTape.Deribit.Endpoint
import TradeTape.Http.Exchange
import TradeTape.Time.Span

/-
  Why a question to the venue was not answered, and whether
  it may be asked again.

  Key definitions include:
    * `Deribit.ApiFault`
    * `Deribit.ApiFault.Retryable`
    * `Deribit.ApiFault.toFault`
    * `Deribit.ApiFault.ofHttp`
-/

namespace TradeTape

namespace Deribit

/- The cause of a question without an answer. -/
inductive ApiFault where
  | network (detail : String)
  | timeout (detail : String)
  | rateLimited (retryAfterSecs : Option Nat)
  | status (code : Nat) (body : String)
  | rpc (code : Int) (detail : String)
  | missingResult (body : String)
  | json (detail : String)
  | validation (detail : String)
  | canceled (detail : String)
deriving DecidableEq, Repr

namespace ApiFault

/- What a person reads about the seconds of a hint. -/
def hintText : Option Nat → String
  | some n => s!"Some({n})"
  | none => "None"

/- What a person reads about a fault. -/
def message : ApiFault → String
  | .network d => "Network error: " ++ d
  | .timeout d => "Timeout: " ++ d
  | .rateLimited secs =>
      s!"Rate limited (retry after {hintText secs}s)"
  | .status code body =>
      s!"Unexpected HTTP status code {code}: {body}"
  | .rpc code d => s!"Deribit error {code}: {d}"
  | .missingResult body => "Missing result: " ++ body
  | .json d => "JSON error: " ++ d
  | .validation d => "Parameter validation error: " ++ d
  | .canceled d => "Request canceled: " ++ d

/- The faults after which the same question may be answered. -/
def Retryable : ApiFault → Prop
  | .network _ | .timeout _ | .rateLimited _ => True
  | .status code _ => 500 ≤ code
  | .rpc code _ => code ∈ retryableCodes
  | .missingResult _ | .json _ | .validation _ | .canceled _ =>
      False

instance (f : ApiFault) : Decidable f.Retryable := by
  cases f <;> unfold Retryable <;> infer_instance

/- The nanoseconds after which the venue asks to come back. -/
def retryAfter? : ApiFault → Option Nat
  | .rateLimited secs => secs.map Span.ofSecs
  | _ => none

/- The fault of a walk that such a call is part of. -/
def toFault (f : ApiFault) : Fault :=
  match f with
  | .network _ => .transient f.message
  | .timeout _ => .timeout f.message
  | .rateLimited _ => .rateLimited f.message
  | .status code body =>
      if 500 ≤ code then .transient s!"HTTP {code}: {body}"
      else .venue code body
  | .rpc code d =>
      if code ∈ retryableCodes then .rateLimited f.message
      else .venue code d
  | .missingResult _ | .json _ | .validation _ =>
      .malformed f.message
  | .canceled _ => .canceled f.message

/- The fault of a question whose request got no response. -/
def ofHttp : Http.Fault → ApiFault
  | .timeout d => .timeout d
  | .config d => .validation d
  | f => .network f.message

end ApiFault

end Deribit

end TradeTape
