import TradeTape.Http.Address
import TradeTape.Http.Header
import TradeTape.Json.Reader
import TradeTape.Number.Word
import TradeTape.Text.Blank
import TradeTape.Text.Digits

/-
  Requests, responses, and what carries them.

  Key definitions include:
    * `Http.Fault`
    * `Http.Response`
    * `Http.Response.retryAfterSecs?`
    * `Http.Transport`
    * `Http.Transport.checked`
-/

namespace TradeTape

namespace Http

------------------------------------------------------------
-- Faults
------------------------------------------------------------

/- Why a request got no response. -/
inductive Fault where
  | timeout (detail : String)
  | connection (detail : String)
  | config (detail : String)
  | other (detail : String)
deriving DecidableEq, Repr

/- What a person reads about a fault. -/
def Fault.message : Fault → String
  | .timeout d => "HTTP request timed out: " ++ d
  | .connection d => "HTTP connection error: " ++ d
  | .config d => "HTTP client configuration error: " ++ d
  | .other d => "HTTP error: " ++ d

/- The first fault of the header fields of a client. -/
def headerFault? (headers : List Header) : Option Fault :=
  (headers.findSome? Header.problem?).map .config

------------------------------------------------------------
-- Responses
------------------------------------------------------------

/- A response with its header fields by lowered name. -/
structure Response where
  status : Nat
  headers : List (String × String)
  body : Json.Bytes
deriving DecidableEq, Repr

namespace Response

/- The statuses that tell of success. -/
def Success (r : Response) : Prop :=
  200 ≤ r.status ∧ r.status < 300

instance (r : Response) : Decidable r.Success := by
  unfold Success
  infer_instance

/- The seconds after which the server asks to come back. -/
def retryAfterSecs? (r : Response) : Option Nat := do
  let value ← r.headers.lookup "retry-after"
  let n ← Digits.signedNat? (Blank.trim value.toList)
  if n ≤ Word.uint64Max then some n else none

end Response

------------------------------------------------------------
-- Transports
------------------------------------------------------------

/-
  What comes of a request: the milliseconds it takes, or no
  number if it is never answered, and the response.
-/
structure Exchange where
  duration : Option Nat
  result : Except Fault Response

/- What carries requests for addresses to a server. -/
abbrev Transport (σ : Type) := σ → String → Exchange × σ

/- A transport that reaches no server. -/
def Transport.unreachable (detail : String) : Transport Unit :=
  fun s _ =>
    ({ duration := some 0, result := .error (.connection detail) },
      s)

/- A transport that turns down what is no web address. -/
def Transport.checked
    {σ : Type}
    (t : Transport σ) : Transport σ :=
  fun s url =>
    let refused := fun detail =>
      ({ duration := some 0, result := .error (.config detail) }, s)
    match Address.parse? url with
    | none => refused "builder error"
    | some a =>
        if a.scheme = "http" ∨ a.scheme = "https" then t s url
        else refused ("builder error for url (" ++ a.text ++ ")")

/- A transport that gives up after some milliseconds. -/
def Transport.within
    {σ : Type}
    (limitMs : Nat)
    (t : Transport σ) : Transport σ :=
  fun s url =>
    let (x, s) := t s url
    if x.duration.any (· ≤ limitMs) then
      (x, s)
    else
      ({ duration := some limitMs, result := .error (.timeout url) },
        s)

end Http

end TradeTape
