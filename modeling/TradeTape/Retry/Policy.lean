import TradeTape.Json.Decode
import TradeTape.Json.Printer
import TradeTape.Retry.Backoff
import TradeTape.Text.Quoted

/-
  How often and how long an operation is repeated.

  Key definitions include:
    * `RetryPolicy`
    * `RetryPolicy.standard`
    * `RetryPolicy.maxAttempts`
    * `RetryPolicy.backoff?`
-/

namespace TradeTape

/- The bounds of a retried operation, in milliseconds. -/
structure RetryPolicy where
  maxRetries : Nat
  initialDelayMs : Nat
  maxDelayMs : Nat
  backoffFactor : Binary64
  jitterMs : Nat
  attemptLimitMs : Option Nat
  immediateFirst : Bool
  budgetMs : Option Nat
deriving DecidableEq, Repr

namespace RetryPolicy

/- The policy of an operation that asks for nothing special. -/
def standard : RetryPolicy :=
  { maxRetries := 4
    initialDelayMs := 1000
    maxDelayMs := 10000
    backoffFactor := Binary64.ofNat 2
    jitterMs := 500
    attemptLimitMs := some 60000
    immediateFirst := false
    budgetMs := some 300000 }

/- The number of attempts, the first one included. -/
def maxAttempts (p : RetryPolicy) : Nat :=
  min (p.maxRetries + 1) Word.uint32Max

/- The backoff of a policy. -/
def backoff?
    (p : RetryPolicy) : Except Backoff.Problem Backoff :=
  Backoff.make? (Span.ofMs p.initialDelayMs)
    (Span.ofMs p.maxDelayMs) p.backoffFactor p.jitterMs
    p.immediateFirst

------------------------------------------------------------
-- Documents
------------------------------------------------------------

/- The names of the bounds, in order. -/
def fieldNames : List String :=
  ["max_retries", "initial_delay_ms", "max_delay_ms",
    "backoff_factor", "jitter_ms", "operation_timeout_ms",
    "immediate_first", "max_elapsed_ms"]

/- A policy from a document; what it leaves out is standard. -/
def ofDoc? (d : Json.Doc) : Option RetryPolicy := do
  let base := standard
  match ← d.slots? fieldNames with
  | [maxRetries, initialDelayMs, maxDelayMs, backoffFactor,
      jitterMs, attemptLimitMs, immediateFirst, budgetMs] => do
      let count := Json.Doc.nat64?
      let maxRetries ←
        maxRetries.withDefault base.maxRetries
          (Json.Doc.natTo? Word.uint32Max)
      let initialDelayMs ←
        initialDelayMs.withDefault base.initialDelayMs count
      let maxDelayMs ← maxDelayMs.withDefault base.maxDelayMs count
      let backoffFactor ←
        backoffFactor.withDefault base.backoffFactor
          Json.Doc.binary?
      let jitterMs ← jitterMs.withDefault base.jitterMs count
      let attemptLimitMs ←
        attemptLimitMs.withDefault base.attemptLimitMs
          (Json.Doc.orNull? count)
      let immediateFirst ←
        immediateFirst.withDefault base.immediateFirst
          Json.Doc.bool?
      let budgetMs ←
        budgetMs.withDefault base.budgetMs (Json.Doc.orNull? count)
      some
        { maxRetries := maxRetries
          initialDelayMs := initialDelayMs
          maxDelayMs := maxDelayMs
          backoffFactor := backoffFactor
          jitterMs := jitterMs
          attemptLimitMs := attemptLimitMs
          immediateFirst := immediateFirst
          budgetMs := budgetMs }
  | _ => none

/- A policy as a JSON value. -/
def toValue (p : RetryPolicy) : Json.Value :=
  let count := fun (n : Nat) => Json.Value.int n
  .object
    (fieldNames.zip
      [count p.maxRetries, count p.initialDelayMs,
        count p.maxDelayMs, .double p.backoffFactor,
        count p.jitterMs, p.attemptLimitMs.elim .null count,
        .bool p.immediateFirst, p.budgetMs.elim .null count])

/- A policy as a log shows it. -/
def logText (p : RetryPolicy) : String :=
  let shown := fun (n : Option Nat) => Quoted.optional (n.map toString)
  Quoted.record "RetryConfig"
    (fieldNames.zip
      [toString p.maxRetries, toString p.initialDelayMs,
        toString p.maxDelayMs, String.ofList p.backoffFactor.pointText,
        toString p.jitterMs, shown p.attemptLimitMs,
        toString p.immediateFirst, shown p.budgetMs])

end RetryPolicy

end TradeTape
