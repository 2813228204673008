import TradeTape.Backfill.Venue
import TradeTape.Deribit.ApiFault
import TradeTape.Deribit.Envelope
import TradeTape.Deribit.Query
import TradeTape.Retry.Session
import TradeTape.Text.Quoted
import TradeTape.Text.Utf8

/-
  A client of the venue: it asks questions over a wire, reads
  the answers and repeats what may succeed later.

  Key definitions include:
    * `Deribit.readResponse`
    * `Deribit.Wire`
    * `Deribit.Client`
    * `Deribit.Client.fetch`
    * `Deribit.Client.trades`
    * `Deribit.Client.venue`
-/

namespace TradeTape

namespace Deribit

------------------------------------------------------------
-- Responses
------------------------------------------------------------

/- The length up to which a body is quoted. -/
def quotedLength : Nat := 512

/-
  A body as a text, cut off after a number of characters.
-/
def quotedBody (r : Http.Response) : String :=
  let text := Utf8.lossy r.body
  if quotedLength < text.length then
    String.ofList (text.take quotedLength) ++ "..."
  else
    String.ofList text

/-
  The result that a response holds.  The status 429 asks to
  wait, whatever the body says; an error in the body comes
  before the status.  A body that cannot be read is a fault
  with the complaint about it.
-/
def readResponse
    {α : Type}
    (read : Json.Doc → Option α)
    (complaint : Json.Bytes → String)
    (r : Http.Response) : Except ApiFault α :=
  if r.status = 429 then
    .error (.rateLimited r.retryAfterSecs?)
  else
    let unexpected : ApiFault := .status r.status (quotedBody r)
    match Envelope.read? read r.body with
    | none =>
        if r.Success then .error (.json (complaint r.body))
        else .error unexpected
    | some e =>
        match e.error, e.result with
        | some error, _ => .error (.rpc error.code error.message)
        | none, result =>
            if ¬r.Success then .error unexpected
            else
              match result with
              | some a => .ok a
              | none => .error (.missingResult (quotedBody r))

------------------------------------------------------------
-- Clients
------------------------------------------------------------

/-
  What a client stands on: what carries its requests, what is
  drawn for the pause after a failed attempt, what the decoder
  says of a body that it cannot read as the answer for a path,
  and the timer of all waits.
-/
structure Wire (σ : Type) where
  transport : Http.Transport σ
  drawnMs : σ → Nat → Nat := fun _ _ => 0
  complaint : String → Json.Bytes → String := fun _ _ => ""
  timer : Timer := Timer.standard

/- A wire that reaches no server. -/
def Wire.unreachable (detail : String) : Wire Unit :=
  { transport := Http.Transport.unreachable detail }

/- Where and how a client asks. -/
structure Client where
  baseUrl : String
  timeoutSecs : Nat
  policy : RetryPolicy
  includeOld : Bool
  cancelAt : Option Nat
deriving Repr

namespace Client

/- An address without slashes at its end. -/
def trimSlashes (url : String) : String :=
  String.ofList ((url.toList.reverse.dropWhile (· == '/')).reverse)

/- A client, unless its policy has no backoff. -/
def make?
    (baseUrl : Option String)
    (timeoutSecs : Option Nat)
    (policy : RetryPolicy) : Except ApiFault Client :=
  match policy.backoff? with
  | .error p =>
      .error
        (.validation ("Failed to create retry manager: " ++ p.message))
  | .ok _ =>
      .ok
        { baseUrl := trimSlashes (baseUrl.getD historyUrl)
          timeoutSecs := timeoutSecs.getD defaultTimeoutSecs
          policy := policy
          includeOld := false
          cancelAt := none }

/- A client and its policy as a log shows them. -/
def logText (c : Client) : String :=
  let inner :=
    Quoted.record "DeribitHttpInnerClient"
      [("base_url", Quoted.text c.baseUrl),
        ("retry_config", c.policy.logText)]
  Quoted.record "DeribitHttpClient"
    [("inner", inner), ("include_old", toString c.includeOld)]

/- Whether one text holds another. -/
def holds (part : List Char) : List Char → Bool
  | [] => part.isEmpty
  | c :: rest => part.isPrefixOf (c :: rest) || holds part rest

/- The fault of a question that its repetition gave up. -/
def createdFault (message : String) : ApiFault :=
  if message = Session.canceledMessage then
    .canceled "Request canceled"
  else if holds "timed out".toList message.toList then
    .timeout message
  else
    .network message

/- The repetition of a question until it is answered. -/
def session
    {σ α : Type}
    (c : Client)
    (w : Wire σ)
    (read : Json.Doc → Option α)
    (path : String) : Session σ ApiFault α :=
  { policy := c.policy
    name := path
    attempt := fun s =>
      let (x, s) :=
        (w.transport.checked.within (c.timeoutSecs * 1000)) s
          (c.baseUrl ++ path)
      ({ duration := x.duration
         result :=
          match x.result with
          | .error f => .error (ApiFault.ofHttp f)
          | .ok r => readResponse read (w.complaint path) r },
        s)
    retryable := fun f => decide f.Retryable
    hint := ApiFault.retryAfter?
    created := createdFault
    cancelAt := c.cancelAt
    drawnMs := w.drawnMs
    timer := w.timer }

/- The answer to a question, and what it took to get it. -/
def fetch
    {σ α : Type}
    (c : Client)
    (w : Wire σ)
    (read : Json.Doc → Option α)
    (q : Query)
    (s : σ) : SessionEnd σ ApiFault α :=
  (c.session w read q.path).run s

/- A question that was never sent. -/
def unsent
    {σ α : Type}
    (f : ApiFault)
    (s : σ) : SessionEnd σ ApiFault α :=
  { result := .error f, starts := [], stop := 0, state := s }

/- The instruments of a currency and a kind. -/
def instruments
    {σ : Type}
    (c : Client)
    (w : Wire σ)
    (currency : Currency)
    (kind : InstrumentKind)
    (expired : Bool)
    (s : σ) : SessionEnd σ ApiFault (List ListedInstrument) :=
  c.fetch w (Json.Doc.list? ListedInstrument.ofDoc?)
    (.instruments currency (Listing.ofKind kind) expired) s

/- The draft of a question for trades. -/
def draft
    (c : Client)
    (q : PageQuery) : TradesDraft :=
  let (low, high) := q.window.bounds
  { space :=
      match q.window with
      | .time _ => .time
      | .seq _ => .seq
    instrument := some q.instrument
    low := some low
    high := some high
    count := some q.count
    includeOld := some c.includeOld }

/- A page of trades. -/
def trades
    {σ : Type}
    (c : Client)
    (w : Wire σ)
    (q : PageQuery)
    (s : σ) : SessionEnd σ ApiFault (List Trade) :=
  match (c.draft q).build with
  | .error p => unsent (.validation p.message) s
  | .ok query =>
      let page := c.fetch w TradesPage.ofDoc? query s
      { result := page.result.map TradesPage.trades
        starts := page.starts
        stop := page.stop
        state := page.state }

/-
  The greatest trade number at an instant: that of the newest
  trade since the beginning of the calendar.
-/
def latest
    {σ : Type}
    (c : Client)
    (w : Wire σ)
    (instrument : String)
    (endMs : Int)
    (s : σ) : SessionEnd σ ApiFault (Option Int) :=
  let page :=
    c.trades w
      { instrument := instrument
        window := .time { startMs := 0, endMs := max endMs 0 }
        count := 1 }
      s
  { result := page.result.map fun ts => greatest? (ts.map Trade.seq)
    starts := page.starts
    stop := page.stop
    state := page.state }

/- An ended question as the reply of a venue. -/
def reply
    {σ α : Type}
    (e : SessionEnd σ ApiFault α) : Reply α × σ :=
  ({ delay := e.stop
     result :=
      match e.result with
      | .ok a => .ok a
      | .error f => .error f.toFault },
    e.state)

/- The venue that a client speaks to. -/
def venue
    {σ : Type}
    (c : Client)
    (w : Wire σ) : Venue σ :=
  { page := fun s q => reply (c.trades w q s)
    latest := fun s instrument endMs =>
      reply (c.latest w instrument endMs s) }

end Client

end Deribit

end TradeTape
