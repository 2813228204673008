import TradeTape.Deribit.Client
import TradeTape.Proofs.Retry.Budget

/-
  How often a client repeats a question.

  A response is read by its status first if that is 429, then
  by the error in its body, then by its status, and then by
  the result in its body.  A question is repeated while the
  responses tell of a trouble that passes, and no more often
  than the policy of the client allows; what the last response
  holds is the answer.

  Key statements include:
    * `Deribit.Reading`
    * `Deribit.readResponse_eq_iff`
    * `Deribit.Passing`
    * `Deribit.server`
    * `Deribit.Client.fetch_repeats`
-/

namespace TradeTape

------------------------------------------------------------
-- Fields that may be left out
------------------------------------------------------------

namespace Json

variable {β : Type}

theorem Doc.orNull?_eq_none_iff
    {read : Doc → Option β}
    {d : Doc} :
    d.orNull? read = some none ↔ d = .null := by
  cases d <;> simp [Doc.orNull?]

/- Nothing is read from a field that is left out or null. -/
theorem Slot.optional_eq_none_iff
    {read : Doc → Option β}
    {s : Slot} :
    s.optional read = some none
      ↔ s = .missing ∨ s = .given .null := by
  cases s <;> simp [Slot.optional, Doc.orNull?_eq_none_iff]

end Json

namespace Deribit

variable {α : Type}

namespace Envelope

/- A body whose result is left out or null. -/
def LacksResult (body : Json.Bytes) : Prop :=
  ∃ d result rest,
    Json.parse? body = some d
      ∧ d.slots? ["result", "error", "usIn", "usOut"]
        = some (result :: rest)
      ∧ (result = .missing ∨ result = .given .null)

theorem result_eq_none_iff
    {read : Json.Doc → Option α}
    {body : Json.Bytes}
    {e : Envelope α}
    (h : read? read body = some e) :
    e.result = none ↔ LacksResult body := by
  rcases Option.bind_eq_some_iff.mp h with ⟨d, hDoc, hEnvelope⟩
  unfold ofDoc? at hEnvelope
  rcases Option.bind_eq_some_iff.mp hEnvelope with
    ⟨slots, hSlots, hFields⟩
  split at hFields
  · rename_i result error usIn usOut
    rcases Option.bind_eq_some_iff.mp hFields with
      ⟨a, hResult, hOthers⟩
    have hSame : e.result = a := by
      simp only [Option.bind_eq_bind, Option.bind_eq_some_iff]
        at hOthers
      rcases hOthers with ⟨_, _, _, _, _, _, hMade⟩
      rw [← Option.some.inj hMade]
    have hNone : e.result = none ↔ result.optional read = some none := by
      rw [hSame, hResult, Option.some_inj]
    rw [hNone, Json.Slot.optional_eq_none_iff]
    refine ⟨fun hLacks => ⟨d, _, _, hDoc, hSlots, hLacks⟩, ?_⟩
    rintro ⟨d', result', rest, hDoc', hSlots', hLacks⟩
    rw [hDoc] at hDoc'
    cases hDoc'
    rw [hSlots] at hSlots'
    cases hSlots'
    exact hLacks
  · cases hFields

end Envelope

------------------------------------------------------------
-- Reading responses
------------------------------------------------------------

/-
  What a response holds.  Each rule names what it takes of the
  status and the body.
-/
inductive Reading
    (read : Json.Doc → Option α)
    (complaint : Json.Bytes → String)
    (r : Http.Response) : Except ApiFault α → Prop where
  | rateLimited
      (hStatus : r.status = 429) :
      Reading read complaint r (.error (.rateLimited r.retryAfterSecs?))
  | rpc
      {e : Envelope α}
      {error : RpcError}
      (hStatus : r.status ≠ 429)
      (hBody : Envelope.read? read r.body = some e)
      (hError : e.error = some error) :
      Reading read complaint r (.error (.rpc error.code error.message))
  | unexpected
      {e : Envelope α}
      (hStatus : r.status ≠ 429)
      (hBody : Envelope.read? read r.body = some e)
      (hError : e.error = none)
      (hFailure : ¬r.Success) :
      Reading read complaint r (.error (.status r.status (quotedBody r)))
  | result
      {e : Envelope α}
      {a : α}
      (hBody : Envelope.read? read r.body = some e)
      (hError : e.error = none)
      (hSuccess : r.Success)
      (hResult : e.result = some a) :
      Reading read complaint r (.ok a)
  | missing
      {e : Envelope α}
      (hBody : Envelope.read? read r.body = some e)
      (hError : e.error = none)
      (hSuccess : r.Success)
      (hResult : Envelope.LacksResult r.body) :
      Reading read complaint r (.error (.missingResult (quotedBody r)))
  | malformed
      (hBody : Envelope.read? read r.body = none)
      (hSuccess : r.Success) :
      Reading read complaint r (.error (.json (complaint r.body)))
  | unreadable
      (hStatus : r.status ≠ 429)
      (hBody : Envelope.read? read r.body = none)
      (hFailure : ¬r.Success) :
      Reading read complaint r (.error (.status r.status (quotedBody r)))

section Responses

variable {read : Json.Doc → Option α}
variable {complaint : Json.Bytes → String} {r : Http.Response}

/- A response that tells of success does not ask to wait. -/
theorem status_ne_of_success
    (hSuccess : r.Success) :
    r.status ≠ 429 := by
  unfold Http.Response.Success at hSuccess
  omega

theorem Reading.eq
    {x : Except ApiFault α}
    (h : Reading read complaint r x) :
    readResponse read complaint r = x := by
  unfold readResponse
  cases h with
  | rateLimited hStatus => rw [if_pos hStatus]
  | rpc hStatus hBody hError =>
      rw [if_neg hStatus]
      simp only [hBody, hError]
  | unexpected hStatus hBody hError hFailure =>
      rw [if_neg hStatus]
      simp only [hBody, hError, if_pos hFailure]
  | result hBody hError hSuccess hResult =>
      rw [if_neg (status_ne_of_success hSuccess)]
      simp only [hBody, hError, hResult,
        if_neg (not_not_intro hSuccess)]
  | missing hBody hError hSuccess hResult =>
      rw [if_neg (status_ne_of_success hSuccess)]
      simp only [hBody, hError,
        (Envelope.result_eq_none_iff hBody).mpr hResult,
        if_neg (not_not_intro hSuccess)]
  | malformed hBody hSuccess =>
      rw [if_neg (status_ne_of_success hSuccess)]
      simp only [hBody, if_pos hSuccess]
  | unreadable hStatus hBody hFailure =>
      rw [if_neg hStatus]
      simp only [hBody, if_neg hFailure]

theorem exists_reading
    (read : Json.Doc → Option α)
    (complaint : Json.Bytes → String)
    (r : Http.Response) :
    ∃ x, Reading read complaint r x := by
  by_cases hStatus : r.status = 429
  · exact ⟨_, .rateLimited hStatus⟩
  cases hBody : Envelope.read? read r.body with
  | none =>
      by_cases hSuccess : r.Success
      · exact ⟨_, .malformed hBody hSuccess⟩
      · exact ⟨_, .unreadable hStatus hBody hSuccess⟩
  | some e =>
      cases hError : e.error with
      | some error => exact ⟨_, .rpc hStatus hBody hError⟩
      | none =>
          by_cases hSuccess : r.Success
          · cases hResult : e.result with
            | some a =>
                exact ⟨_, .result hBody hError hSuccess hResult⟩
            | none =>
                have hLacks :=
                  (Envelope.result_eq_none_iff hBody).mp hResult
                exact ⟨_, .missing hBody hError hSuccess hLacks⟩
          · exact ⟨_, .unexpected hStatus hBody hError hSuccess⟩

/- Every response holds one thing. -/
theorem readResponse_eq_iff
    {x : Except ApiFault α} :
    readResponse read complaint r = x ↔ Reading read complaint r x := by
  refine ⟨?_, Reading.eq⟩
  rintro rfl
  rcases exists_reading read complaint r with ⟨x, hReading⟩
  rw [hReading.eq]
  exact hReading

/-
  The faults that pass: those of a busy server and of one that
  is broken for now.
-/
inductive Passing : ApiFault → Prop where
  | rateLimited (secs : Option Nat) : Passing (.rateLimited secs)
  | status
      {code : Nat}
      (hCode : 500 ≤ code)
      (body : String) :
      Passing (.status code body)
  | rpc
      {code : Int}
      (hCode : code = 10028 ∨ code = 10040)
      (detail : String) :
      Passing (.rpc code detail)

/- Of what a response holds, what passes is what is retried. -/
theorem Reading.retryable_iff
    {f : ApiFault}
    (h : Reading read complaint r (.error f)) :
    f.Retryable ↔ Passing f := by
  have hCodes (code : Int) :
      code ∈ retryableCodes ↔ code = 10028 ∨ code = 10040 := by
    simp [retryableCodes]
  have hStatus (code : Nat) (body : String) :
      (ApiFault.status code body).Retryable
        ↔ Passing (.status code body) :=
    ⟨fun hCode => .status hCode body, fun | .status hCode _ => hCode⟩
  cases h with
  | rateLimited _ => exact ⟨fun _ => .rateLimited _, fun _ => trivial⟩
  | rpc _ _ _ =>
      refine ⟨fun hCode => .rpc ((hCodes _).mp hCode) _, ?_⟩
      rintro (_ | _ | ⟨hCode, _⟩)
      exact (hCodes _).mpr hCode
  | unexpected _ _ _ _ => exact hStatus _ _
  | missing _ _ _ _ => exact ⟨False.elim, fun h => nomatch h⟩
  | malformed _ _ => exact ⟨False.elim, fun h => nomatch h⟩
  | unreadable _ _ _ => exact hStatus _ _

end Responses

------------------------------------------------------------
-- Servers
------------------------------------------------------------

/-
  A server that answers each request in its turn, however it
  is addressed, and counts them.
-/
def server
    (delayMs : Nat → Nat)
    (answer : Nat → Http.Response) : Http.Transport Nat :=
  fun n _ =>
    ({ duration := some (delayMs n), result := .ok (answer n) },
      n + 1)

/- A wire that leads to such a server. -/
def Wire.serving
    (w : Wire Nat)
    (delayMs : Nat → Nat)
    (answer : Nat → Http.Response) : Wire Nat :=
  { w with transport := server delayMs answer }

@[simp]
theorem Wire.serving_transport
    (w : Wire Nat)
    (delayMs : Nat → Nat)
    (answer : Nat → Http.Response) :
    (w.serving delayMs answer).transport = server delayMs answer :=
  rfl

namespace Client

variable {c : Client} {w : Wire Nat} {read : Json.Doc → Option α}
variable {delayMs : Nat → Nat} {answer : Nat → Http.Response}

/- A question whose address a transport takes. -/
def Addresses
    (c : Client)
    (path : String) : Prop :=
  match Http.Address.parse? (c.baseUrl ++ path) with
  | some a => a.scheme = "http" ∨ a.scheme = "https"
  | none => False

instance (c : Client) (path : String) :
    Decidable (c.Addresses path) := by
  unfold Addresses
  split <;> infer_instance

theorem exists_address
    {path : String}
    (h : c.Addresses path) :
    ∃ a,
      Http.Address.parse? (c.baseUrl ++ path) = some a
        ∧ (a.scheme = "http" ∨ a.scheme = "https") := by
  unfold Addresses at h
  split at h
  · exact ⟨_, by assumption, h⟩
  · exact h.elim

/- An attempt to ask a server that answers in time. -/
theorem attempt_session
    {path : String}
    (hAddress : c.Addresses path)
    (hInTime : ∀ n, delayMs n ≤ c.timeoutSecs * 1000)
    (n : Nat) :
    (c.session (w.serving delayMs answer) read path).attempt n
      = ({ duration := some (delayMs n)
           result := readResponse read (w.complaint path) (answer n) },
          n + 1) := by
  rcases exists_address hAddress with ⟨a, hParse, hScheme⟩
  have hChecked :
      (server delayMs answer).checked n (c.baseUrl ++ path)
        = server delayMs answer n (c.baseUrl ++ path) := by
    unfold Http.Transport.checked
    simp only [hParse, if_pos hScheme]
  have hWithin :
      (server delayMs answer).checked.within (c.timeoutSecs * 1000) n
          (c.baseUrl ++ path)
        = server delayMs answer n (c.baseUrl ++ path) := by
    unfold Http.Transport.within
    rw [hChecked]
    simp [server, hInTime n]
  unfold session
  simp only [Wire.serving_transport, hWithin]
  rfl

/- The server has counted the attempts. -/
theorem stateAt_session
    {path : String}
    (hAddress : c.Addresses path)
    (hInTime : ∀ n, delayMs n ≤ c.timeoutSecs * 1000)
    (n k : Nat) :
    (c.session (w.serving delayMs answer) read path).stateAt n k
      = n + k := by
  induction k generalizing n with
  | zero => rfl
  | succ k ih =>
      unfold Session.stateAt
      rw [attempt_session hAddress hInTime, ih]
      omega

/- The attempts give what the responses hold. -/
theorem outcomeAt_session
    {path : String}
    (hAddress : c.Addresses path)
    (hInTime : ∀ n, delayMs n ≤ c.timeoutSecs * 1000)
    (hLimit : c.policy.attemptLimitMs = none)
    (n : Nat) :
    (c.session (w.serving delayMs answer) read path).outcomeAt 0 n
      = readResponse read (w.complaint path) (answer n) := by
  have hFree (a : Attempt ApiFault α) :
      ¬(c.session (w.serving delayMs answer) read path).Overdue a := by
    have hNone :
        (c.session (w.serving delayMs answer) read
          path).policy.attemptLimitMs = none :=
      hLimit
    unfold Session.Overdue Session.attemptLimit?
    rw [hNone]
    exact not_false
  unfold Session.outcomeAt Session.given Session.attemptAt
  rw [if_neg (hFree _), stateAt_session hAddress hInTime,
    attempt_session hAddress hInTime, Nat.zero_add]

/- An attempt settles a question unless its trouble passes. -/
theorem settles_session_iff
    {path : String}
    {x : Except ApiFault α}
    {r : Http.Response}
    {complaint : Json.Bytes → String}
    (hReading : Reading read complaint r x) :
    (c.session (w.serving delayMs answer) read path).Settles x
      ↔ ∀ f, x = .error f → ¬Passing f := by
  cases x with
  | ok a => exact ⟨fun _ _ hError => (nomatch hError), fun _ => trivial⟩
  | error f =>
      have hRetried :
          (c.session (w.serving delayMs answer) read path).Settles
              (.error f)
            ↔ ¬f.Retryable :=
        decide_eq_false_iff_not
      rw [hRetried, hReading.retryable_iff]
      constructor
      · rintro hStays f' ⟨⟩
        exact hStays
      · exact fun hStays => hStays f rfl

/-
  The number of requests that settles a question: what was
  held before has passed, and what is held last does not pass,
  unless no other request is allowed.
-/
structure Settled
    (held : Nat → Except ApiFault α)
    (most k : Nat) : Prop where
  sent : 0 < k
  allowed : k ≤ most
  passed : ∀ i, i + 1 < k → ∃ f, held i = .error f ∧ Passing f
  stays : k < most → ∀ f, held (k - 1) = .error f → ¬Passing f

/-
  A question to a server that answers every request in time is
  sent until a response holds a result or a fault that does not
  pass, or as often as it is allowed, and what the last
  response holds is the answer.  This is so whatever is drawn
  for the pauses, and whatever the timer can count.
-/
theorem fetch_repeats
    (c : Client)
    (w : Wire Nat)
    {b : Backoff}
    (hBackoff : c.policy.backoff? = .ok b)
    (hRetries : c.policy.maxRetries < Word.uint32Max)
    (hLimit : c.policy.attemptLimitMs = none)
    (hBudget : c.policy.budgetMs = none)
    (hCancel : c.cancelAt = none)
    {q : Query}
    (hAddress : c.Addresses q.path)
    (hInTime : ∀ n, delayMs n ≤ c.timeoutSecs * 1000)
    {held : Nat → Except ApiFault α}
    (hHeld :
      ∀ n, Reading read (w.complaint q.path) (answer n) (held n)) :
    let e := c.fetch (w.serving delayMs answer) read q 0
    Settled held (c.policy.maxRetries + 1) e.state
      ∧ e.starts.length = e.state
      ∧ e.result = held (e.state - 1) := by
  intro e
  let s := c.session (w.serving delayMs answer) read q.path
  have hOutcome (n : Nat) : s.outcomeAt 0 n = held n := by
    rw [← (hHeld n).eq]
    exact outcomeAt_session hAddress hInTime hLimit n
  have hSettles (n : Nat) :
      s.Settles (s.outcomeAt 0 n)
        ↔ ∀ f, held n = .error f → ¬Passing f := by
    rw [hOutcome]
    exact settles_session_iff (hHeld n)
  have hEnds (n : Nat) : s.Ends (s.attemptAt 0 n) := by
    refine Or.inl ?_
    unfold Session.attemptAt
    rw [attempt_session hAddress hInTime]
    exact Option.some_ne_none _
  have hMost : s.policy.maxAttempts = c.policy.maxRetries + 1 :=
    Nat.min_eq_left hRetries
  have hRun : s.run 0 = _ := s.run_eq_attemptsFrom hBackoff 0
  rw [hMost, show s.policy.budgetMs = none from hBudget] at hRun
  rcases
    Session.attemptsFrom_course (s := s) hCancel c.policy.maxRetries
      (m :=
        { state := .attempting 1
          maxAttempts := c.policy.maxRetries + 1
          budget := none
          backoff := b
          started := 0 })
      rfl rfl rfl hEnds 0 [] with
    ⟨ended, hCourse, hAttempts⟩
  have hEnd : e = ended := hRun.trans hAttempts
  have hCount : ended.state = ended.starts.length := by
    rw [hCourse.left, stateAt_session hAddress hInTime, Nat.zero_add]
  rw [hEnd, hCount]
  refine
    ⟨{ sent := hCourse.made
       allowed := hCourse.allowed
       passed := ?_
       stays := ?_ },
      rfl, ?_⟩
  · intro i hi
    have hRetried := mt (hSettles i).mpr (hCourse.retried i hi)
    simpa only [Classical.not_forall, Classical.not_imp,
      Classical.not_not, exists_prop] using hRetried
  · intro hLess
    exact (hSettles _).mp (hCourse.settled hLess)
  · rw [hCourse.result, hOutcome]

/- A client whose attempts have no limit of their own. -/
def patientClient : Client :=
  { baseUrl := "http://venue/api"
    timeoutSecs := 60
    policy :=
      { RetryPolicy.standard with
        attemptLimitMs := none
        budgetMs := none }
    includeOld := false
    cancelAt := none }

/-
  A server that is overrun, then busy, and then broken, though
  the body says that nothing is there.
-/
def troubled (n : Nat) : Http.Response :=
  let told := fun (code : String) =>
    "\x7b\"error\":\x7b\"code\":" ++ code
      ++ ",\"message\":\"no\"\x7d\x7d"
  match n with
  | 0 => { status := 429, headers := [("retry-after", "2")], body := [] }
  | 1 =>
      { status := 200
        headers := []
        body := (told "10028").toUTF8.toList }
  | _ =>
      { status := 502
        headers := []
        body := (told "13020").toUTF8.toList }

/- A wire to this server on which each pause is drawn anew. -/
def troubledWire : Wire Nat :=
  { transport := server (fun _ => 250) troubled
    drawnMs := fun n _ => 10 * n
    complaint := fun _ _ => "bad body"
    timer := .standard }

/-
  Three requests of five: an error that does not pass ends the
  question, although the status of its response does.
-/
theorem fetch_repeats_of_troubled :
    let q : Query := .instruments .btc .future true
    let e := patientClient.fetch troubledWire Json.Doc.int64? q 0
    patientClient.Addresses q.path
      ∧ Settled
        (fun n =>
          readResponse Json.Doc.int64? (fun _ => "bad body")
            (troubled n))
        5 e.state
      ∧ e.state = 3
      ∧ e.result = .error (.rpc 13020 "no") := by
  have hAddress :
      patientClient.Addresses
        (Query.path (.instruments .btc .future true)) := by
    decide +kernel
  have hBackoff :=
    RetryPolicy.backoff?_eq_ok (p := patientClient.policy)
      (by decide) (by decide) (by decide)
  have hInTime (_ : Nat) : 250 ≤ patientClient.timeoutSecs * 1000 := by
    decide
  have hRepeats :=
    fetch_repeats patientClient troubledWire hBackoff (by decide) rfl
      rfl rfl hAddress hInTime
      (fun n => readResponse_eq_iff.mp
        (rfl :
          readResponse Json.Doc.int64? (fun _ => "bad body")
              (troubled n)
            = _))
  have hSent :
      (patientClient.fetch troubledWire Json.Doc.int64?
        (.instruments .btc .future true) 0).state = 3 := by
    decide +kernel
  have hLast :
      readResponse Json.Doc.int64? (fun _ => "bad body") (troubled 2)
        = .error (.rpc 13020 "no") := by
    have hTold :
        ((Envelope.read? Json.Doc.int64? (troubled 2).body).bind
            Envelope.error).map (fun error => (error.code, error.message))
          = some (13020, "no") := by
      decide +kernel
    rcases Option.map_eq_some_iff.mp hTold with ⟨error, hFound, hFields⟩
    rcases Option.bind_eq_some_iff.mp hFound with ⟨e, hBody, hError⟩
    rcases Prod.mk.inj hFields with ⟨hCode, hMessage⟩
    rw [(Reading.rpc (by decide) hBody hError).eq, hCode, hMessage]
  have hAnswer :
      (patientClient.fetch troubledWire Json.Doc.int64?
          (.instruments .btc .future true) 0).result
        = readResponse Json.Doc.int64? (fun _ => "bad body")
          (troubled
            ((patientClient.fetch troubledWire Json.Doc.int64?
              (.instruments .btc .future true) 0).state - 1)) :=
    hRepeats.2.2
  rw [hSent] at hAnswer
  exact ⟨hAddress, hRepeats.1, hSent, hAnswer.trans hLast⟩

end Client

end Deribit

end TradeTape
