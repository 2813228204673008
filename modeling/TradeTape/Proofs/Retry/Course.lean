import TradeTape.Retry.Session

/-
  The course of a retried operation.

  Without a budget and without a cancellation an operation is
  attempted until an outcome settles it, or as often as its
  policy allows, and the last outcome is its result.  Between
  two attempts there is a pause, which is not shorter than the
  backoff and the hint of the failure ask for.

  All of this holds as far as the timer can count: no pause and
  no limit of an attempt lasts longer than its longest wait.

  Key statements include:
    * `Attempt.LastsOver`
    * `Session.given`
    * `Session.Settles`
    * `Session.Course`
    * `Session.Course.retry`
    * `Session.run_course`
-/

namespace TradeTape

------------------------------------------------------------
-- Base delays
------------------------------------------------------------

namespace Backoff

/- The next delay but for what is drawn. -/
def leastDelay (b : Backoff) : Nat :=
  if b.immediateFirst then 0 else b.base

/- The backoff after some delays, whatever was drawn. -/
def after (b : Backoff) : Nat → Backoff
  | 0 => b
  | n + 1 => (b.next 0).2.after n

theorem next_snd (b : Backoff) (drawnMs : Nat) :
    (b.next drawnMs).2 = (b.next 0).2 := by
  unfold next
  split <;> rfl

theorem leastDelay_le_next (b : Backoff) (drawnMs : Nat) :
    b.leastDelay ≤ (b.next drawnMs).1 := by
  unfold leastDelay next
  split
  · exact Nat.le_refl 0
  · exact Nat.le_add_right _ _

end Backoff

/- The backoff of a policy whose delays and factor are right. -/
theorem RetryPolicy.backoff?_eq_ok
    {p : RetryPolicy}
    (hFactor : Backoff.FactorOk p.backoffFactor)
    (hSome : 0 < p.initialDelayMs)
    (hOrder : p.initialDelayMs ≤ p.maxDelayMs) :
    p.backoff? =
      .ok
        { initial := Span.ofMs p.initialDelayMs
          maximum := Span.ofMs p.maxDelayMs
          base := Span.ofMs p.initialDelayMs
          factor := p.backoffFactor
          jitterMs := p.jitterMs
          immediateFirst := p.immediateFirst } := by
  have hPositive : ¬Span.ofMs p.initialDelayMs = 0 := by
    unfold Span.ofMs
    omega
  have hWithin :
      ¬Span.ofMs p.maxDelayMs < Span.ofMs p.initialDelayMs := by
    unfold Span.ofMs
    omega
  unfold backoff? Backoff.make?
  rw [if_neg (not_not_intro hFactor), if_neg hPositive,
    if_neg hWithin]

------------------------------------------------------------
-- Attempts and their outcomes
------------------------------------------------------------

/- An attempt that lasts longer than the time it is given. -/
def Attempt.LastsOver
    {ε α : Type}
    (a : Attempt ε α)
    (limitMs : Option Nat) : Prop :=
  match limitMs, a.duration with
  | none, _ => False
  | some _, none => True
  | some limit, some d => limit < d

instance
    {ε α : Type}
    (a : Attempt ε α)
    (limitMs : Option Nat) :
    Decidable (a.LastsOver limitMs) := by
  unfold Attempt.LastsOver
  split <;> infer_instance

namespace Session

variable {σ ε α : Type}

/- An attempt that comes to an end, if only by its limit. -/
def Ends
    (s : Session σ ε α)
    (a : Attempt ε α) : Prop :=
  a.duration ≠ none ∨ s.policy.attemptLimitMs ≠ none

/- An attempt that is given up before it is done. -/
def Overdue
    (s : Session σ ε α)
    (a : Attempt ε α) : Prop :=
  a.LastsOver s.attemptLimit?

instance (s : Session σ ε α) (a : Attempt ε α) :
    Decidable (s.Overdue a) := by
  unfold Overdue
  infer_instance

/- What an attempt gives, in time or not. -/
def given
    (s : Session σ ε α)
    (a : Attempt ε α) : Except ε α :=
  if s.Overdue a then .error (s.created s.overdueMessage)
  else a.result

/- The milliseconds that an attempt takes, in time or not. -/
def spent
    (s : Session σ ε α)
    (a : Attempt ε α) : Nat :=
  match s.attemptLimit?, a.duration with
  | none, none => 0
  | none, some d => d
  | some limit, none => limit
  | some limit, some d => min d limit

/- A limit that the timer can count is kept as it is. -/
theorem attemptLimit?_eq
    {s : Session σ ε α}
    (hLimit :
      ∀ limit,
        s.policy.attemptLimitMs = some limit →
          limit ≤ s.timer.longestMs) :
    s.attemptLimit? = s.policy.attemptLimitMs := by
  unfold attemptLimit?
  cases h : s.policy.attemptLimitMs with
  | none => rfl
  | some limit =>
      rw [Option.map_some, Timer.waitMs_of_le (hLimit limit h)]

theorem outcome_eq
    {s : Session σ ε α}
    {a : Attempt ε α}
    (hEnds : s.Ends a)
    (now : Nat) :
    s.outcome now a = (some (now + s.spent a), s.given a) := by
  unfold outcome spent given
  by_cases hLate : s.Overdue a
  · rw [if_pos hLate]
    unfold Overdue Attempt.LastsOver at hLate
    cases hLimit : s.attemptLimit? with
    | none =>
        rw [hLimit] at hLate
        exact hLate.elim
    | some limit =>
        cases hDuration : a.duration with
        | none => rfl
        | some d =>
            simp only [hLimit, hDuration] at hLate
            simp only [if_neg (Nat.not_le.mpr hLate),
              Nat.min_eq_right (Nat.le_of_lt hLate)]
  · rw [if_neg hLate]
    unfold Overdue Attempt.LastsOver at hLate
    cases hLimit : s.attemptLimit? with
    | none =>
        have hUnlimited : s.policy.attemptLimitMs = none :=
          Option.map_eq_none_iff.mp hLimit
        cases hDuration : a.duration with
        | none => exact (hEnds.elim (· hDuration) (· hUnlimited)).elim
        | some d => rfl
    | some limit =>
        cases hDuration : a.duration with
        | none =>
            simp only [hLimit, hDuration] at hLate
            exact absurd trivial hLate
        | some d =>
            simp only [hLimit, hDuration] at hLate
            have hInTime : d ≤ limit := Nat.not_lt.mp hLate
            simp only [if_pos hInTime, Nat.min_eq_left hInTime]

/- What is left of the world after some attempts. -/
def stateAt
    (s : Session σ ε α)
    (state : σ) : Nat → σ
  | 0 => state
  | n + 1 => s.stateAt (s.attempt state).2 n

/- The attempts one after the other, counted from zero. -/
def attemptAt
    (s : Session σ ε α)
    (state : σ)
    (n : Nat) : Attempt ε α :=
  (s.attempt (s.stateAt state n)).1

def outcomeAt
    (s : Session σ ε α)
    (state : σ)
    (n : Nat) : Except ε α :=
  s.given (s.attemptAt state n)

/- An outcome after which there is nothing to retry. -/
def Settles
    (s : Session σ ε α) : Except ε α → Prop
  | .ok _ => True
  | .error e => s.retryable e = false

------------------------------------------------------------
-- Courses
------------------------------------------------------------

/-
  A pause that is at least as long as the base delay and the
  hint of a failure ask for, or as the longest wait of the
  timer.
-/
structure Pauses
    (s : Session σ ε α)
    (b : Backoff)
    (failure : Except ε α)
    (pauseMs : Nat) : Prop where
  backoff :
    min b.leastDelay (Span.ofMs s.timer.longestMs)
      ≤ Span.ofMs pauseMs
  hint :
    ∀ e hint,
      failure = .error e →
      s.hint e = some hint →
        min hint (Span.ofMs s.timer.longestMs)
          ≤ Span.ofMs pauseMs

/-
  What comes of an operation that may be attempted so often:
  the attempts that were made, from the first one on, and the
  outcome of the last one.
-/
structure Course
    (s : Session σ ε α)
    (most : Nat)
    (b : Backoff)
    (begins : Nat)
    (state : σ)
    (e : SessionEnd σ ε α) : Prop where
  made : 0 < e.starts.length
  allowed : e.starts.length ≤ most
  retried :
    ∀ i, i + 1 < e.starts.length →
      ¬s.Settles (s.outcomeAt state i)
  settled :
    e.starts.length < most →
      s.Settles (s.outcomeAt state (e.starts.length - 1))
  result : e.result = s.outcomeAt state (e.starts.length - 1)
  left : e.state = s.stateAt state e.starts.length
  first : e.starts[0]? = some begins
  ended :
    ∃ last,
      e.starts[e.starts.length - 1]? = some last
        ∧ e.stop
          = last + s.spent (s.attemptAt state (e.starts.length - 1))
  paced :
    ∀ i start next,
      e.starts[i]? = some start →
      e.starts[i + 1]? = some next →
        ∃ pauseMs,
          next = start + s.spent (s.attemptAt state i) + pauseMs
            ∧ s.Pauses (b.after i) (s.outcomeAt state i) pauseMs

namespace Course

variable {s : Session σ ε α} {b : Backoff} {state : σ}

/- The only attempt of an operation. -/
theorem once
    {most : Nat}
    (hMost : 0 < most)
    (hSettled : 1 < most → s.Settles (s.outcomeAt state 0))
    (begins : Nat) :
    s.Course most b begins state
      { result := s.outcomeAt state 0
        starts := [begins]
        stop := begins + s.spent (s.attemptAt state 0)
        state := (s.attempt state).2 } :=
  { made := Nat.one_pos
    allowed := hMost
    retried := by
      intro i hi
      simp at hi
    settled := hSettled
    result := rfl
    left := rfl
    first := rfl
    ended := ⟨begins, rfl, rfl⟩
    paced := by
      intro i start next hStart hNext
      simp at hNext }

/- An attempt that has failed, and the course of the others. -/
theorem retry
    {most begins pauseMs : Nat}
    {e : SessionEnd σ ε α}
    (hFailed : ¬s.Settles (s.outcomeAt state 0))
    (hPause : s.Pauses b (s.outcomeAt state 0) pauseMs)
    (h :
      s.Course most (b.next 0).2
        (begins + s.spent (s.attemptAt state 0) + pauseMs)
        (s.attempt state).2 e) :
    s.Course (most + 1) b begins state
      { e with starts := begins :: e.starts } := by
  -- The last attempt of the others is the last of all.
  rcases Nat.exists_eq_add_one.mpr h.made with ⟨n, hn⟩
  have hLength : (begins :: e.starts).length - 1 = n + 1 := hn
  have hLast :
      s.attemptAt state (n + 1)
        = s.attemptAt (s.attempt state).2 (e.starts.length - 1) := by
    rw [hn]
    rfl
  have hOutcome :
      s.outcomeAt state (n + 1)
        = s.outcomeAt (s.attempt state).2 (e.starts.length - 1) :=
    congrArg s.given hLast
  refine
    { made := Nat.succ_pos _
      allowed := Nat.succ_le_succ h.allowed
      retried := ?_
      settled := ?_
      result := ?_
      left := h.left
      first := rfl
      ended := ?_
      paced := ?_ }
  · intro i hi
    cases i with
    | zero => exact hFailed
    | succ i => exact h.retried i (Nat.lt_of_succ_lt_succ hi)
  · intro hLess
    rw [hLength, hOutcome]
    exact h.settled (Nat.lt_of_succ_lt_succ hLess)
  · rw [hLength, hOutcome]
    exact h.result
  · rcases h.ended with ⟨last, hAt, hStop⟩
    rw [hLength, hLast]
    refine ⟨last, ?_, hStop⟩
    rw [hn] at hAt
    exact hAt
  · intro i start next hStart hNext
    cases i with
    | zero =>
        have hThen : next = _ :=
          Option.some.inj (hNext.symm.trans h.first)
        refine ⟨pauseMs, ?_, hPause⟩
        rw [hThen, ← Option.some.inj hStart]
    | succ i => exact h.paced i start next hStart hNext

end Course

------------------------------------------------------------
-- Runs
------------------------------------------------------------

section Runs

variable {s : Session σ ε α}

theorem canceledBefore_eq_none
    (hCancel : s.cancelAt = none)
    (instant : Option Nat) :
    s.canceledBefore instant = none := by
  unfold canceledBefore
  rw [hCancel]

/- The wait for a delay is a pause as long as it has to be. -/
theorem pauses_waitMs
    {b : Backoff}
    {failure : ε}
    {delay : Nat}
    (hBackoff : b.leastDelay ≤ delay)
    (hHint : (s.hint failure).getD 0 ≤ delay) :
    s.Pauses b (.error failure)
      (s.timer.waitMs (Span.ceilMs delay)) := by
  -- Rounding to milliseconds never makes a wait shorter.
  have hWait :
      min delay (Span.ofMs s.timer.longestMs)
        ≤ Span.ofMs (s.timer.waitMs (Span.ceilMs delay)) := by
    unfold Span.ofMs Timer.waitMs Span.ceilMs
    omega
  refine { backoff := by omega, hint := ?_ }
  rintro e hint ⟨⟩ hGiven
  rw [hGiven, Option.getD_some] at hHint
  omega

/-
  One attempt of an operation without a budget that is not
  canceled: it settles the operation, is the last one, or is
  followed by a pause and the other attempts.
-/
theorem attemptsFrom_succ
    (hCancel : s.cancelAt = none)
    {m : RetryMachine}
    {n : Nat}
    (hState : m.state = .attempting n)
    (hBudget : m.budget = none)
    {state : σ}
    (hEnds : s.Ends (s.attempt state).1)
    (left now : Nat)
    (starts : List Nat) :
    s.attemptsFrom (left + 1) m now starts state =
      let a := (s.attempt state).1
      let stop := now + s.spent a
      let ended : SessionEnd σ ε α :=
        { result := s.given a
          starts := (now :: starts).reverse
          stop := stop
          state := (s.attempt state).2 }
      match s.given a with
      | .ok _ => ended
      | .error e =>
          if s.retryable e = false ∨ m.maxAttempts ≤ n then ended
          else
            let (drawn, backoff) :=
              m.backoff.next (s.drawnMs (s.attempt state).2 n)
            let delay := max drawn ((s.hint e).getD 0)
            s.attemptsFrom left
              { m with
                state := .attempting (n + 1)
                backoff := backoff }
              (stop + s.timer.waitMs (Span.ceilMs delay))
              (now :: starts) (s.attempt state).2 := by
  have hLasts (ns : Nat) : ¬m.Exhausted ns := by
    unfold RetryMachine.Exhausted
    rw [hBudget]
    exact not_false
  have hNever (instant : Option Nat) :
      s.canceledBefore instant = none :=
    canceledBefore_eq_none hCancel instant
  rw [attemptsFrom]
  simp only [hLasts, and_false, if_false, hNever,
    Option.isSome_none, Bool.false_eq_true, outcome_eq hEnds]
  cases hGiven : s.given (s.attempt state).1 with
  | ok v => rfl
  | error e =>
      simp only [RetryMachine.onFailure, hState,
        RetryState.attempt, hLasts, or_false]
      by_cases hLast : s.retryable e = false ∨ m.maxAttempts ≤ n
      · simp only [if_pos hLast]
      · simp only [if_neg hLast, RetryMachine.delayAfter, hBudget,
          RetryMachine.nextAttempt]

/- The attempt that settles an operation, or the last one. -/
theorem attemptsFrom_last
    (hCancel : s.cancelAt = none)
    {m : RetryMachine}
    {n : Nat}
    (hState : m.state = .attempting n)
    (hBudget : m.budget = none)
    {state : σ}
    (hEnds : s.Ends (s.attemptAt state 0))
    (hLast : s.Settles (s.outcomeAt state 0) ∨ m.maxAttempts ≤ n)
    (left now : Nat)
    (starts : List Nat) :
    s.attemptsFrom (left + 1) m now starts state =
      { result := s.outcomeAt state 0
        starts := starts.reverse ++ [now]
        stop := now + s.spent (s.attemptAt state 0)
        state := (s.attempt state).2 } := by
  have hThis : s.Ends (s.attempt state).1 := hEnds
  have hOutcome :
      s.outcomeAt state 0 = s.given (s.attempt state).1 :=
    rfl
  rw [attemptsFrom_succ hCancel hState hBudget hThis,
    ← List.reverse_cons, hOutcome]
  rw [hOutcome] at hLast
  cases hGiven : s.given (s.attempt state).1 with
  | ok v =>
      simp only [hGiven]
      rfl
  | error e =>
      rw [hGiven] at hLast
      have hStops : s.retryable e = false ∨ m.maxAttempts ≤ n :=
        hLast
      simp only [hGiven, if_pos hStops]
      rfl

/- An attempt that is retried, and the machine that goes on. -/
theorem attemptsFrom_retried
    (hCancel : s.cancelAt = none)
    {m : RetryMachine}
    {n : Nat}
    (hState : m.state = .attempting n)
    (hBudget : m.budget = none)
    {state : σ}
    (hEnds : s.Ends (s.attemptAt state 0))
    (hFailed : ¬s.Settles (s.outcomeAt state 0))
    (hMore : n < m.maxAttempts)
    (left now : Nat)
    (starts : List Nat) :
    ∃ pauseMs,
      s.Pauses m.backoff (s.outcomeAt state 0) pauseMs
        ∧ s.attemptsFrom (left + 1) m now starts state
          = s.attemptsFrom left
              { m with
                state := .attempting (n + 1)
                backoff := (m.backoff.next 0).2 }
              (now + s.spent (s.attemptAt state 0) + pauseMs)
              (now :: starts) (s.attempt state).2 := by
  have hThis : s.Ends (s.attempt state).1 := hEnds
  have hOutcome :
      s.outcomeAt state 0 = s.given (s.attempt state).1 :=
    rfl
  rw [attemptsFrom_succ hCancel hState hBudget hThis, hOutcome]
  rw [hOutcome] at hFailed
  cases hGiven : s.given (s.attempt state).1 with
  | ok v =>
      rw [hGiven] at hFailed
      exact absurd trivial hFailed
  | error e =>
      rw [hGiven] at hFailed
      have hGoesOn :
          ¬(s.retryable e = false ∨ m.maxAttempts ≤ n) := by
        rintro (hSettled | hLast)
        · exact hFailed hSettled
        · omega
      have hDrawn :=
        m.backoff.leastDelay_le_next
          (s.drawnMs (s.attempt state).2 n)
      refine
        ⟨_,
          pauses_waitMs (Nat.le_trans hDrawn (Nat.le_max_left _ _))
            (Nat.le_max_right _ ((s.hint e).getD 0)), ?_⟩
      simp only [hGiven, if_neg hGoesOn,
        ← m.backoff.next_snd (s.drawnMs (s.attempt state).2 n)]
      rfl

/-
  From any attempt on, an operation runs its course.  The
  number of attempts that are left and the one that is made
  add up to those that are allowed.
-/
theorem attemptsFrom_course
    (hCancel : s.cancelAt = none)
    (left : Nat)
    {m : RetryMachine}
    {n : Nat}
    (hState : m.state = .attempting n)
    (hBudget : m.budget = none)
    (hLeft : m.maxAttempts = left + n)
    {state : σ}
    (hEnds : ∀ i, s.Ends (s.attemptAt state i))
    (now : Nat)
    (starts : List Nat) :
    ∃ e,
      s.Course (left + 1) m.backoff now state e
        ∧ s.attemptsFrom (left + 1) m now starts state
          = { e with starts := starts.reverse ++ e.starts } := by
  induction left generalizing m n state now starts with
  | zero =>
      refine ⟨_, Course.once Nat.one_pos (by omega) now, ?_⟩
      exact
        attemptsFrom_last hCancel hState hBudget (hEnds 0)
          (Or.inr (by omega)) 0 now starts
  | succ left ih =>
      by_cases hSettled : s.Settles (s.outcomeAt state 0)
      · refine
          ⟨_, Course.once (Nat.succ_pos _) (fun _ => hSettled) now,
            ?_⟩
        exact
          attemptsFrom_last hCancel hState hBudget (hEnds 0)
            (Or.inl hSettled) _ now starts
      · rcases
          attemptsFrom_retried hCancel hState hBudget (hEnds 0)
            hSettled (by omega) (left + 1) now starts with
          ⟨pauseMs, hPause, hNext⟩
        have hRoom : m.maxAttempts = left + (n + 1) := by omega
        rcases
          ih (m := { m with
              state := .attempting (n + 1)
              backoff := (m.backoff.next 0).2 })
            rfl hBudget hRoom (fun i => hEnds (i + 1))
            (now + s.spent (s.attemptAt state 0) + pauseMs)
            (now :: starts) with
          ⟨e, hCourse, hRest⟩
        refine ⟨_, Course.retry hSettled hPause hCourse, ?_⟩
        rw [hNext, hRest, List.reverse_cons, List.append_assoc]
        rfl

end Runs

/-
  An operation without a budget that is not canceled, and of
  which each attempt ends: it is attempted until an outcome
  settles it or no other attempt is allowed, and the outcome
  of the last attempt is its result.  If the timer can count
  the limit of an attempt, one is given up just when it lasts
  longer than that.
-/
theorem run_course
    (s : Session σ ε α)
    {b : Backoff}
    (hBackoff : s.policy.backoff? = .ok b)
    (hBudget : s.policy.budgetMs = none)
    (hCancel : s.cancelAt = none)
    (state : σ)
    (hEnds : ∀ i, s.Ends (s.attemptAt state i)) :
    s.Course s.policy.maxAttempts b 0 state (s.run state)
      ∧ (s.policy.maxRetries < Word.uint32Max →
          s.policy.maxAttempts = s.policy.maxRetries + 1)
      ∧ ((∀ limit,
            s.policy.attemptLimitMs = some limit →
              limit ≤ s.timer.longestMs) →
          ∀ a : Attempt ε α,
            s.Overdue a ↔ a.LastsOver s.policy.attemptLimitMs) := by
  have hSome : 0 < s.policy.maxAttempts := by
    unfold RetryPolicy.maxAttempts Word.uint32Max
    omega
  rcases Nat.exists_eq_add_one.mpr hSome with ⟨left, hMost⟩
  let m : RetryMachine :=
    { state := .attempting 1
      maxAttempts := s.policy.maxAttempts
      budget := none
      backoff := b
      started := 0 }
  have hStart : RetryMachine.start? s.policy 0 = .ok m := by
    unfold RetryMachine.start?
    rw [hBackoff, hBudget]
    rfl
  rcases
    attemptsFrom_course hCancel left (m := m) rfl rfl hMost hEnds 0
      [] with
    ⟨e, hCourse, hRun⟩
  refine ⟨?_, ?_, ?_⟩
  · unfold run
    rw [hStart, hMost]
    simp only
    rw [hRun]
    exact hCourse
  · intro hLess
    unfold RetryPolicy.maxAttempts
    omega
  · intro hLimit a
    unfold Overdue
    rw [attemptLimit?_eq hLimit]

/- An operation that is late, then refused, then done. -/
def fitful : Session Nat String Nat :=
  { policy :=
      { RetryPolicy.standard with
        initialDelayMs := 10
        jitterMs := 0
        attemptLimitMs := some 60
        budgetMs := none }
    name := "fetch"
    attempt := fun n =>
      (match n with
        | 0 => ⟨some 90, .ok 1⟩
        | 1 => ⟨some 5, .error "busy"⟩
        | _ => ⟨some 5, .ok 7⟩,
        n + 1)
    retryable := fun _ => true
    hint := fun e =>
      if e = "busy" then some (Span.ofMs 250) else none
    created := fun message => message
    cancelAt := none
    drawnMs := fun _ _ => 0
    timer := .standard }

/- Three attempts of five; the last pause is what was asked for. -/
theorem run_course_of_fitful :
    ∃ b,
      fitful.policy.backoff? = .ok b
        ∧ fitful.Course 5 b 0 0 (fitful.run 0)
        ∧ (fitful.run 0).result = .ok 7
        ∧ (fitful.run 0).starts = [0, 70, 325] := by
  have hBackoff :=
    RetryPolicy.backoff?_eq_ok (p := fitful.policy) (by decide)
      (by decide) (by decide)
  have hEnds (i : Nat) : fitful.Ends (fitful.attemptAt 0 i) :=
    Or.inr (by decide)
  refine ⟨_, hBackoff, ?_, by rfl, by decide⟩
  exact (@run_course _ _ _ fitful _ hBackoff rfl rfl 0 hEnds).1

/- An operation that is to be repeated after many years. -/
def patient : Session Nat String Nat :=
  { fitful with
    policy :=
      { fitful.policy with
        maxRetries := 1
        initialDelayMs := 1000000000000
        maxDelayMs := 1000000000000
        backoffFactor := Binary64.one
        attemptLimitMs := none }
    attempt := fun n =>
      (⟨some 0, if n = 0 then .error "e" else .ok 1⟩, n + 1) }

/-
  The second attempt is to start after the base delay, which
  is longer than thirty years, and starts after thirty years.
-/
theorem exists_pause_cut_short :
    ∃ b,
      patient.policy.backoff? = .ok b
        ∧ patient.policy.budgetMs = none
        ∧ patient.cancelAt = none
        ∧ patient.spent (patient.attemptAt 0 0) = 0
        ∧ (patient.run 0).starts = [0, 946080000000]
        ∧ Span.ofMs 946080000000 < b.leastDelay := by
  have hBackoff :=
    RetryPolicy.backoff?_eq_ok (p := patient.policy) (by decide)
      (by decide) (by decide)
  exact
    ⟨_, hBackoff, rfl, rfl, by decide, by decide, by decide⟩

end Session

end TradeTape
