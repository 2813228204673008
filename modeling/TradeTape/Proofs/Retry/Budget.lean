import TradeTape.Proofs.Retry.Course

/-
  The budget of a retried operation.

  What is left of a budget cuts off each pause, so no attempt
  starts after the budget has run out, and an operation is
  never given up between two attempts because of it: its
  result is what its last attempt gives, unless it is
  canceled.

  Key statements include:
    * `Session.pause_within`
    * `Session.Turn`
    * `Session.Kept`
    * `Session.attemptsFrom_kept`
    * `Session.run_within_budget`
-/

namespace TradeTape

theorem RetryPolicy.maxAttempts_pos (p : RetryPolicy) :
    0 < p.maxAttempts := by
  unfold maxAttempts Word.uint32Max
  omega

theorem RetryPolicy.maxAttempts_le (p : RetryPolicy) :
    p.maxAttempts ≤ p.maxRetries + 1 :=
  Nat.min_le_left _ _

namespace Session

variable {σ ε α : Type}

/- The first attempt of an operation whose policy has a backoff. -/
theorem run_eq_attemptsFrom
    (s : Session σ ε α)
    {b : Backoff}
    (hBackoff : s.policy.backoff? = .ok b)
    (state : σ) :
    s.run state =
      s.attemptsFrom s.policy.maxAttempts
        { state := .attempting 1
          maxAttempts := s.policy.maxAttempts
          budget := s.policy.budgetMs.map Span.ofMs
          backoff := b
          started := 0 }
        0 [] state := by
  unfold run RetryMachine.start?
  rw [hBackoff]
  rfl

------------------------------------------------------------
-- Instants
------------------------------------------------------------

section Instants

variable {s : Session σ ε α}

theorem lt_of_canceledBefore
    {t c : Nat}
    (h : s.canceledBefore (some t) = some c) :
    c < t := by
  unfold canceledBefore at h
  cases hCancel : s.cancelAt with
  | none => simp [hCancel] at h
  | some d =>
      simp only [hCancel] at h
      split at h
      · cases h
        assumption
      · cases h

theorem cancelAt_of_canceledBefore
    {instant : Option Nat}
    (h : (s.canceledBefore instant).isSome) :
    s.cancelAt ≠ none := by
  intro hNone
  rw [canceledBefore_eq_none hNone] at h
  cases h

/- No attempt takes longer than it may. -/
theorem spent_le
    {limit : Nat}
    (hLimit : s.policy.attemptLimitMs = some limit)
    (a : Attempt ε α) :
    s.spent a ≤ limit := by
  have hWait : s.timer.waitMs limit ≤ limit := s.timer.waitMs_le limit
  unfold spent attemptLimit?
  rw [hLimit, Option.map_some]
  cases a.duration with
  | none => exact hWait
  | some d => exact Nat.le_trans (Nat.min_le_right _ _) hWait

/- An attempt that has a limit ends. -/
theorem ends_of_limit
    {limit : Nat}
    (hLimit : s.policy.attemptLimitMs = some limit)
    (a : Attempt ε α) :
    s.Ends a :=
  Or.inr (by rw [hLimit]; exact Option.some_ne_none _)

/- An attempt that never ends gives what it would have given. -/
theorem outcome_of_not_ends
    {a : Attempt ε α}
    (hEnds : ¬s.Ends a)
    (now : Nat) :
    s.outcome now a = (none, s.given a) := by
  have hLong : a.duration = none :=
    Decidable.not_not.mp (mt Or.inl hEnds)
  have hFree : s.policy.attemptLimitMs = none :=
    Decidable.not_not.mp (mt Or.inr hEnds)
  have hLimit : s.attemptLimit? = none := by
    unfold attemptLimit?
    rw [hFree, Option.map_none]
  have hTimely : ¬s.Overdue a := by
    unfold Overdue
    rw [hLimit]
    exact not_false
  unfold given
  rw [if_neg hTimely]
  unfold outcome
  rw [hLong, hLimit]

end Instants

/-
  A pause that what is left of a budget cuts off ends within
  the budget, also when it is rounded to milliseconds.
-/
theorem pause_within
    {budgetMs stop delay : Nat}
    (hStop : stop ≤ budgetMs)
    (hDelay : delay ≤ Span.ofMs budgetMs - Span.ofMs stop) :
    stop + Span.ceilMs delay ≤ budgetMs := by
  unfold Span.ofMs at hDelay
  unfold Span.ceilMs
  omega

------------------------------------------------------------
-- Machines with a budget
------------------------------------------------------------

/-
  An operation that has a budget since the instant zero and
  is about to make one of its attempts.
-/
structure Budgeted
    (m : RetryMachine)
    (budgetMs n : Nat) : Prop where
  state : m.state = .attempting n
  budget : m.budget = some (Span.ofMs budgetMs)
  started : m.started = 0

namespace Budgeted

variable {m : RetryMachine} {budgetMs n : Nat}

theorem exhausted_iff
    (h : Budgeted m budgetMs n)
    (ms : Nat) :
    m.Exhausted (Span.ofMs ms) ↔ budgetMs < ms := by
  unfold RetryMachine.Exhausted RetryMachine.elapsed Span.ofMs
  rw [h.budget, h.started]
  unfold Span.ofMs
  simp only
  omega

theorem delayAfter_le
    (h : Budgeted m budgetMs n)
    (ns : Nat)
    (hint : Option Nat)
    (delay : Nat) :
    m.delayAfter ns hint delay ≤ Span.ofMs budgetMs - ns := by
  unfold RetryMachine.delayAfter RetryMachine.elapsed
  rw [h.budget, h.started]
  exact Nat.min_le_right _ _

/- The machine of the next attempt. -/
theorem next
    (h : Budgeted m budgetMs n)
    (b : Backoff) :
    Budgeted { m with state := .attempting (n + 1), backoff := b }
      budgetMs (n + 1) :=
  { state := rfl, budget := h.budget, started := h.started }

/- A failure is the last one, or there is a pause within the budget. -/
theorem onFailure_cases
    (h : Budgeted m budgetMs n)
    (stop : Nat)
    (retryable : Bool)
    (hint : Option Nat)
    (drawnMs : Nat) :
    (m.onFailure (Span.ofMs stop) retryable hint drawnMs).state
        = .failed n
      ∨ ∃ delay b,
          m.onFailure (Span.ofMs stop) retryable hint drawnMs
              = { m with state := .retrying n delay, backoff := b }
            ∧ n < m.maxAttempts
            ∧ stop + Span.ceilMs delay ≤ budgetMs := by
  unfold RetryMachine.onFailure
  rw [h.state]
  simp only
  split
  · exact Or.inl rfl
  · rename_i hMore
    have hAllowed : n < m.maxAttempts :=
      Nat.not_le.mp fun hLast => hMore (Or.inr (Or.inl hLast))
    have hStop : stop ≤ budgetMs :=
      Nat.not_lt.mp fun hOver =>
        hMore (Or.inr (Or.inr ((h.exhausted_iff stop).mpr hOver)))
    exact
      Or.inr
        ⟨_, _, rfl, hAllowed,
          pause_within hStop (h.delayAfter_le _ _ _)⟩

end Budgeted

------------------------------------------------------------
-- Runs within a budget
------------------------------------------------------------

/-
  What comes of an operation that keeps to a budget and may be
  attempted so often.  Its result is the outcome of its last
  attempt, unless it is canceled.
-/
structure Kept
    (s : Session σ ε α)
    (budgetMs most : Nat)
    (state : σ)
    (e : SessionEnd σ ε α) : Prop where
  early : ∀ start ∈ e.starts, start ≤ budgetMs
  ended :
    ∀ limit,
      s.policy.attemptLimitMs = some limit →
        e.stop ≤ budgetMs + limit
  allowed : e.starts.length ≤ most
  result :
    (s.cancelAt ≠ none
        ∧ e.result = .error (s.created canceledMessage))
      ∨ ∃ n,
          e.starts.length = n + 1
            ∧ e.result = s.outcomeAt state n

namespace Kept

variable {s : Session σ ε α} {budgetMs most now : Nat} {state : σ}

/- An operation that is canceled before an attempt. -/
theorem unmade
    (hCancel : s.cancelAt ≠ none)
    (hNow : now ≤ budgetMs)
    (left : σ) :
    s.Kept budgetMs most state
      { result := .error (s.created canceledMessage)
        starts := []
        stop := now
        state := left } :=
  { early := fun _ hMem => absurd hMem List.not_mem_nil
    ended := fun _ _ => Nat.le_trans hNow (Nat.le_add_right _ _)
    allowed := Nat.zero_le _
    result := Or.inl ⟨hCancel, rfl⟩ }

/- The last attempt of an operation. -/
theorem once
    {r : Except ε α}
    {stop : Nat}
    (hNow : now ≤ budgetMs)
    (hStop :
      s.Ends (s.attemptAt state 0) →
        stop ≤ now + s.spent (s.attemptAt state 0)
          ∨ stop ≤ budgetMs)
    (hResult :
      r = s.outcomeAt state 0
        ∨ (s.cancelAt ≠ none
            ∧ r = .error (s.created canceledMessage)))
    (left : σ) :
    s.Kept budgetMs (most + 1) state
      { result := r, starts := [now], stop := stop, state := left } := by
  refine
    { early := ?_
      ended := ?_
      allowed := Nat.succ_le_succ (Nat.zero_le _)
      result := ?_ }
  · intro start hMem
    rw [List.mem_singleton.mp hMem]
    exact hNow
  · intro limit hLimit
    have hSpent := spent_le hLimit (s.attemptAt state 0)
    have hEnded := hStop (ends_of_limit hLimit _)
    simp only
    omega
  · rcases hResult with hGiven | hCanceled
    · exact Or.inr ⟨0, rfl, hGiven⟩
    · exact Or.inl hCanceled

/- An attempt, and what comes of the others. -/
theorem retry
    {e : SessionEnd σ ε α}
    (hNow : now ≤ budgetMs)
    (h : s.Kept budgetMs most (s.attempt state).2 e) :
    s.Kept budgetMs (most + 1) state
      { e with starts := now :: e.starts } := by
  refine
    { early := List.forall_mem_cons.mpr ⟨hNow, h.early⟩
      ended := h.ended
      allowed := Nat.succ_le_succ h.allowed
      result := ?_ }
  rcases h.result with hCanceled | ⟨n, hLength, hResult⟩
  · exact Or.inl hCanceled
  · exact Or.inr ⟨n + 1, congrArg Nat.succ hLength, hResult⟩

end Kept

section Runs

/-
  What may come of the attempts from the present one on, for
  an operation with a budget: it is canceled before the
  attempt, ends with it or in the pause after it, or goes on
  within the budget.
-/
inductive Turn
    (s : Session σ ε α)
    (m : RetryMachine)
    (budgetMs n left now : Nat)
    (starts : List Nat)
    (state : σ) : SessionEnd σ ε α → Prop where
  | unmade
      (hCancel : s.cancelAt ≠ none) :
      Turn s m budgetMs n left now starts state
        { result := .error (s.created canceledMessage)
          starts := starts.reverse
          stop := now
          state := state }
  | last
      {r : Except ε α}
      {stop : Nat}
      (hStop :
        s.Ends (s.attemptAt state 0) →
          stop ≤ now + s.spent (s.attemptAt state 0)
            ∨ stop ≤ budgetMs)
      (hResult :
        r = s.outcomeAt state 0
          ∨ (s.cancelAt ≠ none
              ∧ r = .error (s.created canceledMessage))) :
      Turn s m budgetMs n left now starts state
        { result := r
          starts := (now :: starts).reverse
          stop := stop
          state := (s.attempt state).2 }
  | again
      {wake : Nat}
      {b : Backoff}
      (hWake : wake ≤ budgetMs)
      (hMore : n < m.maxAttempts) :
      Turn s m budgetMs n left now starts state
        (s.attemptsFrom left
          { m with state := .attempting (n + 1), backoff := b }
          wake (now :: starts) (s.attempt state).2)

variable {s : Session σ ε α} {m : RetryMachine} {budgetMs n : Nat}

theorem attemptsFrom_turn
    (hMachine : Budgeted m budgetMs n)
    {now : Nat}
    (hNow : now ≤ budgetMs)
    (left : Nat)
    (starts : List Nat)
    (state : σ) :
    s.Turn m budgetMs n left now starts state
      (s.attemptsFrom (left + 1) m now starts state) := by
  have hInTime : ¬m.Exhausted (Span.ofMs now) := fun hOver =>
    Nat.not_lt.mpr hNow ((hMachine.exhausted_iff now).mp hOver)
  have hGiven :
      s.given (s.attempt state).1 = s.outcomeAt state 0 :=
    rfl
  rw [attemptsFrom]
  simp only [hInTime, and_false, if_false]
  by_cases hCut : (s.canceledBefore (some (now + 1))).isSome
  · rw [if_pos hCut]
    exact .unmade (cancelAt_of_canceledBefore hCut)
  rw [if_neg hCut]
  by_cases hEnds : s.Ends (s.attempt state).1
  · rw [outcome_eq hEnds, hGiven]
    simp only
    generalize hStop : now + s.spent (s.attempt state).1 = stop
    have hSpent :
        stop ≤ now + s.spent (s.attemptAt state 0)
          ∨ stop ≤ budgetMs :=
      Or.inl (Nat.le_of_eq hStop.symm)
    cases hLate : s.canceledBefore (some stop) with
    | some c =>
        have hBefore := Nat.le_of_lt (lt_of_canceledBefore hLate)
        have hCancel :=
          cancelAt_of_canceledBefore
            (Option.isSome_of_eq_some hLate)
        refine .last (fun _ => ?_) (Or.inr ⟨hCancel, rfl⟩)
        exact hSpent.imp (Nat.le_trans hBefore) (Nat.le_trans hBefore)
    | none =>
        cases hOutcome : s.outcomeAt state 0 with
        | ok v => exact .last (fun _ => hSpent) (Or.inl hOutcome.symm)
        | error e =>
            simp only
            rcases
              hMachine.onFailure_cases stop (s.retryable e)
                (s.hint e)
                (s.drawnMs (s.attempt state).2 m.state.attempt) with
              hLast | ⟨delay, b, hPause, hMore, hAsked⟩
            · rw [hLast]
              exact .last (fun _ => hSpent) (Or.inl hOutcome.symm)
            · rw [hPause]
              simp only
              have hWake :
                  stop + s.timer.waitMs (Span.ceilMs delay)
                    ≤ budgetMs :=
                Nat.le_trans
                  (Nat.add_le_add_left (s.timer.waitMs_le _) stop)
                  hAsked
              cases hCutShort :
                  s.canceledBefore
                    (some
                      (stop + s.timer.waitMs (Span.ceilMs delay))) with
              | some c =>
                  have hBefore := lt_of_canceledBefore hCutShort
                  have hCancel :=
                    cancelAt_of_canceledBefore
                      (Option.isSome_of_eq_some hCutShort)
                  refine
                    .last (fun _ => Or.inr ?_)
                      (Or.inr ⟨hCancel, rfl⟩)
                  exact Nat.le_trans (Nat.le_of_lt hBefore) hWake
              | none => exact .again hWake hMore
  · rw [outcome_of_not_ends hEnds, hGiven]
    simp only
    cases hLate : s.canceledBefore none with
    | some c =>
        have hCancel :=
          cancelAt_of_canceledBefore
            (Option.isSome_of_eq_some hLate)
        exact
          .last (fun hDone => absurd hDone hEnds)
            (Or.inr ⟨hCancel, rfl⟩)
    | none =>
        exact .last (fun hDone => absurd hDone hEnds) (Or.inl rfl)

/-
  From any attempt within the budget on, an operation keeps to
  it.  There are attempts left for as long as the machine
  allows another one.
-/
theorem attemptsFrom_kept
    (left : Nat)
    (hMachine : Budgeted m budgetMs n)
    (hAllowed : n ≤ m.maxAttempts)
    (hLeft : m.maxAttempts + 1 = left + n)
    {now : Nat}
    (hNow : now ≤ budgetMs)
    (starts : List Nat)
    (state : σ) :
    ∃ e,
      s.Kept budgetMs left state e
        ∧ s.attemptsFrom left m now starts state
          = { e with starts := starts.reverse ++ e.starts } := by
  induction left generalizing m n now starts state with
  | zero => omega
  | succ left ih =>
      have hTurn :=
        attemptsFrom_turn (s := s) hMachine hNow left starts state
      generalize s.attemptsFrom (left + 1) m now starts state = e
        at hTurn
      cases hTurn with
      | unmade hCancel =>
          refine ⟨_, Kept.unmade hCancel hNow state, ?_⟩
          simp
      | last hStop hResult =>
          refine
            ⟨_, Kept.once hNow hStop hResult (s.attempt state).2,
              ?_⟩
          simp
      | @again wake b hWake hMore =>
          have hRoom : m.maxAttempts + 1 = left + (n + 1) := by
            omega
          rcases
            ih (hMachine.next b) hMore hRoom hWake (now :: starts)
              (s.attempt state).2 with
            ⟨e, hKept, hRest⟩
          refine ⟨_, Kept.retry hNow hKept, ?_⟩
          rw [hRest, List.reverse_cons, List.append_assoc]
          rfl

end Runs

------------------------------------------------------------
-- Messages
------------------------------------------------------------

/- The message of a spent budget is none of the others. -/
theorem exhaustedMessage_ne_canceled (s : Session σ ε α) :
    s.exhaustedMessage ≠ canceledMessage := by
  intro hSame
  have hText (t : String) : toString t = t := rfl
  have hList := congrArg String.toList hSame
  unfold exhaustedMessage canceledMessage at hList
  simp [hText] at hList

theorem exhaustedMessage_ne_overdue (s : Session σ ε α) :
    s.exhaustedMessage ≠ s.overdueMessage := by
  intro hSame
  have hText (t : String) : toString t = t := rfl
  have hList := congrArg String.toList hSame
  unfold exhaustedMessage overdueMessage at hList
  simp [hText] at hList

/-
  An operation that keeps to its budget does not end for the
  budget: where the fault made of that message is no other
  one, it is not the result unless an attempt gave it.
-/
theorem Kept.result_ne_exhausted
    {s : Session σ ε α}
    {budgetMs most : Nat}
    {state : σ}
    {e : SessionEnd σ ε α}
    (h : s.Kept budgetMs most state e)
    (hApart :
      ∀ message,
        s.created message = s.created s.exhaustedMessage →
          message = s.exhaustedMessage)
    (hOwn :
      ∀ n,
        (s.attemptAt state n).result
          ≠ .error (s.created s.exhaustedMessage)) :
    e.result ≠ .error (s.created s.exhaustedMessage) := by
  intro hSpent
  rcases h.result with ⟨-, hCanceled⟩ | ⟨n, -, hLast⟩
  · have hMade := Except.error.inj (hCanceled.symm.trans hSpent)
    exact s.exhaustedMessage_ne_canceled (hApart _ hMade).symm
  · have hGiven := hLast.symm.trans hSpent
    unfold outcomeAt given at hGiven
    split at hGiven
    · have hMade := Except.error.inj hGiven
      exact s.exhaustedMessage_ne_overdue (hApart _ hMade).symm
    · exact hOwn n hGiven

/-
  An operation with a budget, whatever its attempts do and
  whether or not it is canceled: each attempt starts within
  the budget, the last one ends within its own limit after
  that, there are no more of them than allowed, and the
  operation is never given up for its budget.
-/
theorem run_within_budget
    (s : Session σ ε α)
    {b : Backoff}
    (hBackoff : s.policy.backoff? = .ok b)
    {budgetMs : Nat}
    (hBudget : s.policy.budgetMs = some budgetMs)
    (state : σ) :
    s.Kept budgetMs (s.policy.maxRetries + 1) state (s.run state)
      ∧ ((∀ message,
            s.created message = s.created s.exhaustedMessage →
              message = s.exhaustedMessage) →
          (∀ n,
            (s.attemptAt state n).result
              ≠ .error (s.created s.exhaustedMessage)) →
            (s.run state).result
              ≠ .error (s.created s.exhaustedMessage)) := by
  have hRun := s.run_eq_attemptsFrom hBackoff state
  rw [hBudget] at hRun
  let m : RetryMachine :=
    { state := .attempting 1
      maxAttempts := s.policy.maxAttempts
      budget := some (Span.ofMs budgetMs)
      backoff := b
      started := 0 }
  rcases
    attemptsFrom_kept (s := s) (m := m) s.policy.maxAttempts
      { state := rfl, budget := rfl, started := rfl }
      s.policy.maxAttempts_pos rfl (Nat.zero_le budgetMs) [] state with
    ⟨e, hKept, hAttempts⟩
  have hEnd : s.run state = e := hRun.trans hAttempts
  rw [hEnd]
  exact
    ⟨{ hKept with
        allowed :=
          Nat.le_trans hKept.allowed s.policy.maxAttempts_le },
      hKept.result_ne_exhausted⟩

/-
  An operation that is asked to come back after a year, and
  then never answered.
-/
def hurried : Session Nat String Nat :=
  { policy :=
      { RetryPolicy.standard with
        initialDelayMs := 10
        jitterMs := 0
        attemptLimitMs := some 60
        budgetMs := some 100 }
    name := "fetch"
    attempt := fun n =>
      (if n = 0 then ⟨some 30, .error "busy"⟩ else ⟨none, .ok 7⟩,
        n + 1)
    retryable := fun _ => true
    hint := fun _ => some (Span.ofSecs 31536000)
    created := fun message => message
    cancelAt := none
    drawnMs := fun _ _ => 0
    timer := .standard }

/-
  The second attempt starts at the last moment and is cut off
  at the latest instant there is.
-/
theorem run_within_budget_of_hurried :
    ∃ b,
      hurried.policy.backoff? = .ok b
        ∧ hurried.policy.budgetMs = some 100
        ∧ hurried.Kept 100 5 0 (hurried.run 0)
        ∧ (hurried.run 0).starts = [0, 100]
        ∧ (hurried.run 0).stop = 160 := by
  have hBackoff :=
    RetryPolicy.backoff?_eq_ok (p := hurried.policy) (by decide)
      (by decide) (by decide)
  exact
    ⟨_, hBackoff, rfl, (run_within_budget hurried hBackoff rfl 0).1,
      by decide, by decide⟩

end Session

end TradeTape
