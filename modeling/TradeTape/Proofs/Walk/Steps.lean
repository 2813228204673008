import TradeTape.Proofs.Walk.Answers

/-
  What one step of a walk can do.

  After an answer a walk goes on, comes home with a haul, or
  fails.  Each of these says what the answer was and where it
  has led to, so what holds of all walks is shown without
  looking at how a page is taken.

  Key statements include:
    * `Walk.nextTime_eq_some`
    * `Walk.nextTime_eq_error`
    * `Walk.nextTime_eq_none`
    * `Walk.nextSeq_eq_some`
    * `Walk.receive_eq_asks`
    * `Walk.receive_eq_haul`
    * `Walk.receive_eq_error`
    * `Walk.answer_eq_asks`
    * `Walk.answer_eq_haul`
-/

namespace TradeTape

namespace Walk

------------------------------------------------------------
-- Ranges after a page
------------------------------------------------------------

/- When a range of instants is left after a page, and which. -/
theorem nextTime_eq_some
    {w : Walk}
    {whole asked : TimeWindow}
    {page : List Trade}
    {left : Window}
    (hNext : w.nextTime whole asked page = .ok (some left)) :
    ∃ oldest endMs,
      least? (page.map Trade.timestamp) = some oldest
        ∧ w.Full page
        ∧ oldest ≤ asked.endMs
        ∧ (match w.rules.boundary with
          | .inclusive => oldest ≠ asked.endMs ∧ endMs = oldest
          | .exclusive => endMs = Word.subSat oldest 1)
        ∧ whole.startMs ≤ endMs
        ∧ left = .time ⟨whole.startMs, endMs⟩ := by
  unfold nextTime at hNext
  cases hLeast : least? (page.map Trade.timestamp) with
  | none =>
      rw [hLeast] at hNext
      cases hNext
  | some oldest =>
      simp only [hLeast] at hNext
      by_cases hFull : w.Full page
      · simp only [hFull, not_true_eq_false, if_false] at hNext
        split at hNext
        · cases hNext
        · rename_i hEnd
          -- The range ends at the oldest instant or before it.
          refine ⟨oldest, ?_⟩
          cases hBoundary : w.rules.boundary with
          | inclusive =>
              simp only [hBoundary] at hNext
              by_cases hCut : oldest = asked.endMs
              · simp only [hCut, if_true] at hNext
                cases hNext
              · simp only [hCut, if_false] at hNext
                split at hNext
                · cases hNext
                · cases hNext
                  exact
                    ⟨oldest, rfl, hFull, by omega, ⟨hCut, rfl⟩,
                      by omega, rfl⟩
          | exclusive =>
              simp only [hBoundary] at hNext
              split at hNext
              · cases hNext
              · cases hNext
                exact
                  ⟨_, rfl, hFull, by omega, rfl, by omega, rfl⟩
      · simp only [hFull, not_false_eq_true, if_true] at hNext
        cases hNext

/- When a page of instants makes a walk fail, and how. -/
theorem nextTime_eq_error
    {w : Walk}
    {whole asked : TimeWindow}
    {page : List Trade}
    {f : Fault}
    (hNext : w.nextTime whole asked page = .error f) :
    ∃ oldest,
      least? (page.map Trade.timestamp) = some oldest
        ∧ w.Full page
        ∧ (asked.endMs < oldest
          ∨ oldest = asked.endMs
            ∧ w.rules.boundary = .inclusive
            ∧ f = .saturated asked.endMs) := by
  unfold nextTime at hNext
  cases hLeast : least? (page.map Trade.timestamp) with
  | none =>
      rw [hLeast] at hNext
      cases hNext
  | some oldest =>
      simp only [hLeast] at hNext
      refine ⟨oldest, rfl, ?_⟩
      by_cases hFull : w.Full page
      · refine ⟨hFull, ?_⟩
        simp only [hFull, not_true_eq_false, if_false] at hNext
        split at hNext
        · exact Or.inl ‹_›
        · cases hBoundary : w.rules.boundary with
          | inclusive =>
              simp only [hBoundary] at hNext
              by_cases hCut : oldest = asked.endMs
              · simp only [hCut, if_true] at hNext
                cases hNext
                exact Or.inr ⟨hCut, rfl, rfl⟩
              · simp only [hCut, if_false] at hNext
                split at hNext <;> cases hNext
          | exclusive =>
              simp only [hBoundary] at hNext
              split at hNext <;> cases hNext
      · simp only [hFull, not_false_eq_true, if_true] at hNext
        cases hNext

/- When no range is left after a full page of instants. -/
theorem nextTime_eq_none
    {w : Walk}
    {whole asked : TimeWindow}
    {page : List Trade}
    (hNext : w.nextTime whole asked page = .ok none)
    (hFull : w.Full page)
    (hSome : page ≠ []) :
    ∃ oldest endMs,
      least? (page.map Trade.timestamp) = some oldest
        ∧ (match w.rules.boundary with
          | .inclusive => endMs = oldest
          | .exclusive => endMs = Word.subSat oldest 1)
        ∧ endMs < whole.startMs := by
  unfold nextTime at hNext
  cases hLeast : least? (page.map Trade.timestamp) with
  | none =>
      have hNone := List.map_eq_nil_iff.mp (least?_eq_none hLeast)
      exact absurd hNone hSome
  | some oldest =>
      simp only [hLeast, hFull, not_true_eq_false,
        if_false] at hNext
      split at hNext
      · cases hNext
      · cases hBoundary : w.rules.boundary with
        | inclusive =>
            simp only [hBoundary] at hNext
            by_cases hCut : oldest = asked.endMs
            · simp only [hCut, if_true] at hNext
              cases hNext
            · simp only [hCut, if_false] at hNext
              split at hNext
              · exact ⟨oldest, oldest, rfl, rfl, ‹_›⟩
              · cases hNext
        | exclusive =>
            simp only [hBoundary] at hNext
            split at hNext
            · exact ⟨oldest, _, rfl, rfl, ‹_›⟩
            · cases hNext

/- When a range of numbers is left after a page, and which. -/
theorem nextSeq_eq_some
    {w : Walk}
    {whole asked : SeqWindow}
    {page : List Trade}
    {left : Window}
    (hNext : w.nextSeq whole asked page = .ok (some left)) :
    ∃ newest,
      greatest? (page.map Trade.seq) = some newest
        ∧ w.Full page
        ∧ asked.startSeq ≤ newest
        ∧ newest < whole.endSeq
        ∧ left = .seq ⟨newest + 1, whole.endSeq⟩ := by
  unfold nextSeq at hNext
  cases hGreatest : greatest? (page.map Trade.seq) with
  | none =>
      rw [hGreatest] at hNext
      cases hNext
  | some newest =>
      simp only [hGreatest] at hNext
      split at hNext
      · cases hNext
      · rename_i hMore
        rw [not_or, not_not] at hMore
        split at hNext
        · cases hNext
        · cases hNext
          exact
            ⟨newest, rfl, hMore.1, by omega, by omega, rfl⟩

/- When a page of numbers makes a walk fail. -/
theorem nextSeq_eq_error
    {w : Walk}
    {whole asked : SeqWindow}
    {page : List Trade}
    {f : Fault}
    (hNext : w.nextSeq whole asked page = .error f) :
    ∃ newest,
      greatest? (page.map Trade.seq) = some newest
        ∧ newest < asked.startSeq := by
  unfold nextSeq at hNext
  cases hGreatest : greatest? (page.map Trade.seq) with
  | none =>
      rw [hGreatest] at hNext
      cases hNext
  | some newest =>
      simp only [hGreatest] at hNext
      split at hNext
      · cases hNext
      · split at hNext
        · exact ⟨newest, rfl, ‹_›⟩
        · cases hNext

------------------------------------------------------------
-- Pages
------------------------------------------------------------

/- When a walk goes on after a page, and how. -/
theorem receive_eq_asks
    {w w' : Walk}
    {page : List Trade}
    (hAsks : w.receive page = .asks w') :
    ∃ left,
      w.next page = .ok (some left)
        ∧ w.requests + 1 < w.rules.maxPages
        ∧ w' =
          { w with
            asked := left
            pages := w.pages ++ [page]
            requests := w.requests + 1 } := by
  simp only [receive] at hAsks
  cases hNext : w.next page with
  | error f =>
      rw [hNext] at hAsks
      cases hAsks
  | ok after =>
      rw [hNext] at hAsks
      cases after with
      | none => cases hAsks
      | some left =>
          simp only at hAsks
          split at hAsks
          · cases hAsks
          · cases hAsks
            exact ⟨left, rfl, Nat.lt_of_not_le ‹_›, rfl⟩

/- When a walk ends with a haul, and with which. -/
theorem receive_eq_haul
    {w : Walk}
    {page : List Trade}
    {haul : Haul}
    (hEnds : w.receive page = .ends (.ok haul)) :
    w.next page = .ok none
      ∧ haul =
        { window := w.whole
          trades := Merge.pages (w.pages ++ [page]) w.whole
          requests := w.requests + 1 } := by
  simp only [receive] at hEnds
  cases hNext : w.next page with
  | error f =>
      rw [hNext] at hEnds
      cases hEnds
  | ok after =>
      rw [hNext] at hEnds
      cases after with
      | none =>
          cases hEnds
          exact ⟨rfl, rfl⟩
      | some left =>
          simp only at hEnds
          split at hEnds <;> cases hEnds

/- When a walk fails with a page, and why. -/
theorem receive_eq_error
    {w : Walk}
    {page : List Trade}
    {f : Fault}
    (hEnds : w.receive page = .ends (.error f)) :
    w.next page = .error f
      ∨ ∃ left,
        w.next page = .ok (some left)
          ∧ w.rules.maxPages ≤ w.requests + 1
          ∧ f = .pageCeiling w.rules.maxPages := by
  simp only [receive] at hEnds
  cases hNext : w.next page with
  | error f' =>
      rw [hNext] at hEnds
      cases hEnds
      exact Or.inl rfl
  | ok after =>
      rw [hNext] at hEnds
      cases after with
      | none => cases hEnds
      | some left =>
          simp only at hEnds
          split at hEnds
          · cases hEnds
            exact Or.inr ⟨left, rfl, ‹_›, rfl⟩
          · cases hEnds

------------------------------------------------------------
-- Answers
------------------------------------------------------------

/- When a walk goes on after an answer, and how. -/
theorem answer_eq_asks
    {w w' : Walk}
    {reply : Except Fault (List Trade)}
    (hAsks : w.answer reply = .asks w') :
    ∃ page left,
      reply = .ok page
        ∧ w.next page = .ok (some left)
        ∧ w.requests + 1 < w.rules.maxPages
        ∧ w' =
          { w with
            asked := left
            pages := w.pages ++ [page]
            requests := w.requests + 1 } := by
  cases reply with
  | error f => cases hAsks
  | ok page =>
      rcases receive_eq_asks hAsks with ⟨left, hNext, hMore, hAfter⟩
      exact ⟨page, left, rfl, hNext, hMore, hAfter⟩

/- A walk after a page is over the same window. -/
theorem asks_of_answer
    {w w' : Walk}
    {reply : Except Fault (List Trade)}
    (hAsks : w.answer reply = .asks w') :
    w'.instrument = w.instrument
      ∧ w'.whole = w.whole
      ∧ w'.rules = w.rules
      ∧ w'.requests = w.requests + 1
      ∧ w.requests + 1 < w.rules.maxPages := by
  rcases answer_eq_asks hAsks with ⟨_, _, _, _, hMore, rfl⟩
  exact ⟨rfl, rfl, rfl, rfl, hMore⟩

/- When a walk ends with a haul, and with which. -/
theorem answer_eq_haul
    {w : Walk}
    {reply : Except Fault (List Trade)}
    {haul : Haul}
    (hEnds : w.answer reply = .ends (.ok haul)) :
    ∃ page,
      reply = .ok page
        ∧ w.next page = .ok none
        ∧ haul =
          { window := w.whole
            trades := Merge.pages (w.pages ++ [page]) w.whole
            requests := w.requests + 1 } := by
  cases reply with
  | error f => cases hEnds
  | ok page => exact ⟨page, rfl, receive_eq_haul hEnds⟩

end Walk

end TradeTape
