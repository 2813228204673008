import Mathlib.Data.Finset.Card
import TradeTape.Proofs.Walk.Exactness
import TradeTape.Proofs.Walk.Steps

/-
  Walks down the instants of a tape, to their last query.

  A walk over instants passes at least one of them with each
  full page, so the instants of its window bound the number
  of its requests.  What holds of a walk and is kept by each
  page still holds when it asks for the last time.

  Key statements include:
    * `Window.instants`
    * `Window.instantsBefore_lt`
    * `Walk.Downward`
    * `Walk.follow_last`
    * `TapeVenue.walk_last`
-/

namespace TradeTape

open Trade

------------------------------------------------------------
-- Instants
------------------------------------------------------------

namespace Window

/- The instants at which a tape has trades in a window. -/
def instants
    (w : Window)
    (tape : List Trade) : Finset Int :=
  ((w.inside tape).map Trade.timestamp).toFinset

variable {tape : List Trade}

@[simp] theorem mem_instants
    {w : Window}
    {ms : Int} :
    ms ∈ w.instants tape ↔
      ∃ t ∈ tape, w.Holds t ∧ t.timestamp = ms := by
  simp [instants, and_assoc]

/- There are no more instants than trades. -/
theorem card_instants_le
    (w : Window)
    (tape : List Trade) :
    (w.instants tape).card ≤ (w.inside tape).length := by
  have hCard :=
    List.toFinset_card_le ((w.inside tape).map Trade.timestamp)
  simpa [instants] using hCard

/- The number of those instants that come before a limit. -/
def instantsBefore
    (w : Window)
    (tape : List Trade)
    (limit : Int) : Nat :=
  ((w.instants tape).filter (· < limit)).card

theorem instantsBefore_le
    (w : Window)
    (tape : List Trade)
    (limit : Int) :
    w.instantsBefore tape limit ≤ (w.instants tape).card :=
  Finset.card_filter_le _ _

/- A limit that moves down past an instant leaves fewer. -/
theorem instantsBefore_lt
    {w : Window}
    {low high ms : Int}
    (hMem : ms ∈ w.instants tape)
    (hLow : low ≤ ms)
    (hHigh : ms < high) :
    w.instantsBefore tape low < w.instantsBefore tape high := by
  apply Finset.card_lt_card
  apply Finset.ssubset_iff_subset_ne.mpr
  constructor
  · intro other hOther
    rcases Finset.mem_filter.mp hOther with ⟨hIn, hBefore⟩
    exact Finset.mem_filter.mpr ⟨hIn, by omega⟩
  · intro hSame
    have hPassed : ms ∈ (w.instants tape).filter (· < high) :=
      Finset.mem_filter.mpr ⟨hMem, hHigh⟩
    rw [← hSame] at hPassed
    have hBefore := (Finset.mem_filter.mp hPassed).2
    omega

end Window

------------------------------------------------------------
-- Walks down a window
------------------------------------------------------------

namespace Walk

/-
  A walk over a window of instants: what it still asks for is
  the start of the window.
-/
structure Downward
    (whole asked : TimeWindow)
    (w : Walk) : Prop where
  whole_eq : w.whole = .time whole
  asked_eq : w.asked = .time asked
  start_eq : asked.startMs = whole.startMs
  end_le : asked.endMs ≤ whole.endMs

theorem downward_start
    (rules : WalkRules)
    (name : String)
    (whole : TimeWindow) :
    (Walk.start rules name (.time whole)).Downward whole whole :=
  { whole_eq := rfl
    asked_eq := rfl
    start_eq := rfl
    end_le := Int.le_refl _ }

/- What is left of a window of instants is one. -/
theorem exists_downward
    {w : Walk}
    {whole : TimeWindow}
    (hWhole : w.whole = .time whole)
    (hRemains : w.whole.Remains w.asked) :
    ∃ asked, w.Downward whole asked := by
  rw [hWhole] at hRemains
  cases hAsked : w.asked with
  | time asked =>
      rw [hAsked] at hRemains
      exact ⟨asked, hWhole, hAsked, hRemains.1, hRemains.2⟩
  | seq asked =>
      rw [hAsked] at hRemains
      exact hRemains.elim

theorem ne_nil_of_full
    {w : Walk}
    {page : List Trade}
    (hPositive : 0 < w.rules.pageSize)
    (hFull : w.Full page) :
    page ≠ [] := by
  rintro rfl
  exact Nat.not_le_of_lt hPositive hFull

namespace Downward

variable {tape : List Trade} {whole asked : TimeWindow}
variable {w : Walk} {page : List Trade}

theorem next_eq
    (h : w.Downward whole asked)
    (page : List Trade) :
    w.next page = w.nextTime whole asked page := by
  unfold next
  rw [h.whole_eq, h.asked_eq]

theorem answers
    (h : w.Downward whole asked)
    (hPage : Answers tape w.asked w.rules.pageSize page) :
    Answers tape (.time asked) w.rules.pageSize page := by
  rw [← h.asked_eq]
  exact hPage

/- The oldest trade of a page. -/
theorem oldest
    (h : w.Downward whole asked)
    (hPage : Answers tape w.asked w.rules.pageSize page)
    {ms : Int}
    (hLeast : least? (page.map Trade.timestamp) = some ms) :
    ∃ t ∈ page,
      t.timestamp = ms
        ∧ (∀ u ∈ page, ms ≤ u.timestamp)
        ∧ whole.startMs ≤ ms
        ∧ ms ≤ asked.endMs
        ∧ ms ∈ (Window.time whole).instants tape := by
  rcases least?_eq_some hLeast with ⟨hMem, hLe⟩
  rcases List.mem_map.mp hMem with ⟨t, ht, rfl⟩
  rcases (h.answers hPage).within t ht with ⟨hTape, hFrom, hUntil⟩
  have hStart := h.start_eq
  have hEnd := h.end_le
  refine ⟨t, ht, rfl, ?_, by omega, hUntil, ?_⟩
  · intro u hu
    exact hLe u.timestamp (List.mem_map_of_mem hu)
  · apply Window.mem_instants.mpr
    exact ⟨t, hTape, ⟨by omega, by omega⟩, rfl⟩

end Downward

end Walk

------------------------------------------------------------
-- Last queries
------------------------------------------------------------

namespace Walk

variable {σ : Type}
variable {ask : σ → PageQuery → Except Fault (List Trade) × σ}

theorem length_replies
    (s : σ)
    (queries : List PageQuery) :
    (replies ask s queries).length = queries.length := by
  induction queries generalizing s with
  | nil => rfl
  | cons q rest ih => simp [replies, ih]

/-
  A walk that may ask makes a last query, whose answer ends
  it.  All queries before were answered with pages, which the
  walk has with it by then, and what each page keeps holds.
-/
theorem follow_last
    (ask : σ → PageQuery → Except Fault (List Trade) × σ)
    {I : Walk → Prop}
    (hKeeps :
      ∀ s w w',
        I w →
        w.answer (ask s w.query).1 = .asks w' →
          I w')
    (left : Nat)
    (s : σ)
    (w : Walk)
    (hInv : I w)
    (hMore : w.requests < w.rules.maxPages)
    (hLeft : w.allowance = left) :
    ∃ s' last pages,
      I last
        ∧ last.answer (ask s' last.query).1
          = .ends (follow ask left s w).1
        ∧ last.pages = w.pages ++ pages
        ∧ last.requests = w.requests + pages.length
        ∧ replies ask s (follow ask left s w).2.1
          = pages.map .ok ++ [(ask s' last.query).1] := by
  -- The allowance goes down with each query, and never to zero.
  induction left generalizing s w with
  | zero =>
      unfold allowance at hLeft
      omega
  | succ left ih =>
      unfold follow
      simp only
      cases hAnswer : w.answer (ask s w.query).1 with
      | ends r =>
          refine ⟨s, w, [], hInv, hAnswer, ?_, rfl, ?_⟩
          · simp
          · simp [replies]
      | asks w' =>
          rcases answer_eq_asks hAnswer with
            ⟨page, window, hReply, _, hRoom, hNext⟩
          have hAfter : w'.allowance = left := by
            rw [hNext]
            unfold allowance at hLeft ⊢
            simp only
            omega
          have hStill : w'.requests < w'.rules.maxPages := by
            rw [hNext]
            exact hRoom
          rcases
            ih (ask s w.query).2 w' (hKeeps s w w' hInv hAnswer)
              hStill hAfter with
            ⟨s', last, pages, hLast, hEnds, hPages, hCount, hReplies⟩
          refine
            ⟨s', last, page :: pages, hLast, hEnds, ?_, ?_, ?_⟩
          · simp [hPages, hNext]
          · rw [hCount, hNext, List.length_cons]
            simp only
            omega
          · simp [replies, hReply, hReplies]

end Walk

namespace TapeVenue

/- The answers of a venue that serves tapes to some queries. -/
theorem replies_eq
    (v : TapeVenue)
    (n : Nat)
    (queries : List PageQuery) :
    Walk.replies (fun n q => (v.page q, n + 1)) n queries
      = queries.map v.page := by
  induction queries generalizing n with
  | nil => rfl
  | cons q rest ih => simp [Walk.replies, ih]

/-
  The last page of a walk over the tape of a name that never
  fails.  What each page keeps holds when the walk gets it,
  and the walk then has all pages before.
-/
theorem walk_last
    {v : TapeVenue}
    {name : String}
    (hWorks : v.Works name)
    (hSeqs : SeqsDiffer (v.tape name))
    {I : Walk → Prop}
    (hKeeps :
      ∀ w w' page,
        I w →
        Answers (v.tape name) w.asked w.rules.pageSize page →
        w.receive page = .asks w' →
          I w')
    (n : Nat)
    {w : Walk}
    (hInv : I w)
    (hName : w.instrument = name)
    (hMore : w.requests < w.rules.maxPages) :
    let walked := v.toVenue.walk n w
    ∃ last pages page,
      I last
        ∧ last.rules = w.rules
        ∧ Answers (v.tape name) last.asked last.rules.pageSize page
        ∧ last.receive page = .ends walked.1
        ∧ last.pages = w.pages ++ pages
        ∧ w.requests + walked.2.1.length = last.requests + 1
        ∧ walked.2.1.map v.page = (pages ++ [page]).map .ok := by
  intro walked
  let Own (u : Walk) : Prop :=
    I u ∧ u.instrument = name ∧ u.rules = w.rules
  have hPage {u : Walk} (hOwn : u.instrument = name) :
      ∃ page,
        v.page u.query = .ok page
          ∧ Answers (v.tape name) u.asked u.rules.pageSize page := by
    have hQuery : u.query.instrument = name := hOwn
    have hReply := (hQuery ▸ hWorks : v.Works _).page_eq
    have hAnswers := answers_page (hQuery ▸ hSeqs) hReply
    rw [hQuery] at hAnswers hReply
    exact ⟨_, hReply, hAnswers⟩
  have hOwnKeeps (u u' : Walk) (hOwn : Own u)
      (hAsks : u.answer (v.page u.query) = .asks u') : Own u' := by
    rcases hOwn with ⟨hHolds, hSame, hRules⟩
    rcases Walk.asks_of_answer hAsks with ⟨hAlso, _, hStill, _⟩
    rcases hPage hSame with ⟨page, hReply, hAnswers⟩
    rw [hReply] at hAsks
    exact
      ⟨hKeeps u u' page hHolds hAnswers hAsks, hAlso.trans hSame,
        hStill.trans hRules⟩
  rcases
    Walk.follow_last (fun n q => (v.page q, n + 1))
      (fun _ u u' => hOwnKeeps u u') w.allowance n w
      ⟨hInv, hName, rfl⟩ hMore rfl with
    ⟨_, last, pages, ⟨hLast, hSame, hRules⟩, hEnds, hPages, hCount,
      hReplies⟩
  rcases hPage hSame with ⟨page, hReply, hAnswers⟩
  simp only [hReply] at hEnds hReplies
  refine
    ⟨last, pages, page, hLast, hRules, hAnswers, hEnds, hPages, ?_,
      ?_⟩
  · have hLength := congrArg List.length hReplies
    simp only [Walk.length_replies, List.length_append,
      List.length_map, List.length_singleton] at hLength
    change walked.2.1.length = _ at hLength
    omega
  · rw [replies_eq] at hReplies
    rw [List.map_append]
    exact hReplies

end TapeVenue

end TradeTape
