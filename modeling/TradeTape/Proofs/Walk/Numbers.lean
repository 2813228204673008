import Mathlib.Data.List.Permutation
import TradeTape.Proofs.Walk.Exactness
import TradeTape.Proofs.Walk.Instants
import TradeTape.Proofs.Walk.Steps

/-
  Walks up the numbers of a tape.

  A full page of numbers takes as many trades out of the range
  that is left as it holds.  So a walk makes one request for
  each page that its window fills, and at most one more, and
  nothing but its page ceiling can make it fail.

  Key statements include:
    * `Answers.length_add_left_le`
    * `Walk.Climbs`
    * `Walk.Climbs.asks`
    * `Walk.Climbs.ends`
    * `Walk.run_seq_exact`
-/

namespace TradeTape

open Trade

------------------------------------------------------------
-- Pages
------------------------------------------------------------

/-
  The trades of a page, and those of the range after its
  greatest number, are different trades of its window.
-/
theorem Answers.length_add_left_le
    {tape : List Trade}
    {asked : SeqWindow}
    {count : Nat}
    {page : List Trade}
    (hPage : Answers tape (.seq asked) count page)
    (hNodup : tape.Nodup)
    {newest : Int}
    (hNewest : ∀ t ∈ page, t.seq ≤ newest)
    (hLow : asked.startSeq ≤ newest) :
    page.length
        + ((Window.seq ⟨newest + 1, asked.endSeq⟩).inside
            tape).length
      ≤ ((Window.seq asked).inside tape).length := by
  rw [← List.length_append]
  refine (List.Nodup.subperm ?_ ?_).length_le
  · refine
      List.nodup_append.mpr
        ⟨hPage.nodup, hNodup.filter _, ?_⟩
    intro t ht u hu hSame
    have hUntil := hNewest t ht
    have hFrom := (Window.mem_inside.mp hu).2.1
    rw [hSame] at hUntil
    simp only at hFrom
    omega
  · intro t ht
    rcases List.mem_append.mp ht with hServed | hLeft
    · exact Window.mem_inside.mpr (hPage.within t hServed)
    · rcases Window.mem_inside.mp hLeft with ⟨hTape, hFrom, hUntil⟩
      refine Window.mem_inside.mpr ⟨hTape, ?_, hUntil⟩
      simp only at hFrom
      omega

------------------------------------------------------------
-- Walks up a window
------------------------------------------------------------

namespace Walk

/-
  A walk up a window of numbers: each request so far has
  taken a page of trades out of the range that is left.
-/
structure Climbs
    (tape : List Trade)
    (whole : SeqWindow)
    (w : Walk) : Prop where
  tracks : w.Tracks tape
  range : w.whole = .seq whole
  pace :
    w.requests * w.rules.pageSize + (w.asked.inside tape).length
      ≤ ((Window.seq whole).inside tape).length

theorem climbs_start
    (tape : List Trade)
    (settings : Settings)
    (instrument : String)
    (window : SeqWindow) :
    (Walk.start (WalkRules.ofSettings settings) instrument
      (.seq window)).Climbs tape window :=
  { tracks := tracks_of_strict (Or.inr ⟨window, rfl⟩)
    range := rfl
    pace := by
      change
        0 * _ + ((Window.seq window).inside tape).length
          ≤ ((Window.seq window).inside tape).length
      omega }

namespace Climbs

variable {tape : List Trade} {whole : SeqWindow}
variable {w : Walk} {page : List Trade}

/- What is left of a window of numbers is one. -/
theorem exists_asked
    (h : w.Climbs tape whole) :
    ∃ asked : SeqWindow,
      w.asked = .seq asked
        ∧ asked.endSeq = whole.endSeq
        ∧ ∀ page, w.next page = w.nextSeq whole asked page := by
  have hRemains := h.tracks.remains
  rw [h.range] at hRemains
  cases hAsked : w.asked with
  | time asked =>
      rw [hAsked] at hRemains
      exact hRemains.elim
  | seq asked =>
      rw [hAsked] at hRemains
      refine ⟨asked, rfl, hRemains.2, ?_⟩
      intro page
      unfold next
      rw [h.range, hAsked]

/- Where a range is left, the page has made its room. -/
theorem length_left_le
    (h : w.Climbs tape whole)
    (hNodup : tape.Nodup)
    (hPage : Answers tape w.asked w.rules.pageSize page)
    {left : Window}
    (hNext : w.next page = .ok (some left)) :
    w.rules.pageSize + (left.inside tape).length
      ≤ (w.asked.inside tape).length := by
  rcases h.exists_asked with ⟨asked, hAsked, hEnd, hNextSeq⟩
  rw [hNextSeq] at hNext
  rw [hAsked] at hPage ⊢
  rcases nextSeq_eq_some hNext with
    ⟨newest, hGreatest, hFull, hLow, _, rfl⟩
  have hNewest (t : Trade) (ht : t ∈ page) : t.seq ≤ newest :=
    (greatest?_eq_some hGreatest).2 t.seq (List.mem_map_of_mem ht)
  have hRoom := hPage.length_add_left_le hNodup hNewest hLow
  unfold Full at hFull
  rw [hEnd] at hRoom
  omega

/- A page of numbers of the range is never malformed. -/
theorem next_ne_error
    (h : w.Climbs tape whole)
    (hPage : Answers tape w.asked w.rules.pageSize page)
    (f : Fault) :
    w.next page ≠ .error f := by
  intro hNext
  rcases h.exists_asked with ⟨asked, hAsked, _, hNextSeq⟩
  rw [hNextSeq] at hNext
  rcases nextSeq_eq_error hNext with ⟨newest, hGreatest, hEarly⟩
  rcases List.mem_map.mp (greatest?_eq_some hGreatest).1 with
    ⟨t, ht, rfl⟩
  have hHolds := (hPage.within t ht).2
  rw [hAsked] at hHolds
  have hStart := hHolds.1
  omega

/- Each page that leaves a range keeps the pace. -/
theorem asks
    (h : w.Climbs tape whole)
    (hSeqs : SeqsDiffer tape)
    (hPage : Answers tape w.asked w.rules.pageSize page)
    {w' : Walk}
    (hAsks : w.receive page = .asks w') :
    w'.Climbs tape whole := by
  have hReceive := h.tracks.receive hSeqs hPage
  rw [hAsks] at hReceive
  rcases receive_eq_asks hAsks with ⟨left, hNext, _, rfl⟩
  have hRoom := h.length_left_le hSeqs.nodup hPage hNext
  have hPace := h.pace
  exact
    { tracks := hReceive.1
      range := h.range
      pace := by
        simp only
        rw [Nat.succ_mul]
        omega }

/-
  A walk that ends has all trades of its window, or would
  have asked beyond its ceiling, which full pages of its
  window have then reached.
-/
theorem ends
    (h : w.Climbs tape whole)
    (hSeqs : SeqsDiffer tape)
    (hPage : Answers tape w.asked w.rules.pageSize page)
    {r : Except Fault Haul}
    (hEnds : w.receive page = .ends r) :
    match r with
    | .ok haul =>
        haul.window = .seq whole
          ∧ haul.requests = w.requests + 1
          ∧ Exact tape (.seq whole) haul.trades
    | .error f =>
        f = .pageCeiling w.rules.maxPages
          ∧ w.rules.maxPages * w.rules.pageSize
            ≤ ((Window.seq whole).inside tape).length := by
  have hReceive := h.tracks.receive hSeqs hPage
  rw [hEnds] at hReceive
  cases r with
  | ok haul =>
      rw [← h.range]
      refine ⟨hReceive.1, ?_, hReceive.2⟩
      rw [(receive_eq_haul hEnds).2]
  | error f =>
      rcases receive_eq_error hEnds with
        hFault | ⟨left, hNext, hLast, hCeiling⟩
      · exact absurd hFault (h.next_ne_error hPage f)
      · refine ⟨hCeiling, ?_⟩
        have hRoom := h.length_left_le hSeqs.nodup hPage hNext
        have hPages :
            w.rules.maxPages * w.rules.pageSize
              ≤ (w.requests + 1) * w.rules.pageSize :=
          Nat.mul_le_mul_right _ hLast
        have hPace := h.pace
        rw [Nat.succ_mul] at hPages
        omega

/- The requests so far are full pages of the window. -/
theorem requests_le
    (h : w.Climbs tape whole) :
    w.requests
      ≤ ((Window.seq whole).inside tape).length
        / w.rules.pageSize := by
  have hPace := h.pace
  exact (Nat.le_div_iff_mul_le h.tracks.positive).mpr (by omega)

end Climbs

------------------------------------------------------------
-- Whole walks
------------------------------------------------------------

section Following

variable {σ : Type}
variable {ask : σ → PageQuery → Except Fault (List Trade) × σ}

/-
  The last page of a walk over a window of numbers: the walk
  is on its way up the window when it gets it.
-/
theorem exists_last_climb
    {tape : List Trade}
    (hSeqs : SeqsDiffer tape)
    (hAsk :
      ∀ s q w,
        q.window = .seq w →
        ∃ page,
          (ask s q).1 = .ok page
            ∧ Answers tape q.window q.count page)
    (settings : Settings)
    (instrument : String)
    (window : SeqWindow)
    (s : σ) :
    let rules := WalkRules.ofSettings settings
    let w := Walk.start rules instrument (.seq window)
    ∃ (last : Walk) (page : List Trade),
      last.Climbs tape window
        ∧ last.rules = rules
        ∧ Answers tape last.asked last.rules.pageSize page
        ∧ last.receive page = .ends (w.run ask s).1
        ∧ (w.run ask s).2.1.length = last.requests + 1 := by
  intro rules w
  let I (u : Walk) : Prop := u.Climbs tape window ∧ u.rules = rules
  have hPage {u : Walk} (hClimbs : u.Climbs tape window) (s : σ) :
      ∃ page,
        (ask s u.query).1 = .ok page
          ∧ Answers tape u.asked u.rules.pageSize page := by
    rcases hClimbs.exists_asked with ⟨asked, hAsked, _⟩
    exact hAsk s u.query asked hAsked
  have hKeeps :
      ∀ s u u',
        I u → u.answer (ask s u.query).1 = .asks u' → I u' := by
    rintro s u u' ⟨hClimbs, hRules⟩ hAsks
    rcases hPage hClimbs s with ⟨page, hReply, hAnswers⟩
    rw [hReply] at hAsks
    refine ⟨hClimbs.asks hSeqs hAnswers hAsks, ?_⟩
    exact (asks_of_answer hAsks).2.2.1.trans hRules
  rcases
    follow_last ask hKeeps w.allowance s w
      ⟨climbs_start tape settings instrument window, rfl⟩
      (WalkRules.maxPages_pos settings) rfl with
    ⟨s', last, pages, ⟨hLast, hRules⟩, hEnds, _, hCount, hReplies⟩
  rcases hPage hLast s' with ⟨page, hReply, hAnswers⟩
  rw [hReply] at hEnds
  refine ⟨last, page, hLast, hRules, hAnswers, hEnds, ?_⟩
  have hLength := congrArg List.length hReplies
  simp only [length_replies, List.length_append,
    List.length_map, List.length_singleton] at hLength
  change (w.run ask s).2.1.length = _ at hLength
  change last.requests = 0 + _ at hCount
  omega

/-
  A walk over a window of numbers is exact, in whatever order
  the trades of a page come.  It makes one request for each
  page that the window fills and at most one more, and where
  its ceiling leaves room for them it never fails.
-/
theorem run_seq_exact
    {tape : List Trade}
    {settings : Settings}
    (hSeqs : SeqsDiffer tape)
    (hPageSize : 1 ≤ settings.pageSize)
    (hAsk :
      ∀ s q w,
        q.window = .seq w →
        ∃ page,
          (ask s q).1 = .ok page
            ∧ Answers tape q.window q.count page)
    (instrument : String)
    (window : SeqWindow)
    (s : σ) :
    let rules := WalkRules.ofSettings settings
    let w := Walk.start rules instrument (.seq window)
    let queries := (w.run ask s).2.1
    let filled :=
      ((Window.seq window).inside tape).length / settings.pageSize
    queries.length ≤ filled + 1
      ∧ (match (w.run ask s).1 with
        | .ok haul =>
            haul.window = .seq window
              ∧ haul.requests = queries.length
              ∧ InOrder haul.trades
              ∧ ∀ t,
                  t ∈ haul.trades ↔
                    t ∈ tape ∧ window.Covers t.seq
        | .error f => f = .pageCeiling rules.maxPages)
      ∧ (filled < settings.maxPages →
          ∃ haul, (w.run ask s).1 = .ok haul) := by
  intro rules w queries filled
  have hSize : rules.pageSize = settings.pageSize :=
    Nat.max_eq_left hPageSize
  rcases exists_last_climb hSeqs hAsk settings instrument window
      s with
    ⟨last, page, hLast, hRules, hAnswers, hEnds, hCount⟩
  change queries.length = last.requests + 1 at hCount
  have hFew : last.requests ≤ filled := by
    have hLe := hLast.requests_le
    rwa [hRules, hSize] at hLe
  refine ⟨by omega, ?_⟩
  change last.receive page = .ends (w.run ask s).1 at hEnds
  cases hResult : (w.run ask s).1 with
  | ok haul =>
      rw [hResult] at hEnds
      rcases hLast.ends hSeqs hAnswers hEnds with
        ⟨hWindow, hSame, hExact⟩
      refine ⟨⟨hWindow, ?_, hExact.inOrder, hExact.mem_iff⟩, ?_⟩
      · exact hSame.trans hCount.symm
      · exact fun _ => ⟨haul, rfl⟩
  | error f =>
      rw [hResult] at hEnds
      rcases hLast.ends hSeqs hAnswers hEnds with
        ⟨hCeiling, hFull⟩
      rw [hRules] at hCeiling hFull
      rw [hSize] at hFull
      refine ⟨hCeiling, fun hRoom => ?_⟩
      exfalso
      have hFilled : rules.maxPages ≤ filled :=
        (Nat.le_div_iff_mul_le hPageSize).mpr hFull
      have hAtLeast : settings.maxPages ≤ rules.maxPages :=
        Nat.le_max_left settings.maxPages 1
      omega

/-
  Five trades whose numbers do not follow their instants, of
  which four are in the window.
-/
def gappedTape : List Trade :=
  [ Trade.synthetic "BTC" 6 1, Trade.synthetic "BTC" 3 2,
    Trade.synthetic "BTC" 9 4, Trade.synthetic "BTC" 5 7,
    Trade.synthetic "BTC" 12 8 ]

/-
  Two pages of two trades hold them all, and the third, which
  is the last that the ceiling allows, is empty.
-/
theorem run_seq_exact_of_gaps :
    let settings :=
      { Settings.standard with pageSize := 2, maxPages := 3 }
    let w :=
      Walk.start (WalkRules.ofSettings settings) "BTC"
        (.seq ⟨1, 10⟩)
    ∃ haul,
      (w.run (askTape gappedTape) 0).1 = .ok haul
        ∧ haul.requests = 3
        ∧ InOrder haul.trades
        ∧ ∀ t,
            t ∈ haul.trades ↔
              t ∈ gappedTape ∧ 1 ≤ t.seq ∧ t.seq ≤ 10 := by
  intro settings w
  have hSeqs : SeqsDiffer gappedTape := by decide
  have hSorted :
      gappedTape.Pairwise fun t u => t.le u = true := by decide
  have hExact :=
    @run_seq_exact Nat (askTape gappedTape) gappedTape settings
      hSeqs (by decide)
      (fun _ q _ _ =>
        ⟨_, rfl,
          TapeVenue.answers_select hSorted hSeqs q.window q.count⟩)
      "BTC" ⟨1, 10⟩ 0
  rcases hExact.2.2 (by decide) with ⟨haul, hHaul⟩
  have hQueries : (w.run (askTape gappedTape) 0).2.1.length = 3 := by
    cbv
  have hEnd := hExact.2.1
  simp only [hHaul] at hEnd
  exact
    ⟨haul, hHaul, hEnd.2.1.trans hQueries, hEnd.2.2.1,
      hEnd.2.2.2⟩

end Following

end Walk

end TradeTape
