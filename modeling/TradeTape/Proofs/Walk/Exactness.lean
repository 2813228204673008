import TradeTape.Proofs.Walk.Tapes

/-
  Walks over a tape.

  While a walk goes on, every trade of its window that it has
  not seen lies in the range it still asks for.  The instant
  at which a page was cut may have been seen only in part, so
  that instant stays in the range; merging drops what comes
  twice.  A walk that ends with a haul has therefore seen all.

  Key statements include:
    * `Walk.Tracks`
    * `Walk.Tracks.receive`
    * `Walk.follow_tracks`
    * `Walk.run_time_exact`
-/

namespace TradeTape

open Trade

------------------------------------------------------------
-- Ranges
------------------------------------------------------------

/-
  A range that is left of a window: its end moves down in a
  window of instants, its start moves up in one of numbers.
-/
def Window.Remains : Window → Window → Prop
  | .time whole, .time asked =>
      asked.startMs = whole.startMs ∧ asked.endMs ≤ whole.endMs
  | .seq whole, .seq asked =>
      whole.startSeq ≤ asked.startSeq
        ∧ asked.endSeq = whole.endSeq
  | _, _ => False

theorem Window.Remains.refl (w : Window) : w.Remains w := by
  cases w <;> simp [Remains]

theorem Window.Remains.sameSpace
    {whole asked : Window}
    (h : whole.Remains asked) :
    whole.SameSpace asked := by
  cases whole <;> cases asked <;>
    simp [Remains, SameSpace] at h ⊢

/- No settings ask for empty pages, or for none. -/
theorem WalkRules.pageSize_pos (s : Settings) :
    0 < (WalkRules.ofSettings s).pageSize := by
  simp only [WalkRules.ofSettings]
  omega

theorem WalkRules.maxPages_pos (s : Settings) :
    0 < (WalkRules.ofSettings s).maxPages := by
  simp only [WalkRules.ofSettings]
  omega

namespace Walk

------------------------------------------------------------
-- The invariant of a walk
------------------------------------------------------------

/-
  A walk that never asks twice for a range: it walks over
  numbers, or includes the instant at which a page was cut.
-/
def Strict (w : Walk) : Prop :=
  w.rules.boundary = .inclusive ∨ ∃ v, w.whole = .seq v

/-
  A walk on its way over a tape: its pages come from the tape,
  and what it has not seen lies in the range it asks for.
-/
structure Tracks
    (tape : List Trade)
    (w : Walk) : Prop where
  positive : 0 < w.rules.pageSize
  strict : w.Strict
  remains : w.whole.Remains w.asked
  known : ∀ t ∈ w.pages.flatten, t ∈ tape
  seen :
    ∀ t ∈ tape, w.whole.Holds t →
      w.asked.Holds t ∨ t ∈ w.pages.flatten
  allowed : w.requests < w.rules.maxPages

theorem tracks_of_strict
    {tape : List Trade}
    {s : Settings}
    {instrument : String}
    {window : Window}
    (hStrict :
      (Walk.start (WalkRules.ofSettings s) instrument
        window).Strict) :
    Tracks tape
      (Walk.start (WalkRules.ofSettings s) instrument window) :=
  { positive := WalkRules.pageSize_pos s
    strict := hStrict
    remains := Window.Remains.refl window
    known := by simp [Walk.start]
    seen := fun _ _ hHolds => Or.inl hHolds
    allowed := WalkRules.maxPages_pos s }

theorem tracks_start
    {tape : List Trade}
    {s : Settings}
    (hBoundary : s.boundary = .inclusive)
    (instrument : String)
    (window : Window) :
    Tracks tape
      (Walk.start (WalkRules.ofSettings s) instrument window) :=
  tracks_of_strict (Or.inl hBoundary)

/- The trades seen once a page has come. -/
theorem mem_flatten_concat
    {pages : List (List Trade)}
    {page : List Trade}
    {t : Trade} :
    t ∈ (pages ++ [page]).flatten ↔
      t ∈ pages.flatten ∨ t ∈ page := by
  simp

/-
  What a walk does with a page that answers its query.  If it
  has no range left, it has seen all; if it has one, nothing
  unseen lies outside of it.
-/
def NextOk
    (tape : List Trade)
    (w : Walk)
    (page : List Trade) :
    Except Fault (Option Window) → Prop
  | .error f => ∃ ms, f = .saturated ms
  | .ok none =>
      ∀ t ∈ tape, w.whole.Holds t →
        t ∈ (w.pages ++ [page]).flatten
  | .ok (some asked) =>
      w.Full page
        ∧ w.whole.Remains asked
        ∧ ∀ t ∈ tape, w.whole.Holds t →
          asked.Holds t ∨ t ∈ (w.pages ++ [page]).flatten

namespace Tracks

variable {tape : List Trade} {w : Walk} {page : List Trade}

/- A page that was not cut ends the search. -/
theorem all_seen_of_short
    (h : w.Tracks tape)
    (hPage : Answers tape w.asked w.rules.pageSize page)
    (hShort : ¬w.Full page) :
    NextOk tape w page (.ok none) := by
  intro t hTape hHolds
  rw [mem_flatten_concat]
  rcases h.seen t hTape hHolds with hAsked | hOld
  · exact
      Or.inr
        (hPage.mem_of_short (Nat.lt_of_not_le hShort) hTape
          hAsked)
  · exact Or.inl hOld

theorem nextTime
    {whole asked : TimeWindow}
    (h : w.Tracks tape)
    (hWhole : w.whole = .time whole)
    (hAsked : w.asked = .time asked)
    (hPage : Answers tape w.asked w.rules.pageSize page) :
    NextOk tape w page (w.nextTime whole asked page) := by
  have hRemains := h.remains
  rw [hWhole, hAsked] at hRemains
  rcases hRemains with ⟨hStart, hEnd⟩
  have hInclusive : w.rules.boundary = .inclusive := by
    apply h.strict.resolve_right
    rintro ⟨v, hSeq⟩
    rw [hWhole] at hSeq
    cases hSeq
  have hWithin :
      ∀ t ∈ page,
        whole.startMs ≤ t.timestamp ∧
          t.timestamp ≤ asked.endMs := by
    intro t ht
    have hHolds := (hPage.within t ht).2
    rw [hAsked] at hHolds
    exact ⟨hStart ▸ hHolds.1, hHolds.2⟩
  unfold Walk.nextTime
  cases hLeast : least? (page.map Trade.timestamp) with
  | none =>
      have hEmpty : page = [] :=
        List.map_eq_nil_iff.mp (least?_eq_none hLeast)
      apply h.all_seen_of_short hPage
      rw [hEmpty]
      exact Nat.not_le_of_lt h.positive
  | some oldest =>
      rcases least?_eq_some hLeast with ⟨hMem, hLe⟩
      rcases List.mem_map.mp hMem with ⟨first, hFirst, hOldest⟩
      have hFirstIn := hWithin first hFirst
      by_cases hFull : w.Full page
      · simp only [hFull, not_true_eq_false, if_false,
          hInclusive]
        rw [if_neg (by omega)]
        by_cases hCut : oldest = asked.endMs
        · simp only [hCut, if_true]
          exact ⟨asked.endMs, rfl⟩
        · simp only [hCut, if_false]
          rw [if_neg (by omega)]
          refine ⟨hFull, ?_, ?_⟩
          · rw [hWhole]
            exact ⟨rfl, by simp only; omega⟩
          · intro t hTape hHolds
            rw [mem_flatten_concat]
            rcases h.seen t hTape hHolds with hOpen | hOld
            · by_cases hServed : t ∈ page
              · exact Or.inr (Or.inr hServed)
              · -- What is left out is not newer than the oldest.
                have hOlder :=
                  hPage.preferred t hTape hOpen hServed first
                    hFirst
                rw [hAsked] at hOlder hOpen
                refine Or.inl ⟨hStart ▸ hOpen.1, ?_⟩
                exact hOldest ▸ hOlder
            · exact Or.inr (Or.inl hOld)
      · simp only [hFull, not_false_eq_true, if_true]
        exact h.all_seen_of_short hPage hFull

theorem nextSeq
    {whole asked : SeqWindow}
    (h : w.Tracks tape)
    (hSeqs : SeqsDiffer tape)
    (hWhole : w.whole = .seq whole)
    (hAsked : w.asked = .seq asked)
    (hPage : Answers tape w.asked w.rules.pageSize page) :
    NextOk tape w page (w.nextSeq whole asked page) := by
  have hRemains := h.remains
  rw [hWhole, hAsked] at hRemains
  rcases hRemains with ⟨hStart, hEnd⟩
  unfold Walk.nextSeq
  cases hGreatest : greatest? (page.map Trade.seq) with
  | none =>
      have hEmpty : page = [] :=
        List.map_eq_nil_iff.mp (greatest?_eq_none hGreatest)
      apply h.all_seen_of_short hPage
      rw [hEmpty]
      exact Nat.not_le_of_lt h.positive
  | some newest =>
      rcases greatest?_eq_some hGreatest with ⟨hMem, hLe⟩
      rcases List.mem_map.mp hMem with ⟨last, hLast, hNewest⟩
      have hLastIn := (hPage.within last hLast).2
      rw [hAsked] at hLastIn
      rcases hLastIn with ⟨hLow, hHigh⟩
      -- What is left out has a greater number than all served.
      have hBeyond :
          ∀ t ∈ tape, w.whole.Holds t →
            t ∉ (w.pages ++ [page]).flatten →
            newest < t.seq ∧ t.seq ≤ whole.endSeq := by
        intro t hTape hHolds hUnseen
        rw [mem_flatten_concat, not_or] at hUnseen
        have hOpen :=
          (h.seen t hTape hHolds).resolve_right hUnseen.1
        have hGreater :=
          hPage.preferred t hTape hOpen hUnseen.2 last hLast
        rw [hAsked] at hGreater
        have hOther : last.seq ≠ t.seq := by
          intro hSeq
          apply hUnseen.2
          have hEq :=
            hSeqs.eq_of_seq_eq (hPage.within last hLast).1
              hTape hSeq
          exact hEq ▸ hLast
        rw [hWhole] at hHolds
        have hTop := hHolds.2
        change last.seq ≤ t.seq at hGreater
        omega
      simp only
      by_cases hFull : w.Full page
      · by_cases hTop : whole.endSeq ≤ newest
        · rw [if_pos (Or.inr hTop)]
          intro t hTape hHolds
          by_contra hUnseen
          have := hBeyond t hTape hHolds hUnseen
          omega
        · rw [if_neg (by simp [hFull, hTop]),
            if_neg (by omega)]
          refine ⟨hFull, ?_, ?_⟩
          · rw [hWhole]
            exact ⟨by simp only; omega, rfl⟩
          · intro t hTape hHolds
            by_cases hSeen : t ∈ (w.pages ++ [page]).flatten
            · exact Or.inr hSeen
            · have := hBeyond t hTape hHolds hSeen
              refine Or.inl ⟨?_, ?_⟩ <;> simp only <;> omega
      · rw [if_pos (Or.inl hFull)]
        exact h.all_seen_of_short hPage hFull

theorem next
    (h : w.Tracks tape)
    (hSeqs : SeqsDiffer tape)
    (hPage : Answers tape w.asked w.rules.pageSize page) :
    NextOk tape w page (w.next page) := by
  have hRemains := h.remains
  unfold Walk.next
  cases hWhole : w.whole with
  | time whole =>
      cases hAsked : w.asked with
      | time asked => exact h.nextTime hWhole hAsked hPage
      | seq asked =>
          rw [hWhole, hAsked] at hRemains
          exact hRemains.elim
  | seq whole =>
      cases hAsked : w.asked with
      | time asked =>
          rw [hWhole, hAsked] at hRemains
          exact hRemains.elim
      | seq asked => exact h.nextSeq hSeqs hWhole hAsked hPage

/-
  A page that answers a walk's query leaves it on its way, or
  ends it with all trades of its window, or ends it for one
  of two reasons.
-/
def ReceiveOk
    (tape : List Trade)
    (w : Walk)
    (page : List Trade) : Progress → Prop
  | .asks w' =>
      w'.Tracks tape
        ∧ w'.rules = w.rules
        ∧ w'.whole = w.whole
        ∧ w'.requests = w.requests + 1
        ∧ w.Full page
  | .ends (.ok haul) =>
      haul.window = w.whole ∧ Exact tape w.whole haul.trades
  | .ends (.error f) =>
      (∃ ms, f = .saturated ms)
        ∨ (f = .pageCeiling w.rules.maxPages
            ∧ w.requests + 1 = w.rules.maxPages
            ∧ w.Full page)

theorem receive
    (h : w.Tracks tape)
    (hSeqs : SeqsDiffer tape)
    (hPage : Answers tape w.asked w.rules.pageSize page) :
    ReceiveOk tape w page (w.receive page) := by
  have hNext := h.next hSeqs hPage
  have hAllowed := h.allowed
  have hKnown :
      ∀ t ∈ (w.pages ++ [page]).flatten, t ∈ tape := by
    intro t ht
    rcases mem_flatten_concat.mp ht with hOld | hNew
    · exact h.known t hOld
    · exact (hPage.within t hNew).1
  unfold Walk.receive
  cases hResult : w.next page with
  | error f =>
      rw [hResult] at hNext
      exact Or.inl hNext
  | ok left =>
      rw [hResult] at hNext
      cases left with
      | none => exact ⟨rfl, exact_pages hSeqs hKnown hNext⟩
      | some asked =>
          rcases hNext with ⟨hFull, hRemains, hSeen⟩
          by_cases hLast : w.rules.maxPages ≤ w.requests + 1
          · simp only [hLast, if_true]
            exact Or.inr ⟨rfl, by omega, hFull⟩
          · simp only [hLast, if_false]
            refine ⟨?_, rfl, rfl, rfl, hFull⟩
            exact
              { positive := h.positive
                strict := h.strict
                remains := hRemains
                known := hKnown
                seen := hSeen
                allowed := Nat.lt_of_not_le hLast }

end Tracks

------------------------------------------------------------
-- Whole walks
------------------------------------------------------------

section Following

variable {σ : Type}
variable {ask : σ → PageQuery → Except Fault (List Trade) × σ}

/- The answers of a source to queries that are made in turn. -/
def replies
    (ask : σ → PageQuery → Except Fault (List Trade) × σ) :
    σ → List PageQuery → List (Except Fault (List Trade))
  | _, [] => []
  | s, q :: rest =>
      (ask s q).1 :: replies ask (ask s q).2 rest

/- An answer with as many trades as were asked for. -/
def IsFullPage
    (count : Nat)
    (reply : Except Fault (List Trade)) : Prop :=
  ∃ page, reply = .ok page ∧ page.length = count

/-
  What comes of a walk whose pages answer its queries: all
  trades of its window, or one of three faults.  The ceiling
  is reached by full pages only.
-/
def FollowOk
    (ask : σ → PageQuery → Except Fault (List Trade) × σ)
    (tape : List Trade)
    (s : σ)
    (w : Walk)
    (queries : List PageQuery) :
    Except Fault Haul → Prop
  | .ok haul =>
      haul.window = w.whole ∧ Exact tape w.whole haul.trades
  | .error f =>
      (∃ ms, f = .saturated ms)
        ∨ (f = .pageCeiling w.rules.maxPages
            ∧ w.requests + queries.length = w.rules.maxPages
            ∧ ∀ reply ∈ replies ask s queries,
                IsFullPage w.rules.pageSize reply)
        ∨ ∃ s q,
            w.whole.SameSpace q.window
              ∧ (ask s q).1 = .error f

theorem follow_tracks
    {tape : List Trade}
    {whole : Window}
    (hSeqs : SeqsDiffer tape)
    (hAsk :
      ∀ s q page,
        whole.SameSpace q.window →
        (ask s q).1 = .ok page →
        Answers tape q.window q.count page)
    (left : Nat)
    (s : σ)
    (w : Walk)
    (hTracks : w.Tracks tape)
    (hWhole : w.whole = whole)
    (hLeft : w.allowance = left) :
    FollowOk ask tape s w (follow ask left s w).2.1
      (follow ask left s w).1 := by
  -- Each page that is asked for uses up one of the allowance.
  induction left generalizing s w with
  | zero =>
      have hAllowed := hTracks.allowed
      unfold allowance at hLeft
      omega
  | succ left ih =>
      have hSpace : whole.SameSpace w.query.window :=
        hWhole ▸ hTracks.remains.sameSpace
      rw [follow]
      cases hReply : (ask s w.query).1 with
      | error f =>
          simp only [answer, hReply]
          exact
            Or.inr (Or.inr ⟨s, w.query, hWhole ▸ hSpace, hReply⟩)
      | ok page =>
          have hPage :
              Answers tape w.asked w.rules.pageSize page :=
            hAsk s w.query page hSpace hReply
          have hFullPage (hFull : w.Full page) :
              IsFullPage w.rules.pageSize (ask s w.query).1 :=
            ⟨page, hReply, Nat.le_antisymm hPage.length_le hFull⟩
          have hReceive := hTracks.receive hSeqs hPage
          simp only [answer, hReply]
          cases hProgress : w.receive page with
          | ends result =>
              rw [hProgress] at hReceive
              cases result with
              | ok haul => exact hReceive
              | error f =>
                  rcases hReceive with hStuck | ⟨hCeiling, hLast, hFull⟩
                  · exact Or.inl hStuck
                  · refine Or.inr (Or.inl ⟨hCeiling, hLast, ?_⟩)
                    simp only [replies, List.mem_singleton]
                    rintro reply rfl
                    exact hFullPage hFull
          | asks w' =>
              rw [hProgress] at hReceive
              rcases hReceive with
                ⟨hTracks', hRules, hSame, hCount, hFull⟩
              have hRest :=
                ih (ask s w.query).2 w' hTracks'
                  (hSame.trans hWhole)
                  (by
                    unfold allowance at hLeft ⊢
                    rw [hRules, hCount]
                    omega)
              simp only
              cases hEnd : (follow ask left (ask s w.query).2 w').1 with
              | ok haul =>
                  rw [hEnd] at hRest
                  unfold FollowOk at hRest ⊢
                  rwa [hSame] at hRest
              | error f =>
                  rw [hEnd] at hRest
                  unfold FollowOk at hRest ⊢
                  rw [hSame, hRules, hCount] at hRest
                  rcases hRest with
                    hStuck | ⟨hCeiling, hLast, hAll⟩ | hFault
                  · exact Or.inl hStuck
                  · refine Or.inr (Or.inl ⟨hCeiling, ?_, ?_⟩)
                    · rw [List.length_cons, ← hLast]
                      exact
                        (Nat.add_right_comm w.requests _ 1).trans
                          rfl
                    · simp only [replies, List.mem_cons]
                      rintro reply (rfl | hReply')
                      · exact hFullPage hFull
                      · exact hAll reply hReply'
                  · exact Or.inr (Or.inr hFault)

/-
  A walk over a window of instants that includes the instant
  at which a page was cut is exact, whichever of the trades
  of that instant a venue serves, and fails in two ways only.
-/
theorem run_time_exact
    {tape : List Trade}
    {settings : Settings}
    (hSeqs : SeqsDiffer tape)
    (hBoundary : settings.boundary = .inclusive)
    (hAsk :
      ∀ s q w,
        q.window = .time w →
        ∃ page,
          (ask s q).1 = .ok page
            ∧ Answers tape q.window q.count page)
    (instrument : String)
    (window : TimeWindow)
    (s : σ) :
    let rules := WalkRules.ofSettings settings
    let w := Walk.start rules instrument (.time window)
    let queries := (w.run ask s).2.1
    match (w.run ask s).1 with
    | .ok haul =>
        haul.window = .time window
          ∧ InOrder haul.trades
          ∧ ∀ t,
              t ∈ haul.trades ↔
                t ∈ tape ∧ window.Covers t.timestamp
    | .error f =>
        (∃ ms, f = .saturated ms)
          ∨ (f = .pageCeiling rules.maxPages
              ∧ queries.length = rules.maxPages
              ∧ ∀ reply ∈ replies ask s queries,
                  IsFullPage rules.pageSize reply) := by
  intro rules w queries
  have hAnswers :
      ∀ s q page,
        w.whole.SameSpace q.window →
        (ask s q).1 = .ok page →
        Answers tape q.window q.count page := by
    intro s q page hSpace hPage
    cases hWindow : q.window with
    | seq v =>
        rw [hWindow] at hSpace
        exact hSpace.elim
    | time v =>
        rcases hAsk s q v hWindow with ⟨page', hPage', hOk⟩
        have hSame : page' = page :=
          Except.ok.inj (hPage'.symm.trans hPage)
        rw [← hWindow]
        exact hSame ▸ hOk
  have hFollow :=
    follow_tracks hSeqs hAnswers w.allowance s w
      (tracks_start hBoundary instrument (.time window)) rfl rfl
  change FollowOk ask tape s w queries (w.run ask s).1 at hFollow
  cases hEnd : (w.run ask s).1 with
  | ok haul =>
      rw [hEnd] at hFollow
      exact ⟨hFollow.1, hFollow.2.inOrder, hFollow.2.mem_iff⟩
  | error f =>
      rw [hEnd] at hFollow
      rcases hFollow with hStuck | ⟨hCeiling, hLast, hAll⟩ | hFault
      · exact Or.inl hStuck
      · refine Or.inr ⟨hCeiling, ?_, hAll⟩
        have hNone : w.requests = 0 := rfl
        change w.requests + queries.length = rules.maxPages at hLast
        omega
      · rcases hFault with ⟨s', q, hSpace, hError⟩
        cases hWindow : q.window with
        | seq v =>
            rw [hWindow] at hSpace
            exact hSpace.elim
        | time v =>
            rcases hAsk s' q v hWindow with ⟨page, hPage, _⟩
            rw [hPage] at hError
            cases hError

/-
  Three trades, of which the first two share an instant, in
  pages of three: the second page holds that instant again.
-/
def tiedTape : List Trade :=
  [Trade.synthetic "BTC" 1 5, Trade.synthetic "BTC" 2 5,
    Trade.synthetic "BTC" 3 7]

/- A source that serves a tape and counts its calls. -/
def askTape
    (tape : List Trade)
    (n : Nat)
    (q : PageQuery) : Except Fault (List Trade) × Nat :=
  (.ok (TapeVenue.select tape q.window q.count), n + 1)

/- The walk over it asks twice, for pages of three trades. -/
theorem run_time_exact_of_tie :
    let settings := { Settings.standard with pageSize := 3 }
    let w :=
      Walk.start (WalkRules.ofSettings settings) "BTC"
        (.time ⟨0, 10⟩)
    ∃ haul,
      (w.run (askTape tiedTape) 0).1 = .ok haul
        ∧ haul.requests = 2
        ∧ InOrder haul.trades
        ∧ ∀ t,
            t ∈ haul.trades ↔
              t ∈ tiedTape ∧ 0 ≤ t.timestamp ∧ t.timestamp ≤ 10 := by
  intro settings w
  have hSeqs : SeqsDiffer tiedTape := by decide
  have hSorted :
      tiedTape.Pairwise fun t u => t.le u = true := by decide
  have hExact :=
    @run_time_exact Nat (askTape tiedTape) tiedTape settings hSeqs
      rfl
      (fun _ q _ _ =>
        ⟨_, rfl,
          TapeVenue.answers_select hSorted hSeqs q.window q.count⟩)
      "BTC" ⟨0, 10⟩ 0
  have hRequests :
      (w.run (askTape tiedTape) 0).1.toOption.map Haul.requests
        = some 2 := rfl
  simp only at hExact
  cases hEnd : (w.run (askTape tiedTape) 0).1 with
  | error f =>
      rw [hEnd] at hRequests
      cases hRequests
  | ok haul =>
      rw [hEnd] at hExact hRequests
      exact
        ⟨haul, rfl, Option.some.inj hRequests, hExact.2.1,
          hExact.2.2⟩

end Following

end Walk

end TradeTape
