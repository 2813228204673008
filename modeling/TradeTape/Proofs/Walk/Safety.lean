import Mathlib.Data.List.Permutation
import TradeTape.Backfill.Venue
import TradeTape.Deribit.Client
import TradeTape.Proofs.Walk.Exactness
import TradeTape.Proofs.Walk.Steps

/-
  Walks against a venue that nobody trusts.

  A venue may answer a query with any page, or with a fault.
  A walk then asks for a part of its window, ends, or fails:
  it never asks for what lies outside its window, nor more
  often than its rules allow, and what it brings home is in
  order whatever it was served.

  Key statements include:
    * `Window.Part`
    * `Window.Narrows`
    * `Walk.next_part`
    * `Walk.follow_induction`
    * `Walk.pairwise_follow_of`
    * `Deribit.Client.build_draft`
    * `Walk.run_safe`
-/

namespace TradeTape

open Trade

------------------------------------------------------------
-- Parts of windows
------------------------------------------------------------

namespace Window

/- Bounds that signed words of 64 bits hold. -/
def Words (w : Window) : Prop :=
  Word.FitsInt64 w.bounds.1 ∧ Word.FitsInt64 w.bounds.2

instance (w : Window) : Decidable w.Words := by
  unfold Words
  infer_instance

/- A range that is left of a window and is not empty. -/
structure Part (whole part : Window) : Prop where
  remains : whole.Remains part
  nonempty : part.Nonempty

/-
  A range that comes after another one in a walk: it ends
  earlier, or it starts at a greater number.
-/
def Narrows : Window → Window → Prop
  | .time wide, .time narrow => narrow.endMs < wide.endMs
  | .seq wide, .seq narrow => wide.startSeq < narrow.startSeq
  | _, _ => False

theorem Remains.trans
    {u v w : Window}
    (huv : u.Remains v)
    (hvw : v.Remains w) :
    u.Remains w := by
  cases u <;> cases v <;> cases w <;>
    simp only [Remains] at huv hvw ⊢ <;> omega

theorem Narrows.of_remains
    {u v w : Window}
    (huv : u.Narrows v)
    (hvw : v.Remains w) :
    u.Narrows w := by
  cases u <;> cases v <;> cases w <;>
    simp only [Narrows, Remains] at huv hvw ⊢ <;> omega

/- The bounds of a part lie between those of its window. -/
theorem Part.words
    {whole part : Window}
    (h : whole.Part part)
    (hWords : whole.Words) :
    part.Words := by
  rcases h with ⟨hRemains, hNonempty⟩
  unfold Words Word.FitsInt64 at hWords ⊢
  cases whole <;> cases part <;>
    simp only [Remains, Nonempty, bounds] at hRemains hNonempty hWords ⊢ <;>
    omega

end Window

------------------------------------------------------------
-- Ranges after a page
------------------------------------------------------------

namespace Walk

/-
  Whatever the page, the range that is left after it is a part
  of the window and of the range that was asked for.
-/
theorem next_part
    {w : Walk}
    (hPart : w.whole.Part w.asked)
    (hWords : w.whole.Words)
    {page : List Trade}
    {left : Window}
    (hNext : w.next page = .ok (some left)) :
    w.whole.Part left
      ∧ w.asked.Remains left
      ∧ (w.Strict → w.asked.Narrows left) := by
  rcases hPart with ⟨hRemains, hNonempty⟩
  unfold next at hNext
  unfold Strict
  cases hWhole : w.whole with
  | time whole =>
      cases hAsked : w.asked with
      | seq asked =>
          rw [hWhole, hAsked] at hRemains
          exact hRemains.elim
      | time asked =>
          rw [hWhole, hAsked] at hRemains
          rw [hAsked] at hNonempty
          rw [hWhole] at hWords
          simp only [hWhole, hAsked] at hNext
          rcases nextTime_eq_some hNext with
            ⟨oldest, endMs, _, _, hOldest, hEnd, hStart, rfl⟩
          -- Saturation cannot lift an end above the range.
          have hLow : endMs ≤ asked.endMs := by
            change asked.startMs ≤ asked.endMs at hNonempty
            have hLeast : Word.int64Min ≤ whole.startMs := hWords.1.1
            have hRange := hRemains.1
            cases hBoundary : w.rules.boundary with
            | inclusive =>
                simp only [hBoundary] at hEnd
                omega
            | exclusive =>
                simp only [hBoundary] at hEnd
                unfold Word.subSat Word.clamp at hEnd
                omega
          refine
            ⟨⟨⟨rfl, Int.le_trans hLow hRemains.2⟩, hStart⟩,
              ⟨hRemains.1.symm, hLow⟩, ?_⟩
          rintro (hInclusive | ⟨v, hSeq⟩)
          · simp only [hInclusive] at hEnd
            change endMs < asked.endMs
            omega
          · cases hSeq
  | seq whole =>
      cases hAsked : w.asked with
      | time asked =>
          rw [hWhole, hAsked] at hRemains
          exact hRemains.elim
      | seq asked =>
          rw [hWhole, hAsked] at hRemains
          simp only [hWhole, hAsked] at hNext
          rcases nextSeq_eq_some hNext with
            ⟨newest, _, _, hStart, hEnd, rfl⟩
          have hFirst := hRemains.1
          refine
            ⟨⟨⟨?_, rfl⟩, ?_⟩, ⟨?_, hRemains.2.symm⟩, fun _ => ?_⟩
          · change whole.startSeq ≤ newest + 1
            omega
          · change newest + 1 ≤ whole.endSeq
            omega
          · change asked.startSeq ≤ newest + 1
            omega
          · change asked.startSeq < newest + 1
            omega

------------------------------------------------------------
-- Answers
------------------------------------------------------------

/- A walk that goes on asks for a part of what it asked for. -/
theorem part_of_asks
    {w w' : Walk}
    {reply : Except Fault (List Trade)}
    (hAsks : w.answer reply = .asks w')
    (hPart : w.whole.Part w.asked)
    (hWords : w.whole.Words) :
    w'.whole.Part w'.asked
      ∧ w'.whole.Words
      ∧ w.asked.Remains w'.asked
      ∧ (w.Strict → w'.Strict ∧ w.asked.Narrows w'.asked) := by
  rcases answer_eq_asks hAsks with ⟨page, left, _, hNext, _, rfl⟩
  rcases next_part hPart hWords hNext with
    ⟨hLeft, hLater, hNarrows⟩
  exact
    ⟨hLeft, hWords, hLater,
      fun hStrict => ⟨hStrict, hNarrows hStrict⟩⟩

------------------------------------------------------------
-- Whole walks
------------------------------------------------------------

section Following

variable {σ : Type}
variable {ask : σ → PageQuery → Except Fault (List Trade) × σ}

/-
  What holds of a walk that may not ask, of one that ends with
  its answer, and of one that goes on if it holds of the rest,
  holds of every walk, with its end and its queries.
-/
theorem follow_induction
    {P : σ → Walk → Except Fault Haul → List PageQuery → Prop}
    (hStop :
      ∀ s w, P s w (.error (.pageCeiling w.rules.maxPages)) [])
    (hEnds :
      ∀ s w r,
        w.answer (ask s w.query).1 = .ends r → P s w r [w.query])
    (hAsks :
      ∀ s w w' r queries,
        w.answer (ask s w.query).1 = .asks w' →
        P (ask s w.query).2 w' r queries →
        P s w r (w.query :: queries))
    (left : Nat)
    (s : σ)
    (w : Walk) :
    P s w (follow ask left s w).1 (follow ask left s w).2.1 := by
  induction left generalizing s w with
  | zero => exact hStop s w
  | succ left ih =>
      unfold follow
      simp only
      cases hAnswer : w.answer (ask s w.query).1 with
      | ends r => exact hEnds s w r hAnswer
      | asks w' => exact hAsks s w w' _ _ hAnswer (ih _ w')

theorem length_follow_le
    (left : Nat)
    (s : σ)
    (w : Walk) :
    (follow ask left s w).2.1.length ≤ left := by
  induction left generalizing s w with
  | zero => exact Nat.le_refl 0
  | succ left ih =>
      unfold follow
      simp only
      cases w.answer (ask s w.query).1 with
      | ends r => exact Nat.succ_le_succ (Nat.zero_le left)
      | asks w' => exact Nat.succ_le_succ (ih _ w')

/- A query of a walk, for a part of what it still asks for. -/
structure Poses (w : Walk) (q : PageQuery) : Prop where
  instrument : q.instrument = w.instrument
  count : q.count = w.rules.pageSize
  part : w.whole.Part q.window
  later : w.asked.Remains q.window

/- All queries of a walk are for parts of its window. -/
theorem poses_of_mem_follow
    (left : Nat)
    (s : σ)
    {w : Walk}
    (hPart : w.whole.Part w.asked)
    (hWords : w.whole.Words) :
    ∀ q ∈ (follow ask left s w).2.1, w.Poses q := by
  have hOwn (w : Walk) (hPart : w.whole.Part w.asked) :
      w.Poses w.query :=
    ⟨rfl, rfl, hPart, Window.Remains.refl w.asked⟩
  refine
    follow_induction
      (P := fun _ w _ queries =>
        w.whole.Part w.asked → w.whole.Words →
          ∀ q ∈ queries, w.Poses q)
      ?_ ?_ ?_ left s w hPart hWords
  · intro s w _ _ q hq
    cases hq
  · intro s w r _ hPart _ q hq
    rw [List.mem_singleton.mp hq]
    exact hOwn w hPart
  · intro s w w' r queries hAsks ih hPart hWords q hq
    rcases List.mem_cons.mp hq with rfl | hRest
    · exact hOwn w hPart
    · rcases part_of_asks hAsks hPart hWords with
        ⟨hLeft, hWords', hLater, _⟩
      have hPoses := ih hLeft hWords' q hRest
      rcases answer_eq_asks hAsks with ⟨_, _, _, _, _, rfl⟩
      exact
        ⟨hPoses.instrument, hPoses.count, hPoses.part,
          hLater.trans hPoses.later⟩

/-
  What holds of a range and the next one, and then of all parts
  of that one, holds of the queries of a walk in turn.
-/
theorem pairwise_follow_of
    {I : Walk → Prop}
    {R : Window → Window → Prop}
    (hStep :
      ∀ s w w',
        I w →
        w.whole.Part w.asked →
        w.whole.Words →
        w.answer (ask s w.query).1 = .asks w' →
          I w' ∧ R w.asked w'.asked)
    (hParts : ∀ u v part, R u v → v.Part part → R u part)
    (left : Nat)
    (s : σ)
    {w : Walk}
    (hInv : I w)
    (hPart : w.whole.Part w.asked)
    (hWords : w.whole.Words) :
    (follow ask left s w).2.1.Pairwise fun p q =>
      R p.window q.window := by
  induction left generalizing s w with
  | zero => exact List.Pairwise.nil
  | succ left ih =>
      unfold follow
      simp only
      cases hAnswer : w.answer (ask s w.query).1 with
      | ends r => exact List.pairwise_singleton _ _
      | asks w' =>
          rcases hStep s w w' hInv hPart hWords hAnswer with
            ⟨hInv', hNext⟩
          rcases part_of_asks hAnswer hPart hWords with
            ⟨hLeft, hWords', _⟩
          apply List.pairwise_cons.mpr
          refine ⟨?_, ih _ hInv' hLeft hWords'⟩
          intro q hq
          have hPoses := poses_of_mem_follow left _ hLeft hWords' q hq
          exact
            hParts _ _ _ hNext ⟨hPoses.later, hPoses.part.nonempty⟩

/- The ranges of a strict walk become smaller and smaller. -/
theorem pairwise_follow
    (left : Nat)
    (s : σ)
    {w : Walk}
    (hPart : w.whole.Part w.asked)
    (hWords : w.whole.Words)
    (hStrict : w.Strict) :
    (follow ask left s w).2.1.Pairwise fun p q =>
      p.window.Narrows q.window := by
  refine
    pairwise_follow_of (I := Strict) (R := Window.Narrows) ?_ ?_
      left s hStrict hPart hWords
  · intro s w w' hStrict hPart hWords hAsks
    exact (part_of_asks hAsks hPart hWords).2.2.2 hStrict
  · intro u v part hNarrows hPart
    exact hNarrows.of_remains hPart.remains

/- What a walk brings home was served to it. -/
theorem haul_of_follow
    (left : Nat)
    (s : σ)
    (w : Walk)
    {haul : Haul}
    (hEnd : (follow ask left s w).1 = .ok haul) :
    let queries := (follow ask left s w).2.1
    ∃ pages,
      haul =
          { window := w.whole
            trades := Merge.pages (w.pages ++ pages) w.whole
            requests := w.requests + queries.length }
        ∧ replies ask s queries = pages.map .ok := by
  revert hEnd
  refine
    follow_induction
      (P := fun s w r queries =>
        r = .ok haul →
          ∃ pages,
            haul =
                { window := w.whole
                  trades := Merge.pages (w.pages ++ pages) w.whole
                  requests := w.requests + queries.length }
              ∧ replies ask s queries = pages.map .ok)
      ?_ ?_ ?_ left s w
  · intro s w hEnd
    cases hEnd
  · rintro s w r hAnswer rfl
    rcases answer_eq_haul hAnswer with ⟨page, hReply, _, hHaul⟩
    refine ⟨[page], hHaul, ?_⟩
    simp only [replies, hReply, List.map_cons, List.map_nil]
  · rintro s w w' r queries hAnswer ih rfl
    rcases answer_eq_asks hAnswer with
      ⟨page, left, hReply, _, _, rfl⟩
    rcases ih rfl with ⟨pages, hHaul, hReplies⟩
    refine ⟨page :: pages, ?_, ?_⟩
    · rw [hHaul]
      simp only [List.append_assoc, List.singleton_append,
        List.length_cons, Haul.mk.injEq, true_and]
      omega
    · simp only [replies, hReply, hReplies, List.map_cons]

end Following

end Walk

------------------------------------------------------------
-- Questions to the venue
------------------------------------------------------------

/- A query that lies the right way round is never turned down. -/
theorem Deribit.Client.build_draft
    (c : Client)
    {q : PageQuery}
    (hNonempty : q.window.Nonempty)
    (hCount : 0 < q.count)
    (hMost : q.count ≤ maxPageSize) :
    (c.draft q).build =
      .ok (.trades q.instrument q.window q.count c.includeOld) := by
  have hSize : ¬(q.count = 0 ∨ maxCount < q.count) := by
    unfold maxCount
    unfold maxPageSize at hMost
    omega
  have hOrder : ¬q.window.bounds.2 < q.window.bounds.1 :=
    Int.not_lt.mpr hNonempty
  have hProblem : (c.draft q).problem? = none := by
    unfold draft TradesDraft.problem?
    simp only [Option.bind_some, if_neg hSize, if_neg hOrder]
  have hWindow :
      (c.draft q).space.window q.window.bounds.1
          q.window.bounds.2 = q.window := by
    unfold draft
    cases q.window <;> rfl
  unfold TradesDraft.build
  rw [hProblem]
  change
    Except.ok
        (Query.trades q.instrument
          ((c.draft q).space.window q.window.bounds.1
            q.window.bounds.2) q.count c.includeOld) = _
  rw [hWindow]

/- The page size of settings that have passed the checks. -/
theorem Settings.Valid.pageSize
    {s : Settings}
    (h : s.Valid) :
    0 < s.pageSize ∧ s.pageSize ≤ maxPageSize := by
  unfold Valid problem? at h
  split_ifs at h
  omega

------------------------------------------------------------
-- Walks against any venue
------------------------------------------------------------

namespace Walk

/-
  A walk is safe against any venue, whatever it answers.  It
  asks no more often than its rules allow, and for pages of
  its size of parts of its window only, so that no checked
  page size is ever turned down.  The ranges that it computes
  stay within words, asked for or not, and those of a strict
  walk become smaller and smaller.  What it brings home was
  served to it, lies in its window and is in order, with no
  number twice.
-/
theorem run_safe
    {σ : Type}
    (ask : σ → PageQuery → Except Fault (List Trade) × σ)
    (rules : WalkRules)
    (instrument : String)
    {whole : Window}
    (hWhole : whole.Nonempty)
    (hWords : whole.Words)
    (s : σ) :
    let w := Walk.start rules instrument whole
    let queries := (w.run ask s).2.1
    queries.length ≤ rules.maxPages
      ∧ (∀ q ∈ queries,
          q.instrument = instrument
            ∧ q.count = rules.pageSize
            ∧ q.window.Nonempty
            ∧ whole.Remains q.window
            ∧ ∀ settings : Settings,
                settings.Valid →
                rules.pageSize = settings.pageSize →
                ∀ c : Deribit.Client,
                  ∃ query, (c.draft q).build = .ok query)
      ∧ (∀ q ∈ queries,
          q.window.Words
            ∧ ∀ v : Walk,
                v.rules = rules →
                v.whole = whole →
                v.asked = q.window →
                ∀ page left,
                  v.next page = .ok (some left) → left.Words)
      ∧ (rules.boundary = .inclusive ∨ (∃ v, whole = .seq v) →
          queries.Pairwise fun p q => p.window.Narrows q.window)
      ∧ ∀ haul,
          (w.run ask s).1 = .ok haul →
            haul.window = whole
              ∧ haul.requests = queries.length
              ∧ InOrder haul.trades
              ∧ SeqsDiffer haul.trades
              ∧ ∀ t ∈ haul.trades,
                  whole.Holds t
                    ∧ ∃ page,
                        .ok page ∈ replies ask s queries
                          ∧ t ∈ page := by
  intro w queries
  have hPart : w.whole.Part w.asked :=
    ⟨Window.Remains.refl whole, hWhole⟩
  have hPoses : ∀ q ∈ queries, w.Poses q :=
    poses_of_mem_follow w.allowance s hPart hWords
  refine ⟨length_follow_le w.allowance s w, ?_, ?_, ?_, ?_⟩
  · intro q hq
    rcases hPoses q hq with ⟨hInstrument, hCount, hOwn, _⟩
    refine ⟨hInstrument, hCount, hOwn.nonempty, hOwn.remains, ?_⟩
    intro settings hValid hSize c
    rcases hValid.pageSize with ⟨hPositive, hMost⟩
    have hAsked : q.count = settings.pageSize := hCount.trans hSize
    exact
      ⟨_, c.build_draft hOwn.nonempty (hAsked ▸ hPositive)
        (hAsked ▸ hMost)⟩
  · intro q hq
    have hOwn := (hPoses q hq).part
    refine ⟨hOwn.words hWords, ?_⟩
    intro v _ hSame hAsked page left hNext
    rw [← hAsked, show w.whole = v.whole from hSame.symm] at hOwn
    have hWords' : v.whole.Words := hSame ▸ hWords
    exact (next_part hOwn hWords' hNext).1.words hWords'
  · intro hStrict
    exact pairwise_follow w.allowance s hPart hWords hStrict
  · intro haul hEnd
    rcases haul_of_follow w.allowance s w hEnd with
      ⟨pages, rfl, hReplies⟩
    refine
      ⟨rfl, Nat.zero_add _, Merge.inOrder_pages _ whole,
        Merge.seqsDiffer_pages _ whole, ?_⟩
    intro t ht
    rcases Merge.mem_of_mem_pages ht with ⟨hMem, hHolds⟩
    rcases List.mem_flatten.mp hMem with ⟨page, hPage, hTrade⟩
    refine ⟨hHolds, page, ?_, hTrade⟩
    change .ok page ∈ replies ask s (follow ask w.allowance s w).2.1
    rw [hReplies]
    exact List.mem_map_of_mem hPage

/-
  Two pages of a venue that cannot be trusted: the first is
  longer than asked for, repeats a trade and holds one of no
  range, and its greatest number is next to the last word.
-/
def strayPages : ScriptVenue :=
  { pages :=
      [.ok
          [Trade.synthetic "BTC" (Word.int64Max - 1) 9,
            Trade.synthetic "BTC" 5 7,
            Trade.synthetic "BTC" (-7) 3,
            Trade.synthetic "BTC" 5 7],
        .ok [Trade.synthetic "BTC" Word.int64Max 9]]
    latest := [] }

/- A source that recites the pages of a script. -/
def askScript
    (s : ScriptVenue)
    (q : PageQuery) : Except Fault (List Trade) × ScriptVenue :=
  let (reply, s) := ScriptVenue.venue.page s q
  (reply.result, s)

/- The walk over all numbers asks for the last one and ends. -/
theorem run_safe_of_stray_pages :
    let whole := Window.seq ⟨1, Word.int64Max⟩
    let settings := { Settings.standard with pageSize := 3 }
    let rules := WalkRules.ofSettings settings
    let w := Walk.start rules "BTC" whole
    let queries := (w.run askScript strayPages).2.1
    whole.Nonempty
      ∧ whole.Words
      ∧ queries.map PageQuery.window =
          [whole, .seq ⟨Word.int64Max, Word.int64Max⟩]
      ∧ (queries.Pairwise fun p q => p.window.Narrows q.window)
      ∧ ∃ haul,
          (w.run askScript strayPages).1 = .ok haul
            ∧ haul.requests = 2
            ∧ haul.trades.map Trade.seq =
                [5, Word.int64Max - 1, Word.int64Max]
            ∧ InOrder haul.trades
            ∧ SeqsDiffer haul.trades := by
  intro whole settings rules w queries
  have hWhole : whole.Nonempty :=
    show (1 : Int) ≤ Word.int64Max by decide
  have hWords : whole.Words := by decide
  have hSafe :=
    run_safe askScript rules "BTC" hWhole hWords strayPages
  rcases hSafe with ⟨_, _, _, hNarrows, hHaul⟩
  have hQueries :
      queries.map PageQuery.window =
        [whole, .seq ⟨Word.int64Max, Word.int64Max⟩] := by
    decide +kernel
  have hEnd :
      (w.run askScript strayPages).1.toOption.map
          (fun haul => (haul.requests, haul.trades.map Trade.seq))
        = some (2, [5, Word.int64Max - 1, Word.int64Max]) := by
    cbv
  refine
    ⟨hWhole, hWords, hQueries, hNarrows (Or.inr ⟨_, rfl⟩), ?_⟩
  cases hRun : (w.run askScript strayPages).1 with
  | error f =>
      rw [hRun] at hEnd
      cases hEnd
  | ok haul =>
      rw [hRun] at hEnd
      have hFields := Prod.mk.inj (Option.some.inj hEnd)
      rcases hHaul haul hRun with ⟨_, _, hOrder, hDiffer, _⟩
      exact
        ⟨haul, rfl, hFields.1, hFields.2, hOrder, hDiffer⟩

end Walk

end TradeTape
