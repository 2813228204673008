import Mathlib.Computability.Primrec.List
import TradeTape.Proofs.Walk.Instants
import TradeTape.Proofs.Walk.Safety

/-
  Walks that leave out the instants of their cuts.

  After a full page such a walk goes on just before the oldest
  instant of the page.  Each of its ranges ends before the one
  before it, down to the least word: there is nothing before
  that, so a range of that word alone is asked for again and
  again.  A trade is lost if a page was cut at its instant,
  and only then.

  Key statements include:
    * `Window.floor`
    * `Walk.next_exclusive`
    * `Walk.run_exclusive_shrinks`
    * `Trade.Cuts`
    * `Walk.Skips`
    * `TapeVenue.walk_exclusive_misses_ties`
-/

namespace TradeTape

open Trade

------------------------------------------------------------
-- Ranges
------------------------------------------------------------

namespace Window

/- The range of the least word alone. -/
def floor : Window :=
  .time ⟨Word.int64Min, Word.int64Min⟩

theorem eq_floor_of_part
    {part : Window}
    (h : floor.Part part) :
    part = floor := by
  rcases h with ⟨hRemains, hNonempty⟩
  cases part with
  | seq part => exact hRemains.elim
  | time part =>
      rcases part with ⟨startMs, endMs⟩
      rcases hRemains with ⟨hStart, hEnd⟩
      change startMs ≤ endMs at hNonempty
      simp only at hStart hEnd
      simp only [floor, Window.time.injEq, TimeWindow.mk.injEq]
      omega

theorem Narrows.ne
    {u v : Window}
    (h : u.Narrows v) :
    u ≠ v := by
  rintro rfl
  cases u <;> simp only [Narrows] at h <;> omega

end Window

namespace Walk

/-
  The range after a page ends before the one that was asked
  for, unless both are the least word and the page holds it.
-/
theorem next_exclusive
    {w : Walk}
    {whole : TimeWindow}
    (hWhole : w.whole = .time whole)
    (hBoundary : w.rules.boundary = .exclusive)
    (hPart : w.whole.Part w.asked)
    (hWords : (Window.time whole).Words)
    {page : List Trade}
    {left : Window}
    (hNext : w.next page = .ok (some left)) :
    w.asked.Narrows left
      ∨ (w.asked = .floor ∧ left = .floor)
        ∧ whole.startMs = Word.int64Min
        ∧ ∃ t ∈ page, t.timestamp ≤ Word.int64Min := by
  rcases exists_downward hWhole hPart.remains with ⟨asked, hDown⟩
  rw [hDown.next_eq] at hNext
  rcases nextTime_eq_some hNext with
    ⟨oldest, endMs, hLeast, _, hLow, hEnd, hFrom, rfl⟩
  have hNonempty := hPart.nonempty
  rw [hDown.asked_eq] at hNonempty ⊢
  change asked.startMs ≤ asked.endMs at hNonempty
  have hStart := hDown.start_eq
  have hUntil := hDown.end_le
  rcases hWords with ⟨⟨hLeastWord, _⟩, ⟨_, hGreatestWord⟩⟩
  change Word.int64Min ≤ whole.startMs at hLeastWord
  change whole.endMs ≤ Word.int64Max at hGreatestWord
  simp only [hBoundary] at hEnd
  rw [Word.subSat_one (by omega)] at hEnd
  by_cases hEarlier : endMs < asked.endMs
  · exact Or.inl hEarlier
  · -- The end has not moved, so it is the least word.
    rcases asked with ⟨startMs, untilMs⟩
    simp only at hStart hUntil hNonempty hLow hEarlier
    have hOldest : oldest ≤ Word.int64Min := by omega
    rcases List.mem_map.mp (least?_eq_some hLeast).1 with
      ⟨t, ht, rfl⟩
    refine Or.inr ⟨⟨?_, ?_⟩, by omega, t, ht, hOldest⟩
    all_goals
      simp only [Window.floor, Window.time.injEq,
        TimeWindow.mk.injEq]
      omega

section Following

variable {σ : Type}
variable {ask : σ → PageQuery → Except Fault (List Trade) × σ}

/- A walk over instants that leaves out those of its cuts. -/
structure LeavesOut
    (whole : TimeWindow)
    (w : Walk) : Prop where
  whole_eq : w.whole = .time whole
  boundary : w.rules.boundary = .exclusive

/- What one answer does to the range of such a walk. -/
theorem leavesOut_step
    {whole : TimeWindow}
    (hWords : (Window.time whole).Words)
    {s : σ}
    {w w' : Walk}
    (h : w.LeavesOut whole)
    (hPart : w.whole.Part w.asked)
    (hAsks : w.answer (ask s w.query).1 = .asks w') :
    w'.LeavesOut whole
      ∧ (w.asked.Narrows w'.asked
        ∨ (w.asked = .floor ∧ w'.asked = .floor)
          ∧ whole.startMs = Word.int64Min
          ∧ ∃ page,
              (ask s w.query).1 = .ok page
                ∧ ∃ t ∈ page, t.timestamp ≤ Word.int64Min) := by
  rcases answer_eq_asks hAsks with
    ⟨page, left, hReply, hNext, _, rfl⟩
  refine ⟨⟨h.whole_eq, h.boundary⟩, ?_⟩
  rcases next_exclusive h.whole_eq h.boundary hPart hWords hNext with
    hNarrows | ⟨hStuck, hStart, hOldest⟩
  · exact Or.inl hNarrows
  · exact Or.inr ⟨hStuck, hStart, page, hReply, hOldest⟩

end Following

/-
  The ranges that such a walk asks for end earlier and earlier
  whatever it is served, but for the range of the least word:
  that is asked for again.  If the window starts later, or if
  no trade of that instant is served, no range is.
-/
theorem run_exclusive_shrinks
    {σ : Type}
    (ask : σ → PageQuery → Except Fault (List Trade) × σ)
    {rules : WalkRules}
    (hBoundary : rules.boundary = .exclusive)
    (instrument : String)
    {whole : TimeWindow}
    (hWhole : (Window.time whole).Nonempty)
    (hWords : (Window.time whole).Words)
    (s : σ) :
    let queries :=
      ((Walk.start rules instrument (.time whole)).run ask s).2.1
    (queries.Pairwise fun p q =>
        p.window.Narrows q.window
          ∨ p.window = .floor ∧ q.window = .floor)
      ∧ (Word.int64Min < whole.startMs
          ∨ (∀ s q page,
              (ask s q).1 = .ok page →
                ∀ t ∈ page, Word.int64Min < t.timestamp) →
          (queries.Pairwise fun p q => p.window.Narrows q.window)
            ∧ (queries.map PageQuery.window).Nodup) := by
  intro queries
  let w := Walk.start rules instrument (.time whole)
  have hFirst : w.LeavesOut whole := ⟨rfl, hBoundary⟩
  have hPart : w.whole.Part w.asked :=
    ⟨Window.Remains.refl _, hWhole⟩
  refine ⟨?_, ?_⟩
  · refine
      pairwise_follow_of (I := LeavesOut whole)
        (R := fun u v => u.Narrows v ∨ u = .floor ∧ v = .floor)
        ?_ ?_ w.allowance s hFirst hPart hWords
    · intro s w w' h hPart _ hAsks
      rcases leavesOut_step hWords h hPart hAsks with ⟨h', hStep⟩
      exact ⟨h', hStep.imp_right And.left⟩
    · rintro u v part (hNarrows | ⟨rfl, rfl⟩) hPart
      · exact Or.inl (hNarrows.of_remains hPart.remains)
      · exact Or.inr ⟨rfl, Window.eq_floor_of_part hPart⟩
  · intro hAbove
    have hNarrows :
        queries.Pairwise fun p q => p.window.Narrows q.window := by
      refine
        pairwise_follow_of (I := LeavesOut whole)
          (R := Window.Narrows)
          ?_ ?_ w.allowance s hFirst hPart hWords
      · intro s w w' h hPart _ hAsks
        rcases leavesOut_step hWords h hPart hAsks with
          ⟨h', hNarrows | ⟨_, hStart, page, hReply, t, ht, hLeast⟩⟩
        · exact ⟨h', hNarrows⟩
        · rcases hAbove with hLater | hNone
          · omega
          · have hAfter := hNone s w.query page hReply t ht
            omega
      · intro u v part hNarrows hPart
        exact hNarrows.of_remains hPart.remains
    refine ⟨hNarrows, ?_⟩
    apply List.pairwise_map.mpr
    exact hNarrows.imp Window.Narrows.ne

/- Two trades, the first of them at the least word. -/
def floorTape : List Trade :=
  [Trade.synthetic "X" 1 Word.int64Min, Trade.synthetic "X" 2 5]

/- A venue with these trades. -/
def floorVenue : TapeVenue :=
  { tapes := [("X", floorTape)]
    failingInstruments := []
    failingRanges := []
    latency := none }

/- Four pages of one trade each. -/
def floorRules : WalkRules :=
  { pageSize := 1
    maxPages := 4
    boundary := .exclusive }

/- A walk over these trades from some instant on. -/
def floorWalk
    (startMs : Int) : Except Fault Haul × List PageQuery × Nat :=
  (Walk.start floorRules "X" (.time ⟨startMs, 10⟩)).run
    (fun n q => (floorVenue.page q, n + 1)) 0

/- The ranges of the walk from the least word on. -/
theorem windows_floorWalk :
    (floorWalk Word.int64Min).2.1.map PageQuery.window =
      [.time ⟨Word.int64Min, 10⟩, .time ⟨Word.int64Min, 4⟩,
        .floor, .floor] := by
  cbv

/- The least word is asked for twice, if the window has it. -/
theorem run_exclusive_shrinks_of_floor :
    floorRules.boundary = .exclusive
      ∧ ((floorWalk Word.int64Min).2.1.Pairwise fun p q =>
          p.window.Narrows q.window
            ∨ p.window = .floor ∧ q.window = .floor)
      ∧ (floorWalk 0).2.1.map PageQuery.window =
        [.time ⟨0, 10⟩, .time ⟨0, 4⟩]
      ∧ ((floorWalk 0).2.1.Pairwise fun p q =>
          p.window.Narrows q.window) := by
  have hBoundary : floorRules.boundary = .exclusive := rfl
  have hLow : (Window.time ⟨Word.int64Min, 10⟩).Nonempty :=
    show Word.int64Min ≤ 10 by decide
  have hHigh : (Window.time ⟨0, 10⟩).Nonempty :=
    show (0 : Int) ≤ 10 by decide
  let ask (n : Nat) (q : PageQuery) :=
    (floorVenue.page q, n + 1)
  have hLowWalk :=
    run_exclusive_shrinks ask hBoundary "X" hLow (by decide) 0
  have hHighWalk :=
    run_exclusive_shrinks ask hBoundary "X" hHigh (by decide) 0
  have hWindows :
      (floorWalk 0).2.1.map PageQuery.window =
        [.time ⟨0, 10⟩, .time ⟨0, 4⟩] := by
    cbv
  exact
    ⟨hBoundary, hLowWalk.1, hWindows,
      (hHighWalk.2 (Or.inl (by decide))).1⟩

/- At the least word the cursor stays where it is. -/
theorem exists_range_asked_twice :
    (floorWalk Word.int64Min).1 = .error (.pageCeiling 4)
      ∧ (¬(floorWalk Word.int64Min).2.1.Pairwise fun p q =>
          p.window.Narrows q.window)
      ∧ ¬((floorWalk Word.int64Min).2.1.map
          PageQuery.window).Nodup := by
  have hTwice :
      ¬((floorWalk Word.int64Min).2.1.map
          PageQuery.window).Nodup := by
    rw [windows_floorWalk]
    simp
  refine ⟨by cbv, ?_, hTwice⟩
  intro hNarrows
  apply hTwice
  apply List.pairwise_map.mpr
  exact hNarrows.imp Window.Narrows.ne

end Walk

------------------------------------------------------------
-- Cuts
------------------------------------------------------------

/- A trade at which a full page was cut: its oldest one. -/
structure Trade.Cuts
    (u : Trade)
    (size : Nat)
    (page : List Trade) : Prop where
  full : page.length = size
  served : u ∈ page
  oldest : ∀ t ∈ page, u.timestamp ≤ t.timestamp

namespace Walk

/- A trade that is on a page, or shares the instant of a cut. -/
def SeenOrCut
    (size : Nat)
    (pages : List (List Trade))
    (t : Trade) : Prop :=
  ∃ page ∈ pages,
    t ∈ page
      ∨ ∃ u : Trade,
          u.Cuts size page ∧ u.timestamp = t.timestamp

variable {size : Nat} {pages : List (List Trade)}
variable {page : List Trade} {t : Trade}

theorem SeenOrCut.concat
    (h : SeenOrCut size pages t)
    (page : List Trade) :
    SeenOrCut size (pages ++ [page]) t := by
  rcases h with ⟨old, hOld, hCase⟩
  exact ⟨old, List.mem_append_left _ hOld, hCase⟩

/- What a page leaves out of its range is older or is a tie. -/
theorem seenOrCut_of_answers
    {tape : List Trade}
    {asked : TimeWindow}
    (hPage : Answers tape (.time asked) size page)
    (hTape : t ∈ tape)
    (hCovers : asked.Covers t.timestamp) :
    SeenOrCut size (pages ++ [page]) t
      ∨ page.length = size ∧ ∀ u ∈ page, t.timestamp < u.timestamp := by
  have hLast : page ∈ pages ++ [page] := by
    simp
  by_cases hServed : t ∈ page
  · exact Or.inl ⟨page, hLast, Or.inl hServed⟩
  · have hFull : page.length = size := by
      by_contra hShort
      apply hServed
      have hLength := hPage.length_le
      exact hPage.mem_of_short (by omega) hTape hCovers
    have hNotNewer : ∀ u ∈ page, t.timestamp ≤ u.timestamp :=
      hPage.preferred t hTape hCovers hServed
    by_cases hOlder : ∀ u ∈ page, t.timestamp < u.timestamp
    · exact Or.inr ⟨hFull, hOlder⟩
    · push Not at hOlder
      rcases hOlder with ⟨u, hu, hNotOlder⟩
      have hTie : u.timestamp = t.timestamp :=
        Int.le_antisymm hNotOlder (hNotNewer u hu)
      exact
        Or.inl
          ⟨page, hLast,
            Or.inr ⟨u, ⟨hFull, hu, hTie ▸ hNotNewer⟩, hTie⟩⟩

------------------------------------------------------------
-- Walks that leave out their cuts
------------------------------------------------------------

/-
  A walk down the instants of a window that leaves out those
  of its cuts: what it has not seen and is not a tie lies in
  the range it asks for.  Above the least word each request so
  far has passed an instant.
-/
structure Skips
    (tape : List Trade)
    (whole asked : TimeWindow)
    (w : Walk) : Prop
    extends Downward whole asked w where
  positive : 0 < w.rules.pageSize
  exclusive : w.rules.boundary = .exclusive
  known : ∀ t ∈ w.pages.flatten, t ∈ tape
  full : ∀ page ∈ w.pages, page.length = w.rules.pageSize
  seen :
    ∀ t ∈ tape, whole.Covers t.timestamp →
      asked.Covers t.timestamp
        ∨ SeenOrCut w.rules.pageSize w.pages t
  paced :
    Word.int64Min < whole.startMs →
      w.requests
          + (Window.time whole).instantsBefore tape
            (asked.endMs + 1)
        ≤ ((Window.time whole).instants tape).card

theorem skips_start
    {s : Settings}
    (hBoundary : s.boundary = .exclusive)
    (tape : List Trade)
    (name : String)
    (whole : TimeWindow) :
    (Walk.start (WalkRules.ofSettings s) name
      (.time whole)).Skips tape whole whole :=
  { downward_start _ name whole with
    positive := WalkRules.pageSize_pos s
    exclusive := hBoundary
    known := by simp [Walk.start]
    full := by simp [Walk.start]
    seen := fun _ _ hCovers => Or.inl hCovers
    paced := fun _ => by
      have hBefore :=
        (Window.time whole).instantsBefore_le tape
          (whole.endMs + 1)
      simpa [Walk.start] using hBefore }

namespace Skips

variable {tape : List Trade} {whole asked : TimeWindow}
variable {w : Walk}

/- What a page has not accounted for is older than all of it. -/
theorem unseen
    (h : w.Skips tape whole asked)
    (hPage : Answers tape w.asked w.rules.pageSize page)
    (hTape : t ∈ tape)
    (hCovers : whole.Covers t.timestamp) :
    SeenOrCut w.rules.pageSize (w.pages ++ [page]) t
      ∨ page.length = w.rules.pageSize
        ∧ ∀ u ∈ page, t.timestamp < u.timestamp := by
  rcases h.seen t hTape hCovers with hAsked | hOld
  · exact seenOrCut_of_answers (h.answers hPage) hTape hAsked
  · exact Or.inl (hOld.concat page)

theorem known_concat
    (h : w.Skips tape whole asked)
    (hPage : Answers tape w.asked w.rules.pageSize page) :
    ∀ t ∈ (w.pages ++ [page]).flatten, t ∈ tape := by
  intro t ht
  rcases mem_flatten_concat.mp ht with hOld | hNew
  · exact h.known t hOld
  · exact (hPage.within t hNew).1

/- A range that is left ends just before the oldest instant. -/
theorem left
    (h : w.Skips tape whole asked)
    (hWords : (Window.time whole).Words)
    (hPage : Answers tape w.asked w.rules.pageSize page)
    {window : Window}
    (hNext : w.next page = .ok (some window)) :
    ∃ endMs,
      window = .time ⟨whole.startMs, endMs⟩
        ∧ endMs ≤ whole.endMs
        ∧ page.length = w.rules.pageSize
        ∧ (∀ t : Trade,
            (∀ u ∈ page, t.timestamp < u.timestamp) →
              t.timestamp ≤ endMs)
        ∧ (Word.int64Min < whole.startMs →
            w.requests + 1
                + (Window.time whole).instantsBefore tape
                  (endMs + 1)
              ≤ ((Window.time whole).instants tape).card) := by
  rw [h.next_eq] at hNext
  rcases nextTime_eq_some hNext with
    ⟨_, endMs, hLeast, hFull, _, hEnd, _, hWindow⟩
  rcases h.oldest hPage hLeast with
    ⟨u, hu, rfl, _, hFrom, hUntil, hInstant⟩
  have hLast := h.end_le
  have hLeastWord : Word.int64Min ≤ whole.startMs := hWords.1.1
  have hGreatestWord : whole.endMs ≤ Word.int64Max := hWords.2.2
  simp only [h.exclusive] at hEnd
  rw [Word.subSat_one (by omega)] at hEnd
  refine ⟨endMs, hWindow, by omega, ?_, ?_, ?_⟩
  · exact Nat.le_antisymm hPage.length_le hFull
  · intro t hOlder
    have hBefore := hOlder u hu
    omega
  · -- Above the least word the end is below the oldest instant.
    intro hAbove
    have hPaced := h.paced hAbove
    have hBelow : endMs + 1 ≤ u.timestamp := by omega
    have hFewer :=
      Window.instantsBefore_lt hInstant hBelow
        (Int.lt_add_one_of_le hUntil)
    omega

theorem asks
    (h : w.Skips tape whole asked)
    (hWords : (Window.time whole).Words)
    (hPage : Answers tape w.asked w.rules.pageSize page)
    {w' : Walk}
    (hAsks : w.receive page = .asks w') :
    ∃ asked', w'.Skips tape whole asked' := by
  rcases receive_eq_asks hAsks with ⟨window, hNext, _, rfl⟩
  rcases h.left hWords hPage hNext with
    ⟨endMs, rfl, hUntil, hFull, hOlder, hPaced⟩
  refine
    ⟨⟨whole.startMs, endMs⟩,
      { whole_eq := h.whole_eq
        asked_eq := rfl
        start_eq := rfl
        end_le := hUntil
        positive := h.positive
        exclusive := h.exclusive
        known := h.known_concat hPage
        full := ?_
        seen := ?_
        paced := hPaced }⟩
  · intro other hOther
    rcases List.mem_append.mp hOther with hOld | hNew
    · exact h.full other hOld
    · rw [List.mem_singleton.mp hNew]
      exact hFull
  · intro t hTape hCovers
    rcases h.unseen hPage hTape hCovers with hCase | ⟨_, hAll⟩
    · exact Or.inr hCase
    · exact Or.inl ⟨hCovers.1, hOlder t hAll⟩

/- Such a walk fails with its last page only, which is full. -/
theorem fails
    (h : w.Skips tape whole asked)
    (hWords : (Window.time whole).Words)
    (hPage : Answers tape w.asked w.rules.pageSize page)
    {f : Fault}
    (hEnds : w.receive page = .ends (.error f)) :
    f = .pageCeiling w.rules.maxPages
      ∧ w.rules.maxPages ≤ w.requests + 1
      ∧ page.length = w.rules.pageSize
      ∧ (Word.int64Min < whole.startMs →
          w.rules.maxPages
            ≤ ((Window.time whole).instants tape).card) := by
  rcases receive_eq_error hEnds with
    hFault | ⟨window, hNext, hLast, hCeiling⟩
  · rw [h.next_eq] at hFault
    rcases nextTime_eq_error hFault with
      ⟨oldest, hLeast, _, hStray | ⟨_, hInclusive, _⟩⟩
    · rcases h.oldest hPage hLeast with ⟨_, _, _, _, _, hUntil, _⟩
      omega
    · rw [h.exclusive] at hInclusive
      cases hInclusive
  · rcases h.left hWords hPage hNext with
      ⟨_, _, _, hFull, _, hPaced⟩
    refine ⟨hCeiling, hLast, hFull, ?_⟩
    intro hAbove
    have hPace := hPaced hAbove
    omega

/- A walk that comes home has accounted for all trades. -/
theorem accounts
    (h : w.Skips tape whole asked)
    (hWords : (Window.time whole).Words)
    (hPage : Answers tape w.asked w.rules.pageSize page)
    (hNext : w.next page = .ok none)
    (hTape : t ∈ tape)
    (hCovers : whole.Covers t.timestamp) :
    SeenOrCut w.rules.pageSize (w.pages ++ [page]) t := by
  rcases h.unseen hPage hTape hCovers with hCase | ⟨hFull, hOlder⟩
  · exact hCase
  · -- A full page is the last only if nothing older is covered.
    have hFull : w.Full page := Nat.le_of_eq hFull.symm
    rw [h.next_eq] at hNext
    rcases
      nextTime_eq_none hNext hFull
        (ne_nil_of_full h.positive hFull) with
      ⟨_, endMs, hLeast, hEnd, hPassed⟩
    rcases h.oldest hPage hLeast with
      ⟨u, hu, rfl, _, _, hUntil, _⟩
    have hBefore := hOlder u hu
    have hFrom : whole.startMs ≤ t.timestamp := hCovers.1
    have hLast := h.end_le
    have hGreatestWord : whole.endMs ≤ Word.int64Max := hWords.2.2
    simp only [h.exclusive] at hEnd
    rw [Word.subSat_one (by omega)] at hEnd
    omega

/- A walk that comes home has lost nothing but ties. -/
theorem comesHome
    (h : w.Skips tape whole asked)
    (hSeqs : SeqsDiffer tape)
    (hWords : (Window.time whole).Words)
    (hPage : Answers tape w.asked w.rules.pageSize page)
    {haul : Haul}
    (hEnds : w.receive page = .ends (.ok haul)) :
    haul.window = .time whole
      ∧ haul.requests = w.requests + 1
      ∧ InOrder haul.trades
      ∧ (∀ t ∈ haul.trades, t ∈ tape ∧ whole.Covers t.timestamp)
      ∧ ∀ t ∈ tape,
          whole.Covers t.timestamp →
          t ∉ haul.trades →
            ∃ u ∈ haul.trades,
              u.timestamp = t.timestamp
                ∧ ∃ p ∈ w.pages ++ [page],
                    u.Cuts w.rules.pageSize p := by
  rcases receive_eq_haul hEnds with ⟨hNext, rfl⟩
  rw [h.whole_eq]
  have hKnown := h.known_concat hPage
  have hMem :
      ∀ t,
        t ∈ Merge.pages (w.pages ++ [page]) (.time whole) ↔
          t ∈ (w.pages ++ [page]).flatten
            ∧ whole.Covers t.timestamp :=
    Merge.mem_pages_iff fun t ht u hu hSeq =>
      hSeqs.eq_of_seq_eq (hKnown t ht) (hKnown u hu) hSeq
  refine ⟨rfl, rfl, Merge.inOrder_pages _ _, ?_, ?_⟩
  · intro t ht
    rcases (hMem t).mp ht with ⟨hServed, hCovers⟩
    exact ⟨hKnown t hServed, hCovers⟩
  · intro t hTape hCovers hMissing
    rcases h.accounts hWords hPage hNext hTape hCovers with
      ⟨p, hp, hSeen | ⟨u, hCuts, hTie⟩⟩
    · have hServed := List.mem_flatten.mpr ⟨p, hp, hSeen⟩
      exact absurd ((hMem t).mpr ⟨hServed, hCovers⟩) hMissing
    · have hServed := List.mem_flatten.mpr ⟨p, hp, hCuts.served⟩
      have hAlso : whole.Covers u.timestamp := hTie ▸ hCovers
      exact
        ⟨u, (hMem u).mpr ⟨hServed, hAlso⟩, hTie, p, hp, hCuts⟩

end Skips

end Walk

------------------------------------------------------------
-- Whole walks
------------------------------------------------------------

namespace TapeVenue

/-
  A walk over tapes that leaves out the instants of its cuts
  fails only for want of pages: all it asked for were full,
  and, above the least word, there are as many instants with
  trades.  A walk that comes home brings trades of the tape in
  order.  A trade is missing only if it shares its instant
  with one that was brought home, at which a full page was
  cut, so that none is missing where no instant has two.
-/
theorem walk_exclusive_misses_ties
    {v : TapeVenue}
    {name : String}
    {s : Settings}
    {whole : TimeWindow}
    (hWorks : v.Works name)
    (hSeqs : SeqsDiffer (v.tape name))
    (hBoundary : s.boundary = .exclusive)
    (hWords : (Window.time whole).Words)
    (n : Nat) :
    let tape := v.tape name
    let rules := WalkRules.ofSettings s
    let walked :=
      v.toVenue.walk n (Walk.start rules name (.time whole))
    (∀ f,
        walked.1 = .error f →
          f = .pageCeiling rules.maxPages
            ∧ walked.2.1.length = rules.maxPages
            ∧ (∀ q ∈ walked.2.1,
                Walk.IsFullPage rules.pageSize (v.page q))
            ∧ (Word.int64Min < whole.startMs →
                rules.maxPages
                  ≤ ((Window.time whole).instants tape).card))
      ∧ ∀ haul,
          walked.1 = .ok haul →
            haul.window = .time whole
              ∧ haul.requests = walked.2.1.length
              ∧ InOrder haul.trades
              ∧ (∀ t ∈ haul.trades,
                  t ∈ tape ∧ whole.Covers t.timestamp)
              ∧ (∀ t ∈ tape,
                  whole.Covers t.timestamp →
                  t ∉ haul.trades →
                    ∃ u ∈ haul.trades,
                      u.timestamp = t.timestamp
                        ∧ ∃ q ∈ walked.2.1,
                          ∃ page,
                            v.page q = .ok page
                              ∧ u.Cuts rules.pageSize page)
              ∧ (((Window.inside (.time whole) tape).map
                    Trade.timestamp).Nodup →
                  ∀ t,
                    t ∈ haul.trades ↔
                      t ∈ tape ∧ whole.Covers t.timestamp) := by
  intro tape rules walked
  let Inv (w : Walk) : Prop :=
    ∃ asked, w.Skips tape whole asked
  rcases
    walk_last hWorks hSeqs (I := Inv)
      (fun w w' page ⟨_, h⟩ hPage hAsks =>
        h.asks hWords hPage hAsks)
      n ⟨whole, Walk.skips_start hBoundary tape name whole⟩ rfl
      (WalkRules.maxPages_pos s) with
    ⟨last, pages, page, ⟨asked, h⟩, hRules, hPage, hEnds, hPages,
      hCount, hReplies⟩
  change last.rules = rules at hRules
  change last.pages = pages at hPages
  change walked.2.1.map v.page = (pages ++ [page]).map .ok at hReplies
  have hLength : walked.2.1.length = last.requests + 1 :=
    (Nat.zero_add _).symm.trans hCount
  refine ⟨?_, ?_⟩
  · intro f hEnd
    rw [hEnd] at hEnds
    rcases h.fails hWords hPage hEnds with
      ⟨hCeiling, hLast, hFull, hInstants⟩
    rw [hRules] at hCeiling hLast hFull hInstants
    have hMost : walked.2.1.length ≤ rules.maxPages :=
      Walk.length_follow_le _ n (Walk.start rules name (.time whole))
    refine ⟨hCeiling, by omega, ?_, hInstants⟩
    intro q hq
    have hReply : v.page q ∈ (pages ++ [page]).map .ok := by
      rw [← hReplies]
      exact List.mem_map_of_mem hq
    rcases List.mem_map.mp hReply with ⟨p, hp, hSame⟩
    refine ⟨p, hSame.symm, ?_⟩
    rcases List.mem_append.mp hp with hOld | hNew
    · rw [← hPages] at hOld
      exact (h.full p hOld).trans (congrArg _ hRules)
    · rw [List.mem_singleton.mp hNew]
      exact hFull
  · intro haul hEnd
    rw [hEnd] at hEnds
    rcases h.comesHome hSeqs hWords hPage hEnds with
      ⟨hWindow, hRequests, hOrder, hWithin, hMissing⟩
    rw [hPages, hRules] at hMissing
    refine
      ⟨hWindow, hRequests.trans hLength.symm, hOrder, hWithin, ?_, ?_⟩
    · intro t hTape hCovers hLost
      rcases hMissing t hTape hCovers hLost with
        ⟨u, hu, hTie, p, hp, hCuts⟩
      have hReply : .ok p ∈ walked.2.1.map v.page := by
        rw [hReplies]
        exact List.mem_map_of_mem hp
      rcases List.mem_map.mp hReply with ⟨q, hq, hServed⟩
      exact ⟨u, hu, hTie, q, hq, p, hServed, hCuts⟩
    · intro hDistinct t
      refine ⟨hWithin t, ?_⟩
      rintro ⟨hTape, hCovers⟩
      by_contra hLost
      rcases hMissing t hTape hCovers hLost with ⟨u, hu, hTie, _⟩
      apply hLost
      have hSame : u = t :=
        List.inj_on_of_nodup_map hDistinct
          (Window.mem_inside.mpr (hWithin u hu))
          (Window.mem_inside.mpr ⟨hTape, hCovers⟩) hTie
      exact hSame ▸ hu

/- Five trades, of which two and two share an instant. -/
def tiedTape : List Trade :=
  [Trade.synthetic "X" 1 5, Trade.synthetic "X" 2 5,
    Trade.synthetic "X" 3 7, Trade.synthetic "X" 4 7,
    Trade.synthetic "X" 5 9]

/- A venue with these trades. -/
def tiedTapeVenue : TapeVenue :=
  { tapes := [("X", tiedTape)]
    failingInstruments := []
    failingRanges := []
    latency := none }

/- Pages of two, whose cuts are left out. -/
def tiedSettings : Settings :=
  { Settings.standard with
    pageSize := 2
    boundary := .exclusive }

/- A walk over these trades. -/
def tiedWalk : Except Fault Haul × List PageQuery × Nat :=
  tiedTapeVenue.toVenue.walk 0
    (Walk.start (WalkRules.ofSettings tiedSettings) "X"
      (.time ⟨0, 10⟩))

/- The first page is cut between two trades and loses one. -/
theorem walk_exclusive_misses_ties_of_two :
    tiedTapeVenue.Works "X"
      ∧ SeqsDiffer (tiedTapeVenue.tape "X")
      ∧ tiedSettings.boundary = .exclusive
      ∧ (Window.time ⟨0, 10⟩).Words
      ∧ ∃ haul,
          tiedWalk.1 = .ok haul
            ∧ haul.trades.map Trade.seq = [1, 2, 4, 5]
            ∧ haul.requests = tiedWalk.2.1.length
            ∧ ∃ u ∈ haul.trades,
                u.timestamp = 7
                  ∧ ∃ q ∈ tiedWalk.2.1,
                    ∃ page,
                      tiedTapeVenue.page q = .ok page
                        ∧ u.Cuts 2 page := by
  have hWorks : tiedTapeVenue.Works "X" := ⟨rfl, by decide⟩
  have hSame : tiedTapeVenue.tape "X" = tiedTape :=
    List.mergeSort_of_pairwise (by decide)
  have hSeqs : SeqsDiffer (tiedTapeVenue.tape "X") := by
    rw [hSame]
    decide
  have hBoundary : tiedSettings.boundary = .exclusive := rfl
  have hWords : (Window.time ⟨0, 10⟩).Words := by decide
  have hNumbers :
      tiedWalk.1.toOption.map
          (fun haul => haul.trades.map Trade.seq)
        = some [1, 2, 4, 5] := by
    cbv
  rcases
    walk_exclusive_misses_ties hWorks hSeqs hBoundary hWords 0 with
    ⟨_, hHome⟩
  refine ⟨hWorks, hSeqs, hBoundary, hWords, ?_⟩
  cases hEnd : tiedWalk.1 with
  | error f =>
      rw [hEnd] at hNumbers
      cases hNumbers
  | ok haul =>
      rw [hEnd] at hNumbers
      have hNumbers : haul.trades.map Trade.seq = [1, 2, 4, 5] :=
        Option.some.inj hNumbers
      rcases hHome haul hEnd with
        ⟨_, hRequests, _, _, hMissing, _⟩
      -- The trade that is lost is the third.
      have hLost : Trade.synthetic "X" 3 7 ∉ haul.trades := by
        intro hMem
        have hNumber := List.mem_map_of_mem (f := Trade.seq) hMem
        rw [hNumbers] at hNumber
        simp [Trade.synthetic] at hNumber
      have hTape :
          Trade.synthetic "X" 3 7 ∈ tiedTapeVenue.tape "X" := by
        rw [hSame]
        simp [tiedTape]
      rcases hMissing _ hTape (by decide) hLost with
        ⟨u, hu, hTie, q, hq, page, hReply, hCuts⟩
      exact
        ⟨haul, rfl, hNumbers, hRequests, u, hu, hTie, q, hq, page,
          hReply, hCuts⟩

end TapeVenue

end TradeTape
