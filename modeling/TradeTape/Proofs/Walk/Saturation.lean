import Mathlib.Computability.Primrec.List
import Mathlib.Data.List.Permutation
import Mathlib.Order.Bounds.Defs
import TradeTape.Proofs.Walk.Instants

/-
  When an instant is too crowded to be walked over.

  An instant at which a tape fills a page is never passed by a
  walk that includes the instants of its cuts: all trades of a
  page are at that instant or after it.  Each page before has
  taken the walk down by an instant, so the walk comes to the
  last of the crowded instants and is stuck there.  Without
  one it comes to its end, with all trades.

  Key statements include:
    * `TimeWindow.Crowded`
    * `Answers.le_timestamp`
    * `Walk.Descends`
    * `Walk.Descends.left`
    * `Walk.Descends.fails`
    * `Walk.Descends.comesHome`
    * `TapeVenue.walk_saturated`
-/

namespace TradeTape

open Trade

------------------------------------------------------------
-- Crowded instants
------------------------------------------------------------

/- An instant of a window at which a tape fills a page. -/
structure TimeWindow.Crowded
    (w : TimeWindow)
    (tape : List Trade)
    (size : Nat)
    (ms : Int) : Prop where
  covered : w.Covers ms
  filled : size ≤ tape.countP fun t => t.timestamp = ms

namespace Answers

variable {tape : List Trade} {w : TimeWindow} {size : Nat}
variable {page : List Trade} {ms : Int}

/- A crowded instant fills the page. -/
theorem full_of_crowded
    (h : Answers tape (.time w) size page)
    (hCrowded : w.Crowded tape size ms) :
    size ≤ page.length := by
  have hInside :
      tape.countP (fun t => decide (t.timestamp = ms))
        ≤ (Window.inside (.time w) tape).length := by
    unfold Window.inside
    rw [← List.countP_eq_length_filter]
    apply List.countP_mono_left
    intro t _ hAt
    apply decide_eq_true
    change w.Covers t.timestamp
    rw [of_decide_eq_true hAt]
    exact hCrowded.covered
  have hFilled := hCrowded.filled
  have hLength := h.length
  omega

/- No trade of the page is before a crowded instant. -/
theorem le_timestamp
    (h : Answers tape (.time w) size page)
    (hNodup : tape.Nodup)
    (hCrowded : w.Crowded tape size ms)
    {u : Trade}
    (hu : u ∈ page) :
    ms ≤ u.timestamp := by
  by_contra hBefore
  let crowd := tape.filter fun t => t.timestamp = ms
  -- All that is newer than a trade that is served is served.
  have hServed : ∀ t ∈ u :: crowd, t ∈ page := by
    intro t ht
    rcases List.mem_cons.mp ht with rfl | hCrowd
    · exact hu
    · rcases List.mem_filter.mp hCrowd with ⟨hTape, hAt⟩
      have hAt : t.timestamp = ms := of_decide_eq_true hAt
      by_contra hLeft
      have hOlder : t.timestamp ≤ u.timestamp := by
        apply h.preferred t hTape ?_ hLeft u hu
        change w.Covers t.timestamp
        rw [hAt]
        exact hCrowded.covered
      omega
  have hApart : u ∉ crowd := by
    intro hCrowd
    have hAt : u.timestamp = ms :=
      of_decide_eq_true (List.mem_filter.mp hCrowd).2
    omega
  have hDistinct : (u :: crowd).Nodup :=
    List.nodup_cons.mpr ⟨hApart, hNodup.filter _⟩
  have hRoom := (hDistinct.subperm hServed).length_le
  have hFilled := hCrowded.filled
  have hLength := h.length_le
  rw [List.countP_eq_length_filter] at hFilled
  change size ≤ crowd.length at hFilled
  rw [List.length_cons] at hRoom
  omega

end Answers

------------------------------------------------------------
-- Walks that include their cuts
------------------------------------------------------------

namespace Walk

/-
  A walk down the instants of a window: no crowded instant is
  passed, and each request so far has passed another one.
-/
structure Descends
    (tape : List Trade)
    (whole asked : TimeWindow)
    (w : Walk) : Prop
    extends Downward whole asked w where
  tracks : w.Tracks tape
  inclusive : w.rules.boundary = .inclusive
  ahead :
    ∀ ms,
      whole.Crowded tape w.rules.pageSize ms → ms ≤ asked.endMs
  paced :
    w.requests
        + (Window.time whole).instantsBefore tape asked.endMs
      ≤ ((Window.time whole).instants tape).card
  ceiling :
    ((Window.time whole).instants tape).card < w.rules.maxPages

theorem descends_start
    {s : Settings}
    {tape : List Trade}
    {whole : TimeWindow}
    (hBoundary : s.boundary = .inclusive)
    (hCeiling :
      ((Window.time whole).instants tape).card
        < (WalkRules.ofSettings s).maxPages)
    (name : String) :
    (Walk.start (WalkRules.ofSettings s) name
      (.time whole)).Descends tape whole whole :=
  { downward_start _ name whole with
    tracks := tracks_start hBoundary name (.time whole)
    inclusive := hBoundary
    ahead := fun _ hCrowded => hCrowded.covered.2
    paced := by
      have hBefore :=
        (Window.time whole).instantsBefore_le tape whole.endMs
      simpa [Walk.start] using hBefore
    ceiling := hCeiling }

namespace Descends

variable {tape : List Trade} {whole asked : TimeWindow}
variable {w : Walk} {page : List Trade}

theorem crowded
    (h : w.Descends tape whole asked)
    {ms : Int}
    (hCrowded : whole.Crowded tape w.rules.pageSize ms) :
    asked.Crowded tape w.rules.pageSize ms := by
  refine ⟨⟨?_, h.ahead ms hCrowded⟩, hCrowded.filled⟩
  rw [h.start_eq]
  exact hCrowded.covered.1

/- A range that is left ends at an instant that was passed. -/
theorem left
    (h : w.Descends tape whole asked)
    (hNodup : tape.Nodup)
    (hPage : Answers tape w.asked w.rules.pageSize page)
    {window : Window}
    (hNext : w.next page = .ok (some window)) :
    ∃ ms,
      window = .time ⟨whole.startMs, ms⟩
        ∧ ms ≤ whole.endMs
        ∧ (∀ other,
            whole.Crowded tape w.rules.pageSize other →
              other ≤ ms)
        ∧ w.requests + 1
            + (Window.time whole).instantsBefore tape ms
          ≤ ((Window.time whole).instants tape).card := by
  rw [h.next_eq] at hNext
  rcases nextTime_eq_some hNext with
    ⟨ms, _, hLeast, _, hLow, hEnd, _, hWindow⟩
  simp only [h.inclusive] at hEnd
  rcases hEnd with ⟨hNe, rfl⟩
  rcases h.oldest hPage hLeast with ⟨t, ht, rfl, _, _, _, hInstant⟩
  have hUntil := h.end_le
  refine ⟨t.timestamp, hWindow, by omega, ?_, ?_⟩
  · intro other hCrowded
    exact
      (h.answers hPage).le_timestamp hNodup (h.crowded hCrowded) ht
  · have hPaced := h.paced
    have hFewer :=
      Window.instantsBefore_lt hInstant (Int.le_refl t.timestamp)
        (lt_of_le_of_ne hLow hNe)
    omega

theorem asks
    (h : w.Descends tape whole asked)
    (hSeqs : SeqsDiffer tape)
    (hPage : Answers tape w.asked w.rules.pageSize page)
    {w' : Walk}
    (hAsks : w.receive page = .asks w') :
    ∃ asked', w'.Descends tape whole asked' := by
  have hTracks := h.tracks.receive hSeqs hPage
  rw [hAsks] at hTracks
  rcases receive_eq_asks hAsks with ⟨window, hNext, _, rfl⟩
  rcases h.left hSeqs.nodup hPage hNext with
    ⟨ms, rfl, hUntil, hAhead, hPaced⟩
  exact
    ⟨⟨whole.startMs, ms⟩,
      { whole_eq := h.whole_eq
        asked_eq := rfl
        start_eq := rfl
        end_le := hUntil
        tracks := hTracks.1
        inclusive := h.inclusive
        ahead := hAhead
        paced := hPaced
        ceiling := h.ceiling }⟩

/- A walk is stuck at the last crowded instant only. -/
theorem fails
    (h : w.Descends tape whole asked)
    (hNodup : tape.Nodup)
    (hPage : Answers tape w.asked w.rules.pageSize page)
    {f : Fault}
    (hEnds : w.receive page = .ends (.error f)) :
    ∃ ms,
      IsGreatest {ms | whole.Crowded tape w.rules.pageSize ms} ms
        ∧ f = .saturated ms := by
  rcases receive_eq_error hEnds with
    hFault | ⟨window, hNext, hLast, _⟩
  · rw [h.next_eq] at hFault
    rcases nextTime_eq_error hFault with ⟨ms, hLeast, hFull, hEnd⟩
    rcases h.oldest hPage hLeast with
      ⟨_, _, _, hOldest, hFrom, hUntil, _⟩
    rcases hEnd with hStray | ⟨rfl, _, hFault⟩
    · omega
    · have hSame : ∀ t ∈ page, t.timestamp = asked.endMs := by
        intro t ht
        have hAfter := hOldest t ht
        have hBefore : t.timestamp ≤ asked.endMs :=
          ((h.answers hPage).within t ht).2.2
        omega
      refine ⟨asked.endMs, ⟨?_, h.ahead⟩, hFault⟩
      refine ⟨⟨hFrom, h.end_le⟩, ?_⟩
      exact Nat.le_trans hFull (hPage.length_le_count hSame)
  · -- There are pages enough to pass all instants.
    rcases h.left hNodup hPage hNext with ⟨_, _, _, _, hPaced⟩
    have hCeiling := h.ceiling
    omega

/- A walk that comes to its end has met no crowded instant. -/
theorem uncrowded
    (h : w.Descends tape whole asked)
    (hPage : Answers tape w.asked w.rules.pageSize page)
    (hNext : w.next page = .ok none)
    (ms : Int) :
    ¬whole.Crowded tape w.rules.pageSize ms := by
  intro hCrowded
  have hFull : w.Full page :=
    (h.answers hPage).full_of_crowded (h.crowded hCrowded)
  rw [h.next_eq] at hNext
  rcases
    nextTime_eq_none hNext hFull
      (ne_nil_of_full h.tracks.positive hFull) with
    ⟨oldest, endMs, hLeast, hEnd, hPassed⟩
  simp only [h.inclusive] at hEnd
  rcases h.oldest hPage hLeast with ⟨_, _, _, _, hFrom, _, _⟩
  omega

theorem comesHome
    (h : w.Descends tape whole asked)
    (hSeqs : SeqsDiffer tape)
    (hPage : Answers tape w.asked w.rules.pageSize page)
    {haul : Haul}
    (hEnds : w.receive page = .ends (.ok haul)) :
    (¬∃ ms, whole.Crowded tape w.rules.pageSize ms)
      ∧ haul.window = .time whole
      ∧ haul.requests = w.requests + 1
      ∧ Exact tape (.time whole) haul.trades := by
  have hExact := h.tracks.receive hSeqs hPage
  rw [hEnds] at hExact
  rcases hExact with ⟨hWindow, hExact⟩
  rw [h.whole_eq] at hWindow hExact
  rcases receive_eq_haul hEnds with ⟨hNext, hHaul⟩
  refine ⟨?_, hWindow, by rw [hHaul], hExact⟩
  rintro ⟨ms, hCrowded⟩
  exact h.uncrowded hPage hNext ms hCrowded

end Descends

end Walk

------------------------------------------------------------
-- Whole walks
------------------------------------------------------------

namespace TapeVenue

/-
  A walk over tapes that includes its cuts, with more pages
  than the window has trades, fails exactly if an instant is
  crowded, and then with the last one.  Otherwise it brings
  home all trades.  It asks once more than there are instants
  with trades, at most.
-/
theorem walk_saturated
    {v : TapeVenue}
    {name : String}
    {s : Settings}
    {whole : TimeWindow}
    (hWorks : v.Works name)
    (hSeqs : SeqsDiffer (v.tape name))
    (hBoundary : s.boundary = .inclusive)
    (hCeiling :
      (Window.inside (.time whole) (v.tape name)).length
        < (WalkRules.ofSettings s).maxPages)
    (n : Nat) :
    let tape := v.tape name
    let rules := WalkRules.ofSettings s
    let walked :=
      v.toVenue.walk n (Walk.start rules name (.time whole))
    let crowded := {ms | whole.Crowded tape rules.pageSize ms}
    walked.2.1.length
        ≤ ((Window.time whole).instants tape).card + 1
      ∧ ((∃ ms, ms ∈ crowded) →
          ∃ ms,
            IsGreatest crowded ms
              ∧ walked.1 = .error (.saturated ms))
      ∧ ((¬∃ ms, ms ∈ crowded) →
          ∃ haul,
            walked.1 = .ok haul
              ∧ haul.window = .time whole
              ∧ haul.requests = walked.2.1.length
              ∧ InOrder haul.trades
              ∧ ∀ t,
                  t ∈ haul.trades ↔
                    t ∈ tape ∧ whole.Covers t.timestamp) := by
  intro tape rules walked crowded
  let Inv (w : Walk) : Prop :=
    ∃ asked, w.Descends tape whole asked
  have hFirst : Inv (Walk.start rules name (.time whole)) := by
    refine ⟨whole, Walk.descends_start hBoundary ?_ name⟩
    exact
      Nat.lt_of_le_of_lt (Window.card_instants_le _ tape) hCeiling
  rcases
    walk_last hWorks hSeqs (I := Inv)
      (fun w w' page ⟨_, h⟩ hPage hAsks =>
        h.asks hSeqs hPage hAsks)
      n hFirst rfl (Nat.zero_lt_of_lt hCeiling) with
    ⟨last, _, page, ⟨asked, h⟩, hRules, hPage, hEnds, _, hCount, _⟩
  have hCount : walked.2.1.length = last.requests + 1 :=
    (Nat.zero_add _).symm.trans hCount
  change last.receive page = .ends walked.1 at hEnds
  change last.rules = rules at hRules
  refine ⟨?_, ?_, ?_⟩
  · have hPaced := h.paced
    omega
  · intro hSome
    cases hEnd : walked.1 with
    | error f =>
        rw [hEnd] at hEnds
        rcases h.fails hSeqs.nodup hPage hEnds with
          ⟨ms, hGreatest, rfl⟩
        rw [hRules] at hGreatest
        exact ⟨ms, hGreatest, rfl⟩
    | ok haul =>
        rw [hEnd] at hEnds
        have hNone := (h.comesHome hSeqs hPage hEnds).1
        rw [hRules] at hNone
        exact absurd hSome hNone
  · intro hNone
    cases hEnd : walked.1 with
    | error f =>
        rw [hEnd] at hEnds
        rcases h.fails hSeqs.nodup hPage hEnds with
          ⟨ms, hGreatest, _⟩
        rw [hRules] at hGreatest
        exact absurd ⟨ms, hGreatest.1⟩ hNone
    | ok haul =>
        rw [hEnd] at hEnds
        rcases h.comesHome hSeqs hPage hEnds with
          ⟨_, hWindow, hRequests, hExact⟩
        exact
          ⟨haul, rfl, hWindow, hRequests.trans hCount.symm,
            hExact.inOrder, hExact.mem_iff⟩

/- Six trades, three of them at one instant. -/
def crowdedTape : List Trade :=
  [Trade.synthetic "X" 1 5, Trade.synthetic "X" 2 5,
    Trade.synthetic "X" 3 5, Trade.synthetic "X" 4 7,
    Trade.synthetic "X" 5 9, Trade.synthetic "X" 6 9]

/- A venue with these trades, at which another name fails. -/
def crowdedTapeVenue : TapeVenue :=
  { tapes := [("X", crowdedTape)]
    failingInstruments := [("Y", .timeout "busy")]
    failingRanges := []
    latency := Latency.make? 3 4 }

/- A walk over them in pages of three. -/
def crowdedWalk : Except Fault Haul × List PageQuery × Nat :=
  crowdedTapeVenue.toVenue.walk 0
    (Walk.start
      (WalkRules.ofSettings { Settings.standard with pageSize := 3 })
      "X" (.time ⟨0, 10⟩))

/- With its third page it is stuck at the crowded instant. -/
theorem walk_saturated_of_three :
    crowdedTapeVenue.Works "X"
      ∧ SeqsDiffer (crowdedTapeVenue.tape "X")
      ∧ crowdedWalk.1 = .error (.saturated 5)
      ∧ crowdedWalk.2.1.length = 3
      ∧ IsGreatest
          {ms |
            TimeWindow.Crowded ⟨0, 10⟩ (crowdedTapeVenue.tape "X") 3
              ms} 5 := by
  have hWorks : crowdedTapeVenue.Works "X" := ⟨rfl, by decide⟩
  have hSame : crowdedTapeVenue.tape "X" = crowdedTape :=
    List.mergeSort_of_pairwise (by decide)
  have hSeqs : SeqsDiffer (crowdedTapeVenue.tape "X") := by
    rw [hSame]
    decide
  have hStuck : crowdedWalk.1 = .error (.saturated 5) := by
    cbv
  have hLength : crowdedWalk.2.1.length = 3 := by
    cbv
  have hSaturated :=
    @walk_saturated crowdedTapeVenue "X"
      { Settings.standard with pageSize := 3 } ⟨0, 10⟩ hWorks hSeqs
      rfl (by rw [hSame]; decide) 0
  have hSome :
      TimeWindow.Crowded ⟨0, 10⟩ (crowdedTapeVenue.tape "X") 3 5 := by
    rw [hSame]
    exact ⟨by decide, by decide⟩
  rcases hSaturated.2.1 ⟨5, hSome⟩ with ⟨ms, hGreatest, hEnd⟩
  have hBoth : Except.error (.saturated ms) = crowdedWalk.1 :=
    hEnd.symm
  rw [hStuck] at hBoth
  cases hBoth
  exact ⟨hWorks, hSeqs, hStuck, hLength, hGreatest⟩

end TapeVenue

end TradeTape
