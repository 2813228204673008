import TradeTape.Proofs.Walk.Exactness
import TradeTape.Proofs.Walk.Steps

/-
  Walks with pages to spare.

  A walk that may ask more often than its tape has trades, and
  whose pages hold more trades than share an instant, never
  fails.  Each page takes a trade out of the range that is
  left, so the trades that are left and the requests made are
  never more than the trades of the tape.

  Key statements include:
    * `Walk.Spares`
    * `Walk.spares_start`
    * `Walk.Spares.next`
    * `Walk.Spares.receive`
-/

namespace TradeTape

open Trade

/- A part that leaves out a trade holds fewer of a tape. -/
theorem Window.length_inside_lt
    {wide narrow : Window}
    {tape : List Trade}
    (hPart : ∀ t, narrow.Holds t → wide.Holds t)
    {t : Trade}
    (ht : t ∈ wide.inside tape)
    (hOut : ¬narrow.Holds t) :
    (narrow.inside tape).length < (wide.inside tape).length := by
  have hInside :
      narrow.inside tape =
        (wide.inside tape).filter fun t => narrow.Holds t := by
    unfold inside
    rw [List.filter_filter]
    apply List.filter_congr
    intro u _
    by_cases hHolds : narrow.Holds u
    · simp [hHolds, hPart u hHolds]
    · simp [hHolds]
  rw [hInside]
  apply List.length_filter_lt_length_iff_exists.mpr
  exact ⟨t, ht, by simp [hOut]⟩

namespace Walk

/-
  A walk over a tape with pages to spare: each request so far
  has taken a trade out of the range that is left.
-/
structure Spares
    (tape : List Trade)
    (w : Walk) : Prop where
  tracks : w.Tracks tape
  untied :
    ∀ v,
      w.whole = .time v →
        ∀ ms,
          tape.countP (fun t => t.timestamp = ms)
            < w.rules.pageSize
  ceiling : tape.length < w.rules.maxPages
  spared : w.requests + (w.asked.inside tape).length ≤ tape.length

theorem spares_start
    {tape : List Trade}
    {rules : WalkRules}
    {instrument : String}
    {window : Window}
    (hTracks : (Walk.start rules instrument window).Tracks tape)
    (hUntied :
      ∀ v,
        window = .time v →
          ∀ ms,
            tape.countP (fun t => t.timestamp = ms)
              < rules.pageSize)
    (hCeiling : tape.length < rules.maxPages) :
    (Walk.start rules instrument window).Spares tape :=
  { tracks := hTracks
    untied := hUntied
    ceiling := hCeiling
    spared := by
      change 0 + (window.inside tape).length ≤ tape.length
      rw [Nat.zero_add]
      exact List.length_filter_le _ tape }

namespace Spares

variable {tape : List Trade} {w : Walk} {page : List Trade}

/- A full page of instants is not of one instant only. -/
theorem exists_timestamp_ne
    (h : w.Spares tape)
    {v : TimeWindow}
    (hWhole : w.whole = .time v)
    (hPage : Answers tape w.asked w.rules.pageSize page)
    (hFull : w.Full page)
    (ms : Int) :
    ∃ t ∈ page, t.timestamp ≠ ms := by
  by_contra hSame
  push Not at hSame
  have hCount := hPage.length_le_count hSame
  have hFew := h.untied v hWhole ms
  unfold Full at hFull
  omega

/-
  A page makes no such walk fail, and the range that is left
  after it holds fewer trades.
-/
theorem next
    (h : w.Spares tape)
    (hPage : Answers tape w.asked w.rules.pageSize page) :
    match w.next page with
    | .error _ => False
    | .ok none => True
    | .ok (some left) =>
        (left.inside tape).length < (w.asked.inside tape).length := by
  have hRemains := h.tracks.remains
  have hMember (t : Trade) (ht : t ∈ page) :
      t ∈ w.asked.inside tape :=
    Window.mem_inside.mpr (hPage.within t ht)
  have hHolds (t : Trade) (ht : t ∈ page) : w.asked.Holds t :=
    (hPage.within t ht).2
  unfold Walk.next
  cases hWhole : w.whole with
  | time whole =>
      have hOther := h.exists_timestamp_ne hWhole hPage
      cases hAsked : w.asked with
      | seq asked =>
          rw [hWhole, hAsked] at hRemains
          exact hRemains.elim
      | time asked =>
          rw [hWhole, hAsked] at hRemains
          rw [hAsked] at hMember hHolds
          simp only
          cases hNext : w.nextTime whole asked page with
          | error f =>
              rcases nextTime_eq_error hNext with
                ⟨oldest, hLeast, hFull, hLate⟩
              rcases hOther hFull asked.endMs with ⟨t, ht, hNe⟩
              have hOldest :=
                (least?_eq_some hLeast).2 t.timestamp
                  (List.mem_map_of_mem ht)
              have hEnd := (hHolds t ht).2
              omega
          | ok after =>
              cases after with
              | none => trivial
              | some left =>
                  rcases nextTime_eq_some hNext with
                    ⟨oldest, endMs, hLeast, hFull, hLow, hEnd, _, rfl⟩
                  have hInclusive : w.rules.boundary = .inclusive := by
                    apply h.tracks.strict.resolve_right
                    rintro ⟨v, hSeq⟩
                    rw [hWhole] at hSeq
                    cases hSeq
                  simp only [hInclusive] at hEnd
                  rcases hEnd with ⟨_, rfl⟩
                  rcases hOther hFull endMs with ⟨t, ht, hNe⟩
                  have hOldest :=
                    (least?_eq_some hLeast).2 t.timestamp
                      (List.mem_map_of_mem ht)
                  apply Window.length_inside_lt ?_ (hMember t ht) ?_
                  · rintro u ⟨hStart, hUntil⟩
                    refine ⟨hRemains.1 ▸ hStart, ?_⟩
                    exact Int.le_trans hUntil hLow
                  · rintro ⟨_, hUntil⟩
                    change t.timestamp ≤ endMs at hUntil
                    omega
  | seq whole =>
      cases hAsked : w.asked with
      | time asked =>
          rw [hWhole, hAsked] at hRemains
          exact hRemains.elim
      | seq asked =>
          rw [hWhole, hAsked] at hRemains
          rw [hAsked] at hMember hHolds
          simp only
          cases hNext : w.nextSeq whole asked page with
          | error f =>
              rcases nextSeq_eq_error hNext with
                ⟨newest, hGreatest, hEarly⟩
              rcases List.mem_map.mp (greatest?_eq_some hGreatest).1
                with ⟨t, ht, rfl⟩
              have hStart := (hHolds t ht).1
              omega
          | ok after =>
              cases after with
              | none => trivial
              | some left =>
                  rcases nextSeq_eq_some hNext with
                    ⟨newest, hGreatest, _, hLow, _, rfl⟩
                  rcases List.mem_map.mp
                    (greatest?_eq_some hGreatest).1 with
                    ⟨t, ht, rfl⟩
                  apply Window.length_inside_lt ?_ (hMember t ht) ?_
                  · rintro u ⟨hStart, hUntil⟩
                    change t.seq + 1 ≤ u.seq at hStart
                    change u.seq ≤ whole.endSeq at hUntil
                    constructor
                    · omega
                    · rw [hRemains.2]
                      exact hUntil
                  · rintro ⟨hStart, _⟩
                    change t.seq + 1 ≤ t.seq at hStart
                    omega

/-
  A page that answers the query of such a walk leaves it with
  pages to spare, or ends it with all trades of its window.
-/
theorem receive
    (h : w.Spares tape)
    (hSeqs : SeqsDiffer tape)
    (hPage : Answers tape w.asked w.rules.pageSize page) :
    match w.receive page with
    | .asks w' => w'.Spares tape
    | .ends r =>
        ∃ haul, r = .ok haul ∧ Exact tape w.whole haul.trades := by
  have hReceive := h.tracks.receive hSeqs hPage
  have hNext := h.next hPage
  have hSpared := h.spared
  have hCeiling := h.ceiling
  cases hResult : w.receive page with
  | asks w' =>
      rw [hResult] at hReceive
      rcases receive_eq_asks hResult with ⟨left, hLeft, _, rfl⟩
      rw [hLeft] at hNext
      simp only at hNext
      exact
        { tracks := hReceive.1
          untied := h.untied
          ceiling := hCeiling
          spared := by
            simp only
            omega }
  | ends r =>
      rw [hResult] at hReceive
      cases r with
      | ok haul => exact ⟨haul, rfl, hReceive.2⟩
      | error f =>
          exfalso
          rcases receive_eq_error hResult with
            hFault | ⟨left, hLeft, hLast, _⟩
          · rw [hFault] at hNext
            exact hNext
          · rw [hLeft] at hNext
            simp only at hNext
            omega

end Spares

end Walk

end TradeTape
