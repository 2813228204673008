import TradeTape.Proofs.Run.Alone
import TradeTape.Proofs.Run.NoLoss
import TradeTape.Proofs.Walk.Ample

/-
  Runs over instants and runs over numbers agree.

  Where a venue answers all that is asked under a name and
  pages are to spare, a run that keeps an instrument as a
  whole hands over its tape in the planned range, all of it.
  That is so for windows of instants and for windows of
  numbers, and for a tape that is numbered as its trades take
  place both ranges hold the same trades.

  Key statements include:
    * `TapeVenue.Serves`
    * `TapeVenue.served`
    * `TapeVenue.results_of_served`
    * `TapeVenue.handed_of_served`
    * `NumberedInTurn.holds_plannedRange_iff`
    * `Run.resultsOf_done`
    * `Run.paginations_agree`
-/

namespace TradeTape

open Trade

------------------------------------------------------------
-- Venues that serve a name
------------------------------------------------------------

/-
  Pages that cannot be of one instant only: numbers are walked
  over, or a page holds more trades than share an instant, and
  the next one includes the instant at which it was cut.
-/
def Settings.Untied
    (s : Settings)
    (tape : List Trade) : Prop :=
  match s.pagination with
  | .sequence => True
  | .time =>
      s.boundary = .inclusive
        ∧ ∀ t ∈ tape,
          tape.countP (fun u => u.timestamp = t.timestamp)
            < s.pageSize

namespace TapeVenue

/-
  A venue that answers all that a run asks under a name, with
  pages to spare: there are more of them than trades, and none
  of them is of one instant only.
-/
structure Serves
    (v : TapeVenue)
    (s : Settings)
    (name : String) : Prop where
  working : v.failingInstruments.lookup name = none
  unbroken : ∀ r ∈ v.failingRanges, r.instrument ≠ name
  seqs : SeqsDiffer (v.tape name)
  ceiling : (v.tape name).length < s.maxPages
  untied : s.Untied (v.tape name)

namespace Serves

variable {v : TapeVenue} {s : Settings} {name : String}

/- Queries under the name are answered from its tape. -/
theorem answers
    (h : v.Serves s name)
    {q : PageQuery}
    (hName : q.instrument = name) :
    ∃ page,
      v.page q = .ok page
        ∧ Answers (v.tape name) q.window q.count page := by
  have hWorks : v.Works q.instrument := by
    rw [hName]
    exact ⟨h.working, h.unbroken⟩
  refine ⟨_, hWorks.page_eq, ?_⟩
  rw [← hName]
  exact answers_page (hName ▸ h.seqs) hWorks.page_eq

/- The number that is looked up is the last one of the tape. -/
theorem latest_eq
    (h : v.Serves s name)
    (endMs : Int) :
    v.latest name endMs = .ok (lastSeq (v.tape name) endMs) := by
  unfold latest
  rw [h.working]
  rfl

/- Walks over planned windows start with pages to spare. -/
theorem spares_start
    (h : v.Serves s name)
    {w : Window}
    (hPlans : s.pagination.Plans w) :
    (Walk.start (WalkRules.ofSettings s) name w).Spares
      (v.tape name) := by
  have hUntied := h.untied
  unfold Settings.Untied at hUntied
  apply Walk.spares_start
  · apply Walk.tracks_of_strict
    cases hPagination : s.pagination with
    | sequence =>
        rcases hPlans.eq_seq hPagination with ⟨range, hRange⟩
        exact Or.inr ⟨range, hRange⟩
    | time =>
        rw [hPagination] at hUntied
        exact Or.inl hUntied.1
  · rintro range rfl ms
    rw [hPlans.eq_time] at hUntied
    change _ < max s.pageSize 1
    by_cases hSome : ∃ t ∈ v.tape name, t.timestamp = ms
    · rcases hSome with ⟨t, ht, rfl⟩
      have hFew := hUntied.2 t ht
      omega
    · have hZero :
          (v.tape name).countP (fun t => t.timestamp = ms) = 0 := by
        apply List.countP_eq_zero.mpr
        intro t ht hSame
        exact hSome ⟨t, ht, of_decide_eq_true hSame⟩
      omega
  · have hCeiling := h.ceiling
    change _ < max s.maxPages 1
    omega

/- An answer leaves pages to spare, or ends with all trades. -/
theorem spares_answer
    (h : v.Serves s name)
    {w : Walk}
    (hName : w.instrument = name)
    (hSpares : w.Spares (v.tape name)) :
    match w.answer (v.page w.query) with
    | .asks w' => w'.Spares (v.tape name)
    | .ends r =>
        ∃ haul,
          r = .ok haul
            ∧ Exact (v.tape name) w.whole haul.trades := by
  rcases h.answers (q := w.query) hName with
    ⟨page, hPage, hAnswers⟩
  rw [hPage]
  exact hSpares.receive h.seqs hAnswers

end Serves

variable {κ : Type}

/-
  Without a deadline and a cancellation, walks over planned
  windows of a name that is served end with all their trades.
-/
def served
    (v : TapeVenue)
    (s : Settings)
    (name : String)
    (hServes : v.Serves s name)
    (hTimeout : s.taskTimeoutMs = none)
    (reference : Option Int)
    (sink : Sink κ) :
    Prospect (v.office s reference sink) False :=
  { OnWay := fun w =>
      w.instrument = name →
      s.pagination.Plans w.whole →
        w.Spares (v.tape name)
    Ends := fun other w r =>
      other = name →
      s.pagination.Plans w →
        ∃ haul, r = .ok haul ∧ Exact (v.tape name) w haul.trades
    Found := fun other endMs r =>
      other = name → r = .ok (lastSeq (v.tape name) endMs)
    Holds := fun _ => True
    Answered := fun _ _ => True
    starts := by
      rintro other w rfl hPlans
      exact hServes.spares_start hPlans
    goesOn := by
      intro n w w' hOnWay hAsks hName hPlans
      change w.answer (v.page w.query) = .asks w' at hAsks
      rcases Walk.asks_of_answer hAsks with ⟨hSame, hWhole, _⟩
      rw [hSame] at hName
      rw [hWhole] at hPlans
      have hStep :=
        hServes.spares_answer hName (hOnWay hName hPlans)
      rw [hAsks] at hStep
      exact hStep
    ends := by
      intro n w r hOnWay hEnds hName hPlans
      change w.answer (v.page w.query) = .ends r at hEnds
      have hStep :=
        hServes.spares_answer hName (hOnWay hName hPlans)
      rw [hEnds] at hStep
      exact hStep
    finds := by
      rintro n other endMs rfl
      exact hServes.latest_eq endMs
    canceled := False.elim
    lookupCanceled := False.elim
    overdue := by
      intro ms hSome
      change s.taskTimeoutMs = some ms at hSome
      rw [hTimeout] at hSome
      cases hSome
    keeps := fun _ _ _ => ⟨trivial, trivial⟩ }

------------------------------------------------------------
-- Files of a name that is served
------------------------------------------------------------

/- The trades of an instrument in the range that is planned. -/
def inRange
    (v : TapeVenue)
    (s : Settings)
    (reference : Option Int)
    (i : Instrument) : List Trade :=
  (v.tape i.name).filter fun t =>
    (plannedRange s reference (v.tape i.name) i).any fun w =>
      w.Holds t

section Files

variable {v : TapeVenue} {s : Settings} {name : String}
variable {hServes : v.Serves s name}
variable {hTimeout : s.taskTimeoutMs = none}
variable {reference : Option Int} {sink : Sink κ}

/- A file of the name is that of a plan. -/
theorem fetched_of_served
    {f : File κ}
    (h :
      (v.served s name hServes hTimeout reference sink).FileOk f)
    (hName : f.desk.instrument.name = name) :
    ∃ windows,
      (v.served s name hServes hTimeout reference sink).Fetched
        f.desk windows := by
  rcases h.shape with ⟨range, fault, _, _, hFound, _⟩ | hFetched
  · cases hFound hName
  · exact hFetched

/- All walks of such a file have ended with all their trades. -/
theorem exact_of_served
    {d : Desk}
    {windows : List Window}
    (hFetched :
      (v.served s name hServes hTimeout reference sink).Fetched d
        windows)
    (hName : d.instrument.name = name)
    {out : Outcome}
    (hOut : out ∈ d.outcomes) :
    ∃ haul,
      out.walked = .ok haul
        ∧ Exact (v.tape name) out.window haul.trades := by
  apply (hFetched.outcomes out hOut).ends hName
  apply hFetched.planned.plans
  apply hFetched.share.mem_iff.mp
  exact List.mem_map_of_mem hOut

theorem gaps_of_served
    {d : Desk}
    {windows : List Window}
    (hFetched :
      (v.served s name hServes hTimeout reference sink).Fetched d
        windows)
    (hName : d.instrument.name = name) :
    Outcome.gaps name d.ordered = [] := by
  apply List.eq_nil_iff_forall_not_mem.mpr
  intro g hGap
  rcases Outcome.mem_gaps.mp hGap with ⟨out, hOut, f, hFailed, _⟩
  rcases
    exact_of_served hFetched hName
      (d.ordered_perm.mem_iff.mp hOut) with
    ⟨haul, hWalked, _⟩
  rw [hFailed] at hWalked
  cases hWalked

theorem exhausts_of_served
    {d : Desk}
    {windows : List Window}
    (hFetched :
      (v.served s name hServes hTimeout reference sink).Fetched d
        windows)
    (hName : d.instrument.name = name) :
    Exhausts (v.tape name)
      (plannedRange s reference (v.tape name) d.instrument)
      d.ordered := by
  refine Exhausts.perm ?_ d.ordered_perm
  refine
    { tiles := ⟨windows, ?_, hFetched.share⟩
      exact := ?_ }
  · rw [← hName]
    apply hFetched.planned.tiles_plannedRange
    intro endMs latest hFound
    rw [hName]
    exact Except.ok.inj (hFound hName)
  · intro out hOut haul hWalked
    rcases exact_of_served hFetched hName hOut with
      ⟨haul', hWalked', hExact⟩
    rw [hWalked] at hWalked'
    rw [Except.ok.inj hWalked']
    exact hExact

/- What a file of the name says was handed over. -/
theorem results_of_served
    (hWhole : s.partitioning = .perInstrument)
    {f : File κ}
    (h :
      (v.served s name hServes hTimeout reference sink).FileOk f)
    (hName : f.desk.instrument.name = name) :
    f.results (v.office s reference sink)
      = [⟨f.desk.instrument, none,
          v.inRange s reference f.desk.instrument⟩] := by
  rcases fetched_of_served h hName with ⟨windows, hFetched⟩
  have hGaps := gaps_of_served hFetched hName
  have hLossless :=
    lossless_whole hWhole hServes.seqs (d := f.desk)
      (exhausts_of_served hFetched hName)
  have hResults :
      f.results (v.office s reference sink)
        = [f.desk.wholeResult f.desk.ordered] := by
    rw [hFetched.results_eq hWhole, if_neg]
    rintro ⟨hSome, hNone⟩
    have hCount := Outcome.length_hauls_add_gaps name f.desk.ordered
    rw [hNone, hGaps, ← List.length_map Outcome.window,
      hFetched.windows_ordered] at hCount
    exact hSome (List.eq_nil_of_length_eq_zero hCount.symm)
  have hTrades :
      (f.desk.wholeResult f.desk.ordered).trades
        = v.inRange s reference f.desk.instrument := by
    have hTape : InOrder (v.tape name) :=
      inOrder_of_sorted (v.pairwise_tape name) hServes.seqs
    unfold inRange
    rw [hName]
    refine InOrder.ext ?_ (hTape.filter _) ?_
    · exact hLossless.inOrder _ (List.mem_singleton_self _)
    · intro t
      have hMem := hLossless.mem_iff t
      rw [List.flatMap_singleton, hName, hGaps] at hMem
      rw [hMem, List.mem_filter, Option.any_eq_true]
      simp
  rw [hResults, ← hTrades]
  rfl

end Files

end TapeVenue

------------------------------------------------------------
-- Runs over a name that is served
------------------------------------------------------------

namespace Prospect

/- The results of an instrument. -/
def resultsOf
    (i : Instrument)
    (results : List Result) : List Result :=
  results.filter fun result => result.instrument = i

variable {σ κ : Type} {o : Office σ κ} {cancels : Prop}
variable {p : Prospect o cancels}
variable {files : List (File κ)} {i : Instrument} {result : Result}

/- Files that say one thing say it once for each of them. -/
theorem resultsOf_files
    (hFiles :
      ∀ f ∈ files,
        f.desk.instrument = i → f.results o = [result]) :
    resultsOf i (files.flatMap (File.results o))
      = List.replicate
          ((files.map fun f => f.desk.instrument).count i)
          result := by
  induction files with
  | nil => rfl
  | cons f rest ih =>
      have hRest :=
        ih fun g hg => hFiles g (List.mem_cons_of_mem f hg)
      have hOwn (given : Result) (hGiven : given ∈ f.results o) :
          given.instrument = f.desk.instrument :=
        instrument_fileResults hGiven
      unfold resultsOf at hRest ⊢
      rw [List.flatMap_cons, List.filter_append, hRest,
        List.map_cons]
      by_cases hSame : f.desk.instrument = i
      · have hResults := hFiles f List.mem_cons_self hSame
        have hInstrument : result.instrument = i := by
          rw [hOwn result (by simp [hResults]), hSame]
        rw [hResults, hSame, List.count_cons_self,
          List.replicate_succ]
        simp [hInstrument]
      · rw [List.count_cons_of_ne hSame, List.filter_eq_nil_iff.mpr]
        · rfl
        · intro given hGiven hIs
          apply hSame
          rw [← hOwn given hGiven]
          exact of_decide_eq_true hIs

theorem RunOk.resultsOf_eq
    {instruments : List Instrument}
    {r : Run σ κ}
    (h : p.RunOk instruments r files)
    (hDone : r.Done)
    (hFiles :
      ∀ f ∈ files,
        f.desk.instrument = i → f.results o = [result]) :
    resultsOf i r.depot.handed
      = List.replicate (instruments.count i) result := by
  rcases h.files_of_done hDone with ⟨hRoster, hHanded⟩
  have hPerm :
      (resultsOf i r.depot.handed).Perm
        (resultsOf i (files.flatMap (File.results o))) :=
    hHanded.filter _
  rw [resultsOf_files hFiles, hRoster.count_eq i] at hPerm
  exact List.perm_replicate.mp hPerm

end Prospect

/-
  A run that is done, whatever the order of its moves, has
  handed over all of the planned range of an instrument that
  is served, each time that the instrument is listed.
-/
theorem TapeVenue.handed_of_served
    {κ : Type}
    {v : TapeVenue}
    {s : Settings}
    (hValid : s.Valid)
    (hWhole : s.partitioning = .perInstrument)
    (hTimeout : s.taskTimeoutMs = none)
    {i : Instrument}
    (hServes : v.Serves s i.name)
    {reference : Option Int}
    {sink : Sink κ}
    {kept : κ}
    {instruments : List Instrument}
    {r : Run Nat κ}
    (hReached :
      let o := v.office s reference sink
      Run.Reaches o (Run.start o 0 kept none instruments) r)
    (hDone : r.Done) :
    Prospect.resultsOf i r.depot.handed
      = List.replicate (instruments.count i)
          ⟨i, none, v.inRange s reference i⟩ := by
  let p := v.served s i.name hServes hTimeout reference sink
  rcases
    p.runOk_of_reaches hValid.limits.1 (fun h => absurd rfl h)
      trivial hReached with
    ⟨files, hRun⟩
  apply hRun.resultsOf_eq hDone
  rintro f hFile rfl
  exact results_of_served hWhole (hRun.filed f hFile) rfl

------------------------------------------------------------
-- Tapes that are numbered in turn
------------------------------------------------------------

/-
  A tape that is numbered from one on as its trades take
  place, none of them before its instrument was listed.
-/
structure NumberedInTurn
    (tape : List Trade)
    (i : Instrument) : Prop where
  seqs : SeqsDiffer tape
  positive : ∀ t ∈ tape, 1 ≤ t.seq
  inTurn :
    ∀ t ∈ tape, ∀ u ∈ tape,
      t.seq < u.seq → t.timestamp ≤ u.timestamp
  listed : ∀ t ∈ tape, i.creationMs ≤ t.timestamp

namespace NumberedInTurn

variable {tape : List Trade} {i : Instrument} {t : Trade}

/- The numbers up to the last one are those up to its instant. -/
theorem holds_seqRange_iff
    (h : NumberedInTurn tape i)
    (ht : t ∈ tape)
    (endMs : Int) :
    (∃ w ∈ Desk.seqRange (lastSeq tape endMs), w.Holds t) ↔
      t.timestamp ≤ endMs := by
  unfold lastSeq
  cases hLast :
      greatest?
        ((tape.filter fun t => t.timestamp ≤ endMs).map
          Trade.seq) with
  | none =>
      have hNone := List.map_eq_nil_iff.mp (greatest?_eq_none hLast)
      have hLate := List.filter_eq_nil_iff.mp hNone t ht
      simp only [decide_eq_true_eq] at hLate
      simp [Desk.seqRange, hLate]
  | some n =>
      rcases greatest?_eq_some hLast with ⟨hIn, hMost⟩
      rcases List.mem_map.mp hIn with ⟨u, hu, rfl⟩
      rcases List.mem_filter.mp hu with ⟨huTape, huEnd⟩
      have hFirst := h.positive u huTape
      have hRange :
          Desk.seqRange (some u.seq) = some (.seq ⟨1, u.seq⟩) := by
        unfold Desk.seqRange SeqWindow.make?
        simp [hFirst]
      rw [hRange]
      simp only [Option.mem_some_iff, exists_eq_left']
      constructor
      · rintro ⟨_, hUntil⟩
        have hEnd : u.timestamp ≤ endMs := of_decide_eq_true huEnd
        rcases Int.lt_or_eq_of_le hUntil with hLt | hEq
        · exact Int.le_trans (h.inTurn t ht u huTape hLt) hEnd
        · rw [h.seqs.eq_of_seq_eq ht huTape hEq]
          exact hEnd
      · intro hEnd
        refine ⟨h.positive t ht, ?_⟩
        apply hMost
        apply List.mem_map_of_mem
        exact List.mem_filter.mpr ⟨ht, decide_eq_true hEnd⟩

/- Both planned ranges hold the trades up to the last instant. -/
theorem holds_plannedRange_iff
    (h : NumberedInTurn tape i)
    (ht : t ∈ tape)
    (s : Settings)
    (reference : Option Int) :
    (∃ w ∈ plannedRange s reference tape i, w.Holds t) ↔
      t.timestamp ≤ Instrument.cutOff reference i.expirationMs := by
  have hListed := h.listed t ht
  unfold plannedRange Instrument.validRange TimeWindow.make?
  by_cases hOrder :
      i.creationMs ≤ Instrument.cutOff reference i.expirationMs
  · rw [if_pos hOrder]
    cases s.pagination with
    | time =>
        simp only [Option.mem_some_iff, exists_eq_left']
        exact and_iff_right hListed
    | sequence => exact h.holds_seqRange_iff ht _
  · rw [if_neg hOrder]
    simp only [Option.not_mem_none, false_and, exists_false,
      false_iff]
    omega

end NumberedInTurn

theorem TapeVenue.inRange_eq
    {v : TapeVenue}
    {i : Instrument}
    (h : NumberedInTurn (v.tape i.name) i)
    (s : Settings)
    (reference : Option Int) :
    v.inRange s reference i
      = (v.tape i.name).filter fun t =>
          t.timestamp
            ≤ Instrument.cutOff reference i.expirationMs := by
  unfold inRange
  apply List.filter_congr
  intro t ht
  have hHolds := h.holds_plannedRange_iff ht s reference
  rw [Bool.eq_iff_iff, Option.any_eq_true]
  simpa using hHolds

------------------------------------------------------------
-- Both kinds of runs
------------------------------------------------------------

/-
  What a run that is done has handed over for an instrument
  that is served and numbered in turn: its tape up to its last
  instant, each time that it is listed.
-/
theorem Run.resultsOf_done
    {κ : Type}
    {v : TapeVenue}
    {s : Settings}
    (hValid : s.Valid)
    (hWhole : s.partitioning = .perInstrument)
    (hTimeout : s.taskTimeoutMs = none)
    {i : Instrument}
    (hServes : v.Serves s i.name)
    (hTape : NumberedInTurn (v.tape i.name) i)
    {reference : Option Int}
    {sink : Sink κ}
    {kept : κ}
    {instruments : List Instrument}
    {r : Run Nat κ}
    (hReached :
      let o := v.office s reference sink
      Run.Reaches o (Run.start o 0 kept none instruments) r)
    (hDone : r.Done) :
    Prospect.resultsOf i r.depot.handed
      = List.replicate (instruments.count i)
          ⟨i, none,
            (v.tape i.name).filter fun t =>
              t.timestamp
                ≤ Instrument.cutOff reference i.expirationMs⟩ := by
  rw [← TapeVenue.inRange_eq hTape s reference]
  exact
    TapeVenue.handed_of_served hValid hWhole hTimeout hServes
      hReached hDone

/-
  A run over instants and a run over numbers hand over the
  same results for an instrument that never fails and whose
  tape is numbered in turn, whatever the order of the moves of
  either.  Pages are to spare in both runs, and there is
  neither a deadline nor a cancellation.  Both come to an end.
-/
theorem Run.paginations_agree
    {κ : Type}
    {v : TapeVenue}
    {i : Instrument}
    (hWorking : v.failingInstruments.lookup i.name = none)
    (hUnbroken : ∀ r ∈ v.failingRanges, r.instrument ≠ i.name)
    (hTape : NumberedInTurn (v.tape i.name) i)
    {s t : Settings}
    (hValid : s.Valid ∧ t.Valid)
    (hTime : s.pagination = .time ∧ s.boundary = .inclusive)
    (hSequence : t.pagination = .sequence)
    (hWhole :
      s.partitioning = .perInstrument
        ∧ t.partitioning = .perInstrument)
    (hTimeout : s.taskTimeoutMs = none ∧ t.taskTimeoutMs = none)
    (hCeiling :
      (v.tape i.name).length < s.maxPages
        ∧ (v.tape i.name).length < t.maxPages)
    (hUntied :
      ∀ u ∈ v.tape i.name,
        (v.tape i.name).countP
            (fun w => w.timestamp = u.timestamp)
          < s.pageSize)
    (reference : Option Int)
    (sink : Sink κ)
    (kept : κ)
    (instruments : List Instrument) :
    let office (s : Settings) := v.office s reference sink
    let first (s : Settings) :=
      Run.start (office s) 0 kept none instruments
    let results (r : Run Nat κ) :=
      Prospect.resultsOf i r.depot.handed
    (∀ s, s.Valid →
        Run.Reaches (office s) (first s)
            (Run.toEnd (office s) (first s))
          ∧ (Run.toEnd (office s) (first s)).Done)
      ∧ ∀ r r',
        Run.Reaches (office s) (first s) r →
          r.Done →
            Run.Reaches (office t) (first t) r' →
              r'.Done →
                results r = results r'
                  ∧ results r =
                    List.replicate (instruments.count i)
                      ⟨i, none,
                        (v.tape i.name).filter fun u =>
                          u.timestamp
                            ≤ Instrument.cutOff reference
                              i.expirationMs⟩ := by
  intro office first results
  refine
    ⟨fun _ hValid =>
        Run.ends_toEnd hValid 0 kept none instruments,
      ?_⟩
  intro r r' hReached hDone hReached' hDone'
  have hServes : v.Serves s i.name := by
    refine ⟨hWorking, hUnbroken, hTape.seqs, hCeiling.1, ?_⟩
    unfold Settings.Untied
    rw [hTime.1]
    exact ⟨hTime.2, hUntied⟩
  have hServes' : v.Serves t i.name := by
    refine ⟨hWorking, hUnbroken, hTape.seqs, hCeiling.2, ?_⟩
    unfold Settings.Untied
    rw [hSequence]
    trivial
  have hFirst :=
    Run.resultsOf_done hValid.1 hWhole.1 hTimeout.1 hServes hTape
      hReached hDone
  have hSecond :=
    Run.resultsOf_done hValid.2 hWhole.2 hTimeout.2 hServes' hTape
      hReached' hDone'
  exact ⟨hFirst.trans hSecond.symm, hFirst⟩

/- Five trades, two of them at one instant, the last too late. -/
def turnTape : List Trade :=
  [Trade.synthetic "BTC" 1 5, Trade.synthetic "BTC" 2 5,
    Trade.synthetic "BTC" 3 7, Trade.synthetic "BTC" 5 12,
    Trade.synthetic "BTC" 6 30]

/- A venue with these trades, at which another name fails. -/
def turnVenue : TapeVenue :=
  { tapes := [("BTC", turnTape)]
    failingInstruments := [("ETH", .timeout "busy")]
    failingRanges := []
    latency := Latency.make? 3 4 }

/- Pages of three trades, and windows of ten milliseconds. -/
def turnSettings (pagination : Pagination) : Settings :=
  { Settings.standard with
    pageSize := 3
    chunkMs := some 10
    pagination := pagination
    taskTimeoutMs := none }

/- Both runs hand over the first four of these trades. -/
theorem Run.paginations_agree_of_turns :
    let i : Instrument := ⟨"BTC", .future, 0, 19⟩
    let results (pagination : Pagination) :=
      let o :=
        turnVenue.office (turnSettings pagination) none Shelf.sink
      let r :=
        Run.toEnd o
          (Run.start o 0 (Shelf.make none) none
            [⟨"ETH", .future, 0, 19⟩, i])
      Prospect.resultsOf i r.depot.handed
    results .time = results .sequence
      ∧ (results .time).map (fun r => r.trades.map Trade.seq)
        = [[1, 2, 3, 5]] := by
  intro i results
  have hSame : turnVenue.tape i.name = turnTape :=
    List.mergeSort_of_pairwise (by decide)
  have hTape : NumberedInTurn turnTape i :=
    ⟨by decide, by decide, by decide, by decide⟩
  have hAgree :=
    @Run.paginations_agree Shelf turnVenue i rfl
      (by decide) (hSame ▸ hTape) (turnSettings .time)
      (turnSettings .sequence) (by decide) (by decide) rfl
      (by decide) (by decide) (by rw [hSame]; decide)
      (by rw [hSame]; decide) none Shelf.sink (Shelf.make none)
      [⟨"ETH", .future, 0, 19⟩, i]
  rw [hSame] at hAgree
  rcases hAgree with ⟨hEnds, hAgree⟩
  rcases hEnds (turnSettings .time) (by decide) with
    ⟨hReached, hDone⟩
  rcases hEnds (turnSettings .sequence) (by decide) with
    ⟨hReached', hDone'⟩
  rcases hAgree _ _ hReached hDone hReached' hDone' with
    ⟨hEqual, hAll⟩
  dsimp only at hEqual hAll
  refine ⟨hEqual, ?_⟩
  have hResults :
      results .time =
        List.replicate 1
          ⟨i, none,
            turnTape.filter fun u =>
              u.timestamp ≤ Instrument.cutOff none 19⟩ :=
    hAll
  rw [hResults]
  decide

end TradeTape
