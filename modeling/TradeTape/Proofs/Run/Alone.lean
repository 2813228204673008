import TradeTape.Proofs.Merge.Canonical
import TradeTape.Proofs.Run.Closing

/-
  An instrument that is worked off alone.

  Its plan is made, its windows are walked one after the
  other, each to its end, and its desk is closed.  Whatever a
  prospect says of the walks of a run it says of these too.
  Where it leaves no choice, the report of an instrument in a
  run is the one that is written when it is alone.

  Key statements include:
    * `Office.alone`
    * `Prospect.fileOk_alone`
    * `Prospect.Determined`
    * `Prospect.Determined.file_unique`
-/

namespace TradeTape

------------------------------------------------------------
-- One window after another
------------------------------------------------------------

/- A desk that has the venue and the sink to itself. -/
structure Alone (σ κ : Type) where
  desk : Desk
  depot : Depot κ
  venue : σ

namespace Office

variable {σ κ : Type}

/- The next window of a desk, walked to its end. -/
def walkNext
    (o : Office σ κ)
    (a : Alone σ κ)
    (w : Window)
    (rest : List Window) : Alone σ κ :=
  let d : Desk := { a.desk with pending := rest }
  let walk :=
    Walk.start (WalkRules.ofSettings o.settings) d.instrument.name w
  let (walked, _, venue) := o.venue.walk a.venue walk
  let (d, depot) := d.takeHaul o.settings o.sink a.depot w walked
  { desk := d, depot := depot, venue := venue }

/- Windows of a desk, walked one after the other. -/
def walkAll
    (o : Office σ κ) : List Window → Alone σ κ → Alone σ κ
  | [], a => a
  | w :: rest, a => walkAll o rest (o.walkNext a w rest)

/- The desk with its plan, after the look-up if it needs one. -/
def planAlone
    (o : Office σ κ)
    (venue : σ)
    (d : Desk) : Desk × σ :=
  match d.plan o.settings o.reference with
  | (d, none) => (d, venue)
  | (d, some endMs) =>
      let (reply, venue) :=
        o.venue.latest venue d.instrument.name endMs
      (d.afterLookup o.settings reply.result, venue)

/- The desk of an instrument by itself, when all is fetched. -/
def aloneFile
    (o : Office σ κ)
    (venue : σ)
    (depot : Depot κ)
    (i : Instrument) : File κ :=
  let (d, venue) := o.planAlone venue (Desk.start 0 i)
  let a :=
    o.walkAll d.pending { desk := d, depot := depot, venue := venue }
  { desk := a.desk, depot := a.depot }

/- The report of an instrument by itself, and what is kept. -/
def alone
    (o : Office σ κ)
    (venue : σ)
    (depot : Depot κ)
    (i : Instrument) : Report × Depot κ :=
  let f := o.aloneFile venue depot i
  f.desk.close o.settings o.sink f.depot

end Office

/- Planning does not change the instrument of a desk. -/
theorem Desk.instrument_plan
    (s : Settings)
    (reference : Option Int)
    (d : Desk) :
    (d.plan s reference).1.instrument = d.instrument := by
  unfold plan
  simp only
  split <;> rfl

theorem Office.instrument_planAlone
    {σ κ : Type}
    (o : Office σ κ)
    (venue : σ)
    (d : Desk) :
    (o.planAlone venue d).1.instrument = d.instrument := by
  have hPlan := Desk.instrument_plan o.settings o.reference d
  unfold planAlone
  rcases hMade : d.plan o.settings o.reference with ⟨d', ask⟩
  rw [hMade] at hPlan
  cases ask with
  | none => exact hPlan
  | some endMs =>
      refine Eq.trans ?_ hPlan
      change (d'.afterLookup o.settings
        (o.venue.latest venue d'.instrument.name
          endMs).1.result).instrument = _
      cases (o.venue.latest venue d'.instrument.name
        endMs).1.result <;> rfl

namespace Prospect

variable {σ κ : Type} {o : Office σ κ} {cancels : Prop}
variable {p : Prospect o cancels}

/- A walk that nobody interrupts ends as the prospect says. -/
theorem ends_follow
    {w : Walk}
    (hOnWay : p.OnWay w)
    (hMore : w.requests < w.rules.maxPages)
    (s : σ) :
    p.Ends w.instrument w.whole (o.venue.walk s w).1 := by
  unfold Venue.walk Walk.run
  generalize hLeft : w.allowance = left
  unfold Walk.allowance at hLeft
  induction left generalizing s w with
  | zero => omega
  | succ left ih =>
      unfold Walk.follow
      simp only
      cases hAnswer :
          w.answer (o.venue.page s w.query).1.result with
      | ends r => exact p.ends s w r hOnWay hAnswer
      | asks w' =>
          rcases Walk.asks_of_answer hAnswer with
            ⟨hInstrument, hWhole, hRules, hCount, hRoom⟩
          rw [← hInstrument, ← hWhole]
          exact
            ih (p.goesOn s w w' hOnWay hAnswer)
              (by rw [hCount, hRules]; exact hRoom) _
              (by rw [hCount, hRules]; omega)

theorem ends_walk
    (p : Prospect o cancels)
    (s : σ)
    (name : String)
    (w : Window) :
    p.Ends name w
      (o.venue.walk s
        (Walk.start (WalkRules.ofSettings o.settings) name w)).1 := by
  refine ends_follow (p.starts name w) ?_ s
  change 0 < max o.settings.maxPages 1
  omega

------------------------------------------------------------
-- Files of instruments that are alone
------------------------------------------------------------

/- Walking windows one by one leads to a desk as in a run. -/
theorem walkAll_ok
    (windows : List Window)
    {a : Alone σ κ}
    (h : p.DeskOk a.desk [])
    (hPending : a.desk.pending = windows)
    (hDepot : p.Holds a.depot) :
    let b := o.walkAll windows a
    p.DeskOk b.desk []
      ∧ p.Holds b.depot
      ∧ b.desk.pending = []
      ∧ b.desk.instrument = a.desk.instrument
      ∧ b.desk.life = a.desk.life
      ∧ ∃ more,
          b.desk.results o.settings
              = a.desk.results o.settings ++ more
            ∧ b.depot.handed = a.depot.handed ++ more := by
  induction windows generalizing a with
  | nil =>
      exact
        ⟨h, hDepot, hPending, rfl, rfl, [],
          (List.append_nil _).symm, (List.append_nil _).symm⟩
  | cons w rest ih =>
      let d : Desk := { a.desk with pending := rest }
      let walked :=
        (o.venue.walk a.venue
          (Walk.start (WalkRules.ofSettings o.settings)
            d.instrument.name w)).1
      have hEnds : p.Ends d.instrument.name w walked :=
        p.ends_walk a.venue d.instrument.name w
      rcases (h.start hPending).takeHaul (List.Perm.refl _) hEnds
          hDepot with
        ⟨hDesk, hHolds, _, hInstrument, hResults⟩
      have hHanded :=
        Desk.handed_takeHaul o.settings o.sink a.depot d w walked
      rcases
        ih (a := o.walkNext a w rest) hDesk rfl hHolds with
        ⟨hOk, hDepot', hNone, hSame, hLife, more, hMore, hGiven⟩
      refine
        ⟨hOk, hDepot', hNone, hSame.trans hInstrument, hLife, ?_⟩
      refine
        ⟨(Desk.windowResult? o.settings d.instrument w
            walked).toList ++ more, ?_, ?_⟩
      · rw [← List.append_assoc]
        exact hMore.trans (congrArg (· ++ more) hResults)
      · rw [← List.append_assoc]
        exact hGiven.trans (congrArg (· ++ more) hHanded)

theorem touched_plan
    (s : Settings)
    (reference : Option Int)
    (position : Nat)
    (i : Instrument) :
    ¬((Desk.start position i).plan s reference).1.Untouched := by
  unfold Desk.plan Desk.Untouched
  simp only
  split <;> intro hState <;> cases hState

/- A plan that is made alone is as good as one in a run. -/
theorem planAlone_ok
    (p : Prospect o cancels)
    (venue : σ)
    (i : Instrument) :
    let d := (o.planAlone venue (Desk.start 0 i)).1
    p.DeskOk d []
      ∧ d.instrument = i
      ∧ ¬d.Untouched
      ∧ d.outcomes = [] := by
  have hPlan := deskOk_plan (p := p) (d := Desk.start 0 i) rfl
  have hTouched := touched_plan o.settings o.reference 0 i
  unfold Office.planAlone
  rcases hMade :
    (Desk.start 0 i).plan o.settings o.reference with ⟨d, ask⟩
  rw [hMade] at hPlan hTouched
  cases ask with
  | none =>
      rcases hPlan with ⟨hDesk, _, hInstrument, hNone⟩
      exact ⟨hDesk, hInstrument, hTouched, hNone⟩
  | some endMs =>
      rcases hPlan with ⟨hDesk, _, hInstrument, _⟩
      have hName : d.instrument.name = i.name :=
        congrArg Instrument.name hInstrument
      have hFound := p.finds venue d.instrument.name endMs
      rw [hName] at hFound
      rcases hDesk.afterLookup (List.Perm.refl _) hFound with
        ⟨hDone, hNone⟩
      rcases hDesk.lookup (List.Perm.refl _) with
        ⟨_, _, hPlanning, _⟩
      simp only [hName]
      refine ⟨hDone, ?_, ?_, hNone⟩
      · refine Eq.trans ?_ hInstrument
        cases (o.venue.latest venue i.name endMs).1.result <;> rfl
      · rw [hPlanning]
        cases (o.venue.latest venue i.name endMs).1.result <;>
          intro hState <;> cases hState

/-
  An instrument that is alone comes to a file as in a run, and
  the sink was given the results of the file.
-/
theorem fileOk_alone
    (p : Prospect o cancels)
    (venue : σ)
    {depot : Depot κ}
    (hDepot : p.Holds depot)
    (i : Instrument) :
    let f := o.aloneFile venue depot i
    p.FileOk f
      ∧ f.desk.instrument = i
      ∧ (o.alone venue depot i).2.handed
        = depot.handed ++ f.results o := by
  intro f
  rcases hPlan :
    o.planAlone venue (Desk.start 0 i) with ⟨d, after⟩
  have hPlanned := planAlone_ok p venue i
  rw [hPlan] at hPlanned
  rcases hPlanned with ⟨hDesk, hInstrument, hTouched, hNone⟩
  let a : Alone σ κ := { desk := d, depot := depot, venue := after }
  have hFile :
      f = ⟨(o.walkAll d.pending a).desk,
        (o.walkAll d.pending a).depot⟩ := by
    change o.aloneFile venue depot i = _
    unfold Office.aloneFile
    rw [hPlan]
  rcases walkAll_ok (a := a) d.pending hDesk rfl hDepot with
    ⟨hOk, hHolds, hPending, hSame, hLife, more, hMore, hGiven⟩
  have hNothing : d.results o.settings = [] := by
    unfold Desk.results
    rw [hNone]
    rfl
  have hResults :
      f.depot.handed = depot.handed ++ f.desk.results o.settings := by
    rw [hFile]
    refine hGiven.trans (congrArg (depot.handed ++ ·) ?_)
    exact (hMore.trans (congrArg (· ++ more) hNothing)).symm
  refine ⟨?_, ?_, ?_⟩
  · rw [hFile]
    refine
      { desk := hOk
        touched := ?_
        pending := hPending
        depot := hHolds }
    unfold Desk.Untouched at hTouched ⊢
    rw [hLife]
    exact hTouched
  · rw [hFile]
    exact hSame.trans hInstrument
  · refine (f.handed_eq o).1.trans ?_
    rw [hResults, List.append_assoc]
    rfl

theorem holds_alone
    (p : Prospect o cancels)
    (venue : σ)
    {depot : Depot κ}
    (hDepot : p.Holds depot)
    (i : Instrument) :
    p.Holds (o.alone venue depot i).2 :=
  RunOk.holds_close (fileOk_alone p venue hDepot i).1.depot _

------------------------------------------------------------
-- Prospects that leave no choice
------------------------------------------------------------

/- A prospect of one end, one find and one answer. -/
structure Determined (p : Prospect o cancels) : Prop where
  ends :
    ∀ name w r r', p.Ends name w r → p.Ends name w r' → r = r'
  found :
    ∀ name endMs r r',
      p.Found name endMs r → p.Found name endMs r' → r = r'
  answered :
    ∀ result a a',
      p.Answered result a → p.Answered result a' → a = a'

namespace Determined

/- Of an instrument there is one plan. -/
theorem planned_unique
    (hp : p.Determined)
    {i : Instrument}
    {windows others : List Window}
    (h : p.Planned i windows)
    (hOther : p.Planned i others) :
    windows = others := by
  unfold Planned at h hOther
  cases hRange : i.validRange o.reference with
  | none =>
      simp only [hRange] at h hOther
      rw [h, hOther]
  | some range =>
      cases hPagination : o.settings.pagination with
      | time =>
          simp only [hRange, hPagination] at h hOther
          rw [h, hOther]
      | sequence =>
          simp only [hRange, hPagination] at h hOther
          rcases h with ⟨latest, hFound, hWindows⟩
          rcases hOther with ⟨latest', hFound', hWindows'⟩
          have hSame := hp.found _ _ _ _ hFound hFound'
          rw [hWindows, hWindows', Except.ok.inj hSame]

/- Of a window there is one outcome. -/
theorem outcome_unique
    (hp : p.Determined)
    {i : Instrument}
    {out other : Outcome}
    (h : p.OutcomeOk i out)
    (hOther : p.OutcomeOk i other)
    (hWindow : out.window = other.window) :
    out = other := by
  have hWalked : out.walked = other.walked := by
    refine hp.ends i.name out.window _ _ h.ends ?_
    rw [hWindow]
    exact hOther.ends
  have hKept : out.kept = other.kept := by
    have hOut := h.kept
    have hAlso := hOther.kept
    rw [← hWindow, ← hWalked] at hAlso
    unfold KeptOk at hOut hAlso
    cases hResult :
        Desk.windowResult? o.settings i out.window out.walked with
    | none =>
        simp only [hResult] at hOut hAlso
        rw [hOut, hAlso]
    | some result =>
        simp only [hResult] at hOut hAlso
        rcases hOut with ⟨answer, hAnswer, hIs⟩
        rcases hAlso with ⟨answer', hAnswer', hIs'⟩
        rw [hIs, hIs', hp.answered result _ _ hAnswer hAnswer']
  cases out
  cases other
  simp_all

/-
  Desks of an instrument at which all is fetched differ in the
  order of their outcomes only, and not once they are sorted.
-/
theorem outcomes_perm
    (hp : p.Determined)
    {d e : Desk}
    {windows others : List Window}
    (hd : p.Fetched d windows)
    (he : p.Fetched e others)
    (hSame : d.instrument = e.instrument) :
    windows = others
      ∧ d.outcomes.Perm e.outcomes
      ∧ d.ordered = e.ordered := by
  have hPlans := he.planned
  rw [← hSame] at hPlans
  have hWindows := hp.planned_unique hd.planned hPlans
  rcases hd.planned.exists_tiles with ⟨range, hTiles⟩
  have hShare := he.share
  rw [← hWindows] at hShare
  have hOk : ∀ out ∈ e.outcomes, p.OutcomeOk d.instrument out := by
    rw [hSame]
    exact he.outcomes
  -- Windows tell outcomes apart, at one desk and at both.
  have hNodup (outcomes : List Outcome)
      (hPerm : (outcomes.map Outcome.window).Perm windows) :
      outcomes.Nodup :=
    List.Nodup.of_map _ (hPerm.nodup_iff.mpr hTiles.nodup)
  have hSub (xs ys : List Outcome)
      (hxs : (xs.map Outcome.window).Perm windows)
      (hys : (ys.map Outcome.window).Perm windows)
      (hxOk : ∀ out ∈ xs, p.OutcomeOk d.instrument out)
      (hyOk : ∀ out ∈ ys, p.OutcomeOk d.instrument out) :
      ∀ out ∈ xs, out ∈ ys := by
    intro out hOut
    have hWindow : out.window ∈ ys.map Outcome.window :=
      hys.mem_iff.mpr (hxs.mem_iff.mp (List.mem_map_of_mem hOut))
    rcases List.mem_map.mp hWindow with ⟨other, hOther, hEq⟩
    rw [hp.outcome_unique (hxOk out hOut) (hyOk other hOther)
      hEq.symm]
    exact hOther
  have hPerm : d.outcomes.Perm e.outcomes := by
    refine
      (List.perm_ext_iff_of_nodup (hNodup _ hd.share)
        (hNodup _ hShare)).mpr ?_
    intro out
    exact
      ⟨hSub _ _ hd.share hShare hd.outcomes hOk out,
        hSub _ _ hShare hd.share hOk hd.outcomes out⟩
  refine ⟨hWindows, hPerm, ?_⟩
  let le (a b : Outcome) : Bool := a.window.boundsLe b.window
  have hTrans :
      ∀ a b c, le a b = true → le b c = true → le a c = true :=
    fun _ _ _ => Window.boundsLe_trans
  have hTotal : ∀ a b, (le a b || le b a) = true :=
    fun a b => Window.boundsLe_total a.window b.window
  refine Merge.mergeSort_eq_of_perm hTrans hTotal hPerm ?_
  intro out hOut other hOther hLe hGe
  have hMem (x : Outcome) (hx : x ∈ d.outcomes) :
      x.window ∈ windows :=
    hd.share.mem_iff.mp (List.mem_map_of_mem hx)
  have hWindow :=
    hTiles.eq_of_bounds_eq (hMem out hOut) (hMem other hOther)
      (Window.bounds_eq_of_boundsLe hLe hGe)
  exact
    hp.outcome_unique (hd.outcomes out hOut)
      (hd.outcomes other hOther) hWindow

end Determined

end Prospect

------------------------------------------------------------
-- Desks that are closed alike
------------------------------------------------------------

namespace Desk

variable {κ : Type}

variable {d : Desk} {position : Nat} {outcomes : List Outcome}

/-
  Neither depends on the place of a desk or on the order in
  which its outcomes came.
-/
theorem lastResult?_congr
    (s : Settings)
    (hOrdered :
      ({ d with position := position, outcomes := outcomes } :
        Desk).ordered = d.ordered) :
    ({ d with position := position, outcomes := outcomes } :
        Desk).lastResult? s
      = d.lastResult? s := by
  unfold lastResult?
  rw [hOrdered]
  rfl

theorem verdict_congr
    (hOrdered :
      ({ d with position := position, outcomes := outcomes } :
        Desk).ordered = d.ordered)
    (answer : Option (Except String Stored)) :
    ({ d with position := position, outcomes := outcomes } :
        Desk).verdict answer
      = d.verdict answer := by
  unfold verdict
  rw [hOrdered]
  rfl

/- A desk that has all but its place and its outcomes. -/
theorem eq_of_fields
    {d e : Desk}
    (hInstrument : e.instrument = d.instrument)
    (hLife : e.life = d.life)
    (hPlanned : e.planned = d.planned)
    (hPending : e.pending = d.pending)
    (hFailure : e.failure = d.failure) :
    e =
      { d with
        position := e.position
        outcomes := e.outcomes } := by
  cases d
  cases e
  simp_all

theorem close_of_failure
    {s : Settings}
    {sink : Sink κ}
    {depot : Depot κ}
    (hFailure : d.failure.isSome = true) :
    d.close s sink depot = (d.report [] none, depot) := by
  unfold close
  rw [if_pos hFailure]

end Desk

namespace File

variable {σ κ : Type} {o : Office σ κ} {f : File κ}

theorem report_of_fetching
    (h : f.desk.Fetching) :
    f.report o =
      f.desk.verdict
        ((f.desk.lastResult? o.settings).map fun result =>
          (f.depot.keep o.sink result).1) := by
  unfold report
  rw [Desk.close_of_fetching h, Desk.merge_eq]
  cases f.desk.lastResult? o.settings <;> rfl

theorem last_of_fetching
    (h : f.desk.Fetching) :
    f.last o = (f.desk.lastResult? o.settings).toList := by
  unfold last
  rw [Desk.close_of_fetching h, Desk.merge_eq]
  cases f.desk.lastResult? o.settings with
  | none => exact List.drop_length
  | some result => exact List.drop_left

theorem last_of_failure
    (hFailure : f.desk.failure.isSome = true) :
    f.last o = [] := by
  unfold last
  rw [Desk.close_of_failure hFailure]
  exact List.drop_length

end File

namespace Prospect

variable {σ κ : Type} {o : Office σ κ} {cancels : Prop}
variable {p : Prospect o cancels}

/- A desk at which all is fetched, but for its outcomes. -/
theorem Fetched.fields
    {d : Desk}
    {windows : List Window}
    (h : p.Fetched d windows) :
    d.life = .ok { state := .fetching, rows := Lifecycle.rows }
      ∧ d.planned = windows.length
      ∧ d.pending = []
      ∧ d.failure = none := by
  rw [h.desk]
  exact ⟨rfl, rfl, rfl, rfl⟩

/-
  Where all is kept as one, what was handed over of a plan is
  one result, unless all of its windows failed.
-/
theorem Fetched.results_eq
    {f : File κ}
    {windows : List Window}
    (h : p.Fetched f.desk windows)
    (hWhole : o.settings.partitioning = .perInstrument) :
    f.results o =
      if windows ≠ [] ∧ Outcome.hauls f.desk.ordered = [] then []
      else [f.desk.wholeResult f.desk.ordered] := by
  have hPlanned : f.desk.planned ≠ 0 ↔ windows ≠ [] := by
    rw [h.fields.2.1, Ne, List.length_eq_zero_iff]
  unfold File.results
  rw [Desk.results_eq_nil hWhole, File.last_of_fetching h.fetching,
    List.nil_append]
  unfold Desk.lastResult?
  rw [h.sinkReason?_eq_none hWhole, hWhole]
  simp only [hPlanned]
  split <;> rfl

/- A desk whose look-up failed. -/
theorem unplanned_fields
    {d : Desk}
    {fault : Fault}
    (hDesk : d = (planning d).withoutPlan fault) :
    d.life = .ok { state := .failed, rows := Lifecycle.rows }
      ∧ d.planned = 0
      ∧ d.pending = []
      ∧ d.outcomes = []
      ∧ d.failure = some (.planning fault) := by
  rw [hDesk]
  exact ⟨rfl, rfl, rfl, rfl, rfl⟩

namespace Determined

/- Of a desk at which all is fetched there is one report. -/
theorem fetched_unique
    (hp : p.Determined)
    {f g : File κ}
    (hf : p.Holds f.depot)
    (hg : p.Holds g.depot)
    {windows others : List Window}
    (hFetched : p.Fetched f.desk windows)
    (hOther : p.Fetched g.desk others)
    (hSame : f.desk.instrument = g.desk.instrument) :
    f.report o = g.report o
      ∧ (f.results o).Perm (g.results o) := by
  rcases hp.outcomes_perm hFetched hOther hSame with
    ⟨hWindows, hPerm, hOrdered⟩
  rcases hFetched.fields with ⟨hLife, hPlanned, hPending, hFailure⟩
  rcases hOther.fields with
    ⟨hLife', hPlanned', hPending', hFailure'⟩
  have hLike :=
    Desk.eq_of_fields (d := f.desk) (e := g.desk) hSame.symm
      (hLife'.trans hLife.symm)
      (by rw [hPlanned', hPlanned, hWindows])
      (hPending'.trans hPending.symm)
      (hFailure'.trans hFailure.symm)
  have hSorted := hOrdered.symm
  rw [hLike] at hSorted
  have hLast :
      g.desk.lastResult? o.settings
        = f.desk.lastResult? o.settings := by
    rw [hLike]
    exact Desk.lastResult?_congr o.settings hSorted
  have hVerdict (answer : Option (Except String Stored)) :
      g.desk.verdict answer = f.desk.verdict answer := by
    rw [hLike]
    exact Desk.verdict_congr hSorted answer
  have hAnswer (result : Result) :
      (g.depot.keep o.sink result).1
        = (f.depot.keep o.sink result).1 :=
    hp.answered result _ _ (p.keeps g.depot result hg).2
      (p.keeps f.depot result hf).2
  refine ⟨?_, ?_⟩
  · rw [File.report_of_fetching hFetched.fetching,
      File.report_of_fetching hOther.fetching, hLast, hVerdict]
    simp only [hAnswer]
  · unfold File.results
    rw [File.last_of_fetching hFetched.fetching,
      File.last_of_fetching hOther.fetching, hLast]
    refine List.Perm.append_right _ ?_
    unfold Desk.results
    rw [hSame]
    exact hPerm.filterMap _

/- Of a desk whose look-up failed there is one report too. -/
theorem unplanned_unique
    {f g : File κ}
    {fault : Fault}
    (hDesk : f.desk = (planning f.desk).withoutPlan fault)
    (hOther : g.desk = (planning g.desk).withoutPlan fault)
    (hSame : f.desk.instrument = g.desk.instrument) :
    f.report o = g.report o
      ∧ (f.results o).Perm (g.results o) := by
  rcases unplanned_fields hDesk with
    ⟨hLife, hPlanned, hPending, hNone, hFailure⟩
  rcases unplanned_fields hOther with
    ⟨hLife', hPlanned', hPending', hNone', hFailure'⟩
  have hLike :=
    Desk.eq_of_fields (d := f.desk) (e := g.desk) hSame.symm
      (hLife'.trans hLife.symm) (hPlanned'.trans hPlanned.symm)
      (hPending'.trans hPending.symm)
      (hFailure'.trans hFailure.symm)
  have hFailed : f.desk.failure.isSome = true := by
    rw [hFailure]
    rfl
  have hFailed' : g.desk.failure.isSome = true := by
    rw [hFailure']
    rfl
  refine ⟨?_, ?_⟩
  · unfold File.report
    rw [Desk.close_of_failure hFailed,
      Desk.close_of_failure hFailed', hLike]
    rfl
  · unfold File.results Desk.results
    rw [File.last_of_failure hFailed,
      File.last_of_failure hFailed', hNone, hNone']
    exact List.Perm.refl _

/-
  Where a prospect leaves no choice, an instrument has one
  report, and the sink gets the same results for it, in some
  order.
-/
theorem file_unique
    (hp : p.Determined)
    {f g : File κ}
    (hf : p.FileOk f)
    (hg : p.FileOk g)
    (hSame : f.desk.instrument = g.desk.instrument) :
    f.report o = g.report o
      ∧ (f.results o).Perm (g.results o) := by
  -- A look-up that fails leads to no plan, in any order.
  have hNoPlan {d e : Desk} {range : TimeWindow} {fault : Fault}
      {windows : List Window}
      (hRange : d.instrument.validRange o.reference = some range)
      (hPagination : o.settings.pagination = .sequence)
      (hFound :
        p.Found d.instrument.name range.endMs (.error fault))
      (hPlanned : p.Planned e.instrument windows)
      (hIs : d.instrument = e.instrument) : False := by
    unfold Planned at hPlanned
    rw [← hIs] at hPlanned
    simp only [hRange, hPagination] at hPlanned
    rcases hPlanned with ⟨latest, hLatest, _⟩
    cases hp.found _ _ _ _ hFound hLatest
  rcases hf.shape with
    ⟨range, fault, hRange, hPagination, hFound, hDesk⟩
      | ⟨windows, hFetched⟩
  · rcases hg.shape with
      ⟨range', fault', hRange', _, hFound', hDesk'⟩
        | ⟨windows', hFetched'⟩
    · rw [← hSame, hRange] at hRange'
      rw [← hSame, ← Option.some.inj hRange'] at hFound'
      have hFault := hp.found _ _ _ _ hFound hFound'
      rw [← Except.error.inj hFault] at hDesk'
      exact unplanned_unique hDesk hDesk' hSame
    · exact
        (hNoPlan hRange hPagination hFound hFetched'.planned
          hSame).elim
  · rcases hg.shape with
      ⟨range', fault', hRange', hPagination', hFound', _⟩
        | ⟨windows', hFetched'⟩
    · exact
        (hNoPlan hRange' hPagination' hFound' hFetched.planned
          hSame.symm).elim
    · exact
        hp.fetched_unique hf.depot hg.depot hFetched hFetched' hSame

end Determined

end Prospect

end TradeTape
