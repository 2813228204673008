import TradeTape.Proofs.Run.Completion
import TradeTape.Proofs.Run.Fixed
import TradeTape.Proofs.Run.Targets

/-
  Runs that do many things at once come to what is done by
  one thing after another.

  Over tapes, without a deadline and without a cancellation,
  each instrument has the report that is written when it is
  worked off alone, and the sink keeps the same results.  It
  does not matter how much is done at once, how long calls
  take, or what happens to other instruments.

  Key statements include:
    * `Prospect.Determined.alone_of_done`
    * `TapeVenue.Agrees`
    * `TapeVenue.alone_congr`
    * `TapeVenue.eq_alone_of_done`
    * `TapeVenue.backfill_done`
    * `TapeVenue.backfill_sequential`
-/

namespace TradeTape

------------------------------------------------------------
-- Whole runs and instruments by themselves
------------------------------------------------------------

namespace Prospect

variable {σ κ : Type} {o : Office σ κ} {cancels : Prop}
variable {p : Prospect o cancels}

/-
  Where a prospect leaves no choice, a run that is done has
  written the reports of its instruments by themselves, and
  handed over what they hand over, whatever the order of its
  moves.
-/
theorem Determined.alone_of_done
    (hp : p.Determined)
    (hCeiling : 0 < o.settings.maxInFlight)
    {venue : σ}
    {kept : κ}
    (hDepot : p.Holds { kept := kept, handed := [] })
    {instruments : List Instrument}
    (hNames : (instruments.map Instrument.name).Nodup)
    {r : Run σ κ}
    (hReached :
      Run.Reaches o (Run.start o venue kept none instruments) r)
    (hDone : r.Done) :
    let alone := o.alone venue { kept := kept, handed := [] }
    p.Holds r.depot
      ∧ r.reports.Perm (instruments.map fun i => (alone i).1)
      ∧ r.depot.handed.Perm
        (instruments.flatMap fun i => (alone i).2.handed)
      ∧ (r.depot.handed.map Result.fileStem).Nodup := by
  intro alone
  rcases
    p.runOk_of_reaches hCeiling (fun h => absurd rfl h) hDepot
      hReached with
    ⟨files, hRun⟩
  rcases hRun.files_of_done hDone with ⟨hRoster, hHanded⟩
  -- A file is the same as if its instrument had been alone.
  have hFile (f : File κ) (hf : f ∈ files) :
      f.report o = (alone f.desk.instrument).1
        ∧ (f.results o).Perm (alone f.desk.instrument).2.handed := by
    rcases fileOk_alone p venue hDepot f.desk.instrument with
      ⟨hOk, hInstrument, hResults⟩
    rcases
      hp.file_unique (hRun.filed f hf) hOk hInstrument.symm with
      ⟨hReport, hPerm⟩
    refine ⟨hReport, ?_⟩
    change (alone f.desk.instrument).2.handed = _ at hResults
    rw [hResults]
    exact hPerm
  have hReports :
      r.reports =
        (files.map fun f => f.desk.instrument).map fun i =>
          (alone i).1 := by
    rw [hRun.reports, List.map_map]
    exact List.map_congr_left fun f hf => (hFile f hf).1
  have hResults :
      (files.flatMap (File.results o)).Perm
        ((files.map fun f => f.desk.instrument).flatMap fun i =>
          (alone i).2.handed) := by
    rw [List.flatMap_map]
    exact List.Perm.flatMap_left files fun f hf => (hFile f hf).2
  refine ⟨hRun.depot, ?_, ?_, ?_⟩
  · rw [hReports]
    exact hRoster.map _
  · exact (hHanded.trans hResults).trans (hRoster.flatMap_right _)
  · refine (hHanded.map Result.fileStem).nodup_iff.mpr ?_
    refine stems_nodup hRun.filed ?_
    have hSame := (hRoster.map Instrument.name).nodup_iff.mpr hNames
    rw [List.map_map] at hSame
    exact hSame

end Prospect

------------------------------------------------------------
-- What does not matter
------------------------------------------------------------

/- Settings that differ only in how much is done at once. -/
def Settings.SameWork (s t : Settings) : Prop :=
  t =
    { s with
      maxInFlight := t.maxInFlight
      maxInstruments := t.maxInstruments
      maxWindows := t.maxWindows }

instance (s t : Settings) : Decidable (s.SameWork t) := by
  unfold Settings.SameWork
  infer_instance

/-
  Venues with the same tape and the same failures of a name.
  How long their calls take does not matter, and neither do
  other names.
-/
structure TapeVenue.Agrees
    (v u : TapeVenue)
    (name : String) : Prop where
  tape : u.tape name = v.tape name
  failing :
    u.failingInstruments.lookup name
      = v.failingInstruments.lookup name
  ranges :
    (u.failingRanges.filter fun r => r.instrument = name)
      = v.failingRanges.filter fun r => r.instrument = name

namespace TapeVenue

variable {v u : TapeVenue} {name : String}

theorem agrees_latency
    (v : TapeVenue)
    (latency : Option Latency)
    (name : String) :
    v.Agrees { v with latency := latency } name :=
  ⟨rfl, rfl, rfl⟩

namespace Agrees

theorem rangeFault?_eq
    (h : v.Agrees u name)
    (startMs : Int) :
    u.rangeFault? name startMs = v.rangeFault? name startMs := by
  have hFind :=
    congrArg
      (List.find? fun r => decide (r.range.Covers startMs)) h.ranges
  rw [List.find?_filter, List.find?_filter] at hFind
  unfold rangeFault?
  simp only [decide_eq_true_eq] at hFind
  rw [hFind]

theorem page_eq
    (h : v.Agrees u name)
    {q : PageQuery}
    (hName : q.instrument = name) :
    u.page q = v.page q := by
  unfold page
  simp only [hName, h.tape, h.failing, h.rangeFault?_eq]

theorem latest_eq
    (h : v.Agrees u name)
    (endMs : Int) :
    u.latest name endMs = v.latest name endMs := by
  unfold latest
  rw [h.tape, h.failing]

theorem walk_eq
    (h : v.Agrees u name)
    {w : Walk}
    (hName : w.instrument = name)
    (n : Nat) :
    u.toVenue.walk n w = v.toVenue.walk n w := by
  unfold Venue.walk Walk.run
  generalize w.allowance = left
  induction left generalizing n w with
  | zero => rfl
  | succ left ih =>
      unfold Walk.follow toVenue
      have hPage : u.page w.query = v.page w.query :=
        h.page_eq hName
      simp only [hPage]
      cases hAnswer : w.answer (v.page w.query) with
      | ends r => rfl
      | asks w' =>
          have hSame := (Walk.asks_of_answer hAnswer).1
          have hRest := ih (hSame.trans hName) (n + 1)
          unfold toVenue at hRest
          simp only at hRest ⊢
          rw [hRest]

end Agrees

section Congr

variable {κ : Type} {s t : Settings}

/-
  Neither the settings for work at once nor other names play a
  part when windows are walked one after the other.
-/
theorem walkAll_congr
    (hWork : s.SameWork t)
    (reference : Option Int)
    (sink : Sink κ)
    (h : v.Agrees u name)
    (windows : List Window)
    {a : Alone Nat κ}
    (hName : a.desk.instrument.name = name) :
    (u.office t reference sink).walkAll windows a
      = (v.office s reference sink).walkAll windows a := by
  have hRules :
      WalkRules.ofSettings t = WalkRules.ofSettings s := by
    rw [hWork]
    rfl
  have hTake (depot : Depot κ) (d : Desk) (w : Window)
      (walked : Except Fault Haul) :
      d.takeHaul t sink depot w walked
        = d.takeHaul s sink depot w walked := by
    rw [hWork]
    rfl
  induction windows generalizing a with
  | nil => rfl
  | cons w rest ih =>
      have hWalk (walk : Walk)
          (hSame : walk.instrument = a.desk.instrument.name) :=
        h.walk_eq (hSame.trans hName) a.venue
      have hNext :
          (u.office t reference sink).walkNext a w rest
            = (v.office s reference sink).walkNext a w rest := by
        unfold Office.walkNext office
        simp only [hRules, hTake]
        rw [hWalk]
        rfl
      unfold Office.walkAll
      rw [hNext]
      exact ih hName

theorem planAlone_congr
    (hWork : s.SameWork t)
    (reference : Option Int)
    (sink : Sink κ)
    {i : Instrument}
    (h : v.Agrees u i.name)
    (n : Nat) :
    (u.office t reference sink).planAlone n (Desk.start 0 i)
      = (v.office s reference sink).planAlone n (Desk.start 0 i) := by
  have hPlan (d : Desk) :
      d.plan t reference = d.plan s reference := by
    rw [hWork]
    rfl
  have hLookup (d : Desk) (found : Except Fault (Option Int)) :
      d.afterLookup t found = d.afterLookup s found := by
    rw [hWork]
    cases found <;> rfl
  have hInstrument := Desk.instrument_plan s reference (Desk.start 0 i)
  unfold Office.planAlone office toVenue
  simp only [hPlan, hLookup]
  rcases hMade : (Desk.start 0 i).plan s reference with ⟨d, ask⟩
  rw [hMade] at hInstrument
  cases ask with
  | none => rfl
  | some endMs =>
      have hName : d.instrument.name = i.name :=
        congrArg Instrument.name hInstrument
      simp only [hName, h.latest_eq]

/-
  What an instrument that is alone comes to depends on its own
  tape and its own failures only.
-/
theorem alone_congr
    (hWork : s.SameWork t)
    (reference : Option Int)
    (sink : Sink κ)
    {i : Instrument}
    (h : v.Agrees u i.name)
    (n : Nat)
    (depot : Depot κ) :
    (u.office t reference sink).alone n depot i
      = (v.office s reference sink).alone n depot i := by
  have hClose (d : Desk) (depot : Depot κ) :
      d.close t sink depot = d.close s sink depot := by
    rw [hWork]
    rfl
  have hInstrument :=
    (v.office s reference sink).instrument_planAlone n
      (Desk.start 0 i)
  have hPlan := planAlone_congr hWork reference sink h n
  rcases hMade :
    (v.office s reference sink).planAlone n (Desk.start 0 i) with
    ⟨d, venue⟩
  rw [hMade] at hPlan hInstrument
  have hName : d.instrument.name = i.name :=
    congrArg Instrument.name hInstrument
  have hWalks :=
    walkAll_congr hWork reference sink h d.pending
      (a := { desk := d, depot := depot, venue := venue }) hName
  unfold Office.alone Office.aloneFile
  simp only [hPlan, hMade, hWalks]
  exact hClose _ _

end Congr

------------------------------------------------------------
-- Runs over tapes
------------------------------------------------------------

/-
  A run over tapes to its end, with a shelf for its results
  and without a cancellation.
-/
def backfill
    (v : TapeVenue)
    (s : Settings)
    (reference : Option Int)
    (rejected : Option String)
    (instruments : List Instrument) : Run Nat Shelf :=
  let o := v.office s reference Shelf.sink
  Run.toEnd o
    (Run.start o 0 (Shelf.make rejected) none instruments)

/-
  The report of an instrument that is worked off alone, and
  the results on a shelf of its own.
-/
def alone
    (v : TapeVenue)
    (s : Settings)
    (reference : Option Int)
    (rejected : Option String)
    (i : Instrument) : Report × List Result :=
  let o := v.office s reference Shelf.sink
  let (report, depot) :=
    o.alone 0 { kept := Shelf.make rejected, handed := [] } i
  (report, depot.kept.results)

theorem alone_eq_of_agrees
    {s t : Settings}
    (hWork : s.SameWork t)
    (reference : Option Int)
    (rejected : Option String)
    {i : Instrument}
    (h : v.Agrees u i.name) :
    u.alone t reference rejected i
      = v.alone s reference rejected i := by
  unfold alone
  simp only [alone_congr hWork reference Shelf.sink h]

/- What is reported and kept of an instrument names it. -/
theorem instrument_alone
    (v : TapeVenue)
    {s : Settings}
    (hTimeout : s.taskTimeoutMs = none)
    (reference : Option Int)
    (rejected : Option String)
    (i : Instrument) :
    (v.alone s reference rejected i).1.instrument = i
      ∧ ∀ result ∈ (v.alone s reference rejected i).2,
        result.instrument = i := by
  let o := v.office s reference Shelf.sink
  let p := v.fixed s hTimeout reference rejected
  let depot : Depot Shelf :=
    { kept := Shelf.make rejected, handed := [] }
  have hDepot : p.Holds depot := rfl
  rcases Prospect.fileOk_alone p 0 hDepot i with
    ⟨_, hInstrument, hHanded⟩
  refine ⟨?_, ?_⟩
  · exact (Prospect.instrument_report o _).trans hInstrument
  · intro result hMem
    have hKept : Shelf.Keeps rejected (o.alone 0 depot i).2 :=
      Prospect.holds_alone p 0 hDepot i
    change result ∈ (o.alone 0 depot i).2.kept.results at hMem
    unfold Shelf.Keeps at hKept
    rw [hKept, hHanded] at hMem
    have hGiven := List.mem_of_mem_filter hMem
    exact
      (Prospect.instrument_fileResults hGiven).trans hInstrument

/-
  A run that is done has come to what its instruments come to
  alone, whatever the order of its moves.
-/
theorem eq_alone_of_done
    (v : TapeVenue)
    {s : Settings}
    (hValid : s.Valid)
    (hTimeout : s.taskTimeoutMs = none)
    {reference : Option Int}
    {rejected : Option String}
    {instruments : List Instrument}
    (hNames : (instruments.map Instrument.name).Nodup)
    {r : Run Nat Shelf}
    (hReached :
      let o := v.office s reference Shelf.sink
      Run.Reaches o
        (Run.start o 0 (Shelf.make rejected) none instruments) r)
    (hDone : r.Done) :
    let alone := v.alone s reference rejected
    r.reports.Perm (instruments.map fun i => (alone i).1)
      ∧ r.kept.results.Perm
        (instruments.flatMap fun i => (alone i).2)
      ∧ (r.kept.results.map Result.fileStem).Nodup := by
  intro alone
  let o := v.office s reference Shelf.sink
  let p := v.fixed s hTimeout reference rejected
  let depot : Depot Shelf :=
    { kept := Shelf.make rejected, handed := [] }
  have hDepot : p.Holds depot := rfl
  rcases
    (v.determined_fixed s hTimeout reference rejected).alone_of_done
      hValid.limits.1 hDepot hNames hReached hDone with
    ⟨hKept, hReports, hHanded, hStems⟩
  change Shelf.Keeps rejected r.depot at hKept
  have hResults :
      r.kept.results
        = Shelf.accepted rejected r.depot.handed :=
    congrArg Shelf.results hKept
  have hAlone (i : Instrument) :
      (alone i).2
        = Shelf.accepted rejected (o.alone 0 depot i).2.handed :=
    congrArg Shelf.results (Prospect.holds_alone p 0 hDepot i)
  refine ⟨hReports, ?_, ?_⟩
  · simp only [hResults, hAlone]
    unfold Shelf.accepted
    rw [← List.filter_flatMap]
    exact hHanded.filter _
  · rw [hResults]
    exact hStems.sublist (List.filter_sublist.map _)

theorem backfill_done
    (v : TapeVenue)
    {s : Settings}
    (hValid : s.Valid)
    (hTimeout : s.taskTimeoutMs = none)
    (reference : Option Int)
    (rejected : Option String)
    (instruments : List Instrument) :
    (v.backfill s reference rejected instruments).Done :=
  Prospect.toEnd_done (v.fixed s hTimeout reference rejected)
    hValid 0 (Shelf.make rejected) (fun h => absurd rfl h) rfl
    instruments

theorem backfill_eq_alone
    (v : TapeVenue)
    {s : Settings}
    (hValid : s.Valid)
    (hTimeout : s.taskTimeoutMs = none)
    (reference : Option Int)
    (rejected : Option String)
    {instruments : List Instrument}
    (hNames : (instruments.map Instrument.name).Nodup) :
    let r := v.backfill s reference rejected instruments
    let alone := v.alone s reference rejected
    r.reports.Perm (instruments.map fun i => (alone i).1)
      ∧ r.kept.results.Perm
        (instruments.flatMap fun i => (alone i).2)
      ∧ (r.kept.results.map Result.fileStem).Nodup :=
  v.eq_alone_of_done hValid hTimeout hNames
    (Run.reaches_toEnd _ _)
    (v.backfill_done hValid hTimeout reference rejected instruments)

/- What belongs to a name, where names differ. -/
theorem filter_name_flatMap
    {α : Type}
    (owner : α → Instrument)
    {g : Instrument → List α}
    (hOwn : ∀ j, ∀ a ∈ g j, owner a = j)
    {instruments : List Instrument}
    (hNames : (instruments.map Instrument.name).Nodup)
    {i : Instrument}
    (hi : i ∈ instruments) :
    ((instruments.flatMap g).filter fun a =>
        (owner a).name = i.name)
      = g i := by
  rcases List.append_of_mem hi with ⟨before, after, rfl⟩
  rw [List.map_append, List.map_cons, List.nodup_append] at hNames
  rcases hNames with ⟨_, hRest, hApart⟩
  have hNone (others : List Instrument)
      (hOther : ∀ j ∈ others, j.name ≠ i.name) :
      ((others.flatMap g).filter fun a =>
        (owner a).name = i.name) = [] := by
    refine List.filter_eq_nil_iff.mpr ?_
    intro a ha hName
    rcases List.mem_flatMap.mp ha with ⟨j, hj, hMem⟩
    have hSame := of_decide_eq_true hName
    rw [hOwn j a hMem] at hSame
    exact hOther j hj hSame
  have hSelf :
      ((g i).filter fun a => (owner a).name = i.name) = g i := by
    refine List.filter_eq_self.mpr ?_
    intro a ha
    exact decide_eq_true (by rw [hOwn i a ha])
  have hBefore : ∀ j ∈ before, j.name ≠ i.name := fun j hj =>
    hApart j.name (List.mem_map_of_mem hj) i.name
      List.mem_cons_self
  have hAfter : ∀ j ∈ after, j.name ≠ i.name := by
    intro j hj hSame
    refine (List.nodup_cons.mp hRest).1 ?_
    rw [← hSame]
    exact List.mem_map_of_mem hj
  rw [List.flatMap_append, List.flatMap_cons, List.filter_append,
    List.filter_append, hNone before hBefore, hNone after hAfter,
    hSelf, List.nil_append, List.append_nil]

/- The reports of a name. -/
def reportsFor
    (name : String)
    (reports : List Report) : List Report :=
  reports.filter fun report => report.instrument.name = name

/- An instrument has one report, and its results on the shelf. -/
theorem backfill_of_name
    (v : TapeVenue)
    {s : Settings}
    (hValid : s.Valid)
    (hTimeout : s.taskTimeoutMs = none)
    (reference : Option Int)
    (rejected : Option String)
    {instruments : List Instrument}
    (hNames : (instruments.map Instrument.name).Nodup)
    {i : Instrument}
    (hi : i ∈ instruments) :
    let r := v.backfill s reference rejected instruments
    let alone := v.alone s reference rejected i
    reportsFor i.name r.reports = [alone.1]
      ∧ Prospect.resultsFor i.name r.kept.sorted
        = Shelf.sorted { rejected := rejected, results := alone.2 } := by
  intro r alone
  rcases
    v.backfill_eq_alone hValid hTimeout reference rejected
      hNames with
    ⟨hReports, hResults, hStems⟩
  have hOwner := v.instrument_alone hTimeout reference rejected
  refine ⟨?_, ?_⟩
  · have hOne :=
      filter_name_flatMap Report.instrument
        (g := fun i => [(v.alone s reference rejected i).1])
        (fun j report hMem => by
          rw [List.mem_singleton.mp hMem]
          exact (hOwner j).1)
        hNames hi
    rw [← List.map_eq_flatMap] at hOne
    refine List.perm_singleton.mp ?_
    rw [← hOne]
    exact hReports.filter _
  · have hOwn :=
      filter_name_flatMap Result.instrument
        (fun j => (hOwner j).2) hNames hi
    have hPerm :
        (Prospect.resultsFor i.name r.kept.results).Perm
          alone.2 := by
      change _ = alone.2 at hOwn
      rw [← hOwn]
      exact hResults.filter _
    have hSorted := Shelf.pairwise_sorted r.kept
    have hShown := r.kept.sorted_perm
    refine
      Shelf.eq_of_stems (hSorted.filter _)
        (Shelf.pairwise_sorted _) ?_ ?_
    · exact
        ((hShown.filter _).trans hPerm).trans
          (Shelf.sorted_perm _).symm
    · refine List.Nodup.sublist (List.filter_sublist.map _) ?_
      exact (hShown.map Result.fileStem).nodup_iff.mpr hStems

/-
  Concurrent runs come to the sequential reference.  Of two
  runs with settings that differ in how much is done at once,
  the first writes the reports of its instruments alone and
  keeps their results, and the second does the same for every
  instrument of which the venues agree.  How long calls take
  plays no part, and neither do the tapes and failures of
  other instruments, nor the order in which moves are made.
-/
theorem backfill_sequential
    {v u : TapeVenue}
    {s t : Settings}
    {instruments : List Instrument}
    (hValid : s.Valid)
    (hValid' : t.Valid)
    (hWork : s.SameWork t)
    (hTimeout : s.taskTimeoutMs = none)
    (hNames : (instruments.map Instrument.name).Nodup)
    (reference : Option Int)
    (rejected : Option String) :
    let r := v.backfill s reference rejected instruments
    let r' := u.backfill t reference rejected instruments
    let alone := v.alone s reference rejected
    r.Done
      ∧ r'.Done
      ∧ r.reports.Perm (instruments.map fun i => (alone i).1)
      ∧ r.kept.sorted
        = Shelf.sorted
          { rejected := rejected
            results := instruments.flatMap fun i => (alone i).2 }
      ∧ (∀ i ∈ instruments,
          v.Agrees u i.name →
            reportsFor i.name r'.reports = [(alone i).1]
              ∧ Prospect.resultsFor i.name r'.kept.sorted
                = Shelf.sorted
                  { rejected := rejected
                    results := (alone i).2 })
      ∧ ((∀ i ∈ instruments, v.Agrees u i.name) →
          r'.reports.Perm r.reports
            ∧ r'.kept.sorted = r.kept.sorted)
      ∧ (let o := v.office s reference Shelf.sink
        ∀ other,
          Run.Reaches o
              (Run.start o 0 (Shelf.make rejected) none
                instruments) other →
            other.Done →
              other.reports.Perm r.reports
                ∧ other.kept.sorted = r.kept.sorted) := by
  intro r r' alone
  have hTimeout' : t.taskTimeoutMs = none := by
    rw [hWork]
    exact hTimeout
  rcases
    v.backfill_eq_alone hValid hTimeout reference rejected
      hNames with
    ⟨hReports, hResults, hStems⟩
  rcases
    u.backfill_eq_alone hValid' hTimeout' reference rejected
      hNames with
    ⟨hReports', hResults', hStems'⟩
  have hSame {i : Instrument} (hAgrees : v.Agrees u i.name) :
      u.alone t reference rejected i = alone i :=
    alone_eq_of_agrees hWork reference rejected hAgrees
  refine
    ⟨v.backfill_done hValid hTimeout reference rejected instruments,
      u.backfill_done hValid' hTimeout' reference rejected
        instruments,
      hReports, Shelf.sorted_eq_of_perm hResults hStems, ?_, ?_, ?_⟩
  · intro i hi hAgrees
    have hOne :=
      u.backfill_of_name hValid' hTimeout' reference rejected
        hNames hi
    rw [← hSame hAgrees]
    exact hOne
  · intro hAll
    have hMap :
        (instruments.map fun i =>
            (u.alone t reference rejected i).1)
          = instruments.map fun i => (alone i).1 :=
      List.map_congr_left fun i hi => by rw [hSame (hAll i hi)]
    have hFlatMap :
        (instruments.flatMap fun i =>
            (u.alone t reference rejected i).2)
          = instruments.flatMap fun i => (alone i).2 :=
      List.flatMap_congr fun i hi => by rw [hSame (hAll i hi)]
    rw [hMap] at hReports'
    rw [hFlatMap] at hResults'
    exact
      ⟨hReports'.trans hReports.symm,
        Shelf.sorted_eq_of_perm (hResults'.trans hResults.symm)
          hStems'⟩
  · intro o other hReached hDone
    rcases
      v.eq_alone_of_done hValid hTimeout hNames hReached hDone with
      ⟨hOther, hKept, hDiffer⟩
    exact
      ⟨hOther.trans hReports.symm,
        Shelf.sorted_eq_of_perm (hKept.trans hResults.symm)
          hDiffer⟩

/- Two tapes, and a venue that is slow and fails for one. -/
def pairVenue : TapeVenue :=
  { tapes :=
      [("BTC",
          [Trade.synthetic "BTC" 1 5, Trade.synthetic "BTC" 2 5,
            Trade.synthetic "BTC" 3 12]),
        ("ETH", [Trade.synthetic "ETH" 1 3])]
    failingInstruments := []
    failingRanges := []
    latency := none }

def slowVenue : TapeVenue :=
  { pairVenue with
    failingInstruments := [("ETH", .timeout "busy")]
    latency := Latency.make? 3 4 }

/- Windows of ten milliseconds, ten of them at once. -/
def pairSettings : Settings :=
  { Settings.standard with
    pageSize := 3
    chunkMs := some 10
    maxPages := 10
    taskTimeoutMs := none }

/- The same windows, one after the other. -/
def singleSettings : Settings :=
  { pairSettings with
    maxInFlight := 1
    maxInstruments := 1
    maxWindows := 1 }

/- The failures of one instrument leave the other as it is. -/
theorem backfill_sequential_of_failure :
    let btc : Instrument := ⟨"BTC", .future, 0, 19⟩
    let eth : Instrument := ⟨"ETH", .future, 0, 19⟩
    let r := slowVenue.backfill singleSettings none none [btc, eth]
    let alone := pairVenue.alone pairSettings none none btc
    alone.1.state = .persisted
      ∧ alone.1.trades = 3
      ∧ reportsFor "BTC" r.reports = [alone.1] := by
  intro btc eth r alone
  have hReport :
      alone.1.state = .persisted ∧ alone.1.trades = 3 := by
    cbv
  have hAgrees : pairVenue.Agrees slowVenue btc.name :=
    ⟨rfl, rfl, rfl⟩
  rcases
    @backfill_sequential pairVenue slowVenue pairSettings
      singleSettings [btc, eth] (by decide) (by decide) (by decide)
      rfl (by decide) none none with
    ⟨_, _, _, _, hEach, _⟩
  have hOne := (hEach btc List.mem_cons_self hAgrees).1
  exact ⟨hReport.1, hReport.2, hOne⟩

end TapeVenue

end TradeTape
