import TradeTape.Proofs.Run.Alone
import TradeTape.Proofs.Run.Chronicle
import TradeTape.Proofs.Trade.Stems

/-
  No two results of a run are kept under one name.

  Results of single windows are told apart by their windows
  and by their instruments, and results of whole instruments
  by their instruments alone.  A run makes results of one of
  these kinds only.

  Key statements include:
    * `Result.name_eq_of_fileStem_eq`
    * `Labelled`
    * `Labelled.stems_nodup`
    * `Prospect.RunOk.stems_nodup`
    * `Run.toEnd_targets_differ`
-/

namespace TradeTape

------------------------------------------------------------
-- Results that are told apart
------------------------------------------------------------

namespace Result

variable {x y : Result} {v w : Window}

/- Results of windows with one name are of one window. -/
theorem eq_of_fileStem_eq
    (hx : x.window = some v)
    (hy : y.window = some w)
    (hStem : x.fileStem = y.fileStem) :
    x.instrument.name = y.instrument.name ∧ v = w := by
  unfold fileStem at hStem
  rw [hx, hy] at hStem
  exact stemOf_inj hStem

/- Results of one kind with one name are of one instrument. -/
theorem name_eq_of_fileStem_eq
    (hKind : x.window.isSome = true ↔ y.window.isSome = true)
    (hStem : x.fileStem = y.fileStem) :
    x.instrument.name = y.instrument.name := by
  cases hx : x.window with
  | some v =>
      have hSome : y.window.isSome = true :=
        hKind.mp (by simp [hx])
      rcases Option.isSome_iff_exists.mp hSome with ⟨w, hy⟩
      exact (eq_of_fileStem_eq hx hy hStem).1
  | none =>
      cases hy : y.window with
      | some w => simp [hx, hy] at hKind
      | none => simpa [fileStem, stemOf, hx, hy] using hStem

end Result

/-
  Results of one instrument and of one kind, of windows or of
  the whole, with different names.
-/
structure Labelled
    (s : Settings)
    (i : Instrument)
    (results : List Result) : Prop where
  instrument : ∀ result ∈ results, result.instrument = i
  kind :
    ∀ result ∈ results,
      result.window.isSome = true ↔ s.partitioning = .perWindow
  stems : (results.map Result.fileStem).Nodup

/- Where the names of instruments differ, so do all names. -/
theorem Labelled.stems_nodup
    {s : Settings}
    {shares : List (Instrument × List Result)}
    (hShares : ∀ share ∈ shares, Labelled s share.1 share.2)
    (hNames : (shares.map fun share => share.1.name).Nodup) :
    ((shares.flatMap Prod.snd).map Result.fileStem).Nodup := by
  rw [List.map_flatMap]
  apply List.nodup_flatMap.mpr
  constructor
  · intro share hShare
    exact (hShares share hShare).stems
  · apply (List.pairwise_map.mp hNames).imp_of_mem
    intro share other hShare hOther hNe stem hStem hAlso
    rcases List.mem_map.mp hStem with ⟨x, hx, rfl⟩
    rcases List.mem_map.mp hAlso with ⟨y, hy, hSame⟩
    have hOwn := hShares share hShare
    have hAlien := hShares other hOther
    have hKind := (hOwn.kind x hx).trans (hAlien.kind y hy).symm
    apply hNe
    rw [← hOwn.instrument x hx, ← hAlien.instrument y hy]
    exact Result.name_eq_of_fileStem_eq hKind hSame.symm

------------------------------------------------------------
-- Desks and files
------------------------------------------------------------

/- What a desk has handed over is labelled by its windows. -/
theorem Desk.labelled
    {d : Desk}
    (hWindows : (d.outcomes.map Outcome.window).Nodup)
    (s : Settings) :
    Labelled s d.instrument (d.results s) := by
  constructor
  · intro result hMem
    exact (mem_results hMem).2.2
  · intro result hMem
    rcases mem_results hMem with ⟨hPartitioning, hWindow, _⟩
    exact ⟨fun _ => hPartitioning, fun _ => hWindow⟩
  · apply List.pairwise_map.mpr
    apply List.pairwise_filterMap.mpr
    apply (List.pairwise_map.mp hWindows).imp
    intro out other hNe x hx y hy hStem
    rcases windowResult?_eq_some hx with ⟨_, hWindow, _⟩
    rcases windowResult?_eq_some hy with ⟨_, hAlso, _⟩
    exact hNe (Result.eq_of_fileStem_eq hWindow hAlso hStem).2

namespace Prospect

variable {σ κ : Type} {o : Office σ κ} {cancels : Prop}
variable {p : Prospect o cancels}

/- No window has two outcomes at a desk. -/
theorem DeskOk.windows_nodup
    {d : Desk}
    {duties : List Duty}
    (h : p.DeskOk d duties) :
    (d.outcomes.map Outcome.window).Nodup := by
  cases h with
  | fresh hDesk _ =>
      rw [hDesk]
      exact List.nodup_nil
  | looking _ _ _ hDesk _ =>
      rw [hDesk]
      exact List.nodup_nil
  | unplanned _ _ _ _ _ hDesk _ =>
      rw [hDesk]
      exact List.nodup_nil
  | fetching windows opened hPlanned _ _ hShare _ =>
      rcases hPlanned.exists_tiles with ⟨_, hTiles⟩
      have hAll := hShare.nodup_iff.mpr hTiles.nodup
      exact (List.nodup_append.mp hAll).2.1

variable {f : File κ}

/- The last results of a file, by the way it came about. -/
theorem FileOk.last_eq
    (h : p.FileOk f) :
    f.last o = []
      ∨ f.last o = (f.desk.lastResult? o.settings).toList := by
  rcases h.shape with ⟨range, fault, _, _, _, hDesk⟩ | ⟨_, hFetched⟩
  · refine Or.inl (File.last_of_failure ?_)
    rw [(unplanned_fields hDesk).2.2.2.2]
    rfl
  · exact Or.inr (File.last_of_fetching hFetched.fetching)

/- A file has a last result only if it has no other ones. -/
theorem FileOk.labelled
    (h : p.FileOk f) :
    Labelled o.settings f.desk.instrument (f.results o) := by
  have hDesk := Desk.labelled h.desk.windows_nodup o.settings
  have hNoLast (hLast : f.last o = []) :
      Labelled o.settings f.desk.instrument (f.results o) := by
    unfold File.results
    rw [hLast, List.append_nil]
    exact hDesk
  rcases h.last_eq with hLast | hLast
  · exact hNoLast hLast
  · cases hResult : f.desk.lastResult? o.settings with
    | none =>
        apply hNoLast
        rw [hLast, hResult]
        rfl
    | some result =>
        rcases Desk.window_lastResult? hResult with
          ⟨hPartitioning, hWindow⟩
        have hOnly : f.results o = [result] := by
          unfold File.results
          rw [hLast, hResult, Desk.results_eq_nil hPartitioning]
          rfl
        have hMem : result ∈ f.results o := by
          simp [hOnly]
        rw [hOnly]
        constructor
        · intro other hOther
          rw [List.mem_singleton.mp hOther]
          exact instrument_fileResults hMem
        · intro other hOther
          rw [List.mem_singleton.mp hOther, hWindow, hPartitioning]
          simp
        · exact List.nodup_singleton _

/- Where names differ, so do the names of all results. -/
theorem stems_nodup
    {files : List (File κ)}
    (hFiles : ∀ f ∈ files, p.FileOk f)
    (hNames :
      (files.map fun f => f.desk.instrument.name).Nodup) :
    ((files.flatMap (File.results o)).map
      Result.fileStem).Nodup := by
  let shares := files.map fun f => (f.desk.instrument, f.results o)
  have hShares :
      ∀ share ∈ shares, Labelled o.settings share.1 share.2 := by
    intro share hShare
    rcases List.mem_map.mp hShare with ⟨f, hf, rfl⟩
    exact (hFiles f hf).labelled
  have hAll := Labelled.stems_nodup hShares
  simp only [shares, List.map_map, List.flatMap_map] at hAll
  exact hAll hNames

/- A run hands over no two results with one name. -/
theorem RunOk.stems_nodup
    {instruments : List Instrument}
    {r : Run σ κ}
    {files : List (File κ)}
    (h : p.RunOk instruments r files)
    (hNames : (instruments.map Instrument.name).Nodup) :
    (r.depot.handed.map Result.fileStem).Nodup := by
  let desks :=
    r.desks.map fun d => (d.instrument, d.results o.settings)
  let closed := files.map fun f => (f.desk.instrument, f.results o)
  have hShares :
      ∀ share ∈ desks ++ closed,
        Labelled o.settings share.1 share.2 := by
    intro share hShare
    rcases List.mem_append.mp hShare with hDesk | hFile
    · rcases List.mem_map.mp hDesk with ⟨d, hd, rfl⟩
      exact Desk.labelled (h.desks d hd).windows_nodup o.settings
    · rcases List.mem_map.mp hFile with ⟨f, hf, rfl⟩
      exact (h.filed f hf).labelled
  have hDistinct :
      ((desks ++ closed).map fun share => share.1.name).Nodup := by
    have hRoster :=
      (h.roster.map Instrument.name).nodup_iff.mpr hNames
    rw [List.append_assoc, List.map_append] at hRoster
    have hOthers := (List.nodup_append.mp hRoster).2.1
    simpa [desks, closed, Function.comp_def] using hOthers
  have hAll := Labelled.stems_nodup hShares hDistinct
  simp only [desks, closed, List.flatMap_append,
    List.flatMap_map] at hAll
  exact (h.handed.map Result.fileStem).nodup_iff.mpr hAll

end Prospect

------------------------------------------------------------
-- Whole runs
------------------------------------------------------------

/-
  Whatever a venue and a sink do, and whenever it is canceled,
  a run keeps no two results under one name, neither at its
  end nor on its way there, in whatever order its moves are
  made.  Names of windows tell instruments and windows apart
  for all results there can be.
-/
theorem Run.toEnd_targets_differ
    {σ κ : Type}
    {o : Office σ κ}
    (hValid : o.settings.Valid)
    (venue : σ)
    (kept : κ)
    (cancelAt : Option Nat)
    {instruments : List Instrument}
    (hNames : (instruments.map Instrument.name).Nodup) :
    let start := Run.start o venue kept cancelAt instruments
    ((Run.toEnd o start).depot.handed.map Result.fileStem).Nodup
      ∧ (∀ r,
          Run.Reaches o start r →
            (r.depot.handed.map Result.fileStem).Nodup)
      ∧ ∀ (x y : Result) (v w : Window),
          x.window = some v →
          y.window = some w →
          x.fileStem = y.fileStem →
            x.instrument.name = y.instrument.name ∧ v = w := by
  intro start
  have hReached (r : Run σ κ) (h : Run.Reaches o start r) :
      (r.depot.handed.map Result.fileStem).Nodup := by
    rcases
      (Prospect.anything o).runOk_of_reaches hValid.limits.1
        (fun _ => trivial) trivial h with
      ⟨files, hRun⟩
    exact hRun.stems_nodup hNames
  refine ⟨hReached _ (Run.reaches_toEnd o start), hReached, ?_⟩
  intro x y v w hx hy hStem
  exact Result.eq_of_fileStem_eq hx hy hStem

/- Two names, of which one is what the other makes of a window. -/
def lookalikeVenue : TapeVenue :=
  { tapes :=
      [("A", [Trade.synthetic "A" 1 (-5)]),
        ("A_-10_-1", [Trade.synthetic "A_-10_-1" 1 (-5)])]
    failingInstruments := []
    failingRanges := []
    latency := none }

/- Windows that are kept by themselves. -/
def lookalikeSettings : Settings :=
  { Settings.standard with
    partitioning := .perWindow }

/- What a run over these hands over. -/
def lookalikeResults : List Result :=
  let o := lookalikeVenue.office lookalikeSettings none Shelf.sink
  let r :=
    Run.toEnd o
      (Run.start o 0 (Shelf.make none) none
        [⟨"A", .future, -10, -1⟩, ⟨"A_-10_-1", .option, -10, -1⟩])
  r.depot.handed

theorem places_lookalikeResults :
    (lookalikeResults.map fun result =>
        (result.instrument.name, result.window))
      = [("A", some (.time ⟨-10, -1⟩)),
        ("A_-10_-1", some (.time ⟨-10, -1⟩))] := by
  cbv

/- The name of an instrument is a stem, and is not used twice. -/
theorem Run.toEnd_targets_differ_of_lookalikes :
    lookalikeSettings.Valid
      ∧ lookalikeResults.map Result.fileStem
        = ["A_-10_-1", "A_-10_-1_-10_-1"]
      ∧ (lookalikeResults.map Result.fileStem).Nodup := by
  have hValid : lookalikeSettings.Valid := by decide
  have hStems :
      lookalikeResults.map Result.fileStem
        = (lookalikeResults.map fun result =>
            (result.instrument.name, result.window)).map
          fun place => Result.stemOf place.1 place.2 := by
    simp [Result.fileStem, Function.comp_def]
  rw [places_lookalikeResults] at hStems
  have hDiffer :=
    @Run.toEnd_targets_differ Nat Shelf
      (lookalikeVenue.office lookalikeSettings none Shelf.sink)
      hValid 0 (Shelf.make none) none
      [⟨"A", .future, -10, -1⟩, ⟨"A_-10_-1", .option, -10, -1⟩]
      (by decide)
  exact ⟨hValid, hStems, hDiffer.1⟩

end TradeTape
