import TradeTape.Command.Fetch
import TradeTape.Proofs.Run.Balance
import TradeTape.Proofs.Store.Partitions

/-
  The legs of a fetch: one for each partition.

  A leg asks the market for its instruments, writes their
  catalog, and runs over those that it finds.  What it adds to
  the ledger are the instruments that it has found and the
  reports of its own run, one for each of them, whatever came
  of the legs before.

  Key definitions include:
    * `Leg`
    * `FetchTask.legs`
    * `Leg.Catalogued`
    * `Leg.Done`

  Key statements include:
    * `Run.roster_toEnd`
    * `Leg.catalogued_of_answered`
    * `Leg.fetchPartition_of_refused`
    * `Leg.done_of_catalogued`
-/

namespace TradeTape

------------------------------------------------------------
-- Runs
------------------------------------------------------------

/- With settings to run with, nothing keeps a run from starting. -/
theorem Run.start?_of_runnable
    {σ κ : Type}
    {o : Office σ κ}
    (hRunnable : o.settings.Runnable)
    (venue : σ)
    (kept : κ)
    (cancelAt : Option Nat)
    (instruments : List Instrument) :
    start? o venue kept cancelAt instruments
      = some (start o venue kept cancelAt instruments) :=
  if_pos hRunnable.2

/-
  At its end a run has a report for each of its instruments,
  kept or failed, and has handed over results of no others.
-/
theorem Run.roster_toEnd
    {σ κ : Type}
    {o : Office σ κ}
    (hValid : o.settings.Valid)
    (venue : σ)
    (kept : κ)
    (cancelAt : Option Nat)
    (instruments : List Instrument) :
    let r := Run.toEnd o (Run.start o venue kept cancelAt instruments)
    (r.reports.map Report.instrument).Perm instruments
      ∧ (∀ report ∈ r.reports,
          report.state = .persisted ∨ report.state = .failed)
      ∧ ∀ result ∈ r.depot.handed, result.instrument ∈ instruments := by
  intro r
  rcases Chronicle.of_toEnd hValid venue kept cancelAt instruments with
    ⟨files, h, -⟩
  have hDone : r.Done :=
    (ends_toEnd hValid venue kept cancelAt instruments).2
  rcases h.run.files_of_done hDone with ⟨hRoster, hHanded⟩
  have hReports : r.reports = files.map (File.report o) :=
    h.run.reports
  have hAgrees (f : File κ) (hFile : f ∈ files) :=
    (File.accounts_of_recorded (h.run.filed f hFile)
      (h.filed f hFile)).agrees
  refine ⟨?_, ?_, ?_⟩
  · rw [hReports, List.map_map]
    refine List.Perm.trans (List.Perm.of_eq ?_) hRoster
    apply List.map_congr_left
    intro f hFile
    rcases hAgrees f hFile with ⟨_, _, hConsistent⟩
    exact hConsistent.instrument
  · intro report hReport
    rw [hReports] at hReport
    rcases List.mem_map.mp hReport with ⟨f, hFile, rfl⟩
    rcases hAgrees f hFile with ⟨_, _, hConsistent⟩
    exact hConsistent.ended
  · intro result hResult
    rcases List.mem_flatMap.mp (hHanded.mem_iff.mp hResult) with
      ⟨f, hFile, hOwn⟩
    rw [Prospect.instrument_fileResults hOwn]
    exact
      hRoster.mem_iff.mp
        (List.mem_map_of_mem (f := fun f => f.desk.instrument) hFile)

namespace TradeFolder

variable {f : TradeFolder} {causes : FileTree.Causes}
variable {t : FileTree} {d q : Place} {results : List Result}

theorem grown_after
    (f : TradeFolder)
    (causes : FileTree.Causes)
    (t : FileTree)
    (results : List Result) :
    FileTree.Grown t ((f.sink causes).after t results) := by
  induction results generalizing t with
  | nil => exact FileTree.Grown.refl t
  | cons r rest ih => exact (f.grown_store causes t r).trans (ih _)

/- Results without a slash in their names stay in the folder. -/
theorem content?_after
    (hHere : t.locate? f.directory = some d)
    (hThere : t.IsDirectory d)
    (hNames : ∀ r ∈ results, '/' ∉ r.instrument.name.toList)
    (hOutside : q.parent ≠ d) :
    ((f.sink causes).after t results).content? q = t.content? q := by
  induction results generalizing t with
  | nil => rfl
  | cons r rest ih =>
      rcases List.forall_mem_cons.mp hNames with ⟨hFirst, hRest⟩
      have hGrown := f.grown_store causes t r
      have hNext :=
        ih (FileTree.locate?_of_stays hGrown.stays hHere)
          (hGrown.stays d hThere) hRest
      exact hNext.trans (content?_store hHere hThere hFirst hOutside)

end TradeFolder

------------------------------------------------------------
-- Legs
------------------------------------------------------------

/- A partition to fetch, and the ledger before it. -/
structure Leg (σ : Type) where
  partition : Partition
  before : Ledger σ

namespace FetchTask

variable {σ : Type}

/- The directory below which everything is kept. -/
def base (k : FetchTask σ) : Path :=
  k.selection.scope.baseDirectory

/- The legs over some partitions, each after the one before. -/
def legs (k : FetchTask σ) : List Partition → Ledger σ → List (Leg σ)
  | [], _ => []
  | p :: rest, l =>
      { partition := p, before := l }
        :: legs k rest (Ledger.fetchPartition k p l).2

end FetchTask

namespace Leg

variable {σ : Type}

/- What the market answers when it is asked for instruments. -/
def answer
    (k : FetchTask σ)
    (leg : Leg σ) :
    Except Deribit.ApiFault (List Deribit.ListedInstrument) :=
  (k.market.listing leg.partition.kind leg.partition.expired
    leg.before.market).1

/- The rows of the catalog of a leg. -/
def listed
    (k : FetchTask σ)
    (leg : Leg σ) : List Deribit.ListedInstrument :=
  match leg.answer k with
  | .ok listed => listed
  | .error _ => []

/- Whether the market has answered with the catalog. -/
def Answered
    (k : FetchTask σ)
    (leg : Leg σ) : Prop :=
  leg.answer k = .ok (leg.listed k)

/- The instruments that the rows of the catalog stand for. -/
def instruments
    (k : FetchTask σ)
    (leg : Leg σ) : List Instrument :=
  (leg.listed k).filterMap fun i => i.instrument?.toOption

/- The text of the catalog. -/
def catalogText
    (k : FetchTask σ)
    (leg : Leg σ) : String :=
  Catalog.text ((leg.listed k).map Deribit.ListedInstrument.row)

/- The ledger when the catalog is written. -/
def catalogued
    (k : FetchTask σ)
    (leg : Leg σ) : Ledger σ :=
  (leg.before.loadCatalog k.market k.base leg.partition).2

/- The folder of the files with trades. -/
def folder
    (k : FetchTask σ)
    (leg : Leg σ) : TradeFolder :=
  { directory := leg.partition.directory k.base }

/- The run over the instruments, at its end. -/
def run
    (k : FetchTask σ)
    (leg : Leg σ) : Run σ FileTree :=
  let o := Ledger.officeFor k leg.partition (leg.folder k)
  let files :=
    (TradeFolder.create k.base leg.partition
      (leg.catalogued k).files).2
  Run.toEnd o
    (Run.start o (leg.catalogued k).market files none
      (leg.instruments k))

/- The reports of the run. -/
def reports
    (k : FetchTask σ)
    (leg : Leg σ) : List Report :=
  (leg.run k).reports

/- The ledger after the leg. -/
def after
    (k : FetchTask σ)
    (leg : Leg σ) : Ledger σ :=
  (Ledger.fetchPartition k leg.partition leg.before).2

variable {k : FetchTask σ} {leg : Leg σ} {t : FileTree}

theorem answered_of_isOk
    (h : (leg.answer k).isOk = true) :
    leg.Answered k := by
  unfold Answered listed
  cases hAnswer : leg.answer k with
  | ok listed => rfl
  | error f =>
      rw [hAnswer] at h
      cases h

/- A market in the same state has the same instruments. -/
theorem instruments_congr
    {leg' : Leg σ}
    (hPartition : leg.partition = leg'.partition)
    (hMarket : leg.before.market = leg'.before.market) :
    leg.instruments k = leg'.instruments k := by
  unfold instruments listed answer
  rw [hPartition, hMarket]

theorem instruments_ne_nil_iff :
    leg.instruments k ≠ []
      ↔ ∃ row ∈ leg.listed k, ∃ i, row.instrument? = .ok i := by
  unfold instruments
  rw [ne_eq, List.filterMap_eq_nil_iff]
  simp only [not_forall]
  refine exists_congr fun row => ?_
  cases row.instrument? with
  | error f => simp [Except.toOption]
  | ok i => simp [Except.toOption]

------------------------------------------------------------
-- Catalogs
------------------------------------------------------------

/-
  A leg whose catalog is written: the ledger has its
  instruments, and its file is the only one that is new.
-/
structure Catalogued
    (k : FetchTask σ)
    (t : FileTree)
    (leg : Leg σ) : Prop where
  loaded :
    leg.before.loadCatalog k.market k.base leg.partition
      = (.ok (leg.instruments k), leg.catalogued k)
  instruments :
    (leg.catalogued k).instruments
      = leg.before.instruments ++ leg.instruments k
  reports : (leg.catalogued k).reports = leg.before.reports
  grown :
    FileTree.Grown (t.createDirectories k.base).2
      (leg.catalogued k).files
  follows :
    FileTree.Grown (t.createDirectories k.base).2 leg.before.files →
      FileTree.Grown leg.before.files (leg.catalogued k).files
  located :
    (leg.catalogued k).files.locate?
        (leg.partition.catalogPath k.base)
      = some (leg.partition.catalogPlace k.base)
  content :
    ∀ q,
      (leg.catalogued k).files.content? q
        = if q = leg.partition.catalogPlace k.base then
            some (.text (leg.catalogText k))
          else leg.before.files.content? q

/- The ledger when the market has answered, and all is written. -/
theorem loadCatalog_eq
    (hAnswered : leg.Answered k)
    {path : Path}
    {files : FileTree}
    (hWrite :
      Catalog.write k.base leg.partition
          ((leg.listed k).map Deribit.ListedInstrument.row)
          leg.before.files
        = (.ok path, files)) :
    leg.before.loadCatalog k.market k.base leg.partition
      = (.ok (leg.instruments k),
          { leg.before with
            market :=
              (k.market.listing leg.partition.kind
                leg.partition.expired leg.before.market).2
            files := files
            instruments :=
              leg.before.instruments ++ leg.instruments k }) := by
  unfold Answered answer at hAnswered
  unfold Ledger.loadCatalog
  simp only [hAnswered, hWrite]
  rfl

/- The catalog of a partition that fits is written. -/
theorem catalogued_of_answered
    (hAnswered : leg.Answered k)
    (hServed : leg.partition.Served)
    (hFits : leg.partition.FitsIn k.base t)
    (hSince : FileTree.Since k.base t leg.before.files) :
    leg.Catalogued k t := by
  rcases Partition.exists_catalogued hServed hFits hSince with
    ⟨u, hMade, hLocate, hRoom, hGrown, hGrows⟩
  rcases
    Catalog.exists_write_of_made hMade ⟨_, hLocate, hRoom⟩
      ((leg.listed k).map Deribit.ListedInstrument.row) with
    ⟨written, hFile, hWrite⟩
  have hLoaded := loadCatalog_eq hAnswered hWrite
  have hAfter :
      leg.catalogued k =
        { leg.before with
          market :=
            (k.market.listing leg.partition.kind
              leg.partition.expired leg.before.market).2
          files := written
          instruments :=
            leg.before.instruments ++ leg.instruments k } :=
    congrArg Prod.snd hLoaded
  have hSet :
      written
        = u.set (leg.partition.catalogPlace k.base)
          (.file (.text (leg.catalogText k))) := by
    rcases FileTree.writeFile?_eq_some_iff.mp hFile with
      ⟨p, hThere, -, hSet⟩
    rw [hLocate] at hThere
    rw [hSet, Option.some.inj hThere]
    rfl
  have hLast : FileTree.Grown u written := by
    rw [hSet]
    exact
      FileTree.grown_set_file hRoom.1
        (Or.inl (hServed.ofFile_catalogPlace k.base)) _
  refine
    { loaded := hAfter ▸ hLoaded
      instruments := by rw [hAfter]
      reports := by rw [hAfter]
      grown := ?_
      follows := ?_
      located := ?_
      content := ?_ }
  · rw [hAfter]
    exact hGrown.trans hLast
  · intro hBefore
    rw [hAfter]
    exact (hGrows hBefore).trans hLast
  · rw [hAfter]
    change written.locate? _ = _
    rw [FileTree.locate?_congr
      (FileTree.isDirectory_writeFile?_iff hFile), hLocate]
  · intro q
    have hDirectories :=
      FileTree.content?_createDirectories leg.before.files
        (leg.partition.catalogPath k.base).parent q
    rw [hMade] at hDirectories
    rw [hAfter]
    change written.content? q = _
    rw [hSet, FileTree.content?_set_file hRoom.1, hDirectories]

------------------------------------------------------------
-- Whole legs
------------------------------------------------------------

/-
  A leg that is done: its run has reported on each of its
  instruments, and the ledger has the reports.
-/
structure Done
    (k : FetchTask σ)
    (t : FileTree)
    (leg : Leg σ) : Prop where
  fetched :
    Ledger.fetchPartition k leg.partition leg.before
      = (.ok (), leg.after k)
  instruments :
    (leg.after k).instruments
      = leg.before.instruments ++ leg.instruments k
  reports :
    (leg.after k).reports = leg.before.reports ++ leg.reports k
  roster :
    ((leg.reports k).map Report.instrument).Perm (leg.instruments k)
  ended :
    ∀ report ∈ leg.reports k,
      report.state = .persisted ∨ report.state = .failed
  grown :
    FileTree.Grown (leg.catalogued k).files (leg.after k).files
  spared :
    (∀ i ∈ leg.instruments k, '/' ∉ i.name.toList) →
      ∀ q : Place,
        q.parent ≠ (leg.partition.directory k.base).place →
          (leg.after k).files.content? q
            = (leg.catalogued k).files.content? q

/- A partition without instruments is left after its catalog. -/
theorem fetchPartition_of_nil
    (h : leg.Catalogued k t)
    (hNone : leg.instruments k = []) :
    Ledger.fetchPartition k leg.partition leg.before
      = (.ok (), leg.catalogued k) := by
  have hLoaded := h.loaded
  unfold FetchTask.base at hLoaded
  unfold Ledger.fetchPartition
  simp only [hLoaded, hNone]

/- The folder of a partition, when its directory is made. -/
theorem create_eq
    {files : FileTree}
    (hMade :
      (leg.catalogued k).files.createDirectories
          (leg.partition.directory k.base)
        = (true, files)) :
    TradeFolder.create k.base leg.partition (leg.catalogued k).files
      = (.ok (leg.folder k), files) := by
  unfold TradeFolder.create Partition.prepare
  simp only [hMade]
  rfl

/- A partition with instruments is run over, and nothing else. -/
theorem fetchPartition_eq
    (h : leg.Catalogued k t)
    (hSome : leg.instruments k ≠ [])
    (hValid : (k.rules.settings leg.partition.kind).Valid)
    (hNoTable : k.rules.saveTable = false)
    {files : FileTree}
    (hMade :
      (leg.catalogued k).files.createDirectories
          (leg.partition.directory k.base)
        = (true, files)) :
    Ledger.fetchPartition k leg.partition leg.before
      = Ledger.runInstruments
          (Ledger.officeFor k leg.partition (leg.folder k))
          (leg.instruments k)
          { leg.catalogued k with files := files } := by
  have hFolder := create_eq hMade
  have hProblem :
      (k.rules.settings leg.partition.kind).problem? = none :=
    hValid
  have hLoaded := h.loaded
  rcases List.exists_cons_of_ne_nil hSome with ⟨i, rest, hList⟩
  rw [hList] at hLoaded ⊢
  unfold FetchTask.base at hLoaded hFolder
  unfold Ledger.fetchPartition
  simp only [hLoaded]
  unfold Ledger.fetchInstruments
  simp only [hFolder, hProblem, hNoTable, Bool.false_eq_true, if_false]
  generalize Ledger.runInstruments _ _ _ = done
  rcases done with ⟨_ | _, _⟩ <;> rfl

theorem fetchPartition_of_some
    (h : leg.Catalogued k t)
    (hSome : leg.instruments k ≠ [])
    (hRunnable : (k.rules.settings leg.partition.kind).Runnable)
    (hNoTable : k.rules.saveTable = false)
    {files : FileTree}
    (hMade :
      (leg.catalogued k).files.createDirectories
          (leg.partition.directory k.base)
        = (true, files)) :
    Ledger.fetchPartition k leg.partition leg.before
      = (.ok (),
          { leg.catalogued k with
            market := (leg.run k).crew.world.venue
            files := (leg.run k).kept
            reports :=
              (leg.catalogued k).reports ++ leg.reports k }) := by
  have hStart :=
    Run.start?_of_runnable
      (o := Ledger.officeFor k leg.partition (leg.folder k)) hRunnable
      (leg.catalogued k).market files none (leg.instruments k)
  rw [fetchPartition_eq h hSome hRunnable.1 hNoTable hMade]
  unfold run reports run
  rw [create_eq hMade]
  unfold Ledger.runInstruments
  simp only [hStart]

/- Without a gate for its calls the program breaks off. -/
theorem fetchPartition_of_refused
    (h : leg.Catalogued k t)
    (hSome : leg.instruments k ≠ [])
    (hValid : (k.rules.settings leg.partition.kind).Valid)
    (hRefused :
      Gate.maxPermits
        < (k.rules.settings leg.partition.kind).maxInFlight)
    (hNoTable : k.rules.saveTable = false)
    {files : FileTree}
    (hMade :
      (leg.catalogued k).files.createDirectories
          (leg.partition.directory k.base)
        = (true, files)) :
    Ledger.fetchPartition k leg.partition leg.before
      = (.error .crashed, { leg.catalogued k with files := files }) := by
  have hStart :
      Run.start? (Ledger.officeFor k leg.partition (leg.folder k))
          (leg.catalogued k).market files none (leg.instruments k)
        = none :=
    if_neg (Nat.not_le_of_lt hRefused)
  rw [fetchPartition_eq h hSome hValid hNoTable hMade]
  unfold Ledger.runInstruments
  simp only [hStart]

/- What a run leaves in the tree that it was given. -/
theorem kept_run
    (k : FetchTask σ)
    (leg : Leg σ)
    {files : FileTree}
    (hFiles :
      (TradeFolder.create k.base leg.partition
        (leg.catalogued k).files).2 = files) :
    (leg.run k).kept
      = ((leg.folder k).sink k.causes).after files
          (leg.run k).depot.handed := by
  unfold run
  rw [hFiles]
  exact
    (Run.handed_toEnd (Ledger.officeFor k leg.partition (leg.folder k))
      (leg.catalogued k).market files none (leg.instruments k)).kept

/- The reports and the results of the run are of its instruments. -/
theorem roster_run
    (leg : Leg σ)
    (hValid : (k.rules.settings leg.partition.kind).Valid) :
    ((leg.reports k).map Report.instrument).Perm (leg.instruments k)
      ∧ (∀ report ∈ leg.reports k,
          report.state = .persisted ∨ report.state = .failed)
      ∧ ∀ result ∈ (leg.run k).depot.handed,
          result.instrument ∈ leg.instruments k :=
  Run.roster_toEnd
    (o := Ledger.officeFor k leg.partition (leg.folder k))
    hValid _ _ none (leg.instruments k)

/- A leg comes to its end, whatever its run has come to. -/
theorem done_of_catalogued
    (h : leg.Catalogued k t)
    (hServed : leg.partition.Served)
    (hFits : leg.partition.FitsIn k.base t)
    (hRunnable : (k.rules.settings leg.partition.kind).Runnable)
    (hNoTable : k.rules.saveTable = false) :
    leg.Done k t := by
  rcases leg.roster_run hRunnable.1 with ⟨hRoster, hEnded, hHanded⟩
  by_cases hNone : leg.instruments k = []
  · have hFetched := fetchPartition_of_nil h hNone
    have hAfter : leg.after k = leg.catalogued k :=
      congrArg Prod.snd hFetched
    have hReports : leg.reports k = [] := by
      rw [hNone] at hRoster
      exact List.map_eq_nil_iff.mp hRoster.eq_nil
    exact
      { fetched := hAfter ▸ hFetched
        instruments := by rw [hAfter, h.instruments]
        reports := by
          rw [hAfter, h.reports, hReports, List.append_nil]
        roster := hRoster
        ended := hEnded
        grown := by
          rw [hAfter]
          exact FileTree.Grown.refl _
        spared := fun _ _ _ => by rw [hAfter] }
  · rcases Partition.exists_opened hServed hFits h.grown with
      ⟨files, hMade, hHere, hThere, hGrown⟩
    have hFetched :=
      fetchPartition_of_some h hNone hRunnable hNoTable hMade
    have hFiles : (leg.after k).files = (leg.run k).kept :=
      congrArg (fun done => done.2.files) hFetched
    have hKept :=
      kept_run k leg (congrArg Prod.snd (create_eq hMade))
    refine
      { fetched := ?_
        instruments := ?_
        reports := ?_
        roster := hRoster
        ended := hEnded
        grown := ?_
        spared := ?_ }
    · have hFirst :
          (Ledger.fetchPartition k leg.partition leg.before).1 = .ok () :=
        congrArg (fun done => done.1) hFetched
      exact Prod.ext hFirst rfl
    · rw [← h.instruments]
      exact congrArg (fun done => done.2.instruments) hFetched
    · rw [← h.reports]
      exact congrArg (fun done => done.2.reports) hFetched
    · rw [hFiles, hKept]
      exact
        hGrown.trans ((leg.folder k).grown_after k.causes files _)
    · intro hNames q hOutside
      have hSame :=
        FileTree.content?_createDirectories (leg.catalogued k).files
          (leg.partition.directory k.base) q
      rw [hMade] at hSame
      rw [hFiles, hKept, ← hSame]
      apply TradeFolder.content?_after hHere hThere
      · intro result hResult
        exact hNames _ (hHanded result hResult)
      · exact hOutside

end Leg

end TradeTape
