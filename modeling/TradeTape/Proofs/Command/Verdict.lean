import TradeTape.Command.Action
import TradeTape.Proofs.Command.Legs
import TradeTape.Proofs.Command.Limits
import TradeTape.Proofs.Retry.Course

/-
  How a fetch ends tells what came of it.

  All partitions of a selection are fetched, one leg after the
  other, and the verdict is about all of their instruments.  It
  is a success just when some instrument was found and each of
  them was kept, and otherwise it counts those that failed.

  Key definitions include:
    * `FetchTask.Plain`
    * `FetchTask.Tells`
    * `FetchTask.BreaksOff`

  Key statements include:
    * `FetchTask.legs_done`
    * `FetchTask.forAll_legs`
    * `FetchTask.catalog_stays`
    * `Ledger.verdict_eq_ok_iff`
    * `Ledger.verdict_of_failed`
    * `FetchTask.fetch_tells`
    * `FetchTask.fetch_breaks_off`
    * `Command.run_fetch_tells`
-/

namespace TradeTape

------------------------------------------------------------
-- Selections
------------------------------------------------------------

namespace Ledger

variable {s : Selection} {p p' : Partition}

theorem served_of_mem_partitions
    (hMem : p ∈ partitions s) :
    p.Served ∧ p.currency = Named.name s.currency
      ∧ p.kind ∈ s.scope.kinds.kinds := by
  rcases List.mem_flatMap.mp hMem with ⟨kind, hKind, hStates⟩
  rcases List.mem_map.mp hStates with ⟨expired, -, rfl⟩
  exact ⟨⟨s.currency, rfl⟩, rfl, hKind⟩

theorem nodup_partitions (s : Selection) : (partitions s).Nodup := by
  unfold partitions
  cases s.scope.kinds <;> cases s.scope.expiry <;>
    simp [KindChoice.kinds, ExpiryChoice.states]

section Steps

variable {σ α : Type} {act : α → Step σ} {a : α} {l l' : Ledger σ}

theorem forAll_cons_of_ok
    (h : act a l = (.ok (), l'))
    (rest : List α) :
    forAll act (a :: rest) l = forAll act rest l' := by
  rw [forAll, h]

/- What comes after a step that fails is not done. -/
theorem forAll_cons_of_error
    {f : CommandFault}
    (h : act a l = (.error f, l'))
    (rest : List α) :
    forAll act (a :: rest) l = (.error f, l') := by
  rw [forAll, h]

end Steps

end Ledger

namespace FetchTask

variable {σ : Type} {k : FetchTask σ} {t : FileTree}
variable {ps : List Partition} {l l' : Ledger σ}

------------------------------------------------------------
-- One leg after the other
------------------------------------------------------------

theorem map_partition_legs
    (k : FetchTask σ)
    (ps : List Partition)
    (l : Ledger σ) :
    (k.legs ps l).map Leg.partition = ps := by
  induction ps generalizing l with
  | nil => rfl
  | cons p rest ih => exact congrArg (p :: ·) (ih _)

/-
  Every leg is done.  Whatever one comes to, the tree that it
  leaves has room for the next.
-/
theorem legs_done
    (hServed : ∀ p ∈ ps, p.Served)
    (hFits : ∀ p ∈ ps, p.FitsIn k.base t)
    (hRunnable : ∀ p ∈ ps, (k.rules.settings p.kind).Runnable)
    (hNoTable : k.rules.saveTable = false)
    (hSince : FileTree.Since k.base t l.files)
    (hAnswered : ∀ leg ∈ k.legs ps l, leg.Answered k) :
    ∀ leg ∈ k.legs ps l, leg.Catalogued k t ∧ leg.Done k t := by
  induction ps generalizing l with
  | nil => exact fun _ hMem => absurd hMem List.not_mem_nil
  | cons p rest ih =>
      rcases List.forall_mem_cons.mp hServed with ⟨hFirst, hServed⟩
      rcases List.forall_mem_cons.mp hFits with ⟨hRoom, hFits⟩
      rcases List.forall_mem_cons.mp hRunnable with
        ⟨hRules, hRunnable⟩
      rcases List.forall_mem_cons.mp hAnswered with
        ⟨hAnswer, hAnswered⟩
      have hCatalogued :=
        Leg.catalogued_of_answered hAnswer hFirst hRoom hSince
      have hDone :=
        Leg.done_of_catalogued hCatalogued hFirst hRoom hRules hNoTable
      refine List.forall_mem_cons.mpr ⟨⟨hCatalogued, hDone⟩, ?_⟩
      exact
        ih hServed hFits hRunnable
          (Or.inr (hCatalogued.grown.trans hDone.grown)) hAnswered

/- What a fetch over some partitions adds to the ledger. -/
theorem forAll_legs
    (hDone : ∀ leg ∈ k.legs ps l, leg.Done k t) :
    ∃ l',
      Ledger.forAll (Ledger.fetchPartition k) ps l = (.ok (), l')
        ∧ l'.instruments
          = l.instruments ++ (k.legs ps l).flatMap (Leg.instruments k)
        ∧ l'.reports
          = l.reports ++ (k.legs ps l).flatMap (Leg.reports k) := by
  induction ps generalizing l with
  | nil => exact ⟨l, rfl, by simp [legs], by simp [legs]⟩
  | cons p rest ih =>
      rcases List.forall_mem_cons.mp hDone with ⟨hFirst, hRest⟩
      rcases ih hRest with ⟨l', hAll, hInstruments, hReports⟩
      refine ⟨l', ?_, ?_, ?_⟩
      · exact
          (Ledger.forAll_cons_of_ok hFirst.fetched rest).trans hAll
      · rw [hInstruments]
        change (Leg.after k ⟨p, l⟩).instruments ++ _ = _
        rw [hFirst.instruments, List.append_assoc]
        rfl
      · rw [hReports]
        change (Leg.after k ⟨p, l⟩).reports ++ _ = _
        rw [hFirst.reports, List.append_assoc]
        rfl

theorem forAll_cons
    {p : Partition}
    (hDone : Leg.Done k t ⟨p, l⟩)
    (hAll :
      Ledger.forAll (Ledger.fetchPartition k) (p :: ps) l
        = (.ok (), l')) :
    Ledger.forAll (Ledger.fetchPartition k) ps (Leg.after k ⟨p, l⟩)
      = (.ok (), l') := by
  exact (Ledger.forAll_cons_of_ok hDone.fetched ps).symm.trans hAll

------------------------------------------------------------
-- Catalogs
------------------------------------------------------------

/- Trees grow from leg to leg. -/
theorem grown_legs
    (hDone :
      ∀ leg ∈ k.legs ps l, leg.Catalogued k t ∧ leg.Done k t)
    (hGrown :
      FileTree.Grown (t.createDirectories k.base).2 l.files)
    (hAll :
      Ledger.forAll (Ledger.fetchPartition k) ps l = (.ok (), l')) :
    FileTree.Grown l.files l'.files := by
  induction ps generalizing l with
  | nil =>
      cases hAll
      exact FileTree.Grown.refl _
  | cons p rest ih =>
      rcases List.forall_mem_cons.mp hDone with
        ⟨⟨hCatalogued, hFirst⟩, hRest⟩
      exact
        ((hCatalogued.follows hGrown).trans hFirst.grown).trans
          (ih hRest (hCatalogued.grown.trans hFirst.grown)
            (forAll_cons hFirst hAll))

/- Instruments whose names have no slash. -/
def Plain
    (k : FetchTask σ)
    (legs : List (Leg σ)) : Prop :=
  ∀ leg ∈ legs, ∀ i ∈ leg.instruments k, '/' ∉ i.name.toList

/- A file stays as it is where no leg writes another one. -/
theorem catalog_stays
    {q : Place}
    (hDone :
      ∀ leg ∈ k.legs ps l, leg.Catalogued k t ∧ leg.Done k t)
    (hPlain : k.Plain (k.legs ps l))
    (hOther :
      ∀ p ∈ ps,
        q ≠ p.catalogPlace k.base
          ∧ q.parent ≠ (p.directory k.base).place)
    (hAll :
      Ledger.forAll (Ledger.fetchPartition k) ps l = (.ok (), l')) :
    l'.files.content? q = l.files.content? q := by
  induction ps generalizing l with
  | nil =>
      cases hAll
      rfl
  | cons p rest ih =>
      rcases List.forall_mem_cons.mp hDone with
        ⟨⟨hCatalogued, hFirst⟩, hRest⟩
      rcases List.forall_mem_cons.mp hPlain with ⟨hNames, hPlain⟩
      rcases List.forall_mem_cons.mp hOther with
        ⟨⟨hElsewhere, hOutside⟩, hOther⟩
      have hLater := ih hRest hPlain hOther (forAll_cons hFirst hAll)
      rw [hLater]
      change (Leg.after k ⟨p, l⟩).files.content? q = _
      rw [hFirst.spared hNames q hOutside, hCatalogued.content,
        if_neg hElsewhere]

/-
  A catalog is a file at the end, and the same one unless a
  name leads out of the directory of its partition.
-/
theorem catalogs_kept
    {currency : Deribit.Currency}
    (hServed : ∀ p ∈ ps, p.currency = Named.name currency)
    (hNodup : ps.Nodup)
    (hDone :
      ∀ leg ∈ k.legs ps l, leg.Catalogued k t ∧ leg.Done k t)
    (hAll :
      Ledger.forAll (Ledger.fetchPartition k) ps l = (.ok (), l')) :
    ∀ leg ∈ k.legs ps l,
      let path := leg.partition.catalogPath k.base
      (leg.catalogued k).files.contentAt? path
          = some (.text (leg.catalogText k))
        ∧ (l'.files.contentAt? path).isSome = true
        ∧ (k.Plain (k.legs ps l) →
            l'.files.contentAt? path
              = some (.text (leg.catalogText k))) := by
  induction ps generalizing l with
  | nil => exact fun _ hMem => absurd hMem List.not_mem_nil
  | cons p rest ih =>
      rcases List.forall_mem_cons.mp hDone with
        ⟨⟨hCatalogued, hFirst⟩, hRest⟩
      rcases List.forall_mem_cons.mp hServed with
        ⟨hCurrency, hServed⟩
      rcases List.nodup_cons.mp hNodup with ⟨hFresh, hNodup⟩
      have hThen := forAll_cons hFirst hAll
      have hLater := ih hServed hNodup hRest hThen
      have hGrown :=
        hFirst.grown.trans
          (grown_legs hRest (hCatalogued.grown.trans hFirst.grown)
            hThen)
      refine List.forall_mem_cons.mpr ⟨?_, ?_⟩
      · intro path
        have hHere : p.Served := ⟨currency, hCurrency⟩
        have hWritten := hCatalogued.content (p.catalogPlace k.base)
        rw [if_pos rfl] at hWritten
        have hLocated : l'.files.locate? path
            = some (p.catalogPlace k.base) :=
          FileTree.locate?_of_stays hGrown.stays hCatalogued.located
        refine ⟨?_, ?_, ?_⟩
        · unfold FileTree.contentAt?
          rw [hCatalogued.located]
          exact hWritten
        · unfold FileTree.contentAt?
          rw [hLocated]
          apply hGrown.kept
          · rw [hWritten]
            rfl
          · exact
              Place.not_ofDraft_of_endsIn
                (hHere.ofFile_catalogPlace k.base)
        · intro hPlain
          rcases List.forall_mem_cons.mp hPlain with ⟨hNames, hPlain⟩
          have hStays :=
            catalog_stays (q := p.catalogPlace k.base) hRest hPlain
              (fun p' hMem =>
                ⟨fun hSame =>
                    hFresh
                      (Partition.eq_of_catalogPlace hHere
                          ((hServed p' hMem).trans hCurrency.symm)
                          hSame ▸ hMem),
                  Partition.parent_catalogPlace_ne hHere
                    ⟨currency, hServed p' hMem⟩ k.base⟩)
              hThen
          have hSpared :=
            hFirst.spared hNames (p.catalogPlace k.base)
              (Partition.parent_catalogPlace_ne hHere hHere k.base)
          unfold FileTree.contentAt?
          rw [hLocated]
          exact hStays.trans (hSpared.trans hWritten)
      · intro leg hMem path
        rcases hLater leg hMem with ⟨hText, hFile, hSame⟩
        refine ⟨hText, hFile, ?_⟩
        intro hPlain
        exact hSame (List.forall_mem_cons.mp hPlain).2

end FetchTask

------------------------------------------------------------
-- Verdicts
------------------------------------------------------------

/- Those that failed are counted by the summary. -/
theorem Summary.length_failed_ofReports
    {reports : List Report}
    (hEnded :
      ∀ r ∈ reports, r.state = .persisted ∨ r.state = .failed) :
    (Summary.ofReports reports).failed.length
      = reports.countP fun r => r.state = .failed := by
  rw [Summary.ofReports_eq]
  simp only
  induction reports with
  | nil => rfl
  | cons r rest ih =>
      rcases List.forall_mem_cons.mp hEnded with ⟨hFirst, hRest⟩
      rw [List.filterMap_cons, List.countP_cons, Report.failed?]
      rcases hFirst with hState | hState <;>
        simp [hState, ih hRest]

namespace Ledger

variable {σ : Type} {l : Ledger σ}

theorem success_summary :
    l.summary.Success ↔ ∀ r ∈ l.reports, r.state = .persisted :=
  Summary.success_ofReports l.reports

theorem verdict_eq_nothingFound_iff :
    l.verdict = .error .nothingFound ↔ l.instruments = [] := by
  unfold verdict
  by_cases hNone : l.instruments = []
  · simp [hNone]
  · rw [if_neg hNone]
    split <;> simp [hNone]

theorem verdict_eq_ok_iff :
    l.verdict = .ok ()
      ↔ l.instruments ≠ [] ∧ ∀ r ∈ l.reports, r.state = .persisted := by
  rw [← success_summary]
  unfold verdict
  by_cases hNone : l.instruments = []
  · simp [hNone]
  · rw [if_neg hNone]
    by_cases hKept : l.summary.Success
    · exact ⟨fun _ => ⟨hNone, hKept⟩, fun _ => if_pos hKept⟩
    · simp [hKept]

/- Where an instrument failed, all that failed are counted. -/
theorem verdict_of_failed
    (hCount : l.reports.length = l.instruments.length)
    (hEnded :
      ∀ r ∈ l.reports, r.state = .persisted ∨ r.state = .failed)
    (hFailed : ∃ r ∈ l.reports, r.state = .failed) :
    l.verdict =
      .error
        (.failed
          (l.reports.countP fun r => r.state = .failed)
          l.instruments.length) := by
  rcases hFailed with ⟨r, hMem, hState⟩
  have hSome : l.instruments ≠ [] := by
    intro hNone
    rw [hNone] at hCount
    rw [List.eq_nil_of_length_eq_zero hCount] at hMem
    exact List.not_mem_nil hMem
  have hLost : ¬l.summary.Success := by
    intro hKept
    rw [success_summary.mp hKept r hMem] at hState
    cases hState
  have hAll : l.summary.instruments = l.reports.length := by
    unfold summary
    rw [Summary.ofReports_eq]
  unfold verdict
  rw [if_neg hSome, if_neg hLost, hAll, hCount]
  unfold summary
  rw [Summary.length_failed_ofReports hEnded]

end Ledger

------------------------------------------------------------
-- Whole fetches
------------------------------------------------------------

/-
  What a fetch tells, in its result and in the ledger that it
  leaves, of all its legs together.
-/
structure FetchTask.Tells
    {σ : Type}
    (k : FetchTask σ)
    (legs : List (Leg σ))
    (done : Except CommandFault Unit × Ledger σ) : Prop where
  complete : legs.map Leg.partition = Ledger.partitions k.selection
  backfilled :
    ∀ leg ∈ legs,
      ((leg.reports k).map Report.instrument).Perm (leg.instruments k)
        ∧ ∀ report ∈ leg.reports k,
          report.state = .persisted ∨ report.state = .failed
  recorded :
    done.2.instruments = legs.flatMap (Leg.instruments k)
      ∧ done.2.reports = legs.flatMap (Leg.reports k)
  catalogs :
    ∀ leg ∈ legs,
      let path := leg.partition.catalogPath k.base
      (leg.catalogued k).files.contentAt? path
          = some (.text (leg.catalogText k))
        ∧ (done.2.files.contentAt? path).isSome = true
        ∧ (k.Plain legs →
            done.2.files.contentAt? path
              = some (.text (leg.catalogText k)))
  ok_iff :
    done.1 = .ok ()
      ↔ (∃ leg ∈ legs, ∃ row ∈ leg.listed k, ∃ i,
            row.instrument? = .ok i)
          ∧ ∀ leg ∈ legs, ∀ report ∈ leg.reports k,
            report.state = .persisted
  nothing_iff :
    done.1 = .error .nothingFound
      ↔ ∀ leg ∈ legs, leg.instruments k = []
  failed :
    (∃ leg ∈ legs, ∃ report ∈ leg.reports k,
        report.state = .failed) →
      done.1
        = .error
          (.failed
            (total
              (legs.map fun leg =>
                (leg.reports k).countP fun r => r.state = .failed))
            (total (legs.map fun leg => (leg.instruments k).length)))

/-
  How a fetch ends whose runs have no gate: it breaks off at
  the first partition with an instrument.
-/
structure FetchTask.BreaksOff
    {σ : Type}
    (k : FetchTask σ)
    (legs : List (Leg σ))
    (result : Except CommandFault Unit) : Prop where
  crashed_iff :
    result = .error .crashed
      ↔ ∃ leg ∈ legs, leg.instruments k ≠ []
  nothing_iff :
    result = .error .nothingFound
      ↔ ∀ leg ∈ legs, leg.instruments k = []

/- Some leg finds an instrument just when some row is one. -/
theorem FetchTask.flatMap_instruments_ne_nil_iff
    {σ : Type}
    {k : FetchTask σ}
    {legs : List (Leg σ)} :
    legs.flatMap (Leg.instruments k) ≠ []
      ↔ ∃ leg ∈ legs, ∃ row ∈ leg.listed k, ∃ i,
          row.instrument? = .ok i := by
  simp only [ne_eq, List.flatMap_eq_nil_iff, not_forall]
  constructor
  · rintro ⟨leg, hLeg, hFound⟩
    exact ⟨leg, hLeg, Leg.instruments_ne_nil_iff.mp hFound⟩
  · rintro ⟨leg, hLeg, hParses⟩
    exact ⟨leg, hLeg, Leg.instruments_ne_nil_iff.mpr hParses⟩

theorem FetchTask.fetch_tells
    {σ : Type}
    {k : FetchTask σ}
    {l : Ledger σ}
    (hInstruments : l.instruments = [])
    (hReports : l.reports = [])
    (hAnswered :
      ∀ leg ∈ k.legs (Ledger.partitions k.selection) l,
        leg.Answered k)
    (hRunnable :
      ∀ kind ∈ k.selection.scope.kinds.kinds,
        (k.rules.settings kind).Runnable)
    (hFits :
      ∀ p ∈ Ledger.partitions k.selection, p.FitsIn k.base l.files)
    (hNoTable : k.rules.saveTable = false) :
    k.Tells (k.legs (Ledger.partitions k.selection) l)
      (Ledger.fetch k l) := by
  have hDone :=
    legs_done
      (fun p hMem => (Ledger.served_of_mem_partitions hMem).1) hFits
      (fun p hMem =>
        hRunnable p.kind (Ledger.served_of_mem_partitions hMem).2.2)
      hNoTable (Or.inl rfl) hAnswered
  have hEach (leg : Leg σ) (hMem : _) := (hDone leg hMem).2
  rcases forAll_legs hEach with ⟨l', hAll, hFound, hReported⟩
  rw [hInstruments, List.nil_append] at hFound
  rw [hReports, List.nil_append] at hReported
  have hFetch :
      Ledger.fetch k l = (l'.verdict, l'.print l'.summary.text) := by
    unfold Ledger.fetch
    rw [hAll]
  rw [hFetch]
  have hCatalogs :=
    catalogs_kept
      (fun p hMem => (Ledger.served_of_mem_partitions hMem).2.1)
      (Ledger.nodup_partitions k.selection) hDone hAll
  have hComplete :=
    k.map_partition_legs (Ledger.partitions k.selection) l
  generalize k.legs (Ledger.partitions k.selection) l = legs at *
  have hEnded : ∀ r ∈ l'.reports,
      r.state = .persisted ∨ r.state = .failed := by
    rw [hReported]
    intro r hMem
    rcases List.mem_flatMap.mp hMem with ⟨leg, hLeg, hReport⟩
    exact (hEach leg hLeg).ended r hReport
  have hCount : l'.reports.length = l'.instruments.length := by
    rw [hReported, hFound, List.length_flatMap, List.length_flatMap]
    congr 1
    apply List.map_congr_left
    intro leg hLeg
    simpa using (hEach leg hLeg).roster.length_eq
  refine
    { complete := hComplete
      backfilled := ?_
      recorded := ⟨hFound, hReported⟩
      catalogs := hCatalogs
      ok_iff := ?_
      nothing_iff := ?_
      failed := ?_ }
  · intro leg hLeg
    exact ⟨(hEach leg hLeg).roster, (hEach leg hLeg).ended⟩
  · rw [Ledger.verdict_eq_ok_iff, hFound, hReported,
      flatMap_instruments_ne_nil_iff]
    refine and_congr_right' ?_
    simp only [List.mem_flatMap, forall_exists_index, and_imp]
    exact
      ⟨fun hAll leg hLeg r hMem => hAll r leg hLeg hMem,
        fun hAll r leg hLeg hMem => hAll leg hLeg r hMem⟩
  · rw [Ledger.verdict_eq_nothingFound_iff, hFound,
      List.flatMap_eq_nil_iff]
  · rintro ⟨leg, hLeg, r, hReport, hState⟩
    have hMem : r ∈ l'.reports := by
      rw [hReported]
      exact List.mem_flatMap.mpr ⟨leg, hLeg, hReport⟩
    rw [Ledger.verdict_of_failed hCount hEnded ⟨r, hMem, hState⟩,
      hFound, hReported, List.countP_flatMap, List.length_flatMap,
      total_eq_sum, total_eq_sum]
    rfl

/-
  Without a gate no run is begun.  Where nothing is found, the
  fetch goes on to the next partition, and else it is over.
-/
theorem FetchTask.forAll_of_refused
    {σ : Type}
    {k : FetchTask σ}
    {t : FileTree}
    {ps : List Partition}
    {l : Ledger σ}
    (hServed : ∀ p ∈ ps, p.Served)
    (hFits : ∀ p ∈ ps, p.FitsIn k.base t)
    (hValid : ∀ p ∈ ps, (k.rules.settings p.kind).Valid)
    (hRefused : Gate.maxPermits < k.rules.maxInFlight)
    (hNoTable : k.rules.saveTable = false)
    (hSince : FileTree.Since k.base t l.files)
    (hAnswered : ∀ leg ∈ k.legs ps l, leg.Answered k)
    (hInstruments : l.instruments = []) :
    (∃ l',
        Ledger.forAll (Ledger.fetchPartition k) ps l = (.ok (), l')
          ∧ l'.instruments = []
          ∧ ∀ leg ∈ k.legs ps l, leg.instruments k = [])
      ∨ (Ledger.forAll (Ledger.fetchPartition k) ps l).1
          = .error .crashed
        ∧ ∃ leg ∈ k.legs ps l, leg.instruments k ≠ [] := by
  induction ps generalizing l with
  | nil =>
      exact
        Or.inl
          ⟨l, rfl, hInstruments, fun _ hMem =>
            absurd hMem List.not_mem_nil⟩
  | cons p rest ih =>
      rcases List.forall_mem_cons.mp hServed with ⟨hFirst, hServed⟩
      rcases List.forall_mem_cons.mp hFits with ⟨hRoom, hFits⟩
      rcases List.forall_mem_cons.mp hValid with ⟨hRules, hValid⟩
      rcases List.forall_mem_cons.mp hAnswered with
        ⟨hAnswer, hAnswered⟩
      let leg : Leg σ := ⟨p, l⟩
      have hCatalogued :=
        Leg.catalogued_of_answered hAnswer hFirst hRoom hSince
      by_cases hNone : leg.instruments k = []
      · have hFetched := Leg.fetchPartition_of_nil hCatalogued hNone
        have hAfter : leg.after k = leg.catalogued k :=
          congrArg Prod.snd hFetched
        rw [← hAfter] at hFetched
        have hStill : (leg.after k).instruments = [] := by
          rw [hAfter, hCatalogued.instruments, hNone,
            List.append_nil]
          exact hInstruments
        have hGrown : FileTree.Since k.base t (leg.after k).files := by
          rw [hAfter]
          exact Or.inr hCatalogued.grown
        rw [Ledger.forAll_cons_of_ok hFetched]
        rcases ih hServed hFits hValid hGrown hAnswered hStill with
          ⟨l', hAll, hFound, hOthers⟩ | ⟨hCrash, other, hMem, hSome⟩
        · exact
            Or.inl
              ⟨l', hAll, hFound,
                List.forall_mem_cons.mpr ⟨hNone, hOthers⟩⟩
        · exact
            Or.inr
              ⟨hCrash, other, List.mem_cons_of_mem _ hMem, hSome⟩
      · rcases
          Partition.exists_opened hFirst hRoom hCatalogued.grown with
          ⟨files, hMade, _, _, _⟩
        have hTooMany :
            Gate.maxPermits < (k.rules.settings p.kind).maxInFlight := by
          rw [(k.rules.settings_eq p.kind).1]
          exact hRefused
        have hCrash :=
          Leg.fetchPartition_of_refused hCatalogued hNone hRules
            hTooMany hNoTable hMade
        rw [Ledger.forAll_cons_of_error hCrash]
        exact Or.inr ⟨rfl, leg, List.mem_cons_self, hNone⟩

theorem FetchTask.fetch_breaks_off
    {σ : Type}
    {k : FetchTask σ}
    {l : Ledger σ}
    (hInstruments : l.instruments = [])
    (hAnswered :
      ∀ leg ∈ k.legs (Ledger.partitions k.selection) l,
        leg.Answered k)
    (hValid :
      ∀ kind ∈ k.selection.scope.kinds.kinds,
        (k.rules.settings kind).Valid)
    (hRefused : Gate.maxPermits < k.rules.maxInFlight)
    (hFits :
      ∀ p ∈ Ledger.partitions k.selection, p.FitsIn k.base l.files)
    (hNoTable : k.rules.saveTable = false) :
    k.BreaksOff (k.legs (Ledger.partitions k.selection) l)
      (Ledger.fetch k l).1 := by
  have hEither :=
    forAll_of_refused
      (fun p hMem => (Ledger.served_of_mem_partitions hMem).1) hFits
      (fun p hMem =>
        hValid p.kind (Ledger.served_of_mem_partitions hMem).2.2)
      hRefused hNoTable (Or.inl rfl) hAnswered hInstruments
  unfold Ledger.fetch
  rcases hEither with
    ⟨l', hAll, hFound, hNone⟩ | ⟨hCrash, leg, hMem, hSome⟩
  · have hVerdict : l'.verdict = .error .nothingFound :=
      Ledger.verdict_eq_nothingFound_iff.mpr hFound
    rw [hAll]
    simp only [hVerdict]
    constructor
    · simpa using hNone
    · simpa using hNone
  · generalize Ledger.forAll _ _ _ = done at hCrash
    rcases done with ⟨_, l'⟩
    cases hCrash
    constructor
    · simpa using ⟨leg, hMem, hSome⟩
    · simpa using ⟨leg, hMem, hSome⟩

------------------------------------------------------------
-- Commands
------------------------------------------------------------

/- There is always a client: retries are all that is asked for. -/
theorem Scope.client?_eq
    (s : Scope)
    (environment : Option String) :
    s.client? environment =
      .ok
        { baseUrl :=
            Deribit.Client.trimSlashes
              ((Environment.optional s.baseUrl environment).getD
                Deribit.historyUrl)
          timeoutSecs :=
            s.timeoutSecs.getD Deribit.defaultTimeoutSecs
          policy := { RetryPolicy.standard with maxRetries := s.maxRetries }
          includeOld := false
          cancelAt := none } := by
  have hBackoff :=
    RetryPolicy.backoff?_eq_ok
      (p := { RetryPolicy.standard with maxRetries := s.maxRetries })
      (show Backoff.FactorOk RetryPolicy.standard.backoffFactor by decide)
      (show 0 < RetryPolicy.standard.initialDelayMs by decide)
      (show RetryPolicy.standard.initialDelayMs
        ≤ RetryPolicy.standard.maxDelayMs by decide)
  unfold client? Deribit.Client.make?
  simp only [hBackoff]

/- The task of a fetch over a client. -/
def FetchTask.over
    {σ : Type}
    (client : Deribit.Client)
    (w : Deribit.Wire σ)
    (causes : FileTree.Causes)
    (s : Selection)
    (rules : FetchRules)
    (now : Int) : FetchTask σ :=
  { market := .ofClient client w s.currency
    selection := s
    rules := rules
    now := now
    timer := w.timer
    causes := causes }

/-
  If the market answers whenever it is asked for instruments,
  and the tree has room for the partitions, a fetch tells of
  the instruments of all of them: it succeeds just when some
  row of a catalog is an instrument and all instruments were
  kept, and it counts those that failed.  Where the rules ask
  for more calls at once than a gate has permits, it breaks
  off if there is any instrument, and does not succeed.
-/
theorem Command.run_fetch_tells
    {σ : Type}
    (w : Deribit.Wire σ)
    (causes : FileTree.Causes)
    (environment : Option String)
    (now : Int)
    {s : Selection}
    {rules : FetchRules}
    {client : Deribit.Client}
    (state : σ)
    {files : FileTree}
    (hClient : s.scope.client? environment = .ok client)
    (hValid : ∀ kind ∈ s.scope.kinds.kinds, (rules.settings kind).Valid)
    (hFits :
      ∀ p ∈ Ledger.partitions s,
        p.FitsIn s.scope.baseDirectory files)
    (hNoTable : rules.saveTable = false) :
    let k := FetchTask.over client w causes s rules now
    let legs :=
      k.legs (Ledger.partitions s)
        ((Ledger.start state files).announce s now)
    let done :=
      Command.run (.fetch s rules) w causes environment now
        (Ledger.start state files)
    (∀ leg ∈ legs, leg.Answered k) →
      (rules.maxInFlight ≤ Gate.maxPermits → k.Tells legs done)
        ∧ (Gate.maxPermits < rules.maxInFlight →
            k.BreaksOff legs done.1) := by
  intro k legs done hAnswered
  have hDone :
      done
        = Ledger.fetch k
          ((Ledger.start state files).announce s now) := by
    unfold done run
    simp only [hClient]
    rfl
  have hAnnounced :
      ((Ledger.start state files).announce s now).instruments = []
        ∧ ((Ledger.start state files).announce s now).reports = []
        ∧ ((Ledger.start state files).announce s now).files
          = files := by
    unfold Ledger.announce
    split <;> exact ⟨rfl, rfl, rfl⟩
  rcases hAnnounced with ⟨hInstruments, hReports, hFiles⟩
  rw [← hFiles] at hFits
  rw [hDone]
  constructor
  · intro hPermits
    refine
      FetchTask.fetch_tells hInstruments hReports hAnswered ?_ hFits
        hNoTable
    intro kind hKind
    refine ⟨hValid kind hKind, ?_⟩
    rw [show (k.rules.settings kind).maxInFlight = rules.maxInFlight
      from (rules.settings_eq kind).1]
    exact hPermits
  · intro hRefused
    exact
      FetchTask.fetch_breaks_off hInstruments hAnswered hValid hRefused
        hFits hNoTable

/-
  A server that lists a future and no option, and answers
  nothing when it is asked for trades.
-/
def Http.Transport.listingOnly : Http.Transport Unit :=
  fun s url =>
    let asks := fun (name : String) =>
      Deribit.Client.holds name.toList url.toList
    let body :=
      if ¬asks "get_instruments" then
        "\x7b\x7d"
      else if asks "option" then
        "\x7b\"result\":[]\x7d"
      else
        "\x7b\"result\":[\x7b\"instrument_name\":\"F\""
          ++ ",\"kind\":\"future\",\"creation_timestamp\":0"
          ++ ",\"expiration_timestamp\":0\x7d]\x7d"
    ({ duration := some 1
       result :=
        .ok
          { status := 200
            headers := []
            body := body.toUTF8.toList } },
      s)

/- The wire to that server, with a draw for each attempt. -/
def Deribit.Wire.listingOnly : Deribit.Wire Unit :=
  { transport := .listingOnly
    drawnMs := fun _ attempt => 50 * attempt }

/- Expired options and futures of a server. -/
def Selection.bothKinds : Selection :=
  { currency := .btc
    scope :=
      { Scope.standard with
        kinds := .all
        baseUrl := some "http://venue" } }

/- A client of that server. -/
def Selection.bothKindsClient : Deribit.Client :=
  { baseUrl := "http://venue"
    timeoutSecs := 60
    policy := .standard
    includeOld := false
    cancelAt := none }

/- Both kinds at once: only the second one has an instrument. -/
theorem Command.run_fetch_tells_of_listing_only :
    let s := Selection.bothKinds
    let causes : FileTree.Causes := fun _ _ => "disk full"
    let k :=
      FetchTask.over Selection.bothKindsClient .listingOnly causes s
        .standard 0
    let legs :=
      k.legs (Ledger.partitions s)
        ((Ledger.start () .empty).announce s 0)
    let done :=
      Command.run (.fetch s .standard) .listingOnly causes none 0
        (Ledger.start () .empty)
    (∀ leg ∈ legs, leg.Answered k)
      ∧ k.Tells legs done
      ∧ done.1 ≠ .error .nothingFound := by
  intro s causes k legs done
  have hClient : s.scope.client? none = .ok Selection.bothKindsClient := by
    rw [Scope.client?_eq]
    have hUrl :
        Deribit.Client.trimSlashes "http://venue" = "http://venue" := by
      decide +kernel
    exact
      congrArg
        (fun url =>
          Except.ok { Selection.bothKindsClient with baseUrl := url })
        hUrl
  have hAnswers :
      ∀ p ∈ Ledger.partitions s,
        (k.market.listing p.kind p.expired ()).1.isOk = true := by
    decide +kernel
  have hAnswered : ∀ leg ∈ legs, leg.Answered k := by
    intro leg hMem
    have hPartition := List.mem_map_of_mem (f := Leg.partition) hMem
    rw [FetchTask.map_partition_legs] at hPartition
    exact Leg.answered_of_isOk (hAnswers leg.partition hPartition)
  have hTells : k.Tells legs done :=
    (@Command.run_fetch_tells Unit .listingOnly causes none 0 s
      .standard Selection.bothKindsClient () .empty hClient
      (by decide) (by decide +kernel) rfl hAnswered).1 (by decide)
  refine ⟨hAnswered, hTells, ?_⟩
  rw [ne_eq, hTells.nothing_iff]
  intro hNone
  let future : Leg Unit :=
    { partition := ⟨"BTC", .future, true⟩
      before := Ledger.start () .empty }
  have hFound : future.instruments k ≠ [] := by
    decide +kernel
  have hFuture : future.partition ∈ legs.map Leg.partition := by
    rw [hTells.complete]
    decide
  rcases List.mem_map.mp hFuture with ⟨leg, hMem, hPartition⟩
  have hSame : leg.instruments k = future.instruments k :=
    Leg.instruments_congr hPartition rfl
  exact hFound (hSame.symm.trans (hNone leg hMem))

end TradeTape
