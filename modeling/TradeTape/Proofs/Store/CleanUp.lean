import TradeTape.Proofs.Store.Consolidation
import TradeTape.Proofs.Store.Overwriting

/-
  What a consolidation leaves when it fails.

  The files of a directory are read in the order of their
  names until one has no rows, while the table holds whatever
  was made of those before it.  No table is left then, however
  far it had come, and nothing but the table is ever touched.

  Key definitions include:
    * `Consolidation.rowsOf?`
    * `Consolidation.runThrough`
    * `Consolidation.Cleared`
    * `Consolidation.Listed`

  Key statements include:
    * `Consolidation.collect_eq_error`
    * `Consolidation.runThrough_eq_run`
    * `Consolidation.run_clears`
-/

namespace TradeTape

namespace Consolidation

------------------------------------------------------------
-- Files without rows
------------------------------------------------------------

/- The rows of a content that follows the schema. -/
def rowsOf? : Content → Option (List (List Cell))
  | .text s => rows? s
  | .table _ => none

section Collecting

variable {directory : Path}
variable {name : String}
variable {content : Content}
variable {files : List (String × Content)}

theorem collect_cons_of_none
    (hNone : rowsOf? content = none) :
    collect directory ((name, content) :: files)
      = .error (.invalidTable (directory.join name)) := by
  unfold collect
  cases content with
  | text s =>
      unfold rowsOf? at hNone
      simp only [hNone]
  | table rows => rfl

theorem collect_cons_of_some
    {rows : List (List Cell)}
    (hRows : rowsOf? content = some rows) :
    collect directory ((name, content) :: files)
      = (collect directory files).map (rows ++ ·) := by
  conv_lhs => unfold collect
  cases content with
  | text s =>
      unfold rowsOf? at hRows
      simp only [hRows]
  | table _ => cases hRows

/- Files that all have rows are collected. -/
theorem exists_collect_eq_ok
    (directory : Path)
    (hRows : ∀ f ∈ files, rowsOf? f.2 ≠ none) :
    ∃ rows, collect directory files = .ok rows := by
  induction files with
  | nil => exact ⟨[], rfl⟩
  | cons f files ih =>
      rcases List.forall_mem_cons.mp hRows with ⟨hFirst, hOthers⟩
      rcases Option.ne_none_iff_exists'.mp hFirst with ⟨rows, hSome⟩
      rcases ih hOthers with ⟨others, hRest⟩
      refine ⟨rows ++ others, ?_⟩
      rw [collect_cons_of_some hSome, hRest]
      rfl

/- The first file without rows is the one that is named. -/
theorem collect_eq_error
    (directory : Path)
    (hBad : ∃ f ∈ files, rowsOf? f.2 = none) :
    ∃ before f after,
      files = before ++ f :: after
        ∧ (∀ g ∈ before, rowsOf? g.2 ≠ none)
        ∧ rowsOf? f.2 = none
        ∧ collect directory files
          = .error (.invalidTable (directory.join f.1)) := by
  induction files with
  | nil =>
      rcases hBad with ⟨f, hMem, -⟩
      cases hMem
  | cons f files ih =>
      cases hFirst : rowsOf? f.2 with
      | none =>
          exact
            ⟨[], f, files, rfl, by simp, hFirst,
              collect_cons_of_none hFirst⟩
      | some rows =>
          have hLater : ∃ g ∈ files, rowsOf? g.2 = none := by
            rcases hBad with ⟨g, hMem, hNone⟩
            rcases List.mem_cons.mp hMem with rfl | hMem
            · rw [hFirst] at hNone
              cases hNone
            · exact ⟨g, hMem, hNone⟩
          rcases ih hLater with
            ⟨before, g, after, rfl, hBefore, hNone, hError⟩
          refine ⟨f :: before, g, after, rfl, ?_, hNone, ?_⟩
          · exact List.forall_mem_cons.mpr ⟨by simp [hFirst], hBefore⟩
          · rw [collect_cons_of_some hFirst, hError]
            rfl

end Collecting

------------------------------------------------------------
-- Consolidating bit by bit
------------------------------------------------------------

/-
  Consolidates a directory bit by bit.  The table is opened
  and then holds what it holds meanwhile; it is removed when a
  fault ends the writing or a file has no rows.
-/
def runThrough
    (w : Writing)
    (directory : Path)
    (t : FileTree) :
    Except StoreFault (Option Consolidation) × FileTree :=
  match csvFiles directory t with
  | .error f => (.error f, t)
  | .ok [] => (.ok none, t)
  | .ok files =>
      let path := directory.join fileName
      match t.writeFile? path (.table []) with
      | none => (.error (.create path), t.removeFile path)
      | some opened =>
          let partly := opened.rewrite path w.meanwhile
          match w.cut (collect directory files) with
          | .error f => (.error f, partly.removeFile path)
          | .ok rows =>
              (.ok
                (some
                  { path := path
                    files := files.length
                    rows := rows.length }),
                partly.rewrite path [.table rows])

/-
  What becomes of a table that was opened at a place: it has
  the rows that were collected, or is gone.
-/
def closed
    (t : FileTree)
    (directory : Path)
    (p : Place)
    (files : List (String × Content)) :
    Except StoreFault (List (List Cell)) →
      Except StoreFault (Option Consolidation) × FileTree
  | .error f => (.error f, t.erase p)
  | .ok rows =>
      (.ok
        (some
          { path := directory.join fileName
            files := files.length
            rows := rows.length }),
        t.set p (.file (.table rows)))

section Runs

variable {w : Writing}
variable {t : FileTree}
variable {directory : Path}
variable {here p : Place}
variable {files : List (String × Content)}

/- A directory without files of trades is left as it is. -/
theorem runThrough_of_nil
    (hFiles : csvFiles directory t = .ok []) :
    runThrough w directory t = (.ok none, t) := by
  unfold runThrough
  simp only [hFiles]

/- A table that cannot be reached is neither made nor removed. -/
theorem runThrough_of_unreachable
    (hFiles : csvFiles directory t = .ok files)
    (hSome : files ≠ [])
    (hNowhere : t.locate? (directory.join fileName) = none) :
    runThrough w directory t
      = (.error (.create (directory.join fileName)), t) := by
  have hNone :
      t.writeFile? (directory.join fileName) (.table []) = none := by
    unfold FileTree.writeFile?
    rw [hNowhere]
    rfl
  have hSame : t.removeFile (directory.join fileName) = t := by
    unfold FileTree.removeFile
    rw [hNowhere]
  cases files with
  | nil => exact absurd rfl hSome
  | cons f files =>
      unfold runThrough
      simp only [hFiles, hNone, hSame]

section Opened

variable (hLocate : t.locate? (directory.join fileName) = some p)
variable (hRoom : t.HasRoom p)

include hLocate hRoom

/- Once the table is open, a failure takes it away again. -/
theorem runThrough_of_opened
    (hFiles : csvFiles directory t = .ok files)
    (hSome : files ≠ []) :
    runThrough w directory t
      = closed t directory p files (w.cut (collect directory files)) := by
  have hOpened := FileTree.writeFile?_of_room hLocate hRoom (.table [])
  rcases FileTree.rewrite_set hLocate hRoom w.meanwhile (.table []) with
    ⟨c, hPartly⟩
  cases files with
  | nil => exact absurd rfl hSome
  | cons f files =>
      unfold runThrough closed
      simp only [hFiles, hOpened, hPartly,
        FileTree.rewrite_set_last hLocate hRoom,
        FileTree.removeFile_set hLocate hRoom]

theorem run_of_opened
    (hFiles : csvFiles directory t = .ok files)
    (hSome : files ≠ []) :
    run directory t
      = closed t directory p files (collect directory files) := by
  have hOpened := FileTree.writeFile?_of_room hLocate hRoom (.table [])
  cases files with
  | nil => exact absurd rfl hSome
  | cons f files =>
      unfold run closed
      cases hCollected : collect directory (f :: files) <;>
        simp only [hFiles, hOpened, hCollected, Option.getD_some,
          FileTree.writeFile?_set hLocate hRoom,
          FileTree.removeFile_set hLocate hRoom]

/- Nothing but the table is gone when it is. -/
theorem entry?_erase_table :
    (t.erase p).entryAt? (directory.join fileName) = none
      ∧ FileTree.entry? (t.erase p) p = none
      ∧ ∀ q ≠ p, FileTree.entry? (t.erase p) q = t.entry? q := by
  have hPlace := FileTree.ne_root_of_not_isDirectory hRoom.1
  have hSame := FileTree.isDirectory_erase_iff hRoom.1
  have hGone : FileTree.entry? (t.erase p) p = none := by
    rw [FileTree.entry?_erase hPlace, if_pos rfl]
  refine ⟨?_, hGone, ?_⟩
  · rw [FileTree.entryAt?, FileTree.locate?_congr hSame, hLocate]
    exact hGone
  · intro q hOther
    rw [FileTree.entry?_erase hPlace, if_neg hOther]

end Opened

/- What is written in the end does not depend on the way there. -/
theorem runThrough_eq_run
    (hFault : w.fault? = none) :
    runThrough w directory t = run directory t := by
  cases hFiles : csvFiles directory t with
  | error f =>
      unfold runThrough run
      simp only [hFiles]
  | ok files =>
      by_cases hNil : files = []
      · rw [hNil] at hFiles
        rw [runThrough_of_nil hFiles]
        unfold run
        simp only [hFiles]
      · cases hOpened :
            t.writeFile? (directory.join fileName) (.table []) with
        | some opened =>
            rcases FileTree.writeFile?_eq_some_iff.mp hOpened with
              ⟨p, hLocate, hRoom, -⟩
            rw [runThrough_of_opened hLocate hRoom hFiles hNil,
              run_of_opened hLocate hRoom hFiles hNil,
              Writing.cut_of_whole hFault]
        | none =>
            cases files with
            | nil => exact absurd rfl hNil
            | cons f files =>
                unfold runThrough run
                simp only [hFiles, hOpened]

------------------------------------------------------------
-- What is left
------------------------------------------------------------

/-
  What a consolidation leaves.  It fails when a file has no
  rows; without a fault of the writing the first such file is
  named, and nothing else fails but a path that is too long.
  No table is left by a failure, a directory without files is
  left as it is, and nothing but the table is ever touched.
-/
structure Cleared
    (w : Writing)
    (t : FileTree)
    (directory : Path)
    (here : Place)
    (answer : Except StoreFault (Option Consolidation))
    (u : FileTree) : Prop where
  refused :
    (∃ name content,
        IsCsvFile t directory here name content ∧ rowsOf? content = none) →
      ∃ f, answer = .error f
  named :
    w.fault? = none →
    (directory.join fileName).Acceptable →
      ∀ f, answer = .error f →
        ∃ name content,
          f = .invalidTable (directory.join name)
            ∧ IsCsvFile t directory here name content
            ∧ rowsOf? content = none
            ∧ ∀ name' content',
                IsCsvFile t directory here name' content' → name' < name →
                  rowsOf? content' ≠ none
  removed :
    ∀ f, answer = .error f →
      u.entryAt? (directory.join fileName) = none
        ∧ ((directory.join fileName).Acceptable →
            u.entry? (here.child fileName) = none)
  idle :
    (∀ name content, ¬IsCsvFile t directory here name content) →
      answer = .ok none ∧ u = t
  others : ∀ q ≠ here.child fileName, u.entry? q = t.entry? q

/-
  The files with trades of a directory, in the order of their
  names.
-/
structure Listed
    (t : FileTree)
    (directory : Path)
    (here : Place)
    (files : List (String × Content)) : Prop where
  files_eq : csvFiles directory t = .ok files
  ascending : (files.map Prod.fst).Pairwise (· < ·)
  mem_iff :
    ∀ name content,
      (name, content) ∈ files ↔ IsCsvFile t directory here name content

namespace Listed

theorem eq_nil_iff
    (h : Listed t directory here files) :
    files = [] ↔ ∀ name content, ¬IsCsvFile t directory here name content := by
  rw [List.eq_nil_iff_forall_not_mem]
  constructor
  · intro hNone name content hCsv
    exact hNone _ ((h.mem_iff name content).mpr hCsv)
  · rintro hNone ⟨name, content⟩ hMem
    exact hNone name content ((h.mem_iff name content).mp hMem)

/- A file without rows makes the collected table fail. -/
theorem exists_cut_eq_error
    (h : Listed t directory here files)
    (w : Writing)
    (hBad :
      ∃ name content,
        IsCsvFile t directory here name content ∧ rowsOf? content = none) :
    ∃ fault, w.cut (collect directory files) = .error fault := by
  rcases hBad with ⟨name, content, hCsv, hNone⟩
  have hMem := (h.mem_iff name content).mpr hCsv
  rcases collect_eq_error directory ⟨_, hMem, hNone⟩ with
    ⟨-, f, -, -, -, -, hError⟩
  unfold Writing.cut
  cases w.fault? with
  | some fault => exact ⟨fault, rfl⟩
  | none => exact ⟨_, hError⟩

/- The fault of a table is that of its first file without rows. -/
theorem named
    (h : Listed t directory here files)
    {fault : StoreFault}
    (hError : collect directory files = .error fault) :
    ∃ name content,
      fault = .invalidTable (directory.join name)
        ∧ IsCsvFile t directory here name content
        ∧ rowsOf? content = none
        ∧ ∀ name' content',
            IsCsvFile t directory here name' content' → name' < name →
              rowsOf? content' ≠ none := by
  have hBad : ∃ f ∈ files, rowsOf? f.2 = none := by
    by_contra hAll
    rcases
      exists_collect_eq_ok directory
        fun f (hFile : f ∈ files) hNone => hAll ⟨f, hFile, hNone⟩ with
      ⟨rows, hRows⟩
    rw [hRows] at hError
    cases hError
  rcases collect_eq_error directory hBad with
    ⟨before, ⟨name, content⟩, after, rfl, hBefore, hNone, hFirst⟩
  rw [hFirst] at hError
  cases hError
  have hThere := (h.mem_iff name content).mp (by simp)
  refine ⟨name, content, rfl, hThere, hNone, ?_⟩
  intro name' content' hCsv hLess
  have hFile := (h.mem_iff name' content').mpr hCsv
  have hAscending := h.ascending
  rw [List.map_append, List.map_cons, List.pairwise_append,
    List.pairwise_cons] at hAscending
  rcases List.mem_append.mp hFile with hEarlier | hLater
  · exact hBefore _ hEarlier
  · -- The names after this one are greater, and none is less.
    rcases List.mem_cons.mp hLater with hSame | hGreater
    · cases hSame
      exact absurd hLess (String.lt_irrefl name)
    · have hOrder :=
        hAscending.2.1.1 name' (List.mem_map_of_mem hGreater)
      exact absurd (String.lt_trans hLess hOrder) (String.lt_irrefl name')

------------------------------------------------------------
-- Three ways to end
------------------------------------------------------------

/- A directory without files of trades is not touched. -/
theorem cleared_of_nil
    (h : Listed t directory here files)
    (hNil : files = []) :
    Cleared w t directory here (runThrough w directory t).1
      (runThrough w directory t).2 := by
  have hNone := h.eq_nil_iff.mp hNil
  rw [runThrough_of_nil (hNil ▸ h.files_eq)]
  refine
    { refused := ?_
      named := by simp
      removed := by simp
      idle := fun _ => ⟨rfl, rfl⟩
      others := fun _ _ => rfl }
  rintro ⟨name, content, hCsv, -⟩
  exact absurd hCsv (hNone name content)

/- The table is written whole, or removed. -/
theorem cleared_of_opened
    (h : Listed t directory here files)
    (hSome : files ≠ [])
    (hLocate :
      t.locate? (directory.join fileName) = some (here.child fileName))
    (hRoom : t.HasRoom (here.child fileName)) :
    Cleared w t directory here (runThrough w directory t).1
      (runThrough w directory t).2 := by
  rcases entry?_erase_table hLocate hRoom with ⟨hNone, hGone, hOthers⟩
  rw [runThrough_of_opened hLocate hRoom h.files_eq hSome]
  cases hResult : w.cut (collect directory files) with
  | error fault =>
      refine
        { refused := fun _ => ⟨fault, rfl⟩
          named := ?_
          removed := fun _ _ => ⟨hNone, fun _ => hGone⟩
          idle := fun hIdle => absurd (h.eq_nil_iff.mpr hIdle) hSome
          others := hOthers }
      rintro hFault - f ⟨⟩
      rw [Writing.cut_of_whole hFault] at hResult
      exact h.named hResult
  | ok rows =>
      refine
        { refused := ?_
          named := by simp [closed]
          removed := by simp [closed]
          idle := fun hIdle => absurd (h.eq_nil_iff.mpr hIdle) hSome
          others := ?_ }
      · intro hBad
        rcases h.exists_cut_eq_error w hBad with ⟨fault, hError⟩
        rw [hResult] at hError
        cases hError
      · intro q hOther
        have hPlace := Place.child_ne_root here fileName
        exact (FileTree.entry?_set hPlace _ q).trans (if_neg hOther)

/- A path that is too long has no table behind it. -/
theorem cleared_of_long
    (h : Listed t directory here files)
    (hSome : files ≠ [])
    (hPath : ¬(directory.join fileName).Acceptable) :
    Cleared w t directory here (runThrough w directory t).1
      (runThrough w directory t).2 := by
  have hNowhere : t.locate? (directory.join fileName) = none := by
    unfold FileTree.locate?
    rw [if_neg hPath]
  rw [runThrough_of_unreachable h.files_eq hSome hNowhere]
  refine
    { refused := fun _ => ⟨_, rfl⟩
      named := fun _ hReached => absurd hReached hPath
      removed := fun _ _ => ⟨?_, fun hReached => absurd hReached hPath⟩
      idle := fun hIdle => absurd (h.eq_nil_iff.mpr hIdle) hSome
      others := fun _ _ => rfl }
  rw [FileTree.entryAt?, hNowhere]
  rfl

end Listed

/-
  A consolidation of a directory that can be read, with a
  table or none, leaves what it has to leave, also when its
  writing is cut off at any moment.
-/
theorem run_clears
    (hDistinct : t.Distinct)
    (hHere : t.locate? directory = some here)
    (hDirectory : t.IsDirectory here)
    (hFree : ¬t.IsDirectory (here.child fileName))
    (w : Writing) :
    (w.fault? = none → runThrough w directory t = run directory t)
      ∧ Cleared w t directory here (runThrough w directory t).1
          (runThrough w directory t).2 := by
  refine ⟨runThrough_eq_run, ?_⟩
  rcases csvFiles_eq hDistinct hHere hDirectory with
    ⟨files, hFiles, hAscending, hMem⟩
  have hListed : Listed t directory here files :=
    ⟨hFiles, hAscending, hMem⟩
  by_cases hNil : files = []
  · exact hListed.cleared_of_nil hNil
  by_cases hPath : (directory.join fileName).Acceptable
  · have hLocate :=
      FileTree.locate?_join hHere hDirectory
        (show FileTree.IsPlain fileName by decide) hPath
    have hRoom : t.HasRoom (here.child fileName) := by
      refine ⟨hFree, ?_, ?_⟩
      · rwa [Place.parent_child]
      · rw [Place.name?_child]
        decide
    exact hListed.cleared_of_opened hNil hLocate hRoom
  · exact hListed.cleared_of_long hNil hPath

/-
  A directory with an old table, a file of a trade, one that
  is no table, and another of the kind behind it.
-/
def spoiltTree : FileTree :=
  { entries :=
      [(.ofNames ["D"], .directory),
        (.ofNames ["D", "c.csv"], .file (.text "seq\nx\n")),
        (.ofNames ["D", "data.parquet"], .file (.table [])),
        (.ofNames ["D", "b.CSV"], .file (.text "seq\n7\n")),
        (.ofNames ["D", "a.csv"],
          .file (.text (TradeFile.text [quotedTrade]))),
        (.ofNames ["D", "notes.txt"], .file (.text "c"))] }

/- Two files fail; the old table goes and all else stays. -/
theorem run_clears_of_spoilt :
    ∃ f u,
      run ⟨"D"⟩ spoiltTree = (.error f, u)
        ∧ Cleared ⟨[], none⟩ spoiltTree ⟨"D"⟩ (.ofNames ["D"]) (.error f) u
        ∧ u.entry? (.ofNames ["D", "data.parquet"]) = none := by
  have hDistinct : spoiltTree.Distinct := by
    unfold FileTree.Distinct
    decide +kernel
  have hHere :
      spoiltTree.locate? ⟨"D"⟩ = some (Place.ofNames ["D"]) := by
    decide +kernel
  rcases
    run_clears hDistinct hHere (by decide +kernel) (by decide +kernel)
      ⟨[], none⟩ with
    ⟨hSame, hCleared⟩
  rw [hSame rfl] at hCleared
  have hBad :
      IsCsvFile spoiltTree ⟨"D"⟩ (.ofNames ["D"]) "b.CSV"
          (.text "seq\n7\n")
        ∧ rowsOf? (.text "seq\n7\n") = none :=
    ⟨⟨⟨by decide +kernel, by decide +kernel⟩, by decide +kernel⟩,
      by decide +kernel⟩
  rcases hCleared.refused ⟨_, _, hBad⟩ with ⟨f, hAnswer⟩
  refine ⟨f, _, Prod.ext hAnswer rfl, hAnswer ▸ hCleared, ?_⟩
  exact (hCleared.removed f hAnswer).2 (by decide +kernel)

end Runs

end Consolidation

end TradeTape
