import TradeTape.Proofs.Store.Directories
import TradeTape.Proofs.Store.Drafts
import TradeTape.Proofs.Trade.Stems
import TradeTape.Store.TradeFolder

/-
  What writing files with trades can do to a tree.

  All that is written below a directory ends in one suffix, or
  in that of a draft, whatever names come from a venue and
  wherever they lead.  No directory has such a name.  So a file
  that is written never stands in the way of a directory that
  is created later, and a file that is no draft is never taken
  away again.

  Key definitions include:
    * `Place.OfFile`
    * `Place.OfDraft`
    * `FileTree.Grown`

  Key statements include:
    * `FileTree.Grown.trans`
    * `FileTree.Grown.createFrom`
    * `FileTree.grown_write`
    * `TradeFolder.grown_store`
    * `TradeFolder.content?_store`
-/

namespace TradeTape

------------------------------------------------------------
-- Suffixes
------------------------------------------------------------

/- What the name of a file with rows ends in. -/
def fileSuffix : String := ".csv"

/- Whether a name ends as those of files and of drafts do. -/
def Name.OfFile (name : String) : Prop :=
  fileSuffix.toList <:+ name.toList
    ∨ (fileSuffix ++ TradeFile.draftSuffix).toList <:+ name.toList

instance (name : String) : Decidable (Name.OfFile name) := by
  unfold Name.OfFile
  infer_instance

namespace Place

/- A place whose name ends in a suffix. -/
def EndsIn
    (suffix : String)
    (p : Place) : Prop :=
  ∃ name, p.name? = some name ∧ suffix.toList <:+ name.toList

/- A place at which a draft may stand. -/
def OfDraft (p : Place) : Prop :=
  p.EndsIn (fileSuffix ++ TradeFile.draftSuffix)

/- A place at which a file with rows, or a draft, may stand. -/
def OfFile (p : Place) : Prop :=
  p.EndsIn fileSuffix ∨ p.OfDraft

theorem endsIn_child_iff
    {suffix name : String}
    {here : Place} :
    (here.child name).EndsIn suffix ↔ suffix.toList <:+ name.toList := by
  unfold EndsIn
  rw [name?_child]
  simp

theorem ofFile_child_iff
    {name : String}
    {here : Place} :
    (here.child name).OfFile ↔ Name.OfFile name :=
  or_congr endsIn_child_iff endsIn_child_iff

/- A file with rows is no draft. -/
theorem not_ofDraft_of_endsIn
    {p : Place}
    (h : p.EndsIn fileSuffix) :
    ¬p.OfDraft := by
  rintro ⟨draft, hDraft, hLong⟩
  rcases h with ⟨name, hName, hShort⟩
  rw [hName] at hDraft
  cases hDraft
  have hNested :=
    List.suffix_of_suffix_length_le hShort hLong (by decide)
  exact absurd hNested (by decide)

end Place

namespace FileTree

variable {t u w : FileTree}
variable {p q here : Place}

/- Where a path with a suffix leads, the suffix is that of a name. -/
theorem endsIn_of_locate?
    {path : Path}
    {text : List Char}
    {suffix : String}
    (hText : path.text.toList = text ++ suffix.toList)
    (hWhole : '/' ∉ suffix.toList)
    (hLong : 2 < suffix.toList.length)
    (hLocate : t.locate? path = some p) :
    p.EndsIn suffix := by
  rcases splitAtChar_append_suffix hWhole text with
    ⟨above, last, -, hSuffixed⟩
  have hParts : path.parts = above ++ [last ++ suffix.toList] := by
    unfold Path.parts
    rw [hText, hSuffixed]
  have hName : 2 < (last ++ suffix.toList).length := by
    rw [List.length_append]
    omega
  unfold locate? at hLocate
  split at hLocate
  · rw [hParts, List.dropLast_concat, List.getLastD_concat] at hLocate
    rcases Option.map_eq_some_iff.mp hLocate with ⟨here, -, hStep⟩
    -- The last part is too long to be made of dots.
    have hChild :
        p = here.child (String.ofList (last ++ suffix.toList)) := by
      rw [← hStep]
      unfold step
      rw [if_neg, if_neg]
      · intro hSame
        simp [hSame] at hName
      · rintro (hSame | hSame) <;> simp [hSame] at hName
    rw [hChild, Place.endsIn_child_iff, String.toList_ofList]
    exact List.suffix_append _ _
  · cases hLocate

------------------------------------------------------------
-- Growth
------------------------------------------------------------

theorem content?_set_file
    (hFile : ¬t.IsDirectory p)
    (c : Content)
    (q : Place) :
    (t.set p (.file c)).content? q
      = if q = p then some c else t.content? q := by
  unfold content?
  rw [entry?_set (ne_root_of_not_isDirectory hFile)]
  by_cases hSame : q = p <;> simp [hSame]

theorem content?_erase
    (hFile : ¬t.IsDirectory p)
    (q : Place) :
    (t.erase p).content? q = if q = p then none else t.content? q := by
  unfold content?
  rw [entry?_erase (ne_root_of_not_isDirectory hFile)]
  by_cases hSame : q = p <;> simp [hSame]

theorem not_isDirectory_of_content?
    (hContent : (t.content? p).isSome = true) :
    ¬t.IsDirectory p := by
  rcases Option.isSome_iff_exists.mp hContent with ⟨c, hFile⟩
  unfold IsDirectory
  rw [content?_eq_some_iff.mp hFile]
  exact fun h => (nomatch h)

/-
  A tree that another one has grown to.  Directories stay, and
  none of the new ones is named like a file; files are only new
  where they are named so, and stay unless they are drafts.
-/
structure Grown (t u : FileTree) : Prop where
  stays : ∀ q, t.IsDirectory q → u.IsDirectory q
  opened : ∀ q, u.IsDirectory q → t.IsDirectory q ∨ ¬q.OfFile
  kept :
    ∀ q,
      (t.content? q).isSome = true →
        ¬q.OfDraft → (u.content? q).isSome = true
  written :
    ∀ q,
      (u.content? q).isSome = true →
        (t.content? q).isSome = true ∨ q.OfFile

namespace Grown

theorem refl (t : FileTree) : Grown t t :=
  { stays := fun _ h => h
    opened := fun _ h => Or.inl h
    kept := fun _ h _ => h
    written := fun _ h => Or.inl h }

theorem trans
    (h : Grown t u)
    (hMore : Grown u w) :
    Grown t w := by
  refine
    { stays := fun q hThere => hMore.stays q (h.stays q hThere)
      opened := ?_
      kept := fun q hFile hWhole =>
        hMore.kept q (h.kept q hFile hWhole) hWhole
      written := ?_ }
  · intro q hThere
    rcases hMore.opened q hThere with hOld | hNew
    · exact h.opened q hOld
    · exact Or.inr hNew
  · intro q hFile
    rcases hMore.written q hFile with hOld | hNew
    · exact h.written q hOld
    · exact Or.inr hNew

/- A place of a file can hold one as long as it did before. -/
theorem not_isDirectory
    (h : Grown t u)
    (hFile : p.OfFile)
    (hFree : ¬t.IsDirectory p) :
    ¬u.IsDirectory p := by
  intro hThere
  rcases h.opened p hThere with hOld | hNew
  · exact hFree hOld
  · exact hNew hFile

end Grown

theorem grown_set_file
    (hFree : ¬t.IsDirectory p)
    (hFile : p.OfFile)
    (c : Content) :
    Grown t (t.set p (.file c)) := by
  have hSame := isDirectory_set_file_iff hFree c
  have hContent := content?_set_file hFree c
  refine
    { stays := fun q => (hSame q).mpr
      opened := fun q hThere => Or.inl ((hSame q).mp hThere)
      kept := ?_
      written := ?_ }
  · intro q hOld _
    rw [hContent]
    split
    · rfl
    · exact hOld
  · intro q hNew
    rw [hContent] at hNew
    split at hNew
    · rename_i hPlace
      exact Or.inr (hPlace ▸ hFile)
    · exact Or.inl hNew

theorem grown_erase
    (hFree : ¬t.IsDirectory p)
    (hDraft : p.OfDraft) :
    Grown t (t.erase p) := by
  have hSame := isDirectory_erase_iff hFree
  have hContent := content?_erase hFree
  refine
    { stays := fun q => (hSame q).mpr
      opened := fun q hThere => Or.inl ((hSame q).mp hThere)
      kept := ?_
      written := ?_ }
  · intro q hOld hWhole
    rw [hContent, if_neg]
    · exact hOld
    · rintro rfl
      exact hWhole hDraft
  · intro q hNew
    rw [hContent] at hNew
    split at hNew
    · cases hNew
    · exact Or.inl hNew

------------------------------------------------------------
-- New directories
------------------------------------------------------------

/- A directory that is new in one tree and is there in another. -/
theorem Grown.set_directory
    (h : Grown t u)
    (hNone : t.entry? p = none)
    (hDirectories :
      ∀ q, w.IsDirectory q ↔ q = p ∨ u.IsDirectory q)
    (hFiles : ∀ q, w.content? q = u.content? q) :
    Grown (t.set p .directory) w := by
  have hSame (q : Place) :=
    isDirectory_set_directory_iff (q := q) hNone
  have hContent (q : Place) := content?_set_directory (q := q) hNone
  refine
    { stays := ?_
      opened := ?_
      kept := ?_
      written := ?_ }
  · intro q hThere
    refine (hDirectories q).mpr ?_
    exact ((hSame q).mp hThere).imp_right (h.stays q)
  · intro q hThere
    rcases (hDirectories q).mp hThere with hNew | hOld
    · exact Or.inl ((hSame q).mpr (Or.inl hNew))
    · exact
        (h.opened q hOld).imp_left fun hIs => (hSame q).mpr (Or.inr hIs)
  · intro q hOld hWhole
    rw [hFiles]
    exact h.kept q (hContent q ▸ hOld) hWhole
  · intro q hNew
    rw [hContent]
    exact h.written q (hFiles q ▸ hNew)

theorem grown_set_directory
    (hNone : t.entry? p = none)
    (hNamed : ¬p.OfFile) :
    Grown t (t.set p .directory) := by
  have hSame (q : Place) :=
    isDirectory_set_directory_iff (q := q) hNone
  have hContent (q : Place) := content?_set_directory (q := q) hNone
  refine
    { stays := fun q hThere => (hSame q).mpr (Or.inr hThere)
      opened := ?_
      kept := fun q hOld _ => (hContent q).symm ▸ hOld
      written := fun q hNew => Or.inl (hContent q ▸ hNew) }
  intro q hThere
  rcases (hSame q).mp hThere with rfl | hOld
  · exact Or.inr hNamed
  · exact Or.inl hOld

/-
  Directories that can be created in a tree can be created in
  all that it grows to, below the same place.
-/
theorem Grown.createFrom
    {names : List String}
    {t' : FileTree}
    (h : Grown t u)
    (hNames : ∀ name ∈ names, IsPlain name ∧ ¬Name.OfFile name)
    (hMade :
      t.createFrom here (names.map String.toList) = (true, t')) :
    ∃ u',
      u.createFrom here (names.map String.toList) = (true, u')
        ∧ Grown t' u' ∧ Grown u u' := by
  induction names generalizing t u here with
  | nil =>
      cases hMade
      exact ⟨u, rfl, h, Grown.refl u⟩
  | cons name rest ih =>
      rcases List.forall_mem_cons.mp hNames with
        ⟨⟨hPlain, hNamed⟩, hRest⟩
      have hStep : step here name.toList = here.child name :=
        step_plain hPlain here
      have hNext : ¬(here.child name).OfFile := fun hFile =>
        hNamed (Place.ofFile_child_iff.mp hFile)
      rw [List.map_cons] at hMade ⊢
      rcases createFrom_cons_of_made hMade with
        ⟨hOld, hGoes⟩ | ⟨hNone, hName, hGoes⟩
      · rw [createFrom_cons_of_directory _ (h.stays _ hOld)]
        exact ih h hRest hGoes
      · rw [hStep] at hNone hName hGoes
        have hNew (q : Place) :=
          isDirectory_set_directory_iff (q := q) hNone
        cases hEntry : u.entry? (here.child name) with
        | none =>
            have hLarger :
                Grown (t.set (here.child name) .directory)
                  (u.set (here.child name) .directory) :=
              h.set_directory hNone
                (fun q => isDirectory_set_directory_iff hEntry)
                (fun q => content?_set_directory hEntry)
            rcases ih hLarger hRest hGoes with
              ⟨u', hMade', hGrown, hSelf⟩
            refine
              ⟨u', ?_, hGrown,
                (grown_set_directory hEntry hNext).trans hSelf⟩
            rw [createFrom_cons_of_none _ (hStep ▸ hEntry), hStep,
              if_pos hName]
            exact hMade'
        | some e =>
            cases e with
            | directory =>
                have hLarger :
                    Grown (t.set (here.child name) .directory) u := by
                  refine h.set_directory hNone ?_ (fun _ => rfl)
                  intro q
                  refine ⟨Or.inr, ?_⟩
                  rintro (rfl | hThere)
                  · exact hEntry
                  · exact hThere
                rw [createFrom_cons_of_directory _ (hStep ▸ hEntry),
                  hStep]
                exact ih hLarger hRest hGoes
            | file c =>
                -- A file that is new has another kind of name.
                have hFile :
                    (u.content? (here.child name)).isSome = true := by
                  rw [content?_eq_some_iff.mpr hEntry]
                  rfl
                rcases h.written _ hFile with hThere | hIs
                · unfold content? at hThere
                  rw [hNone] at hThere
                  cases hThere
                · exact absurd hIs hNext

------------------------------------------------------------
-- Files with trades
------------------------------------------------------------

section Writing

variable {path : Path} {text : List Char}
variable (hText : path.text.toList = text ++ fileSuffix.toList)

include hText

theorem ofFile_of_locate?
    (hLocate : t.locate? path = some p) :
    p.OfFile :=
  Or.inl (endsIn_of_locate? hText (by decide) (by decide) hLocate)

theorem ofDraft_of_locate?
    (hLocate :
      t.locate? (path.withSuffix TradeFile.draftSuffix) = some p) :
    p.OfDraft := by
  have hDraft :
      (path.withSuffix TradeFile.draftSuffix).text.toList
        = text ++ (fileSuffix ++ TradeFile.draftSuffix).toList := by
    unfold Path.withSuffix
    rw [String.toList_append, hText, String.toList_append,
      List.append_assoc]
  exact endsIn_of_locate? hDraft (by decide) (by decide) hLocate

/- Whatever comes of a write, the tree has grown. -/
theorem grown_write
    (ts : List Trade)
    (t : FileTree) :
    Grown t (TradeFile.write path ts t).2 := by
  unfold TradeFile.write
  simp only
  cases hWrite :
      t.writeFile? (path.withSuffix TradeFile.draftSuffix)
        (.text (TradeFile.text ts)) with
  | none =>
      simp only
      unfold removeFile
      split
      · rename_i d hLocate
        split
        · rename_i hContent
          exact
            grown_erase (not_isDirectory_of_content? hContent)
              (ofDraft_of_locate? hText hLocate)
        · exact Grown.refl t
      · exact Grown.refl t
  | some opened =>
      rcases writeFile?_eq_some_iff.mp hWrite with
        ⟨d, hDraft, hRoom, hOpened⟩
      have hGrown : Grown t opened := by
        rw [hOpened]
        exact
          grown_set_file hRoom.1
            (Or.inr (ofDraft_of_locate? hText hDraft)) _
      simp only
      cases hMove :
          opened.rename? (path.withSuffix TradeFile.draftSuffix)
            path with
      | none => exact hGrown
      | some moved =>
          rcases rename?_eq_some_iff.mp hMove with
            ⟨d', q, c, hFrom, hTo, hContent, hFree, hMoved⟩
          have hFile : ¬opened.IsDirectory d' :=
            not_isDirectory_of_content? (by rw [hContent]; rfl)
          have hErased : ¬(opened.erase d').IsDirectory q := fun hIs =>
            hFree.1 ((isDirectory_erase_iff hFile q).mp hIs)
          have hLast : Grown opened moved := by
            rw [hMoved]
            exact
              (grown_erase hFile (ofDraft_of_locate? hText hFrom)).trans
                (grown_set_file hErased (ofFile_of_locate? hText hTo) c)
          exact hGrown.trans hLast

end Writing

/- A write changes nothing but its draft and its file. -/
theorem content?_write
    {path : Path}
    (hDraft :
      t.locate? (path.withSuffix TradeFile.draftSuffix) ≠ some q)
    (hPath : t.locate? path ≠ some q)
    (ts : List Trade) :
    (TradeFile.write path ts t).2.content? q = t.content? q := by
  unfold TradeFile.write
  simp only
  cases hWrite :
      t.writeFile? (path.withSuffix TradeFile.draftSuffix)
        (.text (TradeFile.text ts)) with
  | none =>
      simp only
      unfold removeFile
      split
      · rename_i d hLocate
        split
        · rename_i hContent
          have hOther : q ≠ d := by
            rintro rfl
            exact hDraft hLocate
          rw [content?_erase (not_isDirectory_of_content? hContent),
            if_neg hOther]
        · rfl
      · rfl
  | some opened =>
      have hSame := locate?_congr (isDirectory_writeFile?_iff hWrite)
      rcases writeFile?_eq_some_iff.mp hWrite with
        ⟨d, hLocate, hRoom, hOpened⟩
      have hFirst : opened.content? q = t.content? q := by
        have hOther : q ≠ d := by
          rintro rfl
          exact hDraft hLocate
        rw [hOpened, content?_set_file hRoom.1, if_neg hOther]
      simp only
      cases hMove :
          opened.rename? (path.withSuffix TradeFile.draftSuffix)
            path with
      | none => exact hFirst
      | some moved =>
          rcases rename?_eq_some_iff.mp hMove with
            ⟨d', q', c, hFrom, hTo, hContent, hFree, hMoved⟩
          rw [hSame] at hFrom hTo
          have hFile : ¬opened.IsDirectory d' :=
            not_isDirectory_of_content? (by rw [hContent]; rfl)
          have hErased : ¬(opened.erase d').IsDirectory q' := fun hIs =>
            hFree.1 ((isDirectory_erase_iff hFile q').mp hIs)
          have hFromOther : q ≠ d' := by
            rintro rfl
            exact hDraft hFrom
          have hToOther : q ≠ q' := by
            rintro rfl
            exact hPath hTo
          change moved.content? q = _
          rw [hMoved, content?_set_file hErased, if_neg hToOther,
            content?_erase hFile, if_neg hFromOther, hFirst]

end FileTree

------------------------------------------------------------
-- Names without slashes
------------------------------------------------------------

/- A window adds no slash to a name. -/
theorem Result.slash_notMem_fileStem
    {r : Result}
    (hName : '/' ∉ r.instrument.name.toList) :
    '/' ∉ r.fileStem.toList := by
  have hChars (n : Int) : '/' ∉ Bound.chars n :=
    Bound.notMem_chars rfl (by decide) n
  unfold fileStem
  cases hWindow : r.window with
  | none => exact hName
  | some w =>
      rw [Result.toList_stemOf]
      cases w <;>
        simp [Window.firstChars, Window.lastChars, hName, hChars]

/- A suffix after a name that was joined. -/
theorem Path.withSuffix_join
    {name : String}
    (hPlain : FileTree.IsPlain name)
    (directory : Path)
    (suffix : String) :
    (directory.join name).withSuffix suffix
      = directory.join (name ++ suffix) := by
  have hFirst : name.toList.head? ≠ some '/' := fun hHead =>
    hPlain.1 (List.mem_of_head? hHead)
  have hSome : name.toList ≠ [] := fun hNone =>
    hPlain.2.1 (String.toList_eq_nil_iff.mp hNone)
  have hBoth : (name ++ suffix).toList.head? ≠ some '/' := by
    rw [String.toList_append, List.head?_append_of_ne_nil _ hSome]
    exact hFirst
  unfold withSuffix join joinText
  rw [if_neg hFirst, if_neg hBoth]
  split <;> simp [String.ofList_append, String.append_assoc]

namespace TradeFolder

variable {f : TradeFolder} {causes : FileTree.Causes}
variable {t : FileTree} {d p q : Place}

/- The path of a result ends as those of files do. -/
theorem exists_text_pathFor
    (f : TradeFolder)
    (r : Result) :
    ∃ text,
      (f.pathFor r).text.toList = text ++ fileSuffix.toList := by
  rcases f.directory.exists_text_join (r.fileStem ++ ".csv") with
    ⟨front, hText⟩
  refine ⟨front ++ r.fileStem.toList, ?_⟩
  rw [String.toList_append, ← List.append_assoc] at hText
  exact hText

/- Whatever result is kept, the tree has grown. -/
theorem grown_store
    (f : TradeFolder)
    (causes : FileTree.Causes)
    (t : FileTree)
    (r : Result) :
    FileTree.Grown t ((f.sink causes).store t r).2 := by
  rcases f.exists_text_pathFor r with ⟨text, hText⟩
  exact FileTree.grown_write hText r.trades t

/- A plain name leads to a place in the folder, if anywhere. -/
theorem parent_of_locate?
    {name : String}
    (hHere : t.locate? f.directory = some d)
    (hThere : t.IsDirectory d)
    (hPlain : FileTree.IsPlain name)
    (hLocate : t.locate? (f.directory.join name) = some p) :
    p.parent = d := by
  have hPath : (f.directory.join name).Acceptable := by
    unfold FileTree.locate? at hLocate
    split at hLocate
    · assumption
    · cases hLocate
  rw [FileTree.locate?_join hHere hThere hPlain hPath] at hLocate
  rw [← Option.some.inj hLocate, Place.parent_child]

/-
  A result whose instrument has no slash in its name changes
  nothing outside of the folder.
-/
theorem content?_store
    {r : Result}
    (hHere : t.locate? f.directory = some d)
    (hThere : t.IsDirectory d)
    (hName : '/' ∉ r.instrument.name.toList)
    (hOutside : q.parent ≠ d) :
    ((f.sink causes).store t r).2.content? q = t.content? q := by
  have hPlain
      {suffix : String}
      (hWhole : '/' ∉ suffix.toList)
      (hLong : 2 < suffix.toList.length) :
      FileTree.IsPlain (r.fileStem ++ suffix) := by
    have hLength : 2 < (r.fileStem ++ suffix).toList.length := by
      rw [String.toList_append, List.length_append]
      omega
    refine ⟨?_, ?_, ?_, ?_⟩
    · rw [String.toList_append, List.mem_append]
      exact
        not_or.mpr ⟨Result.slash_notMem_fileStem hName, hWhole⟩
    all_goals
      intro hSame
      rw [hSame] at hLength
      exact absurd hLength (by decide)
  have hFile : FileTree.IsPlain (r.fileStem ++ ".csv") :=
    hPlain (by decide) (by decide)
  have hDraft :
      FileTree.IsPlain (r.fileStem ++ ".csv" ++ TradeFile.draftSuffix) := by
    rw [String.append_assoc]
    exact hPlain (by decide) (by decide)
  apply FileTree.content?_write
  · intro hLocate
    unfold pathFor at hLocate
    rw [Path.withSuffix_join hFile] at hLocate
    exact hOutside (parent_of_locate? hHere hThere hDraft hLocate)
  · intro hLocate
    exact hOutside (parent_of_locate? hHere hThere hFile hLocate)

end TradeFolder

end TradeTape
