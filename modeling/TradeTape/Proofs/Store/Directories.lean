import TradeTape.Proofs.Store.Overwriting

/-
  Creating the directories of a path.

  Directories are created from the root downward.  They are all
  there in the end, nothing that was there is lost, and a path
  whose directories are there already leads to the same place
  without any change.  Names are joined to a path one by one,
  and each is a directory below the one before.

  Key definitions include:
    * `Path.place`
    * `Path.below`

  Key statements include:
    * `FileTree.createFrom_append`
    * `FileTree.entered_of_createFrom`
    * `FileTree.createFrom_of_entered`
    * `FileTree.createFrom_below`
    * `FileTree.locate?_of_entered`
-/

namespace TradeTape

/- The place that a path leads to once all directories are there. -/
def Path.place (p : Path) : Place :=
  p.parts.foldl FileTree.step Place.root

/- The path of an entry some names below a directory. -/
def Path.below
    (base : Path)
    (names : List String) : Path :=
  names.foldl Path.join base

/- A path ends in what was joined to it. -/
theorem Path.exists_text_join
    (directory : Path)
    (below : String) :
    ∃ front,
      (directory.join below).text.toList = front ++ below.toList := by
  unfold join joinText
  rw [String.toList_ofList]
  split
  · exact ⟨[], rfl⟩
  · split
    · exact ⟨directory.text.toList, rfl⟩
    · exact ⟨directory.text.toList ++ ['/'], by simp⟩

namespace FileTree

variable {t u w : FileTree}
variable {here there p q : Place}
variable {part : List Char}
variable {parts rest : List (List Char)}

------------------------------------------------------------
-- A new directory
------------------------------------------------------------

section Fresh

variable (hNone : t.entry? p = none)

include hNone

theorem ne_root_of_none : p ≠ Place.root := by
  rintro rfl
  rw [entry?_root] at hNone
  cases hNone

theorem isDirectory_set_directory_iff :
    (t.set p .directory).IsDirectory q ↔ q = p ∨ t.IsDirectory q := by
  unfold IsDirectory
  rw [entry?_set (ne_root_of_none hNone)]
  by_cases hSame : q = p <;> simp [hSame]

theorem content?_set_directory :
    (t.set p .directory).content? q = t.content? q := by
  unfold content?
  rw [entry?_set (ne_root_of_none hNone)]
  by_cases hSame : q = p
  · rw [if_pos hSame, hSame, hNone]
  · rw [if_neg hSame]

end Fresh

------------------------------------------------------------
-- Creating directories
------------------------------------------------------------

section Parts

variable (rest : List (List Char))

theorem createFrom_cons_of_directory
    (hThere : t.IsDirectory (step here part)) :
    t.createFrom here (part :: rest)
      = t.createFrom (step here part) rest := by
  have hEntry : t.entry? (step here part) = some .directory := hThere
  simp only [createFrom, hEntry]

theorem createFrom_cons_of_file
    {c : Content}
    (hEntry : t.entry? (step here part) = some (.file c)) :
    t.createFrom here (part :: rest) = (false, t) := by
  simp only [createFrom, hEntry]

theorem createFrom_cons_of_none
    (hNone : t.entry? (step here part) = none) :
    t.createFrom here (part :: rest)
      = if (step here part).name?.any
            (fun n => decide (Name.Acceptable n)) then
          (t.set (step here part) .directory).createFrom
            (step here part) rest
        else (false, t) := by
  simp only [createFrom, hNone]

end Parts

/- A part that is followed leads to a directory, old or new. -/
theorem createFrom_cons_of_made
    (hMade : t.createFrom here (part :: rest) = (true, u)) :
    (t.IsDirectory (step here part)
        ∧ t.createFrom (step here part) rest = (true, u))
      ∨ (t.entry? (step here part) = none
        ∧ ((step here part).name?.any
            fun n => decide (Name.Acceptable n)) = true
        ∧ (t.set (step here part) .directory).createFrom
            (step here part) rest
          = (true, u)) := by
  cases hEntry : t.entry? (step here part) with
  | none =>
      rw [createFrom_cons_of_none rest hEntry] at hMade
      split at hMade
      · rename_i hName
        exact Or.inr ⟨rfl, hName, hMade⟩
      · cases hMade
  | some e =>
      cases e with
      | directory =>
          rw [createFrom_cons_of_directory rest hEntry] at hMade
          exact Or.inl ⟨hEntry, hMade⟩
      | file c =>
          rw [createFrom_cons_of_file rest hEntry] at hMade
          cases hMade

/- Whether it comes through or not, no directory is lost. -/
theorem isDirectory_createFrom
    (hDirectory : t.IsDirectory q)
    (here : Place)
    (parts : List (List Char)) :
    (t.createFrom here parts).2.IsDirectory q := by
  fun_induction createFrom t here parts with
  | case1 t here => exact hDirectory
  | case2 t here part rest next hEntry ih => exact ih hDirectory
  | case3 t here part rest next c hEntry => exact hDirectory
  | case4 t here part rest next hNone hName ih =>
      exact
        ih ((isDirectory_set_directory_iff hNone).mpr
          (Or.inr hDirectory))
  | case5 t here part rest next hNone hName => exact hDirectory

/- Files are left alone. -/
theorem content?_createFrom
    (t : FileTree)
    (here : Place)
    (parts : List (List Char))
    (q : Place) :
    (t.createFrom here parts).2.content? q = t.content? q := by
  fun_induction createFrom t here parts with
  | case1 t here => rfl
  | case2 t here part rest next hEntry ih => exact ih
  | case3 t here part rest next c hEntry => rfl
  | case4 t here part rest next hNone hName ih =>
      exact ih.trans (content?_set_directory hNone)
  | case5 t here part rest next hNone hName => rfl

/- One way after another. -/
theorem createFrom_append
    (t : FileTree)
    (here : Place)
    (parts more : List (List Char)) :
    t.createFrom here (parts ++ more)
      = match t.createFrom here parts with
        | (true, u) => u.createFrom (parts.foldl step here) more
        | (false, u) => (false, u) := by
  fun_induction createFrom t here parts with
  | case1 t here => rfl
  | case2 t here part rest next hEntry ih =>
      exact (createFrom_cons_of_directory _ hEntry).trans ih
  | case3 t here part rest next c hEntry =>
      exact createFrom_cons_of_file _ hEntry
  | case4 t here part rest next hNone hName ih =>
      refine (createFrom_cons_of_none _ hNone).trans ?_
      rw [if_pos hName]
      exact ih
  | case5 t here part rest next hNone hName =>
      exact (createFrom_cons_of_none _ hNone).trans (if_neg hName)

------------------------------------------------------------
-- Directories that are there
------------------------------------------------------------

theorem enter?_eq_some_iff :
    w.enter? here part = some there
      ↔ step here part = there ∧ w.IsDirectory there := by
  unfold enter?
  by_cases hThere : w.IsDirectory (step here part)
  · simp only [if_pos hThere, Option.some.injEq]
    exact ⟨fun h => ⟨h, h ▸ hThere⟩, And.left⟩
  · simp only [if_neg hThere]
    refine ⟨fun h => (nomatch h), ?_⟩
    rintro ⟨rfl, hIs⟩
    exact absurd hIs hThere

/- The way that was made is open wherever its directories are. -/
theorem entered_of_createFrom
    (hMade : t.createFrom here parts = (true, u))
    (hStays : ∀ q, u.IsDirectory q → w.IsDirectory q) :
    parts.foldlM w.enter? here = some (parts.foldl step here) := by
  induction parts generalizing t here with
  | nil => rfl
  | cons part rest ih =>
      have hNext :
          u.IsDirectory (step here part)
            ∧ ∃ t' : FileTree,
              t'.createFrom (step here part) rest = (true, u) := by
        rcases createFrom_cons_of_made hMade with
          ⟨hOld, hRest⟩ | ⟨hNone, _, hRest⟩
        · have hAfter :=
            isDirectory_createFrom hOld (step here part) rest
          rw [hRest] at hAfter
          exact ⟨hAfter, t, hRest⟩
        · have hNew :
              (t.set (step here part) .directory).IsDirectory
                (step here part) :=
            (isDirectory_set_directory_iff hNone).mpr (Or.inl rfl)
          have hAfter :=
            isDirectory_createFrom hNew (step here part) rest
          rw [hRest] at hAfter
          exact ⟨hAfter, _, hRest⟩
      rcases hNext with ⟨hThere, t', hRest⟩
      have hEnter : w.enter? here part = some (step here part) :=
        enter?_eq_some_iff.mpr ⟨rfl, hStays _ hThere⟩
      rw [List.foldlM_cons, hEnter]
      exact ih hRest

/- Nothing is created where all directories are there. -/
theorem createFrom_of_entered
    (hWay : parts.foldlM w.enter? here = some there) :
    w.createFrom here parts = (true, w) := by
  induction parts generalizing here with
  | nil => rfl
  | cons part rest ih =>
      rw [List.foldlM_cons] at hWay
      rcases Option.bind_eq_some_iff.mp hWay with ⟨next, hEnter, hRest⟩
      rcases enter?_eq_some_iff.mp hEnter with ⟨rfl, hThere⟩
      rw [createFrom_cons_of_directory rest hThere]
      exact ih hRest

theorem isDirectory_of_entered
    (hWay : parts.foldlM w.enter? Place.root = some there) :
    w.IsDirectory there := by
  have hReached := reached_of_foldlM (Reached.root w) hWay
  have hThere := hReached there.names (List.prefix_refl _)
  rwa [show Place.ofNames there.names = there from
    Place.ext_names rfl] at hThere

theorem locate?_of_entered
    {path : Path}
    (hPath : path.Acceptable)
    (hWay : path.parts.foldlM w.enter? Place.root = some there) :
    w.locate? path = some there := by
  rcases path.parts.eq_nil_or_concat with hNil | ⟨above, last, hParts⟩
  · exact absurd hNil (splitAtChar_ne_nil _ _)
  · rw [List.concat_eq_append] at hParts
    rw [hParts, List.foldlM_append] at hWay
    rcases Option.bind_eq_some_iff.mp hWay with ⟨next, hAbove, hLast⟩
    have hStep : step next last = there := by
      rw [List.foldlM_cons] at hLast
      rcases Option.bind_eq_some_iff.mp hLast with
        ⟨place, hEnter, hSame⟩
      rw [(enter?_eq_some_iff.mp hEnter).1]
      exact Option.some.inj hSame
    unfold locate?
    rw [if_pos hPath, hParts, List.dropLast_concat,
      List.getLastD_concat, hAbove, Option.map_some, hStep]

/- More directories lead a way nowhere else. -/
theorem entered_of_stays
    (hStays : ∀ q, t.IsDirectory q → w.IsDirectory q)
    (hWay : parts.foldlM t.enter? here = some there) :
    parts.foldlM w.enter? here = some there := by
  induction parts generalizing here with
  | nil => exact hWay
  | cons part rest ih =>
      rw [List.foldlM_cons] at hWay ⊢
      rcases Option.bind_eq_some_iff.mp hWay with ⟨next, hEnter, hRest⟩
      rcases enter?_eq_some_iff.mp hEnter with ⟨hStep, hThere⟩
      rw [enter?_eq_some_iff.mpr ⟨hStep, hStays next hThere⟩]
      exact ih hRest

theorem locate?_of_stays
    {path : Path}
    (hStays : ∀ q, t.IsDirectory q → w.IsDirectory q)
    (hLocate : t.locate? path = some p) :
    w.locate? path = some p := by
  unfold locate? at hLocate ⊢
  split at hLocate
  · rename_i hPath
    rw [if_pos hPath]
    rcases Option.map_eq_some_iff.mp hLocate with
      ⟨next, hAbove, hLast⟩
    rw [entered_of_stays hStays hAbove, Option.map_some, hLast]
  · cases hLocate

------------------------------------------------------------
-- Names below a path
------------------------------------------------------------

theorem place_join
    {name : String}
    (hPlain : IsPlain name)
    (base : Path) :
    (base.join name).place = base.place.child name := by
  rcases parts_join hPlain base with ⟨above, last, hParts, hJoin⟩
  unfold Path.place
  rcases hJoin with hLonger | ⟨hEmpty, hSame⟩
  · rw [hLonger, hParts, List.append_cons, List.foldl_append,
      List.foldl_cons, List.foldl_nil, step_plain hPlain]
  · rw [hSame, hParts, hEmpty, List.foldl_append, List.foldl_append]
    simp only [List.foldl_cons, List.foldl_nil, step_plain hPlain]
    rfl

/- An empty last part leads nowhere else. -/
theorem createFrom_concat_nil
    (t : FileTree)
    (above : List (List Char)) :
    t.createFrom Place.root (above ++ [[]])
      = t.createFrom Place.root above := by
  rw [createFrom_append]
  rcases hMade : t.createFrom Place.root above with ⟨done, u⟩
  cases done with
  | false => rfl
  | true =>
      have hThere : u.IsDirectory (above.foldl step Place.root) :=
        isDirectory_of_entered
          (entered_of_createFrom hMade fun _ h => h)
      exact createFrom_cons_of_directory [] hThere

/- A name below a path is created when the path is there. -/
theorem createFrom_join
    {name : String}
    (hPlain : IsPlain name)
    (base : Path)
    (t : FileTree) :
    t.createFrom Place.root (base.join name).parts
      = match t.createFrom Place.root base.parts with
        | (true, u) => u.createFrom base.place [name.toList]
        | (false, u) => (false, u) := by
  rcases parts_join hPlain base with ⟨above, last, hParts, hJoin⟩
  rcases hJoin with hLonger | ⟨hEmpty, hSame⟩
  · rw [hLonger, List.append_cons, ← hParts]
    exact createFrom_append t Place.root base.parts [name.toList]
  · have hPlace : base.place = above.foldl step Place.root := by
      unfold Path.place
      rw [hParts, hEmpty, List.foldl_append]
      rfl
    rw [hSame, hPlace, hParts, hEmpty, createFrom_concat_nil]
    exact createFrom_append t Place.root above [name.toList]

theorem place_below
    {names : List String}
    (hPlain : ∀ name ∈ names, IsPlain name)
    (base : Path) :
    (base.below names).place = names.foldl Place.child base.place := by
  induction names generalizing base with
  | nil => rfl
  | cons name rest ih =>
      rcases List.forall_mem_cons.mp hPlain with ⟨hFirst, hRest⟩
      rw [List.foldl_cons, ← place_join hFirst base]
      exact ih hRest (base.join name)

/- Names below a path are created one below the other. -/
theorem createFrom_below
    {names : List String}
    (hPlain : ∀ name ∈ names, IsPlain name)
    (base : Path)
    (t : FileTree) :
    t.createFrom Place.root (base.below names).parts
      = match t.createFrom Place.root base.parts with
        | (true, u) =>
            u.createFrom base.place (names.map String.toList)
        | (false, u) => (false, u) := by
  induction names generalizing base t with
  | nil =>
      change t.createFrom Place.root base.parts = _
      rcases t.createFrom Place.root base.parts with ⟨done, u⟩
      cases done <;> rfl
  | cons name rest ih =>
      rcases List.forall_mem_cons.mp hPlain with ⟨hFirst, hRest⟩
      change t.createFrom Place.root ((base.join name).below rest).parts = _
      rw [ih hRest, createFrom_join hFirst, place_join hFirst]
      rcases t.createFrom Place.root base.parts with ⟨done, u⟩
      cases done with
      | false => rfl
      | true =>
          have hAppend :=
            createFrom_append u base.place [name.toList]
              (rest.map String.toList)
          rw [List.foldl_cons, List.foldl_nil,
            step_plain hFirst] at hAppend
          exact hAppend.symm

/- What can lead somewhere can do so without its last name. -/
theorem acceptable_of_join
    {name : String}
    (hPlain : IsPlain name)
    {base : Path}
    (hPath : (base.join name).Acceptable) :
    base.Acceptable := by
  have hFirst : name.toList.head? ≠ some '/' := fun hHead =>
    hPlain.1 (List.mem_of_head? hHead)
  have hPrefix :
      ∃ more, (base.join name).text = base.text ++ String.ofList more := by
    unfold Path.join Path.joinText
    rw [if_neg hFirst]
    split
    · exact ⟨name.toList, by simp [String.ofList_append]⟩
    · exact ⟨'/' :: name.toList, by simp [String.ofList_append]⟩
  rcases hPrefix with ⟨more, hText⟩
  unfold Path.Acceptable at hPath ⊢
  rw [hText, String.utf8ByteSize_append, String.toList_append] at hPath
  exact
    ⟨Nat.le_trans (Nat.le_add_right _ _) hPath.1,
      fun hMem => hPath.2 (List.mem_append_left _ hMem)⟩

end FileTree

end TradeTape
