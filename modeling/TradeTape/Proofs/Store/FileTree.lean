import Mathlib.Data.List.Nodup
import TradeTape.Store.FileTree

/-
  What operations on a tree of files change.

  Writing or removing a file changes what stands at one place.
  Directories stay where they are, so that every path leads
  where it led before.  A tree without two entries at one
  place stays such a tree.

  Key statements include:
    * `FileTree.entry?_set`
    * `FileTree.isDirectory_set_file_iff`
    * `FileTree.locate?_congr`
    * `FileTree.writeFile?_eq_some_iff`
    * `FileTree.locate?_join`
    * `FileTree.mem_below_iff`
-/

namespace TradeTape

------------------------------------------------------------
-- Places
------------------------------------------------------------

namespace Place

theorem ext_names
    {p q : Place}
    (hNames : p.names = q.names) :
    p = q := by
  rcases p with ⟨depth, names, hDepth⟩
  rcases q with ⟨depth', names', hDepth'⟩
  cases hNames
  cases hDepth
  cases hDepth'
  rfl

theorem parent_child
    (p : Place)
    (name : String) :
    (p.child name).parent = p :=
  ext_names (List.dropLast_concat)

theorem name?_child
    (p : Place)
    (name : String) :
    (p.child name).name? = some name :=
  List.getLast?_concat

/- A place is known by the one above it and its name. -/
theorem eq_child_iff
    {p q : Place}
    {name : String} :
    q = p.child name ↔ q.parent = p ∧ q.name? = some name := by
  constructor
  · rintro rfl
    exact ⟨parent_child p name, name?_child p name⟩
  · rintro ⟨rfl, hName⟩
    exact ext_names (List.dropLast_append_getLast? name hName).symm

theorem child_ne_root
    (p : Place)
    (name : String) :
    p.child name ≠ root := by
  intro hRoot
  have hNames : p.names ++ [name] = [] := congrArg names hRoot
  simp at hNames

theorem child_injective
    {p : Place}
    {m n : String}
    (hSame : p.child m = p.child n) :
    m = n := by
  have hName := name?_child p m
  rw [hSame, name?_child] at hName
  exact (Option.some.inj hName).symm

end Place

namespace FileTree

variable {t u : FileTree}
variable {p q : Place}

------------------------------------------------------------
-- Entries
------------------------------------------------------------

theorem entry?_root (t : FileTree) :
    t.entry? Place.root = some .directory :=
  if_pos rfl

theorem entry?_erase
    (hPlace : p ≠ Place.root)
    (q : Place) :
    entry? (t.erase p) q = if q = p then none else t.entry? q := by
  unfold entry? erase
  by_cases hSame : q = p
  · rw [if_pos hSame, if_neg (by rwa [hSame]), List.find?_filter]
    simp [hSame]
  · rw [if_neg hSame, List.find?_filter]
    congr 3
    funext e
    by_cases hEntry : e.1 = q
    · simp [hEntry, hSame]
    · simp [hEntry]

theorem entry?_set
    (hPlace : p ≠ Place.root)
    (e : Entry)
    (q : Place) :
    entry? (t.set p e) q = if q = p then some e else t.entry? q := by
  have hErased := entry?_erase (t := t) hPlace q
  unfold entry? at hErased ⊢
  unfold set
  rw [List.find?_append]
  by_cases hSame : q = p
  · have hPlace' : q ≠ Place.root := by rwa [hSame]
    rw [if_neg hPlace', if_pos hSame, Option.map_eq_none_iff] at hErased
    rw [if_neg hPlace', hErased, if_pos hSame]
    simp [hSame]
  · have hOther : decide (p = q) = false :=
      decide_eq_false fun h => hSame h.symm
    rw [if_neg hSame] at hErased ⊢
    simpa [hOther] using hErased

/- The root is a directory, and so is not where a file can be. -/
theorem ne_root_of_not_isDirectory
    (hFile : ¬t.IsDirectory p) :
    p ≠ Place.root := by
  rintro rfl
  exact hFile (entry?_root t)

theorem isDirectory_erase_iff
    (hFile : ¬t.IsDirectory p)
    (q : Place) :
    (t.erase p).IsDirectory q ↔ t.IsDirectory q := by
  unfold IsDirectory at hFile ⊢
  rw [entry?_erase (ne_root_of_not_isDirectory hFile)]
  split
  · rename_i hSame
    rw [hSame]
    exact ⟨fun h => (nomatch h), fun h => absurd h hFile⟩
  · exact Iff.rfl

theorem isDirectory_set_file_iff
    (hFile : ¬t.IsDirectory p)
    (c : Content)
    (q : Place) :
    (t.set p (.file c)).IsDirectory q ↔ t.IsDirectory q := by
  unfold IsDirectory at hFile ⊢
  rw [entry?_set (ne_root_of_not_isDirectory hFile)]
  split
  · rename_i hSame
    rw [hSame]
    exact ⟨fun h => (nomatch h), fun h => absurd h hFile⟩
  · exact Iff.rfl

theorem content?_eq_some_iff
    {c : Content} :
    t.content? p = some c ↔ t.entry? p = some (.file c) := by
  unfold content?
  split
  · rename_i d hEntry
    rw [hEntry]
    simp
  · rename_i hOther
    exact ⟨fun h => (nomatch h), fun h => absurd h (hOther c)⟩

theorem entryAt?_of_contentAt?
    {path : Path}
    {c : Content}
    (hContent : t.contentAt? path = some c) :
    t.entryAt? path = some (.file c) := by
  unfold contentAt? at hContent
  unfold entryAt?
  rcases Option.bind_eq_some_iff.mp hContent with ⟨p, hLocate, hFile⟩
  rw [hLocate, Option.bind_some, content?_eq_some_iff.mp hFile]

------------------------------------------------------------
-- Paths
------------------------------------------------------------

/- Where a path leads is a matter of directories alone. -/
theorem locate?_congr
    (hSame : ∀ q, u.IsDirectory q ↔ t.IsDirectory q)
    (path : Path) :
    u.locate? path = t.locate? path := by
  have hEnter : u.enter? = t.enter? := by
    funext here part
    unfold enter?
    simp only [hSame]
  unfold locate?
  rw [hEnter]

theorem hasRoom_congr
    (hSame : ∀ q, u.IsDirectory q ↔ t.IsDirectory q)
    (p : Place) :
    u.HasRoom p ↔ t.HasRoom p := by
  unfold HasRoom
  rw [hSame, hSame]

theorem writeFile?_eq_some_iff
    {path : Path}
    {c : Content} :
    t.writeFile? path c = some u
      ↔ ∃ p, t.locate? path = some p ∧ t.HasRoom p
          ∧ u = t.set p (.file c) := by
  unfold writeFile?
  cases hLocate : t.locate? path with
  | none => simp
  | some p =>
      by_cases hRoom : t.HasRoom p
      · simp [hRoom, eq_comm]
      · simp [hRoom]

theorem rename?_eq_some_iff
    {source target : Path} :
    t.rename? source target = some u
      ↔ ∃ p q c, t.locate? source = some p ∧ t.locate? target = some q
          ∧ t.content? p = some c ∧ t.HasRoom q
          ∧ u = (t.erase p).set q (.file c) := by
  unfold rename?
  cases hSource : t.locate? source with
  | none => simp
  | some p =>
      cases hTarget : t.locate? target with
      | none => simp
      | some q =>
          cases hContent : t.content? p with
          | none => simp [hContent]
          | some c =>
              by_cases hRoom : t.HasRoom q
              · simp [hContent, hRoom, eq_comm]
              · simp [hRoom]

/- Writing a file leaves all directories where they are. -/
theorem isDirectory_writeFile?_iff
    {path : Path}
    {c : Content}
    (hWrite : t.writeFile? path c = some u)
    (q : Place) :
    u.IsDirectory q ↔ t.IsDirectory q := by
  rcases writeFile?_eq_some_iff.mp hWrite with ⟨p, -, hRoom, rfl⟩
  exact isDirectory_set_file_iff hRoom.1 c q

/- What was written is found at the same path. -/
theorem contentAt?_writeFile?
    {path : Path}
    {c : Content}
    (hWrite : t.writeFile? path c = some u) :
    u.contentAt? path = some c := by
  have hSame := isDirectory_writeFile?_iff hWrite
  rcases writeFile?_eq_some_iff.mp hWrite with ⟨p, hLocate, hRoom, rfl⟩
  unfold contentAt?
  rw [locate?_congr hSame, hLocate, Option.bind_some,
    content?_eq_some_iff, entry?_set (ne_root_of_not_isDirectory hRoom.1),
    if_pos rfl]

/- What has moved is found at its new path. -/
theorem contentAt?_rename?
    {source target : Path}
    (hRename : t.rename? source target = some u) :
    u.contentAt? target = t.contentAt? source := by
  rcases rename?_eq_some_iff.mp hRename with
    ⟨p, q, c, hSource, hTarget, hContent, hRoom, rfl⟩
  have hFile : ¬t.IsDirectory p := by
    unfold IsDirectory
    rw [content?_eq_some_iff.mp hContent]
    simp
  have hErased := isDirectory_erase_iff hFile
  have hFree : ¬(t.erase p).IsDirectory q :=
    fun h => hRoom.1 ((hErased q).mp h)
  have hSame (r : Place) :
      ((t.erase p).set q (.file c)).IsDirectory r ↔ t.IsDirectory r :=
    (isDirectory_set_file_iff hFree c r).trans (hErased r)
  unfold contentAt?
  rw [locate?_congr hSame, hTarget, hSource, Option.bind_some,
    Option.bind_some, hContent, content?_eq_some_iff,
    entry?_set (ne_root_of_not_isDirectory hFree), if_pos rfl]

------------------------------------------------------------
-- Paths below a directory
------------------------------------------------------------

theorem splitAtChar_ne_nil
    (separator : Char)
    (cs : List Char) :
    Form.splitAtChar separator cs ≠ [] := by
  cases cs with
  | nil => exact fun h => (nomatch h)
  | cons c cs =>
      unfold Form.splitAtChar
      split
      · exact fun h => (nomatch h)
      · split <;> exact fun h => (nomatch h)

theorem splitAtChar_of_notMem
    {separator : Char}
    {cs : List Char}
    (hWhole : separator ∉ cs) :
    Form.splitAtChar separator cs = [cs] := by
  induction cs with
  | nil => rfl
  | cons c cs ih =>
      rcases List.ne_and_not_mem_of_not_mem_cons hWhole with ⟨hFirst, hOthers⟩
      rw [Form.splitAtChar, if_neg (Ne.symm hFirst), ih hOthers]

/- A separator splits a text whatever stands around it. -/
theorem splitAtChar_append
    (separator : Char)
    (as bs : List Char) :
    Form.splitAtChar separator (as ++ separator :: bs)
      = Form.splitAtChar separator as
          ++ Form.splitAtChar separator bs := by
  induction as with
  | nil => simp [Form.splitAtChar]
  | cons a as ih =>
      by_cases hSeparator : a = separator
      · simp [Form.splitAtChar, hSeparator, ih]
      · simp only [List.cons_append, Form.splitAtChar, if_neg hSeparator, ih]
        cases hParts : Form.splitAtChar separator as with
        | nil => exact absurd hParts (splitAtChar_ne_nil separator as)
        | cons part parts => rfl

/- The names that a path names an entry of a directory by. -/
def IsPlain (name : String) : Prop :=
  '/' ∉ name.toList ∧ name ≠ "" ∧ name ≠ "." ∧ name ≠ ".."

instance (name : String) : Decidable (IsPlain name) := by
  unfold IsPlain
  infer_instance

theorem step_plain
    {name : String}
    (hPlain : IsPlain name)
    (here : Place) :
    step here name.toList = here.child name := by
  rcases hPlain with ⟨-, hSome, hDot, hDots⟩
  have hOther {cs : List Char} (hName : name ≠ String.ofList cs) :
      name.toList ≠ cs := by
    rintro rfl
    exact hName (String.ofList_toList).symm
  unfold step
  rw [if_neg, if_neg, String.ofList_toList]
  · exact hOther hDots
  · exact not_or.mpr ⟨hOther hSome, hOther hDot⟩

/-
  The parts of a path below another one: a last part that is
  empty, as behind a slash, makes room for the name.
-/
theorem parts_join
    {name : String}
    (hPlain : IsPlain name)
    (directory : Path) :
    ∃ above last, directory.parts = above ++ [last]
      ∧ ((directory.join name).parts = above ++ [last, name.toList]
        ∨ last = [] ∧ (directory.join name).parts = above ++ [name.toList]) := by
  have hName : Form.splitAtChar '/' name.toList = [name.toList] :=
    splitAtChar_of_notMem hPlain.1
  have hFirst : name.toList.head? ≠ some '/' := fun hHead =>
    hPlain.1 (List.mem_of_head? hHead)
  unfold Path.parts Path.join Path.joinText
  rw [if_neg hFirst, String.toList_ofList]
  split
  · rename_i hEnd
    rcases hEnd with hEmpty | hSlash
    · exact ⟨[], [], by rw [hEmpty]; rfl, Or.inr ⟨rfl, by rw [hEmpty]; exact hName⟩⟩
    · rcases List.getLast?_eq_some_iff.mp hSlash with ⟨base, hBase⟩
      rw [hBase]
      refine
        ⟨Form.splitAtChar '/' base, [], splitAtChar_append '/' base [],
          Or.inr ⟨rfl, ?_⟩⟩
      rw [List.append_assoc, List.singleton_append, splitAtChar_append,
        hName]
  · rw [splitAtChar_append, hName]
    rcases
      (Form.splitAtChar '/' directory.text.toList).eq_nil_or_concat with
      hNil | ⟨above, last, hParts⟩
    · exact absurd hNil (splitAtChar_ne_nil _ _)
    · rw [List.concat_eq_append] at hParts
      exact ⟨above, last, hParts, Or.inl (by rw [hParts]; simp)⟩

/- What a way leads to when its last part names an entry. -/
theorem locate?_eq_child
    {path : Path}
    {above : List (List Char)}
    {name : String}
    {here : Place}
    (hPlain : IsPlain name)
    (hPath : path.Acceptable)
    (hParts : path.parts = above ++ [name.toList])
    (hAbove : above.foldlM t.enter? Place.root = some here) :
    t.locate? path = some (here.child name) := by
  unfold locate?
  rw [if_pos hPath, hParts, List.dropLast_concat, hAbove]
  simp [step_plain hPlain]

/- An entry of a directory stands below it. -/
theorem locate?_join
    {directory : Path}
    {here : Place}
    {name : String}
    (hHere : t.locate? directory = some here)
    (hDirectory : t.IsDirectory here)
    (hPlain : IsPlain name)
    (hPath : (directory.join name).Acceptable) :
    t.locate? (directory.join name) = some (here.child name) := by
  rcases parts_join hPlain directory with ⟨above, last, hParts, hJoin⟩
  have hWay :
      (above.foldlM t.enter? Place.root).map (step · last) = some here := by
    unfold locate? at hHere
    split at hHere
    · rwa [hParts, List.dropLast_concat,
        List.getLastD_concat] at hHere
    · cases hHere
  rcases Option.map_eq_some_iff.mp hWay with ⟨place, hAbove, hStep⟩
  rcases hJoin with hLonger | ⟨hEmpty, hSame⟩
  · have hParts' :
        (directory.join name).parts = (above ++ [last]) ++ [name.toList] := by
      simp [hLonger]
    refine locate?_eq_child hPlain hPath hParts' ?_
    have hEnter : t.enter? place last = some here := by
      unfold enter?
      simp [hStep, hDirectory]
    rw [List.foldlM_append, hAbove]
    simp [hEnter]
  · rw [hEmpty] at hStep
    have hPlace : place = here := hStep
    exact locate?_eq_child hPlain hPath hSame (hPlace ▸ hAbove)

------------------------------------------------------------
-- Entries of a directory
------------------------------------------------------------

/- No two entries stand at one place. -/
def Distinct (t : FileTree) : Prop :=
  (t.entries.map Prod.fst).Nodup

instance (t : FileTree) : Decidable t.Distinct := by
  unfold Distinct
  infer_instance

theorem distinct_empty : empty.Distinct :=
  List.nodup_nil

theorem distinct_erase
    (hDistinct : t.Distinct)
    (p : Place) :
    (t.erase p).Distinct :=
  hDistinct.sublist (List.filter_sublist.map Prod.fst)

theorem distinct_set
    (hDistinct : t.Distinct)
    (p : Place)
    (e : Entry) :
    (t.set p e).Distinct := by
  have hErased := distinct_erase hDistinct p
  unfold Distinct set at *
  rw [List.map_append, List.nodup_append]
  refine ⟨hErased, List.nodup_singleton p, ?_⟩
  simp [erase]

/- Writing, moving and removing files leave places distinct. -/
theorem distinct_writeFile?
    (hDistinct : t.Distinct)
    {path : Path}
    {c : Content}
    (hWrite : t.writeFile? path c = some u) :
    u.Distinct := by
  rcases writeFile?_eq_some_iff.mp hWrite with ⟨p, -, -, rfl⟩
  exact distinct_set hDistinct p _

theorem distinct_rename?
    (hDistinct : t.Distinct)
    {source target : Path}
    (hRename : t.rename? source target = some u) :
    u.Distinct := by
  rcases rename?_eq_some_iff.mp hRename with ⟨p, q, c, -, -, -, -, rfl⟩
  exact distinct_set (distinct_erase hDistinct p) q _

theorem distinct_removeFile
    (hDistinct : t.Distinct)
    (path : Path) :
    (t.removeFile path).Distinct := by
  unfold removeFile
  split
  · split
    · exact distinct_erase hDistinct _
    · exact hDistinct
  · exact hDistinct

theorem entry?_eq_some_iff
    (hDistinct : t.Distinct)
    (hPlace : p ≠ Place.root)
    {e : Entry} :
    t.entry? p = some e ↔ (p, e) ∈ t.entries := by
  unfold entry?
  rw [if_neg hPlace, Option.map_eq_some_iff]
  constructor
  · rintro ⟨⟨q, e'⟩, hFind, rfl⟩
    have hPlaces : q = p := by
      simpa using List.find?_some hFind
    rw [← hPlaces]
    exact List.mem_of_find?_eq_some hFind
  · intro hMem
    have hIsFound :
        (t.entries.find? fun e => decide (e.1 = p)).isSome = true :=
      List.find?_isSome.mpr ⟨(p, e), hMem, decide_eq_true rfl⟩
    rcases Option.isSome_iff_exists.mp hIsFound with ⟨found, hFind⟩
    have hSame : found.1 = p := by
      simpa using List.find?_some hFind
    have hFound :=
      List.inj_on_of_nodup_map hDistinct
        (List.mem_of_find?_eq_some hFind) hMem hSame
    exact ⟨found, hFind, by rw [hFound]⟩

/- The names and entries below a place. -/
def below
    (t : FileTree)
    (p : Place) : List (String × Entry) :=
  t.entries.filterMap fun e =>
    if e.1.parent = p then e.1.name?.map (·, e.2) else none

theorem children?_eq_below
    {path : Path}
    (hLocate : t.locate? path = some p)
    (hDirectory : t.IsDirectory p) :
    t.children? path = some (t.below p) := by
  unfold children?
  simp [hLocate, hDirectory, below]

/- Only what stands below a place is named there. -/
theorem below_entry
    {entry : Place × Entry}
    {named : String × Entry}
    (hEntry :
      (if entry.1.parent = p then entry.1.name?.map (·, entry.2)
        else none) = some named) :
    entry.1 = p.child named.1 ∧ entry.2 = named.2 := by
  split at hEntry
  · rename_i hParent
    rcases Option.map_eq_some_iff.mp hEntry with ⟨name, hName, rfl⟩
    exact ⟨Place.eq_child_iff.mpr ⟨hParent, hName⟩, rfl⟩
  · cases hEntry

theorem mem_below_iff
    (hDistinct : t.Distinct)
    {name : String}
    {e : Entry} :
    (name, e) ∈ t.below p ↔ t.entry? (p.child name) = some e := by
  rw [entry?_eq_some_iff hDistinct (Place.child_ne_root p name)]
  unfold below
  rw [List.mem_filterMap]
  constructor
  · rintro ⟨⟨q, e'⟩, hMem, hEntry⟩
    rcases below_entry hEntry with ⟨hPlace, hSame⟩
    cases hPlace
    cases hSame
    exact hMem
  · intro hMem
    refine ⟨_, hMem, ?_⟩
    rw [if_pos (Place.parent_child p name), Place.name?_child]
    rfl

theorem nodup_below
    (hDistinct : t.Distinct)
    (p : Place) :
    ((t.below p).map Prod.fst).Nodup := by
  unfold Distinct at hDistinct
  unfold below
  rw [List.Nodup, List.pairwise_map] at hDistinct ⊢
  rw [List.pairwise_filterMap]
  refine hDistinct.imp ?_
  intro e e' hOther named hNamed named' hNamed' hSame
  rw [(below_entry hNamed).1, (below_entry hNamed').1, hSame] at hOther
  exact hOther rfl

end FileTree

end TradeTape
