import TradeTape.Proofs.Store.Catalog
import TradeTape.Proofs.Store.Growth

/-
  Room for partitions in a tree.

  A tree has room for a partition if its directories can be
  created and its catalog can be written in them.  Once the
  directory below which all partitions are kept is there, the
  tree keeps its room however it grows: the work on one
  partition never takes it from another.

  Key definitions include:
    * `Partition.Served`
    * `Partition.FitsIn`
    * `FileTree.Since`

  Key statements include:
    * `Partition.parent_catalogPath`
    * `Partition.exists_catalogued`
    * `Partition.exists_opened`
-/

namespace TradeTape

------------------------------------------------------------
-- Parents
------------------------------------------------------------

theorem Path.trimEnd_cons
    {c : Char}
    (hSlash : c ≠ '/')
    (hDot : c ≠ '.')
    (rest : List Char) :
    trimEnd (c :: rest) = c :: rest := by
  unfold trimEnd
  split
  · rename_i hSame
    cases hSame
    exact absurd rfl hSlash
  · rename_i hSame
    cases hSame
    exact absurd rfl hDot
  · rename_i hSame
    cases hSame
    exact absurd rfl hDot
  · rfl

/- What a name was joined to is the parent, if both end well. -/
theorem Path.parent_join
    {directory : Path}
    {name : String}
    {a b : Char}
    (hPlain : FileTree.IsPlain name)
    (hName : name.toList.getLast? = some a)
    (hLast : a ≠ '.')
    (hDirectory : directory.text.toList.getLast? = some b)
    (hSlash : b ≠ '/')
    (hDot : b ≠ '.') :
    (directory.join name).parent = directory := by
  have hFirst : name.toList.head? ≠ some '/' := fun hHead =>
    hPlain.1 (List.mem_of_head? hHead)
  have hText :
      (directory.join name).text.toList
        = directory.text.toList ++ '/' :: name.toList := by
    unfold join joinText
    rw [if_neg hFirst, if_neg, String.toList_ofList]
    rintro (hNone | hEnd)
    · rw [hNone] at hDirectory
      cases hDirectory
    · rw [hDirectory] at hEnd
      exact hSlash (Option.some.inj hEnd)
  rcases List.getLast?_eq_some_iff.mp hName with ⟨front, hFront⟩
  rcases List.getLast?_eq_some_iff.mp hDirectory with ⟨above, hAbove⟩
  have hWhole : ∀ c ∈ name.toList, c ≠ '/' := by
    rintro c hMem rfl
    exact hPlain.1 hMem
  have hA : a ≠ '/' := hWhole a (by rw [hFront]; simp)
  have hTrimmed :
      trimEnd (directory.join name).text.toList.reverse
        = name.toList.reverse ++ '/' :: directory.text.toList.reverse := by
    rw [hText, List.reverse_append, List.reverse_cons, hFront,
      List.reverse_append]
    simp only [List.reverse_cons, List.reverse_nil, List.nil_append,
      List.cons_append, List.append_assoc]
    exact trimEnd_cons hA hLast _
  have hBare :
      trimEnd ('/' :: directory.text.toList.reverse)
        = directory.text.toList.reverse := by
    rw [trimEnd, hAbove, List.reverse_append, List.reverse_singleton,
      List.singleton_append]
    exact trimEnd_cons hSlash hDot _
  have hDrop :
      (name.toList.reverse
          ++ '/' :: directory.text.toList.reverse).dropWhile
          (fun c => decide (c ≠ '/'))
        = '/' :: directory.text.toList.reverse := by
    rw [List.dropWhile_append_of_pos]
    · rfl
    · intro c hMem
      exact decide_eq_true (hWhole c (List.mem_reverse.mp hMem))
  have hSome : directory.text.toList.reverse ≠ [] := by
    rw [hAbove]
    simp
  unfold parent
  simp only [hTrimmed, hDrop, hBare]
  rw [if_neg fun hNone => hSome hNone.2, List.reverse_reverse,
    String.ofList_toList]

------------------------------------------------------------
-- Names
------------------------------------------------------------

namespace Partition

variable {p : Partition} {base : Path}

/- The directories of a kind of instrument, by their names. -/
def kindNames (p : Partition) : List String :=
  [p.currency, Named.name p.kind]

/- The directories of the files with trades, by their names. -/
def names (p : Partition) : List String :=
  p.kindNames ++ [p.state]

/- The name of the file with the list of instruments. -/
def catalogName (p : Partition) : String :=
  p.currency ++ "-" ++ p.state ++ "-" ++ Named.name p.kind
    ++ "-list.csv"

/- The place of the file with the list of instruments. -/
def catalogPlace
    (p : Partition)
    (base : Path) : Place :=
  (p.kindDirectory base).place.child p.catalogName

/- A partition for a currency whose history is served. -/
def Served (p : Partition) : Prop :=
  ∃ currency : Deribit.Currency, p.currency = Named.name currency

theorem Served.names_plain
    (h : p.Served) :
    ∀ name ∈ p.names,
      FileTree.IsPlain name ∧ ¬Name.OfFile name := by
  rcases p with ⟨_, kind, expired⟩
  rcases h with ⟨currency, rfl⟩
  cases currency <;> cases kind <;> cases expired <;> decide

theorem Served.kindNames_plain
    (h : p.Served)
    {name : String}
    (hName : name ∈ p.kindNames) :
    FileTree.IsPlain name ∧ ¬Name.OfFile name :=
  h.names_plain name (List.mem_append_left _ hName)

theorem Served.catalogName_plain
    (h : p.Served) :
    FileTree.IsPlain p.catalogName
      ∧ fileSuffix.toList <:+ p.catalogName.toList := by
  rcases p with ⟨_, kind, expired⟩
  rcases h with ⟨currency, rfl⟩
  cases currency <;> cases kind <;> cases expired <;> decide

theorem Served.ofFile_catalogPlace
    (h : p.Served)
    (base : Path) :
    (p.catalogPlace base).EndsIn fileSuffix :=
  Place.endsIn_child_iff.mpr h.catalogName_plain.2

/- The catalog is in the directory of its kind. -/
theorem parent_catalogPath
    (h : p.Served)
    (base : Path) :
    (p.catalogPath base).parent = p.kindDirectory base := by
  have hKind :
      ∃ b, (p.kindDirectory base).text.toList.getLast? = some b
        ∧ b ≠ '/' ∧ b ≠ '.' := by
    rcases Path.exists_text_join (base.join p.currency)
      (Named.name p.kind) with ⟨front, hText⟩
    have hText :
        (p.kindDirectory base).text.toList
          = front ++ (Named.name p.kind).toList :=
      hText
    rw [hText]
    cases p.kind with
    | option => exact ⟨'n', by simp [Named.name], by decide, by decide⟩
    | future => exact ⟨'e', by simp [Named.name], by decide, by decide⟩
  have hName : p.catalogName.toList.getLast? = some 'v' := by
    unfold catalogName
    rw [String.toList_append, List.getLast?_append]
    rfl
  rcases hKind with ⟨b, hLast, hSlash, hDot⟩
  exact
    Path.parent_join h.catalogName_plain.1 hName (by decide) hLast
      hSlash hDot

end Partition

/- No two partitions of a currency have one catalog. -/
theorem Partition.eq_of_catalogPlace
    {p p' : Partition}
    {base : Path}
    (hServed : p.Served)
    (hCurrency : p'.currency = p.currency)
    (hSame : p.catalogPlace base = p'.catalogPlace base) :
    p = p' := by
  have hName : p.catalogName = p'.catalogName := by
    have hLast := congrArg Place.name? hSame
    unfold catalogPlace at hLast
    rw [Place.name?_child, Place.name?_child] at hLast
    exact Option.some.inj hLast
  rcases p with ⟨_, kind, expired⟩
  rcases p' with ⟨_, kind', expired'⟩
  rcases hServed with ⟨currency, rfl⟩
  cases hCurrency
  revert hName
  cases currency <;> cases kind <;> cases kind' <;> cases expired <;>
    cases expired' <;> decide

/- A catalog is not where the files with trades are. -/
theorem Partition.parent_catalogPlace_ne
    {p p' : Partition}
    (hServed : p.Served)
    (hServed' : p'.Served)
    (base : Path) :
    (p.catalogPlace base).parent ≠ (p'.directory base).place := by
  have hKind : (p.kindDirectory base).place
      = p.kindNames.foldl Place.child base.place :=
    FileTree.place_below
      (fun _ hMem => (hServed.kindNames_plain hMem).1) base
  have hDirectory : (p'.directory base).place
      = p'.names.foldl Place.child base.place :=
    FileTree.place_below
      (fun name hMem => (hServed'.names_plain name hMem).1) base
  unfold catalogPlace
  rw [Place.parent_child, hKind, hDirectory]
  intro hSame
  have hDepth : base.place.depth + 2 = base.place.depth + 3 :=
    congrArg Place.depth hSame
  omega

------------------------------------------------------------
-- Room
------------------------------------------------------------

/-
  Whether the directories of a partition can be created in a
  tree, with room for its catalog.
-/
def Partition.FitsIn
    (p : Partition)
    (base : Path)
    (t : FileTree) : Prop :=
  (t.createDirectories (p.directory base)).1 = true
    ∧ (t.createDirectories (p.directory base)).2.CanHold
      (p.catalogPath base)

namespace FileTree

variable {t u w : FileTree} {base : Path} {names : List String}

instance (t : FileTree) (path : Path) : Decidable (t.CanHold path) :=
  decidable_of_iff
    ((t.locate? path).any (fun p => decide (t.HasRoom p)) = true)
    (by
      unfold CanHold
      cases t.locate? path <;> simp)

instance
    (p : Partition)
    (base : Path)
    (t : FileTree) : Decidable (p.FitsIn base t) := by
  unfold Partition.FitsIn
  infer_instance

/-
  A tree that is as it was, or has grown since a directory was
  created in it.
-/
def Since
    (base : Path)
    (t w : FileTree) : Prop :=
  w = t ∨ Grown (t.createDirectories base).2 w

theorem createDirectories_below
    (hPlain : ∀ name ∈ names, IsPlain name)
    (hPath : (base.below names).Acceptable)
    (hBase : base.Acceptable)
    (t : FileTree) :
    t.createDirectories (base.below names)
      = match t.createDirectories base with
        | (true, u) =>
            u.createFrom base.place (names.map String.toList)
        | (false, u) => (false, u) := by
  unfold createDirectories
  rw [if_pos hPath, if_pos hBase]
  exact createFrom_below hPlain base t

theorem acceptable_of_below
    (hPlain : ∀ name ∈ names, IsPlain name)
    (hPath : (base.below names).Acceptable) :
    base.Acceptable := by
  induction names generalizing base with
  | nil => exact hPath
  | cons name rest ih =>
      rcases List.forall_mem_cons.mp hPlain with ⟨hFirst, hRest⟩
      have hNext : (base.join name).Acceptable := ih hRest hPath
      exact acceptable_of_join hFirst hNext

/- What was created is where its path leads. -/
theorem locate?_of_created
    {path : Path}
    (hMade : t.createDirectories path = (true, u))
    (hStays : ∀ q, u.IsDirectory q → w.IsDirectory q) :
    w.locate? path = some path.place ∧ w.IsDirectory path.place := by
  unfold createDirectories at hMade
  split at hMade
  · rename_i hPath
    have hWay := entered_of_createFrom hMade hStays
    exact
      ⟨locate?_of_entered hPath hWay, isDirectory_of_entered hWay⟩
  · cases hMade

/- Creating directories leaves the files alone. -/
theorem content?_createDirectories
    (t : FileTree)
    (path : Path)
    (q : Place) :
    (t.createDirectories path).2.content? q = t.content? q := by
  unfold createDirectories
  split
  · exact content?_createFrom t Place.root path.parts q
  · rfl

/- Directories that were created are there, however trees grow. -/
theorem createDirectories_of_grown
    {tb : FileTree}
    (hBase : t.createDirectories base = (true, tb))
    (hGrown : Grown tb w) :
    w.createDirectories base = (true, w) := by
  unfold createDirectories at hBase ⊢
  split at hBase
  · rename_i hOpen
    rw [if_pos hOpen]
    exact
      createFrom_of_entered (entered_of_createFrom hBase hGrown.stays)
  · cases hBase

/- Directories that a tree has room for it has room for later. -/
theorem Since.exists_created
    {tb t' : FileTree}
    (h : Since base t w)
    (hNames : ∀ name ∈ names, IsPlain name ∧ ¬Name.OfFile name)
    (hPath : (base.below names).Acceptable)
    (hBase : t.createDirectories base = (true, tb))
    (hMade :
      tb.createFrom base.place (names.map String.toList)
        = (true, t')) :
    ∃ u,
      w.createDirectories (base.below names) = (true, u)
        ∧ Grown t' u ∧ Grown tb u ∧ (Grown tb w → Grown w u) := by
  have hPlain (name : String) (hMem : name ∈ names) :=
    (hNames name hMem).1
  have hOpen := acceptable_of_below hPlain hPath
  have hAgain :
      ∃ wb, w.createDirectories base = (true, wb) ∧ Grown tb wb := by
    rcases h with rfl | hGrown
    · exact ⟨tb, hBase, Grown.refl tb⟩
    · rw [hBase] at hGrown
      exact ⟨w, createDirectories_of_grown hBase hGrown, hGrown⟩
  rcases hAgain with ⟨wb, hAgain, hGrown⟩
  rcases hGrown.createFrom hNames hMade with ⟨u, hDone, hAll, hMore⟩
  refine ⟨u, ?_, hAll, hGrown.trans hMore, ?_⟩
  · rw [createDirectories_below hPlain hPath hOpen, hAgain]
    exact hDone
  · intro hThere
    rw [createDirectories_of_grown hBase hThere] at hAgain
    cases hAgain
    exact hMore

end FileTree

namespace Partition

open FileTree

variable {p : Partition} {base : Path} {t w : FileTree}

section Rooms

variable (hServed : p.Served) (hFits : p.FitsIn base t)

include hServed hFits

/- The way down to the directory of a partition that fits. -/
theorem exists_created :
    ∃ tb tk tp,
      t.createDirectories base = (true, tb)
        ∧ tb.createFrom base.place (p.kindNames.map String.toList)
          = (true, tk)
        ∧ tb.createFrom base.place (p.names.map String.toList)
          = (true, tp)
        ∧ t.createDirectories (p.directory base) = (true, tp)
        ∧ (∀ q, tk.IsDirectory q → tp.IsDirectory q)
        ∧ (p.directory base).Acceptable := by
  have hPlain (name : String) (hMem : name ∈ p.names) :=
    (hServed.names_plain name hMem).1
  have hPath : (p.directory base).Acceptable := by
    have hMade := hFits.1
    unfold createDirectories at hMade
    split at hMade
    · assumption
    · cases hMade
  have hBase := acceptable_of_below hPlain hPath
  have hBelow := createDirectories_below hPlain hPath hBase t
  rcases hMade : t.createDirectories (base.below p.names) with
    ⟨done, tp⟩
  have hDone : done = true := by
    have hFirst := hFits.1
    change (t.createDirectories (base.below p.names)).1 = true at hFirst
    rwa [hMade] at hFirst
  rcases hTree : t.createDirectories base with ⟨made, tb⟩
  rw [hDone] at hMade
  rw [hMade, hTree] at hBelow
  cases made with
  | false => cases hBelow
  | true =>
      have hNames :
          tb.createFrom base.place (p.names.map String.toList)
            = (true, tp) :=
        hBelow.symm
      have hSplit :=
        createFrom_append tb base.place
          (p.kindNames.map String.toList) [p.state.toList]
      have hJoined :
          p.kindNames.map String.toList ++ [p.state.toList]
            = p.names.map String.toList := by
        unfold names
        rw [List.map_append]
        rfl
      rw [hJoined, hNames] at hSplit
      rcases hKind :
        tb.createFrom base.place (p.kindNames.map String.toList) with
        ⟨kindMade, tk⟩
      rw [hKind] at hSplit
      cases kindMade with
      | false => cases hSplit
      | true =>
          refine ⟨tb, tk, tp, rfl, hKind, hNames, hMade, ?_, hPath⟩
          intro q hThere
          have hAfter :=
            isDirectory_createFrom hThere
              ((p.kindNames.map String.toList).foldl step base.place)
              [p.state.toList]
          have hSame : tk.createFrom _ _ = (true, tp) := hSplit.symm
          rwa [hSame] at hAfter

/-
  The directory of the catalog can be created, and then holds
  the catalog.
-/
theorem exists_catalogued
    (hSince : Since base t w) :
    ∃ u,
      w.createDirectories (p.catalogPath base).parent = (true, u)
        ∧ u.locate? (p.catalogPath base) = some (p.catalogPlace base)
        ∧ u.HasRoom (p.catalogPlace base)
        ∧ Grown (t.createDirectories base).2 u
        ∧ (Grown (t.createDirectories base).2 w → Grown w u) := by
  rcases exists_created hServed hFits with
    ⟨tb, tk, tp, hBase, hKind, -, hMade, hStays, hPath⟩
  have hState : IsPlain p.state :=
    (hServed.names_plain p.state
      (List.mem_append_right _ (List.mem_singleton_self _))).1
  have hKindPath : (p.kindDirectory base).Acceptable :=
    acceptable_of_join hState hPath
  rcases
    hSince.exists_created (fun _ => hServed.kindNames_plain) hKindPath
      hBase hKind with
    ⟨u, hDone, hAll, hMore, hGrows⟩
  have hDone : w.createDirectories (p.kindDirectory base) = (true, u) :=
    hDone
  -- In both trees the catalog is below the same directory.
  have hPlace
      {v : FileTree}
      (hThere :
        v.locate? (p.kindDirectory base)
            = some (p.kindDirectory base).place
          ∧ v.IsDirectory (p.kindDirectory base).place)
      (hOpen : (p.catalogPath base).Acceptable) :
      v.locate? (p.catalogPath base) = some (p.catalogPlace base) :=
    locate?_join hThere.1 hThere.2 hServed.catalogName_plain.1 hOpen
  have hHold := hFits.2
  rw [hMade] at hHold
  rcases hHold with ⟨q, hLocate, hRoom⟩
  have hOpen : (p.catalogPath base).Acceptable := by
    unfold locate? at hLocate
    split at hLocate
    · assumption
    · cases hLocate
  have hHere := locate?_of_created hDone fun _ h => h
  have hSame : q = p.catalogPlace base := by
    have hTree :
        t.createDirectories (p.kindDirectory base) = (true, tk) := by
      have hPlain (name : String) (hMem : name ∈ p.kindNames) :=
        (hServed.kindNames_plain hMem).1
      have hBelow :=
        createDirectories_below hPlain hKindPath
          (acceptable_of_below hPlain hKindPath) t
      rw [hBase] at hBelow
      exact hBelow.trans hKind
    have hThere :=
      hPlace (locate?_of_created hTree hStays) hOpen
    rw [hThere] at hLocate
    exact (Option.some.inj hLocate).symm
  rw [hSame] at hRoom
  rw [hBase, parent_catalogPath hServed]
  refine
    ⟨u, hDone, hPlace hHere hOpen, ⟨?_, ?_, hRoom.2.2⟩, hMore, hGrows⟩
  · apply hAll.not_isDirectory
    · exact Or.inl (hServed.ofFile_catalogPlace base)
    · exact fun hThere => hRoom.1 (hStays _ hThere)
  · unfold catalogPlace
    rw [Place.parent_child]
    exact hHere.2

/- The directory of the files with trades can be created. -/
theorem exists_opened
    (hGrown : Grown (t.createDirectories base).2 w) :
    ∃ u,
      w.createDirectories (p.directory base) = (true, u)
        ∧ u.locate? (p.directory base) = some (p.directory base).place
        ∧ u.IsDirectory (p.directory base).place
        ∧ Grown w u := by
  rcases exists_created hServed hFits with
    ⟨tb, tk, tp, hBase, -, hNames, -, -, hPath⟩
  have hSince : Since base t w := Or.inr hGrown
  rw [hBase] at hGrown
  rcases
    hSince.exists_created hServed.names_plain hPath hBase hNames with
    ⟨u, hDone, -, -, hMore⟩
  have hHere := locate?_of_created hDone fun _ h => h
  exact ⟨u, hDone, hHere.1, hHere.2, hMore hGrown⟩

end Rooms

end Partition

end TradeTape
