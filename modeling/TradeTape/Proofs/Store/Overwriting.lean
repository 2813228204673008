import Mathlib.Data.List.Infix
import TradeTape.Proofs.Store.FileTree
import TradeTape.Store.Fault

/-
  Files that are written bit by bit and given up.

  While a file is written it holds one content after another,
  and whatever it holds, removing it leaves the tree as if it
  had never been opened.  The way to an entry leads through
  directories, all of which are there.

  Key definitions include:
    * `Writing`
    * `FileTree.rewrite`
    * `FileTree.Reached`

  Key statements include:
    * `FileTree.rewrite_set`
    * `FileTree.removeFile_set`
    * `FileTree.reached_of_foldlM`
-/

namespace TradeTape

/-
  How the writing of a file goes: what the file holds
  meanwhile, and the fault that ends the writing before its
  time, if there is one.
-/
structure Writing where
  meanwhile : List Content
  fault? : Option StoreFault
deriving DecidableEq, Repr

namespace Writing

/- What a step comes to unless a fault ends the writing before. -/
def cut
    {α : Type}
    (w : Writing)
    (result : Except StoreFault α) : Except StoreFault α :=
  match w.fault? with
  | some f => .error f
  | none => result

theorem cut_of_whole
    {α : Type}
    {w : Writing}
    (hFault : w.fault? = none)
    {result : Except StoreFault α} :
    w.cut result = result := by
  unfold cut
  rw [hFault]

end Writing

namespace FileTree

variable {t : FileTree}
variable {p : Place}
variable {path : Path}

------------------------------------------------------------
-- Writing over and removing
------------------------------------------------------------

/- The tree in which a file held some contents in turn. -/
def rewrite
    (t : FileTree)
    (path : Path)
    (contents : List Content) : FileTree :=
  contents.foldl (fun t c => (t.writeFile? path c).getD t) t

theorem erase_set
    (t : FileTree)
    (p : Place)
    (e : Entry) :
    (t.set p e).erase p = t.erase p := by
  simp [set, erase, List.filter_append, List.filter_filter]

theorem set_set
    (t : FileTree)
    (p : Place)
    (e e' : Entry) :
    (t.set p e).set p e' = t.set p e' := by
  have hErased := erase_set t p e
  unfold set at hErased ⊢
  rw [hErased]

theorem content?_set
    (hFile : ¬t.IsDirectory p)
    (c : Content) :
    (t.set p (.file c)).content? p = some c := by
  apply content?_eq_some_iff.mpr
  rw [entry?_set (ne_root_of_not_isDirectory hFile), if_pos rfl]

/- Where nothing stands, nothing is taken away. -/
theorem erase_eq_self
    (hNone : t.entry? p = none) :
    t.erase p = t := by
  have hPlace : p ≠ Place.root := by
    rintro rfl
    rw [entry?_root] at hNone
    cases hNone
  unfold entry? at hNone
  rw [if_neg hPlace, Option.map_eq_none_iff, List.find?_eq_none] at hNone
  unfold erase
  rw [List.filter_eq_self.mpr]
  intro e hMem
  simpa using hNone e hMem

section Opened

variable (hLocate : t.locate? path = some p) (hRoom : t.HasRoom p)

include hLocate hRoom

theorem writeFile?_of_room
    (c : Content) :
    t.writeFile? path c = some (t.set p (.file c)) :=
  writeFile?_eq_some_iff.mpr ⟨p, hLocate, hRoom, rfl⟩

/- A file that was opened is written over in its place. -/
theorem writeFile?_set
    (c c' : Content) :
    (t.set p (.file c)).writeFile? path c' = some (t.set p (.file c')) := by
  have hSame := isDirectory_set_file_iff hRoom.1 c
  apply writeFile?_eq_some_iff.mpr
  refine ⟨p, ?_, ?_, ?_⟩
  · rwa [locate?_congr hSame]
  · rwa [hasRoom_congr hSame]
  · rw [set_set]

/- Whatever it held in turn, there is one file in one place. -/
theorem rewrite_set
    (contents : List Content)
    (c : Content) :
    ∃ c', (t.set p (.file c)).rewrite path contents
      = t.set p (.file c') := by
  induction contents generalizing c with
  | nil => exact ⟨c, rfl⟩
  | cons next contents ih =>
      unfold rewrite
      rw [List.foldl_cons, writeFile?_set hLocate hRoom, Option.getD_some]
      exact ih next

/- What is written last is what the file holds. -/
theorem rewrite_set_last
    (c c' : Content) :
    (t.set p (.file c)).rewrite path [c'] = t.set p (.file c') := by
  simp [rewrite, writeFile?_set hLocate hRoom]

/- Removing a file undoes all writing of it. -/
theorem removeFile_set
    (c : Content) :
    (t.set p (.file c)).removeFile path = t.erase p := by
  have hSame := isDirectory_set_file_iff hRoom.1 c
  have hContent := content?_set hRoom.1 c
  unfold removeFile
  rw [locate?_congr hSame, hLocate]
  simp [hContent, erase_set]

end Opened

/- Nothing is removed where nothing stands. -/
theorem removeFile_eq_self
    (hNone : t.entryAt? path = none) :
    t.removeFile path = t := by
  unfold removeFile
  cases hLocate : t.locate? path with
  | none => rfl
  | some p =>
      have hEntry : t.entry? p = none := by
        rwa [entryAt?, hLocate, Option.bind_some] at hNone
      have hContent : t.content? p = none := by
        unfold content?
        rw [hEntry]
      simp [hContent]

------------------------------------------------------------
-- Ways
------------------------------------------------------------

/- A place with all directories down to it. -/
def Reached
    (t : FileTree)
    (here : Place) : Prop :=
  ∀ names, names <+: here.names → t.IsDirectory (.ofNames names)

namespace Reached

variable {here : Place}

theorem root (t : FileTree) : t.Reached Place.root := by
  intro names hNames
  have hNone : names = [] := List.prefix_nil.mp hNames
  rw [hNone]
  exact entry?_root t

theorem parent
    (h : t.Reached here) :
    t.IsDirectory here.parent := by
  have hPlace : Place.ofNames here.parent.names = here.parent :=
    Place.ext_names rfl
  rw [← hPlace]
  exact h _ (List.dropLast_prefix here.names)

/- A step goes up, stays, or enters a directory. -/
theorem step
    (h : t.Reached here)
    {part : List Char}
    (hThere : t.IsDirectory (FileTree.step here part)) :
    t.Reached (FileTree.step here part) := by
  unfold FileTree.step at hThere ⊢
  split
  · exact h
  · split
    · intro names hNames
      exact h names (hNames.trans (List.dropLast_prefix here.names))
    · rename_i hStays hUp
      rw [if_neg hStays, if_neg hUp] at hThere
      intro names hNames
      rcases List.prefix_concat_iff.mp hNames with hWhole | hAbove
      · have hPlace :
            Place.ofNames names = here.child (String.ofList part) :=
          Place.ext_names hWhole
        rwa [hPlace]
      · exact h names hAbove

end Reached

theorem reached_of_foldlM
    {parts : List (List Char)}
    {here there : Place}
    (h : t.Reached here)
    (hWay : parts.foldlM t.enter? here = some there) :
    t.Reached there := by
  induction parts generalizing here with
  | nil =>
      cases hWay
      exact h
  | cons part parts ih =>
      rw [List.foldlM_cons] at hWay
      rcases Option.bind_eq_some_iff.mp hWay with ⟨next, hEnter, hRest⟩
      unfold enter? at hEnter
      by_cases hThere : t.IsDirectory (step here part)
      · rw [if_pos hThere] at hEnter
        cases hEnter
        exact ih (h.step hThere) hRest
      · rw [if_neg hThere] at hEnter
        cases hEnter

end FileTree

end TradeTape
