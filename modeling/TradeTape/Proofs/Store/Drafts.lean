import TradeTape.Proofs.Store.Overwriting
import TradeTape.Proofs.Store.TradeFile

/-
  What a write leaves in a tree of files.

  A file with trades is written as a draft beside its place and
  then moved.  When the writing ends before its time, nothing
  has changed; when it comes to its end and the file is moved,
  only that file is new.  Moving fails where a directory stands
  at the place of the file, and there alone the draft is left.

  Key definitions include:
    * `FileTree.CanHold`
    * `TradeFile.writeThrough`
    * `TradeFile.Aftermath`

  Key statements include:
    * `TradeFile.exists_target`
    * `TradeFile.writeThrough_ends`
    * `TradeFile.write_leaves`
-/

namespace TradeTape

namespace FileTree

------------------------------------------------------------
-- Paths with a suffix
------------------------------------------------------------

/- Whether a file can be written at a path. -/
def CanHold
    (t : FileTree)
    (path : Path) : Prop :=
  ∃ p, t.locate? path = some p ∧ t.HasRoom p

theorem writeFile?_eq_none_iff
    {t : FileTree}
    {path : Path}
    {c : Content} :
    t.writeFile? path c = none ↔ ¬t.CanHold path := by
  rw [← Option.not_isSome_iff_eq_none, Option.isSome_iff_exists]
  simp [writeFile?_eq_some_iff, CanHold]

/- A suffix without separators belongs to the last part. -/
theorem splitAtChar_append_suffix
    {separator : Char}
    {suffix : List Char}
    (hWhole : separator ∉ suffix)
    (cs : List Char) :
    ∃ above last,
      Form.splitAtChar separator cs = above ++ [last]
        ∧ Form.splitAtChar separator (cs ++ suffix)
          = above ++ [last ++ suffix] := by
  induction cs with
  | nil =>
      refine ⟨[], [], rfl, ?_⟩
      simpa using splitAtChar_of_notMem hWhole
  | cons c cs ih =>
      rcases ih with ⟨above, last, hParts, hSuffixed⟩
      by_cases hSeparator : c = separator
      · refine ⟨[] :: above, last, ?_, ?_⟩
        · simp [Form.splitAtChar, hSeparator, hParts]
        · simp [Form.splitAtChar, hSeparator, hSuffixed]
      · -- Another character joins the first part, be it the last or not.
        cases above with
        | nil =>
            refine ⟨[], c :: last, ?_, ?_⟩
            · simp [Form.splitAtChar, hSeparator, hParts]
            · simp [Form.splitAtChar, hSeparator, hSuffixed]
        | cons first above =>
            refine ⟨(c :: first) :: above, last, ?_, ?_⟩
            · simp [Form.splitAtChar, hSeparator, hParts]
            · simp [Form.splitAtChar, hSeparator, hSuffixed]

end FileTree

theorem Path.acceptable_of_withSuffix
    {p : Path}
    {suffix : String}
    (hPath : (p.withSuffix suffix).Acceptable) :
    p.Acceptable := by
  unfold Acceptable withSuffix at *
  rw [String.utf8ByteSize_append, String.toList_append] at hPath
  exact
    ⟨Nat.le_trans (Nat.le_add_right _ _) hPath.1,
      fun hMem => hPath.2 (List.mem_append_left _ hMem)⟩

theorem Name.acceptable_of_append
    {name suffix : List Char}
    (hName : Name.Acceptable (String.ofList (name ++ suffix))) :
    Name.Acceptable (String.ofList name) := by
  unfold Acceptable at *
  rw [String.ofList_append, String.utf8ByteSize_append,
    String.toList_append] at hName
  exact
    ⟨Nat.le_trans (Nat.le_add_right _ _) hName.1,
      fun hMem => hName.2 (List.mem_append_left _ hMem)⟩

theorem Place.ne_child
    (p : Place)
    (name : String) :
    p ≠ p.child name := by
  intro hSame
  have hNames : p.names = p.names ++ [name] := congrArg names hSame
  simp at hNames

theorem Place.parent_ne_child
    (p : Place)
    (name : String) :
    p.parent ≠ p.child name := by
  intro hSame
  have hNames : p.names.dropLast = p.names ++ [name] :=
    congrArg names hSame
  have hLength := congrArg List.length hNames
  simp at hLength

namespace TradeFile

section Targets

variable {t : FileTree}
variable {p : Path}
variable {d : Place}

/-
  Where a draft has room, its target is another place, which
  has room for a file unless a directory stands there.  A path
  that ends in dots or a slash leads to a directory.
-/
theorem exists_target
    (hLocate : t.locate? (p.withSuffix draftSuffix) = some d)
    (hRoom : t.HasRoom d) :
    ∃ q, t.locate? p = some q ∧ q ≠ d
      ∧ (t.HasRoom q ↔ ¬t.IsDirectory q) := by
  have hPath : (p.withSuffix draftSuffix).Acceptable := by
    unfold FileTree.locate? at hLocate
    split at hLocate
    · assumption
    · cases hLocate
  rcases
    FileTree.splitAtChar_append_suffix
      (show '/' ∉ draftSuffix.toList by decide) p.text.toList with
    ⟨above, last, hParts, hSuffixed⟩
  have hDraftParts :
      (p.withSuffix draftSuffix).parts
        = above ++ [last ++ draftSuffix.toList] := by
    unfold Path.parts Path.withSuffix
    rw [String.toList_append, hSuffixed]
  unfold FileTree.locate? at hLocate
  rw [if_pos hPath, hDraftParts, List.dropLast_concat,
    List.getLastD_concat] at hLocate
  rcases Option.map_eq_some_iff.mp hLocate with ⟨here, hWay, hStep⟩
  -- The last part of the draft is a name, whatever the target is.
  have hNamed :
      d = here.child (String.ofList (last ++ draftSuffix.toList)) := by
    rw [← hStep]
    unfold FileTree.step
    have hLong : 4 ≤ (last ++ draftSuffix.toList).length := by
      rw [List.length_append]
      exact Nat.le_add_left _ _
    rw [if_neg, if_neg]
    · intro hSame
      simp [hSame] at hLong
    · rintro (hSame | hSame) <;> simp [hSame] at hLong
  have hHere : t.IsDirectory here := by
    have hParent := hRoom.2.1
    rwa [hNamed, Place.parent_child] at hParent
  have hTarget : t.locate? p = some (FileTree.step here last) := by
    unfold FileTree.locate?
    rw [if_pos (Path.acceptable_of_withSuffix hPath)]
    unfold Path.parts
    rw [hParts, List.dropLast_concat, List.getLastD_concat, hWay]
    rfl
  have hDirectory {q : Place} (hThere : t.IsDirectory q) :
      t.HasRoom q ↔ ¬t.IsDirectory q :=
    ⟨fun hFree => hFree.1, fun hOther => absurd hThere hOther⟩
  refine ⟨_, hTarget, ?_⟩
  rw [hNamed]
  unfold FileTree.step
  split
  · exact ⟨here.ne_child _, hDirectory hHere⟩
  · split
    · have hReached :=
        FileTree.reached_of_foldlM (FileTree.Reached.root t) hWay
      exact ⟨here.parent_ne_child _, hDirectory hReached.parent⟩
    · constructor
      · intro hSame
        have hNames := Place.child_injective hSame
        have hLists := String.ofList_injective hNames
        have hLength := congrArg List.length hLists
        simp [draftSuffix] at hLength
      · have hName := hRoom.2.2
        rw [hNamed, Place.name?_child] at hName
        constructor
        · exact fun hFree => hFree.1
        · intro hFile
          refine ⟨hFile, ?_, ?_⟩
          · rwa [Place.parent_child]
          · rw [Place.name?_child]
            simp only [Option.any_some, decide_eq_true_eq] at hName ⊢
            exact Name.acceptable_of_append hName

end Targets

------------------------------------------------------------
-- Writing bit by bit
------------------------------------------------------------

/-
  Writes a file with trades bit by bit.  The draft is opened
  and then holds what it holds meanwhile; it is removed when a
  fault ends the writing, and otherwise moved as a whole.
-/
def writeThrough
    (w : Writing)
    (p : Path)
    (ts : List Trade)
    (t : FileTree) : Except StoreFault Unit × FileTree :=
  let draft := p.withSuffix draftSuffix
  match t.writeFile? draft (.text "") with
  | none => (.error (.create draft), t.removeFile draft)
  | some opened =>
      let partly := opened.rewrite draft w.meanwhile
      match w.fault? with
      | some f => (.error f, partly.removeFile draft)
      | none =>
          let written := partly.rewrite draft [.text (text ts)]
          match written.rename? draft p with
          | none => (.error (.move draft p), written)
          | some moved => (.ok (), moved)

/-
  How writing ends: the draft is not opened, or not finished,
  or finished and moved to a place without a directory, or
  left where it is.
-/
inductive Ends
    (w : Writing)
    (p : Path)
    (ts : List Trade)
    (t : FileTree) : Except StoreFault Unit → FileTree → Prop where
  | unopened
      (hDraft : ¬t.CanHold (p.withSuffix draftSuffix)) :
      Ends w p ts t (.error (.create (p.withSuffix draftSuffix))) t
  | unfinished
      {f : StoreFault}
      (hDraft : t.CanHold (p.withSuffix draftSuffix))
      (hFault : w.fault? = some f) :
      Ends w p ts t (.error f) t
  | stuck
      {d q : Place}
      (hDraft : t.locate? (p.withSuffix draftSuffix) = some d)
      (hRoom : t.HasRoom d)
      (hFault : w.fault? = none)
      (hTarget : t.locate? p = some q)
      (hOther : q ≠ d)
      (hDirectory : t.IsDirectory q) :
      Ends w p ts t (.error (.move (p.withSuffix draftSuffix) p))
        (t.set d (.file (.text (text ts))))
  | done
      {d q : Place}
      (hDraft : t.locate? (p.withSuffix draftSuffix) = some d)
      (hRoom : t.HasRoom d)
      (hFault : w.fault? = none)
      (hTarget : t.locate? p = some q)
      (hOther : q ≠ d)
      (hFile : ¬t.IsDirectory q) :
      Ends w p ts t (.ok ()) (t.set q (.file (.text (text ts))))

section Through

variable {w : Writing}
variable {p : Path}
variable {ts : List Trade}
variable {t : FileTree}
variable {d q : Place}

/- What is written in the end does not depend on the way there. -/
theorem writeThrough_eq_write
    (hFault : w.fault? = none) :
    writeThrough w p ts t = write p ts t := by
  unfold writeThrough write
  by_cases hHold : t.CanHold (p.withSuffix draftSuffix)
  · rcases hHold with ⟨d, hLocate, hRoom⟩
    have hWritten := FileTree.writeFile?_of_room hLocate hRoom
    have hWhole := FileTree.rewrite_set_last hLocate hRoom
    rcases
      FileTree.rewrite_set hLocate hRoom w.meanwhile (.text "") with
      ⟨c, hPartly⟩
    cases hMove :
        (t.set d (.file (.text (text ts)))).rename?
          (p.withSuffix draftSuffix) p <;>
      simp only [hWritten, hPartly, hFault, hWhole, hMove]
  · have hNone (c : Content) :
        t.writeFile? (p.withSuffix draftSuffix) c = none :=
      FileTree.writeFile?_eq_none_iff.mpr hHold
    simp only [hNone]

/- A finished draft is moved unless a directory is in the way. -/
theorem rename?_draft
    (hDraft : t.locate? (p.withSuffix draftSuffix) = some d)
    (hRoom : t.HasRoom d)
    (hTarget : t.locate? p = some q)
    (c : Content) :
    (t.set d (.file c)).rename? (p.withSuffix draftSuffix) p
      = if t.HasRoom q then some ((t.erase d).set q (.file c))
        else none := by
  have hSame := FileTree.isDirectory_set_file_iff hRoom.1 c
  have hContent := FileTree.content?_set hRoom.1 c
  unfold FileTree.rename?
  simp [FileTree.locate?_congr hSame, hDraft, hTarget, hContent,
    FileTree.hasRoom_congr hSame, FileTree.erase_set]

section Free

variable (hFree : t.entryAt? (p.withSuffix draftSuffix) = none)

include hFree

/- A draft that cannot be opened is nowhere. -/
theorem writeThrough_of_unopened
    (hHold : ¬t.CanHold (p.withSuffix draftSuffix)) :
    writeThrough w p ts t
      = (.error (.create (p.withSuffix draftSuffix)), t) := by
  unfold writeThrough
  simp only [FileTree.writeFile?_eq_none_iff.mpr hHold,
    FileTree.removeFile_eq_self hFree]

theorem erase_draft
    (hDraft : t.locate? (p.withSuffix draftSuffix) = some d) :
    t.erase d = t := by
  apply FileTree.erase_eq_self
  rwa [FileTree.entryAt?, hDraft, Option.bind_some] at hFree

/- Whatever a draft holds, it is removed with the fault. -/
theorem writeThrough_of_fault
    (hDraft : t.locate? (p.withSuffix draftSuffix) = some d)
    (hRoom : t.HasRoom d)
    {f : StoreFault}
    (hFault : w.fault? = some f) :
    writeThrough w p ts t = (.error f, t) := by
  have hOpened := FileTree.writeFile?_of_room hDraft hRoom (.text "")
  rcases FileTree.rewrite_set hDraft hRoom w.meanwhile (.text "") with
    ⟨c, hPartly⟩
  unfold writeThrough
  simp only [hOpened, hPartly, hFault,
    FileTree.removeFile_set hDraft hRoom, erase_draft hFree hDraft]

/- Where there is no draft before, writing ends in one of four ways. -/
theorem writeThrough_ends :
    Ends w p ts t (writeThrough w p ts t).1 (writeThrough w p ts t).2 := by
  by_cases hHold : t.CanHold (p.withSuffix draftSuffix)
  · rcases hHold with ⟨d, hDraft, hRoom⟩
    cases hFault : w.fault? with
    | some f =>
        rw [writeThrough_of_fault hFree hDraft hRoom hFault]
        exact .unfinished ⟨d, hDraft, hRoom⟩ hFault
    | none =>
        rcases exists_target hDraft hRoom with
          ⟨q, hTarget, hOther, hFits⟩
        have hWritten :=
          FileTree.writeFile?_of_room hDraft hRoom (.text (text ts))
        have hMove := rename?_draft hDraft hRoom hTarget (.text (text ts))
        rw [erase_draft hFree hDraft] at hMove
        rw [writeThrough_eq_write hFault]
        unfold write
        simp only [hWritten, hMove]
        by_cases hDirectory : t.IsDirectory q
        · rw [if_neg fun hFile => hFits.mp hFile hDirectory]
          exact .stuck hDraft hRoom hFault hTarget hOther hDirectory
        · rw [if_pos (hFits.mpr hDirectory)]
          exact .done hDraft hRoom hFault hTarget hOther hDirectory
  · rw [writeThrough_of_unopened hFree hHold]
    exact .unopened hHold

end Free

end Through

------------------------------------------------------------
-- What is left
------------------------------------------------------------

/-
  What writing leaves.  It is done just when the draft is
  written to its end and no directory is where the file shall
  be; then that file has the header and one record per trade,
  and is all that is new.  When it fails nothing has changed,
  but for a finished draft that a directory keeps from its
  place.
-/
structure Aftermath
    (w : Writing)
    (p : Path)
    (ts : List Trade)
    (t : FileTree)
    (answer : Except StoreFault Unit)
    (u : FileTree) : Prop where
  done_iff :
    answer = .ok ()
      ↔ t.CanHold (p.withSuffix draftSuffix) ∧ w.fault? = none
        ∧ t.entryAt? p ≠ some .directory
  done :
    answer = .ok () →
      ∃ q, t.locate? p = some q ∧ u.locate? p = some q
        ∧ u.entry? q = some (.file (.text (text ts)))
        ∧ Csv.parse (text ts).toList = header :: ts.map record
        ∧ u.entryAt? (p.withSuffix draftSuffix) = none
        ∧ ∀ r ≠ q, u.entry? r = t.entry? r
  undone :
    ∀ f, answer = .error f →
      ¬(t.CanHold (p.withSuffix draftSuffix) ∧ w.fault? = none
          ∧ t.entryAt? p = some .directory) →
        u = t ∧ u.entryAt? (p.withSuffix draftSuffix) = none
  stuck :
    t.CanHold (p.withSuffix draftSuffix) →
    w.fault? = none →
    t.entryAt? p = some .directory →
      answer = .error (.move (p.withSuffix draftSuffix) p)
        ∧ ∃ d, t.locate? (p.withSuffix draftSuffix) = some d
            ∧ u.entryAt? (p.withSuffix draftSuffix)
              = some (.file (.text (text ts)))
            ∧ ∀ r ≠ d, u.entry? r = t.entry? r

namespace Ends

variable {w : Writing}
variable {p : Path}
variable {ts : List Trade}
variable {t u : FileTree}
variable {answer : Except StoreFault Unit}

/- A write that came to no end has the draft nowhere. -/
theorem aftermath_of_same
    (hFree : t.entryAt? (p.withSuffix draftSuffix) = none)
    (hShort : ¬(t.CanHold (p.withSuffix draftSuffix) ∧ w.fault? = none))
    (f : StoreFault) :
    Aftermath w p ts t (.error f) t :=
  { done_iff := ⟨by simp, fun h => absurd ⟨h.1, h.2.1⟩ hShort⟩
    done := by simp
    undone := fun _ _ _ => ⟨rfl, hFree⟩
    stuck := fun hHold hWhole _ => absurd ⟨hHold, hWhole⟩ hShort }

theorem aftermath
    (hFree : t.entryAt? (p.withSuffix draftSuffix) = none)
    (hEnds : Ends w p ts t answer u) :
    Aftermath w p ts t answer u := by
  cases hEnds with
  | unopened hDraft =>
      exact aftermath_of_same hFree (fun h => hDraft h.1) _
  | unfinished hDraft hFault =>
      refine aftermath_of_same hFree ?_ _
      rintro ⟨-, hNone⟩
      rw [hFault] at hNone
      cases hNone
  | @stuck d q hDraft hRoom hFault hTarget hOther hDirectory =>
      have hSame :=
        FileTree.isDirectory_set_file_iff hRoom.1 (.text (text ts))
      have hPlace := FileTree.ne_root_of_not_isDirectory hRoom.1
      have hThere : t.entryAt? p = some .directory := by
        rw [FileTree.entryAt?, hTarget]
        exact hDirectory
      refine
        { done_iff := ⟨by simp, fun h => absurd hThere h.2.2⟩
          done := by simp
          undone := fun f _ hNot =>
            absurd ⟨⟨d, hDraft, hRoom⟩, hFault, hThere⟩ hNot
          stuck := fun _ _ _ => ⟨rfl, d, hDraft, ?_, ?_⟩ }
      · rw [FileTree.entryAt?, FileTree.locate?_congr hSame, hDraft,
          Option.bind_some, FileTree.entry?_set hPlace, if_pos rfl]
      · intro r hElsewhere
        rw [FileTree.entry?_set hPlace, if_neg hElsewhere]
  | @done d q hDraft hRoom hFault hTarget hOther hFile =>
      have hSame :=
        FileTree.isDirectory_set_file_iff hFile (.text (text ts))
      have hPlace := FileTree.ne_root_of_not_isDirectory hFile
      have hAbsent : t.entryAt? p ≠ some .directory := by
        rw [FileTree.entryAt?, hTarget]
        exact hFile
      refine
        { done_iff :=
            ⟨fun _ => ⟨⟨d, hDraft, hRoom⟩, hFault, hAbsent⟩,
              fun _ => rfl⟩
          done := fun _ =>
            ⟨q, hTarget, ?_, ?_, parse_text ts, ?_, ?_⟩
          undone := by simp
          stuck := fun _ _ hThere => absurd hThere hAbsent }
      · rw [FileTree.locate?_congr hSame, hTarget]
      · rw [FileTree.entry?_set hPlace, if_pos rfl]
      · rw [FileTree.entryAt?, hDraft, Option.bind_some] at hFree
        rw [FileTree.entryAt?, FileTree.locate?_congr hSame, hDraft,
          Option.bind_some, FileTree.entry?_set hPlace,
          if_neg (Ne.symm hOther)]
        exact hFree
      · intro r hElsewhere
        rw [FileTree.entry?_set hPlace, if_neg hElsewhere]

end Ends

/-
  Where there is no draft before, a write that is cut off at
  any moment, or not at all, leaves what it has to leave.
-/
theorem write_leaves
    {p : Path}
    {t : FileTree}
    (hFree : t.entryAt? (p.withSuffix draftSuffix) = none)
    (ts : List Trade)
    (w : Writing) :
    (w.fault? = none → writeThrough w p ts t = write p ts t)
      ∧ Aftermath w p ts t (writeThrough w p ts t).1
          (writeThrough w p ts t).2 :=
  ⟨writeThrough_eq_write, (writeThrough_ends hFree).aftermath hFree⟩

/- A directory with a file of trades and another directory. -/
def occupiedTree : FileTree :=
  { entries :=
      [(.ofNames ["D"], .directory),
        (.ofNames ["D", "a.csv"], .file (.text "old")),
        (.ofNames ["D", "b.csv"], .directory)] }

/-
  The file is replaced, and left alone when the writing of a
  new one is cut off.
-/
theorem write_leaves_of_occupied :
    (write ⟨"D/a.csv"⟩ [] occupiedTree).1 = .ok ()
      ∧ Aftermath ⟨[], none⟩ ⟨"D/a.csv"⟩ [] occupiedTree
          (write ⟨"D/a.csv"⟩ [] occupiedTree).1
          (write ⟨"D/a.csv"⟩ [] occupiedTree).2
      ∧ writeThrough
            ⟨[.text "trade"], some (.create ⟨"D/a.csv.tmp"⟩)⟩
            ⟨"D/a.csv"⟩ [] occupiedTree
          = (.error (.create ⟨"D/a.csv.tmp"⟩), occupiedTree) := by
  have hFree :
      occupiedTree.entryAt? (Path.withSuffix ⟨"D/a.csv"⟩ draftSuffix)
        = none := by
    decide +kernel
  have hWhole := write_leaves hFree [] ⟨[], none⟩
  have hEnded := write_leaves hFree []
    ⟨[.text "trade"], some (.create ⟨"D/a.csv.tmp"⟩)⟩
  refine ⟨by decide +kernel, ?_, ?_⟩
  · rw [← hWhole.1 rfl]
    exact hWhole.2
  · have hAnswer :
        (writeThrough
          ⟨[.text "trade"], some (.create ⟨"D/a.csv.tmp"⟩)⟩
          ⟨"D/a.csv"⟩ [] occupiedTree).1
          = .error (.create ⟨"D/a.csv.tmp"⟩) := by
      decide +kernel
    exact
      Prod.ext hAnswer (hEnded.2.undone _ hAnswer (by simp)).1

/-
  A draft stays behind: where a directory has the name of the
  file, the write fails and there is an entry more than before.
-/
theorem exists_draft_left :
    ∃ (p : Path) (t : FileTree) (f : StoreFault),
      t.entryAt? (p.withSuffix draftSuffix) = none
        ∧ t.entryAt? p = some .directory
        ∧ (write p [] t).1 = .error f
        ∧ (write p [] t).2.entryAt? (p.withSuffix draftSuffix)
          = some (.file (.text (text []))) := by
  refine
    ⟨⟨"D/b.csv"⟩, occupiedTree,
      .move ⟨"D/b.csv.tmp"⟩ ⟨"D/b.csv"⟩, ?_⟩
  decide +kernel

end TradeFile

end TradeTape
