import TradeTape.Proofs.Run.Consistency
import TradeTape.Proofs.Run.CutOff
import TradeTape.Proofs.Run.Parting

/-
  What it comes to when a run is canceled.

  From then on no call is made, and no look-up and no walk is
  waited for.  Whatever has ended before stays as it would be
  without the cancellation.

  Key statements include:
    * `Deed.CutShort`
    * `Prospect.RunOk.roused_advance`
    * `Run.Parts`
    * `Run.exists_parts`
    * `Interrupted`
    * `Story.Gives`
    * `Run.toEnd_canceled`
-/

namespace TradeTape

------------------------------------------------------------
-- Deeds of a canceled run
------------------------------------------------------------

/- Nothing was found, and nothing brought home. -/
def Deed.CutShort : Deed → Prop
  | .found latest => latest = .error Fault.runCanceled
  | .walked _ r => r = .error Fault.runCanceled
  | .offered _ _ | .closed _ => True

namespace Run

variable {σ κ : Type} {o : Office σ κ}

/- What a job that is canceled comes to at its desk. -/
theorem cutShort_findDeeds
    (o : Office σ κ)
    (r : Run σ κ)
    (j : Job Errand Find) :
    ∀ deed ∈ findDeeds o r j (findOf j .canceled),
      deed.CutShort := by
  intro deed hDeed
  unfold findDeeds findOf at hDeed
  cases hTask : j.task with
  | lookup name endMs =>
      rw [hTask] at hDeed
      cases hDesk : r.deskAt? j.group with
      | none =>
          simp only [hDesk, Errand.failed] at hDeed
          exact absurd hDeed List.not_mem_nil
      | some d =>
          simp only [hDesk, Errand.failed] at hDeed
          rw [List.mem_singleton.mp hDeed]
          rfl
  | walk w =>
      rw [hTask] at hDeed
      cases hDesk : r.deskAt? j.group with
      | none =>
          simp only [hDesk, Errand.failed] at hDeed
          exact absurd hDeed List.not_mem_nil
      | some d =>
          -- A walk that failed has nothing to offer.
          simp only [hDesk, Errand.failed] at hDeed
          rcases List.mem_cons.mp hDeed with rfl | hOffer
          · rfl
          · exact absurd hOffer List.not_mem_nil

/- At a desk of a canceled run, nobody makes a call. -/
theorem DeskTold.roused
    {r r' : Run σ κ}
    {d : Desk}
    {news : List Note}
    (h : DeskTold o r d news r')
    (hRoused : r.crew.Roused) :
    r'.crew.Roused
      ∧ r'.crew.world = r.crew.world
      ∧ ∀ n ∈ news, n.deed.CutShort := by
  cases h with
  | plans _ =>
      unfold planDesk
      simp only
      split
      · exact ⟨hRoused, rfl, List.forall_mem_nil _⟩
      · exact ⟨hRoused.hire _ _ _ _, rfl, List.forall_mem_nil _⟩
  | starts w rest _ =>
      exact ⟨hRoused.hire _ _ _ _, rfl, List.forall_mem_nil _⟩
  | closes _ _ _ =>
      refine ⟨hRoused, rfl, ?_⟩
      intro n hn
      rcases List.mem_map.mp hn with ⟨deed, hDeed, rfl⟩
      rcases List.mem_append.mp hDeed with hOffer | hReport
      · rcases List.mem_map.mp hOffer with ⟨_, _, rfl⟩
        trivial
      · rw [List.mem_singleton.mp hReport]
        trivial
  | serves j _ _ _ =>
      have hServe := hRoused.serve_eq (Errand.visit o.venue) j
      have hCrew : (serve o r j).crew = r.crew.dismiss j.number := by
        unfold serve
        rw [hServe]
        exact (takeFind_frame j _).2.1
      rw [hCrew]
      refine
        ⟨hRoused.dismiss j.number, r.crew.world_dismiss j.number, ?_⟩
      intro n hn
      unfold serveDeeds at hn
      rw [hServe] at hn
      rcases List.mem_map.mp hn with ⟨deed, hDeed, rfl⟩
      exact cutShort_findDeeds o r j deed hDeed

end Run

namespace Prospect.RunOk

variable {σ κ : Type} {o : Office σ κ} {cancels : Prop}
variable {p : Prospect o cancels} {instruments : List Instrument}
variable {r r' : Run σ κ} {files : List (File κ)}

/- Time stands still in a canceled run: somebody is awake. -/
theorem roused_step
    (h : p.RunOk instruments r files)
    (hRoused : r.crew.Roused)
    {news : List Note}
    (hStepped : Run.Stepped o r news r') :
    r'.crew.Roused
      ∧ r'.crew.now = r.crew.now
      ∧ r'.crew.world = r.crew.world
      ∧ ∀ n ∈ news, n.deed.CutShort := by
  cases hStepped with
  | opens position i rest _ =>
      exact ⟨hRoused, rfl, rfl, List.forall_mem_nil _⟩
  | works d f news r' _ hWork =>
      rcases hWork.roused hRoused with ⟨hStill, hWorld, hShort⟩
      exact ⟨hStill, hWork.passes.2.1, hWorld, hShort⟩
  | waits t hNobody hNext =>
      have hAsleep := (h.asleep_of_nextDesk? hNobody).1
      have hJobs := (Crew.nextInstant?_eq_some hNext).1
      rcases List.exists_mem_of_ne_nil _ hJobs with ⟨j, hj⟩
      exact absurd (hRoused.awake j hj) (hAsleep j hj)

theorem roused_advance
    (h : p.RunOk instruments r files)
    (hRoused : r.crew.Roused)
    (n : Nat) :
    (Run.advance o n r).crew.now = r.crew.now
      ∧ (Run.advance o n r).crew.world = r.crew.world
      ∧ ∀ note ∈ Run.advanceDeeds o n r, note.deed.CutShort := by
  induction n generalizing r files with
  | zero =>
      exact ⟨rfl, rfl, List.forall_mem_nil _⟩
  | succ n ih =>
      cases hNext : Run.step? o r with
      | none =>
          rcases Run.advance_of_stuck hNext (n + 1) with
            ⟨hRun, hDeeds⟩
          rw [hRun, hDeeds]
          exact ⟨rfl, rfl, List.forall_mem_nil _⟩
      | some r' =>
          rcases Run.advance_succ hNext n with ⟨hRun, hDeeds⟩
          rcases
            h.roused_step hRoused (Run.stepped_of_step? hNext) with
            ⟨hStill, hNow, hWorld, hShort⟩
          rcases Run.move_of_step? hNext with ⟨f, hMove⟩
          rcases (h.withFocus f).move hMove with ⟨files', hOk⟩
          rcases ih hOk hStill with ⟨hNow', hWorld', hShort'⟩
          rw [hRun, hDeeds]
          refine ⟨hNow'.trans hNow, hWorld'.trans hWorld, ?_⟩
          intro note hNote
          rcases List.mem_append.mp hNote with hFirst | hRest
          · exact hShort note hFirst
          · exact hShort' note hRest

end Prospect.RunOk

------------------------------------------------------------
-- Two ends
------------------------------------------------------------

namespace Run

variable {σ κ : Type} {o : Office σ κ}

/-
  What a run comes to that is canceled at an instant, beside
  what it comes to if it is not.  Both have the same early
  notes and calls.  What the first one adds is cut short, and
  what the other one adds does not come before the instant.
-/
structure Parts
    (o : Office σ κ)
    (cut full : Run σ κ)
    (c : Nat)
    (early late more : List Note)
    (calls later : List (Nat × Call)) : Prop where
  cutNotes : journal o cut = early ++ late
  fullNotes : journal o full = early ++ more
  cutCalls : (toEnd o cut).crew.world.calls = calls
  fullCalls : (toEnd o full).crew.world.calls = later ++ calls
  stop : (toEnd o cut).crew.now ≤ c
  early : ∀ n ∈ early, n.instant < c
  late : ∀ n ∈ late, n.instant = c ∧ n.deed.CutShort
  more : ∀ n ∈ more, c ≤ n.instant
  calls : ∀ call ∈ calls, call.1 < c
  later : ∀ call ∈ later, c ≤ call.1

section Ends

variable {r a : Run σ κ} {c n : Nat}

/- What is added to a run from where it is canceled. -/
theorem exists_late
    {cancels : Prop}
    {p : Prospect o cancels}
    {instruments : List Instrument}
    {files : List (File κ)}
    (hStuck : step? o (toEnd o r) = none)
    (hRun : advance o n r = a)
    (hOk : p.RunOk instruments a files)
    (hRoused : a.crew.Roused)
    (hNow : a.crew.now = c) :
    ∃ late,
      journal o r = advanceDeeds o n r ++ late
        ∧ (toEnd o r).crew.world = a.crew.world
        ∧ (toEnd o r).crew.now = c
        ∧ ∀ note ∈ late, note.instant = c ∧ note.deed.CutShort := by
  rcases exists_advance_of_stuck hStuck n with ⟨k, hEnd, hDeeds⟩
  rw [hRun] at hEnd hDeeds
  rcases hOk.roused_advance hRoused k with ⟨hStill, hWorld, hShort⟩
  have hPasses := passes_advance o k a
  rw [hNow] at hStill
  refine ⟨_, hDeeds, ?_, ?_, ?_⟩
  · rw [hEnd]
    exact hWorld
  · rw [hEnd]
    exact hStill
  · intro note hNote
    have hBounds := hPasses.notes note hNote
    rw [hNow, hStill] at hBounds
    exact ⟨Nat.le_antisymm hBounds.2 hBounds.1, hShort note hNote⟩

/- What is added to a run from an instant on. -/
theorem exists_more
    (hStuck : step? o (toEnd o r) = none)
    (hRun : advance o n r = a)
    (hNow : c ≤ a.crew.now) :
    ∃ more later,
      journal o r = advanceDeeds o n r ++ more
        ∧ (toEnd o r).crew.world.calls
          = later ++ a.crew.world.calls
        ∧ (∀ note ∈ more, c ≤ note.instant)
        ∧ ∀ call ∈ later, c ≤ call.1 := by
  rcases exists_advance_of_stuck hStuck n with ⟨k, hEnd, hDeeds⟩
  rw [hRun] at hEnd hDeeds
  have hPasses := passes_advance o k a
  rcases hPasses.calls with ⟨later, hLater, hBounds⟩
  refine ⟨_, later, hDeeds, ?_, ?_, ?_⟩
  · rw [hEnd]
    exact hLater
  · intro note hNote
    exact hNow.trans (hPasses.notes note hNote).1
  · intro call hCall
    exact hNow.trans (hBounds call hCall).1

/- Nothing is added to a run that cannot go on. -/
theorem toEnd_of_stuck
    (hStuck : step? o (toEnd o r) = none)
    (hRun : advance o n r = a)
    (hHere : step? o a = none) :
    toEnd o r = a ∧ journal o r = advanceDeeds o n r := by
  rcases exists_advance_of_stuck hStuck n with ⟨k, hEnd, hDeeds⟩
  rw [hRun] at hEnd hDeeds
  rcases advance_of_stuck hHere k with ⟨hStays, hSilent⟩
  rw [hStays] at hEnd
  rw [hSilent, List.append_nil] at hDeeds
  exact ⟨hEnd, hDeeds⟩

/- What comes to pass before an instant is of earlier ones. -/
theorem early_of_advance
    (hRun : advance o n r = a)
    (hFirst : r.crew.world.calls = [])
    (hNow : a.crew.now < c) :
    (∀ note ∈ advanceDeeds o n r, note.instant < c)
      ∧ ∀ call ∈ a.crew.world.calls, call.1 < c := by
  have hPasses := passes_advance o n r
  rw [hRun] at hPasses
  constructor
  · intro note hNote
    exact Nat.lt_of_le_of_lt (hPasses.notes note hNote).2 hNow
  · intro call hCall
    rcases hPasses.calls with ⟨more, hMore, hBounds⟩
    rw [hMore, hFirst, List.append_nil] at hCall
    exact Nat.lt_of_le_of_lt (hBounds call hCall).2 hNow

/- Runs that come to their end before one is canceled. -/
theorem parts_of_stuck
    (hCut : step? o (toEnd o r) = none)
    (hFull : step? o (toEnd o r.uncanceled) = none)
    (hRun : advance o n r = a)
    (hRun' : advance o n r.uncanceled = a.uncanceled)
    (hDeeds : advanceDeeds o n r.uncanceled = advanceDeeds o n r)
    (hFirst : r.crew.world.calls = [])
    (hNow : a.crew.now < c)
    (hHere : step? o a = none)
    (hHere' : step? o a.uncanceled = none) :
    Parts o r r.uncanceled c (advanceDeeds o n r) [] []
      a.crew.world.calls [] := by
  rcases early_of_advance hRun hFirst hNow with ⟨hNotes, hCalls⟩
  rcases toEnd_of_stuck hCut hRun hHere with ⟨hEnd, hJournal⟩
  rcases toEnd_of_stuck hFull hRun' hHere' with ⟨hEnd', hJournal'⟩
  exact
    { cutNotes := by rw [hJournal, List.append_nil]
      fullNotes := by rw [hJournal', hDeeds, List.append_nil]
      cutCalls := by rw [hEnd]
      fullCalls := by
        rw [hEnd']
        rfl
      stop := by
        rw [hEnd]
        exact Nat.le_of_lt hNow
      early := hNotes
      late := List.forall_mem_nil _
      more := List.forall_mem_nil _
      calls := hCalls
      later := List.forall_mem_nil _ }

/- Runs that part when one of them is canceled. -/
theorem exists_parts_of_apart
    {cancels : Prop}
    {p : Prospect o cancels}
    {instruments : List Instrument}
    (hCut : step? o (toEnd o r) = none)
    (hFull : step? o (toEnd o r.uncanceled) = none)
    (hRun : advance o n r = a)
    (hRun' : advance o n r.uncanceled = a.uncanceled)
    (hDeeds : advanceDeeds o n r.uncanceled = advanceDeeds o n r)
    (hFirst : r.crew.world.calls = [])
    (hOk : ∃ files, p.RunOk instruments (advance o (n + 1) r) files)
    (hCancel : a.crew.cancelAt = some c)
    (hNot : ¬a.crew.Canceled)
    (hApart :
      Apart a c (step? o a) (step? o a.uncanceled) (stepDeeds o a)
        (stepDeeds o a.uncanceled)) :
    ∃ late more later,
      Parts o r r.uncanceled c (advanceDeeds o n r) late more
        a.crew.world.calls later := by
  have hNow : a.crew.now < c := by
    unfold Crew.Canceled at hNot
    rw [hCancel] at hNot
    exact Nat.lt_of_not_le hNot
  rcases early_of_advance hRun hFirst hNow with ⟨hNotes, hCalls⟩
  rcases Crew.roused_advanceTo hCancel hNot with ⟨hRoused, hStop⟩
  rcases advance_concat hRun hApart.step with ⟨hNext, hNextDeeds⟩
  rw [hApart.silent, List.append_nil] at hNextDeeds
  rcases hOk with ⟨files, hOk⟩
  rw [hNext] at hOk
  rcases exists_late hCut hNext hOk hRoused hStop with
    ⟨late, hJournal, hWorld, hEnd, hLate⟩
  have hSame : (toEnd o r).crew.world = a.crew.world :=
    hWorld.trans (a.crew.world_advanceTo c)
  -- Without the cancellation the run ends here, or goes on later.
  have hOther :
      ∃ more later,
        journal o r.uncanceled = advanceDeeds o n r ++ more
          ∧ (toEnd o r.uncanceled).crew.world.calls
            = later ++ a.crew.world.calls
          ∧ (∀ note ∈ more, c ≤ note.instant)
          ∧ ∀ call ∈ later, c ≤ call.1 := by
    rw [← hDeeds]
    cases hStep : step? o a.uncanceled with
    | none =>
        rcases toEnd_of_stuck hFull hRun' hStep with
          ⟨hEnd', hJournal'⟩
        refine
          ⟨[], [], ?_, ?_, List.forall_mem_nil _,
            List.forall_mem_nil _⟩
        · rw [hJournal', List.append_nil]
        · rw [hEnd']
          rfl
    | some b =>
        rcases hApart.later b hStep with ⟨hLater, hSameWorld⟩
        rcases advance_concat hRun' hStep with ⟨hNext', hMore⟩
        rw [hApart.silent', List.append_nil] at hMore
        rcases exists_more hFull hNext' hLater with
          ⟨more, later, hJournal', hCalls', hBounds⟩
        rw [hMore] at hJournal'
        rw [hSameWorld] at hCalls'
        exact ⟨more, later, hJournal', hCalls', hBounds⟩
  rcases hOther with ⟨more, later, hMore, hLater, hBounds, hBounds'⟩
  exact
    ⟨late, more, later,
      { cutNotes := by rw [hJournal, hNextDeeds]
        fullNotes := hMore
        cutCalls := by rw [hSame]
        fullCalls := hLater
        stop := Nat.le_of_eq hEnd
        early := hNotes
        late := hLate
        more := hBounds
        calls := hCalls
        later := hBounds' }⟩

end Ends

/- Each run that is canceled parts so from the one that is not. -/
theorem exists_parts
    (hValid : o.settings.Valid)
    (venue : σ)
    (kept : κ)
    (c : Nat)
    (instruments : List Instrument) :
    ∃ early late more calls later,
      Parts o (start o venue kept (some c) instruments)
        (start o venue kept none instruments) c early late more
        calls later := by
  let p := Prospect.anything o
  let r := start o venue kept (some c) instruments
  have hAllowed (cancelAt : Option Nat) : cancelAt ≠ none → True :=
    fun _ => trivial
  have hCut :=
    (p.toEnd_stuck hValid venue kept (hAllowed (some c)) trivial
      instruments).2
  have hFull :=
    (p.toEnd_stuck hValid venue kept (hAllowed none) trivial
      instruments).2
  have hStart :=
    p.underway_start hValid venue kept (hAllowed (some c)) trivial
      instruments
  have hCancel : r.crew.cancelAt = some c := rfl
  by_cases hAtOnce : r.crew.Canceled
  · -- Nobody is in work yet, and the run is canceled at zero.
    have hZero : c ≤ 0 := hAtOnce
    have hRoused : r.crew.Roused := ⟨hAtOnce, List.forall_mem_nil _⟩
    rcases hStart.1 with ⟨files, hOk⟩
    rcases
      exists_late (n := 0) hCut rfl hOk hRoused
        (Nat.le_zero.mp hZero).symm with
      ⟨late, hJournal, hWorld, hEnd, hLate⟩
    rcases exists_more (n := 0) hFull rfl hZero with
      ⟨more, later, hMore, hCalls, hBounds, hBounds'⟩
    exact
      ⟨[], late, more, [], later,
        { cutNotes := hJournal
          fullNotes := hMore
          cutCalls := congrArg World.calls hWorld
          fullCalls := hCalls
          stop := Nat.le_of_eq hEnd
          early := List.forall_mem_nil _
          late := hLate
          more := hBounds
          calls := List.forall_mem_nil _
          later := hBounds' }⟩
  · rcases exists_advance_eq_toEnd o r with ⟨steps, hEnd, _⟩
    rcases exists_parting o steps hCancel hAtOnce with
      ⟨n, hRun, hDeeds, hCancel', hNot, hHow⟩
    have hEither :
        (step? o (advance o n r) = none
            ∧ step? o (advance o n r).uncanceled = none)
          ∨ Apart (advance o n r) c (step? o (advance o n r))
            (step? o (advance o n r).uncanceled)
            (stepDeeds o (advance o n r))
            (stepDeeds o (advance o n r).uncanceled) := by
      rcases hHow with hAll | hEither
      · rcases step_uncanceled o hCancel' hNot with
          hTogether | hApart
        · rw [hAll, ← hEnd] at hTogether ⊢
          have hSame := hTogether.step
          rw [show step? o (toEnd o r) = none from hCut] at hSame
          exact Or.inl ⟨hCut, hSame⟩
        · exact Or.inr hApart
      · exact hEither
    rcases hEither with ⟨hHere, hHere'⟩ | hApart
    · have hNow : (advance o n r).crew.now < c := by
        unfold Crew.Canceled at hNot
        rw [hCancel'] at hNot
        exact Nat.lt_of_not_le hNot
      exact
        ⟨_, _, _, _, _,
          parts_of_stuck hCut hFull rfl hRun hDeeds rfl hNow hHere
            hHere'⟩
    · have hOk :=
        (hStart.advance hValid.limits.2.2 (n + 1)).1.1
      rcases
        exists_parts_of_apart hCut hFull rfl hRun hDeeds rfl hOk
          hCancel' hNot hApart with
        ⟨late, more, later, hParts⟩
      exact ⟨_, late, more, _, later, hParts⟩

end Run

------------------------------------------------------------
-- Early and late notes
------------------------------------------------------------

/- The notes of a journal before an instant. -/
def notesBefore
    (c : Nat)
    (journal : List Note) : List Note :=
  journal.filter fun n => n.instant < c

theorem notesBefore_append
    {c : Nat}
    {early late : List Note}
    (hEarly : ∀ n ∈ early, n.instant < c)
    (hLate : ∀ n ∈ late, c ≤ n.instant) :
    notesBefore c (early ++ late) = early := by
  unfold notesBefore
  rw [List.filter_append,
    List.filter_eq_self.mpr fun n hn => decide_eq_true (hEarly n hn),
    List.filter_eq_nil_iff.mpr, List.append_nil]
  intro n hn hBefore
  exact Nat.not_lt_of_le (hLate n hn) (of_decide_eq_true hBefore)

theorem Run.Parts.notesBefore_eq
    {σ κ : Type}
    {o : Office σ κ}
    {cut full : Run σ κ}
    {c : Nat}
    {early late more : List Note}
    {calls later : List (Nat × Call)}
    (h : Parts o cut full c early late more calls later) :
    notesBefore c (journal o cut) = early
      ∧ notesBefore c (journal o full) = early := by
  rw [h.cutNotes, h.fullNotes]
  exact
    ⟨notesBefore_append h.early fun n hn =>
        Nat.le_of_eq (h.late n hn).1.symm,
      notesBefore_append h.early h.more⟩

namespace Story

/- The story of deeds that were cut short. -/
theorem of_cutShort
    {deeds : List Deed}
    (hShort : ∀ deed ∈ deeds, deed.CutShort) :
    (∀ found ∈ (Story.of deeds).finds,
        found = .error Fault.runCanceled)
      ∧ ∀ walk ∈ (Story.of deeds).walks,
        walk.2 = .error Fault.runCanceled := by
  constructor
  · intro found hFound
    rcases List.mem_filterMap.mp hFound with ⟨deed, hDeed, hIs⟩
    have hThis := hShort deed hDeed
    cases deed with
    | found latest =>
        cases hIs
        exact hThis
    | walked _ _ | offered _ _ | closed _ => cases hIs
  · intro walk hWalk
    rcases List.mem_filterMap.mp hWalk with ⟨deed, hDeed, hIs⟩
    have hThis := hShort deed hDeed
    cases deed with
    | walked w r =>
        cases hIs
        exact hThis
    | found _ | offered _ _ | closed _ => cases hIs

/- Walks that were cut short are gaps, and bring nothing home. -/
theorem gaps_of_cutShort
    {story : Story}
    (hWalks :
      ∀ walk ∈ story.walks, walk.2 = .error Fault.runCanceled)
    (name : String) :
    story.hauls = []
      ∧ story.gaps name =
        story.walks.map fun walk =>
          { instrument := name
            window := walk.1
            fault := Fault.runCanceled } := by
  constructor
  · apply List.filterMap_eq_nil_iff.mpr
    intro walk hWalk
    rw [hWalks walk hWalk]
    rfl
  · unfold gaps
    rw [← List.filterMap_eq_map]
    apply List.filterMap_congr
    intro walk hWalk
    rw [hWalks walk hWalk]
    rfl

/- The story of a position, when what comes late is cut short. -/
theorem of_late
    (early : List Note)
    {late : List Note}
    (hLate : ∀ n ∈ late, n.deed.CutShort)
    (position : Nat) :
    let told := Story.of (deedsAt position early)
    let rest := Story.of (deedsAt position late)
    let story := Story.of (deedsAt position (early ++ late))
    story.finds = told.finds ++ rest.finds
      ∧ (∀ found ∈ rest.finds, found = .error Fault.runCanceled)
      ∧ (∀ walk ∈ rest.walks, walk.2 = .error Fault.runCanceled)
      ∧ story.walks = told.walks ++ rest.walks
      ∧ story.hauls = told.hauls
      ∧ ∀ name,
        story.gaps name =
          told.gaps name
            ++ (rest.walks.map Prod.fst).map fun w =>
              { instrument := name
                window := w
                fault := Fault.runCanceled } := by
  intro told rest story
  have hStory :
      story =
        { finds := told.finds ++ rest.finds
          walks := told.walks ++ rest.walks
          offers := told.offers ++ rest.offers
          reports := told.reports ++ rest.reports } := by
    change Story.of (deedsAt position (early ++ late)) = _
    rw [deedsAt_append, Story.of_append]
  have hShort : ∀ deed ∈ deedsAt position late, deed.CutShort := by
    intro deed hDeed
    rcases List.mem_map.mp hDeed with ⟨n, hn, rfl⟩
    exact hLate n (List.mem_of_mem_filter hn)
  rcases of_cutShort hShort with ⟨hFinds, hWalks⟩
  rw [hStory]
  refine ⟨rfl, hFinds, hWalks, rfl, ?_, ?_⟩
  · have hNone := (gaps_of_cutShort hWalks "").1
    have hAll :
        Story.hauls
            { told with
              walks := told.walks ++ rest.walks }
          = told.hauls ++ rest.hauls :=
      List.filterMap_append
    rw [hNone, List.append_nil] at hAll
    exact hAll
  · intro name
    have hGaps := (gaps_of_cutShort hWalks name).2
    have hAll :
        Story.gaps name
            { told with
              walks := told.walks ++ rest.walks }
          = told.gaps name ++ rest.gaps name :=
      List.filterMap_append
    rw [hGaps] at hAll
    rw [List.map_map]
    exact hAll

end Story

------------------------------------------------------------
-- Reports of a canceled run
------------------------------------------------------------

/-
  What is reported of an instrument when its run is canceled
  at an instant, beside what its journal tells of before it.
  The windows that have ended until then are counted, and are
  gaps, as they were; those that are left are gaps as well.
  If a look-up was not over, there is no plan.
-/
structure Interrupted
    {σ κ : Type}
    (o : Office σ κ)
    (c : Nat)
    (journal : List Note)
    (position : Nat)
    (i : Instrument)
    (report : Report) : Prop where
  windows :
    let early := Story.of (deedsAt position (notesBefore c journal))
    let story := Story.of (deedsAt position journal)
    ∃ plan,
      Plans o.settings o.reference i story.finds plan
        ∧ ∀ windows,
          plan = .ok windows →
            report.windowsPlanned = windows.length
              ∧ report.windowsOk = early.hauls.length
              ∧ ∃ left : List Window,
                (early.walks.map Prod.fst ++ left).Perm windows
                  ∧ report.gaps.Perm
                    (early.gaps i.name
                      ++ left.map fun w =>
                        { instrument := i.name
                          window := w
                          fault := Fault.runCanceled })
  lookup :
    let early := Story.of (deedsAt position (notesBefore c journal))
    o.settings.pagination = .sequence →
      i.validRange o.reference ≠ none →
        early.finds = [] →
          report.state = .failed ∧ report.windowsPlanned = 0

/- A report that accounts for its journal tells so much of it. -/
theorem Accounts.interrupted
    {σ κ : Type}
    {o : Office σ κ}
    {c position : Nat}
    {i : Instrument}
    {report : Report}
    {early late : List Note}
    (hEarly : notesBefore c (early ++ late) = early)
    (hLate : ∀ n ∈ late, n.deed.CutShort)
    (h : Accounts o (early ++ late) position i report) :
    Interrupted o c (early ++ late) position i report := by
  let rest := Story.of (deedsAt position late)
  rcases Story.of_late early hLate position with
    ⟨hFinds, hErrors, _, hWalks, hHauls, hGaps⟩
  rcases h.agrees with ⟨plan, hPlan, hConsistent⟩
  constructor
  · rw [hEarly]
    refine ⟨plan, hPlan, ?_⟩
    intro windows hIs
    rcases hConsistent.planned windows hIs with
      ⟨hShare, hCount, hOk, _⟩
    refine ⟨hCount, ?_, rest.walks.map Prod.fst, ?_, ?_⟩
    · rw [hOk, hHauls]
    · rw [← List.map_append, ← hWalks]
      exact hShare
    · rw [← hGaps]
      exact hConsistent.gaps
  · rw [hEarly]
    intro told hSequence hRange hNone
    have hOnly :
        (Story.of (deedsAt position (early ++ late))).finds
          = rest.finds := by
      rw [hFinds, hNone, List.nil_append]
    rw [hOnly] at hPlan
    generalize hLooked : rest.finds = looked at hPlan
    cases hPlan with
    | nothing hEmpty => exact absurd hEmpty hRange
    | instants _ _ hTime =>
        rw [hSequence] at hTime
        cases hTime
    | numbers _ latest _ _ =>
        have hNot :=
          hErrors (.ok latest)
            (hLooked ▸ List.mem_singleton_self (Except.ok latest))
        cases hNot
    | unknown _ fault _ _ =>
        exact
          ⟨hConsistent.failed.mpr (Or.inl ⟨fault, rfl⟩),
            (hConsistent.unplanned fault rfl).1⟩

------------------------------------------------------------
-- What is handed over
------------------------------------------------------------

/-
  What a result is made of, by the story of its instrument:
  of all that was brought home, or of the haul of one window.
-/
inductive Story.Gives
    (story : Story)
    (result : Result) : Prop where
  | whole
      (hauls : List Haul)
      (hWindow : result.window = none)
      (hHauls : hauls.Perm story.hauls)
      (hTrades :
        result.trades = Merge.windows (hauls.map Haul.trades)) :
      Story.Gives story result
  | single
      (w : Window)
      (haul : Haul)
      (hWindow : result.window = some w)
      (hWalk : (w, .ok haul) ∈ story.walks)
      (hTrades : result.trades = haul.trades) :
      Story.Gives story result

/- What is cut short gives nothing. -/
theorem Story.Gives.early
    {early late : List Note}
    (hLate : ∀ n ∈ late, n.deed.CutShort)
    {position : Nat}
    {result : Result}
    (h : (Story.of (deedsAt position (early ++ late))).Gives result) :
    (Story.of (deedsAt position early)).Gives result := by
  rcases Story.of_late early hLate position with
    ⟨_, _, hErrors, hWalks, hHauls, _⟩
  cases h with
  | whole hauls hWindow hMade hTrades =>
      rw [hHauls] at hMade
      exact Story.Gives.whole hauls hWindow hMade hTrades
  | single w haul hWindow hWalk hTrades =>
      rw [hWalks] at hWalk
      rcases List.mem_append.mp hWalk with hOld | hNew
      · exact Story.Gives.single w haul hWindow hOld hTrades
      · cases hErrors _ hNew

/- What is kept of a window is the haul of its walk. -/
theorem Desk.trades_of_windowResult?
    {s : Settings}
    {i : Instrument}
    {w : Window}
    {walked : Except Fault Haul}
    {result : Result}
    (hResult : windowResult? s i w walked = some result) :
    ∃ haul, walked = .ok haul ∧ result.trades = haul.trades := by
  unfold windowResult? at hResult
  cases walked with
  | error f => cases hResult
  | ok haul =>
      refine ⟨haul, rfl, ?_⟩
      simp only at hResult
      split at hResult
      · cases hResult
      · split at hResult
        · cases hResult
        · cases hResult
          rfl

/- What a file hands over is made of what is recorded of it. -/
theorem File.gives_of_results
    {σ κ : Type}
    {o : Office σ κ}
    {f : File κ}
    {journal : List Note}
    (hOk : (Prospect.anything o).FileOk f)
    (hRecorded : f.Recorded o (deedsAt f.desk.position journal))
    {result : Result}
    (hMem : result ∈ f.results o) :
    (Story.of (deedsAt f.desk.position journal)).Gives result := by
  rcases story_of_recorded hOk hRecorded with
    ⟨fault, _, hDesk, _⟩
      | ⟨_, looked, _, _, hFetched, _, _, hStory⟩
  · rcases Prospect.unplanned_fields hDesk with
      ⟨_, _, _, hNone, hFailure⟩
    have hNothing : f.results o = [] := by
      unfold File.results Desk.results
      rw [hNone, File.last_of_failure (by rw [hFailure]; rfl)]
      rfl
    rw [hNothing] at hMem
    cases hMem
  · rw [hStory]
    rcases List.mem_append.mp hMem with hDesk | hLast
    · rcases List.mem_filterMap.mp hDesk with ⟨out, hOut, hResult⟩
      rcases Desk.trades_of_windowResult? hResult with
        ⟨haul, hWalked, hTrades⟩
      refine
        Story.Gives.single out.window haul
          (Desk.windowResult?_eq_some hResult).2.1 ?_ hTrades
      rw [← hWalked]
      exact List.mem_map_of_mem hOut
    · rw [File.last_of_fetching hFetched.fetching,
        Option.mem_toList] at hLast
      have hWhole := Desk.eq_wholeResult hLast
      refine
        Story.Gives.whole (Outcome.hauls f.desk.ordered)
          (Desk.window_lastResult? hLast).2 ?_ ?_
      · rw [hauls_fetchedStory]
        exact f.desk.ordered_perm.filterMap _
      · rw [hWhole]
        rfl

------------------------------------------------------------
-- Whole runs
------------------------------------------------------------

namespace Run

variable {σ κ : Type} {o : Office σ κ}

/- The calls of a canceled run are those of before it. -/
theorem Parts.calls_eq
    {cut full : Run σ κ}
    {c : Nat}
    {early late more : List Note}
    {calls later : List (Nat × Call)}
    (h : Parts o cut full c early late more calls later) :
    (toEnd o cut).calls =
      (toEnd o full).calls.filter fun call => call.1 < c := by
  unfold Run.calls
  rw [h.cutCalls, h.fullCalls, List.reverse_append,
    List.filter_append, List.filter_eq_self.mpr,
    List.filter_eq_nil_iff.mpr, List.append_nil]
  · intro call hCall hBefore
    exact
      Nat.not_lt_of_le (h.later call (List.mem_reverse.mp hCall))
        (of_decide_eq_true hBefore)
  · intro call hCall
    exact decide_eq_true (h.calls call (List.mem_reverse.mp hCall))

section Entries

variable {instruments : List Instrument} {r : Run σ κ}
variable {files : List (File κ)} {journal : List Note}

/- Each file is of an entry of the list. -/
theorem getElem?_of_file
    (hPlaces :
      (files.map fun f => f.desk.place).Perm
        ((List.range instruments.length).zip instruments))
    {f : File κ}
    (hFile : f ∈ files) :
    instruments[f.desk.position]? = some f.desk.instrument := by
  apply mem_places_iff.mp
  apply hPlaces.mem_iff.mp
  exact List.mem_map_of_mem (f := fun f => f.desk.place) hFile

/- There is one report for each entry, and no other report. -/
theorem exists_entries
    (h : Chronicle o instruments r files journal)
    (hPlaces :
      (files.map fun f => f.desk.place).Perm
        ((List.range instruments.length).zip instruments)) :
    ∃ entries : List (Nat × Report),
      entries.map Prod.snd = r.reports
        ∧ (entries.map Prod.fst).Perm (List.range instruments.length)
        ∧ ∀ position report,
          (position, report) ∈ entries →
            ∃ i,
              instruments[position]? = some i
                ∧ Accounts o journal position i report := by
  refine ⟨files.map fun f => (f.desk.position, f.report o), ?_, ?_, ?_⟩
  · rw [List.map_map, h.run.reports]
    rfl
  · have hFirsts := hPlaces.map Prod.fst
    rw [List.map_map, List.map_fst_zip (by simp)] at hFirsts
    rw [List.map_map]
    exact hFirsts
  · intro position report hEntry
    rcases List.mem_map.mp hEntry with ⟨f, hFile, hIs⟩
    rcases Prod.mk.inj hIs with ⟨rfl, rfl⟩
    exact
      ⟨f.desk.instrument, getElem?_of_file hPlaces hFile,
        File.accounts_of_recorded (h.run.filed f hFile)
          (h.filed f hFile)⟩

/- What is handed over is of an entry, and as its story has it. -/
theorem exists_gives_of_handed
    (h : Chronicle o instruments r files journal)
    (hPlaces :
      (files.map fun f => f.desk.place).Perm
        ((List.range instruments.length).zip instruments))
    (hDone : r.Done)
    {result : Result}
    (hMem : result ∈ r.depot.handed) :
    ∃ position,
      instruments[position]? = some result.instrument
        ∧ (Story.of (deedsAt position journal)).Gives result := by
  have hFiles := (h.run.files_of_done hDone).2.mem_iff.mp hMem
  rcases List.mem_flatMap.mp hFiles with ⟨f, hFile, hResult⟩
  refine ⟨f.desk.position, ?_, ?_⟩
  · rw [Prospect.instrument_fileResults hResult]
    exact getElem?_of_file hPlaces hFile
  · exact
      File.gives_of_results (h.run.filed f hFile) (h.filed f hFile)
        hResult

end Entries

/-
  A run that is canceled, whatever the venue and the sink do.
  It makes the calls that it would make before that instant,
  and no others, and comes to its end at that instant at the
  latest.  What its look-ups and walks come to before it is
  what they would come to.  Each entry of the list has one
  report, which names as gaps all windows that are left, and
  what is handed over is made of the walks that have ended
  before.
-/
theorem toEnd_canceled
    (hValid : o.settings.Valid)
    (venue : σ)
    (kept : κ)
    (c : Nat)
    (instruments : List Instrument) :
    let cut := start o venue kept (some c) instruments
    let full := start o venue kept none instruments
    let r := toEnd o cut
    let told := journal o cut
    let early := notesBefore c told
    r.calls = (toEnd o full).calls.filter (fun call => call.1 < c)
      ∧ r.crew.now ≤ c
      ∧ early = notesBefore c (journal o full)
      ∧ (∃ entries : List (Nat × Report),
          entries.map Prod.snd = r.reports
            ∧ (entries.map Prod.fst).Perm
              (List.range instruments.length)
            ∧ ∀ position report,
              (position, report) ∈ entries →
                ∃ i,
                  instruments[position]? = some i
                    ∧ Accounts o told position i report
                    ∧ Interrupted o c told position i report)
      ∧ ∀ result ∈ r.depot.handed,
        ∃ position,
          instruments[position]? = some result.instrument
            ∧ (Story.of (deedsAt position early)).Gives result := by
  intro cut full r told early
  have hDone : r.Done :=
    (ends_toEnd hValid venue kept (some c) instruments).2
  rcases exists_parts hValid venue kept c instruments with
    ⟨before, late, more, calls, later, hParts⟩
  rcases hParts.notesBefore_eq with ⟨hCut, hFull⟩
  have hTold : told = before ++ late := hParts.cutNotes
  have hEarly : notesBefore c (before ++ late) = before := by
    rw [← hTold]
    exact hCut
  have hShort : ∀ n ∈ late, n.deed.CutShort :=
    fun n hn => (hParts.late n hn).2
  rcases
    Chronicle.of_toEnd hValid venue kept (some c) instruments with
    ⟨files, h, hPlaces⟩
  change Chronicle o instruments r files told at h
  rw [hTold] at h
  refine
    ⟨hParts.calls_eq, hParts.stop, hCut.trans hFull.symm, ?_, ?_⟩
  · rcases exists_entries h hPlaces with
      ⟨entries, hReports, hPositions, hEach⟩
    refine ⟨entries, hReports, hPositions, ?_⟩
    intro position report hEntry
    rcases hEach position report hEntry with ⟨i, hAt, hAccounts⟩
    rw [hTold]
    exact ⟨i, hAt, hAccounts, hAccounts.interrupted hEarly hShort⟩
  · intro result hMem
    rcases exists_gives_of_handed h hPlaces hDone hMem with
      ⟨position, hAt, hGives⟩
    refine ⟨position, hAt, ?_⟩
    rw [show early = before from hCut]
    exact hGives.early hShort

/- One call at a time, and each of them takes a while. -/
def singleFileOffice : Office Nat Shelf :=
  let venue : TapeVenue :=
    { tapes :=
        [("BTC",
          [Trade.synthetic "BTC" 1 5, Trade.synthetic "BTC" 2 12])]
      failingInstruments := []
      failingRanges := []
      latency := Latency.make? 3 0 }
  let settings : Settings :=
    { Settings.standard with
      chunkMs := some 10
      maxInFlight := 1
      maxInstruments := 1
      maxWindows := 1 }
  venue.office settings none Shelf.sink

/- A run over four windows that is canceled, or is not. -/
def singleFileRun (cancelAt : Option Nat) : Run Nat Shelf :=
  start singleFileOffice 0 (Shelf.make none) cancelAt
    [⟨"BTC", .future, 0, 29⟩, ⟨"ETH", .future, 0, 9⟩]

/-
  The first window is fetched and the call for the second one
  is on its way.  The third window and the other instrument
  have not been begun.
-/
theorem toEnd_canceled_of_queue :
    let r := toEnd singleFileOffice (singleFileRun (some 4))
    let told := journal singleFileOffice (singleFileRun (some 4))
    (r.reports.map fun report =>
          (report.state, report.windowsPlanned, report.windowsOk,
            report.gaps.map Gap.fault))
        = [(.persisted, 3, 1,
              [Fault.runCanceled, Fault.runCanceled]),
            (.failed, 1, 0, [Fault.runCanceled])]
      ∧ r.calls.length = 2
      ∧ r.calls
        = (toEnd singleFileOffice (singleFileRun none)).calls.filter
          (fun call => call.1 < 4)
      ∧ ∃ report ∈ r.reports,
        Interrupted singleFileOffice 4 told 1
          ⟨"ETH", .future, 0, 9⟩ report := by
  have hReports :
      ((toEnd singleFileOffice
            (singleFileRun (some 4))).reports.map fun report =>
          (report.state, report.windowsPlanned, report.windowsOk,
            report.gaps.map Gap.fault))
        = [(.persisted, 3, 1,
              [Fault.runCanceled, Fault.runCanceled]),
            (.failed, 1, 0, [Fault.runCanceled])] := by
    cbv
  have hCalls :
      (toEnd singleFileOffice
        (singleFileRun (some 4))).calls.length = 2 := by
    cbv
  unfold singleFileRun at hReports hCalls ⊢
  rcases
    @toEnd_canceled Nat Shelf singleFileOffice (by decide) 0
      (Shelf.make none) 4
      [⟨"BTC", .future, 0, 29⟩, ⟨"ETH", .future, 0, 9⟩] with
    ⟨hSame, _, _, ⟨entries, hAll, hPositions, hEach⟩, _⟩
  have hSecond : 1 ∈ entries.map Prod.fst :=
    hPositions.mem_iff.mpr (by decide)
  rcases List.mem_map.mp hSecond with ⟨⟨_, report⟩, hEntry, rfl⟩
  rcases hEach 1 report hEntry with ⟨i, hAt, _, hInterrupted⟩
  cases hAt
  refine ⟨hReports, hCalls, hSame, report, ?_, hInterrupted⟩
  rw [← hAll]
  exact List.mem_map_of_mem hEntry

end Run
end TradeTape
