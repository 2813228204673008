import TradeTape.Proofs.Run.Chronicle
import TradeTape.Proofs.Run.Closing

/-
  What a sink is given, and what it makes of it.

  A run hands its results to the sink one after the other, and
  nothing else changes the sink.  So what was kept, and what
  was answered, is what the sink does by itself when it is
  given the same results in turn.

  Key definitions include:
    * `Sink.after`
    * `Sink.answers`
    * `Sink.accepted`
    * `Run.Handed`

  Key statements include:
    * `Run.Told.gives`
    * `Run.handed_of_recounted`
    * `Run.handed_toEnd`
-/

namespace TradeTape

------------------------------------------------------------
-- Sinks by themselves
------------------------------------------------------------

namespace Sink

variable {κ : Type}

/- A sink after results were given to it in turn. -/
def after
    (sink : Sink κ)
    (kept : κ)
    (results : List Result) : κ :=
  results.foldl (fun kept result => (sink.store kept result).2) kept

/- What a sink answers to results that are given in turn. -/
def answers
    (sink : Sink κ) :
    κ → List Result → List (Result × Except String Unit)
  | _, [] => []
  | kept, result :: rest =>
      (result, (sink.store kept result).1)
        :: answers sink (sink.store kept result).2 rest

/- The results that a sink accepts of those given in turn. -/
def accepted
    (sink : Sink κ)
    (kept : κ)
    (results : List Result) : List Result :=
  (sink.answers kept results).filterMap fun given =>
    given.2.toOption.map fun _ => given.1

theorem after_concat
    (sink : Sink κ)
    (kept : κ)
    (results : List Result)
    (result : Result) :
    sink.after kept (results ++ [result])
      = (sink.store (sink.after kept results) result).2 :=
  List.foldl_concat _ _ _ _

theorem answers_concat
    (sink : Sink κ)
    (kept : κ)
    (results : List Result)
    (result : Result) :
    sink.answers kept (results ++ [result])
      = sink.answers kept results
        ++ [(result, (sink.store (sink.after kept results) result).1)] := by
  induction results generalizing kept with
  | nil => rfl
  | cons first rest ih => exact congrArg _ (ih _)

end Sink

/- Closing a desk hands over one result at most. -/
theorem Desk.exists_given_close
    {κ : Type}
    (s : Settings)
    (sink : Sink κ)
    (depot : Depot κ)
    (d : Desk) :
    ∃ given : Option Result,
      (d.close s sink depot).2
        = given.elim depot fun result => (depot.keep sink result).2 := by
  unfold Desk.close
  split
  · exact ⟨none, rfl⟩
  · rw [Desk.merge_eq]
    cases d.lastResult? s with
    | none => exact ⟨none, rfl⟩
    | some result => exact ⟨some result, rfl⟩

------------------------------------------------------------
-- Steps
------------------------------------------------------------

/- The results that a journal tells of, with their answers. -/
def offersIn (journal : List Note) : List (Result × Except String Stored) :=
  (journal.map Note.deed).filterMap Deed.offer?

theorem offersIn_append (journal news : List Note) :
    offersIn (journal ++ news) = offersIn journal ++ offersIn news := by
  unfold offersIn
  rw [List.map_append, List.filterMap_append]

namespace Run

variable {σ κ : Type} {o : Office σ κ}
variable {r r' : Run σ κ}

theorem offersIn_notes
    (r : Run σ κ)
    (position : Nat)
    (deeds : List Deed) :
    offersIn (r.notes position deeds) = deeds.filterMap Deed.offer? := by
  unfold offersIn
  rw [deed_notes]

theorem offer?_offers
    (r : Run σ κ)
    (results : List Result) :
    (offers o r results).filterMap Deed.offer?
      = results.map fun result =>
          (result, (r.depot.keep o.sink result).1) := by
  induction results with
  | nil => rfl
  | cons result rest ih => exact congrArg (_ :: ·) ih

/-
  What a step hands over: nothing, or one result that is told
  of with its answer.
-/
def Gives
    (o : Office σ κ)
    (r : Run σ κ)
    (news : List (Result × Except String Stored))
    (depot : Depot κ) : Prop :=
  ∃ given : Option Result,
    depot
        = given.elim r.depot
          (fun result => (r.depot.keep o.sink result).2)
      ∧ news
        = given.toList.map
          (fun result => (result, (r.depot.keep o.sink result).1))

theorem gives_takeFind
    (r : Run σ κ)
    (c : Crew (World σ) Errand Find)
    (j : Job Errand Find)
    (f : Find) :
    Gives o r ((findDeeds o r j f).filterMap Deed.offer?)
      (takeFind o { r with crew := c } j f).depot := by
  have hDesk : deskAt? { r with crew := c } j.group = r.deskAt? j.group :=
    rfl
  unfold takeFind findDeeds
  rw [hDesk]
  cases r.deskAt? j.group with
  | none => exact ⟨none, rfl, rfl⟩
  | some d =>
      cases f with
      | latest found => exact ⟨none, rfl, rfl⟩
      | haul walked =>
          cases j.task with
          | lookup name endMs => exact ⟨none, rfl, rfl⟩
          | walk w =>
              let given :=
                Desk.windowResult? o.settings d.instrument w.whole
                  walked
              refine ⟨given, ?_, offer?_offers r given.toList⟩
              change
                (d.takeHaul o.settings o.sink r.depot w.whole
                  walked).2 = _
              unfold Desk.takeHaul
              cases hGiven : Desk.windowResult? o.settings
                d.instrument w.whole walked with
              | none => simp [given, hGiven]
              | some result => simp [given, hGiven]

theorem gives_close
    (r : Run σ κ)
    (d : Desk) :
    Gives o r ((closeDeeds o r d).filterMap Deed.offer?)
      (closeDesk o r d).depot := by
  let f : File κ := { desk := d, depot := r.depot }
  rcases Desk.exists_given_close o.settings o.sink r.depot d with
    ⟨given, hDepot⟩
  have hLast : f.last o = given.toList := by
    unfold File.last
    rw [hDepot]
    cases given with
    | none => exact List.drop_length
    | some result => exact List.drop_left
  refine ⟨given, hDepot, ?_⟩
  unfold closeDeeds
  rw [List.filterMap_append, offer?_offers, hLast]
  exact List.append_nil _

/- Whatever happens, one result is handed over at most. -/
theorem Told.gives
    {news : List Note}
    (h : Told o r news r') :
    Gives o r (offersIn news) r'.depot := by
  cases h with
  | opens _ _ _ _ => exact ⟨none, rfl, rfl⟩
  | waits _ _ => exact ⟨none, rfl, rfl⟩
  | works d news r' _ hWork =>
      cases hWork with
      | plans _ =>
          refine ⟨none, ?_, rfl⟩
          unfold planDesk
          rcases d.plan o.settings o.reference with ⟨d', ask⟩
          cases ask <;> rfl
      | starts w rest _ => exact ⟨none, rfl, rfl⟩
      | serves j _ _ _ =>
          unfold serve serveDeeds
          rcases r.crew.serve (Errand.visit o.venue) j with
            ⟨c, ending⟩
          cases ending with
          | none => exact ⟨none, rfl, rfl⟩
          | some e =>
              simp only [offersIn_notes]
              exact gives_takeFind r c j (findOf j e)
      | closes _ _ _ =>
          rw [offersIn_notes]
          exact gives_close r d

------------------------------------------------------------
-- Runs
------------------------------------------------------------

/-
  The sink of a run is what it would be if it had been given
  the same results by itself, and so are its answers.
-/
structure Handed
    (o : Office σ κ)
    (before : κ)
    (journal : List Note)
    (r : Run σ κ) : Prop where
  kept : r.depot.kept = o.sink.after before r.depot.handed
  answers :
    offersIn journal
      = (o.sink.answers before r.depot.handed).map fun given =>
          (given.1, given.2.map fun _ => given.1.stored)

theorem Handed.gives
    {kept : κ}
    {journal news : List Note}
    (h : Handed o kept journal r)
    (hGives : Gives o r (offersIn news) r'.depot) :
    Handed o kept (journal ++ news) r' := by
  rcases hGives with ⟨given, hDepot, hNews⟩
  cases given with
  | none =>
      have hSame : r'.depot = r.depot := hDepot
      have hNone : offersIn news = [] := hNews
      constructor
      · rw [hSame]
        exact h.kept
      · rw [offersIn_append, hNone, List.append_nil, hSame]
        exact h.answers
  | some result =>
      have hKeep : r'.depot = (r.depot.keep o.sink result).2 := hDepot
      have hHanded :
          (r.depot.keep o.sink result).2.handed
            = r.depot.handed ++ [result] :=
        rfl
      constructor
      · rw [hKeep, hHanded, Sink.after_concat, ← h.kept]
        rfl
      · rw [offersIn_append, hNews, hKeep, hHanded,
          Sink.answers_concat, List.map_append, ← h.answers, ← h.kept]
        rfl

theorem handed_of_recounted
    {venue : σ}
    {kept : κ}
    {cancelAt : Option Nat}
    {instruments : List Instrument}
    {journal : List Note}
    (h : Recounted o (start o venue kept cancelAt instruments) journal r) :
    Handed o kept journal r := by
  induction h with
  | stays => exact { kept := rfl, answers := rfl }
  | turns f _ ih => exact { kept := ih.kept, answers := ih.answers }
  | moves _ hTold ih => exact ih.gives hTold.gives

theorem handed_toEnd
    (o : Office σ κ)
    (venue : σ)
    (kept : κ)
    (cancelAt : Option Nat)
    (instruments : List Instrument) :
    let r := start o venue kept cancelAt instruments
    Handed o kept (journal o r) (toEnd o r) :=
  handed_of_recounted (recounted_journal o _)

end Run

end TradeTape
