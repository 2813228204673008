import TradeTape.Deribit.ApiFault

/-
  What a fault of the client says as the fault of a walk.

  The client tells which questions may be asked again, and a
  walk tells it of its own faults.  Both tell the same: each
  kind of fault goes over into one kind, codes are weighed
  alike on both sides, and an answer that is final keeps the
  code and the text that the venue gave.

  Key statements include:
    * `Deribit.ApiFault.retryable_toFault_iff`
    * `Deribit.ApiFault.toFault_eq_venue_iff`
    * `Deribit.ApiFault.Classified`
    * `Deribit.ApiFault.toFault_classified`
-/

namespace TradeTape

namespace Deribit

namespace ApiFault

------------------------------------------------------------
-- Kinds of faults
------------------------------------------------------------

/- The faults by which the venue asks for fewer questions. -/
def Throttles : ApiFault → Prop
  | .rateLimited _ => True
  | .rpc code _ => code ∈ retryableCodes
  | _ => False

/- The faults of questions and answers that make no sense. -/
def Garbled : ApiFault → Prop
  | .missingResult _ | .json _ | .validation _ => True
  | _ => False

/- The faults of questions that were given up. -/
def GivenUp : ApiFault → Prop
  | .canceled _ => True
  | _ => False

/- What the venue said to a question, as a code and a text. -/
def verdict? : ApiFault → Option (Int × String)
  | .status code body => some (code, body)
  | .rpc code detail => some (code, detail)
  | _ => none

section Kinds

variable {f : ApiFault}

theorem throttles_iff :
    f.Throttles
      ↔ (∃ secs, f = .rateLimited secs)
        ∨ ∃ code detail, f = .rpc code detail ∧ code ∈ retryableCodes := by
  cases f <;> simp [Throttles]

theorem garbled_iff :
    f.Garbled
      ↔ (∃ body, f = .missingResult body)
        ∨ (∃ detail, f = .json detail)
        ∨ ∃ detail, f = .validation detail := by
  cases f <;> simp [Garbled]

theorem givenUp_iff :
    f.GivenUp ↔ ∃ detail, f = .canceled detail := by
  cases f <;> simp [GivenUp]

theorem verdict?_eq_some_iff
    {code : Int}
    {text : String} :
    f.verdict? = some (code, text)
      ↔ (∃ status : Nat, f = .status status text ∧ code = status)
        ∨ f = .rpc code text := by
  cases f with
  | status number body =>
      constructor
      · rintro ⟨⟩
        exact Or.inl ⟨number, rfl, rfl⟩
      · rintro (⟨_, ⟨⟩, rfl⟩ | hOther)
        · rfl
        · cases hOther
  | _ => simp [verdict?]

/- What the venue said is final, or the question may be asked again. -/
theorem verdict?_isSome_of_final
    (hFinal : ¬f.Retryable)
    (hSense : ¬f.Garbled)
    (hKept : ¬f.GivenUp) :
    ∃ code text, f.verdict? = some (code, text) := by
  cases f with
  | status code body => exact ⟨code, body, rfl⟩
  | rpc code detail => exact ⟨code, detail, rfl⟩
  | network _ | timeout _ | rateLimited _ =>
      exact absurd trivial hFinal
  | missingResult _ | json _ | validation _ =>
      exact absurd trivial hSense
  | canceled _ => exact absurd trivial hKept

end Kinds

------------------------------------------------------------
-- Kinds of faults of walks
------------------------------------------------------------

section Walks

/- A status is weighed by its size, and a code by its list. -/
theorem toFault_status
    (code : Nat)
    (body : String) :
    (status code body).toFault
      = if 500 ≤ code then .transient s!"HTTP {code}: {body}"
        else .venue code body :=
  rfl

theorem toFault_rpc
    (code : Int)
    (detail : String) :
    (rpc code detail).toFault
      = if code ∈ retryableCodes then
          .rateLimited (rpc code detail).message
        else .venue code detail :=
  rfl

variable (f : ApiFault)

/- Both sides weigh alike what may be asked again. -/
theorem retryable_toFault_iff :
    f.toFault.Retryable ↔ f.Retryable := by
  cases f with
  | status code body =>
      rw [toFault_status]
      by_cases hOver : 500 ≤ code <;>
        simp [hOver, Retryable, Fault.Retryable]
  | rpc code detail =>
      rw [toFault_rpc]
      by_cases hBusy : code ∈ retryableCodes <;>
        simp [hBusy, Retryable, Fault.Retryable]
  | _ => simp [toFault, Retryable, Fault.Retryable]

theorem rateLimited_toFault_iff :
    f.toFault.RateLimited ↔ f.Throttles := by
  cases f with
  | status code body =>
      rw [toFault_status]
      split <;> simp [Throttles, Fault.RateLimited]
  | rpc code detail =>
      rw [toFault_rpc]
      by_cases hBusy : code ∈ retryableCodes <;>
        simp [hBusy, Throttles, Fault.RateLimited]
  | _ => simp [toFault, Throttles, Fault.RateLimited]

theorem toFault_eq_malformed_iff
    (text : String) :
    f.toFault = .malformed text ↔ f.Garbled ∧ text = f.message := by
  cases f with
  | status code body =>
      rw [toFault_status]
      split <;> simp [Garbled]
  | rpc code detail =>
      rw [toFault_rpc]
      split <;> simp [Garbled]
  | _ => simp [toFault, Garbled, eq_comm]

theorem toFault_eq_canceled_iff
    (text : String) :
    f.toFault = .canceled text ↔ f.GivenUp ∧ text = f.message := by
  cases f with
  | status code body =>
      rw [toFault_status]
      split <;> simp [GivenUp]
  | rpc code detail =>
      rw [toFault_rpc]
      split <;> simp [GivenUp]
  | _ => simp [toFault, GivenUp, eq_comm]

/- What the venue said is kept when it is final. -/
theorem toFault_eq_venue_iff
    (code : Int)
    (text : String) :
    f.toFault = .venue code text
      ↔ f.verdict? = some (code, text) ∧ ¬f.Retryable := by
  cases f with
  | status number body =>
      rw [toFault_status]
      by_cases hOver : 500 ≤ number <;>
        simp [hOver, verdict?, Retryable]
  | rpc number detail =>
      rw [toFault_rpc]
      by_cases hBusy : number ∈ retryableCodes <;>
        simp [hBusy, verdict?, Retryable]
  | _ => simp [toFault, verdict?]

end Walks

------------------------------------------------------------
-- One classification
------------------------------------------------------------

/-
  A fault of a walk that says the same as a fault of the
  client: the same of asking again, and of each kind what the
  kind of the other stands for.
-/
structure Classified
    (f : ApiFault)
    (g : Fault) : Prop where
  retryable : f.Retryable ↔ g.Retryable
  rateLimited :
    g.RateLimited
      ↔ (∃ secs, f = .rateLimited secs)
        ∨ ∃ code detail, f = .rpc code detail ∧ code ∈ retryableCodes
  malformed :
    (∃ text, g = .malformed text)
      ↔ (∃ body, f = .missingResult body)
        ∨ (∃ detail, f = .json detail)
        ∨ ∃ detail, f = .validation detail
  canceled :
    (∃ text, g = .canceled text) ↔ ∃ detail, f = .canceled detail
  venue :
    (∃ code text, g = .venue code text)
      ↔ ¬f.Retryable ∧ (¬∃ text, g = .malformed text)
        ∧ ¬∃ text, g = .canceled text
  kept :
    ∀ code text,
      g = .venue code text →
        (∃ status : Nat, f = .status status text ∧ code = status)
          ∨ f = .rpc code text

/- A fault of the client becomes a fault that says the same. -/
theorem toFault_classified (f : ApiFault) :
    f.Classified f.toFault := by
  have hMalformed :
      (∃ text, f.toFault = .malformed text) ↔ f.Garbled := by
    simp [toFault_eq_malformed_iff]
  have hCanceled :
      (∃ text, f.toFault = .canceled text) ↔ f.GivenUp := by
    simp [toFault_eq_canceled_iff]
  refine
    { retryable := (retryable_toFault_iff f).symm
      rateLimited := (rateLimited_toFault_iff f).trans throttles_iff
      malformed := hMalformed.trans garbled_iff
      canceled := hCanceled.trans givenUp_iff
      venue := ?_
      kept := ?_ }
  · constructor
    · rintro ⟨code, text, hVenue⟩
      have hFinal := ((toFault_eq_venue_iff f code text).mp hVenue).2
      rw [hVenue]
      exact ⟨hFinal, by simp, by simp⟩
    · rintro ⟨hFinal, hSense, hKept⟩
      rcases
        verdict?_isSome_of_final hFinal (mt hMalformed.mpr hSense)
          (mt hCanceled.mpr hKept) with
        ⟨code, text, hVerdict⟩
      exact
        ⟨code, text,
          (toFault_eq_venue_iff f code text).mpr ⟨hVerdict, hFinal⟩⟩
  · intro code text hVenue
    apply verdict?_eq_some_iff.mp
    exact ((toFault_eq_venue_iff f code text).mp hVenue).1

end ApiFault

end Deribit

end TradeTape
