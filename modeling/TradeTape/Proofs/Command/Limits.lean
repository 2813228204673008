import Mathlib.Tactic.SplitIfs
import TradeTape.Command.Rules

/-
  Limits that are derived are valid, and as great as they can
  be.

  Each window that is fetched takes a call, so as many
  instruments are fetched at once as there is room for with
  all of their windows, and one more would not fit.

  Key definitions include:
    * `FetchRules.Derives`
    * `FetchRules.Fits`
    * `Settings.Fits`

  Key statements include:
    * `Settings.valid_iff`
    * `FetchRules.instrumentLimit_mul_le`
    * `FetchRules.lt_succ_instrumentLimit_mul`
    * `FetchRules.fits_settings`
    * `FetchRules.settings_derived`
-/

namespace TradeTape

------------------------------------------------------------
-- Checks
------------------------------------------------------------

/- All that the checks on settings ask for. -/
theorem Settings.valid_iff
    {s : Settings} :
    s.Valid ↔
      (0 < s.pageSize ∧ s.pageSize ≤ maxPageSize)
        ∧ (∀ ms, s.chunkMs = some ms → 0 < ms)
        ∧ (0 < s.maxInFlight ∧ 0 < s.maxInstruments
          ∧ 0 < s.maxWindows)
        ∧ s.taskTimeoutMs ≠ some 0
        ∧ 0 < s.maxPages
        ∧ Word.mulSat s.maxInstruments s.maxWindows
          ≤ s.maxInFlight := by
  have hChunk :
      ¬s.chunkMs.any (· ≤ 0) = true
        ↔ ∀ ms, s.chunkMs = some ms → 0 < ms := by
    cases s.chunkMs <;> simp
  unfold Valid problem?
  constructor
  · intro hNone
    split_ifs at hNone with hPage hLarge hMs hCalls hInstruments
      hWindows hTime hPages hFan
    exact
      ⟨⟨Nat.pos_of_ne_zero hPage, Nat.not_lt.mp hLarge⟩,
        hChunk.mp hMs,
        ⟨Nat.pos_of_ne_zero hCalls, Nat.pos_of_ne_zero hInstruments,
          Nat.pos_of_ne_zero hWindows⟩,
        hTime, Nat.pos_of_ne_zero hPages, Nat.not_lt.mp hFan⟩
  · rintro
      ⟨⟨hPage, hLarge⟩, hMs, ⟨hCalls, hInstruments, hWindows⟩, hTime,
        hPages, hFan⟩
    rw [if_neg (Nat.ne_of_gt hPage), if_neg (Nat.not_lt.mpr hLarge),
      if_neg (hChunk.mpr hMs), if_neg (Nat.ne_of_gt hCalls),
      if_neg (Nat.ne_of_gt hInstruments),
      if_neg (Nat.ne_of_gt hWindows), if_neg hTime,
      if_neg (Nat.ne_of_gt hPages), if_neg (Nat.not_lt.mpr hFan)]

/- Settings whose numbers are words of 64 bits. -/
structure Settings.Fits (s : Settings) : Prop where
  pageSize : s.pageSize ≤ Word.uint64Max
  chunkMs : ∀ ms, s.chunkMs = some ms → Word.FitsInt64 ms
  maxInFlight : s.maxInFlight ≤ Word.uint64Max
  maxInstruments : s.maxInstruments ≤ Word.uint64Max
  maxWindows : s.maxWindows ≤ Word.uint64Max
  taskTimeoutMs :
    ∀ ms, s.taskTimeoutMs = some ms → ms ≤ Word.uint64Max
  maxPages : s.maxPages ≤ Word.uint64Max

theorem Word.mulSat_le
    (a b : Nat) :
    mulSat a b ≤ uint64Max :=
  Nat.min_le_right _ _

/- Only a product of nothing stops at nothing. -/
theorem Word.mulSat_eq_zero_iff
    {a b : Nat} :
    mulSat a b = 0 ↔ a = 0 ∨ b = 0 := by
  unfold mulSat uint64Max
  rw [← Nat.mul_eq_zero]
  omega

namespace FetchRules

variable {r : FetchRules}

------------------------------------------------------------
-- Limits
------------------------------------------------------------

/-
  Rules from which the instruments at once are derived: none
  are given, and the windows of one instrument fit.
-/
structure Derives (r : FetchRules) : Prop where
  calls : 1 ≤ r.maxInFlight
  instruments : r.maxInstruments = none
  windows : ∀ w, r.maxWindows = some w → w ≤ r.maxInFlight

theorem windowLimit_pos (r : FetchRules) : 0 < r.windowLimit :=
  Nat.le_max_left _ _

theorem windowLimit_le
    (h : r.Derives) :
    r.windowLimit ≤ r.maxInFlight := by
  refine Nat.max_le.mpr ⟨h.calls, ?_⟩
  cases hWindows : r.maxWindows with
  | none => exact Nat.min_le_right _ _
  | some w => exact h.windows w hWindows

theorem instrumentLimit_eq
    (h : r.Derives) :
    r.instrumentLimit = r.maxInFlight / r.windowLimit := by
  have hRoom : 1 ≤ r.maxInFlight / r.windowLimit :=
    Nat.div_pos (windowLimit_le h) r.windowLimit_pos
  unfold instrumentLimit
  rw [h.instruments, Option.getD_none, Nat.max_eq_right hRoom]

theorem instrumentLimit_mul_le
    (h : r.Derives) :
    r.instrumentLimit * r.windowLimit ≤ r.maxInFlight := by
  rw [instrumentLimit_eq h]
  exact Nat.div_mul_le_self _ _

theorem lt_succ_instrumentLimit_mul
    (h : r.Derives) :
    r.maxInFlight < (r.instrumentLimit + 1) * r.windowLimit := by
  rw [instrumentLimit_eq h, Nat.mul_comm]
  exact Nat.lt_mul_div_succ _ r.windowLimit_pos

------------------------------------------------------------
-- Words
------------------------------------------------------------

/- Rules whose numbers are words, as they are read from a line. -/
structure Fits (r : FetchRules) : Prop where
  windowHours : ∀ n, r.windowHours = some n → n ≤ Word.uint32Max
  pageSize : ∀ n, r.pageSize = some n → n ≤ Word.uint64Max
  maxInFlight : r.maxInFlight ≤ Word.uint64Max
  maxInstruments :
    ∀ n, r.maxInstruments = some n → n ≤ Word.uint64Max
  maxWindows : ∀ n, r.maxWindows = some n → n ≤ Word.uint64Max

theorem settings_eq
    (r : FetchRules)
    (kind : InstrumentKind) :
    let s := r.settings kind
    s.maxInFlight = r.maxInFlight
      ∧ s.maxInstruments = r.instrumentLimit
      ∧ s.maxWindows = r.windowLimit
      ∧ s.pageSize = r.pageSize.getD maxPageSize
      ∧ s.taskTimeoutMs = r.taskTimeoutMs
      ∧ s.maxPages = 100000 := by
  cases kind <;> exact ⟨rfl, rfl, rfl, rfl, rfl, rfl⟩

/- All hours of 32 bits have milliseconds of 64 bits. -/
theorem fitsInt64_hours
    {n : Nat}
    (hWord : n ≤ Word.uint32Max) :
    Word.FitsInt64 ((n : Int) * hourMs) := by
  unfold Word.uint32Max at hWord
  unfold Word.FitsInt64 Word.int64Min Word.int64Max hourMs
  omega

/- No number leaves its word on the way to the settings. -/
theorem fits_settings
    (h : r.Fits)
    (kind : InstrumentKind) :
    (r.settings kind).Fits := by
  rcases r.settings_eq kind with
    ⟨hCalls, hInstruments, hWindows, hPage, hTime, hPages⟩
  refine
    { pageSize := ?_
      chunkMs := ?_
      maxInFlight := hCalls ▸ h.maxInFlight
      maxInstruments := ?_
      maxWindows := ?_
      taskTimeoutMs := ?_
      maxPages := ?_ }
  · rw [hPage]
    cases hGiven : r.pageSize with
    | none => decide
    | some n => exact h.pageSize n hGiven
  · intro ms hMs
    cases kind with
    | option => cases hMs
    | future =>
        have hIs : (r.windowHours.getD 1 : Int) * hourMs = ms :=
          Option.some.inj hMs
        rw [← hIs]
        apply fitsInt64_hours
        cases hGiven : r.windowHours with
        | none => decide
        | some n => exact h.windowHours n hGiven
  · rw [hInstruments]
    unfold instrumentLimit
    cases hGiven : r.maxInstruments with
    | none =>
        refine Nat.max_le.mpr ⟨by decide, ?_⟩
        exact Nat.le_trans (Nat.div_le_self _ _) h.maxInFlight
    | some n => exact h.maxInstruments n hGiven
  · rw [hWindows]
    refine Nat.max_le.mpr ⟨by decide, ?_⟩
    cases hGiven : r.maxWindows with
    | none => exact Nat.le_trans (Nat.min_le_left _ _) (by decide)
    | some n => exact h.maxWindows n hGiven
  · intro ms hMs
    rw [hTime] at hMs
    unfold taskTimeoutMs at hMs
    split at hMs
    · rw [← Option.some.inj hMs]
      exact Word.mulSat_le _ _
    · cases hMs
      decide
  · rw [hPages]
    decide

------------------------------------------------------------
-- Settings
------------------------------------------------------------

theorem taskTimeoutMs_ne_zero_iff :
    r.taskTimeoutMs ≠ some 0
      ↔ ∀ n, r.taskTimeoutSecs = some n → 1 ≤ n := by
  unfold taskTimeoutMs
  cases r.taskTimeoutSecs with
  | none => simp [Settings.standard]
  | some secs =>
      simp [Word.mulSat_eq_zero_iff, Nat.one_le_iff_ne_zero]

/- Only futures are cut into windows, of an hour if not told. -/
theorem chunkMs_pos_iff
    {kind : InstrumentKind} :
    (∀ ms, (r.settings kind).chunkMs = some ms → 0 < ms)
      ↔ (kind = .future →
          ∀ n, r.windowHours = some n → 1 ≤ n) := by
  cases kind with
  | option => simp [settings, Settings.standard]
  | future =>
      simp only [settings, Option.some.injEq, forall_eq', hourMs,
        forall_const]
      cases r.windowHours with
      | none => simp
      | some n =>
          simp only [Option.getD_some, Option.some.injEq, forall_eq']
          omega

/-
  The limits that are derived fill the calls in flight, and
  the settings are turned down for other numbers only.  No
  number of the settings leaves its word.
-/
theorem settings_derived
    (h : r.Derives)
    (kind : InstrumentKind) :
    let s := r.settings kind
    (s.maxInFlight = r.maxInFlight
        ∧ s.maxInstruments * s.maxWindows ≤ r.maxInFlight
        ∧ r.maxInFlight < (s.maxInstruments + 1) * s.maxWindows)
      ∧ (s.Valid ↔
          (∀ n, r.pageSize = some n → 1 ≤ n ∧ n ≤ 10000)
            ∧ (∀ n, r.taskTimeoutSecs = some n → 1 ≤ n)
            ∧ (kind = .future →
                ∀ n, r.windowHours = some n → 1 ≤ n))
      ∧ (r.Fits → s.Fits) := by
  intro s
  rcases r.settings_eq kind with
    ⟨hCalls, hInstruments, hWindows, hPage, hTime, hPages⟩
  have hFilled := instrumentLimit_mul_le h
  have hRoom := lt_succ_instrumentLimit_mul h
  have hSome : 0 < r.instrumentLimit := by
    rw [instrumentLimit_eq h]
    exact Nat.div_pos (windowLimit_le h) r.windowLimit_pos
  have hFan :
      Word.mulSat r.instrumentLimit r.windowLimit ≤ r.maxInFlight :=
    Nat.le_trans (Nat.min_le_left _ _) hFilled
  have hPageSize :
      (0 < r.pageSize.getD maxPageSize
          ∧ r.pageSize.getD maxPageSize ≤ maxPageSize)
        ↔ ∀ n, r.pageSize = some n → 1 ≤ n ∧ n ≤ 10000 := by
    cases r.pageSize with
    | none => simp [maxPageSize]
    | some n => simp [maxPageSize, Nat.one_le_iff_ne_zero, Nat.pos_iff_ne_zero]
  refine ⟨?_, ?_, fun hFits => fits_settings hFits kind⟩
  · rw [hCalls, hInstruments, hWindows]
    exact ⟨rfl, hFilled, hRoom⟩
  · rw [Settings.valid_iff, chunkMs_pos_iff, hPage, hPageSize, hTime,
      taskTimeoutMs_ne_zero_iff, hCalls, hInstruments, hWindows, hPages]
    constructor
    · rintro ⟨hPageOk, hHours, -, hSecs, -, -⟩
      exact ⟨hPageOk, hSecs, hHours⟩
    · rintro ⟨hPageOk, hSecs, hHours⟩
      exact
        ⟨hPageOk, hHours, ⟨h.calls, hSome, r.windowLimit_pos⟩, hSecs,
          by decide, hFan⟩

/- Seven windows at once, no hours, and a deadline too long. -/
def oddRules : FetchRules :=
  { FetchRules.standard with
    maxInFlight := 25
    maxWindows := some 7
    windowHours := some 0
    taskTimeoutSecs := some Word.uint64Max }

/- Three instruments fit, and only futures need their hours. -/
theorem settings_derived_of_odd :
    oddRules.Derives ∧ oddRules.Fits
      ∧ ((oddRules.settings .option).maxInstruments * 7 ≤ 25
        ∧ 25 < ((oddRules.settings .option).maxInstruments + 1) * 7)
      ∧ (oddRules.settings .option).Valid
      ∧ ¬(oddRules.settings .future).Valid
      ∧ (oddRules.settings .future).Fits := by
  have hDerives : oddRules.Derives :=
    { calls := by decide
      instruments := rfl
      windows := fun w hw => by
        cases hw
        decide }
  have hFits : oddRules.Fits :=
    { windowHours := fun n hn => by
        cases hn
        decide
      pageSize := fun n hn => (nomatch hn)
      maxInFlight := by decide
      maxInstruments := fun n hn => (nomatch hn)
      maxWindows := fun n hn => by
        cases hn
        decide }
  rcases settings_derived hDerives .option with ⟨hLimits, hValid, -⟩
  rcases settings_derived hDerives .future with ⟨-, hHours, hWords⟩
  refine ⟨hDerives, hFits, hLimits.2, hValid.mpr ?_, ?_, hWords hFits⟩
  · refine
      ⟨fun n hn => (nomatch hn), ?_, fun hKind => (nomatch hKind)⟩
    intro n hn
    cases hn
    decide
  · intro hOk
    exact absurd ((hHours.mp hOk).2.2 rfl 0 rfl) (by decide)

end FetchRules

end TradeTape
