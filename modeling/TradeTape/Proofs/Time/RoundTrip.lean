import TradeTape.Proofs.Text.Digits
import TradeTape.Proofs.Time.Calendar
import TradeTape.Time.Iso8601

/-
  The text of an instant denotes it.

  Every field of the text is as wide as its reader expects and
  ends where the next one begins, and the calendar leads from
  the date back to the day.  This needs a year of four digits:
  the text of any other year starts with a sign, and that of
  an instant without a date is a number alone.

  Key statements include:
    * `Iso8601.takeNumber_padded`
    * `Iso8601.parseChars?_date_clock`
    * `Iso8601.parse?_format`
-/

namespace TradeTape

namespace Iso8601

------------------------------------------------------------
-- Fields
------------------------------------------------------------

/- A field is read up to its width. -/
theorem takeNumber_padded
    {width n : Nat}
    (hWidth : 0 < width)
    (hFits : n < 10 ^ width)
    (rest : List Char) :
    takeNumber width (Digits.padded width n ++ rest)
      = some (n, rest) := by
  have hLength := Digits.length_padded hWidth hFits
  have hSome : Digits.padded width n ≠ [] :=
    List.length_pos_iff.mp (by omega)
  unfold takeNumber
  rw [List.take_left' hLength, List.drop_left' hLength,
    if_pos hLength,
    Digits.nat?_eq_some hSome fun _ => Digits.isDigit_of_mem_padded,
    Digits.toNat_padded]
  rfl

@[simp] theorem takeChar_cons
    (c : Char)
    (rest : List Char) :
    takeChar c (c :: rest) = some rest :=
  if_pos rfl

/- Three places are the milliseconds. -/
theorem takeFraction_padded
    {n : Nat}
    (hFits : n < 1000)
    (rest : List Char)
    (hRest : ∀ c ∈ rest.head?, ¬Digits.IsDigit c) :
    takeFraction ('.' :: (Digits.padded 3 n ++ rest))
      = some (n, rest) := by
  have hLength : (Digits.padded 3 n).length = 3 :=
    Digits.length_padded (by decide) hFits
  have hSome : Digits.padded 3 n ≠ [] :=
    List.length_pos_iff.mp (by omega)
  have hDigits : ∀ c ∈ Digits.padded 3 n, Digits.IsDigit c := fun _ =>
    Digits.isDigit_of_mem_padded
  rw [takeFraction]
  dsimp only
  rw [(Digits.span_digits hDigits rest hRest).1, if_neg hSome,
    List.take_left' hLength,
    List.drop_left, Digits.toNat_padded]

------------------------------------------------------------
-- Dates and clocks
------------------------------------------------------------

/- The text of a year that has four digits. -/
theorem takeNumber_yearText
    {year : Int}
    (hEarly : 0 ≤ year)
    (hLate : year ≤ 9999)
    (rest : List Char) :
    takeNumber 4 (yearText year ++ rest)
      = some (year.natAbs, rest) := by
  unfold yearText
  rw [if_pos ⟨hEarly, hLate⟩]
  exact takeNumber_padded (by decide) (by omega) rest

theorem not_isDigit_utc : ¬Digits.IsDigit 'Z' := by
  decide

/- Universal time is no minutes from itself. -/
theorem takeOffset_utc : takeOffset ['Z'] = some (0, []) :=
  rfl

/- The text of a date and a clock denotes both of them. -/
theorem parseChars?_date_clock
    {d : CivilDate}
    {ms : Nat}
    (hValid : d.Valid)
    (hEarly : 0 ≤ d.year)
    (hLate : d.year ≤ 9999)
    (hDay : ms < 86400000) :
    parseChars? (dateText d ++ 'T' :: clockText ms ++ ['Z'])
      = some (d.toDay * dayMs + ms) := by
  have hMonth : d.month < 10 ^ 2 :=
    lt_of_le_of_lt hValid.month_bounds.2 (by decide)
  have hDate : d.day < 10 ^ 2 :=
    lt_of_le_of_lt hValid.day_le (by decide)
  have hYear : ((d.year.natAbs : Nat) : Int) = d.year :=
    Int.natAbs_of_nonneg hEarly
  have hZone : ∀ c ∈ ['Z'].head?, ¬Digits.IsDigit c := by
    rintro c ⟨⟩
    exact not_isDigit_utc
  have hClock :
      (ms / 3600000 * 3600 + ms / 60000 % 60 * 60
          + ms / 1000 % 60) * 1000 + ms % 1000
        = ms := by
    omega
  have hText :
      dateText d ++ 'T' :: clockText ms ++ ['Z']
        = yearText d.year ++ '-' :: (Digits.padded 2 d.month
          ++ '-' :: (Digits.padded 2 d.day
          ++ 'T' :: (Digits.padded 2 (ms / 3600000)
          ++ ':' :: (Digits.padded 2 (ms / 60000 % 60)
          ++ ':' :: (Digits.padded 2 (ms / 1000 % 60)
          ++ '.' :: (Digits.padded 3 (ms % 1000) ++ ['Z'])))))) := by
    unfold dateText clockText
    simp only [List.append_assoc, List.cons_append]
  unfold parseChars?
  rw [hText]
  dsimp only [Option.bind_eq_bind]
  rw [takeNumber_yearText hEarly hLate, Option.bind_some,
    takeChar_cons, Option.bind_some,
    takeNumber_padded (by decide) hMonth, Option.bind_some,
    takeChar_cons, Option.bind_some,
    takeNumber_padded (by decide) hDate, Option.bind_some,
    takeSeparator, Option.bind_some,
    takeNumber_padded (by decide) (by omega), Option.bind_some,
    takeChar_cons, Option.bind_some,
    takeNumber_padded (by decide) (by omega), Option.bind_some,
    takeChar_cons, Option.bind_some,
    takeNumber_padded (by decide) (by omega), Option.bind_some,
    takeFraction_padded (by omega) _ hZone, Option.bind_some,
    takeOffset_utc, Option.bind_some]
  dsimp only
  rw [hYear, hClock,
    if_pos ⟨rfl, hValid, by omega, by omega, by omega⟩,
    Int.zero_mul, Int.sub_zero]

------------------------------------------------------------
-- Other texts
------------------------------------------------------------

theorem parseChars?_of_not_isDigit
    {c : Char}
    (hOther : ¬Digits.IsDigit c)
    (rest : List Char) :
    parseChars? (c :: rest) = none := by
  have hNone : takeNumber 4 (c :: rest) = none := by
    unfold takeNumber Digits.nat?
    simp [hOther]
  unfold parseChars?
  rw [hNone]
  rfl

theorem eq_drop_of_takeNumber
    {count n : Nat}
    {cs rest : List Char}
    (hNumber : takeNumber count cs = some (n, rest)) :
    rest = cs.drop count := by
  unfold takeNumber at hNumber
  dsimp only at hNumber
  split at hNumber
  · rcases Option.map_eq_some_iff.mp hNumber with ⟨m, -, hPair⟩
    exact (Prod.mk.inj hPair).2.symm
  · cases hNumber

theorem takeChar_of_ne
    {c d : Char}
    (hOther : d ≠ c)
    (rest : List Char) :
    takeChar c (d :: rest) = none :=
  if_neg hOther

/- Among digits alone nothing marks the end of the year. -/
theorem parseChars?_of_digits
    {cs : List Char}
    (hDigits : ∀ c ∈ cs, Digits.IsDigit c) :
    parseChars? cs = none := by
  have hEnd : takeChar '-' (cs.drop 4) = none := by
    cases hRest : cs.drop 4 with
    | nil => rfl
    | cons c rest =>
        have hMem : c ∈ cs := by
          apply List.mem_of_mem_drop
          rw [hRest]
          exact List.mem_cons_self
        apply takeChar_of_ne
        rintro rfl
        exact Digits.not_isDigit_minus (hDigits _ hMem)
  unfold parseChars?
  cases hYear : takeNumber 4 cs with
  | none => rfl
  | some field =>
      rcases field with ⟨year, rest⟩
      rw [Option.bind_eq_bind, Option.bind_some]
      dsimp only
      rw [eq_drop_of_takeNumber hYear, hEnd]
      rfl

------------------------------------------------------------
-- Instants
------------------------------------------------------------

/- A day and the milliseconds since its start are an instant. -/
theorem day_add_clock (ms : Int) :
    ms.fdiv dayMs * dayMs + ((ms.fmod dayMs).toNat : Nat) = ms
      ∧ (ms.fmod dayMs).toNat < 86400000 := by
  have hDay : dayMs = 86400000 := rfl
  have hFirst := Int.fmod_nonneg_of_pos ms (b := dayMs) (by decide)
  have hLast := Int.fmod_lt_of_pos ms (b := dayMs) (by decide)
  have hSum := Int.fdiv_mul_add_fmod ms dayMs
  omega

theorem parseChars?_formatChars
    {ms : Int}
    (hEarly : 0 ≤ (dateOf ms).year)
    (hLate : (dateOf ms).year ≤ 9999) :
    parseChars? (formatChars ms) = some ms := by
  have hDate : Representable ms := by
    unfold Representable
    omega
  have hValid : (dateOf ms).Valid := CivilDate.valid_ofDay _
  have hDay : (dateOf ms).toDay = ms.fdiv dayMs :=
    CivilDate.toDay_ofDay _
  have hClock := day_add_clock ms
  unfold formatChars
  rw [if_pos hDate,
    parseChars?_date_clock hValid hEarly hLate hClock.2,
    hDay, hClock.1]

theorem parseChars?_formatChars_eq_none
    {ms : Int}
    (hYear : ¬(0 ≤ (dateOf ms).year ∧ (dateOf ms).year ≤ 9999)) :
    parseChars? (formatChars ms) = none := by
  unfold formatChars
  split
  · unfold dateText yearText
    rw [if_neg hYear]
    apply parseChars?_of_not_isDigit
    split
    · exact Digits.not_isDigit_minus
    · exact Digits.not_isDigit_plus
  · unfold Digits.ofInt
    split
    · exact parseChars?_of_not_isDigit Digits.not_isDigit_minus _
    · exact parseChars?_of_digits fun _ => Digits.isDigit_of_mem_ofNat

/-
  The text of an instant denotes it exactly if its year has
  four digits.
-/
theorem parse?_format (ms : Int) :
    parse? (format ms)
      = if 0 ≤ (dateOf ms).year ∧ (dateOf ms).year ≤ 9999 then
          some ms
        else
          none := by
  unfold parse? format
  rw [String.toList_ofList]
  split
  · rename_i hYear
    exact parseChars?_formatChars hYear.1 hYear.2
  · rename_i hYear
    exact parseChars?_formatChars_eq_none hYear

/- The leap day of a year that is divisible by 400. -/
example :
    format (-11670912000001) = "1600-02-29T23:59:59.999Z"
      ∧ parse? "1600-02-29T23:59:59.999Z" = some (-11670912000001) := by
  decide +kernel

end Iso8601

end TradeTape
