import TradeTape.Text.Digits
import TradeTape.Time.Calendar

/-
  Instants, in milliseconds since 1970-01-01T00:00:00Z, and
  their ISO 8601 text.

  Writing uses Coordinated Universal Time with three places
  of seconds.  Reading accepts the Internet profile of the
  format: any offset below a day, any number of places and
  the sixtieth second of a leap second.

  Key definitions include:
    * `Iso8601.Representable`
    * `Iso8601.format`
    * `Iso8601.parse?`
-/

namespace TradeTape

namespace Iso8601

------------------------------------------------------------
-- Writing
------------------------------------------------------------

/- The number of milliseconds of a second. -/
def secondMs : Int := 1000

/- The number of milliseconds of a minute. -/
def minuteMs : Int := 60 * secondMs

/- The number of milliseconds of an hour. -/
def hourMs : Int := 60 * minuteMs

/- The number of milliseconds of a day. -/
def dayMs : Int := 24 * hourMs

/- The date on which an instant falls. -/
def dateOf (ms : Int) : CivilDate :=
  CivilDate.ofDay (ms.fdiv dayMs)

/- The instants whose year the calendar represents. -/
def Representable (ms : Int) : Prop :=
  -262143 ≤ (dateOf ms).year ∧ (dateOf ms).year ≤ 262142

instance (ms : Int) : Decidable (Representable ms) := by
  unfold Representable
  infer_instance

/-
  A year has four digits; one outside 0000 to 9999 carries
  its sign.
-/
def yearText (year : Int) : List Char :=
  if 0 ≤ year ∧ year ≤ 9999 then
    Digits.padded 4 year.natAbs
  else
    (if year < 0 then '-' else '+')
      :: Digits.padded 4 year.natAbs

/- The text of a date. -/
def dateText (d : CivilDate) : List Char :=
  yearText d.year ++ '-' :: Digits.padded 2 d.month
    ++ '-' :: Digits.padded 2 d.day

/- The text of the milliseconds of a day. -/
def clockText (ms : Nat) : List Char :=
  Digits.padded 2 (ms / 3600000)
    ++ ':' :: Digits.padded 2 (ms / 60000 % 60)
    ++ ':' :: Digits.padded 2 (ms / 1000 % 60)
    ++ '.' :: Digits.padded 3 (ms % 1000)

/-
  The text of an instant; one without a date is written as
  its number of milliseconds.
-/
def formatChars (ms : Int) : List Char :=
  if Representable ms then
    dateText (dateOf ms) ++ 'T' :: clockText (ms.fmod dayMs).toNat
      ++ ['Z']
  else
    Digits.ofInt ms

/- The text of an instant. -/
def format (ms : Int) : String :=
  String.ofList (formatChars ms)

------------------------------------------------------------
-- Reading
------------------------------------------------------------

/- A number of exactly `count` digits and the text after it. -/
def takeNumber
    (count : Nat)
    (cs : List Char) : Option (Nat × List Char) :=
  let digits := cs.take count
  if digits.length = count then
    (Digits.nat? digits).map fun n => (n, cs.drop count)
  else
    none

/- The text after an expected character. -/
def takeChar
    (c : Char) : List Char → Option (List Char)
  | d :: rest => if d = c then some rest else none
  | [] => none

/- The text after the character between date and time. -/
def takeSeparator : List Char → Option (List Char)
  | 'T' :: rest => some rest
  | 't' :: rest => some rest
  | ' ' :: rest => some rest
  | _ => none

/-
  The milliseconds of a second: nothing, or a point and at
  least one digit, of which the first three count.
-/
def takeFraction : List Char → Option (Nat × List Char)
  | '.' :: rest =>
      let digits := rest.takeWhile fun c => decide (Digits.IsDigit c)
      if digits = [] then
        none
      else
        let places := (digits ++ ['0', '0']).take 3
        some (Digits.toNat places, rest.drop digits.length)
  | rest => some (0, rest)

/- An offset from Coordinated Universal Time in minutes. -/
def takeOffset (cs : List Char) : Option (Int × List Char) :=
  match cs with
  | 'Z' :: rest => some (0, rest)
  | 'z' :: rest => some (0, rest)
  | sign :: rest => do
      let negative ←
        if sign = '+' then some false
        else if sign = '-' ∨ sign = '−' then some true
        else none
      let (hours, rest) ← takeNumber 2 rest
      let rest ← takeChar ':' rest
      let (minutes, rest) ← takeNumber 2 rest
      if hours ≤ 23 ∧ minutes ≤ 59 then
        let offset : Int := (hours * 60 + minutes : Nat)
        some (if negative then -offset else offset, rest)
      else
        none
  | [] => none

/- The instant denoted by a text of date, time and offset. -/
def parseChars? (cs : List Char) : Option Int := do
  let (year, cs) ← takeNumber 4 cs
  let cs ← takeChar '-' cs
  let (month, cs) ← takeNumber 2 cs
  let cs ← takeChar '-' cs
  let (day, cs) ← takeNumber 2 cs
  let cs ← takeSeparator cs
  let (hour, cs) ← takeNumber 2 cs
  let cs ← takeChar ':' cs
  let (minute, cs) ← takeNumber 2 cs
  let cs ← takeChar ':' cs
  let (second, cs) ← takeNumber 2 cs
  let (milli, cs) ← takeFraction cs
  let (offset, cs) ← takeOffset cs
  let date : CivilDate :=
    { year := (year : Int), month := month, day := day }
  if cs = [] ∧ date.Valid ∧ hour ≤ 23 ∧ minute ≤ 59
      ∧ second ≤ 60 then
    let clock : Int :=
      ((hour * 3600 + minute * 60 + second) * 1000 + milli : Nat)
    some (date.toDay * dayMs + clock - offset * minuteMs)
  else
    none

/- The instant denoted by a text. -/
def parse? (text : String) : Option Int :=
  parseChars? text.toList

/- The message for a text that denotes no instant. -/
def parseMessage (text : String) : String :=
  s!"Failed to parse ISO 8601 string '{text}'"

end Iso8601

end TradeTape
