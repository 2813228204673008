/-
  Timers: how long waits take.

  A timer wakes whoever waits for some milliseconds after just
  so many, up to the longest wait that it can count.  Who waits
  for longer is woken after that one.

  Key definitions include:
    * `Timer`
    * `Timer.waitMs`
-/

namespace TradeTape

/- What counts the milliseconds of waits. -/
structure Timer where
  longestMs : Nat
deriving DecidableEq, Repr

namespace Timer

/- How long a wait takes that is to take some milliseconds. -/
def waitMs
    (t : Timer)
    (ms : Nat) : Nat :=
  min ms t.longestMs

/-
  The timer that the program runs with.  It counts to thirty
  years of 365 days.
-/
def standard : Timer :=
  { longestMs := 946080000000 }

theorem waitMs_le (t : Timer) (ms : Nat) : t.waitMs ms ≤ ms :=
  Nat.min_le_left _ _

theorem waitMs_of_le
    {t : Timer}
    {ms : Nat}
    (hShort : ms ≤ t.longestMs) :
    t.waitMs ms = ms :=
  Nat.min_eq_left hShort

end Timer

end TradeTape
