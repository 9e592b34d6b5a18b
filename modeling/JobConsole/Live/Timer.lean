/-! # Keep-alive timer

A timer fires once per period, measured in seconds of a clock that never goes back. A tick that
comes on time is followed by the next one period after it was due; a late one is followed one period
after it fired. After a tick the next one is planned at most thirty years ahead.
-/

namespace JobConsole.Live

structure Timer where
  period : Nat
  /-- When the timer fires next. -/
  due : Nat
  deriving DecidableEq, Repr

namespace Timer

/-- What the clock showed at the start, at the least. -/
def minInstant : Nat := 24 * 60 * 60

/-- How many seconds after the start the clock can show. -/
def maxInstant : Nat := Nat.pow 2 63 - 1 - minInstant

/-- How far ahead a later tick is planned at most. -/
def horizon : Nat := 30 * 365 * 24 * 60 * 60

/-- A timer that first fires one period from now, unless the clock cannot show that moment. -/
def start? (now period : Nat) : Option Timer :=
  if now + period ≤ maxInstant then some ⟨period, now + period⟩ else none

/-- Starts the period anew. -/
def reset (t : Timer) (now : Nat) : Timer := { t with due := now + t.period }

/-- The timer after it has fired, if it is due. -/
def tick? (t : Timer) (now : Nat) : Option Timer :=
  if now < t.due then none else some { t with due := now + min t.period horizon }

end Timer

end JobConsole.Live
