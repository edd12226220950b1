/-!
The time as a log sees it: a sequence of readings and the number of readings
taken so far. Nobody can look at the time without being counted.
-/

namespace ChipEight

/-- The readings, in seconds, and how many were taken. -/
structure Clock where
  reading : Nat → Float
  taken : Nat

namespace Clock

/-- A clock with the readings of a list; the last one is repeated for ever, and
an empty list stands still at zero. -/
def ofList (times : List Float) : Clock where
  reading n := (times[n]?).getD (times.getLast?.getD 0)
  taken := 0

def now (c : Clock) : Float := c.reading c.taken

def advance (c : Clock) : Clock := { c with taken := c.taken + 1 }

end Clock

end ChipEight
