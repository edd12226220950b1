/-!
How a host and its machine are set up, once and for all their time together.
-/

namespace ChipEight

/-- The seed of the random stream, whether timers count down with the
instructions, whether an unknown opcode is a fault, whether somebody listens
for tones, and whether single steps are traced in the log. -/
structure HostSetup where
  seed : Int := 0
  coupled : Bool := true
  strict : Bool := false
  listening : Bool := false
  trace : Bool := false
  deriving DecidableEq, Repr

end ChipEight
