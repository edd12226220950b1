/-!
The settings of the program that take a value. A setting may be left blank, so
that it has no value at all, not even the one it has where nothing is said. The
program starts all the same and fails where it first needs the setting.
-/

namespace ChipEight

/-- The settings by what they choose: the size of a pixel, the instructions of
a turn, the colours, the seed of the random stream, the threshold of the log
and the number of steps without a window. -/
inductive Setting where
  | scale | ipf | colors | seed | logLevel | headless
  deriving DecidableEq, Repr

end ChipEight
