import LicenseStamp.Decimal.Shortest

/-! # Elapsed time

A duration in whole seconds and nanoseconds, and its texts in seconds.
-/

namespace LicenseStamp

/-- How long something took. -/
structure Duration where
  /-- Whole seconds -/
  seconds : Nat
  /-- Nanoseconds beyond them -/
  nanos : Nat
  deriving Repr, DecidableEq

namespace Duration

/-- A duration of seconds and nanoseconds, with whole seconds carried over. -/
def ofParts (seconds nanos : Nat) : Duration :=
  ⟨seconds + nanos / 1000000000, nanos % 1000000000⟩

/-- A duration in seconds: the whole seconds and the fraction are rounded before they are
    added. -/
def toDyadic (elapsed : Duration) : Dyadic :=
  (Dyadic.nearest elapsed.seconds 1).add (Dyadic.nearest elapsed.nanos 1000000000)

/-- The seconds with two places, a half going to the even neighbour. -/
def rounded (elapsed : Duration) : Text :=
  let x := elapsed.toDyadic
  let hundredths := roundDiv (x.num * 100) x.den
  Text.ofNat (hundredths / 100)
    ++ ['.', Nat.digitChar (hundredths / 10 % 10), Nat.digitChar (hundredths % 10)]

/-- The whole milliseconds. -/
def millis (elapsed : Duration) : Nat := elapsed.seconds * 1000 + elapsed.nanos / 1000000

end Duration

end LicenseStamp
