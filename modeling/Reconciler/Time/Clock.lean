import Reconciler.Time.Instant

/-
  This file defines the wall clock.  A clock counts the
  nanoseconds since 1970, leap seconds not counted.  It can
  only be read while it shows an instant of 1970 or later.

  Key definitions include:
    * `Clock`
    * `Clock.read`
    * `ClockFault.message`
-/

------------------------------------------------------------
-- Wall Clocks
------------------------------------------------------------

namespace Reconciler

/- What a wall clock shows. -/
structure Clock where
  nanos : Int
deriving DecidableEq, Repr, Inhabited

/- Why a wall clock cannot be read. -/
inductive ClockFault where
  | beforeEpoch (missing : Duration)
  | outOfRange
deriving DecidableEq

/- What is said of a clock that cannot be read. -/
def ClockFault.message : ClockFault → String
  | .beforeEpoch missing =>
      "system time before Unix epoch: SystemTimeError("
        ++ missing.text ++ ")"
  | .outOfRange =>
      "called `Option::unwrap()` on a `None` value"

namespace Clock

/- The clock at an instant. -/
def ofInstant
    (t : Instant) : Clock :=
  ⟨t.second * 1_000_000_000 + t.nanos⟩

/- Let time pass. -/
def advance
    (d : Duration)
    (c : Clock) : Clock :=
  ⟨c.nanos + d.nanos⟩

/- The instant that a clock shows. -/
def read
    (c : Clock) : Except ClockFault Instant :=
  if c.nanos < 0 then
    .error (.beforeEpoch (.ofNanos c.nanos.natAbs))
  else
    match Instant.ofParts? (c.nanos / 1_000_000_000)
        (c.nanos % 1_000_000_000).toNat with
    | some t => .ok t
    | none => .error .outOfRange

end Clock

end Reconciler
