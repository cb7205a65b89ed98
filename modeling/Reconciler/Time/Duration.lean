import Reconciler.Json.Basic

/-
  This file defines durations: whole nanoseconds, less than
  2 ^ 64 seconds.

  Key definitions include:
    * `Duration`
    * `Duration.ofSeconds`
    * `Duration.times?`
    * `Duration.shorter`
    * `Duration.text`
-/

------------------------------------------------------------
-- Durations
------------------------------------------------------------

namespace Reconciler

/- A span of time that is not negative. -/
structure Duration where
  nanos : Nat
  bounded : nanos < 0x10000000000000000 * 1_000_000_000
deriving DecidableEq

namespace Duration

/- The longest duration in nanoseconds. -/
def maxNanos : Nat :=
  0x10000000000000000 * 1_000_000_000 - 1

/- The given nanoseconds, or the longest duration. -/
def ofNanos
    (n : Nat) : Duration :=
  ⟨min n maxNanos, by unfold maxNanos; omega⟩

/- The given seconds, or the longest duration. -/
def ofSeconds
    (n : Nat) : Duration :=
  ofNanos (n * 1_000_000_000)

/- No time at all. -/
def zero : Duration :=
  ⟨0, by decide⟩

instance : Inhabited Duration :=
  ⟨zero⟩

instance : Repr Duration where
  reprPrec d n := reprPrec d.nanos n

/- Whether a duration is empty. -/
def isZero
    (d : Duration) : Bool :=
  d.nanos = 0

/- The whole seconds. -/
def seconds
    (d : Duration) : Nat :=
  d.nanos / 1_000_000_000

/- The nanoseconds past the whole seconds. -/
def subNanos
    (d : Duration) : Nat :=
  d.nanos % 1_000_000_000

instance : LE Duration :=
  ⟨fun a b => a.nanos ≤ b.nanos⟩

instance : LT Duration :=
  ⟨fun a b => a.nanos < b.nanos⟩

instance
    (a b : Duration) :
    Decidable (a ≤ b) :=
  inferInstanceAs (Decidable (a.nanos ≤ b.nanos))

instance
    (a b : Duration) :
    Decidable (a < b) :=
  inferInstanceAs (Decidable (a.nanos < b.nanos))

/- The shorter of two durations. -/
def shorter
    (a b : Duration) : Duration :=
  if a ≤ b then a else b

/- A multiple, if it is still a duration. -/
def times?
    (d : Duration)
    (n : Nat) : Option Duration :=
  if h : d.nanos * n < 0x10000000000000000 * 1_000_000_000 then
    some ⟨d.nanos * n, h⟩
  else
    none

/-
  The shorter of two delays where an empty one asks for
  nothing: empty only if both are.
-/
def soonest
    (current candidate : Duration) : Duration :=
  if candidate.isZero then current
  else if current.isZero then candidate
  else shorter current candidate

@[ext]
theorem ext
    {a b : Duration}
    (h : a.nanos = b.nanos) : a = b := by
  cases a
  cases b
  simp_all

@[simp]
theorem nanos_shorter
    (a b : Duration) :
    (shorter a b).nanos = min a.nanos b.nanos := by
  unfold shorter
  split
  · next h =>
      exact (Nat.min_eq_left h).symm
  · next h =>
      exact (Nat.min_eq_right
        (Nat.le_of_lt (Nat.lt_of_not_le h))).symm

------------------------------------------------------------
-- Text
------------------------------------------------------------

/- Decimal digits, filled up with zeros on the left. -/
def padded
    (width n : Nat) : List Char :=
  let ds := Nat.toDigits 10 n
  List.replicate (width - ds.length) '0' ++ ds

/- Drop the zeros at the end. -/
def dropTrailingZeros
    (ds : List Char) : List Char :=
  (ds.reverse.dropWhile (· = '0')).reverse

/-
  A count of units and a part of one unit in the given
  number of places; trailing zeros are not written.
-/
def decimalText
    (whole part places : Nat) : String :=
  let ds := dropTrailingZeros (padded places part)
  let whole := Nat.toDigits 10 whole
  if part = 0 then
    String.ofList whole
  else
    String.ofList (whole ++ '.' :: ds)

/-
  The text of a duration in the largest unit of which it
  holds at least one: seconds, milliseconds, microseconds
  or nanoseconds.
-/
def text
    (d : Duration) : String :=
  if 1_000_000_000 ≤ d.nanos then
    decimalText d.seconds d.subNanos 9 ++ "s"
  else if 1_000_000 ≤ d.nanos then
    decimalText (d.nanos / 1_000_000) (d.nanos % 1_000_000) 6
      ++ "ms"
  else if 1000 ≤ d.nanos then
    decimalText (d.nanos / 1000) (d.nanos % 1000) 3
      ++ "µs"
  else
    decimalText d.nanos 0 0 ++ "ns"

------------------------------------------------------------
-- JSON
------------------------------------------------------------

/- A duration as a pair of seconds and nanoseconds. -/
def toJson
    (d : Duration) : Json :=
  .arr [.int d.seconds, .int d.subNanos]

/- Read a pair of seconds and nanoseconds. -/
def ofJson? : Json → Option Duration
  | .arr [seconds, nanos] => do
      let seconds ← seconds.asIntIn? 0 0x10000000000000000
      let nanos ← nanos.asIntIn? 0 1_000_000_000
      return ofNanos
        (seconds.toNat * 1_000_000_000 + nanos.toNat)
  | _ => none

end Duration

end Reconciler
