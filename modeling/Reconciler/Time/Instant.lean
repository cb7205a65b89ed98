import Reconciler.Time.Calendar
import Reconciler.Time.Duration

/-
  This file defines instants: points of the UTC time line,
  exact to the nanosecond, from the first moment of the
  year -262143 to the last of the year 262142.

  The last second of a minute may last for two seconds: the
  second one of them is a leap second.

  The text of an instant is the RFC 3339 form in UTC; a
  year outside 0 to 9999 carries a sign.

  Key definitions include:
    * `Instant`
    * `Instant.after?`
    * `Instant.difference`
    * `Instant.delayUntil`
    * `Instant.text`
    * `Instant.parse?`
-/

------------------------------------------------------------
-- Instants
------------------------------------------------------------

namespace Reconciler

/-
  A point of time: the seconds since 1970-01-01, leap
  seconds not counted, and the nanoseconds since the start
  of that second.
-/
structure Instant where
  second : Int
  nanos : Nat
  earliest : -8334601228800 ≤ second
  latest : second < 8210266876800
  bounded : nanos < 2_000_000_000
  regular : nanos < 1_000_000_000 ∨ second % 60 = 59
deriving DecidableEq

namespace Instant

/- The instant with the given parts, if there is one. -/
def ofParts?
    (second : Int)
    (nanos : Nat) : Option Instant :=
  if h : -8334601228800 ≤ second ∧
      second < 8210266876800 ∧ nanos < 2_000_000_000 ∧
      (nanos < 1_000_000_000 ∨ second % 60 = 59) then
    some ⟨second, nanos, h.1, h.2.1, h.2.2.1, h.2.2.2⟩
  else
    none

/- The start of 1970. -/
def epoch : Instant :=
  ⟨0, 0, by decide, by decide, by decide,
    Or.inl (by decide)⟩

instance : Inhabited Instant :=
  ⟨epoch⟩

instance : Repr Instant where
  reprPrec t n := reprPrec (t.second, t.nanos) n

/- Whether an instant is inside a leap second. -/
def isLeap
    (t : Instant) : Bool :=
  1_000_000_000 ≤ t.nanos

/- The place in the order of time. -/
def rank
    (t : Instant) : Int :=
  t.second * 2_000_000_000 + t.nanos

instance : LE Instant :=
  ⟨fun a b => a.rank ≤ b.rank⟩

instance : LT Instant :=
  ⟨fun a b => a.rank < b.rank⟩

instance
    (a b : Instant) :
    Decidable (a ≤ b) :=
  inferInstanceAs (Decidable (a.rank ≤ b.rank))

instance
    (a b : Instant) :
    Decidable (a < b) :=
  inferInstanceAs (Decidable (a.rank < b.rank))

@[ext]
theorem ext
    {a b : Instant}
    (hSecond : a.second = b.second)
    (hNanos : a.nanos = b.nanos) : a = b := by
  cases a
  cases b
  simp_all

------------------------------------------------------------
-- Arithmetic
------------------------------------------------------------

/-
  The instant a delay later, if there is one.  A delay that
  does not leave a leap second stays inside it; any other
  counts from the second that the leap second extends.
-/
def after?
    (t : Instant)
    (d : Duration) : Option Instant :=
  if t.isLeap ∧ t.nanos + d.nanos < 2_000_000_000 then
    ofParts? t.second (t.nanos + d.nanos)
  else
    let n := t.nanos % 1_000_000_000 + d.nanos
    ofParts? (t.second + (n / 1_000_000_000 : Nat))
      (n % 1_000_000_000)

/- The seconds since midnight. -/
def timeOfDay
    (t : Instant) : Int :=
  t.second % 86400

/-
  The nanoseconds that a leap second adds to a difference:
  it counts if its time of day is the earlier of the two.
-/
def leapNanos
    (now target : Instant) : Int :=
  if now.isLeap ∧ now.timeOfDay < target.timeOfDay then
    1_000_000_000
  else if target.isLeap ∧
      target.timeOfDay < now.timeOfDay then
    -1_000_000_000
  else
    0

/- The nanoseconds from one instant to another. -/
def difference
    (now target : Instant) : Int :=
  (target.second - now.second) * 1_000_000_000 +
    (target.nanos - now.nanos) + leapNanos now target

/-
  The delay from one instant to a later one; an earlier one
  is no delay away.
-/
def delayUntil
    (now target : Instant) : Duration :=
  .ofNanos (difference now target).toNat

------------------------------------------------------------
-- Writing
------------------------------------------------------------

/- The digits of a year, with a sign beyond four digits. -/
def yearDigits
    (year : Int) : List Char :=
  let ds := Duration.padded 4 year.natAbs
  if year < 0 then '-' :: ds
  else if 9999 < year then '+' :: ds
  else ds

/-
  The fraction of a second in as few groups of three digits
  as hold it exactly.
-/
def fractionDigits
    (nanos : Nat) : List Char :=
  if nanos = 0 then
    []
  else if nanos % 1_000_000 = 0 then
    '.' :: Duration.padded 3 (nanos / 1_000_000)
  else if nanos % 1000 = 0 then
    '.' :: Duration.padded 6 (nanos / 1000)
  else
    '.' :: Duration.padded 9 nanos

/- The RFC 3339 text of an instant. -/
def text
    (t : Instant) : String :=
  let date := Calendar.Date.ofDayNumber (t.second / 86400)
  let second := t.timeOfDay.toNat
  let shown := second % 60 + (if t.isLeap then 1 else 0)
  String.ofList
    (yearDigits date.year ++
      '-' :: Duration.padded 2 date.month ++
      '-' :: Duration.padded 2 date.day ++
      'T' :: Duration.padded 2 (second / 3600) ++
      ':' :: Duration.padded 2 (second / 60 % 60) ++
      ':' :: Duration.padded 2 shown ++
      fractionDigits (t.nanos % 1_000_000_000) ++ ['Z'])

------------------------------------------------------------
-- Reading
------------------------------------------------------------

namespace Reader

/- The number of a list of digits. -/
def number?
    (ds : List Char) : Option Nat :=
  if ds ≠ [] ∧ ds.all Char.isDigit then
    some (ds.foldl
      (fun n d => n * 10 + (d.toNat - 48)) 0)
  else
    none

/- A number with exactly the given count of digits. -/
def fixed?
    (width : Nat)
    (cs : List Char) : Option (Nat × List Char) :=
  if (cs.take width).length = width then
    (number? (cs.take width)).map
      (fun n => (n, cs.drop width))
  else
    none

/- One of the given characters. -/
def oneOf?
    (expected : List Char) :
    List Char → Option (List Char)
  | c :: rest => if c ∈ expected then some rest else none
  | [] => none

/- A signed run of digits. -/
def signedYear?
    (sign : Int)
    (cs : List Char) : Option (Int × List Char) :=
  (number? (cs.takeWhile Char.isDigit)).map
    (fun n => (sign * n, cs.dropWhile Char.isDigit))

/- A year: four digits, or a sign and any digits. -/
def year? : List Char → Option (Int × List Char)
  | '+' :: rest => signedYear? 1 rest
  | '-' :: rest => signedYear? (-1) rest
  | cs =>
      (fixed? 4 cs).map (fun r => ((r.1 : Int), r.2))

/- A fraction of a second in nanoseconds. -/
def fraction? : List Char → Option (Nat × List Char)
  | '.' :: rest =>
      let ds := rest.takeWhile Char.isDigit
      (number? ds).bind (fun _ =>
        (number? ((ds ++ List.replicate 9 '0').take 9)).map
          (fun n => (n, rest.dropWhile Char.isDigit)))
  | cs => some (0, cs)

/- The seconds that a zone is ahead of UTC. -/
def zone? : List Char → Option Int
  | ['Z'] => some 0
  | ['z'] => some 0
  | sign :: cs => do
      let _ ← oneOf? ['+', '-'] [sign]
      let (hours, cs) ← fixed? 2 cs
      let cs ← oneOf? [':'] cs
      let (minutes, cs) ← fixed? 2 cs
      if cs = [] ∧ hours < 24 ∧ minutes < 60 then
        let ahead : Int := hours * 3600 + minutes * 60
        some (if sign = '-' then -ahead else ahead)
      else
        none
  | [] => none

end Reader

/- The years of local dates. -/
def inYears
    (year : Int) : Bool :=
  -262143 ≤ year && year ≤ 262142

/-
  A second of a minute and its fraction; the second 60 is
  the leap second that extends the one before it.
-/
def secondOfMinute
    (second nanos : Nat) : Nat × Nat :=
  if second = 60 then (59, 1_000_000_000 + nanos)
  else (second, nanos)

open Reader in
/- The instant denoted by an RFC 3339 text. -/
def parse?
    (s : String) : Option Instant := do
  let (year, cs) ← year? s.toList
  let cs ← oneOf? ['-'] cs
  let (month, cs) ← fixed? 2 cs
  let cs ← oneOf? ['-'] cs
  let (day, cs) ← fixed? 2 cs
  let cs ← oneOf? ['T', 't', ' '] cs
  let (hour, cs) ← fixed? 2 cs
  let cs ← oneOf? [':'] cs
  let (minute, cs) ← fixed? 2 cs
  let cs ← oneOf? [':'] cs
  let (second, cs) ← fixed? 2 cs
  let (nanos, cs) ← fraction? cs
  let ahead ← zone? cs
  let date : Calendar.Date := ⟨year, month, day⟩
  if inYears year && date.valid && hour < 24 &&
      minute < 60 && second ≤ 60 then
    let (second, nanos) := secondOfMinute second nanos
    ofParts?
      (date.dayNumber * 86400 +
        (hour * 3600 + minute * 60 + second - ahead))
      nanos
  else
    none

------------------------------------------------------------
-- JSON
------------------------------------------------------------

/- An instant as text. -/
def toJson
    (t : Instant) : Json :=
  .str t.text

/- Read an instant from text. -/
def ofJson?
    (j : Json) : Option Instant :=
  j.asText?.bind parse?

end Instant

end Reconciler
