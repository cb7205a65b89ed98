import Reconciler.Json.Basic

/-
  This file reads JSON text.

  Integers within the signed or unsigned 64-bit range are
  integers; every other numeral, the negative zero
  included, is a real.  Of two members with one key the
  later one counts.  Values nested deeper than
  `Json.maxDepth` are refused.

  Key definitions include:
    * `Json.Reader.value`
    * `Json.parse?`
-/

------------------------------------------------------------
-- Reading JSON
------------------------------------------------------------

namespace Reconciler

namespace Json

/- Arrays and objects nest at most this deep. -/
def maxDepth : Nat :=
  127

namespace Reader

------------------------------------------------------------
-- Blanks and Literals
------------------------------------------------------------

/- A blank of JSON text. -/
def isBlank
    (c : Char) : Bool :=
  c = ' ' || c = '\t' || c = '\n' || c = '\r'

/- Skip blanks. -/
def skipBlanks
    (cs : List Char) : List Char :=
  cs.dropWhile isBlank

/- Read the given characters. -/
def literal :
    List Char → List Char → Option (List Char)
  | [], cs => some cs
  | _ :: _, [] => none
  | l :: ls, c :: cs =>
      if l = c then literal ls cs else none

------------------------------------------------------------
-- Texts
------------------------------------------------------------

/- The value of a hexadecimal digit. -/
def hexValue?
    (c : Char) : Option Nat :=
  if '0' ≤ c ∧ c ≤ '9' then some (c.toNat - 48)
  else if 'a' ≤ c ∧ c ≤ 'f' then some (c.toNat - 87)
  else if 'A' ≤ c ∧ c ≤ 'F' then some (c.toNat - 55)
  else none

/- Four hexadecimal digits. -/
def codeUnit :
    List Char → Option (Nat × List Char)
  | a :: b :: c :: d :: rest => do
      let a ← hexValue? a
      let b ← hexValue? b
      let c ← hexValue? c
      let d ← hexValue? d
      return (((a * 16 + b) * 16 + c) * 16 + d, rest)
  | _ => none

/-
  The character of an escaped code unit; a high surrogate
  needs an escaped low one right after it.
-/
def escapedChar
    (cs : List Char) :
    Option (Char × List Char) := do
  let (unit, rest) ← codeUnit cs
  if 0xD800 ≤ unit ∧ unit < 0xDC00 then
    let rest ← literal ['\\', 'u'] rest
    let (low, rest) ← codeUnit rest
    if 0xDC00 ≤ low ∧ low < 0xE000 then
      return (Char.ofNat
        (0x10000 + (unit - 0xD800) * 0x400
          + (low - 0xDC00)), rest)
    else
      none
  else if 0xDC00 ≤ unit ∧ unit < 0xE000 then
    none
  else
    return (Char.ofNat unit, rest)

/- The character of a one-letter escape. -/
def shortEscape? : Char → Option Char
  | '"' => some '"'
  | '\\' => some '\\'
  | '/' => some '/'
  | 'b' => some '\x08'
  | 'f' => some '\x0c'
  | 'n' => some '\n'
  | 'r' => some '\r'
  | 't' => some '\t'
  | _ => none

/- The rest of a text, after its opening quote. -/
def chars :
    Nat → List Char → List Char →
      Option (String × List Char)
  | 0, _, _ => none
  | fuel + 1, cs, acc =>
      match cs with
      | [] => none
      | '"' :: rest => some (String.ofList acc.reverse, rest)
      | '\\' :: 'u' :: rest => do
          let (c, rest) ← escapedChar rest
          chars fuel rest (c :: acc)
      | '\\' :: e :: rest => do
          let c ← shortEscape? e
          chars fuel rest (c :: acc)
      | c :: rest =>
          if c.toNat < 32 || c = '\\' then none
          else chars fuel rest (c :: acc)

------------------------------------------------------------
-- Numerals
------------------------------------------------------------

/- A run of decimal digits. -/
def digits
    (cs : List Char) : List Char × List Char :=
  (cs.takeWhile Char.isDigit, cs.dropWhile Char.isDigit)

/- The values of decimal digits. -/
def values
    (ds : List Char) : List Nat :=
  ds.map (fun d => d.toNat - 48)

/- The number of a run of decimal digits. -/
def numberOf
    (ds : List Char) : Nat :=
  (values ds).foldl (fun n d => n * 10 + d) 0

/- The digits before the fraction: no leading zeros. -/
def wholePart
    (cs : List Char) :
    Option (List Char × List Char) :=
  match cs with
  | '0' :: rest => some (['0'], rest)
  | _ =>
      match digits cs with
      | ([], _) => none
      | (ds, rest) => some (ds, rest)

/- The digits of a fraction, if there is one. -/
def fraction
    (cs : List Char) :
    Option (List Char × List Char) :=
  match cs with
  | '.' :: rest =>
      match digits rest with
      | ([], _) => none
      | (ds, rest) => some (ds, rest)
  | _ => some ([], cs)

/- The exponent of a numeral, if there is one. -/
def exponent
    (cs : List Char) :
    Option (Option Int × List Char) :=
  match cs with
  | c :: rest =>
      if c = 'e' || c = 'E' then
        let (negative, rest) :=
          match rest with
          | '-' :: rest => (true, rest)
          | '+' :: rest => (false, rest)
          | _ => (false, rest)
        match digits rest with
        | ([], _) => none
        | (ds, rest) =>
            let n : Int := numberOf ds
            some (some (if negative then -n else n), rest)
      else
        some (none, cs)
  | [] => some (none, [])

/-
  The value of a numeral without fraction and exponent: an
  integer, unless it is too large or the negative zero.
-/
def integer?
    (negative : Bool)
    (ds : List Char) : Option Json :=
  let n := numberOf ds
  if negative && (n = 0 || 0x8000000000000000 < n)
      || !negative && 0x10000000000000000 ≤ n then
    (Decimal.ofNumeral? negative (values ds) [] 0).map .real
  else
    some (.int (if negative then -n else n))

/- A numeral. -/
def numeral
    (cs : List Char) :
    Option (Json × List Char) := do
  let (negative, cs) :=
    match cs with
    | '-' :: rest => (true, rest)
    | _ => (false, cs)
  let (whole, cs) ← wholePart cs
  let (part, cs) ← fraction cs
  let (power?, cs) ← exponent cs
  if part.isEmpty && power?.isNone then
    let j ← integer? negative whole
    return (j, cs)
  else
    let d ← Decimal.ofNumeral? negative
      (values whole) (values part) (power?.getD 0)
    return (.real d, cs)

------------------------------------------------------------
-- Values
------------------------------------------------------------

mutual

/- A value, with the depth that is left for nesting. -/
def value :
    Nat → Nat → List Char →
      Option (Json × List Char)
  | 0, _, _ => none
  | fuel + 1, depth, cs =>
      match skipBlanks cs with
      | '"' :: rest =>
          (chars (rest.length + 1) rest []).map
            (fun r => (.str r.1, r.2))
      | '[' :: rest =>
          match depth with
          | 0 => none
          | depth + 1 =>
              match skipBlanks rest with
              | ']' :: rest => some (.arr [], rest)
              | rest => items fuel depth rest []
      | '\x7b' :: rest =>
          match depth with
          | 0 => none
          | depth + 1 =>
              match skipBlanks rest with
              | '\x7d' :: rest => some (.obj [], rest)
              | rest => members fuel depth rest []
      | 'n' :: rest =>
          (literal ['u', 'l', 'l'] rest).map
            (fun r => (.null, r))
      | 't' :: rest =>
          (literal ['r', 'u', 'e'] rest).map
            (fun r => (.bool true, r))
      | 'f' :: rest =>
          (literal ['a', 'l', 's', 'e'] rest).map
            (fun r => (.bool false, r))
      | cs => numeral cs

/- The items of an array, after its opening bracket. -/
def items :
    Nat → Nat → List Char → List Json →
      Option (Json × List Char)
  | 0, _, _, _ => none
  | fuel + 1, depth, cs, acc => do
      let (item, rest) ← value fuel depth cs
      match skipBlanks rest with
      | ',' :: rest => items fuel depth rest (item :: acc)
      | ']' :: rest =>
          some (.arr (item :: acc).reverse, rest)
      | _ => none

/- The members of an object, after its opening brace. -/
def members :
    Nat → Nat → List Char → Table String Json →
      Option (Json × List Char)
  | 0, _, _, _ => none
  | fuel + 1, depth, cs, acc => do
      let rest ← literal ['"'] (skipBlanks cs)
      let (key, rest) ← chars (rest.length + 1) rest []
      let rest ← literal [':'] (skipBlanks rest)
      let (v, rest) ← value fuel depth rest
      let acc := Table.put key v acc
      match skipBlanks rest with
      | ',' :: rest => members fuel depth rest acc
      | '\x7d' :: rest => some (.obj acc, rest)
      | _ => none

end

end Reader

/- The value denoted by a text. -/
def parse?
    (s : String) : Option Json :=
  let cs := s.toList
  match Reader.value (2 * cs.length + 2) maxDepth cs with
  | some (j, rest) =>
      if (Reader.skipBlanks rest).isEmpty then
        some j
      else
        none
  | none => none

end Json

end Reconciler
