/-
  This file defines blank characters: the code points with
  the Unicode property White_Space.

  Key definitions include:
    * `Text.isBlankChar`
    * `Text.isBlank`
-/

------------------------------------------------------------
-- Blank Text
------------------------------------------------------------

namespace Reconciler

namespace Text

/- The ranges of the property White_Space. -/
def blankRanges : List (Nat × Nat) :=
  [(0x9, 0xd), (0x20, 0x20), (0x85, 0x85), (0xa0, 0xa0),
    (0x1680, 0x1680), (0x2000, 0x200a), (0x2028, 0x2029),
    (0x202f, 0x202f), (0x205f, 0x205f), (0x3000, 0x3000)]

/- Whether a character is white space. -/
def isBlankChar
    (c : Char) : Bool :=
  blankRanges.any
    (fun r => r.1 ≤ c.toNat && c.toNat ≤ r.2)

/- Whether a text holds nothing but white space. -/
def isBlank
    (s : String) : Bool :=
  s.toList.all isBlankChar

/- Whether a text holds some white space. -/
def hasBlank
    (s : String) : Bool :=
  s.toList.any isBlankChar

end Text

end Reconciler
