import Reconciler.Text.Hidden

/-
  This file defines quoted text as messages show it: double
  quotes around the text, short escapes for the usual
  controls, quotes and backslashes, and the code point in
  braces for every hidden character.

  Key definitions include:
    * `Text.escape`
    * `Text.quoted`
    * `Text.quotedOption`
-/

------------------------------------------------------------
-- Quoted Text
------------------------------------------------------------

namespace Reconciler

namespace Text

/- A code point in lower-case hexadecimal digits. -/
def codePoint
    (c : Char) : String :=
  String.ofList (Nat.toDigits 16 c.toNat)

/- A character inside quotes. -/
def escape
    (c : Char) : String :=
  if c = '\x00' then "\\0"
  else if c = '\t' then "\\t"
  else if c = '\r' then "\\r"
  else if c = '\n' then "\\n"
  else if c = '\\' then "\\\\"
  else if c = '"' then "\\\""
  else if isHidden c then
    "\\u\x7b" ++ codePoint c ++ "\x7d"
  else
    c.toString

/- A text in quotes. -/
def quoted
    (s : String) : String :=
  "\"" ++ String.join (s.toList.map escape) ++ "\""

/- A text that may be missing. -/
def quotedOption : Option String → String
  | none => "None"
  | some s => "Some(" ++ quoted s ++ ")"

end Text

end Reconciler
