import Reconciler.Json.Basic

/-
  This file writes JSON values as text, without blanks and
  with members in table order.

  Key definitions include:
    * `Json.quote`
    * `Json.text`
-/

------------------------------------------------------------
-- Writing JSON
------------------------------------------------------------

namespace Reconciler

namespace Json

/- A hexadecimal digit. -/
def hexDigit
    (n : Nat) : Char :=
  if n < 10 then Char.ofNat (48 + n)
  else Char.ofNat (87 + n)

/- A character inside a JSON text. -/
def quoteChar
    (c : Char) : String :=
  if c = '"' then "\\\""
  else if c = '\\' then "\\\\"
  else if c = '\n' then "\\n"
  else if c = '\r' then "\\r"
  else if c = '\t' then "\\t"
  else if c.toNat < 32 then
    String.ofList
      ['\\', 'u', '0', '0',
        hexDigit (c.toNat / 16), hexDigit (c.toNat % 16)]
  else
    c.toString

/- A text in quotes. -/
def quote
    (s : String) : String :=
  "\"" ++ String.join (s.toList.map quoteChar) ++ "\""

mutual

/- The text of a value. -/
def text : Json → String
  | .null => "null"
  | .bool b => if b then "true" else "false"
  | .int i => toString i
  | .real d => d.text
  | .str s => quote s
  | .arr items =>
      "[" ++ String.intercalate "," (itemTexts items) ++ "]"
  | .obj members =>
      "\x7b" ++
        String.intercalate "," (memberTexts members) ++
        "\x7d"
termination_by structural j => j

/- The texts of the items of an array. -/
def itemTexts : List Json → List String
  | [] => []
  | item :: items => text item :: itemTexts items
termination_by structural items => items

/- The texts of the members of an object. -/
def memberTexts : List (String × Json) → List String
  | [] => []
  | (k, v) :: rest =>
      (quote k ++ ":" ++ text v) :: memberTexts rest
termination_by structural members => members

end

end Json

end Reconciler
