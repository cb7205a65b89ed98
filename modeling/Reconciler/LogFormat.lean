/-
  This file defines the formats of log lines and the names
  by which they are chosen.

  Key definitions include:
    * `LogFormat`
    * `LogFormat.parse`
-/

------------------------------------------------------------
-- Log Formats
------------------------------------------------------------

namespace Reconciler

/- One JSON object a line, or one short line of text. -/
inductive LogFormat where
  | json
  | compact
deriving DecidableEq, Repr

namespace LogFormat

/- JSON, unless something else is asked for. -/
def standard : LogFormat :=
  .json

/- The name of a format. -/
def text : LogFormat → String
  | .json => "Json"
  | .compact => "Compact"

/- Lower the case of the ASCII letters of a text. -/
def lowered
    (s : String) : String :=
  String.ofList (s.toList.map Char.toLower)

/- Choose a format; the case of ASCII letters is ignored. -/
def parse
    (s : String) : Except String LogFormat :=
  match lowered s with
  | "json" => .ok .json
  | "compact" => .ok .compact
  | "text" => .ok .compact
  | other => .error ("unknown log format: " ++ other)

end LogFormat

end Reconciler
