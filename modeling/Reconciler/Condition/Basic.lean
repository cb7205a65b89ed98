import Reconciler.Time.Instant

/-
  This file defines conditions, the typed entries of a
  status, and the updates of a list of them.

  Key definitions include:
    * `Condition`
    * `Condition.update`
    * `Conditions.find?`
    * `Conditions.set`
    * `Conditions.remove`
-/

------------------------------------------------------------
-- Conditions
------------------------------------------------------------

namespace Reconciler

/- The three truth values of a condition. -/
inductive ConditionStatus where
  | yes
  | no
  | unknown
deriving DecidableEq, Repr

namespace ConditionStatus

/- The name of a truth value. -/
def text : ConditionStatus → String
  | .yes => "True"
  | .no => "False"
  | .unknown => "Unknown"

/- Read the name of a truth value. -/
def ofText? : String → Option ConditionStatus
  | "True" => some .yes
  | "False" => some .no
  | "Unknown" => some .unknown
  | _ => none

end ConditionStatus

/- One entry of a list of conditions. -/
structure Condition where
  type : String
  status : ConditionStatus
  reason : String
  message : String
  lastTransition : Instant
  observedGeneration : Int64
deriving DecidableEq, Repr

namespace Condition

/-
  What a condition becomes when a new one of its type is
  set: the transition time follows changes of the status
  only.
-/
def update
    (old new : Condition) : Condition :=
  { new with
    type := old.type
    lastTransition :=
      if old.status = new.status then old.lastTransition
      else new.lastTransition }

/-
  Whether a new condition of the same type changes an old
  one; its transition time alone does not.
-/
def differs
    (old new : Condition) : Bool :=
  old.status != new.status || old.reason != new.reason ||
    old.message != new.message ||
    old.observedGeneration != new.observedGeneration

/- A condition as an object. -/
def toJson
    (c : Condition) : Json :=
  .record
    [("lastTransitionTime", some c.lastTransition.toJson),
      ("message", some (.str c.message)),
      ("observedGeneration",
        some (.int c.observedGeneration.toInt)),
      ("reason", some (.str c.reason)),
      ("status", some (.str c.status.text)),
      ("type", some (.str c.type))]

/-
  Read a truth value from its name, or from an object whose
  only member has that name and is null.
-/
def statusOfJson? : Json → Option ConditionStatus
  | .str name => ConditionStatus.ofText? name
  | .obj [(name, .null)] => ConditionStatus.ofText? name
  | _ => none

/-
  Read a condition from an object; only the observed
  generation may be missing.
-/
def ofJson?
    (j : Json) : Option Condition := do
  let t ← j.members?
  let type ← Json.required? Json.asText? "type" t
  let status ← Json.required? statusOfJson? "status" t
  let reason ← Json.required? Json.asText? "reason" t
  let message ← Json.required? Json.asText? "message" t
  let time ←
    Json.required? Instant.ofJson? "lastTransitionTime" t
  let generation ←
    Json.defaulted? Json.asInt64? 0 "observedGeneration" t
  return ⟨type, status, reason, message, time, generation⟩

end Condition

------------------------------------------------------------
-- Lists of Conditions
------------------------------------------------------------

namespace Conditions

/- The first condition of a type. -/
def find?
    (type : String)
    (cs : List Condition) : Option Condition :=
  cs.find? (fun c => c.type == type)

/- Whether the first condition of a type is true. -/
def isTrue
    (type : String)
    (cs : List Condition) : Bool :=
  match find? type cs with
  | some c => c.status == .yes
  | none => false

/-
  Set a condition: the first one of its type is updated in
  place, and a new type is appended.
-/
def set
    (new : Condition) :
    List Condition → List Condition
  | [] => [new]
  | c :: rest =>
      if c.type = new.type then
        c.update new :: rest
      else
        c :: set new rest

/- Whether setting a condition changes the list. -/
def setChanges
    (new : Condition)
    (cs : List Condition) : Bool :=
  match find? new.type cs with
  | none => true
  | some old => old.differs new

/- Drop every condition of a type. -/
def remove
    (type : String)
    (cs : List Condition) : List Condition :=
  cs.filter (fun c => c.type != type)

/- Whether removing a type changes the list. -/
def removeChanges
    (type : String)
    (cs : List Condition) : Bool :=
  (remove type cs).length != cs.length

/- The types with their truth values, in list order. -/
def statuses
    (cs : List Condition) : List String :=
  cs.map (fun c => c.type ++ "=" ++ c.status.text)

end Conditions

end Reconciler
