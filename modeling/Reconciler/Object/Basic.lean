import Reconciler.Object.Metadata
import Reconciler.Condition.Basic

/-
  This file defines managed objects: metadata, a status and
  the status capabilities that the engine may rely on.

  The JSON form of an object leaves out the budget of its
  status; `Object.toFullJson` keeps it, as a member of its
  own.

  Key definitions include:
    * `Capability`
    * `Kind`
    * `Status`
    * `Object`
    * `Object.toJson`
    * `Object.ofJson?`
-/

------------------------------------------------------------
-- Kinds and Capabilities
------------------------------------------------------------

namespace Reconciler

/- What a status can hold for the engine. -/
inductive Capability where
  | conditions
  | spread
  | rateLimit
deriving DecidableEq, Repr

namespace Capability

/- The name of a capability in lists of them. -/
def text : Capability → String
  | .conditions => "conditions"
  | .spread => "spread"
  | .rateLimit => "rate_limit"

/- The name of the capability's contract. -/
def contract : Capability → String
  | .conditions => "ConditionsHolder"
  | .spread => "SpreadStatusHolder"
  | .rateLimit => "RateLimitStatusHolder"

/- Read the name of a capability. -/
def ofText? : String → Option Capability
  | "conditions" => some .conditions
  | "spread" => some .spread
  | "rate_limit" => some .rateLimit
  | _ => none

/- Read a capability from its name. -/
def ofJson?
    (j : Json) : Option Capability :=
  j.asText?.bind ofText?

end Capability

/-
  The kinds of objects: with every capability, with none,
  and with the capabilities that the object itself lists.
-/
inductive Kind where
  | full
  | plain
  | listed (capabilities : List Capability)
deriving DecidableEq, Repr

namespace Kind

/- The name of a kind in messages and tags. -/
def text : Kind → String
  | .full => "TestObject"
  | .plain => "PlainObject"
  | .listed _ => "FlexObject"

/- The capabilities of a kind. -/
def capabilities : Kind → List Capability
  | .full => [.conditions, .spread, .rateLimit]
  | .plain => []
  | .listed cs => cs

end Kind

------------------------------------------------------------
-- Status
------------------------------------------------------------

/-
  The status of an object.  The payload is free text that
  belongs to the steps.
-/
structure Status where
  payload : String := ""
  observedGeneration : Int64 := 0
  nextReconcile : Option Instant := none
  lastReconcile : Option Instant := none
  budget : Option Duration := none
  conditions : List Condition := []
deriving DecidableEq, Repr

namespace Status

/- A status as an object, without its budget. -/
def toJson
    (s : Status) : Json :=
  .record
    [("conditions",
        some (.arr (s.conditions.map Condition.toJson))),
      ("lastReconcileTime",
        s.lastReconcile.map Instant.toJson),
      ("nextReconcileTime",
        s.nextReconcile.map Instant.toJson),
      ("observedGeneration",
        some (.int s.observedGeneration.toInt)),
      ("some", some (.str s.payload))]

/- Read a status from an object; every member may be missing. -/
def ofJson?
    (j : Json) : Option Status := do
  let t ← j.members?
  let payload ←
    Json.defaulted? Json.asText? "" "some" t
  let generation ←
    Json.defaulted? Json.asInt64? 0 "observedGeneration" t
  let next ←
    Json.optional? Instant.ofJson? "nextReconcileTime" t
  let last ←
    Json.optional? Instant.ofJson? "lastReconcileTime" t
  let conditions ←
    Json.defaulted? (Json.asList? Condition.ofJson?) []
      "conditions" t
  return ⟨payload, generation, next, last, none, conditions⟩

/- The status of a plain object as an object. -/
def toPlainJson
    (s : Status) : Json :=
  .record [("some", some (.str s.payload))]

/- Read the status of a plain object. -/
def ofPlainJson?
    (j : Json) : Option Status := do
  let t ← j.members?
  let payload ←
    Json.defaulted? Json.asText? "" "some" t
  return { payload := payload }

end Status

------------------------------------------------------------
-- Objects
------------------------------------------------------------

/- A managed object. -/
structure Object where
  kind : Kind
  metadata : Metadata
  status : Status
deriving DecidableEq, Repr

namespace Object

/- The identity of an object. -/
def key
    (o : Object) : Key :=
  o.metadata.key

/- Whether deletion has been requested. -/
def isDeleting
    (o : Object) : Bool :=
  o.metadata.isDeleting

/- Whether the engine may use a capability of the object. -/
def has
    (c : Capability)
    (o : Object) : Bool :=
  o.kind.capabilities.contains c

/- Change the metadata. -/
def mapMetadata
    (f : Metadata → Metadata)
    (o : Object) : Object :=
  { o with metadata := f o.metadata }

/- Change the status. -/
def mapStatus
    (f : Status → Status)
    (o : Object) : Object :=
  { o with status := f o.status }

/- Give the object a resource version. -/
def withVersion
    (version : Option String)
    (o : Object) : Object :=
  o.mapMetadata
    (fun m => { m with resourceVersion := version })

/- Give the object a list of finalizer tokens. -/
def withFinalizers
    (tokens : List String)
    (o : Object) : Object :=
  o.mapMetadata (fun m => { m with finalizers := tokens })

/- The same object without a budget. -/
def withoutBudget
    (o : Object) : Object :=
  o.mapStatus (fun s => { s with budget := none })

/-
  The generation that the status has observed, if it tracks
  one: by the spread capability, else by the rate-limit one.
-/
def observedGeneration?
    (o : Object) : Option Int64 :=
  if o.has .spread || o.has .rateLimit then
    some o.status.observedGeneration
  else
    none

------------------------------------------------------------
-- JSON
------------------------------------------------------------

/- An object in JSON, without its budget. -/
def toJson
    (o : Object) : Json :=
  match o.kind with
  | .full =>
      .record
        [("metadata", some o.metadata.toJson),
          ("status", some o.status.toJson)]
  | .plain =>
      .record
        [("metadata", some o.metadata.toJson),
          ("status", some o.status.toPlainJson)]
  | .listed cs =>
      .record
        [("caps", some (.texts (cs.map Capability.text))),
          ("metadata", some o.metadata.toJson),
          ("status", some o.status.toJson)]

/- Read an object of the same kind as a given one. -/
def ofJson?
    (like : Kind)
    (j : Json) : Option Object := do
  let t ← j.members?
  let metadata ←
    Json.required? Metadata.ofJson? "metadata" t
  match like with
  | .full =>
      let status ←
        Json.defaulted? Status.ofJson? {} "status" t
      return ⟨.full, metadata, status⟩
  | .plain =>
      let status ←
        Json.defaulted? Status.ofPlainJson? {} "status" t
      return ⟨.plain, metadata, status⟩
  | .listed _ =>
      let status ←
        Json.defaulted? Status.ofJson? {} "status" t
      let caps ←
        Json.defaulted? (Json.asList? Capability.ofJson?) []
          "caps" t
      return ⟨.listed caps, metadata, status⟩

/- An object in JSON, its budget included. -/
def toFullJson
    (o : Object) : Json :=
  match o.status.budget, o.toJson with
  | some budget, .obj members =>
      .obj (Table.put "budget" budget.toJson members)
  | _, j => j

/- Read an object together with its budget. -/
def ofFullJson?
    (like : Kind)
    (j : Json) : Option Object := do
  let o ← ofJson? like j
  match like with
  | .plain => return o
  | _ =>
      let budget ←
        Json.optional? Duration.ofJson? "budget" j.members
      return o.mapStatus (fun s => { s with budget := budget })

end Object

end Reconciler
