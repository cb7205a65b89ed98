import Reconciler.Object.Key
import Reconciler.Time.Instant

/-
  This file defines object metadata: identity, generation,
  resource version, deletion time, finalizer tokens and
  labels.

  Key definitions include:
    * `Metadata`
    * `Metadata.key`
    * `Metadata.isDeleting`
    * `Metadata.addFinalizer`
    * `Metadata.removeFinalizer`
    * `refreshLabel`
-/

------------------------------------------------------------
-- Metadata
------------------------------------------------------------

namespace Reconciler

/- The label that asks for a reconcile out of turn. -/
def refreshLabel : String :=
  "platform-mesh.io/refresh-reconcile"

/-
  What the engine knows about an object besides its status.
-/
structure Metadata where
  name : String
  ns : Option String := none
  cluster : Option String := none
  generation : Int64 := 0
  resourceVersion : Option String := none
  deletionTimestamp : Option Instant := none
  finalizers : List String := []
  labels : Table String String := []
deriving DecidableEq, Repr

namespace Metadata

/- A new object in a namespace, at its first generation. -/
def fresh
    (ns name : String) : Metadata :=
  { name := name, ns := some ns, generation := 1 }

/- The identity of the object. -/
def key
    (m : Metadata) : Key :=
  ⟨m.cluster, m.ns, m.name⟩

/- Whether deletion has been requested. -/
def isDeleting
    (m : Metadata) : Bool :=
  m.deletionTimestamp.isSome

/- Whether the object carries a token. -/
def hasFinalizer
    (token : String)
    (m : Metadata) : Bool :=
  m.finalizers.contains token

/- Append a token unless the object carries it. -/
def addFinalizer
    (token : String)
    (m : Metadata) : Metadata :=
  if m.hasFinalizer token then
    m
  else
    { m with finalizers := m.finalizers ++ [token] }

/- Drop every copy of a token. -/
def removeFinalizer
    (token : String)
    (m : Metadata) : Metadata :=
  { m with
    finalizers := m.finalizers.filter (· != token) }

/- Whether the object asks for a reconcile out of turn. -/
def hasRefreshLabel
    (m : Metadata) : Bool :=
  Table.has refreshLabel m.labels

/- Drop the request for a reconcile out of turn. -/
def removeRefreshLabel
    (m : Metadata) : Metadata :=
  { m with labels := Table.erase refreshLabel m.labels }

------------------------------------------------------------
-- JSON
------------------------------------------------------------

/- Metadata as an object; missing parts are left out. -/
def toJson
    (m : Metadata) : Json :=
  .record
    [("cluster", m.cluster.map .str),
      ("deletionTimestamp",
        m.deletionTimestamp.map Instant.toJson),
      ("finalizers", some (.texts m.finalizers)),
      ("generation", some (.int m.generation.toInt)),
      ("labels", some (.textTable m.labels)),
      ("name", some (.str m.name)),
      ("namespace", m.ns.map .str),
      ("resourceVersion", m.resourceVersion.map .str)]

/-
  Read metadata from an object: the name must be there, a
  missing generation is zero, missing lists are empty.
-/
def ofJson?
    (j : Json) : Option Metadata := do
  let t ← j.members?
  let name ← Json.required? Json.asText? "name" t
  let ns ← Json.optional? Json.asText? "namespace" t
  let cluster ← Json.optional? Json.asText? "cluster" t
  let generation ←
    Json.defaulted? Json.asInt64? 0 "generation" t
  let version ←
    Json.optional? Json.asText? "resourceVersion" t
  let deletion ←
    Json.optional? Instant.ofJson? "deletionTimestamp" t
  let finalizers ←
    Json.defaulted? (Json.asList? Json.asText?) []
      "finalizers" t
  let labels ←
    Json.defaulted? Json.asTextTable? [] "labels" t
  return ⟨name, ns, cluster, generation, version,
    deletion, finalizers, labels⟩

end Metadata

end Reconciler
