import Reconciler.Json.Basic

/-
  This file defines object keys, the identities of work
  items.

  Keys are ordered by cluster, then by namespace, then by
  name; a missing part comes before every present one.

  Key definitions include:
    * `Key`
    * `Key.text`
    * `Key.toJson`
    * `Key.ofJson?`
-/

------------------------------------------------------------
-- Keys
------------------------------------------------------------

namespace Reconciler

/- The identity of an object. -/
structure Key where
  cluster : Option String := none
  ns : Option String := none
  name : String
deriving DecidableEq, Repr, Inhabited

namespace Key

/- The key of an object in a namespace. -/
def namespaced
    (ns name : String) : Key :=
  { ns := some ns, name := name }

/- The key of an object outside namespaces. -/
def clusterScoped
    (name : String) : Key :=
  { name := name }

/- The same identity in a logical cluster. -/
def inCluster
    (cluster : String)
    (k : Key) : Key :=
  { k with cluster := some cluster }

------------------------------------------------------------
-- Order
------------------------------------------------------------

/- A missing part comes before every present one. -/
def partLT : Option String → Option String → Prop
  | none, some _ => True
  | some a, some b => a < b
  | _, none => False

instance
    (a b : Option String) :
    Decidable (partLT a b) := by
  cases a <;> cases b <;> unfold partLT <;>
    infer_instance

/- The order of the namespace and the name. -/
def localLT
    (a b : Key) : Prop :=
  partLT a.ns b.ns ∨ (a.ns = b.ns ∧ a.name < b.name)

instance
    (a b : Key) :
    Decidable (localLT a b) := by
  unfold localLT
  infer_instance

instance : LT Key :=
  ⟨fun a b =>
    partLT a.cluster b.cluster ∨
      (a.cluster = b.cluster ∧ localLT a b)⟩

instance : DecidableLT Key :=
  fun a b =>
    inferInstanceAs (Decidable
      (partLT a.cluster b.cluster ∨
        (a.cluster = b.cluster ∧ localLT a b)))

/- A list of keys in order, each key once. -/
def sorted
    (ks : List Key) : List Key :=
  Table.keys
    (ks.foldl (fun t k => Table.put k () t) [])

------------------------------------------------------------
-- Text and JSON
------------------------------------------------------------

/- A part of a key before the name. -/
def part : Option String → String
  | none => ""
  | some s => s ++ "/"

/- Cluster, namespace and name, separated by slashes. -/
def text
    (k : Key) : String :=
  part k.cluster ++ part k.ns ++ k.name

/- A key as an object; missing parts are left out. -/
def toJson
    (k : Key) : Json :=
  .record
    [("cluster", k.cluster.map .str),
      ("name", some (.str k.name)),
      ("namespace", k.ns.map .str)]

/- Read a key from an object. -/
def ofJson?
    (j : Json) : Option Key := do
  let t ← j.members?
  let cluster ← Json.optional? Json.asText? "cluster" t
  let ns ← Json.optional? Json.asText? "namespace" t
  let name ← Json.required? Json.asText? "name" t
  return ⟨cluster, ns, name⟩

end Key

end Reconciler
