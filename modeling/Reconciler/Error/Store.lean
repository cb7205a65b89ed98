import Reconciler.Object.Key

/-
  This file defines the errors of an object store.

  Key definitions include:
    * `StoreError`
    * `StoreError.message`
    * `StoreError.isNotFound`
    * `StoreError.isConflict`
-/

------------------------------------------------------------
-- Store Errors
------------------------------------------------------------

namespace Reconciler

/- Why a store operation failed. -/
inductive StoreError where
  | notFound (key : Key)
  | conflict (key : Key) (detail : String)
  | namespaceTerminating (ns : String)
  | transient (detail : String)
  | serialization (detail : String)
deriving DecidableEq, Repr

namespace StoreError

/- The text of a store error. -/
def message : StoreError → String
  | .notFound k => "object not found: " ++ k.text
  | .conflict k detail =>
      "conflict updating " ++ k.text ++ ": " ++ detail
  | .namespaceTerminating ns =>
      "namespace " ++ ns ++ " is being terminated"
  | .transient detail => "store error: " ++ detail
  | .serialization detail =>
      "serialization error: " ++ detail

/- Whether the object is missing. -/
def isNotFound : StoreError → Bool
  | .notFound _ => true
  | _ => false

/- Whether another writer came first. -/
def isConflict : StoreError → Bool
  | .conflict _ _ => true
  | _ => false

/- Whether the namespace is going away. -/
def isTerminating : StoreError → Bool
  | .namespaceTerminating _ => true
  | _ => false

/- The texts of the error and of what caused it. -/
def chain
    (e : StoreError) : List String :=
  match e with
  | .serialization detail => [e.message, detail]
  | _ => [e.message]

end StoreError

end Reconciler
