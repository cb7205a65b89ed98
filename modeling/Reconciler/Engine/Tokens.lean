import Reconciler.Engine.Session

/-
  This file defines the keeping of finalizer tokens.  Every
  token that a step declares is put on a live object, and
  the tokens of a step are taken off once it has finalized
  an object that is being deleted.

  The engine holds two copies of an object: the working
  copy, which steps may change, and the snapshot, which
  follows the store.  Patches are computed against the
  snapshot, so that they carry nothing but tokens.

  Key definitions include:
    * `Copies`
    * `Tokens.missing`
    * `Engine.addTokens`
    * `Engine.removeTokens`
-/

------------------------------------------------------------
-- Missing Tokens
------------------------------------------------------------

namespace Reconciler

variable {μ : Type}

/- The working copy of an object and its snapshot. -/
structure Copies where
  obj : Object
  snapshot : Object
deriving DecidableEq

namespace Tokens

/- The tokens that the steps declare, in chain order. -/
def declared
    (steps : List (Step μ))
    (o : Object) : List String :=
  steps.flatMap (fun step => step.tokens o)

/-
  The declared tokens that an object does not carry, each
  once, in order of first declaration.
-/
def missing
    (steps : List (Step μ))
    (o : Object) : List String :=
  ((declared steps o).filter
    (fun t => !o.metadata.hasFinalizer t)).eraseDups

/- Put tokens on an object. -/
def addAll
    (tokens : List String)
    (o : Object) : Object :=
  o.mapMetadata (fun m =>
    tokens.foldl (fun m t => m.addFinalizer t) m)

/- Take tokens off an object. -/
def removeAll
    (tokens : List String)
    (o : Object) : Object :=
  o.mapMetadata (fun m =>
    tokens.foldl (fun m t => m.removeFinalizer t) m)

end Tokens

------------------------------------------------------------
-- Patching Tokens
------------------------------------------------------------

namespace Engine

/-
  Send the tokens of the working copy to the store.  The
  snapshot then has the same tokens, and both copies have
  the version that the store handed back; after a failure
  both are as they were.
-/
def sendTokens
    (c : Copies) :
    Engine μ (Except StoreError Bool × Copies) := do
  let modified :=
    c.snapshot.withFinalizers c.obj.metadata.finalizers
  match ← sendPatch modified c.snapshot with
  | .error e => return (.error e, c)
  | .ok stored =>
      let version := stored.metadata.resourceVersion
      return (.ok true,
        ⟨c.obj.withVersion version,
          modified.withVersion version⟩)

/-
  Put every declared token on a live object.  The answer
  tells whether a patch was sent.
-/
def addTokens
    (readOnly : Bool)
    (steps : List (Step μ))
    (c : Copies) :
    Engine μ (Except StoreError Bool × Copies) := do
  if readOnly || c.obj.isDeleting then
    return (.ok false, c)
  else
    match Tokens.missing steps c.obj with
    | [] => return (.ok false, c)
    | tokens =>
        sendTokens { c with obj := Tokens.addAll tokens c.obj }

/-
  Take the tokens of a step off an object.  The answer tells
  whether a patch was sent.
-/
def removeTokens
    (readOnly : Bool)
    (step : Step μ)
    (c : Copies) :
    Engine μ (Except StoreError Bool × Copies) := do
  if readOnly || !step.owns c.obj then
    return (.ok false, c)
  else
    let tokens := step.tokens c.obj
    sendTokens { c with obj := Tokens.removeAll tokens c.obj }

end Engine

end Reconciler
