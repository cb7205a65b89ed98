import Reconciler.Step.Basic

/-
  This file defines scripted actions, the things that a
  scripted step or hook can do: change the object in hand,
  change the stored object as another writer would, let
  time pass, cancel the reconcile, look at its context,
  suspend, panic, or make a later store call fail.

  Key definitions include:
    * `Action`
    * `Memory`
    * `Object.merged?`
    * `Action.perform`
-/

------------------------------------------------------------
-- Merging into Objects
------------------------------------------------------------

namespace Reconciler

namespace Object

/-
  Merge a patch into the full JSON form of an object, if the
  result still reads as an object of its kind.
-/
def merged?
    (patch : Json)
    (o : Object) : Option Object :=
  ofFullJson? o.kind (MergePatch.apply patch o.toFullJson)

/- Merge a patch, or leave the object as it is. -/
def merged
    (patch : Json)
    (o : Object) : Object :=
  (o.merged? patch).getD o

/-
  Change the part of the status that a plain object does not
  have.
-/
def mapTracked
    (f : Status → Status)
    (o : Object) : Object :=
  match o.kind with
  | .plain => o
  | _ => o.mapStatus f

end Object

------------------------------------------------------------
-- Memory
------------------------------------------------------------

/- A context as it was seen, with the cancellation flag. -/
structure Sighting where
  context : Context
  cancelled : Bool
deriving DecidableEq, Repr

/-
  What scripts remember: the calls in order, what they saw
  of their contexts, and how often each entry point has
  been called since the counts were cleared.
-/
structure Memory where
  calls : List String := []
  observed : List Sighting := []
  counts : Table String Nat := []
deriving Inhabited

------------------------------------------------------------
-- Actions
------------------------------------------------------------

/- One thing that a script does. -/
inductive Action where
  | setPayload (payload : String)
  | merge (patch : Json)
  | setBudget (budget : Option Duration)
  | setCondition (c : Condition)
  | advance (d : Duration)
  | cancel
  | observe
  | mergeStored (patch : Json)
  | failNext (operation : StoreOperation) (e : StoreError)
  | panic (p : Panic)
  | suspend

namespace Action

/- Change the scene. -/
def onScene
    (f : Scene Memory → Scene Memory)
    (o : Object) : Call Memory Object := do
  modify f
  return o

/- Note the context as it is seen now. -/
def see
    (c : Context)
    (s : Scene Memory) : Scene Memory :=
  { s with
    memory := { s.memory with
      observed :=
        s.memory.observed ++ [⟨c, s.cancelled⟩] } }

/-
  Do one thing with an object in hand.  Scripts that cannot
  suspend run through their suspensions.
-/
def perform
    (suspends : Bool)
    (c : Context)
    (o : Object) : Action → Call Memory Object
  | .setPayload payload =>
      return o.mapStatus
        (fun s => { s with payload := payload })
  | .merge patch => return o.merged patch
  | .setBudget budget =>
      return o.mapTracked
        (fun s => { s with budget := budget })
  | .setCondition new =>
      return o.mapTracked (fun s =>
        { s with
          conditions := Conditions.set new s.conditions })
  | .advance d => onScene (·.advance d) o
  | .cancel => onScene (·.cancel) o
  | .observe => onScene (see c) o
  | .mergeStored patch =>
      onScene
        (·.mapStore (·.modify c.key (·.merged patch))) o
  | .failNext operation e =>
      onScene (·.mapStore (·.failNext operation e)) o
  | .panic p => throw (.panicked p)
  | .suspend => do
      if suspends then
        Call.suspend
      return o

end Action

end Reconciler
