import Reconciler.Step.Result
import Reconciler.Step.Scene

/-
  This file defines steps, the units of work of a chain,
  and the prepare hook that runs before them.

  A step processes live objects and finalizes objects that
  are being deleted.  The tokens that it declares keep an
  object from going away before it has been finalized.

  Key definitions include:
    * `Step`
    * `Step.owns`
    * `LegacyStep.toStep`
    * `Hook`
-/

------------------------------------------------------------
-- Steps
------------------------------------------------------------

namespace Reconciler

variable {μ : Type}

/-
  A step with its tokens and its two entry points, each of
  which hands back a result and the changed object.
-/
structure Step (μ : Type) where
  name : String
  tokens : Object → List String := fun _ => []
  process :
    Context → Object → Call μ (StepResult × Object)
  finalize :
    Context → Object → Call μ (StepResult × Object) :=
      fun _ o => pure (.ok, o)

/- Whether an object carries a token of a step. -/
def Step.owns
    (step : Step μ)
    (o : Object) : Bool :=
  (step.tokens o).any (fun t => o.metadata.hasFinalizer t)

------------------------------------------------------------
-- Legacy Steps
------------------------------------------------------------

/-
  A step of the older style: it hands back a delay, empty
  for none, or an error with its flags.
-/
structure LegacyStep (μ : Type) where
  name : String
  tokens : Object → List String := fun _ => []
  process :
    Context → Object →
      Call μ (Except OperatorError Duration × Object)
  finalize :
    Context → Object →
      Call μ (Except OperatorError Duration × Object) :=
        fun _ o => pure (.ok .zero, o)

/- The step that a legacy step stands for. -/
def LegacyStep.toStep
    (step : LegacyStep μ) : Step μ where
  name := step.name
  tokens := step.tokens
  process := fun c o => do
    let (result, o) ← step.process c o
    return (.ofLegacy result, o)
  finalize := fun c o => do
    let (result, o) ← step.finalize c o
    return (.ofLegacy result, o)

------------------------------------------------------------
-- Hooks
------------------------------------------------------------

/- A hook that enriches the context before the steps run. -/
abbrev Hook (μ : Type) :=
  Context → Object → Call μ (Except OperatorError Context)

end Reconciler
