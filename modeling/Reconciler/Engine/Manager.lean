import Reconciler.Engine.Tokens
import Reconciler.Spread.Scheduler
import Reconciler.Text.Blank
import Reconciler.Condition.Phase

/-
  This file defines managers, which run a chain of steps for
  objects of one kind, and blueprints, from which managers
  are built.

  A blueprint is refused for the first fault in the order:
  operator name, steps in declaration order, spread budget.

  Key definitions include:
    * `Manager`
    * `Blueprint`
    * `Blueprint.build`
-/

------------------------------------------------------------
-- Managers
------------------------------------------------------------

namespace Reconciler

/- A validated configuration of the engine. -/
structure Manager (μ : Type) where
  operator : String
  controller : String
  kind : String
  steps : List (Step μ)
  conditions : Bool
  scheduler : Option Scheduler
  hook : Option (Hook μ)
  reporter : Reporter
  policy : ReportPolicy
  readOnly : Bool
  trackLast : Bool

/- The names of the steps, in declaration order. -/
def Manager.stepNames
    {μ : Type}
    (m : Manager μ) : List String :=
  m.steps.map (·.name)

------------------------------------------------------------
-- Blueprints
------------------------------------------------------------

/-
  A configuration that has not been validated.  Without a
  source of jitter the random one of the host is used, of
  which any may be given; without a reporter reports are
  discarded.
-/
structure Blueprint (μ : Type) where
  operator : String
  controller : String
  kind : String
  steps : List (Step μ) := []
  conditions : Bool := false
  spread : Option SpreadConfig := none
  jitter : Option Jitter := none
  random : Jitter.Random := .ofWords id
  hook : Option (Hook μ) := none
  reporter : Option Reporter := none
  policy : ReportPolicy := .standard
  readOnly : Bool := false
  trackLast : Bool := false

namespace Blueprint

variable {μ : Type}

/-
  Names of steps become types of conditions, so they are
  not empty, free of white space and not reserved.
-/
def isValidName
    (name : String) : Bool :=
  name != "" && name != readyType && !Text.hasBlank name

/- Check names in order, given those that came before. -/
def checkNames :
    List String → List String → Except ConfigError Unit
  | _, [] => .ok ()
  | seen, name :: rest =>
      if !isValidName name then
        .error (.invalidStepName name)
      else if seen.contains name then
        .error (.duplicateStep name)
      else
        checkNames (name :: seen) rest

/- The scheduler of a blueprint, if it has one. -/
def scheduler
    (b : Blueprint μ) :
    Except ConfigError (Option Scheduler) :=
  match b.spread with
  | none => .ok none
  | some config =>
      match config.validate with
      | .error e => .error e
      | .ok () =>
          .ok (some
            { config := config
              jitter := b.jitter.getD b.random.toJitter })

/- Build a manager, or tell the first fault. -/
def build
    (b : Blueprint μ) : Except ConfigError (Manager μ) := do
  if Text.isBlank b.operator then
    throw .emptyOperatorName
  checkNames [] (b.steps.map (·.name))
  let scheduler ← b.scheduler
  return {
    operator := b.operator
    controller := b.controller
    kind := b.kind
    steps := b.steps
    conditions := b.conditions
    scheduler := scheduler
    hook := b.hook
    reporter := b.reporter.getD .discarding
    policy := b.policy
    readOnly := b.readOnly
    trackLast := b.trackLast }

end Blueprint

end Reconciler
