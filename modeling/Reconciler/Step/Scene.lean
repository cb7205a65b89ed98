import Reconciler.Context
import Reconciler.Report.Recovery
import Reconciler.Store
import Reconciler.Time.Clock

/-
  This file defines scenes: what steps, hooks and other
  tasks of the host can see and change while a reconcile
  runs.  A call of a step is a computation on a scene; what
  it did to the scene stays even if it does not finish.

  Key definitions include:
    * `Scene`
    * `Interrupt`
    * `Call`
    * `Call.suspend`
-/

------------------------------------------------------------
-- Scenes
------------------------------------------------------------

namespace Reconciler

/-
  The store, the wall clock, the cancellation flag of the
  reconcile, and whatever the steps remember.
-/
structure Scene (μ : Type) where
  store : Store
  clock : Clock
  cancelled : Bool := false
  memory : μ

namespace Scene

variable {μ : Type}

/- Change the store. -/
def mapStore
    (f : Store → Store)
    (s : Scene μ) : Scene μ :=
  { s with store := f s.store }

/- Let time pass. -/
def advance
    (d : Duration)
    (s : Scene μ) : Scene μ :=
  { s with clock := s.clock.advance d }

/- Cancel the reconcile. -/
def cancel
    (s : Scene μ) : Scene μ :=
  { s with cancelled := true }

end Scene

------------------------------------------------------------
-- Calls
------------------------------------------------------------

/-
  Why a call did not finish: it was dropped while it was
  suspended, or it panicked.
-/
inductive Interrupt where
  | dropped
  | panicked (p : Panic)

/- A computation of a step or a hook. -/
abbrev Call (μ : Type) :=
  EStateM Interrupt (Scene μ)

namespace Call

variable {μ : Type}

/- Suspend once: a cancelled call is not resumed. -/
def suspend : Call μ Unit := do
  if (← get).cancelled then
    throw .dropped

end Call

end Reconciler
