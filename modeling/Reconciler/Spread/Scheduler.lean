import Reconciler.Error.Config
import Reconciler.Object.Basic
import Reconciler.Spread.Jitter

/-
  This file defines the spread scheduler, which parks
  objects that are up to date until a jittered time of
  their own.

  An object needs work when its generation moved, when its
  time has passed or was never set, or when it carries the
  refresh label.

  Key definitions include:
    * `SpreadConfig.validate`
    * `Scheduler`
    * `Scheduler.isRequired`
    * `Scheduler.parkedFor`
    * `Scheduler.draw`
    * `Scheduler.nextSlot?`
    * `Scheduler.setNext?`
-/

------------------------------------------------------------
-- Configuration
------------------------------------------------------------

namespace Reconciler

/- The budget of objects that do not set their own. -/
structure SpreadConfig where
  defaultBudget : Duration := .ofSeconds (24 * 60 * 60)
deriving Inhabited

namespace SpreadConfig

/- The shortest budget that is accepted: two minutes. -/
def minimumBudget : Duration :=
  .ofSeconds 120

/- Refuse a budget below two minutes. -/
def validate
    (c : SpreadConfig) : Except ConfigError Unit :=
  if c.defaultBudget < minimumBudget then
    .error (.spread
      ("default budget must be at least 2m, got "
        ++ c.defaultBudget.text))
  else
    .ok ()

end SpreadConfig

------------------------------------------------------------
-- Scheduling
------------------------------------------------------------

/- A configuration with a source of jitter. -/
structure Scheduler where
  config : SpreadConfig := {}
  jitter : Jitter

namespace Scheduler

/- Whether an object needs work now. -/
def isRequired
    (m : Metadata)
    (s : Status)
    (now : Instant) : Bool :=
  m.generation != s.observedGeneration ||
    (match s.nextReconcile with
    | none => true
    | some at_ => decide (at_ < now)) ||
    m.hasRefreshLabel

/- How long an object stays parked. -/
def parkedFor
    (s : Status)
    (now : Instant) : Duration :=
  match s.nextReconcile with
  | none => .zero
  | some at_ => now.delayUntil at_

/- The budget of an object, or else the configured one. -/
def budget
    (sched : Scheduler)
    (s : Status) : Duration :=
  s.budget.getD sched.config.defaultBudget

/-
  Draw the delay to the next reconcile: whole minutes
  between half the budget and the budget.  A source inside
  its range answers fewer minutes than the budget has, so
  that their seconds make a word; where those of another
  source make none, the longest delay is taken.
-/
def draw
    (sched : Scheduler)
    (n : Nat)
    (s : Status) : Duration :=
  let high := (sched.budget s).seconds / 60
  let low := high / 2
  .ofSeconds (sched.jitter.draw n low high * 60)

/- Delays of 2 ^ 63 milliseconds or more are not scheduled. -/
def schedulable
    (d : Duration) : Duration :=
  if d.nanos < 0x8000000000000000 * 1_000_000 then d else .zero

/- The time of the next reconcile, if it can be told. -/
def nextSlot?
    (sched : Scheduler)
    (n : Nat)
    (s : Status)
    (now : Instant) : Option Instant :=
  now.after? (schedulable (sched.draw n s))

/- The status with the time of the next reconcile. -/
def setNext?
    (sched : Scheduler)
    (n : Nat)
    (s : Status)
    (now : Instant) : Option Status :=
  (sched.nextSlot? n s now).map
    (fun slot => { s with nextReconcile := some slot })

/- What is said of a slot beyond the last instant. -/
def overflowMessage : String :=
  "`DateTime + TimeDelta` overflowed"

end Scheduler

end Reconciler
