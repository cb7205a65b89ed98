import Reconciler.Error.Failure

/-
  This file defines the results of steps.  The outcome of a
  result decides whether the chain goes on, whether the
  reconcile fails, and how the condition of the step is set.

  Key definitions include:
    * `Outcome`
    * `StepError`
    * `StepResult`
    * `OperatorError`
    * `StepResult.ofLegacy`
-/

------------------------------------------------------------
-- Outcomes
------------------------------------------------------------

namespace Reconciler

/- The tag of a step result. -/
inductive Outcome where
  | proceed
  | stopChain
  | skipped
  | errorRetry
  | errorContinue
  | errorStop
deriving DecidableEq, Repr

namespace Outcome

/- Whether the next step runs. -/
def continuesChain : Outcome → Bool
  | .proceed => true
  | .skipped => true
  | .errorContinue => true
  | _ => false

/- Whether the step failed. -/
def isError : Outcome → Bool
  | .errorRetry => true
  | .errorContinue => true
  | .errorStop => true
  | _ => false

/- The name of an outcome. -/
def text : Outcome → String
  | .proceed => "continue"
  | .stopChain => "stop_chain"
  | .skipped => "skipped"
  | .errorRetry => "error_retry"
  | .errorContinue => "error_continue"
  | .errorStop => "error_stop"

end Outcome

------------------------------------------------------------
-- Step Results
------------------------------------------------------------

/- The error of a step, with its wish to be reported. -/
structure StepError where
  failure : Failure
  reported : Bool := false

namespace StepError

/- The full text of the failure. -/
def text
    (e : StepError) : String :=
  e.failure.fullText

end StepError

/- What a step hands back. -/
inductive StepResult where
  | proceed (requeue? : Option Duration)
  | stopChain (reason : String) (requeue? : Option Duration)
  | skipped (reason : String)
  | errorRetry (error : StepError)
      (requeue? : Option Duration)
  | errorContinue (error : StepError)
  | errorStop (error : StepError) (reason : String)

namespace StepResult

/- Success, with nothing left to do. -/
def ok : StepResult :=
  .proceed none

instance : Inhabited StepResult :=
  ⟨ok⟩

/- A retryable failure that is not reported. -/
def retry
    (f : Failure) : StepResult :=
  .errorRetry { failure := f } none

/- A failure that lets the chain go on. -/
def fail
    (f : Failure) : StepResult :=
  .errorContinue { failure := f }

/- The tag of a result. -/
def outcome : StepResult → Outcome
  | .proceed _ => .proceed
  | .stopChain _ _ => .stopChain
  | .skipped _ => .skipped
  | .errorRetry _ _ => .errorRetry
  | .errorContinue _ => .errorContinue
  | .errorStop _ _ => .errorStop

/- The requested delay; nothing is an empty delay. -/
def requeue : StepResult → Duration
  | .proceed requeue? => requeue?.getD .zero
  | .stopChain _ requeue? => requeue?.getD .zero
  | .errorRetry _ requeue? => requeue?.getD .zero
  | _ => .zero

/- The error that a result carries. -/
def error? : StepResult → Option StepError
  | .errorRetry error _ => some error
  | .errorContinue error => some error
  | .errorStop error _ => some error
  | _ => none

/- The reason that a result gives. -/
def reason? : StepResult → Option String
  | .stopChain reason _ => some reason
  | .skipped reason => some reason
  | .errorStop _ reason => some reason
  | _ => none

/- Ask for the error to be reported, if there is one. -/
def reported : StepResult → StepResult
  | .errorRetry e requeue? =>
      .errorRetry { e with reported := true } requeue?
  | .errorContinue e =>
      .errorContinue { e with reported := true }
  | .errorStop e reason =>
      .errorStop { e with reported := true } reason
  | result => result

/- Ask for a delay, where the outcome can carry one. -/
def withRequeue
    (after : Duration) : StepResult → StepResult
  | .proceed _ => .proceed (some after)
  | .stopChain reason _ => .stopChain reason (some after)
  | .errorRetry e _ => .errorRetry e (some after)
  | result => result

/-
  A finalize call is done with its object when it neither
  failed nor asked to come back.
-/
def isSettled
    (result : StepResult) : Bool :=
  !result.outcome.isError && result.requeue.isZero

end StepResult

------------------------------------------------------------
-- Legacy Results
------------------------------------------------------------

/- The error of a legacy step or of a prepare hook. -/
structure OperatorError where
  failure : Failure
  retry : Bool := false
  report : Bool := false

namespace OperatorError

/- Retried, not reported. -/
def transient
    (f : Failure) : OperatorError :=
  { failure := f, retry := true }

/- Neither retried nor reported. -/
def permanent
    (f : Failure) : OperatorError :=
  { failure := f }

/- The full text of the failure. -/
def text
    (e : OperatorError) : String :=
  e.failure.fullText

end OperatorError

/- The step result of a legacy result. -/
def StepResult.ofLegacy :
    Except OperatorError Duration → StepResult
  | .ok after =>
      if after.isZero then .ok else .proceed (some after)
  | .error e =>
      let lifted :=
        if e.retry then retry e.failure
        else fail e.failure
      if e.report then lifted.reported else lifted

end Reconciler
