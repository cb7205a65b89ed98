import Reconciler.Object.Metadata
import Reconciler.Condition.Basic
import Reconciler.Step.Result

/-
  This file defines the conditions that the engine keeps:
  one for the readiness of the whole object, and one for
  each step in each phase.  An object that is being deleted
  is in the finalizing phase, any other in the processing
  phase.

  Key definitions include:
    * `readyType`
    * `Phase.conditionType`
    * `Readiness.ofRun`
    * `Conditions.seedReady`
    * `Conditions.seedStep`
    * `Conditions.applyResult`
    * `Conditions.setReady`
-/

------------------------------------------------------------
-- Phases
------------------------------------------------------------

namespace Reconciler

/- The type of the condition of the whole object. -/
def readyType : String :=
  "Ready"

/- The two ways of running a step. -/
inductive Phase where
  | processing
  | finalizing
deriving DecidableEq, Repr

namespace Phase

/- The phase of an object. -/
def ofMetadata
    (m : Metadata) : Phase :=
  if m.isDeleting then .finalizing else .processing

/- What a step is called in messages of the phase. -/
def noun : Phase → String
  | .processing => "subroutine"
  | .finalizing => "subroutine finalization"

/- The type of the condition of a step in a phase. -/
def conditionType
    (p : Phase)
    (step : String) : String :=
  match p with
  | .processing => step ++ "_Ready"
  | .finalizing => step ++ "_Finalize"

end Phase

------------------------------------------------------------
-- Readiness
------------------------------------------------------------

/- How far a run has brought the whole object. -/
inductive Readiness where
  | ready
  | processing
  | notReady
deriving DecidableEq, Repr

namespace Readiness

/- A pending requeue outweighs an error. -/
def ofRun
    (requeue : Duration)
    (hasError : Bool) : Readiness :=
  if !requeue.isZero then .processing
  else if hasError then .notReady
  else .ready

/- The truth value of the condition. -/
def status : Readiness → ConditionStatus
  | .ready => .yes
  | _ => .no

/- The message of the condition. -/
def message : Readiness → String
  | .ready => "The resource is ready"
  | .processing => "The resource is processing"
  | .notReady => "The resource is not ready"

/- The name of a readiness. -/
def text : Readiness → String
  | .ready => "Ready"
  | .processing => "Processing"
  | .notReady => "NotReady"

end Readiness

------------------------------------------------------------
-- Keeping the Conditions
------------------------------------------------------------

namespace Conditions

/- Append a condition unless one of its type is there. -/
def seed
    (c : Condition)
    (cs : List Condition) : List Condition :=
  if (find? c.type cs).isSome then cs else cs ++ [c]

/- Start the condition of the whole object. -/
def seedReady
    (now : Instant)
    (m : Metadata)
    (cs : List Condition) : List Condition :=
  seed
    { type := readyType
      status := .unknown
      reason := "Complete"
      message := Readiness.processing.message
      lastTransition := now
      observedGeneration := m.generation }
    cs

/- Start the condition of a step in the phase of the object. -/
def seedStep
    (now : Instant)
    (m : Metadata)
    (step : String)
    (cs : List Condition) : List Condition :=
  let phase := Phase.ofMetadata m
  seed
    { type := phase.conditionType step
      status := .unknown
      reason := "Processing"
      message := s!"The {phase.noun} is processing"
      lastTransition := now
      observedGeneration := m.generation }
    cs

/-
  The condition that records the result of a step: false
  with the error text if it carries an error, unknown if it
  asks for a requeue, else true.
-/
def ofResult
    (now : Instant)
    (m : Metadata)
    (step : String)
    (result : StepResult) : Condition :=
  let phase := Phase.ofMetadata m
  let noun := phase.noun
  let (status, reason, message) :=
    match result.error? with
    | some e =>
        (ConditionStatus.no, "Error",
          s!"The {noun} has an error: {e.text}")
    | none =>
        if !result.requeue.isZero then
          (ConditionStatus.unknown, "Processing",
            s!"The {noun} is processing")
        else
          (ConditionStatus.yes, "Complete",
            s!"The {noun} is complete")
  { type := phase.conditionType step
    status := status
    reason := reason
    message := message
    lastTransition := now
    observedGeneration := m.generation }

/- Record the result of a step. -/
def applyResult
    (now : Instant)
    (m : Metadata)
    (step : String)
    (result : StepResult)
    (cs : List Condition) : List Condition :=
  set (ofResult now m step result) cs

/- Record the readiness of the whole object. -/
def setReady
    (now : Instant)
    (m : Metadata)
    (r : Readiness)
    (cs : List Condition) : List Condition :=
  set
    { type := readyType
      status := r.status
      reason := "Complete"
      message := r.message
      lastTransition := now
      observedGeneration := m.generation }
    cs

end Conditions

end Reconciler
