import Reconciler.Engine.Manager

/-
  This file defines what a manager reports of its runs.

  The policy is asked with the generations of the snapshot,
  so that the changes of a run do not count.  Store errors
  are reported by their text.

  Key definitions include:
    * `Manager.tags`
    * `Manager.report`
    * `Manager.reportStoreError`
    * `Manager.reportFetchError`
    * `Manager.reportStepError`
-/

------------------------------------------------------------
-- Tags
------------------------------------------------------------

namespace Reconciler

namespace Manager

variable {μ : Type}

/- A tag that may be missing. -/
def optionalTag
    (name : String)
    (value : Option String) : List (String × String) :=
  match value with
  | none => []
  | some v => [(name, v)]

/- The tags of a report on an object, and on a step of it. -/
def tags
    (m : Manager μ)
    (o : Object)
    (step : Option String) : Table String String :=
  Table.ofList
    ([("operator", m.operator),
        ("controller", m.controller),
        ("kind", m.kind),
        ("name", o.metadata.name)] ++
      optionalTag "namespace" o.metadata.ns ++
      optionalTag "cluster" o.metadata.cluster ++
      optionalTag "subroutine" step)

/- The tags of a report on an object that is not at hand. -/
def keyTags
    (m : Manager μ)
    (k : Key) : Table String String :=
  Table.ofList
    [("operator", m.operator),
      ("controller", m.controller),
      ("kind", m.kind),
      ("key", k.text)]

------------------------------------------------------------
-- Reporting
------------------------------------------------------------

/- Give a report to the manager's reporter. -/
def emit
    (m : Manager μ)
    (r : Report) : Engine μ Unit :=
  modify (fun s =>
    { s with reports := s.reports ++ m.reporter.keep r })

/- Report a failure if policy and filter let it through. -/
def report
    (m : Manager μ)
    (f : Failure)
    (snapshot : Object)
    (step : Option String) : Engine μ Unit := do
  let generation := snapshot.metadata.generation
  if m.policy.allows generation
      snapshot.observedGeneration? then
    let extras : Table String Json :=
      [("generation", .int generation.toInt)]
    match Report.capture? f (m.tags snapshot step) extras with
    | some r => m.emit r
    | none => pure ()

/-
  Report a store error on an object at hand; errors of
  terminating namespaces are left out.
-/
def reportStoreError
    (m : Manager μ)
    (e : StoreError)
    (snapshot : Object) : Engine μ Unit := do
  if !e.isTerminating then
    m.report (.plain e.message) snapshot none

/- Report a failure to fetch an object. -/
def reportFetchError
    (m : Manager μ)
    (e : StoreError)
    (k : Key) : Engine μ Unit := do
  if !e.isTerminating && m.policy != .never then
    m.emit ⟨e.message, m.keyTags k, []⟩

/- Report the error of a step that asked for it. -/
def reportStepError
    (m : Manager μ)
    (step : String)
    (result : StepResult)
    (snapshot : Object) : Engine μ Unit := do
  match result.error? with
  | some e =>
      if e.reported then
        m.report e.failure snapshot (some step)
  | none => pure ()

end Manager

end Reconciler
