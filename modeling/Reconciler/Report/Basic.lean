import Reconciler.Error.Failure

/-
  This file defines reports of errors: the policy that lets
  them through, the filter for errors that waiting
  resolves, and the sinks that take them.

  Key definitions include:
    * `Report`
    * `ReportPolicy.allows`
    * `Reporter`
    * `Report.capture?`
-/

------------------------------------------------------------
-- Reports
------------------------------------------------------------

namespace Reconciler

/- A captured error with what is known about it. -/
structure Report where
  message : String
  tags : Table String String
  extras : Table String Json
deriving DecidableEq, Repr

/-
  The report of a failure, unless it comes from a namespace
  that is going away.
-/
def Report.capture?
    (f : Failure)
    (tags : Table String String)
    (extras : Table String Json) : Option Report :=
  if f.isReportable then
    some ⟨f.fullText, tags, extras⟩
  else
    none

------------------------------------------------------------
-- Policies
------------------------------------------------------------

/- When the errors of steps are reported. -/
inductive ReportPolicy where
  | always
  | onGenerationChange
  | never
deriving DecidableEq, Repr

namespace ReportPolicy

/- Errors are reported once for each generation. -/
def standard : ReportPolicy :=
  .onGenerationChange

/-
  Whether an error may be reported.  An object that does not
  track the observed generation counts as changed.
-/
def allows
    (p : ReportPolicy)
    (generation : Int64)
    (observed : Option Int64) : Bool :=
  match p with
  | .always => true
  | .onGenerationChange => observed != some generation
  | .never => false

end ReportPolicy

------------------------------------------------------------
-- Sinks
------------------------------------------------------------

/- Where reports go: into a list, the log, or nowhere. -/
inductive Reporter where
  | recording
  | logging
  | discarding
deriving DecidableEq, Repr

/- The reports that a sink keeps of one that it is given. -/
def Reporter.keep
    (r : Reporter)
    (report : Report) : List Report :=
  match r with
  | .recording => [report]
  | _ => []

end Reconciler
