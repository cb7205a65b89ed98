import Reconciler.Error.Store
import Reconciler.Object.Basic

/-
  This file defines failures, errors that carry notes about
  where they happened, and the errors of a reconcile, which
  may wrap failures in turn.

  A failure is read as a chain of causes from its outermost
  note to its root.  Its short text is the first of them,
  its full text all of them.  Whether it is reported depends
  on all error values of the chain.

  Key definitions include:
    * `Failure`
    * `ReconcileError`
    * `Failure.chain`
    * `Failure.fullText`
    * `ReconcileError.message`
    * `Failure.values`
    * `Failure.isReportable`
-/

------------------------------------------------------------
-- Failures
------------------------------------------------------------

namespace Reconciler

/-
  A note on a failure.  A store error used as a note only
  lends its text.
-/
inductive Note where
  | text (s : String)
  | store (e : StoreError)
deriving DecidableEq, Repr

namespace Note

/- The text of a note. -/
def message : Note → String
  | .text s => s
  | .store e => e.message

end Note

mutual

/- An error value with notes around it. -/
inductive Failure where
  | plain (message : String)
  | store (e : StoreError)
  | reconcile (e : ReconcileError)
  | noted (note : Note) (inner : Failure)

/- Why a reconcile failed. -/
inductive ReconcileError where
  | store (e : StoreError)
  | step (name : String) (requeue : Duration)
      (cause : Failure)
  | prepare (cause : Failure)
  | missingCapability (kind capability : String)
  | cancelled
  | panicked (message : String)

end

instance : Inhabited Failure :=
  ⟨.plain ""⟩

instance : Inhabited ReconcileError :=
  ⟨.cancelled⟩

------------------------------------------------------------
-- Texts
------------------------------------------------------------

/- The texts of a chain, from outermost to root. -/
def chainText
    (texts : List String) : String :=
  String.intercalate ": " texts

mutual

/- The texts of a failure and of everything under it. -/
def Failure.chain : Failure → List String
  | .plain message => [message]
  | .store e => e.chain
  | .reconcile e => e.chain
  | .noted note inner => note.message :: inner.chain
termination_by structural f => f

/- The texts of a reconcile error and of its causes. -/
def ReconcileError.chain : ReconcileError → List String
  | .store e => ("store error: " ++ e.message) :: e.chain
  | .step name _ cause =>
      let texts := cause.chain
      ("subroutine " ++ name ++ " failed: "
        ++ chainText texts) :: texts
  | .prepare cause =>
      let texts := cause.chain
      ("prepare context failed: " ++ chainText texts)
        :: texts
  | .missingCapability kind capability =>
      [kind ++ " does not implement " ++ capability ++
        ", required by the lifecycle configuration"]
  | .cancelled => ["reconcile cancelled"]
  | .panicked message =>
      ["reconcile panicked: " ++ message]
termination_by structural e => e

end

namespace Failure

/- The text of the outermost note. -/
def text
    (f : Failure) : String :=
  f.chain.headD ""

/- The texts of all notes and causes. -/
def fullText
    (f : Failure) : String :=
  chainText f.chain

end Failure

namespace ReconcileError

/- The text of a reconcile error. -/
def message
    (e : ReconcileError) : String :=
  e.chain.headD ""

/- The delay that a failing step asked for. -/
def requeue : ReconcileError → Duration
  | .step _ requeue _ => requeue
  | _ => .zero

/- Whether another writer came first. -/
def isConflict : ReconcileError → Bool
  | .store e => e.isConflict
  | _ => false

end ReconcileError

------------------------------------------------------------
-- Terminating Namespaces
------------------------------------------------------------

/- The error values behind a store error. -/
def StoreError.causes : StoreError → List Failure
  | .serialization detail => [.plain detail]
  | _ => []

mutual

/-
  The error values of a failure: the failure itself, and
  those behind it down to the root.
-/
def Failure.values : Failure → List Failure
  | .plain message => [.plain message]
  | .store e => .store e :: e.causes
  | .reconcile e => .reconcile e :: e.causes
  | .noted note inner => .noted note inner :: inner.values
termination_by structural f => f

/- The error values behind a reconcile error. -/
def ReconcileError.causes : ReconcileError → List Failure
  | .store e => .store e :: e.causes
  | .step _ _ cause => cause.values
  | .prepare cause => cause.values
  | _ => []
termination_by structural e => e

end

namespace Failure

/-
  Whether an error value by itself says that its namespace is
  going away: as a store error, or as a reconcile error that
  is one.  Notes are never looked into.
-/
def isTerminating : Failure → Bool
  | .store e => e.isTerminating
  | .reconcile (.store e) => e.isTerminating
  | _ => false

/-
  Waiting resolves errors of terminating namespaces, so they
  are never reported.
-/
def isReportable
    (f : Failure) : Bool :=
  !f.values.any (·.isTerminating)

end Failure

end Reconciler
