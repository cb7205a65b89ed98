import Reconciler.Report.Basic

/-
  This file defines how a run ends before its time, and how
  a host recovers from a panic: the panic is reported and
  then becomes an error of the reconcile.

  Key definitions include:
    * `Panic`
    * `Halt`
    * `Halt.recover`
-/

------------------------------------------------------------
-- Panics
------------------------------------------------------------

namespace Reconciler

/- What a panic carries: a text, or something else. -/
inductive Panic where
  | message (text : String)
  | unknown
deriving DecidableEq, Repr

/- The text that stands for a panic. -/
def Panic.text : Panic → String
  | .message text => text
  | .unknown => "unknown panic payload"

/- Why a run of the engine ended without a result. -/
inductive Halt where
  | failed (e : ReconcileError)
  | panicked (p : Panic)

namespace Halt

/- The report of a recovered panic. -/
def panicReport
    (tags : Table String String)
    (p : Panic) : Report :=
  ⟨"panic: " ++ p.text, tags, []⟩

/- The error of a halted run, and what is reported of it. -/
def recover
    (tags : Table String String) :
    Halt → ReconcileError × List Report
  | .failed e => (e, [])
  | .panicked p =>
      (.panicked p.text, [panicReport tags p])

end Halt

end Reconciler
