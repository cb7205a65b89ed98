import Reconciler.Engine.Reconcile

/-
  This file cuts a reconcile in two at the point where it
  decides on its status write.  The first part drafts the
  status; a run that is parked, that finds nothing, or whose
  hook refuses it ends there without a draft.  The second
  part writes the status and closes the run.

  Key definitions include:
    * `EarlyEnd`
    * `Draft`
    * `Draft.Either`
    * `Manager.draft`
    * `Manager.close`
    * `Manager.finish`

  Key theorems include:
    * `Manager.reconcile_eq_draft_finish`
-/

------------------------------------------------------------
-- Drafts
------------------------------------------------------------

namespace Reconciler

/-
  Why a run ends early without an error: there is no object,
  the object is parked, or the hook refuses it.
-/
inductive EarlyEnd where
  | missing
  | parked (delay : Duration)
  | refused

/- When the host should come back after an early end. -/
def EarlyEnd.delay : EarlyEnd → Duration
  | .missing => .zero
  | .parked d => d
  | .refused => .zero

/-
  What a run has come to before its status write: an early
  end, or the end of its chain with the work whose status is
  to be written.
-/
inductive Draft where
  | early (why : EarlyEnd)
  | closing (chainEnd : ChainEnd) (work : Work)

/-
  A postcondition in two parts, one for early ends and one
  for drafts that are to be closed.
-/
def Draft.Either
    {μ : Type}
    (A : EarlyEnd → Session μ → Prop)
    (B : ChainEnd → Work → Session μ → Prop) :
    Draft → Session μ → Prop
  | .early why => A why
  | .closing e w => B e w

/- The work at the end of a chain. -/
def ChainEnd.work : ChainEnd → Work
  | .completed w => w
  | .retry w _ _ _ => w

namespace Manager

variable {μ : Type}

open Engine

/-
  Sum up a chain in the status of the working copy: its
  readiness and, if it came to its end on a live object, the
  next slot and the time of the run.
-/
def sumUp
    (m : Manager μ) : ChainEnd → Engine μ Work
  | .completed w => do
      let w ← m.recordReadiness
        (.ofRun w.requeue w.hasError) w
      if w.deleting then
        pure w
      else
        m.stampTime <$> m.stampSlot w
  | .retry w _ _ _ => m.recordReadiness .notReady w

/- Call the hook and the steps, and sum the chain up. -/
def draftSteps
    (m : Manager μ)
    (c : Context)
    (w : Work) : Engine μ Draft := do
  let w ← m.seedCondition readyType Conditions.seedReady w
  match ← m.prepare c w with
  | none => return .early .refused
  | some c =>
      let e ← m.runChain c (m.order w.deleting) w
      return .closing e (← m.sumUp e)

/- Draft the status of an object that has been fetched. -/
def draftObject
    (m : Manager μ)
    (c : Context)
    (o : Object) : Engine μ Draft := do
  m.checkCapabilities o
  let w := Work.fresh o (← now)
  match m.parked? w with
  | some d => return .early (.parked d)
  | none =>
      let w ← m.ensureTokens w
      m.draftSteps c w

/- Reconcile a key up to the status write. -/
def draft
    (m : Manager μ)
    (k : Key) : Engine μ Draft := do
  match ← await (some <$> fetch k) with
  | .ok o => m.draftObject (m.context k) o
  | .error e =>
      if e.isNotFound then
        return .early .missing
      else
        m.reportFetchError e k
        fail (.store e)

/- Write the status and close the run. -/
def close
    (m : Manager μ)
    (e : ChainEnd)
    (w : Work) : Engine μ Duration := do
  match e with
  | .completed _ =>
      match ← m.persistStatus w with
      | .error e => fail e
      | .ok w =>
          if !w.deleting then
            m.clearRefreshLabel w
          return w.requeue
  | .retry _ step requeue cause =>
      let _ ← m.persistStatus w
      fail (.step step requeue cause)

/- End early, or close the run. -/
def finish
    (m : Manager μ) : Draft → Engine μ Duration
  | .early why => return why.delay
  | .closing e w => m.close e w

------------------------------------------------------------
-- The Two Parts Together
------------------------------------------------------------

/- A run whose chain came to its end, in two parts. -/
theorem complete_eq_sumUp_close
    (m : Manager μ)
    (w : Work) :
    m.complete w = (do
      let w' ← m.sumUp (.completed w)
      m.close (.completed w) w') := by
  simp only [complete, sumUp, close, bind_assoc]
  congr 1
  funext w'
  exact (apply_ite (fun c => c >>= _) _ _ _).symm

/- A run in which a step asked for a retry, in two parts. -/
theorem failWithRetry_eq_sumUp_close
    (m : Manager μ)
    (w : Work)
    (step : String)
    (requeue : Duration)
    (cause : Failure) :
    m.failWithRetry w step requeue cause = (do
      let w' ← m.sumUp (.retry w step requeue cause)
      m.close (.retry w step requeue cause) w') :=
  rfl

/- The steps of a run, in two parts. -/
theorem runSteps_eq_draft_finish
    (m : Manager μ)
    (c : Context)
    (w : Work) :
    m.runSteps c w = m.draftSteps c w >>= m.finish := by
  simp only [runSteps, draftSteps, bind_assoc]
  congr 1
  funext w
  congr 1
  funext prepared
  cases prepared with
  | none => simp [finish, EarlyEnd.delay]
  | some c =>
      simp only [bind_assoc]
      congr 1
      funext e
      cases e with
      | completed w =>
          simp [complete_eq_sumUp_close, finish]
      | retry w step requeue cause =>
          simp [failWithRetry_eq_sumUp_close, finish]

/- A reconcile drafts the status and then finishes. -/
theorem reconcile_eq_draft_finish
    (m : Manager μ)
    (k : Key) :
    m.reconcile k = m.draft k >>= m.finish := by
  simp only [reconcile, draft, bind_assoc]
  congr 1
  funext fetched
  cases fetched with
  | ok o =>
      simp only [reconcileObject, draftObject, bind_assoc]
      congr 1
      funext _
      congr 1
      funext now
      cases m.parked? (Work.fresh o now) with
      | some d => simp [finish, EarlyEnd.delay]
      | none =>
          simp only [bind_assoc]
          congr 1
          funext w
          exact m.runSteps_eq_draft_finish _ w
  | error e =>
      by_cases hMissing : e.isNotFound = true
      · simp [hMissing, finish, EarlyEnd.delay]
      · dsimp only
        rw [if_neg hMissing, if_neg hMissing, bind_assoc]
        rfl

/- How a reconcile runs from where its draft ended. -/
theorem reconcile_run
    (m : Manager μ)
    (k : Key)
    (s : Session μ) :
    m.reconcile k s =
      match m.draft k s with
      | .ok d s' => m.finish d s'
      | .error h s' => .error h s' := by
  rw [m.reconcile_eq_draft_finish k]
  change EStateM.bind (m.draft k) m.finish s = _
  unfold EStateM.bind
  cases m.draft k s with
  | ok d s' => rfl
  | error h s' => rfl

end Manager

end Reconciler
