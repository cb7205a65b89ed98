import Reconciler.Engine.Reporting

/-
  This file defines reconciles.  A reconcile of a key

    * fetches the object; a missing one needs no work;
    * checks the capabilities that the manager relies on;
    * parks a live object that is up to date;
    * puts the declared tokens on a live object;
    * calls the hook, then the steps: in declaration order
      for a live object, in reverse for a deleting one;
    * writes the status if it differs from the snapshot;
    * drops the refresh label of a live object.

  Every store operation and every call is awaited, so that
  nothing starts once the reconcile is cancelled.

  Key definitions include:
    * `Work`
    * `ChainEnd`
    * `Manager.runStep`
    * `Manager.runChain`
    * `Manager.persistStatus`
    * `Manager.reconcile`
    * `Manager.reconcileRecovered`
-/

------------------------------------------------------------
-- Work
------------------------------------------------------------

namespace Reconciler

/-
  What a run knows: the two copies of the object, whether it
  was being deleted when it was fetched, when the run
  started, the soonest requeue so far, and whether a step
  has failed.
-/
structure Work extends Copies where
  deleting : Bool
  start : Instant
  requeue : Duration := .zero
  hasError : Bool := false

/- The work on an object that has just been fetched. -/
def Work.fresh
    (o : Object)
    (now : Instant) : Work where
  obj := o
  snapshot := o
  deleting := o.isDeleting
  start := now

/- How a chain ended: all done, or with a step to retry. -/
inductive ChainEnd where
  | completed (work : Work)
  | retry (work : Work) (step : String)
      (requeue : Duration) (cause : Failure)

namespace Manager

variable {μ : Type}

open Engine

------------------------------------------------------------
-- Conditions
------------------------------------------------------------

/-
  Whether the manager keeps conditions and the object can
  hold them.
-/
def keepsConditions
    (m : Manager μ)
    (o : Object) : Bool :=
  m.conditions && o.has .conditions

/-
  Update the conditions of the working copy, if they are
  kept.
-/
def updateConditions
    (m : Manager μ)
    (update :
      Instant → Metadata → List Condition →
        List Condition)
    (w : Work) : Engine μ Work := do
  if m.keepsConditions w.obj then
    let time ← now
    let conditions :=
      update time w.obj.metadata w.obj.status.conditions
    return { w with
      obj := w.obj.mapStatus
        (fun s => { s with conditions := conditions }) }
  else
    return w

/-
  Seed a condition of the working copy.  The clock is not
  read if one of its type is there.
-/
def seedCondition
    (m : Manager μ)
    (type : String)
    (seed :
      Instant → Metadata → List Condition →
        List Condition)
    (w : Work) : Engine μ Work :=
  if (Conditions.find? type
      w.obj.status.conditions).isSome then
    return w
  else
    m.updateConditions seed w

------------------------------------------------------------
-- Before the Chain
------------------------------------------------------------

/- The first capability that is relied on but missing. -/
def missingCapability?
    (m : Manager μ)
    (o : Object) : Option Capability :=
  if m.conditions && !o.has .conditions then
    some .conditions
  else if m.scheduler.isSome && !o.has .spread then
    some .spread
  else if m.trackLast && !o.has .rateLimit then
    some .rateLimit
  else
    none

/- A missing capability is reported under every policy. -/
def checkCapabilities
    (m : Manager μ)
    (o : Object) : Engine μ Unit := do
  match m.missingCapability? o with
  | none => pure ()
  | some c =>
      let e : ReconcileError :=
        .missingCapability m.kind c.contract
      m.emit ⟨e.message, m.tags o none, []⟩
      fail e

/- How long a live object stays parked, if it does. -/
def parked?
    (m : Manager μ)
    (w : Work) : Option Duration :=
  match m.scheduler with
  | none => none
  | some _ =>
      let status := w.obj.status
      if w.deleting || !w.obj.has .spread ||
          Scheduler.isRequired w.obj.metadata status
            w.start then
        none
      else
        some (Scheduler.parkedFor status w.start)

/- Put the declared tokens on a live object. -/
def ensureTokens
    (m : Manager μ)
    (w : Work) : Engine μ Work := do
  let (added, copies) ←
    await (some <$> addTokens m.readOnly m.steps w.toCopies)
  match added with
  | .ok _ => return { w with toCopies := copies }
  | .error e =>
      m.reportStoreError e copies.snapshot
      fail (.store e)

/-
  Call the hook for the context of the steps.  A hook that
  fails without a retry ends the run with no context.
-/
def prepare
    (m : Manager μ)
    (c : Context)
    (w : Work) : Engine μ (Option Context) := do
  match m.hook with
  | none => return some c
  | some hook =>
      let prepared ← await (do
        note .hookCalled
        call (hook c w.obj))
      match prepared with
      | .ok c => return some c
      | .error e =>
          if e.report then
            m.report e.failure w.snapshot none
          if e.retry then
            fail (.prepare e.failure)
          else
            return none

------------------------------------------------------------
-- The Chain
------------------------------------------------------------

/- Why a step without tokens left is not finalized. -/
def noFinalizer : String :=
  "no finalizer"

/-
  Run one step: process a live object, finalize a deleting
  one that carries a token of the step, else skip.  The
  last component tells whether the step was finalized.
-/
def runStep
    (c : Context)
    (step : Step μ)
    (o : Object) :
    Engine μ (Option (StepResult × Object × Bool)) := do
  if !o.isDeleting then
    note (.processCalled step.name)
    let ended ← call (step.process c o)
    return ended.map (fun r => (r.1, r.2, false))
  else if step.owns o then
    note (.finalizeCalled step.name)
    let ended ← call (step.finalize c o)
    return ended.map (fun r => (r.1, r.2, true))
  else
    return some (.skipped noFinalizer, o, false)

/- Take the tokens of a finalized step off the object. -/
def releaseTokens
    (m : Manager μ)
    (step : Step μ)
    (w : Work) : Engine μ Work := do
  let (removed, copies) ←
    await (some <$> removeTokens m.readOnly step w.toCopies)
  match removed with
  | .ok _ => return { w with toCopies := copies }
  | .error e =>
      m.reportStoreError e copies.snapshot
      fail (.store e)

/-
  Execute one step: seed its condition, run it, record and
  report its result, and release its tokens if it is done
  with the object.
-/
def executeStep
    (m : Manager μ)
    (c : Context)
    (step : Step μ)
    (w : Work) : Engine μ (StepResult × Work) := do
  let phase := Phase.ofMetadata w.obj.metadata
  let w ← m.seedCondition (phase.conditionType step.name)
    (fun t meta_ => Conditions.seedStep t meta_ step.name) w
  let (result, o, finalized) ← await (runStep c step w.obj)
  note (.executed step.name result)
  let w := { w with
    obj := o
    requeue := w.requeue.soonest result.requeue }
  let w ← m.updateConditions
    (fun t meta_ =>
      Conditions.applyResult t meta_ step.name result) w
  m.reportStepError step.name result w.snapshot
  if finalized && result.isSettled then
    let w ← m.releaseTokens step w
    return (result, w)
  else
    return (result, w)

/- Execute steps until one of them ends the chain. -/
def runChain
    (m : Manager μ)
    (c : Context) :
    List (Step μ) → Work → Engine μ ChainEnd
  | [], w => return .completed w
  | step :: rest, w => do
      let (result, w) ← m.executeStep c step w
      match result with
      | .proceed _ => m.runChain c rest w
      | .skipped _ => m.runChain c rest w
      | .stopChain _ _ => return .completed w
      | .errorContinue _ =>
          m.runChain c rest { w with hasError := true }
      | .errorStop _ _ =>
          return .completed { w with hasError := true }
      | .errorRetry e _ =>
          return .retry w step.name result.requeue e.failure

/- The order of the steps for an object. -/
def order
    (m : Manager μ)
    (deleting : Bool) : List (Step μ) :=
  if deleting then m.steps.reverse else m.steps

------------------------------------------------------------
-- After the Chain
------------------------------------------------------------

/-
  Write the status of the working copy if it differs from
  the snapshot's.  An object that went away while it was
  being deleted needs no status.
-/
def persistStatus
    (m : Manager μ)
    (w : Work) :
    Engine μ (Except ReconcileError Work) := do
  if m.readOnly || w.obj.status = w.snapshot.status then
    return .ok w
  else
    match ← cancellable (some <$> sendStatus w.obj) with
    | none => return .error .cancelled
    | some (.ok stored) =>
        let version := stored.metadata.resourceVersion
        return .ok { w with
          obj := w.obj.withVersion version
          snapshot := w.snapshot.withVersion version }
    | some (.error e) =>
        if e.isNotFound && w.obj.isDeleting then
          return .ok w
        else if e.isConflict then
          return .error (.store e)
        else
          m.reportStoreError e w.snapshot
          return .error (.store e)

/- Record the readiness of the object. -/
def recordReadiness
    (m : Manager μ)
    (r : Readiness)
    (w : Work) : Engine μ Work :=
  m.updateConditions
    (fun t meta_ => Conditions.setReady t meta_ r) w

/-
  Stamp the next slot and the observed generation on the
  status; a slot beyond the last instant is a panic.
-/
def stampSlot
    (m : Manager μ)
    (w : Work) : Engine μ Work := do
  match m.scheduler with
  | none => return w
  | some sched =>
      if !w.obj.has .spread then
        return w
      else
        let n := (← get).draws
        modify (fun s => { s with draws := n + 1 })
        match sched.nextSlot? n w.obj.status w.start with
        | none =>
            throw (.panicked
              (.message Scheduler.overflowMessage))
        | some slot =>
            let generation := w.obj.metadata.generation
            return { w with
              obj := w.obj.mapStatus (fun s =>
                { s with
                  nextReconcile := some slot
                  observedGeneration := generation }) }

/- Stamp the time of the run on the status, if asked to. -/
def stampTime
    (m : Manager μ)
    (w : Work) : Work :=
  if m.trackLast && w.obj.has .rateLimit then
    { w with
      obj := w.obj.mapStatus (fun s =>
        { s with lastReconcile := some w.start }) }
  else
    w

/- Drop the refresh label from the stored object. -/
def clearRefreshLabel
    (m : Manager μ)
    (w : Work) : Engine μ Unit := do
  if m.scheduler.isSome && !m.readOnly &&
      w.snapshot.metadata.hasRefreshLabel then
    let modified :=
      w.snapshot.mapMetadata (·.removeRefreshLabel)
    match ← await (some <$> sendPatch modified w.snapshot) with
    | .ok _ => pure ()
    | .error e =>
        m.reportStoreError e w.snapshot
        fail (.store e)

/-
  Close a run whose chain came to its end.  Live objects get
  their next slot; the soonest requeue is handed back.
-/
def complete
    (m : Manager μ)
    (w : Work) : Engine μ Duration := do
  let w ← m.recordReadiness
    (.ofRun w.requeue w.hasError) w
  let w ←
    if w.deleting then
      pure w
    else
      m.stampTime <$> m.stampSlot w
  match ← m.persistStatus w with
  | .error e => fail e
  | .ok w =>
      if !w.deleting then
        m.clearRefreshLabel w
      return w.requeue

/-
  Close a run in which a step asked for a retry.  The status
  is written if possible, and the error handed back is that
  of the step in any case.
-/
def failWithRetry
    (m : Manager μ)
    (w : Work)
    (step : String)
    (requeue : Duration)
    (cause : Failure) : Engine μ Duration := do
  let w ← m.recordReadiness .notReady w
  let _ ← m.persistStatus w
  fail (.step step requeue cause)

------------------------------------------------------------
-- Reconciles
------------------------------------------------------------

/- Call the hook and the steps, and close the run. -/
def runSteps
    (m : Manager μ)
    (c : Context)
    (w : Work) : Engine μ Duration := do
  let w ← m.seedCondition readyType Conditions.seedReady w
  match ← m.prepare c w with
  | none => return .zero
  | some c =>
      match ← m.runChain c (m.order w.deleting) w with
      | .completed w => m.complete w
      | .retry w step requeue cause =>
          m.failWithRetry w step requeue cause

/- Reconcile an object that has been fetched. -/
def reconcileObject
    (m : Manager μ)
    (c : Context)
    (o : Object) : Engine μ Duration := do
  m.checkCapabilities o
  let w := Work.fresh o (← now)
  match m.parked? w with
  | some d => return d
  | none =>
      let w ← m.ensureTokens w
      m.runSteps c w

/- The context of a reconcile. -/
def context
    (m : Manager μ)
    (k : Key) : Context :=
  { operator := m.operator
    controller := m.controller
    key := k }

/-
  Reconcile a key.  The answer is the delay after which the
  host should come back, empty for none.
-/
def reconcile
    (m : Manager μ)
    (k : Key) : Engine μ Duration := do
  match ← await (some <$> fetch k) with
  | .ok o => m.reconcileObject (m.context k) o
  | .error e =>
      if e.isNotFound then
        return .zero
      else
        m.reportFetchError e k
        fail (.store e)

/-
  Reconcile a key and recover from a panic, which is
  reported with the tags of the host.
-/
def reconcileRecovered
    (m : Manager μ)
    (tags : Table String String)
    (k : Key)
    (s : Session μ) :
    Except ReconcileError Duration × Session μ :=
  match m.reconcile k s with
  | .ok d s => (.ok d, s)
  | .error halt s =>
      let (e, reports) := halt.recover tags
      (.error e, { s with reports := s.reports ++ reports })

end Manager

end Reconciler
