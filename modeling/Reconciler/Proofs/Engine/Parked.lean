import Reconciler.Proofs.Engine.Due
import Reconciler.Proofs.Time.Delay

/-
  This file says what the gate of a reconcile does with a
  live object: one that needs work goes on to its tokens and
  steps, one that needs none is parked until its slot.

  A parked reconcile does nothing after its fetch.  The
  delay that it hands back leads to the slot; it is empty,
  and asks for nothing, exactly if the slot is now.

  Key definitions include:
    * `Manager.AtGate`

  Key theorems include:
    * `Manager.AtGate.reconcile_eq`
    * `Manager.AtGate.parks`
-/

namespace Reconciler

namespace Manager

open Engine

variable {μ : Type}

------------------------------------------------------------
-- The Gate
------------------------------------------------------------

/- What can be done with an object depends on its kind. -/
theorem missingCapability?_congr
    (m : Manager μ)
    {o o' : Object}
    (hKind : o'.kind = o.kind) :
    m.missingCapability? o' = m.missingCapability? o := by
  unfold missingCapability? Object.has
  rw [hKind]

/-
  A run that has fetched an object which can do what is
  relied on is parked there, or goes on to its tokens and
  steps.
-/
theorem reconcile_eq_of_fetched
    {m : Manager μ}
    {k : Key}
    {start s : Session μ}
    {o : Object}
    {now : Instant}
    (hFetched :
      await (some <$> fetch k) start = .ok (.ok o) s)
    (hCapable : m.missingCapability? o = none)
    (hClock : s.scene.clock.read = .ok now) :
    m.reconcile k start =
      match m.parked? (Work.fresh o now) with
      | some d => .ok d s
      | none =>
          (m.ensureTokens (Work.fresh o now) >>=
            m.runSteps (m.context k)) s := by
  have hCheck : m.checkCapabilities o s = .ok () s := by
    unfold checkCapabilities
    rw [hCapable]
    rfl
  unfold reconcile
  rw [bind_of_ok hFetched]
  change m.reconcileObject (m.context k) o s = _
  unfold reconcileObject
  rw [bind_of_ok hCheck, bind_of_ok (now_of_read hClock)]
  split
  · next hParked =>
      rw [hParked]
      rfl
  · next hPasses => rw [hPasses]

/-
  A reconcile has come to the gate: a live object has been
  fetched, it can do what the manager relies on, and the
  clock can be read.
-/
structure AtGate
    (m : Manager μ)
    (k : Key)
    (start : Session μ)
    (o : Object)
    (now : Instant)
    (s : Session μ) : Prop where
  scheduled : m.scheduler.isSome = true
  fetched : await (some <$> fetch k) start = .ok (.ok o) s
  capable : m.missingCapability? o = none
  clock : s.scene.clock.read = .ok now
  live : o.isDeleting = false

namespace AtGate

variable {m : Manager μ}
variable {k : Key}
variable {start s : Session μ}
variable {o : Object}
variable {now : Instant}

/- An object is parked if it needs no work. -/
theorem parked_eq
    (hGate : m.AtGate k start o now s) :
    m.parked? (Work.fresh o now) =
      if Scheduler.isRequired o.metadata o.status now then
        none
      else
        some (Scheduler.parkedFor o.status now) := by
  have hSpread :=
    spread_of_capable hGate.scheduled hGate.capable
  rcases Option.isSome_iff_exists.mp hGate.scheduled with
    ⟨sched, hSched⟩
  unfold parked?
  rw [hSched]
  change
    (if o.isDeleting || !o.has .spread ||
        Scheduler.isRequired o.metadata o.status now then
      none
    else some (Scheduler.parkedFor o.status now)) = _
  rw [hGate.live, hSpread]
  rfl

/-
  The gate lets an object pass that needs work; else the
  reconcile is over.
-/
theorem reconcile_eq
    (hGate : m.AtGate k start o now s) :
    m.reconcile k start =
      if Scheduler.isRequired o.metadata o.status now then
        (m.ensureTokens (Work.fresh o now) >>=
          m.runSteps (m.context k)) s
      else
        .ok (Scheduler.parkedFor o.status now) s := by
  rw [reconcile_eq_of_fetched hGate.fetched hGate.capable
    hGate.clock, hGate.parked_eq]
  cases Scheduler.isRequired o.metadata o.status now <;> rfl

/-
  An object that needs no work is parked.  After the fetch
  the reconcile does nothing at all, and what it hands back
  leads to the slot: it is empty only if the slot is now,
  and exact unless the slot lies inside a leap second.
-/
theorem parks
    (hGate : m.AtGate k start o now s)
    (hIdle :
      Scheduler.isRequired o.metadata o.status now = false)
    (tags : Table String String) :
    ∃ slot d idle,
      o.status.nextReconcile = some slot ∧
        m.reconcileRecovered tags k start = (.ok d, s) ∧
        s.journal =
          start.journal ++ idle ++
            [⟨.fetched k (.ok o), s.scene⟩] ∧
        (∀ mo ∈ idle, mo.event = .resumed) ∧
        (d.isZero = true ↔ slot = now) ∧
        (now.after? d = some slot ↔ slot.isLeap = false) := by
  have hRegular := Clock.read_regular hGate.clock
  rcases Journal.fetch_noted.of_ok rfl hGate.fetched with
    ⟨idle, hJournal, hResumed⟩
  have hSlot :
      ∃ slot,
        o.status.nextReconcile = some slot ∧ ¬ slot < now := by
    unfold Scheduler.isRequired at hIdle
    cases hNext : o.status.nextReconcile with
    | none =>
        rw [hNext] at hIdle
        simp at hIdle
    | some slot =>
        rw [hNext] at hIdle
        simp only [Bool.or_eq_false_iff,
          decide_eq_false_iff_not] at hIdle
        exact ⟨slot, rfl, hIdle.1.2⟩
  rcases hSlot with ⟨slot, hNext, hAhead⟩
  refine ⟨slot, now.delayUntil slot, idle, hNext, ?_,
    hJournal, hResumed,
    Instant.isZero_delayUntil_iff hRegular hAhead,
    Instant.after?_delayUntil_iff hRegular hAhead⟩
  have hParked :
      Scheduler.parkedFor o.status now =
        now.delayUntil slot := by
    unfold Scheduler.parkedFor
    rw [hNext]
  unfold reconcileRecovered
  rw [hGate.reconcile_eq, hIdle, hParked]
  rfl

end AtGate

/- What the clock shows once an object has been fetched. -/
def timeAtGate?
    (k : Key)
    (start : Session μ) : Option Instant :=
  match await (some <$> fetch k) start with
  | .ok (.ok _) s => s.scene.clock.read.toOption
  | _ => none

theorem fetched_of_timeAtGate
    {k : Key}
    {start : Session μ}
    {now : Instant}
    (hTime : timeAtGate? k start = some now) :
    ∃ o s,
      await (some <$> fetch k) start = .ok (.ok o) s ∧
        s.scene.clock.read = .ok now := by
  unfold timeAtGate? at hTime
  split at hTime
  · next o s hFetched =>
      refine ⟨o, s, hFetched, ?_⟩
      cases hRead : s.scene.clock.read with
      | ok now' =>
          rw [hRead] at hTime
          cases hTime
          rfl
      | error fault =>
          rw [hRead] at hTime
          cases hTime
  · cases hTime

/- A minute after the start of 1970. -/
def restingSlot : Instant where
  second := 60
  nanos := 0
  earliest := by decide
  latest := by decide
  bounded := Instant.epoch.bounded
  regular := .inl (by decide)

/- An object that is up to date until then. -/
def restingObject : Object where
  kind := .full
  metadata :=
    { Metadata.fresh "default" "object" with
      resourceVersion := some "1" }
  status :=
    { observedGeneration := 1
      nextReconcile := some restingSlot }

/- A host with that object, at a given time. -/
def restingStart
    (nanos : Int) : Session Unit where
  scene :=
    { store := Store.insert restingObject {}
      clock := ⟨nanos⟩
      memory := () }

/- The session after the fetch of the object. -/
def restingGate
    (nanos : Int) : Session Unit :=
  (restingStart nanos).moveTo
    (.fetched guardKey (.ok restingObject))
    { (restingStart nanos).scene with
      store :=
        (Store.get guardKey
          (restingStart nanos).scene.store).2 }

theorem resting_atGate
    {nanos : Int}
    {now : Instant}
    (hClock : Clock.read ⟨nanos⟩ = .ok now) :
    dueManager.AtGate guardKey (restingStart nanos)
      restingObject now (restingGate nanos) where
  scheduled := rfl
  fetched := rfl
  capable := rfl
  clock := hClock
  live := rfl

/- At the slot itself the object is parked for no time. -/
theorem resting_forgotten :
    dueManager.AtGate guardKey (restingStart (60 * 10 ^ 9))
        restingObject restingSlot
        (restingGate (60 * 10 ^ 9)) ∧
      Scheduler.isRequired restingObject.metadata
        restingObject.status restingSlot = false ∧
      dueManager.reconcileRecovered [] guardKey
          (restingStart (60 * 10 ^ 9)) =
        (.ok .zero, restingGate (60 * 10 ^ 9)) := by
  have hGate :
      dueManager.AtGate guardKey (restingStart (60 * 10 ^ 9))
        restingObject restingSlot
        (restingGate (60 * 10 ^ 9)) :=
    resting_atGate rfl
  have hIdle :
      Scheduler.isRequired restingObject.metadata
        restingObject.status restingSlot = false := by
    decide +kernel
  refine ⟨hGate, hIdle, ?_⟩
  unfold reconcileRecovered
  rw [hGate.reconcile_eq, hIdle]
  rfl

/- A minute before, it is parked for that minute. -/
theorem resting_parks :
    dueManager.AtGate guardKey (restingStart 0)
        restingObject .epoch (restingGate 0) ∧
      ∃ d,
        dueManager.reconcileRecovered [] guardKey
            (restingStart 0) =
          (.ok d, restingGate 0) ∧
        d.isZero = false ∧
        Instant.epoch.after? d = some restingSlot := by
  have hGate :
      dueManager.AtGate guardKey (restingStart 0)
        restingObject .epoch (restingGate 0) :=
    resting_atGate rfl
  rcases hGate.parks (by decide +kernel) [] with
    ⟨slot, d, _, hSlot, hRun, _, _, hZero, hLeads⟩
  have hSlot : restingSlot = slot := Option.some.inj hSlot
  rw [← hSlot] at hZero hLeads
  refine ⟨hGate, d, hRun, ?_, hLeads.mpr rfl⟩
  apply Bool.eq_false_iff.mpr
  intro hNone
  exact absurd (hZero.mp hNone) (by decide)

end Manager

end Reconciler
