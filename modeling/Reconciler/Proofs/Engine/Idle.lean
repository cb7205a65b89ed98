import Reconciler.Proofs.Engine.Parked
import Reconciler.Proofs.Engine.Settled

/-
  This file proves that a run on an object at rest idles.

  At rest a live object misses no token, every condition that
  the run would seed is there already, and one that is set
  again keeps its time.  If the steps find nothing to do
  either, both copies stay the stored object, and nothing is
  written from the fetch to the close.

  Key definitions include:
    * `Manager.Repeats`
    * `Manager.Idles`
    * `Manager.AtRest`

  Key theorems include:
    * `Manager.Settled.atRest`
    * `Manager.runChain_idles`
    * `Manager.reconcile_idles`
-/

------------------------------------------------------------
-- Runs without Writes
------------------------------------------------------------

namespace Reconciler

/- Both copies are a live object as it is stored. -/
structure Work.Holds
    (w : Work)
    (o : Object) : Prop where
  obj : w.obj = o
  snapshot : w.snapshot = o
  live : w.deleting = false

namespace Manager

open Engine

variable {μ : Type}

/-
  Executed steps run again on an object in another session.
  Some contexts and memories are met there: those that the
  session starts with, and those that hook, steps and other
  tasks make of them.  Wherever they are met, each step hands
  back the object as it is, with the result that it had.
-/
structure Repeats
    (m : Manager μ)
    (k : Key)
    (o : Object)
    (results : List Executed)
    (met : Context → μ → Prop)
    (again : Session μ) : Prop where
  starts : met (m.context k) again.scene.memory
  others :
    ∀ change ∈ again.others, ∀ c scene,
      met c scene.memory → met c (change scene).memory
  hooked :
    ∀ hook, m.hook = some hook →
      ∀ scene c scene',
        met (m.context k) scene.memory →
          hook (m.context k) o scene = .ok (.ok c) scene' →
            met c scene'.memory
  repeated :
    ∀ step ∈ m.steps, ∀ result,
      (step.name, result) ∈ results →
        ∀ c scene,
          met c scene.memory → scene.Clear →
            scene.store.object? k = some o →
              ∃ scene',
                step.process c o scene =
                    .ok (result, o) scene' ∧
                  met c scene'.memory

/-
  A run leaves an object as it is stored, and has written
  nothing since it has begun.
-/
structure Idles
    (k : Key)
    (o : Object)
    (met : Context → μ → Prop)
    (again : Session μ)
    (c : Context)
    (s : Session μ) : Prop where
  untouched : Untouched k o s
  unhindered : s.Unhindered
  here : met c s.scene.memory
  others :
    ∀ change ∈ s.others, ∀ c scene,
      met c scene.memory → met c (change scene).memory
  silent : again.SilentSince s

section Idles

variable {m : Manager μ}
variable {k : Key}
variable {o : Object}
variable {results : List Executed}
variable {met : Context → μ → Prop}
variable {again s : Session μ}
variable {c : Context}
variable {w : Work}

/- Nothing has happened yet. -/
theorem Idles.start
    (hUntouched : Untouched k o again)
    (hUnhindered : again.Unhindered)
    (hRepeats : m.Repeats k o results met again) :
    Idles k o met again (m.context k) again where
  untouched := hUntouched
  unhindered := hUnhindered
  here := hRepeats.starts
  others := hRepeats.others
  silent := .refl again

/- A moment in which nothing is written. -/
theorem Idles.moveTo
    {scene : Scene μ}
    {c' : Context}
    {e : Event}
    (hIdles : Idles k o met again c s)
    (hQuiet : e.isWrite = false)
    (hObjects :
      scene.store.objects = s.scene.store.objects)
    (hClear : scene.Clear)
    (hMet : met c' scene.memory) :
    Idles k o met again c' (s.moveTo e scene) where
  untouched := hIdles.untouched.idle e hObjects
  unhindered := hIdles.unhindered.moveTo e hClear
  here := hMet
  others := hIdles.others
  silent := hIdles.silent.moveTo hQuiet scene

/- An event that the run notes. -/
theorem Idles.note
    {e : Event}
    (hIdles : Idles k o met again c s)
    (hQuiet : e.isWrite = false) :
    Idles k o met again c (s.note e) :=
  hIdles.moveTo hQuiet rfl hIdles.unhindered.clear hIdles.here

theorem Idles.resume
    (hIdles : Idles k o met again c s) :
    Idles k o met again c s.resume := by
  refine Session.resume_keeps ?_ ?_
  · intro rest hRest
    exact
      { untouched :=
          hIdles.untouched.waited rest
            (fun _ hMember => hRest hMember)
        unhindered :=
          { clear := hIdles.unhindered.clear
            undisturbed := fun change hMember =>
              hIdles.unhindered.undisturbed change
                (hRest hMember)
            clearing := fun change hMember =>
              hIdles.unhindered.clearing change
                (hRest hMember) }
        here := hIdles.here
        others := fun change hMember =>
          hIdles.others change (hRest hMember)
        silent := hIdles.silent }
  · intro change hChange s' h
    exact h.moveTo rfl
      (hIdles.unhindered.undisturbed change hChange s'.scene)
      (hIdles.unhindered.clearing change hChange s'.scene
        h.unhindered.clear)
      (hIdles.others change hChange c s'.scene h.here)

theorem Idles.aside
    (hIdles : Idles k o met again c s)
    (rs : List Report)
    (n : Nat) :
    Idles k o met again c
      { s with reports := rs, draws := n } where
  untouched := { hIdles.untouched with }
  unhindered := hIdles.unhindered.aside rs n
  here := hIdles.here
  others := hIdles.others
  silent := hIdles.silent

------------------------------------------------------------
-- Conditions that Are There
------------------------------------------------------------

/- An update that changes no condition changes nothing. -/
theorem updateConditions_idles
    {update :
      Instant → Metadata → List Condition →
        List Condition}
    (hSame :
      m.conditions = true →
        ∀ t,
          update t w.obj.metadata w.obj.status.conditions =
            w.obj.status.conditions) :
    Triple (Idles k o met again c)
      (m.updateConditions update w)
      (fun w' s => w' = w ∧ Idles k o met again c s)
      (fun _ _ => False) := by
  apply m.updateConditions_clock
  · intro t s h hKeeps _
    rw [hSame (Bool.and_eq_true_iff.mp hKeeps).1]
    exact ⟨rfl, h⟩
  · exact fun _ h _ => ⟨rfl, h⟩
  · intro fault s h hFault
    rcases h.unhindered.clear.readable with ⟨now, hRead⟩
    rw [hRead] at hFault
    cases hFault

/- A condition that is there is not seeded. -/
theorem seedCondition_idles
    {type : String}
    {seed :
      Instant → Metadata → List Condition →
        List Condition}
    (hFound :
      m.conditions = true →
        (Conditions.find? type
          w.obj.status.conditions).isSome = true) :
    Triple (Idles k o met again c)
      (m.seedCondition type seed w)
      (fun w' s => w' = w ∧ Idles k o met again c s)
      (fun _ _ => False) := by
  apply m.seedCondition_triple
  · exact fun _ h _ => ⟨rfl, h⟩
  · intro hAbsent
    refine updateConditions_idles ?_
    intro hEnabled
    rw [hFound hEnabled] at hAbsent
    cases hAbsent

------------------------------------------------------------
-- The Chain
------------------------------------------------------------

/- A step that is run again changes nothing. -/
theorem runStep_idles
    {step : Step μ}
    {result : StepResult}
    (hBehave : m.StepsBehave)
    (hClear : m.StepsClear)
    (hRepeats : m.Repeats k o results met again)
    (hLive : o.isDeleting = false)
    (hStep : step ∈ m.steps)
    (hResult : (step.name, result) ∈ results) :
    Triple (Idles k o met again c) (runStep c step o)
      (fun r s =>
        r = some (result, o, false) ∧
          Idles k o met again c s)
      (fun _ _ => False) := by
  have hAgain :
      ∀ s, Idles k o met again c s →
        ∃ scene,
          step.process c o s.scene = .ok (result, o) scene ∧
            met c scene.memory :=
    fun s h =>
      hRepeats.repeated step hStep result hResult c s.scene
        h.here h.unhindered.clear h.untouched.stored
  unfold runStep
  rw [hLive]
  refine .bind
    (.note (Q := fun _ => Idles k o met again c)
      (fun _ h => h.note rfl)) ?_
  intro _
  refine .bind
    (Q := fun r s =>
      r = some (result, o) ∧ Idles k o met again c s)
    (.call ?_ ?_ ?_) ?_
  · intro s a scene h hRun
    have hObjects := hBehave.process step hStep c o s.scene
    have hGoes :=
      hClear.process step hStep c o s.scene a scene
        h.unhindered.clear hRun
    rw [hRun] at hObjects
    rcases hAgain s h with ⟨scene', hSame, hMet⟩
    cases hRun.symm.trans hSame
    exact ⟨rfl, h.moveTo rfl hObjects hGoes hMet⟩
  · intro s scene h hRun
    rcases hAgain s h with ⟨scene', hSame, _⟩
    cases hRun.symm.trans hSame
  · intro s p scene h hRun
    rcases hAgain s h with ⟨scene', hSame, _⟩
    cases hRun.symm.trans hSame
  intro r
  refine .assume ?_
  rintro rfl
  exact .pure (fun _ h => ⟨rfl, h⟩)

/- A step of the chain is executed again. -/
theorem executeStep_idles
    {step : Step μ}
    {result : StepResult}
    (hBehave : m.StepsBehave)
    (hClear : m.StepsClear)
    (hRepeats : m.Repeats k o results met again)
    (hLive : o.isDeleting = false)
    (hStep : step ∈ m.steps)
    (hResult : (step.name, result) ∈ results)
    (hTells :
      m.conditions = true →
        o.Tells
          (Conditions.recorded o.metadata
            (step.name, result)))
    (hHolds : w.Holds o) :
    Triple (Idles k o met again c) (m.executeStep c step w)
      (fun r s =>
        (r.1 = result ∧ r.2.Holds o ∧
          r.2.requeue = w.requeue.soonest result.requeue ∧
            r.2.hasError = w.hasError) ∧
          Idles k o met again c s)
      (fun _ _ => False) := by
  rcases w with ⟨⟨obj, snapshot⟩, deleting, begun, requeue,
    hasError⟩
  have hObj : o = obj := hHolds.obj.symm
  have hSnapshot : o = snapshot := hHolds.snapshot.symm
  have hDeleting : false = deleting := hHolds.live.symm
  cases hObj
  cases hSnapshot
  cases hDeleting
  unfold executeStep
  dsimp only
  refine .bind
    (seedCondition_idles (fun hEnabled =>
      (hTells hEnabled).found)) ?_
  intro seeded
  refine .assume ?_
  rintro rfl
  refine .bind
    (Q := fun r s =>
      r = (result, o, false) ∧ Idles k o met again c s)
    (.await (M := Idles k o met again c)
      (fun _ h => h.resume) ?_ ?_) ?_
  · intro s h hCancelled
    exact (h.unhindered.not_cancelled hCancelled).elim
  · refine (runStep_idles hBehave hClear hRepeats hLive hStep
      hResult).mono (fun _ h => h.1) ?_ (fun _ _ h => h)
    rintro r s ⟨rfl, h⟩
    exact ⟨rfl, h⟩
  intro r
  refine .assume ?_
  rintro rfl
  dsimp only
  refine .bind
    (.note (Q := fun _ => Idles k o met again c)
      (fun _ h => h.note rfl)) ?_
  intro _
  refine .bind
    (updateConditions_idles (fun hEnabled t => ?_)) ?_
  · exact ((hTells hEnabled).dated t).set_eq
  intro recorded
  refine .assume ?_
  rintro rfl
  refine .bind
    (m.reportStepError_triple _ _ _
      (fun s rs h => h.aside rs s.draws)) ?_
  intro _
  exact .pure (fun _ h =>
    ⟨⟨rfl, ⟨rfl, rfl, rfl⟩, rfl, rfl⟩, h⟩)

/- The whole chain, by induction on what was answered. -/
theorem runChain_idles
    {steps : List (Step μ)}
    {more : List Executed}
    (hBehave : m.StepsBehave)
    (hClear : m.StepsClear)
    (hRepeats : m.Repeats k o results met again)
    (hLive : o.isDeleting = false)
    (hMembers : ∀ step ∈ steps, step ∈ m.steps)
    (hAnswered : Answered steps more)
    (hResults : ∀ r ∈ more, r ∈ results)
    (hTells :
      m.conditions = true →
        ∀ r ∈ results,
          o.Tells (Conditions.recorded o.metadata r))
    (hHolds : w.Holds o) :
    Triple (Idles k o met again c) (m.runChain c steps w)
      (fun e s =>
        (e.work.Holds o ∧
          e.verdict =
            Verdict.ofResults more w.requeue w.hasError) ∧
          Idles k o met again c s)
      (fun _ _ => False) := by
  induction hAnswered generalizing w with
  | done => exact .pure (fun _ h => ⟨⟨hHolds, rfl⟩, h⟩)
  | @stops step result rest hStops =>
      have hFirst := hResults _ (List.mem_singleton_self _)
      unfold runChain
      refine .bind
        (executeStep_idles hBehave hClear hRepeats hLive
          (hMembers step List.mem_cons_self) hFirst
          (fun hEnabled => hTells hEnabled _ hFirst)
          hHolds) ?_
      intro r
      rcases r with ⟨result', w'⟩
      refine .assume ?_
      rintro ⟨rfl, hNext, hRequeue, hError⟩
      cases result' with
      | proceed _ => cases hStops
      | skipped _ => cases hStops
      | errorContinue _ => cases hStops
      | stopChain reason requeue? =>
          refine .pure (fun _ h => ⟨⟨hNext, ?_⟩, h⟩)
          change Verdict.completed w'.requeue w'.hasError = _
          rw [hRequeue, hError]
          rfl
      | errorStop e reason =>
          refine .pure (fun _ h =>
            ⟨⟨⟨hNext.obj, hNext.snapshot, hNext.live⟩, ?_⟩, h⟩)
          change Verdict.completed w'.requeue true = _
          rw [hRequeue]
          rfl
      | errorRetry e requeue? =>
          exact .pure (fun _ h => ⟨⟨hNext, rfl⟩, h⟩)
  | @goesOn step result rest more hGoes _ ih =>
      have hFirst := hResults _ List.mem_cons_self
      unfold runChain
      refine .bind
        (executeStep_idles hBehave hClear hRepeats hLive
          (hMembers step List.mem_cons_self) hFirst
          (fun hEnabled => hTells hEnabled _ hFirst)
          hHolds) ?_
      intro r
      rcases r with ⟨result', w'⟩
      refine .assume ?_
      rintro ⟨rfl, hNext, hRequeue, hError⟩
      have hRest :
          ∀ w'' : Work,
            w''.Holds o →
            w''.requeue =
              w.requeue.soonest result'.requeue →
            Triple (Idles k o met again c)
              (m.runChain c rest w'')
              (fun e s =>
                (e.work.Holds o ∧
                  e.verdict =
                    Verdict.ofResults more
                      (w.requeue.soonest result'.requeue)
                      w''.hasError) ∧
                  Idles k o met again c s)
              (fun _ _ => False) := by
        intro w'' hHeld hSame
        rw [← hSame]
        exact ih
          (fun next hLater =>
            hMembers next (List.mem_cons_of_mem _ hLater))
          (fun r hMember =>
            hResults r (List.mem_cons_of_mem _ hMember))
          hHeld
      cases result' with
      | proceed _ =>
          have hGoOn := hRest w' hNext hRequeue
          rw [hError] at hGoOn
          exact hGoOn
      | skipped _ =>
          have hGoOn := hRest w' hNext hRequeue
          rw [hError] at hGoOn
          exact hGoOn
      | errorContinue _ =>
          exact hRest { w' with hasError := true }
            ⟨hNext.obj, hNext.snapshot, hNext.live⟩ hRequeue
      | stopChain _ _ => cases hGoes
      | errorStop _ _ => cases hGoes
      | errorRetry _ _ => cases hGoes

------------------------------------------------------------
-- Before and After the Chain
------------------------------------------------------------

/-
  A live object at rest: it is all that the manager relies
  on, no token is missing, and its conditions tell results
  and readiness.
-/
structure AtRest
    (m : Manager μ)
    (results : List Executed)
    (v : Verdict)
    (o : Object) : Prop where
  live : o.isDeleting = false
  capable : m.missingCapability? o = none
  armed : Tokens.missing m.steps o = []
  tells :
    m.conditions = true →
      ∀ r ∈ results,
        o.Tells (Conditions.recorded o.metadata r)
  ready :
    m.conditions = true → o.Tells (settledReadiness o v)

/- A settled object is at rest, if it misses no token. -/
theorem Settled.atRest
    {fetched : Object}
    {v : Verdict}
    (hSettled : m.Settled k fetched results v o)
    (hLive : fetched.isDeleting = false)
    (hCapable : m.missingCapability? fetched = none)
    (hArmed :
      Tokens.declared m.steps o ⊆ o.metadata.finalizers) :
    m.AtRest results v o where
  live := hSettled.live
  capable :=
    (m.missingCapability?_congr hSettled.kind).trans hCapable
  armed := (Tokens.missing_eq_nil_iff m.steps o).mpr hArmed
  tells := by
    intro hEnabled r hMember
    rw [Conditions.recorded_congr
      (hSettled.live.trans hLive.symm) hSettled.generation]
    exact hSettled.tells hEnabled r hMember
  ready := by
    intro hEnabled
    have hSame :
        settledReadiness o v = settledReadiness fetched v :=
      Conditions.ofReadiness_eq hSettled.generation .epoch _
    rw [hSame]
    exact hSettled.ready hEnabled

/- The hook is called again, and hands back a context. -/
theorem prepare_idles
    (hBehave : m.StepsBehave)
    (hClear : m.StepsClear)
    (hHook : m.HookSucceeds k)
    (hRepeats : m.Repeats k o results met again)
    (hHolds : w.Holds o) :
    Triple (Idles k o met again (m.context k))
      (m.prepare (m.context k) w)
      (fun r s =>
        ∃ c, r = some c ∧ Idles k o met again c s)
      (fun _ _ => False) := by
  unfold prepare
  rw [hHolds.obj]
  split
  · exact .pure (fun _ h => ⟨_, rfl, h⟩)
  · next hook hSome =>
      have hAnswers := hHook hook hSome o
      refine .bind
        (Q := fun r s =>
          ∃ c, r = .ok c ∧ Idles k o met again c s)
        (.await (M := Idles k o met again (m.context k))
          (fun _ h => h.resume) ?_ ?_) ?_
      · intro s h hCancelled
        exact (h.unhindered.not_cancelled hCancelled).elim
      · refine .bind
          (.note (Q := fun _ =>
            Idles k o met again (m.context k))
            (fun _ h => h.1.note rfl)) ?_
        intro _
        refine .call ?_ ?_ ?_
        · intro s r scene h hRun
          rcases hAnswers s.scene with ⟨c, scene', hOk⟩
          have hObjects :=
            hBehave.hook hook hSome (m.context k) o s.scene
          have hGoes :=
            hClear.hook hook hSome (m.context k) o s.scene r
              scene h.unhindered.clear hRun
          rw [hRun] at hObjects hOk
          cases hOk
          refine ⟨c, rfl, h.moveTo rfl hObjects hGoes ?_⟩
          exact hRepeats.hooked hook hSome s.scene c scene
            h.here hRun
        · intro s scene h hRun
          rcases hAnswers s.scene with ⟨c, scene', hOk⟩
          cases hRun.symm.trans hOk
        · intro s p scene h hRun
          rcases hAnswers s.scene with ⟨c, scene', hOk⟩
          cases hRun.symm.trans hOk
      · intro r
        refine .named (fun c => .assume ?_)
        rintro rfl
        exact .pure (fun _ h => ⟨c, rfl, h⟩)

/- The run comes to its chain with the object as it is. -/
theorem approach_idles
    {v : Verdict}
    (hScheduler : m.scheduler = none)
    (hBehave : m.StepsBehave)
    (hClear : m.StepsClear)
    (hHook : m.HookSucceeds k)
    (hRest : m.AtRest results v o)
    (hRepeats : m.Repeats k o results met again) :
    Triple (Idles k o met again (m.context k)) (m.approach k)
      (fun r s =>
        ∃ c w,
          (r = .ok (c, w) ∧ w.Holds o ∧ w.requeue = .zero ∧
            w.hasError = false) ∧
            Idles k o met again c s)
      (fun _ _ => False) := by
  have hStays :
      Triple (Idles k o met again (m.context k))
        (await (some <$> fetch k))
        (fun r s =>
          r = .ok o ∧ Idles k o met again (m.context k) s)
        (fun _ _ => False) := by
    refine (fetch_stored (o := o)
      (J := Idles k o met again (m.context k))
      (fun _ h => h.resume) ?_).mono ?_ ?_ (fun _ _ h => h)
    · intro s store hObjects hQuiet h
      exact h.moveTo rfl hObjects
        (h.unhindered.clear.withStore hQuiet) h.here
    · exact fun _ h => ⟨h.untouched, h.unhindered, h⟩
    · exact fun _ _ h => ⟨h.1, h.2.2.2⟩
  unfold approach
  refine .bind hStays ?_
  intro r
  refine .assume ?_
  rintro rfl
  dsimp only
  have hCapable :
      m.checkCapabilities o = (pure () : Engine μ Unit) := by
    unfold checkCapabilities
    rw [hRest.capable]
  rw [hCapable, pure_bind]
  refine .bind
    (.clock
      (Q := fun _ => Idles k o met again (m.context k))
      (fun _ _ h _ => h) ?_) ?_
  · intro fault s h hFault
    rcases h.unhindered.clear.readable with ⟨now, hRead⟩
    rw [hRead] at hFault
    cases hFault
  intro now
  rw [parked?_eq_none hScheduler]
  refine .bind
    (Q := fun w s =>
      w = Work.fresh o now ∧
        Idles k o met again (m.context k) s)
    (m.ensureTokens_triple (E := fun _ => False)
      (fun _ h => h.resume) ?_ (fun _ _ h => h)
      (fun _ _ h => h) (fun _ h _ => ⟨rfl, h⟩) ?_) ?_
  · intro s h hCancelled
    exact (h.unhindered.not_cancelled hCancelled).elim
  · exact fun _ _ hMissing => absurd hRest.armed hMissing
  intro armed
  refine .assume ?_
  rintro rfl
  refine .bind
    (seedCondition_idles
      (fun hEnabled => (hRest.ready hEnabled).found)) ?_
  intro seeded
  refine .assume ?_
  rintro rfl
  have hHolds : (Work.fresh o now).Holds o :=
    ⟨rfl, rfl, hRest.live⟩
  refine .bind
    (prepare_idles hBehave hClear hHook hRepeats hHolds) ?_
  intro prepared
  refine .named (fun c => .assume ?_)
  rintro rfl
  exact .pure (fun _ h => ⟨c, _, ⟨rfl, hHolds, rfl, rfl⟩, h⟩)

/- The chain is summed up without a change. -/
theorem sumUp_idles
    {e : ChainEnd}
    (hScheduler : m.scheduler = none)
    (hTrack : m.trackLast = false)
    (hRest : m.AtRest results e.verdict o)
    (hHolds : e.work.Holds o) :
    Triple (Idles k o met again c) (m.sumUp e)
      (fun w s => w = e.work ∧ Idles k o met again c s)
      (fun _ _ => False) := by
  have hReadiness :
      Triple (Idles k o met again c)
        (m.recordReadiness e.verdict.readiness e.work)
        (fun w s => w = e.work ∧ Idles k o met again c s)
        (fun _ _ => False) := by
    refine updateConditions_idles ?_
    intro hEnabled t
    rw [hHolds.obj]
    exact ((hRest.ready hEnabled).dated t).set_eq
  cases e with
  | retry w step requeue cause => exact hReadiness
  | completed w =>
      refine .bind hReadiness ?_
      intro w'
      split
      · exact .pure (fun _ h => h)
      · rw [stamped_eq hScheduler hTrack]
        exact .pure (fun _ h => h)

/- A status that is as it was is not written. -/
theorem persistStatus_eq
    (hHolds : w.Holds o) :
    m.persistStatus w =
      (pure (.ok w) :
        Engine μ (Except ReconcileError Work)) := by
  unfold persistStatus
  rw [hHolds.obj, hHolds.snapshot]
  simp

/- The run is closed without a write. -/
theorem close_idles
    {e : ChainEnd}
    (hScheduler : m.scheduler = none)
    (hHolds : e.work.Holds o) :
    Triple (Idles k o met again c) (m.close e e.work)
      (fun d s =>
        e.verdict.answer = .ok d ∧ Idles k o met again c s)
      (fun h s =>
        ∃ step requeue cause,
          h = .failed (.step step requeue cause) ∧
            e.verdict.answer =
              .error (.step step requeue cause) ∧
            Idles k o met again c s) := by
  cases e with
  | retry w step requeue cause =>
      change Triple _ (m.persistStatus w >>= _) _ _
      rw [persistStatus_eq (w := w) hHolds, pure_bind]
      exact .fail (fun _ h => ⟨_, _, _, rfl, rfl, h⟩)
  | completed w =>
      change Triple _ (m.persistStatus w >>= _) _ _
      rw [persistStatus_eq (w := w) hHolds, pure_bind]
      dsimp only
      rw [clearRefreshLabel_eq hScheduler]
      split
      · exact .pure (fun _ h => ⟨rfl, h⟩)
      · exact .pure (fun _ h => ⟨rfl, h⟩)

/- A run on an object at rest is silent. -/
theorem reconcile_idles
    (hScheduler : m.scheduler = none)
    (hTrack : m.trackLast = false)
    (hBehave : m.StepsBehave)
    (hClear : m.StepsClear)
    (hHook : m.HookSucceeds k)
    (hAnswered : Answered m.steps results)
    (hRest :
      m.AtRest results
        (Verdict.ofResults results .zero false) o)
    (hRepeats : m.Repeats k o results met again) :
    Triple (Idles k o met again (m.context k)) (m.reconcile k)
      (fun d s =>
        (Verdict.ofResults results .zero false).answer =
            .ok d ∧
          ∃ c, Idles k o met again c s)
      (fun h s =>
        ∃ step requeue cause,
          h = .failed (.step step requeue cause) ∧
            (Verdict.ofResults results .zero false).answer =
              .error (.step step requeue cause) ∧
            ∃ c, Idles k o met again c s) := by
  rw [m.reconcile_eq_approach]
  refine .bind
    ((approach_idles hScheduler hBehave hClear hHook hRest
      hRepeats).mono (fun _ h => h) (fun _ _ h => h)
        (fun _ _ h => h.elim)) ?_
  intro r
  refine .named (fun c => .named (fun w => .assume ?_))
  rintro ⟨rfl, hHolds, hRequeue, hError⟩
  dsimp only
  have hOrder : m.order w.deleting = m.steps := by
    unfold order
    rw [hHolds.live]
    rfl
  rw [hOrder]
  refine .bind
    ((runChain_idles hBehave hClear hRepeats hRest.live
      (fun _ hStep => hStep) hAnswered (fun _ hMember => hMember)
      hRest.tells hHolds).mono (fun _ h => h)
        (fun _ _ h => h) (fun _ _ h => h.elim)) ?_
  intro e
  refine .assume ?_
  rintro ⟨hHeld, hVerdict⟩
  rw [hRequeue, hError] at hVerdict
  rw [← hVerdict] at hRest ⊢
  refine .bind
    ((sumUp_idles hScheduler hTrack hRest hHeld).mono
      (fun _ h => h) (fun _ _ h => h)
      (fun _ _ h => h.elim)) ?_
  intro w'
  refine .assume ?_
  rintro rfl
  refine (close_idles hScheduler hHeld).mono (fun _ h => h) ?_
    ?_
  · exact fun _ _ h => ⟨h.1, c, h.2⟩
  · rintro h s ⟨step, requeue, cause, hHalt, hAnswer, hEnd⟩
    exact ⟨step, requeue, cause, hHalt, hAnswer, c, hEnd⟩

end Idles

end Manager

end Reconciler
