import Reconciler.Proofs.Engine.Requeue
import Reconciler.Proofs.Engine.Unhindered

/-
  This file follows an object from one run of its chain to
  the next under a manager that spreads its reconciles.

  A run whose chain comes to its end leaves the object
  waiting for the slot that it has drawn.  Until then every
  reconcile is parked and leaves the object as it is, so that
  the next one after the slot calls the hook and comes to the
  chain again.

  Key definitions include:
    * `Manager.StaysParked`
    * `Manager.RunsAgain`

  Key theorems include:
    * `Manager.ended_endsWaiting`
    * `Manager.StaysParked.untouched`
    * `Manager.AtGate.runsAgain`
    * `Manager.ended_staysParked`
-/

------------------------------------------------------------
-- Runs that Come to Their Chain
------------------------------------------------------------

namespace Reconciler

namespace Manager

open Engine

variable {μ : Type}
variable {m : Manager μ}
variable {sched : Scheduler}
variable {k : Key}
variable {o : Object}
variable {t : Instant}
variable {n : Nat}

/-
  Past the gate a reconcile enters; an object that needs no
  work is parked there.
-/
theorem AtGate.approach_eq
    {start s : Session μ}
    (hGate : m.AtGate k start o t s) :
    m.approach k start =
      if Scheduler.isRequired o.metadata o.status t then
        m.enter (m.context k) (Work.fresh o t) s
      else
        .ok (.error
          (.parked (Scheduler.parkedFor o.status t))) s := by
  have hCapable : m.checkCapabilities o s = .ok () s := by
    unfold checkCapabilities
    rw [hGate.capable]
    rfl
  unfold approach
  rw [bind_of_ok hGate.fetched]
  dsimp only
  rw [bind_of_ok hCapable,
    bind_of_ok (now_of_read hGate.clock), hGate.parked_eq]
  split
  · rfl
  · rfl

/-
  A reconcile that comes to its chain has passed the gate
  with an object that needs work.
-/
theorem atGate_of_reached
    {start mid : Session μ}
    {c : Context}
    {w : Work}
    (hScheduler : m.scheduler = some sched)
    (hLive : o.isDeleting = false)
    (hUntouched : Untouched k o start)
    (hTime : timeAtGate? k start = some t)
    (hReached : m.approach k start = .ok (.ok (c, w)) mid) :
    ∃ s,
      m.AtGate k start o t s ∧
        Scheduler.isRequired o.metadata o.status t = true := by
  rcases fetched_of_timeAtGate hTime with
    ⟨o', s, hFetched, hClock⟩
  have hSame := (hUntouched.fetched hFetched).1
  rw [hSame] at hFetched
  have hCapable : m.missingCapability? o = none := by
    by_contra hSome
    rcases Option.ne_none_iff_exists'.mp hSome with
      ⟨capability, hMissing⟩
    unfold approach at hReached
    rw [bind_of_ok hFetched] at hReached
    dsimp only at hReached
    unfold checkCapabilities at hReached
    rw [hMissing] at hReached
    cases hReached
  have hGate : m.AtGate k start o t s :=
    { scheduled := by
        rw [hScheduler]
        rfl
      fetched := hFetched
      capable := hCapable
      clock := hClock
      live := hLive }
  refine ⟨s, hGate, ?_⟩
  by_contra hIdle
  rw [hGate.approach_eq, if_neg hIdle] at hReached
  cases hReached

/- On the way to the chain the schedule is kept. -/
theorem enter_timed
    {c : Context}
    (hBehave : m.StepsBehave)
    (hSchedule :
      ∀ step ∈ m.steps, ∀ o o',
        step.Hands o o' → o.SameSchedule o')
    (hLive : o.isDeleting = false)
    (hKey : o.key = k) :
    Triple (fun s => Untouched k o s ∧ s.draws = n)
      (m.enter c (Work.fresh o t))
      (fun r s => ∀ c w, r = .ok (c, w) → Timed k o t n w s)
      (fun _ _ => True) := by
  have hAlone :=
    alone_timed (t := t) (n := n) hKey hBehave hSchedule
  have hCarries := hAlone.carries hBehave
  refine .bind
    ((ensureTokens_timed hKey hAlone).mono ?_
      (fun _ _ h => h) (fun _ _ h => h)) ?_
  · intro s h
    exact
      { mirrors := h.1.mirrors
        schedule := .refl o
        start := rfl
        live := hLive
        draws := h.2 }
  intro armed
  refine .bind hCarries.seedCondition ?_
  intro seeded
  refine .bind hCarries.prepare ?_
  intro prepared
  cases prepared with
  | none => exact .pure (fun _ _ _ _ hEq => nomatch hEq)
  | some c' =>
      refine .pure (fun s h c w hEq => ?_)
      cases hEq
      exact h

/-
  A reconcile that runs its chain to the end and succeeds
  leaves the object waiting for the slot that it has drawn.
-/
theorem ended_endsWaiting
    {start end_ : Session μ}
    {tags : Table String String}
    {d : Duration}
    (hScheduler : m.scheduler = some sched)
    (hWritable : m.readOnly = false)
    (hBehave : m.StepsBehave)
    (hSchedule :
      ∀ step ∈ m.steps, ∀ o o',
        step.Hands o o' → o.SameSchedule o')
    (hKey : o.key = k)
    (hLive : o.isDeleting = false)
    (hUntouched : Untouched k o start)
    (hTime : timeAtGate? k start = some t)
    (hEnds : m.endsChain k start = true)
    (hRun : m.reconcileRecovered tags k start = (.ok d, end_)) :
    m.missingCapability? o = none ∧
      ∃ slot,
        t.after? (Scheduler.schedulable
            (sched.draw start.draws o.status)) = some slot ∧
          EndsWaiting k o slot end_ := by
  rcases whole_of_endsChain hEnds with
    ⟨c, w, mid, hReached, _⟩
  rcases atGate_of_reached hScheduler hLive hUntouched hTime
    hReached with ⟨s, hGate, hRequired⟩
  refine ⟨hGate.capable, ?_⟩
  have hSpread :=
    spread_of_capable hGate.scheduled hGate.capable
  rcases hUntouched.fetched hGate.fetched with
    ⟨_, hFirst, hDraws⟩
  -- The chain starts with the schedule of the object.
  have hEntered :
      m.enter (m.context k) (Work.fresh o t) s =
        .ok (.ok (c, w)) mid := by
    rw [← hReached, hGate.approach_eq, if_pos hRequired]
  have hTimed : Timed k o t start.draws w mid :=
    (enter_timed hBehave hSchedule hLive hKey).of_ok
      ⟨hFirst, hDraws⟩ hEntered c w rfl
  -- From there on it is stamped and written.
  have hCarries :=
    (alone_timed (t := t) (n := start.draws) hKey hBehave
      hSchedule).carries hBehave
  have hClosed :
      Triple (Timed k o t start.draws w)
        (do
          let e ← m.runChain c (m.order w.deleting) w
          let w ← m.sumUp e
          m.close e w)
        (fun _ s =>
          ∃ slot,
            sched.nextSlot? start.draws o.status t =
                some slot ∧
              EndsWaiting k o slot s)
        (fun _ _ => True) := by
    refine .bind
      (hCarries.runChain
        (fun step hStep => mem_order.mp hStep)) ?_
    intro e
    refine .bind
      (sumUp_stampsSlot hScheduler hSpread hCarries e) ?_
    intro w'
    exact close_waiting hScheduler hWritable hLive hSpread hKey
  have hReconcile := reconcile_of_recovered hRun
  rw [m.reconcile_eq_approach, bind_of_ok hReached]
    at hReconcile
  exact hClosed.of_ok hTimed hReconcile

------------------------------------------------------------
-- Until the Slot
------------------------------------------------------------

/-
  The sessions of a host whose object stays parked: after a
  first one nobody else writes the object, and it has been
  reconciled at times only that are not after the slot.
-/
inductive StaysParked
    (m : Manager μ)
    (k : Key)
    (slot : Instant)
    (first : Session μ) : Session μ → Prop
  | start {s} :
      s.scene.store.object? k =
        first.scene.store.object? k →
      s.Undisturbed →
      StaysParked m k slot first s
  | between {s s'} :
      StaysParked m k slot first s →
      s'.scene.store.object? k = s.scene.store.object? k →
      s'.Undisturbed →
      StaysParked m k slot first s'
  | reconciled {s now} (tags : Table String String) :
      StaysParked m k slot first s →
      timeAtGate? k s = some now →
      ¬ slot < now →
      StaysParked m k slot first
        (m.reconcileRecovered tags k s).2

/- Time may pass meanwhile. -/
theorem StaysParked.advance
    {first s : Session μ}
    {slot : Instant}
    (hParked : m.StaysParked k slot first s)
    (hUndisturbed : s.Undisturbed)
    (d : Duration) :
    m.StaysParked k slot first
      { s with scene := s.scene.advance d } :=
  .between hParked rfl hUndisturbed

/- A reconcile of a waiting object comes to the gate. -/
theorem atGate_of_waits
    {s : Session μ}
    {stored : Object}
    {slot now : Instant}
    (hScheduled : m.scheduler.isSome = true)
    (hCapable : m.missingCapability? stored = none)
    (hWaits : stored.Waits slot)
    (hUntouched : Untouched k stored s)
    (hTime : timeAtGate? k s = some now) :
    ∃ s',
      m.AtGate k s stored now s' ∧ Untouched k stored s' := by
  rcases fetched_of_timeAtGate hTime with
    ⟨o, s', hFetched, hClock⟩
  rcases hUntouched.fetched hFetched with
    ⟨hSame, hAfter, _⟩
  rw [hSame] at hFetched
  exact ⟨s',
    { scheduled := hScheduled
      fetched := hFetched
      capable := hCapable
      clock := hClock
      live := hWaits.live },
    hAfter⟩

/- A waiting object is not touched before its slot. -/
theorem StaysParked.untouched
    {first s : Session μ}
    {stored : Object}
    {slot : Instant}
    (hParked : m.StaysParked k slot first s)
    (hScheduled : m.scheduler.isSome = true)
    (hCapable : m.missingCapability? stored = none)
    (hWaits : stored.Waits slot)
    (hFirst :
      first.scene.store.object? k = some stored) :
    Untouched k stored s := by
  induction hParked with
  | start hLeft hUndisturbed =>
      exact ⟨hLeft.trans hFirst, hUndisturbed⟩
  | between _ hLeft hUndisturbed ih =>
      exact ⟨hLeft.trans ih.stored, hUndisturbed⟩
  | reconciled tags _ hTime hEarly ih =>
      rcases atGate_of_waits hScheduled hCapable hWaits ih
        hTime with ⟨s', hGate, hAfter⟩
      have hIdle :=
        (hWaits.isRequired_eq _).trans
          (decide_eq_false hEarly)
      rcases hGate.parks hIdle tags with
        ⟨_, _, _, _, hRun, _⟩
      rw [hRun]
      exact hAfter

------------------------------------------------------------
-- After the Slot
------------------------------------------------------------

/-
  A reconcile calls the hook, if there is one, and comes to
  its chain, if the hook succeeds.
-/
structure RunsAgain
    (m : Manager μ)
    (tags : Table String String)
    (k : Key)
    (s : Session μ) : Prop where
  hooked :
    m.hook.isSome = true →
      HookedSince s (m.reconcileRecovered tags k s).2
  chained :
    m.HookSucceeds k →
      ∃ c w mid, m.approach k s = .ok (.ok (c, w)) mid

/- Once the hook has been called, that stays so. -/
theorem runSteps_hooked
    {start : Session μ}
    {c : Context}
    (hKey : o.key = k)
    (hLive : o.isDeleting = false) :
    Triple
      (fun s =>
        Proceeds k o (Work.fresh o t) s ∧
          start.Since (fun _ => True) s)
      (m.ensureTokens (Work.fresh o t) >>= m.runSteps c)
      (fun _ s => m.hook.isSome = true → HookedSince start s)
      (fun _ s => m.hook.isSome = true → HookedSince start s)
    := by
  have hGrows : Session.Lasting (start.Since (fun _ => True)) :=
    start.lasting_since (fun _ _ _ => trivial)
  have hHooked := lasting_hookedSince start
  have hLasting :
      Session.Lasting (fun s =>
        m.hook.isSome = true → HookedSince start s) :=
    ⟨fun e scene h hSome => hHooked.moved e scene (h hSome),
      fun others rs n h hSome =>
        hHooked.aside others rs n (h hSome)⟩
  have hUpholds := upholdsClose_of_lasting (m := m) hLasting
  refine .bind
    ((ensureTokens_proceeds hGrows hKey hLive).mono
      (fun _ h => h) (fun _ _ h => h)
      (fun _ _ h => h.elim)) ?_
  intro armed
  rw [m.runSteps_eq_draft_finish]
  refine .bind
    (Q := fun _ s =>
      m.hook.isSome = true → HookedSince start s) ?_ ?_
  · unfold draftSteps
    refine .bind
      (seedCondition_proceeds.mono (fun _ h => h)
        (fun _ _ h => h) (fun _ _ h => h.elim)) ?_
    intro seeded
    refine .bind prepare_hooked ?_
    intro prepared
    cases prepared with
    | none => exact .pure (fun _ h => h)
    | some c' =>
        refine .bind
          (hUpholds.carries.runChain
            (fun step hStep => mem_order.mp hStep)) ?_
        intro e
        exact .bind hUpholds.sumUp
          (fun _ => .pure (fun _ h => h))
  · intro d
    refine hUpholds.finish.mono ?_ (fun _ _ h => h)
      (fun _ _ h => h)
    intro s h
    cases d with
    | early _ => exact h
    | closing _ _ => exact h

/-
  A reconcile that nobody hinders, and that passes the gate,
  runs again.
-/
theorem AtGate.runsAgain
    {start s : Session μ}
    (hGate : m.AtGate k start o t s)
    (hRequired :
      Scheduler.isRequired o.metadata o.status t = true)
    (hKey : o.key = k)
    (hUntouched : Untouched k o s)
    (hUnhindered : start.Unhindered)
    (tags : Table String String) :
    m.RunsAgain tags k start := by
  have hGoes : s.Unhindered :=
    (fetch_unhindered k).of_ok hUnhindered hGate.fetched
  have hProceeds : Proceeds k o (Work.fresh o t) s :=
    ⟨hUntouched.mirrors, hGoes⟩
  constructor
  · have hSince : start.Since (fun _ => True) s := by
      rcases Journal.fetch_noted.of_ok rfl hGate.fetched with
        ⟨idle, hJournal, _⟩
      exact
        ⟨_, hJournal.trans (List.append_assoc _ _ _),
          trivial⟩
    have hTriple :
        Triple
          (fun s =>
            Proceeds k o (Work.fresh o t) s ∧
              start.Since (fun _ => True) s)
          (m.ensureTokens (Work.fresh o t) >>=
            m.runSteps (m.context k))
          (fun _ s =>
            m.hook.isSome = true → HookedSince start s)
          (fun _ s =>
            m.hook.isSome = true → HookedSince start s) :=
      runSteps_hooked hKey hGate.live
    intro hSome
    unfold reconcileRecovered
    rw [hGate.reconcile_eq, if_pos hRequired]
    cases hRun :
        (m.ensureTokens (Work.fresh o t) >>=
          m.runSteps (m.context k)) s with
    | ok d s' =>
        exact hTriple.of_ok ⟨hProceeds, hSince⟩ hRun hSome
    | error h s' =>
        have hHooked :=
          hTriple.of_error ⟨hProceeds, hSince⟩ hRun hSome
        exact (lasting_hookedSince start).aside s'.others _
          s'.draws hHooked
  · intro hHook
    rw [hGate.approach_eq, if_pos hRequired]
    have hTriple :=
      enter_reaches (m := m) (w := Work.fresh o t) hKey
        hGate.live hHook
    cases hRun :
        m.enter (m.context k) (Work.fresh o t) s with
    | ok r s' =>
        rcases hTriple.of_ok hProceeds hRun with
          ⟨c, w, hReached⟩
        rw [hReached]
        exact ⟨c, w, s', rfl⟩
    | error h s' =>
        exact (hTriple.of_error hProceeds hRun).elim

/-
  What follows a success.  A live object is reconciled at
  some time, nobody else writes, and the chain comes to its
  end.  Then the stored object has observed its generation,
  carries no refresh label, and its next slot is that time
  plus the delay that was drawn.  As long as it is reconciled
  at times only that are not after the slot, it stays as it
  is, and no such reconcile does more than to fetch it; the
  first one after the slot runs again.
-/
theorem ended_staysParked
    {start end_ : Session μ}
    {tags : Table String String}
    {d : Duration}
    (hScheduler : m.scheduler = some sched)
    (hWritable : m.readOnly = false)
    (hBehave : m.StepsBehave)
    (hSchedule :
      ∀ step ∈ m.steps, ∀ o o',
        step.Hands o o' → o.SameSchedule o')
    (hKey : o.key = k)
    (hLive : o.isDeleting = false)
    (hUntouched : Untouched k o start)
    (hTime : timeAtGate? k start = some t)
    (hEnds : m.endsChain k start = true)
    (hRun : m.reconcileRecovered tags k start = (.ok d, end_)) :
    ∃ stored slot,
      end_.scene.store.object? k = some stored ∧
        stored.status.observedGeneration =
          stored.metadata.generation ∧
        stored.metadata.hasRefreshLabel = false ∧
        stored.status.nextReconcile = some slot ∧
        t.after? (Scheduler.schedulable
            (sched.draw start.draws o.status)) = some slot ∧
        ∀ again,
          m.StaysParked k slot end_ again →
            again.scene.store.object? k = some stored ∧
              ∀ now tags',
                timeAtGate? k again = some now →
                  (¬ slot < now →
                    ∃ rest new,
                      (m.reconcileRecovered tags' k
                          again).1 = .ok rest ∧
                        (m.reconcileRecovered tags' k
                            again).2.journal =
                          again.journal ++ new ∧
                        ∀ mo ∈ new,
                          mo.event = .resumed ∨
                            mo.event =
                              .fetched k (.ok stored)) ∧
                  (slot < now → again.Unhindered →
                    m.RunsAgain tags' k again) := by
  have hScheduled : m.scheduler.isSome = true := by
    rw [hScheduler]
    rfl
  rcases ended_endsWaiting hScheduler hWritable hBehave
    hSchedule hKey hLive hUntouched hTime hEnds hRun with
    ⟨hCapable, slot, hSlot, stored, hStored, hStoredKey,
      hKind, hWaits⟩
  have hCapable : m.missingCapability? stored = none :=
    (m.missingCapability?_congr hKind).trans hCapable
  refine ⟨stored, slot, hStored, hWaits.observed,
    hWaits.unlabelled, hWaits.next, hSlot, ?_⟩
  intro again hParked
  have hAgain :=
    hParked.untouched hScheduled hCapable hWaits hStored
  refine ⟨hAgain.stored, ?_⟩
  intro now tags' hNow
  rcases atGate_of_waits hScheduled hCapable hWaits hAgain
    hNow with ⟨s', hGate, hAfter⟩
  constructor
  · intro hEarly
    have hIdle :=
      (hWaits.isRequired_eq now).trans
        (decide_eq_false hEarly)
    rcases hGate.parks hIdle tags' with
      ⟨_, rest, idle, _, hAnswer, hJournal, hResumed, _⟩
    refine ⟨rest, idle ++ [⟨.fetched k (.ok stored), s'.scene⟩],
      by rw [hAnswer], ?_, ?_⟩
    · rw [hAnswer, hJournal, List.append_assoc]
    · intro mo hMember
      rcases List.mem_append.mp hMember with hOld | hLast
      · exact .inl (hResumed mo hOld)
      · rw [List.mem_singleton.mp hLast]
        exact .inr rfl
  · intro hLate hUnhindered
    have hRequired :=
      (hWaits.isRequired_eq now).trans (decide_eq_true hLate)
    exact hGate.runsAgain hRequired hStoredKey hAfter
      hUnhindered tags'

/- A manager that schedules, with a hook. -/
def wakingManager : Manager Unit :=
  { dueManager with
    hook := some (fun c _ => return .ok c) }

/- The host of a labelled object, without failures. -/
def wakingStart : Session Unit where
  scene :=
    { store := Store.insert dueObject {}
      clock := ⟨0⟩
      memory := () }

/- The session after a reconcile. -/
def wakingEnd : Session Unit :=
  (wakingManager.reconcileRecovered [] guardKey
    wakingStart).2

/- The session after another one at the same time. -/
def wakingParked : Session Unit :=
  (wakingManager.reconcileRecovered [] guardKey wakingEnd).2

/- The session a second after the slot. -/
def wakingAgain : Session Unit :=
  { wakingParked with
    scene := wakingParked.scene.advance (.ofSeconds 1801) }

/- Half an hour after the start of 1970. -/
def wakingSlot : Instant where
  second := 1800
  nanos := 0
  earliest := by decide
  latest := by decide
  bounded := Instant.epoch.bounded
  regular := .inl (by decide)

/- A second later. -/
def wakingTime : Instant where
  second := 1801
  nanos := 0
  earliest := by decide
  latest := by decide
  bounded := Instant.epoch.bounded
  regular := .inl (by decide)

theorem waking_stepsBehave :
    wakingManager.StepsBehave where
  hook := by
    intro hook hSome
    cases hSome
    exact fun _ _ _ => rfl
  process := due_stepsBehave.process
  finalize := due_stepsBehave.finalize
  keeps := due_stepsBehave.keeps

/- The step hands its working copy back. -/
theorem waking_sameSchedule :
    ∀ step ∈ wakingManager.steps, ∀ o o',
      step.Hands o o' → o.SameSchedule o' := by
  intro step hStep o o' hHands
  rw [List.mem_singleton.mp hStep] at hHands
  rcases hHands with
    ⟨context, scene, result, scene', hRun | hRun⟩
  · cases hRun
    exact .refl o
  · cases hRun
    exact .refl o

/- A host without other tasks is not disturbed. -/
theorem undisturbed_of_alone
    {s : Session μ}
    (hAlone : s.others.isEmpty = true) :
    s.Undisturbed := by
  intro change hMember
  rw [List.isEmpty_iff.mp hAlone] at hMember
  cases hMember

/- Neither is it hindered, if nothing stands in the way. -/
theorem unhindered_of_alone
    {s : Session μ}
    (hAlone : s.others.isEmpty = true)
    (hClear : s.scene.Clear) :
    s.Unhindered where
  clear := hClear
  undisturbed := undisturbed_of_alone hAlone
  clearing := by
    intro change hMember
    rw [List.isEmpty_iff.mp hAlone] at hMember
    cases hMember

/- A run is its answer with the session that it leaves. -/
theorem run_of_answer
    {α β : Type}
    {run : α × β}
    {a : α}
    (hAnswer : run.1 = a) :
    run = (a, run.2) := by
  rw [← hAnswer]

/-
  The label wakes the object, it is parked for half an hour,
  and a second later the hook is called again.
-/
theorem waking_staysParked :
    (wakingManager.reconcileRecovered [] guardKey
        wakingStart).1.toOption = some .zero ∧
      wakingManager.endsChain guardKey wakingStart = true ∧
      wakingManager.StaysParked guardKey wakingSlot wakingEnd
        wakingAgain ∧
      timeAtGate? guardKey wakingAgain = some wakingTime ∧
      wakingSlot < wakingTime ∧
      HookedSince wakingAgain
        (wakingManager.reconcileRecovered [] guardKey
          wakingAgain).2 ∧
      ∃ c w mid,
        wakingManager.approach guardKey wakingAgain =
          .ok (.ok (c, w)) mid := by
  have hKey : dueObject.key = guardKey := rfl
  have hUntouched :
      Untouched guardKey dueObject wakingStart :=
    ⟨by decide +kernel, undisturbed_of_alone rfl⟩
  have hTime :
      timeAtGate? guardKey wakingStart = some .epoch := by
    decide +kernel
  have hEnds :
      wakingManager.endsChain guardKey wakingStart = true := by
    decide +kernel
  have hAnswer :
      (wakingManager.reconcileRecovered [] guardKey
        wakingStart).1.toOption = some .zero := by
    decide +kernel
  have hRun :
      wakingManager.reconcileRecovered [] guardKey
          wakingStart = (.ok .zero, wakingEnd) :=
    run_of_answer (ok_of_toOption hAnswer)
  have hScheduler :
      wakingManager.scheduler =
        some
          { config := ⟨.ofSeconds 3600⟩
            jitter := .fixed 30 } :=
    rfl
  rcases ended_staysParked hScheduler rfl waking_stepsBehave
    waking_sameSchedule hKey rfl hUntouched hTime hEnds
    hRun with
    ⟨stored, slot, _, _, _, _, hSlot, hLater⟩
  have hDrawn :
      Instant.epoch.after? (Scheduler.schedulable
        (Scheduler.draw
          { config := ⟨.ofSeconds 3600⟩
            jitter := .fixed 30 }
          wakingStart.draws dueObject.status)) =
        some wakingSlot := by
    decide +kernel
  have hSame : slot = wakingSlot :=
    Option.some.inj (hSlot.symm.trans hDrawn)
  rw [hSame] at hLater
  have hEarly :
      timeAtGate? guardKey wakingEnd = some .epoch := by
    decide +kernel
  have hEndAlone :
      wakingEnd.others.isEmpty = true := by
    decide +kernel
  have hParkedAlone :
      wakingParked.others.isEmpty = true := by
    decide +kernel
  have hAgainAlone :
      wakingAgain.others.isEmpty = true := by
    decide +kernel
  have hParked :
      wakingManager.StaysParked guardKey wakingSlot wakingEnd
        wakingParked :=
    .reconciled []
      (.start rfl (undisturbed_of_alone hEndAlone)) hEarly
      (by decide +kernel)
  have hParked :
      wakingManager.StaysParked guardKey wakingSlot wakingEnd
        wakingAgain :=
    hParked.advance (undisturbed_of_alone hParkedAlone) _
  have hNow :
      timeAtGate? guardKey wakingAgain = some wakingTime := by
    decide +kernel
  have hLate : wakingSlot < wakingTime := by
    decide +kernel
  have hClear : wakingAgain.scene.Clear :=
    { quiet :=
        ⟨by decide +kernel, by decide +kernel,
          by decide +kernel⟩
      goes := by decide +kernel
      readable := ⟨wakingTime, by decide +kernel⟩ }
  have hAgain :=
    ((hLater wakingAgain hParked).2 wakingTime [] hNow).2
      hLate (unhindered_of_alone hAgainAlone hClear)
  refine ⟨hAnswer, hEnds, hParked, hNow, hLate,
    hAgain.hooked rfl, hAgain.chained ?_⟩
  intro hook hSome o scene
  cases hSome
  exact ⟨_, _, rfl⟩

end Manager

end Reconciler
