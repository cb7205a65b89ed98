import Reconciler.Proofs.Engine.Trial

/-
  This file proves that a reconcile that was cut short can
  be tried again: the second one leaves what a single one
  would have left, and gives the same answer.

  A trial that was cut short leaves the object with tokens
  that its chain came through, and with the status that it
  had.  A trial that nobody disturbs does what is planned,
  and the plan is the same for all of these tokens.

  Key definitions include:
    * `Trial.Ended`
    * `Manager.CutShort`

  Key theorems include:
    * `Trial.At.close`
    * `Trial.reconcile`
    * `Manager.retry_converges`
-/

------------------------------------------------------------
-- The Status Write
------------------------------------------------------------

namespace Reconciler

variable {μ : Type}

/-
  A manager whose runs can be repeated: it writes, neither
  schedules nor tracks its last run, and has steps with
  fixed results that share no token.
-/
structure Manager.Repeatable
    (m : Manager μ)
    (a : Answers μ) : Prop where
  writable : m.readOnly = false
  unscheduled : m.scheduler = none
  untracked : m.trackLast = false
  apart : m.TokensApart
  answering : m.Answering a

namespace Trial

open Engine

/-
  A run has written its status: it was not cut short before,
  or the object has been left; if it was calm, the store
  shows the object with the status.
-/
structure Written
    (r : Trial μ)
    (passed : List (List String))
    (t : Tally)
    (s : Session μ) : Prop where
  cut : Journal.CutSince r.start s → r.Left passed s
  shown :
    r.calm →
      r.Shows t.tokens
        { r.obj.status with conditions := t.conditions } s

section Closing

variable {m : Manager μ}
variable {a : Answers μ}
variable {r : Trial μ}
variable {t : Tally}
variable {w : Work}
variable {passed : List (List String)}

/- Before the status is written the object is left. -/
theorem At.left
    {s : Session μ}
    (hAt : r.At t w s)
    (hPassed : t.tokens ∈ passed) :
    r.Left passed s :=
  ⟨t.tokens, hPassed, _, hAt.stored⟩

/- The snapshot has the status of the object. -/
theorem At.snapshot_status
    {s : Session μ}
    (hAt : r.At t w s) :
    w.snapshot.status = r.obj.status := by
  rw [hAt.mirrors.snapshot]
  rfl

/- There is nothing to write if the status has not changed. -/
theorem At.unwritten
    {s : Session μ}
    (hAt : r.At t w s)
    (hPassed : t.tokens ∈ passed)
    (hSame : w.obj.status = w.snapshot.status) :
    r.Written passed t s where
  cut := fun _ => hAt.left hPassed
  shown := by
    intro hCalm
    rw [← (hAt.tallied hCalm).1, hSame, hAt.snapshot_status]
    exact ⟨_, hAt.stored⟩

/- A status write that succeeds. -/
theorem At.written
    {s : Session μ}
    {stored : Object}
    {store : Store}
    (hAt : r.At t w s)
    (hKey : r.obj.key = r.key)
    (hGoes : s.scene.cancelled = false)
    (hRun :
      Store.updateStatus w.obj s.scene.store =
        (.ok stored, store)) :
    r.Written passed t
      (s.moveTo (.statusUpdated w.obj (.ok stored))
        { s.scene with store := store }) := by
  rcases hAt.mirrors.status_cases hKey hRun with
    ⟨_, hError, _⟩ | ⟨_, hOk, hSome, hObject⟩
  · cases hError
  · cases hOk
    constructor
    · intro hCut
      exact absurd hCut
        ((hAt.clean.moveTo rfl _).not_cut hGoes)
    · intro hCalm
      refine ⟨stored.metadata.resourceVersion, ?_⟩
      rw [hAt.stored] at hSome
      rw [Object.left?_status hSome,
        ← (hAt.tallied hCalm).1, ← hAt.tokens,
        ← hAt.mirrors.tokens]
      exact hObject

/-
  A status write that fails changes no object; that of a
  calm run fails only if the object is gone.
-/
theorem At.unwritable
    {s : Session μ}
    {e : StoreError}
    {store : Store}
    (hAt : r.At t w s)
    (hKey : r.obj.key = r.key)
    (hPassed : t.tokens ∈ passed)
    (hRun :
      Store.updateStatus w.obj s.scene.store =
        (.error e, store)) :
    let s' :=
      s.moveTo (.statusUpdated w.obj (.error e))
        { s.scene with store := store }
    r.Left passed s' ∧
      (r.calm →
        e.isNotFound = true ∧
          r.obj.isDeleting = true ∧
            r.Shows t.tokens
              { r.obj.status with
                conditions := t.conditions } s') := by
  rcases hAt.mirrors.status_cases hKey hRun with
    ⟨_, _, hObjects, hQueued⟩ | ⟨_, hOk, _⟩
  · have hObject :=
      (Store.object?_congr hObjects r.key).trans hAt.stored
    constructor
    · exact ⟨t.tokens, hPassed, _, hObject⟩
    · intro hCalm
      have hQuiet := (hAt.calm hCalm).quiet
      have hGone : s.scene.store.object? r.key = none := by
        by_contra hSome
        exact hQueued (Option.isSome_iff_ne_none.mpr hSome)
          hQuiet.status
      have hWorkKey : w.obj.key = r.key := by
        rw [← hAt.mirrors.snapshot_key hKey]
        exact congrArg Metadata.key hAt.mirrors.own
      have hMissing :=
        (Store.updateStatus_missing hQuiet.status
          (hWorkKey.symm ▸ hGone)).1
      rw [hAt.stored] at hGone
      rcases Object.left?_none hGone with ⟨hDone, hNever⟩
      refine ⟨?_, hDone.1, none, ?_⟩
      · rw [hRun] at hMissing
        cases hMissing
        rfl
      · rw [hNever]
        exact hObject.trans hGone
  · cases hOk

/-
  The status is written, unless there is nothing to write or
  nothing left to write it to.
-/
theorem At.persistStatus
    (hWritable : m.readOnly = false)
    (hKey : r.obj.key = r.key)
    (hPassed : t.tokens ∈ passed) :
    Triple (r.At t w) (m.persistStatus w)
      (fun persisted s =>
        match persisted with
        | .ok w' =>
            (r.calm → w'.requeue = t.requeue) ∧
              r.Written passed t s
        | .error _ => r.Stopped passed s)
      (fun _ => r.Stopped passed) := by
  intro s hAt
  have hRequeue : r.calm → w.requeue = t.requeue :=
    fun hCalm => (hAt.tallied hCalm).2.1
  have hDeleting := hAt.isDeleting
  refine m.persistStatus_triple (P := r.At t w)
    (W := Either
      (fun _ => r.Written passed t)
      (fun e s =>
        r.Left passed s ∧
          (r.calm →
            e.isNotFound = true ∧
              r.obj.isDeleting = true ∧
                r.Shows t.tokens
                  { r.obj.status with
                    conditions := t.conditions } s)))
    (fun _ h => h.resume) ?_
    (fun _ h hCancelled =>
      h.stopped hPassed (fun _ => hCancelled))
    ?_ ?_ ?_ ?_ ?_ s hAt
  · intro hNothing s h
    rcases hNothing with hReadOnly | hSame
    · rw [hWritable] at hReadOnly
      cases hReadOnly
    · exact ⟨hRequeue, h.unwritten hPassed hSame⟩
  · intro _ _
    refine .onStore ?_
    intro s written store h hRun
    cases written with
    | ok stored => exact h.1.written hKey h.2 hRun
    | error e => exact h.1.unwritable hKey hPassed hRun
  · intro written s rs h
    cases written with
    | ok _ => exact ⟨h.cut, h.shown⟩
    | error _ => exact h
  · intro stored s h
    exact ⟨hRequeue, h⟩
  · intro e s _ _ h
    refine ⟨hRequeue, fun _ => h.1, ?_⟩
    intro hCalm
    exact (h.2 hCalm).2.2
  · intro e s hFails h
    refine ⟨h.1, ?_⟩
    intro hCalm
    rcases h.2 hCalm with ⟨hNotFound, hGone, _⟩
    rcases hFails with hFound | hLive
    · rw [hNotFound] at hFound
      cases hFound
    · rw [hDeleting, hGone] at hLive
      cases hLive

------------------------------------------------------------
-- Trials that have Ended
------------------------------------------------------------

/-
  How a trial ends: cut short, it has left the object; calm
  and not cancelled, it has done what is planned.
-/
structure Ended
    (r : Trial μ)
    (passed : List (List String))
    (plan : Plan)
    (answer : Except Halt Duration)
    (s : Session μ) : Prop where
  cut : Journal.CutSince r.start s → r.Left passed s
  done :
    r.calm → s.scene.cancelled = false →
      answer = plan.answer ∧
        r.Shows plan.tokens plan.status s

/- A trial that stopped is none that nobody disturbed. -/
theorem Stopped.ended
    {s : Session μ}
    (hStopped : r.Stopped passed s)
    (plan : Plan)
    (answer : Except Halt Duration) :
    r.Ended passed plan answer s where
  cut := fun _ => hStopped.left
  done := by
    intro hCalm hGoes
    rw [hStopped.calm hCalm] at hGoes
    cases hGoes

/- The reports do not matter for a run that stops. -/
theorem Stopped.reported
    {s : Session μ}
    (hStopped : r.Stopped passed s)
    (rs : List Report) :
    r.Stopped passed { s with reports := rs } :=
  ⟨hStopped.left, hStopped.calm⟩

/- The status is written, and the run gives its answer. -/
theorem At.close
    {c : Course}
    {e : ChainEnd}
    (hWritable : m.readOnly = false)
    (hScheduler : m.scheduler = none)
    (hKey : r.obj.key = r.key)
    (hPassed : c.tally.tokens ∈ passed)
    (hEnds : EndsAs c e) :
    Triple (r.At (m.summed r.obj r.now c) w) (m.close e w)
      (fun d =>
        r.Ended passed (m.planned r.obj r.now c) (.ok d))
      (fun h =>
        r.Ended passed (m.planned r.obj r.now c)
          (.error h)) := by
  have hPersist :=
    (At.persistStatus (r := r) (w := w)
      (t := m.summed r.obj r.now c) hWritable hKey
      hPassed).mono (fun _ h => h) (fun _ _ h => h)
      (fun h _ hStopped =>
        hStopped.ended (m.planned r.obj r.now c) (.error h))
  cases e with
  | completed _ =>
      have hNoLabel :
          ∀ w : Work, m.clearRefreshLabel w = pure () := by
        intro w
        unfold Manager.clearRefreshLabel
        rw [hScheduler]
        rfl
      have hAnswer :
          (m.planned r.obj r.now c).answer =
            .ok c.tally.requeue := by
        unfold Manager.planned Course.answer
        rw [hEnds]
      refine .bind hPersist ?_
      intro persisted
      cases persisted with
      | error _ =>
          exact .fail (fun _ hStopped => hStopped.ended _ _)
      | ok w' =>
          dsimp only
          rw [hNoLabel, pure_bind, ite_self]
          refine .pure ?_
          rintro s ⟨hRequeue, hWritten⟩
          refine ⟨hWritten.cut, ?_⟩
          intro hCalm _
          refine ⟨?_, hWritten.shown hCalm⟩
          rw [hAnswer, hRequeue hCalm]
          rfl
  | retry _ step requeue cause =>
      have hAnswer :
          (m.planned r.obj r.now c).answer =
            .error (.failed (.step step requeue cause)) := by
        unfold Manager.planned Course.answer
        rw [hEnds]
      refine .bind hPersist ?_
      intro persisted
      refine .fail ?_
      intro s h
      cases persisted with
      | error _ => exact h.ended _ _
      | ok w' =>
          refine ⟨h.2.cut, ?_⟩
          intro hCalm _
          exact ⟨hAnswer.symm, h.2.shown hCalm⟩

------------------------------------------------------------
-- Whole Trials
------------------------------------------------------------

/- What a trial starts with. -/
structure Begins
    (r : Trial μ) : Prop where
  stored :
    r.start.scene.store.object? r.key = some r.fetched
  undisturbed : r.start.Undisturbed
  calm : r.calm → r.start.Calm r.now

/- The tally of an object that has just been fetched. -/
def opened
    (r : Trial μ) : Tally where
  tokens := r.tokens
  conditions := r.obj.status.conditions

/- What a trial knows once it has fetched the object. -/
theorem Begins.opened
    (hBegins : r.Begins)
    (now : Instant) :
    r.At r.opened (.fresh r.fetched now) r.start where
  deleting := rfl
  mirrors :=
    Manager.Untouched.mirrors
      ⟨hBegins.stored, hBegins.undisturbed⟩
  kind := rfl
  tokens := rfl
  emptied := fun _ => List.Subset.refl r.tokens
  stored := 
    hBegins.stored.trans
      (r.obj.left?_same r.tokens r.version).symm
  clean := ⟨[], (List.append_nil _).symm, by simp⟩
  tallied := fun _ => ⟨rfl, rfl, rfl⟩
  calm := hBegins.calm

/- A calm trial fetches the object. -/
theorem At.fetch
    (hPassed : r.tokens ∈ passed) :
    Triple (r.At r.opened (.fresh r.fetched .epoch))
      (await (some <$> fetch r.key))
      (fun fetched s =>
        match fetched with
        | .ok o =>
            o = r.fetched ∧
              ∀ now, r.At r.opened (.fresh r.fetched now) s
        | .error _ => r.Stopped passed s)
      (fun _ => r.Stopped passed) := by
  have hStored :
      ∀ s,
        r.At r.opened (.fresh r.fetched .epoch) s →
          s.scene.store.object? r.key = some r.fetched :=
    fun _ hAt =>
      hAt.stored.trans (r.obj.left?_same r.tokens r.version)
  refine .await (M := r.At r.opened (.fresh r.fetched .epoch))
    (fun _ h => h.resume)
    (fun _ h hCancelled =>
      h.stopped hPassed (fun _ => hCancelled))
    (.map (.onStore ?_))
  rintro s fetched store ⟨hAt, _⟩ hRun
  have hObjects := Store.get_objects r.key s.scene.store
  rw [hRun] at hObjects
  cases fetched with
  | ok o =>
      have hFound := Store.get_ok (congrArg Prod.fst hRun)
      rw [hStored s hAt] at hFound
      cases hFound
      have hMoved :
          r.At r.opened (.fresh r.fetched .epoch)
            (s.moveTo (.fetched r.key (.ok r.fetched))
              { s.scene with store := store }) := by
        refine hAt.moveTo rfl hObjects ?_
        intro hCalm
        have hOld := hAt.calm hCalm
        have hQuiet := hOld.quiet.afterGet r.key
        rw [hRun] at hQuiet
        exact
          { alone := hOld.alone
            quiet := hQuiet
            clock := hOld.clock }
      exact ⟨rfl, fun _ => { hMoved with }⟩
  | error e =>
      have hObject :=
        (Store.object?_congr hObjects r.key).trans hAt.stored
      constructor
      · exact ⟨r.tokens, hPassed, _, hObject⟩
      · intro hCalm
        have hFetched :=
          (hAt.calm hCalm).quiet.get_ok (hStored s hAt)
        rw [hRun] at hFetched
        cases hFetched

/-
  The tokens, the hook and the chain come to the course of
  the steps.
-/
theorem At.draftSteps
    {now : Instant}
    (hRepeatable : m.Repeatable a)
    (hKey : r.obj.key = r.key)
    (hPersisted : r.obj.persisted = r.obj)
    (hStart : r.tokens ∈ passed)
    (hPassed :
      a.visited r.obj (m.order r.obj.isDeleting)
        (m.armedWith r.obj r.tokens) ⊆ passed) :
    let c :=
      m.course a r.obj r.now (m.order r.obj.isDeleting)
        (m.opening r.obj r.now r.tokens)
    Triple (r.At r.opened (.fresh r.fetched now))
      (m.ensureTokens (.fresh r.fetched now) >>=
        m.draftSteps (m.context r.key))
      (fun d s =>
        ∃ e w,
          d = .closing e w ∧ c.tally.tokens ∈ passed ∧
            EndsAs c e ∧ r.At (m.summed r.obj r.now c) w s)
      (fun _ => r.Stopped passed) := by
  intro c
  have hArmed : m.armedWith r.obj r.tokens ∈ passed :=
    hPassed (Answers.mem_visited_start _ _)
  have hEnd : c.tally.tokens ∈ passed := by
    apply hPassed
    apply Manager.course_tokens
    intro step hStep
    exact hRepeatable.answering.runs step
      (Manager.mem_order.mp hStep)
  refine .bind
    (At.ensureTokens hRepeatable.writable hRepeatable.apart
      hKey hPersisted rfl hStart) ?_
  intro w
  unfold Manager.draftSteps
  refine .bind
    (Q := r.At (m.opening r.obj r.now r.tokens))
    (At.seedCondition (fun _ _ _ _ => rfl)
      (fun _ hFound => if_pos hFound) hArmed) ?_
  intro w
  refine .bind (At.prepare hRepeatable.answering hArmed) ?_
  intro prepared
  refine .assume ?_
  rintro ⟨context, rfl⟩
  intro s hAt
  refine (?_ : Triple (r.At _ w) _ _ _) s hAt
  rw [hAt.deleting]
  refine .bind
    (At.runChain hRepeatable.writable hRepeatable.apart
      hRepeatable.answering hKey hPersisted
      (fun step hStep => Manager.mem_order.mp hStep)
      hPassed) ?_
  intro e
  refine .bind
    (At.sumUp hRepeatable.unscheduled hRepeatable.untracked
      hEnd) ?_
  intro w
  exact .pure (fun _ h => ⟨e, w, rfl, hEnd, h⟩)

/- A trial comes to its plan, or leaves what it came to. -/
theorem reconcile
    (hRepeatable : m.Repeatable a)
    (hKey : r.obj.key = r.key)
    (hPersisted : r.obj.persisted = r.obj) :
    let passed := m.passed a r.obj r.tokens
    let plan := m.plan a r.obj r.now r.tokens
    Triple (r.At r.opened (.fresh r.fetched .epoch))
      (m.reconcile r.key)
      (fun d => r.Ended passed plan (.ok d))
      (fun h => r.Ended passed plan (.error h)) := by
  intro passed plan
  have hStart : r.tokens ∈ passed :=
    Manager.mem_passed_start r.tokens
  rw [m.reconcile_eq_draft_finish r.key]
  refine .bind
    (Q := Draft.Either
      (fun why => r.Ended passed plan (.ok why.delay))
      (fun e w s =>
        ∃ c,
          plan = m.planned r.obj r.now c ∧
            c.tally.tokens ∈ passed ∧ EndsAs c e ∧
              r.At (m.summed r.obj r.now c) w s))
    (m.draft_reasons
      (E := fun _ => r.Stopped passed)
      ((At.fetch hStart).mono (fun _ h => h)
        (fun _ _ h => h) (fun h _ hStopped =>
          hStopped.ended plan (.error h)))
      (fun _ _ rs h =>
        ⟨h.1, fun now => (h.2 now).reported rs⟩)
      (fun _ _ rs h => h.reported rs)
      (fun _ _ h => h.ended plan _)
      (fun _ _ h => h.ended plan _)
      ?_ ?_ ?_ ?_)
    ?_
  · rintro o c s hIncapable ⟨rfl, hAt⟩
    have hIncapable : m.missingCapability? r.obj = some c :=
      hIncapable
    have hAt := hAt .epoch
    constructor
    · intro _
      exact hAt.left hStart
    · intro _ _
      have hPlan :
          plan =
            { answer := .error
                (.failed
                  (.missingCapability m.kind c.contract))
              tokens := r.tokens
              status := r.obj.status } := by
        unfold plan Manager.plan
        rw [hIncapable]
      rw [hPlan]
      exact ⟨rfl, _, hAt.stored⟩
  · rintro o fault s _ ⟨rfl, hAt⟩ hRead
    exact ((hAt .epoch).stopped_of_clock hStart hRead).ended
      plan _
  · intro o now d s hParks
    unfold Manager.parked? at hParks
    rw [hRepeatable.unscheduled] at hParks
    cases hParks
  · rintro o now hCapable s ⟨⟨rfl, hAt⟩, _⟩
    have hCapable : m.missingCapability? r.obj = none :=
      hCapable
    have hVisited :
        a.visited r.obj (m.order r.obj.isDeleting)
          (m.armedWith r.obj r.tokens) ⊆ passed := by
      unfold passed Manager.passed
      rw [hCapable]
      exact List.subset_cons_self _ _
    refine ((At.draftSteps hRepeatable hKey hPersisted
      hStart hVisited).mono
        (fun _ h => h) ?_
        (fun h _ hStopped =>
          hStopped.ended plan (.error h))) s (hAt now)
    rintro d s ⟨e, w, rfl, hEnd⟩
    refine ⟨_, ?_, hEnd⟩
    unfold plan Manager.plan
    rw [hCapable]
  · intro d
    cases d with
    | early why => exact .pure (fun _ h => h)
    | closing e w =>
        rintro s ⟨c, hPlan, hPassed, hEnds, hAt⟩
        rw [hPlan]
        exact At.close hRepeatable.writable
          hRepeatable.unscheduled hKey hPassed hEnds s hAt

/- How the reconcile of a trial ends, panics recovered. -/
theorem Begins.ended
    (hBegins : r.Begins)
    (hRepeatable : m.Repeatable a)
    (hKey : r.obj.key = r.key)
    (hPersisted : r.obj.persisted = r.obj)
    (tags : Table String String) :
    let ran := m.reconcileRecovered tags r.key r.start
    let plan := m.plan a r.obj r.now r.tokens
    (Journal.CutSince r.start ran.2 →
      r.Left (m.passed a r.obj r.tokens) ran.2) ∧
      (r.calm → ran.2.scene.cancelled = false →
        ran.1 = plan.recovered tags ∧
          r.Shows plan.tokens plan.status ran.2) := by
  have hTriple := reconcile hRepeatable hKey hPersisted
  have hStart := hBegins.opened .epoch
  unfold Manager.reconcileRecovered Plan.recovered
  cases hRun : m.reconcile r.key r.start with
  | ok d s =>
      have hEnded := hTriple.of_ok hStart hRun
      refine ⟨hEnded.cut, ?_⟩
      intro hCalm hGoes
      rcases hEnded.done hCalm hGoes with ⟨hAnswer, hShows⟩
      exact ⟨by rw [← hAnswer]; rfl, hShows⟩
  | error h s =>
      have hEnded := hTriple.of_error hStart hRun
      refine ⟨hEnded.cut, ?_⟩
      intro hCalm hGoes
      rcases hEnded.done hCalm hGoes with ⟨hAnswer, hShows⟩
      exact ⟨by rw [← hAnswer]; rfl, hShows⟩

end Closing

end Trial

------------------------------------------------------------
-- Retries
------------------------------------------------------------

namespace Manager

open Engine

variable {m : Manager μ}
variable {a : Answers μ}

/- A reconcile of a missing object has nothing to do. -/
theorem reconcile_missing
    {k : Key} :
    Triple
      (fun s : Session μ =>
        s.scene.store.object? k = none ∧ s.others = [] ∧
          s.scene.store.Quiet)
      (m.reconcile k)
      (fun d s =>
        d = .zero ∧ s.scene.store.object? k = none)
      (fun _ s => s.scene.cancelled = true) := by
  refine .bind
    (Q := fun fetched s =>
      (∃ e, fetched = .error e ∧ e.isNotFound = true) ∧
        s.scene.store.object? k = none) ?_ ?_
  · refine .await (M := fun s =>
      s.scene.store.object? k = none ∧ s.others = [] ∧
        s.scene.store.Quiet) ?_ (fun _ _ h => h)
      (.map (.onStore ?_))
    · intro s h
      unfold Session.resume
      rw [h.2.1]
      exact h
    · rintro s fetched store ⟨⟨hMissing, _, hQuiet⟩, _⟩ hRun
      have hObjects := Store.get_objects k s.scene.store
      have hFetched := hQuiet.get_missing hMissing
      rw [hRun] at hObjects hFetched
      cases hFetched
      refine ⟨⟨_, rfl, rfl⟩, ?_⟩
      exact (Store.object?_congr hObjects k).trans hMissing
  · intro fetched
    refine .assume ?_
    rintro ⟨e, rfl, hNotFound⟩
    dsimp only
    rw [if_pos hNotFound]
    exact .pure (fun _ hMissing => ⟨rfl, hMissing⟩)

/-
  A reconcile is cut short: one of its store operations
  fails, or it is cancelled.
-/
def CutShort
    (m : Manager μ)
    (tags : Table String String)
    (k : Key)
    (s : Session μ) : Prop :=
  Journal.CutSince s (m.reconcileRecovered tags k s).2

/- A reconcile that nobody disturbs or cancels. -/
structure RunsCalmly
    (m : Manager μ)
    (tags : Table String String)
    (k : Key)
    (now : Instant)
    (s : Session μ) : Prop where
  calm : s.Calm now
  goes :
    (m.reconcileRecovered tags k s).2.scene.cancelled = false

/- A calm reconcile of a missing object, in full. -/
theorem RunsCalmly.missing
    {tags : Table String String}
    {k : Key}
    {now : Instant}
    {s : Session μ}
    (hRuns : m.RunsCalmly tags k now s)
    (hMissing : s.scene.store.object? k = none) :
    (m.reconcileRecovered tags k s).1 = .ok .zero ∧
      (m.reconcileRecovered tags k s).2.scene.store.object?
        k = none := by
  have hTriple := m.reconcile_missing (k := k)
  have hStart :=
    And.intro hMissing
      (And.intro hRuns.calm.alone hRuns.calm.quiet)
  have hGoes := hRuns.goes
  unfold reconcileRecovered at hGoes ⊢
  cases hRun : m.reconcile k s with
  | ok d s' =>
      rcases hTriple.of_ok hStart hRun with ⟨hZero, hGone⟩
      exact ⟨congrArg Except.ok hZero, hGone⟩
  | error h s' =>
      have hCancelled := hTriple.of_error hStart hRun
      rw [hRun] at hGoes
      rw [hCancelled] at hGoes
      cases hGoes

/- A reconcile that was cut short leaves the object. -/
theorem CutShort.left
    {tags : Table String String}
    {k : Key}
    {o : Object}
    {s : Session μ}
    (hCut : m.CutShort tags k s)
    (hRepeatable : m.Repeatable a)
    (hKey : o.key = k)
    (hPersisted : o.persisted = o)
    (hStored : s.scene.store.object? k = some o)
    (hUndisturbed : s.Undisturbed) :
    ∃ fs ∈ m.passed a o o.metadata.finalizers, ∃ version,
      (m.reconcileRecovered tags k s).2.scene.store.object?
          k =
        o.left? o.metadata.finalizers fs o.status
          version := by
  let r : Trial μ :=
    { key := k
      obj := o
      tokens := o.metadata.finalizers
      version := o.metadata.resourceVersion
      start := s
      calm := False
      now := .epoch }
  have hBegins : r.Begins := ⟨hStored, hUndisturbed, nofun⟩
  exact (hBegins.ended hRepeatable hKey hPersisted tags).1
    hCut

/- A reconcile that nobody disturbs does what is planned. -/
theorem RunsCalmly.planned
    {tags : Table String String}
    {k : Key}
    {o : Object}
    {fs : List String}
    {version : Option String}
    {now : Instant}
    {s : Session μ}
    (hRuns : m.RunsCalmly tags k now s)
    (hRepeatable : m.Repeatable a)
    (hKey : o.key = k)
    (hPersisted : o.persisted = o)
    (hStored :
      s.scene.store.object? k =
        some (o.retokened fs version)) :
    let ran := m.reconcileRecovered tags k s
    let plan := m.plan a o now fs
    ran.1 = plan.recovered tags ∧
      ∃ version',
        ran.2.scene.store.object? k =
          o.left? fs plan.tokens plan.status version' := by
  let r : Trial μ :=
    { key := k
      obj := o
      tokens := fs
      version := version
      start := s
      calm := True
      now := now }
  have hUndisturbed : s.Undisturbed := by
    intro change hMember
    rw [hRuns.calm.alone] at hMember
    cases hMember
  have hBegins : r.Begins :=
    ⟨hStored, hUndisturbed, fun _ => hRuns.calm⟩
  exact (hBegins.ended hRepeatable hKey hPersisted tags).2
    trivial hRuns.goes

/-
  A reconcile that was cut short can be tried again.  What a
  second one leaves, and what it answers, is what a single
  one would have, but for the version; if the first one has
  already removed the object there is nothing to do.
-/
theorem retry_converges
    {tags : Table String String}
    {k : Key}
    {o : Object}
    {now : Instant}
    {first second single : Session μ}
    (hRepeatable : m.Repeatable a)
    (hKey : o.key = k)
    (hBudget : o.status.budget = none)
    (hPlain :
      o.kind = .plain →
        o.status = { payload := o.status.payload })
    (hFirst : first.scene.store.object? k = some o)
    (hUndisturbed : first.Undisturbed)
    (hCut : m.CutShort tags k first)
    (hSecond :
      second.scene.store.object? k =
        (m.reconcileRecovered tags k
          first).2.scene.store.object? k)
    (hSingle : single.scene.store.object? k = some o)
    (hCalmSecond : m.RunsCalmly tags k now second)
    (hCalmSingle : m.RunsCalmly tags k now single) :
    let again := m.reconcileRecovered tags k second
    let once := m.reconcileRecovered tags k single
    (again.2.scene.store.object? k).map
        (·.withVersion none) =
      (once.2.scene.store.object? k).map
        (·.withVersion none) ∧
    again.1 =
      if (second.scene.store.object? k).isSome then once.1
      else .ok .zero := by
  have hPersisted : o.persisted = o :=
    Object.persisted_of_noBudget hBudget hPlain
  have hResults := hRepeatable.answering.runs
  rcases hCut.left hRepeatable hKey hPersisted hFirst
      hUndisturbed with
    ⟨fs, hPassed, version, hLeft⟩
  rw [← hSecond] at hLeft
  have hPlan :
      m.plan a o now fs =
        m.plan a o now o.metadata.finalizers :=
    plan_passed hRepeatable.apart hResults hPassed
  rcases hCalmSingle.planned hRepeatable hKey hPersisted
      hSingle with
    ⟨hOnce, onceVersion, hOnceLeft⟩
  intro again once
  cases hFound : second.scene.store.object? k with
  | none =>
      rw [hFound] at hLeft
      rcases Object.left?_none hLeft.symm with
        ⟨⟨hDeleting, hNone, _⟩, hNever⟩
      rcases hCalmSecond.missing hFound with ⟨hZero, hGone⟩
      have hEmpty :
          (m.plan a o now o.metadata.finalizers).tokens =
            [] := by
        rw [← hPlan, hNone]
        exact plan_tokens_nil hDeleting hResults
      constructor
      · rw [hGone, hOnceLeft, hEmpty, ← hNone, hNever]
      · exact hZero
  | some found =>
      rw [hFound] at hLeft
      have hSome :
          (o.left? o.metadata.finalizers fs o.status
            version).isSome = true := by
        rw [← hLeft]
        rfl
      have hStored :
          second.scene.store.object? k =
            some (o.retokened fs version) := by
        rw [hFound, hLeft, Object.left?_status hSome]
        rfl
      rcases hCalmSecond.planned hRepeatable hKey hPersisted
          hStored with
        ⟨hAgain, againVersion, hAgainLeft⟩
      rw [hPlan] at hAgain hAgainLeft
      constructor
      · rw [hAgainLeft, hOnceLeft]
        -- The first run has not taken the last token.
        apply Object.left?_map
        apply Object.left?_keeps hSome
        exact fun hDeleting =>
          passed_subset hDeleting hPassed
      · exact hAgain.trans hOnce.symm

/- A step with a token of its name and a fixed result. -/
def retryStep
    (name : String)
    (result : StepResult) : Step Unit where
  name := name
  tokens := fun _ => [name]
  process := fun _ o => return (.ok, o)
  finalize := fun _ o => return (result, o)

/- The results of two such steps. -/
def retryAnswers : Answers Unit where
  process := fun _ => .ok
  finalize := fun step =>
    if step.name = "first" then
      .proceed (some (.ofSeconds 5))
    else
      .ok

/-
  A manager with two steps.  The one that is finalized last
  asks to come back.
-/
def retryManager : Manager Unit where
  operator := "operator"
  controller := "controller"
  kind := "TestObject"
  steps := [
    retryStep "first" (.proceed (some (.ofSeconds 5))),
    retryStep "second" .ok]
  conditions := true
  scheduler := none
  hook := none
  reporter := .discarding
  policy := .standard
  readOnly := false
  trackLast := false

/- An object that is being deleted, with both tokens. -/
def retryObject : Object where
  kind := .full
  metadata :=
    { Metadata.fresh "default" "object" with
      finalizers := ["first", "second"]
      deletionTimestamp := some .epoch
      resourceVersion := some "1" }
  status := {}

/- A host with that object. -/
def retryStart : Session Unit where
  scene :=
    { store := Store.insert retryObject {}
      clock := ⟨0⟩
      memory := () }

/- The same, but the next status write will fail. -/
def retryFailing : Session Unit :=
  { retryStart with
    scene := retryStart.scene.mapStore
      (·.failNext .status (.transient "unavailable")) }

/- The host after the reconcile that was cut short. -/
def retryCut : Session Unit :=
  (retryManager.reconcileRecovered [] guardKey
    retryFailing).2

theorem retry_steps
    {step : Step Unit}
    (hStep : step ∈ retryManager.steps) :
    ∃ name,
      step = retryStep name (retryAnswers.finalize step) := by
  rcases List.mem_cons.mp hStep with hFirst | hRest
  · rw [hFirst]
    exact ⟨"first", rfl⟩
  · rw [List.mem_singleton.mp hRest]
    exact ⟨"second", rfl⟩

theorem retry_repeatable :
    retryManager.Repeatable retryAnswers where
  writable := rfl
  unscheduled := rfl
  untracked := rfl
  apart :=
    { constant := by
        intro step hStep o o'
        rcases retry_steps hStep with ⟨name, hSame⟩
        rw [hSame]
        rfl
      apart := by
        refine List.pairwise_cons.mpr
          ⟨?_, List.pairwise_singleton _ _⟩
        intro step hStep o
        rw [List.mem_singleton.mp hStep]
        apply List.disjoint_singleton.mpr
        change "second" ∉ ["first"]
        decide }
  answering :=
    { hook := by
        intro hook hHook
        cases hHook
      process := by
        intro step hStep c o scene
        rcases retry_steps hStep with ⟨name, hSame⟩
        rw [hSame]
        exact ⟨rfl, rfl, rfl⟩
      finalize := by
        intro step hStep c o scene
        rcases retry_steps hStep with ⟨name, hSame⟩
        rw [hSame]
        exact ⟨by rw [← hSame], rfl, rfl⟩
      runs := by
        intro step hStep
        rcases List.mem_cons.mp hStep with hFirst | hRest
        · rw [hFirst]
          decide
        · rw [List.mem_singleton.mp hRest]
          decide }

/- The reconcile is cut short by its status write. -/
theorem retry_cutShort :
    retryManager.CutShort [] guardKey retryFailing := by
  have hFails :
      retryCut.journal.any (·.event.isFailure) = true := by
    decide +kernel
  rcases List.any_eq_true.mp hFails with
    ⟨mo, hMember, hFailure⟩
  unfold retryCut at hMember
  exact .inr
    ⟨_, mo, (List.nil_append _).symm, hMember, hFailure⟩

/- The host after another reconcile, and its answer. -/
def retryAgain :
    Except ReconcileError Duration × Session Unit :=
  retryManager.reconcileRecovered [] guardKey retryCut

/- The host after a single reconcile, and its answer. -/
def retryOnce :
    Except ReconcileError Duration × Session Unit :=
  retryManager.reconcileRecovered [] guardKey retryStart

/- A reconcile of the host that no failure awaits. -/
theorem retry_runsCalmly
    {s : Session Unit}
    (hAlone : s.others.isEmpty = true)
    (hGet : s.scene.store.getFailures = [])
    (hPatch : s.scene.store.patchFailures = [])
    (hStatus : s.scene.store.statusFailures = [])
    (hClock : s.scene.clock = ⟨0⟩)
    (hGoes :
      (retryManager.reconcileRecovered [] guardKey
        s).2.scene.cancelled = false) :
    retryManager.RunsCalmly [] guardKey .epoch s where
  calm :=
    { alone := List.isEmpty_iff.mp hAlone
      quiet := ⟨hGet, hPatch, hStatus⟩
      clock := by
        rw [hClock]
        rfl }
  goes := hGoes

/- One token came off before the reconcile was cut short. -/
example :
    (retryCut.scene.store.object? guardKey).map
        (·.metadata.finalizers) = some ["first"] ∧
      retryAgain.1.toOption = some (.ofSeconds 5) := by
  decide +kernel

theorem retry_second :
    retryManager.RunsCalmly [] guardKey .epoch retryCut := by
  apply retry_runsCalmly <;> decide +kernel

theorem retry_single :
    retryManager.RunsCalmly [] guardKey .epoch
      retryStart := by
  apply retry_runsCalmly <;> decide +kernel

theorem retry_stored :
    retryFailing.scene.store.object? guardKey =
        some retryObject ∧
      retryStart.scene.store.object? guardKey =
        some retryObject := by
  decide +kernel

theorem failing_retry_converges :
    retryManager.CutShort [] guardKey retryFailing ∧
      retryManager.RunsCalmly [] guardKey .epoch retryCut ∧
      retryManager.RunsCalmly [] guardKey .epoch
        retryStart ∧
      (retryAgain.2.scene.store.object? guardKey).map
          (·.withVersion none) =
        (retryOnce.2.scene.store.object? guardKey).map
          (·.withVersion none) ∧
      retryAgain.1 =
        if (retryCut.scene.store.object? guardKey).isSome
        then retryOnce.1
        else .ok .zero := by
  have hKey : retryObject.key = guardKey := rfl
  have hUndisturbed : retryFailing.Undisturbed := by
    intro change hMember
    cases hMember
  have hSecond :
      retryCut.scene.store.object? guardKey =
        (retryManager.reconcileRecovered [] guardKey
          retryFailing).2.scene.store.object? guardKey := by
    unfold retryCut
    rfl
  refine ⟨retry_cutShort, retry_second, retry_single, ?_⟩
  unfold retryAgain retryOnce
  exact retry_converges retry_repeatable hKey rfl nofun
    retry_stored.1 hUndisturbed retry_cutShort hSecond
    retry_stored.2 retry_second retry_single

end Manager

end Reconciler
