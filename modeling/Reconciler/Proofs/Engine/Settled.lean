import Reconciler.Proofs.Engine.Progress

/-
  This file says what a run on a live object leaves behind.

  Nobody hinders the run, and the manager keeps no schedule
  and no time.  If such a run succeeds, or a step asks for a
  retry, the stored object has every declared token, and its
  conditions tell the results of the executed steps and the
  readiness that they amount to; so does the answer.

  Key definitions include:
    * `Manager.Settled`
    * `Manager.Settles`
    * `Manager.Leaves`

  Key theorems include:
    * `Manager.Progress.settled`
    * `Manager.persistStatus_settles`
    * `Manager.approach_progress`
    * `Manager.reconcile_leaves`
-/

namespace Reconciler

namespace Manager

open Engine

variable {μ : Type}
variable {m : Manager μ}
variable {k : Key}
variable {o : Object}
variable {start s : Session μ}
variable {w : Work}

------------------------------------------------------------
-- The Close
------------------------------------------------------------

/- A manager keeps conditions of objects that have them. -/
theorem conditions_of_capable
    (hCapable : m.missingCapability? o = none)
    (hEnabled : m.conditions = true) :
    o.has .conditions = true := by
  cases hHas : o.has .conditions with
  | true => rfl
  | false =>
      unfold missingCapability? at hCapable
      rw [hEnabled, hHas] at hCapable
      cases hCapable

/- The condition of a readiness, at no time yet. -/
def settledReadiness
    (o : Object)
    (v : Verdict) : Condition :=
  Conditions.ofReadiness .epoch o.metadata v.readiness

/-
  What a run leaves of the object that it has fetched: every
  declared token is there, and the conditions tell the
  results of the steps and the readiness of the object.
-/
structure Settled
    (m : Manager μ)
    (k : Key)
    (o : Object)
    (results : List Executed)
    (v : Verdict)
    (stored : Object) : Prop where
  key : stored.key = k
  live : stored.isDeleting = false
  generation :
    stored.metadata.generation = o.metadata.generation
  kind : stored.kind = o.kind
  armed :
    ∀ t ∈ Tokens.declared m.steps o,
      t ∈ stored.metadata.finalizers
  tells :
    m.conditions = true →
      ∀ r ∈ results,
        stored.Tells (Conditions.recorded o.metadata r)
  ready :
    m.conditions = true → stored.Tells (settledReadiness o v)

/- The results of a run and its readiness are told. -/
def Summary
    (m : Manager μ)
    (k : Key)
    (o : Object)
    (start : Session μ)
    (results : List Executed)
    (v : Verdict)
    (w : Work)
    (s : Session μ) : Prop :=
  m.Progress k o
      (results.map (Conditions.recorded o.metadata) ++
        [settledReadiness o v]) w s ∧
    Ran start results s

/- What a run with such an answer leaves behind. -/
def Settles
    (m : Manager μ)
    (k : Key)
    (o : Object)
    (start : Session μ)
    (results : List Executed)
    (v : Verdict)
    (s : Session μ) : Prop :=
  (∃ stored,
    s.scene.store.object? k = some stored ∧
      m.Settled k o results v stored) ∧
    Ran start results s

/-
  An object is settled that differs from the fetched one in
  tokens, version and status only, and that holds the
  conditions of the working copy.
-/
theorem Progress.settled
    {results : List Executed}
    {v : Verdict}
    {x : Object}
    (hProgress :
      m.Progress k o
        (results.map (Conditions.recorded o.metadata) ++
          [settledReadiness o v]) w s)
    (hKey : o.key = k)
    (hLive : o.isDeleting = false)
    (hCapable : m.missingCapability? o = none)
    (hMetadata : x.metadata = o.metadata)
    (hKind : x.kind = o.kind)
    (hConditions :
      o.has .conditions = true →
        x.status.conditions = w.obj.status.conditions)
    (version : Option String) :
    m.Settled k o results v
      (x.retokened w.snapshot.metadata.finalizers version) := by
  have hHas :
      m.conditions = true → o.has .conditions = true :=
    conditions_of_capable hCapable
  have hTells :
      m.conditions = true →
        ∀ c,
          w.obj.Tells c →
            (x.retokened w.snapshot.metadata.finalizers
              version).Tells c := by
    intro hEnabled c hTold
    refine Object.Tells.retokened ?_ _ _
    refine hTold.moved ?_ (hConditions (hHas hEnabled))
    unfold Object.has
    rw [hKind]
    exact hHas hEnabled
  refine
    { key := ?_
      live := ?_
      generation := ?_
      kind := hKind
      armed := ?_
      tells := ?_
      ready := ?_ }
  · rw [← hKey]
    change x.metadata.key = o.metadata.key
    rw [hMetadata]
  · rw [← hLive]
    change x.metadata.isDeleting = o.metadata.isDeleting
    rw [hMetadata]
  · change x.metadata.generation = _
    rw [hMetadata]
  · intro t hToken
    have hOwn := hProgress.armed t hToken
    rw [← hProgress.proceeds.mirrors.tokens] at hOwn
    exact hOwn
  · intro hEnabled r hMember
    refine hTells hEnabled _ (hProgress.tells hEnabled _ ?_)
    exact List.mem_append_left _ (List.mem_map_of_mem hMember)
  · intro hEnabled
    refine hTells hEnabled _ (hProgress.tells hEnabled _ ?_)
    exact List.mem_append_right _ (List.mem_singleton_self _)

/- Nothing is parked without a schedule. -/
theorem parked?_eq_none
    (hScheduler : m.scheduler = none)
    (w : Work) :
    m.parked? w = none := by
  unfold parked?
  rw [hScheduler]

/- Nothing is stamped without schedule and time. -/
theorem stamped_eq
    (hScheduler : m.scheduler = none)
    (hTrack : m.trackLast = false)
    (w : Work) :
    m.stampTime <$> m.stampSlot w =
      (pure w : Engine μ Work) := by
  unfold stampSlot stampTime
  rw [hScheduler, hTrack]
  rfl

/- Without a schedule there is no label to drop. -/
theorem clearRefreshLabel_eq
    (hScheduler : m.scheduler = none)
    (w : Work) :
    m.clearRefreshLabel w = (pure () : Engine μ Unit) := by
  unfold clearRefreshLabel
  rw [hScheduler]
  rfl

/- The readiness of the object is told last. -/
theorem sumUp_summary
    {results : List Executed}
    {e : ChainEnd}
    (hScheduler : m.scheduler = none)
    (hTrack : m.trackLast = false) :
    Triple (m.Recounts k o start results e.work) (m.sumUp e)
      (fun w' s =>
        w'.requeue = e.work.requeue ∧
          m.Summary k o start results e.verdict w' s)
      Unanswered := by
  have hReadiness :
      ∀ w : Work,
        Triple (m.Recounts k o start results w)
          (m.recordReadiness e.verdict.readiness w)
          (fun w' s =>
            w'.requeue = w.requeue ∧
              m.Summary k o start results e.verdict w' s)
          Unanswered := by
    intro w
    refine (setCondition_progress
      (c := settledReadiness o e.verdict) ?_ ?_ ?_).mono
        (fun _ h => h) (fun _ _ h => ⟨h.1.1, h.2⟩)
        (fun _ _ h => h)
    · exact List.mem_cons_self
    · intro c hTold
      rcases List.mem_map.mp hTold with ⟨r, _, rfl⟩
      exact Phase.conditionType_ne_ready _ _
    · intro s h t cs
      change
        Conditions.set
          (Conditions.ofReadiness t w.obj.metadata
            e.verdict.readiness) cs = _
      rw [Conditions.ofReadiness_eq h.generation]
      rfl
  cases e with
  | retry w step requeue cause => exact hReadiness w
  | completed w =>
      refine .bind (hReadiness w) ?_
      intro w'
      split
      · exact .pure (fun _ h => h)
      · rw [stamped_eq hScheduler hTrack]
        exact .pure (fun _ h => h)

/- The status is written without a failure. -/
theorem persistStatus_settles
    {results : List Executed}
    {v : Verdict}
    (hWritable : m.readOnly = false)
    (hKey : o.key = k)
    (hLive : o.isDeleting = false)
    (hCapable : m.missingCapability? o = none) :
    Triple (m.Summary k o start results v w)
      (m.persistStatus w)
      (fun r s =>
        (∃ w', r = .ok w' ∧ w'.requeue = w.requeue) ∧
          m.Settles k o start results v s)
      Unanswered := by
  have hStored :
      ∀ s : Session μ, Proceeds k o w s →
        ∃ x,
          (x = o ∨ x = o.persisted) ∧
            s.scene.store.object? k =
              some
                (x.retokened w.snapshot.metadata.finalizers
                  w.snapshot.metadata.resourceVersion) := by
    intro s h
    cases h.mirrors.holds with
    | stored hSame hObject => exact ⟨_, hSame, hObject⟩
    | gone hDeleting _ _ =>
        rw [hLive] at hDeleting
        cases hDeleting
  refine m.persistStatus_triple
    (W := fun r s =>
      (∃ stored, r = .ok stored) ∧
        m.Settles k o start results v s)
    (fun _ h => ⟨h.1.resume, h.2.resume⟩) ?_ ?_ ?_ ?_ ?_ ?_ ?_
  · intro hSkip s h
    rcases hStored s h.1.proceeds with ⟨x, hSame, hObject⟩
    have hStatus : w.obj.status = o.status := by
      rcases hSkip with hReadOnly | hStatus
      · rw [hWritable] at hReadOnly
        cases hReadOnly
      · rw [hStatus, h.1.proceeds.mirrors.snapshot]
        rfl
    refine ⟨⟨w, rfl, rfl⟩, ⟨_, hObject, ?_⟩, h.2⟩
    rcases hSame with rfl | rfl
    · exact h.1.settled hKey hLive hCapable rfl rfl
        (fun _ => by rw [hStatus]) _
    · refine h.1.settled hKey hLive hCapable
        o.persisted_metadata o.persisted_kind ?_ _
      intro hHas
      have hKept :
          o.persisted.conditions? =
            some o.status.conditions :=
        o.conditions?_persisted.trans (if_pos hHas)
      rw [hStatus]
      exact (Object.conditions?_eq_some hKept).2
  · intro s h hCancelled
    exact (h.1.proceeds.unhindered.not_cancelled hCancelled).elim
  · intro _ _
    refine .onStore ?_
    rintro s r store ⟨h, _⟩ hRun
    rcases h.1.proceeds.mirrors.status_cases hKey hRun with
      ⟨_, _, _, hQueued⟩ | ⟨stored, hOk, _, hObject⟩
    · rcases hStored s h.1.proceeds with ⟨x, _, hSome⟩
      refine absurd
        h.1.proceeds.unhindered.clear.quiet.status
        (hQueued ?_)
      rw [hSome]
      rfl
    · rw [hOk]
      refine
        ⟨⟨_, rfl⟩, ⟨_, hObject, ?_⟩, h.2.moveTo rfl _⟩
      exact h.1.settled
        (x := o.mapStatus (fun _ => w.obj.status)) hKey hLive
        hCapable rfl rfl (fun _ => rfl) _
  · exact fun _ _ _ h => h
  · exact fun _ _ h => ⟨⟨_, rfl, rfl⟩, h.2⟩
  · rintro e _ s _ ⟨⟨_, hOk⟩, _⟩
    cases hOk
  · rintro e _ s ⟨⟨_, hOk⟩, _⟩
    cases hOk

/- A run is closed with the answer of its verdict. -/
theorem close_settles
    {results : List Executed}
    {e : ChainEnd}
    (hScheduler : m.scheduler = none)
    (hWritable : m.readOnly = false)
    (hKey : o.key = k)
    (hLive : o.isDeleting = false)
    (hCapable : m.missingCapability? o = none)
    (hRequeue : w.requeue = e.work.requeue) :
    Triple (m.Summary k o start results e.verdict w)
      (m.close e w)
      (fun d s =>
        e.verdict.answer = .ok d ∧
          m.Settles k o start results e.verdict s)
      (fun h s =>
        ∀ step requeue cause,
          h = .failed (.step step requeue cause) →
            e.verdict.answer =
                .error (.step step requeue cause) ∧
              m.Settles k o start results e.verdict s) := by
  have hPersist :
      Triple (m.Summary k o start results e.verdict w)
        (m.persistStatus w)
        (fun r s =>
          (∃ w', r = .ok w' ∧ w'.requeue = w.requeue) ∧
            m.Settles k o start results e.verdict s)
        Unanswered :=
    persistStatus_settles hWritable hKey hLive hCapable
  cases e with
  | retry w₀ step requeue cause =>
      refine .bind (hPersist.mono (fun _ h => h)
        (fun _ _ h => h) ?_) ?_
      · exact fun h s hNone step requeue cause hEq =>
          absurd hEq (hNone step requeue cause)
      · intro r
        refine .fail ?_
        rintro s ⟨_, h⟩ step' requeue' cause' hEq
        cases hEq
        exact ⟨rfl, h⟩
  | completed w₀ =>
      refine .bind (hPersist.mono (fun _ h => h)
        (fun _ _ h => h) ?_) ?_
      · exact fun h s hNone step requeue cause hEq =>
          absurd hEq (hNone step requeue cause)
      · intro r
        refine .assume ?_
        rintro ⟨w', rfl, hSame⟩
        have hAnswer :
            ∀ s,
              m.Settles k o start results
                  (ChainEnd.completed w₀).verdict s →
                (ChainEnd.completed w₀).verdict.answer =
                    .ok w'.requeue ∧
                  m.Settles k o start results
                    (ChainEnd.completed w₀).verdict s := by
          intro s h
          refine ⟨?_, h⟩
          rw [hSame, hRequeue]
          rfl
        dsimp only
        rw [clearRefreshLabel_eq hScheduler]
        split
        · exact .pure hAnswer
        · exact .pure hAnswer

------------------------------------------------------------
-- The Way to the Chain
------------------------------------------------------------

/- A fetch that nobody hinders hands back what is stored. -/
theorem fetch_stored
    {J : Session μ → Prop}
    (hResumed : ∀ s, J s → J s.resume)
    (hFetched :
      ∀ (s : Session μ) store,
        store.objects = s.scene.store.objects →
          store.Quiet →
            J s →
              J (s.moveTo (.fetched k (.ok o))
                { s.scene with store := store })) :
    Triple
      (fun s => Untouched k o s ∧ s.Unhindered ∧ J s)
      (await (some <$> fetch k))
      (fun r s =>
        r = .ok o ∧ Untouched k o s ∧ s.Unhindered ∧ J s)
      (fun _ _ => False) := by
  refine .await
    (M := fun s => Untouched k o s ∧ s.Unhindered ∧ J s)
    (fun s h => ⟨h.1.resume, h.2.1.resume, hResumed s h.2.2⟩)
    ?_ (.map (.onStore ?_))
  · intro s h hCancelled
    exact (h.2.1.not_cancelled hCancelled).elim
  · rintro s r store ⟨⟨hUntouched, hUnhindered, hJ⟩, _⟩ hRun
    have hOk :=
      hUnhindered.clear.quiet.get_ok hUntouched.stored
    have hObjects := Store.get_objects k s.scene.store
    have hQuiet := hUnhindered.clear.quiet.afterGet k
    rw [hRun] at hOk hObjects hQuiet
    have hOk : r = .ok o := hOk
    rw [hOk]
    exact ⟨rfl, hUntouched.idle _ hObjects,
      hUnhindered.moveTo _
        (hUnhindered.clear.withStore hQuiet),
      hFetched s store hObjects hQuiet hJ⟩

/- What the patch of the declared tokens leaves alone. -/
theorem ensureTokens_arms
    (hWritable : m.readOnly = false)
    (hLive : w.obj.isDeleting = false) :
    Triple (fun _ => True) (m.ensureTokens w)
      (fun w' _ =>
        w'.deleting = w.deleting ∧
          w'.hasError = w.hasError ∧
          w'.obj.kind = w.obj.kind ∧
          ∀ t ∈ Tokens.declared m.steps w.obj,
            t ∈ w'.obj.metadata.finalizers)
      (fun _ _ => True) := by
  have hCases :
      ∀ t ∈ Tokens.declared m.steps w.obj,
        t ∈ w.obj.metadata.finalizers ∨
          t ∈ Tokens.missing m.steps w.obj := by
    intro t hToken
    by_cases hHas : t ∈ w.obj.metadata.finalizers
    · exact .inl hHas
    · exact .inr ((Tokens.mem_missing m.steps w.obj t).mpr
        ⟨List.mem_flatMap.mp hToken, hHas⟩)
  refine m.ensureTokens_triple (E := fun _ => True)
    (fun _ _ => trivial) (fun _ _ _ => trivial)
    (fun _ _ _ => trivial) (fun _ _ _ => trivial) ?_ ?_
  · intro s _ hNothing
    refine ⟨rfl, rfl, rfl, ?_⟩
    intro t hToken
    rcases hNothing with hReadOnly | hDeleting | hNone
    · rw [hWritable] at hReadOnly
      cases hReadOnly
    · rw [hLive] at hDeleting
      cases hDeleting
    · rcases hCases t hToken with hHas | hMissing
      · exact hHas
      · rw [hNone] at hMissing
        cases hMissing
  · intro _ _ _
    refine sendTokens_triple ?_ (fun _ _ _ _ _ => trivial)
    intro s stored store _ _
    rcases Tokens.addAll_cases
      (Tokens.missing m.steps w.obj) w.obj with
      ⟨fs, hAdded, hAll⟩
    refine ⟨rfl, rfl, rfl, ?_⟩
    intro t hToken
    dsimp only
    rw [hAdded]
    exact (hAll t).mpr (hCases t hToken)

/- The hook is called, and hands back a context. -/
theorem prepare_progress
    (hBehave : m.StepsBehave)
    (hClear : m.StepsClear)
    (hHook : m.HookSucceeds k) :
    Triple (m.Recounts k o start [] w)
      (m.prepare (m.context k) w)
      (fun r s =>
        ∃ c, r = some c ∧ m.Recounts k o start [] w s)
      Unanswered := by
  unfold prepare
  split
  · exact .pure (fun _ h => ⟨_, rfl, h⟩)
  · next hook hSome =>
      refine .bind
        (Q := fun r s =>
          ∃ c, r = .ok c ∧ m.Recounts k o start [] w s)
        (.await (M := m.Recounts k o start [] w)
          (fun _ h => ⟨h.1.resume, h.2.resume⟩)
          (fun _ _ _ => nofun) ?_) ?_
      · refine .bind
          (.note (Q := fun _ =>
            m.Recounts k o start [] w) ?_) ?_
        · rintro s ⟨h, _⟩
          exact
            ⟨h.1.idle _ rfl h.1.proceeds.unhindered.clear,
              h.2.moveTo rfl s.scene⟩
        intro _
        refine .call ?_ (fun _ _ _ _ => nofun)
          (fun _ _ _ _ _ => nofun)
        intro s r scene h hRun
        rcases hHook hook hSome w.obj s.scene with
          ⟨c, scene', hOk⟩
        have hObjects :=
          hBehave.hook hook hSome (m.context k) w.obj s.scene
        rw [hRun] at hObjects
        have hGoes :=
          hClear.hook hook hSome (m.context k) w.obj s.scene r
            scene h.1.proceeds.unhindered.clear hRun
        rw [hRun] at hOk
        cases hOk
        exact ⟨c, rfl, h.1.idle _ hObjects hGoes,
          h.2.moveTo rfl scene⟩
      · intro r
        refine .named (fun c => .assume ?_)
        rintro rfl
        exact .pure (fun _ h => ⟨c, rfl, h⟩)

/- A run that nobody hinders comes to its chain. -/
theorem approach_progress
    (hScheduler : m.scheduler = none)
    (hWritable : m.readOnly = false)
    (hBehave : m.StepsBehave)
    (hClear : m.StepsClear)
    (hHook : m.HookSucceeds k)
    (hKey : o.key = k)
    (hLive : o.isDeleting = false)
    (hUntouched : Untouched k o start)
    (hUnhindered : start.Unhindered) :
    Triple (fun s => s = start) (m.approach k)
      (fun r s =>
        ∃ c w,
          (r = .ok (c, w) ∧ w.requeue = .zero ∧
            w.hasError = false ∧ w.deleting = false ∧
            m.missingCapability? o = none) ∧
            m.Recounts k o start [] w s)
      Unanswered := by
  unfold approach
  refine .bind
    (Q := fun r s =>
      r = .ok o ∧ Untouched k o s ∧ s.Unhindered ∧
        Ran start [] s) ?_ ?_
  · refine (fetch_stored (fun _ h => h.resume)
      (fun _ _ _ _ h => h.moveTo rfl _)).mono ?_
        (fun _ _ h => h) (fun _ _ h => h.elim)
    rintro s rfl
    exact ⟨hUntouched, hUnhindered, [], by simp, rfl⟩
  intro r
  refine .assume ?_
  rintro rfl
  dsimp only
  refine .bind
    (Q := fun _ s =>
      m.missingCapability? o = none ∧ Untouched k o s ∧
        s.Unhindered ∧ Ran start [] s) ?_ ?_
  · unfold checkCapabilities
    split
    · next hCapable => exact .pure (fun _ h => ⟨hCapable, h⟩)
    · exact .bind
        (m.emit_triple _ (P := fun _ => True)
          (fun _ _ _ => trivial) |>.mono (fun _ _ => trivial)
            (fun _ _ h => h) (fun _ _ h => h))
        (fun _ => .fail (fun _ _ => nofun))
  intro _
  refine .assume ?_
  intro hCapable
  refine .bind
    (.clock
      (Q := fun _ s =>
        Untouched k o s ∧ s.Unhindered ∧ Ran start [] s)
      (fun _ _ h _ => h) (fun _ _ _ _ => nofun)) ?_
  intro now
  rw [parked?_eq_none hScheduler]
  have hLasting :
      Session.Lasting (fun _ : Session μ => True) :=
    ⟨fun _ _ _ => trivial, fun _ _ _ _ => trivial⟩
  refine .bind
    (Q := fun w s =>
      (w.requeue = .zero ∧ w.hasError = false ∧
        w.deleting = false) ∧
        m.Recounts k o start [] w s) ?_ ?_
  · have hRuns :
        Triple (Ran start [])
          (m.ensureTokens (Work.fresh o now))
          (fun w s => w.requeue = .zero ∧ Ran start [] s)
          (HaltedEarly start) :=
      ensureTokens_ran
    refine
      (((ensureTokens_proceeds hLasting hKey hLive).and
        hRuns).and
          (ensureTokens_arms hWritable hLive)).mono ?_ ?_
            (fun _ _ h => h.1.1.elim)
    · rintro s ⟨hHeld, hGoes, hRan⟩
      exact ⟨⟨⟨⟨hHeld.mirrors, hGoes⟩, trivial⟩, hRan⟩, trivial⟩
    · rintro w s
        ⟨⟨⟨hProceeds, _⟩, hRequeue, hRan⟩, hDeleting,
          hError, hKind, hArmed⟩
      refine ⟨⟨hRequeue, hError, hDeleting.trans hLive⟩, ?_,
        hRan⟩
      refine
        { proceeds := hProceeds
          live := hDeleting.trans hLive
          armed := hArmed
          kept := ?_
          named := by simp
          tells := by simp }
      intro hEnabled
      unfold Object.has
      rw [hKind]
      exact conditions_of_capable hCapable hEnabled
  intro armed
  refine .assume ?_
  rintro ⟨hRequeue, hError, hDeleting⟩
  refine .bind
    (Q := fun w s =>
      (w.requeue = .zero ∧ w.hasError = false) ∧
        m.Recounts k o start [] w s)
    ((seedCondition_progress
      (fun _ _ => ⟨_, rfl⟩)).mono (fun _ h => h) ?_
        (fun _ _ h => h)) ?_
  · intro w s h
    exact ⟨⟨h.1.1.trans hRequeue, h.1.2.1.trans hError⟩, h.2⟩
  intro seeded
  refine .assume ?_
  rintro ⟨hRequeue, hError⟩
  refine .bind (prepare_progress hBehave hClear hHook) ?_
  intro prepared
  refine .named (fun c => .assume ?_)
  rintro rfl
  refine .pure (fun s h => ?_)
  exact ⟨c, seeded,
    ⟨rfl, hRequeue, hError, h.1.live, hCapable⟩, h⟩

------------------------------------------------------------
-- Whole Runs
------------------------------------------------------------

/-
  A run with an answer has executed steps whose results come
  to that answer, and has left a settled object.
-/
def Leaves
    (m : Manager μ)
    (k : Key)
    (o : Object)
    (start : Session μ)
    (answer : Except ReconcileError Duration)
    (s : Session μ) : Prop :=
  ∃ results,
    (Answered m.steps results ∧
      (Verdict.ofResults results .zero false).answer =
        answer ∧
      m.missingCapability? o = none) ∧
      m.Settles k o start results
        (Verdict.ofResults results .zero false) s

/-
  A run on a live object that nobody hinders leaves it
  settled, if it succeeds or a step asks for a retry.
-/
theorem reconcile_leaves
    (hScheduler : m.scheduler = none)
    (hTrack : m.trackLast = false)
    (hWritable : m.readOnly = false)
    (hBehave : m.StepsBehave)
    (hClear : m.StepsClear)
    (hSpares : m.SparesConditions)
    (hNames : m.stepNames.Nodup)
    (hHook : m.HookSucceeds k)
    (hKey : o.key = k)
    (hLive : o.isDeleting = false)
    (hUntouched : Untouched k o start)
    (hUnhindered : start.Unhindered) :
    Triple (fun s => s = start) (m.reconcile k)
      (fun d => m.Leaves k o start (.ok d))
      (fun h s =>
        ∀ step requeue cause,
          h = .failed (.step step requeue cause) →
            m.Leaves k o start
              (.error (.step step requeue cause)) s) := by
  have hSilent :
      ∀ h (s : Session μ), Unanswered h s →
        ∀ step requeue cause,
          h = .failed (.step step requeue cause) →
            m.Leaves k o start
              (.error (.step step requeue cause)) s :=
    fun h s hNone step requeue cause hEq =>
      absurd hEq (hNone step requeue cause)
  rw [m.reconcile_eq_approach]
  refine .bind
    ((approach_progress hScheduler hWritable hBehave hClear
      hHook hKey hLive hUntouched hUnhindered).mono
        (fun _ h => h) (fun _ _ h => h) hSilent) ?_
  intro r
  refine .named (fun c => .named (fun w => .assume ?_))
  rintro ⟨rfl, hRequeue, hError, hDeleting, hCapable⟩
  dsimp only
  have hOrder : m.order w.deleting = m.steps := by
    unfold order
    rw [hDeleting]
    rfl
  rw [hOrder]
  refine .bind
    ((runChain_progress hBehave hClear hSpares hLive
      (fun _ hStep => hStep) hNames (by simp)).mono
        (fun _ h => h) (fun _ _ h => h) hSilent) ?_
  intro e
  refine .named (fun results => .assume ?_)
  rintro ⟨hAnswered, hVerdict⟩
  rw [hRequeue, hError] at hVerdict
  rw [List.nil_append]
  refine .bind
    ((sumUp_summary hScheduler hTrack).mono (fun _ h => h)
      (fun _ _ h => h) hSilent) ?_
  intro w'
  refine .assume ?_
  intro hSame
  refine (close_settles hScheduler hWritable hKey hLive hCapable
    hSame).mono (fun _ h => h) ?_ ?_
  · rintro d s ⟨hAnswer, hSettles⟩
    rw [hVerdict] at hAnswer hSettles
    exact ⟨results, ⟨hAnswered, hAnswer, hCapable⟩, hSettles⟩
  · intro h s hEnd step requeue cause hEq
    rcases hEnd step requeue cause hEq with ⟨hAnswer, hSettles⟩
    rw [hVerdict] at hAnswer hSettles
    exact ⟨results, ⟨hAnswered, hAnswer, hCapable⟩, hSettles⟩

end Manager

end Reconciler
