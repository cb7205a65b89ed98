import Reconciler.Proofs.Engine.Shadow

/-
  This file compares whole runs of a read-only manager with
  those of the same manager that writes.

  The shadowing goes on up to the status write.  After that
  the run that writes may pause and write more often, but no
  write of it can fail, and nothing that it does there shows
  in the answer.

  Key definitions include:
    * `Manager.Trails`
    * `Manager.StartsLike`
    * `Manager.Tandem`

  Key theorems include:
    * `Manager.sumUp_shadows`
    * `Manager.close_shadows`
    * `Manager.draft_shadows`
    * `Manager.reconcile_shadows`
    * `Manager.reconcileRecovered_shadows`
-/

namespace Reconciler

namespace Manager

open Engine

variable {μ ν : Type}
variable {V : μ → ν → Prop}
variable {m : Manager μ}
variable {hook : Option (Hook ν)}
variable {steps rest : List (Step ν)}
variable {k : Key}
variable {o : Object}
variable {start s : Session μ}
variable {start' t : Session ν}
variable {w v : Work}

------------------------------------------------------------
-- Before the Chain
------------------------------------------------------------

/- A read-only manager puts no tokens on. -/
theorem addTokens_readOnly
    (left : List (Step μ))
    (c : Copies) :
    addTokens true left c =
      (pure (.ok false, c) :
        Engine μ (Except StoreError Bool × Copies)) :=
  rfl

/- Tokens are put on a live object in one of the runs. -/
theorem ensureTokens_shadows
    (hReadOnly : m.readOnly = true)
    (hKey : o.key = k) :
    Abreast (Shadows V k o start start' rest w v)
      (m.ensureTokens w)
      ((m.recast hook steps false).ensureTokens v)
      (fun w' v' => Shadows V k o start start' rest w' v')
      (Alike V start start') := by
  have hSent :
      ∀ s,
        Triple (Shadows V k o start start' rest w v s)
          (addTokens false steps v.toCopies)
          (fun r t =>
            ∃ sent copies,
              r = (.ok sent, copies) ∧
                Shadows V k o start start' rest w
                  { v with toCopies := copies } s t)
          (fun _ _ => False) := by
    intro s
    unfold addTokens
    split
    · exact .pure (fun t h => ⟨_, _, rfl, h⟩)
    · next hLive =>
        have hLive : v.obj.isDeleting = false := by
          simpa using hLive
        have hStays :
            ∀ t, Shadows V k o start start' rest w v s t →
              o.isDeleting = false :=
          fun t h => by
            rw [← h.inStep.mirrors.isDeleting]
            exact hLive
        split
        · exact .pure (fun t h => ⟨_, _, rfl, h⟩)
        · next hMissing =>
            rcases List.exists_mem_of_ne_nil _ hMissing with
              ⟨token, hToken⟩
            have hNew :=
              ((Tokens.mem_missing _ _ token).mp hToken).2
            rw [Tokens.addAll_eq]
            intro t h
            refine Shadows.sendTokens hKey
              (Tokens.merged_ne hToken hNew)
              (.inl (hStays t h)) ?_ t h
            intro t h hDeleting
            rw [hStays t h] at hDeleting
            cases hDeleting
  unfold ensureTokens
  rw [hReadOnly, addTokens_readOnly]
  refine .bind
    (Q := fun a b s t =>
      a = (.ok false, w.toCopies) ∧
        ∃ sent copies,
          b = (.ok sent, copies) ∧
            Shadows V k o start start' rest w
              { v with toCopies := copies } s t)
    (.await (M := Shadows V k o start start' rest w v)
      (fun _ _ h => h.resume) (fun _ _ h => h.level.scenes)
      (.map (.right (fun s => (hSent s).mono (fun _ h => h)
        (fun _ _ h => ⟨rfl, h⟩) (fun _ _ h => h))))) ?_
  intro a b
  refine .assume ?_
  rintro rfl
  refine .named (fun sent => .named (fun copies => .assume ?_))
  rintro rfl
  exact .pure (fun _ _ h => h)

/- The hook is called by both runs, or by none. -/
theorem prepare_shadows
    {c : Context}
    (hBehave : (m.recast hook steps false).StepsBehave)
    (hQuiet : (m.recast hook steps false).StepsQuiet)
    (hLike : Option.Rel (Hook.Like V) m.hook hook) :
    Abreast (Shadows V k o start start' rest w v)
      (m.prepare c w)
      ((m.recast hook steps false).prepare c v)
      (fun r r' s t =>
        r' = r ∧ Shadows V k o start start' rest w v s t)
      (Alike V start start') := by
  have hCopies :
      ∀ s t, Shadows V k o start start' rest w v s t →
        w.obj.Agrees v.obj := by
    intro s t h
    rcases h.work with ⟨fs, version, hWork⟩
    rw [hWork]
    exact w.obj.agrees_retokened fs version
  have hHook :
      (m.recast hook steps false).hook = hook :=
    rfl
  unfold prepare
  rw [hHook]
  generalize hLeft : m.hook = left at hLike
  cases hLike with
  | none => exact .pure (fun _ _ h => ⟨rfl, h⟩)
  | @some f g hCalls =>
      refine .fact hCopies ?_
      intro hAgrees
      dsimp only
      refine .bind
        (Q := fun r r' s t =>
          r' = r ∧ Shadows V k o start start' rest w v s t)
        (.await (M := Shadows V k o start start' rest w v)
          (fun _ _ h => h.resume)
          (fun _ _ h => h.level.scenes) ?_) ?_
      · refine .bind
          (.note (Q := fun _ _ =>
            Shadows V k o start start' rest w v)
            (fun _ _ h => h.note rfl)) ?_
        intro _ _
        refine .call (hCalls c _ _ hAgrees)
          (fun _ _ h => h.level.scenes) ?_ ?_
        · intro s t r r' a b h _ hRun hSame hScenes
          exact ⟨hSame.symm, h.returned
            (hBehave.hook g rfl c v.obj)
            (hQuiet.hook g rfl c v.obj) hRun hScenes⟩
        · exact fun _ _ _ _ h hScenes =>
            h.alike.moveTo .returned hScenes
      · intro r r'
        refine .assume ?_
        rintro rfl
        cases r' with
        | ok c => exact .pure (fun _ _ h => ⟨rfl, h⟩)
        | error e =>
            have hEnds :
                Abreast
                  (Shadows V k o start start' rest w v)
                  (if e.retry then
                    fail (.prepare e.failure)
                  else
                    return none : Engine μ (Option Context))
                  (if e.retry then
                    fail (.prepare e.failure)
                  else
                    return none : Engine ν (Option Context))
                  (fun r r' s t =>
                    r' = r ∧
                      Shadows V k o start start' rest w v s
                        t)
                  (Alike V start start') := by
              split
              · exact .fail (fun _ _ h => h.alike)
              · exact .pure (fun _ _ h => ⟨rfl, h⟩)
            dsimp only
            split
            · exact .bind report_shadows
                (fun _ _ => hEnds)
            · exact hEnds

------------------------------------------------------------
-- Summing Up
------------------------------------------------------------

/- The next slot is drawn and stamped by both runs. -/
theorem stampSlot_shadows :
    Abreast (Shadows V k o start start' rest w v)
      (m.stampSlot w)
      ((m.recast hook steps false).stampSlot v)
      (fun w' v' => Shadows V k o start start' rest w' v')
      (Alike V start start') := by
  refine .fact (fun _ _ h => h.work) ?_
  rintro ⟨fs, version, rfl⟩
  have hScheduler :
      (m.recast hook steps false).scheduler = m.scheduler :=
    rfl
  have hHas :
      (w.retokened fs version).obj.has .spread =
        w.obj.has .spread :=
    rfl
  unfold stampSlot
  rw [hScheduler, hHas]
  split
  · exact .pure (fun _ _ h => h)
  · next sched _ =>
      split
      · exact .pure (fun _ _ h => h)
      · refine .bind
          (.read (Q := fun s t s' t' =>
            t.draws = s.draws ∧
              Shadows V k o start start' rest w
                (w.retokened fs version) s' t')
            (fun _ _ h => ⟨h.alike.draws, h⟩)) ?_
        intro s t
        refine .assume ?_
        intro hDraws
        have hSlot :
            sched.nextSlot? s.draws
                (w.retokened fs version).obj.status
                (w.retokened fs version).start =
              sched.nextSlot? s.draws w.obj.status w.start :=
          rfl
        dsimp only
        rw [hDraws, hSlot]
        refine .bind
          (.update (Q := fun _ _ =>
            Shadows V k o start start' rest w
              (w.retokened fs version))
            (fun _ _ h => h.drawn _)) ?_
        intro _ _
        split
        · exact .halt (fun _ _ h => h.alike)
        · exact .pure (fun _ _ h =>
            h.edited ⟨fs, version, rfl⟩ rfl rfl rfl rfl)

/- The time of the run is stamped by both runs. -/
theorem Shadows.stampTime
    (hShadows : Shadows V k o start start' rest w v s t) :
    Shadows V k o start start' rest (m.stampTime w)
      ((m.recast hook steps false).stampTime v) s t := by
  have hSelf := hShadows
  rcases hShadows.work with ⟨fs, version, rfl⟩
  have hAsked :
      ((m.recast hook steps false).trackLast &&
          (w.retokened fs version).obj.has .rateLimit) =
        (m.trackLast && w.obj.has .rateLimit) :=
    rfl
  unfold Manager.stampTime
  rw [hAsked]
  split
  · exact hSelf.edited ⟨fs, version, rfl⟩ rfl rfl rfl rfl
  · exact hSelf

/- Both runs record the same readiness. -/
theorem recordReadiness_shadows
    {r : Readiness} :
    Abreast (Shadows V k o start start' rest w v)
      (m.recordReadiness r w)
      ((m.recast hook steps false).recordReadiness r v)
      (fun w' v' => Shadows V k o start start' rest w' v')
      (Alike V start start') := by
  unfold recordReadiness
  exact updateConditions_shadows (fun _ _ _ _ => rfl)

/- Both runs sum up their chains in the same way. -/
theorem sumUp_shadows
    {e : ChainEnd} :
    Abreast (Shadows V k o start start' rest e.work v)
      (m.sumUp e)
      ((m.recast hook steps false).sumUp (e.withWork v))
      (fun w' v' => Shadows V k o start start' rest w' v')
      (Alike V start start') := by
  cases e with
  | retry w step requeue cause =>
      exact recordReadiness_shadows
  | completed w =>
      refine .fact (fun _ _ h => h.work) ?_
      rintro ⟨fs, version, rfl⟩
      refine .bind recordReadiness_shadows ?_
      intro w' v'
      refine .fact (fun _ _ h => h.work) ?_
      rintro ⟨fs', version', rfl⟩
      have hDeleting :
          (w'.retokened fs' version').deleting =
            w'.deleting :=
        rfl
      rw [hDeleting]
      split
      · exact .pure (fun _ _ h => h)
      · refine .map (stampSlot_shadows.mono (fun _ _ h => h)
          (fun _ _ _ _ h => ?_) (fun _ _ h => h))
        exact h.stampTime

------------------------------------------------------------
-- Closing
------------------------------------------------------------

/-
  The run that writes is still about its writes, while the
  other one has come to its end.
-/
structure Trails
    (V : μ → ν → Prop)
    (start : Session μ)
    (start' : Session ν)
    (s : Session μ)
    (t : Session ν) : Prop where
  alike : Alike V start start' s t
  level : ∃ s' : Session μ, s'.Like V t

/- Other tasks go on, and neither of them cancels the run. -/
theorem Trails.resume
    (hTrails : Trails V start start' s t) :
    Trails V start start' s t.resume where
  alike := hTrails.alike.resumeRight
  level := by
    rcases hTrails.level with ⟨s', hLevel⟩
    exact ⟨s'.resume, hLevel.resume⟩

/- A store operation shows nowhere but in the store. -/
theorem Trails.stored
    {e : Event}
    (hTrails : Trails V start start' s t)
    (hOther : e.isTurn = false)
    (store : Store) :
    Trails V start start' s
      (t.moveTo e { t.scene with store := store }) where
  alike := hTrails.alike.right hOther _
  level := by
    rcases hTrails.level with ⟨s', hLevel⟩
    exact ⟨s', hLevel.moveRight e
      (hLevel.scenes.withStores s'.scene.store store)⟩

/- The run that writes is not cancelled. -/
theorem Trails.goes
    (hTrails : Trails V start start' s t) :
    t.scene.cancelled = false := by
  rcases hTrails.level with ⟨_, hLevel⟩
  exact hLevel.scenes.goesRight

theorem Shadows.trails
    (hShadows : Shadows V k o start start' rest w v s t) :
    Trails V start start' s t :=
  ⟨hShadows.alike, s, hShadows.level⟩

/- A read-only manager writes no status. -/
theorem persistStatus_readOnly
    (hReadOnly : m.readOnly = true)
    (w : Work) :
    m.persistStatus w =
      (pure (.ok w) :
        Engine μ (Except ReconcileError Work)) := by
  unfold persistStatus
  rw [hReadOnly]
  rfl

/- A read-only manager leaves the refresh label. -/
theorem clearRefreshLabel_readOnly
    (hReadOnly : m.readOnly = true)
    (w : Work) :
    m.clearRefreshLabel w = (pure () : Engine μ Unit) := by
  unfold clearRefreshLabel
  rw [hReadOnly]
  cases m.scheduler <;> rfl

/- The status is written without a failure that counts. -/
theorem persistStatus_trails
    {n : Manager ν}
    (hKey : o.key = k) :
    Triple
      (fun t =>
        Trails V start start' s t ∧ InStep k o start' v t)
      (n.persistStatus v)
      (fun r t =>
        ∃ v',
          (r = .ok v' ∧ v'.requeue = v.requeue ∧
            v'.deleting = v.deleting) ∧
            Trails V start start' s t ∧ Rests k o start' v' t)
      (fun _ _ => False) := by
  have hWritten :
      Triple (InStep k o start' v) (sendStatus v.obj)
        (fun r t =>
          Rests k o start' v t ∧
            ∀ e, r = .error e →
              e.isNotFound = true ∧ v.obj.isDeleting = true)
        (fun _ _ => False) :=
    fun t h => InStep.sendStatus hKey t h
  have hTrails :
      Triple (Trails V start start' s) (sendStatus v.obj)
        (fun _ => Trails V start start' s)
        (fun _ _ => False) :=
    .onStore (fun _ _ store h _ => h.stored rfl store)
  unfold persistStatus
  split
  · exact .pure (fun _ h =>
      ⟨v, ⟨rfl, rfl, rfl⟩, h.1, h.2.rests hKey⟩)
  · refine .bind
      (Q := fun r t =>
        ∃ written,
          (r = some written ∧
            ∀ e, written = .error e →
              (e.isNotFound && v.obj.isDeleting) = true) ∧
            Trails V start start' s t ∧ Rests k o start' v t)
      (.cancellable
        (M := fun t =>
          Trails V start start' s t ∧ InStep k o start' v t)
        (fun _ h => ⟨h.1.resume, h.2.resume⟩) ?_
        (.map ((hTrails.and hWritten).mono (fun _ h => h.1)
          ?_ (fun _ _ h => h.1)))) ?_
    · intro t h hCancelled
      rw [h.1.goes] at hCancelled
      cases hCancelled
    · rintro r t ⟨hTrails, hRests, hGone⟩
      refine ⟨r, ⟨rfl, fun e hEq => ?_⟩, hTrails, hRests⟩
      exact Bool.and_eq_true_iff.mpr (hGone e hEq)
    intro r
    refine .named (fun written => .assume ?_)
    rintro ⟨rfl, hGone⟩
    cases written with
    | ok stored =>
        exact .pure (fun _ h =>
          ⟨_, ⟨rfl, rfl, rfl⟩, h.1,
            { h.2 with key := h.2.key }⟩)
    | error e =>
        dsimp only
        rw [if_pos (hGone e rfl)]
        exact .pure (fun _ h =>
          ⟨v, ⟨rfl, rfl, rfl⟩, h.1, h.2⟩)

/- The refresh label comes off without a failure. -/
theorem clearRefreshLabel_trails
    {n : Manager ν}
    (hLive : o.isDeleting = false) :
    Triple
      (fun t =>
        Trails V start start' s t ∧ Rests k o start' v t)
      (n.clearRefreshLabel v)
      (fun _ t => Alike V start start' s t)
      (fun _ _ => False) := by
  unfold clearRefreshLabel
  split
  · next hClears =>
      have hLabel := (Bool.and_eq_true_iff.mp hClears).2
      refine .bind
        (Q := fun r t =>
          (∃ stored, r = .ok stored) ∧
            Alike V start start' s t)
        (.await
          (M := fun t =>
            Trails V start start' s t ∧ Rests k o start' v t)
          (fun _ h => ⟨h.1.resume, h.2.resume⟩) ?_
          (.map (.onStore ?_))) ?_
      · intro t h hCancelled
        rw [h.1.goes] at hCancelled
        cases hCancelled
      · rintro t r store ⟨⟨hTrails, hRests⟩, _⟩ hRun
        rcases Option.isSome_iff_exists.mp
          (hRests.stored hLive) with ⟨stored, hStored⟩
        rw [← hRests.key] at hStored
        have hPatched := Store.patch_label_applied
          hRests.peace.quiet.patch hStored hLabel
        rw [hRun] at hPatched
        exact ⟨hPatched, hTrails.alike.right rfl _⟩
      intro r
      refine .assume ?_
      rintro ⟨stored, rfl⟩
      exact .pure (fun _ h => h)
  · exact .pure (fun _ h => h.1.alike)

/- Both runs hand back the same. -/
theorem close_shadows
    {e : ChainEnd}
    {v' : Work}
    (hReadOnly : m.readOnly = true)
    (hKey : o.key = k) :
    Abreast (Shadows V k o start start' rest w v)
      (m.close e w)
      ((m.recast hook steps false).close (e.withWork v') v)
      (fun d d' s t => d' = d ∧ Alike V start start' s t)
      (Alike V start start') := by
  have hPersist :
      Abreast (Shadows V k o start start' rest w v)
        (m.persistStatus w)
        ((m.recast hook steps false).persistStatus v)
        (fun r r' s t =>
          ∃ v',
            (r = .ok w ∧ r' = .ok v' ∧
              v'.requeue = w.requeue ∧
                v'.deleting = w.deleting) ∧
              Trails V start start' s t ∧
                Rests k o start' v' t)
        (Alike V start start') := by
    refine .fact (fun _ _ h => h.work) ?_
    rintro ⟨fs, version, rfl⟩
    rw [persistStatus_readOnly hReadOnly]
    refine .right (fun s => ?_)
    refine (persistStatus_trails hKey).mono
      (fun _ h => ⟨h.trails, h.inStep⟩) ?_ (fun _ _ h => h)
    rintro r t ⟨v', ⟨hOk, hRequeue, hDeleting⟩, h⟩
    exact ⟨v', ⟨rfl, hOk, hRequeue, hDeleting⟩, h⟩
  cases e with
  | retry w₀ step requeue cause =>
      refine .bind hPersist ?_
      intro r r'
      exact .fail (fun s t ⟨_, _, hTrails, _⟩ => hTrails.alike)
  | completed w₀ =>
      refine .bind hPersist ?_
      intro r r'
      refine .named (fun v' => .assume ?_)
      rintro ⟨rfl, rfl, hRequeue, hDeleting⟩
      dsimp only
      rw [hDeleting, clearRefreshLabel_readOnly hReadOnly]
      split
      · next hLive =>
          refine .bind
            (Q := fun _ _ => Alike V start start')
            (.right (fun s => ?_)) ?_
          · intro t h
            refine clearRefreshLabel_trails ?_ t h
            rw [← h.2.deleting, hDeleting]
            simpa using hLive
          · exact fun _ _ => .pure (fun _ _ h => ⟨hRequeue, h⟩)
      · exact .pure (fun _ _ h => ⟨hRequeue, h.1.alike⟩)

------------------------------------------------------------
-- Whole Runs
------------------------------------------------------------

/-
  Two hosts that store the same object and are alike, and in
  which nobody stands in the way of a run.
-/
structure StartsLike
    (V : μ → ν → Prop)
    (k : Key)
    (o : Object)
    (start : Session μ)
    (start' : Session ν) : Prop where
  level : start.Like V start'
  reports : start'.reports = start.reports
  draws : start'.draws = start.draws
  stored : start.scene.store.object? k = some o
  stored' : start'.scene.store.object? k = some o
  unopposed : start.Unopposed k
  unopposed' : start'.Unopposed k

/- Both runs have fetched the same object. -/
structure Fetched
    (V : μ → ν → Prop)
    (k : Key)
    (o : Object)
    (start : Session μ)
    (start' : Session ν)
    (s : Session μ)
    (t : Session ν) : Prop where
  alike : Alike V start start' s t
  level : s.Like V t
  untouched : Untouched k o t
  peace : Peace k start' t

/- The work of both runs begins as the same. -/
theorem Fetched.shadows
    (hFetched : Fetched V k o start start' s t)
    (now : Instant) :
    Shadows V k o start start' rest (Work.fresh o now)
      (Work.fresh o now) s t where
  alike := hFetched.alike
  level := hFetched.level
  work :=
    ⟨o.metadata.finalizers, o.metadata.resourceVersion, rfl⟩
  inStep := ⟨rfl, hFetched.untouched.mirrors, hFetched.peace⟩
  owned := fun _ _ _ _ _ => Iff.rfl

/- A fetch in both hosts. -/
theorem fetch_shadows
    (hStart : StartsLike V k o start start') :
    Abreast (fun s t => s = start ∧ t = start')
      (await (some <$> fetch k)) (await (some <$> fetch k))
      (fun r r' s t =>
        (r = .ok o ∧ r' = .ok o) ∧
          Fetched V k o start start' s t)
      (Alike V start start') := by
  have hLeft : Untouched k o start :=
    ⟨hStart.stored, hStart.unopposed.undisturbed⟩
  have hRight : Untouched k o start' :=
    ⟨hStart.stored', hStart.unopposed'.undisturbed⟩
  have hAlike : Alike V start start' start start' :=
    .refl hStart.reports hStart.draws
  have hPeace : Peace k start' start' :=
    { quiet := hStart.unopposed'.quiet
      unfailing := hStart.unopposed'.unfailing
      smooth := ⟨[], by simp, by simp⟩ }
  refine .await
    (M := fun s t =>
      (s.Unopposed k ∧ Untouched k o s) ∧
        t.Unopposed k ∧ Fetched V k o start start' s t)
    ?_ (fun _ _ h => h.2.2.level.scenes) (.map (.onStore ?_))
  · rintro s t ⟨rfl, rfl⟩
    exact
      ⟨⟨hStart.unopposed.resume, hLeft.resume⟩,
        hStart.unopposed'.resume,
        { alike := hAlike.resumeRight.resumeLeft
          level := hStart.level.resume
          untouched := hRight.resume
          peace := hPeace.resume }⟩
  · rintro s t r r' left right
      ⟨⟨hUnopposed, hUntouched⟩, hUnopposed', h⟩ hRun hRun'
    have hOk := hUnopposed.quiet.get_ok hUntouched.stored
    have hOk' := hUnopposed'.quiet.get_ok h.untouched.stored
    have hObjects := Store.get_objects k t.scene.store
    have hQuiet := hUnopposed'.quiet.afterGet k
    rw [hRun] at hOk
    rw [hRun'] at hOk' hObjects hQuiet
    have hScenes := h.level.scenes.withStores left right
    refine ⟨⟨hOk, hOk'⟩, ?_⟩
    cases hOk'
    exact
      { alike := (h.alike.left rfl _).right rfl _
        level := h.level.moveTo _ _ hScenes
        untouched := h.untouched.idle _ hObjects
        peace := h.peace.moveTo _ hQuiet trivial }

/-
  A read-only manager and one that writes, in hosts that are
  alike: hook and steps see no more than the status, leave
  store and metadata alone, and share no token.
-/
structure Tandem
    (V : μ → ν → Prop)
    (m : Manager μ)
    (hook : Option (Hook ν))
    (steps : List (Step ν))
    (k : Key)
    (o : Object)
    (start : Session μ)
    (start' : Session ν) : Prop where
  readOnly : m.readOnly = true
  behave : m.StepsBehave
  behaves : (m.recast hook steps false).StepsBehave
  quiet : (m.recast hook steps false).StepsQuiet
  key : o.key = k
  like : m.HasLike V hook steps
  apart :
    steps.Pairwise (fun q q' =>
      (q.tokens o).Disjoint (q'.tokens o))
  start : StartsLike V k o start start'

/- What both runs have come to before the status write. -/
def DraftsLike
    (V : μ → ν → Prop)
    (k : Key)
    (o : Object)
    (start : Session μ)
    (start' : Session ν) :
    Draft → Draft → Session μ → Session ν → Prop
  | .early why, .early why' => fun s t =>
      why' = why ∧ Alike V start start' s t
  | .closing e w, .closing e' v => fun s t =>
      (∃ v', e' = e.withWork v') ∧
        Shadows V k o start start' [] w v s t
  | _, _ => fun _ _ => False

/- Hook and chain in both runs, up to the status write. -/
theorem draftSteps_shadows
    {c : Context}
    (hTandem : m.Tandem V hook steps k o start start') :
    Abreast (Shadows V k o start start' steps w v)
      (m.draftSteps c w)
      ((m.recast hook steps false).draftSteps c v)
      (DraftsLike V k o start start')
      (Alike V start start') := by
  unfold draftSteps
  refine .bind
    (seedCondition_shadows (fun _ _ _ _ => rfl)) ?_
  intro w v
  refine .bind
    (prepare_shadows hTandem.behaves hTandem.quiet
      hTandem.like.hook) ?_
  intro r r'
  refine .assume ?_
  rintro rfl
  cases r' with
  | none => exact .pure (fun _ _ h => ⟨rfl, h.alike⟩)
  | some c =>
      have hDeleting :
          ∀ s t, Shadows V k o start start' steps w v s t →
            v.deleting = w.deleting := by
        intro s t h
        rcases h.work with ⟨fs, version, hWork⟩
        rw [hWork]
        rfl
      refine .fact hDeleting ?_
      intro hSame
      have hOrder :
          List.Forall₂ (Step.Like V) (m.order w.deleting)
              ((m.recast hook steps false).order
                v.deleting) ∧
            ((m.recast hook steps false).order
                v.deleting).Pairwise (fun q q' =>
              (q.tokens o).Disjoint (q'.tokens o)) := by
        rw [hSame]
        unfold order
        split
        · refine
            ⟨List.forall₂_reverse_iff.mpr hTandem.like.steps,
              List.pairwise_reverse.mpr ?_⟩
          refine hTandem.apart.imp ?_
          intro q q' hPair token hRight hLeft
          exact hPair hLeft hRight
        · exact ⟨hTandem.like.steps, hTandem.apart⟩
      have hChain :
          Abreast (Shadows V k o start start' steps w v)
            (m.runChain c (m.order w.deleting) w)
            ((m.recast hook steps false).runChain c
              ((m.recast hook steps false).order v.deleting)
              v)
            (EndsLike V k o start start')
            (Alike V start start') :=
        (runChain_shadows hTandem.readOnly hTandem.behave
          hTandem.behaves hTandem.quiet hTandem.key hOrder.1
          (fun _ => mem_order.mp) (fun _ => mem_order.mp)
          hOrder.2).mono
            (fun _ _ h => h.fewer (fun _ => mem_order.mp))
            (fun _ _ _ _ h => h) (fun _ _ h => h)
      refine .bind hChain ?_
      intro e e'
      refine .named (fun v' => .assume ?_)
      rintro rfl
      refine .bind sumUp_shadows ?_
      exact fun _ _ => .pure (fun _ _ h => ⟨⟨_, rfl⟩, h⟩)

/- Both runs up to the status write. -/
theorem draft_shadows
    (hTandem : m.Tandem V hook steps k o start start') :
    Abreast (fun s t => s = start ∧ t = start')
      (m.draft k) ((m.recast hook steps false).draft k)
      (DraftsLike V k o start start')
      (Alike V start start') := by
  unfold draft
  refine .bind (fetch_shadows hTandem.start) ?_
  intro r r'
  refine .assume ?_
  rintro ⟨rfl, rfl⟩
  dsimp only
  unfold draftObject
  refine .bind
    (Q := fun _ _ => Fetched V k o start start') ?_ ?_
  · have hMissing :
        (m.recast hook steps false).missingCapability? o =
          m.missingCapability? o :=
      rfl
    unfold checkCapabilities
    rw [hMissing]
    split
    · exact .pure (fun _ _ h => h)
    · refine .bind
        (Q := fun _ _ => Alike V start start') ?_
        (fun _ _ => .fail (fun _ _ h => h))
      exact .update (fun _ _ h => h.alike.reported _)
  intro _ _
  refine .bind
    (.clock
      (Q := fun i j s t =>
        j = i ∧ Fetched V k o start start' s t)
      (fun _ _ h => h.level.scenes.clock)
      (fun _ _ _ h => ⟨rfl, h⟩) (fun _ _ h => h.alike)) ?_
  intro i j
  refine .assume ?_
  rintro rfl
  dsimp only
  have hParked :
      (m.recast hook steps false).parked?
          (Work.fresh o j) =
        m.parked? (Work.fresh o j) :=
    rfl
  rw [hParked]
  split
  · exact .pure (fun _ _ h => ⟨rfl, h.alike⟩)
  · refine .bind
      (Q := Shadows V k o start start' steps)
      ((ensureTokens_shadows hTandem.readOnly
        hTandem.key).mono
          (fun _ _ h => h.shadows j) (fun _ _ _ _ h => h)
          (fun _ _ h => h)) ?_
    intro w v
    exact draftSteps_shadows hTandem

/-
  A read-only manager and one that writes come to the same
  answer, with the same reports and the same turns.
-/
theorem reconcile_shadows
    (hTandem : m.Tandem V hook steps k o start start') :
    Abreast (fun s t => s = start ∧ t = start')
      (m.reconcile k)
      ((m.recast hook steps false).reconcile k)
      (fun d d' s t => d' = d ∧ Alike V start start' s t)
      (Alike V start start') := by
  rw [reconcile_eq_draft_finish, reconcile_eq_draft_finish]
  refine .bind (draft_shadows hTandem) ?_
  intro d d'
  cases d with
  | early why =>
      cases d' with
      | early why' =>
          refine .assume ?_
          rintro rfl
          exact .pure (fun _ _ h => ⟨rfl, h⟩)
      | closing _ _ => exact fun _ _ h => h.elim
  | closing e w =>
      cases d' with
      | early _ => exact fun _ _ h => h.elim
      | closing e' v =>
          refine .assume ?_
          rintro ⟨v', rfl⟩
          exact close_shadows hTandem.readOnly hTandem.key

/- Both ends of the runs are alike. -/
theorem final_shadows
    (hTandem : m.Tandem V hook steps k o start start') :
    Alike V start start' ((m.reconcile k).final start)
      (((m.recast hook steps false).reconcile k).final
        start') :=
  ((reconcile_shadows hTandem).mono (fun _ _ h => h)
    (fun _ _ _ _ h => h.2) (fun _ _ h => h)).of_final
      ⟨rfl, rfl⟩

/- The same answer, recovered from a panic or not. -/
theorem reconcileRecovered_shadows
    (hTandem : m.Tandem V hook steps k o start start')
    (tags : Table String String) :
    ((m.recast hook steps false).reconcileRecovered tags k
        start').1 =
      (m.reconcileRecovered tags k start).1 ∧
      Alike V start start'
        (m.reconcileRecovered tags k start).2
        ((m.recast hook steps false).reconcileRecovered tags
          k start').2 := by
  have hMeets :=
    reconcile_shadows hTandem start start' ⟨rfl, rfl⟩
  unfold reconcileRecovered
  revert hMeets
  generalize m.reconcile k start = left
  generalize (m.recast hook steps false).reconcile k start' =
    right
  intro hMeets
  cases hMeets with
  | ended hEnd => exact ⟨congrArg Except.ok hEnd.1, hEnd.2⟩
  | halted hEnd => exact ⟨rfl, hEnd.reported _⟩

end Manager

end Reconciler
