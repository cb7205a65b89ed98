import Reconciler.Proofs.Engine.Due
import Reconciler.Proofs.Engine.Parked
import Reconciler.Proofs.Store.Generations

/-
  This file proves that a run never hides a change of its
  object from the next one.

  The status observes the generation of the working copy,
  which is the fetched one.  Patches take over the version of
  the stored object, so that a status write can succeed
  although the generation was raised since the fetch; but
  the raised generation is never taken over with it.

  Key definitions include:
    * `Session.Sound`
    * `Manager.OnlyRaises`
    * `Manager.Overseen`
    * `Manager.Tracked`
    * `Manager.Unfolds`

  Key theorems include:
    * `Manager.Overseen.raised`
    * `Manager.carries_tracked`
    * `Manager.reconcile_overseen`
    * `Manager.Unfolds.unmasked`
-/

------------------------------------------------------------
-- Sessions
------------------------------------------------------------

namespace Reconciler

variable {μ : Type}

namespace Session

/- The other tasks may raise the generation of an object. -/
def Raises
    (k : Key)
    (s : Session μ) : Prop :=
  ∀ change ∈ s.others, ∀ scene : Scene μ,
    scene.store.Raises k (change scene).store

/-
  At every moment of a session, and now, no status has
  observed a generation that is yet to come.
-/
structure Sound
    (k : Key)
    (s : Session μ) : Prop where
  raises : s.Raises k
  past : ∀ mo ∈ s.journal, mo.scene.store.Sound k
  present : s.scene.store.Sound k

variable {k : Key}
variable {s : Session μ}

theorem Sound.moveTo
    {scene : Scene μ}
    (hSound : s.Sound k)
    (e : Event)
    (hScene : scene.store.Sound k) :
    (s.moveTo e scene).Sound k where
  raises := hSound.raises
  past := by
    intro mo hMember
    rcases List.mem_append.mp hMember with hOld | hLast
    · exact hSound.past mo hOld
    · rw [List.mem_singleton.mp hLast]
      exact hScene
  present := hScene

theorem Sound.waited
    (hSound : s.Sound k)
    {others : List (Scene μ → Scene μ)}
    (hFewer : others ⊆ s.others) :
    Session.Sound k { s with others := others } where
  raises := fun change hMember =>
    hSound.raises change (hFewer hMember)
  past := hSound.past
  present := hSound.present

theorem Sound.aside
    (hSound : s.Sound k)
    (rs : List Report)
    (n : Nat) :
    Session.Sound k { s with reports := rs, draws := n } where
  raises := hSound.raises
  past := hSound.past
  present := hSound.present

/- Other tasks keep a session sound. -/
theorem Sound.resume
    (hSound : s.Sound k) :
    s.resume.Sound k := by
  refine Session.resume_keeps ?_ ?_
  · exact fun rest hRest => hSound.waited hRest
  · intro change hChange s' h
    exact h.moveTo .resumed
      ((hSound.raises change hChange _).sound h.present)

end Session

namespace Manager

open Engine

/-
  Hook and steps raise generations at most.  A step leaves
  the metadata of its working copy alone, and the generation
  that it has observed.
-/
structure OnlyRaises
    (m : Manager μ)
    (k : Key) : Prop where
  hook :
    ∀ hook, m.hook = some hook →
      ∀ c o, (hook c o).Within (Store.Raises k)
  process :
    ∀ step ∈ m.steps, ∀ c o,
      (step.process c o).Within (Store.Raises k)
  finalize :
    ∀ step ∈ m.steps, ∀ c o,
      (step.finalize c o).Within (Store.Raises k)
  keeps :
    ∀ step ∈ m.steps, ∀ o o',
      step.Hands o o' →
        o'.metadata = o.metadata ∧
          o'.status.observedGeneration =
            o.status.observedGeneration

------------------------------------------------------------
-- After the Fetch
------------------------------------------------------------

/-
  What can be said of a session since the fetch of an object:
  from each moment on the stored object has become only what
  others and the run may make of it.
-/
structure Overseen
    (k : Key)
    (o : Object)
    (base s : Session μ) : Prop where
  sound : s.Sound k
  fetched : base.scene.store.object? k = some o
  began : base.scene.store.Sound k
  passes : base.scene.store.Passes k o s.scene.store
  grown :
    ∃ after,
      s.journal = base.journal ++ after ∧
        ∀ mo ∈ after,
          base.scene.store.Passes k o mo.scene.store ∧
            mo.scene.store.Passes k o s.scene.store

namespace Overseen

variable {k : Key}
variable {o : Object}
variable {base s : Session μ}

/- Nothing has happened since the fetch. -/
theorem start
    (hSound : s.Sound k)
    (hFetched : s.scene.store.object? k = some o) :
    Overseen k o s s where
  sound := hSound
  fetched := hFetched
  began := hSound.present
  passes := .refl k o _
  grown := ⟨[], by simp, by simp⟩

theorem moveTo
    {scene : Scene μ}
    (hOverseen : Overseen k o base s)
    (e : Event)
    (hPasses : s.scene.store.Passes k o scene.store) :
    Overseen k o base (s.moveTo e scene) := by
  have hSince := hOverseen.passes.trans hPasses
  refine
    { sound := hOverseen.sound.moveTo e
        (hSince.sound hOverseen.fetched hOverseen.began)
      fetched := hOverseen.fetched
      began := hOverseen.began
      passes := hSince
      grown := ?_ }
  rcases hOverseen.grown with ⟨after, hJournal, hAfter⟩
  refine ⟨after ++ [⟨e, scene⟩], by simp [hJournal], ?_⟩
  intro mo hMember
  rcases List.mem_append.mp hMember with hOld | hLast
  · exact ⟨(hAfter mo hOld).1,
      (hAfter mo hOld).2.trans hPasses⟩
  · rw [List.mem_singleton.mp hLast]
    exact ⟨hSince, .refl k o _⟩

/- Other tasks only raise the generation. -/
theorem resume
    (hOverseen : Overseen k o base s) :
    Overseen k o base s.resume := by
  refine Session.resume_keeps ?_ ?_
  · exact fun rest hRest =>
      { hOverseen with
        sound := hOverseen.sound.waited hRest }
  · intro change hChange s' h
    exact h.moveTo .resumed
      ((hOverseen.sound.raises change hChange _).passes o)

theorem aside
    (hOverseen : Overseen k o base s)
    (rs : List Report)
    (n : Nat) :
    Overseen k o base
      { s with reports := rs, draws := n } :=
  { hOverseen with
    sound := hOverseen.sound.aside rs n }

/- What is stored is plain only if the fetched object is. -/
theorem not_plain
    (hOverseen : Overseen k o base s)
    (hPlain : o.kind ≠ .plain) :
    ∀ x, s.scene.store.object? k = some x →
      x.kind ≠ .plain := by
  intro x hObject hKind
  rcases hOverseen.passes x hObject with
    ⟨x', hStart, hChange⟩
  cases hOverseen.fetched.symm.trans hStart
  exact hPlain (hChange.plain.mp hKind)

/-
  If the generation was raised since the fetch, the status
  has not observed the generation that is stored now.
-/
theorem raised
    {before after : List (Moment μ)}
    {mo : Moment μ}
    {p q x : Object}
    (hOverseen : Overseen k o base s)
    (hJournal :
      s.journal = base.journal ++ (before ++ mo :: after))
    (hOld :
      (Journal.lastScene base.scene before).store.object? k =
        some p)
    (hNew : mo.scene.store.object? k = some q)
    (hRaised : p.metadata.generation < q.metadata.generation)
    (hStored : s.scene.store.object? k = some x) :
    x.status.observedGeneration < x.metadata.generation := by
  rcases hOverseen.grown with ⟨all, hAll, hPasses⟩
  rw [hJournal] at hAll
  have hSplit := List.append_cancel_left hAll
  have hStart :
      base.scene.store.Passes k o
        (Journal.lastScene base.scene before).store := by
    rcases Journal.lastScene_mem base.scene before with
      hSame | ⟨mo', hMember, hSame⟩
    · rw [hSame]
      exact .refl k o _
    · rw [hSame]
      refine (hPasses mo' ?_).1
      rw [← hSplit]
      exact List.mem_append_left _ hMember
  have hAtRaise :=
    (hStart.bounds hOverseen.fetched hOverseen.began hOld).2
  have hObserved :=
    (hOverseen.passes.bounds hOverseen.fetched
      hOverseen.began hStored).1
  have hMember : mo ∈ all := by
    rw [← hSplit]
    simp
  rcases (hPasses mo hMember).2 x hStored with
    ⟨q', hFound, hLater⟩
  cases hNew.symm.trans hFound
  have hBefore :
      x.status.observedGeneration < q.metadata.generation :=
    Int64.lt_of_le_of_lt
      (Int64.le_trans hObserved hAtRaise) hRaised
  exact Int64.lt_of_lt_of_le hBefore hLater.generation

end Overseen

/-
  The working copy has the generation of the fetched object,
  and has observed that one or what that object had.
-/
structure Tracked
    (k : Key)
    (o : Object)
    (base : Session μ)
    (w : Work)
    (s : Session μ) : Prop where
  generation :
    w.obj.metadata.generation = o.metadata.generation
  observed :
    w.obj.status.observedGeneration =
        o.status.observedGeneration ∨
      w.obj.status.observedGeneration = o.metadata.generation
  overseen : Overseen k o base s

section Tracked

variable {m : Manager μ}
variable {k : Key}
variable {o : Object}
variable {base : Session μ}

theorem Tracked.oversee
    {w : Work}
    {s s' : Session μ}
    (hTracked : Tracked k o base w s)
    (hOverseen : Overseen k o base s') :
    Tracked k o base w s' where
  generation := hTracked.generation
  observed := hTracked.observed
  overseen := hOverseen

/- A patch of tokens keeps track. -/
theorem Tracked.sendTokens
    {w : Work}
    {new : List String}
    {H : Halt → Session μ → Prop}
    (hPlain : o.kind ≠ .plain) :
    Triple (Tracked k o base w)
      (Engine.sendTokens { w.toCopies with
        obj := w.obj.withFinalizers new })
      (fun r s =>
        match r.1 with
        | .ok _ =>
            Tracked k o base { w with toCopies := r.2 } s
        | .error _ => Overseen k o base s)
      H := by
  have hPassed :
      ∀ (s : Session μ) r store,
        Tracked k o base w s →
          Store.patch (w.snapshot.withFinalizers new)
              w.snapshot s.scene.store =
            (r, store) →
          s.scene.store.Passes k o store := by
    intro s r store h hPatch
    have hPasses :=
      Store.patch_tokens_passes (o := o) w.snapshot
        new (h.overseen.not_plain hPlain)
    rw [hPatch] at hPasses
    exact hPasses
  refine sendTokens_triple ?_ ?_
  · intro s stored store h hPatch
    exact
      { generation := h.generation
        observed := h.observed
        overseen :=
          h.overseen.moveTo _ (hPassed s _ store h hPatch) }
  · intro s e store h hPatch
    exact h.overseen.moveTo _ (hPassed s _ store h hPatch)

/- A call raises the generation at most. -/
theorem Tracked.call
    {α : Type}
    {x : Call μ α}
    {w : Work}
    (hWithin : x.Within (Store.Raises k)) :
    Triple (Tracked k o base w) (Engine.call x)
      (fun _ => Tracked k o base w)
      (fun _ => Overseen k o base) :=
  .call_within hWithin
    (fun _ _ _ h _ hRaises =>
      h.oversee (h.overseen.moveTo _ (hRaises.passes o)))
    (fun _ _ h hRaises =>
      h.oversee (h.overseen.moveTo _ (hRaises.passes o)))
    (fun _ _ _ h hRaises =>
      h.overseen.moveTo _ (hRaises.passes o))

/- A step hands back a working copy that keeps track. -/
theorem Tracked.callStep
    {x : Call μ (StepResult × Object)}
    {w : Work}
    (hWithin : x.Within (Store.Raises k))
    (hKeeps :
      ∀ scene r scene', x scene = .ok r scene' →
        r.2.metadata = w.obj.metadata ∧
          r.2.status.observedGeneration =
            w.obj.status.observedGeneration) :
    Triple (Tracked k o base w) (Engine.call x)
      (fun r => Tracked k o base { w with
        obj := (r.map (·.2)).getD w.obj })
      (fun _ => Overseen k o base) := by
  refine .call_within hWithin ?_
    (fun _ _ h hRaises =>
      h.oversee (h.overseen.moveTo _ (hRaises.passes o)))
    (fun _ _ _ h hRaises =>
      h.overseen.moveTo _ (hRaises.passes o))
  intro s r scene h hRun hRaises
  rcases hKeeps s.scene r scene hRun with
    ⟨hMetadata, hObserved⟩
  exact
    { generation := by
        change r.2.metadata.generation = _
        rw [hMetadata]
        exact h.generation
      observed := by
        change
          r.2.status.observedGeneration = _ ∨
            r.2.status.observedGeneration = _
        rw [hObserved]
        exact h.observed
      overseen := h.overseen.moveTo _ (hRaises.passes o) }

/- Every part of a run up to the chain's end keeps track. -/
theorem carries_tracked
    (hPlain : o.kind ≠ .plain)
    (hRaises : m.OnlyRaises k) :
    m.Carries (Tracked k o base)
      (fun _ => Overseen k o base) where
  recorded := fun _ h =>
    ⟨h.generation, h.observed, h.overseen⟩
  tallied := fun _ _ h =>
    ⟨h.generation, h.observed, h.overseen⟩
  reported := fun {_ s} rs h =>
    h.oversee (h.overseen.aside rs s.draws)
  halts := fun _ h => h.overseen
  haltReported := fun {_ s} rs h => h.aside rs s.draws
  resumed := fun h => h.oversee h.overseen.resume
  noted := fun {_ s e} _ h =>
    h.oversee (h.overseen.moveTo e (.refl k o _))
  hooked := fun context hHook =>
    Tracked.call (hRaises.hook _ hHook context _)
  processed := fun context hStep _ =>
    Tracked.callStep (hRaises.process _ hStep context _)
      (fun scene r scene' hRun =>
        hRaises.keeps _ hStep _ _
          ⟨context, scene, r.1, scene', .inl hRun⟩)
  finalized := fun context hStep _ =>
    Tracked.callStep (hRaises.finalize _ hStep context _)
      (fun scene r scene' hRun =>
        hRaises.keeps _ hStep _ _
          ⟨context, scene, r.1, scene', .inr hRun⟩)
  released := by
    intro w step _ _ _
    rw [Tokens.removeAll_eq]
    exact (Tracked.sendTokens hPlain).mono
      (fun _ h => h.1) (fun _ _ h => h) (fun _ _ h => h)

/- The declared tokens are put on the object. -/
theorem ensureTokens_tracked
    {w : Work}
    (hPlain : o.kind ≠ .plain) :
    Triple (Tracked k o base w) (m.ensureTokens w)
      (Tracked k o base) (fun _ => Overseen k o base) := by
  apply m.ensureTokens_triple (E := Overseen k o base)
  · exact fun _ h => h.oversee h.overseen.resume
  · exact fun _ h _ => h.overseen
  · exact fun s rs h => h.aside rs s.draws
  · exact fun _ _ h => h
  · exact fun _ h _ => h
  · intro _ _ _
    rw [Tokens.addAll_eq]
    exact (Tracked.sendTokens hPlain).mono
      (fun _ h => h.1) (fun _ _ h => h) (fun _ _ h => h)

/- A stamp observes the generation of the fetched object. -/
theorem sumUp_tracked
    (hPlain : o.kind ≠ .plain)
    (hRaises : m.OnlyRaises k)
    (e : ChainEnd) :
    Triple (Tracked k o base e.work) (m.sumUp e)
      (Tracked k o base) (fun _ => Overseen k o base) := by
  have hCarries :
      m.Carries (Tracked k o base)
        (fun _ => Overseen k o base) :=
    carries_tracked hPlain hRaises
  cases e with
  | retry w _ _ _ =>
      change Triple _ (m.recordReadiness .notReady w) _ _
      exact hCarries.recordConditions
  | completed w =>
      refine .bind hCarries.recordConditions ?_
      intro w
      have hTimed :
          ∀ (w : Work) (s : Session μ),
            Tracked k o base w s →
              Tracked k o base (m.stampTime w) s := by
        intro w s h
        unfold stampTime
        split
        · exact ⟨h.generation, h.observed, h.overseen⟩
        · exact h
      split
      · exact .pure (fun _ h => h)
      · refine .map (m.stampSlot_stamps ?_ ?_ ?_ ?_)
        · exact fun s n h =>
            h.oversee (h.overseen.aside s.reports n)
        · exact fun s h => hTimed w s h
        · exact fun s slot h =>
            hTimed _ s
              ⟨h.generation, .inr h.generation, h.overseen⟩
        · exact fun _ _ h => h.overseen

/- The status write and what comes after it. -/
theorem close_overseen
    {e : ChainEnd}
    {w : Work}
    (hPlain : o.kind ≠ .plain) :
    Triple (Tracked k o base w) (m.close e w)
      (fun _ => Overseen k o base)
      (fun _ => Overseen k o base) := by
  have hPersist :
      Triple (Tracked k o base w) (m.persistStatus w)
        (fun _ => Overseen k o base)
        (fun _ => Overseen k o base) := by
    apply m.persistStatus_triple
      (W := fun _ => Overseen k o base)
    · exact fun _ h => h.oversee h.overseen.resume
    · exact fun _ _ h => h.overseen
    · exact fun _ h _ => h.overseen
    · intro _ _
      refine .onStore ?_
      intro s r store h hRun
      have hPasses :=
        Store.updateStatus_passes (k := k) h.1.observed
          s.scene.store
      rw [hRun] at hPasses
      exact h.1.overseen.moveTo _ hPasses
    · exact fun _ s rs h => h.aside rs s.draws
    · exact fun _ _ h => h
    · exact fun _ _ _ _ h => h
    · exact fun _ _ _ h => h
  have hClear :
      ∀ w : Work,
        Triple (Overseen k o base) (m.clearRefreshLabel w)
          (fun _ => Overseen k o base)
          (fun _ => Overseen k o base) := by
    intro w
    apply m.clearRefreshLabel_triple
      (E := fun _ => Overseen k o base)
    · exact fun _ h => h.resume
    · exact fun _ _ h => h
    · exact fun _ _ h _ => h
    · intro _ hLabel
      refine .onStore ?_
      intro s r store h hRun
      have hPasses :=
        Store.patch_label_passes (o := o) hLabel
          (h.1.not_plain hPlain)
      rw [hRun] at hPasses
      have hMoved :
          Overseen k o base
            (s.moveTo
              (.patched
                (w.snapshot.mapMetadata
                  (·.removeRefreshLabel)) w.snapshot r)
              { s.scene with store := store }) :=
        h.1.moveTo _ hPasses
      cases r with
      | ok _ => exact hMoved
      | error _ => exact hMoved
    · exact fun _ s rs h => h.aside rs s.draws
    · exact fun _ _ h => h
  cases e with
  | retry _ _ _ _ =>
      exact .bind hPersist (fun _ => .fail (fun _ h => h))
  | completed _ =>
      refine .bind hPersist ?_
      intro r
      cases r with
      | error _ => exact .fail (fun _ h => h)
      | ok w' =>
          dsimp only
          split
          · exact .bind (hClear w')
              (fun _ => .pure (fun _ h => h))
          · exact .pure (fun _ h => h)

end Tracked

------------------------------------------------------------
-- Reconciles
------------------------------------------------------------

/-
  Where a reconcile ends: the session is sound, and if an
  object was fetched, it has been overseen since.
-/
structure EndsOverseen
    (k : Key)
    (start s : Session μ) : Prop where
  sound : s.Sound k
  overseen :
    ∀ o base,
      await (some <$> fetch k) start = .ok (.ok o) base →
        Overseen k o base s

section Reconcile

variable {m : Manager μ}
variable {k : Key}
variable {start s : Session μ}

theorem EndsOverseen.aside
    (hEnds : EndsOverseen k start s)
    (rs : List Report)
    (n : Nat) :
    EndsOverseen k start
      { s with reports := rs, draws := n } where
  sound := hEnds.sound.aside rs n
  overseen := fun o base hFetched =>
    (hEnds.overseen o base hFetched).aside rs n

/- There is but one fetch. -/
theorem Overseen.ends
    {o : Object}
    {base : Session μ}
    (hOverseen : Overseen k o base s)
    (hFetched :
      await (some <$> fetch k) start = .ok (.ok o) base) :
    EndsOverseen k start s where
  sound := hOverseen.sound
  overseen := by
    intro o' base' hAgain
    cases hFetched.symm.trans hAgain
    exact hOverseen

/- A fetch leaves a sound session. -/
theorem fetch_overseen
    (hSound : start.Sound k) :
    Triple (fun s => s = start) (await (some <$> fetch k))
      (fun r s =>
        match r with
        | .ok o =>
            EndsOverseen k start s ∧
              ∃ base,
                await (some <$> fetch k) start =
                    .ok (.ok o) base ∧
                  Overseen k o base s
        | .error _ => EndsOverseen k start s)
      (fun _ => EndsOverseen k start) := by
  have hFetch :
      Triple (fun s => s.Sound k) (await (some <$> fetch k))
        (fun r (s : Session μ) =>
          s.Sound k ∧
            ∀ o, r = .ok o → s.scene.store.object? k = some o)
        (fun _ s => s.Sound k) := by
    refine .await (fun _ h => h.resume) (fun _ h _ => h)
      (.map (.onStore ?_))
    intro s r store h hRun
    have hObjects := Store.get_objects k s.scene.store
    have hResult := congrArg Prod.fst hRun
    rw [hRun] at hObjects
    have hSame := Store.object?_congr hObjects k
    refine ⟨h.1.moveTo _ ?_, ?_⟩
    · intro x hObject
      exact h.1.present x (hSame.symm.trans hObject)
    · intro o hOk
      rw [hOk] at hResult
      exact hSame.trans (Store.get_ok hResult)
  refine .of_runs ?_ ?_
  · intro s r s' hStart hRun
    subst hStart
    rcases hFetch.of_ok hSound hRun with ⟨hAfter, hObject⟩
    cases r with
    | ok o =>
        have hOverseen : Overseen k o s' s' :=
          .start hAfter (hObject o rfl)
        exact ⟨hOverseen.ends hRun, s', hRun, hOverseen⟩
    | error e =>
        refine ⟨hAfter, ?_⟩
        intro o base hAgain
        cases hRun.symm.trans hAgain
  · intro s h s' hStart hRun
    subst hStart
    refine ⟨hFetch.of_error hSound hRun, ?_⟩
    intro o base hAgain
    cases hRun.symm.trans hAgain

/-
  A reconcile of a manager that schedules, whichever way it
  ends.
-/
theorem reconcile_overseen
    (hScheduled : m.scheduler.isSome = true)
    (hRaises : m.OnlyRaises k)
    (hSound : start.Sound k) :
    Triple (fun s => s = start) (m.reconcile k)
      (fun _ => EndsOverseen k start)
      (fun _ => EndsOverseen k start) := by
  rw [m.reconcile_eq_draft_finish k]
  refine .bind
    (Q := Draft.Either
      (fun _ => EndsOverseen k start)
      (fun _ w s =>
        ∃ o base,
          await (some <$> fetch k) start =
              .ok (.ok o) base ∧
            o.kind ≠ .plain ∧ Tracked k o base w s)) ?_ ?_
  · apply m.draft_triple (E := EndsOverseen k start)
      (F := fun o s =>
        EndsOverseen k start s ∧
          ∃ base,
            await (some <$> fetch k) start =
                .ok (.ok o) base ∧
              Overseen k o base s)
    · exact fetch_overseen hSound
    · exact fun _ _ h => h.1
    · rintro o s rs ⟨hEnds, base, hFetched, hOverseen⟩
      exact ⟨hEnds.aside rs s.draws, base, hFetched,
        hOverseen.aside rs s.draws⟩
    · exact fun s rs h => h.aside rs s.draws
    · exact fun _ _ h => h
    · exact fun _ _ h => h
    · intro o now hCapable
      have hSpread := spread_of_capable hScheduled hCapable
      have hPlain : o.kind ≠ .plain := by
        intro hKind
        unfold Object.has at hSpread
        rw [hKind] at hSpread
        cases hSpread
      rintro s ⟨_, base, hFetched, hOverseen⟩
      have hCarries :
          m.Carries (Tracked k o base)
            (fun _ => Overseen k o base) :=
        carries_tracked hPlain hRaises
      have hDrafted :
          Triple (Overseen k o base)
            (m.ensureTokens (Work.fresh o now) >>=
              m.draftSteps (m.context k))
            (Draft.Either
              (fun _ => Overseen k o base)
              (fun _ => Tracked k o base))
            (fun _ => Overseen k o base) := by
        refine .bind
          ((ensureTokens_tracked hPlain).mono
            (fun _ h => ⟨rfl, .inl rfl, h⟩)
            (fun _ _ h => h) (fun _ _ h => h)) ?_
        intro w
        exact hCarries.draftSteps
          (fun h => h.overseen)
          (sumUp_tracked hPlain hRaises)
      refine hDrafted.mono (fun _ h => h) ?_ ?_ s hOverseen
      · intro d s h
        cases d with
        | early why => exact Overseen.ends h hFetched
        | closing e w =>
            exact ⟨o, base, hFetched, hPlain, h⟩
      · exact fun _ _ h => h.ends hFetched
  · intro d
    cases d with
    | early why => exact .pure (fun _ h => h)
    | closing e w =>
        refine .named (fun o => .named (fun base =>
          .assume (fun hFetched => .assume (fun hPlain => ?_))))
        exact (close_overseen hPlain).mono (fun _ h => h)
          (fun _ _ h => h.ends hFetched)
          (fun _ _ h => h.ends hFetched)

/- The same with recovery, which adds reports at most. -/
theorem reconcileRecovered_overseen
    (hScheduled : m.scheduler.isSome = true)
    (hRaises : m.OnlyRaises k)
    (hSound : start.Sound k)
    (tags : Table String String) :
    EndsOverseen k start
      (m.reconcileRecovered tags k start).2 := by
  have hTriple :=
    reconcile_overseen hScheduled hRaises hSound
  unfold reconcileRecovered
  cases hRun : m.reconcile k start with
  | ok d s' => exact hTriple.of_ok rfl hRun
  | error h s' =>
      have hEnds : EndsOverseen k start s' :=
        hTriple.of_error rfl hRun
      exact hEnds.aside _ s'.draws

end Reconcile

------------------------------------------------------------
-- Sequences of Reconciles and Changes
------------------------------------------------------------

/-
  What becomes of the object of a key: reconciles, during
  which and between which others may raise its generation.
-/
inductive Unfolds
    (m : Manager μ)
    (k : Key) : Session μ → Prop where
  | start
      {s : Session μ}
      (hJournal : s.journal = [])
      (hSound : s.scene.store.Sound k)
      (hRaises : s.Raises k) :
      Unfolds m k s
  | reconcile
      {s : Session μ}
      (tags : Table String String)
      (hUnfolds : Unfolds m k s) :
      Unfolds m k (m.reconcileRecovered tags k s).2
  | between
      {s s' : Session μ}
      (hUnfolds : Unfolds m k s)
      (hJournal : s'.journal = s.journal)
      (hStore : s.scene.store.Raises k s'.scene.store)
      (hRaises : s'.Raises k) :
      Unfolds m k s'

section Unfolds

variable {m : Manager μ}
variable {k : Key}
variable {s : Session μ}

/- Such a sequence is sound at every moment. -/
theorem Unfolds.sound
    (hUnfolds : m.Unfolds k s)
    (hScheduled : m.scheduler.isSome = true)
    (hRaises : m.OnlyRaises k) :
    s.Sound k := by
  induction hUnfolds with
  | start hJournal hSound hOthers =>
      refine ⟨hOthers, ?_, hSound⟩
      rw [hJournal]
      simp
  | reconcile tags _ ih =>
      exact (reconcileRecovered_overseen hScheduled hRaises
        ih tags).sound
  | between _ hJournal hStore hOthers ih =>
      refine ⟨hOthers, ?_, hStore.sound ih.present⟩
      rw [hJournal]
      exact ih.past

/-
  A change of the object is never hidden.  At every moment
  of a sequence of reconciles and changes the status has
  observed a generation that is not above the stored one.
  And if in a reconcile the generation is raised after the
  fetch, the object that is stored afterwards needs work at
  every time, whatever the reconcile hands back.
-/
theorem Unfolds.unmasked
    (hUnfolds : m.Unfolds k s)
    (hScheduled : m.scheduler.isSome = true)
    (hRaises : m.OnlyRaises k) :
    (∀ mo ∈ s.journal, mo.scene.store.Sound k) ∧
      s.scene.store.Sound k ∧
      ∀ tags o base before mo after p q,
        await (some <$> fetch k) s = .ok (.ok o) base →
          (m.reconcileRecovered tags k s).2.journal =
              base.journal ++ (before ++ mo :: after) →
          (Journal.lastScene base.scene before).store.object?
              k = some p →
          mo.scene.store.object? k = some q →
          p.metadata.generation < q.metadata.generation →
          ∀ x,
            (m.reconcileRecovered tags k
                s).2.scene.store.object? k = some x →
              x.metadata.generation ≠
                  x.status.observedGeneration ∧
                ∀ now,
                  Scheduler.isRequired x.metadata x.status
                    now = true := by
  have hSound := hUnfolds.sound hScheduled hRaises
  refine ⟨hSound.past, hSound.present, ?_⟩
  intro tags o base before mo after p q hFetched hJournal
    hOld hNew hRaised x hStored
  have hOverseen :=
    (reconcileRecovered_overseen hScheduled hRaises hSound
      tags).overseen o base hFetched
  have hBehind :=
    hOverseen.raised hJournal hOld hNew hRaised hStored
  have hDiffers :
      x.metadata.generation ≠ x.status.observedGeneration := by
    intro hSame
    rw [hSame] at hBehind
    exact Int64.lt_irrefl hBehind
  refine ⟨hDiffers, ?_⟩
  intro now
  unfold Scheduler.isRequired
  rw [bne_iff_ne.mpr hDiffers]
  simp

/-
  A manager that schedules, with a step that has a token and
  comes back after five seconds.
-/
def raiseManager : Manager Unit :=
  { dueManager with steps := [guardStep] }

/- Someone else raises the generation, to two at least. -/
def raiseGeneration
    (scene : Scene Unit) : Scene Unit :=
  scene.mapStore (Store.modify guardKey
    (·.mapMetadata (fun m =>
      { m with generation := max m.generation 2 })))

/-
  That happens after the fetch, before the token is put on
  the object.
-/
def raiseStart : Session Unit :=
  { guardStart with others := [id, raiseGeneration] }

/- The session after the fetch. -/
def raiseFetched : Session Unit :=
  (await (some <$> fetch guardKey)).final raiseStart

/- The session after the reconcile. -/
def raiseEnd : Session Unit :=
  (raiseManager.reconcileRecovered [] guardKey raiseStart).2

/- A generation that goes up is raised. -/
theorem raise_raises :
    raiseStart.Raises guardKey := by
  intro change hMember scene
  rcases List.mem_pair.mp hMember with hFirst | hSecond
  · rw [hFirst]
    exact .of_same rfl
  · rw [hSecond]
    refine .modify ?_
    intro x
    refine ⟨Iff.rfl, ?_, rfl⟩
    change _ ≤ if _ ≤ _ then _ else _
    split
    · assumption
    · exact Int64.le_refl _

/- The host starts with a generation not yet observed. -/
theorem raise_sound :
    raiseStart.scene.store.Sound guardKey := by
  intro x hObject
  have hBounds :
      (raiseStart.scene.store.object? guardKey).map (fun x =>
        (x.status.observedGeneration,
          x.metadata.generation)) = some (0, 1) := by
    decide +kernel
  rw [hObject] at hBounds
  rcases Prod.mk.inj (Option.some.inj hBounds) with
    ⟨hObserved, hGeneration⟩
  rw [hObserved, hGeneration]
  decide

/- The step leaves the store and its working copy alone. -/
theorem raise_onlyRaises :
    raiseManager.OnlyRaises guardKey where
  hook := by
    intro hook hSome
    cases hSome
  process := by
    intro step hStep c o scene
    rw [List.mem_singleton.mp hStep]
    exact .of_same rfl
  finalize := by
    intro step hStep c o scene
    rw [List.mem_singleton.mp hStep]
    exact .of_same rfl
  keeps := by
    intro step hStep o o' hHands
    rw [List.mem_singleton.mp hStep] at hHands
    rcases hHands with
      ⟨context, scene, result, scene', hRun | hRun⟩
    · cases hRun
      exact ⟨rfl, rfl⟩
    · cases hRun
      exact ⟨rfl, rfl⟩

/-
  The patch of the token takes over the version of the raised
  object, so that the status is written; it has observed the
  first generation, and the object is due again.
-/
theorem raise_unmasked :
    raiseManager.Unfolds guardKey raiseStart ∧
      (raiseManager.reconcileRecovered [] guardKey
        raiseStart).1.toOption = some (.ofSeconds 5) ∧
      ∃ x,
        raiseEnd.scene.store.object? guardKey = some x ∧
          x.metadata.generation = 2 ∧
          x.status.observedGeneration = 1 ∧
          ∀ now,
            Scheduler.isRequired x.metadata x.status now =
              true := by
  have hUnfolds :
      raiseManager.Unfolds guardKey raiseStart :=
    .start rfl raise_sound raise_raises
  have hAnswer :
      (raiseManager.reconcileRecovered [] guardKey
        raiseStart).1.toOption = some (.ofSeconds 5) := by
    decide +kernel
  have hTime :
      timeAtGate? guardKey raiseStart = some .epoch := by
    decide +kernel
  rcases fetched_of_timeAtGate hTime with
    ⟨o, base, hFetched, _⟩
  have hBase : raiseFetched = base := by
    unfold raiseFetched final
    rw [hFetched]
  have hLength : raiseFetched.journal.length = 2 := by
    decide +kernel
  have hOld :
      (raiseFetched.scene.store.object? guardKey).map
        (·.metadata.generation) = some 1 := by
    decide +kernel
  have hNew :
      (raiseEnd.journal[2]?.bind
        (·.scene.store.object? guardKey)).map
          (·.metadata.generation) = some 2 := by
    decide +kernel
  have hStored :
      (raiseEnd.scene.store.object? guardKey).map (fun x =>
        (x.metadata.generation,
          x.status.observedGeneration)) = some (2, 1) := by
    decide +kernel
  rw [hBase] at hLength hOld
  rcases ((reconcileRecovered_overseen rfl raise_onlyRaises
      (hUnfolds.sound rfl raise_onlyRaises) []).overseen o
        base hFetched).grown with ⟨after, hJournal, _⟩
  rw [show raiseEnd.journal = base.journal ++ after from
    hJournal] at hNew
  rcases Option.map_eq_some_iff.mp hOld with
    ⟨p, hBefore, hFirst⟩
  rcases Option.map_eq_some_iff.mp hNew with
    ⟨q, hRaise, hSecond⟩
  rcases Option.map_eq_some_iff.mp hStored with
    ⟨x, hObject, hNumbers⟩
  rcases Prod.mk.inj hNumbers with ⟨hGeneration, hObserved⟩
  rcases Option.bind_eq_some_iff.mp hRaise with
    ⟨mo, hMoment, hRaised⟩
  rw [List.getElem?_append_right (by omega), hLength,
    Nat.sub_self] at hMoment
  rcases List.head?_eq_some_iff.mp
      (List.head?_eq_getElem?.trans hMoment) with
    ⟨later, hAfter⟩
  rw [hAfter] at hJournal
  have hUp :
      p.metadata.generation < q.metadata.generation := by
    rw [hFirst, hSecond]
    decide
  have hUnmasked :=
    (hUnfolds.unmasked rfl raise_onlyRaises).2.2 [] o base []
      mo later p q hFetched hJournal hBefore hRaised hUp x
      hObject
  exact ⟨hUnfolds, hAnswer, x, hObject, hGeneration,
    hObserved, hUnmasked.2⟩

end Unfolds

end Manager

end Reconciler
