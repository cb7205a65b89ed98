import Reconciler.Proofs.Engine.Mirror
import Reconciler.Proofs.Engine.Returns
import Reconciler.Proofs.Store.Labels

/-
  This file shows that the engine does not get in its own
  way.

  A run is unopposed if nobody else writes, no failure is
  queued, and hook and steps leave store and metadata alone.
  Both copies then follow the stored object through every
  patch, so that no write of the run can be refused.  The
  object may go away with its last token; then no step owns
  a token any more, and the status write is not needed.

  Key definitions include:
    * `Moment.Smooth`
    * `Session.Unopposed`
    * `Manager.StepsQuiet`
    * `Manager.InStep`

  Key theorems include:
    * `Manager.InStep.sendTokens`
    * `Manager.carries_inStep`
    * `Manager.reconcile_smooth`
-/

------------------------------------------------------------
-- Unopposed Runs
------------------------------------------------------------

namespace Reconciler

variable {μ : Type}

/-
  A store operation met no resistance: a fetch fails only if
  the object is missing, a patch never, and a status write
  only if the object was being deleted and is gone.
-/
def Moment.Smooth
    (k : Key)
    (mo : Moment μ) : Prop :=
  match mo.event with
  | .fetched _ (.error e) => e.isNotFound = true
  | .patched _ _ (.error _) => False
  | .statusUpdated o (.error e) =>
      e.isNotFound = true ∧ o.isDeleting = true ∧
        mo.scene.store.object? k = none
  | _ => True

/- An operation that met no resistance ends no run. -/
theorem Moment.Smooth.not_fatal
    {k : Key}
    {mo : Moment μ}
    (hSmooth : mo.Smooth k) :
    mo.event.fatal? = none := by
  unfold Moment.Smooth at hSmooth
  unfold Event.fatal?
  split
  · next e hEvent =>
      rw [hEvent] at hSmooth
      exact if_pos hSmooth
  · next hEvent =>
      rw [hEvent] at hSmooth
      exact hSmooth.elim
  · next o e hEvent =>
      rw [hEvent] at hSmooth
      rw [hSmooth.1, hSmooth.2.1]
      rfl
  · rfl

/- A call that queues no failure. -/
def Call.KeepsQuiet
    {α : Type}
    (c : Call μ α) : Prop :=
  c.Within (fun store store' => store.Quiet → store'.Quiet)

/-
  Nobody stands in the way of a run on a key: the object is
  stored under its own key, no failure is queued, and other
  tasks neither write objects nor queue failures.
-/
structure Session.Unopposed
    (k : Key)
    (s : Session μ) : Prop where
  keyed : ∀ o, s.scene.store.object? k = some o → o.key = k
  quiet : s.scene.store.Quiet
  undisturbed : s.Undisturbed
  unfailing :
    ∀ change ∈ s.others, ∀ scene : Scene μ,
      scene.store.Quiet → (change scene).store.Quiet

/- That is still so when another task has run. -/
theorem Session.Unopposed.resume
    {k : Key}
    {s : Session μ}
    (hUnopposed : s.Unopposed k) :
    s.resume.Unopposed k := by
  refine Session.resume_keeps ?_ ?_
  · intro rest hRest
    exact
      { hUnopposed with
        undisturbed := fun other hMember =>
          hUnopposed.undisturbed other (hRest hMember)
        unfailing := fun other hMember =>
          hUnopposed.unfailing other (hRest hMember) }
  · intro change hChange s' h
    have hObject :=
      Store.object?_congr
        (hUnopposed.undisturbed change hChange s'.scene) k
    exact
      { h with
        keyed := fun o hStored =>
          h.keyed o (hObject.symm.trans hStored)
        quiet :=
          hUnopposed.unfailing change hChange _ h.quiet }

namespace Manager

open Engine

/- Hook and steps queue no failure. -/
structure StepsQuiet
    (m : Manager μ) : Prop where
  hook :
    ∀ hook, m.hook = some hook →
      ∀ c o, (hook c o).KeepsQuiet
  process :
    ∀ step ∈ m.steps, ∀ c o,
      (step.process c o).KeepsQuiet
  finalize :
    ∀ step ∈ m.steps, ∀ c o,
      (step.finalize c o).KeepsQuiet

/-
  Since its start a run has met no resistance, and none is
  to come from failures.
-/
structure Peace
    (k : Key)
    (start s : Session μ) : Prop where
  quiet : s.scene.store.Quiet
  unfailing :
    ∀ change ∈ s.others, ∀ scene : Scene μ,
      scene.store.Quiet → (change scene).store.Quiet
  smooth :
    ∃ new,
      s.journal = start.journal ++ new ∧
        ∀ mo ∈ new, mo.Smooth k

section Peace

variable {k : Key}
variable {start s : Session μ}

theorem Peace.moveTo
    {scene : Scene μ}
    (hPeace : Peace k start s)
    (e : Event)
    (hQuiet : scene.store.Quiet)
    (hSmooth : (⟨e, scene⟩ : Moment μ).Smooth k) :
    Peace k start (s.moveTo e scene) where
  quiet := hQuiet
  unfailing := hPeace.unfailing
  smooth := by
    rcases hPeace.smooth with ⟨new, hJournal, hNew⟩
    refine ⟨new ++ [⟨e, scene⟩], ?_, ?_⟩
    · rw [Session.moveTo_journal, hJournal,
        List.append_assoc]
    · intro mo hMember
      rcases List.mem_append.mp hMember with hOld | hLast
      · exact hNew mo hOld
      · rw [List.mem_singleton.mp hLast]
        exact hSmooth

/- Other tasks queue no failure. -/
theorem Peace.resume
    (hPeace : Peace k start s) :
    Peace k start s.resume := by
  refine Session.resume_keeps ?_ ?_
  · intro rest hRest
    exact
      { hPeace with
        unfailing := fun other hMember =>
          hPeace.unfailing other (hRest hMember) }
  · intro change hChange s' h
    exact h.moveTo .resumed
      (hPeace.unfailing change hChange _ h.quiet) trivial

/- Reports and draws do not disturb the peace. -/
theorem Peace.aside
    (hPeace : Peace k start s)
    (rs : List Report)
    (n : Nat) :
    Peace k start { s with reports := rs, draws := n } where
  quiet := hPeace.quiet
  unfailing := hPeace.unfailing
  smooth := hPeace.smooth

end Peace

------------------------------------------------------------
-- Runs in Step with the Store
------------------------------------------------------------

/-
  A run that is at peace and whose copies mirror the stored
  object.
-/
structure InStep
    (k : Key)
    (o : Object)
    (start : Session μ)
    (w : Work)
    (s : Session μ) : Prop where
  deleting : w.deleting = o.isDeleting
  mirrors : Mirrors k o w.toCopies s
  peace : Peace k start s

section InStep

variable {m : Manager μ}
variable {k : Key}
variable {o : Object}
variable {start s : Session μ}
variable {w : Work}

theorem InStep.resume
    (hInStep : InStep k o start w s) :
    InStep k o start w s.resume where
  deleting := hInStep.deleting
  mirrors := hInStep.mirrors.resume
  peace := hInStep.peace.resume

theorem InStep.aside
    (hInStep : InStep k o start w s)
    (rs : List Report)
    (n : Nat) :
    InStep k o start w
      { s with reports := rs, draws := n } where
  deleting := hInStep.deleting
  mirrors := { hInStep.mirrors with }
  peace := hInStep.peace.aside rs n

/- A moment that is no store operation. -/
theorem InStep.idle
    {scene : Scene μ}
    (hInStep : InStep k o start w s)
    (e : Event)
    (hObjects :
      scene.store.objects = s.scene.store.objects)
    (hQuiet : scene.store.Quiet)
    (hSmooth : (⟨e, scene⟩ : Moment μ).Smooth k) :
    InStep k o start w (s.moveTo e scene) where
  deleting := hInStep.deleting
  mirrors := hInStep.mirrors.idle e hObjects
  peace := hInStep.peace.moveTo e hQuiet hSmooth

/- The metadata of the working copy are all that matters. -/
theorem InStep.handed
    {o' : Object}
    (hInStep : InStep k o start w s)
    (hMetadata : o'.metadata = w.obj.metadata) :
    InStep k o start { w with obj := o' } s where
  deleting := hInStep.deleting
  mirrors := hInStep.mirrors.handed hMetadata
  peace := hInStep.peace

/-
  An object is stored if it is live, and as long as it has a
  token.
-/
theorem InStep.stored
    (hInStep : InStep k o start w s)
    (hStays :
      o.isDeleting = false ∨
        ∃ t, t ∈ w.obj.metadata.finalizers) :
    (s.scene.store.object? k).isSome = true := by
  cases hInStep.mirrors.holds with
  | stored _ hStored =>
      rw [hStored]
      rfl
  | gone hDeleting hNone _ =>
      rcases hStays with hLive | ⟨t, hToken⟩
      · rw [hDeleting] at hLive
        cases hLive
      · rw [← hInStep.mirrors.tokens, hNone] at hToken
        cases hToken

/- A patch of tokens is not refused while there is any. -/
theorem InStep.sendTokens
    {new : List String}
    (hKey : o.key = k)
    (hChanged : new ≠ w.obj.metadata.finalizers)
    (hStays :
      o.isDeleting = false ∨
        ∃ t, t ∈ w.obj.metadata.finalizers) :
    Triple (InStep k o start w)
      (Engine.sendTokens { w.toCopies with
        obj := w.obj.withFinalizers new })
      (fun r s =>
        match r.1 with
        | .ok _ => InStep k o start { w with toCopies := r.2 } s
        | .error _ => Peace k start s)
      (fun _ => Peace k start) := by
  refine sendTokens_triple ?_ ?_
  · intro s stored store hInStep hRun
    have hRun :
        Store.patch (w.snapshot.withFinalizers new) w.snapshot
            s.scene.store =
          (.ok stored, store) :=
      hRun
    rcases hInStep.mirrors.patch_cases hKey hChanged hRun with
      ⟨_, hError, _⟩ | ⟨_, hOk, _, hMoved⟩
    · cases hError
    · cases hOk
      have hQuiet := hInStep.peace.quiet.afterPatch
        (w.snapshot.withFinalizers new) w.snapshot
      rw [hRun] at hQuiet
      exact
        { deleting := hInStep.deleting
          mirrors := hMoved _
          peace := hInStep.peace.moveTo _ hQuiet trivial }
  · intro s e store hInStep hRun
    rcases hInStep.mirrors.patch_cases hKey hChanged hRun with
      ⟨_, _, _, hQueued⟩ | ⟨_, hOk, _⟩
    · exact absurd hInStep.peace.quiet.patch
        (hQueued (hInStep.stored hStays))
    · cases hOk

/- A call leaves the run in step. -/
theorem InStep.call
    {α : Type}
    {x : Call μ α}
    (hKeeps : x.KeepsObjects)
    (hQuiet : x.KeepsQuiet) :
    Triple (InStep k o start w) (Engine.call x)
      (fun _ => InStep k o start w)
      (fun _ => Peace k start) :=
  .call_within (hKeeps.and hQuiet)
    (fun _ _ _ h _ hStore =>
      h.idle .returned hStore.1 (hStore.2 h.peace.quiet) trivial)
    (fun _ _ h hStore =>
      h.idle .returned hStore.1 (hStore.2 h.peace.quiet) trivial)
    (fun _ _ _ h hStore =>
      h.peace.moveTo .returned (hStore.2 h.peace.quiet) trivial)

/- A call of a step hands back the metadata it was given. -/
theorem InStep.callStep
    {x : Call μ (StepResult × Object)}
    (hKeeps : x.KeepsObjects)
    (hQuiet : x.KeepsQuiet)
    (hHands :
      ∀ scene r scene', x scene = .ok r scene' →
        r.2.metadata = w.obj.metadata) :
    Triple (InStep k o start w) (Engine.call x)
      (fun r => InStep k o start { w with
        obj := (r.map (·.2)).getD w.obj })
      (fun _ => Peace k start) :=
  .call_within (hKeeps.and hQuiet)
    (fun _ r _ h hRun hStore =>
      (h.idle .returned hStore.1 (hStore.2 h.peace.quiet)
        trivial).handed (hHands _ r _ hRun))
    (fun _ _ h hStore =>
      h.idle .returned hStore.1 (hStore.2 h.peace.quiet) trivial)
    (fun _ _ _ h hStore =>
      h.peace.moveTo .returned (hStore.2 h.peace.quiet) trivial)

/- Every part of a run up to the chain's end stays in step. -/
theorem carries_inStep
    (hKey : o.key = k)
    (hBehave : m.StepsBehave)
    (hQuiet : m.StepsQuiet) :
    m.Carries (InStep k o start)
      (fun _ => Peace k start) where
  recorded := fun _ h => h.handed rfl
  tallied := fun _ _ h => { h with }
  reported := fun {_ s} rs h => h.aside rs s.draws
  halts := fun _ h => h.peace
  haltReported := fun {_ s} rs h => h.aside rs s.draws
  resumed := fun h => h.resume
  noted := by
    intro w s e hNotes h
    refine h.idle e rfl h.peace.quiet ?_
    cases hNotes <;> trivial
  hooked := fun context hHook =>
    InStep.call (hBehave.hook _ hHook context _)
      (hQuiet.hook _ hHook context _)
  processed := by
    intro w step context hStep _
    refine InStep.callStep
      (hBehave.process step hStep context w.obj)
      (hQuiet.process step hStep context w.obj) ?_
    intro scene r scene' hRun
    exact hBehave.keeps step hStep context w.obj scene r.1
      r.2 scene' (.inl hRun)
  finalized := by
    intro w step context hStep _
    refine InStep.callStep
      (hBehave.finalize step hStep context w.obj)
      (hQuiet.finalize step hStep context w.obj) ?_
    intro scene r scene' hRun
    exact hBehave.keeps step hStep context w.obj scene r.1
      r.2 scene' (.inr hRun)
  released := by
    intro w step _ _ hOwns
    rcases (Tokens.owns_iff step w.obj).mp hOwns with
      ⟨t, hToken, hHas⟩
    rw [Tokens.removeAll_eq]
    exact
      (InStep.sendTokens hKey (Tokens.without_ne hToken hHas)
        (.inr ⟨t, hHas⟩)).mono
        (fun _ h => h.1) (fun _ _ h => h) (fun _ _ h => h)

/- Tokens are put on a live object without resistance. -/
theorem ensureTokens_inStep
    (hKey : o.key = k) :
    Triple (InStep k o start w) (m.ensureTokens w)
      (InStep k o start) (fun _ => Peace k start) := by
  refine m.ensureTokens_triple (E := Peace k start)
    (fun _ h => h.resume) (fun _ h _ => h.peace)
    (fun s rs h => h.aside rs s.draws) (fun _ _ h => h)
    (fun _ h _ => h) ?_
  intro _ hLive hMissing
  rcases List.exists_mem_of_ne_nil _ hMissing with
    ⟨t, hMember⟩
  have hLacks :=
    ((Tokens.mem_missing m.steps w.obj t).mp hMember).2
  have hChanged := Tokens.merged_ne hMember hLacks
  rw [Tokens.addAll_eq]
  intro s h
  have hObject : o.isDeleting = false := by
    rw [← h.1.mirrors.isDeleting]
    exact hLive
  exact InStep.sendTokens hKey hChanged (.inl hObject) s h.1

/- The summing up of the chain stays in step. -/
theorem sumUp_inStep
    (hCarries :
      m.Carries (InStep k o start) (fun _ => Peace k start))
    (e : ChainEnd) :
    Triple (InStep k o start e.work) (m.sumUp e)
      (InStep k o start) (fun _ => Peace k start) := by
  cases e with
  | completed w =>
      refine .bind hCarries.recordConditions ?_
      intro w
      have hStamped :
          ∀ (w : Work) s, InStep k o start w s →
            InStep k o start (m.stampTime w) s := by
        intro w s h
        unfold stampTime
        split
        · exact h.handed rfl
        · exact h
      split
      · exact .pure (fun _ h => h)
      · exact .map (m.stampSlot_triple
          (fun s n h => h.aside s.reports n)
          (fun s h => hStamped w s h)
          (fun s _ _ h => hStamped _ s (h.handed rfl))
          (fun _ _ h => h.peace))
  | retry w _ _ _ =>
      change Triple _ (m.recordReadiness .notReady w) _ _
      exact hCarries.recordConditions

------------------------------------------------------------
-- Before and After the Chain
------------------------------------------------------------

/-
  A fetch without resistance: it fails only if the object is
  missing.
-/
theorem fetch_inStep
    (hUnopposed : start.Unopposed k) :
    Triple (fun s => s = start) (await (some <$> fetch k))
      (fun r s =>
        match r with
        | .ok o =>
            o.key = k ∧ Untouched k o s ∧ Peace k start s
        | .error _ => Peace k start s)
      (fun _ => Peace k start) := by
  have hPeace : Peace k start start :=
    { quiet := hUnopposed.quiet
      unfailing := hUnopposed.unfailing
      smooth := ⟨[], by simp, by simp⟩ }
  refine .await
    (M := fun s => s.Unopposed k ∧ Peace k start s)
    ?_ (fun _ h _ => h.2) (.map (.onStore ?_))
  · intro s hStart
    rw [hStart]
    exact ⟨hUnopposed.resume, hPeace.resume⟩
  · rintro s r store ⟨⟨hSession, hSince⟩, _⟩ hRun
    have hObjects := Store.get_objects k s.scene.store
    have hQuiet := hSession.quiet.afterGet k
    have hResult := congrArg Prod.fst hRun
    rw [hRun] at hObjects hQuiet
    cases r with
    | ok o =>
        have hStored := Store.get_ok hResult
        have hUntouched : Untouched k o s :=
          ⟨hStored, hSession.undisturbed⟩
        exact ⟨hSession.keyed o hStored,
          hUntouched.idle _ hObjects,
          hSince.moveTo _ hQuiet trivial⟩
    | error e =>
        refine hSince.moveTo _ hQuiet ?_
        cases hObject : s.scene.store.object? k with
        | some o =>
            rw [hSession.quiet.get_ok hObject] at hResult
            cases hResult
        | none =>
            rw [hSession.quiet.get_missing hObject] at hResult
            cases hResult
            rfl

/- All that comes before the status write. -/
theorem draft_inStep
    (hUnopposed : start.Unopposed k)
    (hBehave : m.StepsBehave)
    (hQuiet : m.StepsQuiet) :
    Triple (fun s => s = start) (m.draft k)
      (fun d s =>
        match d with
        | .early _ => Peace k start s
        | .closing _ w =>
            ∃ o, o.key = k ∧ InStep k o start w s)
      (fun _ => Peace k start) := by
  refine m.draft_triple
    (F := fun o s =>
      o.key = k ∧ Untouched k o s ∧ Peace k start s)
    (E := Peace k start)
    (fetch_inStep hUnopposed) (fun _ _ h => h.2.2) ?_
    (fun s rs h => h.aside rs s.draws) (fun _ _ h => h)
    (fun _ _ h => h) ?_
  · exact fun o s rs h =>
      ⟨h.1, { h.2.1 with }, h.2.2.aside rs s.draws⟩
  · intro o now _
    refine .assume (fun hKey => ?_)
    have hCarries :
        m.Carries (InStep k o start)
          (fun _ => Peace k start) :=
      carries_inStep hKey hBehave hQuiet
    refine .bind
      ((ensureTokens_inStep hKey).mono
        (fun s h => ⟨rfl, h.1.mirrors, h.2⟩)
        (fun _ _ h => h) (fun _ _ h => h)) ?_
    intro w
    exact hCarries.draftSteps (fun h => h.peace)
      (fun e =>
        (sumUp_inStep hCarries e).mono (fun _ h => h)
          (fun w s h => ⟨o, hKey, h⟩) (fun _ _ h => h))

/-
  A run at peace whose object is stored if it is live; the
  snapshot need not be the stored object any more.
-/
structure Rests
    (k : Key)
    (o : Object)
    (start : Session μ)
    (w : Work)
    (s : Session μ) : Prop where
  deleting : w.deleting = o.isDeleting
  key : w.snapshot.key = k
  undisturbed : s.Undisturbed
  stored :
    o.isDeleting = false →
      (s.scene.store.object? k).isSome = true
  peace : Peace k start s

theorem InStep.rests
    (hKey : o.key = k)
    (hInStep : InStep k o start w s) :
    Rests k o start w s where
  deleting := hInStep.deleting
  key := hInStep.mirrors.snapshot_key hKey
  undisturbed := hInStep.mirrors.undisturbed
  stored := fun hLive => hInStep.stored (.inl hLive)
  peace := hInStep.peace

theorem Rests.resume
    (hRests : Rests k o start w s) :
    Rests k o start w s.resume := by
  have hStored :
      s.resume.Undisturbed ∧
        (o.isDeleting = false →
          (s.resume.scene.store.object? k).isSome = true) := by
    refine hRests.undisturbed.resume
      (P := fun s =>
        s.Undisturbed ∧
          (o.isDeleting = false →
            (s.scene.store.object? k).isSome = true))
      ?_ ?_ ⟨hRests.undisturbed, hRests.stored⟩
    · intro s others hFewer h
      exact ⟨fun change hMember =>
        h.1 change (hFewer change hMember), h.2⟩
    · intro s scene hObjects h
      refine ⟨h.1, fun hLive => ?_⟩
      rw [Session.moveTo_scene,
        Store.object?_congr hObjects]
      exact h.2 hLive
  exact
    { deleting := hRests.deleting
      key := hRests.key
      undisturbed := hStored.1
      stored := hStored.2
      peace := hRests.peace.resume }

theorem Rests.aside
    (hRests : Rests k o start w s)
    (rs : List Report)
    (n : Nat) :
    Rests k o start w { s with reports := rs, draws := n } :=
  { hRests with peace := hRests.peace.aside rs n }

/-
  A status write fails only if the object is gone, which it
  can only be if it was being deleted.
-/
theorem InStep.sendStatus
    (hKey : o.key = k) :
    Triple (InStep k o start w) (Engine.sendStatus w.obj)
      (fun r s =>
        Rests k o start w s ∧
          ∀ e, r = .error e →
            e.isNotFound = true ∧ w.obj.isDeleting = true)
      (fun _ => Peace k start) := by
  refine .onStore ?_
  intro s r store hInStep hRun
  have hRests := hInStep.rests hKey
  have hQuiet := hInStep.peace.quiet.afterStatus w.obj
  rw [hRun] at hQuiet
  rcases hInStep.mirrors.status_cases hKey hRun with
    ⟨e, rfl, hObjects, hQueued⟩ | ⟨stored, rfl, _, hObject⟩
  · have hGone : s.scene.store.object? k = none := by
      rw [Option.eq_none_iff_forall_ne_some]
      intro found hFound
      refine hQueued ?_ hInStep.peace.quiet.status
      rw [hFound]
      rfl
    have hDeleting : o.isDeleting = true := by
      by_contra hLive
      have hStored :=
        hRests.stored (Bool.eq_false_iff.mpr hLive)
      rw [hGone] at hStored
      cases hStored
    have hObjKey : w.obj.key = k := by
      rw [← hRests.key]
      exact congrArg Metadata.key hInStep.mirrors.own
    have hResult :=
      (Store.updateStatus_missing hInStep.peace.quiet.status
        ((congrArg (s.scene.store.object? ·)
          hObjKey).trans hGone)).1
    rw [hRun] at hResult
    cases hResult
    have hObjDeleting : w.obj.isDeleting = true :=
      hInStep.mirrors.isDeleting.trans hDeleting
    have hSame := Store.object?_congr hObjects k
    refine ⟨{ hRests with
      stored := ?_
      peace := hRests.peace.moveTo _ hQuiet
        ⟨rfl, hObjDeleting, hSame.trans hGone⟩ }, ?_⟩
    · intro hLive
      rw [hDeleting] at hLive
      cases hLive
    · intro e hEq
      cases hEq
      exact ⟨rfl, hObjDeleting⟩
  · refine ⟨{ hRests with
      stored := ?_
      peace := hRests.peace.moveTo _ hQuiet trivial }, ?_⟩
    · intro _
      rw [Session.moveTo_scene, hObject]
      rfl
    · intro e hEq
      cases hEq

/- The status is written, and the run rests afterwards. -/
theorem persistStatus_rests
    (hKey : o.key = k) :
    Triple (InStep k o start w) (m.persistStatus w)
      (fun r s =>
        match r with
        | .ok w' => Rests k o start w' s
        | .error _ => Peace k start s)
      (fun _ => Peace k start) :=
  m.persistStatus_triple
    (W := fun r s =>
      Rests k o start w s ∧
        ∀ e, r = .error e →
          e.isNotFound = true ∧ w.obj.isDeleting = true)
    (fun _ h => h.resume) (fun _ _ h => h.rests hKey)
    (fun _ h _ => h.peace)
    (fun _ _ =>
      (InStep.sendStatus hKey).mono (fun _ h => h.1)
        (fun _ _ h => h) (fun _ _ h => h))
    (fun _ s rs h => ⟨h.1.aside rs s.draws, h.2⟩)
    (fun _ _ h => { h.1 with key := h.1.key })
    (fun _ _ _ _ h => h.1)
    (fun _ _ _ h => h.1.peace)

/- The refresh label comes off a live object. -/
theorem clearRefreshLabel_rests
    (hLive : o.isDeleting = false) :
    Triple (Rests k o start w) (m.clearRefreshLabel w)
      (fun _ => Peace k start) (fun _ => Peace k start) := by
  refine m.clearRefreshLabel_triple
    (E := fun _ => Peace k start)
    (fun _ h => h.resume) (fun _ _ h => h.peace)
    (fun _ _ h _ => h.peace) ?_
    (fun _ s rs h => h.aside rs s.draws) (fun _ _ h => h)
  intro _ hLabel
  refine .onStore ?_
  rintro s r store ⟨hRests, _⟩ hRun
  have hQuiet := hRests.peace.quiet.afterPatch
    (w.snapshot.mapMetadata (·.removeRefreshLabel)) w.snapshot
  rw [hRun] at hQuiet
  rcases Option.isSome_iff_exists.mp (hRests.stored hLive) with
    ⟨stored, hStored⟩
  rw [← hRests.key] at hStored
  rcases Store.patch_label_applied hRests.peace.quiet.patch
    hStored hLabel with ⟨patched, hOk⟩
  rw [hRun] at hOk
  cases hOk
  exact hRests.peace.moveTo _ hQuiet trivial

/- The status write and what comes after it. -/
theorem close_peace
    {e : ChainEnd}
    (hKey : o.key = k) :
    Triple (InStep k o start w) (m.close e w)
      (fun _ => Peace k start) (fun _ => Peace k start) := by
  cases e with
  | retry _ _ _ _ =>
      refine .bind (persistStatus_rests hKey) ?_
      intro r
      refine .fail ?_
      intro s h
      cases r with
      | ok w' => exact h.peace
      | error _ => exact h
  | completed _ =>
      refine .bind (persistStatus_rests hKey) ?_
      intro r
      cases r with
      | error _ => exact .fail (fun _ h => h)
      | ok w' =>
          dsimp only
          split
          · next hClears =>
              refine .bind (Q := fun _ => Peace k start) ?_
                (fun _ => .pure (fun _ h => h))
              intro s h
              have hLive : o.isDeleting = false := by
                rw [← h.deleting]
                simpa using hClears
              exact clearRefreshLabel_rests hLive s h
          · exact .pure (fun _ h => h.peace)

end InStep

/-
  A run that nobody stands in the way of never fails with an
  error of the store: its fetch fails only if the object is
  missing, its patches never fail, and its status write only
  if the object was being deleted and is gone, whichever way
  the run ends.
-/
theorem reconcile_smooth
    {m : Manager μ}
    {k : Key}
    {start : Session μ}
    (hBehave : m.StepsBehave)
    (hQuiet : m.StepsQuiet)
    (hUnopposed : start.Unopposed k) :
    (∀ e s,
        m.reconcile k start ≠
          .error (.failed (.store e)) s) ∧
      ∃ new,
        ((m.reconcile k).final start).journal =
            start.journal ++ new ∧
          ∀ mo ∈ new, mo.Smooth k := by
  have hPeace :
      Peace k start ((m.reconcile k).final start) := by
    have hRun :
        Triple (fun s => s = start) (m.reconcile k)
          (fun _ => Peace k start)
          (fun _ => Peace k start) := by
      rw [m.reconcile_eq_draft_finish k]
      refine .bind
        (draft_inStep hUnopposed hBehave hQuiet) ?_
      intro d
      cases d with
      | early _ => exact .pure (fun _ h => h)
      | closing e w =>
          refine .named (fun o => .assume (fun hKey => ?_))
          exact close_peace hKey
    exact hRun.of_final rfl
  rcases hPeace.smooth with ⟨new, hJournal, hSmooth⟩
  refine ⟨?_, new, hJournal, hSmooth⟩
  intro e s hRun
  rcases storeError_fatal hRun with
    ⟨event, ⟨before, mo, hLast, hEvent⟩, hFatal⟩
  have hFinal : (m.reconcile k).final start = s := by
    unfold final
    rw [hRun]
  rw [hFinal, hLast] at hJournal
  have hMember : mo ∈ new := by
    rw [← List.append_cancel_left hJournal]
    simp
  have hNone := (hSmooth mo hMember).not_fatal
  rw [hEvent, hFatal] at hNone
  cases hNone

/- A manager that keeps conditions, with one step. -/
def leavingManager : Manager Unit where
  operator := "operator"
  controller := "controller"
  kind := "TestObject"
  steps := [sharingStep "only" .ok]
  conditions := true
  scheduler := none
  hook := none
  reporter := .discarding
  policy := .standard
  readOnly := false
  trackLast := false

/- An object that is being deleted, with one token. -/
def leavingObject : Object where
  kind := .full
  metadata :=
    { Metadata.fresh "default" "object" with
      finalizers := ["token"]
      deletionTimestamp := some .epoch
      resourceVersion := some "1" }
  status := {}

/- A host with that object. -/
def leavingStart : Session Unit where
  scene :=
    { store := Store.insert leavingObject {}
      clock := ⟨0⟩
      memory := () }

theorem leaving_stored :
    leavingStart.scene.store.object? guardKey =
      some leavingObject := by
  decide +kernel

theorem leaving_stepsBehave :
    leavingManager.StepsBehave := by
  refine .of_handsBack rfl ?_
  intro step hStep
  rw [List.mem_singleton.mp hStep]
  exact ⟨fun _ _ => ⟨_, rfl⟩, fun _ _ => ⟨_, rfl⟩⟩

theorem leaving_stepsQuiet :
    leavingManager.StepsQuiet where
  hook := by
    intro hook hHook
    cases hHook
  process := by
    intro step hStep c o scene
    rw [List.mem_singleton.mp hStep]
    exact fun hQuiet => hQuiet
  finalize := by
    intro step hStep c o scene
    rw [List.mem_singleton.mp hStep]
    exact fun hQuiet => hQuiet

theorem leaving_unopposed :
    leavingStart.Unopposed guardKey where
  keyed := by
    intro o hStored
    rw [leaving_stored] at hStored
    cases hStored
    rfl
  quiet := ⟨rfl, rfl, rfl⟩
  undisturbed := by
    intro change hMember
    cases hMember
  unfailing := by
    intro change hMember
    cases hMember

/-
  The object goes away with its token, and neither the patch
  nor the status write after it fails the run.
-/
theorem leaving_reconcile_smooth :
    leavingManager.StepsBehave ∧ leavingManager.StepsQuiet ∧
      leavingStart.Unopposed guardKey ∧
      ((leavingManager.reconcile guardKey).final
          leavingStart).scene.store.contains guardKey =
        false ∧
      (∀ e s,
        leavingManager.reconcile guardKey leavingStart ≠
          .error (.failed (.store e)) s) ∧
      ∃ new,
        ((leavingManager.reconcile guardKey).final
              leavingStart).journal =
            leavingStart.journal ++ new ∧
          ∀ mo ∈ new, mo.Smooth guardKey :=
  ⟨leaving_stepsBehave, leaving_stepsQuiet,
    leaving_unopposed, by decide +kernel,
    reconcile_smooth leaving_stepsBehave leaving_stepsQuiet
      leaving_unopposed⟩

end Manager

end Reconciler
