import Reconciler.Proofs.Engine.Draft
import Reconciler.Proofs.Engine.Triple

/-
  This file gives a triple for each part of a run.  What a
  part can do to copies and session is left to its premises.
  Where a part reports there is a triple for what the report
  does, and from it one for where reports do not matter.

  Key theorems include:
    * `Manager.updateConditions_triple`
    * `Manager.ensureTokens_reporting`
    * `Manager.ensureTokens_reasons`
    * `Manager.prepare_reporting`
    * `Manager.prepare_awaits`
    * `Manager.runChain_triple`
    * `Manager.releaseTokens_reporting`
    * `Manager.draft_triple`
    * `Manager.stampSlot_triple`
    * `Manager.persistStatus_reporting`
    * `Manager.clearRefreshLabel_reporting`
-/

namespace Reconciler

namespace Manager

variable {μ : Type}

open Engine

------------------------------------------------------------
-- Reports and Conditions
------------------------------------------------------------

section Reports

variable {P : Session μ → Prop}
variable {H : Halt → Session μ → Prop}

/- Nothing but the reports can tell that one was made. -/
theorem emit_triple
    (m : Manager μ)
    (r : Report)
    (hReported :
      ∀ s rs, P s → P { s with reports := rs }) :
    Triple P (m.emit r) (fun _ => P) H :=
  .update (fun s hPre => hReported s _ hPre)

theorem report_triple
    (m : Manager μ)
    (f : Failure)
    (snapshot : Object)
    (step : Option String)
    (hReported :
      ∀ s rs, P s → P { s with reports := rs }) :
    Triple P (m.report f snapshot step) (fun _ => P) H := by
  unfold report
  dsimp only
  split
  · split
    · exact m.emit_triple _ hReported
    · exact .pure (fun _ h => h)
  · exact .pure (fun _ h => h)

theorem reportStoreError_triple
    (m : Manager μ)
    (e : StoreError)
    (snapshot : Object)
    (hReported :
      ∀ s rs, P s → P { s with reports := rs }) :
    Triple P (m.reportStoreError e snapshot)
      (fun _ => P) H := by
  unfold reportStoreError
  split
  · exact m.report_triple _ _ _ hReported
  · exact .pure (fun _ h => h)

theorem reportFetchError_triple
    (m : Manager μ)
    (e : StoreError)
    (k : Key)
    (hReported :
      ∀ s rs, P s → P { s with reports := rs }) :
    Triple P (m.reportFetchError e k) (fun _ => P) H := by
  unfold reportFetchError
  split
  · exact m.emit_triple _ hReported
  · exact .pure (fun _ h => h)

theorem reportStepError_triple
    (m : Manager μ)
    (step : String)
    (result : StepResult)
    (snapshot : Object)
    (hReported :
      ∀ s rs, P s → P { s with reports := rs }) :
    Triple P (m.reportStepError step result snapshot)
      (fun _ => P) H := by
  unfold reportStepError
  split
  · split
    · exact m.report_triple _ _ _ hReported
    · exact .pure (fun _ h => h)
  · exact .pure (fun _ h => h)

end Reports

section Conditions

variable {P : Session μ → Prop}
variable {Q : Work → Session μ → Prop}
variable {H : Halt → Session μ → Prop}

/-
  Conditions are updated at the time that the clock shows,
  if they are kept.
-/
theorem updateConditions_clock
    (m : Manager μ)
    {update :
      Instant → Metadata → List Condition →
        List Condition}
    {w : Work}
    (hKept :
      ∀ t s, P s → m.keepsConditions w.obj = true →
        s.scene.clock.read = .ok t →
          Q { w with
            obj := w.obj.mapStatus (fun st =>
              { st with
                conditions := update t w.obj.metadata
                  w.obj.status.conditions }) } s)
    (hLeft :
      ∀ s, P s → m.keepsConditions w.obj = false → Q w s)
    (hPanic :
      ∀ fault s, P s →
        s.scene.clock.read = .error fault →
          H (.panicked (.message fault.message)) s) :
    Triple P (m.updateConditions update w) Q H := by
  unfold updateConditions
  split
  · next hKeeps =>
      refine .bind
        (.clock
          (Q := fun t s =>
            P s ∧ s.scene.clock.read = .ok t)
          (fun _ _ h hRead => ⟨h, hRead⟩) hPanic) ?_
      intro t
      exact .pure (fun s h => hKept t s h.1 hKeeps h.2)
  · next hKeeps =>
      exact .pure (fun s h =>
        hLeft s h (Bool.eq_false_iff.mpr hKeeps))

/- Conditions are updated at whatever time it is. -/
theorem updateConditions_triple
    (m : Manager μ)
    {update :
      Instant → Metadata → List Condition →
        List Condition}
    {w : Work}
    (hKept :
      ∀ t s, P s → m.keepsConditions w.obj = true →
        Q { w with
          obj := w.obj.mapStatus (fun st =>
            { st with
              conditions := update t w.obj.metadata
                w.obj.status.conditions }) } s)
    (hLeft :
      ∀ s, P s → m.keepsConditions w.obj = false → Q w s)
    (hPanic : ∀ p s, P s → H (.panicked p) s) :
    Triple P (m.updateConditions update w) Q H :=
  m.updateConditions_clock
    (fun t s h hKeeps _ => hKept t s h hKeeps) hLeft
    (fun _ s h _ => hPanic _ s h)

/- Seeding is an update, unless there is nothing to seed. -/
theorem seedCondition_triple
    (m : Manager μ)
    {type : String}
    {seed :
      Instant → Metadata → List Condition →
        List Condition}
    {w : Work}
    (hPresent :
      ∀ s, P s →
        (Conditions.find? type
          w.obj.status.conditions).isSome = true →
        Q w s)
    (hAbsent :
      (Conditions.find? type
          w.obj.status.conditions).isSome = false →
        Triple P (m.updateConditions seed w) Q H) :
    Triple P (m.seedCondition type seed w) Q H := by
  unfold seedCondition
  split
  · next hFound => exact .pure (fun s h => hPresent s h hFound)
  · next hFound =>
      exact hAbsent (Bool.eq_false_iff.mpr hFound)

end Conditions

------------------------------------------------------------
-- Tokens
------------------------------------------------------------

section Tokens

variable {P E : Session μ → Prop}
variable {Q : Work → Session μ → Prop}
variable {H : Halt → Session μ → Prop}

/-
  The tokens of the working copy are sent as a patch of the
  snapshot; both copies follow a patch that succeeds.
-/
theorem sendTokens_triple
    {c : Copies}
    {R : Except StoreError Bool × Copies →
      Session μ → Prop}
    (hOk :
      ∀ s stored store,
        P s →
        Store.patch
            (c.snapshot.withFinalizers
              c.obj.metadata.finalizers)
            c.snapshot s.scene.store =
          (.ok stored, store) →
        R (.ok true,
            ⟨c.obj.withVersion
                stored.metadata.resourceVersion,
              (c.snapshot.withFinalizers
                c.obj.metadata.finalizers).withVersion
                  stored.metadata.resourceVersion⟩)
          (s.moveTo
            (.patched
              (c.snapshot.withFinalizers
                c.obj.metadata.finalizers)
              c.snapshot (.ok stored))
            { s.scene with store := store }))
    (hError :
      ∀ s e store,
        P s →
        Store.patch
            (c.snapshot.withFinalizers
              c.obj.metadata.finalizers)
            c.snapshot s.scene.store =
          (.error e, store) →
        R (.error e, c)
          (s.moveTo
            (.patched
              (c.snapshot.withFinalizers
                c.obj.metadata.finalizers)
              c.snapshot (.error e))
            { s.scene with store := store })) :
    Triple P (sendTokens c) R H := by
  refine .bind
    (Q := Either
      (fun stored =>
        R (.ok true,
          ⟨c.obj.withVersion
              stored.metadata.resourceVersion,
            (c.snapshot.withFinalizers
              c.obj.metadata.finalizers).withVersion
                stored.metadata.resourceVersion⟩))
      (fun e => R (.error e, c)))
    (.onStore ?_) ?_
  · intro s r store hPre hPatch
    cases r with
    | ok stored => exact hOk s stored store hPre hPatch
    | error e => exact hError s e store hPre hPatch
  · intro r
    cases r with
    | ok stored => exact .pure (fun _ hPost => hPost)
    | error e => exact .pure (fun _ hPost => hPost)

/-
  Tokens are put on the object, or there is nothing to put.
  A patch that fails is reported and is the error of the
  run.
-/
theorem ensureTokens_reporting
    (m : Manager μ)
    {w : Work}
    {M : Session μ → Prop}
    {E : StoreError → Copies → Session μ → Prop}
    (hResumed : ∀ s, P s → M s.resume)
    (hCancelled :
      ∀ s, M s → s.scene.cancelled = true →
        H (.failed .cancelled) s)
    (hReport :
      ∀ e c,
        Triple (E e c) (m.reportStoreError e c.snapshot)
          (fun _ => H (.failed (.store e))) H)
    (hNothing :
      ∀ s, M s →
        m.readOnly = true ∨ w.obj.isDeleting = true ∨
          Tokens.missing m.steps w.obj = [] →
        Q w s)
    (hSent :
      m.readOnly = false → w.obj.isDeleting = false →
        Tokens.missing m.steps w.obj ≠ [] →
        Triple
          (fun s => M s ∧ s.scene.cancelled = false)
          (sendTokens { w.toCopies with
            obj := Tokens.addAll
              (Tokens.missing m.steps w.obj) w.obj })
          (fun r s =>
            match r.1 with
            | .ok _ => Q { w with toCopies := r.2 } s
            | .error e => E e r.2 s)
          H) :
    Triple P (m.ensureTokens w) Q H := by
  unfold ensureTokens
  refine .bind
    (Q := fun r s =>
      match r.1 with
      | .ok _ => Q { w with toCopies := r.2 } s
      | .error e => E e r.2 s) ?_ ?_
  · refine .await (M := M) hResumed hCancelled (.map ?_)
    unfold addTokens
    split
    · next hSkip =>
        have hSkip :
            m.readOnly = true ∨ w.obj.isDeleting = true := by
          simpa using hSkip
        refine .pure (fun s h => hNothing s h.1 ?_)
        rcases hSkip with hReadOnly | hDeleting
        · exact .inl hReadOnly
        · exact .inr (.inl hDeleting)
    · next hSend =>
        have hSend :
            m.readOnly = false ∧
              w.obj.isDeleting = false := by
          simpa using hSend
        split
        · next hNone =>
            exact .pure (fun s h =>
              hNothing s h.1 (.inr (.inr hNone)))
        · next hSome =>
            exact hSent hSend.1 hSend.2 hSome
  · intro r
    rcases r with ⟨added, copies⟩
    cases added with
    | ok _ => exact .pure (fun _ hPost => hPost)
    | error e =>
        exact .bind (hReport e copies)
          (fun _ => .fail (fun _ hHalt => hHalt))

/- Tokens are put on the object where reports do not matter. -/
theorem ensureTokens_reasons
    (m : Manager μ)
    {w : Work}
    {M : Session μ → Prop}
    {E : StoreError → Session μ → Prop}
    (hResumed : ∀ s, P s → M s.resume)
    (hCancelled :
      ∀ s, M s → s.scene.cancelled = true →
        H (.failed .cancelled) s)
    (hReported :
      ∀ e s rs, E e s → E e { s with reports := rs })
    (hFailed : ∀ e s, E e s → H (.failed (.store e)) s)
    (hNothing :
      ∀ s, M s →
        m.readOnly = true ∨ w.obj.isDeleting = true ∨
          Tokens.missing m.steps w.obj = [] →
        Q w s)
    (hSent :
      m.readOnly = false → w.obj.isDeleting = false →
        Tokens.missing m.steps w.obj ≠ [] →
        Triple
          (fun s => M s ∧ s.scene.cancelled = false)
          (sendTokens { w.toCopies with
            obj := Tokens.addAll
              (Tokens.missing m.steps w.obj) w.obj })
          (fun r s =>
            match r.1 with
            | .ok _ => Q { w with toCopies := r.2 } s
            | .error e => E e s)
          H) :
    Triple P (m.ensureTokens w) Q H :=
  m.ensureTokens_reporting (M := M) (E := fun e _ => E e)
    hResumed hCancelled
    (fun e _ =>
      (m.reportStoreError_triple e _ (hReported e)).mono
        (fun _ h => h) (fun _ => hFailed e) (fun _ _ h => h))
    hNothing hSent

/- Tokens are put on the object where reasons do not matter. -/
theorem ensureTokens_triple
    (m : Manager μ)
    {w : Work}
    (hResumed : ∀ s, P s → P s.resume)
    (hCancelled :
      ∀ s, P s → s.scene.cancelled = true →
        H (.failed .cancelled) s)
    (hReported :
      ∀ s rs, E s → E { s with reports := rs })
    (hFailed : ∀ e s, E s → H (.failed (.store e)) s)
    (hNothing :
      ∀ s, P s →
        m.readOnly = true ∨ w.obj.isDeleting = true ∨
          Tokens.missing m.steps w.obj = [] →
        Q w s)
    (hSent :
      m.readOnly = false → w.obj.isDeleting = false →
        Tokens.missing m.steps w.obj ≠ [] →
        Triple
          (fun s => P s ∧ s.scene.cancelled = false)
          (sendTokens { w.toCopies with
            obj := Tokens.addAll
              (Tokens.missing m.steps w.obj) w.obj })
          (fun r s =>
            match r.1 with
            | .ok _ => Q { w with toCopies := r.2 } s
            | .error _ => E s)
          H) :
    Triple P (m.ensureTokens w) Q H :=
  m.ensureTokens_reasons (M := P) (E := fun _ => E) hResumed
    hCancelled (fun _ => hReported) hFailed hNothing hSent

/-
  The tokens of a step are taken off, or there are none.  A
  patch that fails is reported and is the error of the run.
-/
theorem releaseTokens_reporting
    (m : Manager μ)
    {step : Step μ}
    {w : Work}
    {E : StoreError → Copies → Session μ → Prop}
    (hResumed : ∀ s, P s → P s.resume)
    (hCancelled :
      ∀ s, P s → s.scene.cancelled = true →
        H (.failed .cancelled) s)
    (hReport :
      ∀ e c,
        Triple (E e c) (m.reportStoreError e c.snapshot)
          (fun _ => H (.failed (.store e))) H)
    (hNothing :
      m.readOnly = true ∨ step.owns w.obj = false →
        ∀ s, P s → Q w s)
    (hSent :
      m.readOnly = false → step.owns w.obj = true →
        Triple
          (fun s => P s ∧ s.scene.cancelled = false)
          (sendTokens { w.toCopies with
            obj := Tokens.removeAll
              (step.tokens w.obj) w.obj })
          (fun r s =>
            match r.1 with
            | .ok _ => Q { w with toCopies := r.2 } s
            | .error e => E e r.2 s)
          H) :
    Triple P (m.releaseTokens step w) Q H := by
  unfold releaseTokens
  refine .bind
    (Q := fun r s =>
      match r.1 with
      | .ok _ => Q { w with toCopies := r.2 } s
      | .error e => E e r.2 s) ?_ ?_
  · refine .await (M := P) hResumed hCancelled (.map ?_)
    unfold removeTokens
    split
    · next hSkip =>
        have hSkip :
            m.readOnly = true ∨ step.owns w.obj = false := by
          simpa using hSkip
        exact .pure (fun s h => hNothing hSkip s h.1)
    · next hSend =>
        have hSend :
            m.readOnly = false ∧ step.owns w.obj = true := by
          simpa using hSend
        exact hSent hSend.1 hSend.2
  · intro r
    rcases r with ⟨removed, copies⟩
    cases removed with
    | ok _ => exact .pure (fun _ hPost => hPost)
    | error e =>
        exact .bind (hReport e copies)
          (fun _ => .fail (fun _ hHalt => hHalt))

/- Tokens are taken off where reports do not matter. -/
theorem releaseTokens_triple
    (m : Manager μ)
    {step : Step μ}
    {w : Work}
    {E : StoreError → Session μ → Prop}
    (hResumed : ∀ s, P s → P s.resume)
    (hCancelled :
      ∀ s, P s → s.scene.cancelled = true →
        H (.failed .cancelled) s)
    (hReported :
      ∀ e s rs, E e s → E e { s with reports := rs })
    (hFailed : ∀ e s, E e s → H (.failed (.store e)) s)
    (hNothing :
      m.readOnly = true ∨ step.owns w.obj = false →
        ∀ s, P s → Q w s)
    (hSent :
      m.readOnly = false → step.owns w.obj = true →
        Triple
          (fun s => P s ∧ s.scene.cancelled = false)
          (sendTokens { w.toCopies with
            obj := Tokens.removeAll
              (step.tokens w.obj) w.obj })
          (fun r s =>
            match r.1 with
            | .ok _ => Q { w with toCopies := r.2 } s
            | .error e => E e s)
          H) :
    Triple P (m.releaseTokens step w) Q H :=
  m.releaseTokens_reporting (E := fun e _ => E e) hResumed
    hCancelled
    (fun e _ =>
      (m.reportStoreError_triple e _ (hReported e)).mono
        (fun _ h => h) (fun _ => hFailed e) (fun _ _ h => h))
    hNothing hSent

end Tokens

------------------------------------------------------------
-- Before the Chain
------------------------------------------------------------

/- The steps are the same whatever their order. -/
theorem mem_order
    {m : Manager μ}
    {step : Step μ}
    {deleting : Bool} :
    step ∈ m.order deleting ↔ step ∈ m.steps := by
  unfold order
  split
  · exact List.mem_reverse
  · exact Iff.rfl

section Before

variable {P : Session μ → Prop}
variable {H : Halt → Session μ → Prop}

/-
  The hook is called unless the run is cancelled by then, or
  there is none.  An error that it answers with is reported
  if it asks for that.
-/
theorem prepare_reporting
    (m : Manager μ)
    {context : Context}
    {w : Work}
    {M : Session μ → Prop}
    {E R : OperatorError → Session μ → Prop}
    {Q : Option Context → Session μ → Prop}
    (hNone : m.hook = none → ∀ s, P s → Q (some context) s)
    (hResumed : ∀ s, P s → M s.resume)
    (hCancelled :
      ∀ s, M s → s.scene.cancelled = true →
        H (.failed .cancelled) s)
    (hHooked :
      ∀ hook, m.hook = some hook →
        Triple (fun s => M s ∧ s.scene.cancelled = false)
          (do
            note .hookCalled
            call (hook context w.obj))
          (fun r s =>
            match r with
            | some (.ok c) => Q (some c) s
            | some (.error e) => E e s
            | none => H (.failed .cancelled) s)
          H)
    (hReport :
      ∀ e, e.report = true →
        Triple (E e) (m.report e.failure w.snapshot none)
          (fun _ => R e) H)
    (hSilent : ∀ e s, e.report = false → E e s → R e s)
    (hFailed :
      ∀ e s, R e s → H (.failed (.prepare e.failure)) s)
    (hRefused : ∀ e s, R e s → Q none s) :
    Triple P (m.prepare context w) Q H := by
  unfold prepare
  split
  · next hNoHook => exact .pure (hNone hNoHook)
  · next hook hHook =>
      refine .bind
        (Q := Either (fun c => Q (some c)) E) ?_ ?_
      · refine .await hResumed hCancelled ?_
        refine (hHooked hook hHook).mono
          (fun _ hPre => hPre) ?_ (fun _ _ hHalt => hHalt)
        intro answer s hPost
        rcases answer with _ | e | c
        · exact hPost
        · exact hPost
        · exact hPost
      · intro prepared
        cases prepared with
        | ok c => exact .pure (fun _ hPost => hPost)
        | error e =>
            have hEnd :
                Triple (R e)
                  (if e.retry then
                    fail (.prepare e.failure)
                  else return none : Engine μ (Option Context))
                  Q H := by
              split
              · exact .fail (hFailed e)
              · exact .pure (hRefused e)
            dsimp only
            split
            · next hReports =>
                exact .bind (hReport e hReports)
                  (fun _ => hEnd)
            · next hSilence =>
                have hSilence : e.report = false := by
                  simpa using hSilence
                exact hEnd.mono
                  (fun s hE => hSilent e s hSilence hE)
                  (fun _ _ h => h) (fun _ _ h => h)

/- The hook is called where reports do not matter. -/
theorem prepare_awaits
    (m : Manager μ)
    {context : Context}
    {w : Work}
    (hResumed : ∀ s, P s → P s.resume)
    (hCancelled : ∀ s, P s → H (.failed .cancelled) s)
    (hFailed : ∀ f s, P s → H (.failed (.prepare f)) s)
    (hReported :
      ∀ s rs, P s → P { s with reports := rs })
    (hHooked :
      ∀ hook, m.hook = some hook →
        Triple (fun s => P s ∧ s.scene.cancelled = false)
          (do
            note .hookCalled
            call (hook context w.obj))
          (fun _ => P) H) :
    Triple P (m.prepare context w) (fun _ => P) H := by
  apply m.prepare_reporting (M := P) (E := fun _ => P)
    (R := fun _ => P)
  · exact fun _ _ hPre => hPre
  · exact hResumed
  · exact fun s hPre _ => hCancelled s hPre
  · intro hook hHook
    refine (hHooked hook hHook).mono (fun _ hPre => hPre) ?_
      (fun _ _ hHalt => hHalt)
    intro answer s hPre
    rcases answer with _ | e | c
    · exact hCancelled s hPre
    · exact hPre
    · exact hPre
  · exact fun e _ => m.report_triple _ _ _ hReported
  · exact fun _ _ _ hPre => hPre
  · exact fun e => hFailed e.failure
  · exact fun _ _ hPre => hPre

/- The hook is called, or there is none. -/
theorem prepare_triple
    (m : Manager μ)
    {context : Context}
    {w : Work}
    (hResumed : ∀ s, P s → P s.resume)
    (hHalts : ∀ h s, P s → H h s)
    (hReported :
      ∀ s rs, P s → P { s with reports := rs })
    (hNoted : ∀ s, P s → P (s.note .hookCalled))
    (hHooked :
      ∀ hook, m.hook = some hook →
        Triple P (call (hook context w.obj))
          (fun _ => P) H) :
    Triple P (m.prepare context w) (fun _ => P) H :=
  m.prepare_awaits hResumed (hHalts _)
    (fun _ => hHalts _) hReported
    (fun hook hHook =>
      .bind
        (.note (Q := fun _ => P)
          (fun s hPre => hNoted s hPre.1))
        (fun _ => hHooked hook hHook))

/-
  A chain carries on what each of its steps does, by
  induction on the steps.
-/
theorem runChain_triple
    (m : Manager μ)
    {I : Work → Session μ → Prop}
    {context : Context}
    {steps : List (Step μ)}
    {w : Work}
    (hFailed :
      ∀ w s, I w s → I { w with hasError := true } s)
    (hExecuted :
      ∀ step ∈ steps, ∀ w,
        Triple (I w) (m.executeStep context step w)
          (fun r => I r.2) H) :
    Triple (I w) (m.runChain context steps w)
      (fun e => I e.work) H := by
  induction steps generalizing w with
  | nil => exact .pure (fun _ hI => hI)
  | cons step rest ih =>
      unfold runChain
      refine .bind (hExecuted step (by simp) w) ?_
      intro r
      rcases r with ⟨result, w⟩
      have hRest :
          ∀ w : Work,
            Triple (I w) (m.runChain context rest w)
              (fun e => I e.work) H :=
        fun w =>
          ih (fun step hStep =>
            hExecuted step (by simp [hStep]))
      cases result with
      | proceed _ => exact hRest w
      | skipped _ => exact hRest w
      | errorContinue _ =>
          exact (hRest { w with hasError := true }).mono
            (hFailed w) (fun _ _ h => h) (fun _ _ h => h)
      | stopChain _ _ => exact .pure (fun _ hI => hI)
      | errorStop _ _ => exact .pure (hFailed w)
      | errorRetry _ _ => exact .pure (fun _ hI => hI)

/-
  The first part of a reconcile, from the fetch and from
  what tokens and steps make of a fetched object, with the
  reason of each way to end before the steps.
-/
theorem draft_reasons
    (m : Manager μ)
    {k : Key}
    {F : Object → Session μ → Prop}
    {E : StoreError → Session μ → Prop}
    {D : Draft → Session μ → Prop}
    (hFetch :
      Triple P (await (some <$> fetch k))
        (fun r s =>
          match r with
          | .ok o => F o s
          | .error e => E e s)
        H)
    (hReported :
      ∀ o s rs, F o s → F o { s with reports := rs })
    (hErrorReported :
      ∀ e s rs, E e s → E e { s with reports := rs })
    (hMissing : ∀ e s, E e s → D (.early .missing) s)
    (hFailed : ∀ e s, E e s → H (.failed (.store e)) s)
    (hIncapable :
      ∀ o c s, m.missingCapability? o = some c → F o s →
        H (.failed
          (.missingCapability m.kind c.contract)) s)
    (hClock :
      ∀ o fault s, m.missingCapability? o = none → F o s →
        s.scene.clock.read = .error fault →
          H (.panicked (.message fault.message)) s)
    (hParked :
      ∀ o now d s,
        m.parked? (Work.fresh o now) = some d → F o s →
          D (.early (.parked d)) s)
    (hSteps :
      ∀ o now,
        m.missingCapability? o = none →
        Triple
          (fun s => F o s ∧ s.scene.clock.read = .ok now)
          (m.ensureTokens (Work.fresh o now) >>=
            m.draftSteps (m.context k))
          D H) :
    Triple P (m.draft k) D H := by
  unfold draft
  refine .bind hFetch ?_
  intro r
  cases r with
  | ok o =>
      change Triple (F o) (m.draftObject (m.context k) o) D H
      unfold draftObject
      refine .bind
        (Q := fun _ s =>
          m.missingCapability? o = none ∧ F o s) ?_ ?_
      · unfold checkCapabilities
        split
        · next hNone => exact .pure (fun _ hF => ⟨hNone, hF⟩)
        · next c hSome =>
            exact .bind
              (m.emit_triple _ (hReported o))
              (fun _ => .fail (hIncapable o c · hSome))
      · intro _
        refine .assume (fun hCapable => ?_)
        refine .bind
          (.clock
            (Q := fun now s =>
              F o s ∧ s.scene.clock.read = .ok now)
            (fun _ _ hF hRead => ⟨hF, hRead⟩)
            (fun fault s hF hRead =>
              hClock o fault s hCapable hF hRead)) ?_
        intro now
        dsimp only
        split
        · next d hParks =>
            exact .pure (fun s h =>
              hParked o now d s hParks h.1)
        · exact hSteps o now hCapable
  | error e =>
      dsimp only
      split
      · exact .pure (hMissing e)
      · exact .bind
          (m.reportFetchError_triple _ _ (hErrorReported e))
          (fun _ => .fail (hFailed e))

/-
  The first part of a reconcile where the reasons do not
  matter.
-/
theorem draft_triple
    (m : Manager μ)
    {k : Key}
    {F : Object → Session μ → Prop}
    {E : Session μ → Prop}
    {D : Draft → Session μ → Prop}
    (hFetch :
      Triple P (await (some <$> fetch k))
        (fun r s =>
          match r with
          | .ok o => F o s
          | .error _ => E s)
        H)
    (hFetched : ∀ o s, F o s → E s)
    (hReported :
      ∀ o s rs, F o s → F o { s with reports := rs })
    (hErrorReported :
      ∀ s rs, E s → E { s with reports := rs })
    (hEarly : ∀ why s, E s → D (.early why) s)
    (hHalts : ∀ h s, E s → H h s)
    (hSteps :
      ∀ o now,
        m.missingCapability? o = none →
        Triple (F o)
          (m.ensureTokens (Work.fresh o now) >>=
            m.draftSteps (m.context k))
          D H) :
    Triple P (m.draft k) D H :=
  m.draft_reasons (E := fun _ => E) hFetch hReported
    (fun _ => hErrorReported) (fun _ => hEarly _)
    (fun _ => hHalts _)
    (fun o _ s _ hF => hHalts _ s (hFetched o s hF))
    (fun o _ s _ hF _ => hHalts _ s (hFetched o s hF))
    (fun o _ _ s _ hF => hEarly _ s (hFetched o s hF))
    (fun o now hCapable =>
      (hSteps o now hCapable).mono (fun _ h => h.1)
        (fun _ _ h => h) (fun _ _ h => h))

end Before

------------------------------------------------------------
-- After the Chain
------------------------------------------------------------

section After

variable {P : Session μ → Prop}
variable {Q : Work → Session μ → Prop}
variable {H : Halt → Session μ → Prop}

/-
  The next slot is drawn and stamped on the status with the
  generation of the working copy, unless there is none to
  stamp or it cannot be told.
-/
theorem stampSlot_stamps
    (m : Manager μ)
    {w : Work}
    (hDrawn :
      ∀ s n, P s → P { s with draws := n })
    (hLeft : ∀ s, P s → Q w s)
    (hStamped :
      ∀ s slot, P s →
        Q { w with
          obj := w.obj.mapStatus (fun st =>
            { st with
              nextReconcile := some slot
              observedGeneration :=
                w.obj.metadata.generation }) } s)
    (hPanic : ∀ p s, P s → H (.panicked p) s) :
    Triple P (m.stampSlot w) Q H := by
  unfold stampSlot
  split
  · exact .pure hLeft
  · split
    · exact .pure hLeft
    · refine .bind (.read (Q := fun _ => P) (fun _ h => h)) ?_
      intro s
      dsimp only
      refine .bind
        (.update (Q := fun _ => P)
          (fun s h => hDrawn s _ h)) ?_
      intro _
      split
      · exact .halt (hPanic _)
      · exact .pure (fun s h => hStamped s _ h)

/- A slot is stamped where the generation does not matter. -/
theorem stampSlot_triple
    (m : Manager μ)
    {w : Work}
    (hDrawn :
      ∀ s n, P s → P { s with draws := n })
    (hLeft : ∀ s, P s → Q w s)
    (hStamped :
      ∀ s slot generation, P s →
        Q { w with
          obj := w.obj.mapStatus (fun st =>
            { st with
              nextReconcile := some slot
              observedGeneration := generation }) } s)
    (hPanic : ∀ p s, P s → H (.panicked p) s) :
    Triple P (m.stampSlot w) Q H :=
  m.stampSlot_stamps hDrawn hLeft
    (fun s slot h => hStamped s slot _ h) hPanic

/-
  The status is written, unless there is no reason to or the
  run is cancelled by then.  An object that went away while
  it was being deleted is no error; any other error but a
  conflict is reported.
-/
theorem persistStatus_reporting
    (m : Manager μ)
    {w : Work}
    {W : Except StoreError Object → Session μ → Prop}
    {Q : Except ReconcileError Work → Session μ → Prop}
    (hResumed : ∀ s, P s → P s.resume)
    (hSkipped :
      m.readOnly = true ∨ w.obj.status = w.snapshot.status →
        ∀ s, P s → Q (.ok w) s)
    (hCancelled :
      ∀ s, P s → s.scene.cancelled = true →
        Q (.error .cancelled) s)
    (hWritten :
      m.readOnly = false → w.obj.status ≠ w.snapshot.status →
        Triple
          (fun s => P s ∧ s.scene.cancelled = false)
          (sendStatus w.obj) W H)
    (hOk :
      ∀ stored s, W (.ok stored) s →
        Q (.ok { w with
          obj :=
            w.obj.withVersion stored.metadata.resourceVersion
          snapshot :=
            w.snapshot.withVersion
              stored.metadata.resourceVersion }) s)
    (hGone :
      ∀ e s, e.isNotFound = true → w.obj.isDeleting = true →
        W (.error e) s → Q (.ok w) s)
    (hConflict :
      ∀ e s, e.isConflict = true →
        W (.error e) s → Q (.error (.store e)) s)
    (hReport :
      ∀ e,
        e.isNotFound = false ∨ w.obj.isDeleting = false →
        e.isConflict = false →
          Triple (W (.error e))
            (m.reportStoreError e w.snapshot)
            (fun _ => Q (.error (.store e))) H) :
    Triple P (m.persistStatus w) Q H := by
  unfold persistStatus
  split
  · next hSkip =>
      exact .pure (hSkipped (by simpa using hSkip))
  · next hWrite =>
      have hWrite :
          m.readOnly = false ∧
            w.obj.status ≠ w.snapshot.status := by
        simpa using hWrite
      refine .bind
        (Q := fun r s =>
          match r with
          | none => Q (.error .cancelled) s
          | some r => W r s) ?_ ?_
      · exact .cancellable (M := P) hResumed hCancelled
          (.map (hWritten hWrite.1 hWrite.2))
      · intro r
        rcases r with _ | e | stored
        · exact .pure (fun _ h => h)
        · dsimp only
          split
          · next hNoNeed =>
              have hNoNeed :=
                Bool.and_eq_true_iff.mp hNoNeed
              exact .pure (fun s h =>
                hGone e s hNoNeed.1 hNoNeed.2 h)
          · next hNeed =>
              have hNeed :
                  e.isNotFound = false ∨
                    w.obj.isDeleting = false :=
                Bool.and_eq_false_iff.mp
                  (Bool.eq_false_iff.mpr hNeed)
              split
              · next hOverwritten =>
                  exact .pure (fun s h =>
                    hConflict e s hOverwritten h)
              · next hOther =>
                  exact .bind
                    (hReport e hNeed
                      (Bool.eq_false_iff.mpr hOther))
                    (fun _ => .pure (fun _ h => h))
        · exact .pure (hOk stored)

/- The status is written where reports do not matter. -/
theorem persistStatus_triple
    (m : Manager μ)
    {w : Work}
    {W : Except StoreError Object → Session μ → Prop}
    {Q : Except ReconcileError Work → Session μ → Prop}
    (hResumed : ∀ s, P s → P s.resume)
    (hSkipped :
      m.readOnly = true ∨ w.obj.status = w.snapshot.status →
        ∀ s, P s → Q (.ok w) s)
    (hCancelled :
      ∀ s, P s → s.scene.cancelled = true →
        Q (.error .cancelled) s)
    (hWritten :
      m.readOnly = false → w.obj.status ≠ w.snapshot.status →
        Triple
          (fun s => P s ∧ s.scene.cancelled = false)
          (sendStatus w.obj) W H)
    (hReported :
      ∀ r s rs, W r s → W r { s with reports := rs })
    (hOk :
      ∀ stored s, W (.ok stored) s →
        Q (.ok { w with
          obj :=
            w.obj.withVersion stored.metadata.resourceVersion
          snapshot :=
            w.snapshot.withVersion
              stored.metadata.resourceVersion }) s)
    (hGone :
      ∀ e s, e.isNotFound = true → w.obj.isDeleting = true →
        W (.error e) s → Q (.ok w) s)
    (hFailed :
      ∀ e s,
        e.isNotFound = false ∨ w.obj.isDeleting = false →
          W (.error e) s → Q (.error (.store e)) s) :
    Triple P (m.persistStatus w) Q H := by
  apply m.persistStatus_reporting hResumed hSkipped
    hCancelled hWritten hOk hGone
  · intro e s hConflict hWrote
    have hNeed : e.isNotFound = false := by
      cases e with
      | notFound _ => cases hConflict
      | _ => rfl
    exact hFailed e s (.inl hNeed) hWrote
  · intro e hNeed _
    exact (m.reportStoreError_triple e w.snapshot
      (hReported (.error e))).mono (fun _ h => h)
        (fun _ s => hFailed e s hNeed) (fun _ _ h => h)

/-
  The refresh label is dropped from the stored object, if
  the manager schedules and the snapshot has the label.  A
  patch that fails is reported and is the error of the run.
-/
theorem clearRefreshLabel_reporting
    (m : Manager μ)
    {w : Work}
    {E : StoreError → Session μ → Prop}
    {Q : Unit → Session μ → Prop}
    (hResumed : ∀ s, P s → P s.resume)
    (hKept :
      m.scheduler = none ∨ m.readOnly = true ∨
          w.snapshot.metadata.hasRefreshLabel = false →
        ∀ s, P s → Q () s)
    (hCancelled :
      w.snapshot.metadata.hasRefreshLabel = true →
        ∀ s, P s → s.scene.cancelled = true →
          H (.failed .cancelled) s)
    (hSent :
      m.readOnly = false →
        w.snapshot.metadata.hasRefreshLabel = true →
          Triple
            (fun s => P s ∧ s.scene.cancelled = false)
            (sendPatch
              (w.snapshot.mapMetadata (·.removeRefreshLabel))
              w.snapshot)
            (fun r s =>
              match r with
              | .ok _ => Q () s
              | .error e => E e s)
            H)
    (hReport :
      ∀ e,
        Triple (E e) (m.reportStoreError e w.snapshot)
          (fun _ => H (.failed (.store e))) H) :
    Triple P (m.clearRefreshLabel w) Q H := by
  unfold clearRefreshLabel
  split
  · next hClear =>
      have hClear := Bool.and_eq_true_iff.mp hClear
      have hLabel := hClear.2
      have hWritable : m.readOnly = false := by
        simpa using (Bool.and_eq_true_iff.mp hClear.1).2
      refine .bind
        (Q := fun r s =>
          match r with
          | .ok _ => Q () s
          | .error e => E e s) ?_ ?_
      · exact .await (M := P) hResumed
          (hCancelled hLabel)
          (.map (hSent hWritable hLabel))
      · intro r
        cases r with
        | ok _ => exact .pure (fun _ h => h)
        | error e =>
            exact .bind (hReport e)
              (fun _ => .fail (fun _ hHalt => hHalt))
  · next hKeep =>
      refine .pure (hKept ?_)
      cases hScheduler : m.scheduler with
      | none => exact .inl rfl
      | some sched =>
          rw [hScheduler] at hKeep
          cases hReadOnly : m.readOnly with
          | true => exact .inr (.inl rfl)
          | false =>
              rw [hReadOnly] at hKeep
              exact .inr (.inr (by simpa using hKeep))

/- The label is dropped where reports do not matter. -/
theorem clearRefreshLabel_triple
    (m : Manager μ)
    {w : Work}
    {E : StoreError → Session μ → Prop}
    {Q : Unit → Session μ → Prop}
    (hResumed : ∀ s, P s → P s.resume)
    (hKept :
      m.scheduler = none ∨ m.readOnly = true ∨
          w.snapshot.metadata.hasRefreshLabel = false →
        ∀ s, P s → Q () s)
    (hCancelled :
      w.snapshot.metadata.hasRefreshLabel = true →
        ∀ s, P s → s.scene.cancelled = true →
          H (.failed .cancelled) s)
    (hSent :
      m.readOnly = false →
        w.snapshot.metadata.hasRefreshLabel = true →
          Triple
            (fun s => P s ∧ s.scene.cancelled = false)
            (sendPatch
              (w.snapshot.mapMetadata (·.removeRefreshLabel))
              w.snapshot)
            (fun r s =>
              match r with
              | .ok _ => Q () s
              | .error e => E e s)
            H)
    (hReported :
      ∀ e s rs, E e s → E e { s with reports := rs })
    (hFailed : ∀ e s, E e s → H (.failed (.store e)) s) :
    Triple P (m.clearRefreshLabel w) Q H :=
  m.clearRefreshLabel_reporting hResumed hKept hCancelled
    hSent
    (fun e =>
      (m.reportStoreError_triple e _ (hReported e)).mono
        (fun _ h => h) (fun _ => hFailed e) (fun _ _ h => h))

end After

end Manager

end Reconciler
