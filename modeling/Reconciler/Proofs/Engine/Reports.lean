import Reconciler.Proofs.Engine.Incidents
import Reconciler.Proofs.Engine.Mirror
import Reconciler.Proofs.Engine.Returns

/-
  This file says which errors of a run are reported.

  A run reports just what its incidents call for, in their
  order.  Only one error can be lost: that of a step after
  which the clock cannot be read, so that the run panics
  before it comes to the report.

  Key definitions include:
    * `Manager.Candid`
    * `Manager.HaltsTold`

  Key theorems include:
    * `Manager.executeStep_told`
    * `Manager.prepare_told`
    * `Manager.close_told`
    * `Manager.approach_told`
    * `Manager.reconcile_reports`
-/

------------------------------------------------------------
-- The Chain
------------------------------------------------------------

namespace Reconciler

variable {μ : Type}

namespace Manager

open Engine

variable {m : Manager μ}

section Chain

variable {k : Key}
variable {refusal? : Option OperatorError}
variable {start s : Session μ}
variable {o : Object}

/-
  The snapshot still shows the fetched object, but for
  tokens and version.
-/
def Recalls
    (o : Object)
    (c : Copies) : Prop :=
  ∃ tokens version, c.snapshot = o.retokened tokens version

/- A run with work on a fetched object has told all. -/
structure Candid
    (m : Manager μ)
    (k : Key)
    (refusal? : Option OperatorError)
    (start : Session μ)
    (o : Object)
    (w : Work)
    (s : Session μ) : Prop where
  recalls : Recalls o w.toCopies
  told : m.ToldBut k refusal? start [.ok o] [] s

/-
  A run has halted and told all; or the clock could not be
  read right after a step, whose error is not told.
-/
def HaltsTold
    (m : Manager μ)
    (k : Key)
    (refusal? : Option OperatorError)
    (start : Session μ)
    (o : Object)
    (h : Halt)
    (s : Session μ) : Prop :=
  m.ToldBut k refusal? start [.ok o] [] s ∨
    ∃ step result fault,
      h = .panicked (.message fault.message) ∧
        s.scene.clock.read = .error fault ∧
        m.ToldBut k refusal? start [.ok o]
          [.executed step result] s

/- Reports ask of a snapshot what the fetched object says. -/
theorem permitted?_recalled
    {c : Copies}
    (hRecalls : Recalls o c)
    (message : String)
    (step : Option String) :
    m.permitted? c.snapshot message step =
      m.permitted? o message step := by
  rcases hRecalls with ⟨tokens, version, hSnapshot⟩
  rw [hSnapshot]
  rfl

/- A patch that failed and has not been told yet. -/
def Unpatched
    (m : Manager μ)
    (k : Key)
    (refusal? : Option OperatorError)
    (start : Session μ)
    (o : Object)
    (e : StoreError)
    (c : Copies)
    (s : Session μ) : Prop :=
  Recalls o c ∧
    ∃ modified base,
      m.ToldBut k refusal? start [.ok o]
        [.patched modified base (.error e)] s

/- The error of a patch is reported. -/
theorem reportStoreError_told
    {H : Halt → Session μ → Prop}
    (e : StoreError)
    (c : Copies) :
    Triple (m.Unpatched k refusal? start o e c)
      (m.reportStoreError e c.snapshot)
      (fun _ => m.ToldBut k refusal? start [.ok o] []) H := by
  refine .assume (fun hRecalls => ?_)
  refine .named (fun modified => .named (fun base => ?_))
  rw [reportStoreError_eq_deliver,
    permitted?_recalled hRecalls]
  exact deliver_first rfl rfl

/- Tokens are sent, or the patch of them is left to tell. -/
theorem sendTokens_told
    {w : Work}
    (hRecalls : Recalls o w.toCopies)
    (tokened : Object) :
    Triple
      (fun s =>
        m.Candid k refusal? start o w s ∧
          s.scene.cancelled = false)
      (sendTokens { w.toCopies with obj := tokened })
      (fun r s =>
        match r.1 with
        | .ok _ =>
            m.Candid k refusal? start o
              { w with toCopies := r.2 } s
        | .error e =>
            m.Unpatched k refusal? start o e r.2 s)
      (m.HaltsTold k refusal? start o) := by
  rcases hRecalls with ⟨tokens, version, hSnapshot⟩
  apply sendTokens_triple
  · intro s stored store h _
    constructor
    · dsimp only [Recalls]
      rw [hSnapshot]
      exact ⟨_, _, rfl⟩
    · exact h.1.told.pass rfl rfl _
  · intro s e store h _
    exact ⟨h.1.recalls, _, _, h.1.told.moveTo rfl _⟩

/- Conditions are updated on the way to a report. -/
theorem updateConditions_told
    {H : Halt → Session μ → Prop}
    {P : Session μ → Prop}
    {update :
      Instant → Metadata → List Condition →
        List Condition}
    {w : Work}
    (hPanic :
      ∀ fault s, P s →
        s.scene.clock.read = .error fault →
          H (.panicked (.message fault.message)) s) :
    Triple (fun s => Recalls o w.toCopies ∧ P s)
      (m.updateConditions update w)
      (fun w' s => Recalls o w'.toCopies ∧ P s) H :=
  m.updateConditions_clock (fun _ _ h _ _ => h)
    (fun _ h _ => h) (fun fault s h => hPanic fault s h.2)

/- Conditions are seeded where nothing is left to tell. -/
theorem seedCondition_told
    {type : String}
    {seed :
      Instant → Metadata → List Condition →
        List Condition}
    {w : Work} :
    Triple (m.Candid k refusal? start o w)
      (m.seedCondition type seed w)
      (m.Candid k refusal? start o)
      (m.HaltsTold k refusal? start o) := by
  apply m.seedCondition_triple
  · exact fun _ h _ => h
  · intro _
    refine (updateConditions_told
      (P := m.ToldBut k refusal? start [.ok o] [])
      (fun _ _ h _ => .inl h)).mono
        (fun _ h => ⟨h.recalls, h.told⟩)
        (fun _ _ h => ⟨h.1, h.2⟩) (fun _ _ h => h)

/- The tokens of a step are released, and a failure told. -/
theorem releaseTokens_told
    {step : Step μ}
    {w : Work} :
    Triple (m.Candid k refusal? start o w)
      (m.releaseTokens step w)
      (m.Candid k refusal? start o)
      (m.HaltsTold k refusal? start o) := by
  refine .mono
    (M := fun s =>
      Recalls o w.toCopies ∧ m.Candid k refusal? start o w s)
    (.assume (fun hRecalls => ?_))
    (fun _ h => ⟨h.recalls, h⟩) (fun _ _ h => h)
    (fun _ _ h => h)
  apply m.releaseTokens_reporting
    (E := m.Unpatched k refusal? start o)
  · exact fun _ h => ⟨h.recalls, h.told.resume⟩
  · exact fun _ h _ => .inl h.told
  · exact fun e c =>
      (reportStoreError_told e c).mono (fun _ h => h)
        (fun _ _ h => .inl h) (fun _ _ h => h)
  · exact fun _ _ h => h
  · exact fun _ _ => sendTokens_told hRecalls _

/- The declared tokens are put on, and a failure told. -/
theorem ensureTokens_told
    {w : Work} :
    Triple (m.Candid k refusal? start o w)
      (m.ensureTokens w)
      (m.Candid k refusal? start o)
      (m.HaltsTold k refusal? start o) := by
  refine .mono
    (M := fun s =>
      Recalls o w.toCopies ∧ m.Candid k refusal? start o w s)
    (.assume (fun hRecalls => ?_))
    (fun _ h => ⟨h.recalls, h⟩) (fun _ _ h => h)
    (fun _ _ h => h)
  apply m.ensureTokens_reporting
    (M := m.Candid k refusal? start o w)
    (E := m.Unpatched k refusal? start o)
  · exact fun _ h => ⟨h.recalls, h.told.resume⟩
  · exact fun _ h _ => .inl h.told
  · exact fun e c =>
      (reportStoreError_told e c).mono (fun _ h => h)
        (fun _ _ h => .inl h) (fun _ _ h => h)
  · exact fun _ h _ => h
  · exact fun _ _ _ => sendTokens_told hRecalls _

/- A step is run; what happens meanwhile needs no report. -/
theorem runStep_told
    {context : Context}
    {step : Step μ}
    {given : Object} :
    Triple (m.ToldBut k refusal? start [.ok o] [])
      (runStep context step given)
      (fun _ => m.ToldBut k refusal? start [.ok o] [])
      (fun _ => m.ToldBut k refusal? start [.ok o] []) := by
  have hCall :
      ∀ c : Call μ (StepResult × Object),
        Triple (m.ToldBut k refusal? start [.ok o] [])
          (call c)
          (fun _ => m.ToldBut k refusal? start [.ok o] [])
          (fun _ => m.ToldBut k refusal? start [.ok o] []) := by
    intro c
    apply Triple.call_ends
    · exact fun _ _ scene h => h.pass rfl rfl scene
    · exact fun _ _ scene h => h.pass rfl rfl scene
  unfold runStep
  split
  · refine .bind
      (.note (Q := fun _ =>
        m.ToldBut k refusal? start [.ok o] [])
        (fun s h => h.pass rfl rfl s.scene)) ?_
    intro _
    exact .bind (hCall _) (fun _ => .pure (fun _ h => h))
  · split
    · refine .bind
        (.note (Q := fun _ =>
          m.ToldBut k refusal? start [.ok o] [])
          (fun s h => h.pass rfl rfl s.scene)) ?_
      intro _
      exact .bind (hCall _) (fun _ => .pure (fun _ h => h))
    · exact .pure (fun _ h => h)

/-
  One step of the chain: its error is told after its
  conditions have been updated, if they can be.
-/
theorem executeStep_told
    {context : Context}
    {step : Step μ}
    {w : Work} :
    Triple (m.Candid k refusal? start o w)
      (m.executeStep context step w)
      (fun r => m.Candid k refusal? start o r.2)
      (m.HaltsTold k refusal? start o) := by
  unfold executeStep
  dsimp only
  refine .bind seedCondition_told ?_
  intro seeded
  refine .bind
    (Q := fun _ => m.Candid k refusal? start o seeded) ?_ ?_
  · refine .await
      (M := m.Candid k refusal? start o seeded)
      (fun _ h => ⟨h.recalls, h.told.resume⟩)
      (fun _ h _ => .inl h.told) ?_
    refine .mono
      (M := fun s =>
        Recalls o seeded.toCopies ∧
          m.ToldBut k refusal? start [.ok o] [] s)
      (.assume (fun hRecalls => ?_))
      (fun _ h => ⟨h.1.recalls, h.1.told⟩)
      (fun _ _ h => h) (fun _ _ h => h)
    refine runStep_told.mono (fun _ h => h) ?_
      (fun _ _ h => .inl h)
    intro r s hTold
    cases r with
    | some _ => exact ⟨hRecalls, hTold⟩
    | none => exact .inl hTold
  intro r
  rcases r with ⟨result, left, finalized⟩
  refine .bind
    (.note (Q := fun _ s =>
      Recalls o seeded.toCopies ∧
        m.ToldBut k refusal? start [.ok o]
          [.executed step.name result] s)
      (fun s h =>
        ⟨h.recalls, h.told.moveTo rfl s.scene⟩)) ?_
  intro _
  refine .bind
    ((updateConditions_told
      (H := m.HaltsTold k refusal? start o)
      (P := m.ToldBut k refusal? start [.ok o]
        [.executed step.name result]) ?_).mono
      (fun _ h => h) (fun _ _ h => h) (fun _ _ h => h)) ?_
  · intro fault s hTold hClock
    exact .inr ⟨_, _, fault, rfl, hClock, hTold⟩
  intro recorded
  refine .assume (fun hRecalls => ?_)
  refine .bind
    (Q := fun _ => m.Candid k refusal? start o recorded) ?_ ?_
  · rw [reportStepError_eq_deliver]
    simp only [permitted?_recalled hRecalls]
    refine (deliver_first ?_ rfl).mono (fun _ h => h)
      (fun _ _ h => ⟨hRecalls, h⟩) (fun _ _ h => h)
    exact due?_executed _ _ _ _ _ _
  intro _
  split
  · exact .bind releaseTokens_told
      (fun _ => .pure (fun _ h => h))
  · exact .pure (fun _ h => h)

/- The whole chain. -/
theorem runChain_told
    {context : Context}
    {steps : List (Step μ)}
    {w : Work} :
    Triple (m.Candid k refusal? start o w)
      (m.runChain context steps w)
      (fun e => m.Candid k refusal? start o e.work)
      (m.HaltsTold k refusal? start o) :=
  m.runChain_triple (fun _ _ h => ⟨h.recalls, h.told⟩)
    (fun _ _ _ => executeStep_told)

------------------------------------------------------------
-- Before and After the Chain
------------------------------------------------------------

/-
  The hook is called, and its error told: it is the one that
  the hook answers with where it is called.
-/
theorem prepare_told
    {context : Context}
    {w : Work}
    {mid : Session μ}
    (hRefusal : refusal? = m.refusalAt? context w mid) :
    Triple
      (fun s => s = mid ∧ m.Candid k refusal? start o w s)
      (m.prepare context w)
      (fun _ => m.Candid k refusal? start o w)
      (m.HaltsTold k refusal? start o) := by
  refine .mono
    (M := fun s =>
      Recalls o w.toCopies ∧
        s = mid ∧ m.ToldBut k refusal? start [.ok o] [] s)
    (.assume (fun hRecalls => ?_))
    (fun _ h => ⟨h.2.recalls, h.1, h.2.told⟩)
    (fun _ _ h => h) (fun _ _ h => h)
  have hQuiet :
      ∀ s, m.ToldBut k refusal? start [.ok o] [] s →
        m.HaltsTold k refusal? start o (.failed .cancelled) s :=
    fun _ h => .inl h
  apply m.prepare_reporting
    (M := fun s =>
      s = mid.resume ∧
        m.ToldBut k refusal? start [.ok o] [] s)
    (E := fun e s =>
      refusal? = some e ∧
        m.ToldBut k refusal? start [.ok o]
          [.hookCalled, .returned] s)
    (R := fun _ => m.ToldBut k refusal? start [.ok o] [])
  · exact fun _ _ h => ⟨hRecalls, h.2⟩
  · rintro s ⟨rfl, hTold⟩
    exact ⟨rfl, hTold.resume⟩
  · exact fun s h _ => hQuiet s h.2
  · intro hook hHook
    refine .bind
      (.note (Q := fun _ s =>
        (s.scene = mid.resume.scene ∧
          s.scene.cancelled = false) ∧
          m.ToldBut k refusal? start [.ok o]
            [.hookCalled] s) ?_) ?_
    · rintro s ⟨⟨rfl, hTold⟩, hGoes⟩
      exact ⟨⟨rfl, hGoes⟩, hTold.moveTo rfl _⟩
    intro _
    -- Only an error of the hook is left to tell.
    have hAnswered :
        ∀ (s : Session μ) scene,
          refusal? = none →
            m.ToldBut k refusal? start [.ok o]
              [.hookCalled] s →
            m.ToldBut k refusal? start [.ok o] []
              (s.moveTo .returned scene) := by
      rintro s scene hNone hTold
      refine (hTold.moveTo rfl scene).settle ?_
      rw [hNone]
      rfl
    apply Triple.call
    · rintro s answer scene ⟨⟨hScene, hGoes⟩, hTold⟩ hRun
      have hError := hRefusal
      rw [refusalAt?_asked hHook hScene.symm hGoes, hRun]
        at hError
      cases answer with
      | ok c => exact ⟨hRecalls, hAnswered s scene hError hTold⟩
      | error e => exact ⟨hError, hTold.moveTo rfl scene⟩
    · rintro s scene ⟨⟨hScene, hGoes⟩, hTold⟩ hRun
      have hError := hRefusal
      rw [refusalAt?_asked hHook hScene.symm hGoes, hRun]
        at hError
      exact hQuiet _ (hAnswered s scene.cancel hError hTold)
    · rintro s p scene ⟨⟨hScene, hGoes⟩, hTold⟩ hRun
      have hError := hRefusal
      rw [refusalAt?_asked hHook hScene.symm hGoes, hRun]
        at hError
      exact .inl (hAnswered s scene hError hTold)
  · intro e hReports
    refine .assume (fun hError => ?_)
    rw [report_eq_deliver, permitted?_recalled hRecalls]
    rw [hError]
    refine deliver_first ?_ rfl
    change
      (if e.report && e.failure.isReportable then
        m.permitted? o e.failure.fullText none
      else none) = _
    rw [hReports, Bool.true_and]
  · rintro e s hSilent ⟨hError, hTold⟩
    refine hTold.settle ?_
    rw [hError]
    simp [due?, incident?, reportOf?, hSilent]
  · exact fun _ _ h => .inl h
  · exact fun _ _ h => ⟨hRecalls, h⟩

/- A chain is summed up where nothing is left to tell. -/
theorem sumUp_told
    {e : ChainEnd} :
    Triple (m.Candid k refusal? start o e.work) (m.sumUp e)
      (m.Candid k refusal? start o)
      (m.HaltsTold k refusal? start o) := by
  have hReadiness :
      ∀ r w,
        Triple (m.Candid k refusal? start o w)
          (m.recordReadiness r w)
          (m.Candid k refusal? start o)
          (m.HaltsTold k refusal? start o) :=
    fun r w =>
      (updateConditions_told
        (P := m.ToldBut k refusal? start [.ok o] [])
        (fun _ _ h _ => .inl h)).mono
          (fun _ h => ⟨h.recalls, h.told⟩)
          (fun _ _ h => ⟨h.1, h.2⟩) (fun _ _ h => h)
  have hStamped :
      ∀ (w w' : Work) s,
        w'.snapshot = w.snapshot →
          m.Candid k refusal? start o w s →
            m.Candid k refusal? start o (m.stampTime w') s := by
    intro w w' s hSnapshot h
    refine ⟨?_, h.told⟩
    have hKept : (m.stampTime w').snapshot = w.snapshot := by
      rw [← hSnapshot]
      unfold stampTime
      split
      · rfl
      · rfl
    unfold Recalls
    rw [hKept]
    exact h.recalls
  cases e with
  | completed w =>
      refine .bind (hReadiness _ w) ?_
      intro ready
      split
      · exact .pure (fun _ h => h)
      · apply Triple.map
        apply m.stampSlot_stamps
          (P := m.Candid k refusal? start o ready)
        · exact fun _ _ h => ⟨h.recalls, h.told⟩
        · exact fun s h => hStamped ready ready s rfl h
        · exact fun s _ h => hStamped ready _ s rfl h
        · exact fun _ _ h => .inl h.told
  | retry w step requeue cause => exact hReadiness _ w

/- The status is written, and a failure told. -/
theorem persistStatus_told
    {w : Work} :
    Triple (m.Candid k refusal? start o w)
      (m.persistStatus w)
      (fun r s =>
        match r with
        | .ok w' => m.Candid k refusal? start o w' s
        | .error _ =>
            m.ToldBut k refusal? start [.ok o] [] s)
      (m.HaltsTold k refusal? start o) := by
  refine .mono
    (M := fun s =>
      Recalls o w.toCopies ∧ m.Candid k refusal? start o w s)
    (.assume (fun hRecalls => ?_))
    (fun _ h => ⟨h.recalls, h⟩) (fun _ _ h => h)
    (fun _ _ h => h)
  have hDue :
      ∀ e : StoreError,
        m.due? k (some o) refusal?
            (.statusUpdated w.obj (.error e)) =
          if e.isTerminating || e.isConflict ||
              (e.isNotFound && w.obj.isDeleting) then
            none
          else
            m.permitted? o e.message none :=
    fun _ => rfl
  -- An error that is no incident leaves nothing to tell.
  have hNoDue :
      ∀ (e : StoreError) s,
        (e.isConflict ||
          (e.isNotFound && w.obj.isDeleting)) = true →
        m.ToldBut k refusal? start [.ok o]
          [.statusUpdated w.obj (.error e)] s →
        m.ToldBut k refusal? start [.ok o] [] s := by
    intro e s hExcused hTold
    refine hTold.settle ?_
    apply List.filterMap_cons_none
    refine (hDue e).trans (if_pos ?_)
    rw [Bool.or_assoc, hExcused, Bool.or_true]
  apply m.persistStatus_reporting
    (W := fun r =>
      m.ToldBut k refusal? start [.ok o]
        [.statusUpdated w.obj r])
  · exact fun _ h => ⟨h.recalls, h.told.resume⟩
  · exact fun _ _ h => h
  · exact fun _ h _ => h.told
  · exact fun _ _ =>
      .onStore (fun _ _ _ h _ => h.1.told.moveTo rfl _)
  · intro stored s hTold
    rcases hRecalls with ⟨tokens, version, hSnapshot⟩
    constructor
    · dsimp only [Recalls]
      rw [hSnapshot]
      exact ⟨tokens, stored.metadata.resourceVersion, rfl⟩
    · exact hTold.settle rfl
  · intro e s hGone hDeleting hTold
    refine ⟨hRecalls, hNoDue e s ?_ hTold⟩
    rw [hGone, hDeleting]
    exact Bool.or_true _
  · intro e s hConflict hTold
    refine hNoDue e s ?_ hTold
    rw [hConflict]
    exact Bool.true_or _
  · intro e hNeed hOther
    rw [reportStoreError_eq_deliver,
      permitted?_recalled hRecalls]
    refine deliver_first ?_ rfl
    refine (hDue e).trans ?_
    rw [hOther, Bool.and_eq_false_iff.mpr hNeed,
      Bool.or_false, Bool.or_false]

/- The refresh label is dropped, and a failure told. -/
theorem clearRefreshLabel_told
    {w : Work} :
    Triple (m.Candid k refusal? start o w)
      (m.clearRefreshLabel w)
      (fun _ => m.ToldBut k refusal? start [.ok o] [])
      (m.HaltsTold k refusal? start o) := by
  apply m.clearRefreshLabel_reporting
    (E := fun e => m.Unpatched k refusal? start o e w.toCopies)
  · exact fun _ h => ⟨h.recalls, h.told.resume⟩
  · exact fun _ _ h => h.told
  · exact fun _ _ h _ => .inl h.told
  · intro _ _
    refine .onStore ?_
    intro s r store h _
    cases r with
    | ok stored => exact h.1.told.pass rfl rfl _
    | error e =>
        exact ⟨h.1.recalls, _, _, h.1.told.moveTo rfl _⟩
  · exact fun e =>
      (reportStoreError_told e w.toCopies).mono
        (fun _ h => h) (fun _ _ h => .inl h) (fun _ _ h => h)

/- The close of a run tells what goes wrong in it. -/
theorem close_told
    {e : ChainEnd}
    {w : Work} :
    Triple (m.Candid k refusal? start o w) (m.close e w)
      (fun _ => m.ToldBut k refusal? start [.ok o] [])
      (m.HaltsTold k refusal? start o) := by
  cases e with
  | completed _ =>
      refine .bind persistStatus_told ?_
      intro r
      cases r with
      | error e => exact .fail (fun _ h => .inl h)
      | ok w =>
          dsimp only
          split
          · exact .bind clearRefreshLabel_told
              (fun _ => .pure (fun _ h => h))
          · exact .pure (fun _ h => h.told)
  | retry _ _ _ _ =>
      refine .bind persistStatus_told ?_
      intro r
      refine .fail ?_
      intro s h
      cases r with
      | error e => exact .inl h
      | ok w => exact .inl h.told

------------------------------------------------------------
-- The Way to the Hook
------------------------------------------------------------

/- Other tasks that run call for no report. -/
theorem due?_idle
    {idle : List (Moment μ)}
    (hIdle : ∀ mo ∈ idle, mo.event = .resumed)
    (o? : Option Object) :
    (Journal.events idle).filterMap
        (m.due? k o? refusal?) =
      [] := by
  apply List.filterMap_eq_nil_iff.mpr
  intro e hMember
  rcases List.mem_map.mp hMember with ⟨mo, hMoment, hEvent⟩
  rw [← hEvent, hIdle mo hMoment]
  rfl

/- Until its fetch a run has reported nothing. -/
theorem fetch_told :
    Triple (fun s => s = start)
      (await (some <$> fetch k))
      (fun r s =>
        m.ToldBut k refusal? start [r] [.fetched k r] s)
      (fun _ s => m.ToldBut k refusal? start [] [] s) := by
  apply Triple.await
    (M := fun s =>
      Journal.IdleSince start s ∧ s.reports = start.reports)
  · rintro s rfl
    refine ⟨.resume s, ?_⟩
    exact Session.resume_keeps
      (P := fun s' => s'.reports = s.reports)
      (fun _ _ => rfl) (fun _ _ _ h => h)
  · rintro s ⟨⟨idle, hJournal, hIdle⟩, hReports⟩ _
    refine ⟨idle, [], ?_, rfl, ?_, ?_⟩
    · rw [List.append_nil, hJournal]
    · rw [List.append_nil, Journal.fetches_idle hIdle]
    · rw [due?_idle hIdle, hReports]
      simp
  · apply Triple.map
    refine .onStore ?_
    rintro s r store ⟨⟨⟨idle, hJournal, hIdle⟩, hReports⟩, _⟩ _
    refine
      ⟨idle, [⟨.fetched k r, { s.scene with store := store }⟩],
        ?_, rfl, ?_, ?_⟩
    · rw [Session.moveTo_journal, hJournal,
        List.append_assoc]
    · rw [Journal.fetches_append, Journal.fetches_idle hIdle]
      rfl
    · rw [due?_idle hIdle]
      exact hReports.trans (by simp)

/-
  A run up to its chain, if there is no hook to call.  One
  that fetches no object ends there.
-/
theorem approach_told
    (refusal? : Option OperatorError)
    (hHook : m.hook = none) :
    Triple (fun s => s = start) (m.approach k)
      (fun r s =>
        match r with
        | .ok (_, w) => ∃ o, m.Candid k refusal? start o w s
        | .error _ =>
            ∃ fetched,
              m.ToldBut k refusal? start fetched [] s)
      (fun h s =>
        (∃ fetched, m.ToldBut k refusal? start fetched [] s) ∨
          ∃ o, m.HaltsTold k refusal? start o h s) := by
  unfold approach
  refine .bind
    (fetch_told.mono (fun _ h => h) (fun _ _ h => h)
      (fun _ _ h => .inl ⟨[], h⟩)) ?_
  intro r
  cases r with
  | error e =>
      dsimp only
      split
      · next hMissing =>
          refine .pure (fun s hTold => ⟨_, hTold.settle ?_⟩)
          apply List.filterMap_cons_none
          change m.reportOf? k none (.notFetched e) = none
          unfold reportOf?
          dsimp only
          rw [hMissing]
          rfl
      · next hFound =>
          rw [reportFetchError_eq_deliver
            (Bool.eq_false_iff.mpr hFound)]
          refine .bind
            (Q := fun _ =>
              m.ToldBut k refusal? start [.error e] []) ?_
            (fun _ => .fail (fun _ h => .inl ⟨_, h⟩))
          exact deliver_first rfl rfl
  | ok o =>
      refine .bind
        (Q := fun _ =>
          m.ToldBut k refusal? start [.ok o] []) ?_ ?_
      · unfold checkCapabilities
        have hDue :
            m.due? k (some o) refusal? (.fetched k (.ok o)) =
              (m.missingCapability? o).bind (fun c =>
                m.reportOf? k (some o) (.incapable c)) := by
          unfold due? incident?
          dsimp only
          cases m.missingCapability? o with
          | none => rfl
          | some c => rfl
        split
        · next hCapable =>
            refine .pure (fun s hTold => hTold.settle ?_)
            apply List.filterMap_cons_none
            exact hDue.trans (by rw [hCapable]; rfl)
        · next c hIncapable =>
            rw [hIncapable] at hDue
            refine .bind
              (Q := fun _ =>
                m.ToldBut k refusal? start [.ok o] []) ?_
              (fun _ => .fail (fun _ h => .inl ⟨_, h⟩))
            change
              Triple _
                (m.deliver
                  (m.reportOf? k (some o) (.incapable c)))
                _ _
            exact deliver_first hDue rfl
      intro _
      refine .bind
        (.clock
          (Q := fun _ =>
            m.ToldBut k refusal? start [.ok o] [])
          (fun _ _ h _ => h)
          (fun _ _ h _ => .inl ⟨_, h⟩)) ?_
      intro now
      dsimp only
      split
      · exact .pure (fun _ h => ⟨_, h⟩)
      have hFresh :
          Recalls o (Work.fresh o now).toCopies :=
        ⟨o.metadata.finalizers, o.metadata.resourceVersion,
          rfl⟩
      refine .bind
        (ensureTokens_told.mono (fun _ h => ⟨hFresh, h⟩)
          (fun _ _ h => h) (fun _ _ h => .inr ⟨o, h⟩)) ?_
      intro armed
      refine .bind
        (seedCondition_told.mono (fun _ h => h)
          (fun _ _ h => h) (fun _ _ h => .inr ⟨o, h⟩)) ?_
      intro seeded
      unfold prepare
      rw [hHook]
      exact .pure (fun _ h => ⟨o, h⟩)

/- The hook and the steps of a run, and its close. -/
theorem afterApproach_told
    {context : Context}
    {w : Work}
    {mid : Session μ}
    (hRefusal : refusal? = m.refusalAt? context w mid) :
    Triple
      (fun s => s = mid ∧ m.Candid k refusal? start o w s)
      (do
        match ← m.prepare context w with
        | none => return EarlyEnd.refused.delay
        | some c =>
            let e ← m.runChain c (m.order w.deleting) w
            let w ← m.sumUp e
            m.close e w)
      (fun _ => m.ToldBut k refusal? start [.ok o] [])
      (m.HaltsTold k refusal? start o) := by
  refine .bind (prepare_told hRefusal) ?_
  intro prepared
  cases prepared with
  | none => exact .pure (fun _ h => h.told)
  | some c =>
      refine .bind runChain_told ?_
      intro e
      refine .bind sumUp_told ?_
      intro w
      exact close_told

end Chain

------------------------------------------------------------
-- Reconciles
------------------------------------------------------------

/- A reconcile is a run up to its hook, and the rest. -/
theorem reconcile_eq_prepare
    (m : Manager μ)
    (k : Key) :
    m.reconcile k = (do
      match ← ({ m with hook := none } : Manager μ).approach k
      with
      | .error why => return why.delay
      | .ok (c, w) =>
          match ← m.prepare c w with
          | none => return EarlyEnd.refused.delay
          | some c =>
              let e ← m.runChain c (m.order w.deleting) w
              let w ← m.sumUp e
              m.close e w) := by
  rw [reconcile_eq_approach, approach_eq_prepare, bind_assoc]
  congr 1
  funext r
  rcases r with why | ⟨c, w⟩
  · simp
  · simp only [bind_assoc]
    congr 1
    funext prepared
    cases prepared with
    | none => simp
    | some c => simp

/- What the run of a manager without its hook tells. -/
theorem hookless_told
    (m : Manager μ)
    (k : Key)
    (start : Session μ) :
    Triple (fun s => s = start)
      (({ m with hook := none } : Manager μ).approach k)
      (fun r s =>
        match r with
        | .ok (_, w) =>
            ∃ o, m.Candid k (m.refusal? k start) start o w s
        | .error _ =>
            ∃ fetched,
              m.ToldBut k (m.refusal? k start) start fetched
                [] s)
      (fun h s =>
        (∃ fetched,
          m.ToldBut k (m.refusal? k start) start fetched []
            s) ∨
          ∃ o,
            m.HaltsTold k (m.refusal? k start) start o h s) := by
  -- Only the hook tells the two managers apart.
  refine Triple.mono
    (approach_told (m := { m with hook := none })
      (m.refusal? k start) rfl)
    (fun _ h => h) ?_ ?_
  · intro r s h
    rcases r with why | ⟨c, w⟩
    · exact h
    · rcases h with ⟨o, hCandid⟩
      exact ⟨o, hCandid.recalls, hCandid.told⟩
  · intro h s hHalts
    exact hHalts

/- A run tells all, up to an error after which time fails. -/
theorem reconcile_told
    (m : Manager μ)
    (k : Key)
    (start : Session μ) :
    (∃ fetched,
      m.ToldBut k (m.refusal? k start) start fetched []
        ((m.reconcile k).final start)) ∨
      ∃ o h s,
        m.reconcile k start = .error h s ∧
          m.HaltsTold k (m.refusal? k start) start o h s := by
  have hReconcile := m.reconcile_eq_prepare k
  have hApproach := hookless_told m k start
  unfold final
  rw [hReconcile]
  cases hRun :
      ({ m with hook := none } : Manager μ).approach k start
  with
  | error h mid =>
      rw [bind_of_error hRun]
      rcases hApproach.of_error rfl hRun with
        hTold | ⟨o, hHalts⟩
      · exact .inl hTold
      · exact .inr ⟨o, h, mid, rfl, hHalts⟩
  | ok r mid =>
      rw [bind_of_ok hRun]
      have hReached := hApproach.of_ok rfl hRun
      rcases r with why | ⟨c, w⟩
      · exact .inl hReached
      · rcases hReached with ⟨o, hCandid⟩
        have hRefusal :
            m.refusal? k start = m.refusalAt? c w mid := by
          unfold refusal?
          rw [hRun]
        dsimp only
        cases hEnd :
            (do
              match ← m.prepare c w with
              | none => return EarlyEnd.refused.delay
              | some c =>
                  let e ← m.runChain c (m.order w.deleting) w
                  let w ← m.sumUp e
                  m.close e w : Engine μ Duration) mid with
        | ok d s =>
            exact .inl ⟨_, (afterApproach_told hRefusal).of_ok
              ⟨rfl, hCandid⟩ hEnd⟩
        | error h s =>
            exact .inr ⟨o, h, s, rfl,
              (afterApproach_told hRefusal).of_error
                ⟨rfl, hCandid⟩ hEnd⟩

/- A run that has told all has reported what was due. -/
theorem ToldBut.reports
    {k : Key}
    {refusal? : Option OperatorError}
    {start s : Session μ}
    {fetched : List (Except StoreError Object)}
    (hTold : m.ToldBut k refusal? start fetched [] s) :
    ∃ new,
      s.journal = start.journal ++ new ∧
        s.reports =
          start.reports ++ m.reportsDue k refusal? new := by
  rcases hTold with
    ⟨new, last, hJournal, hLast, hFetches, hReports⟩
  have hNone : last = [] := List.map_eq_nil_iff.mp hLast
  subst hNone
  rw [List.append_nil] at hJournal hFetches
  refine ⟨new, hJournal, ?_⟩
  unfold reportsDue Journal.fetched?
  rw [hFetches]
  exact hReports

/-
  A reconcile reports what its incidents call for, in their
  order and once each, and nothing else: policy, generation
  and tags are those of the fetched object.  Only if the
  clock cannot be read right after a step, the run panics
  there and reports what came before that step alone.
-/
theorem reconcile_reports
    (m : Manager μ)
    (k : Key)
    (start : Session μ) :
    ∃ new,
      ((m.reconcile k).final start).journal =
          start.journal ++ new ∧
        (((m.reconcile k).final start).reports =
            start.reports ++
              m.reportsDue k (m.refusal? k start) new ∨
          ∃ earlier step result scene fault s,
            new =
                earlier ++ [⟨.executed step result, scene⟩] ∧
              m.reconcile k start =
                .error
                  (.panicked (.message fault.message)) s ∧
              s.scene.clock.read = .error fault ∧
              s.reports =
                start.reports ++
                  m.reportsDue k (m.refusal? k start)
                    earlier) := by
  rcases m.reconcile_told k start with
    ⟨fetched, hTold⟩ | ⟨o, h, s, hRun, hHalts⟩
  · rcases hTold.reports with ⟨new, hJournal, hReports⟩
    exact ⟨new, hJournal, .inl hReports⟩
  · have hFinal : (m.reconcile k).final start = s := by
      unfold final
      rw [hRun]
    rw [hFinal]
    rcases hHalts with
      hTold | ⟨step, result, fault, rfl, hClock, hTold⟩
    · rcases hTold.reports with ⟨new, hJournal, hReports⟩
      exact ⟨new, hJournal, .inl hReports⟩
    · rcases hTold with
        ⟨earlier, last, hJournal, hLast, hFetches, hReports⟩
      rcases List.map_eq_singleton_iff.mp hLast with
        ⟨⟨event, scene⟩, hMoment, hEvent⟩
      cases hEvent
      rw [hMoment] at hJournal hFetches
      refine ⟨_, hJournal, .inr
        ⟨earlier, step, result, scene, fault, s, rfl, hRun,
          hClock, ?_⟩⟩
      rw [Journal.fetches_append] at hFetches
      have hFetched : Journal.fetches earlier = [.ok o] := by
        simpa [Journal.fetches, Event.fetch?] using hFetches
      unfold reportsDue Journal.fetched?
      rw [hFetched]
      exact hReports

/- A step that outlasts the clock and asks for a report. -/
def loudStep : Step Unit where
  name := "step"
  process := fun _ o => do
    modify (Scene.advance (.ofSeconds 9000000000000))
    return ((StepResult.fail (.plain "boom")).reported, o)

/- A manager that keeps conditions and records reports. -/
def loudManager : Manager Unit :=
  { overtimeManager with
    steps := [loudStep]
    reporter := .recording }

/-
  A run need not report every error that is due: the time of
  the step's condition cannot be told any more, and the run
  panics before it comes to the report.
-/
theorem loud_report_lost :
    ¬ ∃ new,
      ((loudManager.reconcile overtimeKey).final
          overtimeStart).journal =
        overtimeStart.journal ++ new ∧
      ((loudManager.reconcile overtimeKey).final
          overtimeStart).reports =
        overtimeStart.reports ++
          loudManager.reportsDue overtimeKey
            (loudManager.refusal? overtimeKey overtimeStart)
            new := by
  rintro ⟨new, hJournal, hReports⟩
  have hNew :
      new =
        ((loudManager.reconcile overtimeKey).final
          overtimeStart).journal :=
    hJournal.symm
  rw [hNew] at hReports
  exact absurd hReports (by decide +kernel)

end Manager

end Reconciler
