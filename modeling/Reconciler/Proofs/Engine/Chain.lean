import Reconciler.Proofs.Engine.Executions

/-
  This file says which steps a reconcile executes, and which
  of their entry points it calls.

  A reconcile that comes to its chain executes the steps in
  order, until one of them does not let the chain go on or
  the chain is cut off.  What the journal tells about steps
  is just what these executions leave there.

  Key definitions include:
    * `Journal.ofSteps`
    * `Session.Heard`
    * `Manager.approach`

  Key theorems include:
    * `Manager.executeStep_heard`
    * `Manager.runChain_executes`
    * `Manager.reconcile_eq_approach`
    * `Manager.reached_executes`
-/

------------------------------------------------------------
-- Steps in the Journal
------------------------------------------------------------

namespace Reconciler

variable {μ : Type}

/-
  Whether an event belongs to a step: a call of one of its
  entry points, or its result.
-/
def Event.isOfStep : Event → Bool
  | .processCalled _ => true
  | .finalizeCalled _ => true
  | .executed _ _ => true
  | _ => false

namespace Journal

/- What the journal tells about steps, in order. -/
def ofSteps
    (j : List (Moment μ)) : List Event :=
  (events j).filter (·.isOfStep)

theorem ofSteps_append
    (i j : List (Moment μ)) :
    ofSteps (i ++ j) = ofSteps i ++ ofSteps j := by
  unfold ofSteps
  rw [events_append, List.filter_append]

theorem ofSteps_idle
    {idle : List (Moment μ)}
    (hIdle : ∀ mo ∈ idle, mo.event = .resumed) :
    ofSteps idle = [] := by
  apply List.filter_eq_nil_iff.mpr
  intro e hMember
  rcases List.mem_map.mp hMember with ⟨mo, hMoment, hEvent⟩
  rw [← hEvent, hIdle mo hMoment]
  exact Bool.false_ne_true

end Journal

/-
  Since the start of a run one object was fetched, and this
  is what the journal tells about steps.
-/
def Session.Heard
    (start : Session μ)
    (o : Object)
    (heard : List Event)
    (s : Session μ) : Prop :=
  ∃ new,
    s.journal = start.journal ++ new ∧
      Journal.fetches new = [.ok o] ∧
      Journal.ofSteps new = heard

section Heard

variable {start s : Session μ}
variable {o : Object}
variable {heard : List Event}

/- What was heard once something more has happened. -/
theorem Session.Heard.moveTo
    {e : Event}
    (hHeard : start.Heard o heard s)
    (hFetch : e.fetch? = none)
    (scene : Scene μ) :
    start.Heard o (heard ++ [e].filter (·.isOfStep))
      (s.moveTo e scene) := by
  rcases hHeard with ⟨new, hJournal, hFetches, hSteps⟩
  refine ⟨new ++ [⟨e, scene⟩], by simp [hJournal], ?_, ?_⟩
  · rw [Journal.fetches_append, hFetches]
    simp [Journal.fetches, hFetch]
  · rw [Journal.ofSteps_append, hSteps]
    rfl

/- Other events are not heard. -/
theorem Session.Heard.skip
    {e : Event}
    (hHeard : start.Heard o heard s)
    (hFetch : e.fetch? = none)
    (hOther : e.isOfStep = false)
    (scene : Scene μ) :
    start.Heard o heard (s.moveTo e scene) := by
  have hMoved := hHeard.moveTo hFetch scene
  rw [List.filter_singleton, hOther] at hMoved
  simpa using hMoved

/- The running of other tasks is not heard. -/
theorem Session.Heard.resume
    (hHeard : start.Heard o heard s) :
    start.Heard o heard s.resume :=
  Session.resume_keeps (fun _ _ => hHeard)
    (fun _ _ _ h => h.skip rfl rfl _)

end Heard

/-
  A halt cuts a run off: the run was cancelled, a store
  operation failed, or something panicked.
-/
def Halt.CutsOff : Halt → Prop
  | .failed .cancelled => True
  | .failed (.store _) => True
  | .panicked _ => True
  | _ => False

------------------------------------------------------------
-- Executed Chains
------------------------------------------------------------

namespace Manager

open Engine

variable {m : Manager μ}
variable {start : Session μ}
variable {o : Object}
variable {heard : List Event}

/- Conditions are marks, and their update is not heard. -/
theorem updateConditions_heard
    {update :
      Instant → Metadata → List Condition →
        List Condition}
    {w : Work} :
    Triple (start.Heard o heard) (m.updateConditions update w)
      (fun w' s =>
        (w.obj.Marked w'.obj ∧ w'.deleting = w.deleting) ∧
          start.Heard o heard s)
      (fun h _ => h.CutsOff) :=
  m.updateConditions_triple
    (fun _ _ h _ => ⟨⟨.conditions _ _, rfl⟩, h⟩)
    (fun _ h _ => ⟨⟨.refl _, rfl⟩, h⟩)
    (fun _ _ _ => trivial)

theorem seedCondition_heard
    {type : String}
    {seed :
      Instant → Metadata → List Condition →
        List Condition}
    {w : Work} :
    Triple (start.Heard o heard) (m.seedCondition type seed w)
      (fun w' s =>
        (w.obj.Marked w'.obj ∧ w'.deleting = w.deleting) ∧
          start.Heard o heard s)
      (fun h _ => h.CutsOff) :=
  m.seedCondition_triple
    (fun _ h _ => ⟨⟨.refl _, rfl⟩, h⟩)
    (fun _ => updateConditions_heard)

/-
  The call of an entry point is heard, and so is nothing
  else until it returns.
-/
theorem enterStep_heard
    {e : Event}
    {x : Call μ (StepResult × Object)}
    {finalized : Bool}
    (hFetch : e.fetch? = none)
    (hStep : e.isOfStep = true) :
    Triple (start.Heard o heard)
      (do
        note e
        let ended ← Engine.call x
        return ended.map (fun r => (r.1, r.2, finalized)))
      (fun r s =>
        start.Heard o (heard ++ [e]) s ∧
          ∀ a, r = some a →
            a.2.2 = finalized ∧
              ∃ scene scene',
                x scene = .ok (a.1, a.2.1) scene')
      (fun h _ => h.CutsOff) := by
  refine .bind
    (.note
      (Q := fun _ => start.Heard o (heard ++ [e])) ?_) ?_
  · intro s hHeard
    have hMoved := hHeard.moveTo hFetch s.scene
    rw [List.filter_singleton, hStep] at hMoved
    exact hMoved
  intro _
  refine .bind
    (Q := fun r s =>
      start.Heard o (heard ++ [e]) s ∧
        ∀ a, r = some a →
          ∃ scene scene', x scene = .ok a scene')
    (.call ?_ ?_ (fun _ _ _ _ _ => trivial)) ?_
  · intro s a scene hHeard hRun
    refine ⟨hHeard.skip rfl rfl _, ?_⟩
    intro b hEq
    cases hEq
    exact ⟨_, _, hRun⟩
  · intro s scene hHeard _
    exact ⟨hHeard.skip rfl rfl _, fun _ hEq => nomatch hEq⟩
  intro r
  refine .pure (fun s h => ⟨h.1, ?_⟩)
  intro a hEnded
  rcases Option.map_eq_some_iff.mp hEnded with
    ⟨b, hSome, rfl⟩
  exact ⟨rfl, h.2 b hSome⟩

/-
  A step is run as its working copy asks, and its calls are
  heard.
-/
theorem runStep_heard
    {context : Context}
    {step : Step μ}
    {given : Object} :
    Triple (start.Heard o heard) (runStep context step given)
      (fun r s =>
        ∃ calls,
          start.Heard o (heard ++ calls) s ∧
            ∀ a, r = some a →
              step.Plays given calls a.1 a.2.1 ∧
                a.2.2 = (given.isDeleting && step.owns given))
      (fun h _ => h.CutsOff) := by
  unfold runStep
  split
  · next hLive =>
      have hLive : given.isDeleting = false := by
        simpa using hLive
      refine (enterStep_heard rfl rfl).mono (fun _ h => h) ?_
        (fun _ _ h => h)
      intro r s hEntered
      refine ⟨_, hEntered.1, ?_⟩
      intro a hSome
      rcases hEntered.2 a hSome with
        ⟨hFinalized, scene, scene', hRun⟩
      refine ⟨.processed hLive hRun, ?_⟩
      rw [hFinalized, hLive]
      rfl
  · next hDeleting =>
      have hDeleting : given.isDeleting = true := by
        simpa using hDeleting
      split
      · next hOwns =>
          refine (enterStep_heard rfl rfl).mono
            (fun _ h => h) ?_ (fun _ _ h => h)
          intro r s hEntered
          refine ⟨_, hEntered.1, ?_⟩
          intro a hSome
          rcases hEntered.2 a hSome with
            ⟨hFinalized, scene, scene', hRun⟩
          refine ⟨.finalized hDeleting hOwns hRun, ?_⟩
          rw [hFinalized, hDeleting, hOwns]
          rfl
      · next hDisowned =>
          have hDisowned : step.owns given = false :=
            Bool.eq_false_iff.mpr hDisowned
          refine .pure (fun s h => ⟨[], by simpa using h, ?_⟩)
          rintro a ⟨⟩
          refine ⟨.passed hDeleting hDisowned, ?_⟩
          rw [hDeleting, hDisowned]
          rfl

/- A step is run unless the run is cancelled by then. -/
theorem awaitStep_heard
    {context : Context}
    {step : Step μ}
    {given : Object} :
    Triple (start.Heard o heard)
      (await (runStep context step given))
      (fun r s =>
        ∃ calls,
          (step.Plays given calls r.1 r.2.1 ∧
            r.2.2 = (given.isDeleting && step.owns given)) ∧
            start.Heard o (heard ++ calls) s)
      (fun h _ => h.CutsOff) := by
  refine .await (M := start.Heard o heard)
    (fun _ h => h.resume) (fun _ _ _ => trivial) ?_
  refine runStep_heard.mono (fun _ h => h.1) ?_
    (fun _ _ h => h)
  intro r s hRun
  cases r with
  | none => trivial
  | some r =>
      rcases hRun with ⟨calls, hHeard, hPlays⟩
      exact ⟨calls, hPlays r rfl, hHeard⟩

/-
  The tokens of a step are taken off the working copy, unless
  the manager only reads.
-/
theorem releaseTokens_heard
    {step : Step μ}
    {w : Work} :
    Triple (start.Heard o heard) (m.releaseTokens step w)
      (fun w' s =>
        (w.obj.withFinalizers
            (Tokens.without
              (if m.readOnly then []
                else step.tokens w.obj)
              w.obj.metadata.finalizers)).Marked w'.obj ∧
          start.Heard o heard s)
      (fun h _ => h.CutsOff) := by
  refine m.releaseTokens_triple
    (E := fun _ _ => True)
    (fun _ h => h.resume) (fun _ _ _ => trivial)
    (fun _ _ _ _ => trivial) (fun _ _ _ => trivial) ?_ ?_
  · intro hSkip s hHeard
    refine ⟨?_, hHeard⟩
    split
    · rw [Tokens.without_nil]
      exact .refl w.obj
    · next hWritable =>
        have hDisowned :=
          hSkip.resolve_left hWritable
        rw [Tokens.without_of_disowned hDisowned]
        exact .refl w.obj
  · intro hWritable _
    refine sendTokens_triple ?_ (fun _ _ _ _ _ => trivial)
    intro s stored store hHeard _
    refine ⟨?_, hHeard.1.skip rfl rfl _⟩
    rw [Tokens.removeAll_eq, hWritable]
    exact ⟨w.obj.status.conditions, _, rfl⟩

/- One step of the chain is executed and heard. -/
theorem executeStep_heard
    {context : Context}
    {step : Step μ}
    {w : Work} :
    Triple (start.Heard o heard)
      (m.executeStep context step w)
      (fun r s =>
        ∃ x : Execution μ,
          (x.step = step ∧ x.result = r.1 ∧
            w.obj.Marked x.given ∧ x.Plays ∧
              (x.after m.readOnly).Marked r.2.obj) ∧
            start.Heard o (heard ++ x.events) s)
      (fun h _ => h.CutsOff) := by
  unfold executeStep
  dsimp only
  refine .bind seedCondition_heard ?_
  intro seeded
  refine .assume (fun hSeeded => ?_)
  refine .bind awaitStep_heard ?_
  intro r
  rcases r with ⟨result, handed, finalized⟩
  refine .named (fun calls => .assume ?_)
  rintro ⟨hPlays, hFinalized⟩
  refine .bind
    (.note
      (Q := fun _ =>
        start.Heard o
          (heard ++ (calls ++ [.executed step.name result])))
      (fun s h => by
        rw [← List.append_assoc]
        exact h.moveTo rfl s.scene)) ?_
  intro _
  refine .bind updateConditions_heard ?_
  intro recorded
  refine .assume (fun hRecorded => ?_)
  refine .bind
    (m.reportStepError_triple _ _ _ (fun _ _ h => h)) ?_
  intro _
  let x : Execution μ :=
    ⟨step, seeded.obj, calls, result, recorded.obj⟩
  have hPlayed : x.Plays := ⟨handed, hPlays, hRecorded.1⟩
  split
  · next hSettled =>
      have hSettled := Bool.and_eq_true_iff.mp hSettled
      have hOwner :=
        Bool.and_eq_true_iff.mp
          (hFinalized.symm.trans hSettled.1)
      refine .bind releaseTokens_heard ?_
      intro released
      refine .pure (fun s h =>
        ⟨x, ⟨rfl, rfl, hSeeded.1, hPlayed, ?_⟩, h.2⟩)
      rw [x.after_of_settled hOwner.1 hOwner.2 hSettled.2]
      exact h.1
  · next hOpen =>
      refine .pure (fun s h =>
        ⟨x, ⟨rfl, rfl, hSeeded.1, hPlayed, ?_⟩, h⟩)
      rw [x.after_of_unsettled]
      · exact .refl recorded.obj
      · have hOpen := Bool.eq_false_iff.mpr hOpen
        rw [hFinalized] at hOpen
        exact hOpen

/-
  The whole chain, by induction on its steps: what it has
  executed is heard, unless it is cut off.
-/
theorem runChain_executes
    {context : Context}
    {steps : List (Step μ)}
    {w : Work} :
    Triple (start.Heard o heard)
      (m.runChain context steps w)
      (fun _ s =>
        ∃ xs,
          Execution.Chain m.readOnly w.obj steps xs ∧
            start.Heard o (heard ++ xs.flatMap (·.events)) s)
      (fun h _ => h.CutsOff) := by
  induction steps generalizing w heard with
  | nil =>
      exact .pure (fun s h => ⟨[], .done, by simpa using h⟩)
  | cons step rest ih =>
      unfold runChain
      refine .bind executeStep_heard ?_
      intro r
      rcases r with ⟨result, w'⟩
      refine .named (fun x => .assume ?_)
      rintro ⟨rfl, rfl, hGiven, hPlays, hAfter⟩
      -- The chain goes on with what this step has left.
      have hRest :
          ∀ w'' : Work,
            w''.obj = w'.obj →
            x.result.outcome.continuesChain = true →
            Triple (start.Heard o (heard ++ x.events))
              (m.runChain context rest w'')
              (fun _ s =>
                ∃ xs,
                  Execution.Chain m.readOnly w.obj
                      (x.step :: rest) xs ∧
                    start.Heard o
                      (heard ++ xs.flatMap (·.events)) s)
              (fun h _ => h.CutsOff) := by
        intro w'' hObj hGoes
        refine ih.mono (fun _ h => h) ?_ (fun _ _ h => h)
        rintro _ s ⟨xs, hChain, hHeard⟩
        refine ⟨x :: xs, .goesOn hGiven hPlays hGoes
          (hChain.of_marked (hObj ▸ hAfter)), ?_⟩
        rw [List.flatMap_cons, ← List.append_assoc]
        exact hHeard
      have hStop :
          ∀ e : ChainEnd,
            x.result.outcome.continuesChain = false →
            Triple (start.Heard o (heard ++ x.events))
              (pure e : Engine μ ChainEnd)
              (fun _ s =>
                ∃ xs,
                  Execution.Chain m.readOnly w.obj
                      (x.step :: rest) xs ∧
                    start.Heard o
                      (heard ++ xs.flatMap (·.events)) s)
              (fun h _ => h.CutsOff) :=
        fun _ hStops =>
          .pure (fun s h =>
            ⟨[x], .stops hGiven hPlays hStops,
              by simpa using h⟩)
      dsimp only
      split
      · next hResult =>
          exact hRest _ rfl (by rw [hResult]; rfl)
      · next hResult =>
          exact hRest _ rfl (by rw [hResult]; rfl)
      · next hResult =>
          exact hStop _ (by rw [hResult]; rfl)
      · next hResult =>
          exact hRest _ rfl (by rw [hResult]; rfl)
      · next hResult =>
          exact hStop _ (by rw [hResult]; rfl)
      · next hResult =>
          exact hStop _ (by rw [hResult]; rfl)

------------------------------------------------------------
-- Before and After the Chain
------------------------------------------------------------

/-
  Reconcile a key up to its chain: the context and the work
  that the chain starts with, or why the run ends early.
-/
def approach
    (m : Manager μ)
    (k : Key) :
    Engine μ (Except EarlyEnd (Context × Work)) := do
  match ← await (some <$> fetch k) with
  | .ok o =>
      m.checkCapabilities o
      let w := Work.fresh o (← now)
      match m.parked? w with
      | some d => return .error (.parked d)
      | none =>
          let w ← m.ensureTokens w
          let w ←
            m.seedCondition readyType Conditions.seedReady w
          match ← m.prepare (m.context k) w with
          | none => return .error .refused
          | some c => return .ok (c, w)
  | .error e =>
      if e.isNotFound then
        return .error .missing
      else
        m.reportFetchError e k
        fail (.store e)

/- A reconcile comes to its chain, runs it, and closes. -/
theorem reconcile_eq_approach
    (m : Manager μ)
    (k : Key) :
    m.reconcile k = (do
      match ← m.approach k with
      | .error why => return why.delay
      | .ok (c, w) =>
          let e ← m.runChain c (m.order w.deleting) w
          let w ← m.sumUp e
          m.close e w) := by
  simp only [reconcile, approach, bind_assoc]
  congr 1
  funext fetched
  cases fetched with
  | ok o =>
      simp only [reconcileObject, bind_assoc]
      congr 1
      funext _
      congr 1
      funext now
      cases m.parked? (Work.fresh o now) with
      | some d => simp [EarlyEnd.delay]
      | none =>
          simp only [runSteps, bind_assoc]
          congr 1
          funext armed
          congr 1
          funext seeded
          congr 1
          funext prepared
          cases prepared with
          | none => simp [EarlyEnd.delay]
          | some c =>
              simp only [pure_bind]
              congr 1
              funext e
              cases e with
              | completed w => exact m.complete_eq_sumUp_close w
              | retry w step requeue cause => rfl
  | error e =>
      by_cases hMissing : e.isNotFound = true
      · simp [hMissing, EarlyEnd.delay]
      · dsimp only
        rw [if_neg hMissing, if_neg hMissing, bind_assoc]
        rfl

/-
  The work that a chain starts with: the fetched object but
  for marks of the engine and, on a live one, for tokens.
-/
structure Approached
    (o : Object)
    (tokens : List String)
    (w : Work) : Prop where
  marked : (o.withFinalizers tokens).Marked w.obj
  deleting : w.deleting = o.isDeleting
  kept :
    o.isDeleting = true → tokens = o.metadata.finalizers

/- Tokens are put on a live object and left on another. -/
theorem ensureTokens_heard
    {w : Work} :
    Triple (start.Heard o heard) (m.ensureTokens w)
      (fun w' s =>
        ∃ tokens,
          ((w.obj.withFinalizers tokens).Marked w'.obj ∧
            w'.deleting = w.deleting ∧
              (w.obj.isDeleting = true →
                tokens = w.obj.metadata.finalizers)) ∧
            start.Heard o heard s)
      (fun h _ => h.CutsOff) := by
  refine m.ensureTokens_triple (E := fun _ => True)
    (fun _ h => h.resume) (fun _ _ _ => trivial)
    (fun _ _ _ => trivial) (fun _ _ _ => trivial)
    (fun _ h _ =>
      ⟨w.obj.metadata.finalizers,
        ⟨.refl w.obj, rfl, fun _ => rfl⟩, h⟩) ?_
  intro _ hLive _
  refine sendTokens_triple ?_ (fun _ _ _ _ _ => trivial)
  intro s stored store hHeard _
  rcases Tokens.addAll_cases
    (Tokens.missing m.steps w.obj) w.obj with
    ⟨tokens, hAdded, _⟩
  refine
    ⟨tokens, ⟨?_, rfl, fun hDeleting =>
      absurd (hLive.symm.trans hDeleting) (by decide)⟩,
      hHeard.1.skip rfl rfl _⟩
  dsimp only
  rw [hAdded]
  exact ⟨w.obj.status.conditions, _, rfl⟩

/- Before a fetched object nothing is heard of steps. -/
theorem fetch_heard
    {k : Key} :
    Triple (fun s => s = start) (await (some <$> fetch k))
      (fun r s => ∀ o, r = .ok o → start.Heard o [] s)
      (fun _ _ => True) := by
  refine Journal.fetch_noted.mono (fun _ h => h) ?_
    (fun _ _ h => h)
  rintro r s ⟨idle, hJournal, hIdle⟩ o rfl
  refine ⟨idle ++ [⟨.fetched k (.ok o), s.scene⟩],
    by rw [hJournal, List.append_assoc], ?_, ?_⟩
  · rw [Journal.fetches_append, Journal.fetches_idle hIdle]
    rfl
  · rw [Journal.ofSteps_append, Journal.ofSteps_idle hIdle]
    rfl

/- The hook is not heard. -/
theorem prepare_heard
    {context : Context}
    {w : Work} :
    Triple (start.Heard o heard) (m.prepare context w)
      (fun _ => start.Heard o heard) (fun _ _ => True) :=
  m.prepare_triple (fun _ h => h.resume)
    (fun _ _ _ => trivial) (fun _ _ h => h)
    (fun s h => h.skip rfl rfl s.scene)
    (fun _ _ =>
      .call_ends (fun _ _ scene h => h.skip rfl rfl scene)
        (fun _ _ _ _ => trivial))

/- A run that comes to its chain has heard of no step. -/
theorem approach_heard
    {k : Key} :
    Triple (fun s => s = start) (m.approach k)
      (fun r s =>
        ∀ c w, r = .ok (c, w) →
          ∃ o tokens,
            Approached o tokens w ∧ start.Heard o [] s)
      (fun _ _ => True) := by
  unfold approach
  refine .bind fetch_heard ?_
  intro r
  cases r with
  | error e =>
      dsimp only
      split
      · exact .pure (fun _ _ _ _ hEq => nomatch hEq)
      · exact .bind
          ((m.reportFetchError_triple e k
            (P := fun _ => True) (fun _ _ _ => trivial)).mono
              (fun _ _ => trivial) (fun _ _ h => h)
              (fun _ _ h => h))
          (fun _ => .fail (fun _ _ => trivial))
  | ok o =>
      refine .bind (Q := fun _ => start.Heard o []) ?_ ?_
      · unfold checkCapabilities
        split
        · exact .pure (fun _ h => h o rfl)
        · exact .bind
            (m.emit_triple _ (fun _ _ h => h))
            (fun _ => .fail (fun _ _ => trivial))
      intro _
      refine .bind
        (.clock (Q := fun _ => start.Heard o [])
          (fun _ _ h _ => h) (fun _ _ _ _ => trivial)) ?_
      intro now
      dsimp only
      split
      · exact .pure (fun _ _ _ _ hEq => nomatch hEq)
      refine .bind
        (ensureTokens_heard.mono (fun _ h => h)
          (fun _ _ h => h) (fun _ _ _ => trivial)) ?_
      intro armed
      refine .named (fun tokens => .assume ?_)
      rintro ⟨hArmed, hArmedDeleting, hKept⟩
      refine .bind
        (seedCondition_heard.mono (fun _ h => h)
          (fun _ _ h => h) (fun _ _ _ => trivial)) ?_
      intro seeded
      refine .assume ?_
      rintro ⟨hSeeded, hSeededDeleting⟩
      have hApproached : Approached o tokens seeded :=
        { marked := hArmed.trans hSeeded
          deleting := hSeededDeleting.trans hArmedDeleting
          kept := hKept }
      refine .bind prepare_heard ?_
      intro prepared
      cases prepared with
      | none => exact .pure (fun _ _ _ _ hEq => nomatch hEq)
      | some c =>
          refine .pure (fun s h c' w hEq => ?_)
          cases hEq
          exact ⟨o, tokens, hApproached, h⟩

/- The status write is not heard. -/
theorem persistStatus_heard
    {w : Work} :
    Triple (start.Heard o heard) (m.persistStatus w)
      (fun _ => start.Heard o heard)
      (fun _ => start.Heard o heard) :=
  m.persistStatus_triple
    (W := fun _ => start.Heard o heard)
    (fun _ h => h.resume) (fun _ _ h => h) (fun _ h _ => h)
    (fun _ _ =>
      .onStore (fun _ _ _ h _ => h.1.skip rfl rfl _))
    (fun _ _ _ h => h) (fun _ _ h => h)
    (fun _ _ _ _ h => h) (fun _ _ _ h => h)

/- The summing up of a chain is not heard. -/
theorem sumUp_heard
    {e : ChainEnd} :
    Triple (start.Heard o heard) (m.sumUp e)
      (fun _ => start.Heard o heard)
      (fun _ => start.Heard o heard) := by
  have hReadiness :
      ∀ r w,
        Triple (start.Heard o heard) (m.recordReadiness r w)
          (fun _ => start.Heard o heard)
          (fun _ => start.Heard o heard) :=
    fun r w =>
      m.updateConditions_triple (fun _ _ h _ => h)
        (fun _ h _ => h) (fun _ _ h => h)
  cases e with
  | completed w =>
      refine .bind (hReadiness _ w) ?_
      intro w
      split
      · exact .pure (fun _ h => h)
      · exact .map (m.stampSlot_triple
          (fun _ _ h => h) (fun _ h => h)
          (fun _ _ _ h => h) (fun _ _ h => h))
  | retry w step requeue cause => exact hReadiness _ w

/- The close of a run is not heard. -/
theorem close_heard
    {e : ChainEnd}
    {w : Work} :
    Triple (start.Heard o heard) (m.close e w)
      (fun _ => start.Heard o heard)
      (fun _ => start.Heard o heard) := by
  cases e with
  | completed _ =>
      refine .bind persistStatus_heard ?_
      intro r
      cases r with
      | error e => exact .fail (fun _ h => h)
      | ok w =>
          dsimp only
          split
          · refine .bind
              (m.clearRefreshLabel_triple
                (E := fun _ => start.Heard o heard)
                (fun _ h => h.resume) (fun _ _ h => h)
                (fun _ _ h _ => h) ?_
                (fun _ _ _ h => h) (fun _ _ h => h))
              (fun _ => .pure (fun _ h => h))
            intro _ _
            refine .onStore ?_
            intro s r store h _
            cases r with
            | ok _ => exact h.1.skip rfl rfl _
            | error _ => exact h.1.skip rfl rfl _
          · exact .pure (fun _ h => h)
  | retry _ _ _ _ =>
      exact .bind persistStatus_heard
        (fun _ => .fail (fun _ h => h))

/- A reconcile tells nothing about steps after its chain. -/
theorem reconcileRecovered_heard
    {k : Key}
    {mid s : Session μ}
    {context : Context}
    {w : Work}
    {e : ChainEnd}
    (hReached :
      m.approach k start = .ok (.ok (context, w)) mid)
    (hRun :
      m.runChain context (m.order w.deleting) w mid =
        .ok e s)
    (hHeard : start.Heard o heard s)
    (tags : Table String String) :
    start.Heard o heard
      (m.reconcileRecovered tags k start).2 := by
  have hReconcile :
      m.reconcile k start = (m.sumUp e >>= m.close e) s := by
    rw [m.reconcile_eq_approach, bind_of_ok hReached]
    exact bind_of_ok hRun
  have hClosed :
      Triple (start.Heard o heard) (m.sumUp e >>= m.close e)
        (fun _ => start.Heard o heard)
        (fun _ => start.Heard o heard) :=
    .bind sumUp_heard (fun _ => close_heard)
  unfold reconcileRecovered
  rw [hReconcile]
  cases hEnd : (m.sumUp e >>= m.close e) s with
  | ok d s' => exact hClosed.of_ok hHeard hEnd
  | error h s' =>
      have hHalted : start.Heard o heard s' :=
        hClosed.of_error hHeard hEnd
      exact hHalted

/-
  Every reconcile that comes to its chain, and whose chain is
  not cut off, fetches one object and executes the steps in
  declared order if it is live, in reverse order if it is
  being deleted: all of them, or those up to the first whose
  outcome does not let the chain go on.  With steps that
  leave the metadata alone, each executed step of a live
  object is processed; one of a deleting object is finalized
  if it has a token among those that remain after what the
  executed steps before it have released, and is skipped
  otherwise.
-/
theorem reached_executes
    {k : Key}
    {start mid : Session μ}
    {context : Context}
    {w : Work}
    (hReached :
      m.approach k start = .ok (.ok (context, w)) mid)
    (hWhole :
      ∀ h s,
        m.runChain context (m.order w.deleting) w mid =
            .error h s →
          ¬ h.CutsOff)
    (tags : Table String String) :
    ∃ o tokens new xs,
      (m.reconcileRecovered tags k start).2.journal =
          start.journal ++ new ∧
        Journal.fetches new = [.ok o] ∧
        Journal.ofSteps new = xs.flatMap (·.events) ∧
        (o.isDeleting = true →
          tokens = o.metadata.finalizers) ∧
        Execution.Chain m.readOnly (o.withFinalizers tokens)
          (m.order o.isDeleting) xs ∧
        Execution.FirstStop
          (if o.isDeleting then m.steps.reverse else m.steps)
          xs ∧
        ((∀ step ∈ m.steps, step.LeavesMetadata) →
          ∀ before x later,
            xs = before ++ x :: later →
              x.Enters o.isDeleting
                (Tokens.without
                  (before.flatMap (·.released m.readOnly))
                  o.metadata.finalizers)) := by
  rcases approach_heard.of_ok rfl hReached context w rfl with
    ⟨o, tokens, hApproached, hHeard⟩
  cases hRun :
      m.runChain context (m.order w.deleting) w mid with
  | error h s =>
      exact absurd (runChain_executes.of_error hHeard hRun)
        (hWhole h s hRun)
  | ok e s =>
      rcases runChain_executes.of_ok hHeard hRun with
        ⟨xs, hExecuted, hEnd⟩
      have hChain := hExecuted.of_marked hApproached.marked
      rw [hApproached.deleting] at hChain
      rcases reconcileRecovered_heard hReached hRun hEnd
        tags with
        ⟨new, hJournal, hFetches, hSteps⟩
      refine
        ⟨o, tokens, new, xs, hJournal, hFetches, hSteps,
          hApproached.kept, hChain, hChain.firstStop, ?_⟩
      intro hLeaves before x later hSplit
      have hEnters :=
        hChain.enters
          (fun step hStep => hLeaves step (mem_order.mp hStep))
          hSplit
      cases hDeleting : o.isDeleting with
      | true =>
          rw [hApproached.kept hDeleting] at hEnters
          exact hDeleting ▸ hEnters
      | false => exact (hDeleting ▸ hEnters).of_live

/- Steps that behave leave the metadata alone. -/
theorem StepsBehave.leavesMetadata
    (hBehave : m.StepsBehave) :
    ∀ step ∈ m.steps, step.LeavesMetadata :=
  fun _ hStep _ _ hHands => hBehave.hands hStep hHands

/- Whether a reconcile comes to the end of its chain. -/
def endsChain
    (m : Manager μ)
    (k : Key)
    (start : Session μ) : Bool :=
  match m.approach k start with
  | .ok (.ok (c, w)) mid =>
      match m.runChain c (m.order w.deleting) w mid with
      | .ok _ _ => true
      | .error _ _ => false
  | _ => false

theorem whole_of_endsChain
    {k : Key}
    (hEnds : m.endsChain k start = true) :
    ∃ c w mid,
      m.approach k start = .ok (.ok (c, w)) mid ∧
        ∀ h s,
          m.runChain c (m.order w.deleting) w mid =
              .error h s →
            ¬ h.CutsOff := by
  unfold endsChain at hEnds
  split at hEnds
  · next c w mid hReached =>
      refine ⟨c, w, mid, hReached, ?_⟩
      intro h s hHalt
      rw [hHalt] at hEnds
      cases hEnds
  · cases hEnds

theorem sharing_reached_executes :
    ∃ context w mid,
      sharingManager.approach guardKey sharingStart =
          .ok (.ok (context, w)) mid ∧
        (∀ h s,
          sharingManager.runChain context
              (sharingManager.order w.deleting) w mid =
              .error h s →
            ¬ h.CutsOff) ∧
        ∃ o tokens new xs,
          sharingRan.journal = sharingStart.journal ++ new ∧
            Journal.fetches new = [.ok o] ∧
            Journal.ofSteps new = xs.flatMap (·.events) ∧
            (o.isDeleting = true →
              tokens = o.metadata.finalizers) ∧
            Execution.Chain sharingManager.readOnly
              (o.withFinalizers tokens)
              (sharingManager.order o.isDeleting) xs ∧
            Execution.FirstStop
              (if o.isDeleting then
                sharingManager.steps.reverse
              else sharingManager.steps) xs ∧
            ∀ before x later,
              xs = before ++ x :: later →
                x.Enters o.isDeleting
                  (Tokens.without
                    (before.flatMap
                      (·.released sharingManager.readOnly))
                    o.metadata.finalizers) := by
  have hEnds :
      sharingManager.endsChain guardKey sharingStart = true := by
    decide +kernel
  rcases whole_of_endsChain hEnds with
    ⟨context, w, mid, hReached, hWhole⟩
  refine ⟨context, w, mid, hReached, hWhole, ?_⟩
  unfold sharingRan
  rcases reached_executes hReached hWhole [] with
    ⟨o, tokens, new, xs, hJournal, hFetches, hSteps, hKept,
      hChain, hStop, hEnters⟩
  exact ⟨o, tokens, new, xs, hJournal, hFetches, hSteps,
    hKept, hChain, hStop,
    hEnters sharing_stepsBehave.leavesMetadata⟩

end Manager

end Reconciler
