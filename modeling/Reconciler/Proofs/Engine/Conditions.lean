import Mathlib.Data.List.Nodup
import Reconciler.Proofs.Condition.Coherence
import Reconciler.Proofs.Engine.Journal
import Reconciler.Proofs.Engine.Manager
import Reconciler.Proofs.Engine.Parts
import Reconciler.Proofs.Engine.Tokens

/-
  This file follows the conditions of the working copy
  through a run.

  Steps are given the whole object and could change its
  conditions; those that leave them and the metadata alone
  see the engine's conditions accumulate, from the fetched
  ones to the ones that are to be written.

  Key definitions include:
    * `Object.conditions?`
    * `Manager.LeavesConditions`
    * `Manager.Shows`
    * `Manager.ChainShows`

  Key theorems include:
    * `Manager.executeStep_shows`
    * `Manager.runChain_shows`
    * `Manager.draft_coherent`
-/

------------------------------------------------------------
-- Conditions of Objects
------------------------------------------------------------

namespace Reconciler

/- The conditions of an object, if it can hold them. -/
def Object.conditions?
    (o : Object) : Option (List Condition) :=
  if o.has .conditions then
    some o.status.conditions
  else
    none

theorem Object.conditions?_eq_some
    {o : Object}
    {cs : List Condition}
    (hConditions : o.conditions? = some cs) :
    o.has .conditions = true ∧ o.status.conditions = cs := by
  unfold Object.conditions? at hConditions
  split at hConditions
  · next hHas =>
      exact ⟨hHas, Option.some.inj hConditions⟩
  · cases hConditions

/- An object with the metadata and conditions of another. -/
def Object.ShowsLike
    (o o' : Object) : Prop :=
  o.metadata = o'.metadata ∧
    o.conditions? = o'.conditions?

/- The work with other conditions on the working copy. -/
def Work.withConditions
    (cs : List Condition)
    (w : Work) : Work :=
  { w with
    obj := w.obj.mapStatus
      (fun s => { s with conditions := cs }) }

theorem Work.withConditions_conditions?
    {cs cs' : List Condition}
    {w : Work}
    (hConditions : w.obj.conditions? = some cs) :
    (w.withConditions cs').obj.conditions? = some cs' :=
  if_pos (Object.conditions?_eq_some hConditions).1

namespace Manager

variable {μ : Type}

open Engine

/-
  The steps leave the metadata and the conditions of the
  working copy alone.
-/
def LeavesConditions
    (m : Manager μ) : Prop :=
  ∀ step ∈ m.steps, ∀ c o scene result o' scene',
    step.process c o scene = .ok (result, o') scene' ∨
        step.finalize c o scene = .ok (result, o') scene' →
      o'.metadata = o.metadata ∧
        o'.conditions? = o.conditions?

section Updates

variable {m : Manager μ}
variable {P : Session μ → Prop}
variable {cs : List Condition}
variable {w : Work}

theorem updateConditions_kept
    {update :
      Instant → Metadata → List Condition →
        List Condition}
    (hEnabled : m.conditions = true)
    (hConditions : w.obj.conditions? = some cs) :
    Triple P (m.updateConditions update w)
      (fun w' s =>
        (∃ t,
          w' = w.withConditions
            (update t w.obj.metadata cs)) ∧ P s)
      (fun _ _ => True) := by
  rcases Object.conditions?_eq_some hConditions with
    ⟨hHas, hSame⟩
  refine m.updateConditions_triple ?_ ?_
    (fun _ _ _ => trivial)
  · intro t s hPre _
    rw [hSame]
    exact ⟨⟨t, rfl⟩, hPre⟩
  · intro s _ hNotKept
    unfold keepsConditions at hNotKept
    rw [hEnabled, hHas] at hNotKept
    cases hNotKept

theorem seedCondition_kept
    {type : String}
    {seed :
      Instant → Metadata → List Condition →
        List Condition}
    (hEnabled : m.conditions = true)
    (hConditions : w.obj.conditions? = some cs)
    (hSeed :
      ∀ t, (Conditions.find? type cs).isSome = true →
        seed t w.obj.metadata cs = cs) :
    Triple P (m.seedCondition type seed w)
      (fun w' s =>
        (∃ t,
          w' = w.withConditions (seed t w.obj.metadata cs)) ∧
          P s)
      (fun _ _ => True) := by
  have hSame :=
    (Object.conditions?_eq_some hConditions).2
  refine m.seedCondition_triple ?_ ?_
  · intro s hPre hFound
    rw [hSame] at hFound
    refine ⟨⟨w.start, ?_⟩, hPre⟩
    rw [hSeed w.start hFound, ← hSame]
    rfl
  · intro _
    exact updateConditions_kept hEnabled hConditions

end Updates

------------------------------------------------------------
-- Results of a Run
------------------------------------------------------------

/-
  Since the start of a run one object was fetched and just
  these steps were executed.
-/
def ExecutedSince
    (start : Session μ)
    (o : Object)
    (results : List Executed)
    (s : Session μ) : Prop :=
  ∃ new,
    s.journal = start.journal ++ new ∧
      Journal.fetches new = [.ok o] ∧
      Journal.executed new = results

section Results

variable {start s : Session μ}
variable {o : Object}
variable {results : List Executed}

theorem ExecutedSince.moveTo
    {e : Event}
    (hExecuted : ExecutedSince start o results s)
    (hFetch : e.fetch? = none)
    (hResult : e.executed? = none)
    (scene : Scene μ) :
    ExecutedSince start o results (s.moveTo e scene) := by
  rcases hExecuted with
    ⟨new, hJournal, hFetches, hResults⟩
  refine ⟨new ++ [⟨e, scene⟩], by simp [hJournal], ?_, ?_⟩
  · rw [Journal.fetches_append, hFetches]
    simp [Journal.fetches, hFetch]
  · rw [Journal.executed_append, hResults]
    simp [Journal.executed, hResult]

theorem ExecutedSince.resume
    (hExecuted : ExecutedSince start o results s) :
    ExecutedSince start o results s.resume :=
  Session.resume_keeps (fun _ _ => hExecuted)
    (fun _ _ _ h => h.moveTo rfl rfl _)

theorem ExecutedSince.note_executed
    (hExecuted : ExecutedSince start o results s)
    (step : String)
    (result : StepResult) :
    ExecutedSince start o (results ++ [(step, result)])
      (s.note (.executed step result)) := by
  rcases hExecuted with
    ⟨new, hJournal, hFetches, hResults⟩
  refine
    ⟨new ++ [⟨.executed step result, s.scene⟩],
      by simp [hJournal], ?_, ?_⟩
  · rw [Journal.fetches_append, hFetches]
    rfl
  · rw [Journal.executed_append, hResults]
    rfl

/- A call adds nothing to fetches and results. -/
theorem ExecutedSince.call
    {α : Type}
    {x : Call μ α} :
    Triple (ExecutedSince start o results) (Engine.call x)
      (fun _ => ExecutedSince start o results)
      (fun _ _ => True) :=
  .call_ends
    (fun _ _ scene hExecuted =>
      hExecuted.moveTo rfl rfl scene)
    (fun _ _ _ _ => trivial)

/-
  What the working copy shows of the fetched object and of
  the results so far, provided that the fetched conditions
  have distinct types.
-/
structure Shows
    (o : Object)
    (results : List Executed)
    (obj : Object) : Prop where
  phase :
    Phase.ofMetadata obj.metadata =
      Phase.ofMetadata o.metadata
  generation :
    obj.metadata.generation = o.metadata.generation
  progress :
    ∃ cs,
      obj.conditions? = some cs ∧
        ((Conditions.types o.status.conditions).Nodup →
          Conditions.Progress (Phase.ofMetadata o.metadata)
            o.metadata.generation o.status.conditions results
            cs)

/- Tokens and versions do not show in the conditions. -/
theorem Shows.retokened
    {obj : Object}
    (hShows : Shows o results obj)
    (tokens : List String)
    (version : Option String) :
    Shows o results
      ((obj.withFinalizers tokens).withVersion version) where
  phase := hShows.phase
  generation := hShows.generation
  progress := hShows.progress

/-
  A step that is new, and that leaves the seeded conditions
  and the metadata alone, shows once its result is recorded.
-/
theorem Shows.record
    {w : Work}
    (w' : Work)
    {cs : List Condition}
    {step : String}
    {result : StepResult}
    (hShows : Shows o results w.obj)
    (hNew : ∀ r ∈ results, r.1 ≠ step)
    (hBefore : w.obj.conditions? = some cs)
    (hMetadata : w'.obj.metadata = w.obj.metadata)
    {seeded : Instant}
    (hAfter :
      w'.obj.conditions? = some
        (Conditions.seedStep seeded w.obj.metadata step cs))
    (executed : Instant) :
    Shows o (results ++ [(step, result)])
      (w'.withConditions
        (Conditions.applyResult executed w'.obj.metadata step
          result
          (Conditions.seedStep seeded w.obj.metadata step
            cs))).obj := by
  rcases hShows.progress with ⟨cs', hFound, hProgress⟩
  rw [hBefore] at hFound
  cases hFound
  exact
    { phase := hMetadata ▸ hShows.phase
      generation := hMetadata ▸ hShows.generation
      progress :=
        ⟨_, Work.withConditions_conditions? hAfter,
          fun hDistinct =>
            (hProgress hDistinct).step hNew hShows.phase
              (hMetadata ▸ hShows.phase)
              (hMetadata ▸ hShows.generation)⟩ }

/-
  What a run remembers of its results: whether one of them
  asks for a requeue, and whether one of them has failed.
-/
structure Tallies
    (results : List Executed)
    (w : Work) : Prop where
  requeue :
    w.requeue.nanos = 0 ↔
      ∀ r ∈ results, r.2.requeue.nanos = 0
  hasError :
    w.hasError = true ↔
      ∃ r ∈ results, r.2.error?.isSome = true

/- The soonest of two requeues is empty if both are. -/
theorem soonest_eq_zero_iff
    (a b : Duration) :
    (a.soonest b).nanos = 0 ↔ a.nanos = 0 ∧ b.nanos = 0 := by
  unfold Duration.soonest Duration.isZero
  by_cases hB : b.nanos = 0
  · simp [hB]
  · by_cases hA : a.nanos = 0
    · simp [hA, hB]
    · rw [if_neg (by simpa using hB),
        if_neg (by simpa using hA)]
      unfold Duration.shorter
      split
      · simp [hA]
      · simp [hB]

------------------------------------------------------------
-- The Chain
------------------------------------------------------------

variable {m : Manager μ}

/- What an entry point of a step hands back. -/
theorem callStep_same
    {x : Call μ (StepResult × Object)}
    (obj : Object)
    (hSame :
      ∀ scene r scene', x scene = .ok r scene' →
        r.2.ShowsLike obj) :
    Triple (ExecutedSince start o results) (Engine.call x)
      (fun r s =>
        ExecutedSince start o results s ∧
          ∀ a, r = some a → a.2.ShowsLike obj)
      (fun _ _ => True) := by
  refine .call ?_ ?_ (fun _ _ _ _ _ => trivial)
  · intro s a scene hExecuted hRun
    refine ⟨hExecuted.moveTo rfl rfl _, ?_⟩
    intro b hEq
    cases hEq
    exact hSame _ _ _ hRun
  · intro s scene hExecuted _
    exact ⟨hExecuted.moveTo rfl rfl _,
      fun _ hEq => nomatch hEq⟩

/-
  A step is run and leaves the conditions alone, whichever
  way it is run.
-/
theorem runStep_same
    (hSteps : m.LeavesConditions)
    {context : Context}
    {step : Step μ}
    {obj : Object}
    (hStep : step ∈ m.steps) :
    Triple (ExecutedSince start o results)
      (runStep context step obj)
      (fun r s =>
        ExecutedSince start o results s ∧
          ∀ a, r = some a → a.2.1.ShowsLike obj)
      (fun _ _ => True) := by
  have hEnded :
      ∀ (finalized : Bool)
        (r : Option (StepResult × Object)),
        (∀ a, r = some a → a.2.ShowsLike obj) →
        ∀ b, r.map (fun a => (a.1, a.2, finalized)) = some b →
          b.2.1.ShowsLike obj := by
    intro finalized r hSame b hEq
    rcases Option.map_eq_some_iff.mp hEq with
      ⟨a, hSome, hPair⟩
    rw [← hPair]
    exact hSame a hSome
  unfold runStep
  split
  · refine .bind
      (.note (Q := fun _ => ExecutedSince start o results)
        (fun s h => h.moveTo rfl rfl s.scene)) ?_
    intro _
    refine .bind (callStep_same obj ?_) ?_
    · intro scene r scene' hRun
      exact hSteps step hStep context obj scene r.1 r.2 scene'
        (.inl hRun)
    · intro r
      exact .pure (fun s h => ⟨h.1, hEnded false r h.2⟩)
  · split
    · refine .bind
        (.note (Q := fun _ => ExecutedSince start o results)
          (fun s h => h.moveTo rfl rfl s.scene)) ?_
      intro _
      refine .bind (callStep_same obj ?_) ?_
      · intro scene r scene' hRun
        exact hSteps step hStep context obj scene r.1 r.2
          scene' (.inr hRun)
      · intro r
        exact .pure (fun s h => ⟨h.1, hEnded true r h.2⟩)
    · refine .pure (fun s h => ⟨h, ?_⟩)
      intro a hEq
      cases hEq
      exact ⟨rfl, rfl⟩

/-
  The release of tokens shows neither in the conditions nor
  in what the run remembers.
-/
theorem releaseTokens_shows
    {step : Step μ}
    {w : Work}
    (hShows : Shows o results w.obj) :
    Triple (ExecutedSince start o results)
      (m.releaseTokens step w)
      (fun w' s =>
        (Shows o results w'.obj ∧
            w'.requeue = w.requeue ∧
            w'.hasError = w.hasError) ∧
          ExecutedSince start o results s)
      (fun _ _ => True) := by
  refine m.releaseTokens_triple
    (E := fun _ _ => True)
    (fun _ h => h.resume) (fun _ _ _ => trivial)
    (fun _ _ _ _ => trivial) (fun _ _ _ => trivial)
    (fun _ _ h => ⟨⟨hShows, rfl, rfl⟩, h⟩) ?_
  intro _ _
  refine sendTokens_triple ?_ (fun _ _ _ _ _ => trivial)
  intro s stored store hExecuted _
  rcases Tokens.removeAll_cases (step.tokens w.obj) w.obj with
    ⟨fs, hRemoved, _⟩
  refine ⟨⟨?_, rfl, rfl⟩, hExecuted.1.moveTo rfl rfl _⟩
  dsimp only
  rw [hRemoved]
  exact hShows.retokened fs _

/- One step of the chain extends the results by its own. -/
theorem executeStep_shows
    (hEnabled : m.conditions = true)
    (hSteps : m.LeavesConditions)
    {context : Context}
    {step : Step μ}
    {w : Work}
    (hStep : step ∈ m.steps)
    (hNew : ∀ r ∈ results, r.1 ≠ step.name)
    (hShows : Shows o results w.obj) :
    Triple (ExecutedSince start o results)
      (m.executeStep context step w)
      (fun r s =>
        (Shows o (results ++ [(step.name, r.1)]) r.2.obj ∧
            r.2.requeue = w.requeue.soonest r.1.requeue ∧
            r.2.hasError = w.hasError) ∧
          ExecutedSince start o
            (results ++ [(step.name, r.1)]) s)
      (fun _ _ => True) := by
  rcases hShows.progress with ⟨cs, hConditions, _⟩
  unfold executeStep
  dsimp only
  refine .bind
    (seedCondition_kept hEnabled hConditions
      (fun t hFound => Conditions.seed_of_found hFound)) ?_
  intro seeded
  refine .assume (fun hSeeded => ?_)
  rcases hSeeded with ⟨seedTime, hSeeded⟩
  subst hSeeded
  refine .bind
    (Q := fun r s =>
      (r.2.1.metadata = w.obj.metadata ∧
        r.2.1.conditions? = some
          (Conditions.seedStep seedTime w.obj.metadata
            step.name cs)) ∧
        ExecutedSince start o results s) ?_ ?_
  · refine .await (M := ExecutedSince start o results)
      (fun _ h => h.resume) (fun _ _ _ => trivial) ?_
    refine (runStep_same hSteps hStep).mono
      (fun _ h => h.1) ?_ (fun _ _ h => h)
    intro r s hRun
    cases r with
    | none => trivial
    | some r =>
        rcases hRun.2 r rfl with ⟨hMetadata, hKept⟩
        exact
          ⟨⟨hMetadata,
            hKept.trans
              (Work.withConditions_conditions? hConditions)⟩,
            hRun.1⟩
  intro r
  rcases r with ⟨result, obj, finalized⟩
  refine .assume (fun hSame => ?_)
  rcases hSame with ⟨hMetadata, hKept⟩
  refine .bind
    (.note
      (Q := fun _ =>
        ExecutedSince start o (results ++ [(step.name, result)]))
      (fun s h => h.note_executed step.name result)) ?_
  intro _
  refine .bind (updateConditions_kept hEnabled hKept) ?_
  intro recorded
  refine .assume (fun hRecorded => ?_)
  rcases hRecorded with ⟨recordTime, hRecorded⟩
  have hShown :
      Shows o (results ++ [(step.name, result)])
        recorded.obj := by
    rw [hRecorded]
    exact hShows.record { w with obj := obj } hNew
      hConditions hMetadata hKept recordTime
  have hRequeue :
      recorded.requeue = w.requeue.soonest result.requeue := by
    rw [hRecorded]
    rfl
  have hError : recorded.hasError = w.hasError := by
    rw [hRecorded]
    rfl
  refine .bind
    (m.reportStepError_triple _ _ _
      (fun _ _ h => h)) ?_
  intro _
  split
  · refine .bind (releaseTokens_shows hShown) ?_
    intro released
    refine .pure (fun s h => ⟨⟨h.1.1, ?_, ?_⟩, h.2⟩)
    · rw [h.1.2.1, hRequeue]
    · rw [h.1.2.2, hError]
  · exact .pure (fun s h =>
      ⟨⟨hShown, hRequeue, hError⟩, h⟩)

/- The tally of a step that has just been executed. -/
theorem Tallies.snoc
    {w w' : Work}
    {result : StepResult}
    (hTallies : Tallies results w)
    (step : String)
    (hRequeue :
      w'.requeue = w.requeue.soonest result.requeue)
    (hError :
      w'.hasError =
        (w.hasError || result.error?.isSome)) :
    Tallies (results ++ [(step, result)]) w' where
  requeue := by
    rw [hRequeue, soonest_eq_zero_iff, hTallies.requeue]
    simp [or_imp, forall_and]
  hasError := by
    rw [hError, Bool.or_eq_true, hTallies.hasError]
    simp [or_and_right, exists_or]

/-
  What is known of the results at the end of a chain: their
  tally, or that one of them has failed.
-/
def Summed
    (results : List Executed) : ChainEnd → Prop
  | .completed w => Tallies results w
  | .retry _ _ _ _ =>
      ∃ r ∈ results, r.2.error?.isSome = true

/- What a chain has executed shows where it ends. -/
def ChainShows
    (start : Session μ)
    (o : Object)
    (e : ChainEnd)
    (s : Session μ) : Prop :=
  ∃ results,
    ExecutedSince start o results s ∧
      Shows o results e.work.obj ∧ Summed results e

/-
  The whole chain, by induction on its steps; steps that are
  still to come have not been executed yet.
-/
theorem runChain_shows
    (hEnabled : m.conditions = true)
    (hSteps : m.LeavesConditions)
    {context : Context}
    {steps : List (Step μ)}
    {w : Work}
    (hMembers : ∀ step ∈ steps, step ∈ m.steps)
    (hNames : (steps.map (·.name)).Nodup)
    (hNew :
      ∀ step ∈ steps, ∀ r ∈ results, r.1 ≠ step.name)
    (hShows : Shows o results w.obj)
    (hTallies : Tallies results w) :
    Triple (ExecutedSince start o results)
      (m.runChain context steps w)
      (ChainShows start o) (fun _ _ => True) := by
  induction steps generalizing w results with
  | nil =>
      exact .pure (fun s h => ⟨results, h, hShows, hTallies⟩)
  | cons step rest ih =>
      have hNames : step.name ∉ rest.map (·.name) ∧
          (rest.map (·.name)).Nodup :=
        List.nodup_cons.mp hNames
      unfold runChain
      refine .bind
        (executeStep_shows hEnabled hSteps
          (hMembers step (by simp)) (hNew step (by simp))
          hShows) ?_
      intro r
      rcases r with ⟨result, w'⟩
      refine .assume (fun hExecuted => ?_)
      rcases hExecuted with ⟨hShown, hRequeue, hError⟩
      -- The chain goes on with what this step has added.
      have hRest :
          ∀ w'' : Work,
            w''.obj = w'.obj →
            Tallies (results ++ [(step.name, result)]) w'' →
            Triple
              (ExecutedSince start o
                (results ++ [(step.name, result)]))
              (m.runChain context rest w'')
              (ChainShows start o) (fun _ _ => True) := by
        intro w'' hObj hTallied
        refine ih
          (fun step hStep => hMembers step (by simp [hStep]))
          hNames.2 ?_ (hObj ▸ hShown) hTallied
        intro next hNext r hMember
        rcases List.mem_append.mp hMember with hOld | hLast
        · exact hNew next (by simp [hNext]) r hOld
        · rw [List.mem_singleton.mp hLast]
          intro hSame
          exact hNames.1
            (List.mem_map.mpr ⟨next, hNext, hSame.symm⟩)
      have hDone :
          ∀ w'' : Work,
            w''.obj = w'.obj →
            Tallies (results ++ [(step.name, result)]) w'' →
            Triple
              (ExecutedSince start o
                (results ++ [(step.name, result)]))
              (pure (.completed w'') : Engine μ ChainEnd)
              (ChainShows start o) (fun _ _ => True) :=
        fun w'' hObj hTallied =>
          .pure (fun s h => ⟨_, h, hObj ▸ hShown, hTallied⟩)
      cases result with
      | proceed requeue? =>
          exact hRest w' rfl (hTallies.snoc _ hRequeue
            (by rw [hError]; exact (Bool.or_false _).symm))
      | skipped reason =>
          exact hRest w' rfl (hTallies.snoc _ hRequeue
            (by rw [hError]; exact (Bool.or_false _).symm))
      | errorContinue e =>
          exact hRest { w' with hasError := true } rfl
            (hTallies.snoc _ hRequeue (Bool.or_true _).symm)
      | stopChain reason requeue? =>
          exact hDone w' rfl (hTallies.snoc _ hRequeue
            (by rw [hError]; exact (Bool.or_false _).symm))
      | errorStop e reason =>
          exact hDone { w' with hasError := true } rfl
            (hTallies.snoc _ hRequeue (Bool.or_true _).symm)
      | errorRetry e requeue? =>
          exact .pure (fun s h =>
            ⟨_, h, hShown,
              ⟨(step.name, .errorRetry e requeue?),
                by simp, rfl⟩⟩)

------------------------------------------------------------
-- The Draft
------------------------------------------------------------

/- A run is ready if and only if all its results are done. -/
theorem Tallies.ready_iff
    {w : Work}
    (hTallies : Tallies results w) :
    Readiness.ofRun w.requeue w.hasError = .ready ↔
      ∀ r ∈ results, r.2.IsDone := by
  have hSplit :
      Readiness.ofRun w.requeue w.hasError = .ready ↔
        w.requeue.nanos = 0 ∧ ¬ w.hasError = true := by
    unfold Readiness.ofRun Duration.isZero
    by_cases hZero : w.requeue.nanos = 0
    · cases hFailed : w.hasError with
      | true => simp [hZero]
      | false => simp [hZero]
    · simp [hZero]
  rw [hSplit, hTallies.requeue, hTallies.hasError]
  constructor
  · intro hDone r hMember
    refine ⟨?_, hDone.1 r hMember⟩
    cases hError : r.2.error? with
    | none => rfl
    | some e =>
        exact absurd ⟨r, hMember, by simp [hError]⟩ hDone.2
  · intro hDone
    refine ⟨fun r hMember => (hDone r hMember).2, ?_⟩
    intro hFailed
    rcases hFailed with ⟨r, hMember, hError⟩
    rw [(hDone r hMember).1] at hError
    cases hError

/-
  The conditions that the engine holds for writing cohere
  with the fetched ones and the results.
-/
def Cohere
    (o : Object)
    (results : List Executed)
    (obj : Object) : Prop :=
  (Conditions.types o.status.conditions).Nodup →
    Conditions.Coherent (Phase.ofMetadata o.metadata)
      o.metadata.generation o.status.conditions results
      obj.status.conditions

/- The readiness is recorded last. -/
theorem recordReadiness_cohere
    (hEnabled : m.conditions = true)
    {w : Work}
    {readiness : Readiness}
    (hShows : Shows o results w.obj)
    (hReadiness :
      readiness = .ready ↔ ∀ r ∈ results, r.2.IsDone) :
    Triple (ExecutedSince start o results)
      (m.recordReadiness readiness w)
      (fun w' s =>
        ExecutedSince start o results s ∧
          Cohere o results w'.obj)
      (fun _ _ => True) := by
  rcases hShows.progress with
    ⟨cs, hConditions, hProgress⟩
  refine (updateConditions_kept hEnabled hConditions).mono
    (fun _ h => h) ?_ (fun _ _ h => h)
  intro w' s hUpdated
  rcases hUpdated with ⟨⟨t, hSame⟩, hExecuted⟩
  refine ⟨hExecuted, fun hDistinct => ?_⟩
  rw [hSame]
  exact (hProgress hDistinct).coherent hDistinct hReadiness
    hShows.generation t

/- Summing up the chain keeps the conditions coherent. -/
theorem sumUp_cohere
    (hEnabled : m.conditions = true)
    {e : ChainEnd}
    (hShows : Shows o results e.work.obj)
    (hSummed : Summed results e) :
    Triple (ExecutedSince start o results) (m.sumUp e)
      (fun w' s =>
        ExecutedSince start o results s ∧
          Cohere o results w'.obj)
      (fun _ _ => True) := by
  cases e with
  | completed w =>
      have hTallies : Tallies results w := hSummed
      refine .bind
        (recordReadiness_cohere hEnabled hShows
          hTallies.ready_iff) ?_
      intro w'
      split
      · exact .pure (fun s h => h)
      · refine .map ?_
        have hTimed :
            ∀ w : Work,
              Cohere o results w.obj →
                Cohere o results (m.stampTime w).obj := by
          intro w hCohere
          unfold stampTime
          split
          · exact hCohere
          · exact hCohere
        exact m.stampSlot_triple
          (fun _ _ h => h)
          (fun _ h => ⟨h.1, hTimed _ h.2⟩)
          (fun _ _ _ h => ⟨h.1, hTimed _ h.2⟩)
          (fun _ _ _ => trivial)
  | retry w step requeue cause =>
      refine recordReadiness_cohere hEnabled hShows ?_
      rcases hSummed with ⟨r, hMember, hError⟩
      constructor
      · intro hReady
        cases hReady
      · intro hDone
        rw [(hDone r hMember).1] at hError
        cases hError

/- The hook adds nothing to fetches and results. -/
theorem prepare_executedSince
    {context : Context}
    {w : Work} :
    Triple (ExecutedSince start o results)
      (m.prepare context w)
      (fun _ => ExecutedSince start o results)
      (fun _ _ => True) :=
  m.prepare_triple (fun _ h => h.resume)
    (fun _ _ _ => trivial) (fun _ _ h => h)
    (fun s h => h.moveTo rfl rfl s.scene)
    (fun _ _ => ExecutedSince.call)

/- What holds of the draft of a run. -/
def Drafted
    (start : Session μ)
    (d : Draft)
    (s : Session μ) : Prop :=
  match d with
  | .early _ => True
  | .closing _ w =>
      ∃ o results,
        ExecutedSince start o results s ∧
          Cohere o results w.obj

/- The hook and the steps draft coherent conditions. -/
theorem draftSteps_drafted
    (hEnabled : m.conditions = true)
    (hSteps : m.LeavesConditions)
    (hNames : m.stepNames.Nodup)
    {context : Context}
    {w : Work}
    (hFetched :
      w.obj.conditions? = some o.status.conditions)
    (hPhase :
      Phase.ofMetadata w.obj.metadata =
        Phase.ofMetadata o.metadata)
    (hGeneration :
      w.obj.metadata.generation = o.metadata.generation)
    (hRequeue : w.requeue = .zero)
    (hError : w.hasError = false) :
    Triple (ExecutedSince start o [])
      (m.draftSteps context w) (Drafted start)
      (fun _ _ => True) := by
  unfold draftSteps
  refine .bind
    (seedCondition_kept hEnabled hFetched
      (fun t hFound => Conditions.seed_of_found hFound)) ?_
  intro seeded
  refine .assume (fun hSeeded => ?_)
  rcases hSeeded with ⟨t, hSeeded⟩
  have hShows : Shows o [] seeded.obj := by
    rw [hSeeded]
    exact
      { phase := hPhase
        generation := hGeneration
        progress :=
          ⟨_, Work.withConditions_conditions? hFetched,
            fun hDistinct =>
              Conditions.Progress.start hDistinct _ _ _ _⟩ }
  have hTallies : Tallies [] seeded := by
    rw [hSeeded]
    constructor
    · change w.requeue.nanos = 0 ↔ _
      rw [hRequeue]
      simp [Duration.zero]
    · change w.hasError = true ↔ _
      rw [hError]
      simp
  refine .bind prepare_executedSince ?_
  intro prepared
  cases prepared with
  | none => exact .pure (fun _ _ => trivial)
  | some context =>
      refine .bind
        (runChain_shows hEnabled hSteps ?_ ?_ (by simp)
          hShows hTallies) ?_
      · exact fun step hStep => mem_order.mp hStep
      · unfold order
        split
        · rw [List.map_reverse]
          exact List.nodup_reverse.mpr hNames
        · exact hNames
      · intro e
        refine .bind
          (Q := fun w' s =>
            ∃ results,
              ExecutedSince start o results s ∧
                Cohere o results w'.obj) ?_ ?_
        · intro s hEnd
          rcases hEnd with
            ⟨results, hExecuted, hShown, hSummed⟩
          exact ((sumUp_cohere hEnabled hShown hSummed).mono
            (fun _ h => h) (fun _ _ h => ⟨results, h⟩)
            (fun _ _ h => h)) s hExecuted
        · intro w'
          exact .pure (fun _ h => ⟨o, h⟩)

/- Tokens are put on without a trace in the conditions. -/
theorem ensureTokens_kept
    {w : Work} :
    Triple (ExecutedSince start o results)
      (m.ensureTokens w)
      (fun w' s =>
        (∃ tokens version,
          (w'.obj = w.obj ∨
            w'.obj =
              (w.obj.withFinalizers tokens).withVersion
                version) ∧
            w'.requeue = w.requeue ∧
            w'.hasError = w.hasError) ∧
          ExecutedSince start o results s)
      (fun _ _ => True) := by
  refine m.ensureTokens_triple
    (E := fun _ => True)
    (fun _ h => h.resume) (fun _ _ _ => trivial)
    (fun _ _ _ => trivial) (fun _ _ _ => trivial)
    (fun _ h _ => ⟨⟨[], none, .inl rfl, rfl, rfl⟩, h⟩) ?_
  intro _ _ _
  refine sendTokens_triple ?_ (fun _ _ _ _ _ => trivial)
  intro s stored store hExecuted _
  rcases Tokens.addAll_cases
    (Tokens.missing m.steps w.obj) w.obj with
    ⟨fs, hAdded, _⟩
  refine
    ⟨⟨fs, stored.metadata.resourceVersion, .inr ?_, rfl,
        rfl⟩,
      hExecuted.1.moveTo rfl rfl _⟩
  dsimp only
  rw [hAdded]

/- The draft of a run that keeps conditions. -/
theorem draft_drafted
    (hEnabled : m.conditions = true)
    (hSteps : m.LeavesConditions)
    (hNames : m.stepNames.Nodup)
    {k : Key} :
    Triple (fun s => s = start) (m.draft k)
      (Drafted start) (fun _ _ => True) := by
  refine m.draft_triple
    (F := fun o => ExecutedSince start o [])
    (E := fun _ => True) ?_
    (fun _ _ _ => trivial) (fun _ _ _ h => h)
    (fun _ _ _ => trivial) (fun _ _ _ => trivial)
    (fun _ _ _ => trivial) ?_
  · refine .await (M := Journal.IdleSince start) ?_
      (fun _ _ _ => trivial) (.map (.onStore ?_))
    · intro s hStart
      rw [hStart]
      exact .resume start
    · intro s r store hIdle _
      cases r with
      | error e => trivial
      | ok fetched =>
          rcases hIdle.1 with
            ⟨new, hJournal, hNew⟩
          refine ⟨new ++ [⟨.fetched k (.ok fetched), _⟩],
            by rw [Session.moveTo_journal, hJournal,
              List.append_assoc], ?_, ?_⟩
          · rw [Journal.fetches_append,
              Journal.fetches_idle hNew]
            rfl
          · rw [Journal.executed_append,
              Journal.executed_idle hNew]
            rfl
  · intro fetched now hCapable
    have hConditions :
        fetched.conditions? =
          some fetched.status.conditions := by
      refine if_pos ?_
      cases hHas : fetched.has .conditions with
      | true => rfl
      | false =>
          unfold missingCapability? at hCapable
          rw [hEnabled, hHas] at hCapable
          cases hCapable
    refine .bind ensureTokens_kept ?_
    intro w
    refine .assume (fun hKept => ?_)
    rcases hKept with
      ⟨tokens, version, hObj, hRequeue, hError⟩
    have hSame :
        w.obj.conditions? = some fetched.status.conditions ∧
          Phase.ofMetadata w.obj.metadata =
            Phase.ofMetadata fetched.metadata ∧
          w.obj.metadata.generation =
            fetched.metadata.generation := by
      rcases hObj with hObj | hObj
      · rw [hObj]
        exact ⟨hConditions, rfl, rfl⟩
      · rw [hObj]
        exact ⟨hConditions, rfl, rfl⟩
    exact draftSteps_drafted hEnabled hSteps hNames hSame.1
      hSame.2.1 hSame.2.2 hRequeue hError

end Results

/-
  Every run of a manager that keeps conditions and comes to
  the end of its chain, or to a step that asks for a retry,
  has fetched one object; if the conditions of the object
  have distinct types, then the ones that the engine holds
  for writing cohere with them and with the results of the
  steps.
-/
theorem draft_coherent
    {b : Blueprint μ}
    {m : Manager μ}
    (hBuild : b.build = .ok m)
    (hEnabled : m.conditions = true)
    (hSteps : m.LeavesConditions)
    {k : Key}
    {start s : Session μ}
    {e : ChainEnd}
    {w : Work}
    (hDraft : m.draft k start = .ok (.closing e w) s) :
    ∃ o new,
      s.journal = start.journal ++ new ∧
        Journal.fetches new = [.ok o] ∧
        ((Conditions.types o.status.conditions).Nodup →
          Conditions.Coherent (Phase.ofMetadata o.metadata)
            o.metadata.generation o.status.conditions
            (Journal.executed new) w.obj.status.conditions) := by
  have hDrafted : Drafted start (.closing e w) s :=
    (draft_drafted hEnabled hSteps
      (Blueprint.build_stepNames_nodup hBuild)).of_ok
        rfl hDraft
  rcases hDrafted with
    ⟨o, results, ⟨new, hJournal, hFetches, hExecuted⟩,
      hCohere⟩
  refine ⟨o, new, hJournal, hFetches, ?_⟩
  rw [hExecuted]
  exact hCohere

/- A manager that keeps conditions and runs one step. -/
def keeperBlueprint : Blueprint Unit where
  operator := "operator"
  controller := "controller"
  kind := "TestObject"
  conditions := true
  steps :=
    [{ name := "step"
       process := fun _ o =>
         return (.proceed (some (.ofSeconds 5)), o) }]

/- A host with one object, which has a stale condition. -/
def keeperSession : Session Unit where
  scene :=
    { store := Store.insert
        { kind := .full
          metadata := .fresh "default" "object"
          status :=
            { conditions :=
                [⟨"Other", .unknown, "", "", .epoch, 0⟩] } }
        {}
      clock := ⟨0⟩
      memory := () }

theorem keeper_draft_coherent :
    ∃ m e w s,
      keeperBlueprint.build = .ok m ∧
        m.conditions = true ∧
        m.LeavesConditions ∧
        m.draft (.namespaced "default" "object")
            keeperSession =
          .ok (.closing e w) s ∧
        ∃ o new,
          s.journal = keeperSession.journal ++ new ∧
            Journal.fetches new = [.ok o] ∧
            ((Conditions.types o.status.conditions).Nodup →
              Conditions.Coherent
                (Phase.ofMetadata o.metadata)
                o.metadata.generation o.status.conditions
                (Journal.executed new)
                w.obj.status.conditions) := by
  have hSteps :
      ∀ m : Manager Unit,
        keeperBlueprint.build = .ok m →
          m.LeavesConditions := by
    intro m hBuild step hStep c o scene result o' scene' hRun
    cases hBuild
    rw [List.mem_singleton.mp hStep] at hRun
    rcases hRun with hRun | hRun
    · cases hRun
      exact ⟨rfl, rfl⟩
    · cases hRun
      exact ⟨rfl, rfl⟩
  refine
    ⟨_, _, _, _, rfl, rfl, hSteps _ rfl, rfl, ?_⟩
  exact draft_coherent (b := keeperBlueprint)
    (k := .namespaced "default" "object") rfl rfl
    (hSteps _ rfl) rfl

end Manager

end Reconciler
