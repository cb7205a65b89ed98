import Mathlib.Data.List.Induction
import Reconciler.Proofs.Engine.Mirror

/-
  This file proves that a step that has been finalized is
  released at once.

  The events of a run are read by a machine with a few
  stages, which says how far the finalization of a step has
  come.  In a run of a manager that writes, the event after
  a settled result is a patch, but for other tasks; only a
  run that is interrupted ends before.

  Key definitions include:
    * `Stage`
    * `Journal.stage`
    * `Journal.Releases`
    * `Manager.Reached`
    * `Manager.Prompt`

  Key theorems include:
    * `Journal.released_of_finalized`
    * `Journal.releases_of_stage`
    * `Manager.reconcile_prompt`
    * `Manager.recovered_releases`
-/

------------------------------------------------------------
-- Stages
------------------------------------------------------------

namespace Reconciler

variable {μ : Type}

/-
  How far the finalization of a step has come.  It is
  overdue if something else has happened since it settled.
-/
inductive Stage where
  | free
  | called (step : String)
  | returned (step : String)
  | settled (step : String)
  | overdue

/- The stage after an event. -/
def Stage.next : Stage → Event → Stage
  | .overdue, _ => .overdue
  | .settled step, .resumed => .settled step
  | .settled _, .patched _ _ _ => .free
  | .settled _, _ => .overdue
  | .called step, .returned => .returned step
  | .returned step, .executed name result =>
      if name = step ∧ result.isSettled = true then
        .settled step
      else
        .free
  | _, .finalizeCalled step => .called step
  | _, _ => .free

/- A halt interrupts a run: a cancellation or a panic. -/
def Halt.Interrupts : Halt → Prop
  | .failed .cancelled => True
  | .failed _ => False
  | .panicked _ => True

/-
  A run may end at a stage with nothing overdue.  A step that
  has settled waits for its release, so that only a run that
  is interrupted ends there.
-/
def Stage.MayEnd
    (ends : Option Halt) : Stage → Prop
  | .overdue => False
  | .settled _ => ∃ h, ends = some h ∧ h.Interrupts
  | _ => True

theorem Stage.MayEnd.ne_overdue
    {ends : Option Halt}
    {stage : Stage}
    (hEnds : stage.MayEnd ends) :
    stage ≠ .overdue := by
  intro hOverdue
  rw [hOverdue] at hEnds
  exact hEnds

namespace Journal

/- The stage after some events. -/
def stage
    (events : List Event) : Stage :=
  events.foldl Stage.next .free

@[simp]
theorem stage_snoc
    (events : List Event)
    (e : Event) :
    stage (events ++ [e]) = (stage events).next e := by
  unfold stage
  rw [List.foldl_concat]

end Journal

namespace Stage

/- What is overdue stays so. -/
theorem next_ne_overdue
    {stage : Stage}
    {e : Event}
    (hNext : stage.next e ≠ .overdue) :
    stage ≠ .overdue := by
  intro hOverdue
  apply hNext
  rw [hOverdue]
  cases e <;> rfl

/- A call of a finalization starts anew. -/
theorem next_finalizeCalled
    {stage : Stage}
    {step : String}
    (hNext :
      stage.next (.finalizeCalled step) ≠ .overdue) :
    stage.next (.finalizeCalled step) = .called step := by
  cases stage with
  | overdue => exact absurd rfl hNext
  | settled _ => exact absurd rfl hNext
  | free => rfl
  | called _ => rfl
  | returned _ => rfl

/- After a settled result comes a patch, if at all. -/
theorem next_settled
    {step : String}
    {e : Event}
    (hNext : (Stage.settled step).next e ≠ .overdue) :
    e = .resumed ∨ e.isPatch = true := by
  cases e with
  | resumed => exact .inl rfl
  | patched _ _ _ => exact .inr rfl
  | _ => exact absurd rfl hNext

end Stage

namespace Journal

/- Nothing was overdue before what is not overdue. -/
theorem stage_earlier
    {before after : List Event}
    (hStage : stage (before ++ after) ≠ .overdue) :
    stage before ≠ .overdue := by
  induction after using List.reverseRecOn with
  | nil =>
      rw [List.append_nil] at hStage
      exact hStage
  | append_singleton after e ih =>
      apply ih
      rw [← List.append_assoc, stage_snoc] at hStage
      exact Stage.next_ne_overdue hStage

/- The stage of a step that has just settled. -/
theorem JustSettled.stage
    {step : String}
    {events : List Event}
    (hSettled : JustSettled step events)
    (hStage : Journal.stage events ≠ .overdue) :
    Journal.stage events = .settled step := by
  rcases hSettled with
    ⟨before, after, result, hEvents, hResult, hAfter⟩
  have hDone :
      Journal.stage
          (before ++
            [.finalizeCalled step, .returned,
              .executed step result]) =
        .settled step := by
    rw [hEvents] at hStage
    have hNow := stage_earlier hStage
    have hList :
        before ++
            [.finalizeCalled step, .returned,
              .executed step result] =
          ((before ++ [.finalizeCalled step]) ++
            [.returned]) ++ [.executed step result] := by
      simp
    rw [hList, stage_snoc, stage_snoc] at hNow ⊢
    have hCalled :=
      Stage.next_ne_overdue (Stage.next_ne_overdue hNow)
    rw [stage_snoc] at hCalled ⊢
    rw [Stage.next_finalizeCalled hCalled]
    exact if_pos ⟨rfl, hResult⟩
  rw [hEvents]
  clear hEvents hStage
  induction after using List.reverseRecOn with
  | nil =>
      rw [List.append_nil]
      exact hDone
  | append_singleton after e ih =>
      rw [← List.append_assoc, stage_snoc,
        ih (fun e hMember =>
          hAfter e (List.mem_append_left _ hMember)),
        hAfter e (by simp)]
      rfl

/- A patch has released a step that had just settled. -/
def Released
    (step : String)
    (events : List Event) : Prop :=
  ∃ before e after,
    events = before ++ e :: after ∧
      e.isPatch = true ∧ stage before = .settled step

/- What has been released stays so. -/
theorem Released.snoc
    {step : String}
    {events : List Event}
    (hReleased : Released step events)
    (e : Event) :
    Released step (events ++ [e]) := by
  rcases hReleased with
    ⟨before, patch, after, hEvents, hPatch⟩
  refine ⟨before, patch, after ++ [e], ?_, hPatch⟩
  rw [hEvents, List.append_assoc]
  rfl

/- A new finalization has just settled. -/
theorem Finalized.of_snoc
    {step : String}
    {events : List Event}
    {e : Event}
    (hFinalized : Finalized step (events ++ [e])) :
    Finalized step events ∨
      JustSettled step (events ++ [e]) := by
  rcases hFinalized with
    ⟨before, after, result, hEvents, hResult⟩
  induction after using List.reverseRecOn with
  | nil =>
      right
      exact ⟨before, [], result, hEvents, hResult, by simp⟩
  | append_singleton after last _ =>
      left
      rw [← List.append_assoc] at hEvents
      rcases List.append_inj' hEvents rfl with ⟨hSame, _⟩
      exact ⟨before, after, result, hSame, hResult⟩

/-
  As long as nothing is overdue, a step that was finalized
  has been released or has just settled.
-/
theorem released_of_finalized
    {step : String}
    {events : List Event}
    (hFinalized : Finalized step events)
    (hStage : stage events ≠ .overdue) :
    stage events = .settled step ∨
      Released step events := by
  induction events using List.reverseRecOn with
  | nil =>
      rcases hFinalized with ⟨before, after, _, hEvents, _⟩
      simp at hEvents
  | append_singleton events e ih =>
      rcases hFinalized.of_snoc with hOld | hNew
      · rw [stage_snoc] at hStage
        rcases ih hOld (Stage.next_ne_overdue hStage) with
          hSettled | hReleased
        · rw [hSettled] at hStage
          rcases Stage.next_settled hStage with
            hIdle | hPatch
          · left
            rw [stage_snoc, hSettled, hIdle]
            rfl
          · right
            exact ⟨events, e, [], rfl, hPatch, hSettled⟩
        · right
          exact hReleased.snoc e
      · left
        exact hNew.stage hStage

/-
  Once a step has settled, the next event is a patch, but for
  those of other tasks; or else nothing follows, because the
  run was interrupted.
-/
def Releases
    (interrupted : Prop)
    (j : List (Moment μ)) : Prop :=
  ∀ step before after,
    j = before ++ after →
      JustSettled step (events before) →
        match after with
        | [] => interrupted
        | mo :: _ =>
            mo.event = .resumed ∨ mo.event.isPatch = true

theorem Releases.mono
    {interrupted interrupted' : Prop}
    {j : List (Moment μ)}
    (hReleases : Releases interrupted j)
    (hImplies : interrupted → interrupted') :
    Releases interrupted' j := by
  intro step before after hSplit hSettled
  have hNext := hReleases step before after hSplit hSettled
  cases after with
  | nil => exact hImplies hNext
  | cons mo rest => exact hNext

/- So it is in a run that may end at the stage it reaches. -/
theorem releases_of_stage
    {ends : Option Halt}
    {j : List (Moment μ)}
    (hEnds : (stage (events j)).MayEnd ends) :
    Releases (∃ h, ends = some h ∧ h.Interrupts) j := by
  intro step before after hSplit hSettled
  have hStage := hEnds.ne_overdue
  rw [hSplit, events_append] at hStage
  have hNow := hSettled.stage (stage_earlier hStage)
  cases after with
  | nil =>
      rw [hSplit, List.append_nil, hNow] at hEnds
      exact hEnds
  | cons mo rest =>
      have hList :
          events before ++ events (mo :: rest) =
            (events before ++ [mo.event]) ++ events rest := by
        simp [events]
      rw [hList] at hStage
      have hNext := stage_earlier hStage
      rw [stage_snoc, hNow] at hNext
      exact Stage.next_settled hNext

end Journal

------------------------------------------------------------
-- Stages of a Run
------------------------------------------------------------

namespace Manager

open Engine

/- What a run has added to the journal is at a stage. -/
def Reached
    (start : Session μ)
    (stage : Stage)
    (s : Session μ) : Prop :=
  ∃ new,
    s.journal = start.journal ++ new ∧
      Journal.stage (Journal.events new) = stage

/- A run that ends so may end at the stage it has reached. -/
def Prompt
    (start : Session μ)
    (ends : Option Halt)
    (s : Session μ) : Prop :=
  ∃ stage, stage.MayEnd ends ∧ Reached start stage s

/- Such a run releases the steps that have settled. -/
theorem Prompt.releases
    {start s : Session μ}
    {ends : Option Halt}
    {new : List (Moment μ)}
    (hPrompt : Prompt start ends s)
    (hNew : s.journal = start.journal ++ new) :
    Journal.Releases (∃ h, ends = some h ∧ h.Interrupts)
      new := by
  rcases hPrompt with ⟨stage, hEnds, new', hSame, hStage⟩
  rw [hNew] at hSame
  rw [← List.append_cancel_left hSame] at hStage
  rw [← hStage] at hEnds
  exact Journal.releases_of_stage hEnds

namespace Reached

variable {start s : Session μ}
variable {stage : Stage}

theorem prompt
    {ends : Option Halt}
    (hReached : Reached start stage s)
    (hEnds : stage.MayEnd ends) :
    Prompt start ends s :=
  ⟨stage, hEnds, hReached⟩

/- Every moment takes the machine further. -/
theorem moveTo
    (hReached : Reached start stage s)
    (e : Event)
    (scene : Scene μ) :
    Reached start (stage.next e) (s.moveTo e scene) := by
  rcases hReached with ⟨new, hNew, hStage⟩
  refine ⟨new ++ [⟨e, scene⟩], ?_, ?_⟩
  · rw [Session.moveTo_journal, hNew, List.append_assoc]
  · rw [Journal.events_append, ← hStage]
    exact Journal.stage_snoc _ e

/- Other tasks do not take the machine anywhere. -/
theorem resume
    (hReached : Reached start stage s)
    (hIdle : stage.next .resumed = stage) :
    Reached start stage s.resume := by
  refine Session.resume_keeps (fun _ _ => hReached) ?_
  intro change _ s' h
  have hMoved := h.moveTo .resumed (change s'.scene)
  rw [hIdle] at hMoved
  exact hMoved

end Reached

section Prompt

variable {m : Manager μ}
variable {start : Session μ}
variable {w : Work}

/- A call takes the machine to where its end takes it. -/
theorem Reached.call
    {α : Type}
    {x : Call μ α}
    {stage : Stage}
    (hEnds :
      ∀ ends, (stage.next .returned).MayEnd ends) :
    Triple (Reached start stage) (Engine.call x)
      (fun _ => Reached start (stage.next .returned))
      (fun h => Prompt start (some h)) :=
  .call_ends
    (fun _ _ _ h => h.moveTo .returned _)
    (fun _ _ _ h => (h.moveTo .returned _).prompt (hEnds _))

/- Conditions do not matter, and the metadata are kept. -/
theorem Reached.updateConditions
    {update :
      Instant → Metadata → List Condition →
        List Condition}
    (stage : Stage)
    (hEnds : ∀ p, stage.MayEnd (some (.panicked p))) :
    Triple (Reached start stage)
      (m.updateConditions update w)
      (fun w' s =>
        w'.obj.metadata = w.obj.metadata ∧
          Reached start stage s)
      (fun h => Prompt start (some h)) :=
  m.updateConditions_triple
    (fun _ _ h _ => ⟨rfl, h⟩)
    (fun _ h _ => ⟨rfl, h⟩)
    (fun p _ h => h.prompt (hEnds p))

/-
  A step is run.  A call of its finalization has just come
  to its end, and it still owns the object; else the machine
  has not left its first stage.
-/
theorem Reached.runStep
    {context : Context}
    {step : Step μ}
    (hConstant :
      ∀ step ∈ m.steps, ∀ o o',
        step.tokens o = step.tokens o')
    (hBehave : m.StepsBehave)
    (hStep : step ∈ m.steps) :
    Triple (Reached start .free)
      (Manager.runStep context step w.obj)
      (fun ran s =>
        match ran with
        | some (_, o, true) =>
            step.owns o = true ∧
              Reached start (.returned step.name) s
        | some (_, _, false) => Reached start .free s
        | none =>
            Prompt start (some (.failed .cancelled)) s)
      (fun h => Prompt start (some h)) := by
  unfold Manager.runStep
  split
  · refine .bind
      (.note (Q := fun _ => Reached start .free)
        (fun s h => h.moveTo _ s.scene)) ?_
    intro _
    refine .bind (Reached.call (fun _ => trivial)) ?_
    intro ended
    refine .pure ?_
    intro s h
    cases ended with
    | none => exact h.prompt trivial
    | some _ => exact h
  · split
    · next hOwns =>
        refine .bind
          (.note
            (Q := fun _ => Reached start (.called step.name))
            (fun s h => h.moveTo _ s.scene)) ?_
        intro _
        refine .bind
          (Q := fun ended s =>
            (∀ result o, ended = some (result, o) →
              step.owns o = true) ∧
              Reached start (.returned step.name) s) ?_ ?_
        · refine .call ?_ ?_ ?_
          · intro s ran scene h hRun
            refine ⟨?_, h.moveTo .returned scene⟩
            intro result o hSame
            rw [Option.some.inj hSame] at hRun
            have hMetadata :=
              hBehave.keeps step hStep context w.obj s.scene
                result o scene (.inr hRun)
            unfold Step.owns at hOwns ⊢
            rw [hMetadata, hConstant step hStep o w.obj]
            exact hOwns
          · intro s scene h _
            refine ⟨?_, h.moveTo .returned scene.cancel⟩
            intro _ _ hNone
            cases hNone
          · intro s _ scene h _
            exact (h.moveTo .returned scene).prompt trivial
        · intro ended
          refine .pure ?_
          intro s h
          cases ended with
          | none => exact h.2.prompt trivial
          | some ran => exact ⟨h.1 _ _ rfl, h.2⟩
    · exact .pure (fun _ h => h)

/- The tokens of a settled step come off by a patch. -/
theorem Reached.releaseTokens
    {step : Step μ}
    (hWritable : m.readOnly = false)
    (hOwns : step.owns w.obj = true) :
    Triple (Reached start (.settled step.name))
      (m.releaseTokens step w)
      (fun _ => Reached start .free)
      (fun h => Prompt start (some h)) := by
  refine m.releaseTokens_triple
    (E := fun _ => Reached start .free)
    (fun _ h => h.resume rfl)
    (fun _ h _ => h.prompt ⟨_, rfl, trivial⟩)
    (fun _ _ _ h => h)
    (fun _ _ h => h.prompt trivial) ?_ ?_
  · intro hNothing
    rcases hNothing with hReadOnly | hUnowned
    · rw [hWritable] at hReadOnly
      cases hReadOnly
    · rw [hOwns] at hUnowned
      cases hUnowned
  · intro _ _
    apply sendTokens_triple
    · intro s stored store h _
      exact h.1.moveTo _ _
    · intro s e store h _
      exact h.1.moveTo _ _

/- One step of the chain: if it settles it is released. -/
theorem Reached.executeStep
    {context : Context}
    {step : Step μ}
    (hWritable : m.readOnly = false)
    (hConstant :
      ∀ step ∈ m.steps, ∀ o o',
        step.tokens o = step.tokens o')
    (hBehave : m.StepsBehave)
    (hStep : step ∈ m.steps) :
    Triple (Reached start .free)
      (m.executeStep context step w)
      (fun _ => Reached start .free)
      (fun h => Prompt start (some h)) := by
  unfold Manager.executeStep
  dsimp only
  refine .bind (Q := fun _ => Reached start .free)
    (m.seedCondition_triple (fun _ h _ => h)
      (fun _ =>
        (Reached.updateConditions .free
          (fun _ => trivial)).mono
            (fun _ h => h) (fun _ _ h => h.2)
            (fun _ _ h => h))) ?_
  intro w
  refine .bind
    (Q := fun ran s =>
      match ran with
      | (_, o, true) =>
          step.owns o = true ∧
            Reached start (.returned step.name) s
      | (_, _, false) => Reached start .free s) ?_ ?_
  · refine .await (M := Reached start .free)
      (fun _ h => h.resume rfl)
      (fun _ h _ => h.prompt trivial) ?_
    refine (Reached.runStep hConstant hBehave hStep).mono
      (fun _ h => h.1) ?_ (fun _ _ h => h)
    intro ran s h
    rcases ran with _ | ⟨result, o, finalized⟩
    · exact h
    · cases finalized <;> exact h
  intro ran
  rcases ran with ⟨result, o, finalized⟩
  -- The stage that the result takes the machine to.
  let stage : Stage :=
    if finalized && result.isSettled then
      .settled step.name
    else
      .free
  have hEnds :
      ∀ p, stage.MayEnd (some (.panicked p)) := by
    intro p
    unfold stage
    split
    · exact ⟨_, rfl, trivial⟩
    · trivial
  refine .bind
    (Q := fun _ s =>
      (finalized = true → step.owns o = true) ∧
        Reached start stage s) (.note ?_) ?_
  · intro s h
    cases finalized with
    | false =>
        exact ⟨nofun, h.moveTo (.executed _ _) s.scene⟩
    | true =>
        refine ⟨fun _ => h.1, ?_⟩
        have hMoved :
            Reached start
              (if step.name = step.name ∧
                  result.isSettled = true then
                .settled step.name
              else
                .free)
              (s.note (.executed step.name result)) :=
          h.2.moveTo (.executed step.name result) s.scene
        simpa [stage] using hMoved
  intro _
  refine .assume ?_
  intro hOwns
  refine .bind
    (Reached.updateConditions stage hEnds) ?_
  intro w
  refine .assume ?_
  intro hMetadata
  refine .bind
    (m.reportStepError_triple _ _ _ (fun _ _ h => h)) ?_
  intro _
  split
  · next hRelease =>
      have hOwned : step.owns w.obj = true := by
        have hFinalized :=
          (Bool.and_eq_true_iff.mp hRelease).1
        have hOwns := hOwns hFinalized
        unfold Step.owns at hOwns ⊢
        rw [hMetadata, hConstant step hStep w.obj o]
        exact hOwns
      have hSettled : stage = .settled step.name :=
        if_pos hRelease
      rw [hSettled]
      refine .bind (Reached.releaseTokens hWritable hOwned) ?_
      intro _
      exact .pure (fun _ h => h)
  · next hKeep =>
      have hFree : stage = .free := if_neg hKeep
      rw [hFree]
      exact .pure (fun _ h => h)

/- The whole chain, by induction on its steps. -/
theorem Reached.runChain
    {context : Context}
    {steps : List (Step μ)}
    (hWritable : m.readOnly = false)
    (hConstant :
      ∀ step ∈ m.steps, ∀ o o',
        step.tokens o = step.tokens o')
    (hBehave : m.StepsBehave)
    (hSteps : ∀ step ∈ steps, step ∈ m.steps) :
    Triple (Reached start .free)
      (m.runChain context steps w)
      (fun _ => Reached start .free)
      (fun h => Prompt start (some h)) := by
  induction steps generalizing w with
  | nil => exact .pure (fun _ h => h)
  | cons step rest ih =>
      have hRest :
          ∀ w : Work,
            Triple (Reached start .free)
              (m.runChain context rest w)
              (fun _ => Reached start .free)
              (fun h => Prompt start (some h)) :=
        fun _ => ih (fun other hMember =>
          hSteps other (List.mem_cons_of_mem step hMember))
      unfold Manager.runChain
      refine .bind
        (Reached.executeStep hWritable hConstant hBehave
          (hSteps step List.mem_cons_self)) ?_
      intro ran
      rcases ran with ⟨result, w⟩
      cases result with
      | proceed _ => exact hRest w
      | skipped _ => exact hRest w
      | errorContinue _ => exact hRest _
      | stopChain _ _ => exact .pure (fun _ h => h)
      | errorStop _ _ => exact .pure (fun _ h => h)
      | errorRetry _ _ => exact .pure (fun _ h => h)

/- The hook, the chain and its summing up. -/
theorem Reached.draftSteps
    {context : Context}
    (hWritable : m.readOnly = false)
    (hConstant :
      ∀ step ∈ m.steps, ∀ o o',
        step.tokens o = step.tokens o')
    (hBehave : m.StepsBehave) :
    Triple (Reached start .free) (m.draftSteps context w)
      (fun _ => Reached start .free)
      (fun h => Prompt start (some h)) := by
  have hUpdate :
      ∀ {update} {w : Work},
        Triple (Reached start .free)
          (m.updateConditions update w)
          (fun _ => Reached start .free)
          (fun h => Prompt start (some h)) :=
    (Reached.updateConditions .free (fun _ => trivial)).mono
      (fun _ h => h) (fun _ _ h => h.2) (fun _ _ h => h)
  unfold Manager.draftSteps
  refine .bind (Q := fun _ => Reached start .free)
    (m.seedCondition_triple (fun _ h _ => h)
      (fun _ => hUpdate)) ?_
  intro w
  refine .bind
    (m.prepare_triple
      (fun _ h => h.resume rfl)
      (fun _ _ h => h.prompt trivial)
      (fun _ _ h => h)
      (fun s h => h.moveTo .hookCalled s.scene)
      (fun _ _ => Reached.call (fun _ => trivial))) ?_
  intro prepared
  cases prepared with
  | none => exact .pure (fun _ h => h)
  | some context =>
      refine .bind
        (Reached.runChain hWritable hConstant hBehave ?_) ?_
      · exact fun step hStep => mem_order.mp hStep
      · intro e
        refine .bind (Q := fun _ => Reached start .free)
          ?_ (fun _ => .pure (fun _ h => h))
        cases e with
        | retry w _ _ _ =>
            change Triple _ (m.recordReadiness .notReady w) _ _
            exact hUpdate
        | completed w =>
            refine .bind hUpdate ?_
            intro w
            split
            · exact .pure (fun _ h => h)
            · exact .map (m.stampSlot_triple
                (fun _ _ h => h) (fun _ h => h)
                (fun _ _ _ h => h)
                (fun _ _ h => h.prompt trivial))

/- The status write and the removal of the label. -/
theorem Reached.close
    {e : ChainEnd} :
    Triple (Reached start .free) (m.close e w)
      (fun _ => Prompt start none)
      (fun h => Prompt start (some h)) := by
  have hPersist :
      Triple (Reached start .free) (m.persistStatus w)
        (fun _ => Reached start .free)
        (fun h => Prompt start (some h)) :=
    m.persistStatus_triple (W := fun _ => Reached start .free)
      (fun _ h => h.resume rfl)
      (fun _ _ h => h)
      (fun _ h _ => h)
      (fun _ _ => .onStore
        (fun _ r _ h _ => h.1.moveTo (.statusUpdated _ r) _))
      (fun _ _ _ h => h)
      (fun _ _ h => h)
      (fun _ _ _ _ h => h)
      (fun _ _ _ h => h)
  have hClear :
      ∀ w : Work,
        Triple (Reached start .free) (m.clearRefreshLabel w)
          (fun _ => Reached start .free)
          (fun h => Prompt start (some h)) := by
    intro w
    refine m.clearRefreshLabel_triple
      (E := fun _ => Reached start .free)
      (fun _ h => h.resume rfl)
      (fun _ _ h => h)
      (fun _ _ h _ => h.prompt trivial)
      (fun _ _ => .onStore ?_)
      (fun _ _ _ h => h)
      (fun _ _ h => h.prompt trivial)
    intro s r store h _
    cases r with
    | ok _ => exact h.1.moveTo (.patched _ _ _) _
    | error _ => exact h.1.moveTo (.patched _ _ _) _
  cases e with
  | retry _ _ _ _ =>
      exact .bind hPersist
        (fun _ => .fail (fun _ h => h.prompt trivial))
  | completed _ =>
      refine .bind hPersist ?_
      intro persisted
      cases persisted with
      | error _ => exact .fail (fun _ h => h.prompt trivial)
      | ok w' =>
          dsimp only
          split
          · exact .bind (hClear w')
              (fun _ => .pure (fun _ h => h.prompt trivial))
          · exact .pure (fun _ h => h.prompt trivial)

/-
  In a reconcile of a manager that writes, a step that has
  been finalized is released before anything else happens,
  unless the run is interrupted.
-/
theorem reconcile_prompt
    {k : Key}
    (hWritable : m.readOnly = false)
    (hConstant :
      ∀ step ∈ m.steps, ∀ o o',
        step.tokens o = step.tokens o')
    (hBehave : m.StepsBehave) :
    Triple (fun s => s = start) (m.reconcile k)
      (fun _ => Prompt start none)
      (fun h => Prompt start (some h)) := by
  have hStart : Reached start .free start :=
    ⟨[], (List.append_nil _).symm, rfl⟩
  rw [m.reconcile_eq_draft_finish k]
  refine .bind (Q := fun _ => Reached start .free)
    ((m.draft_triple (P := Reached start .free)
      (F := fun _ => Reached start .free)
      (E := Reached start .free)
      ?_ (fun _ _ h => h) (fun _ _ _ h => h)
      (fun _ _ h => h) (fun _ _ h => h)
      (fun _ _ h => h.prompt trivial) ?_).mono
        (fun _ h => h ▸ hStart) (fun _ _ h => h)
        (fun _ _ h => h)) ?_
  · refine .await (M := Reached start .free)
      (fun _ h => h.resume rfl)
      (fun _ h _ => h.prompt trivial) (.map (.onStore ?_))
    intro s r store h _
    have hMoved :=
      h.1.moveTo (.fetched k r)
        { s.scene with store := store }
    cases r <;> exact hMoved
  · intro o now _
    refine .bind (Q := fun _ => Reached start .free)
      (m.ensureTokens_triple (E := Reached start .free)
        (fun _ h => h.resume rfl)
        (fun _ h _ => h.prompt trivial)
        (fun _ _ h => h)
        (fun _ _ h => h.prompt trivial)
        (fun _ h _ => h)
        (fun _ _ _ =>
          sendTokens_triple
            (fun _ _ _ h _ => h.1.moveTo _ _)
            (fun _ _ _ h _ => h.1.moveTo _ _))) ?_
    intro w
    exact Reached.draftSteps hWritable hConstant hBehave
  · intro d
    cases d with
    | early why => exact .pure (fun _ h => h.prompt trivial)
    | closing e w => exact Reached.close

/- The answer of a run that was interrupted. -/
def Interrupted
    (answer : Except ReconcileError Duration) : Prop :=
  answer = .error .cancelled ∨
    ∃ text, answer = .error (.panicked text)

theorem Interrupted.of_halt
    {h : Halt}
    (hInterrupts : h.Interrupts)
    (tags : Table String String) :
    Interrupted (.error (h.recover tags).1) := by
  cases h with
  | panicked p => exact .inr ⟨_, rfl⟩
  | failed e =>
      cases e with
      | cancelled => exact .inl rfl
      | _ => exact hInterrupts.elim

/- So it is in a reconcile that is recovered from. -/
theorem recovered_prompt
    {k : Key}
    (hWritable : m.readOnly = false)
    (hConstant :
      ∀ step ∈ m.steps, ∀ o o',
        step.tokens o = step.tokens o')
    (hBehave : m.StepsBehave)
    (tags : Table String String) :
    ∃ ends,
      Prompt start ends
          (m.reconcileRecovered tags k start).2 ∧
        ∀ h, ends = some h → h.Interrupts →
          Interrupted
            (m.reconcileRecovered tags k start).1 := by
  have hTriple :
      Triple (fun s => s = start) (m.reconcile k)
        (fun _ => Prompt start none)
        (fun h => Prompt start (some h)) :=
    reconcile_prompt hWritable hConstant hBehave
  unfold reconcileRecovered
  cases hRun : m.reconcile k start with
  | ok d s =>
      refine ⟨none, hTriple.of_ok rfl hRun, ?_⟩
      intro h hNone
      cases hNone
  | error h s =>
      have hPrompt : Prompt start (some h) s :=
        hTriple.of_error rfl hRun
      refine ⟨some h, hPrompt, ?_⟩
      intro h' hSame hInterrupts
      cases hSame
      exact .of_halt hInterrupts tags

/-
  Every step that settles in such a reconcile is released, or
  the answer tells that the run was interrupted.
-/
theorem recovered_releases
    {k : Key}
    {tags : Table String String}
    {new : List (Moment μ)}
    (hWritable : m.readOnly = false)
    (hConstant :
      ∀ step ∈ m.steps, ∀ o o',
        step.tokens o = step.tokens o')
    (hBehave : m.StepsBehave)
    (hNew :
      (m.reconcileRecovered tags k start).2.journal =
        start.journal ++ new) :
    Journal.Releases
      (Interrupted (m.reconcileRecovered tags k start).1)
      new := by
  rcases recovered_prompt hWritable hConstant hBehave tags
    with ⟨ends, hPrompt, hAnswer⟩
  refine (hPrompt.releases hNew).mono ?_
  rintro ⟨h, hEnds, hInterrupts⟩
  exact hAnswer h hEnds hInterrupts

end Prompt

end Manager

end Reconciler
