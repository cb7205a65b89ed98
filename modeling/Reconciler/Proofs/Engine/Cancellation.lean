import Reconciler.Proofs.Engine.Parts
import Reconciler.Proofs.Engine.Protection

/-
  This file shows that a run starts nothing once it is
  cancelled.

  A run can be cancelled at any of its moments: before it
  begins, by another task, or by the hook or a step that it
  calls.  The engine asks about that after each pause and
  before each operation, so no operation and no call begins
  at a scene that is cancelled.  What can still be noted is
  the running of other tasks and, if it was a step that was
  cancelled in, the result of that step.

  Key definitions include:
    * `Journal.Ceased`
    * `Journal.Stops`
    * `Session.StaysCancelled`

  Key theorems include:
    * `Manager.reconcile_stops`
-/

------------------------------------------------------------
-- What Comes After a Cancellation
------------------------------------------------------------

namespace Reconciler

/- Whether an event is a call of an entry point of a step. -/
def Event.enters
    (step : String)
    (e : Event) : Prop :=
  e = .processCalled step ∨ e = .finalizeCalled step

namespace Journal

variable {μ : Type}

/- The call of a step has just come to its end. -/
def Entered
    (step : String)
    (events : List Event) : Prop :=
  ∃ earlier entry,
    events = earlier ++ [entry, .returned] ∧
      entry.enters step

/-
  The engine has started nothing after the first events.
  Only other tasks have run, and if the call of a step had
  just come to its end, its result was noted before that.
-/
inductive Ceased
    (before : List Event) : List Event → Prop where
  | idle
      {after : List Event}
      (hIdle : ∀ e ∈ after, e = .resumed) :
      Ceased before after
  | recorded
      {step : String}
      {result : StepResult}
      {after : List Event}
      (hEntered : Entered step before)
      (hIdle : ∀ e ∈ after, e = .resumed) :
      Ceased before (.executed step result :: after)

/- Other tasks may go on. -/
theorem Ceased.resumed
    {before after : List Event}
    (hCeased : Ceased before after) :
    Ceased before (after ++ [.resumed]) := by
  have hSnoc :
      ∀ rest : List Event,
        (∀ e ∈ rest, e = .resumed) →
          ∀ e ∈ rest ++ [.resumed], e = .resumed := by
    intro rest hIdle e hMember
    rcases List.mem_append.mp hMember with hOld | hNew
    · exact hIdle e hOld
    · exact List.mem_singleton.mp hNew
  cases hCeased with
  | idle hIdle => exact .idle (hSnoc _ hIdle)
  | recorded hEntered hIdle =>
      exact .recorded hEntered (hSnoc _ hIdle)

/- What has ceased does not end with the end of a call. -/
theorem Ceased.not_returned
    {before after : List Event} :
    ¬ Ceased before (after ++ [.returned]) := by
  intro hCeased
  generalize hAll : after ++ [.returned] = all at hCeased
  cases hCeased with
  | idle hIdle =>
      have hLast := hIdle .returned (by simp [← hAll])
      cases hLast
  | recorded _ hIdle =>
      cases after with
      | nil => cases hAll
      | cons e after =>
          injection hAll with _ hRest
          have hLast := hIdle .returned (by simp [← hRest])
          cases hLast

/-
  A journal stops at each of its moments that is cancelled:
  from there on the scene stays cancelled, nothing is
  started, and the stored objects are kept if nobody else
  changes them.
-/
def Stops
    (undisturbed : Prop)
    (scene : Scene μ)
    (j : List (Moment μ)) : Prop :=
  ∀ before after,
    j = before ++ after →
      (lastScene scene before).cancelled = true →
        (lastScene scene j).cancelled = true ∧
          Ceased (events before) (events after) ∧
          (undisturbed →
            ∀ mo ∈ after,
              mo.scene.store.objects =
                (lastScene scene before).store.objects)

section Stopping

variable {undisturbed : Prop}
variable {scene : Scene μ}
variable {j : List (Moment μ)}

theorem Stops.nil :
    Stops undisturbed scene [] := by
  intro before after hSplit hCancelled
  rcases List.append_eq_nil_iff.mp hSplit.symm with
    ⟨rfl, rfl⟩
  exact ⟨hCancelled, .idle (by simp), by simp⟩

/- The stored objects at the end are those of the stop. -/
theorem Stops.objects
    {before after : List (Moment μ)}
    (hStops : Stops undisturbed scene (before ++ after))
    (hCancelled :
      (lastScene scene before).cancelled = true)
    (hUndisturbed : undisturbed) :
    (lastScene scene (before ++ after)).store.objects =
      (lastScene scene before).store.objects := by
  rcases hStops before after rfl hCancelled with
    ⟨_, _, hObjects⟩
  rw [lastScene_append]
  rcases lastScene_mem (lastScene scene before) after with
    hNone | ⟨mo, hMember, hLast⟩
  · rw [hNone]
  · rw [hLast]
    exact hObjects hUndisturbed mo hMember

/-
  One more moment, of which is known what it does to each
  stop that there has been.
-/
theorem Stops.snoc
    {mo : Moment μ}
    (hStops : Stops undisturbed scene j)
    (hStays :
      (lastScene scene j).cancelled = true →
        mo.scene.cancelled = true)
    (hObjects :
      (lastScene scene j).cancelled = true →
        undisturbed →
          mo.scene.store.objects =
            (lastScene scene j).store.objects)
    (hCeases :
      ∀ before after,
        j = before ++ after →
          (lastScene scene j).cancelled = true →
            Ceased (events before) (events after) →
              Ceased (events before)
                (events after ++ [mo.event])) :
    Stops undisturbed scene (j ++ [mo]) := by
  intro before after hSplit hCancelled
  rcases List.eq_nil_or_concat after with
    hNil | ⟨rest, last, hLast⟩
  · rw [hNil, List.append_nil] at hSplit
    rw [hNil, hSplit]
    exact ⟨hCancelled, .idle (by simp), by simp⟩
  · rw [List.concat_eq_append] at hLast
    rw [hLast, ← List.append_assoc] at hSplit
    rcases List.append_inj' hSplit rfl with ⟨hOld, hNew⟩
    injection hNew with hNew
    rw [hLast, ← hNew]
    rcases hStops before rest hOld hCancelled with
      ⟨hStill, hCeased, hKept⟩
    refine ⟨?_, ?_, ?_⟩
    · rw [lastScene_snoc]
      exact hStays hStill
    · rw [events_append]
      exact hCeases before rest hOld hStill hCeased
    · intro hUndisturbed mo' hMember
      rcases List.mem_append.mp hMember with hIn | hEnd
      · exact hKept hUndisturbed mo' hIn
      · rw [List.mem_singleton.mp hEnd,
          hObjects hStill hUndisturbed, hOld]
        rw [hOld] at hStops
        exact hStops.objects hCancelled hUndisturbed

/- Until the run is cancelled, anything may come next. -/
theorem Stops.running
    (hStops : Stops undisturbed scene j)
    (hRunning : (lastScene scene j).cancelled = false)
    (mo : Moment μ) :
    Stops undisturbed scene (j ++ [mo]) := by
  have hNot :
      ¬ (lastScene scene j).cancelled = true := by
    rw [hRunning]
    exact Bool.false_ne_true
  exact hStops.snoc
    (fun hCancelled => absurd hCancelled hNot)
    (fun hCancelled => absurd hCancelled hNot)
    (fun _ _ _ hCancelled => absurd hCancelled hNot)

/- Another task may always run. -/
theorem Stops.resumed
    {scene' : Scene μ}
    (hStops : Stops undisturbed scene j)
    (hStays :
      (lastScene scene j).cancelled = true →
        scene'.cancelled = true)
    (hObjects :
      undisturbed →
        scene'.store.objects =
          (lastScene scene j).store.objects) :
    Stops undisturbed scene (j ++ [⟨.resumed, scene'⟩]) :=
  hStops.snoc hStays (fun _ => hObjects)
    (fun _ _ _ _ hCeased => hCeased.resumed)

/-
  The result of a step may be noted right after its call,
  even if the run was cancelled during that.
-/
theorem Stops.executed
    {step : String}
    {result : StepResult}
    (hStops : Stops undisturbed scene j)
    (hEntered : Entered step (events j)) :
    Stops undisturbed scene
      (j ++ [⟨.executed step result, lastScene scene j⟩]) := by
  refine hStops.snoc (fun hCancelled => hCancelled)
    (fun _ _ => rfl) ?_
  intro before after hSplit _ hCeased
  rcases hEntered with ⟨earlier, entry, hEvents, hEnters⟩
  -- The end of the call is the last event so far.
  rcases List.eq_nil_or_concat after with
    hNil | ⟨rest, last, hLast⟩
  · rw [hNil, List.append_nil] at hSplit
    rw [hNil, ← hSplit]
    exact .recorded ⟨earlier, entry, hEvents, hEnters⟩
      (by simp)
  · rw [List.concat_eq_append] at hLast
    have hEnd :
        last.event = .returned := by
      rw [hSplit, hLast] at hEvents
      simp only [events_append, events_cons, events_nil,
        ← List.append_assoc] at hEvents
      have hSame :
          events before ++ events rest ++ [last.event] =
            (earlier ++ [entry]) ++ [.returned] := by
        simpa using hEvents
      have hTail := (List.append_inj' hSame rfl).2
      injection hTail
    rw [hLast, events_append, events_cons, events_nil, hEnd]
      at hCeased
    exact absurd hCeased Ceased.not_returned

end Stopping

end Journal

------------------------------------------------------------
-- Runs
------------------------------------------------------------

variable {μ : Type}

/- No other task takes a cancellation back. -/
def Session.StaysCancelled
    (s : Session μ) : Prop :=
  ∀ change ∈ s.others, ∀ scene : Scene μ,
    scene.cancelled = true →
      (change scene).cancelled = true

namespace Manager

open Engine

/-
  A run that began at a session has noted a journal since,
  which stops wherever the run was cancelled.
-/
structure Obeys
    (start : Session μ)
    (new : List (Moment μ))
    (s : Session μ) : Prop where
  journal : s.journal = start.journal ++ new
  scene : s.scene = Journal.lastScene start.scene new
  others : ∀ change ∈ s.others, change ∈ start.others
  stops : Journal.Stops start.Undisturbed start.scene new

/- The session of a run that stops when it is cancelled. -/
def Obeying
    (start s : Session μ) : Prop :=
  ∃ new, Obeys start new s

section Obedience

variable {start s : Session μ}
variable {new : List (Moment μ)}

theorem Obeying.refl :
    Obeying start start :=
  ⟨[],
    { journal := by simp
      scene := rfl
      others := fun _ hMember => hMember
      stops := .nil }⟩

/- Reports and draws leave no trace in the journal. -/
theorem Obeying.aside
    (hObeying : Obeying start s)
    (rs : List Report)
    (n : Nat) :
    Obeying start { s with reports := rs, draws := n } := by
  rcases hObeying with ⟨new, hObeys⟩
  exact ⟨new,
    { journal := hObeys.journal
      scene := hObeys.scene
      others := hObeys.others
      stops := hObeys.stops }⟩

/- Before it is cancelled, a run may do anything. -/
theorem Obeys.moveTo
    (hObeys : Obeys start new s)
    (hRunning : s.scene.cancelled = false)
    (e : Event)
    (scene : Scene μ) :
    Obeys start (new ++ [⟨e, scene⟩]) (s.moveTo e scene) where
  journal := by
    rw [Session.moveTo_journal, hObeys.journal,
      List.append_assoc]
  scene := by simp
  others := hObeys.others
  stops := by
    rw [hObeys.scene] at hRunning
    exact hObeys.stops.running hRunning _

theorem Obeying.moveTo
    (hObeying : Obeying start s)
    (hRunning : s.scene.cancelled = false)
    (e : Event)
    (scene : Scene μ) :
    Obeying start (s.moveTo e scene) := by
  rcases hObeying with ⟨new, hObeys⟩
  exact ⟨_, hObeys.moveTo hRunning e scene⟩

/- The other tasks may run at any time. -/
theorem Obeying.resume
    (hStays : start.StaysCancelled)
    (hObeying : Obeying start s) :
    Obeying start s.resume := by
  rcases hObeying with ⟨new, hObeys⟩
  refine Session.resume_keeps ?_ ?_
  · intro rest hRest
    exact ⟨new,
      { hObeys with
        others := fun other hMember =>
          hObeys.others other (hRest hMember) }⟩
  · intro change hMember s' h
    have hChange := hObeys.others change hMember
    rcases h with ⟨new', hNew⟩
    refine
      ⟨new' ++ [⟨.resumed, change s'.scene⟩],
        { hNew with
          journal := ?_
          scene := by simp
          stops := ?_ }⟩
    · rw [Session.moveTo_journal, hNew.journal,
        List.append_assoc]
    · rw [hNew.scene]
      exact hNew.stops.resumed
        (hStays change hChange _)
        (fun hUndisturbed => hUndisturbed change hChange _)

/- The result of a step is noted right after its call. -/
theorem Obeys.executed
    {step : String}
    (hObeys : Obeys start new s)
    (hEnded :
      s.scene.cancelled = false ∨
        Journal.Entered step (Journal.events new))
    (result : StepResult) :
    Obeying start (s.note (.executed step result)) := by
  rcases hEnded with hRunning | hEntered
  · exact ⟨_, hObeys.moveTo hRunning
      (.executed step result) s.scene⟩
  · refine ⟨new ++ [⟨.executed step result, s.scene⟩],
      { journal := ?_
        scene := ?_
        others := hObeys.others
        stops := ?_ }⟩
    · rw [Session.note_journal, hObeys.journal,
        List.append_assoc]
    · rw [Session.note_scene, Journal.lastScene_snoc]
    · rw [hObeys.scene]
      exact hObeys.stops.executed hEntered

/- A store operation starts before a cancellation only. -/
theorem Obeying.onStore
    {α : Type}
    {op : Store → α × Store}
    {event : α → Event} :
    Triple
      (fun s : Session μ =>
        Obeying start s ∧ s.scene.cancelled = false)
      (Engine.onStore op event)
      (fun _ => Obeying start)
      (fun _ => Obeying start) :=
  .onStore (fun _ _ _ h _ => h.1.moveTo h.2 _ _)

/- So does a call, which is noted before it is made. -/
theorem Obeying.call
    {α : Type}
    {c : Call μ α}
    {e : Event} :
    Triple
      (fun s =>
        Obeying start s ∧ s.scene.cancelled = false)
      (do
        Engine.note e
        Engine.call c)
      (fun _ s =>
        ∃ new earlier,
          Obeys start new s ∧
            Journal.events new = earlier ++ [e, .returned])
      (fun _ => Obeying start) := by
  refine .bind
    (.note
      (Q := fun _ s =>
        ∃ new, Obeys start (new ++ [⟨e, s.scene⟩]) s ∧
          s.scene.cancelled = false) ?_) ?_
  · rintro s ⟨⟨new, hObeys⟩, hRunning⟩
    exact ⟨new, hObeys.moveTo hRunning e s.scene, hRunning⟩
  · intro _
    refine .call_ends ?_ ?_
    · rintro ended s scene ⟨new, hObeys, hRunning⟩
      exact ⟨_, Journal.events new,
        hObeys.moveTo hRunning _ _, by simp⟩
    · rintro halt s scene ⟨new, hObeys, hRunning⟩
      exact ⟨_, hObeys.moveTo hRunning _ _⟩

end Obedience

section Stopping

variable {m : Manager μ}
variable {start : Session μ}

/-
  A step is run.  If it was cancelled in, it was just its
  call that ended.
-/
theorem runStep_obeys
    {context : Context}
    {step : Step μ}
    {o : Object} :
    Triple
      (fun s =>
        Obeying start s ∧ s.scene.cancelled = false)
      (Manager.runStep context step o)
      (fun _ s =>
        ∃ new,
          Obeys start new s ∧
            (s.scene.cancelled = false ∨
              Journal.Entered step.name
                (Journal.events new)))
      (fun _ => Obeying start) := by
  have hEnter :
      ∀ (c : Call μ (StepResult × Object)) (e : Event)
          (finalized : Bool),
        e.enters step.name →
          Triple
            (fun s =>
              Obeying start s ∧ s.scene.cancelled = false)
            (do
              Engine.note e
              let ended ← Engine.call c
              return ended.map
                (fun r => (r.1, r.2, finalized)))
            (fun _ s =>
              ∃ new,
                Obeys start new s ∧
                  (s.scene.cancelled = false ∨
                    Journal.Entered step.name
                      (Journal.events new)))
            (fun _ => Obeying start) := by
    intro c e finalized hEnters
    rw [← bind_assoc]
    refine .bind Obeying.call ?_
    intro ended
    refine .pure ?_
    rintro s ⟨new, earlier, hObeys, hEvents⟩
    exact ⟨new, hObeys,
      .inr ⟨earlier, e, hEvents, hEnters⟩⟩
  unfold Manager.runStep
  split
  · exact hEnter _ _ false (.inl rfl)
  · split
    · exact hEnter _ _ true (.inr rfl)
    · refine .pure ?_
      rintro s ⟨⟨new, hObeys⟩, hRunning⟩
      exact ⟨new, hObeys, .inl hRunning⟩

/- Conditions are kept without starting anything. -/
theorem updateConditions_obeys
    {update :
      Instant → Metadata → List Condition →
        List Condition}
    {w : Work} :
    Triple (Obeying start) (m.updateConditions update w)
      (fun _ => Obeying start) (fun _ => Obeying start) :=
  m.updateConditions_triple (fun _ _ h _ => h)
    (fun _ h _ => h) (fun _ _ h => h)

theorem seedCondition_obeys
    {type : String}
    {seed :
      Instant → Metadata → List Condition →
        List Condition}
    {w : Work} :
    Triple (Obeying start) (m.seedCondition type seed w)
      (fun _ => Obeying start) (fun _ => Obeying start) :=
  m.seedCondition_triple (fun _ h _ => h)
    (fun _ => updateConditions_obeys)

/- Tokens are sent before a cancellation only. -/
theorem sendTokens_obeys
    {c : Copies} :
    Triple
      (fun s : Session μ =>
        Obeying start s ∧ s.scene.cancelled = false)
      (sendTokens c) (fun _ => Obeying start)
      (fun _ => Obeying start) :=
  sendTokens_triple
    (fun _ _ _ h _ => h.1.moveTo h.2 _ _)
    (fun _ _ _ h _ => h.1.moveTo h.2 _ _)

variable (hStays : start.StaysCancelled)

include hStays

/- One step of the chain. -/
theorem executeStep_obeys
    {context : Context}
    {step : Step μ}
    {w : Work} :
    Triple (Obeying start) (m.executeStep context step w)
      (fun _ => Obeying start) (fun _ => Obeying start) := by
  unfold Manager.executeStep
  dsimp only
  refine .bind seedCondition_obeys ?_
  intro w
  refine .bind
    (Q := fun _ s =>
      ∃ new,
        Obeys start new s ∧
          (s.scene.cancelled = false ∨
            Journal.Entered step.name
              (Journal.events new)))
    ?_ ?_
  · refine .await (M := Obeying start)
      (fun _ h => h.resume hStays) (fun _ h _ => h) ?_
    refine runStep_obeys.mono (fun _ h => h) ?_
      (fun _ _ h => h)
    intro r s hEnded
    cases r with
    | some _ => exact hEnded
    | none =>
        rcases hEnded with ⟨new, hObeys, _⟩
        exact ⟨new, hObeys⟩
  intro r
  rcases r with ⟨result, o, finalized⟩
  refine .bind (.note (Q := fun _ => Obeying start) ?_) ?_
  · rintro s ⟨new, hObeys, hEnded⟩
    exact hObeys.executed hEnded result
  intro _
  refine .bind updateConditions_obeys ?_
  intro w
  refine .bind
    (m.reportStepError_triple _ _ _
      (fun s rs h => h.aside rs s.draws)) ?_
  intro _
  split
  · refine .bind
      (Q := fun _ => Obeying start)
      (m.releaseTokens_triple
        (E := fun _ => Obeying start)
        (fun _ h => h.resume hStays) (fun _ h _ => h)
        (fun _ s rs h => h.aside rs s.draws)
        (fun _ _ h => h) (fun _ _ h => h)
        (fun _ _ => ?_)) ?_
    · refine sendTokens_obeys.mono (fun _ h => h) ?_
        (fun _ _ h => h)
      intro r s h
      split
      · exact h
      · exact h
    · exact fun _ => .pure (fun _ h => h)
  · exact .pure (fun _ h => h)

/- The hook, the chain and what is summed up of it. -/
theorem draftSteps_obeys
    {context : Context}
    {w : Work} :
    Triple (Obeying start) (m.draftSteps context w)
      (fun _ => Obeying start) (fun _ => Obeying start) := by
  unfold Manager.draftSteps
  refine .bind seedCondition_obeys ?_
  intro w
  refine .bind
    (m.prepare_awaits (fun _ h => h.resume hStays)
      (fun _ h => h) (fun _ _ h => h)
      (fun s rs h => h.aside rs s.draws) ?_) ?_
  · intro hook _
    refine Obeying.call.mono (fun _ h => h) ?_
      (fun _ _ h => h)
    rintro _ s ⟨new, _, hObeys, _⟩
    exact ⟨new, hObeys⟩
  · intro prepared
    cases prepared with
    | none => exact .pure (fun _ h => h)
    | some context =>
        refine .bind
          (m.runChain_triple
            (I := fun _ => Obeying start)
            (fun _ _ h => h)
            (fun _ _ _ => executeStep_obeys hStays)) ?_
        intro e
        refine .bind (Q := fun _ => Obeying start) ?_
          (fun _ => .pure (fun _ h => h))
        unfold Manager.sumUp
        cases e with
        | retry _ _ _ _ => exact updateConditions_obeys
        | completed w =>
            refine .bind updateConditions_obeys ?_
            intro w
            split
            · exact .pure (fun _ h => h)
            · exact .map
                (m.stampSlot_triple
                  (P := Obeying start)
                  (fun s n h => h.aside s.reports n)
                  (fun _ h => h) (fun _ _ _ h => h)
                  (fun _ _ h => h))

/- All that comes before the status write. -/
theorem draft_obeys
    {k : Key} :
    Triple (Obeying start) (m.draft k)
      (fun _ => Obeying start) (fun _ => Obeying start) := by
  refine m.draft_triple
    (F := fun _ => Obeying start) (E := Obeying start)
    ?_ (fun _ _ h => h)
    (fun _ s rs h => h.aside rs s.draws)
    (fun s rs h => h.aside rs s.draws)
    (fun _ _ h => h) (fun _ _ h => h) ?_
  · refine .await (M := Obeying start)
      (fun _ h => h.resume hStays) (fun _ h _ => h)
      (.map (Obeying.onStore.mono (fun _ h => h) ?_
        (fun _ _ h => h)))
    intro r s h
    cases r with
    | ok _ => exact h
    | error _ => exact h
  · intro o now _
    refine .bind
      (m.ensureTokens_triple
        (Q := fun _ => Obeying start) (E := Obeying start)
        (fun _ h => h.resume hStays) (fun _ h _ => h)
        (fun s rs h => h.aside rs s.draws)
        (fun _ _ h => h) (fun _ h _ => h)
        (fun _ _ _ => ?_))
      (fun _ => draftSteps_obeys hStays)
    refine sendTokens_obeys.mono (fun _ h => h) ?_
      (fun _ _ h => h)
    intro r s h
    split
    · exact h
    · exact h

/- The status write and what comes after it. -/
theorem finish_obeys
    {d : Draft} :
    Triple (Obeying start) (m.finish d)
      (fun _ => Obeying start) (fun _ => Obeying start) := by
  have hPersists :
      ∀ w,
        Triple (Obeying start) (m.persistStatus w)
          (fun _ => Obeying start)
          (fun _ => Obeying start) := by
    intro w
    exact m.persistStatus_triple
      (W := fun _ => Obeying start)
      (fun _ h => h.resume hStays) (fun _ _ h => h)
      (fun _ h _ => h) (fun _ _ => Obeying.onStore)
      (fun _ s rs h => h.aside rs s.draws) (fun _ _ h => h)
      (fun _ _ _ _ h => h) (fun _ _ _ h => h)
  have hClears :
      ∀ w,
        Triple (Obeying start) (m.clearRefreshLabel w)
          (fun _ => Obeying start)
          (fun _ => Obeying start) := by
    intro w
    refine m.clearRefreshLabel_triple
      (E := fun _ => Obeying start)
      (fun _ h => h.resume hStays) (fun _ _ h => h)
      (fun _ _ h _ => h) (fun _ _ => ?_)
      (fun _ s rs h => h.aside rs s.draws)
      (fun _ _ h => h)
    refine Obeying.onStore.mono (fun _ h => h) ?_
      (fun _ _ h => h)
    intro r s h
    cases r with
    | ok _ => exact h
    | error _ => exact h
  cases d with
  | early _ => exact .pure (fun _ h => h)
  | closing e w =>
      cases e with
      | retry _ _ _ _ =>
          exact .bind (hPersists w)
            (fun _ => .fail (fun _ h => h))
      | completed _ =>
          refine .bind (hPersists w) ?_
          intro r
          cases r with
          | error _ => exact .fail (fun _ h => h)
          | ok w =>
              dsimp only
              split
              · exact .bind (hClears w)
                  (fun _ => .pure (fun _ h => h))
              · exact .pure (fun _ h => h)

/-
  A reconcile stops wherever it is cancelled, on each of its
  ways to end: from there on no store operation, no hook and
  no step is started, and the stored objects stay as they
  are unless someone else changes them.
-/
theorem reconcile_stops
    (m : Manager μ)
    (k : Key) :
    ∃ new,
      ((m.reconcile k).final start).journal =
          start.journal ++ new ∧
        ((m.reconcile k).final start).scene =
          Journal.lastScene start.scene new ∧
        Journal.Stops start.Undisturbed start.scene new := by
  have hObeys :
      Triple (Obeying start) (m.reconcile k)
        (fun _ => Obeying start)
        (fun _ => Obeying start) := by
    rw [m.reconcile_eq_draft_finish k]
    exact .bind (draft_obeys hStays)
      (fun _ => finish_obeys hStays)
  rcases hObeys.of_final (Obeying.refl) with
    ⟨new, hNew⟩
  exact ⟨new, hNew.journal, hNew.scene, hNew.stops⟩

end Stopping

/- A step that cancels the run and goes on regardless. -/
def cancellingStep : Step Unit where
  name := "step"
  process := fun _ o => do
    modify Scene.cancel
    return (.ok, o)

/- A manager that keeps conditions and runs this step. -/
def cancellingManager : Manager Unit where
  operator := "operator"
  controller := "controller"
  kind := "TestObject"
  steps := [cancellingStep]
  conditions := true
  scheduler := none
  hook := none
  reporter := .discarding
  policy := .standard
  readOnly := false
  trackLast := false

/- A host with one live object and a task that idles. -/
def cancellingSession : Session Unit where
  scene :=
    { store := Store.insert
        { kind := .full
          metadata := Metadata.fresh "default" "object"
          status := {} }
        {}
      clock := ⟨0⟩
      memory := () }
  others := [fun scene => scene]

/- The run is cancelled in its step, and stops there. -/
theorem cancelling_reconcile_stops :
    cancellingSession.StaysCancelled ∧
      ((cancellingManager.reconcile
          (.namespaced "default" "object")).final
            cancellingSession).scene.cancelled = true ∧
      ∃ new,
        ((cancellingManager.reconcile
              (.namespaced "default" "object")).final
            cancellingSession).journal =
            cancellingSession.journal ++ new ∧
          ((cancellingManager.reconcile
                (.namespaced "default" "object")).final
              cancellingSession).scene =
            Journal.lastScene cancellingSession.scene new ∧
          Journal.Stops cancellingSession.Undisturbed
            cancellingSession.scene new := by
  have hStays : cancellingSession.StaysCancelled := by
    intro change hMember scene hCancelled
    rw [List.mem_singleton.mp hMember]
    exact hCancelled
  exact ⟨hStays, by decide +kernel,
    reconcile_stops hStays cancellingManager
      (.namespaced "default" "object")⟩

end Manager

end Reconciler
