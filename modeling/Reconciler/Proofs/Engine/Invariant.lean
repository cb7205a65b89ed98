import Reconciler.Proofs.Engine.Journal
import Reconciler.Proofs.Engine.Parts

/-
  This file carries invariants through a reconcile.

  An invariant relates the work of a run to the session.
  What it must survive is said once, for each thing that a
  run can do to work or session; that every part of a run
  then carries it on is proved here.  Whoever has an
  invariant checks the former and cites the latter.

  A run halts in many places, where less may hold; the
  second predicate says what.

  Many invariants are about the two copies of the object
  alone and do not look at the status of the working copy;
  for these there is a shorter list of things to survive.

  Key definitions include:
    * `Manager.Notes`
    * `Manager.Carries`
    * `Manager.Upholds`
    * `Manager.UpholdsClose`

  Key theorems include:
    * `Manager.Carries.runChain`
    * `Manager.Carries.draftSteps`
    * `Manager.Upholds.draft`
    * `Manager.UpholdsClose.finish`
    * `Manager.UpholdsClose.runSteps`
-/

------------------------------------------------------------
-- What a Run Can Do
------------------------------------------------------------

namespace Reconciler

namespace Manager

variable {μ : Type}

open Engine

/-
  The calls and results that a run notes, with what holds of
  the working copy at that time.
-/
inductive Notes
    (m : Manager μ)
    (o : Object) : Event → Prop where
  | hookCalled : Notes m o .hookCalled
  | processCalled
      {step : Step μ}
      (hStep : step ∈ m.steps)
      (hLive : o.isDeleting = false) :
      Notes m o (.processCalled step.name)
  | finalizeCalled
      {step : Step μ}
      (hStep : step ∈ m.steps)
      (hDeleting : o.isDeleting = true)
      (hOwns : step.owns o = true) :
      Notes m o (.finalizeCalled step.name)
  | executed
      {step : Step μ}
      (hStep : step ∈ m.steps)
      (result : StepResult) :
      Notes m o (.executed step.name result)

/-
  An invariant of the work survives all that a run can do
  until its chain has ended.  A run can halt wherever it
  holds; a removal of tokens that fails ends the run with
  the error of the store.
-/
structure Carries
    (m : Manager μ)
    (I : Work → Session μ → Prop)
    (H : Halt → Session μ → Prop) : Prop where
  recorded :
    ∀ {w s} (cs : List Condition),
      I w s →
        I { w with
          obj := w.obj.mapStatus
            (fun st => { st with conditions := cs }) } s
  tallied :
    ∀ {w s} (requeue : Duration) (hasError : Bool),
      I w s →
        I { w with requeue := requeue, hasError := hasError } s
  reported :
    ∀ {w s} (rs : List Report),
      I w s → I w { s with reports := rs }
  halts : ∀ {w s} (h : Halt), I w s → H h s
  haltReported :
    ∀ {h s} (rs : List Report),
      H h s → H h { s with reports := rs }
  resumed : ∀ {w s}, I w s → I w s.resume
  noted :
    ∀ {w s e}, m.Notes w.obj e → I w s → I w (s.note e)
  hooked :
    ∀ {w hook} (context : Context),
      m.hook = some hook →
        Triple (I w) (call (hook context w.obj))
          (fun _ => I w) H
  processed :
    ∀ {w step} (context : Context),
      step ∈ m.steps → w.obj.isDeleting = false →
        Triple (I w) (call (step.process context w.obj))
          (fun r => I { w with
            obj := (r.map (·.2)).getD w.obj })
          H
  finalized :
    ∀ {w step} (context : Context),
      step ∈ m.steps → w.obj.isDeleting = true →
        Triple (I w) (call (step.finalize context w.obj))
          (fun r => I { w with
            obj := (r.map (·.2)).getD w.obj })
          H
  released :
    ∀ {w step},
      step ∈ m.steps → m.readOnly = false →
        step.owns w.obj = true →
          Triple
            (fun s =>
              I w s ∧ s.scene.cancelled = false ∧
                Journal.JustSettled step.name
                  (Journal.events s.journal))
            (sendTokens { w.toCopies with
              obj := Tokens.removeAll
                (step.tokens w.obj) w.obj })
            (fun r s =>
              match r.1 with
              | .ok _ => I { w with toCopies := r.2 } s
              | .error e => H (.failed (.store e)) s)
            H

/-
  What the engine does to the status of its working copy,
  and what it reports and draws, does not matter.
-/
structure Ignores
    (I : Copies → Session μ → Prop) : Prop where
  edited :
    ∀ {c s} (f : Status → Status),
      I c s → I { c with obj := c.obj.mapStatus f } s
  reported :
    ∀ {c s} (rs : List Report),
      I c s → I c { s with reports := rs }
  drawn :
    ∀ {c s} (n : Nat),
      I c s → I c { s with draws := n }

/-
  An invariant of the copies survives all that a run can do
  before its status write.  A removal of tokens that fails
  ends the run.
-/
structure Upholds
    (m : Manager μ)
    (I : Copies → Session μ → Prop)
    (H : Session μ → Prop) : Prop
    extends Ignores I where
  halts : ∀ {c s}, I c s → H s
  haltReported :
    ∀ {s} (rs : List Report),
      H s → H { s with reports := rs }
  resumed : ∀ {c s}, I c s → I c s.resume
  noted :
    ∀ {c s e}, m.Notes c.obj e → I c s → I c (s.note e)
  hooked :
    ∀ {c hook} (context : Context),
      m.hook = some hook →
        Triple (I c) (call (hook context c.obj))
          (fun _ => I c) (fun _ => H)
  processed :
    ∀ {c step} (context : Context),
      step ∈ m.steps → c.obj.isDeleting = false →
        Triple (I c) (call (step.process context c.obj))
          (fun r => I { c with
            obj := (r.map (·.2)).getD c.obj })
          (fun _ => H)
  finalized :
    ∀ {c step} (context : Context),
      step ∈ m.steps → c.obj.isDeleting = true →
        Triple (I c) (call (step.finalize context c.obj))
          (fun r => I { c with
            obj := (r.map (·.2)).getD c.obj })
          (fun _ => H)
  released :
    ∀ {c step},
      step ∈ m.steps → m.readOnly = false →
        Triple
          (fun s =>
            I c s ∧ s.scene.cancelled = false ∧
              Journal.JustSettled step.name
                (Journal.events s.journal))
          (sendTokens { c with
            obj := Tokens.removeAll
              (step.tokens c.obj) c.obj })
          (fun r s =>
            match r.1 with
            | .ok _ => I r.2 s
            | .error _ => H s)
          (fun _ => H)

------------------------------------------------------------
-- Invariants of the Chain
------------------------------------------------------------

namespace Carries

variable {m : Manager μ}
variable {I : Work → Session μ → Prop}
variable {H : Halt → Session μ → Prop}

/- Conditions are kept, whatever the journal says. -/
theorem updateConditions
    (hCarries : m.Carries I H)
    (p : List (Moment μ) → Prop)
    {update :
      Instant → Metadata → List Condition →
        List Condition}
    {w : Work} :
    Triple (fun s => I w s ∧ p s.journal)
      (m.updateConditions update w)
      (fun w' s => I w' s ∧ p s.journal) H :=
  m.updateConditions_triple
    (fun _ _ h _ => ⟨hCarries.recorded _ h.1, h.2⟩)
    (fun _ h _ => h)
    (fun _ _ h => hCarries.halts _ h.1)

theorem recordConditions
    (hCarries : m.Carries I H)
    {update :
      Instant → Metadata → List Condition →
        List Condition}
    {w : Work} :
    Triple (I w) (m.updateConditions update w) I H :=
  (hCarries.updateConditions (fun _ => True)).mono
    (fun _ h => ⟨h, trivial⟩) (fun _ _ h => h.1)
    (fun _ _ h => h)

theorem seedCondition
    (hCarries : m.Carries I H)
    {type : String}
    {seed :
      Instant → Metadata → List Condition →
        List Condition}
    {w : Work} :
    Triple (I w) (m.seedCondition type seed w) I H :=
  m.seedCondition_triple
    (fun _ h _ => h)
    (fun _ => hCarries.recordConditions)

/- The hook is called, or there is none. -/
theorem prepare
    (hCarries : m.Carries I H)
    {context : Context}
    {w : Work} :
    Triple (I w) (m.prepare context w)
      (fun _ => I w) H :=
  m.prepare_triple
    (fun _ h => hCarries.resumed h)
    (fun halt _ h => hCarries.halts halt h)
    (fun _ rs h => hCarries.reported rs h)
    (fun _ h => hCarries.noted .hookCalled h)
    (fun _ hHook => hCarries.hooked context hHook)

/-
  A step is run.  If it was finalized, its call and the end
  of its call were the last two events.
-/
theorem runStep
    (hCarries : m.Carries I H)
    {context : Context}
    {step : Step μ}
    {w : Work}
    (hStep : step ∈ m.steps) :
    Triple (I w) (Manager.runStep context step w.obj)
      (fun r s =>
        match r with
        | some (_, o, finalized) =>
            I { w with obj := o } s ∧
              (finalized = true →
                Journal.JustReturned step.name
                  (Journal.events s.journal))
        | none => H (.failed .cancelled) s)
      H := by
  unfold Manager.runStep
  split
  · next hLive =>
      have hLive : w.obj.isDeleting = false := by
        simpa using hLive
      refine .bind
        (.note (Q := fun _ => I w)
          (fun s hI =>
            hCarries.noted (.processCalled hStep hLive) hI)) ?_
      intro _
      refine .bind (hCarries.processed context hStep hLive) ?_
      intro ended
      refine .pure ?_
      intro s hI
      cases ended with
      | some r => exact ⟨hI, by simp⟩
      | none => exact hCarries.halts _ hI
  · next hDeleting =>
      have hDeleting : w.obj.isDeleting = true := by
        simpa using hDeleting
      split
      · next hOwns =>
          refine .bind
            (.note
              (Q := fun _ s =>
                I w s ∧
                  ∃ before,
                    Journal.events s.journal =
                      before ++ [.finalizeCalled step.name])
              (fun s hI =>
                ⟨hCarries.noted
                    (.finalizeCalled hStep hDeleting hOwns) hI,
                  ⟨Journal.events s.journal, by simp⟩⟩)) ?_
          intro _
          refine .bind
            (((hCarries.finalized context hStep
              hDeleting).and Journal.JustReturned.call).mono
                (fun _ h => h) (fun _ _ h => h)
                (fun _ _ h => h.1)) ?_
          intro ended
          refine .pure ?_
          intro s hI
          cases ended with
          | some r => exact ⟨hI.1, fun _ => hI.2⟩
          | none => exact hCarries.halts _ hI.1
      · exact .pure (fun s hI => ⟨hI, by simp⟩)

/- The tokens of a step are released once it has settled. -/
theorem releaseTokens
    (hCarries : m.Carries I H)
    {step : Step μ}
    {w : Work}
    (hStep : step ∈ m.steps) :
    Triple
      (fun s =>
        I w s ∧
          Journal.JustSettled step.name
            (Journal.events s.journal))
      (m.releaseTokens step w) I H :=
  m.releaseTokens_triple
    (E := fun e => H (.failed (.store e)))
    (fun _ h => ⟨hCarries.resumed h.1, h.2.resume⟩)
    (fun _ h _ => hCarries.halts _ h.1)
    (fun _ _ rs hH => hCarries.haltReported rs hH)
    (fun _ _ hH => hH)
    (fun _ _ h => h.1)
    (fun hWritable hOwns =>
      (hCarries.released hStep hWritable hOwns).mono
        (fun _ h => ⟨h.1.1, h.2, h.1.2⟩)
        (fun _ _ h => h) (fun _ _ h => h))

/- One step of the chain. -/
theorem executeStep
    (hCarries : m.Carries I H)
    {context : Context}
    {step : Step μ}
    {w : Work}
    (hStep : step ∈ m.steps) :
    Triple (I w) (m.executeStep context step w)
      (fun r => I r.2) H := by
  unfold Manager.executeStep
  dsimp only
  refine .bind hCarries.seedCondition ?_
  intro w
  refine .bind
    (Q := fun r s =>
      I { w with obj := r.2.1 } s ∧
        (r.2.2 = true →
          Journal.JustReturned step.name
            (Journal.events s.journal)))
    ?_ ?_
  · refine .await (M := I w)
      (fun _ hI => hCarries.resumed hI)
      (fun _ hI _ => hCarries.halts _ hI) ?_
    refine (hCarries.runStep hStep).mono
      (fun _ hI => hI.1) ?_ (fun _ _ hH => hH)
    intro r s hRun
    cases r with
    | some _ => exact hRun
    | none => exact hRun
  intro r
  rcases r with ⟨result, o, finalized⟩
  -- The end of the call is remembered until the release.
  refine .bind
    (.note (Q := fun _ s =>
      I { w with obj := o } s ∧
        Journal.SettledIf finalized step.name result
          s.journal) ?_) ?_
  · intro s hRun
    refine
      ⟨hCarries.noted (.executed hStep result) hRun.1, ?_⟩
    intro hFinalized hResult
    have hSettled :=
      (hRun.2 hFinalized).settled hResult
    simpa using hSettled
  · intro _
    refine .bind
      ((hCarries.updateConditions
        (Journal.SettledIf finalized step.name result)).mono
          (fun _ h => ⟨hCarries.tallied _ _ h.1, h.2⟩)
          (fun _ _ h => h) (fun _ _ h => h)) ?_
    intro w
    refine .bind
      (m.reportStepError_triple _ _ _
        (fun _ rs h => ⟨hCarries.reported rs h.1, h.2⟩)) ?_
    intro _
    split
    · next hRelease =>
        have hDone :
            finalized = true ∧ result.isSettled = true := by
          simpa using hRelease
        refine .bind
          ((hCarries.releaseTokens hStep).mono
            (fun _ h => ⟨h.1, h.2 hDone.1 hDone.2⟩)
            (fun _ _ h => h) (fun _ _ h => h)) ?_
        intro w
        exact .pure (fun _ hI => hI)
    · exact .pure (fun _ h => h.1)

/- The whole chain. -/
theorem runChain
    (hCarries : m.Carries I H)
    {context : Context}
    {steps : List (Step μ)}
    {w : Work}
    (hSteps : ∀ step ∈ steps, step ∈ m.steps) :
    Triple (I w) (m.runChain context steps w)
      (fun e => I e.work) H :=
  m.runChain_triple
    (fun w _ hI => hCarries.tallied w.requeue true hI)
    (fun step hStep _ =>
      hCarries.executeStep (hSteps step hStep))

/-
  The hook and the steps, up to the status write, from the
  summing up of the chain.
-/
theorem draftSteps
    (hCarries : m.Carries I H)
    {D : Draft → Session μ → Prop}
    {context : Context}
    {w : Work}
    (hRefused : ∀ {w s}, I w s → D (.early .refused) s)
    (hSumUp :
      ∀ e,
        Triple (I e.work) (m.sumUp e)
          (fun w => D (.closing e w)) H) :
    Triple (I w) (m.draftSteps context w) D H := by
  unfold Manager.draftSteps
  refine .bind hCarries.seedCondition ?_
  intro w
  refine .bind hCarries.prepare ?_
  intro prepared
  cases prepared with
  | none => exact .pure (fun _ hI => hRefused hI)
  | some context =>
      refine .bind (hCarries.runChain ?_) ?_
      · exact fun step hStep => mem_order.mp hStep
      · intro e
        exact .bind (hSumUp e) (fun _ => .pure (fun _ h => h))

end Carries

------------------------------------------------------------
-- Invariants of the Copies
------------------------------------------------------------

section Parts

variable {m : Manager μ}
variable {I : Copies → Session μ → Prop}
variable {H : Session μ → Prop}

theorem Ignores.updateConditions
    (hIgnores : Ignores I)
    (hHalts : ∀ {c s}, I c s → H s)
    {update :
      Instant → Metadata → List Condition →
        List Condition}
    {w : Work} :
    Triple (I w.toCopies) (m.updateConditions update w)
      (fun w' => I w'.toCopies) (fun _ => H) :=
  m.updateConditions_triple
    (fun _ _ hI _ => hIgnores.edited _ hI)
    (fun _ hI _ => hI)
    (fun _ _ hI => hHalts hI)

namespace Upholds

/- An invariant of the copies is one of the work. -/
theorem carries
    (hUpholds : m.Upholds I H) :
    m.Carries (fun w => I w.toCopies) (fun _ => H) where
  recorded := fun _ hI => hUpholds.edited _ hI
  tallied := fun _ _ hI => hI
  reported := fun rs hI => hUpholds.reported rs hI
  halts := fun _ hI => hUpholds.halts hI
  haltReported := fun rs hH => hUpholds.haltReported rs hH
  resumed := fun hI => hUpholds.resumed hI
  noted := fun hNotes hI => hUpholds.noted hNotes hI
  hooked := fun context hHook =>
    hUpholds.hooked context hHook
  processed := fun context hStep hLive =>
    hUpholds.processed context hStep hLive
  finalized := fun context hStep hDeleting =>
    hUpholds.finalized context hStep hDeleting
  released := fun hStep hWritable _ =>
    hUpholds.released hStep hWritable

/- Stamping the next slot draws, and may panic. -/
theorem stampSlot
    (hUpholds : m.Upholds I H)
    {w : Work} :
    Triple (I w.toCopies) (m.stampSlot w)
      (fun w' => I w'.toCopies) (fun _ => H) := by
  exact m.stampSlot_triple
    (fun _ n hI => hUpholds.drawn n hI)
    (fun _ hI => hI)
    (fun _ _ _ hI => hUpholds.edited _ hI)
    (fun _ _ hI => hUpholds.halts hI)

/- The summing up of the chain. -/
theorem sumUp
    (hUpholds : m.Upholds I H)
    {e : ChainEnd} :
    Triple (I e.work.toCopies) (m.sumUp e)
      (fun w => I w.toCopies) (fun _ => H) := by
  cases e with
  | completed w =>
      refine .bind
        (hUpholds.toIgnores.updateConditions
          hUpholds.halts) ?_
      intro w
      split
      · exact .pure (fun _ hI => hI)
      · refine .map (hUpholds.stampSlot.mono
          (fun _ h => h) ?_ (fun _ _ h => h))
        intro w s hI
        unfold stampTime
        split
        · exact hUpholds.edited _ hI
        · exact hI
  | retry w _ _ _ =>
      change
        Triple (I w.toCopies) (m.recordReadiness .notReady w)
          _ _
      exact hUpholds.toIgnores.updateConditions
        hUpholds.halts

/- The hook and the steps, up to the status write. -/
theorem draftSteps
    (hUpholds : m.Upholds I H)
    {context : Context}
    {w : Work} :
    Triple (I w.toCopies) (m.draftSteps context w)
      (fun d s =>
        match d with
        | .early _ => H s
        | .closing _ w => I w.toCopies s)
      (fun _ => H) :=
  hUpholds.carries.draftSteps
    (fun hI => hUpholds.halts hI)
    (fun _ => hUpholds.sumUp)

end Upholds

/-
  The first part of a reconcile, from what the fetch
  establishes and what the tokens add to it.
-/
theorem Upholds.draft
    (hUpholds : m.Upholds I H)
    {P : Session μ → Prop}
    {F : Copies → Session μ → Prop}
    {k : Key}
    (hFetch :
      Triple P (await (some <$> fetch k))
        (fun r s =>
          match r with
          | .ok o => F ⟨o, o⟩ s
          | .error _ => H s)
        (fun _ => H))
    (hFetched : ∀ {c s}, F c s → H s)
    (hReported :
      ∀ {c s} (rs : List Report),
        F c s → F c { s with reports := rs })
    (hTokens :
      ∀ w : Work,
        Triple (F w.toCopies) (m.ensureTokens w)
          (fun w' => I w'.toCopies) (fun _ => H)) :
    Triple P (m.draft k)
      (fun d s =>
        match d with
        | .early _ => H s
        | .closing _ w => I w.toCopies s)
      (fun _ => H) := by
  exact m.draft_triple (F := fun o => F ⟨o, o⟩) (E := H)
    hFetch (fun _ _ hF => hFetched hF)
    (fun _ _ rs hF => hReported rs hF)
    (fun _ rs hH => hUpholds.haltReported rs hH)
    (fun _ _ hH => hH) (fun _ _ hH => hH)
    (fun o now _ =>
      .bind (hTokens (Work.fresh o now))
        (fun _ => hUpholds.draftSteps))

------------------------------------------------------------
-- Invariants of the Close
------------------------------------------------------------

/-
  An invariant survives the status write as well.  What the
  removal of the refresh label leaves behind is the end.
-/
structure UpholdsClose
    (m : Manager μ)
    (I : Copies → Session μ → Prop)
    (H : Session μ → Prop) : Prop
    extends Upholds m I H where
  written :
    ∀ {c},
      m.readOnly = false → c.obj.status ≠ c.snapshot.status →
        Triple
          (fun s => I c s ∧ s.scene.cancelled = false)
          (sendStatus c.obj)
          (fun r s =>
            match r with
            | .ok stored =>
                I ⟨c.obj.withVersion
                    stored.metadata.resourceVersion,
                  c.snapshot.withVersion
                    stored.metadata.resourceVersion⟩ s
            | .error _ => I c s)
          (fun _ => H)
  cleared :
    ∀ {c},
      m.readOnly = false →
        Triple
          (fun s => I c s ∧ s.scene.cancelled = false)
          (sendPatch
            (c.snapshot.mapMetadata (·.removeRefreshLabel))
            c.snapshot)
          (fun _ => H) (fun _ => H)

namespace UpholdsClose

/- The status is written, or there is no reason to. -/
theorem persistStatus
    (hUpholds : m.UpholdsClose I H)
    {w : Work} :
    Triple (I w.toCopies) (m.persistStatus w)
      (fun r s =>
        match r with
        | .ok w' => I w'.toCopies s
        | .error _ => H s)
      (fun _ => H) := by
  refine m.persistStatus_triple
    (W := fun r s =>
      match r with
      | .ok stored =>
          I ⟨w.obj.withVersion
              stored.metadata.resourceVersion,
            w.snapshot.withVersion
              stored.metadata.resourceVersion⟩ s
      | .error _ => I w.toCopies s)
    (fun _ hI => hUpholds.resumed hI)
    (fun _ _ hI => hI)
    (fun _ hI _ => hUpholds.halts hI)
    (fun hWritable hDiffers =>
      hUpholds.written hWritable hDiffers)
    ?_ (fun _ _ hI => hI) (fun _ _ _ _ hI => hI)
    (fun _ _ _ hI => hUpholds.halts hI)
  intro r s rs hI
  cases r with
  | ok stored => exact hUpholds.reported rs hI
  | error e => exact hUpholds.reported rs hI

/- The refresh label is dropped, if there is one. -/
theorem clearRefreshLabel
    (hUpholds : m.UpholdsClose I H)
    {w : Work} :
    Triple (I w.toCopies) (m.clearRefreshLabel w)
      (fun _ => H) (fun _ => H) := by
  refine m.clearRefreshLabel_triple (E := fun _ => H)
    (fun _ hI => hUpholds.resumed hI)
    (fun _ _ hI => hUpholds.halts hI)
    (fun _ _ hI _ => hUpholds.halts hI)
    ?_ (fun _ _ rs hH => hUpholds.haltReported rs hH)
    (fun _ _ hH => hH)
  intro hWritable _
  refine (hUpholds.cleared hWritable).mono (fun _ hI => hI)
    ?_ (fun _ _ hH => hH)
  intro r s hH
  cases r with
  | ok _ => exact hH
  | error _ => exact hH

/- The second part of a reconcile. -/
theorem finish
    (hUpholds : m.UpholdsClose I H)
    {d : Draft} :
    Triple
      (fun s =>
        match d with
        | .early _ => H s
        | .closing _ w => I w.toCopies s)
      (m.finish d) (fun _ => H) (fun _ => H) := by
  cases d with
  | early _ => exact .pure (fun _ hH => hH)
  | closing e w =>
      cases e with
      | completed _ =>
          refine .bind hUpholds.persistStatus ?_
          intro r
          cases r with
          | error e => exact .fail (fun _ hH => hH)
          | ok w =>
              dsimp only
              split
              · exact .bind hUpholds.clearRefreshLabel
                  (fun _ => .pure (fun _ hH => hH))
              · exact .pure (fun _ hI => hUpholds.halts hI)
      | retry _ _ _ _ =>
          refine .bind hUpholds.persistStatus ?_
          intro r
          refine .fail ?_
          intro s hI
          cases r with
          | error e => exact hI
          | ok w => exact hUpholds.halts hI

/- All that a run does once its tokens are there. -/
theorem runSteps
    (hUpholds : m.UpholdsClose I H)
    {c : Context}
    {w : Work} :
    Triple (I w.toCopies) (m.runSteps c w)
      (fun _ => H) (fun _ => H) := by
  rw [m.runSteps_eq_draft_finish c w]
  refine .bind hUpholds.draftSteps ?_
  intro d
  cases d with
  | early why => exact hUpholds.finish (d := .early why)
  | closing e w => exact hUpholds.finish (d := .closing e w)

end UpholdsClose

end Parts

end Manager

end Reconciler
