import Reconciler.Proofs.Engine.Abreast
import Reconciler.Proofs.Engine.Protection
import Reconciler.Proofs.Engine.Unopposed

/-
  This file runs a read-only manager abreast with one that
  writes.

  Hook and steps of the two see nothing of an object but its
  kind and status.  The working copies drift apart: one
  takes tokens and versions that the other does not.  Still
  all calls are made in the same order, with the same status
  at hand, since the tokens that are left say the same of
  the steps that are still to come.

  Key definitions include:
    * `Event.isTurn`
    * `Manager.recast`
    * `Manager.Alike`
    * `Manager.Shadows`

  Key theorems include:
    * `Manager.Shadows.resume`
    * `Manager.executeStep_shadows`
    * `Manager.runChain_shadows`
-/

------------------------------------------------------------
-- Turns
------------------------------------------------------------

namespace Reconciler

variable {μ ν : Type}

/-
  Whether an event is a turn of the run: a call of the hook
  or of an entry point, its end, or the result of a step.
-/
def Event.isTurn : Event → Bool
  | .hookCalled => true
  | .processCalled _ => true
  | .finalizeCalled _ => true
  | .returned => true
  | .executed _ _ => true
  | _ => false

/- The turns of a journal, oldest first. -/
def Journal.turns
    (j : List (Moment μ)) : List (Moment μ) :=
  j.filter (·.event.isTurn)

theorem Journal.turns_append
    (j j' : List (Moment μ)) :
    turns (j ++ j') = turns j ++ turns j' :=
  List.filter_append j j'

theorem Journal.turns_singleton
    (mo : Moment μ) :
    turns [mo] = if mo.event.isTurn then [mo] else [] :=
  List.filter_singleton.trans (Bool.cond_eq_ite _ _ _)

/- Two moments with the same event, at scenes alike. -/
structure Moment.Like
    (V : μ → ν → Prop)
    (mo : Moment μ)
    (mo' : Moment ν) : Prop where
  event : mo'.event = mo.event
  scenes : mo.scene.Like V mo'.scene

------------------------------------------------------------
-- Copies that Drift Apart
------------------------------------------------------------

/- An object with the kind and the status of another one. -/
structure Object.Agrees
    (o o' : Object) : Prop where
  kind : o'.kind = o.kind
  status : o'.status = o.status

/- Tokens and version are no part of that. -/
theorem Object.agrees_retokened
    (o : Object)
    (fs : List String)
    (version : Option String) :
    o.Agrees (o.retokened fs version) :=
  ⟨rfl, rfl⟩

/-
  Two objects that agree and have kept their metadata differ
  in tokens and version as those before them.
-/
theorem Object.Agrees.eq_retokened
    {o o' base : Object}
    {fs : List String}
    {version : Option String}
    (hAgrees : o.Agrees o')
    (hLeft : o.metadata = base.metadata)
    (hRight :
      o'.metadata = (base.retokened fs version).metadata) :
    o' = o.retokened fs version := by
  rcases o with ⟨kind, metadata, status⟩
  rcases o' with ⟨kind', metadata', status'⟩
  cases hAgrees.kind
  cases hAgrees.status
  have hLeft : metadata = base.metadata := hLeft
  have hRight :
      metadata' = (base.retokened fs version).metadata :=
    hRight
  rw [hLeft, hRight]
  rfl

/- Work whose copies have other tokens, at another version. -/
def Work.retokened
    (fs : List String)
    (version : Option String)
    (w : Work) : Work :=
  { w with
    obj := w.obj.retokened fs version
    snapshot := w.snapshot.retokened fs version }

------------------------------------------------------------
-- Managers that are Alike
------------------------------------------------------------

/- Hooks that see no more than kind and status. -/
def Hook.Like
    (V : μ → ν → Prop)
    (f : Hook μ)
    (g : Hook ν) : Prop :=
  ∀ c o o', o.Agrees o' → Call.Like V Eq (f c o) (g c o')

/- The same result, with objects that agree. -/
def StepResult.Agrees
    (r r' : StepResult × Object) : Prop :=
  r'.1 = r.1 ∧ r.2.Agrees r'.2

/-
  Steps with the same tokens on every object, whose calls
  see no more than kind and status.
-/
structure Step.Like
    (V : μ → ν → Prop)
    (p : Step μ)
    (q : Step ν) : Prop where
  name : q.name = p.name
  tokens : ∀ o o', q.tokens o' = p.tokens o
  process :
    ∀ c o o', o.Agrees o' →
      Call.Like V StepResult.Agrees (p.process c o)
        (q.process c o')
  finalize :
    ∀ c o o', o.Agrees o' →
      Call.Like V StepResult.Agrees (p.finalize c o)
        (q.finalize c o')

namespace Manager

open Engine

/-
  A manager with another hook and other steps, which may
  remember other things, and which may write or not.
-/
def recast
    (m : Manager μ)
    (hook : Option (Hook ν))
    (steps : List (Step ν))
    (readOnly : Bool) : Manager ν where
  operator := m.operator
  controller := m.controller
  kind := m.kind
  steps := steps
  conditions := m.conditions
  scheduler := m.scheduler
  hook := hook
  reporter := m.reporter
  policy := m.policy
  readOnly := readOnly
  trackLast := m.trackLast

/- A hook and steps that are like those of a manager. -/
structure HasLike
    (V : μ → ν → Prop)
    (m : Manager μ)
    (hook : Option (Hook ν))
    (steps : List (Step ν)) : Prop where
  hook : Option.Rel (Hook.Like V) m.hook hook
  steps : List.Forall₂ (Step.Like V) m.steps steps

------------------------------------------------------------
-- Runs that are Alike
------------------------------------------------------------

/-
  Two runs have reported and drawn the same, and have taken
  the same turns since their starts.
-/
structure Alike
    (V : μ → ν → Prop)
    (start : Session μ)
    (start' : Session ν)
    (s : Session μ)
    (t : Session ν) : Prop where
  reports : t.reports = s.reports
  draws : t.draws = s.draws
  turns :
    ∃ new new',
      s.journal = start.journal ++ new ∧
        t.journal = start'.journal ++ new' ∧
          List.Forall₂ (Moment.Like V) (Journal.turns new)
            (Journal.turns new')

section Alike

variable {V : μ → ν → Prop}
variable {start s : Session μ}
variable {start' t : Session ν}

/- Two sessions that start alike. -/
theorem Alike.refl
    (hReports : start'.reports = start.reports)
    (hDraws : start'.draws = start.draws) :
    Alike V start start' start start' where
  reports := hReports
  draws := hDraws
  turns := ⟨[], [], by simp, by simp, .nil⟩

/- Further moments, among which the turns are alike. -/
theorem Alike.extend
    {s' : Session μ}
    {t' : Session ν}
    (hAlike : Alike V start start' s t)
    (more : List (Moment μ))
    (more' : List (Moment ν))
    (hLeft : s'.journal = s.journal ++ more)
    (hRight : t'.journal = t.journal ++ more')
    (hReports : t'.reports = s'.reports)
    (hDraws : t'.draws = s'.draws)
    (hMore :
      List.Forall₂ (Moment.Like V) (Journal.turns more)
        (Journal.turns more')) :
    Alike V start start' s' t' where
  reports := hReports
  draws := hDraws
  turns := by
    rcases hAlike.turns with
      ⟨new, new', hOld, hOld', hTurns⟩
    refine ⟨new ++ more, new' ++ more', ?_, ?_, ?_⟩
    · rw [hLeft, hOld, List.append_assoc]
    · rw [hRight, hOld', List.append_assoc]
    · rw [Journal.turns_append, Journal.turns_append]
      exact List.rel_append hTurns hMore

/- The same event on both sides. -/
theorem Alike.moveTo
    {a : Scene μ}
    {b : Scene ν}
    (hAlike : Alike V start start' s t)
    (e : Event)
    (hScenes : a.Like V b) :
    Alike V start start' (s.moveTo e a) (t.moveTo e b) := by
  refine hAlike.extend [⟨e, a⟩] [⟨e, b⟩] rfl rfl
    hAlike.reports hAlike.draws ?_
  rw [Journal.turns_singleton, Journal.turns_singleton]
  dsimp only
  split
  · exact .cons ⟨rfl, hScenes⟩ .nil
  · exact .nil

/- An event on the left that is no turn. -/
theorem Alike.left
    {e : Event}
    (hAlike : Alike V start start' s t)
    (hOther : e.isTurn = false)
    (scene : Scene μ) :
    Alike V start start' (s.moveTo e scene) t := by
  refine hAlike.extend [⟨e, scene⟩] [] rfl
    t.journal.append_nil.symm hAlike.reports hAlike.draws ?_
  rw [Journal.turns_singleton]
  dsimp only
  rw [hOther]
  exact .nil

/- An event on the right that is no turn. -/
theorem Alike.right
    {e : Event}
    (hAlike : Alike V start start' s t)
    (hOther : e.isTurn = false)
    (scene : Scene ν) :
    Alike V start start' s (t.moveTo e scene) := by
  refine hAlike.extend [] [⟨e, scene⟩]
    s.journal.append_nil.symm rfl hAlike.reports
    hAlike.draws ?_
  rw [Journal.turns_singleton]
  dsimp only
  rw [hOther]
  exact .nil

/- Other tasks take no turn. -/
theorem Alike.resumeRight
    (hAlike : Alike V start start' s t) :
    Alike V start start' s t.resume :=
  Session.resume_keeps
    (fun _ _ => { hAlike with })
    (fun _ _ _ h => h.right rfl _)

theorem Alike.resumeLeft
    (hAlike : Alike V start start' s t) :
    Alike V start start' s.resume t :=
  Session.resume_keeps
    (P := fun s => Alike V start start' s t)
    (fun _ _ => { hAlike with })
    (fun _ _ _ h => h.left rfl _)

/- Both report the same. -/
theorem Alike.reported
    (hAlike : Alike V start start' s t)
    (rs : List Report) :
    Alike V start start'
      { s with reports := s.reports ++ rs }
      { t with reports := t.reports ++ rs } where
  reports := congrArg (· ++ rs) hAlike.reports
  draws := hAlike.draws
  turns := hAlike.turns

/- Both draw the same. -/
theorem Alike.drawn
    (hAlike : Alike V start start' s t)
    (n : Nat) :
    Alike V start start' { s with draws := n }
      { t with draws := n } where
  reports := hAlike.reports
  draws := rfl
  turns := hAlike.turns

end Alike

/-
  A run that writes nothing shadows one that does.  Its work
  is that of the other but for tokens and version, and of a
  step that is still to come both copies carry the same
  tokens if the object is being deleted.
-/
structure Shadows
    (V : μ → ν → Prop)
    (k : Key)
    (o : Object)
    (start : Session μ)
    (start' : Session ν)
    (rest : List (Step ν))
    (w v : Work)
    (s : Session μ)
    (t : Session ν) : Prop where
  alike : Alike V start start' s t
  level : s.Like V t
  work : ∃ fs version, v = w.retokened fs version
  inStep : InStep k o start' v t
  owned :
    o.isDeleting = true →
      ∀ q ∈ rest, ∀ token ∈ q.tokens o,
        (token ∈ v.obj.metadata.finalizers ↔
          token ∈ w.obj.metadata.finalizers)

section Shadows

variable {V : μ → ν → Prop}
variable {m : Manager μ}
variable {hook : Option (Hook ν)}
variable {steps rest : List (Step ν)}
variable {k : Key}
variable {o : Object}
variable {start s : Session μ}
variable {start' t : Session ν}
variable {w v : Work}

theorem Shadows.resume
    (hShadows : Shadows V k o start start' rest w v s t) :
    Shadows V k o start start' rest w v s.resume
      t.resume where
  alike := hShadows.alike.resumeRight.resumeLeft
  level := hShadows.level.resume
  work := hShadows.work
  inStep := hShadows.inStep.resume
  owned := hShadows.owned

/- Both report the same. -/
theorem Shadows.reported
    (hShadows : Shadows V k o start start' rest w v s t)
    (rs : List Report) :
    Shadows V k o start start' rest w v
      { s with reports := s.reports ++ rs }
      { t with reports := t.reports ++ rs } where
  alike := hShadows.alike.reported rs
  level :=
    { scenes := hShadows.level.scenes
      others := hShadows.level.others }
  work := hShadows.work
  inStep := hShadows.inStep.aside (t.reports ++ rs) t.draws
  owned := hShadows.owned

/- Both draw the same. -/
theorem Shadows.drawn
    (hShadows : Shadows V k o start start' rest w v s t)
    (n : Nat) :
    Shadows V k o start start' rest w v
      { s with draws := n } { t with draws := n } where
  alike := hShadows.alike.drawn n
  level :=
    { scenes := hShadows.level.scenes
      others := hShadows.level.others }
  work := hShadows.work
  inStep := hShadows.inStep.aside t.reports n
  owned := hShadows.owned

/- The same event on both sides, which is no store operation. -/
theorem Shadows.idle
    {a : Scene μ}
    {b : Scene ν}
    (hShadows : Shadows V k o start start' rest w v s t)
    (e : Event)
    (hScenes : a.Like V b)
    (hObjects : b.store.objects = t.scene.store.objects)
    (hQuiet : b.store.Quiet)
    (hSmooth : (⟨e, b⟩ : Moment ν).Smooth k) :
    Shadows V k o start start' rest w v (s.moveTo e a)
      (t.moveTo e b) where
  alike := hShadows.alike.moveTo e hScenes
  level := hShadows.level.moveTo e e hScenes
  work := hShadows.work
  inStep := hShadows.inStep.idle e hObjects hQuiet hSmooth
  owned := hShadows.owned

/- An event that both runs note. -/
theorem Shadows.note
    {e : Event}
    (hShadows : Shadows V k o start start' rest w v s t)
    (hTurn : e.isTurn = true) :
    Shadows V k o start start' rest w v (s.note e)
      (t.note e) := by
  refine hShadows.idle e hShadows.level.scenes rfl
    hShadows.inStep.peace.quiet ?_
  cases e <;> trivial

/- Work in which no metadata have changed. -/
theorem Shadows.edited
    {w' v' : Work}
    (hShadows : Shadows V k o start start' rest w v s t)
    (hWork : ∃ fs version, v' = w'.retokened fs version)
    (hLeft : w'.obj.metadata = w.obj.metadata)
    (hRight : v'.obj.metadata = v.obj.metadata)
    (hSnapshot : v'.snapshot = v.snapshot)
    (hDeleting : v'.deleting = v.deleting) :
    Shadows V k o start start' rest w' v' s t where
  alike := hShadows.alike
  level := hShadows.level
  work := hWork
  inStep :=
    { deleting := hDeleting.trans hShadows.inStep.deleting
      mirrors :=
        { own := by
            rw [hRight, hSnapshot]
            exact hShadows.inStep.mirrors.own
          snapshot := by
            rw [hSnapshot]
            exact hShadows.inStep.mirrors.snapshot
          holds := by
            rw [hSnapshot]
            exact hShadows.inStep.mirrors.holds
          undisturbed :=
            hShadows.inStep.mirrors.undisturbed }
      peace := hShadows.inStep.peace }
  owned := by
    rw [hLeft, hRight]
    exact hShadows.owned

------------------------------------------------------------
-- Conditions and Reports
------------------------------------------------------------

/-
  Conditions are updated in the same way, whatever tokens and
  version are.
-/
theorem updateConditions_shadows
    {update :
      Instant → Metadata → List Condition →
        List Condition}
    {readOnly : Bool}
    (hBlind :
      ∀ fs version i cs,
        update i (w.obj.retokened fs version).metadata cs =
          update i w.obj.metadata cs) :
    Abreast (Shadows V k o start start' rest w v)
      (m.updateConditions update w)
      ((m.recast hook steps readOnly).updateConditions
        update v)
      (fun w' v' => Shadows V k o start start' rest w' v')
      (Alike V start start') := by
  refine .fact (fun _ _ h => h.work) ?_
  rintro ⟨fs, version, rfl⟩
  unfold updateConditions
  have hKeeps :
      (m.recast hook steps readOnly).keepsConditions
          (w.retokened fs version).obj =
        m.keepsConditions w.obj :=
    rfl
  rw [hKeeps]
  split
  · refine .bind
      (.clock
        (Q := fun i j s t =>
          i = j ∧
            Shadows V k o start start' rest w
              (w.retokened fs version) s t)
        (fun _ _ h => h.level.scenes.clock)
        (fun _ _ _ h => ⟨rfl, h⟩) (fun _ _ h => h.alike)) ?_
    intro i j
    refine .assume ?_
    rintro rfl
    refine .pure (fun s t h => ?_)
    have hSame :
        update i (w.retokened fs version).obj.metadata
            (w.retokened fs version).obj.status.conditions =
          update i w.obj.metadata w.obj.status.conditions :=
      hBlind fs version i w.obj.status.conditions
    refine h.edited ⟨fs, version, ?_⟩ rfl rfl rfl rfl
    rw [hSame]
    rfl
  · exact .pure (fun _ _ h => h)

theorem seedCondition_shadows
    {type : String}
    {seed :
      Instant → Metadata → List Condition →
        List Condition}
    {readOnly : Bool}
    (hBlind :
      ∀ fs version i cs,
        seed i (w.obj.retokened fs version).metadata cs =
          seed i w.obj.metadata cs) :
    Abreast (Shadows V k o start start' rest w v)
      (m.seedCondition type seed w)
      ((m.recast hook steps readOnly).seedCondition type
        seed v)
      (fun w' v' => Shadows V k o start start' rest w' v')
      (Alike V start start') := by
  refine .fact (fun _ _ h => h.work) ?_
  rintro ⟨fs, version, rfl⟩
  unfold seedCondition
  have hStatus :
      (w.retokened fs version).obj.status.conditions =
        w.obj.status.conditions :=
    rfl
  rw [hStatus]
  split
  · exact .pure (fun _ _ h => h)
  · exact updateConditions_shadows hBlind

/- The same report on both sides. -/
theorem emit_shadows
    {r : Report}
    {readOnly : Bool} :
    Abreast (Shadows V k o start start' rest w v)
      (m.emit r) ((m.recast hook steps readOnly).emit r)
      (fun _ _ => Shadows V k o start start' rest w v)
      (Alike V start start') := by
  exact .update (fun _ _ h => h.reported _)

/- A failure is reported by both runs, or by none. -/
theorem report_shadows
    {f : Failure}
    {step : Option String}
    {readOnly : Bool} :
    Abreast (Shadows V k o start start' rest w v)
      (m.report f w.snapshot step)
      ((m.recast hook steps readOnly).report f v.snapshot
        step)
      (fun _ _ => Shadows V k o start start' rest w v)
      (Alike V start start') := by
  refine .fact (fun _ _ h => h.work) ?_
  rintro ⟨fs, version, rfl⟩
  unfold report
  dsimp only
  have hPolicy :
      (m.recast hook steps readOnly).policy.allows
          (w.retokened fs version).snapshot.metadata.generation
          (w.retokened fs version).snapshot.observedGeneration?
        =
        m.policy.allows w.snapshot.metadata.generation
          w.snapshot.observedGeneration? :=
    rfl
  have hReport :
      Report.capture? f
          ((m.recast hook steps readOnly).tags
            (w.retokened fs version).snapshot step)
          [("generation",
            .int (w.retokened fs
              version).snapshot.metadata.generation.toInt)]
        =
        Report.capture? f (m.tags w.snapshot step)
          [("generation",
            .int w.snapshot.metadata.generation.toInt)] :=
    rfl
  rw [hPolicy, hReport]
  split
  · split
    · exact emit_shadows
    · exact .pure (fun _ _ h => h)
  · exact .pure (fun _ _ h => h)

theorem reportStepError_shadows
    {step : String}
    {result : StepResult}
    {readOnly : Bool} :
    Abreast (Shadows V k o start start' rest w v)
      (m.reportStepError step result w.snapshot)
      ((m.recast hook steps readOnly).reportStepError step
        result v.snapshot)
      (fun _ _ => Shadows V k o start start' rest w v)
      (Alike V start start') := by
  unfold reportStepError
  split
  · split
    · exact report_shadows
    · exact .pure (fun _ _ h => h)
  · exact .pure (fun _ _ h => h)

------------------------------------------------------------
-- Tokens
------------------------------------------------------------

/- The steps that are still to come become fewer. -/
theorem Shadows.fewer
    {rest' : List (Step ν)}
    (hShadows : Shadows V k o start start' rest w v s t)
    (hFewer : ∀ q ∈ rest', q ∈ rest) :
    Shadows V k o start start' rest' w v s t where
  alike := hShadows.alike
  level := hShadows.level
  work := hShadows.work
  inStep := hShadows.inStep
  owned := fun hDeleting q hMember =>
    hShadows.owned hDeleting q (hFewer q hMember)

/-
  A patch of tokens by the run that writes succeeds, and
  shows in tokens and version only.
-/
theorem Shadows.sendTokens
    {rest' : List (Step ν)}
    {new : List String}
    (hKey : o.key = k)
    (hChanged : new ≠ v.obj.metadata.finalizers)
    (hStays :
      o.isDeleting = false ∨
        ∃ token, token ∈ v.obj.metadata.finalizers)
    (hOwned :
      ∀ t, Shadows V k o start start' rest w v s t →
        o.isDeleting = true →
          ∀ q ∈ rest', ∀ token ∈ q.tokens o,
            (token ∈ new ↔
              token ∈ w.obj.metadata.finalizers)) :
    Triple (Shadows V k o start start' rest w v s)
      (Engine.sendTokens { v.toCopies with
        obj := v.obj.withFinalizers new })
      (fun r t =>
        ∃ sent copies,
          r = (.ok sent, copies) ∧
            Shadows V k o start start' rest' w
              { v with toCopies := copies } s t)
      (fun _ _ => False) := by
  refine sendTokens_triple ?_ ?_
  · intro t stored store h hRun
    have hRun :
        Store.patch (v.snapshot.withFinalizers new) v.snapshot
            t.scene.store =
          (.ok stored, store) :=
      hRun
    rcases h.inStep.mirrors.patch_cases hKey hChanged hRun with
      ⟨_, hError, _⟩ | ⟨_, hOk, _, hMoved⟩
    · cases hError
    · cases hOk
      have hQuiet := h.inStep.peace.quiet.afterPatch
        (v.snapshot.withFinalizers new) v.snapshot
      rw [hRun] at hQuiet
      rcases h.work with ⟨fs, version, rfl⟩
      refine ⟨_, _, rfl, ?_⟩
      exact
        { alike := h.alike.right rfl _
          level := h.level.moveRight _
            (h.level.scenes.withStores s.scene.store store)
          work := ⟨_, _, rfl⟩
          inStep :=
            { deleting := h.inStep.deleting
              mirrors := hMoved _
              peace := h.inStep.peace.moveTo _ hQuiet
                trivial }
          owned := hOwned t h }
  · intro t e store h hRun
    rcases h.inStep.mirrors.patch_cases hKey hChanged hRun with
      ⟨_, _, _, hQueued⟩ | ⟨_, hOk, _⟩
    · exact absurd h.inStep.peace.quiet.patch
        (hQueued (h.inStep.stored hStays))
    · cases hOk

/- A read-only manager takes no tokens off. -/
theorem removeTokens_readOnly
    (p : Step μ)
    (c : Copies) :
    removeTokens true p c =
      (pure (.ok false, c) :
        Engine μ (Except StoreError Bool × Copies)) :=
  rfl

/-
  The tokens of a step come off in one run and stay in the
  other; no step that is still to come declares them.
-/
theorem releaseTokens_shadows
    {p : Step μ}
    {q : Step ν}
    (hReadOnly : m.readOnly = true)
    (hKey : o.key = k)
    (hConstant : ∀ o', q.tokens o' = q.tokens o)
    (hApart :
      ∀ q' ∈ rest, (q.tokens o).Disjoint (q'.tokens o)) :
    Abreast (Shadows V k o start start' (q :: rest) w v)
      (m.releaseTokens p w)
      ((m.recast hook steps false).releaseTokens q v)
      (fun w' v' => Shadows V k o start start' rest w' v')
      (Alike V start start') := by
  have hTail :
      ∀ {w v : Work} {s t},
        Shadows V k o start start' (q :: rest) w v s t →
          Shadows V k o start start' rest w v s t :=
    fun h => h.fewer (fun _ => List.mem_cons_of_mem q)
  have hSent :
      ∀ s,
        Triple (Shadows V k o start start' (q :: rest) w v s)
          (removeTokens false q v.toCopies)
          (fun r t =>
            ∃ sent copies,
              r = (.ok sent, copies) ∧
                Shadows V k o start start' rest w
                  { v with toCopies := copies } s t)
          (fun _ _ => False) := by
    intro s
    unfold removeTokens
    split
    · exact .pure (fun t h => ⟨_, _, rfl, hTail h⟩)
    · next hOwns =>
        have hOwns : q.owns v.obj = true := by
          simpa using hOwns
        rcases (Tokens.owns_iff q v.obj).mp hOwns with
          ⟨token, hToken, hHas⟩
        dsimp only
        rw [Tokens.removeAll_eq]
        refine Shadows.sendTokens hKey
          (Tokens.without_ne hToken hHas) (.inr ⟨_, hHas⟩) ?_
        intro t h hDeleting q' hMember token' hToken'
        rw [Tokens.mem_without, hConstant v.obj]
        have hOther : token' ∉ q.tokens o := fun hOwn =>
          hApart q' hMember hOwn hToken'
        rw [and_iff_left hOther]
        exact (hTail h).owned hDeleting q' hMember token'
          hToken'
  unfold releaseTokens
  rw [hReadOnly, removeTokens_readOnly]
  refine .bind
    (Q := fun a b s t =>
      a = (.ok false, w.toCopies) ∧
        ∃ sent copies,
          b = (.ok sent, copies) ∧
            Shadows V k o start start' rest w
              { v with toCopies := copies } s t)
    (.await
      (M := Shadows V k o start start' (q :: rest) w v)
      (fun _ _ h => h.resume) (fun _ _ h => h.level.scenes)
      (.map (.right (fun s => (hSent s).mono (fun _ h => h)
        (fun _ _ h => ⟨rfl, h⟩) (fun _ _ h => h))))) ?_
  rintro a b
  refine .assume ?_
  rintro rfl
  refine .named (fun sent => .named (fun copies => .assume ?_))
  rintro rfl
  exact .pure (fun _ _ h => h)

------------------------------------------------------------
-- The Chain
------------------------------------------------------------

/-
  Of a step that is still to come either both working copies
  carry a token or none does.
-/
theorem Shadows.owns_eq
    {p : Step μ}
    {q : Step ν}
    (hShadows :
      Shadows V k o start start' (q :: rest) w v s t)
    (hLike : Step.Like V p q)
    (hDeleting : o.isDeleting = true) :
    q.owns v.obj = p.owns w.obj := by
  have hTokens : p.tokens w.obj = q.tokens o :=
    (hLike.tokens _ _).symm
  have hTokens' : q.tokens v.obj = q.tokens o :=
    (hLike.tokens o _).trans (hLike.tokens o _).symm
  have hOwned :=
    hShadows.owned hDeleting q List.mem_cons_self
  rw [Bool.eq_iff_iff, Tokens.owns_iff, Tokens.owns_iff,
    hTokens, hTokens']
  constructor
  · rintro ⟨token, hToken, hHas⟩
    exact ⟨token, hToken, (hOwned token hToken).mp hHas⟩
  · rintro ⟨token, hToken, hHas⟩
    exact ⟨token, hToken, (hOwned token hToken).mpr hHas⟩

/- The end of a call that both runs have made. -/
theorem Shadows.returned
    {α : Type}
    {y : Call ν α}
    {a : Scene μ}
    {b : Scene ν}
    {r : α}
    (hShadows : Shadows V k o start start' rest w v s t)
    (hKeeps : y.KeepsObjects)
    (hQuiet : y.KeepsQuiet)
    (hRun : y t.scene = .ok r b)
    (hScenes : a.Like V b) :
    Shadows V k o start start' rest w v
      (s.moveTo .returned a) (t.moveTo .returned b) := by
  have hObjects := hKeeps t.scene
  have hSilent := hQuiet t.scene
  rw [hRun] at hObjects hSilent
  exact hShadows.idle .returned hScenes hObjects
    (hSilent hShadows.inStep.peace.quiet) trivial

/- A step hands back copies that agree. -/
theorem Shadows.handed
    {r r' : StepResult × Object}
    (hShadows : Shadows V k o start start' rest w v s t)
    (hAgrees : StepResult.Agrees r r')
    (hLeft : r.2.metadata = w.obj.metadata)
    (hRight : r'.2.metadata = v.obj.metadata) :
    Shadows V k o start start' rest { w with obj := r.2 }
      { v with obj := r'.2 } s t := by
  rcases hShadows.work with ⟨fs, version, hWork⟩
  refine hShadows.edited ⟨fs, version, ?_⟩ hLeft hRight rfl rfl
  have hObject : r'.2 = r.2.retokened fs version := by
    refine hAgrees.2.eq_retokened hLeft ?_
    rw [hRight, hWork]
    rfl
  rw [hObject, hWork]
  rfl

/- What both runs have come to with a step. -/
def HandsBack
    (V : μ → ν → Prop)
    (k : Key)
    (o : Object)
    (start : Session μ)
    (start' : Session ν)
    (rest : List (Step ν))
    (w v : Work)
    (r r' : StepResult × Object × Bool)
    (s : Session μ)
    (t : Session ν) : Prop :=
  (r'.1 = r.1 ∧ r'.2.2 = r.2.2) ∧
    Shadows V k o start start' rest { w with obj := r.2.1 }
      { v with obj := r'.2.1 } s t

/- An entry point is called by both runs. -/
theorem callStep_shadows
    {x : Call μ (StepResult × Object)}
    {y : Call ν (StepResult × Object)}
    {e : Event}
    {finalized : Bool}
    (hTurn : e.isTurn = true)
    (hLike : Call.Like V StepResult.Agrees x y)
    (hKeeps : y.KeepsObjects)
    (hQuiet : y.KeepsQuiet)
    (hLeft :
      ∀ scene r scene', x scene = .ok r scene' →
        r.2.metadata = w.obj.metadata)
    (hRight :
      ∀ scene r scene', y scene = .ok r scene' →
        r.2.metadata = v.obj.metadata) :
    Abreast (Shadows V k o start start' rest w v)
      (do
        note e
        let ended ← call x
        return ended.map (fun r => (r.1, r.2, finalized)))
      (do
        note e
        let ended ← call y
        return ended.map (fun r => (r.1, r.2, finalized)))
      (Both (HandsBack V k o start start' rest w v))
      (Alike V start start') := by
  refine .bind
    (.note (Q := fun _ _ =>
      Shadows V k o start start' rest w v)
      (fun _ _ h => h.note hTurn)) ?_
  intro _ _
  refine .bind
    (Q := Both (fun r r' s t =>
      StepResult.Agrees r r' ∧
        Shadows V k o start start' rest
          { w with obj := r.2 } { v with obj := r'.2 } s t))
    (.call hLike (fun _ _ h => h.level.scenes) ?_ ?_) ?_
  · intro s t r r' a b h hLeftRun hRightRun hAgrees hScenes
    have hReturned :=
      h.returned hKeeps hQuiet hRightRun hScenes
    exact ⟨hAgrees, hReturned.handed hAgrees
      (hLeft _ r _ hLeftRun) (hRight _ r' _ hRightRun)⟩
  · exact fun _ _ _ _ h hScenes =>
      h.alike.moveTo .returned hScenes
  intro r r'
  refine .pure ?_
  intro s t h
  cases r with
  | none => exact h.elim
  | some r =>
      cases r' with
      | none => exact h.elim
      | some r' => exact ⟨⟨h.1.1, rfl⟩, h.2⟩

/- A step is processed, finalized or skipped by both runs. -/
theorem runStep_shadows
    {p : Step μ}
    {q : Step ν}
    {c : Context}
    (hBehave : m.StepsBehave)
    (hBehave' : (m.recast hook steps false).StepsBehave)
    (hQuiet : (m.recast hook steps false).StepsQuiet)
    (hLike : Step.Like V p q)
    (hLeft : p ∈ m.steps)
    (hRight : q ∈ steps) :
    Abreast (Shadows V k o start start' (q :: rest) w v)
      (runStep c p w.obj) (runStep c q v.obj)
      (Both
        (HandsBack V k o start start' (q :: rest) w v))
      (Alike V start start') := by
  refine .fact
    (p := v.obj.isDeleting = w.obj.isDeleting ∧
      w.obj.Agrees v.obj ∧
        (w.obj.isDeleting = true →
          q.owns v.obj = p.owns w.obj)) ?_ ?_
  · intro s t h
    rcases h.work with ⟨fs, version, hWork⟩
    have hSame : v.obj.isDeleting = w.obj.isDeleting := by
      rw [hWork]
      rfl
    have hAgrees : w.obj.Agrees v.obj := by
      rw [hWork]
      exact w.obj.agrees_retokened fs version
    refine ⟨hSame, hAgrees, fun hDeleting => ?_⟩
    refine h.owns_eq hLike ?_
    rw [← h.inStep.mirrors.isDeleting, hSame]
    exact hDeleting
  rintro ⟨hSame, hAgrees, hOwns⟩
  unfold runStep
  rw [hSame, hLike.name]
  split
  · refine callStep_shadows rfl (hLike.process c _ _ hAgrees)
      (hBehave'.process q hRight c _)
      (hQuiet.process q hRight c _) ?_ ?_
    · exact fun scene r scene' hRun =>
        hBehave.keeps p hLeft c _ scene r.1 r.2 scene'
          (.inl hRun)
    · exact fun scene r scene' hRun =>
        hBehave'.keeps q hRight c _ scene r.1 r.2 scene'
          (.inl hRun)
  · next hMark =>
      rw [hOwns (by simpa using hMark)]
      split
      · refine callStep_shadows rfl
          (hLike.finalize c _ _ hAgrees)
          (hBehave'.finalize q hRight c _)
          (hQuiet.finalize q hRight c _) ?_ ?_
        · exact fun scene r scene' hRun =>
            hBehave.keeps p hLeft c _ scene r.1 r.2 scene'
              (.inr hRun)
        · exact fun scene r scene' hRun =>
            hBehave'.keeps q hRight c _ scene r.1 r.2 scene'
              (.inr hRun)
      · exact .pure (fun _ _ h => ⟨⟨rfl, rfl⟩, h⟩)

/- One step of the chain, in both runs. -/
theorem executeStep_shadows
    {p : Step μ}
    {q : Step ν}
    {c : Context}
    (hReadOnly : m.readOnly = true)
    (hBehave : m.StepsBehave)
    (hBehave' : (m.recast hook steps false).StepsBehave)
    (hQuiet : (m.recast hook steps false).StepsQuiet)
    (hKey : o.key = k)
    (hLike : Step.Like V p q)
    (hLeft : p ∈ m.steps)
    (hRight : q ∈ steps)
    (hApart :
      ∀ q' ∈ rest, (q.tokens o).Disjoint (q'.tokens o)) :
    Abreast (Shadows V k o start start' (q :: rest) w v)
      (m.executeStep c p w)
      ((m.recast hook steps false).executeStep c q v)
      (fun r r' s t =>
        r'.1 = r.1 ∧
          Shadows V k o start start' rest r.2 r'.2 s t)
      (Alike V start start') := by
  refine .fact
    (p := Phase.ofMetadata v.obj.metadata =
      Phase.ofMetadata w.obj.metadata) ?_ ?_
  · intro s t h
    rcases h.work with ⟨fs, version, hWork⟩
    rw [hWork]
    rfl
  intro hPhase
  unfold executeStep
  dsimp only
  rw [hPhase, hLike.name]
  refine .bind
    (seedCondition_shadows (fun _ _ _ _ => rfl)) ?_
  intro seeded seeded'
  refine .bind
    (Q := HandsBack V k o start start' (q :: rest) seeded
      seeded')
    (.await
      (M := Shadows V k o start start' (q :: rest) seeded
        seeded')
      (fun _ _ h => h.resume) (fun _ _ h => h.level.scenes)
      (runStep_shadows hBehave hBehave' hQuiet hLike hLeft
        hRight)) ?_
  intro r r'
  rcases r with ⟨result, handed, finalized⟩
  rcases r' with ⟨result', handed', finalized'⟩
  refine .assume ?_
  rintro ⟨hResult, hFinalized⟩
  have hResult : result' = result := hResult
  have hFinalized : finalized' = finalized := hFinalized
  rw [hResult, hFinalized]
  dsimp only
  refine .bind
    (Q := fun _ _ =>
      Shadows V k o start start' (q :: rest)
        { seeded with
          obj := handed
          requeue := seeded.requeue.soonest result.requeue }
        { seeded' with
          obj := handed'
          requeue := seeded'.requeue.soonest result.requeue })
    (.note ?_) ?_
  · intro s t h
    have hNoted := h.note (e := .executed p.name result) rfl
    rcases hNoted.work with ⟨fs, version, hWork⟩
    refine hNoted.edited ⟨fs, version, ?_⟩ rfl rfl rfl rfl
    have hTallied := congrArg
      (fun work : Work =>
        { work with
          requeue := work.requeue.soonest result.requeue })
      hWork
    exact hTallied
  intro _ _
  refine .bind
    (updateConditions_shadows (fun _ _ _ _ => rfl)) ?_
  intro recorded recorded'
  refine .bind reportStepError_shadows ?_
  intro _ _
  split
  · refine .bind
      (releaseTokens_shadows hReadOnly hKey ?_ hApart) ?_
    · exact fun o' =>
        (hLike.tokens o o').trans (hLike.tokens o o).symm
    · exact fun _ _ => .pure (fun _ _ h => ⟨rfl, h⟩)
  · exact .pure (fun _ _ h =>
      ⟨rfl, h.fewer (fun _ => List.mem_cons_of_mem q)⟩)

end Shadows

end Manager

/- An end of a chain in the same way, with other work. -/
def ChainEnd.withWork
    (v : Work) : ChainEnd → ChainEnd
  | .completed _ => .completed v
  | .retry _ step requeue cause =>
      .retry v step requeue cause

namespace Manager

open Engine

section Chain

variable {V : μ → ν → Prop}
variable {m : Manager μ}
variable {hook : Option (Hook ν)}
variable {steps : List (Step ν)}
variable {k : Key}
variable {o : Object}
variable {start : Session μ}
variable {start' : Session ν}
variable {w v : Work}

/- Both runs count the same, whatever has failed. -/
theorem Shadows.tallied
    {rest : List (Step ν)}
    {s : Session μ}
    {t : Session ν}
    (hShadows : Shadows V k o start start' rest w v s t)
    (hasError : Bool) :
    Shadows V k o start start' rest
      { w with hasError := hasError }
      { v with hasError := hasError } s t := by
  rcases hShadows.work with ⟨fs, version, hWork⟩
  refine hShadows.edited ⟨fs, version, ?_⟩ rfl rfl rfl rfl
  rw [hWork]
  rfl

/- Both chains have come to the same end. -/
def EndsLike
    (V : μ → ν → Prop)
    (k : Key)
    (o : Object)
    (start : Session μ)
    (start' : Session ν)
    (e e' : ChainEnd)
    (s : Session μ)
    (t : Session ν) : Prop :=
  ∃ v,
    e' = e.withWork v ∧
      Shadows V k o start start' [] e.work v s t

/- The whole chain, by induction on its steps. -/
theorem runChain_shadows
    {c : Context}
    {left : List (Step μ)}
    {right : List (Step ν)}
    (hReadOnly : m.readOnly = true)
    (hBehave : m.StepsBehave)
    (hBehave' : (m.recast hook steps false).StepsBehave)
    (hQuiet : (m.recast hook steps false).StepsQuiet)
    (hKey : o.key = k)
    (hLike : List.Forall₂ (Step.Like V) left right)
    (hLeft : ∀ p ∈ left, p ∈ m.steps)
    (hRight : ∀ q ∈ right, q ∈ steps)
    (hApart :
      right.Pairwise (fun q q' =>
        (q.tokens o).Disjoint (q'.tokens o))) :
    Abreast (Shadows V k o start start' right w v)
      (m.runChain c left w)
      ((m.recast hook steps false).runChain c right v)
      (EndsLike V k o start start')
      (Alike V start start') := by
  induction hLike generalizing w v with
  | nil => exact .pure (fun _ _ h => ⟨v, rfl, h⟩)
  | @cons p q left right hFirst _ ih =>
      rcases List.pairwise_cons.mp hApart with
        ⟨hDisjoint, hApart⟩
      unfold runChain
      refine .bind
        (executeStep_shadows hReadOnly hBehave hBehave' hQuiet
          hKey hFirst (hLeft p List.mem_cons_self)
          (hRight q List.mem_cons_self) hDisjoint) ?_
      intro r r'
      rcases r with ⟨result, w'⟩
      rcases r' with ⟨result', v'⟩
      refine .assume ?_
      intro hResult
      have hResult : result' = result := hResult
      rw [hResult]
      have hGoesOn :
          ∀ {w v : Work},
            Abreast (Shadows V k o start start' right w v)
              (m.runChain c left w)
              ((m.recast hook steps false).runChain c right v)
              (EndsLike V k o start start')
              (Alike V start start') :=
        ih
          (fun p hMember =>
            hLeft p (List.mem_cons_of_mem _ hMember))
          (fun q hMember =>
            hRight q (List.mem_cons_of_mem _ hMember))
          hApart
      have hStops :
          ∀ {s t} {w v : Work},
            Shadows V k o start start' right w v s t →
              Shadows V k o start start' [] w v s t :=
        fun h => h.fewer (List.forall_mem_nil _)
      cases result with
      | proceed _ => exact hGoesOn
      | skipped _ => exact hGoesOn
      | stopChain _ _ =>
          exact .pure (fun _ _ h => ⟨_, rfl, hStops h⟩)
      | errorContinue _ =>
          exact hGoesOn.mono (fun _ _ h => h.tallied true)
            (fun _ _ _ _ h => h) (fun _ _ h => h)
      | errorStop _ _ =>
          exact .pure (fun _ _ h =>
            ⟨_, rfl, hStops (h.tallied true)⟩)
      | errorRetry _ _ =>
          rw [hFirst.name]
          exact .pure (fun _ _ h => ⟨_, rfl, hStops h⟩)

end Chain

end Manager

end Reconciler
