import Reconciler.Proofs.Engine.Conditions
import Reconciler.Proofs.Engine.Returns
import Reconciler.Proofs.Engine.Unhindered

/-
  This file follows a run on a live object through its
  chain, and tells what the results of the chain amount to.

  Nobody hinders the run, and the steps leave alone what the
  engine keeps.  Then the working copy tells the result of
  each executed step, whatever the steps after it do; a
  condition that is told is set again without a change.

  Key definitions include:
    * `Object.Tells`
    * `Verdict`
    * `Manager.Answered`
    * `Manager.SparesConditions`
    * `Manager.Progress`
    * `Manager.Recounts`

  Key theorems include:
    * `Object.Tells.set_eq`
    * `Manager.executeStep_progress`
    * `Manager.runChain_progress`
-/

------------------------------------------------------------
-- Told Conditions
------------------------------------------------------------

namespace Reconciler

namespace Object

/- What an object that has conditions holds of a type. -/
def condition?
    (type : String)
    (o : Object) : Option (Option Condition) :=
  o.conditions?.map (Conditions.find? type)

/- An object has a condition already, but for its time. -/
def Tells
    (o : Object)
    (c : Condition) : Prop :=
  ∃ cs,
    o.conditions? = some cs ∧
      Conditions.setChanges c cs = false

section Tells

variable {o o' : Object}
variable {c : Condition}

/- Only what is held of the type matters. -/
theorem Tells.congr
    (hTells : o.Tells c)
    (hSame : o'.condition? c.type = o.condition? c.type) :
    o'.Tells c := by
  rcases hTells with ⟨cs, hConditions, hUnchanged⟩
  unfold condition? at hSame
  rw [hConditions] at hSame
  rcases Option.map_eq_some_iff.mp hSame with
    ⟨cs', hConditions', hFound⟩
  exact ⟨cs', hConditions',
    (Conditions.setChanges_congr hFound).trans hUnchanged⟩

/- Metadata do not show in the conditions. -/
theorem Tells.retokened
    (hTells : o.Tells c)
    (fs : List String)
    (version : Option String) :
    (o.retokened fs version).Tells c :=
  hTells

/- The JSON form of an object keeps its conditions. -/
theorem conditions?_persisted
    (o : Object) :
    o.persisted.conditions? = o.conditions? := by
  rcases o with ⟨kind, m, s⟩
  cases kind <;> rfl

/- The time of a condition does not matter. -/
theorem Tells.dated
    (hTells : o.Tells c)
    (t : Instant) :
    o.Tells { c with lastTransition := t } :=
  hTells

/- Another object with the same conditions tells the same. -/
theorem Tells.moved
    (hTells : o.Tells c)
    (hHas : o'.has .conditions = true)
    (hSame : o'.status.conditions = o.status.conditions) :
    o'.Tells c := by
  rcases hTells with ⟨cs, hConditions, hUnchanged⟩
  refine ⟨cs, ?_, hUnchanged⟩
  have hAll : o'.conditions? = some o'.status.conditions :=
    if_pos hHas
  rw [hAll, hSame, (conditions?_eq_some hConditions).2]

/- A told condition is set without a change. -/
theorem Tells.set_eq
    (hTells : o.Tells c) :
    Conditions.set c o.status.conditions =
      o.status.conditions := by
  rcases hTells with ⟨cs, hConditions, hUnchanged⟩
  rw [(conditions?_eq_some hConditions).2]
  exact Conditions.set_of_unchanged hUnchanged

/- It is there, so that nothing is seeded. -/
theorem Tells.found
    (hTells : o.Tells c) :
    (Conditions.find? c.type o.status.conditions).isSome =
      true := by
  rcases hTells with ⟨cs, hConditions, hUnchanged⟩
  rw [(conditions?_eq_some hConditions).2]
  exact Conditions.isSome_of_unchanged hUnchanged

end Tells

end Object

namespace Conditions

/- The condition that records a readiness. -/
def ofReadiness
    (now : Instant)
    (m : Metadata)
    (r : Readiness) : Condition where
  type := readyType
  status := r.status
  reason := "Complete"
  message := r.message
  lastTransition := now
  observedGeneration := m.generation

/- The condition that records a result, at no time yet. -/
def recorded
    (m : Metadata)
    (r : Executed) : Condition :=
  ofResult .epoch m r.1 r.2

/-
  Of the metadata only the deletion mark and the generation
  show in the condition of a result.
-/
theorem ofResult_eq
    {m m' : Metadata}
    (hDeleting : m'.isDeleting = m.isDeleting)
    (hGeneration : m'.generation = m.generation)
    (now : Instant)
    (step : String)
    (result : StepResult) :
    ofResult now m' step result =
      { recorded m (step, result) with
        lastTransition := now } := by
  unfold recorded ofResult Phase.ofMetadata
  rw [hDeleting, hGeneration]

theorem recorded_congr
    {m m' : Metadata}
    (hDeleting : m'.isDeleting = m.isDeleting)
    (hGeneration : m'.generation = m.generation)
    (r : Executed) :
    recorded m' r = recorded m r :=
  ofResult_eq hDeleting hGeneration .epoch r.1 r.2

theorem ofReadiness_eq
    {m m' : Metadata}
    (hGeneration : m'.generation = m.generation)
    (now : Instant)
    (r : Readiness) :
    ofReadiness now m' r =
      { ofReadiness .epoch m r with
        lastTransition := now } := by
  unfold ofReadiness
  rw [hGeneration]

end Conditions

------------------------------------------------------------
-- Verdicts
------------------------------------------------------------

/- What the results of a chain amount to. -/
inductive Verdict where
  | completed (requeue : Duration) (hasError : Bool)
  | retry (step : String) (requeue : Duration)
      (cause : Failure)

namespace Verdict

/- The readiness of the object. -/
def readiness : Verdict → Readiness
  | .completed requeue hasError => .ofRun requeue hasError
  | .retry _ _ _ => .notReady

/- What the reconcile hands back. -/
def answer : Verdict → Except ReconcileError Duration
  | .completed requeue _ => .ok requeue
  | .retry step requeue cause =>
      .error (.step step requeue cause)

/-
  The verdict on results, from the requeue and the errors of
  those before them.
-/
def ofResults :
    List Executed → Duration → Bool → Verdict
  | [], requeue, hasError => .completed requeue hasError
  | (step, result) :: rest, requeue, hasError =>
      let requeue := requeue.soonest result.requeue
      match result with
      | .proceed _ => ofResults rest requeue hasError
      | .skipped _ => ofResults rest requeue hasError
      | .stopChain _ _ => .completed requeue hasError
      | .errorContinue _ => ofResults rest requeue true
      | .errorStop _ _ => .completed requeue true
      | .errorRetry e _ =>
          .retry step result.requeue e.failure

end Verdict

/- The verdict that a chain has ended with. -/
def ChainEnd.verdict : ChainEnd → Verdict
  | .completed w => .completed w.requeue w.hasError
  | .retry _ step requeue cause => .retry step requeue cause

variable {μ : Type}

/- A call that leaves the way clear if it hands back. -/
def Call.KeepsClear
    {α : Type}
    (x : Call μ α) : Prop :=
  ∀ scene a scene',
    scene.Clear → x scene = .ok a scene' → scene'.Clear

namespace Manager

open Engine

/-
  The results of a chain: steps answer in order, until one
  of them ends the chain.
-/
inductive Answered :
    List (Step μ) → List Executed → Prop where
  | done : Answered [] []
  | stops
      {step : Step μ}
      {result : StepResult}
      {rest : List (Step μ)}
      (hStops : result.outcome.continuesChain = false) :
      Answered (step :: rest) [(step.name, result)]
  | goesOn
      {step : Step μ}
      {result : StepResult}
      {rest : List (Step μ)}
      {results : List Executed}
      (hGoes : result.outcome.continuesChain = true)
      (hRest : Answered rest results) :
      Answered (step :: rest) ((step.name, result) :: results)

------------------------------------------------------------
-- Progress
------------------------------------------------------------

/- The types of the conditions kept on live objects. -/
def keptTypes
    (m : Manager μ) : List String :=
  readyType :: m.stepNames.map Phase.processing.conditionType

/-
  A step of a live object leaves alone the conditions that
  the engine keeps, if it keeps any.
-/
def SparesConditions
    (m : Manager μ) : Prop :=
  m.conditions = true →
    ∀ step ∈ m.steps, ∀ c o scene result o' scene',
      step.process c o scene = .ok (result, o') scene' →
        ∀ type ∈ m.keptTypes,
          o'.condition? type = o.condition? type

/- Hook and steps leave the way clear on live objects. -/
structure StepsClear
    (m : Manager μ) : Prop where
  hook :
    ∀ hook, m.hook = some hook →
      ∀ c o, (hook c o).KeepsClear
  process :
    ∀ step ∈ m.steps, ∀ c o,
      (step.process c o).KeepsClear

/-
  A run on a live object has put every declared token on it,
  and the working copy tells some of the conditions that are
  kept.
-/
structure Progress
    (m : Manager μ)
    (k : Key)
    (o : Object)
    (told : List Condition)
    (w : Work)
    (s : Session μ) : Prop where
  proceeds : Proceeds k o w s
  live : w.deleting = false
  armed :
    ∀ t ∈ Tokens.declared m.steps o,
      t ∈ w.obj.metadata.finalizers
  kept : m.conditions = true → w.obj.has .conditions = true
  named : ∀ c ∈ told, c.type ∈ m.keptTypes
  tells :
    m.conditions = true → ∀ c ∈ told, w.obj.Tells c

/- A run that came to no answer of its steps. -/
def Unanswered
    (h : Halt)
    (_ : Session μ) : Prop :=
  ∀ step requeue cause, h ≠ .failed (.step step requeue cause)

section Progress

variable {m : Manager μ}
variable {k : Key}
variable {o : Object}
variable {start s : Session μ}
variable {told told' : List Condition}
variable {w : Work}

theorem Progress.resume
    (hProgress : m.Progress k o told w s) :
    m.Progress k o told w s.resume :=
  { hProgress with proceeds := hProgress.proceeds.resume }

theorem Progress.aside
    (hProgress : m.Progress k o told w s)
    (rs : List Report)
    (n : Nat) :
    m.Progress k o told w
      { s with reports := rs, draws := n } :=
  { hProgress with
    proceeds :=
      { mirrors := { hProgress.proceeds.mirrors with }
        unhindered :=
          hProgress.proceeds.unhindered.aside rs n } }

/- A moment in which nothing is written. -/
theorem Progress.idle
    {scene : Scene μ}
    (hProgress : m.Progress k o told w s)
    (e : Event)
    (hObjects :
      scene.store.objects = s.scene.store.objects)
    (hClear : scene.Clear) :
    m.Progress k o told w (s.moveTo e scene) :=
  { hProgress with
    proceeds :=
      { mirrors := hProgress.proceeds.mirrors.idle e hObjects
        unhindered :=
          hProgress.proceeds.unhindered.moveTo e hClear } }

/- Another working copy with the same metadata. -/
theorem Progress.edited
    {w' : Work}
    (hProgress : m.Progress k o told w s)
    (hMetadata : w'.obj.metadata = w.obj.metadata)
    (hSnapshot : w'.snapshot = w.snapshot)
    (hLive : w'.deleting = w.deleting)
    (hKept :
      m.conditions = true → w'.obj.has .conditions = true)
    (hNamed : ∀ c ∈ told', c.type ∈ m.keptTypes)
    (hTells :
      m.conditions = true → ∀ c ∈ told', w'.obj.Tells c) :
    m.Progress k o told' w' s where
  proceeds :=
    { mirrors :=
        { own := by
            rw [hMetadata, hSnapshot]
            exact hProgress.proceeds.mirrors.own
          snapshot := by
            rw [hSnapshot]
            exact hProgress.proceeds.mirrors.snapshot
          holds := by
            rw [hSnapshot]
            exact hProgress.proceeds.mirrors.holds
          undisturbed :=
            hProgress.proceeds.mirrors.undisturbed }
      unhindered := hProgress.proceeds.unhindered }
  live := hLive.trans hProgress.live
  armed := by
    rw [hMetadata]
    exact hProgress.armed
  kept := hKept
  named := hNamed
  tells := hTells

/- The working copy has the deletion mark of the object. -/
theorem Progress.isDeleting
    (hProgress : m.Progress k o told w s) :
    w.obj.metadata.isDeleting = o.metadata.isDeleting :=
  hProgress.proceeds.mirrors.isDeleting

/- It has its generation, too. -/
theorem Progress.generation
    (hProgress : m.Progress k o told w s) :
    w.obj.metadata.generation = o.metadata.generation := by
  rw [hProgress.proceeds.mirrors.own,
    hProgress.proceeds.mirrors.snapshot]
  rfl

/- What conditions the working copy holds, if any are kept. -/
theorem Progress.conditions
    (hProgress : m.Progress k o told w s)
    (hEnabled : m.conditions = true) :
    w.obj.conditions? = some w.obj.status.conditions :=
  if_pos (hProgress.kept hEnabled)

/-
  Another list of conditions, which holds the same of what
  is told.
-/
theorem Progress.rewritten
    {cs : List Condition}
    (hProgress : m.Progress k o told w s)
    (hSame :
      ∀ c ∈ told,
        Conditions.find? c.type cs =
          Conditions.find? c.type w.obj.status.conditions) :
    m.Progress k o told (w.withConditions cs) s := by
  refine hProgress.edited rfl rfl rfl hProgress.kept
    hProgress.named ?_
  intro hEnabled c hTold
  refine (hProgress.tells hEnabled c hTold).congr ?_
  have hBefore := hProgress.conditions hEnabled
  have hAfter :
      (w.withConditions cs).obj.conditions? = some cs :=
    Work.withConditions_conditions? hBefore
  unfold Object.condition?
  rw [hBefore, hAfter]
  exact congrArg some (hSame c hTold)

/- One more condition is told once it is set. -/
theorem Progress.set
    {c : Condition}
    (hProgress : m.Progress k o told w s)
    (hNamed : c.type ∈ m.keptTypes)
    (hNew : ∀ c' ∈ told, c'.type ≠ c.type)
    (t : Instant) :
    m.Progress k o (told ++ [c])
      (w.withConditions
        (Conditions.set { c with lastTransition := t }
          w.obj.status.conditions)) s := by
  have hOld :
      m.Progress k o told
        (w.withConditions
          (Conditions.set { c with lastTransition := t }
            w.obj.status.conditions)) s := by
    refine hProgress.rewritten ?_
    intro c' hTold
    rw [Conditions.find?_set, if_neg (hNew c' hTold)]
  refine hOld.edited rfl rfl rfl hOld.kept ?_ ?_
  · exact List.forall_mem_append.mpr
      ⟨hOld.named, List.forall_mem_singleton.mpr hNamed⟩
  · intro hEnabled
    refine List.forall_mem_append.mpr
      ⟨hOld.tells hEnabled,
        List.forall_mem_singleton.mpr ?_⟩
    exact ⟨_, hOld.conditions hEnabled,
      Conditions.setChanges_set { c with lastTransition := t } _⟩

/- Nothing need be told if no conditions are kept. -/
theorem Progress.unkept
    (hProgress : m.Progress k o told w s)
    (hNamed : ∀ c ∈ told', c.type ∈ m.keptTypes)
    (hNotKept : m.keepsConditions w.obj = false) :
    m.Progress k o told' w s := by
  refine hProgress.edited rfl rfl rfl hProgress.kept hNamed ?_
  intro hEnabled
  unfold keepsConditions at hNotKept
  rw [hEnabled, hProgress.kept hEnabled] at hNotKept
  cases hNotKept

/- A working copy with other status, but for what is told. -/
theorem Progress.handed
    {o' : Object}
    (hProgress : m.Progress k o told w s)
    (hMetadata : o'.metadata = w.obj.metadata)
    (hSpared :
      m.conditions = true →
        ∀ type ∈ m.keptTypes,
          o'.condition? type = w.obj.condition? type) :
    m.Progress k o told { w with obj := o' } s := by
  refine hProgress.edited hMetadata rfl rfl ?_
    hProgress.named ?_
  · intro hEnabled
    have hReady := hSpared hEnabled readyType (by
      unfold keptTypes
      exact List.mem_cons_self)
    unfold Object.condition? at hReady
    rw [hProgress.conditions hEnabled] at hReady
    rcases Option.map_eq_some_iff.mp hReady with
      ⟨cs, hConditions, _⟩
    exact (Object.conditions?_eq_some hConditions).1
  · intro hEnabled c hTold
    exact (hProgress.tells hEnabled c hTold).congr
      (hSpared hEnabled c.type (hProgress.named c hTold))

/- The type of a step's condition is one that is kept. -/
theorem conditionType_mem_keptTypes
    {step : String}
    (hName : step ∈ m.stepNames) :
    Phase.processing.conditionType step ∈ m.keptTypes :=
  List.mem_cons_of_mem _ (List.mem_map_of_mem hName)

/- On a live object steps are processed. -/
theorem ofMetadata_of_live
    {o : Object}
    (hLive : o.isDeleting = false) :
    Phase.ofMetadata o.metadata = .processing := by
  unfold Phase.ofMetadata
  change (if o.isDeleting then _ else _) = _
  rw [hLive]
  rfl

------------------------------------------------------------
-- The Chain
------------------------------------------------------------

/- A condition of the working copy is set, and told. -/
theorem setCondition_progress
    {results : List Executed}
    {c : Condition}
    {update :
      Instant → Metadata → List Condition →
        List Condition}
    (hNamed : c.type ∈ m.keptTypes)
    (hNew : ∀ c' ∈ told, c'.type ≠ c.type)
    (hUpdate :
      ∀ s, m.Progress k o told w s →
        ∀ t cs,
          update t w.obj.metadata cs =
            Conditions.set { c with lastTransition := t } cs) :
    Triple
      (fun s => m.Progress k o told w s ∧ Ran start results s)
      (m.updateConditions update w)
      (fun w' s =>
        (w'.requeue = w.requeue ∧ w'.hasError = w.hasError) ∧
          m.Progress k o (told ++ [c]) w' s ∧
            Ran start results s)
      Unanswered := by
  apply m.updateConditions_triple
  · intro t s h _
    refine ⟨⟨rfl, rfl⟩, ?_, h.2⟩
    rw [hUpdate s h.1]
    exact h.1.set hNamed hNew t
  · intro s h hNotKept
    refine ⟨⟨rfl, rfl⟩, h.1.unkept ?_ hNotKept, h.2⟩
    exact List.forall_mem_append.mpr
      ⟨h.1.named, List.forall_mem_singleton.mpr hNamed⟩
  · exact fun _ _ _ => nofun

/- A condition is seeded, and nothing that is told changes. -/
theorem seedCondition_progress
    {results : List Executed}
    {type : String}
    {seed :
      Instant → Metadata → List Condition →
        List Condition}
    (hSeed :
      ∀ t cs, ∃ c, seed t w.obj.metadata cs =
        Conditions.seed c cs) :
    Triple
      (fun s => m.Progress k o told w s ∧ Ran start results s)
      (m.seedCondition type seed w)
      (fun w' s =>
        (w'.requeue = w.requeue ∧ w'.hasError = w.hasError ∧
            w'.obj.metadata = w.obj.metadata) ∧
          m.Progress k o told w' s ∧ Ran start results s)
      Unanswered := by
  apply m.seedCondition_triple
  · exact fun _ h _ => ⟨⟨rfl, rfl, rfl⟩, h⟩
  · intro _
    apply m.updateConditions_triple
    · intro t s h hKeeps
      refine ⟨⟨rfl, rfl, rfl⟩, ?_, h.2⟩
      rcases hSeed t w.obj.status.conditions with ⟨c, hSame⟩
      rw [hSame]
      refine h.1.rewritten ?_
      intro c' hTold
      have hEnabled : m.conditions = true :=
        (Bool.and_eq_true_iff.mp hKeeps).1
      have hFound := (h.1.tells hEnabled c' hTold).found
      rcases Option.isSome_iff_exists.mp hFound with
        ⟨old, hOld⟩
      rw [Conditions.find?_seed, hOld]
      split
      · rfl
      · rfl
    · exact fun _ h _ => ⟨⟨rfl, rfl, rfl⟩, h⟩
    · exact fun _ _ _ => nofun

/- A live object is processed; the step spares what is told. -/
theorem runStep_progress
    {results : List Executed}
    {context : Context}
    {step : Step μ}
    (hBehave : m.StepsBehave)
    (hClear : m.StepsClear)
    (hSpares : m.SparesConditions)
    (hLive : o.isDeleting = false)
    (hStep : step ∈ m.steps) :
    Triple
      (fun s => m.Progress k o told w s ∧ Ran start results s)
      (runStep context step w.obj)
      (fun r s =>
        ∀ a, r = some a →
          a.2.2 = false ∧
            m.Progress k o told { w with obj := a.2.1 } s ∧
              Ran start results s)
      Unanswered := by
  unfold runStep
  split
  · refine .bind
      (.note (Q := fun _ s =>
        m.Progress k o told w s ∧ Ran start results s) ?_) ?_
    · intro s h
      exact ⟨h.1.idle _ rfl h.1.proceeds.unhindered.clear,
        h.2.moveTo rfl s.scene⟩
    intro _
    refine .bind
      (Q := fun r s =>
        ∀ a, r = some a →
          m.Progress k o told { w with obj := a.2 } s ∧
            Ran start results s)
      (.call ?_ ?_ ?_) ?_
    · intro s a scene h hRun b hEq
      cases hEq
      have hObjects :=
        hBehave.process step hStep context w.obj s.scene
      rw [hRun] at hObjects
      have hGoes :=
        hClear.process step hStep context w.obj s.scene a
          scene h.1.proceeds.unhindered.clear hRun
      refine ⟨?_, h.2.moveTo rfl scene⟩
      refine (h.1.idle .returned hObjects hGoes).handed ?_ ?_
      · exact hBehave.keeps step hStep context w.obj s.scene
          a.1 a.2 scene (.inl hRun)
      · exact fun hEnabled =>
          hSpares hEnabled step hStep context w.obj s.scene
            a.1 a.2 scene hRun
    · intro s scene _ _ a hEq
      cases hEq
    · exact fun _ _ _ _ _ => nofun
    intro r
    refine .pure ?_
    intro s h a hEnded
    rcases Option.map_eq_some_iff.mp hEnded with
      ⟨b, hSome, rfl⟩
    exact ⟨rfl, h b hSome⟩
  · next hDeleting =>
      intro s h
      have hAlive :=
        h.1.proceeds.mirrors.isDeleting.trans hLive
      rw [hAlive] at hDeleting
      exact absurd rfl hDeleting

/-
  A run has executed steps, and its working copy tells what
  they have resulted in.
-/
def Recounts
    (m : Manager μ)
    (k : Key)
    (o : Object)
    (start : Session μ)
    (results : List Executed)
    (w : Work)
    (s : Session μ) : Prop :=
  m.Progress k o
      (results.map (Conditions.recorded o.metadata)) w s ∧
    Ran start results s

/- The tally of a run does not matter. -/
theorem Recounts.tallied
    {results : List Executed}
    {w' : Work}
    (hRecounts : m.Recounts k o start results w s)
    (hObj : w'.obj = w.obj)
    (hSnapshot : w'.snapshot = w.snapshot)
    (hLive : w'.deleting = w.deleting) :
    m.Recounts k o start results w' s := by
  refine ⟨hRecounts.1.edited ?_ hSnapshot hLive ?_
    hRecounts.1.named ?_, hRecounts.2⟩
  · rw [hObj]
  · rw [hObj]
    exact hRecounts.1.kept
  · rw [hObj]
    exact hRecounts.1.tells

/- One step of the chain: its result is told as well. -/
theorem executeStep_progress
    {results : List Executed}
    {context : Context}
    {step : Step μ}
    (hBehave : m.StepsBehave)
    (hClear : m.StepsClear)
    (hSpares : m.SparesConditions)
    (hLive : o.isDeleting = false)
    (hStep : step ∈ m.steps)
    (hNew : ∀ r ∈ results, r.1 ≠ step.name) :
    Triple (m.Recounts k o start results w)
      (m.executeStep context step w)
      (fun r s =>
        (r.2.requeue = w.requeue.soonest r.1.requeue ∧
            r.2.hasError = w.hasError) ∧
          m.Recounts k o start
            (results ++ [(step.name, r.1)]) r.2 s)
      Unanswered := by
  unfold executeStep
  dsimp only
  refine .bind
    (seedCondition_progress (fun _ _ => ⟨_, rfl⟩)) ?_
  intro seeded
  refine .assume ?_
  rintro ⟨hRequeue, hError, _⟩
  refine .bind
    (Q := fun r s =>
      r.2.2 = false ∧
        m.Progress k o
            (results.map (Conditions.recorded o.metadata))
            { seeded with obj := r.2.1 } s ∧
          Ran start results s)
    (.await
      (M := fun s =>
        m.Progress k o
            (results.map (Conditions.recorded o.metadata))
            seeded s ∧
          Ran start results s)
      (fun _ h => ⟨h.1.resume, h.2.resume⟩)
      (fun _ _ _ => nofun) ?_) ?_
  · refine (runStep_progress hBehave hClear hSpares hLive
      hStep).mono (fun _ h => h.1) ?_ (fun _ _ h => h)
    intro r s h
    cases r with
    | none => exact nofun
    | some a => exact h a rfl
  intro r
  rcases r with ⟨result, handed, finalized⟩
  refine .assume ?_
  rintro rfl
  refine .bind
    (.note (Q := fun _ s =>
      m.Progress k o
          (results.map (Conditions.recorded o.metadata))
          { seeded with
            obj := handed
            requeue := seeded.requeue.soonest result.requeue }
          s ∧
        Ran start (results ++ [(step.name, result)]) s) ?_) ?_
  · intro s h
    refine ⟨?_, h.2.note_executed step.name result⟩
    exact
      (h.1.idle _ rfl h.1.proceeds.unhindered.clear).edited
        rfl rfl rfl h.1.kept h.1.named h.1.tells
  intro _
  have hPhase := ofMetadata_of_live hLive
  have hType :
      (Conditions.recorded o.metadata
          (step.name, result)).type =
        Phase.processing.conditionType step.name := by
    rw [← hPhase]
    rfl
  have hName : step.name ∈ m.stepNames :=
    List.mem_map_of_mem hStep
  refine .bind
    (setCondition_progress
      (c := Conditions.recorded o.metadata (step.name, result))
      ?_ ?_ ?_) ?_
  · rw [hType]
    exact conditionType_mem_keptTypes hName
  · intro c hTold hSame
    rcases List.mem_map.mp hTold with ⟨r, hMember, rfl⟩
    exact hNew r hMember (Phase.conditionType_inj hSame)
  · intro s h t cs
    change
      Conditions.set
        (Conditions.ofResult t handed.metadata step.name
          result) cs = _
    rw [Conditions.ofResult_eq h.isDeleting h.generation]
  intro recorded
  refine .assume ?_
  rintro ⟨hNext, hFailed⟩
  refine .bind
    (m.reportStepError_triple _ _ _
      (fun s rs h => ⟨h.1.aside rs s.draws, h.2⟩)) ?_
  intro _
  refine .pure (fun s h => ⟨⟨?_, ?_⟩, ?_, h.2⟩)
  · exact hNext.trans
      (congrArg (fun d : Duration => d.soonest result.requeue)
        hRequeue)
  · exact hFailed.trans hError
  · rw [List.map_append]
    exact h.1

/-
  A chain has ended with the verdict on the results of its
  steps, which join those from before.
-/
def Concludes
    (m : Manager μ)
    (k : Key)
    (o : Object)
    (start : Session μ)
    (before : List Executed)
    (steps : List (Step μ))
    (w : Work)
    (e : ChainEnd)
    (s : Session μ) : Prop :=
  ∃ more,
    (Answered steps more ∧
      e.verdict =
        Verdict.ofResults more w.requeue w.hasError) ∧
      m.Recounts k o start (before ++ more) e.work s

/- The whole chain, by induction on its steps. -/
theorem runChain_progress
    {results : List Executed}
    {context : Context}
    {steps : List (Step μ)}
    (hBehave : m.StepsBehave)
    (hClear : m.StepsClear)
    (hSpares : m.SparesConditions)
    (hLive : o.isDeleting = false)
    (hMembers : ∀ step ∈ steps, step ∈ m.steps)
    (hNames : (steps.map (·.name)).Nodup)
    (hNew : ∀ step ∈ steps, ∀ r ∈ results, r.1 ≠ step.name) :
    Triple (m.Recounts k o start results w)
      (m.runChain context steps w)
      (m.Concludes k o start results steps w)
      Unanswered := by
  induction steps generalizing results w with
  | nil =>
      refine .pure (fun s h => ⟨[], ⟨.done, rfl⟩, ?_⟩)
      rw [List.append_nil]
      exact h
  | cons step rest ih =>
      have hNames : step.name ∉ rest.map (·.name) ∧
          (rest.map (·.name)).Nodup :=
        List.nodup_cons.mp hNames
      unfold runChain
      refine .bind
        (executeStep_progress hBehave hClear hSpares hLive
          (hMembers step List.mem_cons_self)
          (hNew step List.mem_cons_self)) ?_
      intro r
      rcases r with ⟨result, w'⟩
      refine .assume ?_
      rintro ⟨hRequeue, hError⟩
      -- The chain goes on with what this step has added.
      have hRest :
          ∀ hasError : Bool,
            result.outcome.continuesChain = true →
            (∀ more,
              Verdict.ofResults ((step.name, result) :: more)
                  w.requeue w.hasError =
                Verdict.ofResults more w'.requeue hasError) →
            Triple
              (m.Recounts k o start
                (results ++ [(step.name, result)]) w')
              (m.runChain context rest
                { w' with hasError := hasError })
              (m.Concludes k o start results (step :: rest) w)
              Unanswered := by
        intro hasError hGoes hVerdict
        refine (ih
          (fun next hNext =>
            hMembers next (List.mem_cons_of_mem _ hNext))
          hNames.2 ?_).mono
            (fun _ h => h.tallied rfl rfl rfl) ?_
            (fun _ _ h => h)
        · intro next hNext r hMember
          rcases List.mem_append.mp hMember with hOld | hLast
          · exact hNew next (List.mem_cons_of_mem _ hNext) r
              hOld
          · rw [List.mem_singleton.mp hLast]
            intro hSame
            exact hNames.1
              (List.mem_map.mpr ⟨next, hNext, hSame.symm⟩)
        · rintro e s ⟨more, ⟨hAnswered, hEnd⟩, h⟩
          rw [List.append_assoc] at h
          exact ⟨_, ⟨.goesOn hGoes hAnswered,
            hEnd.trans (hVerdict more).symm⟩, h⟩
      have hStop :
          ∀ e : ChainEnd,
            e.work.obj = w'.obj →
            e.work.snapshot = w'.snapshot →
            e.work.deleting = w'.deleting →
            result.outcome.continuesChain = false →
            e.verdict =
              Verdict.ofResults [(step.name, result)]
                w.requeue w.hasError →
            Triple
              (m.Recounts k o start
                (results ++ [(step.name, result)]) w')
              (pure e : Engine μ ChainEnd)
              (m.Concludes k o start results (step :: rest) w)
              Unanswered :=
        fun e hObj hSnapshot hDeleting hStops hVerdict =>
          .pure (fun _ h =>
            ⟨_, ⟨.stops hStops, hVerdict⟩,
              h.tallied hObj hSnapshot hDeleting⟩)
      cases result with
      | proceed requeue? =>
          exact hRest w'.hasError rfl
            (fun _ => by rw [hRequeue, hError]; rfl)
      | skipped reason =>
          exact hRest w'.hasError rfl
            (fun _ => by rw [hRequeue, hError]; rfl)
      | errorContinue e =>
          exact hRest true rfl
            (fun _ => by rw [hRequeue]; rfl)
      | stopChain reason requeue? =>
          refine hStop (.completed w') rfl rfl rfl rfl ?_
          change Verdict.completed w'.requeue w'.hasError = _
          rw [hRequeue, hError]
          rfl
      | errorStop e reason =>
          refine hStop
            (.completed { w' with hasError := true }) rfl rfl
            rfl rfl ?_
          change Verdict.completed w'.requeue true = _
          rw [hRequeue]
          rfl
      | errorRetry e requeue? =>
          exact hStop (.retry w' step.name _ e.failure) rfl rfl
            rfl rfl rfl

end Progress

end Manager

end Reconciler
