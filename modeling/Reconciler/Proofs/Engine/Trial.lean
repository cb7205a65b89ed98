import Reconciler.Proofs.Engine.Course
import Reconciler.Proofs.Engine.Mirror

/-
  This file runs the steps of a manager whose steps have
  fixed results.

  A trial is a run on an object that carries some tokens.
  Wherever it stops, the tokens that it leaves are among
  those that its chain comes through; if nobody disturbs it,
  its chain comes to the course of its steps.

  Key definitions include:
    * `Call.Yields`
    * `Manager.Answering`
    * `Trial`
    * `Trial.At`
    * `Trial.Stopped`

  Key theorems include:
    * `Trial.At.executeStep`
    * `Trial.At.runChain`
    * `Trial.At.sumUp`
-/

------------------------------------------------------------
-- Fixed Results
------------------------------------------------------------

namespace Reconciler

variable {μ : Type}

/-
  A call with a result of a kind, that leaves store and
  clock alone; it may be dropped, but it does not panic.
-/
def Call.Yields
    {α : Type}
    (x : Call μ α)
    (p : α → Prop) : Prop :=
  ∀ scene,
    match x scene with
    | .ok r scene' =>
        p r ∧ scene'.store = scene.store ∧
          scene'.clock = scene.clock
    | .error .dropped scene' => scene'.store = scene.store
    | .error (.panicked _) _ => False

/-
  The entry points of the steps have fixed results and hand
  back the working copy; no finalize call stops the chain,
  and the hook always succeeds.
-/
structure Manager.Answering
    (m : Manager μ)
    (a : Answers μ) : Prop where
  hook :
    ∀ hook, m.hook = some hook → ∀ c o,
      (hook c o).Yields (fun r => ∃ c', r = .ok c')
  process :
    ∀ step ∈ m.steps, ∀ c o,
      (step.process c o).Yields (· = (a.process step, o))
  finalize :
    ∀ step ∈ m.steps, ∀ c o,
      (step.finalize c o).Yields (· = (a.finalize step, o))
  runs :
    ∀ step ∈ m.steps,
      (a.finalize step).outcome ≠ .stopChain

------------------------------------------------------------
-- What Runs Leave
------------------------------------------------------------

namespace Object

/-
  What a run leaves of an object that had some tokens:
  nothing if it is being deleted and has lost the last one.
-/
def left?
    (had fs : List String)
    (status : Status)
    (version : Option String)
    (o : Object) : Option Object :=
  if o.isDeleting = true ∧ fs = [] ∧ had ≠ [] then
    none
  else
    some ((o.mapStatus (fun _ => status)).retokened fs
      version)

variable {o : Object}
variable {had had' fs : List String}
variable {status : Status}
variable {version : Option String}

/- An object that still carries a token is left. -/
theorem left?_isSome
    (hSome : o.isDeleting = true → fs ≠ []) :
    (o.left? had fs status version).isSome = true := by
  unfold left?
  rw [if_neg]
  · rfl
  · rintro ⟨hDeleting, hNone, _⟩
    exact hSome hDeleting hNone

/- An object with its own tokens is left. -/
theorem left?_same
    (o : Object)
    (had : List String)
    (version : Option String) :
    o.left? had had o.status version =
      some (o.retokened had version) := by
  unfold left?
  rw [if_neg]
  · rfl
  · rintro ⟨_, hNone, hSome⟩
    exact hSome hNone

/- What is left of an object by a patch of its tokens. -/
theorem left?_of_patch
    (hHad : o.isDeleting = true → had ≠ []) :
    (if o.isDeleting && fs.isEmpty then none
      else some (o.retokened fs version)) =
      o.left? had fs o.status version := by
  unfold left?
  cases hDeleting : o.isDeleting with
  | false => rfl
  | true =>
      have hHad := hHad hDeleting
      cases fs with
      | nil => simp [hHad]
      | cons t rest => simp; rfl

/- An object that is left is left with any status. -/
theorem left?_status
    (hSome : (o.left? had fs status version).isSome = true)
    (status' : Status)
    (version' : Option String) :
    o.left? had fs status' version' =
      some ((o.mapStatus (fun _ => status')).retokened fs
        version') := by
  unfold left? at hSome ⊢
  by_cases hGone : o.isDeleting = true ∧ fs = [] ∧ had ≠ []
  · rw [if_pos hGone] at hSome
    cases hSome
  · rw [if_neg hGone]

/- An object that is gone is gone with any status. -/
theorem left?_none
    (hGone : o.left? had fs status version = none) :
    (o.isDeleting = true ∧ fs = [] ∧ had ≠ []) ∧
      ∀ status' version',
        o.left? had fs status' version' = none := by
  unfold left? at hGone ⊢
  by_cases hDone : o.isDeleting = true ∧ fs = [] ∧ had ≠ []
  · constructor
    · exact hDone
    · intro _ _
      exact if_pos hDone
  · rw [if_neg hDone] at hGone
    cases hGone

/- An object that is left has not lost its last token. -/
theorem left?_keeps
    (hSome : (o.left? had fs status version).isSome = true)
    (hSubset : o.isDeleting = true → fs ⊆ had)
    (hDeleting : o.isDeleting = true) :
    fs = [] ↔ had = [] := by
  constructor
  · intro hNone
    by_contra hHad
    have hGone : o.left? had fs status version = none :=
      if_pos ⟨hDeleting, hNone, hHad⟩
    rw [hGone] at hSome
    cases hSome
  · intro hNone
    have hSubset := hSubset hDeleting
    rw [hNone] at hSubset
    exact List.subset_nil.mp hSubset

/-
  But for the version, it makes no difference which tokens
  an object had if it had any.
-/
theorem left?_map
    {version' : Option String}
    (hHad : o.isDeleting = true → (had' = [] ↔ had = [])) :
    (o.left? had' fs status version').map
        (·.withVersion none) =
      (o.left? had fs status version).map
        (·.withVersion none) := by
  unfold left?
  by_cases hDeleting : o.isDeleting = true
  · simp only [ne_eq, hHad hDeleting]
    split <;> rfl
  · rw [if_neg (fun h => hDeleting h.1),
      if_neg (fun h => hDeleting h.1)]
    rfl

end Object

------------------------------------------------------------
-- Trials
------------------------------------------------------------

/- Whether an event is a store operation that failed. -/
def Event.isFailure : Event → Bool
  | .fetched _ (.error _) => true
  | .patched _ _ (.error _) => true
  | .statusUpdated _ (.error _) => true
  | _ => false

namespace Journal

/- Since a session no store operation has failed. -/
def CleanSince
    (start s : Session μ) : Prop :=
  ∃ new,
    s.journal = start.journal ++ new ∧
      ∀ mo ∈ new, mo.event.isFailure = false

theorem CleanSince.moveTo
    {start s : Session μ}
    {e : Event}
    (hClean : CleanSince start s)
    (hEvent : e.isFailure = false)
    (scene : Scene μ) :
    CleanSince start (s.moveTo e scene) := by
  rcases hClean with ⟨new, hNew, hNone⟩
  refine ⟨new ++ [⟨e, scene⟩], ?_, ?_⟩
  · rw [Session.moveTo_journal, hNew, List.append_assoc]
  · intro mo hMember
    rcases List.mem_append.mp hMember with hOld | hLast
    · exact hNone mo hOld
    · rw [List.mem_singleton.mp hLast]
      exact hEvent

/-
  Since a session a store operation has failed, or the run
  is cancelled.
-/
def CutSince
    (start s : Session μ) : Prop :=
  s.scene.cancelled = true ∨
    ∃ new mo,
      s.journal = start.journal ++ new ∧
        mo ∈ new ∧ mo.event.isFailure = true

/- What is clean and not cancelled is not cut. -/
theorem CleanSince.not_cut
    {start s : Session μ}
    (hClean : CleanSince start s)
    (hGoes : s.scene.cancelled = false) :
    ¬ CutSince start s := by
  rintro (hCancelled | ⟨new, mo, hNew, hMember, hFails⟩)
  · rw [hGoes] at hCancelled
    cases hCancelled
  · rcases hClean with ⟨new', hSame, hNone⟩
    rw [hSame] at hNew
    rw [← List.append_cancel_left hNew] at hMember
    rw [hNone mo hMember] at hFails
    cases hFails

end Journal

/- Nobody else acts, no failure is queued, and it is `now`. -/
structure Session.Calm
    (now : Instant)
    (s : Session μ) : Prop where
  alone : s.others = []
  quiet : s.scene.store.Quiet
  clock : s.scene.clock.read = .ok now

/-
  A run on an object that carries tokens at a version; if it
  is calm, nobody disturbs it at some time.
-/
structure Trial (μ : Type) where
  key : Key
  obj : Object
  tokens : List String
  version : Option String
  start : Session μ
  calm : Prop
  now : Instant

namespace Trial

open Engine

/- The object that the run fetches. -/
def fetched
    (r : Trial μ) : Object :=
  r.obj.retokened r.tokens r.version

/-
  During a run the copies mirror the store; if the run is
  calm, the tally tells conditions and requeue.
-/
structure At
    (r : Trial μ)
    (t : Tally)
    (w : Work)
    (s : Session μ) : Prop where
  deleting : w.deleting = r.obj.isDeleting
  mirrors : Manager.Mirrors r.key r.fetched w.toCopies s
  kind : w.obj.kind = r.obj.kind
  tokens : w.obj.metadata.finalizers = t.tokens
  emptied : r.obj.isDeleting = true → t.tokens ⊆ r.tokens
  stored :
    s.scene.store.object? r.key =
      r.obj.left? r.tokens t.tokens r.obj.status
        w.snapshot.metadata.resourceVersion
  clean : Journal.CleanSince r.start s
  tallied :
    r.calm →
      w.obj.status =
          { r.obj.status with conditions := t.conditions } ∧
        w.requeue = t.requeue ∧ w.hasError = t.hasError
  calm : r.calm → s.Calm r.now

/- The store shows what is left with tokens and status. -/
def Shows
    (r : Trial μ)
    (fs : List String)
    (status : Status)
    (s : Session μ) : Prop :=
  ∃ version,
    s.scene.store.object? r.key =
      r.obj.left? r.tokens fs status version

/- The object has been left with tokens that were passed. -/
def Left
    (r : Trial μ)
    (passed : List (List String))
    (s : Session μ) : Prop :=
  ∃ fs ∈ passed, r.Shows fs r.obj.status s

/-
  A run that stops has left the object as it was but for its
  tokens; a calm one stops only if it is cancelled.
-/
structure Stopped
    (r : Trial μ)
    (passed : List (List String))
    (s : Session μ) : Prop where
  left : r.Left passed s
  calm : r.calm → s.scene.cancelled = true

section Steps

variable {m : Manager μ}
variable {a : Answers μ}
variable {r : Trial μ}
variable {t : Tally}
variable {w : Work}
variable {passed : List (List String)}

/- A run that is cancelled stops. -/
theorem At.stopped
    {s : Session μ}
    (hAt : r.At t w s)
    (hPassed : t.tokens ∈ passed)
    (hCalm : r.calm → s.scene.cancelled = true) :
    r.Stopped passed s where
  left := ⟨t.tokens, hPassed, _, hAt.stored⟩
  calm := hCalm

/- A moment in which the stored objects stay. -/
theorem At.moveTo
    {s : Session μ}
    {e : Event}
    {scene : Scene μ}
    (hAt : r.At t w s)
    (hEvent : e.isFailure = false)
    (hObjects :
      scene.store.objects = s.scene.store.objects)
    (hCalm : r.calm → (s.moveTo e scene).Calm r.now) :
    r.At t w (s.moveTo e scene) :=
  { hAt with
    mirrors := hAt.mirrors.idle e hObjects
    stored :=
      (Store.object?_congr hObjects r.key).trans hAt.stored
    clean := hAt.clean.moveTo hEvent scene
    calm := hCalm }

/- Other tasks run only if the run is not calm. -/
theorem At.resume
    {s : Session μ}
    (hAt : r.At t w s) :
    r.At t w s.resume := by
  by_cases hCalm : r.calm
  · have hIdle : s.resume = s := by
      unfold Session.resume
      rw [(hAt.calm hCalm).alone]
    rw [hIdle]
    exact hAt
  · exact hAt.mirrors.undisturbed.resume
      (fun others hFewer h =>
        { h with
          mirrors := h.mirrors.waited others hFewer
          calm := fun h => absurd h hCalm })
      (fun hObjects h =>
        h.moveTo rfl hObjects (fun h => absurd h hCalm))
      hAt

/- The run goes on with the reports. -/
theorem At.reported
    {s : Session μ}
    (hAt : r.At t w s)
    (rs : List Report) :
    r.At t w { s with reports := rs } :=
  { hAt with
    mirrors := { hAt.mirrors with }
    calm := fun hCalm => { hAt.calm hCalm with } }

theorem At.note
    {s : Session μ}
    {e : Event}
    (hAt : r.At t w s)
    (hEvent : e.isFailure = false) :
    r.At t w (s.note e) :=
  hAt.moveTo hEvent rfl
    (fun hCalm => { hAt.calm hCalm with })

/- A call with a result of a kind, which may be dropped. -/
theorem At.call
    {α : Type}
    {x : Call μ α}
    {p : α → Prop}
    (hPassed : t.tokens ∈ passed)
    (hYields : x.Yields p) :
    Triple (r.At t w) (Engine.call x)
      (fun result s =>
        match result with
        | some b => p b ∧ r.At t w s
        | none => r.Stopped passed s)
      (fun _ => r.Stopped passed) := by
  refine .call ?_ ?_ ?_
  · intro s b scene hAt hRun
    have hYield := hYields s.scene
    rw [hRun] at hYield
    rcases hYield with ⟨hResult, hStore, hClock⟩
    refine ⟨hResult, hAt.moveTo rfl ?_ ?_⟩
    · rw [hStore]
    · intro hCalm
      have hOld := hAt.calm hCalm
      exact
        { alone := hOld.alone
          quiet := by
            rw [Session.moveTo_scene, hStore]
            exact hOld.quiet
          clock := by
            rw [Session.moveTo_scene, hClock]
            exact hOld.clock }
  · intro s scene hAt hRun
    have hStore := hYields s.scene
    rw [hRun] at hStore
    refine ⟨⟨t.tokens, hPassed,
      w.snapshot.metadata.resourceVersion, ?_⟩,
      fun _ => rfl⟩
    rw [← hAt.stored]
    exact congrArg (Store.object? r.key) hStore
  · intro s p scene _ hRun
    have hNever := hYields s.scene
    rw [hRun] at hNever
    exact hNever.elim

------------------------------------------------------------
-- Conditions
------------------------------------------------------------

/- The working copy has the metadata of the object. -/
theorem At.metadata
    {s : Session μ}
    (hAt : r.At t w s) :
    ∃ fs version,
      w.obj.metadata =
        (r.obj.retokened fs version).metadata := by
  have hOwn := hAt.mirrors.own
  rw [hAt.mirrors.snapshot] at hOwn
  exact ⟨_, _, hOwn⟩

theorem At.isDeleting
    {s : Session μ}
    (hAt : r.At t w s) :
    w.obj.isDeleting = r.obj.isDeleting :=
  hAt.mirrors.isDeleting

/- Conditions are kept if the object can hold them. -/
theorem At.keepsConditions
    {s : Session μ}
    (hAt : r.At t w s) :
    m.keepsConditions w.obj = m.keepsConditions r.obj := by
  unfold Manager.keepsConditions Object.has
  rw [hAt.kind]

/- A clock that is calm can be read. -/
theorem At.stopped_of_clock
    {s : Session μ}
    {fault : ClockFault}
    (hAt : r.At t w s)
    (hPassed : t.tokens ∈ passed)
    (hRead : s.scene.clock.read = .error fault) :
    r.Stopped passed s := by
  refine hAt.stopped hPassed ?_
  intro hCalm
  rw [(hAt.calm hCalm).clock] at hRead
  cases hRead

/- Conditions are updated, and so is the tally. -/
theorem At.updateConditions
    {update :
      Instant → Metadata → List Condition →
        List Condition}
    (hUpdate :
      ∀ now (o : Object) fs version,
        update now (o.retokened fs version).metadata =
          update now o.metadata)
    (hPassed : t.tokens ∈ passed) :
    Triple (r.At t w) (m.updateConditions update w)
      (r.At (m.recorded r.obj
        (update r.now r.obj.metadata) t))
      (fun _ => r.Stopped passed) := by
  refine m.updateConditions_clock ?_ ?_ ?_
  · intro now s hAt hKeeps hRead
    refine
      { hAt with
        mirrors := hAt.mirrors.handed rfl
        tallied := ?_ }
    intro hCalm
    rcases hAt.tallied hCalm with ⟨hStatus, hRest⟩
    refine ⟨?_, hRest⟩
    have hNow : now = r.now := by
      rw [(hAt.calm hCalm).clock] at hRead
      cases hRead
      rfl
    rcases hAt.metadata with ⟨fs, version, hMetadata⟩
    rw [hAt.keepsConditions] at hKeeps
    unfold Manager.recorded
    rw [if_pos hKeeps, hNow, hMetadata,
      hUpdate r.now r.obj fs version]
    unfold Object.mapStatus
    rw [hStatus]
  · intro s hAt hLeft
    refine { hAt with tallied := ?_ }
    intro hCalm
    rw [hAt.keepsConditions] at hLeft
    unfold Manager.recorded
    rw [if_neg (Bool.eq_false_iff.mp hLeft)]
    exact hAt.tallied hCalm
  · intro fault s hAt hRead
    exact hAt.stopped_of_clock hPassed hRead

/- A seed that is there leaves the tally as it is. -/
theorem At.seedCondition
    {type : String}
    {seed :
      Instant → Metadata → List Condition →
        List Condition}
    (hUpdate :
      ∀ now (o : Object) fs version,
        seed now (o.retokened fs version).metadata =
          seed now o.metadata)
    (hSeeded :
      ∀ cs,
        (Conditions.find? type cs).isSome = true →
          seed r.now r.obj.metadata cs = cs)
    (hPassed : t.tokens ∈ passed) :
    Triple (r.At t w) (m.seedCondition type seed w)
      (r.At (m.recorded r.obj
        (seed r.now r.obj.metadata) t))
      (fun _ => r.Stopped passed) := by
  refine m.seedCondition_triple ?_
    (fun _ => At.updateConditions hUpdate hPassed)
  intro s hAt hFound
  refine { hAt with tallied := ?_ }
  intro hCalm
  rcases hAt.tallied hCalm with ⟨hStatus, hRest⟩
  refine ⟨?_, hRest⟩
  rw [hStatus] at hFound
  unfold Manager.recorded
  rw [hSeeded t.conditions hFound, ite_self]
  exact hStatus

------------------------------------------------------------
-- Steps
------------------------------------------------------------

/- A step owns the object if a token of it is left. -/
theorem At.owns
    {s : Session μ}
    {step : Step μ}
    (hApart : m.TokensApart)
    (hStep : step ∈ m.steps)
    (hAt : r.At t w s) :
    step.owns w.obj = step.holds r.obj t.tokens := by
  unfold Step.owns Step.holds Metadata.hasFinalizer
  rw [hApart.constant step hStep w.obj r.obj, hAt.tokens]

/- A step is run, and its fixed result counts. -/
theorem At.runStep
    {context : Context}
    {step : Step μ}
    (hApart : m.TokensApart)
    (hAnswering : m.Answering a)
    (hStep : step ∈ m.steps)
    (hPassed : t.tokens ∈ passed) :
    Triple (r.At t w) (Manager.runStep context step w.obj)
      (fun ran s =>
        match ran with
        | some ran =>
            (ran.1 = a.answer r.obj step t.tokens ∧
              ran.2.1 = w.obj ∧
              ran.2.2 =
                (r.obj.isDeleting &&
                  step.holds r.obj t.tokens)) ∧
              r.At t w s
        | none => r.Stopped passed s)
      (fun _ => r.Stopped passed) := by
  intro s hAt
  have hDeleting := hAt.isDeleting
  have hOwns := hAt.owns hApart hStep
  refine (?_ : Triple (r.At t w) _ _ _) s hAt
  unfold Manager.runStep Answers.answer
  rw [hDeleting, hOwns]
  cases r.obj.isDeleting with
  | false =>
      refine .bind
        (.note (Q := fun _ => r.At t w)
          (fun _ h => h.note rfl)) ?_
      intro _
      refine .bind (At.call hPassed
        (hAnswering.process step hStep context w.obj)) ?_
      intro ended
      refine .pure ?_
      intro s hEnded
      cases ended with
      | none => exact hEnded
      | some ran =>
          rcases hEnded with ⟨rfl, hAt⟩
          exact ⟨⟨rfl, rfl, rfl⟩, hAt⟩
  | true =>
      cases step.holds r.obj t.tokens with
      | false =>
          exact .pure (fun _ hAt => ⟨⟨rfl, rfl, rfl⟩, hAt⟩)
      | true =>
          refine .bind
            (.note (Q := fun _ => r.At t w)
              (fun _ h => h.note rfl)) ?_
          intro _
          refine .bind (At.call hPassed
            (hAnswering.finalize step hStep context
              w.obj)) ?_
          intro ended
          refine .pure ?_
          intro s hEnded
          cases ended with
          | none => exact hEnded
          | some ran =>
              rcases hEnded with ⟨rfl, hAt⟩
              exact ⟨⟨rfl, rfl, rfl⟩, hAt⟩

/- A patch that changes the tokens of the object. -/
theorem At.sendTokens
    {new : List String}
    (hKey : r.obj.key = r.key)
    (hPersisted : r.obj.persisted = r.obj)
    (hChanged : new ≠ t.tokens)
    (hSome :
      r.obj.isDeleting = true → t.tokens ≠ [] ∧
        new ⊆ t.tokens)
    (hPassed : t.tokens ∈ passed) :
    Triple
      (fun s => r.At t w s ∧ s.scene.cancelled = false)
      (Engine.sendTokens { w.toCopies with
        obj := w.obj.withFinalizers new })
      (fun sent s =>
        match sent.1 with
        | .ok _ =>
            r.At { t with tokens := new }
              { w with toCopies := sent.2 } s
        | .error _ => r.Stopped passed s)
      (fun _ => r.Stopped passed) := by
  have hFetched : r.fetched.persisted = r.fetched := by
    unfold fetched
    rw [Object.persisted_retokened, hPersisted]
  refine Manager.sendTokens_triple ?_ ?_
  · intro s stored store h hRun
    have hAt := h.1
    have hNew : new ≠ w.obj.metadata.finalizers := by
      rw [hAt.tokens]
      exact hChanged
    rcases hAt.mirrors.patch_cases hKey hNew hRun with
      ⟨_, hError, _⟩ | ⟨_, hOk, hObject, hMirrors⟩
    · cases hError
    · cases hOk
      exact
        { deleting := hAt.deleting
          mirrors := hMirrors _
          kind := hAt.kind
          tokens := rfl
          emptied := fun hDeleting =>
            List.Subset.trans (hSome hDeleting).2
              (hAt.emptied hDeleting)
          stored := by
            rw [hFetched] at hObject
            refine hObject.trans (Object.left?_of_patch ?_)
            intro hDeleting hNone
            have hTokens := hAt.emptied hDeleting
            rw [hNone] at hTokens
            exact (hSome hDeleting).1
              (List.subset_nil.mp hTokens)
          clean := hAt.clean.moveTo rfl _
          tallied := hAt.tallied
          calm := by
            intro hCalm
            have hOld := hAt.calm hCalm
            have hStore :
                (Store.patch (w.snapshot.withFinalizers new)
                  w.snapshot s.scene.store).2 = store :=
              congrArg Prod.snd hRun
            have hQuiet := hOld.quiet.afterPatch
              (w.snapshot.withFinalizers new) w.snapshot
            rw [hStore] at hQuiet
            exact
              { alone := hOld.alone
                quiet := hQuiet
                clock := hOld.clock } }
  · intro s e store h hRun
    have hAt := h.1
    have hNew : new ≠ w.obj.metadata.finalizers := by
      rw [hAt.tokens]
      exact hChanged
    rcases hAt.mirrors.patch_cases hKey hNew hRun with
      ⟨_, _, hObjects, hQueued⟩ | ⟨_, hOk, _⟩
    · refine ⟨⟨t.tokens, hPassed,
        w.snapshot.metadata.resourceVersion, ?_⟩, ?_⟩
      · rw [← hAt.stored]
        exact Store.object?_congr hObjects r.key
      · intro hCalm
        refine absurd (hAt.calm hCalm).quiet.patch (hQueued ?_)
        rw [hAt.stored]
        exact Object.left?_isSome (fun hDeleting =>
          (hSome hDeleting).1)
    · cases hOk

/- The tokens of a step that has settled come off. -/
theorem At.releaseTokens
    {step : Step μ}
    (hWritable : m.readOnly = false)
    (hApart : m.TokensApart)
    (hKey : r.obj.key = r.key)
    (hPersisted : r.obj.persisted = r.obj)
    (hStep : step ∈ m.steps)
    (hReleases : a.releases r.obj step t.tokens = true)
    (hPassed : t.tokens ∈ passed) :
    Triple (r.At t w) (m.releaseTokens step w)
      (r.At { t with
        tokens := a.leftover r.obj step t.tokens })
      (fun _ => r.Stopped passed) := by
  have hReleased := Bool.and_eq_true_iff.mp hReleases
  have hHolds := (Bool.and_eq_true_iff.mp hReleased.1).2
  have hTaken :
      a.leftover r.obj step t.tokens =
        Tokens.without (step.tokens r.obj) t.tokens :=
    if_pos hReleases
  rcases (Answers.holds_iff step r.obj t.tokens).mp hHolds
    with ⟨token, hToken, hHas⟩
  intro s hAt
  have hOwns := (hAt.owns hApart hStep).trans hHolds
  refine m.releaseTokens_triple (P := r.At t w)
    (E := fun _ => r.Stopped passed)
    (fun _ h => h.resume)
    (fun _ h hCancelled =>
      h.stopped hPassed (fun _ => hCancelled))
    (fun _ _ _ h => ⟨h.left, h.calm⟩) (fun _ _ h => h)
    ?_ ?_ s hAt
  · intro hNothing
    rcases hNothing with hReadOnly | hUnowned
    · rw [hWritable] at hReadOnly
      cases hReadOnly
    · rw [hOwns] at hUnowned
      cases hUnowned
  · intro _ _
    have hTokens :
        Tokens.removeAll (step.tokens w.obj) w.obj =
          w.obj.withFinalizers
            (a.leftover r.obj step t.tokens) := by
      rw [Tokens.removeAll_eq, hTaken, hAt.tokens,
        hApart.constant step hStep w.obj r.obj]
    rw [hTokens]
    refine At.sendTokens hKey hPersisted ?_ ?_ hPassed
    · rw [hTaken]
      exact Tokens.without_ne hToken hHas
    · intro _
      exact ⟨List.ne_nil_of_mem hHas,
        Answers.leftover_subset step t.tokens⟩

/- The condition of a step is started. -/
theorem At.seedStep
    {step : Step μ}
    (hPassed : t.tokens ∈ passed) :
    Triple (r.At t w)
      (m.seedCondition
        ((Phase.ofMetadata w.obj.metadata).conditionType
          step.name)
        (fun now m => Conditions.seedStep now m step.name) w)
      (r.At (m.seeded r.obj r.now step t))
      (fun _ => r.Stopped passed) := by
  intro s hAt
  rcases hAt.metadata with ⟨fs, version, hMetadata⟩
  have hPhase :
      Phase.ofMetadata w.obj.metadata =
        Phase.ofMetadata r.obj.metadata := by
    rw [hMetadata]
    rfl
  rw [hPhase]
  refine At.seedCondition (fun _ _ _ _ => rfl) ?_ hPassed s
    hAt
  intro cs hFound
  exact if_pos hFound

/- The result of a step is recorded. -/
theorem At.applyResult
    {step : Step μ}
    {result : StepResult}
    (hPassed : t.tokens ∈ passed) :
    Triple (r.At t w)
      (m.updateConditions
        (fun now m =>
          Conditions.applyResult now m step.name result)
        { w with
          requeue := w.requeue.soonest result.requeue })
      (r.At (m.applied r.obj r.now step result t))
      (fun _ => r.Stopped passed) := by
  unfold Manager.applied
  refine (At.updateConditions (fun _ _ _ _ => rfl) ?_).mono
    ?_ (fun _ _ h => h) (fun _ _ h => h)
  · exact hPassed
  · intro s hAt
    refine { hAt with tallied := ?_ }
    intro hCalm
    rcases hAt.tallied hCalm with ⟨hStatus, hRequeue, hError⟩
    refine ⟨hStatus, ?_, hError⟩
    dsimp only
    rw [hRequeue]

/- One step of the chain: its result, and its tally. -/
theorem At.executeStep
    {context : Context}
    {step : Step μ}
    (hWritable : m.readOnly = false)
    (hApart : m.TokensApart)
    (hAnswering : m.Answering a)
    (hKey : r.obj.key = r.key)
    (hPersisted : r.obj.persisted = r.obj)
    (hStep : step ∈ m.steps)
    (hPassed : t.tokens ∈ passed) :
    Triple (r.At t w) (m.executeStep context step w)
      (fun ran s =>
        ran.1 = a.answer r.obj step t.tokens ∧
          r.At (m.advance a r.obj r.now step t) ran.2 s)
      (fun _ => r.Stopped passed) := by
  have hSeeded :
      (m.seeded r.obj r.now step t).tokens ∈ passed :=
    hPassed
  unfold Manager.executeStep
  dsimp only
  refine .bind (At.seedStep hPassed) ?_
  intro w
  refine .bind
    (Q := fun ran s =>
      (ran.1 = a.answer r.obj step t.tokens ∧
        ran.2.1 = w.obj ∧
        ran.2.2 =
          (r.obj.isDeleting && step.holds r.obj t.tokens)) ∧
        r.At (m.seeded r.obj r.now step t) w s)
    ?_ ?_
  · refine .await (M := r.At _ w) (fun _ h => h.resume)
      (fun _ h hCancelled =>
        h.stopped hSeeded (fun _ => hCancelled)) ?_
    refine
      (At.runStep hApart hAnswering hStep hSeeded).mono
        (fun _ h => h.1) ?_ (fun _ _ h => h)
    intro ran s hRan
    cases ran with
    | none => exact hRan
    | some ran => exact hRan
  intro ran
  rcases ran with ⟨result, o, finalized⟩
  refine .assume ?_
  rintro ⟨rfl, rfl, rfl⟩
  refine .bind
    (.note (Q := fun _ => r.At _ w) (fun _ h => h.note rfl)) ?_
  intro _
  refine .bind (At.applyResult hSeeded) ?_
  intro w
  refine .bind
    (m.reportStepError_triple _ _ _
      (fun _ rs h => h.reported rs)) ?_
  intro _
  split
  · next hSettled =>
      have hReleases :=
        (Answers.releases_eq step t.tokens).trans hSettled
      refine .bind
        (At.releaseTokens hWritable hApart hKey hPersisted
          hStep hReleases hPassed) ?_
      intro w
      exact .pure (fun _ h => ⟨rfl, h⟩)
  · next hUnsettled =>
      have hKept :
          a.leftover r.obj step t.tokens = t.tokens := by
        refine if_neg ?_
        rw [Answers.releases_eq]
        exact hUnsettled
      refine .pure ?_
      intro s hAt
      refine ⟨rfl, ?_⟩
      unfold Manager.advance
      rw [hKept]
      exact hAt

/- A chain ends with the retry that its course has come to. -/
def EndsAs
    (c : Course) : ChainEnd → Prop
  | .completed _ => c.retry? = none
  | .retry _ step requeue cause =>
      c.retry? = some (step, requeue, cause)

/- A chain ends as its course, with its tally. -/
def Ends
    (r : Trial μ)
    (c : Course)
    (e : ChainEnd)
    (s : Session μ) : Prop :=
  EndsAs c e ∧ r.At c.tally e.work s

/- The whole chain, by induction on its steps. -/
theorem At.runChain
    {context : Context}
    {steps : List (Step μ)}
    (hWritable : m.readOnly = false)
    (hApart : m.TokensApart)
    (hAnswering : m.Answering a)
    (hKey : r.obj.key = r.key)
    (hPersisted : r.obj.persisted = r.obj)
    (hSteps : ∀ step ∈ steps, step ∈ m.steps)
    (hPassed : a.visited r.obj steps t.tokens ⊆ passed) :
    Triple (r.At t w) (m.runChain context steps w)
      (r.Ends (m.course a r.obj r.now steps t))
      (fun _ => r.Stopped passed) := by
  induction steps generalizing t w with
  | nil => exact .pure (fun _ hAt => ⟨rfl, hAt⟩)
  | cons step rest ih =>
      have hStart : t.tokens ∈ passed :=
        hPassed (Answers.mem_visited_start _ _)
      unfold Manager.runChain
      refine .bind
        (At.executeStep hWritable hApart hAnswering hKey
          hPersisted (hSteps step List.mem_cons_self) hStart)
        ?_
      intro ran
      rcases ran with ⟨result, w⟩
      refine .assume ?_
      rintro rfl
      unfold Answers.visited at hPassed
      unfold Manager.course
      dsimp only
      have hRest :
          (a.answer r.obj step t.tokens).outcome.continuesChain =
              true →
            ∀ t' : Tally,
              t'.tokens = a.leftover r.obj step t.tokens →
                ∀ w : Work,
                  Triple (r.At t' w) (m.runChain context rest w)
                    (r.Ends
                      (m.course a r.obj r.now rest t'))
                    (fun _ => r.Stopped passed) := by
        intro hContinues t' hTokens w
        rw [if_pos hContinues, ← hTokens] at hPassed
        refine ih (fun other hMember =>
          hSteps other (List.mem_cons_of_mem step hMember)) ?_
        exact List.Subset.trans
          (List.subset_cons_self _ _) hPassed
      have hFailed :
          ∀ s,
            r.At (m.advance a r.obj r.now step t) w s →
              r.At
                { m.advance a r.obj r.now step t with
                  hasError := true }
                { w with hasError := true } s := by
        intro s hAt
        refine { hAt with tallied := ?_ }
        intro hCalm
        rcases hAt.tallied hCalm with ⟨hStatus, hRequeue, _⟩
        exact ⟨hStatus, hRequeue, rfl⟩
      cases hResult : a.answer r.obj step t.tokens with
      | proceed _ =>
          exact hRest (by rw [hResult]; rfl) _ rfl w
      | skipped _ =>
          exact hRest (by rw [hResult]; rfl) _ rfl w
      | errorContinue _ =>
          exact (hRest (by rw [hResult]; rfl) _ rfl _).mono
            hFailed (fun _ _ h => h) (fun _ _ h => h)
      | stopChain _ _ => exact .pure (fun _ hAt => ⟨rfl, hAt⟩)
      | errorStop _ _ =>
          exact .pure (fun s hAt => ⟨rfl, hFailed s hAt⟩)
      | errorRetry _ _ =>
          exact .pure (fun _ hAt => ⟨rfl, hAt⟩)

------------------------------------------------------------
-- Before and After the Chain
------------------------------------------------------------

/- In a run that is disturbed only the tokens matter. -/
theorem At.retally
    {t' : Tally}
    {s : Session μ}
    (hAt : r.At t w s)
    (hCalm : ¬ r.calm)
    (hTokens : t'.tokens = t.tokens) :
    r.At t' w s :=
  { hAt with
    tokens := hAt.tokens.trans hTokens.symm
    emptied := by
      rw [hTokens]
      exact hAt.emptied
    stored := by
      rw [hTokens]
      exact hAt.stored
    tallied := fun h => absurd h hCalm }

/- The hook always succeeds. -/
theorem At.prepare
    {context : Context}
    (hAnswering : m.Answering a)
    (hPassed : t.tokens ∈ passed) :
    Triple (r.At t w) (m.prepare context w)
      (fun prepared s =>
        (∃ context', prepared = some context') ∧ r.At t w s)
      (fun _ => r.Stopped passed) := by
  unfold Manager.prepare
  split
  · exact .pure (fun _ hAt => ⟨⟨context, rfl⟩, hAt⟩)
  · next hook hHook =>
      refine .bind
        (Q := fun prepared s =>
          (∃ context', prepared = .ok context') ∧ r.At t w s)
        ?_ ?_
      · refine .await (M := r.At t w) (fun _ h => h.resume)
          (fun _ h hCancelled =>
            h.stopped hPassed (fun _ => hCancelled)) ?_
        refine .bind
          (.note (Q := fun _ => r.At t w)
            (fun _ h => h.1.note rfl)) ?_
        intro _
        refine (At.call hPassed
          (hAnswering.hook hook hHook context w.obj)).mono
            (fun _ h => h) ?_ (fun _ _ h => h)
        intro prepared s hPrepared
        cases prepared with
        | none => exact hPrepared
        | some prepared => exact hPrepared
      · intro prepared
        refine .assume ?_
        rintro ⟨context', rfl⟩
        exact .pure (fun _ hAt => ⟨⟨context', rfl⟩, hAt⟩)

/- The declared tokens are put on a live object. -/
theorem At.ensureTokens
    {now : Instant}
    (hWritable : m.readOnly = false)
    (hApart : m.TokensApart)
    (hKey : r.obj.key = r.key)
    (hPersisted : r.obj.persisted = r.obj)
    (hTokens : t.tokens = r.tokens)
    (hPassed : r.tokens ∈ passed) :
    Triple (r.At t (.fresh r.fetched now))
      (m.ensureTokens (.fresh r.fetched now))
      (r.At { t with tokens := m.armedWith r.obj r.tokens })
      (fun _ => r.Stopped passed) := by
  have hPassed : t.tokens ∈ passed := by
    rw [hTokens]
    exact hPassed
  have hMissing :
      Tokens.missing m.steps r.fetched =
        Tokens.missing m.steps
          (r.obj.withFinalizers r.tokens) :=
    Tokens.missing_congr hApart.constant rfl
  refine m.ensureTokens_triple (E := r.Stopped passed)
    (fun _ h => h.resume)
    (fun _ h hCancelled =>
      h.stopped hPassed (fun _ => hCancelled))
    (fun _ _ h => ⟨h.left, h.calm⟩) (fun _ _ h => h) ?_ ?_
  · intro s hAt hNothing
    have hArmed : m.armedWith r.obj r.tokens = t.tokens := by
      rw [hTokens]
      unfold Manager.armedWith
      rcases hNothing with hReadOnly | hDeleting | hNone
      · rw [hWritable] at hReadOnly
        cases hReadOnly
      · exact if_pos hDeleting
      · change Tokens.missing m.steps r.fetched = [] at hNone
        rw [← hMissing, hNone]
        exact ite_self r.tokens
    rw [hArmed]
    exact hAt
  · intro _ hLive hSome
    have hLive : r.obj.isDeleting = false := hLive
    have hArmed :
        m.armedWith r.obj r.tokens =
          Tokens.merged (Tokens.missing m.steps r.fetched)
            r.tokens := by
      unfold Manager.armedWith
      rw [hLive, hMissing]
      rfl
    rcases List.exists_mem_of_ne_nil _ hSome with
      ⟨token, hToken⟩
    have hNew := ((Tokens.mem_missing _ _ token).mp hToken).2
    have hAdded :
        Tokens.addAll
            (Tokens.missing m.steps
              (Work.fresh r.fetched now).obj)
            (Work.fresh r.fetched now).obj =
          r.fetched.withFinalizers
            (m.armedWith r.obj r.tokens) := by
      rw [Tokens.addAll_eq, hArmed]
      rfl
    rw [hAdded]
    refine At.sendTokens hKey hPersisted ?_ ?_ hPassed
    · rw [hTokens, hArmed]
      exact Tokens.merged_ne hToken hNew
    · intro hDeleting
      rw [hLive] at hDeleting
      cases hDeleting

/- The readiness is recorded, and no slot is stamped. -/
theorem At.sumUp
    {c : Course}
    {e : ChainEnd}
    (hScheduler : m.scheduler = none)
    (hLast : m.trackLast = false)
    (hPassed : c.tally.tokens ∈ passed) :
    Triple (r.Ends c e) (m.sumUp e)
      (fun w s =>
        EndsAs c e ∧ r.At (m.summed r.obj r.now c) w s)
      (fun _ => r.Stopped passed) := by
  refine .assume ?_
  intro hEnds
  have hRecorded :
      ∀ {w : Work} (readiness : Readiness),
        (∀ s, r.At c.tally w s → r.calm →
          readiness = c.readiness) →
        Triple (r.At c.tally w) (m.recordReadiness readiness w)
          (r.At (m.summed r.obj r.now c))
          (fun _ => r.Stopped passed) := by
    intro w readiness hReadiness s hAt
    refine (At.updateConditions (m := m)
      (fun _ _ _ _ => rfl) hPassed).mono (fun _ h => h) ?_
      (fun _ _ h => h) s hAt
    intro w' s' hAt'
    by_cases hCalm : r.calm
    · rw [hReadiness s hAt hCalm] at hAt'
      exact hAt'
    · exact hAt'.retally hCalm rfl
  cases e with
  | completed w =>
      refine .bind
        (Q := fun w => r.At (m.summed r.obj r.now c) w) ?_ ?_
      · refine hRecorded _ ?_
        intro s hAt hCalm
        rcases hAt.tallied hCalm with ⟨_, hRequeue, hError⟩
        unfold Course.readiness
        rw [hEnds, ← hRequeue, ← hError]
        rfl
      · intro w
        split
        · exact .pure (fun _ hAt => ⟨hEnds, hAt⟩)
        · unfold Manager.stampSlot
          rw [hScheduler]
          refine .map (.pure ?_)
          intro s hAt
          unfold Manager.stampTime
          rw [hLast]
          exact ⟨hEnds, hAt⟩
  | retry w step requeue cause =>
      refine (hRecorded .notReady ?_).mono (fun _ h => h)
        (fun _ _ h => ⟨hEnds, h⟩) (fun _ _ h => h)
      intro _ _ _
      unfold Course.readiness
      rw [hEnds]

end Steps

end Trial

end Reconciler
