import Reconciler.Proofs.Engine.Shadow
import Reconciler.Proofs.Store.Versionless

/-
  This file runs one manager for one key in two sessions,
  whose stores show the same object of the key but for its
  resource version.

  What else is stored, and which versions were handed out,
  may differ.  The copies of the two runs differ in their
  versions only, and each copy is at the version of what its
  store holds, so that writes go through in both sessions
  or in none.  Meanwhile no other key is touched.

  Key definitions include:
    * `Call.Spares`
    * `Session.Sheltered`
    * `Session.Confined`
    * `Manager.Insular`
    * `Manager.Twins`
    * `Manager.TwinWork`

  Key theorems include:
    * `Manager.write_twins`
    * `Manager.executeStep_twins`
    * `Manager.runChain_twins`
-/

------------------------------------------------------------
-- Confined Sessions
------------------------------------------------------------

namespace Reconciler

variable {μ : Type}

/-
  What is left of a scene if nobody writes the store, moves
  the clock or queues a failure.
-/
structure Scene.Spared
    (before after : Scene μ) : Prop where
  objects : after.store.objects = before.store.objects
  quiet : before.store.Quiet → after.store.Quiet
  clock : after.clock = before.clock

theorem Scene.Spared.refl
    (scene : Scene μ) :
    scene.Spared scene :=
  ⟨rfl, id, rfl⟩

/- Whether it is cancelled does not matter. -/
theorem Scene.Spared.cancel
    {before after : Scene μ}
    (hSpared : before.Spared after) :
    before.Spared after.cancel :=
  { hSpared with }

/- A call that spares scenes, however it ends. -/
def Call.Spares
    {α : Type}
    (c : Call μ α) : Prop :=
  ∀ scene,
    match c scene with
    | .ok _ after => scene.Spared after
    | .error _ after => scene.Spared after

namespace Session

/-
  No failure is queued, and the other tasks spare scenes and
  do not cancel the run.
-/
structure Sheltered
    (s : Session μ) : Prop where
  quiet : s.scene.store.Quiet
  spares :
    ∀ change ∈ s.others, ∀ scene : Scene μ,
      scene.Spared (change scene)
  flags :
    ∀ change ∈ s.others, ∀ scene : Scene μ,
      (change scene).cancelled = scene.cancelled

theorem Sheltered.moveTo
    {s : Session μ}
    {scene : Scene μ}
    (hSheltered : s.Sheltered)
    (e : Event)
    (hSpared : s.scene.Spared scene) :
    (s.moveTo e scene).Sheltered where
  quiet := hSpared.quiet hSheltered.quiet
  spares := hSheltered.spares
  flags := hSheltered.flags

/- At a pause a sheltered session stays as it is. -/
theorem Sheltered.resume
    {s : Session μ}
    (hSheltered : s.Sheltered) :
    s.resume.Sheltered ∧ s.scene.Spared s.resume.scene ∧
      s.resume.scene.cancelled = s.scene.cancelled := by
  rcases s.resume_cases with
    hIdle | ⟨change, rest, hOthers, hRun⟩
  · rw [hIdle]
    exact ⟨hSheltered, .refl _, rfl⟩
  · have hMember : change ∈ s.others := by
      simp [hOthers]
    have hRest : ∀ other ∈ rest, other ∈ s.others := by
      intro other hOther
      simp [hOthers, hOther]
    have hSpared := hSheltered.spares change hMember s.scene
    rw [hRun]
    exact
      ⟨{ quiet := hSpared.quiet hSheltered.quiet
         spares := fun other hOther =>
          hSheltered.spares other (hRest other hOther)
         flags := fun other hOther =>
          hSheltered.flags other (hRest other hOther) },
        hSpared, hSheltered.flags change hMember s.scene⟩

/-
  Since a sheltered start the clock stands still, and other
  keys have been left alone.
-/
structure Confined
    (k : Key)
    (start s : Session μ) : Prop where
  sheltered : s.Sheltered
  clock : s.scene.clock = start.scene.clock
  elsewhere :
    ∀ k', k' ≠ k →
      s.scene.store.object? k' =
        start.scene.store.object? k'

theorem Sheltered.confined
    {s : Session μ}
    (hSheltered : s.Sheltered)
    (k : Key) :
    Confined k s s :=
  ⟨hSheltered, rfl, fun _ _ => rfl⟩

/- A session that has been spared is still confined. -/
theorem Confined.spared
    {k : Key}
    {start s s' : Session μ}
    (hConfined : Confined k start s)
    (hSheltered : s'.Sheltered)
    (hSpared : s.scene.Spared s'.scene) :
    Confined k start s' where
  sheltered := hSheltered
  clock := hSpared.clock.trans hConfined.clock
  elsewhere := fun k' hOther =>
    (Store.object?_congr hSpared.objects k').trans
      (hConfined.elsewhere k' hOther)

/- So is one in which the key has been written. -/
theorem Confined.wrote
    {k : Key}
    {start s : Session μ}
    {op : Store → Except StoreError Object × Store}
    (hConfined : Confined k start s)
    (e : Event)
    (hWrites : Store.WritesAt k op) :
    Confined k start
      (s.moveTo e
        { s.scene with store := (op s.scene.store).2 }) where
  sheltered :=
    { hConfined.sheltered with
      quiet := hWrites.quiet _ hConfined.sheltered.quiet }
  clock := hConfined.clock
  elsewhere := fun k' hOther =>
    ((hWrites.evolves s.scene.store).elsewhere k'
      hOther).trans (hConfined.elsewhere k' hOther)

end Session

------------------------------------------------------------
-- Insular Managers
------------------------------------------------------------

/- The same result, with objects that differ in version. -/
def StepResult.Twin
    (r r' : StepResult × Object) : Prop :=
  r'.1 = r.1 ∧ r'.2.unversioned = r.2.unversioned

/-
  An entry point that sees context and working copy, but not
  the version of the copy, edits no metadata, and spares
  scenes.
-/
structure EntryPoint.Insular
    (f :
      Context → Object → Call μ (StepResult × Object)) :
    Prop where
  agrees :
    ∀ c o version,
      Call.Agrees StepResult.Twin (f c o)
        (f c (o.withVersion version))
  keeps :
    ∀ c o scene r after,
      f c o scene = .ok r after → r.2.metadata = o.metadata
  spares : ∀ c o, (f c o).Spares

/- So is one that hands back what it was given. -/
theorem EntryPoint.Insular.of_return
    (result : StepResult) :
    EntryPoint.Insular (μ := μ)
      (fun _ o => return (result, o)) where
  agrees := fun _ _ _ _ _ _ hFlag =>
    .done ⟨rfl, rfl⟩ hFlag
  keeps := by
    intro c o scene r after hRun
    cases hRun
    rfl
  spares := fun _ _ scene => .refl scene

/- A step with insular entry points. -/
structure Step.Insular
    (step : Step μ) : Prop where
  tokens :
    ∀ o version,
      step.tokens (o.withVersion version) = step.tokens o
  process : EntryPoint.Insular step.process
  finalize : EntryPoint.Insular step.finalize

/- A hook that sees no more, and spares scenes as well. -/
structure Hook.Insular
    (hook : Hook μ) : Prop where
  agrees :
    ∀ c o version,
      Call.Agrees Eq (hook c o)
        (hook c (o.withVersion version))
  spares : ∀ c o, (hook c o).Spares

/- The version of an object does not tell whose it is. -/
theorem Step.Insular.owns_withVersion
    {step : Step μ}
    (hInsular : step.Insular)
    (o : Object)
    (version : Option String) :
    step.owns (o.withVersion version) = step.owns o := by
  unfold Step.owns
  rw [hInsular.tokens]
  rfl

/- The same object, handed back at another version. -/
theorem StepResult.Twin.eq_withVersion
    {o : Object}
    {version : Option String}
    {r r' : StepResult × Object}
    (hTwin : StepResult.Twin r r')
    (hMetadata :
      r'.2.metadata = (o.withVersion version).metadata) :
    r' = (r.1, r.2.withVersion version) := by
  have hObject := r.2.eq_withVersion hTwin.2
  rw [hMetadata] at hObject
  exact Prod.ext hTwin.1 hObject

namespace Manager

open Engine

/-
  A manager with fixed jitter whose hook and steps are
  insular.
-/
structure Insular
    (m : Manager μ) : Prop where
  jitter :
    ∀ sched, m.scheduler = some sched →
      ∃ minutes, sched.jitter = .fixed minutes
  hook : ∀ hook, m.hook = some hook → Hook.Insular hook
  steps : ∀ step ∈ m.steps, step.Insular

/- The missing tokens do not depend on the version. -/
theorem Insular.missing_withVersion
    {m : Manager μ}
    (hInsular : m.Insular)
    (o : Object)
    (version : Option String) :
    Tokens.missing m.steps (o.withVersion version) =
      Tokens.missing m.steps o := by
  have hDeclared :
      Tokens.declared m.steps (o.withVersion version) =
        Tokens.declared m.steps o := by
    unfold Tokens.declared
    rw [List.flatMap_def, List.flatMap_def]
    congr 1
    apply List.map_congr_left
    intro step hStep
    exact (hInsular.steps step hStep).tokens o version
  unfold Tokens.missing
  rw [hDeclared]
  rfl

/- The next slot does not depend on earlier draws. -/
theorem Insular.nextSlot?_draws
    {m : Manager μ}
    {sched : Scheduler}
    (hInsular : m.Insular)
    (hScheduler : m.scheduler = some sched)
    (n n' : Nat)
    (status : Status)
    (now : Instant) :
    sched.nextSlot? n status now =
      sched.nextSlot? n' status now := by
  rcases hInsular.jitter sched hScheduler with
    ⟨minutes, hFixed⟩
  unfold Scheduler.nextSlot? Scheduler.draw
  rw [hFixed]
  rfl

------------------------------------------------------------
-- Twin Sessions
------------------------------------------------------------

/-
  Two sessions that are confined to a key since they
  started, agree on clock and flag, and show the same object
  of the key.
-/
structure Twins
    (k : Key)
    (start start' s t : Session μ) : Prop where
  left : Session.Confined k start s
  right : Session.Confined k start' t
  clock : t.scene.clock = s.scene.clock
  flag : t.scene.cancelled = s.scene.cancelled
  shown : t.scene.store.shown? k = s.scene.store.shown? k

section Moments

variable {k : Key}
variable {start start' s t : Session μ}

/- Two sessions that have been spared are twins still. -/
theorem Twins.spared
    {s' t' : Session μ}
    (hTwins : Twins k start start' s t)
    (hLeft : s'.Sheltered)
    (hRight : t'.Sheltered)
    (hSpared : s.scene.Spared s'.scene)
    (hSpared' : t.scene.Spared t'.scene)
    (hFlag : t'.scene.cancelled = s'.scene.cancelled) :
    Twins k start start' s' t' where
  left := hTwins.left.spared hLeft hSpared
  right := hTwins.right.spared hRight hSpared'
  clock := by
    rw [hSpared.clock, hSpared'.clock, hTwins.clock]
  flag := hFlag
  shown := by
    rw [Store.shown?_congr
        (Store.object?_congr hSpared.objects k),
      Store.shown?_congr
        (Store.object?_congr hSpared'.objects k),
      hTwins.shown]

/- Neither is cancelled at a pause unless the other is. -/
theorem Twins.flag_resume
    (hTwins : Twins k start start' s t) :
    t.resume.scene.cancelled = s.resume.scene.cancelled := by
  rw [hTwins.left.sheltered.resume.2.2,
    hTwins.right.sheltered.resume.2.2, hTwins.flag]

/-
  Both sessions made an operation on the key that matches.
  Other keys are left alone, and the stores show the same.
-/
theorem Twins.wrote
    {op op' : Store → Except StoreError Object × Store}
    (hTwins : Twins k start start' s t)
    (e e' : Event)
    (hMatches :
      Store.Matches k (op s.scene.store) (op' t.scene.store))
    (hWrites : Store.WritesAt k op)
    (hWrites' : Store.WritesAt k op') :
    Twins k start start'
      (s.moveTo e
        { s.scene with store := (op s.scene.store).2 })
      (t.moveTo e'
        { t.scene with store := (op' t.scene.store).2 }) where
  left := hTwins.left.wrote e hWrites
  right := hTwins.right.wrote e' hWrites'
  clock := hTwins.clock
  flag := hTwins.flag
  shown := hMatches.shown

end Moments

end Manager

/- Work on copies at another version. -/
def Work.withVersion
    (version : Option String)
    (w : Work) : Work :=
  { w with
    obj := w.obj.withVersion version
    snapshot := w.snapshot.withVersion version }

namespace Manager

open Engine

/-
  Twin sessions whose work differs in the version only; the
  copies belong to the key, and the working copy is at the
  version of what is stored.
-/
structure TwinWork
    (k : Key)
    (start start' : Session μ)
    (w v : Work)
    (s t : Session μ) : Prop
    extends Twins k start start' s t where
  work : ∃ version, v = w.withVersion version
  obj : w.obj.key = k
  snapshot : w.snapshot.key = k
  isAt :
    s.scene.store.IsAt k w.obj.metadata.resourceVersion
  isAt' :
    t.scene.store.IsAt k v.obj.metadata.resourceVersion

section Runs

variable {m : Manager μ}
variable {k : Key}
variable {start start' s t : Session μ}
variable {w v : Work}

namespace TwinWork

/- Work goes on in sessions that have been spared. -/
theorem spared
    {s' t' : Session μ}
    (hWork : TwinWork k start start' w v s t)
    (hLeft : s'.Sheltered)
    (hRight : t'.Sheltered)
    (hSpared : s.scene.Spared s'.scene)
    (hSpared' : t.scene.Spared t'.scene)
    (hFlag : t'.scene.cancelled = s'.scene.cancelled) :
    TwinWork k start start' w v s' t' where
  toTwins :=
    hWork.toTwins.spared hLeft hRight hSpared hSpared' hFlag
  work := hWork.work
  obj := hWork.obj
  snapshot := hWork.snapshot
  isAt :=
    hWork.isAt.congr (Store.object?_congr hSpared.objects k)
  isAt' :=
    hWork.isAt'.congr (Store.object?_congr hSpared'.objects k)

/- The other tasks of both sessions spare them. -/
theorem resume
    (hWork : TwinWork k start start' w v s t) :
    TwinWork k start start' w v s.resume t.resume :=
  hWork.spared hWork.left.sheltered.resume.1
    hWork.right.sheltered.resume.1
    hWork.left.sheltered.resume.2.1
    hWork.right.sheltered.resume.2.1
    hWork.toTwins.flag_resume

/- Both sessions note an event. -/
theorem note
    (hWork : TwinWork k start start' w v s t)
    (e : Event) :
    TwinWork k start start' w v (s.note e) (t.note e) :=
  hWork.spared (hWork.left.sheltered.moveTo e (.refl _))
    (hWork.right.sheltered.moveTo e (.refl _)) (.refl _)
    (.refl _) hWork.flag

/- A call has ended in both sessions. -/
theorem returned
    {a b : Scene μ}
    (hWork : TwinWork k start start' w v s t)
    (hSpared : s.scene.Spared a)
    (hSpared' : t.scene.Spared b)
    (hFlag : b.cancelled = a.cancelled) :
    TwinWork k start start' w v (s.moveTo .returned a)
      (t.moveTo .returned b) :=
  hWork.spared (hWork.left.sheltered.moveTo _ hSpared)
    (hWork.right.sheltered.moveTo _ hSpared') hSpared
    hSpared' hFlag

/- Reports and draws do not matter. -/
theorem aside
    (hWork : TwinWork k start start' w v s t)
    (rs rs' : List Report)
    (n n' : Nat) :
    TwinWork k start start' w v
      { s with reports := rs, draws := n }
      { t with reports := rs', draws := n' } :=
  hWork.spared { hWork.left.sheltered with }
    { hWork.right.sheltered with } (.refl _) (.refl _)
    hWork.flag

/- Work with the same copies, or with another status. -/
theorem edited
    {w' v' : Work}
    (hWork : TwinWork k start start' w v s t)
    (hSame : ∃ version, v' = w'.withVersion version)
    (hObject : w'.obj.metadata = w.obj.metadata)
    (hObject' : v'.obj.metadata = v.obj.metadata)
    (hSnapshot : w'.snapshot = w.snapshot) :
    TwinWork k start start' w' v' s t where
  toTwins := hWork.toTwins
  work := hSame
  obj := (congrArg Metadata.key hObject).trans hWork.obj
  snapshot := by rw [hSnapshot, hWork.snapshot]
  isAt := by
    rw [hObject]
    exact hWork.isAt
  isAt' := by
    rw [hObject']
    exact hWork.isAt'

end TwinWork

------------------------------------------------------------
-- Reports and Conditions
------------------------------------------------------------

/- Both runs report a failure, or none does. -/
theorem report_twins
    {f : Failure}
    {step : Option String} :
    Abreast (TwinWork k start start' w v)
      (m.report f w.snapshot step)
      (m.report f v.snapshot step)
      (fun _ _ => TwinWork k start start' w v)
      (Twins k start start') := by
  apply Abreast.fact (fun _ _ h => h.work)
  rintro ⟨version, rfl⟩
  have hSame :
      m.report f (w.withVersion version).snapshot step =
        m.report f w.snapshot step :=
    rfl
  rw [hSame]
  unfold report
  dsimp only
  split
  · split
    · exact .update (fun s t h =>
        h.aside _ _ s.draws t.draws)
    · exact .pure (fun _ _ h => h)
  · exact .pure (fun _ _ h => h)

theorem reportStoreError_twins
    {e : StoreError} :
    Abreast (TwinWork k start start' w v)
      (m.reportStoreError e w.snapshot)
      (m.reportStoreError e v.snapshot)
      (fun _ _ => TwinWork k start start' w v)
      (Twins k start start') := by
  unfold reportStoreError
  split
  · exact report_twins
  · exact .pure (fun _ _ h => h)

theorem reportStepError_twins
    {step : String}
    {result : StepResult} :
    Abreast (TwinWork k start start' w v)
      (m.reportStepError step result w.snapshot)
      (m.reportStepError step result v.snapshot)
      (fun _ _ => TwinWork k start start' w v)
      (Twins k start start') := by
  unfold reportStepError
  split
  · split
    · exact report_twins
    · exact .pure (fun _ _ h => h)
  · exact .pure (fun _ _ h => h)

/- Conditions are updated in the same way. -/
theorem updateConditions_twins
    {update :
      Instant → Metadata → List Condition →
        List Condition}
    (hBlind :
      ∀ version i cs,
        update i (w.obj.withVersion version).metadata cs =
          update i w.obj.metadata cs) :
    Abreast (TwinWork k start start' w v)
      (m.updateConditions update w)
      (m.updateConditions update v)
      (TwinWork k start start')
      (Twins k start start') := by
  apply Abreast.fact (fun _ _ h => h.work)
  rintro ⟨version, rfl⟩
  unfold updateConditions
  have hKeeps :
      m.keepsConditions (w.withVersion version).obj =
        m.keepsConditions w.obj :=
    rfl
  rw [hKeeps]
  split
  · refine .bind
      (.clock
        (Q := fun i j s t =>
          j = i ∧
            TwinWork k start start' w (w.withVersion version)
              s t)
        (fun _ _ h => h.clock.symm)
        (fun _ _ _ h => ⟨rfl, h⟩) (fun _ _ h => h.toTwins)) ?_
    intro i j
    apply Abreast.assume
    rintro rfl
    apply Abreast.pure
    intro s t h
    have hSame :
        update j (w.withVersion version).obj.metadata
            (w.withVersion version).obj.status.conditions =
          update j w.obj.metadata w.obj.status.conditions :=
      hBlind version j w.obj.status.conditions
    refine h.edited ⟨version, ?_⟩ rfl rfl rfl
    rw [hSame]
    rfl
  · exact .pure (fun _ _ h => h)

theorem seedCondition_twins
    {type : String}
    {seed :
      Instant → Metadata → List Condition →
        List Condition}
    (hBlind :
      ∀ version i cs,
        seed i (w.obj.withVersion version).metadata cs =
          seed i w.obj.metadata cs) :
    Abreast (TwinWork k start start' w v)
      (m.seedCondition type seed w)
      (m.seedCondition type seed v)
      (TwinWork k start start')
      (Twins k start start') := by
  apply Abreast.fact (fun _ _ h => h.work)
  rintro ⟨version, rfl⟩
  unfold seedCondition
  have hStatus :
      (w.withVersion version).obj.status.conditions =
        w.obj.status.conditions :=
    rfl
  rw [hStatus]
  split
  · exact .pure (fun _ _ h => h)
  · exact updateConditions_twins hBlind

------------------------------------------------------------
-- Writes
------------------------------------------------------------

/- The same copies, each at the version of its store. -/
theorem Twins.atVersions
    {u : Work}
    {version version' : Option String}
    (hTwins : Twins k start start' s t)
    (hObject : u.obj.key = k)
    (hSnapshot : u.snapshot.key = k)
    (hAt : s.scene.store.IsAt k version)
    (hAt' : t.scene.store.IsAt k version') :
    TwinWork k start start' (u.withVersion version)
      (u.withVersion version') s t where
  toTwins := hTwins
  work := ⟨version', rfl⟩
  obj := hObject
  snapshot := hSnapshot
  isAt := hAt
  isAt' := hAt'

/-
  What both runs have come to with a write: new copies at
  the versions handed back, or no object and the old ones.
-/
def WrittenTwins
    (k : Key)
    (start start' : Session μ)
    (w v u : Work) :
    Except StoreError Object → Except StoreError Object →
      Session μ → Session μ → Prop :=
  Agreeing
    (fun o o' =>
      TwinWork k start start'
        (u.withVersion o.metadata.resourceVersion)
        (u.withVersion o'.metadata.resourceVersion))
    (fun e s t =>
      e = .notFound k ∧ TwinWork k start start' w v s t)

/-
  Both runs make a write to the key that matches.  Other
  keys are left alone, and the stores show the same again.
-/
theorem write_twins
    {op op' : Store → Except StoreError Object × Store}
    {event event' : Except StoreError Object → Event}
    {u : Work}
    (hObject : u.obj.key = k)
    (hSnapshot : u.snapshot.key = k)
    (hMatches :
      ∀ s t, TwinWork k start start' w v s t →
        Store.Matches k (op s.scene.store)
          (op' t.scene.store))
    (hWrites : Store.WritesAt k op)
    (hWrites' : Store.WritesAt k op') :
    Abreast (TwinWork k start start' w v)
      (Engine.onStore op event) (Engine.onStore op' event')
      (WrittenTwins k start start' w v u)
      (Twins k start start') := by
  apply Abreast.onStore
  intro s t r r' left right hWork hRun hRun'
  have hMatch := hMatches s t hWork
  have hTwins := hWork.toTwins.wrote (event r) (event' r')
    hMatch hWrites hWrites'
  rw [hRun, hRun'] at hMatch hTwins
  cases hMatch with
  | missing hLeft hRight hGone hGone' =>
      have hLeft : r = .error (.notFound k) := hLeft
      have hRight : r' = .error (.notFound k) := hRight
      rw [hLeft, hRight] at hTwins ⊢
      exact ⟨rfl, rfl,
        { toTwins := hTwins
          work := hWork.work
          obj := hWork.obj
          snapshot := hWork.snapshot
          isAt := fun _ hFound => by
            cases hGone.symm.trans hFound
          isAt' := fun _ hFound => by
            cases hGone'.symm.trans hFound }⟩
  | @written o version hLeft hRight _ hAt hAt' =>
      have hLeft : r = .ok o := hLeft
      have hRight : r' = .ok (o.withVersion version) := hRight
      rw [hLeft, hRight] at hTwins ⊢
      exact hTwins.atVersions hObject hSnapshot hAt hAt'

/- What both runs have come to with their tokens. -/
def SentTwins
    (k : Key)
    (start start' : Session μ)
    (w v : Work)
    (r r' : Except StoreError Bool × Copies)
    (s t : Session μ) : Prop :=
  r'.1 = r.1 ∧
    TwinWork k start start' { w with toCopies := r.2 }
      { v with toCopies := r'.2 } s t

/- The same tokens are sent by both runs. -/
theorem sendTokens_twins
    {fs : List String} :
    Abreast (TwinWork k start start' w v)
      (sendTokens { w.toCopies with
        obj := w.obj.withFinalizers fs })
      (sendTokens { v.toCopies with
        obj := v.obj.withFinalizers fs })
      (SentTwins k start start' w v)
      (Twins k start start') := by
  apply Abreast.fact
    (p := (∃ version, v = w.withVersion version) ∧
      w.obj.key = k ∧ w.snapshot.key = k)
    (fun _ _ h => ⟨h.work, h.obj, h.snapshot⟩)
  rintro ⟨⟨version, rfl⟩, hObject, hSnapshot⟩
  refine .bindAgreeing
    (write_twins
      (u := { w with
        obj := w.obj.withFinalizers fs
        snapshot := w.snapshot.withFinalizers fs })
      hObject hSnapshot ?_ ?_ ?_) ?_ ?_
  · intro s t h
    exact Store.patch_tokens_matches
      h.left.sheltered.quiet.patch
      h.right.sheltered.quiet.patch hSnapshot h.shown
  · rw [← hSnapshot]
    exact Store.patch_writesAt _ _
  · rw [← hSnapshot]
    exact Store.patch_writesAt _
      (w.snapshot.withVersion version)
  · exact fun _ _ => .pure (fun _ _ h => ⟨rfl, h⟩)
  · intro e
    apply Abreast.pure
    intro s t h
    exact ⟨rfl,
      { toTwins := h.2.toTwins
        work := ⟨version, rfl⟩
        obj := h.2.obj
        snapshot := h.2.snapshot
        isAt := h.2.isAt
        isAt' := h.2.isAt' }⟩

/- Tokens are put on the object by both runs, or by none. -/
theorem addTokens_twins
    (hInsular : m.Insular) :
    Abreast (TwinWork k start start' w v)
      (addTokens m.readOnly m.steps w.toCopies)
      (addTokens m.readOnly m.steps v.toCopies)
      (SentTwins k start start' w v)
      (Twins k start start') := by
  apply Abreast.fact (fun _ _ h => h.work)
  rintro ⟨version, rfl⟩
  have hMissing :
      Tokens.missing m.steps (w.withVersion version).obj =
        Tokens.missing m.steps w.obj :=
    hInsular.missing_withVersion w.obj version
  have hDeleting :
      (w.withVersion version).obj.isDeleting =
        w.obj.isDeleting :=
    rfl
  unfold addTokens
  rw [hMissing, hDeleting]
  split
  · exact .pure (fun _ _ h => ⟨rfl, h⟩)
  · split
    · exact .pure (fun _ _ h => ⟨rfl, h⟩)
    · rw [Tokens.addAll_eq, Tokens.addAll_eq]
      exact sendTokens_twins

/- Tokens are taken off by both runs, or by none. -/
theorem removeTokens_twins
    {step : Step μ}
    (hStep : step.Insular) :
    Abreast (TwinWork k start start' w v)
      (removeTokens m.readOnly step w.toCopies)
      (removeTokens m.readOnly step v.toCopies)
      (SentTwins k start start' w v)
      (Twins k start start') := by
  apply Abreast.fact (fun _ _ h => h.work)
  rintro ⟨version, rfl⟩
  have hOwns :
      step.owns (w.withVersion version).obj =
        step.owns w.obj :=
    hStep.owns_withVersion w.obj version
  have hTokens :
      step.tokens (w.withVersion version).obj =
        step.tokens w.obj :=
    hStep.tokens w.obj version
  unfold removeTokens
  rw [hOwns, hTokens]
  split
  · exact .pure (fun _ _ h => ⟨rfl, h⟩)
  · dsimp only
    rw [Tokens.removeAll_eq, Tokens.removeAll_eq]
    exact sendTokens_twins

/-
  Both runs await a patch of tokens and go on with the new
  copies, or report its failure and end with it.
-/
theorem tokens_twins
    {op op' : Engine μ (Except StoreError Bool × Copies)}
    (hOp :
      Abreast (TwinWork k start start' w v) op op'
        (SentTwins k start start' w v)
        (Twins k start start')) :
    Abreast (TwinWork k start start' w v)
      (do
        let (sent, copies) ← await (some <$> op)
        match sent with
        | .ok _ => return { w with toCopies := copies }
        | .error e =>
            m.reportStoreError e copies.snapshot
            fail (.store e))
      (do
        let (sent, copies) ← await (some <$> op')
        match sent with
        | .ok _ => return { v with toCopies := copies }
        | .error e =>
            m.reportStoreError e copies.snapshot
            fail (.store e))
      (TwinWork k start start')
      (Twins k start start') := by
  refine .bind
    (.awaitTogether (M := TwinWork k start start' w v)
      (fun _ _ h => h.resume) (fun _ _ h => h.flag)
      (fun _ _ h => h.toTwins) (.map hOp)) ?_
  rintro ⟨sent, copies⟩ ⟨sent', copies'⟩
  apply Abreast.assume
  intro hSame
  have hSame : sent' = sent := hSame
  rw [hSame]
  cases sent with
  | ok _ => exact .pure (fun _ _ h => h)
  | error e =>
      exact .bind
        (reportStoreError_twins
          (w := { w with toCopies := copies })
          (v := { v with toCopies := copies' }))
        (fun _ _ => .fail (fun _ _ h => h.toTwins))

theorem ensureTokens_twins
    (hInsular : m.Insular) :
    Abreast (TwinWork k start start' w v)
      (m.ensureTokens w) (m.ensureTokens v)
      (TwinWork k start start')
      (Twins k start start') :=
  tokens_twins (addTokens_twins hInsular)

theorem releaseTokens_twins
    {step : Step μ}
    (hStep : step.Insular) :
    Abreast (TwinWork k start start' w v)
      (m.releaseTokens step w) (m.releaseTokens step v)
      (TwinWork k start start')
      (Twins k start start') :=
  tokens_twins (removeTokens_twins hStep)

------------------------------------------------------------
-- Calls
------------------------------------------------------------

/-
  A call that spares scenes and agrees, made by both runs
  after an event.
-/
theorem call_twins
    {α β : Type}
    {S : α → β → Prop}
    {x : Call μ α}
    {y : Call μ β}
    {e : Event}
    (hAgrees : Call.Agrees S x y)
    (hSpares : x.Spares)
    (hSpares' : y.Spares) :
    Abreast (TwinWork k start start' w v)
      (do note e; call x) (do note e; call y)
      (Together
        (fun r r' s t =>
          ((∃ scene after, x scene = .ok r after) ∧
            (∃ scene after, y scene = .ok r' after) ∧
              S r r') ∧
            TwinWork k start start' w v s t)
        (Twins k start start'))
      (Twins k start start') := by
  refine .bind
    (.note (Q := fun _ _ => TwinWork k start start' w v)
      (fun _ _ h => h.note e)) ?_
  intro _ _
  refine .callTogether hAgrees (fun _ _ h => h.clock)
    (fun _ _ h => h.flag) ?_ ?_ ?_
  · intro s t r r' a b h hRun hRun' hResult hFlag
    have hSpared := hSpares s.scene
    have hSpared' := hSpares' t.scene
    rw [hRun] at hSpared
    rw [hRun'] at hSpared'
    exact ⟨⟨⟨_, _, hRun⟩, ⟨_, _, hRun'⟩, hResult⟩,
      h.returned hSpared hSpared' hFlag⟩
  · intro s t a b h hRun hRun'
    have hSpared := hSpares s.scene
    have hSpared' := hSpares' t.scene
    rw [hRun] at hSpared
    rw [hRun'] at hSpared'
    exact (h.returned hSpared.cancel hSpared'.cancel
      rfl).toTwins
  · intro s t p a b h hRun hRun' hFlag
    have hSpared := hSpares s.scene
    have hSpared' := hSpares' t.scene
    rw [hRun] at hSpared
    rw [hRun'] at hSpared'
    exact (h.returned hSpared hSpared' hFlag).toTwins

/- The hook is called by both runs, or by none. -/
theorem prepare_twins
    {c : Context}
    (hInsular : m.Insular) :
    Abreast (TwinWork k start start' w v)
      (m.prepare c w) (m.prepare c v)
      (fun r r' s t =>
        r' = r ∧ TwinWork k start start' w v s t)
      (Twins k start start') := by
  unfold prepare
  cases hHook : m.hook with
  | none => exact .pure (fun _ _ h => ⟨rfl, h⟩)
  | some hook =>
      have hBlind := hInsular.hook hook hHook
      apply Abreast.fact (fun _ _ h => h.work)
      rintro ⟨version, hVersion⟩
      have hAgrees :
          Call.Agrees Eq (hook c w.obj) (hook c v.obj) := by
        rw [hVersion]
        exact hBlind.agrees c w.obj version
      refine .bind
        (.awaitTogether (M := TwinWork k start start' w v)
          (fun _ _ h => h.resume) (fun _ _ h => h.flag)
          (fun _ _ h => h.toTwins)
          (call_twins hAgrees (hBlind.spares c w.obj)
            (hBlind.spares c v.obj))) ?_
      intro r r'
      apply Abreast.assume
      rintro ⟨_, _, rfl⟩
      cases r with
      | ok c => exact .pure (fun _ _ h => ⟨rfl, h⟩)
      | error e =>
          have hEnds :
              Abreast (TwinWork k start start' w v)
                (if e.retry then
                  fail (.prepare e.failure)
                else
                  return none : Engine μ (Option Context))
                (if e.retry then
                  fail (.prepare e.failure)
                else
                  return none : Engine μ (Option Context))
                (fun r r' s t =>
                  r' = r ∧ TwinWork k start start' w v s t)
                (Twins k start start') := by
            split
            · exact .fail (fun _ _ h => h.toTwins)
            · exact .pure (fun _ _ h => ⟨rfl, h⟩)
          dsimp only
          split
          · exact .bind report_twins (fun _ _ => hEnds)
          · exact hEnds

------------------------------------------------------------
-- The Chain
------------------------------------------------------------

/- What both runs have come to with a step. -/
def HandsTwins
    (k : Key)
    (start start' : Session μ)
    (w v : Work)
    (r r' : StepResult × Object × Bool)
    (s t : Session μ) : Prop :=
  (r'.1 = r.1 ∧ r'.2.2 = r.2.2) ∧
    TwinWork k start start' { w with obj := r.2.1 }
      { v with obj := r'.2.1 } s t

/- An entry point is called by both runs. -/
theorem entryPoint_twins
    {f : Context → Object → Call μ (StepResult × Object)}
    {c : Context}
    {e : Event}
    {finalized : Bool}
    (hInsular : EntryPoint.Insular f) :
    Abreast (TwinWork k start start' w v)
      (do
        note e
        let ended ← call (f c w.obj)
        return ended.map (fun r => (r.1, r.2, finalized)))
      (do
        note e
        let ended ← call (f c v.obj)
        return ended.map (fun r => (r.1, r.2, finalized)))
      (Together (HandsTwins k start start' w v)
        (Twins k start start'))
      (Twins k start start') := by
  apply Abreast.fact (fun _ _ h => h.work)
  rintro ⟨version, hVersion⟩
  have hObject : v.obj = w.obj.withVersion version := by
    rw [hVersion]
    rfl
  have hAgrees :
      Call.Agrees StepResult.Twin (f c w.obj)
        (f c v.obj) := by
    rw [hObject]
    exact hInsular.agrees c w.obj version
  rw [← bind_assoc, ← bind_assoc]
  apply Abreast.bindTogether
    (call_twins hAgrees (hInsular.spares c w.obj)
      (hInsular.spares c v.obj))
  · exact .pure (fun _ _ h => h)
  · intro r r'
    apply Abreast.assume
    rintro ⟨⟨_, _, hRun⟩, ⟨_, _, hRun'⟩, hTwin⟩
    have hLeft := hInsular.keeps _ _ _ _ _ hRun
    have hRight := hInsular.keeps _ _ _ _ _ hRun'
    apply Abreast.pure
    intro s t h
    refine ⟨⟨hTwin.1, rfl⟩,
      h.edited ⟨version, ?_⟩ hLeft hRight rfl⟩
    rw [hObject] at hRight
    have hHanded := hTwin.eq_withVersion hRight
    rw [hHanded, hVersion]
    rfl

/- A step is processed, finalized or skipped by both runs. -/
theorem runStep_twins
    {c : Context}
    {step : Step μ}
    (hStep : step.Insular) :
    Abreast (TwinWork k start start' w v)
      (runStep c step w.obj) (runStep c step v.obj)
      (Together (HandsTwins k start start' w v)
        (Twins k start start'))
      (Twins k start start') := by
  apply Abreast.fact
    (p := v.obj.isDeleting = w.obj.isDeleting ∧
      step.owns v.obj = step.owns w.obj)
  · intro s t h
    rcases h.work with ⟨version, hVersion⟩
    rw [hVersion]
    exact ⟨rfl, hStep.owns_withVersion w.obj version⟩
  rintro ⟨hDeleting, hOwns⟩
  unfold runStep
  rw [hDeleting, hOwns]
  split
  · exact entryPoint_twins hStep.process
  · split
    · exact entryPoint_twins hStep.finalize
    · exact .pure (fun _ _ h => ⟨⟨rfl, rfl⟩, h⟩)

/- One step of the chain, in both runs. -/
theorem executeStep_twins
    {c : Context}
    {step : Step μ}
    (hStep : step.Insular) :
    Abreast (TwinWork k start start' w v)
      (m.executeStep c step w) (m.executeStep c step v)
      (fun r r' s t =>
        r'.1 = r.1 ∧ TwinWork k start start' r.2 r'.2 s t)
      (Twins k start start') := by
  apply Abreast.fact
    (p := Phase.ofMetadata v.obj.metadata =
      Phase.ofMetadata w.obj.metadata)
  · intro s t h
    rcases h.work with ⟨version, hVersion⟩
    rw [hVersion]
    rfl
  intro hPhase
  unfold executeStep
  dsimp only
  rw [hPhase]
  refine .bind (seedCondition_twins (fun _ _ _ => rfl)) ?_
  intro seeded seeded'
  refine .bind
    (.awaitTogether
      (M := TwinWork k start start' seeded seeded')
      (fun _ _ h => h.resume) (fun _ _ h => h.flag)
      (fun _ _ h => h.toTwins) (runStep_twins hStep)) ?_
  rintro ⟨result, handed, finalized⟩
    ⟨result', handed', finalized'⟩
  apply Abreast.assume
  rintro ⟨hResult, hFinalized⟩
  have hResult : result' = result := hResult
  have hFinalized : finalized' = finalized := hFinalized
  rw [hResult, hFinalized]
  dsimp only
  refine .bind
    (Q := fun _ _ =>
      TwinWork k start start'
        { seeded with
          obj := handed
          requeue := seeded.requeue.soonest result.requeue }
        { seeded' with
          obj := handed'
          requeue :=
            seeded'.requeue.soonest result.requeue })
    (.note ?_) ?_
  · intro s t h
    have hNoted := h.note (.executed step.name result)
    rcases hNoted.work with ⟨version, hVersion⟩
    refine hNoted.edited ⟨version, ?_⟩ rfl rfl rfl
    exact congrArg
      (fun work : Work =>
        { work with
          requeue := work.requeue.soonest result.requeue })
      hVersion
  intro _ _
  refine .bind
    (updateConditions_twins (fun _ _ _ => rfl)) ?_
  intro recorded recorded'
  refine .bind reportStepError_twins ?_
  intro _ _
  split
  · exact .bind (releaseTokens_twins hStep)
      (fun _ _ => .pure (fun _ _ h => ⟨rfl, h⟩))
  · exact .pure (fun _ _ h => ⟨rfl, h⟩)

/- Both runs count the same, whatever has failed. -/
theorem TwinWork.tallied
    (hWork : TwinWork k start start' w v s t)
    (hasError : Bool) :
    TwinWork k start start' { w with hasError := hasError }
      { v with hasError := hasError } s t := by
  rcases hWork.work with ⟨version, hVersion⟩
  refine hWork.edited ⟨version, ?_⟩ rfl rfl rfl
  rw [hVersion]
  rfl

/- Both chains have come to the same end. -/
def EndTwins
    (k : Key)
    (start start' : Session μ)
    (e e' : ChainEnd)
    (s t : Session μ) : Prop :=
  ∃ v,
    e' = e.withWork v ∧
      TwinWork k start start' e.work v s t

/- The whole chain, by induction on its steps. -/
theorem runChain_twins
    {c : Context}
    {steps : List (Step μ)}
    (hSteps : ∀ step ∈ steps, step.Insular) :
    Abreast (TwinWork k start start' w v)
      (m.runChain c steps w) (m.runChain c steps v)
      (EndTwins k start start')
      (Twins k start start') := by
  induction steps generalizing w v with
  | nil => exact .pure (fun _ _ h => ⟨v, rfl, h⟩)
  | cons step rest ih =>
      have hRest :
          ∀ {w v : Work},
            Abreast (TwinWork k start start' w v)
              (m.runChain c rest w) (m.runChain c rest v)
              (EndTwins k start start')
              (Twins k start start') :=
        ih (fun other hOther =>
          hSteps other (List.mem_cons_of_mem _ hOther))
      unfold runChain
      refine .bind
        (executeStep_twins
          (hSteps step List.mem_cons_self)) ?_
      rintro ⟨result, w'⟩ ⟨result', v'⟩
      apply Abreast.assume
      intro hResult
      have hResult : result' = result := hResult
      rw [hResult]
      cases result with
      | proceed _ => exact hRest
      | skipped _ => exact hRest
      | stopChain _ _ =>
          exact .pure (fun _ _ h => ⟨_, rfl, h⟩)
      | errorContinue _ =>
          exact hRest.mono (fun _ _ h => h.tallied true)
            (fun _ _ _ _ h => h) (fun _ _ h => h)
      | errorStop _ _ =>
          exact .pure (fun _ _ h =>
            ⟨_, rfl, h.tallied true⟩)
      | errorRetry _ _ =>
          exact .pure (fun _ _ h => ⟨_, rfl, h⟩)

end Runs

end Manager

end Reconciler
