import Reconciler.Proofs.Engine.Invariant
import Reconciler.Proofs.Store.Framed

/-
  This file shows that what steps do to their copy of the
  object cannot leak into the store.

  Steps may change any field of the working copy but its
  version.  Patches are made of the snapshot, which no step
  sees, and take nothing from the working copy but tokens.
  A status write is sent under the key that the working copy
  has by then; but its version is that of the object under
  the key of the run, so that any other object refuses it.

  Key definitions include:
    * `Session.Framed`
    * `Copies.Bound`
    * `Manager.LeavesStore`

  Key theorems include:
    * `Manager.sendTokens_framed`
    * `Manager.upholdsClose_framed`
    * `Manager.reconcile_framed`
-/

------------------------------------------------------------
-- Sessions and Copies
------------------------------------------------------------

namespace Reconciler

variable {μ : Type}

namespace Session

/- The other tasks write nothing. -/
def LeavesStore
    (s : Session μ) : Prop :=
  ∀ change ∈ s.others, ∀ scene : Scene μ,
    scene.store.Unwritten (change scene).store

/-
  The store is what a run for the key may have made of it,
  and no other task is going to write it.
-/
structure Framed
    (k : Key)
    (start : Store)
    (s : Session μ) : Prop where
  store : start.Framed k s.scene.store
  others : s.LeavesStore

variable {k : Key}
variable {start : Store}
variable {s : Session μ}

/- At a pause nothing is written either. -/
theorem LeavesStore.unwritten
    (hOthers : s.LeavesStore) :
    s.scene.store.Unwritten s.resume.scene.store :=
  resume_keeps
    (P := fun s' => s.scene.store.Unwritten s'.scene.store)
    (fun _ _ => .refl _)
    (fun change hChange s' h =>
      h.trans (hOthers change hChange s'.scene))

namespace Framed

/- The store keeps to the frame, and an event is noted. -/
theorem moveTo
    (hFramed : s.Framed k start)
    (e : Event)
    {scene : Scene μ}
    (hStore : start.Framed k scene.store) :
    (s.moveTo e scene).Framed k start where
  store := hStore
  others := hFramed.others

/- Hook and steps leave the store alone. -/
theorem returned
    (hFramed : s.Framed k start)
    {scene : Scene μ}
    (hUnwritten : s.scene.store.Unwritten scene.store) :
    (s.moveTo .returned scene).Framed k start :=
  hFramed.moveTo .returned
    (hFramed.store.unwritten hUnwritten)

theorem resume
    (hFramed : s.Framed k start) :
    s.resume.Framed k start := by
  refine resume_keeps ?_ ?_
  · intro rest hRest
    exact
      { hFramed with
        others := fun other hMember =>
          hFramed.others other (hRest hMember) }
  · intro change hChange s' h
    exact h.moveTo .resumed
      (h.store.unwritten
        (hFramed.others change hChange s'.scene))

end Framed

end Session

/-
  The copies of a run for a key: the snapshot is an object
  of that key, with each label once, and no object of
  another key has the version of the working copy.
-/
structure Copies.Bound
    (k : Key)
    (start : Store)
    (c : Copies) : Prop where
  key : c.snapshot.key = k
  labels : (Table.keys c.snapshot.metadata.labels).Nodup
  apart :
    ∀ k' o, k' ≠ k → start.object? k' = some o →
      o.metadata.resourceVersion ≠
        c.obj.metadata.resourceVersion

namespace Manager

open Engine

/-
  Hook and steps leave the store alone.  A step may hand
  back any working copy at the version of the given one.
-/
structure LeavesStore
    (m : Manager μ) : Prop where
  hook :
    ∀ hook, m.hook = some hook →
      ∀ c o, (hook c o).Within Store.Unwritten
  process :
    ∀ step ∈ m.steps, ∀ c o,
      (step.process c o).Within Store.Unwritten
  finalize :
    ∀ step ∈ m.steps, ∀ c o,
      (step.finalize c o).Within Store.Unwritten
  keeps :
    ∀ step ∈ m.steps, ∀ c o scene result o' scene',
      step.process c o scene = .ok (result, o') scene' ∨
          step.finalize c o scene = .ok (result, o') scene' →
        o'.metadata.resourceVersion =
          o.metadata.resourceVersion

------------------------------------------------------------
-- Calls and Writes
------------------------------------------------------------

/- The copies are bound, and the store keeps to the frame. -/
def Tethered
    (k : Key)
    (start : Store)
    (c : Copies)
    (s : Session μ) : Prop :=
  c.Bound k start ∧ s.Framed k start

section Tethered

variable {m : Manager μ}
variable {k : Key}
variable {start : Store}
variable {c : Copies}

theorem call_framed
    {α : Type}
    {x : Call μ α}
    (hLeaves : x.Within Store.Unwritten) :
    Triple (Tethered k start c) (Engine.call x)
      (fun _ => Tethered k start c)
      (fun _ s => s.Framed k start) :=
  .call_within hLeaves
    (fun _ _ _ h _ hStore => ⟨h.1, h.2.returned hStore⟩)
    (fun _ _ h hStore => ⟨h.1, h.2.returned hStore⟩)
    (fun _ _ _ h hStore => h.2.returned hStore)

/- A step hands back a working copy at the same version. -/
theorem callStep_framed
    {x : Call μ (StepResult × Object)}
    (hLeaves : x.Within Store.Unwritten)
    (hKeeps :
      ∀ scene r scene', x scene = .ok r scene' →
        r.2.metadata.resourceVersion =
          c.obj.metadata.resourceVersion) :
    Triple (Tethered k start c) (Engine.call x)
      (fun r => Tethered k start { c with
        obj := (r.map (·.2)).getD c.obj })
      (fun _ s => s.Framed k start) := by
  refine .call_within hLeaves ?_
    (fun _ _ h hStore => ⟨h.1, h.2.returned hStore⟩)
    (fun _ _ _ h hStore => h.2.returned hStore)
  intro s r scene h hRun hStore
  refine ⟨{ h.1 with apart := ?_ }, h.2.returned hStore⟩
  intro k' o hOther hObject
  exact (hKeeps _ _ _ hRun).symm ▸
    h.1.apart k' o hOther hObject

/-
  The tokens of the working copy are sent as a patch of the
  snapshot.  The version that is handed back is no one
  else's.
-/
theorem sendTokens_framed
    (o : Object) :
    Triple (Tethered (μ := μ) k start c)
      (sendTokens { c with obj := o })
      (fun r s =>
        match r.1 with
        | .ok _ => Tethered k start r.2 s
        | .error _ => s.Framed k start)
      (fun _ s => s.Framed k start) := by
  have hPatched :
      ∀ (s : Session μ) r store,
        Tethered k start c s →
          Store.patch
              (c.snapshot.withFinalizers
                o.metadata.finalizers)
              c.snapshot s.scene.store =
            (r, store) →
          start.Framed k store := by
    intro s r store h hPatch
    have hFramed :=
      h.2.store.patched h.1.key
        (Store.mainPatch_tokens_ofEngine c.snapshot
          o.metadata.finalizers)
    rw [hPatch] at hFramed
    exact hFramed
  refine sendTokens_triple ?_ ?_
  · intro s stored store h hPatch
    refine
      ⟨⟨h.1.key, h.1.labels, ?_⟩,
        h.2.moveTo _ (hPatched s _ store h hPatch)⟩
    intro k' other hOther hObject
    rw [← h.2.store.elsewhere k' hOther] at hObject
    rw [← h.1.key] at hOther
    have hApart :=
      Store.patch_ok_apart h.2.store.minted
        (congrArg Prod.fst hPatch) hOther hObject
    exact hApart
  · intro s e store h hPatch
    exact h.2.moveTo _ (hPatched s _ store h hPatch)

/-
  The status of the working copy is written under the key
  that the copy has, which only the run's own object takes.
-/
theorem sendStatus_framed :
    Triple (Tethered (μ := μ) k start c) (sendStatus c.obj)
      (fun r s =>
        match r with
        | .ok stored =>
            Tethered k start
              ⟨c.obj.withVersion
                  stored.metadata.resourceVersion,
                c.snapshot.withVersion
                  stored.metadata.resourceVersion⟩ s
        | .error _ => Tethered k start c s)
      (fun _ s => s.Framed k start) := by
  refine .onStore ?_
  intro s r store h hUpdate
  have hFramed :
      start.Framed k
        (Store.updateStatus c.obj s.scene.store).2 := by
    apply h.2.store.updated
    intro k' o hOther hObject
    rw [h.2.store.elsewhere k' hOther] at hObject
    exact h.1.apart k' o hOther hObject
  rw [hUpdate] at hFramed
  cases r with
  | error _ => exact ⟨h.1, h.2.moveTo _ hFramed⟩
  | ok stored =>
      refine
        ⟨⟨h.1.key, h.1.labels, ?_⟩, h.2.moveTo _ hFramed⟩
      intro k' o hOther hObject
      rw [← h.2.store.elsewhere k' hOther] at hObject
      have hApart :=
        Store.updateStatus_ok_apart h.2.store.minted
          (congrArg Prod.fst hUpdate) hObject
      exact hApart

/- The refresh label is dropped by a patch of the snapshot. -/
theorem sendLabel_framed :
    Triple (Tethered (μ := μ) k start c)
      (sendPatch
        (c.snapshot.mapMetadata (·.removeRefreshLabel))
        c.snapshot)
      (fun _ s => s.Framed k start)
      (fun _ s => s.Framed k start) := by
  refine .onStore ?_
  intro s r store h hPatch
  have hFramed :=
    h.2.store.patched h.1.key
      (Store.mainPatch_label_ofEngine h.1.labels)
  rw [hPatch] at hFramed
  exact h.2.moveTo _ hFramed

------------------------------------------------------------
-- Runs
------------------------------------------------------------

/- The first part of a run keeps its copies bound. -/
theorem upholds_framed
    (hLeaves : m.LeavesStore)
    (k : Key)
    (start : Store) :
    m.Upholds (Tethered k start)
      (fun s => s.Framed k start) where
  edited := fun _ h => ⟨{ h.1 with }, h.2⟩
  reported := fun _ h => ⟨h.1, { h.2 with }⟩
  drawn := fun _ h => ⟨h.1, { h.2 with }⟩
  halts := fun h => h.2
  haltReported := fun _ h => { h with }
  resumed := fun h => ⟨h.1, h.2.resume⟩
  noted := fun _ h => ⟨h.1, { h.2 with }⟩
  hooked := fun context hHook =>
    call_framed (hLeaves.hook _ hHook context _)
  processed := by
    intro c step context hStep _
    refine callStep_framed
      (hLeaves.process step hStep context c.obj) ?_
    intro scene r scene' hRun
    exact hLeaves.keeps step hStep context c.obj scene r.1 r.2
      scene' (.inl hRun)
  finalized := by
    intro c step context hStep _
    refine callStep_framed
      (hLeaves.finalize step hStep context c.obj) ?_
    intro scene r scene' hRun
    exact hLeaves.keeps step hStep context c.obj scene r.1 r.2
      scene' (.inr hRun)
  released := fun _ _ =>
    (sendTokens_framed _).mono (fun _ h => h.1)
      (fun _ _ h => h) (fun _ _ h => h)

/- So does the close. -/
theorem upholdsClose_framed
    (hLeaves : m.LeavesStore)
    (k : Key)
    (start : Store) :
    m.UpholdsClose (Tethered k start)
      (fun s => s.Framed k start) where
  toUpholds := upholds_framed hLeaves k start
  written := fun _ _ =>
    sendStatus_framed.mono (fun _ h => h.1)
      (fun _ _ h => h) (fun _ _ h => h)
  cleared := fun _ =>
    sendLabel_framed.mono (fun _ h => h.1)
      (fun _ _ h => h) (fun _ _ h => h)

/- An object is fetched that nothing has been done to yet. -/
theorem fetch_framed
    {session : Session μ}
    (hOthers : session.LeavesStore)
    (hMinted : session.scene.store.Minted)
    (hOwn :
      ∀ o, session.scene.store.object? k = some o →
        o.key = k ∧ o.metadata.labels.Ordered) :
    Triple (fun s => s = session)
      (await (some <$> fetch k))
      (fun r s =>
        match r with
        | .ok o => Tethered k session.scene.store ⟨o, o⟩ s
        | .error _ => s.Framed k session.scene.store)
      (fun _ s => s.Framed k session.scene.store) := by
  have hStart : session.Framed k session.scene.store :=
    ⟨.refl k hMinted, hOthers⟩
  refine .await
    (M := fun s =>
      s.Framed k session.scene.store ∧
        session.scene.store.Unwritten s.scene.store)
    ?_ (fun _ h _ => h.1) (.map (.onStore ?_))
  · intro s hSame
    rw [hSame]
    exact ⟨hStart.resume, hOthers.unwritten⟩
  · intro s r store h hGet
    rcases h with ⟨⟨hFramed, hUnwritten⟩, _⟩
    have hFetched :=
      hFramed.store.unwritten
        (Store.get_unwritten k s.scene.store)
    rw [hGet] at hFetched
    cases r with
    | error e => exact hFramed.moveTo _ hFetched
    | ok o =>
        have hObject : session.scene.store.object? k = some o :=
          (Store.object?_congr hUnwritten.objects k).symm.trans
            (Store.get_ok (congrArg Prod.fst hGet))
        rcases hOwn o hObject with ⟨hKey, hOrdered⟩
        refine
          ⟨⟨hKey, hOrdered.keys_nodup, ?_⟩,
            hFramed.moveTo _ hFetched⟩
        intro k' other hOther hElse hSame
        exact hOther
          (hMinted.apart k' k other o hElse hObject hSame)

/- The tokens of a live object bind its copies anew. -/
theorem ensureTokens_framed
    (w : Work) :
    Triple (Tethered k start w.toCopies) (m.ensureTokens w)
      (fun w' => Tethered k start w'.toCopies)
      (fun _ s => s.Framed k start) :=
  m.ensureTokens_triple (E := fun s => s.Framed k start)
    (fun _ h => ⟨h.1, h.2.resume⟩) (fun _ h _ => h.2)
    (fun _ _ h => { h with }) (fun _ _ h => h)
    (fun _ h _ => h)
    (fun _ _ _ =>
      (sendTokens_framed _).mono (fun _ h => h.1)
        (fun _ _ h => h) (fun _ _ h => h))

end Tethered

/-
  What a reconcile may write, whatever its steps do to their
  copy of the object and whichever way it ends.  On a store
  that has come about through its operations and is left
  alone by everyone else,

    * each patch that it records says nothing but tokens or
      that the refresh label is gone;
    * the object that is stored afterwards differs from the
      one before in status, tokens, version and the absence
      of that label;
    * the objects of other keys stay as they are.
-/
theorem reconcile_framed
    {m : Manager μ}
    {k : Key}
    {start : Session μ}
    (hLeaves : m.LeavesStore)
    (hOthers : start.LeavesStore)
    (hBuilt : start.scene.store.Built)
    (hOwn :
      ∀ o, start.scene.store.object? k = some o →
        o.key = k ∧ o.metadata.labels.Ordered) :
    (∃ sent,
      ((m.reconcile k).final start).scene.store.patches =
          start.scene.store.patches ++ sent ∧
        ∀ p ∈ sent,
          p.key = k ∧ MergePatch.OfEngine p.patch) ∧
    (∀ after,
      ((m.reconcile k).final start).scene.store.object? k =
          some after →
        ∃ before,
          start.scene.store.object? k = some before ∧
            before.Framed after) ∧
    (∀ k', k' ≠ k →
      ((m.reconcile k).final start).scene.store.object? k' =
        start.scene.store.object? k') := by
  have hUpholds :=
    upholdsClose_framed hLeaves k start.scene.store
  have hRun :
      Triple (fun s => s = start) (m.reconcile k)
        (fun _ s => s.Framed k start.scene.store)
        (fun _ s => s.Framed k start.scene.store) := by
    rw [m.reconcile_eq_draft_finish k]
    refine .bind
      (hUpholds.toUpholds.draft
        (F := Tethered k start.scene.store)
        (fetch_framed hOthers hBuilt.minted hOwn)
        (fun h => h.2) (fun _ h => ⟨h.1, { h.2 with }⟩)
        ensureTokens_framed)
      (fun d => ?_)
    cases d with
    | early why => exact hUpholds.finish (d := .early why)
    | closing e w => exact hUpholds.finish (d := .closing e w)
  have hFramed := (hRun.of_final rfl).store
  exact ⟨hFramed.recorded, hFramed.own, hFramed.elsewhere⟩

/-
  A step that turns its copy into another object, with
  nothing of its own left but the version.
-/
def meddlingStep
    (name : String) : Step Unit where
  name := "step"
  tokens := fun _ => ["token"]
  process := fun _ o =>
    let metadata : Metadata :=
      { name := name
        ns := o.metadata.ns
        generation := 7
        resourceVersion := o.metadata.resourceVersion
        deletionTimestamp := some .epoch
        finalizers := ["stray"]
        labels := [("stray", "label")] }
    return (.ok, ⟨o.kind, metadata, { payload := "edited" }⟩)

/- A manager that schedules, with this step. -/
def meddlingManager
    (name : String) : Manager Unit where
  operator := "operator"
  controller := "controller"
  kind := "TestObject"
  steps := [meddlingStep name]
  conditions := false
  scheduler := some
    { config := ⟨.ofSeconds 3600⟩, jitter := .fixed 30 }
  hook := none
  reporter := .discarding
  policy := .standard
  readOnly := false
  trackLast := false

/- An object that asks for a reconcile. -/
def meddledObject : Object where
  kind := .full
  metadata :=
    { Metadata.fresh "default" "object" with
      labels := [("app", "web"), (refreshLabel, "true")]
      resourceVersion := some "2" }
  status := {}

/- A host with that object and another one. -/
def meddledStart : Session Unit where
  scene :=
    { store := Store.insert meddledObject
        (Store.insert
          { kind := .full
            metadata := .fresh "default" "other"
            status := {} } {})
      clock := ⟨0⟩
      memory := () }

theorem meddling_leavesStore
    (name : String) :
    (meddlingManager name).LeavesStore where
  hook := by
    intro hook hHook
    cases hHook
  process := by
    intro step hStep c o scene
    rw [List.mem_singleton.mp hStep]
    exact .refl _
  finalize := by
    intro step hStep c o scene
    rw [List.mem_singleton.mp hStep]
    exact .refl _
  keeps := by
    intro step hStep c o scene result o' scene' hRun
    rw [List.mem_singleton.mp hStep] at hRun
    rcases hRun with hRun | hRun
    · cases hRun
      rfl
    · cases hRun
      rfl

theorem meddled_leavesStore :
    meddledStart.LeavesStore := by
  intro change hMember
  cases hMember

theorem meddled_built :
    meddledStart.scene.store.Built :=
  .insert _ (.insert _ .empty)

theorem meddled_own :
    ∀ o,
      meddledStart.scene.store.object? meddledObject.key =
          some o →
        o.key = meddledObject.key ∧
          o.metadata.labels.Ordered := by
  have hStored :
      meddledStart.scene.store.object? meddledObject.key =
        some meddledObject := by
    decide +kernel
  intro o hObject
  rw [hStored] at hObject
  cases hObject
  exact ⟨rfl, by decide +kernel⟩

/-
  The step renames its copy to the other object: the status
  write is refused there, and nothing is written but the
  token.
-/
theorem meddling_reconcile_framed :
    (meddlingManager "other").LeavesStore ∧
      meddledStart.LeavesStore ∧
      meddledStart.scene.store.Built ∧
      (∀ o,
        meddledStart.scene.store.object? meddledObject.key =
            some o →
          o.key = meddledObject.key ∧
            o.metadata.labels.Ordered) ∧
      ((((meddlingManager "other").reconcile
          meddledObject.key).final
          meddledStart).scene.store.patches.map (·.patch)) =
        [.obj [("metadata",
          .obj [("finalizers", .texts ["token"])])]] ∧
      (∃ sent,
        (((meddlingManager "other").reconcile
              meddledObject.key).final
              meddledStart).scene.store.patches =
            meddledStart.scene.store.patches ++ sent ∧
          ∀ p ∈ sent,
            p.key = meddledObject.key ∧
              MergePatch.OfEngine p.patch) ∧
      (∀ after,
        (((meddlingManager "other").reconcile
              meddledObject.key).final
              meddledStart).scene.store.object?
              meddledObject.key = some after →
          ∃ before,
            meddledStart.scene.store.object?
                meddledObject.key = some before ∧
              before.Framed after) ∧
      (∀ k', k' ≠ meddledObject.key →
        (((meddlingManager "other").reconcile
              meddledObject.key).final
              meddledStart).scene.store.object? k' =
          meddledStart.scene.store.object? k') :=
  ⟨meddling_leavesStore "other", meddled_leavesStore,
    meddled_built, meddled_own, by decide +kernel,
    reconcile_framed (meddling_leavesStore "other")
      meddled_leavesStore meddled_built meddled_own⟩

/-
  Renamed to nothing that is stored, the copy gets past the
  status write, so that the label is dropped as well.
-/
example :
    (((meddlingManager "nowhere").reconcile
        meddledObject.key).final
        meddledStart).scene.store.patches.map (·.patch) =
      [.obj [("metadata",
          .obj [("finalizers", .texts ["token"])])],
        .obj [("metadata",
          .obj [("labels",
            .obj [(refreshLabel, .null)])])]] := by
  decide +kernel

end Manager

end Reconciler
