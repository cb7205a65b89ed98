import Reconciler.Proofs.Engine.Protection

/-
  This file proves that tokens keep an object alive.

  A life is a sequence of reconciles of one key, between
  which others may write.  As long as a step owes a
  finalization, the object is stored and carries every token
  that the step declares: a live object is armed with all
  tokens before its steps are called, and a token comes off
  only once the step that declares it has settled.

  Key definitions include:
    * `Manager.StepsBehave`
    * `Step.HandsBack`
    * `Manager.Armed`
    * `Manager.Lives`

  Key theorems include:
    * `Manager.upholdsClose_armed`
    * `Manager.reconcile_safe`
    * `Manager.Lives.owed_tokens_kept`
-/

------------------------------------------------------------
-- Steps and Other Writers
------------------------------------------------------------

namespace Reconciler

variable {μ : Type}

/-
  What others may make of the object of a key between two
  reconciles: one that carries tokens stays and keeps them.
-/
structure Store.Spares
    (k : Key)
    (store store' : Store) : Prop where
  keyed : ∀ o, store'.object? k = some o → o.key = k
  kept :
    ∀ o, store.object? k = some o →
      o.metadata.finalizers ≠ [] →
        ∃ o',
          store'.object? k = some o' ∧
            o.metadata.finalizers ⊆ o'.metadata.finalizers

/- A call that leaves the stored objects alone. -/
def Call.KeepsObjects
    {α : Type}
    (c : Call μ α) : Prop :=
  c.Within (fun store store' =>
    store'.objects = store.objects)

/- A step that does no more than to hand its copy back. -/
structure Step.HandsBack
    (step : Step μ) : Prop where
  process :
    ∀ c o, ∃ result, step.process c o = pure (result, o)
  finalize :
    ∀ c o, ∃ result, step.finalize c o = pure (result, o)

namespace Manager

open Engine

/-
  Steps and hook do not write the store, and steps do not
  edit the metadata of their working copy.
-/
structure StepsBehave
    (m : Manager μ) : Prop where
  hook :
    ∀ hook, m.hook = some hook →
      ∀ c o, (hook c o).KeepsObjects
  process :
    ∀ step ∈ m.steps, ∀ c o,
      (step.process c o).KeepsObjects
  finalize :
    ∀ step ∈ m.steps, ∀ c o,
      (step.finalize c o).KeepsObjects
  keeps :
    ∀ step ∈ m.steps, ∀ c o scene result o' scene',
      step.process c o scene = .ok (result, o') scene' ∨
          step.finalize c o scene =
            .ok (result, o') scene' →
        o'.metadata = o.metadata

/- Steps that do no more than to hand their copy back. -/
theorem StepsBehave.of_handsBack
    {m : Manager μ}
    (hHook : m.hook = none)
    (hSteps : ∀ step ∈ m.steps, step.HandsBack) :
    m.StepsBehave where
  hook := by
    intro hook hSome
    rw [hHook] at hSome
    cases hSome
  process := by
    intro step hStep c o scene
    rcases (hSteps step hStep).process c o with ⟨_, hProcess⟩
    rw [hProcess]
    rfl
  finalize := by
    intro step hStep c o scene
    rcases (hSteps step hStep).finalize c o with
      ⟨_, hFinalize⟩
    rw [hFinalize]
    rfl
  keeps := by
    intro step hStep c o scene result o' scene' hRun
    rcases (hSteps step hStep).process c o with ⟨_, hProcess⟩
    rcases (hSteps step hStep).finalize c o with
      ⟨_, hFinalize⟩
    rw [hProcess, hFinalize] at hRun
    rcases hRun with hRun | hRun
    · cases hRun
      rfl
    · cases hRun
      rfl

------------------------------------------------------------
-- Tokens in a Run
------------------------------------------------------------

variable {m : Manager μ}
variable {k : Key}
variable {s : Session μ}

/-
  A live object carries every token that any step declares.
-/
def Armed
    (m : Manager μ)
    (k : Key)
    (c : Copies)
    (s : Session μ) : Prop :=
  m.Tracks k c s ∧
    (c.obj.isDeleting = false →
      ∀ step ∈ m.steps, ∀ o,
        step.tokens o ⊆ c.obj.metadata.finalizers)

section Armed

variable {c c' : Copies}

/- Copies that differ neither in key nor in tokens. -/
theorem Armed.congr
    (hArmed : m.Armed k c s)
    (hKey : c'.obj.key = c.obj.key)
    (hSnapshotKey : c'.snapshot.key = c.snapshot.key)
    (hDeleting : c'.obj.isDeleting = c.obj.isDeleting)
    (hTokens :
      c'.obj.metadata.finalizers =
        c.obj.metadata.finalizers)
    (hSnapshotTokens :
      c'.snapshot.metadata.finalizers =
        c.snapshot.metadata.finalizers) :
    m.Armed k c' s := by
  refine
    ⟨hArmed.1.congr hKey hSnapshotKey hDeleting hTokens
      hSnapshotTokens, ?_⟩
  rw [hDeleting, hTokens]
  exact hArmed.2

/- The end of a call that leaves the stored objects alone. -/
theorem Armed.returned
    (hArmed : m.Armed k c s)
    (scene : Scene μ)
    (hObjects : scene.store.objects = s.scene.store.objects) :
    m.Armed k c (s.moveTo .returned scene) := by
  have hSame := Store.object?_congr hObjects k
  have hSafe : m.Safe k (s.moveTo .returned scene) :=
    hArmed.1.toSafe.idle (by simp) hSame
  exact ⟨hArmed.1.idle hSafe (by simp) hSame, hArmed.2⟩

theorem Armed.call
    {α : Type}
    {x : Call μ α}
    (hKeeps : x.KeepsObjects) :
    Triple (m.Armed k c) (Engine.call x)
      (fun _ => m.Armed k c) (fun _ => m.Safe k) :=
  .call_within hKeeps
    (fun _ _ scene hArmed _ hObjects =>
      hArmed.returned scene hObjects)
    (fun _ scene hArmed hObjects =>
      hArmed.returned scene hObjects)
    (fun _ _ scene hArmed hObjects =>
      (hArmed.returned scene hObjects).1.toSafe)

/- A step hands back a working copy with its metadata. -/
theorem Armed.callStep
    {x : Call μ (StepResult × Object)}
    (hKeeps : x.KeepsObjects)
    (hMetadata :
      ∀ scene r scene', x scene = .ok r scene' →
        r.2.metadata = c.obj.metadata) :
    Triple (m.Armed k c) (Engine.call x)
      (fun r => m.Armed k { c with
        obj := (r.map (·.2)).getD c.obj })
      (fun _ => m.Safe k) := by
  refine .call_within hKeeps ?_
    (fun _ scene hArmed hObjects =>
      hArmed.returned scene hObjects)
    (fun _ _ scene hArmed hObjects =>
      (hArmed.returned scene hObjects).1.toSafe)
  intro s r scene hArmed hRun hObjects
  have hSame := hMetadata _ _ _ hRun
  refine (hArmed.returned scene hObjects).congr
    ?_ rfl ?_ ?_ rfl
  · exact congrArg Metadata.key hSame
  · exact congrArg Metadata.isDeleting hSame
  · exact congrArg Metadata.finalizers hSame

/- A live object is protected from every step. -/
theorem Armed.protects
    (hArmed : m.Armed k c s)
    (hLive : c.obj.isDeleting = false)
    (events : List Event) :
    m.Protects k events s.scene.store := by
  intro step hStep o hDeclares _
  have hTokens := hArmed.2 hLive step hStep
  have hSome : c.obj.metadata.finalizers ≠ [] := by
    intro hNone
    have hEmpty := hTokens o
    rw [hNone] at hEmpty
    exact hDeclares (List.subset_nil.mp hEmpty)
  rcases hArmed.1.stored hSome with ⟨stored, hStored⟩
  refine ⟨stored, hStored, ?_⟩
  rw [hArmed.1.storedTokens stored hStored]
  exact hTokens stored

end Armed

/- The tokens of a step that has just settled come off. -/
theorem Armed.released
    {c : Copies}
    {step : Step μ}
    (hApart : m.TokensApart)
    (hStep : step ∈ m.steps) :
    Triple
      (fun s =>
        m.Armed k c s ∧ s.scene.cancelled = false ∧
          Journal.JustSettled step.name
            (Journal.events s.journal))
      (sendTokens { c with
        obj := Tokens.removeAll (step.tokens c.obj) c.obj })
      (fun r s =>
        match r.1 with
        | .ok _ => m.Armed k r.2 s
        | .error _ => m.Safe k s)
      (fun _ => m.Safe k) := by
  rcases Tokens.removeAll_cases (step.tokens c.obj) c.obj
    with ⟨new, hRemoved, hNew⟩
  refine Triple.mono
    (M := fun s =>
      c.obj.isDeleting = true ∧
        (m.Tracks k c s ∧
          ∀ step ∈ m.steps,
            Journal.Owes step.name
                (Journal.events s.journal) →
              ∀ o,
                step.tokens o ⊆ c.obj.metadata.finalizers →
                  step.tokens o ⊆ new))
    (.assume fun hDeleting =>
      (Tracks.sendTokens hApart hRemoved).mono
        (fun _ h => h) ?_ (fun _ _ h => h))
    ?_ (fun _ _ h => h) (fun _ _ h => h)
  · intro r s hPost
    rcases r with ⟨sent, c'⟩
    cases sent with
    | error e => exact hPost
    | ok _ =>
        rcases hPost with ⟨hTracks, hSame, _⟩
        refine ⟨hTracks, ?_⟩
        intro hLive
        rw [hSame, hDeleting] at hLive
        cases hLive
  · intro s h
    rcases h with ⟨hArmed, _, hSettled⟩
    refine
      ⟨hArmed.1.deleting hSettled.finalizing, hArmed.1, ?_⟩
    intro other hOther hOwes o hOld t hToken
    -- The step itself owes nothing, so the other differs.
    have hDiffer : step ≠ other := by
      intro hSame
      exact hSettled.not_owes (hSame ▸ hOwes)
    refine (hNew t).mpr ⟨hOld hToken, ?_⟩
    intro hOwn
    rw [hApart.constant other hOther o c.obj] at hToken
    exact hApart.disjoint hStep hOther hDiffer c.obj hOwn
      hToken

/- What a run notes keeps the object armed. -/
theorem Armed.noted
    {c : Copies}
    {e : Event}
    (hNotes : m.Notes c.obj e)
    (hArmed : m.Armed k c s) :
    m.Armed k c (s.note e) := by
  have hSafe : m.Safe k (s.moveTo e s.scene) := by
    cases hNotes with
    | hookCalled => exact hArmed.1.toSafe.idle (by simp) rfl
    | processCalled hStep hLive =>
        apply hArmed.1.toSafe.moveTo
        · exact hArmed.protects hLive _
        · exact hArmed.1.keyed
    | finalizeCalled hStep hDeleting hOwns =>
        exact hArmed.1.toSafe.idle (by simp) rfl
    | executed hStep result =>
        exact hArmed.1.toSafe.idle (by simp) rfl
  refine ⟨hArmed.1.idle hSafe ?_ rfl, hArmed.2⟩
  intro step hCalled
  cases hNotes with
  | hookCalled => cases hCalled
  | processCalled hStep hLive => cases hCalled
  | finalizeCalled hStep hDeleting hOwns => exact hDeleting
  | executed hStep result => cases hCalled

/- The first part of a run keeps its object armed. -/
theorem upholds_armed
    (hApart : m.TokensApart)
    (hBehave : m.StepsBehave)
    (k : Key) :
    m.Upholds (m.Armed k) (m.Safe k) where
  edited := fun _ hArmed => hArmed.congr rfl rfl rfl rfl rfl
  reported := fun _ hArmed => ⟨{ hArmed.1 with }, hArmed.2⟩
  drawn := fun _ hArmed => ⟨{ hArmed.1 with }, hArmed.2⟩
  halts := fun hArmed => hArmed.1.toSafe
  haltReported := fun _ hSafe => { hSafe with }
  resumed := fun hArmed => ⟨hArmed.1.resume, hArmed.2⟩
  noted := fun hNotes hArmed => hArmed.noted hNotes
  hooked := fun context hHook =>
    Armed.call (hBehave.hook _ hHook context _)
  processed := by
    intro c step context hStep _
    refine Armed.callStep
      (hBehave.process step hStep context _) ?_
    intro scene r scene' hRun
    exact hBehave.keeps step hStep context c.obj scene r.1 r.2
      scene' (.inl hRun)
  finalized := by
    intro c step context hStep _
    refine Armed.callStep
      (hBehave.finalize step hStep context _) ?_
    intro scene r scene' hRun
    exact hBehave.keeps step hStep context c.obj scene r.1 r.2
      scene' (.inr hRun)
  released := fun hStep _ => Armed.released hApart hStep

/- So does the status write; the end of a run is safe. -/
theorem upholdsClose_armed
    (hApart : m.TokensApart)
    (hBehave : m.StepsBehave)
    (k : Key) :
    m.UpholdsClose (m.Armed k) (m.Safe k) where
  toUpholds := upholds_armed hApart hBehave k
  written := by
    intro c _ _
    refine .onStore ?_
    intro s r store h hRun
    rcases h with ⟨⟨hTracks, hTokens⟩, _⟩
    have hKept :=
      Store.updateStatus_tokens c.obj s.scene.store
    rw [hRun, hTracks.ownKey] at hKept
    have hArmed :
        m.Armed k c
          (s.moveTo (.statusUpdated c.obj r)
            { s.scene with store := store }) :=
      ⟨hTracks.kept hApart (by simp) (by simp) hKept,
        hTokens⟩
    cases r with
    | ok stored => exact hArmed.congr rfl rfl rfl rfl rfl
    | error e => exact hArmed
  cleared := by
    intro c _
    refine .onStore ?_
    intro s r store h hRun
    rcases h with ⟨⟨hTracks, _⟩, _⟩
    have hKept :=
      Store.patch_removeRefreshLabel c.snapshot s.scene.store
    rw [hRun, hTracks.snapshotKey] at hKept
    exact
      (hTracks.kept hApart (by simp) (by simp) hKept).toSafe

/- A fetched object is tracked. -/
theorem fetch_tracks
    (m : Manager μ)
    (k : Key) :
    Triple (m.Safe k) (await (some <$> fetch k))
      (fun r s =>
        match r with
        | .ok o => m.Tracks k ⟨o, o⟩ s
        | .error _ => m.Safe k s)
      (fun _ => m.Safe k) := by
  refine .await (M := m.Safe k) (fun _ h => h.resume)
    (fun _ h _ => h) (.map (.onStore ?_))
  intro s r store h hRun
  have hSame :
      store.object? k = s.scene.store.object? k := by
    have hObjects := Store.get_objects k s.scene.store
    rw [hRun] at hObjects
    exact Store.object?_congr hObjects k
  have hSafe :
      m.Safe k
        (s.moveTo (.fetched k r)
          { s.scene with store := store }) :=
    h.1.idle (by simp) hSame
  cases r with
  | error e => exact hSafe
  | ok o =>
      have hObject : s.scene.store.object? k = some o :=
        Store.get_ok (congrArg Prod.fst hRun)
      have hKey : o.key = k := h.1.keyed o hObject
      refine ⟨hSafe, hKey, hKey, rfl, ?_, ?_, ?_⟩
      · intro stored hStored
        rw [Session.moveTo_scene, hSame, hObject] at hStored
        cases hStored
        rfl
      · intro _
        exact ⟨o, hSame.trans hObject⟩
      · intro hFinalizing
        rw [Session.moveTo_journal, Journal.events_append]
          at hFinalizing
        rcases hFinalizing.of_snoc with
          ⟨step, hCalled⟩ | ⟨_, hUnfetched⟩
        · cases hCalled
        · cases hUnfetched

/- The declared tokens are put on a live object. -/
theorem ensureTokens_armed
    (hWritable : m.readOnly = false)
    (hApart : m.TokensApart)
    (w : Work) :
    Triple (m.Tracks k w.toCopies) (m.ensureTokens w)
      (fun w' => m.Armed k w'.toCopies)
      (fun _ => m.Safe k) := by
  have hDeclared :
      ∀ step ∈ m.steps, ∀ o, ∀ t ∈ step.tokens o,
        t ∈ w.obj.metadata.finalizers ∨
          t ∈ Tokens.missing m.steps w.obj := by
    intro step hStep o t hToken
    rw [hApart.constant step hStep o w.obj] at hToken
    by_cases hOld : t ∈ w.obj.metadata.finalizers
    · exact .inl hOld
    · exact .inr ((Tokens.mem_missing _ _ _).mpr
        ⟨⟨step, hStep, hToken⟩, hOld⟩)
  refine m.ensureTokens_triple (E := m.Safe k)
    (fun _ h => h.resume) (fun _ h _ => h.toSafe)
    (fun _ _ h => { h with }) (fun _ _ h => h) ?_ ?_
  · intro s hTracks hNothing
    refine ⟨hTracks, ?_⟩
    intro hLive step hStep o t hToken
    rcases hNothing with hReadOnly | hDeleting | hNone
    · rw [hWritable] at hReadOnly
      cases hReadOnly
    · rw [hLive] at hDeleting
      cases hDeleting
    · rcases hDeclared step hStep o t hToken with
        hOld | hMissing
      · exact hOld
      · rw [hNone] at hMissing
        cases hMissing
  · intro _ hLive _
    rcases Tokens.addAll_cases
      (Tokens.missing m.steps w.obj) w.obj with
      ⟨new, hAdded, hNew⟩
    refine (Tracks.sendTokens hApart hAdded).mono
      ?_ ?_ (fun _ _ h => h)
    · intro s h
      refine ⟨h.1, ?_⟩
      intro step _ _ o hOld t hToken
      exact (hNew t).mpr (.inl (hOld hToken))
    · intro r s hPost
      rcases r with ⟨sent, c⟩
      cases sent with
      | error e => exact hPost
      | ok _ =>
          rcases hPost with ⟨hTracks, _, hTokens⟩
          refine ⟨hTracks, ?_⟩
          intro _ step hStep o t hToken
          rw [hTokens]
          exact (hNew t).mpr (hDeclared step hStep o t hToken)

/- A reconcile of a safe object leaves it safe. -/
theorem reconcile_safe
    (hWritable : m.readOnly = false)
    (hApart : m.TokensApart)
    (hBehave : m.StepsBehave)
    (k : Key) :
    Triple (m.Safe k) (m.reconcile k)
      (fun _ => m.Safe k) (fun _ => m.Safe k) := by
  rw [m.reconcile_eq_draft_finish k]
  have hUpholds := upholdsClose_armed hApart hBehave k
  refine .bind
    (hUpholds.toUpholds.draft (F := m.Tracks k)
      (m.fetch_tracks k) (fun h => h.toSafe)
      (fun _ h => { h with })
      (ensureTokens_armed hWritable hApart)) ?_
  intro d
  cases d with
  | early why => exact hUpholds.finish (d := .early why)
  | closing e w => exact hUpholds.finish (d := .closing e w)

------------------------------------------------------------
-- Lives
------------------------------------------------------------

/-
  A life of the object of a key: reconciles, each of them
  undisturbed, with writes of others in between.
-/
inductive Lives
    (m : Manager μ)
    (k : Key) : Session μ → Prop where
  | start
      {s : Session μ}
      (hJournal : s.journal = [])
      (hKeyed :
        ∀ o, s.scene.store.object? k = some o → o.key = k)
      (hUndisturbed : s.Undisturbed) :
      Lives m k s
  | reconcile
      {s : Session μ}
      (tags : Table String String)
      (hLives : Lives m k s) :
      Lives m k (m.reconcileRecovered tags k s).2
  | between
      {s s' : Session μ}
      (hLives : Lives m k s)
      (hJournal : s'.journal = s.journal)
      (hSpares : s.scene.store.Spares k s'.scene.store)
      (hUndisturbed : s'.Undisturbed) :
      Lives m k s'

/- Every moment of a life is safe. -/
theorem Lives.safe
    (hWritable : m.readOnly = false)
    (hApart : m.TokensApart)
    (hBehave : m.StepsBehave)
    (hLives : m.Lives k s) :
    m.Safe k s := by
  induction hLives with
  | start hJournal hKeyed hUndisturbed =>
      refine ⟨?_, ?_, hKeyed, hUndisturbed⟩
      · intro before mo after hSplit
        rw [hJournal] at hSplit
        simp at hSplit
      · intro step _ o _ hOwes
        rcases hOwes with ⟨before, after, hEvents, _⟩
        rw [hJournal] at hEvents
        simp at hEvents
  | @reconcile s tags _ ih =>
      have hTriple :=
        reconcile_safe hWritable hApart hBehave k
      unfold reconcileRecovered
      cases hRun : m.reconcile k s with
      | ok d s' => exact hTriple.of_ok ih hRun
      | error halt s' =>
          have hEnd : m.Safe k s' := hTriple.of_error ih hRun
          exact { hEnd with }
  | @between s s' _ hJournal hSpares hUndisturbed ih =>
      refine ⟨?_, ?_, hSpares.keyed, hUndisturbed⟩
      · rw [hJournal]
        exact ih.past
      · intro step hStep o hDeclares hOwes
        rw [hJournal] at hOwes
        have hConstant := hApart.constant step hStep
        rcases ih.present step hStep o hDeclares hOwes with
          ⟨stored, hStored, hTokens⟩
        have hSome : stored.metadata.finalizers ≠ [] := by
          intro hNone
          rw [hNone, hConstant stored o] at hTokens
          exact hDeclares (List.subset_nil.mp hTokens)
        rcases hSpares.kept stored hStored hSome with
          ⟨o', hObject, hKept⟩
        refine ⟨o', hObject, ?_⟩
        rw [hConstant o' stored]
        intro t hToken
        exact hKept (hTokens t hToken)

/-
  As long as a step owes a finalization, the object is
  stored and carries every token that the step declares: at
  every moment of a life, and between its reconciles.
-/
theorem Lives.owed_tokens_kept
    {step : Step μ}
    {o : Object}
    (hWritable : m.readOnly = false)
    (hApart : m.TokensApart)
    (hBehave : m.StepsBehave)
    (hLives : m.Lives k s)
    (hStep : step ∈ m.steps)
    (hDeclares : step.tokens o ≠ []) :
    (∀ before mo after,
      s.journal = before ++ mo :: after →
        Journal.Owes step.name
            (Journal.events (before ++ [mo])) →
          step.Guards k mo.scene.store) ∧
    (Journal.Owes step.name (Journal.events s.journal) →
      step.Guards k s.scene.store) := by
  have hSafe := hLives.safe hWritable hApart hBehave
  constructor
  · intro before mo after hSplit hOwes
    exact hSafe.past before mo after hSplit step hStep o
      hDeclares hOwes
  · intro hOwes
    exact hSafe.present step hStep o hDeclares hOwes

/- A step that is never done with its object. -/
def guardStep : Step Unit where
  name := "step"
  tokens := fun _ => ["token"]
  process := fun _ o =>
    return (.proceed (some (.ofSeconds 5)), o)
  finalize := fun _ o =>
    return (.proceed (some (.ofSeconds 5)), o)

/- A manager that runs this step. -/
def guardManager : Manager Unit where
  operator := "operator"
  controller := "controller"
  kind := "TestObject"
  steps := [guardStep]
  conditions := false
  scheduler := none
  hook := none
  reporter := .discarding
  policy := .standard
  readOnly := false
  trackLast := false

/- The key of an object. -/
def guardKey : Key :=
  .namespaced "default" "object"

/- A host with that object, which carries no token yet. -/
def guardStart : Session Unit where
  scene :=
    { store := Store.insert
        { kind := .full
          metadata := .fresh "default" "object"
          status := {} }
        {}
      clock := ⟨0⟩
      memory := () }

/- The session after a reconcile. -/
def guardProcessed : Session Unit :=
  (guardManager.reconcileRecovered [] guardKey guardStart).2

/- Someone else asks for the deletion of the object. -/
def guardDeleted : Session Unit :=
  { guardProcessed with
    scene := guardProcessed.scene.mapStore
      (Store.modify guardKey (·.mapMetadata (fun m =>
        { m with deletionTimestamp := some .epoch }))) }

/- The session after another reconcile. -/
def guardFinalized : Session Unit :=
  (guardManager.reconcileRecovered [] guardKey
    guardDeleted).2

/-
  What an event tells: the step whose process is called, and
  whether a step has settled.
-/
def hint : Event → Option String × Bool
  | .processCalled step => (some step, false)
  | .executed _ result => (none, result.isSettled)
  | _ => (none, false)

/- A step owes a finalization if nothing settles anymore. -/
theorem owes_of_hints
    {step : String}
    {events : List Event}
    {pre post : List (Option String × Bool)}
    (hHints :
      events.map hint = pre ++ (some step, false) :: post)
    (hUnsettled : ∀ h ∈ post, h.2 = false) :
    Journal.Owes step events := by
  rcases List.map_eq_append_iff.mp hHints with
    ⟨before, rest, hEvents, _, hRest⟩
  rcases List.map_eq_cons_iff.mp hRest with
    ⟨called, after, hSplit, hCalled, hAfter⟩
  have hProcess : called = .processCalled step := by
    cases called with
    | processCalled name =>
        injection hCalled with hName
        rw [Option.some.inj hName]
    | _ => cases hCalled
  refine ⟨before, after, ?_, ?_⟩
  · rw [hEvents, hSplit, hProcess]
  · intro hFinalized
    rcases hFinalized with
      ⟨front, back, result, hEnd, hSettled⟩
    have hHint : hint (.executed step result) ∈ post := by
      rw [← hAfter, hEnd]
      exact List.mem_map_of_mem (by simp)
    have hNot : result.isSettled = false :=
      hUnsettled _ hHint
    rw [hSettled] at hNot
    cases hNot

theorem guard_tokensApart :
    guardManager.TokensApart where
  constant := by
    intro step hStep o o'
    rw [List.mem_singleton.mp hStep]
    rfl
  apart := List.pairwise_singleton _ _

theorem guard_stepsBehave :
    guardManager.StepsBehave := by
  refine .of_handsBack rfl ?_
  intro step hStep
  rw [List.mem_singleton.mp hStep]
  exact ⟨fun _ _ => ⟨_, rfl⟩, fun _ _ => ⟨_, rfl⟩⟩

/- What others do to the object between the reconciles. -/
theorem guard_spares :
    guardProcessed.scene.store.Spares guardKey
      guardDeleted.scene.store where
  keyed := by
    intro o hObject
    have hKey :
        (guardDeleted.scene.store.object? guardKey).map
          (·.key) = some guardKey := by
      decide +kernel
    rw [hObject] at hKey
    exact Option.some.inj hKey
  kept := by
    intro o hObject _
    have hOld :
        (guardProcessed.scene.store.object? guardKey).map
          (·.metadata.finalizers) = some ["token"] := by
      decide +kernel
    have hNew :
        (guardDeleted.scene.store.object? guardKey).map
          (·.metadata.finalizers) = some ["token"] := by
      decide +kernel
    rw [hObject] at hOld
    rcases Option.map_eq_some_iff.mp hNew with
      ⟨o', hObject', hTokens⟩
    refine ⟨o', hObject', ?_⟩
    have hSame : o.metadata.finalizers = ["token"] :=
      Option.some.inj hOld
    rw [hTokens, hSame]
    exact List.Subset.refl _

/- The object of the host lives until its deletion. -/
theorem guard_lives :
    guardManager.Lives guardKey guardFinalized := by
  have hStart : guardManager.Lives guardKey guardStart := by
    refine .start rfl ?_ ?_
    · intro o hObject
      have hKey :
          (guardStart.scene.store.object? guardKey).map
            (·.key) = some guardKey := by
        decide +kernel
      rw [hObject] at hKey
      exact Option.some.inj hKey
    · intro change hMember
      cases hMember
  have hAlone : guardDeleted.others.isEmpty = true := by
    decide +kernel
  refine .reconcile []
    (.between (.reconcile [] hStart) rfl guard_spares ?_)
  intro change hMember
  rw [List.isEmpty_iff.mp hAlone] at hMember
  cases hMember

/- Its step was called and never settled. -/
theorem guard_owes :
    Journal.Owes "step"
      (Journal.events guardFinalized.journal) := by
  have hHints :
      (Journal.events guardFinalized.journal).map hint =
        [(none, false), (none, false)] ++
          (some "step", false) ::
            List.replicate 6 (none, false) := by
    decide +kernel
  exact owes_of_hints hHints (by simp)

theorem guard_owed_tokens_kept :
    guardManager.Lives guardKey guardFinalized ∧
      Journal.Owes "step"
        (Journal.events guardFinalized.journal) ∧
      guardStep.Guards guardKey
        guardFinalized.scene.store :=
  ⟨guard_lives, guard_owes,
    (Lives.owed_tokens_kept (o := ⟨.full, .fresh "" "", {}⟩)
      rfl guard_tokensApart guard_stepsBehave guard_lives
      (List.mem_singleton.mpr rfl)
      (List.cons_ne_nil _ _)).2 guard_owes⟩

end Manager

end Reconciler
