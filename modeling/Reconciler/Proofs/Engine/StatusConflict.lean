import Reconciler.Proofs.Engine.StatusWrite
import Reconciler.Proofs.Engine.Tokens
import Reconciler.Proofs.Store.Versions

/-
  This file says when a status write overwrites what other
  writers have done to the status since the fetch.

  The store refuses a write at a stale version, so what
  counts is which version the engine holds.  It takes one
  over from the fetch, and from every patch of tokens that
  succeeds.  A patch hands back the version of a state that
  the engine has not seen: whoever wrote the status before
  the patch is overwritten, and only a write after the last
  patch makes for a conflict.

  Key definitions include:
    * `Journal.ForeignStatusChange`
    * `Journal.WrittenSinceAdoption`
    * `Manager.KeepsForeignStatus`
    * `Manager.RespectsVersions`

  Key theorems include:
    * `Manager.statusWrite_ok_iff`
    * `Manager.statusWrite_conflict_iff`
    * `Manager.keepsForeignStatus_iff`
-/

------------------------------------------------------------
-- Adoptions and Foreign Writes
------------------------------------------------------------

namespace Reconciler

/-
  Whether the engine takes a version over from the store: by
  a fetch or a patch that succeeds.
-/
def Event.adopts : Event → Bool
  | .fetched _ (.ok _) => true
  | .patched _ _ (.ok _) => true
  | _ => false

/- Whether a moment was left behind by someone else. -/
def Event.isForeign : Event → Bool
  | .resumed => true
  | .returned => true
  | _ => false

namespace Journal

variable {μ : Type}

/-
  After its fetch, a run has met a moment in which someone
  else changed the status of the stored object.
-/
def ForeignStatusChange
    (k : Key)
    (j : List (Moment μ)) : Prop :=
  ∃ before last mo after fetched old new,
    j = before ++ last :: mo :: after ∧
      .fetched k (.ok fetched) ∈ events (before ++ [last]) ∧
      mo.event.isForeign = true ∧
      last.scene.store.object? k = some old ∧
      mo.scene.store.object? k = some new ∧
      new.status ≠ old.status

/-
  The stored object was written after the last moment in
  which the engine took a version over.
-/
def WrittenSinceAdoption
    (k : Key)
    (j : List (Moment μ)) : Prop :=
  ∃ before adopted after,
    j = before ++ adopted :: after ∧
      adopted.event.adopts = true ∧
      (∀ mo ∈ after, mo.event.adopts = false) ∧
      ∃ mo ∈ after,
        mo.scene.store.object? k ≠
          adopted.scene.store.object? k

/-
  A status write at a scene is going to be refused as a
  conflict: the store is made to, or the object is there and
  was written after the last adoption.
-/
def ConflictAhead
    (k : Key)
    (scene : Scene μ)
    (j : List (Moment μ)) : Prop :=
  match scene.store.statusFailures with
  | e :: _ => e.isConflict = true
  | [] =>
      scene.store.contains k = true ∧
        WrittenSinceAdoption k j

/-
  What is known since the engine took a version over: the
  store has evolved from moment to moment, and the stored
  object had that version, if it was there.
-/
structure Trail
    (k : Key)
    (version : Option String)
    (adopted : Moment μ)
    (after : List (Moment μ))
    (scene : Scene μ) : Prop where
  adopts : adopted.event.adopts = true
  quiet : ∀ mo ∈ after, mo.event.adopts = false
  synced : lastScene adopted.scene after = scene
  since :
    ∀ mo ∈ after,
      adopted.scene.store.version ≤ mo.scene.store.version
  reaches :
    ∀ mo ∈ adopted :: after,
      mo.scene.store.Evolves scene.store
  held :
    ∃ n,
      version = Store.versionText n ∧
        n ≤ adopted.scene.store.version ∧
        ∀ o, adopted.scene.store.object? k = some o →
          o.metadata.resourceVersion = version

namespace Trail

variable {k : Key}
variable {version : Option String}
variable {adopted : Moment μ}
variable {after : List (Moment μ)}
variable {scene : Scene μ}

/- The trail begins where a version is taken over. -/
theorem start
    {e : Event}
    (hAdopts : e.adopts = true)
    (hHeld :
      ∃ n,
        version = Store.versionText n ∧
          n ≤ scene.store.version ∧
          ∀ o, scene.store.object? k = some o →
            o.metadata.resourceVersion = version) :
    Trail k version ⟨e, scene⟩ [] scene where
  adopts := hAdopts
  quiet := by simp
  synced := rfl
  since := by simp
  reaches := by
    intro mo hMember
    rw [List.mem_singleton.mp hMember]
    exact .refl _
  held := hHeld

/- The trail goes on as the store evolves. -/
theorem snoc
    {e : Event}
    {scene' : Scene μ}
    (hTrail : Trail k version adopted after scene)
    (hAdopts : e.adopts = false)
    (hEvolves : scene.store.Evolves scene'.store) :
    Trail k version adopted (after ++ [⟨e, scene'⟩])
      scene' where
  adopts := hTrail.adopts
  quiet := by
    intro mo hMember
    rcases List.mem_append.mp hMember with hOld | hNew
    · exact hTrail.quiet mo hOld
    · rw [List.mem_singleton.mp hNew]
      exact hAdopts
  synced := lastScene_snoc _ _ _
  since := by
    intro mo hMember
    rcases List.mem_append.mp hMember with hOld | hNew
    · exact hTrail.since mo hOld
    · rw [List.mem_singleton.mp hNew]
      exact Nat.le_trans
        (hTrail.reaches adopted (by simp)).version
        hEvolves.version
  reaches := by
    intro mo hMember
    rw [← List.cons_append] at hMember
    rcases List.mem_append.mp hMember with hOld | hNew
    · exact (hTrail.reaches mo hOld).trans hEvolves
    · rw [List.mem_singleton.mp hNew]
      exact .refl _
  held := hTrail.held

/-
  The stored object still has the version that was taken
  over if and only if nobody has written it since.
-/
theorem current_iff
    {current : Object}
    (hTrail : Trail k version adopted after scene)
    (hCurrent : scene.store.object? k = some current) :
    version = current.metadata.resourceVersion ↔
      ∀ mo ∈ after,
        mo.scene.store.object? k =
          adopted.scene.store.object? k := by
  rcases hTrail.held with ⟨n, hVersion, hBound, hHeld⟩
  constructor
  · intro hSame mo hMember
    have hText :
        current.metadata.resourceVersion =
          Store.versionText n :=
      hSame.symm.trans hVersion
    have hAdopted :=
      (hTrail.reaches adopted
        (by simp)).object_of_old_version hCurrent hText hBound
    have hMoment :=
      (hTrail.reaches mo
        (by simp [hMember])).object_of_old_version
          hCurrent hText
          (Nat.le_trans hBound (hTrail.since mo hMember))
    rw [hAdopted, hMoment]
  · intro hUnwritten
    have hAdopted :
        adopted.scene.store.object? k = some current := by
      rw [← hCurrent, ← hTrail.synced]
      rcases lastScene_mem adopted.scene after with
        hBegin | ⟨mo, hMember, hLast⟩
      · rw [hBegin]
      · rw [hLast]
        exact (hUnwritten mo hMember).symm
    exact (hHeld current hAdopted).symm

/-
  Whether the object was written since the last adoption is
  told by any trail, since the last adoption is unique.
-/
theorem writtenSinceAdoption_iff
    {before : List (Moment μ)}
    (hTrail : Trail k version adopted after scene) :
    WrittenSinceAdoption k (before ++ adopted :: after) ↔
      ¬ ∀ mo ∈ after,
        mo.scene.store.object? k =
          adopted.scene.store.object? k := by
  have hQuiet :
      ∀ mo ∈ after, ¬ mo.event.adopts = true := by
    intro mo hMember
    rw [hTrail.quiet mo hMember]
    exact Bool.false_ne_true
  constructor
  · intro hWritten hUnwritten
    rcases hWritten with
      ⟨before', adopted', after', hSame, hAdopts, hQuiet',
        mo, hMember, hChanged⟩
    have hQuiet' :
        ∀ mo ∈ after', ¬ mo.event.adopts = true := by
      intro mo hMember
      rw [hQuiet' mo hMember]
      exact Bool.false_ne_true
    rcases split_unique
      (p := fun mo : Moment μ => mo.event.adopts = true)
      hSame hTrail.adopts hAdopts hQuiet hQuiet' with
      ⟨_, hAdopted, hAfter⟩
    rw [← hAfter] at hMember
    rw [← hAdopted] at hChanged
    exact hChanged (hUnwritten mo hMember)
  · intro hChanged
    rcases Classical.not_forall.mp hChanged with ⟨mo, hMo⟩
    rcases Classical.not_imp.mp hMo with ⟨hMember, hNe⟩
    exact ⟨before, adopted, after, rfl, hTrail.adopts,
      hTrail.quiet, mo, hMember, hNe⟩

end Trail

end Journal

------------------------------------------------------------
-- Versions in a Run
------------------------------------------------------------

variable {μ : Type}

/- A call that leaves a store as writers may leave it. -/
def Call.Evolves
    {α : Type}
    (c : Call μ α) : Prop :=
  c.Within Store.Evolves

/-
  The other tasks write the store through its operations and
  keep objects under their keys.
-/
structure Session.RespectsVersions
    (s : Session μ) : Prop where
  versioned : s.scene.store.Versioned
  keyed : s.scene.store.Keyed
  evolves :
    ∀ change ∈ s.others, ∀ scene : Scene μ,
      scene.store.Evolves (change scene).store
  keys :
    ∀ change ∈ s.others, ∀ scene : Scene μ,
      scene.store.Keyed → (change scene).store.Keyed

/- That is still so when another task has run. -/
theorem Session.RespectsVersions.resume
    {s : Session μ}
    (hRespects : s.RespectsVersions) :
    s.resume.RespectsVersions := by
  refine Session.resume_keeps ?_ ?_
  · intro rest hRest
    exact
      { hRespects with
        evolves := fun other hMember =>
          hRespects.evolves other (hRest hMember)
        keys := fun other hMember =>
          hRespects.keys other (hRest hMember) }
  · intro change hChange s' h
    exact
      { h with
        versioned :=
          (hRespects.evolves change hChange _).versioned
            h.versioned
        keyed :=
          hRespects.keys change hChange _ h.keyed }

namespace Manager

open Engine

/-
  So do hook and steps; besides, steps leave the key and the
  version of the working copy alone.
-/
structure RespectsVersions
    (m : Manager μ) : Prop where
  hook :
    ∀ hook, m.hook = some hook →
      ∀ c o, (hook c o).Evolves
  process :
    ∀ step ∈ m.steps, ∀ c o, (step.process c o).Evolves
  finalize :
    ∀ step ∈ m.steps, ∀ c o, (step.finalize c o).Evolves
  keeps :
    ∀ step ∈ m.steps, ∀ c o scene result o' scene',
      step.process c o scene = .ok (result, o') scene' ∨
          step.finalize c o scene = .ok (result, o') scene' →
        o'.key = o.key ∧
          o'.metadata.resourceVersion =
            o.metadata.resourceVersion

/-
  The engine holds the version that it took over last, of
  the object under the key.
-/
def Follows
    (k : Key)
    (start : Session μ)
    (c : Copies)
    (s : Session μ) : Prop :=
  ∃ before adopted after,
    s.journal =
        start.journal ++ (before ++ adopted :: after) ∧
      Journal.Trail k c.obj.metadata.resourceVersion adopted
        after s.scene ∧
      c.obj.key = k ∧ c.snapshot.key = k ∧
      s.scene.store.Versioned ∧
      ∀ change ∈ s.others, ∀ scene : Scene μ,
        scene.store.Evolves (change scene).store

section Following

variable {m : Manager μ}
variable {k : Key}
variable {start s : Session μ}
variable {c : Copies}

theorem Follows.moveTo
    {e : Event}
    (hFollows : Follows k start c s)
    (scene : Scene μ)
    (hAdopts : e.adopts = false)
    (hEvolves : s.scene.store.Evolves scene.store) :
    Follows k start c (s.moveTo e scene) := by
  rcases hFollows with
    ⟨before, adopted, after, hJournal, hTrail, hKey,
      hSnapshot, hVersioned, hOthers⟩
  refine
    ⟨before, adopted, after ++ [⟨e, scene⟩], ?_,
      hTrail.snoc hAdopts hEvolves, hKey, hSnapshot,
      hEvolves.versioned hVersioned, hOthers⟩
  rw [Session.moveTo_journal, hJournal]
  simp

theorem Follows.resume
    (hFollows : Follows k start c s) :
    Follows k start c s.resume := by
  rcases hFollows with
    ⟨before, adopted, after, hJournal, hTrail, hKey,
      hSnapshot, hVersioned, hEvolves⟩
  refine Session.resume_keeps ?_ ?_
  · intro rest hRest
    exact
      ⟨before, adopted, after, hJournal, hTrail, hKey,
        hSnapshot, hVersioned,
        fun other hMember =>
          hEvolves other (hRest hMember)⟩
  · intro change hChange s' h
    exact h.moveTo _ rfl (hEvolves change hChange s'.scene)

/- A patch of tokens that succeeds is the next adoption. -/
theorem Follows.sendTokens
    {o : Object}
    (hKey : o.key = c.obj.key) :
    Triple (Follows k start c)
      (Engine.sendTokens { c with obj := o })
      (fun r s =>
        match r.1 with
        | .ok _ => Follows k start r.2 s
        | .error _ => True)
      (fun _ _ => True) := by
  refine sendTokens_triple ?_ (fun _ _ _ _ _ => trivial)
  intro s stored store hFollows hPatch
  rcases hFollows with
    ⟨before, adopted, after, hJournal, hTrail, hOwn,
      hSnapshot, hVersioned, hOthers⟩
  dsimp only at hPatch
  have hEvolves : s.scene.store.Evolves store := by
    have hPatched :=
      Store.patch_evolves
        (c.snapshot.withFinalizers o.metadata.finalizers)
        c.snapshot s.scene.store
    rw [hPatch] at hPatched
    exact hPatched
  have hHeld := Store.patch_ok_version hVersioned hPatch
  rw [hSnapshot] at hHeld
  refine
    ⟨before ++ adopted :: after,
      ⟨.patched
          (c.snapshot.withFinalizers o.metadata.finalizers)
          c.snapshot (.ok stored),
        { s.scene with store := store }⟩,
      [], ?_, .start rfl hHeld, hKey.trans hOwn, hSnapshot,
      hEvolves.versioned hVersioned, hOthers⟩
  rw [Session.moveTo_journal, hJournal]
  simp

/- A call keeps the version that the engine holds. -/
theorem Follows.call
    {α : Type}
    {x : Call μ α}
    (hEvolves : x.Evolves) :
    Triple (Follows k start c) (Engine.call x)
      (fun _ => Follows k start c) (fun _ _ => True) :=
  .call_within hEvolves
    (fun _ _ scene hFollows _ hStep =>
      hFollows.moveTo scene rfl hStep)
    (fun _ scene hFollows hStep =>
      hFollows.moveTo scene rfl hStep)
    (fun _ _ _ _ _ => trivial)

/- A step hands back a working copy at the same version. -/
theorem Follows.callStep
    {x : Call μ (StepResult × Object)}
    (hEvolves : x.Evolves)
    (hKeeps :
      ∀ scene r scene', x scene = .ok r scene' →
        r.2.key = c.obj.key ∧
          r.2.metadata.resourceVersion =
            c.obj.metadata.resourceVersion) :
    Triple (Follows k start c) (Engine.call x)
      (fun r => Follows k start { c with
        obj := (r.map (·.2)).getD c.obj })
      (fun _ _ => True) := by
  refine .call_within hEvolves ?_
    (fun _ scene hFollows hStep =>
      hFollows.moveTo scene rfl hStep)
    (fun _ _ _ _ _ => trivial)
  intro s r scene hFollows hRun hStep
  rcases hKeeps _ _ _ hRun with ⟨hKey, hVersion⟩
  rcases hFollows.moveTo (e := .returned) scene rfl hStep with
    ⟨before, adopted, after, hJournal, hTrail, hOwn, hRest⟩
  exact ⟨before, adopted, after, hJournal,
    hVersion ▸ hTrail, hKey.trans hOwn, hRest⟩

/- The first part of a run follows the stored object. -/
theorem upholds_follows
    (hRespects : m.RespectsVersions)
    (k : Key)
    (start : Session μ) :
    m.Upholds (Follows k start) (fun _ => True) where
  edited := fun _ hFollows => hFollows
  reported := fun _ hFollows => hFollows
  drawn := fun _ hFollows => hFollows
  halts := fun _ => trivial
  haltReported := fun _ _ => trivial
  resumed := fun hFollows => hFollows.resume
  noted := by
    intro c s e hNotes hFollows
    have hAdopts : e.adopts = false := by
      cases hNotes with
      | hookCalled => rfl
      | processCalled hStep hLive => rfl
      | finalizeCalled hStep hDeleting hOwns => rfl
      | executed hStep result => rfl
    exact hFollows.moveTo s.scene hAdopts (.refl _)
  hooked := by
    intro c hook context hHook
    exact Follows.call
      (hRespects.hook hook hHook context c.obj)
  processed := by
    intro c step context hStep _
    refine Follows.callStep
      (hRespects.process step hStep context c.obj) ?_
    intro scene r scene' hRun
    exact hRespects.keeps step hStep context c.obj scene r.1
      r.2 scene' (.inl hRun)
  finalized := by
    intro c step context hStep _
    refine Follows.callStep
      (hRespects.finalize step hStep context c.obj) ?_
    intro scene r scene' hRun
    exact hRespects.keeps step hStep context c.obj scene r.1
      r.2 scene' (.inr hRun)
  released := by
    intro c step _ _
    rcases Tokens.removeAll_cases (step.tokens c.obj) c.obj
      with ⟨fs, hRemoved, _⟩
    refine (Follows.sendTokens (c := c) ?_).mono
      (fun _ h => h.1) (fun _ _ h => h) (fun _ _ h => h)
    rw [hRemoved]
    rfl

/- At its close, a run holds the version it took over last. -/
theorem draft_follows
    (hRespects : m.RespectsVersions)
    (hStart : start.RespectsVersions)
    (k : Key) :
    Triple (fun s => s = start) (m.draft k)
      (fun d s =>
        match d with
        | .early _ => True
        | .closing _ w => Follows k start w.toCopies s)
      (fun _ _ => True) := by
  have hUpholds := upholds_follows hRespects k start
  refine hUpholds.draft (F := Follows k start) ?_
    (fun _ => trivial) (fun _ hFollows => hFollows) ?_
  · refine .await
      (M := fun s =>
        s.RespectsVersions ∧ Journal.IdleSince start s)
      ?_ (fun _ _ _ => trivial) (.map (.onStore ?_))
    · intro s hSame
      rw [hSame]
      exact ⟨hStart.resume, .resume start⟩
    · intro s r store hResumed hGet
      cases r with
      | error e => trivial
      | ok o =>
          rcases hResumed.1 with
            ⟨hRespected, new, hJournal, _⟩
          have hObject : s.scene.store.object? k = some o :=
            Store.get_ok (congrArg Prod.fst hGet)
          have hKey : o.key = k :=
            hRespected.keyed k o hObject
          have hEvolves : s.scene.store.Evolves store := by
            have hFetched :=
              Store.get_evolves k s.scene.store
            rw [hGet] at hFetched
            exact hFetched
          have hHeld :=
            Store.get_ok_version hRespected.versioned hGet
          refine
            ⟨new,
              ⟨.fetched k (.ok o),
                { s.scene with store := store }⟩,
              [], ?_, .start rfl hHeld, hKey, hKey,
              hEvolves.versioned hRespected.versioned,
              hRespected.evolves⟩
          rw [Session.moveTo_journal, hJournal,
            List.append_assoc]
  · intro w
    refine m.ensureTokens_triple
      (Q := fun w' => Follows k start w'.toCopies)
      (E := fun _ => True)
      (fun _ hFollows => hFollows.resume)
      (fun _ _ _ => trivial) (fun _ _ _ => trivial)
      (fun _ _ _ => trivial) (fun _ hFollows _ => hFollows)
      ?_
    intro _ _ _
    rcases Tokens.addAll_cases
      (Tokens.missing m.steps w.obj) w.obj with
      ⟨fs, hAdded, _⟩
    refine (Follows.sendTokens (c := w.toCopies) ?_).mono
      (fun _ h => h.1) (fun _ _ h => h) (fun _ _ h => h)
    rw [hAdded]
    rfl

end Following

------------------------------------------------------------
-- Conflicts
------------------------------------------------------------

/-
  Whenever someone else has changed the status between the
  fetch of a run and its status write, the write is refused
  as a conflict, and the object stays as the others left it.
-/
def KeepsForeignStatus
    (m : Manager μ)
    (k : Key)
    (start : Session μ) : Prop :=
  ∀ before mo after obj result,
    ((m.reconcile k).final start).journal =
        start.journal ++ (before ++ mo :: after) →
      mo.event = .statusUpdated obj result →
      Journal.ForeignStatusChange k before →
      (∃ e, result = .error e ∧ e.isConflict = true) ∧
        mo.scene.store.object? k =
          (Journal.lastScene start.scene
            before).store.object? k

section Conflicts

variable {m : Manager μ}
variable {k : Key}
variable {start : Session μ}
variable {before after : List (Moment μ)}
variable {mo : Moment μ}
variable {obj : Object}
variable {result : Except StoreError Object}

/-
  A status write is at the version that the run took over
  last.
-/
theorem statusWrite_trail
    (hRespects : m.RespectsVersions)
    (hStart : start.RespectsVersions)
    (hRun :
      ((m.reconcile k).final start).journal =
        start.journal ++ (before ++ mo :: after))
    (hEvent : mo.event = .statusUpdated obj result) :
    let scene := Journal.lastScene start.scene before
    obj.key = k ∧
      mo = statusWrite obj scene ∧
      ∃ earlier adopted since,
        before = earlier ++ adopted :: since ∧
          Journal.Trail k obj.metadata.resourceVersion
            adopted since scene := by
  have hWrite : mo.event.isStatusWrite = true := by
    rw [hEvent]
    rfl
  rcases reconcile_noted_statusWrite hRun hWrite with
    ⟨e, w, s, hDraft, hJournal, hMoment⟩
  have hFollows : Follows k start w.toCopies s :=
    (draft_follows hRespects hStart k).of_ok rfl hDraft
  rcases hFollows.resume with
    ⟨earlier, adopted, since, hFound, hTrail, hKey, _⟩
  have hBefore : before = earlier ++ adopted :: since :=
    List.append_cancel_left (hJournal.symm.trans hFound)
  have hScene :
      Journal.lastScene start.scene before =
        s.resume.scene := by
    rw [hBefore, Journal.lastScene_append_cons]
    exact hTrail.synced
  have hObj : w.obj = obj := by
    rw [hMoment] at hEvent
    injection hEvent
  dsimp only
  rw [hScene, ← hObj]
  exact ⟨hKey, hMoment, earlier, adopted, since, hBefore,
    hTrail⟩

/- The result of a status write is that of the store. -/
theorem statusWrite_result
    {scene : Scene μ}
    (hMoment : mo = statusWrite obj scene)
    (hEvent : mo.event = .statusUpdated obj result) :
    (Store.updateStatus obj scene.store).1 = result ∧
      mo.scene.store =
        (Store.updateStatus obj scene.store).2 := by
  rw [hMoment] at hEvent ⊢
  constructor
  · injection hEvent
  · rfl

/-
  A status write succeeds, and overwrites the status that it
  finds, if and only if the store does not fail, the object
  is there, and nobody has written it since the run took a
  version over.
-/
theorem statusWrite_ok_iff
    (hRespects : m.RespectsVersions)
    (hStart : start.RespectsVersions)
    (hRun :
      ((m.reconcile k).final start).journal =
        start.journal ++ (before ++ mo :: after))
    (hEvent : mo.event = .statusUpdated obj result) :
    (∃ stored, result = .ok stored) ↔
      (Journal.lastScene start.scene
          before).store.statusFailures = [] ∧
        (Journal.lastScene start.scene
          before).store.contains k = true ∧
        ¬ Journal.WrittenSinceAdoption k before := by
  rcases statusWrite_trail hRespects hStart hRun hEvent with
    ⟨hKey, hMoment, earlier, adopted, since, hBefore, hTrail⟩
  generalize Journal.lastScene start.scene before = scene
    at hMoment hTrail ⊢
  have hResult := (statusWrite_result hMoment hEvent).1
  rw [← hResult, hBefore, hTrail.writtenSinceAdoption_iff,
    Classical.not_not]
  cases hFailures : scene.store.statusFailures with
  | cons e rest =>
      rw [(Store.updateStatus_failing hFailures).1]
      simp
  | nil =>
      unfold Store.contains
      cases hObject : scene.store.object? k with
      | none =>
          rw [← hKey] at hObject
          rw [(Store.updateStatus_missing hFailures
            hObject).1]
          simp
      | some current =>
          have hOwn :
              scene.store.object? obj.key = some current := by
            rw [hKey, hObject]
          rw [← hTrail.current_iff hObject]
          by_cases hCurrent :
              obj.metadata.resourceVersion =
                current.metadata.resourceVersion
          · rw [(Store.updateStatus_current hFailures hOwn
              hCurrent).1]
            simp [hCurrent]
          · rw [(Store.updateStatus_stale hFailures hOwn
              hCurrent).1]
            simp [hCurrent]

/-
  A status write is refused as a conflict, and leaves the
  object alone, if and only if a conflict is ahead.
-/
theorem statusWrite_conflict_iff
    (hRespects : m.RespectsVersions)
    (hStart : start.RespectsVersions)
    (hRun :
      ((m.reconcile k).final start).journal =
        start.journal ++ (before ++ mo :: after))
    (hEvent : mo.event = .statusUpdated obj result) :
    ((∃ e, result = .error e ∧ e.isConflict = true) ∧
        mo.scene.store.object? k =
          (Journal.lastScene start.scene
            before).store.object? k) ↔
      Journal.ConflictAhead k
        (Journal.lastScene start.scene before) before := by
  rcases statusWrite_trail hRespects hStart hRun hEvent with
    ⟨hKey, hMoment, earlier, adopted, since, hBefore, hTrail⟩
  generalize Journal.lastScene start.scene before = scene
    at hMoment hTrail ⊢
  rcases statusWrite_result hMoment hEvent with
    ⟨hResult, hStore⟩
  rw [← hResult, hStore]
  unfold Journal.ConflictAhead
  cases hFailures : scene.store.statusFailures with
  | cons e rest =>
      rcases Store.updateStatus_failing (o := obj)
        hFailures with ⟨hFailed, hObjects⟩
      rw [hFailed, Store.object?_congr hObjects]
      simp
  | nil =>
      dsimp only
      rw [hBefore, hTrail.writtenSinceAdoption_iff]
      unfold Store.contains
      cases hObject : scene.store.object? k with
      | none =>
          have hOwn : scene.store.object? obj.key = none := by
            rw [hKey, hObject]
          rw [(Store.updateStatus_missing hFailures hOwn).1]
          simp [StoreError.isConflict]
      | some current =>
          have hOwn :
              scene.store.object? obj.key = some current := by
            rw [hKey, hObject]
          rw [← hTrail.current_iff hObject]
          by_cases hCurrent :
              obj.metadata.resourceVersion =
                current.metadata.resourceVersion
          · rw [(Store.updateStatus_current hFailures hOwn
              hCurrent).1]
            simp [hCurrent]
          · rcases Store.updateStatus_stale hFailures hOwn
              hCurrent with ⟨hStale, hObjects⟩
            rw [hStale, Store.object?_congr hObjects,
              hObject]
            simp [hCurrent, StoreError.isConflict]

end Conflicts

/-
  A run keeps what others have made of the status if and
  only if, wherever they have changed it before the status
  write, a conflict is ahead.
-/
theorem keepsForeignStatus_iff
    {m : Manager μ}
    (hRespects : m.RespectsVersions)
    {start : Session μ}
    (hStart : start.RespectsVersions)
    (k : Key) :
    m.KeepsForeignStatus k start ↔
      ∀ before mo after,
        ((m.reconcile k).final start).journal =
            start.journal ++ (before ++ mo :: after) →
          mo.event.isStatusWrite = true →
          Journal.ForeignStatusChange k before →
          Journal.ConflictAhead k
            (Journal.lastScene start.scene before)
            before := by
  constructor
  · intro hKeeps before mo after hRun hWrite hForeign
    rcases reconcile_noted_statusWrite hRun hWrite with
      ⟨_, w, s, _, _, hMoment⟩
    have hEvent :
        mo.event =
          .statusUpdated w.obj
            (Store.updateStatus w.obj
              s.resume.scene.store).1 := by
      rw [hMoment]
      rfl
    exact (statusWrite_conflict_iff hRespects hStart hRun
      hEvent).mp (hKeeps _ _ _ _ _ hRun hEvent hForeign)
  · intro hAhead before mo after obj result hRun hEvent
      hForeign
    refine (statusWrite_conflict_iff hRespects hStart hRun
      hEvent).mpr (hAhead before mo after hRun ?_ hForeign)
    rw [hEvent]
    rfl

/-
  A step during whose finalization someone else writes the
  status of the object, once.
-/
def overtakenStep : Step Unit where
  name := "step"
  tokens := fun _ => ["token"]
  process := fun _ o => return (.ok, o)
  finalize := fun c o => do
    modify (·.mapStore (·.modify c.key
      (·.mapStatus (fun s => { s with payload := "theirs" }))))
    return (.ok, o)

/- A manager that keeps conditions and runs this step. -/
def overtakenManager : Manager Unit where
  operator := "operator"
  controller := "controller"
  kind := "TestObject"
  steps := [overtakenStep]
  conditions := true
  scheduler := none
  hook := none
  reporter := .discarding
  policy := .standard
  readOnly := false
  trackLast := false

/-
  A host with one object, which is being deleted and carries
  a token besides the one of the step.
-/
def overtakenSession : Session Unit where
  scene :=
    { store := Store.insert
        { kind := .full
          metadata :=
            { Metadata.fresh "default" "object" with
              deletionTimestamp := some .epoch
              finalizers := ["token", "other"] }
          status := { payload := "ours" } }
        {}
      clock := ⟨0⟩
      memory := () }

/- The key of that object. -/
def overtakenKey : Key :=
  .namespaced "default" "object"

/-
  What a moment tells: whether the object has been fetched,
  whether someone else was at work, whether the status was
  overwritten, and the stored payload.
-/
def glimpse
    (mo : Moment Unit) :
    (Bool × Bool × Bool) × Option String :=
  ((match mo.event with
      | .fetched k (.ok _) => k = overtakenKey
      | _ => false,
    mo.event.isForeign,
    match mo.event with
      | .statusUpdated _ (.ok _) => true
      | _ => false),
    (mo.scene.store.object? overtakenKey).map
      (·.status.payload))

theorem overtaken_respectsVersions :
    overtakenManager.RespectsVersions where
  hook := by
    intro hook hHook
    cases hHook
  process := by
    intro step hStep c o scene
    rw [List.mem_singleton.mp hStep]
    exact .refl _
  finalize := by
    intro step hStep c o scene
    rw [List.mem_singleton.mp hStep]
    exact Store.modify_evolves _ _ _
  keeps := by
    intro step hStep c o scene result o' scene' hRun
    rw [List.mem_singleton.mp hStep] at hRun
    rcases hRun with hRun | hRun
    · cases hRun
      exact ⟨rfl, rfl⟩
    · cases hRun
      exact ⟨rfl, rfl⟩

theorem overtakenSession_respectsVersions :
    overtakenSession.RespectsVersions where
  versioned :=
    (Store.insert_evolves _ _).versioned Store.empty_versioned
  keyed := by
    intro k o hObject
    unfold overtakenSession Store.insert at hObject
    dsimp only [Store.takeVersion] at hObject
    rw [Store.object?_place] at hObject
    split at hObject
    · next hKey =>
        cases hObject
        exact hKey.symm
    · cases hObject
  evolves := by
    intro change hMember
    cases hMember
  keys := by
    intro change hMember
    cases hMember

theorem overtaken_keepsForeignStatus_iff :
    overtakenManager.RespectsVersions ∧
      overtakenSession.RespectsVersions ∧
      (overtakenManager.KeepsForeignStatus overtakenKey
          overtakenSession ↔
        ∀ before mo after,
          ((overtakenManager.reconcile overtakenKey).final
              overtakenSession).journal =
              overtakenSession.journal ++
                (before ++ mo :: after) →
            mo.event.isStatusWrite = true →
            Journal.ForeignStatusChange overtakenKey before →
            Journal.ConflictAhead overtakenKey
              (Journal.lastScene overtakenSession.scene before)
              before) :=
  ⟨overtaken_respectsVersions,
    overtakenSession_respectsVersions,
    keepsForeignStatus_iff overtaken_respectsVersions
      overtakenSession_respectsVersions overtakenKey⟩

/-
  The patch that takes the token off hands back the version
  of a state with their status, and the status write brings
  ours back.
-/
theorem overtaken_overwrites :
    ¬ overtakenManager.KeepsForeignStatus overtakenKey
      overtakenSession := by
  intro hKeeps
  have hGlimpses :
      ((overtakenManager.reconcile overtakenKey).final
          overtakenSession).journal.map glimpse =
        [((true, false, false), some "ours"),
          ((false, false, false), some "ours"),
          ((false, true, false), some "theirs"),
          ((false, false, false), some "theirs"),
          ((false, false, false), some "theirs"),
          ((false, false, true), some "ours")] := by
    decide +kernel
  rcases List.map_eq_cons_iff.mp hGlimpses with
    ⟨fetched, _, hJournal, hFetched, hRest⟩
  rcases List.map_eq_cons_iff.mp hRest with
    ⟨called, _, hCons, hCalled, hRest⟩
  rw [hCons] at hJournal
  rcases List.map_eq_cons_iff.mp hRest with
    ⟨returned, _, hCons, hReturned, hRest⟩
  rw [hCons] at hJournal
  rcases List.map_eq_cons_iff.mp hRest with
    ⟨executed, _, hCons, _, hRest⟩
  rw [hCons] at hJournal
  rcases List.map_eq_cons_iff.mp hRest with
    ⟨patched, _, hCons, _, hRest⟩
  rw [hCons] at hJournal
  rcases List.map_eq_cons_iff.mp hRest with
    ⟨written, after, hCons, hWritten, _⟩
  rw [hCons] at hJournal
  unfold glimpse at hFetched hCalled hReturned hWritten
  have hFetch :
      ∃ o, fetched.event = .fetched overtakenKey (.ok o) := by
    have hTag := congrArg (·.1.1) hFetched
    dsimp only at hTag
    split at hTag
    · next k o hEvent =>
        rw [hEvent, of_decide_eq_true hTag]
        exact ⟨o, rfl⟩
    · cases hTag
  have hWrite :
      ∃ obj stored,
        written.event = .statusUpdated obj (.ok stored) := by
    have hTag := congrArg (·.1.2.2) hWritten
    dsimp only at hTag
    split at hTag
    · next obj stored hEvent => exact ⟨obj, stored, hEvent⟩
    · cases hTag
  rcases hFetch with ⟨o, hFetch⟩
  rcases hWrite with ⟨obj, stored, hWrite⟩
  have hOurs := congrArg (·.2) hCalled
  have hTheirs := congrArg (·.2) hReturned
  have hForeign := congrArg (·.1.2.1) hReturned
  rcases Option.map_eq_some_iff.mp hOurs with
    ⟨old, hOld, hOldPayload⟩
  rcases Option.map_eq_some_iff.mp hTheirs with
    ⟨new, hNew, hNewPayload⟩
  have hChange :
      Journal.ForeignStatusChange overtakenKey
        [fetched, called, returned, executed, patched] := by
    refine
      ⟨[fetched], called, returned, [executed, patched], o,
        old, new, rfl, ?_, hForeign, hOld, hNew, ?_⟩
    · simp [hFetch]
    · intro hSame
      rw [hSame, hOldPayload] at hNewPayload
      exact absurd hNewPayload (by decide)
  have hKept :=
    hKeeps [fetched, called, returned, executed, patched]
      written after obj (.ok stored) hJournal hWrite hChange
  rcases hKept.1 with ⟨e, hError, _⟩
  cases hError

end Manager

end Reconciler
