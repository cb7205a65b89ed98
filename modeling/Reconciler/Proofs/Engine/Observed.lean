import Reconciler.Proofs.Engine.Incidents
import Reconciler.Proofs.Engine.Requeue
import Reconciler.Proofs.Engine.Settled
import Reconciler.Proofs.Store.Labels
import Reconciler.Proofs.Store.Versionless

/-
  This file says which generation a live object has observed
  after a reconcile that nobody hinders.

  The engine stamps it once a chain has come to its end, and
  the run then succeeds unless the next slot cannot be told.
  Whichever other way a run ends, the object that it leaves
  has observed what it had observed before: it is parked or
  refused, a call panics, a step asks for a retry, or a step
  has changed the version of its copy, so that the status is
  not written.

  Key definitions include:
    * `Object.Remains`
    * `Store.HasObserved`
    * `Call.StaysClear`
    * `Step.LeavesObserved`
    * `Manager.succeeds`

  Key theorems include:
    * `Manager.carries_heeds`
    * `Manager.persistStatus_heeds`
    * `Manager.close_observes`
    * `Manager.reconcile_observes`
-/

------------------------------------------------------------
-- Objects that Remain
------------------------------------------------------------

namespace Reconciler

/-
  An object with identity, kind and generation of another
  one; it is being deleted if that one is.
-/
structure Object.Remains
    (o o' : Object) : Prop where
  key : o'.key = o.key
  kind : o'.kind = o.kind
  deleting : o'.isDeleting = o.isDeleting
  generation :
    o'.metadata.generation = o.metadata.generation

theorem Object.Remains.trans
    {o o' o'' : Object}
    (hFirst : o.Remains o')
    (hSecond : o'.Remains o'') :
    o.Remains o'' where
  key := hSecond.key.trans hFirst.key
  kind := hSecond.kind.trans hFirst.kind
  deleting := hSecond.deleting.trans hFirst.deleting
  generation := hSecond.generation.trans hFirst.generation

theorem Object.Remains.has
    {o o' : Object}
    (hRemains : o.Remains o')
    (c : Capability) :
    o'.has c = o.has c := by
  unfold Object.has
  rw [hRemains.kind]

/- Tokens, labels and version do not matter. -/
theorem Object.Remains.of_metadata
    {o o' : Object}
    {tokens : List String}
    {labels : Table String String}
    {version : Option String}
    (hKind : o'.kind = o.kind)
    (hMetadata :
      o'.metadata =
        { o.metadata with
          finalizers := tokens
          labels := labels
          resourceVersion := version }) :
    o.Remains o' where
  key := by
    unfold Object.key
    rw [hMetadata]
    rfl
  kind := hKind
  deleting := by
    unfold Object.isDeleting
    rw [hMetadata]
    rfl
  generation := by
    rw [hMetadata]

/- Objects with slots track the observed generation. -/
theorem Object.observedGeneration?_of_spread
    {o : Object}
    (hSpread : o.has .spread = true) :
    o.observedGeneration? =
      some o.status.observedGeneration := by
  unfold observedGeneration?
  simp [hSpread]

/- The same for an object of the same kind. -/
theorem Object.observed_of_status
    {o x : Object}
    {generation : Int64}
    (hSpread : o.has .spread = true)
    (hKind : x.kind = o.kind)
    (hObserved :
      x.status.observedGeneration = generation) :
    x.observedGeneration? = some generation := by
  have hTracks : x.has .spread = true := by
    unfold Object.has
    rw [hKind]
    exact hSpread
  rw [observedGeneration?_of_spread hTracks, hObserved]

/-
  The JSON form of an object with slots tells the same,
  whatever becomes of its metadata.
-/
theorem Object.observed_persisted
    {o : Object}
    (hSpread : o.has .spread = true)
    (f : Metadata → Metadata) :
    (o.persisted.mapMetadata f).observedGeneration? =
      o.observedGeneration? := by
  rcases same_of_kept hSpread (.inr rfl) with
    ⟨hKind, _, hSlot⟩
  rw [observedGeneration?_of_spread hSpread]
  exact observed_of_status hSpread hKind hSlot.observed

------------------------------------------------------------
-- Stores that Tell What Has Been Observed
------------------------------------------------------------

/-
  An object is stored, whatever its tokens, labels, status
  and version are; it has observed this generation, if it
  tracks one.
-/
def Store.HasObserved
    (k : Key)
    (o : Object)
    (generation? : Option Int64)
    (store : Store) : Prop :=
  ∃ stored,
    store.object? k = some stored ∧
      o.Remains stored ∧
      stored.observedGeneration? = generation?

namespace Store.HasObserved

variable {k : Key}
variable {o base : Object}
variable {generation? : Option Int64}
variable {store store' : Store}

theorem congr
    (hObserved : store.HasObserved k o generation?)
    (hSame : store'.object? k = store.object? k) :
    store'.HasObserved k o generation? := by
  rcases hObserved with ⟨stored, hStored, hRest⟩
  exact ⟨stored, hSame.trans hStored, hRest⟩

/-
  The stored object is settled in its JSON form; as long as
  it is not being deleted, it stays.
-/
theorem settled
    {stored : Object}
    {f : Metadata → Metadata}
    (hLive : o.isDeleting = false)
    (hSpread : o.has .spread = true)
    (hRemains : o.Remains stored)
    (hTells : stored.observedGeneration? = generation?)
    (hKept :
      stored.Remains (stored.persisted.mapMetadata f))
    (hObjects :
      store'.objects =
        (store.settle k
          (stored.persisted.mapMetadata f)).objects) :
    store'.HasObserved k o generation? := by
  have hTracks : stored.has .spread = true :=
    (hRemains.has .spread).trans hSpread
  refine ⟨_, ?_, hRemains.trans hKept,
    (Object.observed_persisted hTracks f).trans hTells⟩
  rw [object?_congr hObjects, object?_settle, if_pos rfl,
    hKept.deleting, hRemains.deleting, hLive]
  rfl

/- A patch of tokens cannot fail. -/
theorem patch_tokens
    (hObserved : store.HasObserved k o generation?)
    (hLive : o.isDeleting = false)
    (hSpread : o.has .spread = true)
    (hKey : base.key = k)
    (hQueue : store.patchFailures = [])
    (fs : List String) :
    (∃ x,
      (patch (base.withFinalizers fs) base store).1 =
        .ok x) ∧
      (patch (base.withFinalizers fs) base
        store).2.HasObserved k o generation? := by
  rcases hObserved with ⟨stored, hStored, hRemains, hTells⟩
  rw [← hKey] at hStored
  by_cases hSame : fs = base.metadata.finalizers
  · have hNothing :
        MergePatch.isEmpty
            (mainPatch (base.withFinalizers fs) base) =
          true := by
      rw [mainPatch_withFinalizers, if_pos hSame]
      rfl
    rcases patch_nothing hQueue hStored hNothing with
      ⟨hOk, hObjects⟩
    rw [← hKey]
    exact ⟨⟨_, hOk⟩, stored,
      (object?_congr hObjects _).trans hStored, hRemains,
      hTells⟩
  · rcases Store.patch_tokens hStored hSame with
      ⟨hQueued, _⟩ | ⟨version, hOk, hObjects⟩
    · exact absurd hQueue hQueued
    · have hKept :
          stored.Remains
            (stored.persisted.mapMetadata (fun m =>
              { m with
                finalizers := fs
                resourceVersion := version })) :=
        .of_metadata stored.persisted_kind
          (by rw [← stored.persisted_metadata]; rfl)
      rw [hKey] at hObjects
      exact ⟨⟨_, hOk⟩,
        settled hLive hSpread hRemains hTells hKept
          hObjects⟩

/- The removal of the refresh label cannot fail either. -/
theorem patch_label
    (hObserved : store.HasObserved k o generation?)
    (hLive : o.isDeleting = false)
    (hSpread : o.has .spread = true)
    (hKey : base.key = k)
    (hQueue : store.patchFailures = [])
    (hLabel : base.metadata.hasRefreshLabel = true) :
    (∃ x,
      (patch (base.mapMetadata (·.removeRefreshLabel)) base
        store).1 = .ok x) ∧
      (patch (base.mapMetadata (·.removeRefreshLabel)) base
        store).2.HasObserved k o generation? := by
  rcases hObserved with ⟨stored, hStored, hRemains, hTells⟩
  rw [← hKey] at hStored
  rcases patch_label_applied hQueue hStored hLabel with
    ⟨x, hOk⟩
  refine ⟨⟨x, hOk⟩, ?_⟩
  generalize hPatch :
    patch (base.mapMetadata (·.removeRefreshLabel)) base
        store =
      r at hOk ⊢
  rcases r with ⟨_, store'⟩
  cases hOk
  rcases patch_label_ok hLabel hPatch with
    ⟨found, labels, version, hFound, _, rfl, hObjects⟩
  rw [hStored] at hFound
  cases hFound
  have hKept :
      stored.Remains
        (stored.persisted.mapMetadata (fun m =>
          { m with
            labels := labels
            resourceVersion := version })) :=
    .of_metadata stored.persisted_kind
      (by rw [← stored.persisted_metadata]; rfl)
  rw [hKey] at hObjects
  exact settled hLive hSpread hRemains hTells hKept hObjects

/-
  A status update fails and changes no object, or the stored
  object has observed what the new status tells.
-/
theorem updateStatus
    (hObserved : store.HasObserved k o generation?)
    (hSpread : o.has .spread = true)
    (hKey : base.key = k) :
    (∃ e,
      (Store.updateStatus base store).1 = .error e ∧
        (Store.updateStatus base store).2.HasObserved k o
          generation?) ∨
    ∃ x,
      (Store.updateStatus base store).1 = .ok x ∧
        (Store.updateStatus base store).2.HasObserved k o
          (some base.status.observedGeneration) := by
  rcases hObserved with ⟨stored, hStored, hRemains, hTells⟩
  rw [← hKey] at hStored
  rcases updateStatus_cases base store with
    ⟨e, hError, hObjects⟩ |
    ⟨old, x, hOld, hNew, hOk, _, hObjects⟩
  · rw [← hKey]
    exact .inl ⟨e, hError, stored,
      (object?_congr hObjects _).trans hStored, hRemains,
      hTells⟩
  · rw [hStored] at hOld
    cases hOld
    have hShown :
        (Store.updateStatus base store).2.object? k =
          some x := by
      unfold object?
      rw [hObjects, hKey, Table.get?_put, if_pos rfl]
    have hKept : stored.Remains x := by
      rw [hNew]
      exact .of_metadata rfl rfl
    refine .inr ⟨x, hOk, x, hShown, hRemains.trans hKept, ?_⟩
    refine Object.observed_of_status hSpread
      (hKept.kind.trans hRemains.kind) ?_
    rw [hNew]
    rfl

end Store.HasObserved

------------------------------------------------------------
-- Calls that Leave the Way Clear
------------------------------------------------------------

variable {μ : Type}

/-
  A call that leaves the stored objects alone, and the way
  clear if it hands back; it is dropped only if the way was
  not clear, and it may panic.
-/
structure Call.StaysClear
    {α : Type}
    (c : Call μ α) : Prop where
  objects : c.KeepsObjects
  clear :
    ∀ scene,
      scene.Clear →
        match c scene with
        | .ok _ scene' => scene'.Clear
        | .error .dropped _ => False
        | .error (.panicked _) _ => True

/-
  A step that leaves it to the engine to tell which
  generation has been observed.  It may edit its copy as it
  likes, as long as that stays a copy of the object.
-/
def Step.LeavesObserved
    (step : Step μ) : Prop :=
  ∀ c o scene result o' scene',
    step.process c o scene = .ok (result, o') scene' →
      o.Remains o' ∧
        o'.status.observedGeneration =
          o.status.observedGeneration

/- Since a session the first object fetched was this one. -/
def Session.Fetched
    (start : Session μ)
    (o : Object)
    (s : Session μ) : Prop :=
  ∃ new,
    s.journal = start.journal ++ new ∧
      Journal.fetched? new = some o

theorem Session.lasting_fetched
    (start : Session μ)
    (o : Object) :
    Session.Lasting (start.Fetched o) where
  moved := by
    rintro s e scene ⟨new, hJournal, hFetched⟩
    refine ⟨new ++ [⟨e, scene⟩], by simp [hJournal], ?_⟩
    unfold Journal.fetched? at *
    rw [Journal.fetches_append, List.findSome?_append,
      hFetched]
    rfl
  aside := fun _ _ _ h => h

namespace Manager

open Engine

/- Hook and steps leave the way clear on live objects. -/
structure StepsStayClear
    (m : Manager μ) : Prop where
  hook :
    ∀ hook, m.hook = some hook →
      ∀ c o, (hook c o).StaysClear
  process :
    ∀ step ∈ m.steps, ∀ c o,
      (step.process c o).StaysClear

------------------------------------------------------------
-- Runs that Heed a Generation
------------------------------------------------------------

/-
  A run that nobody hinders has fetched its object, and what
  is stored has observed this generation.
-/
structure Stands
    (k : Key)
    (o : Object)
    (start : Session μ)
    (generation? : Option Int64)
    (s : Session μ) : Prop where
  unhindered : s.Unhindered
  fetched : start.Fetched o s
  observes : s.scene.store.HasObserved k o generation?

/-
  Such a run of a live object before its status is written;
  its working copy says that this generation has been
  observed.
-/
structure Heeds
    (k : Key)
    (o : Object)
    (start : Session μ)
    (generation : Int64)
    (w : Work)
    (s : Session μ) : Prop where
  stands : Stands k o start o.observedGeneration? s
  live : w.deleting = false
  key : w.snapshot.key = k
  unwritten : w.snapshot.status = o.status
  remains : o.Remains w.obj
  observed :
    w.obj.status.observedGeneration = generation

/-
  What a run leaves: the object, which has observed this
  generation, if it tracks one.  The clock can be read,
  unless the run ended when a call came back.
-/
structure LeftOff
    (k : Key)
    (o : Object)
    (start : Session μ)
    (generation? : Option Int64)
    (s : Session μ) : Prop where
  observes : s.scene.store.HasObserved k o generation?
  fetched : start.Fetched o s
  timed :
    (∃ now, s.scene.clock.read = .ok now) ∨
      ∃ old scene, s.journal = old ++ [⟨.returned, scene⟩]

section Heeds

variable {m : Manager μ}
variable {k : Key}
variable {o : Object}
variable {start s : Session μ}
variable {generation : Int64}
variable {generation? : Option Int64}
variable {w : Work}

namespace Stands

/- A moment in which the stored object stays. -/
theorem idle
    {scene : Scene μ}
    (hStands : Stands k o start generation? s)
    (e : Event)
    (hObjects :
      scene.store.objects = s.scene.store.objects)
    (hClear : scene.Clear) :
    Stands k o start generation? (s.moveTo e scene) where
  unhindered := hStands.unhindered.moveTo e hClear
  fetched :=
    (start.lasting_fetched o).moved e scene hStands.fetched
  observes :=
    hStands.observes.congr (Store.object?_congr hObjects k)

/- Reports and draws do not matter. -/
theorem aside
    (hStands : Stands k o start generation? s)
    (rs : List Report)
    (n : Nat) :
    Stands k o start generation?
      { s with reports := rs, draws := n } :=
  { hStands with
    unhindered := hStands.unhindered.aside rs n }

theorem resume
    (hStands : Stands k o start generation? s) :
    Stands k o start generation? s.resume where
  unhindered := hStands.unhindered.resume
  fetched :=
    (start.lasting_fetched o).resume hStands.fetched
  observes :=
    hStands.unhindered.undisturbed.resume
      (P := fun s =>
        s.scene.store.HasObserved k o generation?)
      (fun _ _ h => h)
      (fun hObjects h =>
        h.congr (Store.object?_congr hObjects k))
      hStands.observes

/- An operation on the store that consumes no failure. -/
theorem operated
    {store : Store}
    {generation?' : Option Int64}
    (hStands : Stands k o start generation? s)
    (e : Event)
    (hQuiet : store.Quiet)
    (hObserves : store.HasObserved k o generation?') :
    Stands k o start generation?'
      (s.moveTo e { s.scene with store := store }) where
  unhindered :=
    hStands.unhindered.moveTo e
      (hStands.unhindered.clear.withStore hQuiet)
  fetched :=
    (start.lasting_fetched o).moved e _ hStands.fetched
  observes := hObserves

theorem leftOff
    (hStands : Stands k o start generation? s) :
    LeftOff k o start generation? s where
  observes := hStands.observes
  fetched := hStands.fetched
  timed := .inl hStands.unhindered.clear.readable

end Stands

namespace Heeds

/- Another working copy of the object. -/
theorem handed
    {o' : Object}
    {generation' : Int64}
    (hHeeds : Heeds k o start generation w s)
    (hRemains : w.obj.Remains o')
    (hObserved :
      o'.status.observedGeneration = generation') :
    Heeds k o start generation' { w with obj := o' } s where
  stands := hHeeds.stands
  live := hHeeds.live
  key := hHeeds.key
  unwritten := hHeeds.unwritten
  remains := hHeeds.remains.trans hRemains
  observed := hObserved

/- Only the status of the working copy is another one. -/
theorem edited
    {status : Status}
    {generation' : Int64}
    (hHeeds : Heeds k o start generation w s)
    (hObserved : status.observedGeneration = generation') :
    Heeds k o start generation'
      { w with obj := w.obj.mapStatus (fun _ => status) } s :=
  hHeeds.handed (.of_metadata rfl rfl) hObserved

/-
  Tokens are sent without a failure, whichever a step has
  left on its copy.
-/
theorem sendTokens
    (hLive : o.isDeleting = false)
    (hSpread : o.has .spread = true)
    (new : List String) :
    Triple (Heeds k o start generation w)
      (Engine.sendTokens { w.toCopies with
        obj := w.obj.withFinalizers new })
      (fun r s =>
        match r.1 with
        | .ok _ =>
            Heeds k o start generation
              { w with toCopies := r.2 } s
        | .error _ => False)
      (fun _ _ => False) := by
  have hSent :
      ∀ (s : Session μ) r store,
        Heeds k o start generation w s →
          Store.patch (w.snapshot.withFinalizers new)
              w.snapshot s.scene.store =
            (r, store) →
          (∃ stored, r = .ok stored) ∧
            store.Quiet ∧
            store.HasObserved k o o.observedGeneration? := by
    intro s r store h hRun
    have hClear := h.stands.unhindered.clear
    have hPatched :=
      h.stands.observes.patch_tokens hLive hSpread h.key
        hClear.quiet.patch new
    have hQuiet :=
      hClear.quiet.afterPatch
        (w.snapshot.withFinalizers new) w.snapshot
    rw [hRun] at hPatched hQuiet
    exact ⟨hPatched.1, hQuiet, hPatched.2⟩
  refine sendTokens_triple ?_ ?_
  · intro s stored store h hRun
    rcases hSent s _ store h hRun with
      ⟨_, hQuiet, hObserves⟩
    exact
      { stands := h.stands.operated _ hQuiet hObserves
        live := h.live
        key := h.key
        unwritten := h.unwritten
        remains := h.remains.trans (.of_metadata rfl rfl)
        observed := h.observed }
  · intro s e store h hRun
    rcases hSent s _ store h hRun with ⟨⟨_, hOk⟩, _⟩
    cases hOk

/- A call that leaves the store alone and the way clear. -/
theorem call
    {α : Type}
    {c : Call μ α}
    {Q : Option α → Session μ → Prop}
    (hClear : c.StaysClear)
    (hDone :
      ∀ scene a scene' s,
        c scene = .ok a scene' →
          Heeds k o start generation w s → Q (some a) s) :
    Triple (Heeds k o start generation w) (Engine.call c) Q
      (fun _ =>
        LeftOff k o start o.observedGeneration?) := by
  have hEnds :
      ∀ s : Session μ,
        Heeds k o start generation w s →
          match c s.scene with
          | .ok _ scene' =>
              scene'.store.objects = s.scene.store.objects ∧
                scene'.Clear
          | .error .dropped _ => False
          | .error (.panicked _) scene' =>
              scene'.store.objects =
                s.scene.store.objects := by
    intro s hHeeds
    have hObjects := hClear.objects s.scene
    have hGoes := hClear.clear s.scene
      hHeeds.stands.unhindered.clear
    rcases hRun : c s.scene with
      ⟨a, scene'⟩ | ⟨_ | p, scene'⟩
    · rw [hRun] at hObjects hGoes
      exact ⟨hObjects, hGoes⟩
    · rw [hRun] at hGoes
      exact hGoes
    · rw [hRun] at hObjects
      exact hObjects
  apply Triple.call
  · intro s a scene' hHeeds hRun
    have hEnd := hEnds s hHeeds
    rw [hRun] at hEnd
    exact hDone _ a scene' _ hRun
      { hHeeds with
        stands :=
          hHeeds.stands.idle .returned hEnd.1 hEnd.2 }
  · intro s scene' hHeeds hRun
    have hEnd := hEnds s hHeeds
    rw [hRun] at hEnd
    exact hEnd.elim
  · intro s p scene' hHeeds hRun
    have hEnd := hEnds s hHeeds
    rw [hRun] at hEnd
    exact
      { observes :=
          hHeeds.stands.observes.congr
            (Store.object?_congr hEnd k)
        fetched :=
          (start.lasting_fetched o).moved .returned scene'
            hHeeds.stands.fetched
        timed := .inr ⟨s.journal, scene', rfl⟩ }

end Heeds

/- Until the chain has ended, a run heeds what it found. -/
theorem carries_heeds
    (hLive : o.isDeleting = false)
    (hSpread : o.has .spread = true)
    (hClear : m.StepsStayClear)
    (hLeaves : ∀ step ∈ m.steps, step.LeavesObserved) :
    m.Carries (Heeds k o start generation)
      (fun _ =>
        LeftOff k o start o.observedGeneration?) where
  recorded := fun _ h => h.edited h.observed
  tallied := fun _ _ h => { h with }
  reported := fun {_ s} rs h =>
    { h with stands := h.stands.aside rs s.draws }
  halts := fun _ h => h.stands.leftOff
  haltReported := fun _ h => { h with }
  resumed := fun h => { h with stands := h.stands.resume }
  noted := fun _ h =>
    { h with
      stands :=
        h.stands.idle _ rfl h.stands.unhindered.clear }
  hooked := fun {w hook} context hSome =>
    Heeds.call (hClear.hook hook hSome context w.obj)
      (fun _ _ _ _ _ h => h)
  processed := by
    intro w step context hStep _
    apply Heeds.call
      (hClear.process step hStep context w.obj)
    intro scene r scene' s hRun h
    rcases hLeaves step hStep context w.obj scene r.1 r.2
      scene' hRun with ⟨hRemains, hObserved⟩
    exact h.handed hRemains (hObserved.trans h.observed)
  finalized := by
    intro w step context _ hDeleting s h
    rw [h.remains.deleting, hLive] at hDeleting
    cases hDeleting
  released := by
    intro w step _ _ _
    rw [Tokens.removeAll_eq]
    refine (Heeds.sendTokens hLive hSpread _).mono
      (fun _ h => h.1) ?_ (fun _ _ h => h.elim)
    rintro ⟨sent, c⟩ s h
    cases sent with
    | ok _ => exact h
    | error e => exact h.elim

/- The declared tokens are put on the object. -/
theorem ensureTokens_heeds
    (hLive : o.isDeleting = false)
    (hSpread : o.has .spread = true) :
    Triple (Heeds k o start generation w) (m.ensureTokens w)
      (Heeds k o start generation) (fun _ _ => False) := by
  apply m.ensureTokens_triple (E := fun _ => False)
  · exact fun _ h => { h with stands := h.stands.resume }
  · intro s h hCancelled
    exact (h.stands.unhindered.not_cancelled hCancelled).elim
  · exact fun _ _ h => h
  · exact fun _ _ h => h
  · exact fun _ h _ => h
  · intro _ _ _
    rw [Tokens.addAll_eq]
    exact (Heeds.sendTokens hLive hSpread _).mono
      (fun _ h => h.1) (fun _ _ h => h) (fun _ _ h => h)

------------------------------------------------------------
-- The Close
------------------------------------------------------------

/-
  The status is written: the stored object has observed this
  generation, and the snapshot tells whether it carries the
  refresh label.
-/
structure Noted
    (k : Key)
    (o : Object)
    (start : Session μ)
    (generation : Int64)
    (w : Work)
    (s : Session μ) : Prop where
  stands : Stands k o start (some generation) s
  live : w.deleting = false
  key : w.snapshot.key = k

/- What a status update leaves; one that fails leaves all. -/
def Updated
    (k : Key)
    (o : Object)
    (start : Session μ)
    (generation : Int64)
    (w : Work) :
    Except StoreError Object → Session μ → Prop
  | .ok _, s => Noted k o start generation w s
  | .error _, s => Stands k o start o.observedGeneration? s

/- What is left by a write of the status, or without it. -/
def Persisted
    (k : Key)
    (o : Object)
    (start : Session μ)
    (generation : Int64) :
    Except ReconcileError Work → Session μ → Prop
  | .ok w, s => Noted k o start generation w s
  | .error _, s =>
      LeftOff k o start o.observedGeneration? s

/-
  The status is written, or the object is left as it was: a
  step may have changed the version of its copy.
-/
theorem persistStatus_heeds
    (hWritable : m.readOnly = false)
    (hKey : o.key = k)
    (hLive : o.isDeleting = false)
    (hSpread : o.has .spread = true) :
    Triple (Heeds k o start generation w)
      (m.persistStatus w)
      (Persisted k o start generation) (fun _ _ => False) := by
  intro s₀ hStart
  have hDeleting : w.obj.isDeleting = false :=
    hStart.remains.deleting.trans hLive
  apply m.persistStatus_triple
    (P := Heeds k o start generation w)
    (W := Updated k o start generation w)
  · exact fun _ h => { h with stands := h.stands.resume }
  · intro hSkip s h
    have hStatus : w.obj.status = o.status := by
      rcases hSkip with hReadOnly | hStatus
      · rw [hWritable] at hReadOnly
        cases hReadOnly
      · exact hStatus.trans h.unwritten
    have hSame :
        o.observedGeneration? = some generation := by
      rw [Object.observedGeneration?_of_spread hSpread,
        ← hStatus, h.observed]
    exact
      { stands := hSame ▸ h.stands
        live := h.live
        key := h.key }
  · intro s h hCancelled
    exact (h.stands.unhindered.not_cancelled hCancelled).elim
  · intro _ _
    refine .onStore ?_
    rintro s r store ⟨h, _⟩ hRun
    have hQuiet :=
      h.stands.unhindered.clear.quiet.afterStatus w.obj
    have hWritten :=
      h.stands.observes.updateStatus hSpread
        (h.remains.key.trans hKey)
    rw [h.observed] at hWritten
    rw [hRun] at hQuiet hWritten
    rcases hWritten with
      ⟨e, rfl, hObserves⟩ | ⟨x, rfl, hObserves⟩
    · exact h.stands.operated _ hQuiet hObserves
    · exact
        { stands := h.stands.operated _ hQuiet hObserves
          live := h.live
          key := h.key }
  · intro r s rs h
    cases r with
    | ok _ =>
        exact { h with stands := h.stands.aside rs s.draws }
    | error _ => exact h.aside rs s.draws
  · exact fun _ _ h => { h with }
  · intro e s _ hGone
    rw [hDeleting] at hGone
    cases hGone
  · exact fun e s _ h => h.leftOff
  · exact hStart

/- The refresh label comes off without a failure. -/
theorem clearRefreshLabel_heeds
    (hLive : o.isDeleting = false)
    (hSpread : o.has .spread = true) :
    Triple (Noted k o start generation w)
      (m.clearRefreshLabel w)
      (fun _ => LeftOff k o start (some generation))
      (fun _ _ => False) := by
  apply m.clearRefreshLabel_triple (E := fun _ _ => False)
  · exact fun _ h => { h with stands := h.stands.resume }
  · exact fun _ _ h => h.stands.leftOff
  · intro _ s h hCancelled
    exact (h.stands.unhindered.not_cancelled hCancelled).elim
  · intro _ hLabel
    refine .onStore ?_
    rintro s r store ⟨h, _⟩ hRun
    have hClear := h.stands.unhindered.clear
    have hPatched :=
      h.stands.observes.patch_label hLive hSpread h.key
        hClear.quiet.patch hLabel
    have hQuiet :=
      hClear.quiet.afterPatch
        (w.snapshot.mapMetadata (·.removeRefreshLabel))
        w.snapshot
    rw [hRun] at hPatched hQuiet
    rcases hPatched with ⟨⟨x, rfl⟩, hObserves⟩
    exact (h.stands.operated _ hQuiet hObserves).leftOff
  · exact fun _ _ _ h => h
  · exact fun _ _ h => h

/- Only a chain that came to its end stamps a generation. -/
def Stamps
    (k : Key)
    (o : Object)
    (start : Session μ) : ChainEnd → Work → Session μ → Prop
  | .completed _ =>
      Heeds k o start o.metadata.generation
  | .retry _ _ _ _ =>
      Heeds k o start o.status.observedGeneration

/-
  A run that closes without a failure has come to the end of
  its chain, and what is stored has observed its generation.
  Any other leaves what had been observed before.
-/
theorem close_observes
    {e : ChainEnd}
    (hWritable : m.readOnly = false)
    (hKey : o.key = k)
    (hLive : o.isDeleting = false)
    (hSpread : o.has .spread = true) :
    Triple (Stamps k o start e w) (m.close e w)
      (fun _ => LeftOff k o start (some o.metadata.generation))
      (fun _ =>
        LeftOff k o start o.observedGeneration?) := by
  cases e with
  | completed _ =>
      refine .bind
        ((persistStatus_heeds hWritable hKey hLive
          hSpread).mono (fun _ h => h) (fun _ _ h => h)
            (fun _ _ h => h.elim)) ?_
      intro r
      cases r with
      | error e => exact .fail (fun _ h => h)
      | ok w' =>
          intro s hNoted
          have hClosed :
              Triple
                (Noted k o start o.metadata.generation w')
                (m.clearRefreshLabel w' >>= fun _ =>
                  pure w'.requeue)
                (fun _ =>
                  LeftOff k o start
                    (some o.metadata.generation))
                (fun _ _ => False) :=
            .bind (clearRefreshLabel_heeds hLive hSpread)
              (fun _ => .pure (fun _ h => h))
          dsimp only
          rw [hNoted.live]
          exact hClosed.mono (fun _ h => h)
            (fun _ _ h => h) (fun _ _ h => h.elim) s hNoted
  | retry _ _ _ _ =>
      refine .bind
        ((persistStatus_heeds hWritable hKey hLive
          hSpread).mono (fun _ h => h) (fun _ _ h => h)
            (fun _ _ h => h.elim)) ?_
      intro r
      refine .fail ?_
      intro s h
      cases r with
      | error e => exact h
      | ok w' =>
          rw [Object.observedGeneration?_of_spread hSpread]
          exact h.stands.leftOff

------------------------------------------------------------
-- The Chain and its Summing Up
------------------------------------------------------------

/-
  A chain is summed up; one that came to its end stamps the
  generation, unless the next slot cannot be told.
-/
theorem sumUp_heeds
    (hScheduled : m.scheduler.isSome = true)
    (hSpread : o.has .spread = true)
    (hCarries :
      m.Carries
        (Heeds k o start o.status.observedGeneration)
        (fun _ => LeftOff k o start o.observedGeneration?))
    (e : ChainEnd) :
    Triple
      (Heeds k o start o.status.observedGeneration e.work)
      (m.sumUp e) (Stamps k o start e)
      (fun _ => LeftOff k o start o.observedGeneration?) := by
  cases e with
  | retry w _ _ _ =>
      change Triple _ (m.recordReadiness .notReady w) _ _
      exact hCarries.recordConditions
  | completed w =>
      refine .bind hCarries.recordConditions ?_
      intro w
      split
      · next hDeleting =>
          refine .pure (fun s h => ?_)
          rw [h.live] at hDeleting
          cases hDeleting
      · refine .map ?_
        intro s₀ hStart
        have hTracks : w.obj.has .spread = true :=
          (hStart.remains.has .spread).trans hSpread
        rcases Option.isSome_iff_exists.mp hScheduled with
          ⟨sched, hScheduler⟩
        have hDrawn :
            Heeds k o start o.status.observedGeneration w
              { s₀ with draws := s₀.draws + 1 } :=
          { hStart with
            stands :=
              hStart.stands.aside s₀.reports
                (s₀.draws + 1) }
        rw [stampSlot_eq hScheduler hTracks]
        cases sched.nextSlot? s₀.draws w.obj.status w.start with
        | none => exact hDrawn.stands.leftOff
        | some slot =>
            have hSlotted :
                Heeds k o start o.metadata.generation
                  { w with
                    obj := w.obj.mapStatus (fun st =>
                      { st with
                        nextReconcile := some slot
                        observedGeneration :=
                          w.obj.metadata.generation }) }
                  { s₀ with draws := s₀.draws + 1 } :=
              hDrawn.edited hStart.remains.generation
            change
              Heeds k o start o.metadata.generation
                (m.stampTime _) _
            unfold stampTime
            split
            · exact hSlotted.edited hSlotted.observed
            · exact hSlotted

/- A run comes to its chain, or it leaves all as it was. -/
theorem approach_heeds
    (hScheduled : m.scheduler.isSome = true)
    (hKey : o.key = k)
    (hLive : o.isDeleting = false)
    (hClear : m.StepsStayClear)
    (hLeaves : ∀ step ∈ m.steps, step.LeavesObserved)
    (hUntouched : Untouched k o start)
    (hUnhindered : start.Unhindered) :
    Triple (fun s => s = start) (m.approach k)
      (fun r s =>
        match r with
        | .ok (_, w) =>
            o.has .spread = true ∧
              Heeds k o start o.status.observedGeneration w s
        | .error _ =>
            LeftOff k o start o.observedGeneration? s)
      (fun _ => LeftOff k o start o.observedGeneration?) := by
  have hFetch :
      Triple (fun s => s = start)
        (await (some <$> fetch k))
        (fun r s =>
          r = .ok o ∧
            Stands k o start o.observedGeneration? s)
        (fun _ _ => False) := by
    have hStored :=
      fetch_stored (k := k) (o := o)
        (J := fun _ : Session μ => True)
        (fun _ _ => trivial) (fun _ _ _ _ _ => trivial)
    have hNoted :
        Triple (fun s => s = start)
          (await (some <$> fetch k)) _ _ :=
      Journal.fetch_noted
    refine (hStored.and hNoted).mono ?_ ?_
      (fun _ _ h => h.1)
    · rintro s rfl
      exact ⟨⟨hUntouched, hUnhindered, trivial⟩, rfl⟩
    · rintro r s ⟨⟨rfl, hSame, hGoes, _⟩, idle, hJournal,
        hIdle⟩
      refine ⟨rfl,
        { unhindered := hGoes
          fetched := ⟨_, hJournal.trans
            (List.append_assoc _ _ _), ?_⟩
          observes :=
            ⟨o, hSame.stored, .of_metadata rfl rfl, rfl⟩ }⟩
      unfold Journal.fetched?
      rw [Journal.fetches_append, Journal.fetches_idle hIdle]
      rfl
  unfold approach
  refine .bind (hFetch.mono (fun _ h => h) (fun _ _ h => h)
    (fun _ _ h => h.elim)) ?_
  intro r
  refine .assume ?_
  rintro rfl
  dsimp only
  refine .bind
    (Q := fun _ s =>
      m.missingCapability? o = none ∧
        Stands k o start o.observedGeneration? s) ?_ ?_
  · unfold checkCapabilities
    split
    · next hCapable => exact .pure (fun _ h => ⟨hCapable, h⟩)
    · refine .bind
        (Q := fun _ =>
          LeftOff k o start o.observedGeneration?) ?_
        (fun _ => .fail (fun _ h => h))
      exact .update (fun s h => { h.leftOff with })
  intro _
  refine .assume ?_
  intro hCapable
  have hSpread := spread_of_capable hScheduled hCapable
  have hCarries :
      m.Carries
        (Heeds k o start o.status.observedGeneration) _ :=
    carries_heeds hLive hSpread hClear hLeaves
  refine .bind
    (.clock
      (Q := fun _ => Stands k o start o.observedGeneration?)
      (fun _ _ h _ => h) (fun _ s h _ => h.leftOff)) ?_
  intro now
  split
  · exact .pure (fun _ h => h.leftOff)
  refine .bind
    (Q := Heeds k o start o.status.observedGeneration)
    ((ensureTokens_heeds hLive hSpread).mono ?_
      (fun _ _ h => h) (fun _ _ h => h.elim)) ?_
  · intro s hStands
    exact
      { stands := hStands
        live := hLive
        key := hKey
        unwritten := rfl
        remains := .of_metadata rfl rfl
        observed := rfl }
  intro armed
  refine .bind hCarries.seedCondition ?_
  intro seeded
  refine .bind hCarries.prepare ?_
  intro prepared
  cases prepared with
  | none => exact .pure (fun _ h => h.stands.leftOff)
  | some c => exact .pure (fun _ h => ⟨hSpread, h⟩)

end Heeds

------------------------------------------------------------
-- Reconciles
------------------------------------------------------------

/-
  Whether a reconcile comes to the end of its chain and
  hands back a delay.
-/
def succeeds
    (m : Manager μ)
    (k : Key)
    (s : Session μ) : Bool :=
  m.endsChain k s &&
    match m.reconcile k s with
    | .ok _ _ => true
    | .error _ _ => false

/-
  A reconcile of a live object that nobody hinders leaves it
  with its own generation observed if it succeeds, and else
  with what had been observed before.
-/
theorem reconcile_observes
    {m : Manager μ}
    {k : Key}
    {o : Object}
    {start : Session μ}
    (hScheduled : m.scheduler.isSome = true)
    (hWritable : m.readOnly = false)
    (hClear : m.StepsStayClear)
    (hLeaves : ∀ step ∈ m.steps, step.LeavesObserved)
    (hKey : o.key = k)
    (hLive : o.isDeleting = false)
    (hUntouched : Untouched k o start)
    (hUnhindered : start.Unhindered) :
    LeftOff k o start
      (if m.succeeds k start then
        some o.metadata.generation
      else o.observedGeneration?)
      ((m.reconcile k).final start) := by
  have hFailed :
      ∀ h s,
        m.reconcile k start = .error h s →
          LeftOff k o start o.observedGeneration? s →
            LeftOff k o start
              (if m.succeeds k start then
                some o.metadata.generation
              else o.observedGeneration?)
              ((m.reconcile k).final start) := by
    intro h s hRun hLeft
    unfold succeeds final
    rw [hRun, Bool.and_false]
    exact hLeft
  have hApproach :=
    approach_heeds hScheduled hKey hLive hClear hLeaves
      hUntouched hUnhindered
  cases hReached : m.approach k start with
  | error h s =>
      apply hFailed h s
      · rw [m.reconcile_eq_approach, bind_of_error hReached]
      · exact hApproach.of_error rfl hReached
  | ok r mid =>
      have hEntered := hApproach.of_ok rfl hReached
      rcases r with why | ⟨c, w⟩
      · unfold succeeds endsChain final
        rw [m.reconcile_eq_approach, bind_of_ok hReached,
          hReached]
        exact hEntered
      rcases hEntered with ⟨hSpread, hHeeds⟩
      have hCarries :
          m.Carries
            (Heeds k o start o.status.observedGeneration) _ :=
        carries_heeds hLive hSpread hClear hLeaves
      have hChained :
          Triple
            (Heeds k o start o.status.observedGeneration w)
            (m.runChain c (m.order w.deleting) w) _ _ :=
        hCarries.runChain
          (fun _ hStep => mem_order.mp hStep)
      have hReconcile :
          m.reconcile k start =
            (do
              let e ← m.runChain c (m.order w.deleting) w
              let w ← m.sumUp e
              m.close e w : Engine μ Duration) mid := by
        rw [m.reconcile_eq_approach, bind_of_ok hReached]
      cases hChain :
          m.runChain c (m.order w.deleting) w mid with
      | error h s =>
          apply hFailed h s
          · rw [hReconcile, bind_of_error hChain]
          · exact hChained.of_error hHeeds hChain
      | ok e s =>
          have hEnds : m.endsChain k start = true := by
            unfold endsChain
            rw [hReached]
            dsimp only
            rw [hChain]
          rw [bind_of_ok hChain] at hReconcile
          have hEnding :
              Triple
                (Heeds k o start o.status.observedGeneration
                  e.work)
                (do
                  let w ← m.sumUp e
                  m.close e w : Engine μ Duration)
                (fun _ =>
                  LeftOff k o start
                    (some o.metadata.generation))
                (fun _ =>
                  LeftOff k o start o.observedGeneration?) :=
            .bind (sumUp_heeds hScheduled hSpread hCarries e)
              (fun _ =>
                close_observes hWritable hKey hLive hSpread)
          have hEnded := hChained.of_ok hHeeds hChain
          cases hEnd :
              (do
                let w ← m.sumUp e
                m.close e w : Engine μ Duration) s with
          | error h s' =>
              exact hFailed h s' (hReconcile.trans hEnd)
                (hEnding.of_error hEnded hEnd)
          | ok d s' =>
              rw [hEnd] at hReconcile
              unfold succeeds final
              rw [hEnds, hReconcile]
              exact hEnding.of_ok hEnded hEnd

end Manager

end Reconciler
