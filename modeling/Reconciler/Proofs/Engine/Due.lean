import Reconciler.Proofs.Engine.Mirror

/-
  This file proves that a reconcile that fails never parks
  its object.

  A live object is due if its generation moved, its slot has
  passed or was never set, or it carries the refresh label.
  Until the status is written none of these can change.  A
  run that stamps the next slot can fail after its write
  only if the label could not be taken off.

  Key definitions include:
    * `Status.SameSlot`
    * `Store.StaysDue`
    * `Manager.Unstamped`

  Key theorems include:
    * `Scheduler.isRequired_mono`
    * `Manager.Mirrors.staysDue`
    * `Manager.failed_staysDue`
-/

------------------------------------------------------------
-- Objects that are Due
------------------------------------------------------------

namespace Reconciler

/- A status with the slot and generation of another one. -/
structure Status.SameSlot
    (s s' : Status) : Prop where
  next : s'.nextReconcile = s.nextReconcile
  observed : s'.observedGeneration = s.observedGeneration

theorem Status.SameSlot.trans
    {s s' s'' : Status}
    (hFirst : s.SameSlot s')
    (hSecond : s'.SameSlot s'') :
    s.SameSlot s'' where
  next := hSecond.next.trans hFirst.next
  observed := hSecond.observed.trans hFirst.observed

/- The JSON form of an object with slots keeps the slot. -/
theorem Object.persisted_sameSlot
    {o : Object}
    (hSpread : o.has .spread = true) :
    o.status.SameSlot o.persisted.status := by
  rcases o with ⟨kind, m, s⟩
  cases kind with
  | full => exact ⟨rfl, rfl⟩
  | plain => cases hSpread
  | listed _ => exact ⟨rfl, rfl⟩

/-
  A store keeps such an object as it is, or as its JSON form;
  both have its kind, its metadata and its slot.
-/
theorem Object.same_of_kept
    {o x : Object}
    (hSpread : o.has .spread = true)
    (hKept : x = o ∨ x = o.persisted) :
    x.kind = o.kind ∧ x.metadata = o.metadata ∧
      o.status.SameSlot x.status := by
  rcases hKept with rfl | rfl
  · exact ⟨rfl, rfl, rfl, rfl⟩
  · exact ⟨o.persisted_kind, o.persisted_metadata,
      persisted_sameSlot hSpread⟩

/- An object that needs work needs it from then on. -/
theorem Scheduler.isRequired_mono
    {m : Metadata}
    {s : Status}
    {now later : Instant}
    (hLater : now ≤ later)
    (hRequired : isRequired m s now = true) :
    isRequired m s later = true := by
  unfold isRequired at *
  rw [Bool.or_eq_true, Bool.or_eq_true] at *
  refine hRequired.imp_left (Or.imp_right ?_)
  cases s.nextReconcile with
  | none => exact fun h => h
  | some slot =>
      intro hPassed
      have hPassed : slot < now := of_decide_eq_true hPassed
      exact decide_eq_true (Int.lt_of_lt_of_le hPassed hLater)

/-
  A store shows an object that needs work from the time on
  at which another one needs it.
-/
def Store.StaysDue
    (k : Key)
    (o : Object)
    (store : Store) : Prop :=
  ∃ stored,
    store.object? k = some stored ∧
      ∀ now later,
        now ≤ later →
          Scheduler.isRequired o.metadata o.status now = true →
            Scheduler.isRequired stored.metadata stored.status
              later = true

namespace Store.StaysDue

variable {k : Key}
variable {o stored : Object}
variable {store store' : Store}

/- An object with generation, labels and slot of another. -/
theorem of_sameSlot
    (hStored : store.object? k = some stored)
    (hGeneration :
      stored.metadata.generation = o.metadata.generation)
    (hLabels : stored.metadata.labels = o.metadata.labels)
    (hSlot : o.status.SameSlot stored.status) :
    store.StaysDue k o := by
  refine ⟨stored, hStored, ?_⟩
  intro now later hLater hRequired
  unfold Scheduler.isRequired Metadata.hasRefreshLabel
  rw [hGeneration, hLabels, hSlot.next, hSlot.observed]
  exact Scheduler.isRequired_mono hLater hRequired

/- An object with the refresh label always needs work. -/
theorem of_label
    (hStored : store.object? k = some stored)
    (hLabel : stored.metadata.hasRefreshLabel = true) :
    store.StaysDue k o := by
  refine ⟨stored, hStored, ?_⟩
  intro now later _ _
  unfold Scheduler.isRequired
  rw [hLabel, Bool.or_true]

theorem congr
    (hDue : store.StaysDue k o)
    (hObjects : store'.objects = store.objects) :
    store'.StaysDue k o := by
  rcases hDue with ⟨stored, hStored, hRequired⟩
  exact ⟨stored,
    (object?_congr hObjects k).trans hStored, hRequired⟩

end Store.StaysDue

------------------------------------------------------------
-- Runs on an Object that is Due
------------------------------------------------------------

variable {μ : Type}

namespace Manager

open Engine

/- The session shows an object that stays due. -/
def EndsDue
    (k : Key)
    (o : Object)
    (s : Session μ) : Prop :=
  s.scene.store.StaysDue k o

section Due

variable {m : Manager μ}
variable {k : Key}
variable {o : Object}

/- A manager that schedules relies on slots. -/
theorem spread_of_capable
    (hScheduled : m.scheduler.isSome = true)
    (hCapable : m.missingCapability? o = none) :
    o.has .spread = true := by
  unfold missingCapability? at hCapable
  rw [hScheduled, Bool.true_and] at hCapable
  by_contra hMissing
  simp only [Bool.not_eq_true] at hMissing
  rw [hMissing] at hCapable
  split at hCapable <;> simp at hCapable

/- An object that nobody has touched stays due. -/
theorem Untouched.staysDue
    {s : Session μ}
    (hUntouched : Untouched k o s) :
    EndsDue k o s :=
  .of_sameSlot hUntouched.stored rfl rfl ⟨rfl, rfl⟩

/- So does a live object that has only taken tokens. -/
theorem Mirrors.staysDue
    {c : Copies}
    {s : Session μ}
    (hLive : o.isDeleting = false)
    (hSpread : o.has .spread = true)
    (hMirrors : Mirrors k o c s) :
    EndsDue k o s := by
  cases hMirrors.holds with
  | gone hDeleting _ _ =>
      rw [hLive] at hDeleting
      cases hDeleting
  | @stored x hSame hStored =>
      rcases Object.same_of_kept hSpread hSame with
        ⟨_, hMetadata, hSlot⟩
      have hGeneration :
          x.metadata.generation = o.metadata.generation := by
        rw [hMetadata]
      have hLabels :
          x.metadata.labels = o.metadata.labels := by
        rw [hMetadata]
      exact .of_sameSlot hStored hGeneration hLabels hSlot

/-
  Until the slot is stamped, the working copy has the slot
  of the fetched object.
-/
structure Unstamped
    (k : Key)
    (o : Object)
    (w : Work)
    (s : Session μ) : Prop where
  mirrors : Mirrors k o w.toCopies s
  slot : o.status.SameSlot w.obj.status

/- A patch of other tokens keeps the slot. -/
theorem Unstamped.sendTokens
    {w : Work}
    {new : List String}
    (hLive : o.isDeleting = false)
    (hSpread : o.has .spread = true)
    (hKey : o.key = k)
    (hChanged : new ≠ w.obj.metadata.finalizers) :
    Triple
      (fun s : Session μ =>
        Unstamped k o w s ∧ s.scene.cancelled = false)
      (Engine.sendTokens { w.toCopies with
        obj := w.obj.withFinalizers new })
      (fun r s =>
        match r.1 with
        | .ok _ => Unstamped k o { w with toCopies := r.2 } s
        | .error _ => EndsDue k o s)
      (fun _ => EndsDue k o) := by
  intro s hPre
  have hSlot := hPre.1.slot
  refine (Mirrors.sendTokens hKey hChanged).mono
    (fun _ h => h) ?_ (fun _ _ h => h) s hPre.1.mirrors
  rintro ⟨sent, c⟩ s hSent
  cases sent with
  | error e => exact hSent.staysDue hLive hSpread
  | ok _ =>
      rcases hSent with ⟨hMirrors, hStatus⟩
      refine ⟨hMirrors, ?_⟩
      rw [hStatus]
      exact hSlot

/- The slot is kept by every part of a run on the way. -/
theorem alone_unstamped
    (hLive : o.isDeleting = false)
    (hSpread : o.has .spread = true)
    (hKey : o.key = k)
    (hBehave : m.StepsBehave)
    (hSlots :
      ∀ step ∈ m.steps, ∀ o o',
        step.Hands o o' → o.status.SameSlot o'.status) :
    m.Alone (Unstamped k o)
      (fun _ => EndsDue k o) where
  undisturbed := fun h => h.mirrors.undisturbed
  waited := fun others hFewer h =>
    { h with mirrors := h.mirrors.waited others hFewer }
  idle := fun _ hObjects h =>
    { h with mirrors := h.mirrors.idle _ hObjects }
  handed := fun hStep hHands h =>
    { mirrors := h.mirrors.handed (hBehave.hands hStep hHands)
      slot := h.slot.trans (hSlots _ hStep _ _ hHands) }
  recorded := fun _ h =>
    { mirrors := h.mirrors.handed rfl
      slot := h.slot.trans ⟨rfl, rfl⟩ }
  tallied := fun _ _ h => { h with }
  reported := fun _ h =>
    { h with mirrors := { h.mirrors with } }
  halts := fun _ h => h.mirrors.staysDue hLive hSpread
  haltReported := fun _ h => h
  released := by
    intro w step _ _ hOwns
    rcases (Tokens.owns_iff step w.obj).mp hOwns with
      ⟨t, hToken, hHas⟩
    rw [Tokens.removeAll_eq]
    exact (Unstamped.sendTokens hLive hSpread hKey
      (Tokens.without_ne hToken hHas)).mono
        (fun _ h => ⟨h.1, h.2.1⟩) (fun _ _ h => h)
        (fun _ _ h => h)

/- The declared tokens are put on the object. -/
theorem ensureTokens_unstamped
    {w : Work}
    (hLive : o.isDeleting = false)
    (hSpread : o.has .spread = true)
    (hKey : o.key = k)
    (hAlone :
      m.Alone (Unstamped k o)
        (fun _ => EndsDue k o)) :
    Triple (Unstamped k o w) (m.ensureTokens w)
      (Unstamped k o)
      (fun _ => EndsDue k o) := by
  refine m.ensureTokens_triple
    (fun _ h => hAlone.resume h)
    (fun _ h _ => h.mirrors.staysDue hLive hSpread)
    (fun _ _ h => h) (fun _ _ h => h) (fun _ h _ => h) ?_
  intro _ _ hMissing
  rcases List.exists_mem_of_ne_nil _ hMissing with
    ⟨t, hToken⟩
  have hNew := ((Tokens.mem_missing _ _ t).mp hToken).2
  rw [Tokens.addAll_eq]
  exact Unstamped.sendTokens hLive hSpread hKey
    (Tokens.merged_ne hToken hNew)

/- What is left once the slot may have been stamped. -/
def Stamped
    (k : Key)
    (o : Object) : ChainEnd → Work → Session μ → Prop
  | .completed _, w, s => Mirrors k o w.toCopies s
  | .retry _ _ _ _, w, s => Unstamped k o w s

/- Only a chain that came to its end stamps the slot. -/
theorem sumUp_stamped
    (hLive : o.isDeleting = false)
    (hSpread : o.has .spread = true)
    (hCarries :
      m.Carries (Unstamped k o)
        (fun _ => EndsDue k o))
    (e : ChainEnd) :
    Triple (Unstamped k o e.work) (m.sumUp e)
      (Stamped k o e)
      (fun _ => EndsDue k o) := by
  cases e with
  | completed w =>
      refine .bind hCarries.recordConditions ?_
      intro w
      split
      · exact .pure (fun _ h => h.mirrors)
      · refine .map (m.stampSlot_triple
          (P := Unstamped k o w)
          (Q := fun w' s =>
            Stamped k o (.completed w) (m.stampTime w') s)
          ?_ ?_ ?_ ?_)
        · intro s n h
          exact { h with mirrors := { h.mirrors with } }
        · intro s h
          unfold stampTime
          split
          · exact h.mirrors.handed rfl
          · exact h.mirrors
        · intro s slot generation h
          unfold stampTime
          split
          · exact h.mirrors.handed rfl
          · exact h.mirrors.handed rfl
        · intro p s h
          exact h.mirrors.staysDue hLive hSpread
  | retry w _ _ _ =>
      change Triple _ (m.recordReadiness .notReady w) _ _
      exact hCarries.recordConditions

/- The stored object carries the refresh label. -/
def Labelled
    (k : Key)
    (s : Session μ) : Prop :=
  ∃ stored,
    Untouched k stored s ∧
      stored.metadata.hasRefreshLabel = true

theorem Labelled.endsDue
    {s : Session μ}
    (hLabelled : Labelled k s) :
    EndsDue k o s := by
  rcases hLabelled with ⟨stored, hUntouched, hLabel⟩
  exact .of_label hUntouched.stored hLabel

theorem Labelled.resume
    {s : Session μ}
    (hLabelled : Labelled k s) :
    Labelled k s.resume := by
  rcases hLabelled with ⟨stored, hUntouched, hLabel⟩
  exact ⟨stored, hUntouched.resume, hLabel⟩

/- The label of the snapshot is on the stored object. -/
theorem Mirrors.labelled
    {c : Copies}
    {s : Session μ}
    (hLive : o.isDeleting = false)
    (hMirrors : Mirrors k o c s)
    (hLabel : c.snapshot.metadata.hasRefreshLabel = true) :
    Labelled k s := by
  rw [hMirrors.snapshot] at hLabel
  have hLabel : o.metadata.hasRefreshLabel = true := hLabel
  cases hMirrors.holds with
  | gone hDeleting _ _ =>
      rw [hLive] at hDeleting
      cases hDeleting
  | @stored x hSame hStored =>
      refine ⟨_, ⟨hStored, hMirrors.undisturbed⟩, ?_⟩
      change x.metadata.hasRefreshLabel = true
      rcases hSame with hSame | hSame
      · rw [hSame]
        exact hLabel
      · rw [hSame, o.persisted_metadata]
        exact hLabel

/-
  Where a removal of the label is due, the stored object
  carries it.
-/
def Clearing
    (k : Key)
    (c : Copies)
    (s : Session μ) : Prop :=
  c.snapshot.metadata.hasRefreshLabel = true → Labelled k s

/- A removal of the label that fails leaves it there. -/
theorem clearRefreshLabel_endsDue
    {w : Work} :
    Triple (Clearing k w.toCopies) (m.clearRefreshLabel w)
      (fun _ _ => True) (fun _ => EndsDue k o) := by
  refine m.clearRefreshLabel_triple
    (E := fun _ => EndsDue k o)
    (fun _ h hLabel => (h hLabel).resume)
    (fun _ _ _ => trivial)
    (fun hLabel _ h _ => (h hLabel).endsDue) ?_
    (fun _ _ _ h => h) (fun _ _ h => h)
  intro _ hLabel
  refine .onStore ?_
  intro s r store h hRun
  cases r with
  | ok _ => trivial
  | error e =>
      have hObjects :=
        Store.patch_error (congrArg Prod.fst hRun)
      rw [hRun] at hObjects
      have hDue : EndsDue k o s := (h.1 hLabel).endsDue
      exact hDue.congr hObjects

/-
  The write after a chain that came to its end leaves the
  label, or it fails and the object stays due.
-/
theorem persistStatus_clearing
    {w : Work}
    (hLive : o.isDeleting = false)
    (hSpread : o.has .spread = true)
    (hKey : o.key = k) :
    Triple (Mirrors k o w.toCopies) (m.persistStatus w)
      (fun r s =>
        match r with
        | .ok w' => Clearing k w'.toCopies s
        | .error _ => EndsDue k o s)
      (fun _ => EndsDue k o) := by
  intro s hMirrors
  have hObj : w.obj.isDeleting = false :=
    hMirrors.isDeleting.trans hLive
  refine m.persistStatus_triple
    (P := Mirrors k o w.toCopies)
    (W := Either
      (fun _ => Clearing k w.toCopies)
      (fun _ => EndsDue k o))
    ?_ ?_ ?_ ?_ ?_ (fun _ _ h => h) ?_ (fun _ _ _ h => h)
    s hMirrors
  · exact fun _ h => h.resume
  · intro _ s h hLabel
    exact h.labelled hLive hLabel
  · intro s h _
    exact h.staysDue hLive hSpread
  · intro _ _
    refine (Mirrors.sendStatus hKey).mono (fun _ h => h.1)
      ?_ (fun _ _ h => h)
    intro r s hSent
    cases r with
    | error e => exact hSent.staysDue hLive hSpread
    | ok stored =>
        intro hLabel
        refine ⟨_, hSent, ?_⟩
        rw [hMirrors.snapshot] at hLabel
        exact hLabel
  · intro r s rs h
    cases r with
    | error e => exact h
    | ok stored =>
        intro hLabel
        rcases h hLabel with ⟨found, hUntouched, hFound⟩
        exact ⟨found, { hUntouched with }, hFound⟩
  · intro e s _ hDeleting
    rw [hObj] at hDeleting
    cases hDeleting

/-
  The write after a chain that has to be retried keeps the
  slot, so the object stays due in any case.
-/
theorem persistStatus_endsDue
    {w : Work}
    (hLive : o.isDeleting = false)
    (hSpread : o.has .spread = true)
    (hKey : o.key = k) :
    Triple (Unstamped k o w) (m.persistStatus w)
      (fun _ => EndsDue k o) (fun _ => EndsDue k o) := by
  intro s hUnstamped
  have hSlot := hUnstamped.slot
  refine m.persistStatus_triple
    (P := Mirrors k o w.toCopies)
    (W := fun _ => EndsDue k o)
    ?_ ?_ ?_ ?_ (fun _ _ _ h => h) (fun _ _ h => h)
    (fun _ _ _ _ h => h) (fun _ _ _ h => h)
    s hUnstamped.mirrors
  · exact fun _ h => h.resume
  · intro _ s h
    exact h.staysDue hLive hSpread
  · intro s h _
    exact h.staysDue hLive hSpread
  · intro _ _
    refine (Mirrors.sendStatus hKey).mono (fun _ h => h.1)
      ?_ (fun _ _ h => h)
    intro r s hSent
    cases r with
    | error e => exact hSent.staysDue hLive hSpread
    | ok stored =>
        exact .of_sameSlot hSent.stored rfl rfl hSlot

/- The status write, and what comes after it. -/
theorem close_endsDue
    (hLive : o.isDeleting = false)
    (hSpread : o.has .spread = true)
    (hKey : o.key = k)
    {e : ChainEnd}
    {w : Work} :
    Triple (Stamped k o e w) (m.close e w)
      (fun _ _ => True) (fun _ => EndsDue k o) := by
  cases e with
  | completed _ =>
      refine .bind
        (persistStatus_clearing hLive hSpread hKey) ?_
      intro r
      cases r with
      | error e => exact .fail (fun _ h => h)
      | ok w' =>
          dsimp only
          split
          · exact .bind clearRefreshLabel_endsDue
              (fun _ => .pure (fun _ _ => trivial))
          · exact .pure (fun _ _ => trivial)
  | retry _ _ _ _ =>
      exact .bind
        (persistStatus_endsDue hLive hSpread hKey)
        (fun _ => .fail (fun _ h => h))

/- A reconcile that fails leaves the object due. -/
theorem reconcile_endsDue
    (hScheduled : m.scheduler.isSome = true)
    (hBehave : m.StepsBehave)
    (hSlots :
      ∀ step ∈ m.steps, ∀ o o',
        step.Hands o o' → o.status.SameSlot o'.status)
    (hKey : o.key = k)
    (hLive : o.isDeleting = false) :
    Triple (Untouched k o) (m.reconcile k)
      (fun _ _ => True) (fun _ => EndsDue k o) := by
  rw [m.reconcile_eq_draft_finish k]
  refine .bind
    (Q := Draft.Either
      (fun _ _ => True)
      (fun e w s =>
        o.has .spread = true ∧ Stamped k o e w s))
    (m.draft_triple
      (F := fun o' s => o' = o ∧ Untouched k o s)
      (E := EndsDue k o) ?_
      (fun _ _ h => h.2.staysDue)
      (fun _ _ _ h => ⟨h.1, { h.2 with }⟩)
      (fun _ _ h => h) (fun _ _ _ => trivial)
      (fun _ _ h => h) ?_) ?_
  · exact fetch_triple (fun _ h => h)
      (fun _ others hFewer h => h.waited others hFewer)
      (fun _ _ hObjects h => h.idle _ hObjects)
      (fun _ h => h.staysDue)
      (fun _ _ hObjects h => h.idle _ hObjects)
      (fun _ _ _ hObjects h => h.staysDue.congr hObjects)
  · intro o' now hCapable
    refine .assume ?_
    rintro rfl
    have hSpread := spread_of_capable hScheduled hCapable
    have hAlone :=
      alone_unstamped hLive hSpread hKey hBehave hSlots
    have hCarries := hAlone.carries hBehave
    refine .bind
      ((ensureTokens_unstamped hLive hSpread hKey
        hAlone).mono
          (fun _ h => ⟨h.mirrors, ⟨rfl, rfl⟩⟩)
          (fun _ _ h => h) (fun _ _ h => h)) ?_
    intro w
    refine (hCarries.draftSteps
      (D := Draft.Either
        (fun _ _ => True) (Stamped k o'))
      (fun _ => trivial)
      (sumUp_stamped hLive hSpread hCarries)).mono
        (fun _ h => h) ?_ (fun _ _ h => h)
    intro d s hDrafted
    cases d with
    | early _ => trivial
    | closing e w => exact ⟨hSpread, hDrafted⟩
  · intro d
    cases d with
    | early why => exact .pure (fun _ _ => trivial)
    | closing e w =>
        exact .assume (fun hSpread =>
          close_endsDue hLive hSpread hKey)

/-
  A reconcile that fails never parks its object: if the live
  object needed work at some time, it is still stored and
  needs work at every later time.
-/
theorem failed_staysDue
    {start : Session μ}
    {tags : Table String String}
    {e : ReconcileError}
    {now later : Instant}
    (hScheduled : m.scheduler.isSome = true)
    (hBehave : m.StepsBehave)
    (hSlots :
      ∀ step ∈ m.steps, ∀ o o',
        step.Hands o o' → o.status.SameSlot o'.status)
    (hKey : o.key = k)
    (hLive : o.isDeleting = false)
    (hStored : start.scene.store.object? k = some o)
    (hUndisturbed : start.Undisturbed)
    (hFailed :
      (m.reconcileRecovered tags k start).1 = .error e)
    (hRequired :
      Scheduler.isRequired o.metadata o.status now = true)
    (hLater : now ≤ later) :
    ∃ stored,
      (m.reconcileRecovered tags k start).2.scene.store.object?
          k = some stored ∧
        Scheduler.isRequired stored.metadata stored.status
          later = true := by
  have hTriple :=
    reconcile_endsDue hScheduled hBehave hSlots hKey hLive
  unfold reconcileRecovered at *
  cases hRun : m.reconcile k start with
  | ok d s' =>
      rw [hRun] at hFailed
      cases hFailed
  | error h s' =>
      rcases hTriple.of_error ⟨hStored, hUndisturbed⟩ hRun
        with ⟨stored, hObject, hDue⟩
      exact ⟨stored, hObject,
        hDue now later hLater hRequired⟩

/- A step that leaves its object alone. -/
def idleStep : Step Unit where
  name := "step"
  process := fun _ o => return (.ok, o)

/- A manager that schedules every half hour. -/
def dueManager : Manager Unit where
  operator := "operator"
  controller := "controller"
  kind := "TestObject"
  steps := [idleStep]
  conditions := false
  scheduler := some
    { config := ⟨.ofSeconds 3600⟩, jitter := .fixed 30 }
  hook := none
  reporter := .discarding
  policy := .standard
  readOnly := false
  trackLast := false

/- An object that carries the refresh label. -/
def dueObject : Object where
  kind := .full
  metadata :=
    { Metadata.fresh "default" "object" with
      labels := [(refreshLabel, "true")]
      resourceVersion := some "1" }
  status :=
    { observedGeneration := 1
      nextReconcile := some .epoch }

/- A host with that object, whose next patch will fail. -/
def dueStart : Session Unit where
  scene :=
    { store := (Store.insert dueObject {}).failNext .patch
        (.transient "unavailable")
      clock := ⟨0⟩
      memory := () }

theorem due_stepsBehave :
    dueManager.StepsBehave := by
  refine .of_handsBack rfl ?_
  intro step hStep
  rw [List.mem_singleton.mp hStep]
  exact ⟨fun _ _ => ⟨_, rfl⟩, fun _ _ => ⟨_, rfl⟩⟩

/- The steps hand their working copies back. -/
theorem due_sameSlot :
    ∀ step ∈ dueManager.steps, ∀ o o',
      step.Hands o o' → o.status.SameSlot o'.status := by
  intro step hStep o o' hHands
  rw [List.mem_singleton.mp hStep] at hHands
  rcases hHands with
    ⟨context, scene, result, scene', hRun | hRun⟩
  · cases hRun
    exact ⟨rfl, rfl⟩
  · cases hRun
    exact ⟨rfl, rfl⟩

/- The removal of the label fails, and so does the run. -/
theorem due_failed :
    ∃ e,
      (dueManager.reconcileRecovered [] guardKey dueStart).1 =
        .error e := by
  have hNone :
      (dueManager.reconcileRecovered [] guardKey
        dueStart).1.toOption = none := by
    decide +kernel
  cases hRun :
      (dueManager.reconcileRecovered [] guardKey
        dueStart).1 with
  | ok d =>
      rw [hRun] at hNone
      cases hNone
  | error e => exact ⟨e, rfl⟩

theorem due_failed_staysDue :
    dueObject.isDeleting = false ∧
      (∃ e,
        (dueManager.reconcileRecovered [] guardKey
          dueStart).1 = .error e) ∧
      Scheduler.isRequired dueObject.metadata
          dueObject.status .epoch = true ∧
      ∃ stored,
        (dueManager.reconcileRecovered [] guardKey
            dueStart).2.scene.store.object? guardKey =
          some stored ∧
          Scheduler.isRequired stored.metadata stored.status
            .epoch = true := by
  have hKey : dueObject.key = guardKey := rfl
  have hStored :
      dueStart.scene.store.object? guardKey =
        some dueObject := by
    decide +kernel
  have hUndisturbed : dueStart.Undisturbed := by
    intro change hMember
    cases hMember
  have hRequired :
      Scheduler.isRequired dueObject.metadata
        dueObject.status .epoch = true := by
    decide +kernel
  rcases due_failed with ⟨e, hFailed⟩
  exact ⟨rfl, ⟨e, hFailed⟩, hRequired,
    failed_staysDue rfl due_stepsBehave due_sameSlot hKey rfl
      hStored hUndisturbed hFailed hRequired
      (Int.le_refl _)⟩

end Due

end Manager

end Reconciler
