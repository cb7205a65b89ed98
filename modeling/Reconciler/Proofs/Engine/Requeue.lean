import Reconciler.Proofs.Engine.Parked
import Reconciler.Proofs.Store.Labels

/-
  This file says what becomes of a requeue that a step asks
  for under a manager that spreads its reconciles.

  A run whose chain comes to its end always stamps the next
  slot, drawn at random, whatever it hands back.  Afterwards
  the object is up to date until that slot, so a reconcile
  at the requested time passes the gate only if the slot
  comes before that time.

  Key definitions include:
    * `Object.SameSchedule`
    * `Object.Waits`
    * `Manager.Timed`
    * `Manager.Slotted`

  Key theorems include:
    * `Manager.runSteps_waits`
    * `Manager.AtGate.endsWaiting`
    * `Manager.requeued_reconcile`
-/

------------------------------------------------------------
-- Schedules
------------------------------------------------------------

namespace Reconciler

/-
  An object with the slot, the observed generation and the
  budget of another one, and a status to keep them in.
-/
structure Object.SameSchedule
    (o o' : Object) : Prop where
  slot : o.status.SameSlot o'.status
  budget : o'.status.budget = o.status.budget
  spread : o'.has .spread = o.has .spread

theorem Object.SameSchedule.refl
    (o : Object) :
    o.SameSchedule o where
  slot := ⟨rfl, rfl⟩
  budget := rfl
  spread := rfl

theorem Object.SameSchedule.trans
    {o o' o'' : Object}
    (hFirst : o.SameSchedule o')
    (hSecond : o'.SameSchedule o'') :
    o.SameSchedule o'' where
  slot := hFirst.slot.trans hSecond.slot
  budget := hSecond.budget.trans hFirst.budget
  spread := hSecond.spread.trans hFirst.spread

/-
  Up to a slot an object is up to date: its generation has
  been observed, and nothing asks for work out of turn.
-/
structure Object.Waits
    (o : Object)
    (slot : Instant) : Prop where
  live : o.isDeleting = false
  observed :
    o.status.observedGeneration = o.metadata.generation
  next : o.status.nextReconcile = some slot
  unlabelled : o.metadata.hasRefreshLabel = false

/- Such an object needs work once the slot has passed. -/
theorem Object.Waits.isRequired_eq
    {o : Object}
    {slot : Instant}
    (hWaits : o.Waits slot)
    (now : Instant) :
    Scheduler.isRequired o.metadata o.status now =
      decide (slot < now) := by
  unfold Scheduler.isRequired
  rw [hWaits.observed, hWaits.next, hWaits.unlabelled]
  simp

/- The next slot depends on the budget alone. -/
theorem Scheduler.nextSlot?_congr
    (sched : Scheduler)
    {s s' : Status}
    (hBudget : s'.budget = s.budget)
    (n : Nat)
    (now : Instant) :
    sched.nextSlot? n s' now = sched.nextSlot? n s now := by
  unfold nextSlot? draw Scheduler.budget
  rw [hBudget]

------------------------------------------------------------
-- Until the Slot is Stamped
------------------------------------------------------------

variable {μ : Type}

namespace Manager

open Engine

/-
  Until the slot is stamped, the working copy has the
  schedule of the fetched object, and nothing is drawn.
-/
structure Timed
    (k : Key)
    (o : Object)
    (start : Instant)
    (draws : Nat)
    (w : Work)
    (s : Session μ) : Prop where
  mirrors : Mirrors k o w.toCopies s
  schedule : o.SameSchedule w.obj
  start : w.start = start
  live : w.deleting = false
  draws : s.draws = draws

/-
  After it, the working copy has the slot and the observed
  generation.
-/
structure Slotted
    (k : Key)
    (o : Object)
    (slot : Instant)
    (w : Work)
    (s : Session μ) : Prop where
  mirrors : Mirrors k o w.toCopies s
  next : w.obj.status.nextReconcile = some slot
  observed :
    w.obj.status.observedGeneration = o.metadata.generation
  live : w.deleting = false

section Requeue

variable {m : Manager μ}
variable {sched : Scheduler}
variable {k : Key}
variable {o : Object}
variable {slot t : Instant}
variable {n : Nat}

/- A patch of other tokens keeps the schedule. -/
theorem Timed.sendTokens
    {w : Work}
    {new : List String}
    (hKey : o.key = k)
    (hChanged : new ≠ w.obj.metadata.finalizers) :
    Triple (Timed k o t n w : Session μ → Prop)
      (Engine.sendTokens { w.toCopies with
        obj := w.obj.withFinalizers new })
      (fun r s =>
        match r.1 with
        | .ok _ => Timed k o t n { w with toCopies := r.2 } s
        | .error _ => True)
      (fun _ _ => True) := by
  refine sendTokens_triple ?_ (fun _ _ _ _ _ => trivial)
  intro s stored store hTimed hRun
  rcases hTimed.mirrors.patch_cases hKey hChanged hRun with
    ⟨_, hError, _⟩ | ⟨_, hOk, _, hMoved⟩
  · cases hError
  · cases hOk
    exact
      { mirrors := hMoved _
        schedule := hTimed.schedule.trans ⟨⟨rfl, rfl⟩, rfl, rfl⟩
        start := hTimed.start
        live := hTimed.live
        draws := hTimed.draws }

/- Every part of a run before the stamp keeps the schedule. -/
theorem alone_timed
    (hKey : o.key = k)
    (hBehave : m.StepsBehave)
    (hSchedule :
      ∀ step ∈ m.steps, ∀ o o',
        step.Hands o o' → o.SameSchedule o') :
    m.Alone (Timed k o t n) (fun _ _ => True) where
  undisturbed := fun h => h.mirrors.undisturbed
  waited := fun others hFewer h =>
    { h with mirrors := h.mirrors.waited others hFewer }
  idle := fun _ hObjects h =>
    { h with mirrors := h.mirrors.idle _ hObjects }
  handed := fun hStep hHands h =>
    { h with
      mirrors := h.mirrors.handed (hBehave.hands hStep hHands)
      schedule :=
        h.schedule.trans (hSchedule _ hStep _ _ hHands) }
  recorded := fun _ h =>
    { h with
      mirrors := h.mirrors.handed rfl
      schedule := h.schedule.trans ⟨⟨rfl, rfl⟩, rfl, rfl⟩ }
  tallied := fun _ _ h => { h with }
  reported := fun _ h =>
    { h with mirrors := { h.mirrors with } }
  halts := fun _ _ => trivial
  haltReported := fun _ h => h
  released := by
    intro w step _ _ hOwns
    rcases (Tokens.owns_iff step w.obj).mp hOwns with
      ⟨token, hToken, hHas⟩
    rw [Tokens.removeAll_eq]
    refine (Timed.sendTokens hKey
      (Tokens.without_ne hToken hHas)).mono
        (fun _ h => h.1) ?_ (fun _ _ h => h)
    intro r s hSent
    rcases r with ⟨_ | _, c⟩
    · trivial
    · exact hSent

/- The declared tokens are put on the object. -/
theorem ensureTokens_timed
    {w : Work}
    (hKey : o.key = k)
    (hAlone : m.Alone (Timed k o t n) (fun _ _ => True)) :
    Triple (Timed k o t n w) (m.ensureTokens w)
      (Timed k o t n) (fun _ _ => True) := by
  apply m.ensureTokens_triple (E := fun _ => True)
  · exact fun _ h => hAlone.resume h
  · exact fun _ _ _ => trivial
  · exact fun _ _ h => h
  · exact fun _ _ _ => trivial
  · exact fun _ h _ => h
  · intro _ _ hMissing
    rcases List.exists_mem_of_ne_nil _ hMissing with
      ⟨token, hToken⟩
    have hNew := ((Tokens.mem_missing _ _ token).mp hToken).2
    rw [Tokens.addAll_eq]
    exact (Timed.sendTokens hKey
      (Tokens.merged_ne hToken hNew)).mono
        (fun _ h => h.1) (fun _ _ h => h) (fun _ _ h => h)

/- The slot that a run will stamp. -/
def StampsSlot
    (sched : Scheduler)
    (k : Key)
    (o : Object)
    (t : Instant)
    (n : Nat) : ChainEnd → Work → Session μ → Prop
  | .completed _, w, s =>
      ∃ slot,
        sched.nextSlot? n o.status t = some slot ∧
          Slotted k o slot w s
  | .retry _ _ _ _, _, _ => True

/- The next slot is drawn with the next number. -/
theorem stampSlot_eq
    {w : Work}
    {s : Session μ}
    (hScheduler : m.scheduler = some sched)
    (hSpread : w.obj.has .spread = true) :
    m.stampSlot w s =
      match sched.nextSlot? s.draws w.obj.status w.start with
      | none =>
          .error
            (.panicked (.message Scheduler.overflowMessage))
            { s with draws := s.draws + 1 }
      | some slot =>
          .ok
            { w with
              obj := w.obj.mapStatus (fun st =>
                { st with
                  nextReconcile := some slot
                  observedGeneration :=
                    w.obj.metadata.generation }) }
            { s with draws := s.draws + 1 } := by
  have hGet : (get : Engine μ (Session μ)) s = .ok s s := rfl
  unfold stampSlot
  rw [hScheduler]
  dsimp only
  rw [hSpread, Bool.not_true, if_neg Bool.false_ne_true,
    bind_of_ok hGet]
  have hDrawn :
      (modify (fun s' => { s' with draws := s.draws + 1 }) :
          Engine μ Unit) s =
        .ok () { s with draws := s.draws + 1 } :=
    rfl
  rw [bind_of_ok hDrawn]
  split
  · next hNone =>
      rw [hNone]
      rfl
  · next slot hSome =>
      rw [hSome]
      rfl

/- The slot is stored as the scheduler stores it. -/
theorem stampSlot_eq_setNext
    {w : Work}
    {s : Session μ}
    (hScheduler : m.scheduler = some sched)
    (hSpread : w.obj.has .spread = true) :
    m.stampSlot w s =
      match sched.setNext? s.draws w.obj.status w.start with
      | none =>
          .error
            (.panicked (.message Scheduler.overflowMessage))
            { s with draws := s.draws + 1 }
      | some status =>
          .ok
            { w with
              obj := w.obj.mapStatus (fun _ =>
                { status with
                  observedGeneration :=
                    w.obj.metadata.generation }) }
            { s with draws := s.draws + 1 } := by
  rw [stampSlot_eq hScheduler hSpread]
  unfold Scheduler.setNext?
  cases sched.nextSlot? s.draws w.obj.status w.start with
  | none => rfl
  | some slot => rfl

/- A stamp leaves the working copy with its slot. -/
theorem stampSlot_slotted
    {w : Work}
    (hScheduler : m.scheduler = some sched)
    (hSpread : o.has .spread = true) :
    Triple (Timed k o t n w) (m.stampSlot w)
      (fun w s =>
        ∃ slot,
          sched.nextSlot? n o.status t = some slot ∧
            Slotted k o slot w s)
      (fun _ _ => True) := by
  intro s hTimed
  have hSlot :
      sched.nextSlot? s.draws w.obj.status w.start =
        sched.nextSlot? n o.status t := by
    rw [hTimed.draws, hTimed.start]
    exact sched.nextSlot?_congr hTimed.schedule.budget n t
  have hGeneration :
      w.obj.metadata.generation = o.metadata.generation := by
    rw [hTimed.mirrors.own, hTimed.mirrors.snapshot]
    rfl
  rw [stampSlot_eq hScheduler
    (hTimed.schedule.spread.trans hSpread), hSlot]
  cases hNext : sched.nextSlot? n o.status t with
  | none => trivial
  | some slot =>
      exact ⟨slot, rfl,
        { mirrors :=
            { hTimed.mirrors.handed rfl with }
          next := rfl
          observed := hGeneration
          live := hTimed.live }⟩

/- A chain that came to its end always stamps a slot. -/
theorem sumUp_stampsSlot
    (hScheduler : m.scheduler = some sched)
    (hSpread : o.has .spread = true)
    (hCarries :
      m.Carries (Timed k o t n) (fun _ _ => True))
    (e : ChainEnd) :
    Triple (Timed k o t n e.work) (m.sumUp e)
      (StampsSlot sched k o t n e) (fun _ _ => True) := by
  cases e with
  | retry w _ _ _ =>
      change Triple _ (m.recordReadiness .notReady w) _ _
      exact hCarries.recordConditions.mono (fun _ h => h)
        (fun _ _ _ => trivial) (fun _ _ h => h)
  | completed w =>
      refine .bind hCarries.recordConditions ?_
      intro w
      split
      · next hDeleting =>
          refine .pure ?_
          intro s hTimed
          rw [hTimed.live] at hDeleting
          cases hDeleting
      · refine .map ((stampSlot_slotted hScheduler
          hSpread).mono (fun _ h => h) ?_ (fun _ _ h => h))
        rintro w s ⟨slot, hNext, hSlotted⟩
        refine ⟨slot, hNext, ?_⟩
        unfold stampTime
        split
        · exact { hSlotted with
            mirrors := hSlotted.mirrors.handed rfl }
        · exact hSlotted

------------------------------------------------------------
-- After the Status Write
------------------------------------------------------------

/-
  The status is written: the stored object waits for the
  slot but for the refresh label, which only the patch of
  labels takes off.
-/
structure Written
    (k : Key)
    (o : Object)
    (slot : Instant)
    (stored : Object)
    (s : Session μ) : Prop where
  untouched : Untouched k stored s
  key : stored.key = k
  kind : stored.kind = o.kind
  live : stored.isDeleting = false
  observed :
    stored.status.observedGeneration =
      stored.metadata.generation
  next : stored.status.nextReconcile = some slot
  labels : stored.metadata.labels = o.metadata.labels

/- An object that only took tokens is as good as written. -/
theorem Mirrors.written
    {c : Copies}
    {s : Session μ}
    (hKey : o.key = k)
    (hLive : o.isDeleting = false)
    (hSpread : o.has .spread = true)
    (hMirrors : Mirrors k o c s)
    (hNext : o.status.nextReconcile = some slot)
    (hObserved :
      o.status.observedGeneration = o.metadata.generation) :
    ∃ stored, Written k o slot stored s := by
  cases hMirrors.holds with
  | gone hDeleting _ _ =>
      rw [hLive] at hDeleting
      cases hDeleting
  | @stored x hSame hStored =>
      rcases Object.same_of_kept hSpread hSame with
        ⟨hKind, hMetadata, hSlot⟩
      have hStoredKey : x.metadata.key = k := by
        rw [hMetadata]
        exact hKey
      have hDeleting : x.metadata.isDeleting = false := by
        rw [hMetadata]
        exact hLive
      have hGeneration :
          x.status.observedGeneration =
            x.metadata.generation := by
        rw [hSlot.observed, hMetadata, hObserved]
      have hLabels :
          x.metadata.labels = o.metadata.labels := by
        rw [hMetadata]
      exact
        ⟨_,
          { untouched := ⟨hStored, hMirrors.undisturbed⟩
            key := hStoredKey
            kind := hKind
            live := hDeleting
            observed := hGeneration
            next := hSlot.next.trans hNext
            labels := hLabels }⟩

/- A status that need not be written is stored already. -/
theorem Slotted.written
    {w : Work}
    {s : Session μ}
    (hKey : o.key = k)
    (hLive : o.isDeleting = false)
    (hSpread : o.has .spread = true)
    (hSlotted : Slotted k o slot w s)
    (hSame : w.obj.status = w.snapshot.status) :
    ∃ stored, Written k o slot stored s := by
  have hStatus : w.obj.status = o.status := by
    rw [hSame, hSlotted.mirrors.snapshot]
    rfl
  refine hSlotted.mirrors.written hKey hLive hSpread ?_ ?_
  · rw [← hStatus]
    exact hSlotted.next
  · rw [← hStatus]
    exact hSlotted.observed

/- Other tasks keep what has been written. -/
theorem Written.resume
    {stored : Object}
    {s : Session μ}
    (hWritten : Written k o slot stored s) :
    Written k o slot stored s.resume :=
  { hWritten with
    untouched :=
      hWritten.untouched.undisturbed.resume
        (fun others hFewer h => h.waited others hFewer)
        (fun hObjects h => h.idle _ hObjects)
        hWritten.untouched }

/-
  After the status write the snapshot has key and labels of
  the object, so that it tells whether a label is left.
-/
structure Relabels
    (k : Key)
    (o : Object)
    (slot : Instant)
    (w : Work)
    (s : Session μ) : Prop where
  key : w.snapshot.key = k
  labels : w.snapshot.metadata.labels = o.metadata.labels
  live : w.deleting = false
  written : ∃ stored, Written k o slot stored s

/- The write of the status leaves the slot stored. -/
theorem persistStatus_written
    {w : Work}
    (hWritable : m.readOnly = false)
    (hLive : o.isDeleting = false)
    (hSpread : o.has .spread = true)
    (hKey : o.key = k) :
    Triple (Slotted k o slot w) (m.persistStatus w)
      (fun r s =>
        match r with
        | .ok w' => Relabels k o slot w' s
        | .error _ => True)
      (fun _ _ => True) := by
  intro s hSlotted
  have hSnapshotKey := hSlotted.mirrors.snapshot_key hKey
  have hLabels :
      w.snapshot.metadata.labels = o.metadata.labels := by
    rw [hSlotted.mirrors.snapshot]
    rfl
  apply m.persistStatus_triple
    (P := Slotted k o slot w)
    (W := Either
      (fun _ s => ∃ stored, Written k o slot stored s)
      (fun _ _ => True))
  · exact fun _ h =>
      { h with mirrors := h.mirrors.resume }
  · intro hSkip s h
    have hSame : w.obj.status = w.snapshot.status := by
      rcases hSkip with hReadOnly | hSame
      · rw [hWritable] at hReadOnly
        cases hReadOnly
      · exact hSame
    exact ⟨hSnapshotKey, hLabels, h.live,
      h.written hKey hLive hSpread hSame⟩
  · exact fun _ _ _ => trivial
  · intro _ _
    refine (Mirrors.sendStatus hKey).mono
      (fun _ h => h.1.mirrors) ?_ (fun _ _ h => h)
    intro r s hSent
    cases r with
    | error e => trivial
    | ok stored =>
        exact
          ⟨_,
            { untouched := hSent
              key := hKey
              kind := rfl
              live := hLive
              observed := hSlotted.observed
              next := hSlotted.next
              labels := rfl }⟩
  · intro r s rs h
    cases r with
    | error e => trivial
    | ok stored =>
        rcases h with ⟨found, hWritten⟩
        exact ⟨found,
          { hWritten with
            untouched := { hWritten.untouched with } }⟩
  · intro stored s h
    exact ⟨hSnapshotKey, hLabels, hSlotted.live, h⟩
  · intro _ s _ hDeleting _
    rw [hSlotted.mirrors.isDeleting, hLive] at hDeleting
    cases hDeleting
  · exact fun _ _ _ _ => trivial
  · exact hSlotted

/- Without its label the stored object waits for the slot. -/
theorem Written.waits
    {stored : Object}
    {s : Session μ}
    (hWritten : Written k o slot stored s)
    (hLabel : stored.metadata.hasRefreshLabel = false) :
    stored.Waits slot where
  live := hWritten.live
  observed := hWritten.observed
  next := hWritten.next
  unlabelled := hLabel

/-
  The session shows an object of the key that waits for its
  slot.
-/
def EndsWaiting
    (k : Key)
    (o : Object)
    (slot : Instant)
    (s : Session μ) : Prop :=
  ∃ stored,
    s.scene.store.object? k = some stored ∧
      stored.key = k ∧ stored.kind = o.kind ∧
        stored.Waits slot

/- A removal of the label that succeeds leaves it waiting. -/
theorem Written.patched
    {stored base answer : Object}
    {s s' : Session μ}
    (hWritten : Written k o slot stored s)
    (hSpread : o.has .spread = true)
    (hKey : base.key = k)
    (hLabel : base.metadata.hasRefreshLabel = true)
    (hPatch :
      Store.patch (base.mapMetadata (·.removeRefreshLabel))
          base s.scene.store =
        (.ok answer, s'.scene.store)) :
    EndsWaiting k o slot s' := by
  rcases Store.patch_label_ok hLabel hPatch with
    ⟨found, labels, version, hFound, hGone, hAnswer, hObjects⟩
  rw [hKey, hWritten.untouched.stored] at hFound
  cases hFound
  have hStoredSpread : stored.has .spread = true := by
    unfold Object.has
    rw [hWritten.kind]
    exact hSpread
  rcases Object.same_of_kept hStoredSpread (.inr rfl) with
    ⟨hKind, hMetadata, hSlot⟩
  have hStoredKey : stored.persisted.key = k := by
    unfold Object.key
    rw [hMetadata]
    exact hWritten.key
  have hLive : stored.persisted.isDeleting = false := by
    unfold Object.isDeleting
    rw [hMetadata]
    exact hWritten.live
  have hGeneration :
      stored.persisted.status.observedGeneration =
        stored.persisted.metadata.generation := by
    rw [hSlot.observed, hMetadata]
    exact hWritten.observed
  have hNoLabel : Table.has refreshLabel labels = false := by
    unfold Table.has
    rw [hGone]
    rfl
  have hShown :
      s'.scene.store.object? k = some answer := by
    rw [Store.object?_congr hObjects, hKey,
      Store.object?_settle, if_pos rfl, hAnswer]
    exact if_neg (by
      change
        ¬ (stored.persisted.isDeleting && _) = true
      rw [hLive]
      exact Bool.false_ne_true)
  refine ⟨answer, hShown, ?_, ?_, ?_⟩
  · rw [hAnswer]
    exact hStoredKey
  · rw [hAnswer]
    exact hKind.trans hWritten.kind
  · rw [hAnswer]
    exact
      { live := hLive
        observed := hGeneration
        next := hSlot.next.trans hWritten.next
        unlabelled := hNoLabel }

/- The label is taken off, or there is none. -/
theorem clearRefreshLabel_waiting
    {w : Work}
    (hScheduler : m.scheduler = some sched)
    (hWritable : m.readOnly = false)
    (hSpread : o.has .spread = true) :
    Triple (Relabels k o slot w) (m.clearRefreshLabel w)
      (fun _ => EndsWaiting k o slot) (fun _ _ => True) := by
  apply m.clearRefreshLabel_triple (E := fun _ _ => True)
  · intro s h
    rcases h.written with ⟨stored, hWritten⟩
    exact { h with written := ⟨stored, hWritten.resume⟩ }
  · intro hKeep s h
    rcases h.written with ⟨stored, hWritten⟩
    have hLabel :
        w.snapshot.metadata.hasRefreshLabel = false := by
      rcases hKeep with hNone | hReadOnly | hLabel
      · rw [hScheduler] at hNone
        cases hNone
      · rw [hWritable] at hReadOnly
        cases hReadOnly
      · exact hLabel
    unfold Metadata.hasRefreshLabel at hLabel
    rw [h.labels, ← hWritten.labels] at hLabel
    exact ⟨stored, hWritten.untouched.stored, hWritten.key,
      hWritten.kind, hWritten.waits hLabel⟩
  · exact fun _ _ _ _ => trivial
  · intro _ hLabel
    refine .onStore ?_
    intro s r store h hPatch
    rcases h.1.written with ⟨stored, hWritten⟩
    cases r with
    | error e => trivial
    | ok answer =>
        exact hWritten.patched hSpread h.1.key hLabel hPatch
  · exact fun _ _ _ _ => trivial
  · exact fun _ _ _ => trivial

/- The second part of a run that has stamped its slot. -/
theorem close_waiting
    {e : ChainEnd}
    {w : Work}
    (hScheduler : m.scheduler = some sched)
    (hWritable : m.readOnly = false)
    (hLive : o.isDeleting = false)
    (hSpread : o.has .spread = true)
    (hKey : o.key = k) :
    Triple (StampsSlot sched k o t n e w) (m.close e w)
      (fun _ s =>
        ∃ slot,
          sched.nextSlot? n o.status t = some slot ∧
            EndsWaiting k o slot s)
      (fun _ _ => True) := by
  cases e with
  | retry _ step requeue cause =>
      refine .bind (Q := fun _ _ => True) ?_
        (fun _ => .fail (fun _ _ => trivial))
      intro s _
      cases m.persistStatus w s <;> trivial
  | completed w' =>
      rintro s ⟨slot, hNext, hSlotted⟩
      have hClose :
          Triple (Slotted k o slot w)
            (m.close (.completed w') w)
            (fun _ => EndsWaiting k o slot)
            (fun _ _ => True) := by
        refine .bind
          (persistStatus_written hWritable hLive hSpread
            hKey) ?_
        intro r
        cases r with
        | error e => exact .fail (fun _ _ => trivial)
        | ok w =>
            have hEnd :
                Triple (Relabels k o slot w)
                  (m.clearRefreshLabel w >>=
                    fun _ => pure w.requeue)
                  (fun _ => EndsWaiting k o slot)
                  (fun _ _ => True) :=
              .bind
                (clearRefreshLabel_waiting hScheduler
                  hWritable hSpread)
                (fun _ => .pure (fun _ h => h))
            intro s h
            dsimp only
            rw [h.live]
            exact hEnd s h
      refine hClose.mono (fun _ h => h) ?_
        (fun _ _ h => h) s hSlotted
      exact fun _ _ h => ⟨slot, hNext, h⟩

/-
  A run past the gate hands back no requeue, or it leaves
  the object waiting for a slot that was drawn at random.
-/
theorem runSteps_waits
    {c : Context}
    (hScheduler : m.scheduler = some sched)
    (hWritable : m.readOnly = false)
    (hBehave : m.StepsBehave)
    (hSchedule :
      ∀ step ∈ m.steps, ∀ o o',
        step.Hands o o' → o.SameSchedule o')
    (hLive : o.isDeleting = false)
    (hSpread : o.has .spread = true)
    (hKey : o.key = k) :
    Triple (fun s => Untouched k o s ∧ s.draws = n)
      (m.ensureTokens (Work.fresh o t) >>= m.runSteps c)
      (fun d s =>
        d.isZero = false →
          ∃ slot,
            sched.nextSlot? n o.status t = some slot ∧
              EndsWaiting k o slot s)
      (fun _ _ => True) := by
  have hAlone :=
    alone_timed (t := t) (n := n) hKey hBehave hSchedule
  have hCarries := hAlone.carries hBehave
  refine .bind
    ((ensureTokens_timed hKey hAlone).mono ?_
      (fun _ _ h => h) (fun _ _ h => h)) ?_
  · intro s h
    exact
      { mirrors := h.1.mirrors
        schedule := .refl o
        start := rfl
        live := hLive
        draws := h.2 }
  · intro w
    rw [m.runSteps_eq_draft_finish]
    refine .bind
      (hCarries.draftSteps
        (D := Draft.Either
          (fun why _ => why.delay.isZero = true)
          (StampsSlot sched k o t n))
        (fun _ => rfl)
        (sumUp_stampsSlot hScheduler hSpread hCarries)) ?_
    intro d
    cases d with
    | early why =>
        refine .pure ?_
        intro s hNone hAsked
        rw [hNone] at hAsked
        cases hAsked
    | closing e w =>
        exact (close_waiting hScheduler hWritable hLive
          hSpread hKey).mono (fun _ h => h)
            (fun _ _ h _ => h) (fun _ _ h => h)

------------------------------------------------------------
-- The Reconcile at the Requested Time
------------------------------------------------------------

/- A fetch of an object that nobody touches. -/
theorem Untouched.fetched
    {start s : Session μ}
    {o' : Object}
    (hUntouched : Untouched k o start)
    (hFetched :
      await (some <$> fetch k) start = .ok (.ok o') s) :
    o' = o ∧ Untouched k o s ∧ s.draws = start.draws := by
  have hTriple :=
    fetch_triple (k := k) (o := o)
      (P := fun s : Session μ =>
        Untouched k o s ∧ s.draws = start.draws)
      (F := fun s => Untouched k o s ∧ s.draws = start.draws)
      (E := fun _ => True) (H := fun _ _ => True)
      (fun _ h => h.1)
      (fun _ others hFewer h =>
        ⟨h.1.waited others hFewer, h.2⟩)
      (fun _ _ hObjects h => ⟨h.1.idle _ hObjects, h.2⟩)
      (fun _ _ => trivial)
      (fun _ _ hObjects h => ⟨h.1.idle _ hObjects, h.2⟩)
      (fun _ _ _ _ _ => trivial)
  exact hTriple.of_ok ⟨hUntouched, rfl⟩ hFetched

/- A reconcile that hands back a delay has come to its end. -/
theorem reconcile_of_recovered
    {start s : Session μ}
    {tags : Table String String}
    {d : Duration}
    (hRun : m.reconcileRecovered tags k start = (.ok d, s)) :
    m.reconcile k start = .ok d s := by
  unfold reconcileRecovered at hRun
  cases hReconcile : m.reconcile k start with
  | ok d' s' =>
      rw [hReconcile] at hRun
      cases hRun
      rfl
  | error h s' =>
      rw [hReconcile] at hRun
      cases hRun

/-
  A run past the gate that hands back a requeue leaves the
  object waiting for the slot that it has drawn.
-/
theorem AtGate.endsWaiting
    {start s end_ : Session μ}
    {tags : Table String String}
    {d : Duration}
    (hScheduler : m.scheduler = some sched)
    (hWritable : m.readOnly = false)
    (hBehave : m.StepsBehave)
    (hSchedule :
      ∀ step ∈ m.steps, ∀ o o',
        step.Hands o o' → o.SameSchedule o')
    (hKey : o.key = k)
    (hUntouched : Untouched k o start)
    (hGate : m.AtGate k start o t s)
    (hRequired :
      Scheduler.isRequired o.metadata o.status t = true)
    (hRun : m.reconcileRecovered tags k start = (.ok d, end_))
    (hAsked : d.isZero = false) :
    ∃ slot,
      t.after? (Scheduler.schedulable
          (sched.draw start.draws o.status)) = some slot ∧
        EndsWaiting k o slot end_ := by
  have hSpread :=
    spread_of_capable hGate.scheduled hGate.capable
  rcases hUntouched.fetched hGate.fetched with
    ⟨_, hFirst, hDraws⟩
  have hPassed :
      (m.ensureTokens (Work.fresh o t) >>=
        m.runSteps (m.context k)) s = .ok d end_ := by
    rw [← reconcile_of_recovered hRun, hGate.reconcile_eq,
      if_pos hRequired]
  have hTriple :=
    runSteps_waits (t := t) (n := start.draws)
      (c := m.context k) hScheduler hWritable hBehave
      hSchedule hGate.live hSpread hKey
  exact hTriple.of_ok ⟨hFirst, hDraws⟩ hPassed hAsked

/-
  What becomes of a requested requeue.  A run passes the
  gate at some time and hands back a delay, nobody else
  writes, and the object is reconciled again after that
  delay.  It passes the gate again exactly if the delay that
  the first run has drawn is the shorter one; else it is
  parked for the rest of the drawn delay.
-/
theorem requeued_reconcile
    {start s end_ again s' : Session μ}
    {o' : Object}
    {tags tags' : Table String String}
    {d : Duration}
    {later : Instant}
    (hScheduler : m.scheduler = some sched)
    (hWritable : m.readOnly = false)
    (hBehave : m.StepsBehave)
    (hSchedule :
      ∀ step ∈ m.steps, ∀ o o',
        step.Hands o o' → o.SameSchedule o')
    (hKey : o.key = k)
    (hUntouched : Untouched k o start)
    (hGate : m.AtGate k start o t s)
    (hRequired :
      Scheduler.isRequired o.metadata o.status t = true)
    (hRun : m.reconcileRecovered tags k start = (.ok d, end_))
    (hAsked : d.isZero = false)
    (hLater : t.after? d = some later)
    (hLeft :
      again.scene.store.object? k =
        end_.scene.store.object? k)
    (hUndisturbed : again.Undisturbed)
    (hFetched :
      await (some <$> fetch k) again = .ok (.ok o') s')
    (hClock : s'.scene.clock.read = .ok later) :
    m.AtGate k again o' later s' ∧
      (Scheduler.isRequired o'.metadata o'.status later =
          true ↔
        Scheduler.schedulable
            (sched.draw start.draws o.status) < d) ∧
      (Scheduler.schedulable
            (sched.draw start.draws o.status) < d →
        m.reconcile k again =
          (m.ensureTokens (Work.fresh o' later) >>=
            m.runSteps (m.context k)) s') ∧
      (¬ Scheduler.schedulable
            (sched.draw start.draws o.status) < d →
        ∃ rest,
          m.reconcileRecovered tags' k again =
              (.ok rest, s') ∧
            rest.nanos =
              (Scheduler.schedulable
                (sched.draw start.draws o.status)).nanos -
                d.nanos) := by
  have hRegular := Clock.read_regular hGate.clock
  -- The first run leaves the object waiting for its slot.
  rcases hGate.endsWaiting hScheduler hWritable hBehave
      hSchedule hKey hUntouched hRequired hRun hAsked with
    ⟨slot, hSlot, stored, hStored, _, hKind, hWaits⟩
  -- The second run fetches that object.
  have hAgain : Untouched k stored again :=
    ⟨hLeft.trans hStored, hUndisturbed⟩
  have hSame := (hAgain.fetched hFetched).1
  cases hSame
  have hGateAgain : m.AtGate k again o' later s' :=
    { scheduled := hGate.scheduled
      fetched := hFetched
      capable :=
        (m.missingCapability?_congr hKind).trans
          hGate.capable
      clock := hClock
      live := hWaits.live }
  have hDue :
      Scheduler.isRequired o'.metadata o'.status later =
          true ↔
        Scheduler.schedulable
          (sched.draw start.draws o.status) < d := by
    rw [hWaits.isRequired_eq, decide_eq_true_iff]
    exact Instant.after?_lt_iff hRegular hSlot hLater
  refine ⟨hGateAgain, hDue, ?_, ?_⟩
  · intro hShorter
    rw [hGateAgain.reconcile_eq, if_pos (hDue.mpr hShorter)]
  · intro hLonger
    have hIdle :
        Scheduler.isRequired o'.metadata o'.status later =
          false :=
      Bool.eq_false_iff.mpr
        (fun hNeeds => hLonger (hDue.mp hNeeds))
    have hRest :
        Scheduler.parkedFor o'.status later =
          later.delayUntil slot := by
      unfold Scheduler.parkedFor
      rw [hWaits.next]
    refine ⟨later.delayUntil slot, ?_,
      Instant.nanos_delayUntil_after hRegular hSlot hLater⟩
    unfold reconcileRecovered
    rw [hGateAgain.reconcile_eq, hIdle, hRest]
    rfl

/- A manager that spreads reconciles of the same step. -/
def askingManager : Manager Unit :=
  { dueManager with steps := [guardStep] }

/- The object of the host, as it is stored. -/
def askingObject : Object where
  kind := .full
  metadata :=
    { Metadata.fresh "default" "object" with
      resourceVersion := some "1" }
  status := {}

/- The session after the fetch of that object. -/
def askingGate : Session Unit :=
  guardStart.moveTo (.fetched guardKey (.ok askingObject))
    { guardStart.scene with
      store := (Store.get guardKey guardStart.scene.store).2 }

/- The session after a reconcile. -/
def askingEnd : Session Unit :=
  (askingManager.reconcileRecovered [] guardKey guardStart).2

/- The session at the time that the step has asked for. -/
def askingAgain : Session Unit :=
  { askingEnd with
    scene := askingEnd.scene.advance (.ofSeconds 5) }

/-
  The step asks to come back after five seconds.  The host
  does so, and the object is parked for half an hour.
-/
theorem asking_swallowed :
    (askingManager.reconcileRecovered [] guardKey
        guardStart).1.toOption =
        some (.ofSeconds 5) ∧
      (Journal.executed askingEnd.journal).map (·.1) =
        ["step"] ∧
      (askingManager.reconcileRecovered [] guardKey
        askingAgain).1.toOption =
        some (.ofSeconds 1795) ∧
      (Journal.executed
        (askingManager.reconcileRecovered [] guardKey
          askingAgain).2.journal).map (·.1) =
        ["step"] := by
  refine ⟨?_, ?_, ?_, ?_⟩
  · decide +kernel
  · decide +kernel
  · decide +kernel
  · decide +kernel

theorem asking_stepsBehave :
    askingManager.StepsBehave where
  hook := guard_stepsBehave.hook
  process := guard_stepsBehave.process
  finalize := guard_stepsBehave.finalize
  keeps := guard_stepsBehave.keeps

/- The step hands its working copy back. -/
theorem asking_sameSchedule :
    ∀ step ∈ askingManager.steps, ∀ o o',
      step.Hands o o' → o.SameSchedule o' := by
  intro step hStep o o' hHands
  rw [List.mem_singleton.mp hStep] at hHands
  rcases hHands with
    ⟨context, scene, result, scene', hRun | hRun⟩
  · cases hRun
    exact .refl o
  · cases hRun
    exact .refl o

/- Five seconds after the start of 1970. -/
def askingTime : Instant where
  second := 5
  nanos := 0
  earliest := by decide
  latest := by decide
  bounded := Instant.epoch.bounded
  regular := .inl (by decide)

theorem ok_of_toOption
    {ε α : Type}
    {r : Except ε α}
    {a : α}
    (hOk : r.toOption = some a) :
    r = .ok a := by
  cases r with
  | ok a' =>
      cases hOk
      rfl
  | error e => cases hOk

theorem asking_requeued :
    Instant.epoch.after? (.ofSeconds 5) = some askingTime ∧
      ∃ o s rest,
        askingManager.AtGate guardKey askingAgain o askingTime
            s ∧
          askingManager.reconcileRecovered [] guardKey
              askingAgain =
            (.ok rest, s) ∧
          rest.nanos = 1795 * 10 ^ 9 := by
  have hUntouched :
      Untouched guardKey askingObject guardStart :=
    ⟨by decide +kernel, fun _ hMember => nomatch hMember⟩
  have hGate :
      askingManager.AtGate guardKey guardStart askingObject
        .epoch askingGate :=
    { scheduled := rfl
      fetched := rfl
      capable := rfl
      clock := rfl
      live := rfl }
  have hRun :
      askingManager.reconcileRecovered [] guardKey
          guardStart =
        (.ok (.ofSeconds 5), askingEnd) :=
    Prod.ext (ok_of_toOption (by decide +kernel)) rfl
  have hLater :
      Instant.epoch.after? (.ofSeconds 5) =
        some askingTime := by
    decide +kernel
  have hTime :
      timeAtGate? guardKey askingAgain = some askingTime := by
    decide +kernel
  have hOthers : askingAgain.others.isEmpty = true := by
    decide +kernel
  have hUndisturbed : askingAgain.Undisturbed := by
    intro change hMember
    rw [List.isEmpty_iff.mp hOthers] at hMember
    cases hMember
  have hScheduler :
      askingManager.scheduler =
        some
          { config := ⟨.ofSeconds 3600⟩
            jitter := .fixed 30 } :=
    rfl
  have hKey : askingObject.key = guardKey := rfl
  have hRequired :
      Scheduler.isRequired askingObject.metadata
        askingObject.status .epoch = true := by
    decide +kernel
  have hAsked : (Duration.ofSeconds 5).isZero = false := by
    decide +kernel
  have hLeft :
      askingAgain.scene.store.object? guardKey =
        askingEnd.scene.store.object? guardKey :=
    rfl
  rcases fetched_of_timeAtGate hTime with
    ⟨o, s, hFetched, hClock⟩
  rcases requeued_reconcile hScheduler rfl
    asking_stepsBehave asking_sameSchedule hKey hUntouched
    hGate hRequired hRun hAsked hLater hLeft hUndisturbed
    hFetched hClock with
    ⟨hAgain, _, _, hParked⟩
  rcases hParked (by decide +kernel) with ⟨rest, hRest, hNanos⟩
  refine ⟨hLater, o, s, rest, hAgain, hRest, ?_⟩
  rw [hNanos]
  decide +kernel

end Requeue

end Manager

end Reconciler
