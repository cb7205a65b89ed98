import Reconciler.Proofs.Engine.Due
import Reconciler.Proofs.Engine.Twins
import Reconciler.Proofs.Engine.Unopposed

/-
  This file proves that work items are independent.

  A reconcile of one key comes to the same answer and leaves
  the same object, up to its resource version, whatever else
  is stored, and it touches no other key.  Hence two items
  can be handled in either order.

  Key definitions include:
    * `WorkItem`
    * `Manager.handle`
    * `Manager.TwinStart`

  Key theorems include:
    * `Manager.reconcile_twins`
    * `Manager.handle_twins`
    * `Manager.handle_confined`
    * `Manager.handle_independent`
-/

------------------------------------------------------------
-- Summing Up
------------------------------------------------------------

namespace Reconciler

variable {μ : Type}

namespace Manager

open Engine

section Runs

variable {m : Manager μ}
variable {k : Key}
variable {start start' s t : Session μ}
variable {w v : Work}

/- With fixed jitter both runs stamp the same slot. -/
theorem stampSlot_twins
    (hInsular : m.Insular) :
    Abreast (TwinWork k start start' w v)
      (m.stampSlot w) (m.stampSlot v)
      (TwinWork k start start')
      (Twins k start start') := by
  apply Abreast.fact (fun _ _ h => h.work)
  rintro ⟨version, rfl⟩
  have hHas :
      (w.withVersion version).obj.has .spread =
        w.obj.has .spread :=
    rfl
  unfold stampSlot
  rw [hHas]
  cases hScheduler : m.scheduler with
  | none => exact .pure (fun _ _ h => h)
  | some sched =>
      dsimp only
      split
      · exact .pure (fun _ _ h => h)
      · refine .bind
          (.read (Q := fun _ _ =>
            TwinWork k start start' w
              (w.withVersion version))
            (fun _ _ h => h)) ?_
        intro s t
        refine .bind
          (.update (Q := fun _ _ =>
            TwinWork k start start' w
              (w.withVersion version))
            (fun s' t' h => h.aside s'.reports t'.reports
              (s.draws + 1) (t.draws + 1))) ?_
        intro _ _
        have hSlot :
            sched.nextSlot? t.draws
                (w.withVersion version).obj.status
                (w.withVersion version).start =
              sched.nextSlot? s.draws w.obj.status w.start :=
          hInsular.nextSlot?_draws hScheduler t.draws s.draws
            w.obj.status w.start
        rw [hSlot]
        split
        · exact .halt (fun _ _ h => h.toTwins)
        · exact .pure (fun _ _ h =>
            h.edited ⟨version, rfl⟩ rfl rfl rfl)

/- Both runs stamp the time. -/
theorem TwinWork.stampTime
    (hWork : TwinWork k start start' w v s t) :
    TwinWork k start start' (m.stampTime w) (m.stampTime v)
      s t := by
  have hSelf := hWork
  rcases hWork.work with ⟨version, rfl⟩
  have hAsked :
      (m.trackLast &&
          (w.withVersion version).obj.has .rateLimit) =
        (m.trackLast && w.obj.has .rateLimit) :=
    rfl
  unfold Manager.stampTime
  rw [hAsked]
  split
  · exact hSelf.edited ⟨version, rfl⟩ rfl rfl rfl
  · exact hSelf

theorem recordReadiness_twins
    {r : Readiness} :
    Abreast (TwinWork k start start' w v)
      (m.recordReadiness r w) (m.recordReadiness r v)
      (TwinWork k start start')
      (Twins k start start') := by
  unfold recordReadiness
  exact updateConditions_twins (fun _ _ _ => rfl)

/- Both runs sum up their chains in the same way. -/
theorem sumUp_twins
    {e : ChainEnd}
    (hInsular : m.Insular) :
    Abreast (TwinWork k start start' e.work v)
      (m.sumUp e) (m.sumUp (e.withWork v))
      (TwinWork k start start')
      (Twins k start start') := by
  cases e with
  | retry w step requeue cause => exact recordReadiness_twins
  | completed w =>
      apply Abreast.fact (fun _ _ h => h.work)
      rintro ⟨version, rfl⟩
      refine .bind recordReadiness_twins ?_
      intro w' v'
      apply Abreast.fact (fun _ _ h => h.work)
      rintro ⟨version', rfl⟩
      have hDeleting :
          (w'.withVersion version').deleting = w'.deleting :=
        rfl
      rw [hDeleting]
      split
      · exact .pure (fun _ _ h => h)
      · refine .map ((stampSlot_twins hInsular).mono
          (fun _ _ h => h) ?_ (fun _ _ h => h))
        exact fun _ _ _ _ h => h.stampTime

------------------------------------------------------------
-- Closing
------------------------------------------------------------

/- What both runs have come to with their status. -/
def PersistedTwins
    (k : Key)
    (start start' : Session μ) :
    Except ReconcileError Work →
      Except ReconcileError Work →
        Session μ → Session μ → Prop :=
  Agreeing (TwinWork k start start')
    (fun _ => Twins k start start')

/- Both runs write the status, or none does. -/
theorem persistStatus_twins :
    Abreast (TwinWork k start start' w v)
      (m.persistStatus w) (m.persistStatus v)
      (PersistedTwins k start start')
      (Twins k start start') := by
  apply Abreast.fact
    (p := (∃ version, v = w.withVersion version) ∧
      w.obj.key = k ∧ w.snapshot.key = k)
    (fun _ _ h => ⟨h.work, h.obj, h.snapshot⟩)
  rintro ⟨⟨version, rfl⟩, hObject, hSnapshot⟩
  have hSkips :
      (m.readOnly ||
          decide ((w.withVersion version).obj.status =
            (w.withVersion version).snapshot.status)) =
        (m.readOnly ||
          decide (w.obj.status = w.snapshot.status)) :=
    rfl
  have hDeleting :
      (w.withVersion version).obj.isDeleting =
        w.obj.isDeleting :=
    rfl
  unfold persistStatus
  rw [hSkips, hDeleting]
  split
  · exact .pure (fun _ _ h => h)
  · refine .bindTogether
      (.cancellableTogether
        (M := TwinWork k start start' w
          (w.withVersion version))
        (E := Twins k start start')
        (fun _ _ h => h.resume) (fun _ _ h => h.flag)
        (fun _ _ h => h.toTwins)
        (.map (write_twins (u := w) hObject hSnapshot
          ?_ ?_ ?_))) ?_ ?_
    · intro s t h
      exact Store.updateStatus_matches
        h.left.sheltered.quiet.status
        h.right.sheltered.quiet.status hObject h.shown
        h.isAt h.isAt'
    · rw [← hObject]
      exact Store.updateStatus_writesAt _
    · rw [← hObject]
      exact Store.updateStatus_writesAt
        (w.obj.withVersion version)
    · exact .pure (fun _ _ h => ⟨rfl, h⟩)
    · refine Abreast.agreeing ?_ ?_
      · exact fun _ _ => .pure (fun _ _ h => h)
      intro e
      apply Abreast.assume
      rintro rfl
      have hMissing :
          (StoreError.notFound k).isNotFound = true :=
        rfl
      have hConflict :
          (StoreError.notFound k).isConflict = false :=
        rfl
      dsimp only
      rw [hMissing, hConflict]
      split
      · exact .pure (fun _ _ h => h)
      · exact .bind reportStoreError_twins
          (fun _ _ => .pure (fun _ _ h => ⟨rfl, h.toTwins⟩))

/- The refresh label is dropped in both stores, or in none. -/
theorem clearRefreshLabel_twins :
    Abreast (TwinWork k start start' w v)
      (m.clearRefreshLabel w) (m.clearRefreshLabel v)
      (fun _ _ => Twins k start start')
      (Twins k start start') := by
  apply Abreast.fact
    (p := (∃ version, v = w.withVersion version) ∧
      w.obj.key = k ∧ w.snapshot.key = k)
    (fun _ _ h => ⟨h.work, h.obj, h.snapshot⟩)
  rintro ⟨⟨version, rfl⟩, hObject, hSnapshot⟩
  have hClears :
      (m.scheduler.isSome && !m.readOnly &&
          (w.withVersion
            version).snapshot.metadata.hasRefreshLabel) =
        (m.scheduler.isSome && !m.readOnly &&
          w.snapshot.metadata.hasRefreshLabel) :=
    rfl
  unfold clearRefreshLabel
  rw [hClears]
  split
  · next hLabelled =>
      have hLabel := (Bool.and_eq_true_iff.mp hLabelled).2
      refine .bindAgreeing
        (.awaitTogether
          (M := TwinWork k start start' w
            (w.withVersion version))
          (fun _ _ h => h.resume) (fun _ _ h => h.flag)
          (fun _ _ h => h.toTwins)
          (.map (write_twins (u := w) hObject hSnapshot
            ?_ ?_ ?_))) ?_ ?_
      · intro s t h
        exact Store.patch_label_matches
          h.left.sheltered.quiet.patch
          h.right.sheltered.quiet.patch hSnapshot hLabel
          h.shown
      · rw [← hSnapshot]
        exact Store.patch_writesAt _ _
      · rw [← hSnapshot]
        exact Store.patch_writesAt _
          (w.snapshot.withVersion version)
      · exact fun _ _ => .pure (fun _ _ h => h.toTwins)
      · intro e
        apply Abreast.assume
        rintro rfl
        exact .bind reportStoreError_twins
          (fun _ _ => .fail (fun _ _ h => h.toTwins))
  · exact .pure (fun _ _ h => h.toTwins)

/- Both runs hand back the same. -/
theorem close_twins
    {e : ChainEnd}
    {v' : Work} :
    Abreast (TwinWork k start start' w v)
      (m.close e w) (m.close (e.withWork v') v)
      (fun d d' s t => d' = d ∧ Twins k start start' s t)
      (Twins k start start') := by
  cases e with
  | retry _ step requeue cause =>
      apply Abreast.bindAgreeing persistStatus_twins
      · exact fun _ _ => .fail (fun _ _ h => h.toTwins)
      · exact fun _ => .fail (fun _ _ h => h)
  | completed _ =>
      apply Abreast.bindAgreeing persistStatus_twins
      · intro w' v'
        apply Abreast.fact
          (p := v'.deleting = w'.deleting ∧
            v'.requeue = w'.requeue)
        · intro s t h
          rcases h.work with ⟨version, rfl⟩
          exact ⟨rfl, rfl⟩
        rintro ⟨hDeleting, hRequeue⟩
        dsimp only
        rw [hDeleting, hRequeue]
        split
        · exact .bind clearRefreshLabel_twins
            (fun _ _ => .pure (fun _ _ h => ⟨rfl, h⟩))
        · exact .pure (fun _ _ h => ⟨rfl, h.toTwins⟩)
      · exact fun _ => .fail (fun _ _ h => h)

------------------------------------------------------------
-- Whole Runs
------------------------------------------------------------

/-
  Twin sessions that have just fetched an object of the key,
  each at the version of its store.
-/
structure TwinFetch
    (k : Key)
    (start start' : Session μ)
    (o o' : Object)
    (s t : Session μ) : Prop
    extends Twins k start start' s t where
  object : ∃ version, o' = o.withVersion version
  key : o.key = k
  isAt : s.scene.store.IsAt k o.metadata.resourceVersion
  isAt' : t.scene.store.IsAt k o'.metadata.resourceVersion

/- The work on both objects begins alike. -/
theorem TwinFetch.work
    {o o' : Object}
    (hFetch : TwinFetch k start start' o o' s t)
    (now : Instant) :
    TwinWork k start start' (Work.fresh o now)
      (Work.fresh o' now) s t where
  toTwins := hFetch.toTwins
  work := by
    rcases hFetch.object with ⟨version, rfl⟩
    exact ⟨version, rfl⟩
  obj := hFetch.key
  snapshot := hFetch.key
  isAt := hFetch.isAt
  isAt' := hFetch.isAt'

/- What both runs have come to with their fetches. -/
def FetchedTwins
    (k : Key)
    (start start' : Session μ) :
    Except StoreError Object → Except StoreError Object →
      Session μ → Session μ → Prop :=
  Agreeing (TwinFetch k start start')
    (fun e s t =>
      e = .notFound k ∧ Twins k start start' s t)

/-
  Two sheltered sessions of one clock and one flag, which
  show the same object of a key, stored under its own key.
-/
structure TwinStart
    (k : Key)
    (s t : Session μ) : Prop where
  left : s.Sheltered
  right : t.Sheltered
  clock : t.scene.clock = s.scene.clock
  flag : t.scene.cancelled = s.scene.cancelled
  shown : t.scene.store.shown? k = s.scene.store.shown? k
  keyed : ∀ o, s.scene.store.object? k = some o → o.key = k

/- Such sessions are twins. -/
theorem TwinStart.twins
    (hStart : TwinStart k s t) :
    Twins k s t s t where
  left := hStart.left.confined k
  right := hStart.right.confined k
  clock := hStart.clock
  flag := hStart.flag
  shown := hStart.shown

/- Both runs fetch the object, or both find none. -/
theorem fetch_twins
    (hStart : TwinStart k start start') :
    Abreast (fun s t => s = start ∧ t = start')
      (await (some <$> fetch k)) (await (some <$> fetch k))
      (FetchedTwins k start start')
      (Twins k start start') := by
  refine .awaitTogether
    (M := fun s t =>
      Twins k start start' s t ∧
        ∀ o, s.scene.store.object? k = some o → o.key = k)
    ?_ (fun _ _ h => h.1.flag) (fun _ _ h => h.1)
    (.map (.onStore ?_))
  · rintro s t ⟨rfl, rfl⟩
    have hLeft := hStart.left.resume
    have hRight := hStart.right.resume
    refine ⟨hStart.twins.spared hLeft.1 hRight.1 hLeft.2.1
      hRight.2.1 hStart.twins.flag_resume, ?_⟩
    intro o hStored
    rw [Store.object?_congr hLeft.2.1.objects] at hStored
    exact hStart.keyed o hStored
  · intro s t r r' left right h hRun hRun'
    have hMatch := Store.get_matches h.1.left.sheltered.quiet
      h.1.right.sheltered.quiet h.1.shown
    have hTwins := h.1.wrote (.fetched k r) (.fetched k r')
      hMatch (Store.get_writesAt k) (Store.get_writesAt k)
    have hOk :
        ∀ o, r = .ok o →
          s.scene.store.object? k = some o := by
      intro o hFetched
      apply Store.get_ok
      rw [hRun, hFetched]
    rw [hRun, hRun'] at hMatch hTwins
    cases hMatch with
    | missing hLeft hRight _ _ =>
        have hLeft : r = .error (.notFound k) := hLeft
        have hRight : r' = .error (.notFound k) := hRight
        rw [hLeft, hRight] at hTwins ⊢
        exact ⟨rfl, rfl, hTwins⟩
    | @written o version hLeft hRight _ hAt hAt' =>
        have hLeft : r = .ok o := hLeft
        have hRight : r' = .ok (o.withVersion version) :=
          hRight
        have hKey := h.2 o (hOk o hLeft)
        rw [hLeft, hRight] at hTwins ⊢
        exact
          { toTwins := hTwins
            object := ⟨version, rfl⟩
            key := hKey
            isAt := hAt
            isAt' := hAt' }

/- Both runs miss the same capability, or none. -/
theorem checkCapabilities_twins
    {o o' : Object} :
    Abreast (TwinFetch k start start' o o')
      (m.checkCapabilities o) (m.checkCapabilities o')
      (fun _ _ => TwinFetch k start start' o o')
      (Twins k start start') := by
  apply Abreast.fact (fun _ _ h => h.object)
  rintro ⟨version, rfl⟩
  have hMissing :
      m.missingCapability? (o.withVersion version) =
        m.missingCapability? o :=
    rfl
  have hTags :
      m.tags (o.withVersion version) none = m.tags o none :=
    rfl
  unfold checkCapabilities
  rw [hMissing, hTags]
  split
  · exact .pure (fun _ _ h => h)
  · refine .bind
      (.update (Q := fun _ _ => Twins k start start') ?_)
      (fun _ _ => .fail (fun _ _ h => h))
    intro s t h
    exact h.toTwins.spared { h.left.sheltered with }
      { h.right.sheltered with } (.refl _) (.refl _) h.flag

/-
  What both runs have come to before the status write: the
  same early end, or ends of the chain with like work.
-/
def DraftTwins
    (k : Key)
    (start start' : Session μ) :
    Draft → Draft → Session μ → Session μ → Prop
  | .early why, .early why' => fun s t =>
      why' = why ∧ Twins k start start' s t
  | .closing e w, .closing e' v => fun s t =>
      (∃ v', e' = e.withWork v') ∧
        TwinWork k start start' w v s t
  | _, _ => fun _ _ => False

/- Hook and chain in both runs, up to the status write. -/
theorem draftSteps_twins
    {c : Context}
    (hInsular : m.Insular) :
    Abreast (TwinWork k start start' w v)
      (m.draftSteps c w) (m.draftSteps c v)
      (DraftTwins k start start')
      (Twins k start start') := by
  unfold draftSteps
  refine .bind (seedCondition_twins (fun _ _ _ => rfl)) ?_
  intro w v
  refine .bind (prepare_twins hInsular) ?_
  intro r r'
  apply Abreast.assume
  rintro rfl
  cases r' with
  | none => exact .pure (fun _ _ h => ⟨rfl, h.toTwins⟩)
  | some c =>
      apply Abreast.fact (p := v.deleting = w.deleting)
      · intro s t h
        rcases h.work with ⟨version, rfl⟩
        rfl
      intro hDeleting
      dsimp only
      rw [hDeleting]
      refine .bind
        (runChain_twins (fun step hStep =>
          hInsular.steps step (mem_order.mp hStep))) ?_
      intro e e'
      apply Abreast.named
      intro v'
      apply Abreast.assume
      rintro rfl
      exact .bind (sumUp_twins hInsular)
        (fun _ _ => .pure (fun _ _ h => ⟨⟨v', rfl⟩, h⟩))

/- Both runs draft the same. -/
theorem draft_twins
    (hInsular : m.Insular)
    (hStart : TwinStart k start start') :
    Abreast (fun s t => s = start ∧ t = start')
      (m.draft k) (m.draft k)
      (DraftTwins k start start')
      (Twins k start start') := by
  unfold draft
  apply Abreast.bindAgreeing (fetch_twins hStart)
  · intro o o'
    refine .bind checkCapabilities_twins ?_
    intro _ _
    refine .bind
      (.clock
        (Q := fun i j s t =>
          j = i ∧
            TwinWork k start start' (Work.fresh o i)
              (Work.fresh o' i) s t)
        (fun _ _ h => h.clock.symm)
        (fun i _ _ h => ⟨rfl, h.work i⟩)
        (fun _ _ h => h.toTwins)) ?_
    intro i j
    apply Abreast.assume
    rintro rfl
    apply Abreast.fact (fun _ _ h => h.work)
    rintro ⟨version, hVersion⟩
    have hParked :
        m.parked? (Work.fresh o' j) =
          m.parked? (Work.fresh o j) := by
      rw [hVersion]
      rfl
    dsimp only
    rw [hParked]
    split
    · exact .pure (fun _ _ h => ⟨rfl, h.toTwins⟩)
    · exact .bind (ensureTokens_twins hInsular)
        (fun _ _ => draftSteps_twins hInsular)
  · intro e
    apply Abreast.assume
    rintro rfl
    exact .pure (fun _ _ h => ⟨rfl, h⟩)

/-
  A reconcile comes to the same answer in both sessions, and
  they stay twins, whatever else their stores hold.
-/
theorem reconcile_twins
    (hInsular : m.Insular)
    (hStart : TwinStart k start start') :
    Abreast (fun s t => s = start ∧ t = start')
      (m.reconcile k) (m.reconcile k)
      (fun d d' s t => d' = d ∧ Twins k start start' s t)
      (Twins k start start') := by
  rw [reconcile_eq_draft_finish]
  refine .bind (draft_twins hInsular hStart) ?_
  intro d d'
  cases d with
  | early why =>
      cases d' with
      | closing _ _ => exact fun _ _ h => h.elim
      | early why' =>
          apply Abreast.assume
          rintro rfl
          exact .pure (fun _ _ h => ⟨rfl, h⟩)
  | closing e w =>
      cases d' with
      | early _ => exact fun _ _ h => h.elim
      | closing e' v =>
          apply Abreast.assume
          rintro ⟨v', rfl⟩
          exact close_twins

end Runs

end Manager

------------------------------------------------------------
-- Work Items
------------------------------------------------------------

/-
  What a host reconciles: a key, with a cancellation flag of
  its own and the tags for the report of a panic.
-/
structure WorkItem where
  key : Key
  cancelled : Bool := false
  tags : Table String String := []

/- The session in which the flag of an item is raised. -/
def Session.flagged
    (cancelled : Bool)
    (s : Session μ) : Session μ :=
  { s with scene := { s.scene with cancelled := cancelled } }

namespace Manager

variable {m : Manager μ}

/- Reconcile a work item and recover from a panic. -/
def handle
    (m : Manager μ)
    (i : WorkItem)
    (s : Session μ) :
    Except ReconcileError Duration × Session μ :=
  m.reconcileRecovered i.tags i.key (s.flagged i.cancelled)

/- Handle two items, one after the other. -/
def handleBoth
    (m : Manager μ)
    (i j : WorkItem)
    (s : Session μ) :
    (Except ReconcileError Duration ×
      Except ReconcileError Duration) × Session μ :=
  let (first, s) := m.handle i s
  let (second, s) := m.handle j s
  ((first, second), s)

/-
  Two sheltered sessions of one clock that show the same
  object of a key can handle an item of the key.
-/
theorem TwinStart.of_sheltered
    {k : Key}
    {s t : Session μ}
    (cancelled : Bool)
    (hLeft : s.Sheltered)
    (hRight : t.Sheltered)
    (hKeyed : s.scene.store.Keyed)
    (hClock : t.scene.clock = s.scene.clock)
    (hShown :
      t.scene.store.shown? k = s.scene.store.shown? k) :
    TwinStart k (s.flagged cancelled)
      (t.flagged cancelled) where
  left := { hLeft with }
  right := { hRight with }
  clock := hClock
  flag := rfl
  shown := hShown
  keyed := hKeyed k

/- An item is handled in the same way in both sessions. -/
theorem handle_twins
    {i : WorkItem}
    {s t : Session μ}
    (hInsular : m.Insular)
    (hStart :
      TwinStart i.key (s.flagged i.cancelled)
        (t.flagged i.cancelled)) :
    (m.handle i t).1 = (m.handle i s).1 ∧
      Twins i.key s t (m.handle i s).2 (m.handle i t).2 := by
  have hMeets :=
    reconcile_twins hInsular hStart _ _ ⟨rfl, rfl⟩
  -- The clock and the objects do not see the raised flag.
  have hStarts :
      ∀ {a b : Session μ},
        Twins i.key (s.flagged i.cancelled)
            (t.flagged i.cancelled) a b →
          Twins i.key s t a b :=
    fun h =>
      { h with
        left := { h.left with }
        right := { h.right with } }
  unfold handle reconcileRecovered
  revert hMeets
  generalize m.reconcile i.key (s.flagged i.cancelled) = left
  generalize m.reconcile i.key (t.flagged i.cancelled) = right
  intro hMeets
  cases hMeets with
  | ended hEnd =>
      exact ⟨congrArg Except.ok hEnd.1, hStarts hEnd.2⟩
  | halted hEnd =>
      refine ⟨rfl, (hStarts hEnd).spared ?_ ?_ (.refl _)
        (.refl _) hEnd.flag⟩
      · exact { hEnd.left.sheltered with }
      · exact { hEnd.right.sheltered with }

/- An item leaves clock and other keys alone. -/
theorem handle_confined
    {i : WorkItem}
    {s : Session μ}
    (hInsular : m.Insular)
    (hSheltered : s.Sheltered)
    (hKeyed : s.scene.store.Keyed) :
    Session.Confined i.key s (m.handle i s).2 :=
  (handle_twins hInsular
    (.of_sheltered i.cancelled hSheltered hSheltered hKeyed
      rfl rfl)).2.left

/-
  An item is handled in the same way after another one has
  been, whatever has become of that one's object.
-/
theorem handle_after
    {i j : WorkItem}
    {s : Session μ}
    (hInsular : m.Insular)
    (hSheltered : s.Sheltered)
    (hKeyed : s.scene.store.Keyed)
    (hApart : i.key ≠ j.key) :
    (m.handle i (m.handle j s).2).1 = (m.handle i s).1 ∧
      (m.handle i (m.handle j s).2).2.scene.store.shown?
          i.key =
        (m.handle i s).2.scene.store.shown? i.key ∧
      ∀ k, k ≠ i.key →
        (m.handle i (m.handle j s).2).2.scene.store.object?
            k =
          (m.handle j s).2.scene.store.object? k := by
  have hBefore :
      Session.Confined j.key s (m.handle j s).2 :=
    handle_confined hInsular hSheltered hKeyed
  have hTwins := handle_twins (i := i) hInsular
    (.of_sheltered i.cancelled hSheltered hBefore.sheltered
      hKeyed hBefore.clock
      (Store.shown?_congr
        (hBefore.elsewhere i.key hApart)))
  exact ⟨hTwins.1, hTwins.2.shown, hTwins.2.right.elsewhere⟩

/-
  Work items are independent.  Two items of different keys
  come to the same answers and leave the same objects, up to
  their versions, in whichever order they are handled; and
  whatever else is stored, an item comes to the same answer
  and leaves the same object.
-/
theorem handle_independent
    {i j : WorkItem}
    {s : Session μ}
    (hInsular : m.Insular)
    (hSheltered : s.Sheltered)
    (hKeyed : s.scene.store.Keyed)
    (hApart : i.key ≠ j.key) :
    (m.handleBoth j i s).1 = (m.handleBoth i j s).1.swap ∧
      (∀ k,
        (m.handleBoth j i s).2.scene.store.shown? k =
          (m.handleBoth i j s).2.scene.store.shown? k) ∧
      ∀ t : Session μ,
        t.Sheltered →
          t.scene.clock = s.scene.clock →
            t.scene.store.shown? i.key =
                s.scene.store.shown? i.key →
              (m.handle i t).1 = (m.handle i s).1 ∧
                (m.handle i t).2.scene.store.shown? i.key =
                  (m.handle i s).2.scene.store.shown?
                    i.key := by
  rcases handle_after (i := i) (j := j) hInsular hSheltered
    hKeyed hApart with ⟨hAnswer, hShown, hElse⟩
  rcases handle_after (i := j) (j := i) hInsular hSheltered
    hKeyed hApart.symm with ⟨hAnswer', hShown', hElse'⟩
  have hFirst : Session.Confined i.key s (m.handle i s).2 :=
    handle_confined hInsular hSheltered hKeyed
  have hSecond : Session.Confined j.key s (m.handle j s).2 :=
    handle_confined hInsular hSheltered hKeyed
  refine ⟨?_, ?_, ?_⟩
  · unfold handleBoth
    dsimp only
    rw [hAnswer, hAnswer']
    rfl
  · intro k
    unfold handleBoth
    dsimp only
    by_cases hItem : k = i.key
    · rw [hItem, hShown,
        Store.shown?_congr (hElse' i.key hApart)]
    by_cases hOther : k = j.key
    · rw [hOther, hShown',
        Store.shown?_congr (hElse j.key hApart.symm)]
    rw [Store.shown?_congr (hElse k hItem),
      Store.shown?_congr (hElse' k hOther),
      Store.shown?_congr (hFirst.elsewhere k hItem),
      Store.shown?_congr (hSecond.elsewhere k hOther)]
  · intro t hRight hClock hSame
    have hTwins := handle_twins (i := i) hInsular
      (.of_sheltered i.cancelled hSheltered hRight hKeyed
        hClock hSame)
    exact ⟨hTwins.1, hTwins.2.shown⟩

/- A manager that schedules, with a step that has a token. -/
def pairManager : Manager Unit :=
  { dueManager with steps := [sharingStep "step" .ok] }

/- The item of an object that carries the refresh label. -/
def pairDue : WorkItem where
  key := guardKey

/- The item of an object that is being deleted. -/
def pairLeaving : WorkItem where
  key := .namespaced "default" "other"

/- A host with both objects. -/
def pairStart : Session Unit where
  scene :=
    { store :=
        (Store.insert dueObject {}).insert
          (leavingObject.mapMetadata
            (fun m => { m with name := "other" }))
      clock := ⟨0⟩
      memory := () }

theorem pair_insular :
    pairManager.Insular where
  jitter := by
    intro sched hScheduler
    cases hScheduler
    exact ⟨30, rfl⟩
  hook := by
    intro hook hHook
    cases hHook
  steps := by
    intro step hStep
    rw [List.mem_singleton.mp hStep]
    exact
      { tokens := fun _ _ => rfl
        process := .of_return _
        finalize := .of_return _ }

/-
  Both items in either order: one object is processed, and
  the other one is finalized and goes away.
-/
theorem pair_independent :
    pairManager.Insular ∧ pairStart.Sheltered ∧
      pairStart.scene.store.Keyed ∧
      pairDue.key ≠ pairLeaving.key ∧
      (pairManager.handleBoth pairLeaving pairDue
            pairStart).1 =
        (pairManager.handleBoth pairDue pairLeaving
          pairStart).1.swap ∧
      (∀ k,
        (pairManager.handleBoth pairLeaving pairDue
              pairStart).2.scene.store.shown? k =
          (pairManager.handleBoth pairDue pairLeaving
            pairStart).2.scene.store.shown? k) ∧
      (pairManager.handle pairDue pairStart).1.toOption =
        some .zero ∧
      (pairManager.handle pairLeaving
          pairStart).2.scene.store.shown? pairLeaving.key =
        none := by
  have hSheltered : pairStart.Sheltered :=
    { quiet := ⟨rfl, rfl, rfl⟩
      spares := by
        intro change hMember
        cases hMember
      flags := by
        intro change hMember
        cases hMember }
  have hKeyed : pairStart.scene.store.Keyed :=
    (Store.empty_keyed.insert _).insert _
  have hApart : pairDue.key ≠ pairLeaving.key := by decide
  have hIndependent :=
    handle_independent pair_insular hSheltered hKeyed hApart
  exact ⟨pair_insular, hSheltered, hKeyed, hApart,
    hIndependent.1, hIndependent.2.1, by decide +kernel,
    by decide +kernel⟩

end Manager

end Reconciler
