import Reconciler.Proofs.Engine.Invariant
import Reconciler.Proofs.Store.Labels

/-
  This file says when a reconcile writes the status: at most
  once, and exactly when the run has come to the end of its
  chain with a status that is not the fetched one.

  Patches of tokens change the snapshot as well, but never
  its status, so comparing with the snapshot at the end is
  comparing with what was fetched.

  Key definitions include:
    * `Journal.Unwritten`
    * `Manager.StatusDue`
    * `Manager.EndsUnwritten`

  Key theorems include:
    * `Manager.reconcile_statusWrites`
-/

------------------------------------------------------------
-- Journals without a Status Write
------------------------------------------------------------

namespace Reconciler

/-
  Neither a fetch nor a status write nor a failed patch is
  among the silent events.
-/
structure Event.Silent
    (e : Event) : Prop where
  writes : e.isStatusWrite = false
  fetches : e.fetch? = none
  patches : e.isFailedPatch = false

theorem Event.resumed_silent :
    Silent .resumed :=
  ⟨rfl, rfl, rfl⟩

theorem Event.returned_silent :
    Silent .returned :=
  ⟨rfl, rfl, rfl⟩

namespace Journal

variable {μ : Type}

/-
  What a run has noted once it has fetched an object, if it
  has not written the status and no patch has failed.
-/
structure Unwritten
    (o : Object)
    (j : List (Moment μ)) : Prop where
  writes : statusWrites j = []
  fetches : fetches j = [.ok o]
  patches : ∀ mo ∈ j, mo.event.isFailedPatch = false

/- A silent event changes none of this. -/
theorem Unwritten.snoc
    {o : Object}
    {j : List (Moment μ)}
    {e : Event}
    (hUnwritten : Unwritten o j)
    (hSilent : e.Silent)
    (scene : Scene μ) :
    Unwritten o (j ++ [⟨e, scene⟩]) where
  writes := by
    rw [statusWrites_append, hUnwritten.writes]
    simp [statusWrites, hSilent.writes]
  fetches := by
    rw [fetches_append, hUnwritten.fetches]
    simp [Journal.fetches, hSilent.fetches]
  patches := by
    intro mo hMember
    rcases List.mem_append.mp hMember with hOld | hNew
    · exact hUnwritten.patches mo hOld
    · rw [List.mem_singleton.mp hNew]
      exact hSilent.patches

end Journal

------------------------------------------------------------
-- Up to the Status Write
------------------------------------------------------------

namespace Manager

variable {μ : Type}

open Engine

/- Since the start of a run the status was not written. -/
def NoWriteSince
    (start s : Session μ) : Prop :=
  ∃ new,
    s.journal = start.journal ++ new ∧
      Journal.statusWrites new = []

/-
  Since the start of a run an object was fetched, no patch
  has failed and the status was not written; the snapshot
  has the status that was fetched.
-/
def OpenSince
    (start : Session μ)
    (c : Copies)
    (s : Session μ) : Prop :=
  ∃ o new,
    s.journal = start.journal ++ new ∧
      Journal.Unwritten o new ∧
      c.snapshot.status = o.status

section Drafting

variable {m : Manager μ}
variable {start s : Session μ}
variable {c : Copies}

theorem NoWriteSince.moveTo
    {e : Event}
    (hNoWrite : NoWriteSince start s)
    (hEvent : e.isStatusWrite = false)
    (scene : Scene μ) :
    NoWriteSince start (s.moveTo e scene) := by
  rcases hNoWrite with ⟨new, hJournal, hWrites⟩
  refine ⟨new ++ [⟨e, scene⟩], by simp [hJournal], ?_⟩
  rw [Journal.statusWrites_append, hWrites]
  simp [Journal.statusWrites, hEvent]

theorem OpenSince.noWrite
    (hOpen : OpenSince start c s) :
    NoWriteSince start s := by
  rcases hOpen with ⟨o, new, hJournal, hUnwritten, _⟩
  exact ⟨new, hJournal, hUnwritten.writes⟩

theorem OpenSince.moveTo
    {e : Event}
    (hOpen : OpenSince start c s)
    (hSilent : e.Silent)
    (scene : Scene μ) :
    OpenSince start c (s.moveTo e scene) := by
  rcases hOpen with ⟨o, new, hJournal, hUnwritten, hStatus⟩
  refine
    ⟨o, new ++ [⟨e, scene⟩], ?_,
      hUnwritten.snoc hSilent scene, hStatus⟩
  simp [hJournal]

theorem OpenSince.resume
    (hOpen : OpenSince start c s) :
    OpenSince start c s.resume := by
  unfold Session.resume
  split
  · exact hOpen
  · next change rest _ =>
      have hRest :
          OpenSince start c { s with others := rest } :=
        hOpen
      exact hRest.moveTo Event.resumed_silent _

/- A call adds nothing but its end, whatever it does. -/
theorem OpenSince.call
    {α : Type}
    {o : α → Object}
    {x : Call μ α} :
    Triple (OpenSince start c) (Engine.call x)
      (fun r => OpenSince start
        { c with obj := (r.map o).getD c.obj })
      (fun _ => NoWriteSince start) :=
  .call_ends
    (fun _ _ scene hOpen =>
      hOpen.moveTo Event.returned_silent scene)
    (fun _ _ scene hOpen =>
      (hOpen.moveTo Event.returned_silent scene).noWrite)

/-
  A patch of tokens leaves the status of the snapshot alone.
-/
theorem OpenSince.sendTokens
    {o : Object} :
    Triple (OpenSince start c)
      (Engine.sendTokens { c with obj := o })
      (fun r s =>
        match r.1 with
        | .ok _ => OpenSince start r.2 s
        | .error _ => NoWriteSince start s)
      (fun _ => NoWriteSince start) := by
  refine sendTokens_triple ?_ ?_
  · intro s stored store hOpen _
    exact OpenSince.moveTo (c := c) hOpen ⟨rfl, rfl, rfl⟩ _
  · intro s e store hOpen _
    exact hOpen.noWrite.moveTo rfl _

/- The first part of a run keeps all this. -/
theorem upholds_openSince
    (m : Manager μ)
    (start : Session μ) :
    m.Upholds (OpenSince start) (NoWriteSince start) where
  edited := fun _ hOpen => hOpen
  reported := fun _ hOpen => hOpen
  drawn := fun _ hOpen => hOpen
  halts := OpenSince.noWrite
  haltReported := fun _ hNoWrite => hNoWrite
  resumed := OpenSince.resume
  noted := by
    intro c s e hNotes hOpen
    have hSilent : e.Silent := by
      cases hNotes <;> exact ⟨rfl, rfl, rfl⟩
    exact hOpen.moveTo hSilent s.scene
  hooked := by
    intro c hook context _
    exact .call_ends
      (fun _ _ scene hOpen =>
        hOpen.moveTo Event.returned_silent scene)
      (fun _ _ scene hOpen =>
        (hOpen.moveTo Event.returned_silent scene).noWrite)
  processed := fun _ _ _ => OpenSince.call
  finalized := fun _ _ _ => OpenSince.call
  released := fun _ _ =>
    OpenSince.sendTokens.mono (fun _ h => h.1)
      (fun _ _ h => h) (fun _ _ h => h)

/-
  A draft has not written the status.  If it comes to the
  end of its chain, then one object was fetched, and the
  snapshot has its status.
-/
theorem draft_openSince
    (m : Manager μ)
    (k : Key)
    (start : Session μ) :
    Triple (fun s => s = start) (m.draft k)
      (fun d s =>
        match d with
        | .early _ => NoWriteSince start s
        | .closing _ w => OpenSince start w.toCopies s)
      (fun _ => NoWriteSince start) := by
  have hUpholds := m.upholds_openSince start
  refine hUpholds.draft (F := OpenSince start) ?_
    OpenSince.noWrite (fun _ hOpen => hOpen) ?_
  · refine .await (M := Journal.IdleSince start) ?_ ?_
      (.map (.onStore ?_))
    · intro s hStart
      rw [hStart]
      exact .resume start
    · intro s hIdle _
      rcases hIdle with ⟨new, hJournal, hNew⟩
      exact ⟨new, hJournal, Journal.statusWrites_idle hNew⟩
    · intro s r store hIdle _
      rcases hIdle.1 with ⟨new, hJournal, hNew⟩
      have hWrites := Journal.statusWrites_idle hNew
      have hFetches := Journal.fetches_idle hNew
      cases r with
      | ok o =>
          refine
            ⟨o, new ++ [⟨.fetched k (.ok o), _⟩],
              by rw [Session.moveTo_journal, hJournal,
                List.append_assoc],
              ⟨?_, ?_, ?_⟩, rfl⟩
          · rw [Journal.statusWrites_append, hWrites]
            rfl
          · rw [Journal.fetches_append, hFetches]
            rfl
          · intro mo hMember
            rcases List.mem_append.mp hMember with hOld | hLast
            · rw [hNew mo hOld]
              rfl
            · rw [List.mem_singleton.mp hLast]
              rfl
      | error e =>
          have hNoWrite : NoWriteSince start s :=
            ⟨new, hJournal, hWrites⟩
          exact hNoWrite.moveTo rfl _
  · intro w
    exact m.ensureTokens_triple
      (Q := fun w' => OpenSince start w'.toCopies)
      (E := NoWriteSince start)
      (fun _ hOpen => hOpen.resume)
      (fun _ hOpen _ => hOpen.noWrite)
      (fun _ _ hNoWrite => hNoWrite)
      (fun _ _ hNoWrite => hNoWrite)
      (fun _ hOpen _ => hOpen)
      (fun _ _ _ =>
        OpenSince.sendTokens.mono (fun _ h => h.1)
          (fun _ _ h => h) (fun _ _ h => h))

end Drafting

------------------------------------------------------------
-- The Status Write
------------------------------------------------------------

/- The moment of a status write that starts at a scene. -/
def statusWrite
    (o : Object)
    (scene : Scene μ) : Moment μ :=
  let (result, store) := Store.updateStatus o scene.store
  ⟨.statusUpdated o result, { scene with store := store }⟩

/-
  The journal of a run right after its decision on the
  status write: one write, once the other tasks have run, if
  there is something to write and they do not cancel it.
-/
def decided
    (m : Manager μ)
    (w : Work)
    (s : Session μ) : List (Moment μ) :=
  if m.readOnly = true ∨ w.obj.status = w.snapshot.status then
    s.journal
  else if s.resume.scene.cancelled = true then
    s.resume.journal
  else
    s.resume.journal ++ [statusWrite w.obj s.resume.scene]

/- The halts that the second part of a run can come to. -/
inductive ClosingHalt : Halt → Prop where
  | store (e : StoreError) : ClosingHalt (.failed (.store e))
  | cancelled : ClosingHalt (.failed .cancelled)
  | step (name : String) (requeue : Duration)
      (cause : Failure) :
      ClosingHalt (.failed (.step name requeue cause))

/-
  Since a journal was noted there was no status write, no
  fetch, and no patch of tokens that failed.
-/
def QuietSince
    (j : List (Moment μ))
    (s : Session μ) : Prop :=
  ∃ new,
    s.journal = j ++ new ∧
      Journal.statusWrites new = [] ∧
      Journal.fetches new = [] ∧
      ∀ mo ∈ new, mo.event.isFailedTokenPatch = false

section Closing

variable {j : List (Moment μ)}
variable {s : Session μ}

theorem QuietSince.refl :
    QuietSince s.journal s :=
  ⟨[], by simp, rfl, rfl, by simp⟩

theorem QuietSince.moveTo
    {e : Event}
    (hQuiet : QuietSince j s)
    (hWrite : e.isStatusWrite = false)
    (hFetch : e.fetch? = none)
    (hPatch : e.isFailedTokenPatch = false)
    (scene : Scene μ) :
    QuietSince j (s.moveTo e scene) := by
  rcases hQuiet with
    ⟨new, hJournal, hWrites, hFetches, hPatches⟩
  refine
    ⟨new ++ [⟨e, scene⟩], by simp [hJournal], ?_, ?_, ?_⟩
  · rw [Journal.statusWrites_append, hWrites]
    simp [Journal.statusWrites, hWrite]
  · rw [Journal.fetches_append, hFetches]
    simp [Journal.fetches, hFetch]
  · intro mo hMember
    rcases List.mem_append.mp hMember with hOld | hNew
    · exact hPatches mo hOld
    · rw [List.mem_singleton.mp hNew]
      exact hPatch

theorem QuietSince.resume
    (hQuiet : QuietSince j s) :
    QuietSince j s.resume :=
  Session.resume_keeps (fun _ _ => hQuiet)
    (fun _ _ _ h => h.moveTo rfl rfl rfl _)

/- The decision on the status write is what is noted. -/
theorem persistStatus_decided
    (m : Manager μ)
    (w : Work)
    (start : Session μ) :
    Triple (fun s => s = start) (m.persistStatus w)
      (fun r s =>
        QuietSince (m.decided w start) s ∧
          ∀ e, r = .error e → ClosingHalt (.failed e))
      (fun _ _ => False) := by
  unfold persistStatus
  split
  · next hIdle =>
      have hIdle :
          m.readOnly = true ∨
            w.obj.status = w.snapshot.status := by
        simpa using hIdle
      refine .pure ?_
      intro s hStart
      unfold decided
      rw [if_pos hIdle, hStart]
      exact ⟨.refl, fun e hError => nomatch hError⟩
  · next hWrite =>
      have hWrite :
          ¬ (m.readOnly = true ∨
            w.obj.status = w.snapshot.status) := by
        simpa using hWrite
      generalize hDecided : m.decided w start = j
      unfold decided at hDecided
      rw [if_neg hWrite] at hDecided
      refine .bind (Q := fun _ => QuietSince j) ?_ ?_
      · refine .cancellable
          (M := fun s => s = start.resume)
          (fun s hStart => by rw [hStart]) ?_ ?_
        · intro s hStart hCancelled
          rw [← hStart, if_pos hCancelled] at hDecided
          rw [← hDecided]
          exact .refl
        · refine .map (.onStore ?_)
          intro s r store hStart hUpdate
          rcases hStart with ⟨hStart, hRunning⟩
          have hWritten :
              s.journal ++ [statusWrite w.obj s.scene] =
                (s.moveTo (.statusUpdated w.obj r)
                  { s.scene with store := store }).journal := by
            unfold statusWrite
            rw [hUpdate]
            rfl
          rw [← hStart, if_neg (by simp [hRunning]),
            hWritten] at hDecided
          rw [← hDecided]
          exact .refl
      · intro r
        rcases r with _ | e | stored
        · refine .pure (fun s hQuiet => ⟨hQuiet, ?_⟩)
          intro e hError
          cases hError
          exact .cancelled
        · have hStore :
              ∀ e',
                (.error (.store e) : Except ReconcileError Work)
                  = .error e' →
                ClosingHalt (.failed e') := by
            intro e' hError
            cases hError
            exact .store e
          dsimp only
          split
          · exact .pure (fun s hQuiet =>
              ⟨hQuiet, fun e hError => nomatch hError⟩)
          · split
            · exact .pure (fun s hQuiet => ⟨hQuiet, hStore⟩)
            · exact .bind
                (m.reportStoreError_triple _ _
                  (fun _ _ hQuiet => hQuiet))
                (fun _ => .pure (fun s hQuiet =>
                  ⟨hQuiet, hStore⟩))
        · exact .pure (fun s hQuiet =>
            ⟨hQuiet, fun e hError => nomatch hError⟩)

/- The refresh label is dropped without a status write. -/
theorem clearRefreshLabel_quietSince
    (m : Manager μ)
    (w : Work) :
    Triple (QuietSince j) (m.clearRefreshLabel w)
      (fun _ => QuietSince j)
      (fun h s => ClosingHalt h ∧ QuietSince j s) := by
  apply m.clearRefreshLabel_triple
    (E := fun _ => QuietSince j)
  · exact fun _ hQuiet => hQuiet.resume
  · exact fun _ _ hQuiet => hQuiet
  · exact fun _ _ hQuiet _ => ⟨.cancelled, hQuiet⟩
  · intro _ hLabel
    refine .onStore ?_
    intro s r store hQuiet _
    cases r with
    | ok _ => exact hQuiet.1.moveTo rfl rfl rfl _
    | error _ =>
        refine hQuiet.1.moveTo rfl rfl ?_ _
        exact decide_eq_false
          (Metadata.removeRefreshLabel_labels hLabel)
  · exact fun _ _ _ hQuiet => hQuiet
  · exact fun e _ hQuiet => ⟨.store e, hQuiet⟩

/- The second part of a run writes just what is decided. -/
theorem close_decided
    (m : Manager μ)
    (e : ChainEnd)
    (w : Work)
    (start : Session μ) :
    Triple (fun s => s = start) (m.close e w)
      (fun _ => QuietSince (m.decided w start))
      (fun h s =>
        ClosingHalt h ∧
          QuietSince (m.decided w start) s) := by
  have hPersist :=
    (m.persistStatus_decided w start).mono
      (fun _ h => h) (fun _ _ h => h)
      (H := fun h s =>
        ClosingHalt h ∧ QuietSince (m.decided w start) s)
      (fun _ _ h => h.elim)
  cases e with
  | completed _ =>
      refine .bind hPersist ?_
      intro r
      cases r with
      | error e =>
          exact .fail (fun _ h => ⟨h.2 e rfl, h.1⟩)
      | ok w =>
          dsimp only
          split
          · exact .bind
              ((m.clearRefreshLabel_quietSince w).mono
                (fun _ h => h.1) (fun _ _ h => h)
                (fun _ _ h => h))
              (fun _ => .pure (fun _ h => h))
          · exact .pure (fun _ h => h.1)
  | retry _ step requeue cause =>
      refine .bind hPersist ?_
      intro r
      exact .fail (fun _ h =>
        ⟨.step step requeue cause, h.1⟩)

end Closing

------------------------------------------------------------
-- Status Writes of a Reconcile
------------------------------------------------------------

/-
  A run has come to the end of its chain and drafted the
  status of an object that the manager may write.  It is not
  the status that was fetched, and the other tasks that run
  before the write do not cancel it.
-/
structure StatusDue
    (m : Manager μ)
    (k : Key)
    (start : Session μ)
    (w : Work)
    (drafted : Session μ) : Prop where
  writable : m.readOnly = false
  closing :
    ∃ e, m.draft k start = .ok (.closing e w) drafted
  changed :
    ∃ o new,
      drafted.journal = start.journal ++ new ∧
        Journal.fetches new = [.ok o] ∧
        w.obj.status ≠ o.status
  running : drafted.resume.scene.cancelled = false

/-
  The ends of a run that leave the status as it is: there is
  no object, it is parked or refused by the hook; or the run
  has failed before its chain came to an end.
-/
inductive EndsUnwritten
    (m : Manager μ)
    (k : Key)
    (start : Session μ)
    (new : List (Moment μ)) : Prop where
  | early
      (why : EarlyEnd)
      (s : Session μ)
      (hDraft : m.draft k start = .ok (.early why) s)
  | missingCapability
      (kind contract : String)
      (s : Session μ)
      (hRun :
        m.reconcile k start =
          .error (.failed
            (.missingCapability kind contract)) s)
  | prepare
      (cause : Failure)
      (s : Session μ)
      (hRun :
        m.reconcile k start =
          .error (.failed (.prepare cause)) s)
  | fetchFailed
      (e : StoreError)
      (hFetch : .error e ∈ Journal.fetches new)
  | tokenPatchFailed
      (mo : Moment μ)
      (hMember : mo ∈ new)
      (hPatch : mo.event.isFailedTokenPatch = true)
  | panicked
      (p : Panic)
      (s : Session μ)
      (hRun : m.reconcile k start = .error (.panicked p) s)

/- A successful write has stored the status it was given. -/
theorem statusWrite_stored
    {o stored : Object}
    {scene : Scene μ}
    (hWrite :
      (statusWrite o scene).event =
        .statusUpdated o (.ok stored)) :
    (statusWrite o scene).scene.store.object? o.key =
        some stored ∧
      stored.status = o.status := by
  have hOk :
      (Store.updateStatus o scene.store).1 = .ok stored := by
    injection hWrite
  exact Store.updateStatus_ok hOk

/- A run that does not come to its close writes nothing. -/
theorem reconcile_unclosed
    (m : Manager μ)
    (k : Key)
    (start : Session μ)
    (hUnclosed :
      ∀ e w s, m.draft k start ≠ .ok (.closing e w) s) :
    NoWriteSince start ((m.reconcile k).final start) := by
  have hTriple := m.draft_openSince k start
  unfold Engine.final
  rw [m.reconcile_run k start]
  cases hDraft : m.draft k start with
  | error h s => exact hTriple.of_error rfl hDraft
  | ok d s =>
      cases d with
      | early why => exact hTriple.of_ok rfl hDraft
      | closing e w => exact absurd hDraft (hUnclosed e w s)

/-
  A run that comes to its close notes what is decided there,
  and halts in a few ways only.
-/
theorem reconcile_closed
    {m : Manager μ}
    {k : Key}
    {start s : Session μ}
    {e : ChainEnd}
    {w : Work}
    (hDraft : m.draft k start = .ok (.closing e w) s) :
    QuietSince (m.decided w s)
        ((m.reconcile k).final start) ∧
      ∀ h s',
        m.reconcile k start = .error h s' →
          ClosingHalt h := by
  have hClose := m.close_decided e w s
  have hRun : m.reconcile k start = m.close e w s := by
    rw [m.reconcile_run k start, hDraft]
    rfl
  constructor
  · have hFinal :
        (m.reconcile k).final start =
          (m.close e w).final s := by
      unfold Engine.final
      rw [hRun]
    rw [hFinal]
    exact (hClose.mono (fun _ h => h)
      (fun _ _ h => h) (fun _ _ h => h.2)).of_final rfl
  · intro h s' hError
    rw [hRun] at hError
    exact (hClose.of_error rfl hError).1

section Due

variable {m : Manager μ}
variable {k : Key}
variable {start s : Session μ}
variable {e : ChainEnd}
variable {w : Work}

/- The draft of a due write fetched what the snapshot shows. -/
theorem StatusDue.changed_snapshot
    (hDue : m.StatusDue k start w s)
    (hOpen : OpenSince start w.toCopies s) :
    w.obj.status ≠ w.snapshot.status := by
  rcases hOpen with
    ⟨o, before, hBefore, hUnwritten, hStatus⟩
  rcases hDue.changed with
    ⟨o', new, hNew, hFetched, hChanged⟩
  have hSame : new = before :=
    List.append_cancel_left (hNew.symm.trans hBefore)
  rw [hSame, hUnwritten.fetches] at hFetched
  cases hFetched
  rw [hStatus]
  exact hChanged

/- A due write is decided on. -/
theorem StatusDue.decided
    (hDue : m.StatusDue k start w s)
    (hOpen : OpenSince start w.toCopies s) :
    m.decided w s =
      s.resume.journal ++
        [statusWrite w.obj s.resume.scene] := by
  unfold Manager.decided
  rw [if_neg (by
      simp [hDue.writable, hDue.changed_snapshot hOpen]),
    if_neg (by simp [hDue.running])]

/- Without a due write none is decided on. -/
theorem decided_idle
    (hDraft : m.draft k start = .ok (.closing e w) s)
    (hOpen : OpenSince start w.toCopies s)
    (hNotDue : ¬ m.StatusDue k start w s) :
    m.decided w s = s.journal ∨
      m.decided w s = s.resume.journal := by
  rcases hOpen with
    ⟨o, before, hBefore, hUnwritten, hStatus⟩
  unfold Manager.decided
  split
  · exact .inl rfl
  · next hWrite =>
      split
      · exact .inr rfl
      · next hRunning =>
          rcases not_or.mp hWrite with
            ⟨hWritable, hChanged⟩
          have hDue : m.StatusDue k start w s :=
            { writable := Bool.eq_false_iff.mpr hWritable
              closing := ⟨e, hDraft⟩
              changed :=
                ⟨o, before, hBefore, hUnwritten.fetches,
                  hStatus ▸ hChanged⟩
              running := Bool.eq_false_iff.mpr hRunning }
          exact absurd hDue hNotDue

/- A run that comes to its close has no other end. -/
theorem not_endsUnwritten
    {new : List (Moment μ)}
    {o : Object}
    (hDraft : m.draft k start = .ok (.closing e w) s)
    (hFetches : Journal.fetches new = [.ok o])
    (hPatches :
      ∀ mo ∈ new, mo.event.isFailedTokenPatch = false) :
    ¬ m.EndsUnwritten k start new := by
  have hHalts := (reconcile_closed hDraft).2
  intro hEnd
  cases hEnd with
  | early why s' hEarly =>
      rw [hDraft] at hEarly
      cases hEarly
  | missingCapability kind contract s' hRun =>
      cases hHalts _ s' hRun
  | prepare cause s' hRun => cases hHalts _ s' hRun
  | panicked p s' hRun => cases hHalts _ s' hRun
  | fetchFailed e hFetch =>
      rw [hFetches] at hFetch
      cases List.mem_singleton.mp hFetch
  | tokenPatchFailed mo hMember hPatch =>
      rw [hPatches mo hMember] at hPatch
      cases hPatch

/-
  What the decision adds to the journal: the write if one is
  due, and otherwise nothing but the running of other tasks.
-/
theorem decided_journal
    (hDraft : m.draft k start = .ok (.closing e w) s)
    (hOpen : OpenSince start w.toCopies s) :
    ∃ new,
      m.decided w s = s.journal ++ new ∧
        Journal.fetches new = [] ∧
        (∀ mo ∈ new, mo.event.isFailedTokenPatch = false) ∧
        ((m.StatusDue k start w s ∧
            Journal.statusWrites new =
              [statusWrite w.obj s.resume.scene]) ∨
          (¬ m.StatusDue k start w s ∧
            Journal.statusWrites new = [])) := by
  have hQuiet : QuietSince s.journal s.resume :=
    QuietSince.refl.resume
  rcases hQuiet with
    ⟨idle, hIdle, hWrites, hFetches, hPatches⟩
  by_cases hDue : m.StatusDue k start w s
  · refine
      ⟨idle ++ [statusWrite w.obj s.resume.scene], ?_, ?_,
        ?_, .inl ⟨hDue, ?_⟩⟩
    · rw [hDue.decided hOpen, hIdle, List.append_assoc]
    · rw [Journal.fetches_append, hFetches]
      rfl
    · intro mo hMember
      rcases List.mem_append.mp hMember with hPause | hLast
      · exact hPatches mo hPause
      · rw [List.mem_singleton.mp hLast]
        rfl
    · rw [Journal.statusWrites_append, hWrites]
      rfl
  · rcases decided_idle hDraft hOpen hDue with hNone | hPause
    · refine
        ⟨[], ?_, rfl, by simp, .inr ⟨hDue, rfl⟩⟩
      rw [hNone, List.append_nil]
    · exact ⟨idle, hPause.trans hIdle, hFetches, hPatches,
        .inr ⟨hDue, hWrites⟩⟩

/-
  What a run notes that comes to its close: what it noted up
  to its draft, the decision, and quiet events.
-/
theorem reconcile_closed_journal
    (hDraft : m.draft k start = .ok (.closing e w) s) :
    ∃ o new,
      ((m.reconcile k).final start).journal =
          start.journal ++ new ∧
        Journal.fetches new = [.ok o] ∧
        (∀ mo ∈ new, mo.event.isFailedTokenPatch = false) ∧
        ((m.StatusDue k start w s ∧
            Journal.statusWrites new =
              [statusWrite w.obj s.resume.scene]) ∨
          (¬ m.StatusDue k start w s ∧
            Journal.statusWrites new = [])) := by
  have hOpen : OpenSince start w.toCopies s :=
    (m.draft_openSince k start).of_ok rfl hDraft
  rcases decided_journal hDraft hOpen with
    ⟨decision, hDecided, hDecidedFetches, hDecidedPatches,
      hDecidedWrites⟩
  rcases hOpen with ⟨o, before, hBefore, hUnwritten, _⟩
  rcases (reconcile_closed hDraft).1 with
    ⟨after, hAfter, hWrites, hFetches, hPatches⟩
  refine ⟨o, before ++ (decision ++ after), ?_, ?_, ?_, ?_⟩
  · rw [hAfter, hDecided, hBefore, List.append_assoc,
      List.append_assoc]
  · rw [Journal.fetches_append, Journal.fetches_append,
      hUnwritten.fetches, hDecidedFetches, hFetches]
    rfl
  · intro mo hMember
    rcases List.mem_append.mp hMember with hOld | hNew
    · exact Event.isFailedTokenPatch_of_not_failed
        (hUnwritten.patches mo hOld)
    · rcases List.mem_append.mp hNew with hMiddle | hLast
      · exact hDecidedPatches mo hMiddle
      · exact hPatches mo hLast
  · have hSame :
        Journal.statusWrites (before ++ (decision ++ after)) =
          Journal.statusWrites decision := by
      rw [Journal.statusWrites_append,
        Journal.statusWrites_append, hUnwritten.writes,
        hWrites, List.nil_append, List.append_nil]
    rw [hSame]
    exact hDecidedWrites

end Due

/-
  Where a run has noted a status write, it had come to its
  close, and the write started where its draft and the other
  tasks had left the scene.
-/
theorem reconcile_noted_statusWrite
    {m : Manager μ}
    {k : Key}
    {start : Session μ}
    {before after : List (Moment μ)}
    {mo : Moment μ}
    (hRun :
      ((m.reconcile k).final start).journal =
        start.journal ++ (before ++ mo :: after))
    (hWrite : mo.event.isStatusWrite = true) :
    ∃ e w s,
      m.draft k start = .ok (.closing e w) s ∧
        s.resume.journal = start.journal ++ before ∧
        mo = statusWrite w.obj s.resume.scene := by
  have hNoted :
      Journal.statusWrites (before ++ mo :: after) =
        Journal.statusWrites before ++
          mo :: Journal.statusWrites after := by
    rw [Journal.statusWrites_append]
    refine congrArg (Journal.statusWrites before ++ ·) ?_
    exact List.filter_cons_of_pos hWrite
  by_cases hCloses :
      ∃ e w s, m.draft k start = .ok (.closing e w) s
  · rcases hCloses with ⟨e, w, s, hDraft⟩
    refine ⟨e, w, s, hDraft, ?_⟩
    have hOpen : OpenSince start w.toCopies s :=
      (m.draft_openSince k start).of_ok rfl hDraft
    rcases reconcile_closed_journal hDraft with
      ⟨_, new, hJournal, _, _, hWrites⟩
    have hNew : new = before ++ mo :: after :=
      List.append_cancel_left (hJournal.symm.trans hRun)
    rw [hNew, hNoted] at hWrites
    rcases hWrites with ⟨hDue, hOne⟩ | ⟨_, hNone⟩
    · -- The write is the only one, so it stands in one place.
      have hQuiet :
          Journal.statusWrites before = [] ∧
            Journal.statusWrites after = [] := by
        have hLength := congrArg List.length hOne
        simp only [List.length_append, List.length_cons,
          List.length_nil] at hLength
        constructor
        · exact List.eq_nil_of_length_eq_zero (by omega)
        · exact List.eq_nil_of_length_eq_zero (by omega)
      rcases (reconcile_closed hDraft).1 with
        ⟨rest, hRest, hRestWrites, _, _⟩
      rw [hDue.decided hOpen, hRun, ← List.append_assoc,
        List.append_assoc s.resume.journal] at hRest
      have hNone :
          ∀ j : List (Moment μ),
            Journal.statusWrites j = [] →
              ∀ x ∈ j, ¬ x.event.isStatusWrite = true :=
        fun _ hNil x => List.filter_eq_nil_iff.mp hNil x
      rcases Journal.split_unique
        (p := fun x : Moment μ =>
          x.event.isStatusWrite = true)
        hRest hWrite rfl (hNone _ hQuiet.2)
        (hNone _ hRestWrites) with
        ⟨hBefore, hSame, _⟩
      exact ⟨hBefore.symm, hSame⟩
    · simp at hNone
  · have hUnclosed :
        ∀ e w s, m.draft k start ≠ .ok (.closing e w) s :=
      fun e w s hDraft => hCloses ⟨e, w, s, hDraft⟩
    rcases m.reconcile_unclosed k start hUnclosed with
      ⟨new, hJournal, hWrites⟩
    have hNew : new = before ++ mo :: after :=
      List.append_cancel_left (hJournal.symm.trans hRun)
    rw [hNew, hNoted] at hWrites
    simp at hWrites

/-
  A reconcile writes the status at most once: as drafted if
  the write is due, and not at all otherwise.  A run that
  ends early or fails before the end of its chain has not
  written it.
-/
theorem reconcile_statusWrites
    (m : Manager μ)
    (k : Key)
    (start : Session μ) :
    ∃ new,
      ((m.reconcile k).final start).journal =
          start.journal ++ new ∧
        (Journal.statusWrites new).length ≤ 1 ∧
        (∀ w drafted,
          m.StatusDue k start w drafted →
            Journal.statusWrites new =
                [statusWrite w.obj drafted.resume.scene] ∧
              ∀ stored,
                (statusWrite w.obj
                    drafted.resume.scene).event =
                  .statusUpdated w.obj (.ok stored) →
                (statusWrite w.obj
                    drafted.resume.scene).scene.store.object?
                      w.obj.key = some stored ∧
                  stored.status = w.obj.status) ∧
        ((∀ w drafted, ¬ m.StatusDue k start w drafted) →
          Journal.statusWrites new = []) ∧
        (m.EndsUnwritten k start new →
          Journal.statusWrites new = []) := by
  by_cases hCloses :
      ∃ e w s, m.draft k start = .ok (.closing e w) s
  · rcases hCloses with ⟨e, w, s, hDraft⟩
    rcases reconcile_closed_journal hDraft with
      ⟨o, new, hJournal, hFetches, hPatches, hWrites⟩
    refine ⟨new, hJournal, ?_, ?_, ?_, ?_⟩
    · rcases hWrites with ⟨_, hOne⟩ | ⟨_, hNone⟩
      · simp [hOne]
      · simp [hNone]
    · intro w' drafted hDue
      rcases hDue.closing with ⟨e', hClosing⟩
      rw [hDraft] at hClosing
      cases hClosing
      rcases hWrites with ⟨_, hOne⟩ | ⟨hNotDue, _⟩
      · exact ⟨hOne, fun _ => statusWrite_stored⟩
      · exact absurd hDue hNotDue
    · intro hNotDue
      rcases hWrites with ⟨hDue, _⟩ | ⟨_, hNone⟩
      · exact absurd hDue (hNotDue w s)
      · exact hNone
    · intro hEnd
      exact absurd hEnd
        (not_endsUnwritten hDraft hFetches hPatches)
  · have hUnclosed :
        ∀ e w s, m.draft k start ≠ .ok (.closing e w) s :=
      fun e w s hDraft => hCloses ⟨e, w, s, hDraft⟩
    rcases m.reconcile_unclosed k start hUnclosed with
      ⟨new, hJournal, hWrites⟩
    refine ⟨new, hJournal, by simp [hWrites], ?_,
      fun _ => hWrites, fun _ => hWrites⟩
    intro w drafted hDue
    rcases hDue.closing with ⟨e, hDraft⟩
    exact absurd hDraft (hUnclosed e w drafted)

end Manager

end Reconciler
