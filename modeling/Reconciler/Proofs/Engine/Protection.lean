import Mathlib.Data.List.Pairwise
import Reconciler.Proofs.Engine.Invariant
import Reconciler.Proofs.Engine.Tokens
import Reconciler.Proofs.Store.Tokens

/-
  This file says when an object is protected, and how a run
  follows the tokens of its object.

  A step owes a finalization from the moment in which its
  process is called until one of its finalize calls comes to
  a settled result.  An object is protected as long as it is
  stored with every token of the steps that owe one.

  Key definitions include:
    * `Journal.Owes`
    * `Step.Guards`
    * `Manager.TokensApart`
    * `Manager.Protects`
    * `Manager.Safe`
    * `Manager.Tracks`

  Key theorems include:
    * `Manager.Protects.retoken`
    * `Manager.Tracks.retoken`
    * `Manager.Tracks.sendTokens`
-/

------------------------------------------------------------
-- Owed Finalizations
------------------------------------------------------------

namespace Reconciler

namespace Journal

/- A finalize call of a step has come to a settled result. -/
def Finalized
    (step : String)
    (events : List Event) : Prop :=
  ∃ before after result,
    events =
        before ++
          [.finalizeCalled step, .returned,
            .executed step result] ++ after ∧
      result.isSettled = true

/- What has been finalized stays so. -/
theorem Finalized.append
    {step : String}
    {events : List Event}
    (hFinalized : Finalized step events)
    (more : List Event) :
    Finalized step (events ++ more) := by
  rcases hFinalized with
    ⟨before, after, result, hEvents, hResult⟩
  refine ⟨before, after ++ more, result, ?_, hResult⟩
  rw [hEvents, List.append_assoc]

/-
  A process of the step was called, and it has not been
  finalized since.
-/
def Owes
    (step : String)
    (events : List Event) : Prop :=
  ∃ before after,
    events = before ++ .processCalled step :: after ∧
      ¬ Finalized step after

/- Only a process call makes a step owe a finalization. -/
theorem Owes.of_snoc
    {step : String}
    {events : List Event}
    {e : Event}
    (hOwes : Owes step (events ++ [e])) :
    e = .processCalled step ∨ Owes step events := by
  rcases hOwes with ⟨before, after, hEvents, hOpen⟩
  rcases split_snoc hEvents with
    ⟨_, hLast, _⟩ | ⟨rest, hAfter, hRest⟩
  · exact .inl hLast
  · refine .inr ⟨before, rest, hRest, ?_⟩
    intro hFinalized
    apply hOpen
    rw [hAfter]
    exact hFinalized.append [e]

/- A step that has just settled has been finalized. -/
theorem JustSettled.finalized
    {step : String}
    {events : List Event}
    (hSettled : JustSettled step events) :
    Finalized step events := by
  rcases hSettled with
    ⟨before, after, result, hEvents, hResult, _⟩
  exact ⟨before, after, result, hEvents, hResult⟩

/- A step that has just settled owes nothing. -/
theorem JustSettled.not_owes
    {step : String}
    {events : List Event}
    (hSettled : JustSettled step events) :
    ¬ Owes step events := by
  intro hOwes
  rcases hOwes with ⟨before, after, hEvents, hOpen⟩
  rcases hSettled with
    ⟨pre, post, result, hSame, hResult, hPost⟩
  rw [hEvents, List.append_assoc] at hSame
  -- The process call came before the finalize call.
  rcases List.append_eq_append_iff.mp hSame with
    ⟨gap, hPre, hAfter⟩ | ⟨gap, hBefore, hTail⟩
  · cases gap with
    | nil =>
        injection hAfter with hHead _
        cases hHead
    | cons e gap =>
        injection hAfter with _ hRest
        apply hOpen
        refine ⟨gap, post, result, ?_, hResult⟩
        rw [List.append_assoc]
        exact hRest
  · have hCalled :
        .processCalled step ∈
          [.finalizeCalled step, .returned,
            .executed step result] ++ post := by
      rw [hTail]
      simp
    rcases List.mem_append.mp hCalled with hHead | hRest
    · simp at hHead
    · cases hPost _ hRest

/- A finalize call has been made since the last fetch. -/
def Finalizing
    (events : List Event) : Prop :=
  ∃ before after step,
    events = before ++ .finalizeCalled step :: after ∧
      ∀ e ∈ after, e.fetch? = none

theorem Finalizing.of_snoc
    {events : List Event}
    {e : Event}
    (hFinalizing : Finalizing (events ++ [e])) :
    (∃ step, e = .finalizeCalled step) ∨
      (Finalizing events ∧ e.fetch? = none) := by
  rcases hFinalizing with
    ⟨before, after, step, hEvents, hUnfetched⟩
  rcases split_snoc hEvents with
    ⟨_, hLast, _⟩ | ⟨rest, hAfter, hRest⟩
  · exact .inl ⟨step, hLast⟩
  · rw [hAfter] at hUnfetched
    refine .inr ⟨⟨before, rest, step, hRest, ?_⟩, ?_⟩
    · intro e hMember
      exact hUnfetched e (by simp [hMember])
    · exact hUnfetched e (by simp)

theorem JustSettled.finalizing
    {step : String}
    {events : List Event}
    (hSettled : JustSettled step events) :
    Finalizing events := by
  rcases hSettled with
    ⟨before, after, result, hEvents, _, hAfter⟩
  refine
    ⟨before, [.returned, .executed step result] ++ after,
      step, ?_, ?_⟩
  · simp [hEvents]
  · intro e hMember
    rcases List.mem_append.mp hMember with hHead | hRest
    · rcases List.mem_pair.mp hHead with hFirst | hSecond
      · rw [hFirst]
        rfl
      · rw [hSecond]
        rfl
    · rw [hAfter e hRest]
      rfl

end Journal

------------------------------------------------------------
-- Protected Objects
------------------------------------------------------------

variable {μ : Type}

/-
  The object of a key is stored and carries every token that
  the step declares.
-/
def Step.Guards
    (step : Step μ)
    (k : Key)
    (store : Store) : Prop :=
  ∃ o,
    store.object? k = some o ∧
      ∀ t ∈ step.tokens o, t ∈ o.metadata.finalizers

/-
  The other tasks leave the stored objects alone while a
  reconcile runs.
-/
def Session.Undisturbed
    (s : Session μ) : Prop :=
  ∀ change ∈ s.others, ∀ scene : Scene μ,
    (change scene).store.objects = scene.store.objects

namespace Manager

open Engine

/-
  The tokens of a step do not depend on the object, and no
  two steps share one.
-/
structure TokensApart
    (m : Manager μ) : Prop where
  constant :
    ∀ step ∈ m.steps, ∀ o o',
      step.tokens o = step.tokens o'
  apart :
    m.steps.Pairwise (fun step other =>
      ∀ o, (step.tokens o).Disjoint (other.tokens o))

/- Two different steps declare no token in common. -/
theorem TokensApart.disjoint
    {m : Manager μ}
    {step other : Step μ}
    (hApart : m.TokensApart)
    (hStep : step ∈ m.steps)
    (hOther : other ∈ m.steps)
    (hDiffer : step ≠ other)
    (o : Object) :
    (step.tokens o).Disjoint (other.tokens o) := by
  have hSymm :
      Std.Symm (fun step other : Step μ =>
        ∀ o, (step.tokens o).Disjoint (other.tokens o)) :=
    ⟨fun _ _ hPair o _ hRight hLeft =>
      hPair o hLeft hRight⟩
  exact hApart.apart.forall hStep hOther hDiffer o

/-
  Every step that owes a finalization, and declares a token
  at all, guards the object.
-/
def Protects
    (m : Manager μ)
    (k : Key)
    (events : List Event)
    (store : Store) : Prop :=
  ∀ step ∈ m.steps, ∀ o : Object,
    step.tokens o ≠ [] →
      Journal.Owes step.name events → step.Guards k store

/-
  The object of a key has been protected at every moment,
  still is, and is stored under its own key.
-/
structure Safe
    (m : Manager μ)
    (k : Key)
    (s : Session μ) : Prop where
  past :
    ∀ before mo after,
      s.journal = before ++ mo :: after →
        m.Protects k (Journal.events (before ++ [mo]))
          mo.scene.store
  present :
    m.Protects k (Journal.events s.journal) s.scene.store
  keyed :
    ∀ o, s.scene.store.object? k = some o → o.key = k
  undisturbed : s.Undisturbed

variable {m : Manager μ}
variable {k : Key}
variable {s : Session μ}

namespace Protects

variable {events : List Event}
variable {e : Event}
variable {store store' : Store}

/-
  An event that is no process call, and that leaves the
  object as it is, leaves it protected.
-/
theorem snoc
    (hProtects : m.Protects k events store)
    (hEvent : ∀ step, e ≠ .processCalled step)
    (hSame : store'.object? k = store.object? k) :
    m.Protects k (events ++ [e]) store' := by
  intro step hStep o hDeclares hOwes
  rcases hOwes.of_snoc with hCalled | hOwes
  · exact absurd hCalled (hEvent step.name)
  · rcases hProtects step hStep o hDeclares hOwes with
      ⟨stored, hStored, hTokens⟩
    exact ⟨stored, hSame.trans hStored, hTokens⟩

/-
  A write of tokens leaves the object protected if it keeps
  those of the steps that owe a finalization.
-/
theorem retoken
    {old new : List String}
    (hApart : m.TokensApart)
    (hProtects : m.Protects k events store)
    (hEvent : ∀ step, e ≠ .processCalled step)
    (hOld :
      ∀ o, store.object? k = some o →
        o.metadata.finalizers = old)
    (hKeeps :
      ∀ step ∈ m.steps, Journal.Owes step.name events →
        ∀ o, step.tokens o ⊆ old → step.tokens o ⊆ new)
    (hRetokens : store.Retokens k new store') :
    m.Protects k (events ++ [e]) store' := by
  intro step hStep o hDeclares hOwes
  rcases hOwes.of_snoc with hCalled | hOwes
  · exact absurd hCalled (hEvent step.name)
  have hConstant := hApart.constant step hStep
  rcases hProtects step hStep o hDeclares hOwes with
    ⟨stored, hStored, hTokens⟩
  have hNew : step.tokens o ⊆ new := by
    apply hKeeps step hStep hOwes
    rw [← hOld stored hStored, hConstant o stored]
    exact hTokens
  rcases hRetokens with
    ⟨_, _, ⟨written, hWritten, _, hFinalizers⟩ | ⟨_, hNone⟩⟩
  · refine ⟨written, hWritten, ?_⟩
    rw [hFinalizers, hConstant written o]
    exact hNew
  · rw [hNone] at hNew
    exact absurd (List.subset_nil.mp hNew) hDeclares

end Protects

namespace Safe

/- The next moment is as safe as what is stored then. -/
theorem moveTo
    {e : Event}
    {scene : Scene μ}
    (hSafe : m.Safe k s)
    (hProtects :
      m.Protects k (Journal.events s.journal ++ [e])
        scene.store)
    (hKeyed :
      ∀ o, scene.store.object? k = some o → o.key = k) :
    m.Safe k (s.moveTo e scene) where
  past := by
    intro before mo after hSplit
    rcases Journal.split_snoc hSplit with
      ⟨hBefore, hLast, _⟩ | ⟨rest, _, hRest⟩
    · rw [← hBefore, ← hLast, Journal.events_append]
      exact hProtects
    · exact hSafe.past before mo rest hRest
  present := by
    rw [Session.moveTo_journal, Journal.events_append]
    exact hProtects
  keyed := hKeyed
  undisturbed := hSafe.undisturbed

/- A moment without a write and without a process call. -/
theorem idle
    {e : Event}
    {scene : Scene μ}
    (hSafe : m.Safe k s)
    (hEvent : ∀ step, e ≠ .processCalled step)
    (hSame :
      scene.store.object? k = s.scene.store.object? k) :
    m.Safe k (s.moveTo e scene) := by
  apply hSafe.moveTo
  · exact hSafe.present.snoc hEvent hSame
  · intro o hObject
    exact hSafe.keyed o (hSame.symm.trans hObject)

theorem resume
    (hSafe : m.Safe k s) :
    m.Safe k s.resume := by
  refine Session.resume_keeps ?_ ?_
  · intro rest hRest
    exact ⟨hSafe.past, hSafe.present, hSafe.keyed,
      fun other hMember =>
        hSafe.undisturbed other (hRest hMember)⟩
  · intro change hChange s' h
    apply h.idle
    · intro step hSame
      cases hSame
    · exact Store.object?_congr
        (hSafe.undisturbed change hChange s'.scene) k

end Safe

------------------------------------------------------------
-- Copies that Follow the Store
------------------------------------------------------------

/-
  During a run both copies carry the tokens of the stored
  object, which is there as long as it has one.  Only an
  object that is being deleted is finalized.
-/
structure Tracks
    (m : Manager μ)
    (k : Key)
    (c : Copies)
    (s : Session μ) : Prop
    extends m.Safe k s where
  ownKey : c.obj.key = k
  snapshotKey : c.snapshot.key = k
  snapshotTokens :
    c.snapshot.metadata.finalizers =
      c.obj.metadata.finalizers
  storedTokens :
    ∀ o, s.scene.store.object? k = some o →
      o.metadata.finalizers = c.obj.metadata.finalizers
  stored :
    c.obj.metadata.finalizers ≠ [] →
      ∃ o, s.scene.store.object? k = some o
  deleting :
    Journal.Finalizing (Journal.events s.journal) →
      c.obj.isDeleting = true

namespace Tracks

variable {c c' : Copies}

/- Copies that differ neither in key nor in tokens. -/
theorem congr
    (hTracks : m.Tracks k c s)
    (hKey : c'.obj.key = c.obj.key)
    (hSnapshotKey : c'.snapshot.key = c.snapshot.key)
    (hDeleting : c'.obj.isDeleting = c.obj.isDeleting)
    (hTokens :
      c'.obj.metadata.finalizers =
        c.obj.metadata.finalizers)
    (hSnapshotTokens :
      c'.snapshot.metadata.finalizers =
        c.snapshot.metadata.finalizers) :
    m.Tracks k c' s where
  toSafe := hTracks.toSafe
  ownKey := hKey.trans hTracks.ownKey
  snapshotKey := hSnapshotKey.trans hTracks.snapshotKey
  snapshotTokens := by
    rw [hTokens, hSnapshotTokens]
    exact hTracks.snapshotTokens
  storedTokens := by
    rw [hTokens]
    exact hTracks.storedTokens
  stored := by
    rw [hTokens]
    exact hTracks.stored
  deleting := by
    rw [hDeleting]
    exact hTracks.deleting

/- A moment in which the object of the key stays. -/
theorem idle
    {e : Event}
    {scene : Scene μ}
    (hTracks : m.Tracks k c s)
    (hSafe : m.Safe k (s.moveTo e scene))
    (hEvent :
      ∀ step, e = .finalizeCalled step →
        c.obj.isDeleting = true)
    (hSame :
      scene.store.object? k = s.scene.store.object? k) :
    m.Tracks k c (s.moveTo e scene) where
  toSafe := hSafe
  ownKey := hTracks.ownKey
  snapshotKey := hTracks.snapshotKey
  snapshotTokens := hTracks.snapshotTokens
  storedTokens := by
    rw [Session.moveTo_scene, hSame]
    exact hTracks.storedTokens
  stored := by
    rw [Session.moveTo_scene, hSame]
    exact hTracks.stored
  deleting := by
    intro hFinalizing
    rw [Session.moveTo_journal, Journal.events_append]
      at hFinalizing
    rcases hFinalizing.of_snoc with
      ⟨step, hCalled⟩ | ⟨hBefore, _⟩
    · exact hEvent step hCalled
    · exact hTracks.deleting hBefore

theorem resume
    (hTracks : m.Tracks k c s) :
    m.Tracks k c s.resume := by
  refine Session.resume_keeps ?_ ?_
  · intro rest hRest
    exact
      { hTracks with
        past := hTracks.past
        present := hTracks.present
        keyed := hTracks.keyed
        undisturbed := fun other hMember =>
          hTracks.undisturbed other (hRest hMember) }
  · intro change hChange s' h
    have hObject :=
      Store.object?_congr
        (hTracks.undisturbed change hChange s'.scene) k
    have hSafe := h.toSafe.idle (e := .resumed) (by simp) hObject
    exact h.idle hSafe (by simp) hObject

/-
  A write that gives the stored object and both copies other
  tokens, those of the steps that owe a finalization among
  them.
-/
theorem retoken
    {e : Event}
    {store : Store}
    {new : List String}
    (hApart : m.TokensApart)
    (hTracks : m.Tracks k c s)
    (hProcess : ∀ step, e ≠ .processCalled step)
    (hFinalize : ∀ step, e ≠ .finalizeCalled step)
    (hKeeps :
      ∀ step ∈ m.steps,
        Journal.Owes step.name (Journal.events s.journal) →
          ∀ o,
            step.tokens o ⊆ c.obj.metadata.finalizers →
              step.tokens o ⊆ new)
    (hRetokens : s.scene.store.Retokens k new store) :
    m.Tracks k
      ⟨c.obj.withFinalizers new,
        c.snapshot.withFinalizers new⟩
      (s.moveTo e { s.scene with store := store }) := by
  have hSafe :
      m.Safe k
        (s.moveTo e { s.scene with store := store }) := by
    apply hTracks.moveTo
    · exact hTracks.present.retoken hApart hProcess
        hTracks.storedTokens hKeeps hRetokens
    · intro o hObject
      rcases hRetokens with
        ⟨old, hOld, ⟨o', hNew, hKey, _⟩ | ⟨hGone, _⟩⟩
      · rw [hNew] at hObject
        cases hObject
        exact hKey.trans (hTracks.keyed old hOld)
      · rw [hGone] at hObject
        cases hObject
  refine
    ⟨hSafe, hTracks.ownKey, hTracks.snapshotKey, rfl,
      ?_, ?_, ?_⟩
  · intro o hObject
    rcases hRetokens with
      ⟨_, _, ⟨o', hNew, _, hTokens⟩ | ⟨hGone, _⟩⟩
    · rw [Session.moveTo_scene, hNew] at hObject
      cases hObject
      exact hTokens
    · rw [Session.moveTo_scene, hGone] at hObject
      cases hObject
  · intro hSome
    rcases hRetokens with
      ⟨_, _, ⟨o', hNew, _⟩ | ⟨_, hNone⟩⟩
    · exact ⟨o', hNew⟩
    · exact absurd hNone hSome
  · intro hFinalizing
    rw [Session.moveTo_journal, Journal.events_append]
      at hFinalizing
    rcases hFinalizing.of_snoc with
      ⟨step, hCalled⟩ | ⟨hBefore, _⟩
    · exact absurd hCalled (hFinalize step)
    · exact hTracks.deleting hBefore

/- A write that keeps the tokens, or changes no object. -/
theorem kept
    {e : Event}
    {store : Store}
    (hApart : m.TokensApart)
    (hTracks : m.Tracks k c s)
    (hProcess : ∀ step, e ≠ .processCalled step)
    (hFinalize : ∀ step, e ≠ .finalizeCalled step)
    (hKept :
      store.objects = s.scene.store.objects ∨
        ∃ stored,
          s.scene.store.object? k = some stored ∧
            s.scene.store.Retokens k
              stored.metadata.finalizers store) :
    m.Tracks k c
      (s.moveTo e { s.scene with store := store }) := by
  rcases hKept with hObjects | ⟨stored, hStored, hRetokens⟩
  · have hSame := Store.object?_congr hObjects k
    apply hTracks.idle
    · exact hTracks.toSafe.idle hProcess hSame
    · intro step hCalled
      exact absurd hCalled (hFinalize step)
    · exact hSame
  · rw [hTracks.storedTokens stored hStored] at hRetokens
    exact (hTracks.retoken hApart hProcess hFinalize
      (fun _ _ _ _ hOld => hOld) hRetokens).congr
        rfl rfl rfl rfl hTracks.snapshotTokens

/-
  What a patch of the snapshot's tokens does: it fails and
  changes no object, or it sets the tokens.
-/
theorem patch_cases
    {new : List String}
    {r : Except StoreError Object}
    {store : Store}
    (hTracks : m.Tracks k c s)
    (hRun :
      Store.patch (c.snapshot.withFinalizers new)
        c.snapshot s.scene.store = (r, store)) :
    (∃ e,
      r = .error e ∧
        store.objects = s.scene.store.objects) ∨
    (∃ o,
      r = .ok o ∧
        s.scene.store.Retokens k new store) := by
  have hTokens :
      ∀ o,
        s.scene.store.object? c.snapshot.key = some o →
          o.metadata.finalizers =
            c.snapshot.metadata.finalizers := by
    intro o hObject
    rw [hTracks.snapshotKey] at hObject
    rw [hTracks.snapshotTokens]
    exact hTracks.storedTokens o hObject
  have hCases := Store.patch_withFinalizers new hTokens
  rw [hRun, hTracks.snapshotKey] at hCases
  exact hCases

/- A patch of the tokens of the working copy. -/
theorem sendTokens
    {o : Object}
    {new : List String}
    (hApart : m.TokensApart)
    (hObj : o = c.obj.withFinalizers new) :
    Triple
      (fun s =>
        m.Tracks k c s ∧
          ∀ step ∈ m.steps,
            Journal.Owes step.name
                (Journal.events s.journal) →
              ∀ o,
                step.tokens o ⊆ c.obj.metadata.finalizers →
                  step.tokens o ⊆ new)
      (sendTokens { c with obj := o })
      (fun r s =>
        match r.1 with
        | .ok _ =>
            m.Tracks k r.2 s ∧
              r.2.obj.isDeleting = c.obj.isDeleting ∧
              r.2.obj.metadata.finalizers = new
        | .error _ => m.Safe k s)
      (fun _ => m.Safe k) := by
  rw [hObj]
  refine sendTokens_triple ?_ ?_
  · intro s stored store h hRun
    rcases h.1.patch_cases hRun with
      ⟨e, hError, _⟩ | ⟨_, _, hRetokens⟩
    · cases hError
    · refine ⟨?_, rfl, rfl⟩
      refine Tracks.congr
        (h.1.retoken hApart ?_ ?_ h.2 hRetokens)
        rfl rfl rfl rfl rfl
      · simp
      · simp
  · intro s e store h hRun
    rcases h.1.patch_cases hRun with
      ⟨_, _, hObjects⟩ | ⟨o, hOk, _⟩
    · apply h.1.toSafe.idle
      · simp
      · exact Store.object?_congr hObjects k
    · cases hOk

end Tracks

end Manager

end Reconciler
