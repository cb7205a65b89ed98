import Reconciler.Proofs.Engine.Prompt

/-
  This file accounts for the tokens of an object that is
  being deleted, at every moment of a reconcile.

  The journal of the run is read as a ledger.  Each patch
  that succeeds is entered for the step that has just
  settled and whose tokens it takes off; the stored tokens
  are the fetched ones without those of the entered steps.
  No step that settles is left out, unless the patch fails
  or the run is interrupted.

  Key definitions include:
    * `Tokens.remaining`
    * `Store.Accounted`
    * `Journal.Accounts`
    * `Manager.Booked`
    * `Manager.Accounting`

  Key theorems include:
    * `Manager.Accounting.released`
    * `Manager.alone_accounting`
    * `Manager.deletion_accounted`
-/

------------------------------------------------------------
-- Remaining Tokens
------------------------------------------------------------

namespace Reconciler

variable {μ : Type}

namespace Tokens

/- The tokens of an object that none of the steps declares. -/
def remaining
    (o : Object)
    (done : List (Step μ)) : List String :=
  without (declared done o) o.metadata.finalizers

theorem remaining_nil
    (o : Object) :
    remaining o ([] : List (Step μ)) =
      o.metadata.finalizers :=
  List.filter_eq_self.mpr (fun _ _ => rfl)

/- One more step takes its own tokens off. -/
theorem remaining_snoc
    (o : Object)
    (done : List (Step μ))
    (step : Step μ) :
    remaining o (done ++ [step]) =
      without (step.tokens o) (remaining o done) := by
  unfold remaining without declared
  rw [List.filter_filter]
  apply List.filter_congr
  intro t _
  rw [List.flatMap_append, List.flatMap_singleton,
    List.contains_append, Bool.not_or, Bool.and_comm]

/- A remaining token is declared by no step that is done. -/
theorem mem_remaining
    (o : Object)
    (done : List (Step μ))
    (t : String) :
    t ∈ remaining o done ↔
      t ∈ o.metadata.finalizers ∧
        ∀ step ∈ done, t ∉ step.tokens o := by
  unfold remaining declared
  rw [mem_without, List.mem_flatMap]
  constructor
  · rintro ⟨hOwn, hNone⟩
    exact ⟨hOwn, fun step hStep hToken =>
      hNone ⟨step, hStep, hToken⟩⟩
  · rintro ⟨hOwn, hNone⟩
    refine ⟨hOwn, ?_⟩
    rintro ⟨step, hStep, hToken⟩
    exact hNone step hStep hToken

end Tokens

/-
  What a store shows of an object that some steps have taken
  their tokens off: it carries the remaining tokens, and is
  gone if they took the last one.
-/
structure Store.Accounted
    (k : Key)
    (o : Object)
    (done : List (Step μ))
    (store : Store) : Prop where
  tokens :
    ∀ stored, store.object? k = some stored →
      stored.metadata.finalizers = Tokens.remaining o done
  gone :
    store.object? k = none ↔
      done ≠ [] ∧ Tokens.remaining o done = []

theorem Store.Accounted.congr
    {k : Key}
    {o : Object}
    {done : List (Step μ)}
    {store store' : Store}
    (hAccounted : store.Accounted k o done)
    (hSame : store'.object? k = store.object? k) :
    store'.Accounted k o done where
  tokens := by
    rw [hSame]
    exact hAccounted.tokens
  gone := by
    rw [hSame]
    exact hAccounted.gone

/- What a store shows of the object lacks a token. -/
def Store.Lacks
    (k : Key)
    (t : String)
    (store : Store) : Prop :=
  ∀ stored, store.object? k = some stored →
    t ∉ stored.metadata.finalizers

/- A token that is off the object was declared by a step. -/
theorem Store.Accounted.declared
    {k : Key}
    {o : Object}
    {done : List (Step μ)}
    {store : Store}
    {t : String}
    (hAccounted : store.Accounted k o done)
    (hToken : t ∈ o.metadata.finalizers)
    (hLacks : store.Lacks k t) :
    ∃ step ∈ done, t ∈ step.tokens o := by
  have hOff : t ∉ Tokens.remaining o done := by
    cases hObject : store.object? k with
    | none =>
        rw [(hAccounted.gone.mp hObject).2]
        exact List.not_mem_nil
    | some stored =>
        rw [← hAccounted.tokens stored hObject]
        exact hLacks stored hObject
  by_contra hNone
  apply hOff
  rw [Tokens.mem_remaining]
  exact ⟨hToken, fun step hStep hDeclares =>
    hNone ⟨step, hStep, hDeclares⟩⟩

------------------------------------------------------------
-- Ledgers
------------------------------------------------------------

/- Whether an event is a patch that succeeded. -/
def Event.isAppliedPatch : Event → Bool
  | .patched _ _ (.ok _) => true
  | _ => false

namespace Journal

/-
  A journal as a ledger of the steps that took their tokens
  off.  A patch that succeeds is made by a manager that
  writes, for a new step with a token that remains, right
  after a finalize call of that step has settled; at every
  moment the stored object is accounted for.
-/
inductive Accounts
    (m : Manager μ)
    (k : Key)
    (o : Object) :
    List (Moment μ) → List (Step μ) → Prop where
  | start : Accounts m k o [] []
  | kept
      {j : List (Moment μ)}
      {done : List (Step μ)}
      {mo : Moment μ}
      (hAccounts : Accounts m k o j done)
      (hEvent : mo.event.isAppliedPatch = false)
      (hStore : mo.scene.store.Accounted k o done) :
      Accounts m k o (j ++ [mo]) done
  | released
      {j : List (Moment μ)}
      {done : List (Step μ)}
      {mo : Moment μ}
      {step : Step μ}
      (hAccounts : Accounts m k o j done)
      (hEvent : mo.event.isAppliedPatch = true)
      (hWritable : m.readOnly = false)
      (hStep : step ∈ m.steps)
      (hNew : step ∉ done)
      (hOwns :
        ∃ t ∈ step.tokens o, t ∈ Tokens.remaining o done)
      (hSettled : JustSettled step.name (events j))
      (hStore :
        mo.scene.store.Accounted k o (done ++ [step])) :
      Accounts m k o (j ++ [mo]) (done ++ [step])

/-
  A patch that fails is the last thing that happens, and the
  run ends with its error.
-/
def FailsLast
    (ends : Option Halt)
    (j : List (Moment μ)) : Prop :=
  ∀ before mo after modified base e,
    j = before ++ mo :: after →
      mo.event = .patched modified base (.error e) →
        after = [] ∧ ends = some (.failed (.store e))

/- Nothing has failed yet, so nothing happens after it. -/
theorem FailsLast.snoc
    {ends : Option Halt}
    {j : List (Moment μ)}
    {mo : Moment μ}
    (hNone : FailsLast none j)
    (hLast :
      ∀ modified base e,
        mo.event = .patched modified base (.error e) →
          ends = some (.failed (.store e))) :
    FailsLast ends (j ++ [mo]) := by
  intro before mo' after modified base e hSplit hEvent
  rcases split_snoc hSplit with
    ⟨_, hSame, hAfter⟩ | ⟨rest, _, hOld⟩
  · rw [← hSame] at hEvent
    exact ⟨hAfter, hLast modified base e hEvent⟩
  · have hEnds := (hNone _ _ _ _ _ _ hOld hEvent).2
    cases hEnds

/- Since a session something has been fetched. -/
def FetchedSince
    (start s : Session μ) : Prop :=
  ∃ new,
    s.journal = start.journal ++ new ∧
      ∃ mo ∈ new, mo.event.fetch? ≠ none

theorem FetchedSince.fetched
    {start s : Session μ}
    {new : List (Moment μ)}
    (hNew : s.journal = start.journal ++ new)
    (k : Key)
    (r : Except StoreError Object)
    (scene : Scene μ) :
    FetchedSince start (s.moveTo (.fetched k r) scene) := by
  refine ⟨new ++ [⟨.fetched k r, scene⟩], ?_, _,
    List.mem_append_right new List.mem_cons_self, ?_⟩
  · rw [Session.moveTo_journal, hNew, List.append_assoc]
  · exact Option.some_ne_none r

theorem FetchedSince.moveTo
    {start s : Session μ}
    (hFetched : FetchedSince start s)
    (e : Event)
    (scene : Scene μ) :
    FetchedSince start (s.moveTo e scene) := by
  rcases hFetched with ⟨new, hNew, mo, hMember, hFetch⟩
  refine ⟨new ++ [⟨e, scene⟩], ?_, mo, ?_, hFetch⟩
  · rw [Session.moveTo_journal, hNew, List.append_assoc]
  · exact List.mem_append_left _ hMember

/- A step that settles after a fetch settles in this run. -/
theorem JustSettled.since
    {step : String}
    {before new : List Event}
    (hSettled : JustSettled step (before ++ new))
    (hFetched : ∃ e ∈ new, e.fetch? ≠ none) :
    JustSettled step new := by
  rcases hSettled with
    ⟨pre, post, result, hEvents, hResult, hPost⟩
  rw [List.append_assoc] at hEvents
  rcases List.append_eq_append_iff.mp hEvents with
    ⟨gap, _, hNew⟩ | ⟨gap, _, hTail⟩
  · refine ⟨gap, post, result, ?_, hResult, hPost⟩
    rw [hNew, List.append_assoc]
  · -- Else the fetch would be one of the last events.
    rcases hFetched with ⟨e, hMember, hFetch⟩
    have hLast :
        e ∈ [.finalizeCalled step, .returned,
          .executed step result] ++ post := by
      rw [hTail]
      exact List.mem_append_right gap hMember
    exfalso
    apply hFetch
    rcases List.mem_append.mp hLast with hTriple | hIdle
    · simp only [List.mem_cons, List.not_mem_nil,
        or_false] at hTriple
      rcases hTriple with hCall | hReturn | hExecuted
      · rw [hCall]
        rfl
      · rw [hReturn]
        rfl
      · rw [hExecuted]
        rfl
    · rw [hPost e hIdle]
      rfl

end Journal

------------------------------------------------------------
-- The Books of a Run
------------------------------------------------------------

namespace Manager

open Engine

/-
  What a run has added to the journal accounts for the
  steps that are done, and so does the store.
-/
def Booked
    (m : Manager μ)
    (k : Key)
    (o : Object)
    (start : Session μ)
    (ends : Option Halt)
    (done : List (Step μ))
    (s : Session μ) : Prop :=
  ∃ new,
    s.journal = start.journal ++ new ∧
      Journal.Accounts m k o new done ∧
      Journal.FailsLast ends new ∧
      s.scene.store.Accounted k o done

namespace Booked

variable {m : Manager μ}
variable {k : Key}
variable {o : Object}
variable {start s : Session μ}
variable {ends : Option Halt}
variable {done : List (Step μ)}

/- At the start of a run nothing is done. -/
theorem start_nil
    (hStored : start.scene.store.object? k = some o) :
    m.Booked k o start none [] start := by
  refine ⟨[], by simp, .start, ?_, ?_, ?_⟩
  · intro before mo after _ _ _ hSplit
    simp at hSplit
  · intro stored hObject
    rw [hStored] at hObject
    cases hObject
    rw [Tokens.remaining_nil]
  · rw [hStored]
    simp

/- Where nothing has failed a run may end in any way. -/
theorem ending
    (hBooked : m.Booked k o start none done s) :
    m.Booked k o start ends done s := by
  rcases hBooked with ⟨new, hNew, hAccounts, hLast, hStore⟩
  refine ⟨new, hNew, hAccounts, ?_, hStore⟩
  intro before mo after modified base e hSplit hEvent
  have hEnds := (hLast _ _ _ _ _ _ hSplit hEvent).2
  cases hEnds

/- A moment in which no patch succeeds. -/
theorem moveTo
    {e : Event}
    {scene : Scene μ}
    (hBooked : m.Booked k o start none done s)
    (hEvent : e.isAppliedPatch = false)
    (hLast :
      ∀ modified base fault,
        e = .patched modified base (.error fault) →
          ends = some (.failed (.store fault)))
    (hStore : scene.store.Accounted k o done) :
    m.Booked k o start ends done (s.moveTo e scene) := by
  rcases hBooked with ⟨new, hNew, hAccounts, hFails, _⟩
  refine
    ⟨new ++ [⟨e, scene⟩], ?_, .kept hAccounts hEvent hStore,
      hFails.snoc hLast, hStore⟩
  rw [Session.moveTo_journal, hNew, List.append_assoc]

/- A moment that is no patch and keeps the stored object. -/
theorem idle
    {e : Event}
    {scene : Scene μ}
    (hBooked : m.Booked k o start none done s)
    (hEvent : e.isPatch = false)
    (hSame :
      scene.store.object? k = s.scene.store.object? k) :
    m.Booked k o start none done (s.moveTo e scene) := by
  have hStored : s.scene.store.Accounted k o done := by
    rcases hBooked with ⟨_, _, _, _, hStore⟩
    exact hStore
  refine hBooked.moveTo ?_ ?_ (hStored.congr hSame)
  · cases e with
    | patched _ _ _ => cases hEvent
    | _ => rfl
  · intro modified base fault hPatch
    rw [hPatch] at hEvent
    cases hEvent

/- A patch that fails is the last moment of the run. -/
theorem patchFailed
    {modified base : Object}
    {e : StoreError}
    {scene : Scene μ}
    (hBooked : m.Booked k o start none done s)
    (hSame :
      scene.store.object? k = s.scene.store.object? k) :
    m.Booked k o start (some (.failed (.store e))) done
      (s.moveTo (.patched modified base (.error e))
        scene) := by
  have hStored : s.scene.store.Accounted k o done := by
    rcases hBooked with ⟨_, _, _, _, hStore⟩
    exact hStore
  refine hBooked.moveTo rfl ?_ (hStored.congr hSame)
  intro modified base fault hPatch
  cases hPatch
  rfl

/- A patch that succeeds is entered for a new step. -/
theorem released
    {modified base stored : Object}
    {step : Step μ}
    {scene : Scene μ}
    (hBooked : m.Booked k o start none done s)
    (hWritable : m.readOnly = false)
    (hStep : step ∈ m.steps)
    (hNew : step ∉ done)
    (hOwns :
      ∃ t ∈ step.tokens o, t ∈ Tokens.remaining o done)
    (hSettled :
      Journal.JustSettled step.name
        (Journal.events s.journal))
    (hFetched : Journal.FetchedSince start s)
    (hStore :
      scene.store.Accounted k o (done ++ [step])) :
    m.Booked k o start none (done ++ [step])
      (s.moveTo (.patched modified base (.ok stored))
        scene) := by
  rcases hBooked with ⟨new, hJournal, hAccounts, hFails, _⟩
  have hInRun :
      Journal.JustSettled step.name (Journal.events new) := by
    rcases hFetched with ⟨new', hSame, mo, hMember, hFetch⟩
    rw [hJournal] at hSame
    rw [← List.append_cancel_left hSame] at hMember
    rw [hJournal, Journal.events_append] at hSettled
    exact hSettled.since
      ⟨mo.event, List.mem_map_of_mem hMember, hFetch⟩
  refine
    ⟨new ++ [⟨.patched modified base (.ok stored), scene⟩],
      ?_, .released hAccounts rfl hWritable hStep hNew
        hOwns hInRun hStore, hFails.snoc ?_, hStore⟩
  · rw [Session.moveTo_journal, hJournal, List.append_assoc]
  · intro _ _ _ hPatch
    cases hPatch

end Booked

------------------------------------------------------------
-- Runs on a Deleting Object
------------------------------------------------------------

/-
  During a run on a deleting object the copies carry the
  tokens that remain by the books.
-/
structure Accounting
    (m : Manager μ)
    (k : Key)
    (o : Object)
    (start : Session μ)
    (w : Work)
    (s : Session μ) : Prop where
  deleting : w.deleting = true
  mirrors : Mirrors k o w.toCopies s
  booked :
    ∃ done,
      m.Booked k o start none done s ∧
        w.obj.metadata.finalizers = Tokens.remaining o done
  fetched : Journal.FetchedSince start s

section Accounting

variable {m : Manager μ}
variable {k : Key}
variable {o : Object}
variable {start s : Session μ}

/- The books at an end of the run. -/
def Closed
    (m : Manager μ)
    (k : Key)
    (o : Object)
    (start : Session μ)
    (ends : Option Halt)
    (s : Session μ) : Prop :=
  ∃ done, m.Booked k o start ends done s

theorem Accounting.closed
    {w : Work}
    {ends : Option Halt}
    (hAccounting : m.Accounting k o start w s) :
    m.Closed k o start ends s := by
  rcases hAccounting.booked with ⟨done, hBooked, _⟩
  exact ⟨done, hBooked.ending⟩

/- A moment that is no patch and keeps the stored objects. -/
theorem Accounting.idle
    {w : Work}
    {e : Event}
    {scene : Scene μ}
    (hAccounting : m.Accounting k o start w s)
    (hEvent : e.isPatch = false)
    (hObjects :
      scene.store.objects = s.scene.store.objects) :
    m.Accounting k o start w (s.moveTo e scene) where
  deleting := hAccounting.deleting
  mirrors := hAccounting.mirrors.idle e hObjects
  booked := by
    rcases hAccounting.booked with ⟨done, hBooked, hTokens⟩
    have hSame := Store.object?_congr hObjects k
    exact ⟨done, hBooked.idle hEvent hSame, hTokens⟩
  fetched := hAccounting.fetched.moveTo e scene

/-
  The tokens of a step that owns one come off, and the step
  is entered in the books.
-/
theorem Accounting.released
    {w : Work}
    {step : Step μ}
    (hKey : o.key = k)
    (hDeleting : o.isDeleting = true)
    (hConstant :
      ∀ step ∈ m.steps, ∀ o o',
        step.tokens o = step.tokens o')
    (hWritable : m.readOnly = false)
    (hStep : step ∈ m.steps)
    (hOwns : step.owns w.obj = true) :
    Triple
      (fun s =>
        m.Accounting k o start w s ∧
          s.scene.cancelled = false ∧
          Journal.JustSettled step.name
            (Journal.events s.journal))
      (sendTokens { w.toCopies with
        obj := Tokens.removeAll (step.tokens w.obj) w.obj })
      (fun r s =>
        match r.1 with
        | .ok _ =>
            m.Accounting k o start
              { w with toCopies := r.2 } s
        | .error e =>
            m.Closed k o start (some (.failed (.store e))) s)
      (fun h => m.Closed k o start (some h)) := by
  have hTokens : step.tokens w.obj = step.tokens o :=
    hConstant step hStep w.obj o
  rcases (Tokens.owns_iff step w.obj).mp hOwns with
    ⟨t, hToken, hHas⟩
  have hChanged := Tokens.without_ne hToken hHas
  rw [Tokens.removeAll_eq]
  refine sendTokens_triple ?_ ?_
  · intro s stored store h hRun
    rcases h with ⟨hAccounting, _, hSettled⟩
    rcases hAccounting.booked with
      ⟨done, hBooked, hRemaining⟩
    have hRemains : t ∈ Tokens.remaining o done :=
      hRemaining ▸ hHas
    have hDeclares : t ∈ step.tokens o := hTokens ▸ hToken
    have hNew : step ∉ done := by
      intro hDone
      rw [Tokens.mem_remaining] at hRemains
      exact hRemains.2 step hDone hDeclares
    have hLeft :
        Tokens.without (step.tokens w.obj)
            w.obj.metadata.finalizers =
          Tokens.remaining o (done ++ [step]) := by
      rw [hTokens, hRemaining, Tokens.remaining_snoc]
    rcases hAccounting.mirrors.patch_cases hKey hChanged
      hRun with
      ⟨_, hError, _⟩ | ⟨_, hOk, hObject, hMirrors⟩
    · cases hError
    · cases hOk
      have hStore :
          store.Accounted k o (done ++ [step]) := by
        rw [hDeleting, Bool.true_and, hLeft] at hObject
        constructor
        · intro found hFound
          rw [hObject] at hFound
          split at hFound
          · cases hFound
          · cases hFound
            rfl
        · rw [hObject]
          simp
      refine
        ⟨hAccounting.deleting, hMirrors _,
          ⟨done ++ [step], ?_, hLeft⟩,
          hAccounting.fetched.moveTo _ _⟩
      exact hBooked.released hWritable hStep hNew
        ⟨t, hDeclares, hRemains⟩ hSettled
        hAccounting.fetched hStore
  · intro s e store h hRun
    rcases h with ⟨hAccounting, _⟩
    rcases hAccounting.booked with ⟨done, hBooked, _⟩
    rcases hAccounting.mirrors.patch_cases hKey hChanged
      hRun with
      ⟨_, _, hObjects, _⟩ | ⟨_, hOk, _⟩
    · have hSame := Store.object?_congr hObjects k
      exact ⟨done, hBooked.patchFailed hSame⟩
    · cases hOk

/- The books are kept by every part of a run. -/
theorem alone_accounting
    (hKey : o.key = k)
    (hDeleting : o.isDeleting = true)
    (hConstant :
      ∀ step ∈ m.steps, ∀ o o',
        step.tokens o = step.tokens o')
    (hBehave : m.StepsBehave) :
    m.Alone (m.Accounting k o start)
      (fun h => m.Closed k o start (some h)) where
  undisturbed := fun h => h.mirrors.undisturbed
  waited := fun others hFewer hAccounting =>
    { hAccounting with
      mirrors := hAccounting.mirrors.waited others hFewer }
  idle := fun hEvent hObjects hAccounting =>
    hAccounting.idle hEvent hObjects
  handed := by
    intro w s o' step hStep hHands hAccounting
    have hMetadata := hBehave.hands hStep hHands
    exact
      { deleting := hAccounting.deleting
        mirrors := hAccounting.mirrors.handed hMetadata
        booked := by
          rw [hMetadata]
          exact hAccounting.booked
        fetched := hAccounting.fetched }
  recorded := fun _ hAccounting =>
    { hAccounting with
      mirrors := hAccounting.mirrors.handed rfl }
  tallied := fun _ _ hAccounting => { hAccounting with }
  reported := fun _ hAccounting =>
    { hAccounting with
      mirrors := { hAccounting.mirrors with } }
  halts := fun _ hAccounting => hAccounting.closed
  haltReported := fun _ hClosed => hClosed
  released := fun hStep hWritable hOwns =>
    Accounting.released hKey hDeleting hConstant hWritable
      hStep hOwns

/- A fetch opens the books. -/
theorem fetch_accounting
    (hDeleting : o.isDeleting = true)
    (hStored : start.scene.store.object? k = some o)
    (hUndisturbed : start.Undisturbed) :
    Triple (fun s => s = start) (await (some <$> fetch k))
      (fun r s =>
        match r with
        | .ok o' =>
            o' = o ∧
              ∀ now, m.Accounting k o start (.fresh o now) s
        | .error _ => m.Closed k o start none s)
      (fun h => m.Closed k o start (some h)) := by
  refine Triple.mono
    (fetch_triple
      (P := fun s =>
        Untouched k o s ∧ m.Booked k o start none [] s)
      (fun _ h => h.1)
      (fun _ others hFewer h =>
        ⟨h.1.waited others hFewer, h.2⟩)
      (fun _ _ hSame h =>
        ⟨h.1.idle _ hSame,
          h.2.idle rfl (Store.object?_congr hSame k)⟩)
      (fun _ h => ⟨[], h.2.ending⟩) ?_ ?_)
    ?_ (fun _ _ h => h) (fun _ _ h => h)
  · intro s scene hSame h now
    have hFetched := h.1.idle (.fetched k (.ok o)) hSame
    refine ⟨hDeleting, hFetched.mirrors, ?_, ?_⟩
    · refine ⟨[], ?_, ?_⟩
      · exact h.2.idle rfl (Store.object?_congr hSame k)
      · rw [Tokens.remaining_nil]
        rfl
    · rcases h.2 with ⟨new, hNew, _⟩
      exact Journal.FetchedSince.fetched hNew k _ _
  · intro s e scene hSame h
    exact ⟨[], h.2.idle rfl (Store.object?_congr hSame k)⟩
  · intro s hSame
    rw [hSame]
    exact ⟨⟨hStored, hUndisturbed⟩, .start_nil hStored⟩

/- A deleting object takes no tokens. -/
theorem ensureTokens_accounting
    {w : Work}
    (hDeleting : o.isDeleting = true)
    (hAlone :
      m.Alone (m.Accounting k o start)
        (fun h => m.Closed k o start (some h))) :
    Triple (m.Accounting k o start w) (m.ensureTokens w)
      (m.Accounting k o start)
      (fun h => m.Closed k o start (some h)) := by
  intro s hAccounting
  have hObj : w.obj.isDeleting = true :=
    hAccounting.mirrors.isDeleting.trans hDeleting
  refine m.ensureTokens_triple
    (P := m.Accounting k o start w)
    (E := fun _ => False)
    (fun _ h => hAlone.resume h) (fun _ h _ => h.closed)
    (fun _ _ h => h) (fun _ _ h => h.elim)
    (fun _ h _ => h) ?_ s hAccounting
  intro _ hLive
  rw [hObj] at hLive
  cases hLive

/- The summing up of the chain keeps the books. -/
theorem sumUp_accounting
    (hCarries :
      m.Carries (m.Accounting k o start)
        (fun h => m.Closed k o start (some h)))
    (e : ChainEnd) :
    Triple (m.Accounting k o start e.work) (m.sumUp e)
      (m.Accounting k o start)
      (fun h => m.Closed k o start (some h)) := by
  cases e with
  | completed w =>
      refine .bind hCarries.recordConditions ?_
      intro w s hAccounting
      rw [if_pos hAccounting.deleting]
      exact hAccounting
  | retry w _ _ _ =>
      change Triple _ (m.recordReadiness .notReady w) _ _
      exact hCarries.recordConditions

/- A status write keeps tokens, so it keeps the books. -/
theorem Accounting.written
    {w : Work}
    (hKey : o.key = k) :
    Triple
      (fun s =>
        m.Accounting k o start w s ∧
          s.scene.cancelled = false)
      (sendStatus w.obj)
      (fun _ => m.Closed k o start none)
      (fun h => m.Closed k o start (some h)) := by
  refine .onStore ?_
  intro s r store h hRun
  rcases h.1.booked with ⟨done, hBooked, hTokens⟩
  refine ⟨done, ?_⟩
  rcases h.1.mirrors.status_cases hKey hRun with
    ⟨_, _, hObjects, _⟩ | ⟨stored, _, hSome, hObject⟩
  · exact hBooked.idle rfl (Store.object?_congr hObjects k)
  · have hAccounted : s.scene.store.Accounted k o done := by
      rcases hBooked with ⟨_, _, _, _, hStore⟩
      exact hStore
    refine hBooked.moveTo rfl ?_ ?_
    · intro _ _ _ hPatch
      cases hPatch
    · constructor
      · intro found hFound
        rw [hObject] at hFound
        cases hFound
        rw [← hTokens]
        exact h.1.mirrors.tokens
      · rw [← hAccounted.gone, hObject]
        simp [Option.isSome_iff_ne_none.mp hSome]

/- The status write keeps the books and closes them. -/
theorem close_accounting
    (hKey : o.key = k)
    (hAlone :
      m.Alone (m.Accounting k o start)
        (fun h => m.Closed k o start (some h)))
    {e : ChainEnd}
    {w : Work} :
    Triple (m.Accounting k o start w) (m.close e w)
      (fun _ => m.Closed k o start none)
      (fun h => m.Closed k o start (some h)) := by
  have hClosed :
      ∀ h s,
        m.Closed k o start none s →
          m.Closed k o start (some h) s := by
    rintro h s ⟨done, hBooked⟩
    exact ⟨done, hBooked.ending⟩
  have hPersist :
      Triple (m.Accounting k o start w) (m.persistStatus w)
        (fun r s =>
          (∀ w', r = .ok w' → w'.deleting = true) ∧
            m.Closed k o start none s)
        (fun h => m.Closed k o start (some h)) := by
    intro s hAccounting
    have hDeleting := hAccounting.deleting
    refine m.persistStatus_triple
      (P := m.Accounting k o start w)
      (W := fun _ => m.Closed k o start none)
      (fun _ h => hAlone.resume h) ?_ ?_
      (fun _ _ => Accounting.written hKey)
      (fun _ _ _ h => h) ?_ ?_ ?_ s hAccounting
    · intro _ s h
      refine ⟨?_, h.closed⟩
      intro w' hSame
      cases hSame
      exact hDeleting
    · intro s h _
      exact ⟨by simp, h.closed⟩
    · intro stored s h
      refine ⟨?_, h⟩
      intro w' hSame
      cases hSame
      exact hDeleting
    · intro e s _ _ h
      refine ⟨?_, h⟩
      intro w' hSame
      cases hSame
      exact hDeleting
    · intro e s _ h
      exact ⟨by simp, h⟩
  cases e with
  | completed _ =>
      refine .bind hPersist ?_
      intro r
      cases r with
      | error e => exact .fail (fun s h => hClosed _ s h.2)
      | ok w' =>
          refine Triple.assume ?_
          intro hDeleting
          dsimp only
          rw [hDeleting w' rfl]
          exact .pure (fun _ h => h)
  | retry _ _ _ _ =>
      exact .bind hPersist
        (fun _ => .fail (fun s h => hClosed _ s h.2))

/- A reconcile keeps the books. -/
theorem reconcile_books
    (hKey : o.key = k)
    (hDeleting : o.isDeleting = true)
    (hConstant :
      ∀ step ∈ m.steps, ∀ o o',
        step.tokens o = step.tokens o')
    (hBehave : m.StepsBehave)
    (hStored : start.scene.store.object? k = some o)
    (hUndisturbed : start.Undisturbed) :
    Triple (fun s => s = start) (m.reconcile k)
      (fun _ => m.Closed k o start none)
      (fun h => m.Closed k o start (some h)) := by
  have hAlone : m.Alone (m.Accounting k o start) _ :=
    alone_accounting hKey hDeleting hConstant hBehave
  have hCarries := hAlone.carries hBehave
  rw [m.reconcile_eq_draft_finish k]
  refine .bind
    (Q := Draft.Either
      (fun _ => m.Closed k o start none)
      (fun _ w => m.Accounting k o start w))
    (m.draft_triple
      (F := fun o' s =>
        o' = o ∧ ∀ now, m.Accounting k o start (.fresh o now) s)
      (E := m.Closed k o start none)
      (fetch_accounting hDeleting hStored hUndisturbed)
      (fun _ s h => (h.2 .epoch).closed) ?_ ?_
      (fun _ _ h => h) ?_ ?_) ?_
  · intro _ s rs h
    exact ⟨h.1, fun now => hAlone.reported rs (h.2 now)⟩
  · rintro s rs ⟨done, hBooked⟩
    exact ⟨done, hBooked⟩
  · rintro h s ⟨done, hBooked⟩
    exact ⟨done, hBooked.ending⟩
  · intro o' now _
    refine .assume ?_
    rintro rfl
    refine .bind
      ((ensureTokens_accounting hDeleting hAlone).mono
        (fun _ h => h now) (fun _ _ h => h)
        (fun _ _ h => h)) ?_
    intro w
    exact hCarries.draftSteps (fun h => h.closed)
      (sumUp_accounting hCarries)
  · intro d
    cases d with
    | early why => exact .pure (fun _ h => h)
    | closing e w => exact close_accounting hKey hAlone

/- So does one that is recovered from. -/
theorem reconcileRecovered_books
    (hKey : o.key = k)
    (hDeleting : o.isDeleting = true)
    (hConstant :
      ∀ step ∈ m.steps, ∀ o o',
        step.tokens o = step.tokens o')
    (hBehave : m.StepsBehave)
    (hStored : start.scene.store.object? k = some o)
    (hUndisturbed : start.Undisturbed)
    (tags : Table String String) :
    ∃ ends,
      m.Closed k o start ends
          (m.reconcileRecovered tags k start).2 ∧
        ∀ e, ends = some (.failed (.store e)) →
          (m.reconcileRecovered tags k start).1 =
            .error (.store e) := by
  have hTriple :=
    reconcile_books hKey hDeleting hConstant hBehave hStored
      hUndisturbed
  unfold reconcileRecovered
  cases hRun : m.reconcile k start with
  | ok d s =>
      refine ⟨none, hTriple.of_ok rfl hRun, ?_⟩
      intro e hNone
      cases hNone
  | error h s =>
      have hClosed : m.Closed k o start (some h) s :=
        hTriple.of_error rfl hRun
      refine ⟨some h, hClosed, ?_⟩
      intro e hSame
      cases hSame
      rfl

/-
  Every token of a deleting object is accounted for during a
  reconcile.  At every moment the stored tokens are the
  fetched ones without those of the steps that have settled
  and whose patch succeeded, each of them once; the object
  is gone once no token is left.  A patch that fails is the
  last thing that happens, and its error is the answer.  If
  the manager writes, the patch of a step that has settled
  is the next thing that happens, but for other tasks; only
  a run that is interrupted ends before.
-/
theorem deletion_accounted
    (hKey : o.key = k)
    (hDeleting : o.isDeleting = true)
    (hConstant :
      ∀ step ∈ m.steps, ∀ o o',
        step.tokens o = step.tokens o')
    (hBehave : m.StepsBehave)
    (hStored : start.scene.store.object? k = some o)
    (hUndisturbed : start.Undisturbed)
    (tags : Table String String) :
    ∃ new done,
      (m.reconcileRecovered tags k start).2.journal =
          start.journal ++ new ∧
        Journal.Accounts m k o new done ∧
        Store.Accounted k o done
          (m.reconcileRecovered tags k start).2.scene.store ∧
        (∀ before (mo : Moment μ) after modified base e,
          new = before ++ mo :: after →
            mo.event = .patched modified base (.error e) →
              after = [] ∧
                (m.reconcileRecovered tags k start).1 =
                  .error (.store e)) ∧
        (m.readOnly = false →
          Journal.Releases
            (Interrupted
              (m.reconcileRecovered tags k start).1)
            new) := by
  rcases reconcileRecovered_books hKey hDeleting hConstant
      hBehave hStored hUndisturbed tags with
    ⟨ends, ⟨done, new, hNew, hAccounts, hFails, hStore⟩,
      hAnswer⟩
  refine ⟨new, done, hNew, hAccounts, hStore, ?_,
    fun hWritable =>
      recovered_releases hWritable hConstant hBehave hNew⟩
  intro before mo after modified base e hSplit hEvent
  rcases hFails before mo after modified base e hSplit
    hEvent with ⟨hLast, hEnds⟩
  exact ⟨hLast, hAnswer e hEnds⟩

/- A step with one token and a fixed result. -/
def sharingStep
    (name : String)
    (result : StepResult) : Step Unit where
  name := name
  tokens := fun _ => ["token"]
  process := fun _ o => return (.ok, o)
  finalize := fun _ o => return (result, o)

/-
  A manager with two steps that share a token.  The one that
  is finalized last asks to come back.
-/
def sharingManager : Manager Unit where
  operator := "operator"
  controller := "controller"
  kind := "TestObject"
  steps := [
    sharingStep "first" (.proceed (some (.ofSeconds 5))),
    sharingStep "second" .ok]
  conditions := false
  scheduler := none
  hook := none
  reporter := .discarding
  policy := .standard
  readOnly := false
  trackLast := false

/- An object that is being deleted, with a foreign token. -/
def sharingObject : Object where
  kind := .full
  metadata :=
    { Metadata.fresh "default" "object" with
      finalizers := ["token", "foreign"]
      deletionTimestamp := some .epoch
      resourceVersion := some "1" }
  status := {}

/- A host with that object. -/
def sharingStart : Session Unit where
  scene :=
    { store := Store.insert sharingObject {}
      clock := ⟨0⟩
      memory := () }

theorem sharing_stored :
    sharingStart.scene.store.object? guardKey =
      some sharingObject := by
  decide +kernel

theorem sharing_steps
    {step : Step Unit}
    (hStep : step ∈ sharingManager.steps) :
    ∃ name result, step = sharingStep name result := by
  rcases List.mem_cons.mp hStep with hFirst | hRest
  · exact ⟨_, _, hFirst⟩
  · exact ⟨_, _, List.mem_singleton.mp hRest⟩

theorem sharing_tokens_constant :
    ∀ step ∈ sharingManager.steps, ∀ o o',
      step.tokens o = step.tokens o' := by
  intro step hStep o o'
  rcases sharing_steps hStep with ⟨name, result, hSame⟩
  rw [hSame]
  rfl

theorem sharing_stepsBehave :
    sharingManager.StepsBehave := by
  refine .of_handsBack rfl ?_
  intro step hStep
  rcases sharing_steps hStep with ⟨name, result, hSame⟩
  rw [hSame]
  exact ⟨fun _ _ => ⟨_, rfl⟩, fun _ _ => ⟨_, rfl⟩⟩

theorem sharing_undisturbed :
    sharingStart.Undisturbed := by
  intro change hMember
  cases hMember

/- The host after a reconcile. -/
def sharingRan : Session Unit :=
  (sharingManager.reconcileRecovered [] guardKey
    sharingStart).2

/- The shared token comes off, the foreign one stays. -/
theorem sharing_tokens :
    (sharingRan.scene.store.object? guardKey).map
      (·.metadata.finalizers) = some ["foreign"] := by
  decide +kernel

/- So a step of the manager is entered in the ledger. -/
theorem sharing_deletion_accounted :
    sharingObject.isDeleting = true ∧
      sharingStart.scene.store.object? guardKey =
        some sharingObject ∧
      ∃ new done,
        sharingRan.journal = sharingStart.journal ++ new ∧
          Journal.Accounts sharingManager guardKey
            sharingObject new done ∧
          sharingRan.scene.store.Accounted guardKey
            sharingObject done ∧
          Journal.Releases
            (Interrupted
              (sharingManager.reconcileRecovered [] guardKey
                sharingStart).1)
            new ∧
          done ≠ [] := by
  refine ⟨rfl, sharing_stored, ?_⟩
  have hTokens := sharing_tokens
  unfold sharingRan at hTokens ⊢
  have hKey : sharingObject.key = guardKey := rfl
  rcases deletion_accounted hKey rfl sharing_tokens_constant
      sharing_stepsBehave sharing_stored sharing_undisturbed
      [] with
    ⟨new, done, hNew, hAccounts, hStore, _, hReleases⟩
  refine ⟨new, done, hNew, hAccounts, hStore, hReleases rfl,
    ?_⟩
  rintro rfl
  -- With an empty ledger both tokens would still be there.
  rcases Option.map_eq_some_iff.mp hTokens with
    ⟨stored, hStored, hLeft⟩
  have hAll := hStore.tokens stored hStored
  rw [Tokens.remaining_nil, hLeft] at hAll
  exact absurd hAll (by decide)

end Accounting

end Manager

end Reconciler
