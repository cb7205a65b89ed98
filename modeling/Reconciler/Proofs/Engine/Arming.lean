import Reconciler.Proofs.Engine.Accounting
import Reconciler.Proofs.Engine.Parked
import Reconciler.Proofs.Store.Labels

/-
  This file says that a live object has its tokens before
  any work is done on it.

  A run that gets past the gate appends the declared tokens
  that are missing, each once and in order of declaration,
  with a single patch; it sends none if there is nothing to
  append.  If the patch fails the run is over.  Else nothing
  that comes later changes the stored tokens: a live object
  is not finalized, and no other write touches its tokens.

  Key definitions include:
    * `Tokens.Lacking`
    * `Store.Bears`
    * `Session.Bears`
    * `Manager.Equipped`
    * `Manager.PastGate`
    * `Manager.Arms`

  Key theorems include:
    * `Tokens.missing_lacking`
    * `Manager.upholdsClose_equipped`
    * `Manager.ensureTokens_equips`
    * `Manager.PastGate.tokens_before_work`
-/

------------------------------------------------------------
-- Tokens in Order of Declaration
------------------------------------------------------------

namespace Reconciler

namespace Tokens

/-
  The tokens that are declared but not on a list, each of
  them once, in order of first declaration.
-/
structure Lacking
    (declared fs lacking : List String) : Prop where
  mem :
    ∀ t, t ∈ lacking ↔ t ∈ declared ∧ t ∉ fs
  ordered :
    lacking.Pairwise
      (fun t u => declared.idxOf t < declared.idxOf u)

/-
  A token put in front of a list does not change the order
  in which others occur first.
-/
theorem pairwise_idxOf_cons
    {token : String}
    {rest tokens : List String}
    (hNew : token ∉ tokens)
    (hOrdered :
      tokens.Pairwise
        (fun t u => rest.idxOf t < rest.idxOf u)) :
    tokens.Pairwise
      (fun t u =>
        (token :: rest).idxOf t < (token :: rest).idxOf u) := by
  refine hOrdered.imp_of_mem ?_
  intro t u hFirst hSecond hLess
  have hOther : token ≠ t := fun h => hNew (h ▸ hFirst)
  have hOther' : token ≠ u := fun h => hNew (h ▸ hSecond)
  rw [List.idxOf_cons_ne rest hOther,
    List.idxOf_cons_ne rest hOther']
  exact Nat.succ_lt_succ hLess

/-
  Without its duplicates, what passes a test keeps the order
  in which it occurs first.
-/
theorem pairwise_eraseDups
    (p : String → Bool)
    (declared : List String) :
    ((declared.filter p).eraseDups).Pairwise
      (fun t u => declared.idxOf t < declared.idxOf u) := by
  induction declared generalizing p with
  | nil => exact .nil
  | cons token rest ih =>
      by_cases hPasses : p token = true
      · -- What follows the token is tested for another one.
        rw [List.filter_cons_of_pos hPasses,
          List.eraseDups_cons, List.filter_filter]
        have hNew :
            token ∉ (rest.filter
              (fun t => !(t == token) && p t)).eraseDups := by
          simp [List.mem_eraseDups]
        refine List.pairwise_cons.mpr
          ⟨?_, pairwise_idxOf_cons hNew (ih _)⟩
        intro t hMember
        have hOther : token ≠ t := fun h => hNew (h ▸ hMember)
        rw [List.idxOf_cons_self,
          List.idxOf_cons_ne rest hOther]
        exact Nat.succ_pos _
      · rw [List.filter_cons_of_neg hPasses]
        refine pairwise_idxOf_cons ?_ (ih p)
        intro hMember
        rw [List.mem_eraseDups, List.mem_filter] at hMember
        exact hPasses hMember.2

/- The missing tokens are those that are lacking. -/
theorem missing_lacking
    {μ : Type}
    (steps : List (Step μ))
    (o : Object) :
    Lacking (declared steps o) o.metadata.finalizers
      (missing steps o) where
  mem := by
    intro t
    rw [mem_missing]
    unfold declared
    rw [List.mem_flatMap]
  ordered := pairwise_eraseDups _ _

/- Tokens that a list lacks are appended to it. -/
theorem merged_eq_append
    {tokens fs : List String}
    (hOnce : tokens.Nodup)
    (hNew : ∀ t ∈ tokens, t ∉ fs) :
    merged tokens fs = fs ++ tokens := by
  unfold merged
  induction tokens generalizing fs with
  | nil => simp
  | cons token rest ih =>
      have hToken : token ∉ fs := hNew token List.mem_cons_self
      have hOnce := List.nodup_cons.mp hOnce
      rw [List.foldl_cons, if_neg (by simpa using hToken),
        ih hOnce.2 ?_, List.append_assoc]
      · rfl
      · intro t hRest hMember
        rcases List.mem_append.mp hMember with hOld | hSame
        · exact hNew t (List.mem_cons_of_mem _ hRest) hOld
        · rw [List.mem_singleton.mp hSame] at hRest
          exact hOnce.1 hRest

/- Putting the missing tokens on an object appends them. -/
theorem addAll_missing
    {μ : Type}
    (steps : List (Step μ))
    (o : Object) :
    addAll (missing steps o) o =
      o.withFinalizers
        (o.metadata.finalizers ++ missing steps o) := by
  have hLacking := missing_lacking steps o
  have hOnce : (missing steps o).Nodup :=
    hLacking.ordered.imp (fun hLess hSame => by
      rw [hSame] at hLess
      exact absurd hLess (Nat.lt_irrefl _))
  rw [addAll_eq, merged_eq_append hOnce
    (fun t hMember => ((hLacking.mem t).mp hMember).2)]

end Tokens

------------------------------------------------------------
-- Stores that Bear Tokens
------------------------------------------------------------

namespace Store

/- A live object with these tokens is stored. -/
def Bears
    (k : Key)
    (fs : List String)
    (store : Store) : Prop :=
  ∃ o,
    store.object? k = some o ∧
      o.isDeleting = false ∧
      o.metadata.finalizers = fs

namespace Bears

variable {k : Key}
variable {fs : List String}
variable {store : Store}

/- What else a store holds does not matter. -/
theorem congr
    {store' : Store}
    (hBears : store.Bears k fs)
    (hObjects : store'.objects = store.objects) :
    store'.Bears k fs := by
  rcases hBears with ⟨o, hStored, hRest⟩
  exact ⟨o, (object?_congr hObjects k).trans hStored, hRest⟩

/- An update of the status keeps the tokens. -/
theorem updateStatus
    {o : Object}
    (hBears : store.Bears k fs)
    (hKey : o.key = k) :
    (updateStatus o store).2.Bears k fs := by
  rcases updateStatus_cases o store with
    ⟨_, _, hObjects⟩ |
    ⟨old, stored, hOld, hNew, _, _, hObjects⟩
  · exact hBears.congr hObjects
  · rcases hBears with ⟨found, hFound, hLive, hTokens⟩
    rw [hKey, hFound] at hOld
    cases hOld
    refine ⟨stored, ?_, ?_, ?_⟩
    · change Table.get? k _ = _
      rw [hObjects, hKey, Table.get?_put, if_pos rfl]
    · rw [hNew]
      exact hLive
    · rw [hNew]
      exact hTokens

/- The removal of the refresh label keeps the tokens. -/
theorem patchLabel
    {base : Object}
    (hBears : store.Bears k fs)
    (hKey : base.key = k) :
    (patch (base.mapMetadata (·.removeRefreshLabel)) base
      store).2.Bears k fs := by
  cases hLabel : base.metadata.hasRefreshLabel with
  | false =>
      rcases patch_cases
        (base.mapMetadata (·.removeRefreshLabel)) base store
        with
        ⟨_, _, hObjects⟩ | ⟨_, _, _, _, _, hObjects⟩ |
        ⟨_, _, _, hChanges, _⟩
      · exact hBears.congr hObjects
      · exact hBears.congr hObjects
      · rw [mainPatch_label_absent hLabel] at hChanges
        cases hChanges
  | true =>
      generalize hPatch :
        patch (base.mapMetadata (·.removeRefreshLabel)) base
          store = r
      rcases r with ⟨r, store'⟩
      cases r with
      | error e =>
          have hObjects := patch_error (congrArg Prod.fst hPatch)
          rw [hPatch] at hObjects
          exact hBears.congr hObjects
      | ok o =>
          rcases patch_label_ok hLabel hPatch with
            ⟨stored, labels, version, hStored, _, hNew,
              hObjects⟩
          rcases hBears with ⟨found, hFound, hLive, hTokens⟩
          rw [hKey, hFound] at hStored
          cases hStored
          have hPatchedLive : o.isDeleting = false := by
            rw [hNew]
            change stored.persisted.metadata.isDeleting = _
            rw [stored.persisted_metadata]
            exact hLive
          refine ⟨o, ?_, hPatchedLive, ?_⟩
          · rw [object?_congr hObjects, object?_settle,
              if_pos hKey.symm, hPatchedLive]
            rfl
          · rw [hNew]
            change stored.persisted.metadata.finalizers = _
            rw [stored.persisted_metadata]
            exact hTokens

end Bears

end Store

------------------------------------------------------------
-- Sessions that Bear Tokens
------------------------------------------------------------

variable {μ : Type}

/-
  Every moment since a point of the journal has shown a live
  object with these tokens, and so does the store.
-/
structure Session.Bears
    (k : Key)
    (fs : List String)
    (base : List (Moment μ))
    (s : Session μ) : Prop where
  stored : s.scene.store.Bears k fs
  past :
    ∃ later,
      s.journal = base ++ later ∧
        ∀ mo ∈ later, mo.scene.store.Bears k fs

namespace Session.Bears

variable {k : Key}
variable {fs : List String}
variable {base : List (Moment μ)}
variable {s : Session μ}

/- From now on. -/
theorem now
    (hStored : s.scene.store.Bears k fs) :
    s.Bears k fs s.journal where
  stored := hStored
  past := ⟨[], by simp, by simp⟩

theorem moveTo
    {scene : Scene μ}
    (hBears : s.Bears k fs base)
    (e : Event)
    (hStored : scene.store.Bears k fs) :
    (s.moveTo e scene).Bears k fs base where
  stored := hStored
  past := by
    rcases hBears.past with ⟨later, hJournal, hLater⟩
    refine ⟨later ++ [⟨e, scene⟩], ?_, ?_⟩
    · rw [Session.moveTo_journal, hJournal, List.append_assoc]
    · intro mo hMember
      rcases List.mem_append.mp hMember with hOld | hNew
      · exact hLater mo hOld
      · rw [List.mem_singleton.mp hNew]
        exact hStored

end Session.Bears

------------------------------------------------------------
-- Runs without a Finalization
------------------------------------------------------------

/- Whether an event is the call of a finalization. -/
def Event.isFinalization : Event → Bool
  | .finalizeCalled _ => true
  | _ => false

namespace Journal

/- Since the last fetch no step has been finalized. -/
def NoneFinalized
    (j : List (Moment μ)) : Prop :=
  ∃ before after,
    j = before ++ after ∧
      (∃ mo ∈ after, mo.event.fetch? ≠ none) ∧
      ∀ mo ∈ after, mo.event.isFinalization = false

namespace NoneFinalized

theorem snoc
    {j : List (Moment μ)}
    {mo : Moment μ}
    (hNone : NoneFinalized j)
    (hOther : mo.event.isFinalization = false) :
    NoneFinalized (j ++ [mo]) := by
  rcases hNone with
    ⟨before, after, hSplit, ⟨fetched, hMember, hFetch⟩,
      hCalls⟩
  refine ⟨before, after ++ [mo], ?_, ?_, ?_⟩
  · rw [hSplit, List.append_assoc]
  · exact ⟨fetched, List.mem_append_left _ hMember, hFetch⟩
  · intro mo' hMember'
    rcases List.mem_append.mp hMember' with hOld | hNew
    · exact hCalls mo' hOld
    · rw [List.mem_singleton.mp hNew]
      exact hOther

/- So none has settled. -/
theorem not_justSettled
    {j : List (Moment μ)}
    (hNone : NoneFinalized j)
    (step : String) :
    ¬ JustSettled step (events j) := by
  intro hSettled
  rcases hNone with
    ⟨before, after, hSplit, ⟨fetched, hMember, hFetch⟩,
      hCalls⟩
  rw [hSplit, events_append] at hSettled
  rcases hSettled.since
    ⟨_, List.mem_map_of_mem hMember, hFetch⟩ with
    ⟨pre, post, result, hEvents, _⟩
  have hCalled : Event.finalizeCalled step ∈ events after := by
    rw [hEvents]
    simp
  rcases List.mem_map.mp hCalled with ⟨mo, hOld, hEvent⟩
  have hOther := hCalls mo hOld
  rw [hEvent] at hOther
  cases hOther

end NoneFinalized

end Journal

------------------------------------------------------------
-- Equipped Runs
------------------------------------------------------------

namespace Manager

open Engine

/-
  A run works on a live object whose tokens have all been
  stored, and is alone with the store.
-/
structure Equipped
    (k : Key)
    (fs : List String)
    (base : List (Moment μ))
    (c : Copies)
    (s : Session μ) : Prop where
  bears : s.Bears k fs base
  undisturbed : s.Undisturbed
  unfinalized : Journal.NoneFinalized s.journal
  ownKey : c.obj.key = k
  snapshotKey : c.snapshot.key = k
  live : c.obj.isDeleting = false

namespace Equipped

variable {k : Key}
variable {fs : List String}
variable {base : List (Moment μ)}
variable {c : Copies}
variable {s : Session μ}

/- A moment that is no finalization and keeps the tokens. -/
theorem moveTo
    {e : Event}
    {scene : Scene μ}
    (hEquipped : Equipped k fs base c s)
    (hEvent : e.isFinalization = false)
    (hStored : scene.store.Bears k fs) :
    Equipped k fs base c (s.moveTo e scene) :=
  { hEquipped with
    bears := hEquipped.bears.moveTo e hStored
    unfinalized := hEquipped.unfinalized.snoc hEvent }

/- A moment in which the stored objects stay. -/
theorem idle
    {e : Event}
    {scene : Scene μ}
    (hEquipped : Equipped k fs base c s)
    (hEvent : e.isFinalization = false)
    (hObjects :
      scene.store.objects = s.scene.store.objects) :
    Equipped k fs base c (s.moveTo e scene) :=
  hEquipped.moveTo hEvent
    (hEquipped.bears.stored.congr hObjects)

/- Other tasks keep the stored objects. -/
theorem resume
    (hEquipped : Equipped k fs base c s) :
    Equipped k fs base c s.resume :=
  hEquipped.undisturbed.resume
    (fun _ hFewer h =>
      { h with
        bears := { h.bears with }
        undisturbed := fun change hMember =>
          h.undisturbed change (hFewer change hMember) })
    (fun hObjects h => h.idle rfl hObjects) hEquipped

/- The metadata of the working copy are all that matters. -/
theorem handed
    {o : Object}
    (hEquipped : Equipped k fs base c s)
    (hMetadata : o.metadata = c.obj.metadata) :
    Equipped k fs base { c with obj := o } s :=
  { hEquipped with
    ownKey :=
      (congrArg Metadata.key hMetadata).trans hEquipped.ownKey
    live :=
      (congrArg Metadata.isDeleting hMetadata).trans
        hEquipped.live }

/- A call that keeps the stored objects. -/
theorem call
    {α : Type}
    {x : Call μ α}
    (hKeeps : x.KeepsObjects) :
    Triple (Equipped k fs base c) (Engine.call x)
      (fun _ => Equipped k fs base c)
      (fun _ => Session.Bears k fs base) :=
  .call_within hKeeps
    (fun _ _ _ h _ hObjects => h.idle rfl hObjects)
    (fun _ _ h hObjects => h.idle rfl hObjects)
    (fun _ _ _ h hObjects => (h.idle rfl hObjects).bears)

end Equipped

variable {m : Manager μ}
variable {k : Key}

/- No part of a run changes the tokens of a live object. -/
theorem upholdsClose_equipped
    (hBehave : m.StepsBehave)
    (k : Key)
    (fs : List String)
    (base : List (Moment μ)) :
    m.UpholdsClose (Equipped k fs base)
      (Session.Bears k fs base) where
  edited := fun _ h => h.handed rfl
  reported := fun _ h =>
    { h with bears := { h.bears with } }
  drawn := fun _ h => { h with bears := { h.bears with } }
  halts := fun h => h.bears
  haltReported := fun _ h => { h with }
  resumed := fun h => h.resume
  noted := by
    intro c s e hNotes h
    refine h.idle ?_ rfl
    cases hNotes with
    | finalizeCalled _ hDeleting _ =>
        rw [h.live] at hDeleting
        cases hDeleting
    | hookCalled => rfl
    | processCalled _ _ => rfl
    | executed _ _ => rfl
  hooked := by
    intro c hook context hHook
    exact Equipped.call (hBehave.hook hook hHook context c.obj)
  processed := by
    intro c step context hStep _
    refine .call_within
      (hBehave.process step hStep context c.obj) ?_
      (fun _ _ h hObjects => h.idle rfl hObjects)
      (fun _ _ _ h hObjects => (h.idle rfl hObjects).bears)
    intro s r scene h hRun hObjects
    exact (h.idle rfl hObjects).handed
      (hBehave.hands hStep
        ⟨context, s.scene, r.1, scene, .inl hRun⟩)
  finalized := by
    intro c step context _ hDeleting s h
    rw [h.live] at hDeleting
    cases hDeleting
  released := by
    intro c step _ _ s h
    exact absurd h.2.2 (h.1.unfinalized.not_justSettled _)
  written := by
    intro c _ _
    refine .onStore ?_
    intro s r store h hUpdate
    have hStored :=
      h.1.bears.stored.updateStatus h.1.ownKey
    rw [hUpdate] at hStored
    have hMoved :
        Equipped k fs base c
          (s.moveTo (.statusUpdated c.obj r)
            { s.scene with store := store }) :=
      h.1.moveTo rfl hStored
    cases r with
    | ok stored => exact { hMoved with }
    | error e => exact hMoved
  cleared := by
    intro c _
    refine .onStore ?_
    intro s r store h hPatch
    have hStored :=
      h.1.bears.stored.patchLabel h.1.snapshotKey
    rw [hPatch] at hStored
    exact h.1.bears.moveTo _ hStored

/- Once a run is equipped, the stored tokens stay. -/
theorem runSteps_equipped
    {fs : List String}
    {base : List (Moment μ)}
    (hBehave : m.StepsBehave)
    (context : Context)
    (w : Work) :
    Triple (Equipped k fs base w.toCopies)
      (m.runSteps context w)
      (fun _ => Session.Bears k fs base)
      (fun _ => Session.Bears k fs base) :=
  (upholdsClose_equipped hBehave k fs base).runSteps

------------------------------------------------------------
-- The Patch of the Missing Tokens
------------------------------------------------------------

/-
  What is sent to append tokens to those of an object: one
  patch that goes through, or none if there are no tokens.
-/
inductive Sends
    (k : Key)
    (o : Object)
    (lacking : List String) : List (Moment μ) → Prop where
  | nothing
      (hNone : lacking = []) :
      Sends k o lacking []
  | patch
      {stored : Object}
      {scene : Scene μ}
      (hSome : lacking ≠ [])
      (hStored :
        scene.store.Bears k
          (o.metadata.finalizers ++ lacking)) :
      Sends k o lacking
        [⟨.patched
            (o.withFinalizers
              (o.metadata.finalizers ++ lacking))
            o (.ok stored), scene⟩]

/-
  The one patch has failed, which takes a queued failure.
  The object is stored as it was fetched.
-/
structure Refused
    (k : Key)
    (o : Object)
    (lacking : List String)
    (s : Session μ)
    (e : StoreError)
    (s' : Session μ) : Prop where
  lacks : lacking ≠ []
  queued : s.scene.store.patchFailures ≠ []
  journal :
    s'.journal =
      s.journal ++
        [⟨.patched
            (o.withFinalizers
              (o.metadata.finalizers ++ lacking))
            o (.error e), s'.scene⟩]
  stored : s'.scene.store.object? k = some o

/-
  How a run that appends tokens goes on and what it answers.
  With the tokens stored, they stay until its end; else the
  run ends with the error of the store.
-/
inductive Arms
    (k : Key)
    (o : Object)
    (lacking : List String)
    (s : Session μ)
    (r : Except ReconcileError Duration × Session μ) :
    Prop where
  | armed
      {patches : List (Moment μ)}
      (hSends : Sends k o lacking patches)
      (hBears :
        r.2.Bears k (o.metadata.finalizers ++ lacking)
          (s.journal ++ patches))
  | refused
      {e : StoreError}
      (hRefused : Refused k o lacking s e r.2)
      (hAnswer : r.1 = .error (.store e))

section Patch

variable {o : Object}
variable {s : Session μ}

/-
  After a pause that it survives, a run appends the missing
  tokens to those of a live object that it has fetched.
-/
theorem ensureTokens_equips
    (hKey : o.key = k)
    (hLive : o.isDeleting = false)
    (hWritable : m.readOnly = false)
    (hUncancelled : s.resume.scene.cancelled = false)
    (hUntouched : Untouched k o s.resume)
    (hNone : Journal.NoneFinalized s.resume.journal)
    (now : Instant) :
    Triple (fun s' => s' = s)
      (m.ensureTokens (Work.fresh o now))
      (fun w s' =>
        ∃ patches,
          Sends k o (Tokens.missing m.steps o) patches ∧
            s'.journal = s.resume.journal ++ patches ∧
            Equipped k
              (o.metadata.finalizers ++
                Tokens.missing m.steps o)
              s'.journal w.toCopies s')
      (fun h s' =>
        ∃ e,
          h = .failed (.store e) ∧
            Refused k o (Tokens.missing m.steps o) s.resume e
              s') := by
  refine m.ensureTokens_reasons
    (M := fun s' => s' = s.resume)
    (E := Refused k o (Tokens.missing m.steps o) s.resume)
    (fun _ h => congrArg Session.resume h) ?_
    (fun _ _ _ h => { h with }) (fun e _ h => ⟨e, rfl, h⟩)
    ?_ ?_
  · intro s' hSame hCancelled
    rw [hSame, hUncancelled] at hCancelled
    cases hCancelled
  · intro s' hSame hNothing
    have hMissing : Tokens.missing m.steps o = [] := by
      rcases hNothing with hReadOnly | hDeleting | hMissing
      · rw [hWritable] at hReadOnly
        cases hReadOnly
      · cases hLive.symm.trans hDeleting
      · exact hMissing
    refine ⟨[], .nothing hMissing, by simp [hSame], ?_⟩
    rw [hSame, hMissing, List.append_nil]
    exact
      { bears := .now ⟨o, hUntouched.stored, hLive, rfl⟩
        undisturbed := hUntouched.undisturbed
        unfinalized := hNone
        ownKey := hKey
        snapshotKey := hKey
        live := hLive }
  · intro _ _ hMissing
    have hMissing : Tokens.missing m.steps o ≠ [] := hMissing
    have hChanged :
        o.metadata.finalizers ++ Tokens.missing m.steps o ≠
          o.metadata.finalizers := by
      simpa using hMissing
    change Triple _ (sendTokens
      ⟨Tokens.addAll (Tokens.missing m.steps o) o, o⟩) _ _
    rw [Tokens.addAll_missing]
    refine sendTokens_triple ?_ ?_
    · rintro s' stored store ⟨hSame, _⟩ hPatch
      rw [hSame] at hPatch ⊢
      rcases hUntouched.mirrors.patch_cases hKey hChanged
        hPatch with
        ⟨_, hError, _⟩ | ⟨_, hOk, hObject, _⟩
      · cases hError
      · cases hOk
        rw [hLive, Bool.false_and,
          if_neg Bool.false_ne_true] at hObject
        have hStored :
            store.Bears k
              (o.metadata.finalizers ++
                Tokens.missing m.steps o) := by
          refine ⟨_, hObject, ?_, rfl⟩
          change o.persisted.metadata.isDeleting = _
          rw [o.persisted_metadata]
          exact hLive
        refine ⟨_, .patch hMissing hStored, rfl, ?_⟩
        exact
          { bears := .now hStored
            undisturbed := hUntouched.undisturbed
            unfinalized := hNone.snoc rfl
            ownKey := hKey
            snapshotKey := hKey
            live := hLive }
    · rintro s' e store ⟨hSame, _⟩ hPatch
      rw [hSame] at hPatch ⊢
      rcases hUntouched.mirrors.patch_cases hKey hChanged
        hPatch with
        ⟨_, _, hObjects, hQueued⟩ | ⟨_, hOk, _⟩
      · exact
          { lacks := hMissing
            queued := hQueued (by rw [hUntouched.stored]; rfl)
            journal := rfl
            stored :=
              (Store.object?_congr hObjects k).trans
                hUntouched.stored }
      · cases hOk

end Patch

------------------------------------------------------------
-- Past the Gate
------------------------------------------------------------

/-
  A reconcile has got past the gate: it has fetched an
  object that can do what the manager relies on, the clock
  can be read, the object is not parked, and after the pause
  that follows the run is not cancelled.
-/
structure PastGate
    (m : Manager μ)
    (k : Key)
    (start : Session μ)
    (o : Object)
    (now : Instant)
    (s : Session μ) : Prop where
  fetched : await (some <$> fetch k) start = .ok (.ok o) s
  capable : m.missingCapability? o = none
  clock : s.scene.clock.read = .ok now
  unparked : m.parked? (Work.fresh o now) = none
  uncancelled : s.resume.scene.cancelled = false

/- What is fetched is stored, and others leave it there. -/
theorem fetch_untouched
    {start s : Session μ}
    {o : Object}
    (hUndisturbed : start.Undisturbed)
    (hFetched :
      await (some <$> fetch k) start = .ok (.ok o) s) :
    Untouched k o s := by
  have hTriple :
      Triple (fun s : Session μ => s.Undisturbed)
        (await (some <$> fetch k))
        (Either (fun o => Untouched k o) (fun _ _ => True))
        (fun _ _ => True) := by
    refine .await (M := fun s => s.Undisturbed) ?_
      (fun _ _ _ => trivial) (.map (.onStore ?_))
    · intro s hOthers
      refine hOthers.resume ?_ (fun _ h => h) hOthers
      exact fun others hFewer h change hMember =>
        h change (hFewer change hMember)
    · intro s r store h hRun
      cases r with
      | error _ => trivial
      | ok o =>
          have hObjects := Store.get_objects k s.scene.store
          rw [hRun] at hObjects
          exact
            ⟨(Store.object?_congr hObjects k).trans
                (Store.get_ok (congrArg Prod.fst hRun)),
              h.1⟩
  exact hTriple.of_ok hUndisturbed hFetched

namespace PastGate

variable {start s : Session μ}
variable {o : Object}
variable {now : Instant}

/- Past the gate the tokens come before all else. -/
theorem reconcile_eq
    (hPast : m.PastGate k start o now s) :
    m.reconcile k start =
      (m.ensureTokens (Work.fresh o now) >>=
        m.runSteps (m.context k)) s := by
  rw [reconcile_eq_of_fetched hPast.fetched hPast.capable
    hPast.clock, hPast.unparked]

/- All that has happened by then is the fetch. -/
theorem approach
    (hPast : m.PastGate k start o now s) :
    ∃ before,
      s.resume.journal = start.journal ++ before ∧
        (∃ mo ∈ before, mo.event.fetch? ≠ none) ∧
        ∀ mo ∈ before,
          mo.event = .resumed ∨
            mo.event = .fetched k (.ok o) := by
  rcases Journal.fetch_noted.of_ok rfl hPast.fetched with
    ⟨idle, hJournal, hIdle⟩
  rcases Journal.IdleSince.resume s with
    ⟨idle', hJournal', hIdle'⟩
  refine ⟨idle ++ [⟨.fetched k (.ok o), s.scene⟩] ++ idle',
    ?_, ?_, ?_⟩
  · rw [hJournal', hJournal]
    simp
  · exact ⟨⟨.fetched k (.ok o), s.scene⟩, by simp, nofun⟩
  · intro mo hMember
    rcases List.mem_append.mp hMember with hFirst | hLast
    · rcases List.mem_append.mp hFirst with hOld | hFetch
      · exact .inl (hIdle mo hOld)
      · rw [List.mem_singleton.mp hFetch]
        exact .inr rfl
    · exact .inl (hIdle' mo hLast)

/-
  A reconcile of a live object that gets past the gate
  appends the declared tokens which the object lacks before
  it does anything else.  It sends one patch for that, or
  none if there is nothing to append.  With the tokens
  stored, no later moment shows others; if the patch fails,
  nothing comes later, the object is stored as it was, and
  the answer is the error of the store.
-/
theorem tokens_before_work
    (hPast : m.PastGate k start o now s)
    (hKey : o.key = k)
    (hLive : o.isDeleting = false)
    (hWritable : m.readOnly = false)
    (hBehave : m.StepsBehave)
    (hUndisturbed : start.Undisturbed)
    (tags : Table String String) :
    (∃ before,
      s.resume.journal = start.journal ++ before ∧
        ∀ mo ∈ before,
          mo.event = .resumed ∨
            mo.event = .fetched k (.ok o)) ∧
      Tokens.Lacking (Tokens.declared m.steps o)
        o.metadata.finalizers (Tokens.missing m.steps o) ∧
      Arms k o (Tokens.missing m.steps o) s.resume
        (m.reconcileRecovered tags k start) := by
  rcases hPast.approach with
    ⟨before, hJournal, hFetch, hBefore⟩
  refine ⟨⟨before, hJournal, hBefore⟩,
    Tokens.missing_lacking m.steps o, ?_⟩
  have hNone : Journal.NoneFinalized s.resume.journal := by
    refine ⟨start.journal, before, hJournal, hFetch, ?_⟩
    intro mo hMember
    rcases hBefore mo hMember with hEvent | hEvent
    · rw [hEvent]
      rfl
    · rw [hEvent]
      rfl
  have hUntouched :=
    (fetch_untouched hUndisturbed hPast.fetched).resume
  have hEquips :=
    ensureTokens_equips hKey hLive hWritable
      hPast.uncancelled hUntouched hNone now
  unfold reconcileRecovered
  rw [hPast.reconcile_eq]
  cases hTokens : m.ensureTokens (Work.fresh o now) s with
  | error h s' =>
      rcases hEquips.of_error rfl hTokens with
        ⟨e, hHalt, hRefused⟩
      rw [bind_of_error hTokens, hHalt]
      exact .refused { hRefused with } rfl
  | ok w s' =>
      rcases hEquips.of_ok rfl hTokens with
        ⟨patches, hSends, hPatches, hEquipped⟩
      rw [bind_of_ok hTokens]
      cases hRun : m.runSteps (m.context k) w s' with
      | ok d s'' =>
          have hBears :=
            (runSteps_equipped hBehave (m.context k) w).of_ok
              hEquipped hRun
          rw [hPatches] at hBears
          exact .armed hSends hBears
      | error h s'' =>
          have hBears :=
            (runSteps_equipped hBehave (m.context k) w).of_error
              hEquipped hRun
          rw [hPatches] at hBears
          exact .armed hSends { hBears with }

end PastGate

/- Two steps that share a token. -/
def overlappingManager : Manager Unit :=
  { guardManager with
    steps :=
      [{ guardStep with
        name := "first"
        tokens := fun _ => ["a", "b"] },
      { guardStep with
        name := "second"
        tokens := fun _ => ["c", "a"] }] }

/- An object that carries one of their tokens already. -/
def overlappingObject : Object where
  kind := .full
  metadata :=
    { Metadata.fresh "default" "object" with
      finalizers := ["b"]
      resourceVersion := some "1" }
  status := {}

/- A host with that object. -/
def overlappingStart : Session Unit where
  scene :=
    { store := Store.insert overlappingObject {}
      clock := ⟨0⟩
      memory := () }

/- The session after the fetch of the object. -/
def overlappingGate : Session Unit :=
  (await (some <$> fetch guardKey)).final overlappingStart

theorem overlapping_pastGate :
    overlappingManager.PastGate guardKey overlappingStart
      overlappingObject .epoch overlappingGate where
  fetched := rfl
  capable := rfl
  clock := rfl
  unparked := rfl
  uncancelled := rfl

theorem overlapping_stepsBehave :
    overlappingManager.StepsBehave := by
  refine .of_handsBack rfl ?_
  intro step hStep
  rcases List.mem_pair.mp hStep with hFirst | hSecond
  · rw [hFirst]
    exact ⟨fun _ _ => ⟨_, rfl⟩, fun _ _ => ⟨_, rfl⟩⟩
  · rw [hSecond]
    exact ⟨fun _ _ => ⟨_, rfl⟩, fun _ _ => ⟨_, rfl⟩⟩

/- The other tokens are appended once, in order, and stay. -/
theorem overlapping_arms :
    overlappingManager.PastGate guardKey overlappingStart
        overlappingObject .epoch overlappingGate ∧
      overlappingObject.isDeleting = false ∧
      overlappingManager.StepsBehave ∧
      ∃ patch : Moment Unit,
        Session.Bears guardKey ["b", "a", "c"]
          (overlappingGate.resume.journal ++ [patch])
          (overlappingManager.reconcileRecovered [] guardKey
            overlappingStart).2 := by
  have hMissing :
      Tokens.missing overlappingManager.steps
        overlappingObject = ["a", "c"] := by
    decide +kernel
  refine ⟨overlapping_pastGate, rfl,
    overlapping_stepsBehave, ?_⟩
  rcases PastGate.tokens_before_work overlapping_pastGate
      rfl rfl rfl overlapping_stepsBehave nofun [] with
    ⟨_, _, hArms⟩
  rw [hMissing] at hArms
  cases hArms with
  | armed hSends hBears =>
      cases hSends with
      | nothing hNone => cases hNone
      | patch _ _ => exact ⟨_, hBears⟩
  | refused hRefused _ => exact absurd rfl hRefused.queued

end Manager

end Reconciler
