import Reconciler.Proofs.Store.Built

/-
  This file proves that resource versions identify states.

  A history is a list of calls that clients make on an empty
  store, one after another.  Every write takes a version that
  was not handed out before, so a version that shows up twice
  shows the same object under the same key, and nothing has
  happened to that object in between.  This is what makes the
  comparison of versions in a status update sound.

  Key definitions include:
    * `Store.Wrote`
    * `StoreCall`
    * `StoreCall.write?`
    * `StoreCall.storeAt`
    * `StoreCall.Answered`
    * `StoreCall.Written`

  Key theorems include:
    * `StoreCall.write_cases`
    * `StoreCall.evolves_storeAt`
    * `StoreCall.held_unique`
    * `StoreCall.unchanged_between`
    * `StoreCall.versions_identify_states`
-/

------------------------------------------------------------
-- Writes
------------------------------------------------------------

namespace Reconciler

/-
  An object has been written under a key, at the version
  that was next.  It is stored there, unless it is being
  deleted and has no tokens left; then nothing is.
-/
structure Store.Wrote
    (k : Key)
    (o : Object)
    (s s' : Store) : Prop where
  version :
    o.metadata.resourceVersion =
      versionText (s.version + 1)
  next : s'.version = s.version + 1
  here :
    s'.object? k = some o ∨
      (s'.object? k = none ∧
        o.isDeleting = true ∧
        o.metadata.finalizers = [])
  elsewhere :
    ∀ k', k' ≠ k → s'.object? k' = s.object? k'

/- An object in place of what was stored has been written. -/
theorem Store.Wrote.of_place
    {k : Key}
    {o : Object}
    {s s' : Store}
    (hVersion : s'.version = s.version + 1)
    (hObjects :
      s'.objects =
        (s.place k
          (o.withVersion
            (versionText (s.version + 1)))).objects) :
    s.Wrote k
      (o.withVersion (versionText (s.version + 1))) s' where
  version := rfl
  next := hVersion
  here := by
    rw [object?_congr hObjects, object?_place, if_pos rfl]
    exact .inl rfl
  elsewhere := by
    intro k' hOther
    rw [object?_congr hObjects, object?_place, if_neg hOther]

/-
  What can happen to a store: the calls of clients, and a
  failure that is queued for a later call.
-/
inductive StoreCall where
  | insert (o : Object)
  | modify (k : Key) (f : Object → Object)
  | get (k : Key)
  | patch (modified base : Object)
  | updateStatus (o : Object)
  | failNext (operation : StoreOperation) (e : StoreError)

namespace StoreCall

open Store (Evolves versionText)

/- The store after a call. -/
def after
    (s : Store) : StoreCall → Store
  | .insert o => s.insert o
  | .modify k f => s.modify k f
  | .get k => (s.get k).2
  | .patch modified base => (s.patch modified base).2
  | .updateStatus o => (s.updateStatus o).2
  | .failNext operation e => s.failNext operation e

/- What a call hands back, if that can be an error. -/
def answer?
    (s : Store) :
    StoreCall → Option (Except StoreError Object)
  | .get k => some (s.get k).1
  | .patch modified base => some (s.patch modified base).1
  | .updateStatus o => some (s.updateStatus o).1
  | _ => none

/-
  The key that a call writes to, and the object at the
  version that is handed out there.  A patch that is empty
  writes nothing.
-/
def write?
    (s : Store) : StoreCall → Option (Key × Object)
  | .insert o =>
      some (o.key,
        o.withVersion (versionText (s.version + 1)))
  | .modify k f =>
      (s.object? k).map (fun o =>
        (k, (f o).withVersion (versionText (s.version + 1))))
  | .patch modified base =>
      if MergePatch.isEmpty (Store.mainPatch modified base) then
        none
      else
        match (s.patch modified base).1 with
        | .ok o => some (base.key, o)
        | .error _ => none
  | .updateStatus o =>
      match (s.updateStatus o).1 with
      | .ok stored => some (o.key, stored)
      | .error _ => none
  | _ => none

/-
  What a call does: it writes nothing and changes no object,
  or it writes one object at the next version.
-/
theorem write_cases
    (call : StoreCall)
    (s : Store) :
    (call.write? s = none ∧
      s.version ≤ (call.after s).version ∧
      (call.after s).objects = s.objects) ∨
    (∃ k o,
      call.write? s = some (k, o) ∧
        s.Wrote k o (call.after s)) := by
  cases call with
  | insert o =>
      exact .inr ⟨o.key, _, rfl, .of_place rfl rfl⟩
  | modify k f =>
      rcases Store.modify_cases k f s with
        ⟨hMissing, hVersion, hObjects⟩ |
        ⟨o, hStored, hVersion, hObjects⟩
      · refine .inl ⟨?_, ?_, hObjects⟩
        · rw [write?, hMissing, Option.map_none]
        · exact (Store.modify_evolves k f s).version
      · refine .inr ⟨k, _, ?_, .of_place hVersion hObjects⟩
        rw [write?, hStored, Option.map_some]
  | get k =>
      exact .inl ⟨rfl, (Store.get_evolves k s).version,
        Store.get_objects k s⟩
  | patch modified base =>
      have hVersion := Store.patch_version modified base s
      have hElse :=
        (Store.patch_evolvesAt modified base s).elsewhere
      rcases Store.patch_cases modified base s with
        ⟨e, hError, hObjects⟩ |
        ⟨stored, _, hEmpty, _, _, hObjects⟩ |
        ⟨stored, o, _, hEmpty, _, hOk, hNext, hObjects⟩
      · refine .inl ⟨?_, hVersion, hObjects⟩
        simp only [write?, hError, ite_self]
      · refine .inl ⟨?_, hVersion, hObjects⟩
        simp only [write?, hEmpty, if_true]
      · -- The patched object is stored, or settled as gone.
        have hHere := Store.object?_congr hObjects base.key
        rw [Store.object?_settle, if_pos rfl] at hHere
        refine .inr
          ⟨base.key,
            o.withVersion (versionText (s.version + 1)),
            ?_, rfl, hNext, ?_, hElse⟩
        · simp only [write?, hEmpty, hOk]
          rfl
        · split at hHere
          · next hGone =>
              rw [Bool.and_eq_true, List.isEmpty_iff] at hGone
              exact .inr ⟨hHere, hGone⟩
          · exact .inl hHere
  | updateStatus o =>
      have hVersion := Store.updateStatus_version o s
      have hElse := (Store.updateStatus_evolvesAt o s).elsewhere
      rcases Store.updateStatus_cases o s with
        ⟨e, hError, hObjects⟩ |
        ⟨old, stored, _, hStored, hOk, hNext, _⟩
      · refine .inl ⟨?_, hVersion, hObjects⟩
        simp only [write?, hError]
      · have hHere := (Store.updateStatus_ok hOk).1
        refine .inr
          ⟨o.key, stored, ?_, ?_, hNext, .inl hHere, hElse⟩
        · simp only [write?, hOk]
        · rw [hStored]
          rfl
  | failNext operation e =>
      refine .inl ⟨rfl,
        (Store.failNext_evolves operation e s).version, ?_⟩
      cases operation <;> rfl

/- A call that hands back an error changes no object. -/
theorem objects_of_error
    {call : StoreCall}
    {s : Store}
    {e : StoreError}
    (hAnswer : call.answer? s = some (.error e)) :
    (call.after s).objects = s.objects := by
  cases call with
  | get k => exact Store.get_objects k s
  | patch modified base =>
      exact Store.patch_error (Option.some.inj hAnswer)
  | updateStatus o =>
      rcases Store.updateStatus_cases o s with
        ⟨_, _, hObjects⟩ | ⟨_, _, _, _, hOk, _⟩
      · exact hObjects
      · rw [answer?, hOk] at hAnswer
        cases hAnswer
  | _ => cases hAnswer

/- Whatever is called, the store evolves. -/
theorem evolves_after
    (call : StoreCall)
    (s : Store) :
    Evolves s (call.after s) := by
  cases call with
  | insert o => exact Store.insert_evolves o s
  | modify k f => exact Store.modify_evolves k f s
  | get k => exact Store.get_evolves k s
  | patch modified base =>
      exact Store.patch_evolves modified base s
  | updateStatus o => exact Store.updateStatus_evolves o s
  | failNext operation e =>
      exact Store.failNext_evolves operation e s

------------------------------------------------------------
-- Histories
------------------------------------------------------------

/- An empty store after the first calls of a history. -/
def storeAt
    (calls : List StoreCall)
    (n : Nat) : Store :=
  (calls.take n).foldl after {}

variable {calls : List StoreCall}

theorem storeAt_succ
    {n : Nat}
    {call : StoreCall}
    (hCall : calls[n]? = some call) :
    storeAt calls (n + 1) =
      call.after (storeAt calls n) := by
  unfold storeAt
  rw [List.take_add_one, hCall, List.foldl_append]
  rfl

/- After the last call nothing happens any more. -/
theorem storeAt_end
    {n : Nat}
    (hEnd : calls[n]? = none) :
    storeAt calls (n + 1) = storeAt calls n := by
  unfold storeAt
  rw [List.take_add_one, hEnd]
  simp

/- What every call keeps holds all the time. -/
theorem storeAt_induction
    {P : Store → Prop}
    (hEmpty : P {})
    (hCall : ∀ (call : StoreCall) s, P s → P (call.after s))
    (n : Nat) :
    P (storeAt calls n) := by
  induction n with
  | zero => exact hEmpty
  | succ n ih =>
      cases hNext : calls[n]? with
      | none =>
          rw [storeAt_end hNext]
          exact ih
      | some call =>
          rw [storeAt_succ hNext]
          exact hCall call _ ih

theorem built_storeAt
    (n : Nat) :
    (storeAt calls n).Built := by
  apply storeAt_induction .empty
  intro call s hBuilt
  cases call with
  | insert o => exact hBuilt.insert o
  | modify k f => exact hBuilt.modify k f
  | get k => exact hBuilt.get k
  | patch modified base => exact hBuilt.patch modified base
  | updateStatus o => exact hBuilt.updateStatus o
  | failNext operation e => exact hBuilt.failNext operation e

/- A store evolves as time passes. -/
theorem evolves_storeAt
    {i j : Nat}
    (hOrder : i ≤ j) :
    Evolves (storeAt calls i) (storeAt calls j) := by
  induction hOrder with
  | refl => exact .refl _
  | @step j _ ih =>
      cases hNext : calls[j]? with
      | none =>
          rw [storeAt_end hNext]
          exact ih
      | some call =>
          rw [storeAt_succ hNext]
          exact ih.trans (call.evolves_after _)

/- A call of a history hands something back. -/
def Answered
    (calls : List StoreCall)
    (n : Nat)
    (call : StoreCall)
    (r : Except StoreError Object) : Prop :=
  calls[n]? = some call ∧
    call.answer? (storeAt calls n) = some r

/- A call of a history writes an object under a key. -/
def Written
    (calls : List StoreCall)
    (n : Nat)
    (k : Key)
    (o : Object) : Prop :=
  ∃ call,
    calls[n]? = some call ∧
      call.write? (storeAt calls n) = some (k, o)

/- What is written takes the version that is next. -/
theorem Written.wrote
    {n : Nat}
    {k : Key}
    {o : Object}
    (hWritten : Written calls n k o) :
    (storeAt calls n).Wrote k o (storeAt calls (n + 1)) := by
  rcases hWritten with ⟨call, hCall, hWrite⟩
  rw [storeAt_succ hCall]
  rcases call.write_cases (storeAt calls n) with
    ⟨hNone, _⟩ | ⟨k', o', hSome, hWrote⟩
  · rw [hWrite] at hNone
    cases hNone
  · rw [hWrite] at hSome
    cases hSome
    exact hWrote

/- Every change of a stored object is written. -/
theorem written_of_changed
    {n : Nat}
    {k : Key}
    (hChanged :
      (storeAt calls (n + 1)).object? k ≠
        (storeAt calls n).object? k) :
    ∃ o, Written calls n k o := by
  cases hCall : calls[n]? with
  | none =>
      rw [storeAt_end hCall] at hChanged
      exact absurd rfl hChanged
  | some call =>
      rw [storeAt_succ hCall] at hChanged
      rcases call.write_cases (storeAt calls n) with
        ⟨_, _, hObjects⟩ | ⟨k', o, hWrite, hWrote⟩
      · exact absurd (Store.object?_congr hObjects k) hChanged
      · by_cases hKey : k = k'
        · subst hKey
          exact ⟨o, call, hCall, hWrite⟩
        · exact absurd (hWrote.elsewhere k hKey) hChanged

------------------------------------------------------------
-- Versions
------------------------------------------------------------

/-
  Of two states with one version, the later one was there
  already when the earlier one was.
-/
theorem held_earlier
    {i j : Nat}
    {k k' : Key}
    {o o' : Object}
    (hOrder : i ≤ j)
    (hFirst : (storeAt calls i).object? k = some o)
    (hSecond : (storeAt calls j).object? k' = some o')
    (hVersion :
      o.metadata.resourceVersion =
        o'.metadata.resourceVersion) :
    (storeAt calls i).object? k' = some o' := by
  have hBuilt : (storeAt calls i).Built := built_storeAt i
  rcases hBuilt.minted.versioned k o hFirst with
    ⟨n, hOld, hText⟩
  exact (evolves_storeAt hOrder).object_of_old_version
    hSecond (hVersion.symm.trans hText) hOld

/- States with one version are the same. -/
theorem held_unique
    {i j : Nat}
    {k k' : Key}
    {o o' : Object}
    (hFirst : (storeAt calls i).object? k = some o)
    (hSecond : (storeAt calls j).object? k' = some o')
    (hVersion :
      o.metadata.resourceVersion =
        o'.metadata.resourceVersion) :
    k = k' ∧ o = o' := by
  have hOneWay :
      ∀ {i j : Nat} {k k' : Key} {o o' : Object},
        i ≤ j →
        (storeAt calls i).object? k = some o →
        (storeAt calls j).object? k' = some o' →
        o.metadata.resourceVersion =
          o'.metadata.resourceVersion →
        k = k' ∧ o = o' := by
    intro i j k k' o o' hOrder hFirst hSecond hVersion
    have hEarlier :=
      held_earlier hOrder hFirst hSecond hVersion
    have hBuilt : (storeAt calls i).Built := built_storeAt i
    have hKey :=
      hBuilt.minted.apart k k' o o' hFirst hEarlier hVersion
    subst hKey
    rw [hFirst] at hEarlier
    exact ⟨rfl, Option.some.inj hEarlier⟩
  rcases Nat.le_total i j with hOrder | hOrder
  · exact hOneWay hOrder hFirst hSecond hVersion
  · rcases hOneWay hOrder hSecond hFirst hVersion.symm with
      ⟨hKey, hObject⟩
    exact ⟨hKey.symm, hObject.symm⟩

/- A state that is back has never been away. -/
theorem unchanged_between
    {i j n : Nat}
    {k : Key}
    {o : Object}
    (hFirst : (storeAt calls i).object? k = some o)
    (hLast : (storeAt calls j).object? k = some o)
    (hAfter : i ≤ n)
    (hBefore : n ≤ j) :
    (storeAt calls n).object? k = some o := by
  have hBuilt : (storeAt calls i).Built := built_storeAt i
  rcases hBuilt.minted.versioned k o hFirst with
    ⟨v, hOld, hText⟩
  exact (evolves_storeAt hBefore).object_of_old_version hLast
    hText (Nat.le_trans hOld (evolves_storeAt hAfter).version)

/-
  Take any history of calls on an empty store.  No two
  states that the store has held, under whatever keys, have
  the same version.  The versions that writes hand out
  strictly increase, and every change of a stored object is
  such a write.  A call that hands back an error leaves all
  objects as they were.  So if a status update succeeds at
  the version of an object that was fetched before, that
  object has been stored under its key all the time.
-/
theorem versions_identify_states
    (calls : List StoreCall) :
    (∀ i j k k' o o',
      (storeAt calls i).object? k = some o →
        (storeAt calls j).object? k' = some o' →
          o.metadata.resourceVersion =
              o'.metadata.resourceVersion →
            k = k' ∧ o = o') ∧
      (∀ i j k k' o o',
        i < j → Written calls i k o → Written calls j k' o' →
          ∃ v v',
            o.metadata.resourceVersion = versionText v ∧
              o'.metadata.resourceVersion =
                versionText v' ∧
              v < v') ∧
      (∀ n k,
        (storeAt calls (n + 1)).object? k ≠
            (storeAt calls n).object? k →
          ∃ o, Written calls n k o) ∧
      (∀ n call e,
        Answered calls n call (.error e) →
          (storeAt calls (n + 1)).objects =
            (storeAt calls n).objects) ∧
      (∀ i j k o given stored,
        i < j → Answered calls i (.get k) (.ok o) →
          given.metadata.resourceVersion =
              o.metadata.resourceVersion →
            Answered calls j (.updateStatus given)
                (.ok stored) →
              ∀ n, i ≤ n → n ≤ j →
                (storeAt calls n).object? k = some o) := by
  refine ⟨?_, ?_, ?_, ?_, ?_⟩
  · intro i j k k' o o' hFirst hSecond hVersion
    exact held_unique hFirst hSecond hVersion
  · intro i j k k' o o' hOrder hFirst hSecond
    have hLater :
        (storeAt calls (i + 1)).version ≤
          (storeAt calls j).version :=
      (evolves_storeAt hOrder).version
    rw [hFirst.wrote.next] at hLater
    exact ⟨_, _, hFirst.wrote.version,
      hSecond.wrote.version, by omega⟩
  · intro n k hChanged
    exact written_of_changed hChanged
  · intro n call e hAnswered
    rw [storeAt_succ hAnswered.1]
    exact objects_of_error hAnswered.2
  · intro i j k o given stored hOrder hGet hVersion hUpdate
    have hFetched :=
      Store.get_ok (Option.some.inj hGet.2)
    rcases Store.updateStatus_ok_version
        (Option.some.inj hUpdate.2) with
      ⟨old, hOld, hCurrent⟩
    -- What the update replaces has the version that was got.
    rcases held_unique hFetched hOld
        (hCurrent.trans hVersion).symm with ⟨hKey, hSame⟩
    rw [← hKey, ← hSame] at hOld
    intro n hAfter hBefore
    exact unchanged_between hFetched hOld hAfter hBefore

/- An object as a client fetches it after its insertion. -/
def fetched : Object :=
  (Object.mk .full (.fresh "ns" "a") {}).withVersion
    (versionText 1)

/- What the client makes of it. -/
def finished : Object :=
  fetched.mapStatus (fun s => { s with payload := "done" })

/-
  While the client works, others insert another object and
  fail to patch the first one.
-/
def busy : List StoreCall :=
  [.insert fetched, .get fetched.key,
    .insert ⟨.full, .fresh "ns" "b", {}⟩,
    .failNext .patch (.transient "down"),
    .patch (fetched.withFinalizers ["f"]) fetched,
    .updateStatus finished]

theorem busy_unchanged :
    Answered busy 1 (.get fetched.key) (.ok fetched) ∧
      Answered busy 5 (.updateStatus finished)
        (.ok (finished.withVersion (versionText 3))) ∧
      ∀ n, 1 ≤ n → n ≤ 5 →
        (storeAt busy n).object? fetched.key =
          some fetched := by
  have hGet :
      Answered busy 1 (.get fetched.key) (.ok fetched) :=
    ⟨rfl, rfl⟩
  have hUpdate :
      Answered busy 5 (.updateStatus finished)
        (.ok (finished.withVersion (versionText 3))) :=
    ⟨rfl, rfl⟩
  rcases versions_identify_states busy with
    ⟨_, _, _, _, hUnchanged⟩
  have hVersion :
      finished.metadata.resourceVersion =
        fetched.metadata.resourceVersion :=
    rfl
  exact ⟨hGet, hUpdate,
    hUnchanged 1 5 _ _ _ _ (by decide) hGet hVersion hUpdate⟩

end StoreCall

end Reconciler
