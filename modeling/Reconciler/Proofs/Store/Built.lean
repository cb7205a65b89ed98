import Reconciler.Proofs.Store.Versions

/-
  This file says what holds of every store that has come
  about through its operations.

  Each write stores one object, at a version that was not
  handed out before.  Hence no two stored objects have the
  same version, so that a status write at the version of one
  object never reaches another.

  Key definitions include:
    * `Store.Minted`
    * `Store.EvolvesAt`
    * `Store.Built`

  Key theorems include:
    * `Store.EvolvesAt.minted`
    * `Store.Built.minted`
    * `Store.patch_ok_apart`
-/

------------------------------------------------------------
-- Versions of Their Own
------------------------------------------------------------

namespace Reconciler

namespace Store

/-
  Every stored object has a version that was handed out
  before, and no two of them have the same.
-/
structure Minted
    (s : Store) : Prop where
  versioned : s.Versioned
  apart :
    ∀ k k' o o',
      s.object? k = some o → s.object? k' = some o' →
        o.metadata.resourceVersion =
            o'.metadata.resourceVersion →
          k = k'

/- A store that evolves, but at one key only. -/
structure EvolvesAt
    (k : Key)
    (s s' : Store) : Prop
    extends Evolves s s' where
  elsewhere :
    ∀ k', k' ≠ k → s'.object? k' = s.object? k'

theorem empty_minted :
    ({} : Store).Minted where
  versioned := empty_versioned
  apart := by
    intro k k' o o' hObject
    cases hObject

/- No stored object has a version that is yet to come. -/
theorem Minted.fresh
    {k : Key}
    {o : Object}
    {n : Nat}
    {s : Store}
    (hMinted : s.Minted)
    (hObject : s.object? k = some o)
    (hFresh : s.version < n) :
    o.metadata.resourceVersion ≠ versionText n := by
  rcases hMinted.versioned k o hObject with
    ⟨old, hBound, hVersion⟩
  intro hNext
  have hSame := versionText_inj (hVersion.symm.trans hNext)
  omega

namespace EvolvesAt

variable {k : Key}
variable {s s' : Store}

/- Nothing happens where no object is written. -/
theorem of_objects
    (hVersion : s.version ≤ s'.version)
    (hObjects : s'.objects = s.objects) :
    EvolvesAt k s s' where
  toEvolves := .of_objects hVersion hObjects
  elsewhere := fun k' _ => object?_congr hObjects k'

/- A write at one key keeps the versions apart. -/
theorem minted
    (hEvolves : EvolvesAt k s s')
    (hMinted : s.Minted) :
    s'.Minted where
  versioned := hEvolves.versioned hMinted.versioned
  apart := by
    -- One of two keys is elsewhere, where nothing is fresh.
    have hOne :
        ∀ k' o o',
          k' ≠ k → s'.object? k = some o →
            s'.object? k' = some o' →
              o.metadata.resourceVersion ≠
                o'.metadata.resourceVersion := by
      intro k' o o' hOther hObject hElse hSame
      rw [hEvolves.elsewhere k' hOther] at hElse
      rcases hEvolves.object k o hObject with
        hOld | ⟨n, hFresh, _, hVersion⟩
      · exact hOther
          (hMinted.apart k k' o o' hOld hElse hSame).symm
      · exact hMinted.fresh hElse hFresh
          (hSame.symm.trans hVersion)
    intro k₁ k₂ o₁ o₂ hFirst hSecond hSame
    by_cases hFirstKey : k₁ = k
    · subst hFirstKey
      by_cases hSecondKey : k₂ = k₁
      · exact hSecondKey.symm
      · exact absurd hSame
          (hOne k₂ o₁ o₂ hSecondKey hFirst hSecond)
    · by_cases hSecondKey : k₂ = k
      · subst hSecondKey
        exact absurd hSame.symm
          (hOne k₁ o₂ o₁ hFirstKey hSecond hFirst)
      · rw [hEvolves.elsewhere k₁ hFirstKey] at hFirst
        rw [hEvolves.elsewhere k₂ hSecondKey] at hSecond
        exact hMinted.apart k₁ k₂ o₁ o₂ hFirst hSecond hSame

end EvolvesAt

------------------------------------------------------------
-- Operations
------------------------------------------------------------

theorem insert_evolvesAt
    (o : Object)
    (s : Store) :
    EvolvesAt o.key s (s.insert o) where
  toEvolves := insert_evolves o s
  elsewhere := by
    intro k' hOther
    exact (object?_place o.key k' _ _).trans (if_neg hOther)

theorem modify_evolvesAt
    (k : Key)
    (f : Object → Object)
    (s : Store) :
    EvolvesAt k s (s.modify k f) where
  toEvolves := modify_evolves k f s
  elsewhere := by
    intro k' hOther
    rcases modify_cases k f s with
      ⟨_, _, hObjects⟩ | ⟨o, _, _, hObjects⟩
    · exact object?_congr hObjects k'
    · rw [object?_congr hObjects, object?_place,
        if_neg hOther]

theorem patch_evolvesAt
    (modified base : Object)
    (s : Store) :
    EvolvesAt base.key s (patch modified base s).2 where
  toEvolves := patch_evolves modified base s
  elsewhere := by
    intro k' hOther
    rcases patch_cases modified base s with
      ⟨_, _, hObjects⟩ | ⟨_, _, _, _, _, hObjects⟩ |
      ⟨_, _, _, _, _, _, _, hObjects⟩
    · exact object?_congr hObjects k'
    · exact object?_congr hObjects k'
    · rw [object?_congr hObjects, object?_settle,
        if_neg hOther]

theorem updateStatus_evolvesAt
    (o : Object)
    (s : Store) :
    EvolvesAt o.key s (updateStatus o s).2 where
  toEvolves := updateStatus_evolves o s
  elsewhere := by
    intro k' hOther
    rcases updateStatus_cases o s with
      ⟨_, _, hObjects⟩ | ⟨_, stored, _, _, _, _, hObjects⟩
    · exact object?_congr hObjects k'
    · unfold object?
      rw [hObjects, Table.get?_put, if_neg hOther]

/-
  A patch that succeeds hands back a version that no object
  of another key has.
-/
theorem patch_ok_apart
    {modified base stored o : Object}
    {k : Key}
    {s : Store}
    (hMinted : s.Minted)
    (hPatch : (patch modified base s).1 = .ok stored)
    (hOther : k ≠ base.key)
    (hObject : s.object? k = some o) :
    o.metadata.resourceVersion ≠
      stored.metadata.resourceVersion := by
  rcases patch_cases modified base s with
    ⟨_, hError, _⟩ | ⟨old, hOld, _, hOk, _⟩ |
    ⟨_, _, _, _, _, hOk, _⟩
  · rw [hPatch] at hError
    cases hError
  · rw [hPatch] at hOk
    cases hOk
    intro hSame
    exact hOther
      (hMinted.apart k base.key o stored hObject hOld hSame)
  · rw [hPatch] at hOk
    cases hOk
    exact hMinted.fresh hObject (Nat.lt_succ_self _)

/- So does a status update. -/
theorem updateStatus_ok_apart
    {given stored o : Object}
    {k : Key}
    {s : Store}
    (hMinted : s.Minted)
    (hUpdate : (updateStatus given s).1 = .ok stored)
    (hObject : s.object? k = some o) :
    o.metadata.resourceVersion ≠
      stored.metadata.resourceVersion := by
  rcases updateStatus_cases given s with
    ⟨_, hError, _⟩ | ⟨_, _, _, hStored, hOk, _⟩
  · rw [hUpdate] at hError
    cases hError
  · rw [hUpdate] at hOk
    cases hOk
    rw [hStored]
    exact hMinted.fresh hObject (Nat.lt_succ_self _)

------------------------------------------------------------
-- Stores through Their Operations
------------------------------------------------------------

/- A store that has come about through its operations. -/
inductive Built : Store → Prop where
  | empty : Built {}
  | insert
      {s : Store}
      (o : Object)
      (hBuilt : Built s) :
      Built (s.insert o)
  | modify
      {s : Store}
      (k : Key)
      (f : Object → Object)
      (hBuilt : Built s) :
      Built (s.modify k f)
  | failNext
      {s : Store}
      (operation : StoreOperation)
      (e : StoreError)
      (hBuilt : Built s) :
      Built (s.failNext operation e)
  | clearHistory
      {s : Store}
      (hBuilt : Built s) :
      Built s.clearHistory
  | get
      {s : Store}
      (k : Key)
      (hBuilt : Built s) :
      Built (Store.get k s).2
  | patch
      {s : Store}
      (modified base : Object)
      (hBuilt : Built s) :
      Built (Store.patch modified base s).2
  | updateStatus
      {s : Store}
      (o : Object)
      (hBuilt : Built s) :
      Built (Store.updateStatus o s).2

/- Such a store keeps the versions of its objects apart. -/
theorem Built.minted
    {s : Store}
    (hBuilt : s.Built) :
    s.Minted := by
  induction hBuilt with
  | empty => exact empty_minted
  | insert o _ ih => exact (insert_evolvesAt o _).minted ih
  | modify k f _ ih =>
      exact (modify_evolvesAt k f _).minted ih
  | @failNext s operation e _ ih =>
      have hObjects :
          (s.failNext operation e).objects = s.objects := by
        cases operation <;> rfl
      -- No object is written, so that any key will do.
      exact (EvolvesAt.of_objects (k := default)
        (failNext_evolves operation e s).version
        hObjects).minted ih
  | @clearHistory s _ ih =>
      exact (EvolvesAt.of_objects (k := default)
        (clearHistory_evolves s).version rfl).minted ih
  | @get s k _ ih =>
      exact (EvolvesAt.of_objects (k := k)
        (get_evolves k s).version (get_objects k s)).minted ih
  | patch modified base _ ih =>
      exact (patch_evolvesAt modified base _).minted ih
  | updateStatus o _ ih =>
      exact (updateStatus_evolvesAt o _).minted ih

end Store

end Reconciler
