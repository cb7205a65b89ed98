import Reconciler.Proofs.Store.Operations

/-
  This file gives the discipline of resource versions.

  Versions are numbered, and every write takes a number that
  was not handed out before.  Hence a store that evolves,
  whoever writes, shows an object as it was or at a fresh
  version: two equal versions are one and the same object.

  Key definitions include:
    * `Store.Versioned`
    * `Store.Keyed`
    * `Store.Evolves`

  Key theorems include:
    * `Store.Evolves.trans`
    * `Store.Evolves.versioned`
    * `Store.patch_evolves`
-/

------------------------------------------------------------
-- Versions
------------------------------------------------------------

namespace Reconciler

namespace Store

/- The text of a version tells its number. -/
theorem versionText_inj
    {a b : Nat}
    (hText : versionText a = versionText b) :
    a = b := by
  have hRepr : a.repr = b.repr := by
    unfold versionText at hText
    rw [Nat.toString_eq_repr, Nat.toString_eq_repr] at hText
    exact Option.some.inj hText
  have hDigits : Nat.toDigits 10 a = Nat.toDigits 10 b := by
    rw [← Nat.toList_repr, ← Nat.toList_repr, hRepr]
  have hNumber :=
    congrArg (fun ds => Nat.ofDigitChars 10 ds 0) hDigits
  simpa using hNumber

/- Every stored object has a version handed out before. -/
def Versioned
    (s : Store) : Prop :=
  ∀ k o, s.object? k = some o →
    ∃ n,
      n ≤ s.version ∧
        o.metadata.resourceVersion = versionText n

/- Every object is stored under its own key. -/
def Keyed
    (s : Store) : Prop :=
  ∀ k o, s.object? k = some o → o.key = k

/-
  What a store can become: each object stays, goes away, or
  is written at a version that was not handed out before.
-/
structure Evolves
    (s s' : Store) : Prop where
  version : s.version ≤ s'.version
  object :
    ∀ k o, s'.object? k = some o →
      s.object? k = some o ∨
        ∃ n,
          s.version < n ∧ n ≤ s'.version ∧
            o.metadata.resourceVersion = versionText n

namespace Evolves

theorem refl
    (s : Store) :
    Evolves s s where
  version := Nat.le_refl _
  object := fun _ _ hObject => .inl hObject

theorem trans
    {s s' s'' : Store}
    (hFirst : Evolves s s')
    (hSecond : Evolves s' s'') :
    Evolves s s'' where
  version := Nat.le_trans hFirst.version hSecond.version
  object := by
    intro k o hObject
    rcases hSecond.object k o hObject with
      hOld | ⟨n, hFresh, hBound, hVersion⟩
    · rcases hFirst.object k o hOld with
        hOlder | ⟨n, hFresh, hBound, hVersion⟩
      · exact .inl hOlder
      · exact .inr ⟨n, hFresh,
          Nat.le_trans hBound hSecond.version, hVersion⟩
    · exact .inr
        ⟨n, Nat.lt_of_le_of_lt hFirst.version hFresh,
          hBound, hVersion⟩

/- A store that evolves keeps its versions in order. -/
theorem versioned
    {s s' : Store}
    (hEvolves : Evolves s s')
    (hVersioned : s.Versioned) :
    s'.Versioned := by
  intro k o hObject
  rcases hEvolves.object k o hObject with
    hOld | ⟨n, _, hBound, hVersion⟩
  · rcases hVersioned k o hOld with ⟨n, hBound, hVersion⟩
    exact ⟨n, Nat.le_trans hBound hEvolves.version, hVersion⟩
  · exact ⟨n, hBound, hVersion⟩

/-
  An object at a version that had been handed out was there
  already.
-/
theorem object_of_old_version
    {s s' : Store}
    (hEvolves : Evolves s s')
    {k : Key}
    {o : Object}
    {n : Nat}
    (hObject : s'.object? k = some o)
    (hVersion : o.metadata.resourceVersion = versionText n)
    (hOld : n ≤ s.version) :
    s.object? k = some o := by
  rcases hEvolves.object k o hObject with
    hSame | ⟨fresh, hFresh, _, hText⟩
  · exact hSame
  · rw [hVersion] at hText
    have hSame := versionText_inj hText
    omega

/- Nothing happens where no object is written. -/
theorem of_objects
    {s s' : Store}
    (hVersion : s.version ≤ s'.version)
    (hObjects : s'.objects = s.objects) :
    Evolves s s' where
  version := hVersion
  object := by
    intro k o hObject
    rw [object?_congr hObjects] at hObject
    exact .inl hObject

/- A write of one object at the next version. -/
theorem of_place
    {s s' : Store}
    {k : Key}
    {o : Object}
    (hVersion : s'.version = s.version + 1)
    (hObjects :
      s'.objects =
        (s.place k
          (o.withVersion
            (versionText (s.version + 1)))).objects) :
    Evolves s s' where
  version := by omega
  object := by
    intro k' o' hObject
    rw [object?_congr hObjects, object?_place] at hObject
    split at hObject
    · cases hObject
      exact .inr ⟨s.version + 1, by omega, by omega, rfl⟩
    · exact .inl hObject

end Evolves

------------------------------------------------------------
-- Operations
------------------------------------------------------------

theorem empty_versioned :
    ({} : Store).Versioned := by
  intro k o hObject
  cases hObject

theorem empty_keyed :
    ({} : Store).Keyed := by
  intro k o hObject
  cases hObject

/- An object is inserted under its own key. -/
theorem Keyed.insert
    {s : Store}
    (hKeyed : s.Keyed)
    (o : Object) :
    (s.insert o).Keyed := by
  intro k stored hStored
  unfold Store.insert at hStored
  simp only [takeVersion] at hStored
  rw [object?_place] at hStored
  split at hStored
  · next hKey =>
      cases hStored
      exact hKey.symm
  · exact hKeyed k stored hStored

theorem insert_evolves
    (o : Object)
    (s : Store) :
    Evolves s (s.insert o) :=
  .of_place (k := o.key) (o := o) rfl rfl

theorem modify_evolves
    (k : Key)
    (f : Object → Object)
    (s : Store) :
    Evolves s (s.modify k f) := by
  rcases modify_cases k f s with
    ⟨_, hVersion, hObjects⟩ | ⟨o, _, hVersion, hObjects⟩
  · exact .of_objects (by omega) hObjects
  · exact .of_place hVersion hObjects

theorem failNext_evolves
    (operation : StoreOperation)
    (e : StoreError)
    (s : Store) :
    Evolves s (s.failNext operation e) := by
  cases operation with
  | get => exact .of_objects (Nat.le_refl _) rfl
  | patch => exact .of_objects (Nat.le_refl _) rfl
  | status => exact .of_objects (Nat.le_refl _) rfl

theorem clearHistory_evolves
    (s : Store) :
    Evolves s s.clearHistory :=
  .of_objects (Nat.le_refl _) rfl

theorem get_evolves
    (k : Key)
    (s : Store) :
    Evolves s (get k s).2 :=
  .of_objects (Nat.le_of_eq (get_version k s).symm)
    (get_objects k s)

theorem patch_evolves
    (modified base : Object)
    (s : Store) :
    Evolves s (patch modified base s).2 := by
  have hVersion := patch_version modified base s
  rcases patch_cases modified base s with
    ⟨e, _, hObjects⟩ |
    ⟨stored, _, _, _, _, hObjects⟩ |
    ⟨stored, o, _, _, _, _, hNext, hObjects⟩
  · exact .of_objects hVersion hObjects
  · exact .of_objects hVersion hObjects
  · refine ⟨hVersion, ?_⟩
    intro k o' hObject
    rw [object?_congr hObjects, object?_settle] at hObject
    split at hObject
    · split at hObject
      · cases hObject
      · cases hObject
        exact .inr
          ⟨s.version + 1, by omega, by omega, rfl⟩
    · exact .inl hObject

/- A fetch hands back the version of the stored object. -/
theorem get_ok_version
    {k : Key}
    {o : Object}
    {s s' : Store}
    (hVersioned : s.Versioned)
    (hGet : get k s = (.ok o, s')) :
    ∃ n,
      o.metadata.resourceVersion = versionText n ∧
        n ≤ s'.version ∧
        ∀ o', s'.object? k = some o' →
          o'.metadata.resourceVersion =
            o.metadata.resourceVersion := by
  have hObject : s.object? k = some o :=
    get_ok (congrArg Prod.fst hGet)
  have hStore : (get k s).2 = s' := congrArg Prod.snd hGet
  rcases hVersioned k o hObject with ⟨n, hBound, hText⟩
  refine ⟨n, hText, ?_, ?_⟩
  · rw [← hStore]
    exact Nat.le_trans hBound (get_evolves k s).version
  · intro o' hSame
    rw [← hStore, object?_congr (get_objects k s),
      hObject] at hSame
    cases hSame
    rfl

/-
  So does a patch that succeeds, whether or not it changes
  the object.
-/
theorem patch_ok_version
    {modified base stored : Object}
    {s s' : Store}
    (hVersioned : s.Versioned)
    (hPatch : patch modified base s = (.ok stored, s')) :
    ∃ n,
      stored.metadata.resourceVersion = versionText n ∧
        n ≤ s'.version ∧
        ∀ o, s'.object? base.key = some o →
          o.metadata.resourceVersion =
            stored.metadata.resourceVersion := by
  have hResult : (patch modified base s).1 = .ok stored :=
    congrArg Prod.fst hPatch
  have hStore : (patch modified base s).2 = s' :=
    congrArg Prod.snd hPatch
  rcases patch_cases modified base s with
    ⟨e, hError, _⟩ |
    ⟨old, hOld, _, hOk, _, hObjects⟩ |
    ⟨old, new, _, _, _, hOk, hNext, hObjects⟩
  · rw [hResult] at hError
    cases hError
  · rw [hResult] at hOk
    cases hOk
    rcases hVersioned base.key stored hOld with
      ⟨n, hBound, hText⟩
    refine ⟨n, hText, ?_, ?_⟩
    · rw [← hStore]
      exact Nat.le_trans hBound
        (patch_evolves modified base s).version
    · intro o hObject
      rw [← hStore, object?_congr hObjects, hOld] at hObject
      cases hObject
      rfl
  · rw [hResult] at hOk
    cases hOk
    rw [hStore] at hObjects hNext
    refine
      ⟨s.version + 1, rfl, Nat.le_of_eq hNext.symm, ?_⟩
    intro o hObject
    rw [object?_congr hObjects, object?_settle, if_pos rfl]
      at hObject
    split at hObject
    · cases hObject
    · cases hObject
      rfl

theorem updateStatus_evolves
    (o : Object)
    (s : Store) :
    Evolves s (updateStatus o s).2 := by
  rcases updateStatus_cases o s with
    ⟨e, _, hObjects⟩ |
    ⟨old, stored, _, hStored, _, hNext, hObjects⟩
  · exact .of_objects (updateStatus_version o s) hObjects
  · rw [hStored] at hObjects
    exact .of_place hNext hObjects

end Store

end Reconciler
