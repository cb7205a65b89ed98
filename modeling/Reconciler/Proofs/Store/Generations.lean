import Reconciler.Proofs.Store.Built
import Reconciler.Proofs.Store.Labels

/-
  This file compares the generation of a stored object with
  the one that its status has observed.

  Other writers may raise the generation, and they leave the
  observed one alone.  A run that has fetched an object keeps
  the stored generation in each of its writes, and writes no
  observed generation but that of the fetched object, or that
  which the fetched object had observed.

  Key definitions include:
    * `Object.Raised`
    * `Object.Passes`
    * `Store.Sound`
    * `Store.Raises`
    * `Store.Passes`

  Key theorems include:
    * `Store.Passes.trans`
    * `Store.patch_tokens_passes`
    * `Store.patch_label_passes`
    * `Store.updateStatus_passes`
-/

------------------------------------------------------------
-- Objects
------------------------------------------------------------

namespace Reconciler

/-
  What another writer may make of an object: its generation
  does not go down, and its status observes the same one.  It
  stays plain or not, as a store holds objects of one type.
-/
structure Object.Raised
    (x x' : Object) : Prop where
  plain : x'.kind = .plain ↔ x.kind = .plain
  generation :
    x.metadata.generation ≤ x'.metadata.generation
  observed :
    x'.status.observedGeneration =
      x.status.observedGeneration

/-
  What others, and a run that has fetched an object, may make
  of what is stored.
-/
structure Object.Passes
    (o x x' : Object) : Prop where
  plain : x'.kind = .plain ↔ x.kind = .plain
  generation :
    x.metadata.generation ≤ x'.metadata.generation
  observed :
    x'.status.observedGeneration =
        x.status.observedGeneration ∨
      x'.status.observedGeneration =
        o.status.observedGeneration ∨
      x'.status.observedGeneration = o.metadata.generation

theorem Object.Passes.refl
    (o x : Object) :
    o.Passes x x where
  plain := Iff.rfl
  generation := Int64.le_refl _
  observed := .inl rfl

theorem Object.Passes.trans
    {o x x' x'' : Object}
    (hFirst : o.Passes x x')
    (hSecond : o.Passes x' x'') :
    o.Passes x x'' where
  plain := hSecond.plain.trans hFirst.plain
  generation :=
    Int64.le_trans hFirst.generation hSecond.generation
  observed := by
    rcases hSecond.observed with hSame | hNew
    · rw [hSame]
      exact hFirst.observed
    · exact .inr hNew

theorem Object.Raised.passes
    {x x' : Object}
    (hRaised : x.Raised x')
    (o : Object) :
    o.Passes x x' where
  plain := hRaised.plain
  generation := hRaised.generation
  observed := .inl hRaised.observed

/-
  The JSON form of an object that is not plain keeps what its
  status has observed.
-/
theorem Object.persisted_observed
    {x : Object}
    (hPlain : x.kind ≠ .plain) :
    x.persisted.status.observedGeneration =
      x.status.observedGeneration := by
  rcases x with ⟨kind, m, s⟩
  cases kind with
  | full => rfl
  | plain => exact absurd rfl hPlain
  | listed _ => rfl

/- So a patch of other metadata passes. -/
theorem Object.passes_patched
    {o x : Object}
    {f : Metadata → Metadata}
    (hPlain : x.kind ≠ .plain)
    (hGeneration :
      (f x.metadata).generation = x.metadata.generation) :
    o.Passes x (x.persisted.mapMetadata f) where
  plain := by
    change x.persisted.kind = .plain ↔ _
    rw [x.persisted_kind]
  generation := by
    change _ ≤ (f x.persisted.metadata).generation
    rw [x.persisted_metadata, hGeneration]
    exact Int64.le_refl _
  observed := .inl (persisted_observed hPlain)

------------------------------------------------------------
-- Stores
------------------------------------------------------------

namespace Store

/- No status has observed a generation that is yet to come. -/
def Sound
    (k : Key)
    (s : Store) : Prop :=
  ∀ x, s.object? k = some x →
    x.status.observedGeneration ≤ x.metadata.generation

/-
  Other writers may raise the generation of the object of a
  key, or remove it.
-/
def Raises
    (k : Key)
    (s s' : Store) : Prop :=
  ∀ x', s'.object? k = some x' →
    ∃ x, s.object? k = some x ∧ x.Raised x'

/- What others, and a run on an object, may do to a store. -/
def Passes
    (k : Key)
    (o : Object)
    (s s' : Store) : Prop :=
  ∀ x', s'.object? k = some x' →
    ∃ x, s.object? k = some x ∧ o.Passes x x'

section Passes

variable {k : Key}
variable {o : Object}
variable {s s' s'' : Store}

theorem Raises.passes
    (hRaises : s.Raises k s')
    (o : Object) :
    s.Passes k o s' := by
  intro x' hObject
  rcases hRaises x' hObject with ⟨x, hOld, hRaised⟩
  exact ⟨x, hOld, hRaised.passes o⟩

/- Raising a generation keeps a store sound. -/
theorem Raises.sound
    (hRaises : s.Raises k s')
    (hSound : s.Sound k) :
    s'.Sound k := by
  intro x' hObject
  rcases hRaises x' hObject with ⟨x, hOld, hRaised⟩
  rw [hRaised.observed]
  exact Int64.le_trans (hSound x hOld) hRaised.generation

theorem Passes.of_same
    (hSame : s'.object? k = s.object? k) :
    s.Passes k o s' :=
  fun x' hObject =>
    ⟨x', hSame.symm.trans hObject, .refl o x'⟩

theorem Raises.of_same
    (hSame : s'.object? k = s.object? k) :
    s.Raises k s' := by
  intro x' hObject
  exact ⟨x', hSame.symm.trans hObject,
    ⟨Iff.rfl, Int64.le_refl _, rfl⟩⟩

/- A change in place that raises an object's generation. -/
theorem Raises.modify
    {κ : Key}
    {f : Object → Object}
    (hRaised : ∀ x : Object, x.Raised (f x)) :
    s.Raises k (s.modify κ f) := by
  rcases modify_cases κ f s with
    ⟨_, _, hObjects⟩ | ⟨x, hOld, _, hObjects⟩
  · exact .of_same (object?_congr hObjects k)
  · intro x' hObject
    rw [object?_congr hObjects, object?_place] at hObject
    split at hObject
    · next hKey =>
        cases hObject
        rw [hKey]
        have hChange := hRaised x
        exact ⟨x, hOld, hChange.plain, hChange.generation,
          hChange.observed⟩
    · exact ⟨x', hObject, Iff.rfl, Int64.le_refl _, rfl⟩

theorem Passes.refl
    (k : Key)
    (o : Object)
    (s : Store) :
    s.Passes k o s :=
  .of_same rfl

theorem Passes.trans
    (hFirst : s.Passes k o s')
    (hSecond : s'.Passes k o s'') :
    s.Passes k o s'' := by
  intro x'' hObject
  rcases hSecond x'' hObject with ⟨x', hNext, hLater⟩
  rcases hFirst x' hNext with ⟨x, hOld, hEarlier⟩
  exact ⟨x, hOld, hEarlier.trans hLater⟩

/-
  From the fetched object on, the stored generation is not
  below the fetched one, and that is not below the one that
  has been observed.
-/
theorem Passes.bounds
    {x : Object}
    (hPasses : s.Passes k o s')
    (hFetched : s.object? k = some o)
    (hSound : s.Sound k)
    (hObject : s'.object? k = some x) :
    x.status.observedGeneration ≤ o.metadata.generation ∧
      o.metadata.generation ≤ x.metadata.generation := by
  have hOld := hSound o hFetched
  rcases hPasses x hObject with ⟨x', hStart, hChange⟩
  cases hFetched.symm.trans hStart
  refine ⟨?_, hChange.generation⟩
  rcases hChange.observed with hSame | hSame | hNew
  · rw [hSame]
    exact hOld
  · rw [hSame]
    exact hOld
  · rw [hNew]
    exact Int64.le_refl _

theorem Passes.sound
    (hPasses : s.Passes k o s')
    (hFetched : s.object? k = some o)
    (hSound : s.Sound k) :
    s'.Sound k := by
  intro x hObject
  have hBounds := hPasses.bounds hFetched hSound hObject
  exact Int64.le_trans hBounds.1 hBounds.2

/- Settling what a stored object becomes. -/
theorem Passes.of_settle
    {κ : Key}
    {x x' : Object}
    (hOld : s.object? κ = some x)
    (hChange : κ = k → o.Passes x x')
    (hObjects : s'.objects = (s.settle κ x').objects) :
    s.Passes k o s' := by
  by_cases hKey : k = κ
  · subst hKey
    intro y hObject
    rw [object?_congr hObjects, object?_settle,
      if_pos rfl] at hObject
    split at hObject
    · cases hObject
    · cases hObject
      exact ⟨x, hOld, hChange rfl⟩
  · apply Passes.of_same
    rw [object?_congr hObjects, object?_settle, if_neg hKey]

------------------------------------------------------------
-- Writes of a Run
------------------------------------------------------------

/- A patch of tokens passes. -/
theorem patch_tokens_passes
    (base : Object)
    (fs : List String)
    (hPlain : ∀ x, s.object? k = some x → x.kind ≠ .plain) :
    s.Passes k o
      (patch (base.withFinalizers fs) base s).2 := by
  rcases patch_cases (base.withFinalizers fs) base s with
    ⟨_, _, hObjects⟩ | ⟨_, _, _, _, _, hObjects⟩ |
    ⟨x, x', hOld, hChanges, hPatched, _, _, hObjects⟩
  · exact .of_same (object?_congr hObjects k)
  · exact .of_same (object?_congr hObjects k)
  · rw [mainPatch_withFinalizers] at hChanges hPatched
    split at hPatched
    · next hSame =>
        rw [if_pos hSame] at hChanges
        cases hChanges
    · rw [patched?_withFinalizers] at hPatched
      cases hPatched
      refine Passes.of_settle hOld ?_ hObjects
      intro hKey
      rw [hKey] at hOld
      exact Object.passes_patched (hPlain x hOld)
        (f := fun m =>
          { m with
            finalizers := fs
            resourceVersion := versionText (s.version + 1) })
        rfl

/- So does the removal of the refresh label. -/
theorem patch_label_passes
    {base : Object}
    (hLabel : base.metadata.hasRefreshLabel = true)
    (hPlain : ∀ x, s.object? k = some x → x.kind ≠ .plain) :
    s.Passes k o
      (patch (base.mapMetadata (·.removeRefreshLabel)) base
        s).2 := by
  generalize hPatch :
    patch (base.mapMetadata (·.removeRefreshLabel)) base s =
      r
  rcases r with ⟨r, s'⟩
  cases r with
  | error e =>
      have hObjects := patch_error (congrArg Prod.fst hPatch)
      rw [hPatch] at hObjects
      exact .of_same (object?_congr hObjects k)
  | ok x' =>
      rcases patch_label_ok hLabel hPatch with
        ⟨x, labels, version, hOld, _, hNew, hObjects⟩
      refine Passes.of_settle hOld ?_ hObjects
      intro hKey
      rw [hKey] at hOld
      rw [hNew]
      exact Object.passes_patched (hPlain x hOld)
        (f := fun m =>
          { m with
            labels := labels
            resourceVersion := version })
        rfl

/- And so does a status that observes no other generation. -/
theorem updateStatus_passes
    {obj : Object}
    (hObserved :
      obj.status.observedGeneration =
          o.status.observedGeneration ∨
        obj.status.observedGeneration =
          o.metadata.generation)
    (s : Store) :
    s.Passes k o (updateStatus obj s).2 := by
  rcases updateStatus_cases obj s with
    ⟨_, _, hObjects⟩ |
    ⟨x, x', hOld, hNew, _, _, hObjects⟩
  · exact .of_same (object?_congr hObjects k)
  · intro y hObject
    change Table.get? k (updateStatus obj s).2.objects = _
      at hObject
    rw [hObjects, Table.get?_put] at hObject
    split at hObject
    · next hKey =>
        cases hObject
        refine ⟨x, hKey ▸ hOld, ?_⟩
        rw [hNew]
        exact
          { plain := Iff.rfl
            generation := Int64.le_refl _
            observed := .inr hObserved }
    · exact ⟨y, hObject, .refl o y⟩

end Passes

end Store

end Reconciler
