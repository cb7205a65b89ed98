import Reconciler.Store

/-
  This file says what each operation of a store can do.

  The view of a store is the object of a key.  A failed
  operation leaves every object as it is; a write touches
  the object of one key only, and gives it the version that
  it took.

  Key theorems include:
    * `Store.get_objects`
    * `Store.modify_cases`
    * `Store.patch_cases`
    * `Store.updateStatus_cases`
-/

------------------------------------------------------------
-- Views
------------------------------------------------------------

namespace Reconciler

namespace Store

/- Stores with the same objects show the same object. -/
theorem object?_congr
    {s s' : Store}
    (hObjects : s'.objects = s.objects)
    (k : Key) :
    s'.object? k = s.object? k :=
  congrArg (Table.get? k) hObjects

theorem object?_place
    (k k' : Key)
    (o : Object)
    (s : Store) :
    (s.place k o).object? k' =
      if k' = k then some o else s.object? k' :=
  Table.get?_put k k' o s.objects

theorem object?_discard
    (k k' : Key)
    (s : Store) :
    (s.discard k).object? k' =
      if k' = k then none else s.object? k' :=
  Table.get?_erase k k' s.objects

/-
  A settled object is stored, unless it is being deleted and
  has no tokens left.
-/
theorem object?_settle
    (k k' : Key)
    (o : Object)
    (s : Store) :
    (s.settle k o).object? k' =
      if k' = k then
        if o.isDeleting && o.metadata.finalizers.isEmpty then
          none
        else some o
      else s.object? k' := by
  unfold settle
  split
  · rw [object?_discard]
  · rw [object?_place]

------------------------------------------------------------
-- Operations
------------------------------------------------------------

/- Fetching changes no object. -/
theorem get_objects
    (k : Key)
    (s : Store) :
    (get k s).2.objects = s.objects := by
  unfold get
  dsimp only
  split
  · rfl
  · split <;> rfl

/- Fetching takes no version. -/
theorem get_version
    (k : Key)
    (s : Store) :
    (get k s).2.version = s.version := by
  unfold get
  dsimp only
  split
  · rfl
  · split <;> rfl

/- A fetched object is the stored one. -/
theorem get_ok
    {k : Key}
    {s : Store}
    {o : Object}
    (hGet : (get k s).1 = .ok o) :
    s.object? k = some o := by
  unfold get at hGet
  dsimp only at hGet
  split at hGet
  · cases hGet
  · split at hGet
    · next o' hObject =>
        cases hGet
        exact hObject
    · cases hGet

/-
  What a change in place does: nothing is stored and nothing
  happens, or the changed object takes the place of the
  stored one.  A version is taken either way.
-/
theorem modify_cases
    (k : Key)
    (f : Object → Object)
    (s : Store) :
    (s.object? k = none ∧
      (s.modify k f).version = s.version + 1 ∧
      (s.modify k f).objects = s.objects) ∨
    (∃ o,
      s.object? k = some o ∧
        (s.modify k f).version = s.version + 1 ∧
        (s.modify k f).objects =
          (s.place k
            ((f o).withVersion
              (versionText (s.version + 1)))).objects) := by
  unfold modify
  simp only [takeVersion]
  split
  · next hMissing => exact .inl ⟨hMissing, rfl, rfl⟩
  · next o hStored => exact .inr ⟨o, hStored, rfl, rfl⟩

/-
  What a patch does: it fails and changes no object, or it
  is empty and changes none, or the patched object takes the
  place of the stored one, at a fresh version.
-/
theorem patch_cases
    (modified base : Object)
    (s : Store) :
    (∃ e,
      (patch modified base s).1 = .error e ∧
        (patch modified base s).2.objects = s.objects) ∨
    (∃ stored,
      s.object? base.key = some stored ∧
        MergePatch.isEmpty (mainPatch modified base) = true ∧
        (patch modified base s).1 = .ok stored ∧
        (patch modified base s).2.version = s.version + 1 ∧
        (patch modified base s).2.objects = s.objects) ∨
    (∃ stored o,
      s.object? base.key = some stored ∧
        MergePatch.isEmpty (mainPatch modified base) = false ∧
        patched? (mainPatch modified base) stored = some o ∧
        (patch modified base s).1 =
          .ok (o.withVersion (versionText (s.version + 1))) ∧
        (patch modified base s).2.version = s.version + 1 ∧
        (patch modified base s).2.objects =
          (s.settle base.key
            (o.withVersion
              (versionText (s.version + 1)))).objects) := by
  unfold patch
  dsimp only
  split
  · exact .inl ⟨_, rfl, rfl⟩
  · simp only [record, takeVersion]
    split
    · exact .inl ⟨_, rfl, rfl⟩
    · next stored hStored =>
        have hObject : s.object? base.key = some stored :=
          hStored
        split
        · next hEmpty =>
            exact .inr (.inl
              ⟨stored, hObject, hEmpty, rfl, rfl, rfl⟩)
        · next hEmpty =>
            have hEmpty :
                MergePatch.isEmpty (mainPatch modified base) =
                  false :=
              Bool.eq_false_iff.mpr hEmpty
            split
            · exact .inl ⟨_, rfl, rfl⟩
            · next o hPatched =>
                refine .inr (.inr
                  ⟨stored, o, hObject, hEmpty, hPatched, rfl,
                    ?_, ?_⟩)
                · unfold settle
                  split <;> rfl
                · unfold settle
                  split <;> rfl

/- A patch that fails changes no object. -/
theorem patch_error
    {modified base : Object}
    {s : Store}
    {e : StoreError}
    (hPatch : (patch modified base s).1 = .error e) :
    (patch modified base s).2.objects = s.objects := by
  rcases patch_cases modified base s with
    ⟨_, _, hObjects⟩ | ⟨_, _, _, hOk, _⟩ |
    ⟨_, _, _, _, _, hOk, _⟩
  · exact hObjects
  · rw [hPatch] at hOk
    cases hOk
  · rw [hPatch] at hOk
    cases hOk

/- A patch takes at most one version. -/
theorem patch_version
    (modified base : Object)
    (s : Store) :
    s.version ≤ (patch modified base s).2.version := by
  unfold patch
  dsimp only
  split
  · exact Nat.le_refl _
  · simp only [record, takeVersion]
    split
    · exact Nat.le_succ _
    · split
      · exact Nat.le_succ _
      · split
        · exact Nat.le_succ _
        · unfold settle
          split <;> exact Nat.le_succ _

/-
  What a status update does if a failure is queued: it fails
  with that failure.
-/
theorem updateStatus_failing
    {o : Object}
    {s : Store}
    {e : StoreError}
    {rest : List StoreError}
    (hFailures : s.statusFailures = e :: rest) :
    (updateStatus o s).1 = .error e ∧
      (updateStatus o s).2.objects = s.objects := by
  unfold updateStatus
  rw [hFailures]
  exact ⟨rfl, rfl⟩

/- A status update of a missing object fails. -/
theorem updateStatus_missing
    {o : Object}
    {s : Store}
    (hFailures : s.statusFailures = [])
    (hMissing : s.object? o.key = none) :
    (updateStatus o s).1 = .error (.notFound o.key) ∧
      (updateStatus o s).2.objects = s.objects := by
  have hObject :
      { s with version := s.version + 1 }.object? o.key =
        none :=
    hMissing
  unfold updateStatus
  rw [hFailures]
  simp only [takeVersion, hObject]
  exact ⟨trivial, trivial⟩

/- A status update at another version is a conflict. -/
theorem updateStatus_stale
    {o old : Object}
    {s : Store}
    (hFailures : s.statusFailures = [])
    (hOld : s.object? o.key = some old)
    (hStale :
      o.metadata.resourceVersion ≠
        old.metadata.resourceVersion) :
    (updateStatus o s).1 =
        .error (.conflict o.key
          (staleDetail o.metadata.resourceVersion
            old.metadata.resourceVersion)) ∧
      (updateStatus o s).2.objects = s.objects := by
  have hObject :
      { s with version := s.version + 1 }.object? o.key =
        some old :=
    hOld
  unfold updateStatus
  rw [hFailures]
  simp only [takeVersion, hObject, if_neg hStale]
  exact ⟨trivial, trivial⟩

/-
  A status update at the stored version replaces the status,
  at a fresh version.
-/
theorem updateStatus_current
    {o old : Object}
    {s : Store}
    (hFailures : s.statusFailures = [])
    (hOld : s.object? o.key = some old)
    (hCurrent :
      o.metadata.resourceVersion =
        old.metadata.resourceVersion) :
    (updateStatus o s).1 =
        .ok ((old.mapStatus (fun _ => o.status)).withVersion
          (versionText (s.version + 1))) ∧
      (updateStatus o s).2.version = s.version + 1 ∧
      (updateStatus o s).2.objects =
        Table.put o.key
          ((old.mapStatus (fun _ => o.status)).withVersion
            (versionText (s.version + 1))) s.objects := by
  have hObject :
      { s with version := s.version + 1 }.object? o.key =
        some old :=
    hOld
  unfold updateStatus
  rw [hFailures]
  simp only [takeVersion, hObject, if_pos hCurrent]
  exact ⟨trivial, rfl, rfl⟩

/-
  What a status update does: it fails and changes no object,
  or the stored object has the version of the given one and
  takes its status, at a fresh version.
-/
theorem updateStatus_cases
    (o : Object)
    (s : Store) :
    (∃ e,
      (updateStatus o s).1 = .error e ∧
        (updateStatus o s).2.objects = s.objects) ∨
    (∃ old stored,
      s.object? o.key = some old ∧
        stored =
          (old.mapStatus (fun _ => o.status)).withVersion
            (versionText (s.version + 1)) ∧
        (updateStatus o s).1 = .ok stored ∧
        (updateStatus o s).2.version = s.version + 1 ∧
        (updateStatus o s).2.objects =
          Table.put o.key stored s.objects) := by
  cases hFailures : s.statusFailures with
  | cons e rest =>
      exact .inl ⟨e, updateStatus_failing hFailures⟩
  | nil =>
      cases hObject : s.object? o.key with
      | none =>
          exact .inl
            ⟨_, updateStatus_missing hFailures hObject⟩
      | some old =>
          by_cases hCurrent :
              o.metadata.resourceVersion =
                old.metadata.resourceVersion
          · exact .inr
              ⟨old, _, rfl, rfl,
                updateStatus_current hFailures hObject
                  hCurrent⟩
          · exact .inl
              ⟨_, updateStatus_stale hFailures hObject
                hCurrent⟩

/- A status update takes at most one version. -/
theorem updateStatus_version
    (o : Object)
    (s : Store) :
    s.version ≤ (updateStatus o s).2.version := by
  unfold updateStatus
  dsimp only
  split
  · exact Nat.le_refl _
  · simp only [takeVersion]
    split
    · exact Nat.le_succ _
    · split <;> exact Nat.le_succ _

/- What a status update stores is the given status. -/
theorem updateStatus_ok
    {o stored : Object}
    {s : Store}
    (hUpdate : (updateStatus o s).1 = .ok stored) :
    (updateStatus o s).2.object? o.key = some stored ∧
      stored.status = o.status := by
  rcases updateStatus_cases o s with
    ⟨e, hError, _⟩ |
    ⟨old, stored', _, hStored, hOk, _, hObjects⟩
  · rw [hUpdate] at hError
    cases hError
  · rw [hUpdate] at hOk
    cases hOk
    constructor
    · change Table.get? o.key _ = _
      rw [hObjects, Table.get?_put, if_pos rfl]
    · rw [hStored]
      rfl

/- A status update succeeds only at the stored version. -/
theorem updateStatus_ok_version
    {o stored : Object}
    {s : Store}
    (hUpdate : (updateStatus o s).1 = .ok stored) :
    ∃ old,
      s.object? o.key = some old ∧
        old.metadata.resourceVersion =
          o.metadata.resourceVersion := by
  cases hFailures : s.statusFailures with
  | cons e rest =>
      rw [(updateStatus_failing hFailures).1] at hUpdate
      cases hUpdate
  | nil =>
      cases hObject : s.object? o.key with
      | none =>
          rw [(updateStatus_missing hFailures hObject).1]
            at hUpdate
          cases hUpdate
      | some old =>
          refine ⟨old, rfl, Decidable.byContradiction ?_⟩
          intro hStale
          rw [(updateStatus_stale hFailures hObject
            (Ne.symm hStale)).1] at hUpdate
          cases hUpdate

end Store

end Reconciler
