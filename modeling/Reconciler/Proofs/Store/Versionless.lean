import Reconciler.Proofs.Store.Built
import Reconciler.Proofs.Store.Labels

/-
  This file compares two stores that show the same object of
  a key but for its resource version.

  The other objects and the versions handed out so far may
  differ.  A fetch and a write to the key go through in both
  stores or in none, and leave them showing the same again.

  Key definitions include:
    * `Object.unversioned`
    * `Store.shown?`
    * `Store.IsAt`
    * `Store.Matches`
    * `Store.WritesAt`

  Key theorems include:
    * `Store.patch_matches`
    * `Store.patch_tokens_matches`
    * `Store.patch_label_matches`
    * `Store.updateStatus_matches`
-/

------------------------------------------------------------
-- Objects without Versions
------------------------------------------------------------

namespace Reconciler

open MergePatch

/- An object without its resource version. -/
def Object.unversioned
    (o : Object) : Object :=
  o.withVersion none

/- Objects that are the same but for the version. -/
theorem Object.eq_withVersion
    {o o' : Object}
    (hSame : o'.unversioned = o.unversioned) :
    o' = o.withVersion o'.metadata.resourceVersion := by
  have hVersioned := congrArg
    (fun x => x.withVersion o'.metadata.resourceVersion)
    hSame
  exact hVersioned

namespace Store

variable {k : Key}
variable {s t : Store}

/- The object of a key, without its resource version. -/
def shown?
    (k : Key)
    (s : Store) : Option Object :=
  (s.object? k).map Object.unversioned

/- The object of a key is at a version, if there is one. -/
def IsAt
    (k : Key)
    (version : Option String)
    (s : Store) : Prop :=
  ∀ o, s.object? k = some o →
    o.metadata.resourceVersion = version

theorem shown?_congr
    (hObject : t.object? k = s.object? k) :
    t.shown? k = s.shown? k :=
  congrArg (Option.map Object.unversioned) hObject

theorem IsAt.congr
    {version : Option String}
    (hAt : s.IsAt k version)
    (hObject : t.object? k = s.object? k) :
    t.IsAt k version :=
  fun o hStored => hAt o (hObject.symm.trans hStored)

/-
  Two stores that show the same hold no object, or two that
  differ in their versions.
-/
theorem shown?_cases
    (hShown : t.shown? k = s.shown? k) :
    (s.object? k = none ∧ t.object? k = none) ∨
      ∃ o version,
        s.object? k = some o ∧
          t.object? k = some (o.withVersion version) := by
  unfold shown? at hShown
  cases hLeft : s.object? k with
  | none =>
      rw [hLeft] at hShown
      exact .inl ⟨rfl, Option.map_eq_none_iff.mp hShown⟩
  | some o =>
      rw [hLeft] at hShown
      rcases Option.map_eq_some_iff.mp hShown with
        ⟨o', hRight, hSame⟩
      rw [hRight, o.eq_withVersion hSame]
      exact .inr ⟨o, _, rfl, rfl⟩

theorem shown?_settle
    (o : Object)
    (s : Store) :
    (s.settle k o).shown? k =
      if o.isDeleting && o.metadata.finalizers.isEmpty then
        none
      else some o.unversioned := by
  unfold shown?
  rw [object?_settle, if_pos rfl]
  split <;> rfl

theorem isAt_settle
    (o : Object)
    (s : Store) :
    (s.settle k o).IsAt k o.metadata.resourceVersion := by
  intro o' hStored
  rw [object?_settle, if_pos rfl] at hStored
  split at hStored
  · cases hStored
  · cases hStored
    rfl

------------------------------------------------------------
-- Operations that Match
------------------------------------------------------------

/-
  What two stores make of the same operation on a key: both
  miss the object; or both hand back an object at the
  version of what they hold, and show the same.
-/
inductive Matches
    (k : Key)
    (x y : Except StoreError Object × Store) : Prop where
  | missing
      (hLeft : x.1 = .error (.notFound k))
      (hRight : y.1 = .error (.notFound k))
      (hGone : x.2.object? k = none)
      (hGone' : y.2.object? k = none) :
      Matches k x y
  | written
      {o : Object}
      {version : Option String}
      (hLeft : x.1 = .ok o)
      (hRight : y.1 = .ok (o.withVersion version))
      (hShown : y.2.shown? k = x.2.shown? k)
      (hAt : x.2.IsAt k o.metadata.resourceVersion)
      (hAt' : y.2.IsAt k version) :
      Matches k x y

/- Either way the two stores show the same. -/
theorem Matches.shown
    {x y : Except StoreError Object × Store}
    (hMatches : Matches k x y) :
    y.2.shown? k = x.2.shown? k := by
  cases hMatches with
  | missing _ _ hGone hGone' =>
      exact shown?_congr (hGone'.trans hGone.symm)
  | written _ _ hShown _ _ => exact hShown

/- A fetch finds an object in both stores, or in none. -/
theorem get_matches
    (hQuiet : s.Quiet)
    (hQuiet' : t.Quiet)
    (hShown : t.shown? k = s.shown? k) :
    Matches k (get k s) (get k t) := by
  have hObject := object?_congr (get_objects k s) k
  have hObject' := object?_congr (get_objects k t) k
  rcases shown?_cases hShown with
    ⟨hNone, hNone'⟩ | ⟨o, version, hStored, hStored'⟩
  · exact .missing (hQuiet.get_missing hNone)
      (hQuiet'.get_missing hNone') (hObject.trans hNone)
      (hObject'.trans hNone')
  · apply Matches.written (hQuiet.get_ok hStored)
      (hQuiet'.get_ok hStored')
    · rw [shown?_congr hObject, shown?_congr hObject', hShown]
    · intro x hFound
      cases hFound.symm.trans (hObject.trans hStored)
      rfl
    · intro x hFound
      cases hFound.symm.trans (hObject'.trans hStored')
      rfl

/-
  What a patch makes of an object does not depend on the
  version of the object, and it can be read.
-/
def Blind
    (patch : Json) : Prop :=
  ∀ o : Object, ∃ o' : Object, ∀ version,
    patched? patch (o.withVersion version) =
      some (o'.withVersion version)

/- A patch of a missing object fails. -/
theorem patch_missing
    {base : Object}
    (modified : Object)
    (hQueue : s.patchFailures = [])
    (hMissing : s.object? base.key = none) :
    (patch modified base s).1 = .error (.notFound base.key) ∧
      (patch modified base s).2.objects = s.objects := by
  unfold patch
  dsimp only
  rw [hQueue]
  simp only [record, takeVersion]
  split
  · exact ⟨rfl, rfl⟩
  · next found hFound =>
      cases hMissing.symm.trans hFound

/- A patch of nothing hands the stored object back. -/
theorem patch_nothing
    {modified base stored : Object}
    (hQueue : s.patchFailures = [])
    (hStored : s.object? base.key = some stored)
    (hEmpty :
      MergePatch.isEmpty (mainPatch modified base) = true) :
    (patch modified base s).1 = .ok stored ∧
      (patch modified base s).2.objects = s.objects := by
  unfold patch
  dsimp only
  rw [hQueue]
  simp only [record, takeVersion]
  split
  · next hNone => cases hStored.symm.trans hNone
  · next found hFound =>
      cases hStored.symm.trans hFound
      rw [if_pos hEmpty]
      exact ⟨rfl, rfl⟩

/-
  The same patch of the same key, which is blind to the
  version of the object unless it is empty.
-/
theorem patch_matches
    {modified base modified' base' : Object}
    (hQueue : s.patchFailures = [])
    (hQueue' : t.patchFailures = [])
    (hKey : base.key = k)
    (hKey' : base'.key = k)
    (hSame :
      mainPatch modified' base' = mainPatch modified base)
    (hBlind :
      MergePatch.isEmpty (mainPatch modified base) = false →
        Blind (mainPatch modified base))
    (hShown : t.shown? k = s.shown? k) :
    Matches k (patch modified base s)
      (patch modified' base' t) := by
  rcases shown?_cases hShown with
    ⟨hNone, hNone'⟩ | ⟨o, version, hStored, hStored'⟩
  · rw [← hKey] at hNone
    rw [← hKey'] at hNone'
    have hMissing := patch_missing modified hQueue hNone
    have hMissing' := patch_missing modified' hQueue' hNone'
    rw [hKey] at hMissing hNone
    rw [hKey'] at hMissing' hNone'
    exact .missing hMissing.1 hMissing'.1
      ((object?_congr hMissing.2 k).trans hNone)
      ((object?_congr hMissing'.2 k).trans hNone')
  rw [← hKey] at hStored
  rw [← hKey'] at hStored'
  cases hEmpty : MergePatch.isEmpty (mainPatch modified base)
  with
  | true =>
      have hKept := patch_nothing hQueue hStored hEmpty
      rw [← hSame] at hEmpty
      have hKept' := patch_nothing hQueue' hStored' hEmpty
      rw [hKey] at hStored
      rw [hKey'] at hStored'
      have hObject := object?_congr hKept.2 k
      have hObject' := object?_congr hKept'.2 k
      apply Matches.written hKept.1 hKept'.1
      · rw [shown?_congr hObject, shown?_congr hObject',
          hShown]
      · intro x hFound
        cases hFound.symm.trans (hObject.trans hStored)
        rfl
      · intro x hFound
        cases hFound.symm.trans (hObject'.trans hStored')
        rfl
  | false =>
      rcases hBlind hEmpty o with ⟨o', hPatched⟩
      have hApplied := patch_applied hQueue hStored hEmpty
        (hPatched o.metadata.resourceVersion)
      rw [← hSame] at hEmpty hPatched
      have hApplied' := patch_applied hQueue' hStored' hEmpty
        (hPatched version)
      rw [hKey] at hApplied
      rw [hKey'] at hApplied'
      have hObject := object?_congr hApplied.2 k
      have hObject' := object?_congr hApplied'.2 k
      apply Matches.written hApplied.1 hApplied'.1
      · rw [shown?_congr hObject, shown?_congr hObject',
          shown?_settle, shown?_settle]
        rfl
      · exact (isAt_settle _ s).congr hObject
      · exact (isAt_settle _ t).congr hObject'

/- A patch of tokens does not see the version. -/
theorem patch_tokens_matches
    {base : Object}
    {fs : List String}
    {version : Option String}
    (hQueue : s.patchFailures = [])
    (hQueue' : t.patchFailures = [])
    (hKey : base.key = k)
    (hShown : t.shown? k = s.shown? k) :
    Matches k (patch (base.withFinalizers fs) base s)
      (patch ((base.withVersion version).withFinalizers fs)
        (base.withVersion version) t) := by
  have hKey' : (base.withVersion version).key = k := hKey
  apply patch_matches hQueue hQueue' hKey hKey'
  · rw [mainPatch_withFinalizers, mainPatch_withFinalizers]
    rfl
  · intro hChanges o
    rw [mainPatch_withFinalizers] at hChanges ⊢
    split at hChanges
    · cases hChanges
    · next hOther =>
        rw [if_neg hOther]
        refine ⟨o.persisted.withFinalizers fs, ?_⟩
        intro version
        rw [patched?_withFinalizers]
        unfold Object.withVersion
        rw [Object.persisted_mapMetadata]
        rfl
  · exact hShown

/- The removal of the refresh label does not see it either. -/
theorem patch_label_matches
    {base : Object}
    {version : Option String}
    (hQueue : s.patchFailures = [])
    (hQueue' : t.patchFailures = [])
    (hKey : base.key = k)
    (hLabel : base.metadata.hasRefreshLabel = true)
    (hShown : t.shown? k = s.shown? k) :
    Matches k
      (patch (base.mapMetadata (·.removeRefreshLabel)) base s)
      (patch
        ((base.withVersion version).mapMetadata
          (·.removeRefreshLabel))
        (base.withVersion version) t) := by
  have hLabel' :
      (base.withVersion version).metadata.hasRefreshLabel =
        true :=
    hLabel
  have hKey' : (base.withVersion version).key = k := hKey
  apply patch_matches hQueue hQueue' hKey hKey'
  · rw [mainPatch_label_between hLabel,
      mainPatch_label_between hLabel']
    rfl
  · intro _ o
    rcases mainPatch_label hLabel with
      ⟨change, hChange, hDrops⟩
    rcases hDrops.apply o.metadata.labels with
      ⟨labels, hApplied, _⟩
    rw [hChange]
    refine ⟨o.persisted.mapMetadata
      (fun _ => { o.metadata with labels := labels }), ?_⟩
    intro version
    have hShows :=
      (o.withVersion version).metadata.shown_toJson.withLabels
        hApplied
    rw [patched?_shown hShows]
    unfold Object.withVersion
    rw [Object.persisted_mapMetadata]
    rfl
  · exact hShown

/-
  A status update at the version of what each store holds
  goes through in both, unless there is nothing to update.
-/
theorem updateStatus_matches
    {o : Object}
    {version : Option String}
    (hQueue : s.statusFailures = [])
    (hQueue' : t.statusFailures = [])
    (hKey : o.key = k)
    (hShown : t.shown? k = s.shown? k)
    (hAt : s.IsAt k o.metadata.resourceVersion)
    (hAt' : t.IsAt k version) :
    Matches k (updateStatus o s)
      (updateStatus (o.withVersion version) t) := by
  have hKey' : (o.withVersion version).key = k := hKey
  rcases shown?_cases hShown with
    ⟨hNone, hNone'⟩ | ⟨old, current, hStored, hStored'⟩
  · rw [← hKey] at hNone
    rw [← hKey'] at hNone'
    have hMissing := updateStatus_missing hQueue hNone
    have hMissing' := updateStatus_missing hQueue' hNone'
    rw [hKey] at hMissing hNone
    rw [hKey'] at hMissing' hNone'
    exact .missing hMissing.1 hMissing'.1
      ((object?_congr hMissing.2 k).trans hNone)
      ((object?_congr hMissing'.2 k).trans hNone')
  have hCurrent := hAt old hStored
  have hCurrent' := hAt' _ hStored'
  rw [← hKey] at hStored
  rw [← hKey'] at hStored'
  rcases updateStatus_current hQueue hStored hCurrent.symm
    with ⟨hOk, _, hObjects⟩
  rcases updateStatus_current hQueue' hStored'
    hCurrent'.symm with ⟨hOk', _, hObjects'⟩
  rw [hKey] at hObjects
  rw [hKey'] at hObjects'
  have hObject := object?_congr (s := s.place k _) hObjects k
  have hObject' :=
    object?_congr (s := t.place k _) hObjects' k
  rw [object?_place, if_pos rfl] at hObject hObject'
  apply Matches.written hOk hOk'
  · unfold shown?
    rw [hObject, hObject']
    rfl
  · intro x hFound
    cases hFound.symm.trans hObject
    rfl
  · intro x hFound
    cases hFound.symm.trans hObject'
    rfl

------------------------------------------------------------
-- Writes to One Key
------------------------------------------------------------

/- An operation that writes no other key, nor a failure. -/
structure WritesAt
    (k : Key)
    (op : Store → Except StoreError Object × Store) :
    Prop where
  quiet : ∀ store, store.Quiet → (op store).2.Quiet
  evolves : ∀ store, EvolvesAt k store (op store).2

/- Fetching writes nothing at all. -/
theorem get_writesAt
    (k : Key) :
    WritesAt k (get k) where
  quiet := fun _ hQuiet => hQuiet.afterGet k
  evolves := fun store =>
    .of_objects (by rw [get_version]) (get_objects k store)

theorem patch_writesAt
    (modified base : Object) :
    WritesAt base.key (patch modified base) where
  quiet := fun _ hQuiet => hQuiet.afterPatch modified base
  evolves := patch_evolvesAt modified base

theorem updateStatus_writesAt
    (o : Object) :
    WritesAt o.key (updateStatus o) where
  quiet := fun _ hQuiet => hQuiet.afterStatus o
  evolves := updateStatus_evolvesAt o

end Store

end Reconciler
