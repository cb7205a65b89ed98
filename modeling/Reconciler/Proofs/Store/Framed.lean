import Mathlib.Data.String.Basic
import Reconciler.Proofs.Store.Built
import Reconciler.Proofs.Store.Labels

/-
  This file says how far the writes of the engine reach into
  a store.

  The engine patches tokens and drops the refresh label, and
  updates the status, always of one key.  What else the
  stored object holds stays, and so do the objects of other
  keys.

  Key definitions include:
    * `MergePatch.OfEngine`
    * `Object.Framed`
    * `Store.Unwritten`
    * `Store.Framed`

  Key theorems include:
    * `Store.mainPatch_ofEngine`
    * `Store.patched?_framed`
    * `Store.Framed.patched`
    * `Store.Framed.updated`
-/

------------------------------------------------------------
-- Patches of the Engine
------------------------------------------------------------

namespace Reconciler

open MergePatch

/-
  A patch that says nothing, sets the tokens, or takes the
  refresh label away.
-/
inductive MergePatch.OfEngine : Json → Prop where
  | nothing : OfEngine (.obj [])
  | tokens
      (fs : List String) :
      OfEngine
        (.obj [("metadata",
          .obj [("finalizers", .texts fs)])])
  | label :
      OfEngine
        (.obj [("metadata",
          .obj [("labels", .obj [(refreshLabel, .null)])])])

namespace Store

/- A change of the tokens makes such a patch. -/
theorem mainPatch_tokens_ofEngine
    (o : Object)
    (fs : List String) :
    OfEngine (mainPatch (o.withFinalizers fs) o) := by
  rw [mainPatch_withFinalizers]
  split
  · exact .nothing
  · exact .tokens fs

/- So does the removal of the refresh label. -/
theorem mainPatch_label_ofEngine
    {o : Object}
    (hKeys : (Table.keys o.metadata.labels).Nodup) :
    OfEngine
      (mainPatch (o.mapMetadata (·.removeRefreshLabel)) o) := by
  cases hLabel : o.metadata.hasRefreshLabel with
  | true =>
      rw [mainPatch_label_only hKeys hLabel]
      exact .label
  | false =>
      rw [mainPatch_label_absent hLabel]
      exact .nothing

end Store

------------------------------------------------------------
-- Objects
------------------------------------------------------------

namespace Object

/-
  What the engine leaves alone: the object but for status,
  tokens, version and labels.
-/
def core
    (o : Object) : Object where
  kind := o.kind
  metadata :=
    { o.metadata with
      resourceVersion := none
      finalizers := []
      labels := [] }
  status := {}

/-
  What the engine may make of an object: one that differs in
  status, tokens, version and the absence of the refresh
  label.
-/
structure Framed
    (before after : Object) : Prop where
  core : after.core = before.core
  labels :
    after.metadata.labels = before.metadata.labels ∨
      after.metadata.labels =
        Table.erase refreshLabel before.metadata.labels

namespace Framed

variable {o before after : Object}

theorem refl
    (o : Object) :
    o.Framed o where
  core := rfl
  labels := .inl rfl

theorem trans
    (hFirst : o.Framed before)
    (hSecond : before.Framed after) :
    o.Framed after where
  core := hSecond.core.trans hFirst.core
  labels := by
    rcases hSecond.labels with hSame | hGone
    · rw [hSame]
      exact hFirst.labels
    · rcases hFirst.labels with hBefore | hBefore
      · rw [hGone, hBefore]
        exact .inr rfl
      · rw [hGone, hBefore, Table.erase_erase]
        exact .inr rfl

theorem withVersion
    (hFramed : before.Framed after)
    (version : Option String) :
    before.Framed (after.withVersion version) where
  core := hFramed.core
  labels := hFramed.labels

end Framed

/- The JSON form of an object holds what is left alone. -/
theorem core_persisted
    (o : Object) :
    o.persisted.core = o.core := by
  unfold core
  rw [persisted_kind, persisted_metadata]

end Object

/- What a patch of the engine makes of an object. -/
theorem Store.patched?_framed
    {patch : Json}
    {stored o : Object}
    (hEngine : OfEngine patch)
    (hPatched : patched? patch stored = some o) :
    stored.Framed o := by
  have hLabels :
      stored.persisted.metadata.labels =
        stored.metadata.labels := by
    rw [stored.persisted_metadata]
  cases hEngine with
  | nothing =>
      have hMembers :
          MergePatch.apply (.obj []) stored.toJson =
            stored.toJson := by
        rcases stored with ⟨kind, m, status⟩
        cases kind <;> rfl
      unfold patched? at hPatched
      rw [hMembers, stored.ofJson?_toJson] at hPatched
      cases hPatched
      exact
        { core := stored.core_persisted
          labels := .inl hLabels }
  | tokens fs =>
      rw [patched?_withFinalizers] at hPatched
      cases hPatched
      exact
        { core := stored.core_persisted
          labels := .inl hLabels }
  | label =>
      have hApplied :
          MergePatch.apply (.obj [(refreshLabel, .null)])
              (.textTable stored.metadata.labels) =
            .textTable
              (Table.erase refreshLabel
                stored.metadata.labels) :=
        congrArg Json.obj (Table.erase_map _ _ _)
      rw [patched?_shown
        (stored.metadata.shown_toJson.withLabels hApplied)]
        at hPatched
      cases hPatched
      refine ⟨?_, .inr rfl⟩
      change Object.core ⟨stored.persisted.kind, _, _⟩ = _
      rw [stored.persisted_kind]
      rfl

------------------------------------------------------------
-- Stores
------------------------------------------------------------

namespace Store

/-
  Nothing is written: objects and recorded patches stay, and
  versions are not handed out again.
-/
structure Unwritten
    (s s' : Store) : Prop where
  objects : s'.objects = s.objects
  patches : s'.patches = s.patches
  version : s.version ≤ s'.version

/-
  What a store can become in a run of the engine for a key:
  the object of the key is framed by the one that was there,
  the others stay, and the patches recorded are patches of
  the engine for that key.
-/
structure Framed
    (k : Key)
    (start s : Store) : Prop where
  minted : s.Minted
  elsewhere :
    ∀ k', k' ≠ k → s.object? k' = start.object? k'
  own :
    ∀ after, s.object? k = some after →
      ∃ before,
        start.object? k = some before ∧ before.Framed after
  recorded :
    ∃ sent,
      s.patches = start.patches ++ sent ∧
        ∀ p ∈ sent, p.key = k ∧ OfEngine p.patch

theorem Unwritten.refl
    (s : Store) :
    s.Unwritten s where
  objects := rfl
  patches := rfl
  version := Nat.le_refl _

theorem Unwritten.trans
    {s s' s'' : Store}
    (hFirst : s.Unwritten s')
    (hSecond : s'.Unwritten s'') :
    s.Unwritten s'' where
  objects := hSecond.objects.trans hFirst.objects
  patches := hSecond.patches.trans hFirst.patches
  version := Nat.le_trans hFirst.version hSecond.version

/- Fetching writes nothing. -/
theorem get_unwritten
    (k : Key)
    (s : Store) :
    Unwritten s (get k s).2 where
  objects := get_objects k s
  patches := by
    unfold get
    dsimp only
    split
    · rfl
    · split <;> rfl
  version := Nat.le_of_eq (get_version k s).symm

/- A patch is recorded, unless a queued failure is met. -/
theorem patch_patches
    (modified base : Object)
    (s : Store) :
    (patch modified base s).2.patches = s.patches ∨
      (patch modified base s).2.patches =
        s.patches ++
          [⟨base.key, mainPatch modified base⟩] := by
  unfold patch
  dsimp only
  split
  · exact .inl rfl
  · simp only [record, takeVersion]
    refine .inr ?_
    split
    · rfl
    · split
      · rfl
      · split
        · rfl
        · unfold settle
          split <;> rfl

/- A status update is no patch. -/
theorem updateStatus_patches
    (o : Object)
    (s : Store) :
    (updateStatus o s).2.patches = s.patches := by
  unfold updateStatus
  dsimp only
  split
  · rfl
  · simp only [takeVersion]
    split
    · rfl
    · split <;> rfl

namespace Framed

variable {k : Key}
variable {start s s' : Store}

theorem refl
    (k : Key)
    (hMinted : s.Minted) :
    Framed k s s where
  minted := hMinted
  elsewhere := fun _ _ => rfl
  own := fun after hObject => ⟨after, hObject, .refl after⟩
  recorded := ⟨[], by simp, by simp⟩

theorem unwritten
    (hFramed : Framed k start s)
    (hUnwritten : Unwritten s s') :
    Framed k start s' where
  minted :=
    (EvolvesAt.of_objects (k := k) hUnwritten.version
      hUnwritten.objects).minted hFramed.minted
  elsewhere := by
    intro k' hOther
    rw [object?_congr hUnwritten.objects]
    exact hFramed.elsewhere k' hOther
  own := by
    intro after hObject
    rw [object?_congr hUnwritten.objects] at hObject
    exact hFramed.own after hObject
  recorded := by
    rw [hUnwritten.patches]
    exact hFramed.recorded

/- A write of an object that is framed by the stored one. -/
theorem written
    {stored o : Object}
    (hFramed : Framed k start s)
    (hStored : s.object? k = some stored)
    (hObject : stored.Framed o) :
    ∃ before,
      start.object? k = some before ∧ before.Framed o := by
  rcases hFramed.own stored hStored with
    ⟨before, hBefore, hSpared⟩
  exact ⟨before, hBefore, hSpared.trans hObject⟩

/- A patch of the engine for the key. -/
theorem patched
    {modified base : Object}
    (hFramed : Framed k start s)
    (hKey : base.key = k)
    (hEngine : OfEngine (mainPatch modified base)) :
    Framed k start (patch modified base s).2 := by
  subst hKey
  have hEvolves := patch_evolvesAt modified base s
  refine
    { minted := hEvolves.minted hFramed.minted
      elsewhere := fun k' hOther =>
        (hEvolves.elsewhere k' hOther).trans
          (hFramed.elsewhere k' hOther)
      own := ?_
      recorded := ?_ }
  · intro after hAfter
    rcases patch_cases modified base s with
      ⟨_, _, hObjects⟩ | ⟨_, _, _, _, _, hObjects⟩ |
      ⟨stored, o, hStored, _, hPatched, _, _, hObjects⟩
    · rw [object?_congr hObjects] at hAfter
      exact hFramed.own after hAfter
    · rw [object?_congr hObjects] at hAfter
      exact hFramed.own after hAfter
    · rw [object?_congr hObjects, object?_settle, if_pos rfl]
        at hAfter
      split at hAfter
      · cases hAfter
      · cases hAfter
        exact hFramed.written hStored
          ((patched?_framed hEngine hPatched).withVersion _)
  · rcases hFramed.recorded with ⟨sent, hPatches, hSent⟩
    rcases patch_patches modified base s with hSame | hMore
    · rw [hSame]
      exact ⟨sent, hPatches, hSent⟩
    · refine
        ⟨sent ++ [⟨base.key, mainPatch modified base⟩],
          ?_, ?_⟩
      · rw [hMore, hPatches, List.append_assoc]
      · intro p hMember
        rcases List.mem_append.mp hMember with hOld | hNew
        · exact hSent p hOld
        · rw [List.mem_singleton.mp hNew]
          exact ⟨rfl, hEngine⟩

/-
  A status update, which no other key may be open to: no
  object stored elsewhere has the version that is given.
-/
theorem updated
    {given : Object}
    (hFramed : Framed k start s)
    (hApart :
      ∀ k' o, k' ≠ k → s.object? k' = some o →
        o.metadata.resourceVersion ≠
          given.metadata.resourceVersion) :
    Framed k start (updateStatus given s).2 := by
  have hPatches := updateStatus_patches given s
  have hEvolves := updateStatus_evolvesAt given s
  rcases updateStatus_cases given s with
    ⟨_, _, hObjects⟩ |
    ⟨old, stored, hOld, hStored, hOk, _, hObjects⟩
  · exact hFramed.unwritten
      ⟨hObjects, hPatches, updateStatus_version given s⟩
  · rcases updateStatus_ok_version hOk with
      ⟨current, hCurrent, hVersion⟩
    have hKey : given.key = k := by
      refine Decidable.byContradiction ?_
      intro hOther
      exact hApart _ current hOther hCurrent hVersion
    subst hKey
    refine
      { minted := hEvolves.minted hFramed.minted
        elsewhere := fun k' hOther =>
          (hEvolves.elsewhere k' hOther).trans
            (hFramed.elsewhere k' hOther)
        own := ?_
        recorded := hPatches ▸ hFramed.recorded }
    intro after hAfter
    rw [(updateStatus_ok hOk).1] at hAfter
    cases hAfter
    rw [hStored]
    exact hFramed.written hOld ⟨rfl, .inl rfl⟩

end Framed

end Store

end Reconciler
