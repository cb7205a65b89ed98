import Reconciler.Proofs.Object.Persisted
import Reconciler.Proofs.Store.Patch

/-
  This file says exactly what a patch of tokens makes of a
  stored object, and which operations of a store can fail
  when no failure is queued.

  A patch that changes something reads the stored object
  again, so that it loses what the JSON form leaves out.

  Key definitions include:
    * `Store.Quiet`

  Key theorems include:
    * `Store.patched?_withFinalizers`
    * `Store.patch_tokens`
    * `Store.patch_tokens_ok`
    * `Store.Quiet.afterPatch`
-/

------------------------------------------------------------
-- Patched Objects
------------------------------------------------------------

namespace Reconciler

open MergePatch

/- A patched list of tokens shows, the rest stays. -/
theorem Metadata.Shown.withFinalizers
    {m : Metadata}
    {t : Table String Json}
    (hShown : m.Shown t)
    (fs : List String) :
    { m with finalizers := fs }.Shown
      (applyMembers [("finalizers", .texts fs)] t) := by
  have hKept :=
    fun k (hOther : k ≠ "finalizers") =>
      get?_applyMembers_other (v := .texts fs) hOther t
  exact
    { name := (hKept _ (by decide)).trans hShown.name
      ns := (hKept _ (by decide)).trans hShown.ns
      cluster := (hKept _ (by decide)).trans hShown.cluster
      generation :=
        (hKept _ (by decide)).trans hShown.generation
      version := (hKept _ (by decide)).trans hShown.version
      deletion := (hKept _ (by decide)).trans hShown.deletion
      finalizers := get?_applyMembers_self rfl t
      labels := (hKept _ (by decide)).trans hShown.labels }

namespace Store

/-
  What a patch of metadata makes of an object: its metadata
  are the ones that the patched members show.
-/
theorem patched?_shown
    {o : Object}
    {m : Metadata}
    {changes : Table String Json}
    (hShown :
      m.Shown (applyMembers changes
        o.metadata.toJson.members)) :
    patched? (.obj [("metadata", .obj changes)]) o =
      some (o.persisted.mapMetadata (fun _ => m)) := by
  have hMetadata :
      (Table.get? "metadata" o.toJson.members).getD .null =
        .obj o.metadata.toJson.members := by
    rcases o with ⟨kind, m, s⟩
    cases kind <;> rfl
  have hMember :
      Table.get? "metadata"
          (applyMembers [("metadata", .obj changes)]
            o.toJson.members) =
        some (.obj
          (applyMembers changes
            o.metadata.toJson.members)) := by
    rw [get?_applyMembers_self rfl, hMetadata, apply_obj]
    rfl
  have hOther :
      ∀ k ∈ ["status", "caps"],
        Table.get? k
            (applyMembers [("metadata", .obj changes)]
              o.toJson.members) =
          Table.get? k o.toJson.members := by
    intro k hPart
    apply get?_applyMembers_other
    intro hSame
    rw [hSame] at hPart
    exact absurd hPart (by decide)
  unfold patched?
  rw [apply_obj, Object.read_persisted hMember hShown hOther]

/- What a patch of tokens makes of an object. -/
theorem patched?_withFinalizers
    (o : Object)
    (fs : List String) :
    patched?
        (.obj [("metadata",
          .obj [("finalizers", .texts fs)])]) o =
      some (o.persisted.withFinalizers fs) := by
  have hShown :=
    o.metadata.shown_toJson.withFinalizers fs
  rw [patched?_shown hShown, Object.withFinalizers,
    ← o.persisted_metadata]
  rfl

------------------------------------------------------------
-- Patches of Tokens
------------------------------------------------------------

/- Without a queued failure a readable patch is applied. -/
theorem patch_applied
    {modified base stored o : Object}
    {s : Store}
    (hQueue : s.patchFailures = [])
    (hStored : s.object? base.key = some stored)
    (hChanges :
      MergePatch.isEmpty (mainPatch modified base) = false)
    (hPatched :
      patched? (mainPatch modified base) stored = some o) :
    (patch modified base s).1 =
        .ok (o.withVersion (versionText (s.version + 1))) ∧
      (patch modified base s).2.objects =
        (s.settle base.key
          (o.withVersion
            (versionText (s.version + 1)))).objects := by
  unfold patch
  dsimp only
  rw [hQueue]
  simp only [record, takeVersion]
  split
  · next hNone =>
      have hNone : s.object? base.key = none := hNone
      rw [hStored] at hNone
      cases hNone
  · next found hFound =>
      have hFound : s.object? base.key = some found := hFound
      rw [hStored] at hFound
      cases hFound
      rw [hChanges, if_neg Bool.false_ne_true, hPatched]
      refine ⟨rfl, ?_⟩
      unfold settle
      dsimp only
      split <;> rfl

/-
  What a patch of other tokens does: it fails and changes no
  object, or the stored object takes the tokens.  It cannot
  fail if no failure is queued.
-/
theorem patch_tokens
    {base stored : Object}
    {fs : List String}
    {s : Store}
    (hStored : s.object? base.key = some stored)
    (hChanged : fs ≠ base.metadata.finalizers) :
    (s.patchFailures ≠ [] ∧
      ∃ e,
        (patch (base.withFinalizers fs) base s).1 =
            .error e ∧
          (patch (base.withFinalizers fs) base s).2.objects =
            s.objects) ∨
    ∃ version,
      (patch (base.withFinalizers fs) base s).1 =
          .ok ((stored.persisted.withFinalizers
            fs).withVersion version) ∧
        (patch (base.withFinalizers fs) base s).2.objects =
          (s.settle base.key
            ((stored.persisted.withFinalizers
              fs).withVersion version)).objects := by
  have hPatch :
      mainPatch (base.withFinalizers fs) base =
        .obj [("metadata",
          .obj [("finalizers", .texts fs)])] := by
    rw [mainPatch_withFinalizers, if_neg hChanged]
  cases hQueue : s.patchFailures with
  | cons e rest =>
      refine .inl ⟨by simp, e, ?_⟩
      unfold patch
      rw [hQueue]
      exact ⟨rfl, rfl⟩
  | nil =>
      refine .inr ⟨versionText (s.version + 1), ?_⟩
      apply patch_applied hQueue hStored
      · rw [hPatch]
        rfl
      · rw [hPatch]
        exact patched?_withFinalizers stored fs

/-
  A patch of other tokens that succeeds finds an object,
  whatever tokens that object has by then, and settles it
  with the new ones.
-/
theorem patch_tokens_ok
    {base o : Object}
    {fs : List String}
    {s s' : Store}
    (hChanged : fs ≠ base.metadata.finalizers)
    (hPatch :
      patch (base.withFinalizers fs) base s = (.ok o, s')) :
    ∃ stored version,
      s.object? base.key = some stored ∧
        o =
          (stored.persisted.withFinalizers fs).withVersion
            version ∧
        s'.objects = (s.settle base.key o).objects := by
  have hStored :
      ∃ stored, s.object? base.key = some stored := by
    rcases patch_cases (base.withFinalizers fs) base s with
      ⟨e, hError, _⟩ | ⟨stored, hStored, _⟩ |
      ⟨stored, _, hStored, _⟩
    · rw [hPatch] at hError
      cases hError
    · exact ⟨stored, hStored⟩
    · exact ⟨stored, hStored⟩
  rcases hStored with ⟨stored, hStored⟩
  rcases patch_tokens hStored hChanged with
    ⟨_, e, hError, _⟩ | ⟨version, hOk, hObjects⟩
  · rw [hPatch] at hError
    cases hError
  · rw [hPatch] at hOk hObjects
    cases hOk
    exact ⟨stored, version, hStored, rfl, hObjects⟩

------------------------------------------------------------
-- Stores without Queued Failures
------------------------------------------------------------

/- No failure is queued. -/
structure Quiet
    (s : Store) : Prop where
  get : s.getFailures = []
  patch : s.patchFailures = []
  status : s.statusFailures = []

namespace Quiet

variable {s : Store}

/- No operation of the engine queues a failure. -/
theorem afterGet
    (hQuiet : s.Quiet)
    (k : Key) :
    (Store.get k s).2.Quiet := by
  unfold Store.get
  dsimp only
  rw [hQuiet.get]
  dsimp only
  split
  · exact ⟨rfl, hQuiet.patch, hQuiet.status⟩
  · exact ⟨rfl, hQuiet.patch, hQuiet.status⟩

theorem afterPatch
    (hQuiet : s.Quiet)
    (modified base : Object) :
    (Store.patch modified base s).2.Quiet := by
  unfold Store.patch
  dsimp only
  rw [hQuiet.patch]
  simp only [record, takeVersion]
  split
  · exact { hQuiet with patch := hQuiet.patch }
  · split
    · exact { hQuiet with patch := hQuiet.patch }
    · split
      · exact { hQuiet with patch := hQuiet.patch }
      · unfold settle
        split
        · exact { hQuiet with patch := hQuiet.patch }
        · exact { hQuiet with patch := hQuiet.patch }

theorem afterStatus
    (hQuiet : s.Quiet)
    (o : Object) :
    (Store.updateStatus o s).2.Quiet := by
  unfold Store.updateStatus
  dsimp only
  rw [hQuiet.status]
  simp only [takeVersion]
  split
  · exact { hQuiet with status := hQuiet.status }
  · split
    · exact { hQuiet with status := hQuiet.status }
    · exact { hQuiet with status := hQuiet.status }

/- A stored object is fetched. -/
theorem get_ok
    {k : Key}
    {o : Object}
    (hQuiet : s.Quiet)
    (hStored : s.object? k = some o) :
    (Store.get k s).1 = .ok o := by
  unfold Store.get
  dsimp only
  rw [hQuiet.get]
  dsimp only
  split
  · next found hFound =>
      cases hStored.symm.trans hFound
      rfl
  · next hNone => cases hStored.symm.trans hNone

/- A missing object is not found. -/
theorem get_missing
    {k : Key}
    (hQuiet : s.Quiet)
    (hMissing : s.object? k = none) :
    (Store.get k s).1 = .error (.notFound k) := by
  unfold Store.get
  dsimp only
  rw [hQuiet.get]
  dsimp only
  split
  · next found hFound => cases hMissing.symm.trans hFound
  · rfl

end Quiet

end Store

end Reconciler
