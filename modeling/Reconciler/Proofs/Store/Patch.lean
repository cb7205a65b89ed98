import Reconciler.Proofs.Json.MergePatch
import Reconciler.Proofs.Store.Operations

/-
  This file says what the patches of the engine hold and
  what they make of a stored object.

  The engine patches tokens and labels.  A patch of tokens
  is empty or holds the list of tokens alone; the patched
  object has that list and keeps its key.  A patch of labels
  keeps key and tokens.

  Key theorems include:
    * `Store.mainPatch_withFinalizers`
    * `Store.mainPatch_removeRefreshLabel`
    * `Store.patched?_key`
    * `Store.patched?_finalizers`
-/

------------------------------------------------------------
-- Differences in Metadata
------------------------------------------------------------

namespace Reconciler

open MergePatch

namespace Metadata

/- Metadata with other tokens differ in one member. -/
theorem between_finalizers
    (m : Metadata)
    (fs : List String) :
    between m.toJson { m with finalizers := fs }.toJson =
      .obj (edit "finalizers" (.texts m.finalizers)
        (.texts fs)) :=
  between_record
    [("cluster", _), ("deletionTimestamp", _)]
    [("generation", _), ("labels", _), ("name", _),
      ("namespace", _), ("resourceVersion", _)]
    (by simp)

/- Metadata that differ in their tokens do not agree. -/
theorem agree_finalizers
    {m : Metadata}
    {fs : List String}
    (hAgree :
      Json.Agree { m with finalizers := fs }.toJson
        m.toJson) :
    fs = m.finalizers :=
  Json.agree_texts
    (agree_record
      [("cluster", _), ("deletionTimestamp", _)]
      [("generation", _), ("labels", _), ("name", _),
        ("namespace", _), ("resourceVersion", _)]
      hAgree)

/- Metadata with other labels differ in one member. -/
theorem between_labels
    (m : Metadata)
    (ls : Table String String) :
    between m.toJson { m with labels := ls }.toJson =
      .obj (edit "labels" (.textTable m.labels)
        (.textTable ls)) :=
  between_record
    [("cluster", _), ("deletionTimestamp", _),
      ("finalizers", _), ("generation", _)]
    [("name", _), ("namespace", _), ("resourceVersion", _)]
    (by simp)

/- What has been read from the members of an object. -/
theorem ofJson?_eq_some
    {t : Table String Json}
    {m : Metadata}
    (hRead : ofJson? (.obj t) = some m) :
    Json.required? Json.asText? "name" t = some m.name ∧
      Json.optional? Json.asText? "namespace" t =
        some m.ns ∧
      Json.optional? Json.asText? "cluster" t =
        some m.cluster ∧
      Json.defaulted? (Json.asList? Json.asText?) []
        "finalizers" t = some m.finalizers := by
  unfold ofJson? at hRead
  simp only [Json.members?, Option.bind_eq_bind,
    Option.bind_some, Option.bind_eq_some_iff] at hRead
  rcases hRead with
    ⟨name, hName, ns, hNs, cluster, hCluster, _, _, _, _, _,
      _, finalizers, hFinalizers, _, _, hMetadata⟩
  cases hMetadata
  exact ⟨hName, hNs, hCluster, hFinalizers⟩

/- Metadata show the parts of the key, and the tokens. -/
theorem get?_toJson
    (m : Metadata) :
    Table.get? "name" m.toJson.members =
        some (.str m.name) ∧
      Table.get? "namespace" m.toJson.members =
        m.ns.map .str ∧
      Table.get? "cluster" m.toJson.members =
        m.cluster.map .str ∧
      Table.get? "finalizers" m.toJson.members =
        some (.texts m.finalizers) := by
  refine ⟨?_, ?_, ?_, ?_⟩ <;>
    apply Json.get?_record <;> simp

/- Metadata with the same parts of the key. -/
theorem ofJson?_key
    {t : Table String Json}
    {m m' : Metadata}
    (hRead : ofJson? (.obj t) = some m')
    (hSame :
      ∀ k ∈ ["name", "namespace", "cluster"],
        Table.get? k t = Table.get? k m.toJson.members) :
    m'.key = m.key := by
  rcases m.get?_toJson with
    ⟨hNameField, hNsField, hClusterField, _⟩
  rcases ofJson?_eq_some hRead with
    ⟨hName, hNs, hCluster, _⟩
  unfold Json.required? at hName
  rw [hSame "name" (by simp), hNameField] at hName
  rw [Json.optional?_text
    ((hSame "namespace" (by simp)).trans hNsField)] at hNs
  rw [Json.optional?_text
    ((hSame "cluster" (by simp)).trans hClusterField)]
    at hCluster
  unfold key
  rw [← Option.some.inj hCluster, ← Option.some.inj hNs,
    ← Option.some.inj hName]

/- Metadata with the same member for the tokens. -/
theorem ofJson?_finalizers
    {t : Table String Json}
    {m : Metadata}
    {fs : List String}
    (hRead : ofJson? (.obj t) = some m)
    (hMember :
      Table.get? "finalizers" t = some (.texts fs)) :
    m.finalizers = fs := by
  rcases ofJson?_eq_some hRead with ⟨_, _, _, hFinalizers⟩
  unfold Json.defaulted? at hFinalizers
  rw [hMember] at hFinalizers
  exact Option.some.inj
    (hFinalizers.symm.trans (Json.asList?_texts fs))

end Metadata

/- Objects that differ in their metadata. -/
theorem Object.between_mapMetadata
    (o : Object)
    (f : Metadata → Metadata) :
    between o.toJson (o.mapMetadata f).toJson =
      .obj (edit "metadata" o.metadata.toJson
        (f o.metadata).toJson) := by
  rcases o with ⟨kind, m, status⟩
  cases kind with
  | full =>
      exact between_record [] [("status", _)] (by simp)
  | plain =>
      exact between_record [] [("status", _)] (by simp)
  | listed cs =>
      exact between_record [("caps", _)] [("status", _)]
        (by simp)

/- The metadata of an object are read from one member. -/
theorem Object.ofJson?_metadata
    {like : Kind}
    {t : Table String Json}
    {o : Object}
    (hRead : ofJson? like (.obj t) = some o) :
    Json.required? Metadata.ofJson? "metadata" t =
      some o.metadata := by
  unfold ofJson? at hRead
  simp only [Json.members?, Option.bind_eq_bind,
    Option.bind_some, Option.bind_eq_some_iff] at hRead
  rcases hRead with ⟨m, hMetadata, hRest⟩
  have hSame : o.metadata = m := by
    cases like with
    | full =>
        rcases Option.bind_eq_some_iff.mp hRest with
          ⟨_, _, hObject⟩
        cases hObject
        rfl
    | plain =>
        rcases Option.bind_eq_some_iff.mp hRest with
          ⟨_, _, hObject⟩
        cases hObject
        rfl
    | listed cs =>
        rcases Option.bind_eq_some_iff.mp hRest with
          ⟨_, _, hCaps⟩
        rcases Option.bind_eq_some_iff.mp hCaps with
          ⟨_, _, hObject⟩
        cases hObject
        rfl
  rw [hSame]
  exact hMetadata

namespace Store

/- A patch of metadata is empty or no more than that. -/
theorem mainPatch_mapMetadata
    (o : Object)
    (f : Metadata → Metadata) :
    mainPatch (o.mapMetadata f) o =
      if Json.Agree (f o.metadata).toJson o.metadata.toJson then
        .obj []
      else
        .obj [("metadata",
          between o.metadata.toJson
            (f o.metadata).toJson)] := by
  unfold mainPatch
  rw [o.between_mapMetadata, edit]
  dsimp only
  split
  · rfl
  · rfl

/-
  A patch of tokens is empty if there is nothing to change;
  else it holds the new tokens and nothing else.
-/
theorem mainPatch_withFinalizers
    (o : Object)
    (fs : List String) :
    mainPatch (o.withFinalizers fs) o =
      if fs = o.metadata.finalizers then
        .obj []
      else
        .obj [("metadata",
          .obj [("finalizers", .texts fs)])] := by
  unfold Object.withFinalizers
  rw [mainPatch_mapMetadata]
  by_cases hSame : fs = o.metadata.finalizers
  · rw [if_pos hSame, hSame, if_pos (Json.Agree.refl _)]
  · have hDiffer :
        ¬ Json.Agree
          { o.metadata with finalizers := fs }.toJson
          o.metadata.toJson := by
      intro hAgree
      exact hSame (Metadata.agree_finalizers hAgree)
    have hTexts :
        ¬ Json.Agree (.texts fs)
          (.texts o.metadata.finalizers) := by
      intro hAgree
      exact hSame (Json.agree_texts hAgree)
    rw [if_neg hSame, if_neg hDiffer,
      Metadata.between_finalizers, edit, if_neg hTexts]
    rfl

/- A patch of labels is empty or holds labels only. -/
theorem mainPatch_removeRefreshLabel
    (o : Object) :
    mainPatch (o.mapMetadata (·.removeRefreshLabel)) o =
        .obj [] ∨
      ∃ changes,
        mainPatch (o.mapMetadata (·.removeRefreshLabel)) o =
            .obj [("metadata", .obj changes)] ∧
          ∀ e ∈ changes, e.1 = "labels" := by
  unfold Metadata.removeRefreshLabel
  rw [mainPatch_mapMetadata]
  split
  · exact .inl rfl
  · rw [Metadata.between_labels]
    refine .inr ⟨_, rfl, ?_⟩
    intro e hMember
    unfold edit at hMember
    split at hMember
    · cases hMember
    · split at hMember
      · rw [List.mem_singleton.mp hMember]
      · rw [List.mem_singleton.mp hMember]

end Store

------------------------------------------------------------
-- Patched Objects
------------------------------------------------------------

namespace Store

/- The metadata of an object are read from a member of it. -/
theorem patched?_metadata
    {changes : Table String Json}
    {stored o : Object}
    (hPatched :
      patched? (.obj [("metadata", .obj changes)]) stored =
        some o) :
    Metadata.ofJson?
        (.obj (applyMembers changes
          stored.metadata.toJson.members)) =
      some o.metadata := by
  have hStored :
      ((Table.get? "metadata" stored.toJson.members).getD
        .null) = stored.metadata.toJson := by
    rcases stored with ⟨kind, m, status⟩
    cases kind with
    | full => rfl
    | plain => rfl
    | listed cs => rfl
  have hMember :
      Table.get? "metadata"
          (applyMembers [("metadata", .obj changes)]
            stored.toJson.members) =
        some (.obj (applyMembers changes
          stored.metadata.toJson.members)) := by
    rw [get?_applyMembers_self rfl, hStored, apply_obj]
  have hRead := Object.ofJson?_metadata hPatched
  unfold Json.required? at hRead
  rw [hMember] at hRead
  exact hRead

/-
  A patch of metadata that does not name a part of the key
  keeps the key.
-/
theorem patched?_key
    {changes : Table String Json}
    {stored o : Object}
    (hPatched :
      patched? (.obj [("metadata", .obj changes)]) stored =
        some o)
    (hOther :
      ∀ e ∈ changes,
        e.1 ∉ ["name", "namespace", "cluster"]) :
    o.key = stored.key := by
  apply Metadata.ofJson?_key (patched?_metadata hPatched)
  intro k hPart
  apply get?_applyMembers
  intro e hMember hSame
  exact hOther e hMember (hSame ▸ hPart)

/- A patch that does not name the tokens keeps them. -/
theorem patched?_finalizers_kept
    {changes : Table String Json}
    {stored o : Object}
    (hPatched :
      patched? (.obj [("metadata", .obj changes)]) stored =
        some o)
    (hOther : ∀ e ∈ changes, e.1 ≠ "finalizers") :
    o.metadata.finalizers = stored.metadata.finalizers := by
  apply Metadata.ofJson?_finalizers
    (patched?_metadata hPatched)
  rw [get?_applyMembers hOther]
  exact stored.metadata.get?_toJson.2.2.2

/- A patch of tokens sets them. -/
theorem patched?_finalizers
    {fs : List String}
    {stored o : Object}
    (hPatched :
      patched?
          (.obj [("metadata",
            .obj [("finalizers", .texts fs)])]) stored =
        some o) :
    o.metadata.finalizers = fs := by
  apply Metadata.ofJson?_finalizers
    (patched?_metadata hPatched)
  exact get?_applyMembers_self rfl _

end Store

end Reconciler
