import Mathlib.Data.Set.List
import Reconciler.Proofs.Json.Algebra
import Reconciler.Proofs.Json.ThreeWay
import Reconciler.Proofs.Object.Exact
import Reconciler.Proofs.Store.Built
import Reconciler.Proofs.Store.Labels
import Reconciler.Proofs.Store.Versionless

/-
  This file says what any patch makes of a stored object.

  A patch sees two objects, and the stored one may be a third.
  Each field of the metadata, and each label for itself, is
  taken from the modified object where that one differs from
  the base, and stays as it is stored where the two are the
  same.  Statuses do not count at all.

  Key definitions include:
    * `threeWay`
    * `Metadata.MergesInto`

  Key theorems include:
    * `MergePatch.patchedMember_field`
    * `MergePatch.patchedMember_labels`
    * `Metadata.exists_merged`
    * `Store.mainPatch_eq`
    * `Store.patch_mergesFields`
-/

------------------------------------------------------------
-- Fields
------------------------------------------------------------

namespace Reconciler

open Json (Agree Written)

/-
  A field merged three ways: the modified value where it is
  not the one of the base, and else the stored one.
-/
def threeWay
    {α : Type}
    [DecidableEq α]
    (base modified stored : α) : α :=
  if modified = base then stored else modified

theorem threeWay_some
    {α : Type}
    [DecidableEq α]
    (base modified stored : α) :
    threeWay (some base) (some modified) (some stored) =
      some (threeWay base modified stored) := by
  by_cases hSame : modified = base <;>
    simp [threeWay, hSame]

namespace MergePatch

section Fields

variable {α : Type}
variable [DecidableEq α]
variable (write : α → Json)
variable (read? : Json → Option α)

/-
  A field that is written and read, as a member that may be
  missing: its patch merges it three ways.
-/
theorem patchedMember_field
    (hWritten : ∀ a, (write a).Written)
    (hRead : ∀ a, read? (write a) = some a)
    (hPlain : ∀ a, (write a).isObject = false)
    (base? modified? stored? : Option α) :
    patchedMember
        (memberChange (base?.map write)
          (modified?.map write))
        (stored?.map write) =
      (threeWay base? modified? stored?).map write := by
  have hSame :
      Option.Rel Agree (base?.map write)
          (modified?.map write) ↔
        modified? = base? := by
    cases base? with
    | none => cases modified? <;> simp
    | some b =>
        cases modified? with
        | none => simp
        | some m =>
            simp only [Option.map_some, Option.rel_some_some,
              Option.some.injEq]
            constructor
            · intro hAgree
              have hForm := (hWritten m).eq_of_agree hAgree
              have hValue := hRead m
              rw [← hForm, hRead] at hValue
              exact (Option.some.inj hValue).symm
            · intro hValue
              rw [hValue]
              exact .refl _
  by_cases hKept : modified? = base?
  · rw [threeWay, if_pos hKept,
      patchedMember_untouched (hSame.mpr hKept)]
  · have hNoObject :
        (modified?.map write).any Json.isObject = false := by
      cases modified? <;> simp [hPlain]
    have hNoNull :
        ∀ a, (write a).isNull = false := by
      intro a
      cases hForm : write a with
      | null =>
          have hNull := hWritten a
          rw [hForm] at hNull
          cases hNull
      | _ => rfl
    rw [threeWay, if_neg hKept,
      patchedMember_taken (fun h => hKept (hSame.mp h))
        hNoObject]
    cases modified? <;> simp [hNoNull]

/- The same for a member that is always there. -/
theorem patchedMember_value
    (hWritten : ∀ a, (write a).Written)
    (hRead : ∀ a, read? (write a) = some a)
    (hPlain : ∀ a, (write a).isObject = false)
    (base modified stored : α) :
    patchedMember
        (memberChange (some (write base))
          (some (write modified)))
        (some (write stored)) =
      some (write (threeWay base modified stored)) := by
  have hField :=
    patchedMember_field write read? hWritten hRead hPlain
      (some base) (some modified) (some stored)
  rw [threeWay_some] at hField
  exact hField

end Fields

------------------------------------------------------------
-- Labels
------------------------------------------------------------

/- An object in order that shows texts is a table of them. -/
theorem exists_textTable
    {j : Json}
    (hObject : j.isObject = true)
    (hOrdered : Table.Ordered j.members)
    {text? : String → Option String}
    (hTexts :
      ∀ k,
        Table.get? k j.members = (text? k).map .str) :
    ∃ labels,
      j = .textTable labels ∧
        Table.Ordered labels ∧
        ∀ k, Table.get? k labels = text? k := by
  have hMembers :
      j.members ∈
        Set.range (List.map
          (fun e : String × String =>
            (e.1, Json.str e.2))) := by
    rw [Set.range_list_map]
    rintro ⟨k, v⟩ hMember
    have hFound :=
      Table.get?_of_mem hOrdered.keys_nodup hMember
    rw [hTexts] at hFound
    rcases Option.map_eq_some_iff.mp hFound with
      ⟨text, _, hValue⟩
    exact ⟨(k, text), congrArg (Prod.mk k) hValue⟩
  rcases hMembers with ⟨labels, hLabels⟩
  refine ⟨labels, ?_, ?_, ?_⟩
  · rw [Json.isObject_iff.mp hObject, ← hLabels]
    rfl
  · rw [← hLabels, Table.Ordered, List.pairwise_map]
      at hOrdered
    exact hOrdered
  · intro k
    have hText := hTexts k
    rw [← hLabels, Table.get?_map] at hText
    apply Option.map_injective _ hText
    intro a b hSame
    injection hSame

/- Each label is merged for itself. -/
theorem patchedMember_labels
    {base modified stored : Table String String}
    (hBase : Table.Ordered base)
    (hModified : Table.Ordered modified)
    (hStored : Table.Ordered stored) :
    ∃ labels,
      patchedMember
          (memberChange (some (.textTable base))
            (some (.textTable modified)))
          (some (.textTable stored)) =
        some (.textTable labels) ∧
      Table.Ordered labels ∧
      ∀ k,
        Table.get? k labels =
          threeWay (Table.get? k base)
            (Table.get? k modified)
            (Table.get? k stored) := by
  by_cases hSame : modified = base
  · refine ⟨stored, ?_, hStored, ?_⟩
    · rw [hSame,
        patchedMember_untouched (.some (.refl _))]
    · intro k
      rw [hSame, threeWay, if_pos rfl]
  · have hChanged :
        ¬ Agree (.textTable modified) (.textTable base) :=
      fun hAgree => hSame (Json.agree_textTable hAgree)
    have hBaseForm := Written.textTable hBase
    have hModifiedForm := Written.textTable hModified
    have hTable : (Json.textTable modified).isObject = true :=
      rfl
    have hObject :=
      isObject_between (.textTable base) hTable
    have hShown :
        ∀ k,
          Table.get? k
              (apply
                (between (.textTable base)
                  (.textTable modified))
                (.textTable stored)).members =
            (threeWay (Table.get? k base)
              (Table.get? k modified)
              (Table.get? k stored)).map .str := by
      intro k
      rw [get?_apply_between k hBaseForm.canonical
        hModifiedForm.canonical rfl]
      have hMembers :
          ∀ t : Table String String,
            Table.get? k (Json.textTable t).members =
              (Table.get? k t).map .str :=
        fun t => Table.get?_map k Json.str t
      rw [hMembers, hMembers, hMembers]
      exact patchedMember_field Json.str Json.asText?
        Written.str (fun _ => rfl) (fun _ => rfl) _ _ _
    have hOrdered :=
      ordered_apply hObject
        (Written.textTable hStored).canonical.ordered
    rcases exists_textTable (isObject_apply hObject _)
        hOrdered hShown with
      ⟨labels, hForm, hLabels, hFound⟩
    refine ⟨labels, ?_, hLabels, hFound⟩
    rw [patchedMember_object hChanged rfl, ← hForm]
    rfl

end MergePatch

------------------------------------------------------------
-- Metadata
------------------------------------------------------------

open MergePatch

namespace Metadata

/-
  Metadata merged three ways: every field but the version,
  and every label, is merged for itself.
-/
structure MergesInto
    (base modified stored merged : Metadata) : Prop where
  name :
    merged.name =
      threeWay base.name modified.name stored.name
  ns :
    merged.ns = threeWay base.ns modified.ns stored.ns
  cluster :
    merged.cluster =
      threeWay base.cluster modified.cluster stored.cluster
  generation :
    merged.generation =
      threeWay base.generation modified.generation
        stored.generation
  deletion :
    merged.deletionTimestamp =
      threeWay base.deletionTimestamp
        modified.deletionTimestamp stored.deletionTimestamp
  finalizers :
    merged.finalizers =
      threeWay base.finalizers modified.finalizers
        stored.finalizers
  ordered : Table.Ordered merged.labels
  labels :
    ∀ k,
      Table.get? k merged.labels =
        threeWay (Table.get? k base.labels)
          (Table.get? k modified.labels)
          (Table.get? k stored.labels)

variable {base modified stored : Metadata}

/- Every field merged three ways, beside the labels given. -/
def merge
    (base modified stored : Metadata)
    (labels : Table String String) : Metadata where
  name := threeWay base.name modified.name stored.name
  ns := threeWay base.ns modified.ns stored.ns
  cluster :=
    threeWay base.cluster modified.cluster stored.cluster
  generation :=
    threeWay base.generation modified.generation
      stored.generation
  resourceVersion :=
    threeWay base.resourceVersion modified.resourceVersion
      stored.resourceVersion
  deletionTimestamp :=
    threeWay base.deletionTimestamp
      modified.deletionTimestamp stored.deletionTimestamp
  finalizers :=
    threeWay base.finalizers modified.finalizers
      stored.finalizers
  labels := labels

theorem merge_mergesInto
    {labels : Table String String}
    (hOrdered : Table.Ordered labels)
    (hLabels :
      ∀ k,
        Table.get? k labels =
          threeWay (Table.get? k base.labels)
            (Table.get? k modified.labels)
            (Table.get? k stored.labels)) :
    MergesInto base modified stored
      (merge base modified stored labels) :=
  ⟨rfl, rfl, rfl, rfl, rfl, rfl, hOrdered, hLabels⟩

/-
  The patch between two metadata makes of any third ones
  what shows these merged three ways.
-/
theorem exists_merged
    (hBase : Table.Ordered base.labels)
    (hModified : Table.Ordered modified.labels)
    (hStored : Table.Ordered stored.labels) :
    ∃ merged,
      MergesInto base modified stored merged ∧
        merged.Shown
          (apply (between base.toJson modified.toJson)
            stored.toJson).members := by
  rcases patchedMember_labels hBase hModified hStored with
    ⟨labels, hPatched, hOrdered, hLabels⟩
  have hMember :=
    fun k => get?_apply_between k
      (toJson_written hBase).canonical
      (toJson_written hModified).canonical rfl stored.toJson
  have hOld := base.shown_toJson
  have hNew := modified.shown_toJson
  have hThere := stored.shown_toJson
  -- Texts, numbers, times and lists are fields alike.
  have hText :=
    patchedMember_value Json.str Json.asText? Written.str
      (fun _ => rfl) (fun _ => rfl)
  have hOptional :=
    patchedMember_field Json.str Json.asText? Written.str
      (fun _ => rfl) (fun _ => rfl)
  have hNumber :=
    patchedMember_value (fun g : Int64 => .int g.toInt)
      Json.asInt64? (fun g => .int g.toInt)
      Json.asInt64?_int (fun _ => rfl)
  have hTime :=
    patchedMember_field Instant.toJson Instant.ofJson?
      Instant.toJson_written Instant.ofJson?_toJson
      (fun _ => rfl)
  have hList :=
    patchedMember_value Json.texts
      (Json.asList? Json.asText?) (.list .str)
      Json.asList?_texts (fun _ => rfl)
  refine ⟨merge base modified stored labels,
    merge_mergesInto hOrdered hLabels, ?_⟩
  constructor
  · rw [hMember, hOld.name, hNew.name, hThere.name]
    exact hText _ _ _
  · rw [hMember, hOld.ns, hNew.ns, hThere.ns]
    exact hOptional _ _ _
  · rw [hMember, hOld.cluster, hNew.cluster, hThere.cluster]
    exact hOptional _ _ _
  · rw [hMember, hOld.generation, hNew.generation,
      hThere.generation]
    exact hNumber _ _ _
  · rw [hMember, hOld.version, hNew.version, hThere.version]
    exact hOptional _ _ _
  · rw [hMember, hOld.deletion, hNew.deletion,
      hThere.deletion]
    exact hTime _ _ _
  · rw [hMember, hOld.finalizers, hNew.finalizers,
      hThere.finalizers]
    exact hList _ _ _
  · rw [hMember, hOld.labels, hNew.labels, hThere.labels]
    exact hPatched

/- Metadata whose forms agree are the same. -/
theorem agree_toJson_iff
    (hBase : Table.Ordered base.labels) :
    Agree modified.toJson base.toJson ↔ modified = base := by
  constructor
  · intro hAgree
    have hForm := (toJson_written hBase).eq_of_agree hAgree
    have hRead := modified.shown_toJson.read
    rw [hForm, base.shown_toJson.read] at hRead
    exact (Option.some.inj hRead).symm
  · intro hSame
    rw [hSame]
    exact .refl _

end Metadata

------------------------------------------------------------
-- Patches between Objects
------------------------------------------------------------

namespace Object

/- The form of an object shows that of its metadata. -/
theorem get?_metadata
    (o : Object) :
    Table.get? "metadata" o.toJson.members =
      some o.metadata.toJson := by
  rcases o with ⟨kind, m, status⟩
  cases kind <;> rfl

/- Objects of one kind show the same in all other members. -/
theorem get?_toJson_of_kind
    {o o' : Object}
    {k : String}
    (hKind : o'.kind = o.kind)
    (hMetadata : k ≠ "metadata")
    (hStatus : k ≠ "status") :
    Table.get? k o'.toJson.members =
      Table.get? k o.toJson.members := by
  rcases o with ⟨kind, m, status⟩
  rcases o' with ⟨kind', m', status'⟩
  cases hKind
  cases kind <;>
    simp [toJson, Json.record, Json.members, Json.members?,
      Table.get?_cons, hMetadata, hStatus]

variable {base modified : Object}

/-
  Outside the status, the patch between two objects of one
  kind shows what has changed in the metadata.
-/
theorem get?_between_toJson
    {k : String}
    (hBase : base.Proper)
    (hModified : modified.Proper)
    (hKind : modified.kind = base.kind)
    (hStatus : k ≠ "status") :
    Table.get? k
        (between base.toJson modified.toJson).members =
      if k = "metadata" then
        if modified.metadata = base.metadata then
          none
        else
          some (between base.metadata.toJson
            modified.metadata.toJson)
      else
        none := by
  rw [get?_between k hBase.toJson_written.canonical
    hModified.toJson_written.canonical
    modified.isObject_toJson]
  by_cases hMetadata : k = "metadata"
  · rw [hMetadata, if_pos rfl, base.get?_metadata,
      modified.get?_metadata, memberChange]
    exact if_congr
      (Metadata.agree_toJson_iff hBase.labels) rfl rfl
  · rw [if_neg hMetadata,
      get?_toJson_of_kind hKind hMetadata hStatus]
    exact memberChange_eq_none_iff.mpr rfl

end Object

namespace Store

variable {k : Key}
variable {s : Store}
variable {base modified stored : Object}

/-
  The patch between two objects of one kind is about their
  metadata, and empty if these are the same.
-/
theorem mainPatch_eq
    (hBase : base.Proper)
    (hModified : modified.Proper)
    (hKind : modified.kind = base.kind) :
    mainPatch modified base =
      if modified.metadata = base.metadata then
        .obj []
      else
        .obj [("metadata",
          between base.metadata.toJson
            modified.metadata.toJson)] := by
  have hObject :=
    isObject_between base.toJson modified.isObject_toJson
  have hOrdered :=
    ordered_between base.toJson
      hModified.toJson_written.canonical
  have hMember :=
    fun l => Object.get?_between_toJson (k := l) hBase
      hModified hKind
  have hPatch := Json.isObject_iff.mp hObject
  unfold mainPatch
  rw [hPatch]
  dsimp only
  split
  · next hSame =>
      apply congrArg Json.obj
      apply Table.eq_nil_iff_get?.mpr
      intro l
      rw [Table.get?_erase]
      by_cases hStatus : l = "status"
      · rw [if_pos hStatus]
      · rw [if_neg hStatus, hMember l hStatus, if_pos hSame,
          ite_self]
  · next hDiffer =>
      apply congrArg Json.obj
      apply Table.Ordered.ext (hOrdered.erase "status")
        (List.pairwise_singleton _ _)
      intro l
      rw [Table.get?_erase, Table.get?_cons, Table.get?_nil]
      by_cases hStatus : l = "status"
      · rw [if_pos hStatus, hStatus, if_neg (by decide)]
      · rw [if_neg hStatus, hMember l hStatus,
          if_neg hDiffer]

/-
  What a patch that is not empty makes of an object: its
  metadata are merged, and of the status stays what the form
  of the object keeps.
-/
theorem patched?_merged
    (hBase : base.Proper)
    (hModified : modified.Proper)
    (hStored : stored.Proper)
    (hKind : modified.kind = base.kind)
    (hDiffer : modified.metadata ≠ base.metadata) :
    ∃ merged,
      Metadata.MergesInto base.metadata modified.metadata
          stored.metadata merged ∧
        patched? (mainPatch modified base) stored =
          some (stored.persisted.mapMetadata
            (fun _ => merged)) := by
  rcases Metadata.exists_merged hBase.labels hModified.labels
    hStored.labels with ⟨merged, hMerged, hShown⟩
  have hObject :
      (between base.metadata.toJson
        modified.metadata.toJson).isObject = true :=
    isObject_between _ rfl
  refine ⟨merged, hMerged, ?_⟩
  rw [mainPatch_eq hBase hModified hKind, if_neg hDiffer,
    Json.isObject_iff.mp hObject]
  apply patched?_shown
  rw [apply_of_object hObject] at hShown
  exact hShown

/-
  Take a store that has come about through its operations, no
  failure of a patch being queued, and objects with all
  capabilities: one that is stored under a key, a base of that
  key, and a modified one.  If base and modified object have
  the same metadata, the patch hands back the stored object
  and changes nothing, whatever the statuses are.  If not, it
  hands back an object at a version that was never handed out.
  The status of that object is the stored one, but for the
  budget, which has no form in JSON; its metadata are merged.
  It takes the place of the stored object, unless it is being
  deleted and has no tokens; then nothing is stored there.
  Objects of other keys stay as they are.
-/
theorem patch_mergesFields
    (hBuilt : s.Built)
    (hQueue : s.patchFailures = [])
    (hStored : s.object? k = some stored)
    (hKey : base.key = k)
    (hTyped :
      ∀ o ∈ [stored, base, modified],
        o.kind = .full ∧ Table.Ordered o.metadata.labels) :
    (modified.metadata = base.metadata →
      (patch modified base s).1 = .ok stored ∧
        (patch modified base s).2.objects = s.objects) ∧
    (modified.metadata ≠ base.metadata →
      ∃ o,
        (patch modified base s).1 = .ok o ∧
          o.metadata.resourceVersion =
            versionText (s.version + 1) ∧
          (∀ k' o',
            s.object? k' = some o' →
              o'.metadata.resourceVersion ≠
                o.metadata.resourceVersion) ∧
          o.kind = .full ∧
          o.status = { stored.status with budget := none } ∧
          Metadata.MergesInto base.metadata
            modified.metadata stored.metadata o.metadata ∧
          (patch modified base s).2.object? k =
            if o.isDeleting &&
                o.metadata.finalizers.isEmpty then
              none
            else
              some o) ∧
    ∀ k',
      k' ≠ k →
        (patch modified base s).2.object? k' =
          s.object? k' := by
  have hProper :
      ∀ o ∈ [stored, base, modified], o.Proper := by
    intro o hMember
    rcases hTyped o hMember with ⟨hFull, hLabels⟩
    refine ⟨hLabels, ?_⟩
    intro hPlain
    rw [hFull] at hPlain
    cases hPlain
  have hProperStored := hProper stored (by simp)
  have hProperBase := hProper base (by simp)
  have hProperModified := hProper modified (by simp)
  have hFull : stored.kind = .full := (hTyped stored (by simp)).1
  have hKind : modified.kind = base.kind := by
    rw [(hTyped modified (by simp)).1,
      (hTyped base (by simp)).1]
  rw [← hKey] at hStored
  refine ⟨?_, ?_, ?_⟩
  · intro hSame
    apply patch_nothing hQueue hStored
    rw [mainPatch_eq hProperBase hProperModified hKind,
      if_pos hSame]
    rfl
  · intro hDiffer
    rcases patched?_merged hProperBase hProperModified
        hProperStored hKind hDiffer with
      ⟨merged, hMerged, hPatched⟩
    have hChanges :
        MergePatch.isEmpty (mainPatch modified base) =
          false := by
      rw [mainPatch_eq hProperBase hProperModified hKind,
        if_neg hDiffer]
      rfl
    rcases patch_applied hQueue hStored hChanges hPatched
      with ⟨hOk, hObjects⟩
    refine ⟨_, hOk, rfl, ?_, ?_, ?_, ?_, ?_⟩
    · intro k' o' hObject
      exact hBuilt.minted.fresh hObject (Nat.lt_succ_self _)
    · exact stored.persisted_kind.trans hFull
    · rw [hProperStored.persisted_eq]
      rfl
    · exact { hMerged with ordered := hMerged.ordered }
    · rw [object?_congr hObjects, ← hKey, object?_settle,
        if_pos rfl]
  · intro k' hOther
    apply (patch_evolvesAt modified base s).elsewhere
    rw [hKey]
    exact hOther

/- An object as a client has fetched it. -/
def older : Object where
  kind := .full
  metadata :=
    { name := "a"
      ns := some "ns"
      generation := 1
      finalizers := ["f"]
      labels := [("app", "x"), ("tier", "front")] }
  status := { payload := "old" }

/- The client drops a label and asks for the deletion. -/
def relabelled : Object where
  kind := .full
  metadata :=
    { older.metadata with
      deletionTimestamp := some .epoch
      labels := [("app", "x")] }
  status := { payload := "lost" }

/- What others have made of the object in the meantime. -/
def newer : Object where
  kind := .full
  metadata :=
    { older.metadata with
      finalizers := ["f", "g"]
      labels := [("app", "y"), ("tier", "back")] }
  status :=
    { payload := "new", budget := some (.ofSeconds 300) }

theorem relabelled_mergesFields :
    (({} : Store).insert newer).Built ∧
      (({} : Store).insert newer).object? older.key =
        some (newer.withVersion (versionText 1)) ∧
      relabelled.metadata ≠ older.metadata ∧
      ∃ o,
        (patch relabelled older
            (({} : Store).insert newer)).1 = .ok o ∧
          o.status.payload = "new" ∧
          o.isDeleting = true ∧
          o.metadata.finalizers = ["f", "g"] ∧
          Table.get? "app" o.metadata.labels = some "y" ∧
          Table.get? "tier" o.metadata.labels = none ∧
          (patch relabelled older
            (({} : Store).insert newer)).2.object?
              older.key = some o := by
  have hBuilt : (({} : Store).insert newer).Built :=
    .insert newer .empty
  have hStored :
      (({} : Store).insert newer).object? older.key =
        some (newer.withVersion (versionText 1)) :=
    rfl
  have hTyped :
      ∀ o ∈ [newer.withVersion (versionText 1), older,
          relabelled],
        o.kind = .full ∧
          Table.Ordered o.metadata.labels := by
    intro o hMember
    simp only [List.mem_cons, List.not_mem_nil, or_false]
      at hMember
    rcases hMember with rfl | rfl | rfl
    all_goals exact ⟨rfl, by decide⟩
  have hDiffer : relabelled.metadata ≠ older.metadata := by
    intro hSame
    have hDeletion :=
      congrArg Metadata.deletionTimestamp hSame
    cases hDeletion
  rcases (patch_mergesFields hBuilt rfl hStored rfl hTyped).2.1
      hDiffer with
    ⟨o, hOk, _, _, _, hStatus, hMerged, hObject⟩
  have hFinalizers : o.metadata.finalizers = ["f", "g"] :=
    hMerged.finalizers
  refine ⟨hBuilt, hStored, hDiffer, o, hOk, ?_, ?_,
    hFinalizers, hMerged.labels "app",
    hMerged.labels "tier", ?_⟩
  · rw [hStatus]
    rfl
  · have hDeletion : o.metadata.deletionTimestamp = some .epoch :=
      hMerged.deletion
    unfold Object.isDeleting Metadata.isDeleting
    rw [hDeletion]
    rfl
  · rw [hObject, hFinalizers]
    simp

end Store

end Reconciler
