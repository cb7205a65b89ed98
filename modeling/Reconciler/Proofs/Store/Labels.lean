import Reconciler.Proofs.Store.Patched

/-
  This file says what the removal of the refresh label makes
  of a stored object.

  A patch of labels drops the label and may set others, so
  the patched object has no such label, whatever labels the
  stored one has; all else that its JSON form holds stays.

  Key definitions include:
    * `MergePatch.Drops`

  Key theorems include:
    * `MergePatch.between_textTable_erase`
    * `MergePatch.applyMembers_textTable`
    * `Store.patch_label_ok`
    * `Store.mainPatch_label_only`
-/

------------------------------------------------------------
-- Tables of Texts
------------------------------------------------------------

namespace Reconciler

/- Tables of texts agree only if they are the same. -/
theorem Json.agree_textTable
    {t t' : Table String String}
    (hAgree : Agree (textTable t) (textTable t')) :
    t = t' := by
  have hSignless :
      ∀ t : Table String String,
        signlessMembers (t.map (fun e => (e.1, .str e.2))) =
          t.map (fun e => (e.1, .str e.2)) := by
    intro t
    induction t with
    | nil => rfl
    | cons e rest ih =>
        rw [List.map_cons, signlessMembers, ih]
        rfl
  unfold Agree textTable at hAgree
  rw [signless, signless, hSignless, hSignless] at hAgree
  injection hAgree with hMembers
  apply List.map_injective_iff.mpr _ hMembers
  intro e e' hEntry
  injection hEntry with hKey hText
  injection hText with hText
  exact Prod.ext hKey hText

------------------------------------------------------------
-- Patches that Drop a Label
------------------------------------------------------------

namespace MergePatch

/-
  A patch of texts drops a key: it names the key, always to
  remove it, and sets or removes other texts.
-/
structure Drops
    (k : String)
    (patch : Table String Json) : Prop where
  named : ∃ e ∈ patch, e.1 = k
  texts :
    ∀ e ∈ patch,
      e.2 = .null ∨ (e.1 ≠ k ∧ ∃ s, e.2 = .str s)

/- What a patch between tables of texts can hold. -/
theorem changes_textTable
    {k : String}
    {base modified : Table String String}
    (hGone : Table.get? k modified = none) :
    ∀ e ∈ changes
        (base.map (fun e => (e.1, .str e.2)))
        (modified.map (fun e => (e.1, .str e.2))),
      e.2 = .null ∨ (e.1 ≠ k ∧ ∃ s, e.2 = .str s) := by
  induction base with
  | nil =>
      intro e hMember
      cases hMember
  | cons entry rest ih =>
      rcases entry with ⟨l, before⟩
      intro e hMember
      rw [List.map_cons, changes, Table.get?_map] at hMember
      cases hFound : Table.get? l modified with
      | none =>
          rw [hFound] at hMember
          rcases Table.mem_put hMember with hNew | hOld
          · rw [hNew]
            exact .inl rfl
          · exact ih e hOld
      | some after =>
          have hOther : l ≠ k := by
            intro hSame
            rw [hSame, hGone] at hFound
            cases hFound
          rw [hFound] at hMember
          dsimp only [Option.map_some] at hMember
          split at hMember
          · exact ih e hMember
          · rw [if_neg (by
              simp [Json.isObject, Json.members?])]
              at hMember
            rcases Table.mem_put hMember with hNew | hOld
            · rw [hNew]
              exact .inr ⟨hOther, after, rfl⟩
            · exact ih e hOld

/- A key that is gone is named. -/
theorem mem_changes_of_gone
    {k : String}
    {base modified : Table String String}
    (hHas : Table.has k base = true)
    (hGone : Table.get? k modified = none) :
    Table.get? k
        (changes (base.map (fun e => (e.1, .str e.2)))
          (modified.map (fun e => (e.1, .str e.2)))) =
      some .null := by
  induction base with
  | nil => cases hHas
  | cons entry rest ih =>
      rcases entry with ⟨l, before⟩
      rw [List.map_cons, changes, Table.get?_map]
      by_cases hSame : k = l
      · rw [← hSame, hGone]
        dsimp only [Option.map_none]
        rw [Table.get?_put, if_pos rfl]
      · have hRest : Table.has k rest = true := by
          unfold Table.has at hHas ⊢
          rw [Table.get?_cons, if_neg hSame] at hHas
          exact hHas
        cases hFound : Table.get? l modified with
        | none =>
            dsimp only [Option.map_none]
            rw [Table.get?_put, if_neg hSame]
            exact ih hRest
        | some after =>
            dsimp only [Option.map_some]
            split
            · exact ih hRest
            · split
              · rw [Table.get?_put, if_neg hSame]
                exact ih hRest
              · rw [Table.get?_put, if_neg hSame]
                exact ih hRest

/- A table has nothing to add once a key is gone. -/
theorem additions_erase
    (k : String)
    (t : Table String String) :
    additions (t.map (fun e => (e.1, .str e.2)))
        ((Table.erase k t).map
          (fun e => (e.1, .str e.2))) = [] := by
  apply List.filter_eq_nil_iff.mpr
  intro e hMember
  have hErased :
      Table.has e.1
        ((Table.erase k t).map
          (fun e => (e.1, Json.str e.2))) = true := by
    rw [Table.has_iff_mem_keys]
    exact List.mem_map_of_mem hMember
  have hBase :
      Table.has e.1
        (t.map (fun e => (e.1, Json.str e.2))) = true := by
    unfold Table.has at hErased ⊢
    rw [Table.get?_map] at hErased ⊢
    rw [Table.get?_erase] at hErased
    split at hErased
    · cases hErased
    · exact hErased
  rw [hBase]
  exact Bool.false_ne_true

/- The patch that takes a key off a table of texts. -/
theorem between_textTable_erase
    {k : String}
    {t : Table String String}
    (hHas : Table.has k t = true) :
    ∃ patch,
      between (.textTable t) (.textTable (Table.erase k t)) =
          .obj patch ∧
        Drops k patch := by
  have hGone : Table.get? k (Table.erase k t) = none := by
    rw [Table.get?_erase, if_pos rfl]
  refine ⟨_, ?_, ⟨⟨(k, .null), Table.mem_of_get?
    (mem_changes_of_gone hHas hGone), rfl⟩,
      changes_textTable hGone⟩⟩
  unfold Json.textTable
  rw [between, additions_erase]
  rfl

/- The entries of other keys are found in what is left. -/
theorem keeps_erase
    {k : String}
    {part t : Table String String}
    (hKeys : (Table.keys t).Nodup)
    (hPart : part ⊆ t)
    (hOther : k ∉ Table.keys part) :
    Keeps (part.map (fun e => (e.1, .str e.2)))
      ((Table.erase k t).map (fun e => (e.1, .str e.2))) := by
  intro e hMember
  rcases List.mem_map.mp hMember with ⟨⟨l, w⟩, hOld, hEntry⟩
  rw [← hEntry]
  have hDiffer : l ≠ k := by
    intro hSame
    exact hOther (hSame ▸ List.mem_map_of_mem hOld)
  refine ⟨.str w, ?_, .refl _⟩
  rw [Table.get?_map, Table.get?_erase, if_neg hDiffer,
    Table.get?_of_mem hKeys (hPart hOld)]
  rfl

/- With distinct keys, that patch names no other key. -/
theorem between_textTable_only
    {k : String}
    {t : Table String String}
    (hKeys : (Table.keys t).Nodup)
    (hHas : Table.has k t = true) :
    between (.textTable t) (.textTable (Table.erase k t)) =
      .obj [(k, .null)] := by
  rcases Option.isSome_iff_exists.mp hHas with ⟨v, hFound⟩
  rcases List.append_of_mem (Table.mem_of_get? hFound) with
    ⟨pre, post, hSplit⟩
  have hApart : k ∉ Table.keys (pre ++ post) := by
    have hMiddle := hKeys
    rw [hSplit, Table.keys, List.map_append, List.map_cons]
      at hMiddle
    have hFirst := (List.nodup_middle.mp hMiddle).notMem
    rwa [Table.keys, List.map_append]
  have hPre : k ∉ Table.keys pre := by
    intro hMember
    apply hApart
    rw [Table.keys, List.map_append]
    exact List.mem_append_left _ hMember
  have hPost : k ∉ Table.keys post := by
    intro hMember
    apply hApart
    rw [Table.keys, List.map_append]
    exact List.mem_append_right _ hMember
  have hPrePart : pre ⊆ t := by
    rw [hSplit]
    exact List.subset_append_left _ _
  have hPostPart : post ⊆ t := by
    rw [hSplit]
    exact List.subset_append_of_subset_right _
      (List.subset_cons_self _ _)
  have hGone :
      Table.get? k ((Table.erase k t).map
        (fun e => (e.1, Json.str e.2))) = none := by
    rw [Table.get?_map, Table.get?_erase, if_pos rfl]
    rfl
  unfold Json.textTable
  rw [between, additions_erase]
  nth_rewrite 1 [hSplit]
  rw [List.map_append, List.map_cons,
    changes_gone (keeps_erase hKeys hPrePart hPre)
      (keeps_erase hKeys hPostPart hPost) hGone]
  rfl

theorem named_tail
    {k l : String}
    {v : Json}
    {rest : Table String Json}
    (hOther : l ≠ k)
    (hNamed : ∃ e ∈ (l, v) :: rest, e.1 = k) :
    ∃ e ∈ rest, e.1 = k := by
  rcases hNamed with ⟨e, hMember, hKey⟩
  rcases List.mem_cons.mp hMember with hHead | hTail
  · rw [hHead] at hKey
    exact absurd hKey hOther
  · exact ⟨e, hTail, hKey⟩

/-
  Such a patch makes of a table of texts another one without
  the key.
-/
theorem applyMembers_textTable
    {k : String}
    {patch : Table String Json}
    (hTexts :
      ∀ e ∈ patch,
        e.2 = .null ∨ (e.1 ≠ k ∧ ∃ s, e.2 = .str s))
    (t : Table String String)
    (hDrops :
      (∃ e ∈ patch, e.1 = k) ∨ Table.get? k t = none) :
    ∃ t',
      applyMembers patch
          (t.map (fun e => (e.1, .str e.2))) =
        t'.map (fun e => (e.1, .str e.2)) ∧
      Table.get? k t' = none := by
  induction patch generalizing t with
  | nil =>
      have hGone : Table.get? k t = none :=
        hDrops.resolve_left (by simp)
      exact ⟨t, rfl, hGone⟩
  | cons entry rest ih =>
      rcases entry with ⟨l, v⟩
      have hRest := fun e hMember =>
        hTexts e (List.mem_cons_of_mem _ hMember)
      rcases hTexts (l, v) List.mem_cons_self with
        hNull | ⟨hOther, s, hText⟩
      · have hNull : v = .null := hNull
        rw [hNull, applyMembers_null, Table.erase_map]
        apply ih hRest
        rw [Table.get?_erase]
        by_cases hSame : k = l
        · exact .inr (if_pos hSame)
        · rw [if_neg hSame]
          exact hDrops.imp_left (named_tail (Ne.symm hSame))
      · have hText : v = .str s := hText
        have hOther : l ≠ k := hOther
        rw [hText, applyMembers_value rfl]
        change ∃ t', applyMembers rest
          (Table.put l (.str s) _) = _ ∧ _
        rw [Table.put_map]
        apply ih hRest
        rw [Table.get?_put, if_neg hOther.symm]
        exact hDrops.imp_left (named_tail hOther)

/- A patch that drops a key drops it from every table. -/
theorem Drops.apply
    {k : String}
    {patch : Table String Json}
    (hDrops : Drops k patch)
    (t : Table String String) :
    ∃ t',
      MergePatch.apply (.obj patch) (.textTable t) =
          .textTable t' ∧
        Table.get? k t' = none := by
  rcases applyMembers_textTable hDrops.texts t
    (.inl hDrops.named) with ⟨t', hApplied, hGone⟩
  exact ⟨t', congrArg Json.obj hApplied, hGone⟩

end MergePatch

------------------------------------------------------------
-- Objects without the Refresh Label
------------------------------------------------------------

open MergePatch

namespace Metadata

/- A refresh label that is there is really dropped. -/
theorem removeRefreshLabel_labels
    {m : Metadata}
    (hLabel : m.hasRefreshLabel = true) :
    m.removeRefreshLabel.labels ≠ m.labels := by
  intro hSame
  have hErased :
      Table.get? refreshLabel
        (Table.erase refreshLabel m.labels) = none := by
    rw [Table.get?_erase, if_pos rfl]
  change Table.erase refreshLabel m.labels = _ at hSame
  rw [hSame] at hErased
  unfold Metadata.hasRefreshLabel Table.has at hLabel
  rw [hErased] at hLabel
  cases hLabel

/- Patched labels show, the rest stays. -/
theorem Shown.withLabels
    {m : Metadata}
    {t patch : Table String Json}
    {ls : Table String String}
    (hShown : m.Shown t)
    (hLabels :
      MergePatch.apply (.obj patch) (.textTable m.labels) =
        .textTable ls) :
    { m with labels := ls }.Shown
      (applyMembers [("labels", .obj patch)] t) := by
  have hKept :=
    fun k (hOther : k ≠ "labels") =>
      get?_applyMembers_other (v := .obj patch) hOther t
  have hPatched :
      Table.get? "labels"
          (applyMembers [("labels", .obj patch)] t) =
        some (.textTable ls) := by
    rw [get?_applyMembers_self rfl, hShown.labels,
      ← hLabels]
    rfl
  exact
    { name := (hKept _ (by decide)).trans hShown.name
      ns := (hKept _ (by decide)).trans hShown.ns
      cluster := (hKept _ (by decide)).trans hShown.cluster
      generation :=
        (hKept _ (by decide)).trans hShown.generation
      version := (hKept _ (by decide)).trans hShown.version
      deletion := (hKept _ (by decide)).trans hShown.deletion
      finalizers :=
        (hKept _ (by decide)).trans hShown.finalizers
      labels := hPatched }

end Metadata

namespace Store

/- The patch that takes off a label that is there. -/
theorem mainPatch_label_between
    {o : Object}
    (hLabel : o.metadata.hasRefreshLabel = true) :
    mainPatch (o.mapMetadata (·.removeRefreshLabel)) o =
      .obj [("metadata",
        .obj [("labels",
          between (.textTable o.metadata.labels)
            (.textTable
              (Table.erase refreshLabel
                o.metadata.labels)))])] := by
  have hDiffer :
      ¬ Json.Agree
        (.textTable o.metadata.removeRefreshLabel.labels)
        (.textTable o.metadata.labels) := by
    intro hAgree
    exact Metadata.removeRefreshLabel_labels hLabel
      (Json.agree_textTable hAgree)
  have hMetadata :
      ¬ Json.Agree o.metadata.removeRefreshLabel.toJson
        o.metadata.toJson := by
    intro hAgree
    apply hDiffer
    exact agree_record
      [("cluster", _), ("deletionTimestamp", _),
        ("finalizers", _), ("generation", _)]
      [("name", _), ("namespace", _), ("resourceVersion", _)]
      hAgree
  have hLabels :
      between o.metadata.toJson
          o.metadata.removeRefreshLabel.toJson =
        .obj [("labels",
          between (.textTable o.metadata.labels)
            (.textTable
              (Table.erase refreshLabel
                o.metadata.labels)))] := by
    unfold Metadata.removeRefreshLabel at hDiffer ⊢
    rw [Metadata.between_labels, edit, if_neg hDiffer]
    rfl
  rw [mainPatch_mapMetadata, if_neg hMetadata, hLabels]

/- Whatever labels there are, it drops that label. -/
theorem mainPatch_label
    {o : Object}
    (hLabel : o.metadata.hasRefreshLabel = true) :
    ∃ patch,
      mainPatch (o.mapMetadata (·.removeRefreshLabel)) o =
          .obj [("metadata", .obj [("labels", .obj patch)])] ∧
        Drops refreshLabel patch := by
  rcases between_textTable_erase hLabel with
    ⟨patch, hPatch, hDrops⟩
  refine ⟨patch, ?_, hDrops⟩
  rw [mainPatch_label_between hLabel, hPatch]

/-
  With distinct labels it holds a null for that label and
  nothing else.
-/
theorem mainPatch_label_only
    {o : Object}
    (hKeys : (Table.keys o.metadata.labels).Nodup)
    (hLabel : o.metadata.hasRefreshLabel = true) :
    mainPatch (o.mapMetadata (·.removeRefreshLabel)) o =
      .obj [("metadata",
        .obj [("labels", .obj [(refreshLabel, .null)])])] := by
  rw [mainPatch_label_between hLabel,
    between_textTable_only hKeys hLabel]

/- Where the label is not there, it holds nothing. -/
theorem mainPatch_label_absent
    {o : Object}
    (hLabel : o.metadata.hasRefreshLabel = false) :
    mainPatch (o.mapMetadata (·.removeRefreshLabel)) o =
      .obj [] := by
  have hSame : o.metadata.removeRefreshLabel = o.metadata := by
    unfold Metadata.removeRefreshLabel
    rw [Table.erase_of_missing hLabel]
  rw [mainPatch_mapMetadata, hSame, if_pos (Json.Agree.refl _)]

/-
  The removal of a label that is there cannot fail if an
  object is stored and no failure is queued.
-/
theorem patch_label_applied
    {base stored : Object}
    {s : Store}
    (hQueue : s.patchFailures = [])
    (hStored : s.object? base.key = some stored)
    (hLabel : base.metadata.hasRefreshLabel = true) :
    ∃ o,
      (patch (base.mapMetadata (·.removeRefreshLabel)) base
        s).1 = .ok o := by
  rcases mainPatch_label hLabel with ⟨change, hChange, hDrops⟩
  rcases hDrops.apply stored.metadata.labels with
    ⟨labels, hApplied, _⟩
  have hShown :=
    stored.metadata.shown_toJson.withLabels hApplied
  have hPatched := patched?_shown hShown
  rw [← hChange] at hPatched
  refine ⟨_, (patch_applied hQueue hStored ?_ hPatched).1⟩
  rw [hChange]
  rfl

/-
  A removal of the label that succeeds leaves the stored
  object without it; kind, status and other metadata stay as
  far as the JSON form holds them.
-/
theorem patch_label_ok
    {base o : Object}
    {s s' : Store}
    (hLabel : base.metadata.hasRefreshLabel = true)
    (hPatch :
      patch (base.mapMetadata (·.removeRefreshLabel)) base s =
        (.ok o, s')) :
    ∃ stored labels version,
      s.object? base.key = some stored ∧
        Table.get? refreshLabel labels = none ∧
        o =
          (stored.persisted.mapMetadata (fun m =>
            { m with labels := labels })).withVersion
              version ∧
        s'.objects = (s.settle base.key o).objects := by
  rcases mainPatch_label hLabel with ⟨change, hChange, hDrops⟩
  rcases patch_cases
    (base.mapMetadata (·.removeRefreshLabel)) base s with
    ⟨e, hError, _⟩ | ⟨_, _, hEmpty, _⟩ |
    ⟨stored, patched, hStored, _, hPatched, hOk, _, hObjects⟩
  · rw [hPatch] at hError
    cases hError
  · rw [hChange] at hEmpty
    cases hEmpty
  · rcases hDrops.apply stored.metadata.labels with
      ⟨labels, hApplied, hGone⟩
    have hShown :=
      stored.metadata.shown_toJson.withLabels hApplied
    rw [hChange, patched?_shown hShown] at hPatched
    cases hPatched
    rw [hPatch] at hOk hObjects
    cases hOk
    refine ⟨stored, labels, versionText (s.version + 1),
      hStored, hGone, ?_, hObjects⟩
    unfold Object.mapMetadata
    rw [stored.persisted_metadata]

end Store

end Reconciler
