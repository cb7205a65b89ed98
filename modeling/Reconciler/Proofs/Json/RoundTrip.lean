import Reconciler.Proofs.Json.MergePatch
import Reconciler.Proofs.Json.Path

/-
  This file proves when a merge patch leads from one value
  to another.

  Null removes a member, so a patch cannot put a null where
  there is none.  The patch between two values turns the one
  into the other exactly if the nulls of the other are in
  the one already.

  Key definitions include:
    * `MergePatch.memberChange`
    * `MergePatch.patchedMember`

  Key theorems include:
    * `MergePatch.get?_between`
    * `MergePatch.get?_applyMembers_of_nodup`
    * `MergePatch.get?_apply_between`
    * `MergePatch.apply_between_agrees_iff`
-/

------------------------------------------------------------
-- Patches Member by Member
------------------------------------------------------------

namespace Reconciler

namespace MergePatch

open Json

/- What a patch says about a member, before and after. -/
def memberChange :
    Option Json → Option Json → Option Json
  | none, after? => after?
  | some _, none => some .null
  | some before, some after =>
      if Agree after before then
        none
      else
        some (between before after)

/- Values that are no objects are replaced. -/
theorem between_of_not_objects
    {before after : Json}
    (hObjects :
      (before.isObject && after.isObject) = false) :
    between before after = after := by
  cases before with
  | obj base =>
      cases after with
      | obj members => cases hObjects
      | _ => rfl
  | _ => rfl

/- Nothing but null makes a patch that is null. -/
theorem isNull_between
    (before after : Json) :
    (between before after).isNull = after.isNull := by
  cases before with
  | obj base => cases after <;> rfl
  | _ => rfl

/- What the members of the base say. -/
theorem get?_changes
    (k : String)
    {base : Table String Json}
    (hKeys : (Table.keys base).Nodup)
    (modified : Table String Json) :
    Table.get? k (changes base modified) =
      if Table.has k base then
        memberChange (Table.get? k base)
          (Table.get? k modified)
      else
        none := by
  induction base with
  | nil => rfl
  | cons e rest ih =>
      rcases e with ⟨l, before⟩
      rcases List.nodup_cons.mp hKeys with ⟨hNew, hRest⟩
      have hOthers := ih hRest
      have hAbsent : Table.has l rest = false := by
        rw [← Bool.not_eq_true, Table.has_iff_mem_keys]
        exact hNew
      by_cases hKey : k = l
      · subst hKey
        rw [hAbsent, if_neg (by simp)] at hOthers
        simp only [Table.has, Table.get?_cons, if_true,
          Option.isSome_some]
        rw [changes]
        cases Table.get? k modified with
        | none => simp [Table.get?_put, memberChange]
        | some after =>
            dsimp only [memberChange]
            split
            · exact hOthers
            · split
              · simp [Table.get?_put]
              · next hObjects =>
                  rw [between_of_not_objects
                    (Bool.not_eq_true _ ▸ hObjects)]
                  simp [Table.get?_put]
      · have hTail :
            Table.get? k
                (changes ((l, before) :: rest) modified) =
              Table.get? k (changes rest modified) := by
          rw [changes]
          cases Table.get? l modified with
          | none => simp [Table.get?_put, hKey]
          | some after =>
              dsimp only
              split
              · rfl
              · split <;> simp [Table.get?_put, hKey]
        unfold Table.has at hOthers ⊢
        rw [hTail, hOthers, Table.get?_cons, if_neg hKey]

/- The members of a list go over those that were there. -/
theorem get?_putAll
    (k : String)
    {entries : Table String Json}
    (hKeys : (Table.keys entries).Nodup)
    (t : Table String Json) :
    Table.get? k (putAll entries t) =
      (Table.get? k entries).or (Table.get? k t) := by
  induction entries generalizing t with
  | nil => rfl
  | cons e rest ih =>
      rcases e with ⟨l, v⟩
      rcases List.nodup_cons.mp hKeys with ⟨hNew, hRest⟩
      have hStep :
          putAll ((l, v) :: rest) t =
            putAll rest (Table.put l v t) :=
        rfl
      rw [hStep, ih hRest, Table.get?_put, Table.get?_cons]
      by_cases hKey : k = l
      · subst hKey
        rw [Table.get?_eq_none_iff.mpr hNew]
        simp
      · simp [hKey]

/- Only members that the base does not have are added. -/
theorem get?_additions
    (k : String)
    (base modified : Table String Json) :
    Table.get? k (additions base modified) =
      if Table.has k base then none
      else Table.get? k modified := by
  have hFilter :=
    Table.get?_filter k (fun l => !Table.has l base) modified
  unfold additions
  rw [hFilter]
  cases Table.has k base <;> simp

/- The patch between two values, member by member. -/
theorem get?_between
    (k : String)
    {base modified : Json}
    (hBase : base.Canonical)
    (hModified : modified.Canonical)
    (hObject : modified.isObject = true) :
    Table.get? k (between base modified).members =
      memberChange (Table.get? k base.members)
        (Table.get? k modified.members) := by
  cases modified with
  | obj new =>
      cases base with
      | obj old =>
          have hOld : (Table.keys old).Nodup :=
            hBase.ordered.keys_nodup
          have hNew :
              (Table.keys (additions old new)).Nodup := by
            apply List.Nodup.sublist _
              hModified.ordered.keys_nodup
            exact List.filter_sublist.map _
          have hPatch :
              (between (.obj old) (.obj new)).members =
                putAll (additions old new)
                  (changes old new) :=
            rfl
          show _ =
            memberChange (Table.get? k old) (Table.get? k new)
          rw [hPatch, get?_putAll k hNew, get?_additions,
            get?_changes k hOld]
          cases hFound : Table.get? k old with
          | none => simp [Table.has, hFound, memberChange]
          | some before => simp [Table.has, hFound]
      | _ => rfl
  | _ => cases hObject

/- Two objects, or a value and an object, make an object. -/
theorem isObject_between
    (base : Json)
    {modified : Json}
    (hObject : modified.isObject = true) :
    (between base modified).isObject = true := by
  cases modified with
  | obj new => cases base <;> rfl
  | _ => cases hObject

------------------------------------------------------------
-- Order of Patches
------------------------------------------------------------

theorem ordered_changes
    (base modified : Table String Json) :
    Table.Ordered (changes base modified) := by
  induction base with
  | nil => exact List.Pairwise.nil
  | cons e rest ih =>
      rcases e with ⟨k, before⟩
      rw [changes]
      cases Table.get? k modified with
      | none => exact ih.put k _
      | some after =>
          dsimp only
          split
          · exact ih
          · split
            · exact ih.put k _
            · exact ih.put k _

theorem ordered_putAll
    (entries : Table String Json)
    {t : Table String Json}
    (hOrdered : Table.Ordered t) :
    Table.Ordered (putAll entries t) := by
  induction entries generalizing t with
  | nil => exact hOrdered
  | cons e rest ih => exact ih (hOrdered.put e.1 e.2)

/- The members of a patch are in order. -/
theorem ordered_between
    (base : Json)
    {modified : Json}
    (hModified : modified.Canonical) :
    Table.Ordered (between base modified).members := by
  by_cases hObjects :
      (base.isObject && modified.isObject) = true
  · cases base with
    | obj old =>
        cases modified with
        | obj new =>
            exact ordered_putAll _ (ordered_changes old new)
        | _ => cases hObjects
    | _ => cases hObjects
  · rw [between_of_not_objects
      (Bool.not_eq_true _ ▸ hObjects)]
    exact hModified.ordered

/- Patched members stay in order. -/
theorem ordered_applyMembers
    (patch : Table String Json)
    {target : Table String Json}
    (hOrdered : Table.Ordered target) :
    Table.Ordered (applyMembers patch target) := by
  induction patch generalizing target with
  | nil => exact hOrdered
  | cons e rest ih =>
      rcases e with ⟨k, v⟩
      cases v with
      | null => exact ih (hOrdered.erase k)
      | _ => exact ih (hOrdered.put k _)

------------------------------------------------------------
-- Patched Values Member by Member
------------------------------------------------------------

/- What a patch makes of a member. -/
def patchedMember
    (change? before? : Option Json) : Option Json :=
  match change? with
  | none => before?
  | some change =>
      if change.isNull then
        none
      else
        some (apply change (before?.getD .null))

/- A patch that names no key twice, member by member. -/
theorem get?_applyMembers_of_nodup
    (k : String)
    {patch : Table String Json}
    (hKeys : (Table.keys patch).Nodup)
    (target : Table String Json) :
    Table.get? k (applyMembers patch target) =
      patchedMember (Table.get? k patch)
        (Table.get? k target) := by
  induction patch generalizing target with
  | nil => rfl
  | cons e rest ih =>
      rcases e with ⟨l, v⟩
      rcases List.nodup_cons.mp hKeys with ⟨hNew, hRest⟩
      by_cases hKey : k = l
      · subst hKey
        rw [Table.get?_cons, if_pos rfl]
        cases hValue : v.isNull with
        | true =>
            rw [isNull_iff.mp hValue, applyMembers_null,
              ih hRest, Table.get?_eq_none_iff.mpr hNew,
              Table.get?_erase, if_pos rfl]
            rfl
        | false =>
            rw [applyMembers_value hValue, ih hRest,
              Table.get?_eq_none_iff.mpr hNew,
              Table.get?_put, if_pos rfl]
            simp [patchedMember, hValue]
      · rw [Table.get?_cons, if_neg hKey]
        cases hValue : v.isNull with
        | true =>
            rw [isNull_iff.mp hValue, applyMembers_null,
              ih hRest, Table.get?_erase, if_neg hKey]
        | false =>
            rw [applyMembers_value hValue, ih hRest,
              Table.get?_put, if_neg hKey]

/- A patch that is an object makes an object. -/
theorem apply_of_object
    {patch : Json}
    (hObject : patch.isObject = true)
    (target : Json) :
    apply patch target =
      .obj (applyMembers patch.members target.members) := by
  rw [isObject_iff.mp hObject]
  rfl

/- Any other patch replaces the value. -/
theorem apply_of_not_object
    {patch : Json}
    (hOther : patch.isObject = false)
    (target : Json) :
    apply patch target = patch := by
  cases patch with
  | obj ms => cases hOther
  | _ => rfl

/-
  Any value patched with the patch between two others, member
  by member.
-/
theorem get?_apply_between
    (k : String)
    {base modified : Json}
    (hBase : base.Canonical)
    (hModified : modified.Canonical)
    (hObject : modified.isObject = true)
    (target : Json) :
    Table.get? k
        (apply (between base modified) target).members =
      patchedMember
        (memberChange (Table.get? k base.members)
          (Table.get? k modified.members))
        (Table.get? k target.members) := by
  have hOrdered := ordered_between base hModified
  have hApplied :=
    get?_applyMembers_of_nodup k hOrdered.keys_nodup
      target.members
  rw [get?_between k hBase hModified hObject] at hApplied
  rw [apply_of_object (isObject_between base hObject)]
  exact hApplied

/- Its members are in order. -/
theorem ordered_apply_between
    {base modified : Json}
    (hBase : base.Canonical)
    (hObject : modified.isObject = true) :
    Table.Ordered
      (apply (between base modified) base).members := by
  rw [apply_of_object (isObject_between base hObject)]
  exact ordered_applyMembers _ hBase.ordered

------------------------------------------------------------
-- Round Trips
------------------------------------------------------------

/- A member that the modified value lacks is taken away. -/
theorem patchedMember_gone
    (before? : Option Json) :
    patchedMember (memberChange before? none) before? =
      none := by
  cases before? <;> rfl

/- The patch from null is the value itself. -/
theorem patchedMember_new
    (after : Json) :
    patchedMember (memberChange none (some after)) none =
      if after.isNull then none
      else some (apply (between .null after) .null) :=
  rfl

/- A member that agrees is left as it is. -/
theorem patchedMember_same
    {before after : Json}
    (hAgree : Agree after before) :
    patchedMember (memberChange (some before) (some after))
        (some before) =
      some before := by
  rw [memberChange, if_pos hAgree]
  rfl

/- Any other member is patched with the patch between. -/
theorem patchedMember_changed
    {before after : Json}
    (hChanged : ¬ Agree after before) :
    patchedMember (memberChange (some before) (some after))
        (some before) =
      if after.isNull then none
      else some (apply (between before after) before) := by
  rw [memberChange, if_neg hChanged, patchedMember,
    isNull_between]
  rfl

/-
  A member is patched to the modified value exactly if that
  value is a null only where null was before, and if the
  patch between the values leads to it.
-/
theorem patchedMember_agrees_iff
    {before? : Option Json}
    {after : Json}
    (hRoundTrip :
      Agree
          (apply (between (before?.getD .null) after)
            (before?.getD .null))
          after ↔
        after.NullsIn (before?.getD .null)) :
    (patchedMember (memberChange before? (some after))
        before?).map signless = some after.signless ↔
      (after = .null → before? = some .null) ∧
        after.NullsIn (before?.getD .null) := by
  have hValue :
      ∀ b : Json,
        (some b).map signless = some after.signless ↔
          Agree b after := by
    intro b
    simp [Agree]
  cases before? with
  | none =>
      rw [patchedMember_new]
      by_cases hNull : after = .null
      · simp [hNull, isNull]
      · rw [if_neg (fun h => hNull (isNull_iff.mp h)),
          hValue]
        simp only [hNull, false_implies, true_and]
        exact hRoundTrip
  | some before =>
      by_cases hAgree : Agree after before
      · rw [patchedMember_same hAgree, hValue]
        refine ⟨fun _ => ⟨?_, hAgree.nullsIn⟩,
          fun _ => hAgree.symm⟩
        intro hNull
        rw [hNull] at hAgree
        rw [signless_eq_null_iff.mp hAgree.symm]
      · rw [patchedMember_changed hAgree]
        by_cases hNull : after = .null
        · have hOther : before ≠ .null := by
            intro hSame
            exact hAgree (by rw [hNull, hSame]; rfl)
          simp [hNull, isNull, hOther]
        · rw [if_neg (fun h => hNull (isNull_iff.mp h)),
            hValue]
          simp only [hNull, false_implies, true_and]
          exact hRoundTrip

/-
  The patch between two values leads from the one to the
  other exactly if the nulls of the other are in the one.
-/
theorem roundTrip_iff
    {base modified : Json}
    (hBase : base.Canonical)
    (hModified : modified.Canonical) :
    Agree (apply (between base modified) base) modified ↔
      modified.NullsIn base := by
  induction modified using induction_members
      generalizing base with
  | step modified ih =>
  cases hObject : modified.isObject with
  | false =>
      have hNoMembers := members_of_not_object hObject
      have hBetween : between base modified = modified := by
        apply between_of_not_objects
        rw [hObject, Bool.and_false]
      rw [hBetween, apply_of_not_object hObject]
      simp [Agree.refl, nullsIn_of_noMembers hNoMembers]
  | true =>
      have hPatched :
          (apply (between base modified) base).isObject =
            true := by
        rw [apply_of_object (isObject_between base hObject)]
        rfl
      rw [nullsIn_iff_members,
        agree_iff_members hPatched hObject
          (ordered_apply_between hBase hObject)
          hModified.ordered]
      apply forall_congr'
      intro k
      rw [get?_apply_between k hBase hModified hObject]
      cases hFound : Table.get? k modified.members with
      | none => simp [patchedMember_gone]
      | some after =>
          have hBefore :
              ((Table.get? k base.members).getD
                .null).Canonical := by
            cases hOld : Table.get? k base.members with
            | none => trivial
            | some before => exact hBase.member hOld
          have hMember :=
            patchedMember_agrees_iff
              (ih k after hFound hBefore
                (hModified.member hFound))
          rw [Option.map_some, hMember]
          simp

/-
  Applying the patch between two values to the first yields
  the second exactly if every null below the top of the
  second is a null of the first, too.  So it does whenever
  the second has no null below the top.
-/
theorem apply_between_agrees_iff
    {base modified : Json}
    (hBase : base.Canonical)
    (hModified : modified.Canonical) :
    (Agree (apply (between base modified) base) modified ↔
      ∀ path,
        path ≠ [] →
          modified.at? path = some .null →
            base.at? path = some .null) ∧
      ((∀ path,
        path ≠ [] → modified.at? path ≠ some .null) →
          Agree (apply (between base modified) base)
            modified) := by
  have hRoundTrip := roundTrip_iff hBase hModified
  constructor
  · exact hRoundTrip
  · intro hNoNull
    apply hRoundTrip.mpr
    intro path hBelow hNull
    exact absurd hNull (hNoNull path hBelow)

/- Members of which one is null. -/
def cleared : Json :=
  .obj [("a", .null), ("b", .int 1)]

/- The null stays, and a null in an array is new. -/
def relisted : Json :=
  .obj [("a", .null), ("b", .obj [("c", .arr [.null])])]

/- The null stays, and a null member is new. -/
def nulled : Json :=
  .obj [("a", .null), ("b", .obj [("c", .null)])]

theorem cleared_agrees_iff :
    (cleared.Canonical ∧ relisted.Canonical ∧
      nulled.Canonical) ∧
      relisted.NullsIn cleared ∧
      ¬ nulled.NullsIn cleared := by
  have hCleared : cleared.Canonical := by
    simp only [cleared, Canonical, CanonicalMembers]
    decide
  have hRelisted : relisted.Canonical := by
    simp only [relisted, Canonical, CanonicalMembers,
      CanonicalItems]
    decide
  have hNulled : nulled.Canonical := by
    simp only [nulled, Canonical, CanonicalMembers]
    decide
  refine ⟨⟨hCleared, hRelisted, hNulled⟩, ?_, ?_⟩
  · exact (apply_between_agrees_iff hCleared hRelisted).1.mp
      (by decide)
  · intro hNulls
    have hAgree :=
      (apply_between_agrees_iff hCleared hNulled).1.mpr
        hNulls
    exact absurd hAgree (by decide)

end MergePatch

end Reconciler
