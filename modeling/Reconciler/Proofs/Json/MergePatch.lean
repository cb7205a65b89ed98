import Reconciler.Json.MergePatch
import Reconciler.Proofs.Json.Record

/-
  This file proves the laws of merge patches that editing
  one member of an object relies on.

  The patch between an object and the same object with one
  other value holds that member only, and applying a patch
  leaves the members alone that it does not name.

  Key definitions include:
    * `MergePatch.Keeps`
    * `MergePatch.edit`

  Key theorems include:
    * `MergePatch.between_edit`
    * `MergePatch.get?_applyMembers`
-/

namespace Reconciler

------------------------------------------------------------
-- Patches Between Objects
------------------------------------------------------------

namespace MergePatch

open Json

/- Every member of the base is found with the same value. -/
def Keeps
    (base modified : Table String Json) : Prop :=
  ∀ e ∈ base,
    ∃ after,
      Table.get? e.1 modified = some after ∧
        Agree after e.2

/- What a patch says about a member with a new value. -/
def edit
    (k : String)
    (before after : Json) : List (String × Json) :=
  if Agree after before then
    []
  else if before.isObject && after.isObject then
    [(k, between before after)]
  else
    [(k, after)]

/- Members that are kept do not show in front of others. -/
theorem changes_keeps_append
    {pre rest modified : Table String Json}
    (hKeeps : Keeps pre modified) :
    changes (pre ++ rest) modified = changes rest modified := by
  induction pre with
  | nil => rfl
  | cons e pre ih =>
      rcases e with ⟨k, before⟩
      rcases hKeeps (k, before) List.mem_cons_self with
        ⟨after, hFound, hAgree⟩
      have hRest : Keeps pre modified := by
        intro e hMember
        exact hKeeps e (List.mem_cons_of_mem _ hMember)
      rw [List.cons_append, changes, hFound]
      dsimp only
      rw [if_pos hAgree]
      exact ih hRest

/- Members that are kept do not show in a patch. -/
theorem changes_keeps
    {base modified : Table String Json}
    (hKeeps : Keeps base modified) :
    changes base modified = [] := by
  rw [← List.append_nil base, changes_keeps_append hKeeps]
  rfl

/- Of the other members only the edited one shows. -/
theorem changes_edit
    {pre post modified : Table String Json}
    {k : String}
    {before after : Json}
    (hPre : Keeps pre modified)
    (hPost : Keeps post modified)
    (hFound : Table.get? k modified = some after) :
    changes (pre ++ (k, before) :: post) modified =
      edit k before after := by
  rw [changes_keeps_append hPre, changes, hFound]
  dsimp only
  rw [changes_keeps hPost]
  rfl

/- A member that is gone shows as null. -/
theorem changes_gone
    {pre post modified : Table String Json}
    {k : String}
    {before : Json}
    (hPre : Keeps pre modified)
    (hPost : Keeps post modified)
    (hGone : Table.get? k modified = none) :
    changes (pre ++ (k, before) :: post) modified =
      [(k, .null)] := by
  rw [changes_keeps_append hPre, changes, hGone]
  dsimp only
  rw [changes_keeps hPost]
  rfl

/-
  The patch between an object and the same object with one
  other value is about that value.
-/
theorem between_edit
    {pre post : Table String Json}
    {k : String}
    {before after : Json}
    (hKeys :
      (Table.keys (pre ++ (k, before) :: post)).Nodup) :
    between (.obj (pre ++ (k, before) :: post))
        (.obj (pre ++ (k, after) :: post)) =
      .obj (edit k before after) := by
  have hSameKeys :
      Table.keys (pre ++ (k, before) :: post) =
        Table.keys (pre ++ (k, after) :: post) := by
    simp [Table.keys]
  have hFound :
      ∀ e ∈ pre ++ (k, after) :: post,
        Table.get? e.1 (pre ++ (k, after) :: post) =
          some e.2 := by
    intro e hMember
    rw [hSameKeys] at hKeys
    exact Table.get?_of_mem hKeys hMember
  have hAdditions :
      additions (pre ++ (k, before) :: post)
        (pre ++ (k, after) :: post) = [] := by
    apply List.filter_eq_nil_iff.mpr
    intro e hMember
    have hKey :
        e.1 ∈ Table.keys (pre ++ (k, before) :: post) := by
      rw [hSameKeys]
      exact List.mem_map_of_mem hMember
    simp [(Table.has_iff_mem_keys _ _).mpr hKey]
  have hPre : Keeps pre (pre ++ (k, after) :: post) := by
    intro e hMember
    exact ⟨e.2, hFound e (by simp [hMember]), .refl _⟩
  have hPost : Keeps post (pre ++ (k, after) :: post) := by
    intro e hMember
    exact ⟨e.2, hFound e (by simp [hMember]), .refl _⟩
  rw [between, hAdditions,
    changes_edit hPre hPost (hFound (k, after) (by simp))]
  rfl

/-
  Objects that differ in one member agree only if the two
  values of the member do.
-/
theorem agree_edit
    {pre post : Table String Json}
    {k : String}
    {before after : Json}
    (hAgree :
      Agree (.obj (pre ++ (k, after) :: post))
        (.obj (pre ++ (k, before) :: post))) :
    Agree after before := by
  unfold Agree at hAgree
  rw [signless, signless] at hAgree
  injection hAgree with hMembers
  induction pre with
  | nil =>
      rw [List.nil_append, List.nil_append, signlessMembers,
        signlessMembers] at hMembers
      injection hMembers with hMember
      injection hMember
  | cons e rest ih =>
      rw [List.cons_append, List.cons_append,
        signlessMembers, signlessMembers] at hMembers
      injection hMembers with _ hRest
      exact ih hRest

/- The patch between records that differ in one field. -/
theorem between_record
    (pre post : List (String × Option Json))
    {k : String}
    {before after : Json}
    (hKeys :
      ((pre ++ (k, some before) :: post).map (·.1)).Nodup) :
    between (record (pre ++ (k, some before) :: post))
        (record (pre ++ (k, some after) :: post)) =
      .obj (edit k before after) := by
  have hMembers :=
    hKeys.sublist
      (keys_record (pre ++ (k, some before) :: post))
  rw [record_field] at hMembers
  rw [record_field, record_field]
  exact between_edit hMembers

/- Records that differ in one field, where they agree. -/
theorem agree_record
    (pre post : List (String × Option Json))
    {k : String}
    {before after : Json}
    (hAgree :
      Agree (record (pre ++ (k, some after) :: post))
        (record (pre ++ (k, some before) :: post))) :
    Agree after before := by
  rw [record_field, record_field] at hAgree
  exact agree_edit hAgree

------------------------------------------------------------
-- Patched Objects
------------------------------------------------------------

@[simp]
theorem apply_obj
    (patch : Table String Json)
    (target : Json) :
    apply (.obj patch) target =
      .obj (applyMembers patch target.members) :=
  rfl

theorem applyMembers_null
    (k : String)
    (rest target : Table String Json) :
    applyMembers ((k, .null) :: rest) target =
      applyMembers rest (Table.erase k target) :=
  rfl

theorem applyMembers_value
    {v : Json}
    (hValue : v.isNull = false)
    (k : String)
    (rest target : Table String Json) :
    applyMembers ((k, v) :: rest) target =
      applyMembers rest
        (Table.put k
          (apply v ((Table.get? k target).getD .null))
          target) := by
  cases v with
  | null => cases hValue
  | bool _ => rfl
  | int _ => rfl
  | real _ => rfl
  | str _ => rfl
  | arr _ => rfl
  | obj _ => rfl

/- A member that a patch does not name stays as it is. -/
theorem get?_applyMembers
    {patch target : Table String Json}
    {k : String}
    (hOther : ∀ e ∈ patch, e.1 ≠ k) :
    Table.get? k (applyMembers patch target) =
      Table.get? k target := by
  induction patch generalizing target with
  | nil => rfl
  | cons e rest ih =>
      rcases e with ⟨l, v⟩
      have hNe : k ≠ l :=
        (hOther (l, v) List.mem_cons_self).symm
      have hRest : ∀ e ∈ rest, e.1 ≠ k := by
        intro e hMember
        exact hOther e (List.mem_cons_of_mem _ hMember)
      cases hValue : v.isNull with
      | true =>
          have hNull : v = .null := by
            cases v with
            | null => rfl
            | _ => cases hValue
          rw [hNull, applyMembers_null, ih hRest,
            Table.get?_erase, if_neg hNe]
      | false =>
          rw [applyMembers_value hValue, ih hRest,
            Table.get?_put, if_neg hNe]

/- A patch of one member leaves the others as they are. -/
theorem get?_applyMembers_other
    {k l : String}
    {v : Json}
    (hOther : k ≠ l)
    (target : Table String Json) :
    Table.get? k (applyMembers [(l, v)] target) =
      Table.get? k target := by
  apply get?_applyMembers
  intro e hMember
  rw [List.mem_singleton.mp hMember]
  exact hOther.symm

/- A patch of one member patches the value of that member. -/
theorem get?_applyMembers_self
    {k : String}
    {v : Json}
    (hValue : v.isNull = false)
    (target : Table String Json) :
    Table.get? k (applyMembers [(k, v)] target) =
      some (apply v ((Table.get? k target).getD .null)) := by
  rw [applyMembers_value hValue]
  exact (Table.get?_put k k _ target).trans (if_pos rfl)

end MergePatch

end Reconciler
