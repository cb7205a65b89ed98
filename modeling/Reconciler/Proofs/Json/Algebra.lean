import Reconciler.Proofs.Json.RoundTrip

/-
  This file gives the algebra of applying merge patches.

  A patch sets and removes what it names, whatever was there
  before, so that nothing is left to do for a second
  application.  Two object patches that never name the same
  place do not see each other, so that either may go first.

  Key definitions include:
    * `MergePatch.Disjoint`

  Key theorems include:
    * `MergePatch.get?_apply`
    * `MergePatch.apply_apply`
    * `MergePatch.Disjoint.apply_comm`
    * `MergePatch.apply_settles_and_commutes`
-/

------------------------------------------------------------
-- Objects in Order
------------------------------------------------------------

namespace Reconciler

/- Objects in order are the same if their members are. -/
theorem Json.eq_of_members
    {a b : Json}
    (hObject : a.isObject = true)
    (hObject' : b.isObject = true)
    (hOrdered : Table.Ordered a.members)
    (hOrdered' : Table.Ordered b.members)
    (hSame :
      ∀ k, Table.get? k a.members = Table.get? k b.members) :
    a = b := by
  rw [isObject_iff.mp hObject, isObject_iff.mp hObject',
    hOrdered.ext hOrdered' hSame]

/- The value of a member, or null, is canonical. -/
theorem Json.Canonical.getD
    {j : Json}
    (hCanonical : j.Canonical)
    (k : String) :
    ((Table.get? k j.members).getD .null).Canonical := by
  cases hFound : Table.get? k j.members with
  | none => trivial
  | some v => exact hCanonical.member hFound

namespace MergePatch

open Json

variable {patch target : Json}

------------------------------------------------------------
-- Patched Values
------------------------------------------------------------

/- A patched value, member by member. -/
theorem get?_apply
    (k : String)
    (hPatch : patch.Canonical)
    (hObject : patch.isObject = true)
    (target : Json) :
    Table.get? k (apply patch target).members =
      patchedMember (Table.get? k patch.members)
        (Table.get? k target.members) := by
  rw [apply_of_object hObject]
  exact get?_applyMembers_of_nodup k
    hPatch.ordered.keys_nodup target.members

theorem isObject_apply
    (hObject : patch.isObject = true)
    (target : Json) :
    (apply patch target).isObject = true := by
  rw [apply_of_object hObject]
  rfl

/- The members of a patched value stay in order. -/
theorem ordered_apply
    (hObject : patch.isObject = true)
    (hOrdered : Table.Ordered target.members) :
    Table.Ordered (apply patch target).members := by
  rw [apply_of_object hObject]
  exact ordered_applyMembers patch.members hOrdered

------------------------------------------------------------
-- Second Applications
------------------------------------------------------------

/-
  A change of a member that finds its own result changes
  nothing, if that holds of the change itself.
-/
theorem patchedMember_again
    {change? : Option Json}
    (before? : Option Json)
    (hAgain :
      ∀ change,
        change? = some change →
          apply change (apply change (before?.getD .null)) =
            apply change (before?.getD .null)) :
    patchedMember change? (patchedMember change? before?) =
      patchedMember change? before? := by
  cases change? with
  | none => rfl
  | some change =>
      unfold patchedMember
      dsimp only
      split
      · rfl
      · rw [Option.getD_some, hAgain change rfl]

/- Applying a patch once more changes nothing. -/
theorem apply_apply
    (hPatch : patch.Canonical)
    (hTarget : target.Canonical) :
    apply patch (apply patch target) =
      apply patch target := by
  induction patch using induction_members
      generalizing target with
  | step patch ih =>
  cases hObject : patch.isObject with
  | false =>
      rw [apply_of_not_object hObject,
        apply_of_not_object hObject]
  | true =>
      have hOrdered := ordered_apply hObject hTarget.ordered
      apply eq_of_members (isObject_apply hObject _)
        (isObject_apply hObject _)
        (ordered_apply hObject hOrdered) hOrdered
      intro k
      rw [get?_apply k hPatch hObject,
        get?_apply k hPatch hObject]
      apply patchedMember_again
      intro change hFound
      exact ih k change hFound (hPatch.member hFound)
        (hTarget.getD k)

------------------------------------------------------------
-- Disjoint Patches
------------------------------------------------------------

/-
  Two object patches are disjoint if at every key that both
  of them have, the values are again disjoint; so these have
  to be objects, too.
-/
inductive Disjoint : Json → Json → Prop where
  | objects
      {p q : Table String Json}
      (hShared :
        ∀ k v w,
          Table.get? k p = some v →
            Table.get? k q = some w →
              Disjoint v w) :
      Disjoint (.obj p) (.obj q)

/- Neither of two disjoint patches removes its target. -/
theorem Disjoint.no_null
    {p q : Json}
    (hDisjoint : Disjoint p q) :
    p.isNull = false ∧ q.isNull = false := by
  cases hDisjoint with
  | objects hShared => exact ⟨rfl, rfl⟩

/-
  Two changes of a member can be made in either order, if
  that holds of the changes where there are two.
-/
theorem patchedMember_comm
    {change? other? : Option Json}
    (before? : Option Json)
    (hNoNull :
      ∀ v w,
        change? = some v → other? = some w →
          v.isNull = false ∧ w.isNull = false)
    (hComm :
      ∀ v w,
        change? = some v → other? = some w →
          apply w (apply v (before?.getD .null)) =
            apply v (apply w (before?.getD .null))) :
    patchedMember other? (patchedMember change? before?) =
      patchedMember change?
        (patchedMember other? before?) := by
  cases change? with
  | none => rfl
  | some v =>
      cases other? with
      | none => rfl
      | some w =>
          rcases hNoNull v w rfl rfl with ⟨hV, hW⟩
          simp only [patchedMember, hV, hW,
            Bool.false_eq_true, if_false, Option.getD_some]
          rw [hComm v w rfl rfl]

/- Disjoint patches can be applied in either order. -/
theorem Disjoint.apply_comm
    {p q : Json}
    (hDisjoint : Disjoint p q)
    (hP : p.Canonical)
    (hQ : q.Canonical)
    (hTarget : target.Canonical) :
    apply q (apply p target) = apply p (apply q target) := by
  induction hDisjoint generalizing target with
  | @objects p q hShared ih =>
      have hOrderedP :
          Table.Ordered (apply (.obj p) target).members :=
        ordered_apply rfl hTarget.ordered
      have hOrderedQ :
          Table.Ordered (apply (.obj q) target).members :=
        ordered_apply rfl hTarget.ordered
      apply eq_of_members (isObject_apply rfl _)
        (isObject_apply rfl _) (ordered_apply rfl hOrderedP)
        (ordered_apply rfl hOrderedQ)
      intro k
      rw [get?_apply k hQ rfl, get?_apply k hP rfl,
        get?_apply k hP rfl, get?_apply k hQ rfl]
      apply patchedMember_comm
      · intro v w hV hW
        exact (hShared k v w hV hW).no_null
      · intro v w hV hW
        exact ih k v w hV hW (hP.member hV) (hQ.member hW)
          (hTarget.getD k)

------------------------------------------------------------
-- The Algebra
------------------------------------------------------------

/-
  Whatever the target, a patch that is applied twice does
  what it does when applied once, and two disjoint object
  patches do the same in either order.
-/
theorem apply_settles_and_commutes
    (hTarget : target.Canonical) :
    (∀ patch : Json,
      patch.Canonical →
        apply patch (apply patch target) =
          apply patch target) ∧
      ∀ p q : Json,
        p.Canonical → q.Canonical → Disjoint p q →
          apply q (apply p target) =
            apply p (apply q target) := by
  constructor
  · intro patch hPatch
    exact apply_apply hPatch hTarget
  · intro p q hP hQ hDisjoint
    exact hDisjoint.apply_comm hP hQ hTarget

/- A patch that names an owner and drops a name. -/
def owning : Json :=
  .obj [("meta", .obj [("name", .null), ("owner", .str "a")])]

/- A patch that puts a tag beside them. -/
def tagging : Json :=
  .obj
    [("meta", .obj [("tags", .obj [("x", .int 1)])]),
      ("spec", .null)]

/- A value without an object where both of them go. -/
def listed : Json :=
  .obj [("meta", .arr [.null]), ("spec", .int 1)]

theorem owning_settles_and_commutes :
    (listed.Canonical ∧ owning.Canonical ∧
      tagging.Canonical) ∧
      Disjoint owning tagging ∧
      apply owning (apply owning listed) =
        .obj
          [("meta", .obj [("owner", .str "a")]),
            ("spec", .int 1)] ∧
      apply tagging (apply owning listed) =
        apply owning (apply tagging listed) := by
  have hListed : listed.Canonical := by
    simp only [listed, Canonical, CanonicalMembers,
      CanonicalItems]
    decide
  have hOwning : owning.Canonical := by
    simp only [owning, Canonical, CanonicalMembers]
    decide
  have hTagging : tagging.Canonical := by
    simp only [tagging, Canonical, CanonicalMembers]
    decide
  have hDisjoint : Disjoint owning tagging := by
    -- The key that both have leads to different keys.
    apply Disjoint.objects
    intro k v w hV hW
    simp only [Table.get?_cons, Table.get?_nil] at hV hW
    split at hV
    · next hMeta =>
        rw [if_pos hMeta] at hW
        cases hV
        cases hW
        apply Disjoint.objects
        intro l x y hX hY
        simp only [Table.get?_cons, Table.get?_nil] at hX hY
        split at hY
        · next hTags =>
            rw [hTags] at hX
            simp at hX
        · cases hY
    · cases hV
  rcases apply_settles_and_commutes hListed with
    ⟨hAgain, hComm⟩
  refine ⟨⟨hListed, hOwning, hTagging⟩, hDisjoint, ?_,
    hComm owning tagging hOwning hTagging hDisjoint⟩
  rw [hAgain owning hOwning]
  decide

end MergePatch

end Reconciler
