import Reconciler.Proofs.Json.RoundTrip

/-
  This file proves that merge patches merge three ways.

  A patch is computed from two values and applied to a third
  one, which someone else has changed in the meantime.  Where
  the two values agree, the third one keeps what it has; where
  they differ, it takes over what the second one has.  The
  third value may have any shape: a patch makes its way
  through values that are no objects.

  Key definitions include:
    * `Json.ObjectsAbove`
    * `Json.AgreeAt`

  Key theorems include:
    * `Json.Agree.agreeAt`
    * `MergePatch.patchedMember_untouched`
    * `MergePatch.patchedMember_taken`
    * `MergePatch.between_mergesThreeWay`
-/

------------------------------------------------------------
-- Paths through Objects
------------------------------------------------------------

namespace Reconciler

namespace Json

/- There is an object at every proper prefix of a path. -/
def ObjectsAbove
    (path : List String)
    (j : Json) : Prop :=
  ∀ n, n < path.length →
    (j.at? (path.take n)).any isObject = true

instance
    (path : List String)
    (j : Json) :
    Decidable (ObjectsAbove path j) := by
  unfold ObjectsAbove
  infer_instance

/- Two values agree at a path, or both have nothing there. -/
def AgreeAt
    (path : List String)
    (a b : Json) : Prop :=
  Option.Rel Agree (a.at? path) (b.at? path)

/- Values that agree do so at every path. -/
theorem Agree.agreeAt
    {a b : Json}
    (hAgree : Agree a b)
    (path : List String) :
    AgreeAt path a b := by
  have hSame :
      (a.at? path).map signless =
        (b.at? path).map signless := by
    rw [← at?_signless, ← at?_signless, hAgree]
  unfold AgreeAt
  cases hFirst : a.at? path with
  | none =>
      rw [hFirst, Option.map_none] at hSame
      rw [Option.map_eq_none_iff.mp hSame.symm]
      exact .none
  | some v =>
      rw [hFirst, Option.map_some] at hSame
      rcases Option.map_eq_some_iff.mp hSame.symm with
        ⟨w, hSecond, hValue⟩
      rw [hSecond]
      exact .some hValue.symm

namespace ObjectsAbove

variable {k : String}
variable {path : List String}
variable {j : Json}

/- A path that is not empty starts at an object. -/
theorem top
    (hAbove : j.ObjectsAbove (k :: path)) :
    j.isObject = true :=
  hAbove 0 (Nat.zero_lt_succ _)

/-
  A path that goes on has an object at its first member, and
  above the rest there are objects, too.
-/
theorem next
    (hAbove : j.ObjectsAbove (k :: path))
    (hOn : path ≠ []) :
    ∃ v,
      Table.get? k j.members = some v ∧
        v.isObject = true ∧
        v.ObjectsAbove path := by
  have hBelow :
      ∀ n, n < path.length →
        ((Table.get? k j.members).bind
          (at? (path.take n))).any isObject = true := by
    intro n hShort
    rw [← at?_cons, ← List.take_succ_cons]
    exact hAbove (n + 1) (Nat.succ_lt_succ hShort)
  have hFirst := hBelow 0 (List.length_pos_of_ne_nil hOn)
  cases hFound : Table.get? k j.members with
  | none =>
      rw [hFound] at hFirst
      cases hFirst
  | some v =>
      rw [hFound] at hFirst hBelow
      exact ⟨v, rfl, hFirst, hBelow⟩

end ObjectsAbove

end Json

------------------------------------------------------------
-- Patched Members
------------------------------------------------------------

namespace MergePatch

open Json

/- A member that is the same in both values is not touched. -/
theorem patchedMember_untouched
    {before? after? : Option Json}
    (hAgree : Option.Rel Agree before? after?)
    (there? : Option Json) :
    patchedMember (memberChange before? after?) there? =
      there? := by
  cases hAgree with
  | none => rfl
  | some hValue =>
      rw [memberChange, if_pos hValue.symm]
      rfl

/-
  A member that is not the same is taken over from the
  second value, unless an object is patched: then a null is
  taken for nothing.
-/
theorem patchedMember_taken
    {before? after? : Option Json}
    (hDiffer : ¬ Option.Rel Agree before? after?)
    (hNoObject : after?.any isObject = false)
    (there? : Option Json) :
    patchedMember (memberChange before? after?) there? =
      after?.filter (fun v => !v.isNull) := by
  cases after? with
  | none =>
      cases before? with
      | none => exact absurd .none hDiffer
      | some before => rfl
  | some after =>
      have hOther : after.isObject = false := hNoObject
      have hChange :
          memberChange before? (some after) = some after := by
        cases before? with
        | none => rfl
        | some before =>
            have hChanged : ¬ Agree after before := by
              intro hValue
              exact hDiffer (.some hValue.symm)
            have hReplaced : between before after = after := by
              apply between_of_not_objects
              rw [hOther, Bool.and_false]
            rw [memberChange, if_neg hChanged, hReplaced]
      rw [hChange, patchedMember, Option.filter_some,
        apply_of_not_object hOther]
      cases after.isNull <;> rfl

/- An object that has changed is patched, whatever is there. -/
theorem patchedMember_object
    {before after : Json}
    (hChanged : ¬ Agree after before)
    (hObject : after.isObject = true)
    (there? : Option Json) :
    patchedMember (memberChange (some before) (some after))
        there? =
      some (apply (between before after)
        (there?.getD .null)) := by
  have hValue : (between before after).isNull = false := by
    rw [isNull_between]
    cases after with
    | obj _ => rfl
    | _ => cases hObject
  rw [memberChange, if_neg hChanged, patchedMember, hValue]
  rfl

------------------------------------------------------------
-- Merging Three Ways
------------------------------------------------------------

/-
  Take a path of keys at each proper prefix of which two
  values have an object.  If they agree at the path, their
  patch leaves a third value there as it is, or leaves it
  without one.  If they differ, and the second one has no
  object there, the third one gets what the second one has;
  a null counts as nothing.
-/
theorem between_mergesThreeWay
    {base modified : Json}
    (hBase : base.Canonical)
    (hModified : modified.Canonical)
    {path : List String}
    (hPath : path ≠ [])
    (hBaseAbove : base.ObjectsAbove path)
    (hModifiedAbove : modified.ObjectsAbove path)
    (target : Json) :
    (AgreeAt path base modified →
      (apply (between base modified) target).at? path =
        target.at? path) ∧
      (¬ AgreeAt path base modified →
        (modified.at? path).any isObject = false →
          (apply (between base modified) target).at? path =
            (modified.at? path).filter
              (fun v => !v.isNull)) := by
  induction path generalizing base modified target with
  | nil => exact absurd rfl hPath
  | cons k path ih =>
      have hMember :=
        get?_apply_between k hBase hModified
          hModifiedAbove.top target
      unfold AgreeAt
      rw [at?_cons, at?_cons, at?_cons, at?_cons, hMember]
      by_cases hEnd : path = []
      · -- The patch speaks of the member itself.
        subst hEnd
        simp only [at?, Option.bind_fun_some]
        constructor
        · intro hAgree
          exact patchedMember_untouched hAgree _
        · intro hDiffer hNoObject
          exact patchedMember_taken hDiffer hNoObject _
      · -- Both values have an object on the way.
        rcases hBaseAbove.next hEnd with
          ⟨before, hBefore, _, hBeforeAbove⟩
        rcases hModifiedAbove.next hEnd with
          ⟨after, hAfter, hObject, hAfterAbove⟩
        rw [hBefore, hAfter, Option.bind_some,
          Option.bind_some]
        by_cases hAgree : Agree after before
        · rw [patchedMember_untouched (.some hAgree.symm)]
          constructor
          · intro _
            rfl
          · intro hDiffer
            exact absurd (hAgree.symm.agreeAt path) hDiffer
        · have hThere :
              (Table.get? k target.members).bind
                  (at? path) =
                ((Table.get? k target.members).getD
                  .null).at? path := by
            cases Table.get? k target.members with
            | none =>
                exact (at?_of_noMembers rfl hEnd).symm
            | some there => rfl
          rw [patchedMember_object hAgree hObject,
            Option.bind_some, hThere]
          exact ih (hBase.member hBefore)
            (hModified.member hAfter) hEnd hBeforeAbove
            hAfterAbove _

/- A value that two writers have read. -/
def shared : Json :=
  .obj [("spec", .obj [("mode", .str "a"), ("size", .int 1)])]

/- The one has changed the mode. -/
def retuned : Json :=
  .obj [("spec", .obj [("mode", .str "b"), ("size", .int 1)])]

/- The other has put a text in the place of the object. -/
def flattened : Json :=
  .obj [("spec", .str "none")]

theorem shared_mergesThreeWay :
    (shared.Canonical ∧ retuned.Canonical) ∧
      (∀ key ∈ ["mode", "size"],
        shared.ObjectsAbove ["spec", key] ∧
          retuned.ObjectsAbove ["spec", key]) ∧
      (apply (between shared retuned) flattened).at?
          ["spec", "size"] = none ∧
      (apply (between shared retuned) flattened).at?
          ["spec", "mode"] = some (.str "b") := by
  have hShared : shared.Canonical := by
    simp only [shared, Canonical, CanonicalMembers]
    decide
  have hRetuned : retuned.Canonical := by
    simp only [retuned, Canonical, CanonicalMembers]
    decide
  have hAbove :
      ∀ key ∈ ["mode", "size"],
        shared.ObjectsAbove ["spec", key] ∧
          retuned.ObjectsAbove ["spec", key] := by
    decide
  rcases hAbove "size" (by decide) with ⟨hOld, hNew⟩
  have hSize :=
    between_mergesThreeWay hShared hRetuned
      (List.cons_ne_nil _ _) hOld hNew flattened
  rcases hAbove "mode" (by decide) with ⟨hOld, hNew⟩
  have hMode :=
    between_mergesThreeWay hShared hRetuned
      (List.cons_ne_nil _ _) hOld hNew flattened
  refine ⟨⟨hShared, hRetuned⟩, hAbove, ?_, ?_⟩
  · exact hSize.1 (.some rfl)
  · apply hMode.2
    · intro hAgree
      cases hAgree with
      | some hValue => exact absurd hValue (by decide)
    · rfl

end MergePatch

end Reconciler
