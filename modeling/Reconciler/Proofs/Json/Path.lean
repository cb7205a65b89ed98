import Mathlib.Data.String.Basic
import Reconciler.Json.Basic
import Reconciler.Proofs.Table

/-
  This file proves what the members of a value and the paths
  into it say about the value.

  Values that agree hold the same along every path, but for
  the signs of zeros, and objects in canonical form agree if
  their members do.

  Key definitions include:
    * `Json.NullsIn`

  Key theorems include:
    * `Json.induction_members`
    * `Json.at?_signless`
    * `Json.agree_iff_members`
    * `Json.nullsIn_iff_members`
-/

------------------------------------------------------------
-- Members
------------------------------------------------------------

namespace Reconciler

namespace Json

/-
  A value may be assumed to have a property that all the
  values of its members have.
-/
@[elab_as_elim]
theorem induction_members
    {motive : Json → Prop}
    (step :
      ∀ j : Json,
        (∀ k v,
          Table.get? k j.members = some v → motive v) →
        motive j)
    (j : Json) :
    motive j := by
  apply step
  intro k v hFound
  exact induction_members step v
termination_by sizeOf j
decreasing_by
  cases j with
  | obj ms =>
      have hMember : (k, v) ∈ ms := Table.mem_of_get? hFound
      have hSize := List.sizeOf_lt_of_mem hMember
      simp only [Prod.mk.sizeOf_spec] at hSize
      simp only [obj.sizeOf_spec]
      omega
  | _ => cases hFound

/- Items are canonical if each of them is. -/
theorem canonicalItems_iff
    (items : List Json) :
    CanonicalItems items ↔ ∀ j ∈ items, j.Canonical := by
  induction items with
  | nil => simp [CanonicalItems]
  | cons j rest ih => simp [CanonicalItems, ih]

/- Members are canonical if each of their values is. -/
theorem canonicalMembers_iff
    (ms : List (String × Json)) :
    CanonicalMembers ms ↔ ∀ e ∈ ms, e.2.Canonical := by
  induction ms with
  | nil => simp [CanonicalMembers]
  | cons e rest ih => simp [CanonicalMembers, ih]

/- The members of a canonical value are in order. -/
theorem Canonical.ordered
    {j : Json}
    (hCanonical : j.Canonical) :
    Table.Ordered j.members := by
  cases j with
  | obj ms =>
      rw [Canonical] at hCanonical
      exact hCanonical.1
  | _ => exact List.Pairwise.nil

/- The values of the members are canonical, too. -/
theorem Canonical.member
    {j v : Json}
    {k : String}
    (hCanonical : j.Canonical)
    (hFound : Table.get? k j.members = some v) :
    v.Canonical := by
  cases j with
  | obj ms =>
      rw [Canonical, canonicalMembers_iff] at hCanonical
      exact hCanonical.2 _ (Table.mem_of_get? hFound)
  | _ => cases hFound

/- A path goes through the member that it names first. -/
theorem at?_cons
    (k : String)
    (path : List String)
    (j : Json) :
    j.at? (k :: path) =
      (Table.get? k j.members).bind (at? path) := by
  rw [at?]
  cases Table.get? k j.members <;> rfl

/- Nothing is below a value without members. -/
theorem at?_of_noMembers
    {j : Json}
    {path : List String}
    (hMembers : j.members = [])
    (hBelow : path ≠ []) :
    j.at? path = none := by
  cases path with
  | nil => exact absurd rfl hBelow
  | cons k path =>
      rw [at?_cons, hMembers]
      rfl

------------------------------------------------------------
-- Kinds of Values
------------------------------------------------------------

theorem isNull_iff
    {j : Json} :
    j.isNull = true ↔ j = .null := by
  cases j <;> simp [isNull]

theorem isObject_iff
    {j : Json} :
    j.isObject = true ↔ j = .obj j.members := by
  cases j <;> simp [isObject, members, members?]

/- Other values have no members. -/
theorem members_of_not_object
    {j : Json}
    (hOther : j.isObject = false) :
    j.members = [] := by
  cases j with
  | obj ms => cases hOther
  | _ => rfl

------------------------------------------------------------
-- Signs of Zeros
------------------------------------------------------------

theorem signlessItems_eq_map
    (items : List Json) :
    signlessItems items = items.map signless := by
  induction items with
  | nil => rfl
  | cons j rest ih => rw [signlessItems, ih, List.map_cons]

/- Members keep their keys. -/
theorem signlessMembers_eq_map
    (ms : List (String × Json)) :
    signlessMembers ms =
      ms.map (fun e => (e.1, signless e.2)) := by
  induction ms with
  | nil => rfl
  | cons e rest ih =>
      rcases e with ⟨k, v⟩
      rw [signlessMembers, ih, List.map_cons]

theorem members_signless
    (j : Json) :
    j.signless.members =
      j.members.map (fun e => (e.1, signless e.2)) := by
  cases j with
  | obj ms =>
      rw [signless]
      exact signlessMembers_eq_map ms
  | _ => rfl

/- Only null agrees with null. -/
theorem signless_eq_null_iff
    {j : Json} :
    j.signless = .null ↔ j = .null := by
  cases j <;> simp [signless]

/- Paths see the same but for the signs of zeros. -/
theorem at?_signless
    (path : List String)
    (j : Json) :
    j.signless.at? path = (j.at? path).map signless := by
  induction path generalizing j with
  | nil => rfl
  | cons k path ih =>
      rw [at?_cons, at?_cons, members_signless,
        Table.get?_map]
      cases Table.get? k j.members with
      | none => rfl
      | some v => exact ih v

/- Values that agree have the same nulls. -/
theorem Agree.at?_null_iff
    {a b : Json}
    (hAgree : Agree a b)
    (path : List String) :
    a.at? path = some .null ↔ b.at? path = some .null := by
  have hNull :
      ∀ j : Json,
        j.signless.at? path = some .null ↔
          j.at? path = some .null := by
    intro j
    rw [at?_signless]
    cases j.at? path with
    | none => simp
    | some v => simp [signless_eq_null_iff]
  rw [← hNull a, ← hNull b, hAgree]

/- Objects in order agree if their members do. -/
theorem agree_iff_members
    {a b : Json}
    (hObject : a.isObject = true)
    (hObject' : b.isObject = true)
    (hOrdered : Table.Ordered a.members)
    (hOrdered' : Table.Ordered b.members) :
    Agree a b ↔
      ∀ k,
        (Table.get? k a.members).map signless =
          (Table.get? k b.members).map signless := by
  have hSees :
      ∀ (j : Json) k,
        (Table.get? k j.members).map signless =
          Table.get? k j.signless.members := by
    intro j k
    rw [members_signless, Table.get?_map]
  have hInOrder :
      ∀ j : Json,
        Table.Ordered j.members →
        Table.Ordered j.signless.members := by
    intro j hMembers
    rw [members_signless]
    exact List.pairwise_map.mpr hMembers
  constructor
  · intro hAgree k
    rw [hSees, hSees, hAgree]
  · intro hSame
    have hMembers :
        a.signless.members = b.signless.members := by
      apply Table.Ordered.ext (hInOrder a hOrdered)
        (hInOrder b hOrdered')
      intro k
      rw [← hSees, ← hSees]
      exact hSame k
    rw [isObject_iff.mp hObject, isObject_iff.mp hObject']
      at hMembers ⊢
    exact congrArg Json.obj hMembers

------------------------------------------------------------
-- Nulls
------------------------------------------------------------

/-
  Every null below the top of a value is null at the same
  place of another value.  Paths do not enter arrays.
-/
def NullsIn
    (m o : Json) : Prop :=
  ∀ path,
    path ≠ [] →
      m.at? path = some .null →
        o.at? path = some .null

/- Values that agree have the same nulls below the top. -/
theorem Agree.nullsIn
    {m o : Json}
    (hAgree : Agree m o) :
    m.NullsIn o := by
  intro path _ hNull
  exact (hAgree.at?_null_iff path).mp hNull

/- A value without members has nothing below the top. -/
theorem nullsIn_of_noMembers
    {m : Json}
    (hMembers : m.members = [])
    (o : Json) :
    m.NullsIn o := by
  intro path hBelow hNull
  rw [at?_of_noMembers hMembers hBelow] at hNull
  cases hNull

/-
  The nulls below the top of a value are the members that
  are null, and the nulls below the others.
-/
theorem nullsIn_iff_members
    {m o : Json} :
    m.NullsIn o ↔
      ∀ k v,
        Table.get? k m.members = some v →
          (v = .null →
            Table.get? k o.members = some .null) ∧
          v.NullsIn
            ((Table.get? k o.members).getD .null) := by
  constructor
  · intro hNulls k v hMember
    have hBelow :
        ∀ path,
          v.at? path = some .null →
            (Table.get? k o.members).bind (at? path) =
              some .null := by
      intro path hNull
      rw [← at?_cons]
      apply hNulls _ (List.cons_ne_nil k path)
      rw [at?_cons, hMember]
      exact hNull
    constructor
    · intro hNull
      have hFound := hBelow [] (by rw [hNull]; rfl)
      rcases Option.bind_eq_some_iff.mp hFound with
        ⟨w, hOther, hSame⟩
      rw [hOther]
      exact hSame
    · intro path _ hNull
      rcases Option.bind_eq_some_iff.mp (hBelow path hNull)
        with ⟨w, hOther, hFound⟩
      rw [hOther]
      exact hFound
  · intro hMembers path hBelow hNull
    cases path with
    | nil => exact absurd rfl hBelow
    | cons k path =>
        rw [at?_cons] at hNull ⊢
        rcases Option.bind_eq_some_iff.mp hNull with
          ⟨v, hMember, hFound⟩
        rcases hMembers k v hMember with ⟨hTop, hDeep⟩
        cases path with
        | nil =>
            rw [at?] at hFound
            rw [hTop (Option.some.inj hFound)]
            rfl
        | cons l path =>
            have hThere :=
              hDeep (l :: path) (List.cons_ne_nil l path)
                hFound
            -- Nothing is below a member that is missing.
            cases hOther : Table.get? k o.members with
            | none =>
                rw [hOther] at hThere
                cases hThere
            | some w =>
                rw [hOther] at hThere
                exact hThere

end Json

end Reconciler
