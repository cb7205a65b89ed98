import Reconciler.Proofs.Json.RoundTrip

/-
  This file gives the values that records write: there is no
  null and no real in them, and keys are in order at every
  level.

  Such a value is determined by what it agrees with, and a
  merge patch can always lead to it.  So patches between
  such values are exact.

  Key definitions include:
    * `Json.Holds`
    * `Json.Written`

  Key theorems include:
    * `Json.Written.record`
    * `Json.Written.no_null`
    * `Json.Written.eq_of_agree`
    * `MergePatch.apply_between_written`
    * `MergePatch.isEmpty_between_written`
-/

------------------------------------------------------------
-- Parts
------------------------------------------------------------

namespace Reconciler

namespace Json

/-
  A value holds itself, and the items and members of what it
  holds.
-/
inductive Holds
    (whole : Json) : Json → Prop where
  | self : Holds whole whole
  | item
      {items : List Json}
      {j : Json}
      (hArray : Holds whole (.arr items))
      (hItem : j ∈ items) :
      Holds whole j
  | member
      {members : List (String × Json)}
      {k : String}
      {j : Json}
      (hObject : Holds whole (.obj members))
      (hMember : (k, j) ∈ members) :
      Holds whole j

/- A value without nulls and reals, its keys in order. -/
inductive Written : Json → Prop where
  | bool (b : Bool) : Written (.bool b)
  | int (i : Int) : Written (.int i)
  | str (s : String) : Written (.str s)
  | arr
      {items : List Json}
      (hItems : ∀ j ∈ items, Written j) :
      Written (.arr items)
  | obj
      {members : List (String × Json)}
      (hOrdered : Table.Ordered members)
      (hMembers : ∀ e ∈ members, Written e.2) :
      Written (.obj members)

namespace Written

------------------------------------------------------------
-- Writing
------------------------------------------------------------

/- A field of a record is left out, or it is written. -/
def Field
    (v? : Option Json) : Prop :=
  ∀ v ∈ v?, Written v

theorem Field.some
    {v : Json}
    (hWritten : v.Written) :
    Field (.some v) := by
  intro w hSame
  cases hSame
  exact hWritten

theorem Field.map
    {α : Type}
    {write : α → Json}
    (hWritten : ∀ a, (write a).Written)
    (a? : Option α) :
    Field (a?.map write) := by
  intro v hValue
  rcases Option.map_eq_some_iff.mp hValue with ⟨a, _, hSame⟩
  rw [← hSame]
  exact hWritten a

/- A list is written if its items are. -/
theorem list
    {α : Type}
    {write : α → Json}
    (hWritten : ∀ a, (write a).Written)
    (as : List α) :
    (Json.arr (as.map write)).Written := by
  apply Written.arr
  intro j hMember
  rcases List.mem_map.mp hMember with ⟨a, _, hSame⟩
  rw [← hSame]
  exact hWritten a

/- A table of texts is written if its keys are in order. -/
theorem textTable
    {t : Table String String}
    (hOrdered : Table.Ordered t) :
    (Json.textTable t).Written := by
  apply Written.obj
  · exact List.pairwise_map.mpr hOrdered
  · intro e hMember
    rcases List.mem_map.mp hMember with ⟨entry, _, hEntry⟩
    rw [← hEntry]
    exact .str entry.2

/- A record is written if its fields are, in key order. -/
theorem record
    {fields : List (String × Option Json)}
    (hOrdered : (fields.map (·.1)).Pairwise (· < ·))
    (hFields : fields.Forall (fun f => Field f.2)) :
    (Json.record fields).Written := by
  apply Written.obj
  · have hKeys := hOrdered.sublist (keys_record fields)
    exact List.pairwise_map.mp hKeys
  · intro e hMember
    rcases List.mem_filterMap.mp hMember with
      ⟨f, hField, hValue⟩
    rcases Option.map_eq_some_iff.mp hValue with
      ⟨v, hSome, hEntry⟩
    rw [← hEntry]
    exact List.forall_iff_forall_mem.mp hFields f hField v
      hSome

------------------------------------------------------------
-- What Is Written
------------------------------------------------------------

variable {j : Json}

/- Every part of a written value is written. -/
theorem part
    {part : Json}
    (hWritten : j.Written)
    (hHolds : j.Holds part) :
    part.Written := by
  induction hHolds with
  | self => exact hWritten
  | item _ hItem ih =>
      cases ih with
      | arr hItems => exact hItems _ hItem
  | member _ hMember ih =>
      cases ih with
      | obj _ hMembers => exact hMembers _ hMember

/- No object in a written value has a null member. -/
theorem no_null
    {members : List (String × Json)}
    (hWritten : j.Written)
    (hHolds : j.Holds (.obj members))
    (k : String) :
    (k, .null) ∉ members := by
  intro hMember
  have hNull := hWritten.part (hHolds.member hMember)
  cases hNull

/- What a path finds in a written value is a part of it. -/
theorem at?
    {path : List String}
    {v : Json}
    (hWritten : j.Written)
    (hFound : j.at? path = some v) :
    v.Written := by
  induction path generalizing j with
  | nil =>
      cases hFound
      exact hWritten
  | cons k path ih =>
      rw [at?_cons] at hFound
      rcases Option.bind_eq_some_iff.mp hFound with
        ⟨w, hMember, hBelow⟩
      cases hWritten with
      | obj _ hMembers =>
          exact ih (hMembers _ (Table.mem_of_get? hMember))
            hBelow
      | _ => cases hMember

/- So no patch lacks a null to lead there. -/
theorem nullsIn
    (hWritten : j.Written)
    (base : Json) :
    j.NullsIn base := by
  intro path _ hNull
  cases hWritten.at? hNull

/- Written values are canonical. -/
theorem canonical
    (hWritten : j.Written) :
    j.Canonical := by
  induction hWritten with
  | arr _ ih =>
      rw [Canonical, canonicalItems_iff]
      exact ih
  | obj hOrdered _ ih =>
      rw [Canonical, canonicalMembers_iff]
      exact ⟨hOrdered, ih⟩
  | _ => trivial

/-
  Lists with the same images are the same if the elements of
  the one are determined by theirs.
-/
theorem list_eq_of_map_eq
    {α β : Type}
    {f : α → β}
    {xs ys : List α}
    (hSame : xs.map f = ys.map f)
    (hDetermined : ∀ y ∈ ys, ∀ x, f x = f y → x = y) :
    xs = ys := by
  induction ys generalizing xs with
  | nil => exact List.map_eq_nil_iff.mp hSame
  | cons y ys ih =>
      rcases List.map_eq_cons_iff.mp hSame with
        ⟨x, rest, hList, hHead, hTail⟩
      have hFirst := hDetermined y List.mem_cons_self x hHead
      have hRest := ih hTail
        (fun z hMember =>
          hDetermined z (List.mem_cons_of_mem _ hMember))
      rw [hList, hFirst, hRest]

/- Without reals, only the value itself agrees. -/
theorem eq_of_agree
    {a : Json}
    (hWritten : j.Written)
    (hAgree : Agree a j) :
    a = j := by
  unfold Agree at hAgree
  induction hWritten generalizing a with
  | @arr items _ ih =>
      cases a with
      | arr items' =>
          simp only [signless, signlessItems_eq_map]
            at hAgree
          injection hAgree with hSame
          rw [list_eq_of_map_eq hSame
            (fun j hItem a => ih j hItem)]
      | _ => cases hAgree
  | @obj members _ _ ih =>
      cases a with
      | obj members' =>
          simp only [signless, signlessMembers_eq_map]
            at hAgree
          injection hAgree with hSame
          rw [list_eq_of_map_eq hSame]
          rintro ⟨k, v⟩ hMember ⟨l, w⟩ hEntry
          injection hEntry with hKey hValue
          exact Prod.ext hKey (ih (k, v) hMember hValue)
      | _ => cases hAgree
  | _ => cases a <;> simp_all [signless]

end Written

end Json

------------------------------------------------------------
-- Patches
------------------------------------------------------------

namespace MergePatch

open Json

/- A patch to a written value leads to just that value. -/
theorem apply_between_written
    {base modified : Json}
    (hBase : base.Canonical)
    (hModified : modified.Written) :
    apply (between base modified) base = modified := by
  apply hModified.eq_of_agree
  exact (roundTrip_iff hBase hModified.canonical).mpr
    (hModified.nullsIn base)

/- A patch is silent about a member that is the same. -/
theorem memberChange_eq_none_iff
    {before? after? : Option Json} :
    memberChange before? after? = none ↔
      before?.map signless = after?.map signless := by
  cases before? with
  | none => cases after? <;> simp [memberChange]
  | some before =>
      cases after? with
      | none => simp [memberChange]
      | some after =>
          simp [memberChange, Agree, eq_comm]

/- The patch between two objects, where it is empty. -/
theorem isEmpty_between_iff
    {base modified : Json}
    (hBase : base.Canonical)
    (hModified : modified.Canonical)
    (hObject : base.isObject = true)
    (hObject' : modified.isObject = true) :
    isEmpty (between base modified) = true ↔
      Agree base modified := by
  have hEmpty :
      isEmpty (between base modified) = true ↔
        ∀ k,
          Table.get? k (between base modified).members =
            none := by
    rw [← Table.eq_nil_iff_get?]
    have hPatch := isObject_between base hObject'
    cases hPatchIs : between base modified with
    | obj entries =>
        cases entries <;>
          simp [isEmpty, members, members?]
    | _ =>
        rw [hPatchIs] at hPatch
        cases hPatch
  rw [hEmpty,
    agree_iff_members hObject hObject' hBase.ordered
      hModified.ordered]
  apply forall_congr'
  intro k
  rw [get?_between k hBase hModified hObject',
    memberChange_eq_none_iff]

/- A patch to a written value is empty for itself only. -/
theorem isEmpty_between_written
    {base modified : Json}
    (hBase : base.Canonical)
    (hModified : modified.Written)
    (hObject : base.isObject = true)
    (hObject' : modified.isObject = true) :
    isEmpty (between base modified) = true ↔
      base = modified := by
  rw [isEmpty_between_iff hBase hModified.canonical hObject
    hObject']
  constructor
  · exact hModified.eq_of_agree
  · intro hSame
    rw [hSame]
    exact .refl _

end MergePatch

end Reconciler
