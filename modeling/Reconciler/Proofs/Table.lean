import Mathlib.Data.List.Nodup
import Mathlib.Data.List.Sort
import Mathlib.Order.Defs.LinearOrder
import Reconciler.Table

/-
  This file proves the laws of tables.

  Where keys are distinct, look-up finds exactly the entries
  that are there.  Insertion and erasure keep a table in
  order, and tables in order are the same if look-up finds
  the same in them.

  Key theorems include:
    * `Table.get?_of_mem`
    * `Table.get?_map`
    * `Table.get?_filter`
    * `Table.Ordered.put`
    * `Table.Ordered.ext`
-/

------------------------------------------------------------
-- Entries
------------------------------------------------------------

namespace Reconciler

namespace Table

variable {κ α β : Type}

section Entries

variable [DecidableEq κ]
variable {k : κ}
variable {v : α}
variable {t : Table κ α}

/- With distinct keys, every entry is found. -/
theorem get?_of_mem
    (hKeys : (keys t).Nodup)
    (hMember : (k, v) ∈ t) :
    get? k t = some v := by
  induction t with
  | nil => cases hMember
  | cons e rest ih =>
      rcases e with ⟨l, w⟩
      rcases List.nodup_cons.mp hKeys with ⟨hNew, hRest⟩
      rcases List.mem_cons.mp hMember with hHead | hTail
      · cases hHead
        rw [get?_cons, if_pos rfl]
      · have hKey : k ∈ keys rest :=
          List.mem_map_of_mem hTail
        have hNe : k ≠ l := by
          intro hSame
          exact hNew (hSame ▸ hKey)
        rw [get?_cons, if_neg hNe]
        exact ih hRest hTail

/- An entry that is found is there. -/
theorem mem_of_get?
    (hFound : get? k t = some v) :
    (k, v) ∈ t := by
  induction t with
  | nil => cases hFound
  | cons e rest ih =>
      rcases e with ⟨l, w⟩
      rw [get?_cons] at hFound
      split at hFound
      · next hKey =>
          cases hFound
          rw [hKey]
          exact List.mem_cons_self
      · exact List.mem_cons_of_mem _ (ih hFound)

/- With distinct keys, look-up finds the entries. -/
theorem get?_eq_some_iff
    (hKeys : (keys t).Nodup) :
    get? k t = some v ↔ (k, v) ∈ t :=
  ⟨mem_of_get?, get?_of_mem hKeys⟩

/- A key without entries is not found. -/
theorem get?_eq_none_iff :
    get? k t = none ↔ k ∉ keys t := by
  rw [← has_iff_mem_keys, has]
  cases get? k t <;> simp

/- Only in the empty table nothing is found. -/
theorem eq_nil_iff_get? :
    t = [] ↔ ∀ k, get? k t = none := by
  constructor
  · intro hEmpty k
    rw [hEmpty, get?_nil]
  · intro hNone
    cases t with
    | nil => rfl
    | cons e rest =>
        have hFirst := hNone e.1
        rw [get?_cons, if_pos rfl] at hFirst
        cases hFirst

/- Look-up in a table with other values. -/
theorem get?_map
    (k : κ)
    (f : α → β)
    (t : Table κ α) :
    get? k (t.map (fun e => (e.1, f e.2))) =
      (get? k t).map f := by
  induction t with
  | nil => rfl
  | cons e rest ih =>
      rcases e with ⟨l, v⟩
      rw [List.map_cons, get?_cons, get?_cons, ih]
      split
      · rfl
      · rfl

/- The entries of some of the keys. -/
theorem get?_filter
    (k : κ)
    (p : κ → Bool)
    (t : Table κ α) :
    get? k (t.filter (fun e => p e.1)) =
      if p k then get? k t else none := by
  induction t with
  | nil => simp
  | cons e rest ih =>
      rcases e with ⟨l, v⟩
      by_cases hKey : k = l
      · subst hKey
        cases hKept : p k with
        | true => simp [hKept, get?_cons]
        | false => simp [hKept, ih]
      · cases hKept : p l with
        | true => simp [hKept, get?_cons, hKey, ih]
        | false => simp [hKept, get?_cons, hKey, ih]

theorem erase_map
    (k : κ)
    (f : α → β)
    (t : Table κ α) :
    erase k (t.map (fun e => (e.1, f e.2))) =
      (erase k t).map (fun e => (e.1, f e.2)) := by
  induction t with
  | nil => rfl
  | cons e rest ih =>
      rcases e with ⟨l, v⟩
      rw [List.map_cons, erase, erase, ih]
      split
      · rfl
      · rfl

/- A key that is not there cannot be erased. -/
theorem erase_of_missing
    (hMissing : has k t = false) :
    erase k t = t := by
  induction t with
  | nil => rfl
  | cons e rest ih =>
      rcases e with ⟨l, w⟩
      unfold has at hMissing
      rw [get?_cons] at hMissing
      split at hMissing
      · cases hMissing
      · next hDiffer =>
          rw [erase, if_neg hDiffer, ih hMissing]

/- Nor can a key that has been erased. -/
theorem erase_erase
    (k : κ)
    (t : Table κ α) :
    erase k (erase k t) = erase k t := by
  apply erase_of_missing
  unfold has
  rw [get?_erase, if_pos rfl]
  rfl

/- Erasure only leaves entries out. -/
theorem erase_sublist
    (k : κ)
    (t : Table κ α) :
    (erase k t).Sublist t := by
  induction t with
  | nil => exact .slnil
  | cons e rest ih =>
      rw [erase]
      split
      · exact .cons _ ih
      · exact .cons_cons _ ih

end Entries

------------------------------------------------------------
-- Inserted Entries
------------------------------------------------------------

section Inserted

variable [DecidableEq κ]
variable [LT κ]
variable [DecidableLT κ]

theorem put_map
    (k : κ)
    (v : α)
    (f : α → β)
    (t : Table κ α) :
    put k (f v) (t.map (fun e => (e.1, f e.2))) =
      (put k v t).map (fun e => (e.1, f e.2)) := by
  induction t with
  | nil => rfl
  | cons e rest ih =>
      rcases e with ⟨l, w⟩
      rw [List.map_cons, put, put, ih]
      split
      · rfl
      · split
        · rfl
        · rfl

/- What is stored is the new entry or an old one. -/
theorem mem_put
    {k : κ}
    {v : α}
    {t : Table κ α}
    {e : κ × α}
    (hMember : e ∈ put k v t) :
    e = (k, v) ∨ e ∈ t := by
  induction t with
  | nil => exact .inl (List.mem_singleton.mp hMember)
  | cons e' rest ih =>
      rcases e' with ⟨l, w⟩
      rw [put] at hMember
      split at hMember
      · rcases List.mem_cons.mp hMember with hNew | hOld
        · exact .inl hNew
        · exact .inr (List.mem_cons_of_mem _ hOld)
      · split at hMember
        · exact List.mem_cons.mp hMember
        · rcases List.mem_cons.mp hMember with hSame | hRest
          · exact .inr (List.mem_cons.mpr (.inl hSame))
          · exact (ih hRest).imp_right
              (List.mem_cons_of_mem _)

end Inserted

------------------------------------------------------------
-- Order
------------------------------------------------------------

section Order

variable [LinearOrder κ]
variable {t t' : Table κ α}

/- A table in order has distinct keys. -/
theorem Ordered.keys_nodup
    (hOrdered : Ordered t) :
    (keys t).Nodup := by
  apply List.pairwise_map.mpr
  apply hOrdered.imp
  intro e e' hBefore
  exact ne_of_lt hBefore

/- Leaving entries out keeps the order. -/
theorem Ordered.erase
    (hOrdered : Ordered t)
    (k : κ) :
    Ordered (t.erase k) :=
  List.Pairwise.sublist (erase_sublist k t) hOrdered

/- A new entry is put in its place. -/
theorem Ordered.put
    (hOrdered : Ordered t)
    (k : κ)
    (v : α) :
    Ordered (t.put k v) := by
  induction t with
  | nil => exact List.pairwise_singleton _ _
  | cons e rest ih =>
      rcases e with ⟨l, w⟩
      rcases List.pairwise_cons.mp hOrdered with
        ⟨hFirst, hRest⟩
      rw [Table.put]
      split
      · next hSame =>
          subst hSame
          exact List.pairwise_cons.mpr ⟨hFirst, hRest⟩
      · next hDiffer =>
          split
          · next hBefore =>
              apply List.pairwise_cons.mpr ⟨?_, hOrdered⟩
              intro e' hMember
              rcases List.mem_cons.mp hMember with hHead | hTail
              · rw [hHead]
                exact hBefore
              · exact hBefore.trans (hFirst e' hTail)
          · next hBehind =>
              apply List.pairwise_cons.mpr ⟨?_, ih hRest⟩
              intro e' hMember
              rcases mem_put hMember with hNew | hOld
              · rw [hNew]
                exact lt_of_le_of_ne (not_lt.mp hBehind)
                  (Ne.symm hDiffer)
              · exact hFirst e' hOld

/-
  Tables in order are the same if look-up finds the same in
  them.
-/
theorem Ordered.ext
    (hOrdered : Ordered t)
    (hOrdered' : Ordered t')
    (hSame : ∀ k, get? k t = get? k t') :
    t = t' := by
  have hNodup := List.Nodup.of_map _ hOrdered.keys_nodup
  have hNodup' := List.Nodup.of_map _ hOrdered'.keys_nodup
  have hPerm : t.Perm t' := by
    apply (List.perm_ext_iff_of_nodup hNodup hNodup').mpr
    rintro ⟨k, v⟩
    rw [← get?_eq_some_iff hOrdered.keys_nodup, hSame,
      get?_eq_some_iff hOrdered'.keys_nodup]
  apply List.Perm.eq_of_pairwise _ hOrdered hOrdered' hPerm
  intro e e' _ _ hBefore hBehind
  exact absurd hBehind hBefore.asymm

end Order

end Table

end Reconciler
