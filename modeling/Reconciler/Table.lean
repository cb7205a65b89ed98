/-
  This file defines tables: lists of key-value entries that
  insertion keeps in increasing key order.

  JSON objects, label maps, report tags and the object
  store are all tables.  The observation on a table is
  `Table.get?`; the laws of `put` and `erase` under it hold
  for every list of entries, ordered or not.

  Key definitions include:
    * `Table.get?`
    * `Table.put`
    * `Table.erase`
    * `Table.Ordered`
-/

------------------------------------------------------------
-- Tables
------------------------------------------------------------

namespace Reconciler

/- A table is a list of entries, one for each key. -/
abbrev Table
    (κ α : Type) :=
  List (κ × α)

namespace Table

variable {κ α : Type}

------------------------------------------------------------
-- Look-up
------------------------------------------------------------

section LookUp

variable [DecidableEq κ]

/- The value stored under a key. -/
def get?
    (k : κ) :
    Table κ α → Option α
  | [] => none
  | (k', v) :: rest =>
      if k = k' then some v else get? k rest

/- Whether a key is present. -/
def has
    (k : κ)
    (t : Table κ α) : Bool :=
  (get? k t).isSome

/- Remove every entry of a key. -/
def erase
    (k : κ) :
    Table κ α → Table κ α
  | [] => []
  | (k', v) :: rest =>
      if k = k' then erase k rest
      else (k', v) :: erase k rest

/- The keys in table order. -/
def keys
    (t : Table κ α) : List κ :=
  t.map (·.1)

@[simp]
theorem get?_nil
    (k : κ) :
    get? k ([] : Table κ α) = none :=
  rfl

theorem get?_cons
    (k k' : κ)
    (v : α)
    (t : Table κ α) :
    get? k ((k', v) :: t) =
      if k = k' then some v else get? k t :=
  rfl

/- An erased key is absent; the other keys stay. -/
theorem get?_erase
    (k k' : κ)
    (t : Table κ α) :
    get? k' (erase k t) =
      if k' = k then none else get? k' t := by
  induction t with
  | nil => simp [erase]
  | cons e rest ih =>
      obtain ⟨l, v⟩ := e
      unfold erase
      split
      · next hl =>
          subst hl
          rw [ih, get?_cons]
          by_cases hk : k' = k <;> simp [hk]
      · next hl =>
          by_cases hk : k' = l
          · subst hk
            have hNe : ¬ k' = k :=
              fun h => hl h.symm
            simp [get?_cons, hNe]
          · simp [get?_cons, hk, ih]

/- A key is present exactly when it is among the keys. -/
theorem has_iff_mem_keys
    (k : κ)
    (t : Table κ α) :
    has k t = true ↔ k ∈ keys t := by
  induction t with
  | nil => simp [has, keys]
  | cons e rest ih =>
      obtain ⟨l, v⟩ := e
      by_cases hk : k = l
      · simp [has, keys, get?_cons, hk]
      · simpa [has, keys, get?_cons, hk] using ih

end LookUp

------------------------------------------------------------
-- Insertion
------------------------------------------------------------

section Insertion

variable [DecidableEq κ] [LT κ] [DecidableLT κ]

/-
  Store a value under a key: the entry of the key is
  replaced in place, a new entry goes in front of the first
  larger key.
-/
def put
    (k : κ)
    (v : α) :
    Table κ α → Table κ α
  | [] => [(k, v)]
  | (k', v') :: rest =>
      if k = k' then
        (k, v) :: rest
      else if k < k' then
        (k, v) :: (k', v') :: rest
      else
        (k', v') :: put k v rest

/- The table of a list of entries, later entries winning. -/
def ofList
    (entries : List (κ × α)) : Table κ α :=
  entries.foldl (fun t e => put e.1 e.2 t) []

/- A stored value is found again; other keys stay. -/
theorem get?_put
    (k k' : κ)
    (v : α)
    (t : Table κ α) :
    get? k' (put k v t) =
      if k' = k then some v else get? k' t := by
  induction t with
  | nil => simp [put, get?_cons]
  | cons e rest ih =>
      obtain ⟨l, w⟩ := e
      unfold put
      split
      · next hl =>
          subst hl
          by_cases hk : k' = k <;>
            simp [get?_cons, hk]
      · next hl =>
          split
          · simp [get?_cons]
          · by_cases hk : k' = l
            · subst hk
              have hNe : ¬ k' = k :=
                fun h => hl h.symm
              simp [get?_cons, hNe]
            · simp [get?_cons, hk, ih]

/- The keys stand in strictly increasing order. -/
def Ordered
    (t : Table κ α) : Prop :=
  t.Pairwise (fun a b => a.1 < b.1)

instance
    (t : Table κ α) :
    Decidable (Ordered t) := by
  unfold Ordered
  infer_instance

end Insertion

end Table

end Reconciler
