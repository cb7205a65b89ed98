import Reconciler.Condition.Phase

/-
  This file gives the laws of lists of conditions.

  The observations on a list are its types in order and the
  look-up of a type.  Setting and seeding a condition add
  its type at the end unless it is there, and change what is
  found under that type only.

  Key definitions include:
    * `Conditions.types`
    * `Conditions.Only`

  Key theorems include:
    * `Conditions.find?_set`
    * `Conditions.find?_seed`
    * `Conditions.mem_iff_find?`
    * `Conditions.set_of_unchanged`
-/

------------------------------------------------------------
-- Observations
------------------------------------------------------------

namespace Reconciler

namespace Conditions

/- The types of a list of conditions, in order. -/
def types
    (cs : List Condition) : List String :=
  cs.map (·.type)

/- A condition is the only one of a type. -/
def Only
    (type : String)
    (c : Condition)
    (cs : List Condition) : Prop :=
  cs.filter (fun c => c.type == type) = [c]

theorem types_nil :
    types [] = [] :=
  rfl

@[simp]
theorem types_cons
    (c : Condition)
    (cs : List Condition) :
    types (c :: cs) = c.type :: types cs :=
  rfl

theorem find?_cons
    (type : String)
    (c : Condition)
    (cs : List Condition) :
    find? type (c :: cs) =
      if c.type = type then some c else find? type cs := by
  unfold find?
  rw [List.find?_cons]
  by_cases hType : c.type = type
  · simp [hType]
  · have hNe : (c.type == type) = false :=
      beq_eq_false_iff_ne.mpr hType
    rw [if_neg hType, hNe]

/- A type is found exactly if it is among the types. -/
theorem find?_isSome_iff
    (type : String)
    (cs : List Condition) :
    (find? type cs).isSome = true ↔ type ∈ types cs := by
  induction cs with
  | nil => simp [find?, types_nil]
  | cons c rest ih =>
      rw [find?_cons]
      by_cases hType : c.type = type
      · simp [hType]
      · have hNe : type ≠ c.type := fun h => hType h.symm
        simpa [hType, hNe] using ih

/-
  In a list of distinct types, a condition is in the list if
  and only if it is found under its type.
-/
theorem mem_iff_find?
    {c : Condition}
    {cs : List Condition}
    (hDistinct : (types cs).Nodup) :
    c ∈ cs ↔ find? c.type cs = some c := by
  induction cs with
  | nil => simp [find?]
  | cons d rest ih =>
      have hSplit : d.type ∉ types rest ∧ (types rest).Nodup :=
        List.nodup_cons.mp hDistinct
      rw [find?_cons]
      by_cases hType : d.type = c.type
      · rw [if_pos hType]
        constructor
        · intro hMember
          rcases List.mem_cons.mp hMember with hHead | hRest
          · rw [hHead]
          · have hTypes : c.type ∈ types rest :=
              List.mem_map_of_mem hRest
            exact absurd (hType ▸ hTypes) hSplit.1
        · intro hHead
          rw [Option.some.inj hHead]
          exact List.mem_cons_self
      · rw [if_neg hType, ← ih hSplit.2]
        constructor
        · intro hMember
          rcases List.mem_cons.mp hMember with hHead | hRest
          · exact absurd (congrArg Condition.type hHead.symm)
              hType
          · exact hRest
        · exact List.mem_cons_of_mem d

/-
  In a list of distinct types, what is found under a type is
  the only condition of that type.
-/
theorem only_of_find?
    {type : String}
    {c : Condition}
    {cs : List Condition}
    (hDistinct : (types cs).Nodup)
    (hFound : find? type cs = some c) :
    Only type c cs := by
  induction cs with
  | nil => simp [find?] at hFound
  | cons d rest ih =>
      have hSplit : d.type ∉ types rest ∧ (types rest).Nodup :=
        List.nodup_cons.mp hDistinct
      rw [find?_cons] at hFound
      unfold Only
      by_cases hType : d.type = type
      · rw [if_pos hType] at hFound
        rw [List.filter_cons_of_pos (by simp [hType]),
          Option.some.inj hFound]
        refine congrArg (c :: ·) ?_
        refine List.filter_eq_nil_iff.mpr ?_
        intro e hMember hSame
        have hTypes : e.type ∈ types rest :=
          List.mem_map_of_mem hMember
        rw [beq_iff_eq.mp hSame, ← hType] at hTypes
        exact hSplit.1 hTypes
      · rw [if_neg hType] at hFound
        rw [List.filter_cons_of_neg (by simp [hType])]
        exact ih hSplit.2 hFound

/- The only condition of a type is in the list. -/
theorem Only.mem
    {type : String}
    {c : Condition}
    {cs : List Condition}
    (hOnly : Only type c cs) :
    c ∈ cs ∧ c.type = type := by
  have hMember :
      c ∈ cs.filter (fun c => c.type == type) := by
    rw [hOnly]
    exact List.mem_singleton_self c
  have hSplit := List.mem_filter.mp hMember
  exact ⟨hSplit.1, beq_iff_eq.mp hSplit.2⟩

------------------------------------------------------------
-- Setting and Seeding
------------------------------------------------------------

/- Add a type at the end unless it is there. -/
def addType
    (type : String)
    (ts : List String) : List String :=
  if type ∈ ts then ts else ts ++ [type]

theorem addType_nodup
    {type : String}
    {ts : List String}
    (hDistinct : ts.Nodup) :
    (addType type ts).Nodup := by
  unfold addType
  split
  · exact hDistinct
  · next hNew =>
      refine List.nodup_append.mpr ⟨hDistinct, by simp, ?_⟩
      intro a hOld b hLast hSame
      rw [List.mem_singleton.mp hLast] at hSame
      exact hNew (hSame ▸ hOld)

theorem addType_extends
    (type : String)
    (ts : List String) :
    ∃ added, addType type ts = ts ++ added := by
  unfold addType
  split
  · exact ⟨[], by simp⟩
  · exact ⟨[type], rfl⟩

theorem types_set
    (new : Condition)
    (cs : List Condition) :
    types (set new cs) = addType new.type (types cs) := by
  unfold addType
  induction cs with
  | nil => simp [set, types_nil]
  | cons c rest ih =>
      unfold set
      by_cases hType : c.type = new.type
      · simp [hType, Condition.update]
      · have hNe : new.type ≠ c.type := fun h => hType h.symm
        rw [if_neg hType, types_cons, types_cons, ih]
        by_cases hMember : new.type ∈ types rest
        · simp [hMember]
        · simp [hMember, hNe]

theorem find?_set
    (new : Condition)
    (type : String)
    (cs : List Condition) :
    find? type (set new cs) =
      if type = new.type then
        some (((find? type cs).map (·.update new)).getD new)
      else find? type cs := by
  induction cs with
  | nil =>
      unfold set
      rw [find?_cons]
      by_cases hType : type = new.type
      · simp [hType, find?]
      · have hNe : new.type ≠ type := fun h => hType h.symm
        simp [hType, hNe]
  | cons c rest ih =>
      unfold set
      rw [find?_cons]
      by_cases hHead : c.type = new.type
      · rw [if_pos hHead, find?_cons]
        by_cases hType : type = new.type
        · simp [hType, hHead, Condition.update]
        · have hNe : new.type ≠ type := fun h => hType h.symm
          simp [hType, hHead, hNe, Condition.update]
      · rw [if_neg hHead, find?_cons, ih]
        by_cases hType : c.type = type
        · have hNe : type ≠ new.type :=
            fun h => hHead (hType.trans h)
          simp [hType, hNe]
        · simp [hType]

theorem types_seed
    (c : Condition)
    (cs : List Condition) :
    types (seed c cs) = addType c.type (types cs) := by
  unfold seed addType
  by_cases hFound : (find? c.type cs).isSome = true
  · rw [if_pos hFound,
      if_pos ((find?_isSome_iff c.type cs).mp hFound)]
  · rw [if_neg hFound, if_neg (fun h =>
      hFound ((find?_isSome_iff c.type cs).mpr h))]
    simp [types]

theorem find?_seed
    (c : Condition)
    (type : String)
    (cs : List Condition) :
    find? type (seed c cs) =
      if type = c.type then some ((find? type cs).getD c)
      else find? type cs := by
  unfold seed
  by_cases hType : type = c.type
  · rw [if_pos hType, hType]
    cases hFound : find? c.type cs with
    | some d => simp [hFound]
    | none =>
        unfold find? at hFound ⊢
        simp [List.find?_append, hFound]
  · rw [if_neg hType]
    split
    · rfl
    · have hNe : c.type ≠ type := fun h => hType h.symm
      unfold find?
      simp [List.find?_append, hNe]

/- Seeding where the type is there changes nothing. -/
theorem seed_of_found
    {c : Condition}
    {cs : List Condition}
    (hFound : (find? c.type cs).isSome = true) :
    seed c cs = cs :=
  if_pos hFound

------------------------------------------------------------
-- Conditions that Change Nothing
------------------------------------------------------------

/- What is found under the type of a condition decides. -/
theorem setChanges_congr
    {new : Condition}
    {cs cs' : List Condition}
    (hFound : find? new.type cs' = find? new.type cs) :
    setChanges new cs' = setChanges new cs := by
  unfold setChanges
  rw [hFound]

/- A condition that changes nothing is there. -/
theorem isSome_of_unchanged
    {new : Condition}
    {cs : List Condition}
    (hUnchanged : setChanges new cs = false) :
    (find? new.type cs).isSome = true := by
  unfold setChanges at hUnchanged
  split at hUnchanged
  · cases hUnchanged
  · next old hFound => rw [hFound]; rfl

/- An update that makes no difference keeps the condition. -/
theorem update_of_same
    {old new : Condition}
    (hSame : old.differs new = false) :
    old.update new = old := by
  unfold Condition.differs at hSame
  simp only [Bool.or_eq_false_iff, bne_eq_false_iff_eq]
    at hSame
  rcases hSame with
    ⟨⟨⟨hStatus, hReason⟩, hMessage⟩, hGeneration⟩
  unfold Condition.update
  rw [if_pos hStatus, ← hStatus, ← hReason, ← hMessage,
    ← hGeneration]

/- It is set for the second time without a change. -/
theorem setChanges_set
    (new : Condition)
    (cs : List Condition) :
    setChanges new (set new cs) = false := by
  unfold setChanges
  rw [find?_set, if_pos rfl]
  cases find? new.type cs with
  | none => simp [Condition.differs]
  | some old => simp [Condition.differs, Condition.update]

/- Setting a condition that changes nothing keeps the list. -/
theorem set_of_unchanged
    {new : Condition}
    {cs : List Condition}
    (hUnchanged : setChanges new cs = false) :
    set new cs = cs := by
  induction cs with
  | nil => cases hUnchanged
  | cons c rest ih =>
      unfold setChanges at hUnchanged
      rw [find?_cons] at hUnchanged
      unfold set
      by_cases hType : c.type = new.type
      · rw [if_pos hType] at hUnchanged
        rw [if_pos hType,
          update_of_same hUnchanged]
      · rw [if_neg hType] at hUnchanged
        rw [if_neg hType, ih hUnchanged]

end Conditions

end Reconciler
