import Reconciler.Proofs.Condition.Coherence

/-
  This file says whose the conditions are that the engine
  keeps: each belongs to the whole object, or to a step in a
  phase.

  The types of the conditions tell their owners apart,
  whatever the names of steps look like.  So no owner sees
  what is recorded for another, however the records of many
  owners follow each other.

  Key definitions include:
    * `Conditions.Owner`
    * `Conditions.Upkeep`
    * `Conditions.Owner.Spares`

  Key theorems include:
    * `Conditions.Owner.type_inj`
    * `Conditions.Upkeep.find?_run_filter`
    * `Conditions.Owner.spares`
-/

------------------------------------------------------------
-- Owners
------------------------------------------------------------

namespace Reconciler

/- The phase of a step can be told from its condition. -/
theorem Phase.conditionType_phase
    {p q : Phase}
    {a b : String}
    (hSame : p.conditionType a = q.conditionType b) :
    p = q := by
  -- The two suffixes do not end in the same letter.
  have hLast :
      (p.conditionType a).toList.getLast? =
        (q.conditionType b).toList.getLast? :=
    congrArg (fun s => s.toList.getLast?) hSame
  cases p <;> cases q <;>
    simp [Phase.conditionType, List.getLast?_append]
      at hLast ⊢

namespace Conditions

/- The whole object, or a step in a phase. -/
inductive Owner where
  | object
  | step (name : String) (p : Phase)
deriving DecidableEq

namespace Owner

/- The type of the condition of an owner. -/
def type : Owner → String
  | .object => readyType
  | .step name p => p.conditionType name

/- Owners are told apart by the types of their conditions. -/
theorem type_inj
    {o o' : Owner}
    (hSame : o.type = o'.type) :
    o = o' := by
  cases o with
  | object =>
      cases o' with
      | object => rfl
      | step name p =>
          exact absurd hSame.symm (p.conditionType_ne_ready name)
  | step name p =>
      cases o' with
      | object =>
          exact absurd hSame (p.conditionType_ne_ready name)
      | step name' p' =>
          obtain rfl : p = p' := Phase.conditionType_phase hSame
          obtain rfl : name = name' :=
            Phase.conditionType_inj hSame
          rfl

end Owner

------------------------------------------------------------
-- Upkeep
------------------------------------------------------------

/- What the engine does to a list of conditions. -/
inductive Upkeep where
  | seedReady (now : Instant) (m : Metadata)
  | seedStep (now : Instant) (m : Metadata) (step : String)
  | applyResult (now : Instant) (m : Metadata)
      (step : String) (result : StepResult)
  | setReady (now : Instant) (m : Metadata) (r : Readiness)

namespace Upkeep

variable {cs cs' : List Condition}
variable {o : Owner}

/- Whose condition it is about. -/
def owner : Upkeep → Owner
  | .seedReady _ _ => .object
  | .seedStep _ m step => .step step (Phase.ofMetadata m)
  | .applyResult _ m step _ =>
      .step step (Phase.ofMetadata m)
  | .setReady _ _ _ => .object

/- The list after one piece of upkeep. -/
def after
    (cs : List Condition) : Upkeep → List Condition
  | .seedReady now m => Conditions.seedReady now m cs
  | .seedStep now m step => Conditions.seedStep now m step cs
  | .applyResult now m step result =>
      Conditions.applyResult now m step result cs
  | .setReady now m r => Conditions.setReady now m r cs

/- The list after any amount of upkeep. -/
def run
    (cs : List Condition)
    (us : List Upkeep) : List Condition :=
  us.foldl after cs

/- A condition of the owner is seeded or set. -/
theorem after_cases
    (u : Upkeep) :
    ∃ c : Condition,
      c.type = u.owner.type ∧
        ((∀ cs, u.after cs = seed c cs) ∨
          ∀ cs, u.after cs = set c cs) := by
  cases u with
  | seedReady now m => exact ⟨_, rfl, .inl (fun _ => rfl)⟩
  | seedStep now m step => exact ⟨_, rfl, .inl (fun _ => rfl)⟩
  | applyResult now m step result =>
      exact ⟨_, rfl, .inr (fun _ => rfl)⟩
  | setReady now m r => exact ⟨_, rfl, .inr (fun _ => rfl)⟩

/- Upkeep for another owner is not seen. -/
theorem find?_after_of_ne
    {u : Upkeep}
    (hOther : u.owner ≠ o) :
    find? o.type (u.after cs) = find? o.type cs := by
  rcases u.after_cases with ⟨c, hType, hSeeds | hSets⟩
  · have hNe : o.type ≠ c.type := fun hSame =>
      hOther (Owner.type_inj (hSame.trans hType)).symm
    rw [hSeeds, find?_seed, if_neg hNe]
  · have hNe : o.type ≠ c.type := fun hSame =>
      hOther (Owner.type_inj (hSame.trans hType)).symm
    rw [hSets, find?_set, if_neg hNe]

/- What an owner sees after upkeep is what it saw, changed. -/
theorem find?_after_congr
    (u : Upkeep)
    (hSame : find? o.type cs = find? o.type cs') :
    find? o.type (u.after cs) = find? o.type (u.after cs') := by
  rcases u.after_cases with ⟨c, _, hSeeds | hSets⟩
  · rw [hSeeds, hSeeds, find?_seed, find?_seed, hSame]
  · rw [hSets, hSets, find?_set, find?_set, hSame]

/-
  Upkeep for others can be left out, wherever it stands
  among the rest.  The two lists of conditions grow apart in
  the course of this; only what the owner sees stays equal.
-/
theorem find?_run_filter
    {keep : Upkeep → Bool}
    (hDropped : ∀ u, keep u = false → u.owner ≠ o)
    (us : List Upkeep)
    (hSame : find? o.type cs = find? o.type cs') :
    find? o.type (run cs us) =
      find? o.type (run cs' (us.filter keep)) := by
  induction us generalizing cs cs' with
  | nil => exact hSame
  | cons u rest ih =>
      cases hKeep : keep u with
      | true =>
          rw [List.filter_cons_of_pos hKeep]
          exact ih (u.find?_after_congr hSame)
      | false =>
          rw [List.filter_cons_of_neg (by simp [hKeep])]
          exact ih
            ((find?_after_of_ne (hDropped u hKeep)).trans hSame)

end Upkeep

------------------------------------------------------------
-- Spared Conditions
------------------------------------------------------------

/-
  One owner spares another: whatever upkeep there is, what is
  done for the first makes no difference to what is found of
  the second.
-/
def Owner.Spares
    (o o' : Owner) : Prop :=
  ∀ (cs : List Condition) (us : List Upkeep),
    find? o'.type (Upkeep.run cs us) =
      find? o'.type
        (Upkeep.run cs (us.filter (fun u => u.owner != o)))

/- Different owners spare each other. -/
theorem Owner.spares
    {o o' : Owner}
    (hOther : o ≠ o') :
    o.Spares o' := by
  intro cs us
  refine Upkeep.find?_run_filter ?_ us rfl
  intro u hDropped
  have hOwner : u.owner = o := bne_eq_false_iff_eq.mp hDropped
  rw [hOwner]
  exact hOther

end Conditions

end Reconciler
