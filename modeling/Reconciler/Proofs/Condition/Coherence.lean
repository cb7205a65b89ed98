import Reconciler.Proofs.Condition.List

/-
  This file says what a run makes of a list of conditions,
  from its seeds to the readiness of the object.

  The invariant of a chain speaks of the results so far.
  Seeding and recording a step extend them by one, and what
  is set last is the condition of the whole object.

  Key definitions include:
    * `Condition.Records`
    * `Conditions.Coherent`
    * `Conditions.Progress`

  Key theorems include:
    * `Conditions.Progress.step`
    * `Conditions.Progress.coherent`
-/

------------------------------------------------------------
-- Types of Phases
------------------------------------------------------------

namespace Reconciler

namespace Phase

/- The condition of a step is not the one of the object. -/
theorem conditionType_ne_ready
    (p : Phase)
    (step : String) :
    p.conditionType step ≠ readyType := by
  intro hSame
  have hReady : readyType.length = 5 := rfl
  cases p with
  | processing =>
      have hLength :
          (step ++ "_Ready").length = readyType.length :=
        congrArg String.length hSame
      have hSuffix : "_Ready".length = 6 := rfl
      rw [String.length_append] at hLength
      omega
  | finalizing =>
      have hLength :
          (step ++ "_Finalize").length = readyType.length :=
        congrArg String.length hSame
      have hSuffix : "_Finalize".length = 9 := rfl
      rw [String.length_append] at hLength
      omega

/- In one phase, steps are told apart by their conditions. -/
theorem conditionType_inj
    {p : Phase}
    {a b : String}
    (hSame : p.conditionType a = p.conditionType b) :
    a = b := by
  cases p with
  | processing => exact (String.append_left_inj _).mp hSame
  | finalizing => exact (String.append_left_inj _).mp hSame

end Phase

------------------------------------------------------------
-- Recorded Results
------------------------------------------------------------

/- The result of a step, with the name of the step. -/
abbrev Executed :=
  String × StepResult

/- A result without an error that asks for no requeue. -/
def StepResult.IsDone
    (result : StepResult) : Prop :=
  result.error? = none ∧ result.requeue.nanos = 0

/-
  A condition records a result: its error with the full
  text, else whether it is to come back.
-/
structure Condition.Records
    (c : Condition)
    (p : Phase)
    (result : StepResult) : Prop where
  failed :
    ∀ e, result.error? = some e →
      c.status = .no ∧ c.reason = "Error" ∧
        c.message =
          "The " ++ p.noun ++ " has an error: " ++ e.text
  pending :
    result.error? = none → 0 < result.requeue.nanos →
      c.status = .unknown ∧ c.reason = "Processing" ∧
        c.message = "The " ++ p.noun ++ " is processing"
  complete :
    result.IsDone →
      c.status = .yes ∧ c.reason = "Complete" ∧
        c.message = "The " ++ p.noun ++ " is complete"

/- A recorded result is done exactly if its truth is yes. -/
theorem Condition.Records.yes_iff
    {c : Condition}
    {p : Phase}
    {result : StepResult}
    (hRecords : c.Records p result) :
    c.status = .yes ↔ result.IsDone := by
  constructor
  · intro hYes
    cases hError : result.error? with
    | some e =>
        rw [(hRecords.failed e hError).1] at hYes
        cases hYes
    | none =>
        rcases Nat.eq_zero_or_pos result.requeue.nanos with
          hZero | hPositive
        · exact ⟨hError, hZero⟩
        · rw [(hRecords.pending hError hPositive).1] at hYes
          cases hYes
  · intro hDone
    exact (hRecords.complete hDone).1

namespace Conditions

theorem ofResult_type
    (now : Instant)
    (m : Metadata)
    (step : String)
    (result : StepResult) :
    (ofResult now m step result).type =
      (Phase.ofMetadata m).conditionType step :=
  rfl

theorem ofResult_records
    (now : Instant)
    (m : Metadata)
    (step : String)
    (result : StepResult) :
    (ofResult now m step result).Records
      (Phase.ofMetadata m) result where
  failed := by
    intro e hError
    unfold ofResult
    rw [hError]
    exact ⟨rfl, rfl, rfl⟩
  pending := by
    intro hError hPositive
    have hPending : result.requeue.isZero = false :=
      decide_eq_false (Nat.ne_of_gt hPositive)
    unfold ofResult
    rw [hError, hPending]
    exact ⟨rfl, rfl, rfl⟩
  complete := by
    intro hDone
    have hEmpty : result.requeue.isZero = true :=
      decide_eq_true hDone.2
    unfold ofResult
    rw [hDone.1, hEmpty]
    exact ⟨rfl, rfl, rfl⟩

/- What a condition records stays so when it is set. -/
theorem update_records
    {new : Condition}
    {p : Phase}
    {result : StepResult}
    (hRecords : new.Records p result)
    (old : Condition) :
    (old.update new).Records p result where
  failed := hRecords.failed
  pending := hRecords.pending
  complete := hRecords.complete

------------------------------------------------------------
-- Coherence
------------------------------------------------------------

section Coherence

variable {p : Phase}
variable {generation : Int64}
variable {fetched cs : List Condition}
variable {results : List Executed}

/- Every result was recorded as done. -/
def AllYes
    (p : Phase)
    (results : List Executed)
    (cs : List Condition) : Prop :=
  ∀ r ∈ results, ∀ c ∈ cs,
    c.type = p.conditionType r.1 → c.status = .yes

/-
  The conditions that a run leaves, told by the conditions
  that it fetched and the results of the steps it executed:

    * the types are distinct, the old ones in their order
      and the new ones behind them;
    * the run touches the object's condition and those of
      executed steps only;
    * each executed step has one condition, which records
      its result;
    * the object has one condition, which is true if those
      of the steps are, and false otherwise;
    * a condition keeps its transition time as long as it
      keeps its truth value.
-/
structure Coherent
    (p : Phase)
    (generation : Int64)
    (fetched : List Condition)
    (results : List Executed)
    (cs : List Condition) : Prop where
  distinct : (types cs).Nodup
  order : ∃ added, types cs = types fetched ++ added
  untouched :
    ∀ c : Condition,
      c.type ≠ readyType →
      (∀ r ∈ results, c.type ≠ p.conditionType r.1) →
      (c ∈ cs ↔ c ∈ fetched)
  recorded :
    ∀ r ∈ results, ∃ c,
      Only (p.conditionType r.1) c cs ∧ c.Records p r.2 ∧
        c.observedGeneration = generation
  ready :
    ∃ c,
      Only readyType c cs ∧
        (AllYes p results cs → c.status = .yes) ∧
        (¬ AllYes p results cs → c.status = .no) ∧
        c.observedGeneration = generation
  transitions :
    ∀ c ∈ cs, ∀ old ∈ fetched,
      old.type = c.type → old.status = c.status →
        c.lastTransition = old.lastTransition

/-
  The same in the middle of a chain: the results so far are
  recorded, and the object's condition is there, as fetched
  if it was fetched.
-/
structure Progress
    (p : Phase)
    (generation : Int64)
    (fetched : List Condition)
    (results : List Executed)
    (cs : List Condition) : Prop where
  distinct : (types cs).Nodup
  order : ∃ added, types cs = types fetched ++ added
  untouched :
    ∀ t, t ≠ readyType →
      (∀ r ∈ results, t ≠ p.conditionType r.1) →
      find? t cs = find? t fetched
  recorded :
    ∀ r ∈ results, ∃ c,
      find? (p.conditionType r.1) cs = some c ∧
        c.Records p r.2 ∧ c.observedGeneration = generation
  ready : (find? readyType cs).isSome = true
  readyKept :
    ∀ c, find? readyType fetched = some c →
      find? readyType cs = some c
  transitions :
    ∀ t c old,
      t ≠ readyType →
      find? t cs = some c → find? t fetched = some old →
      old.status = c.status →
        c.lastTransition = old.lastTransition

/- Types that have been added once and may be again. -/
theorem extends_addType
    {ts us : List String}
    (hOrder : ∃ added, ts = us ++ added)
    (t : String) :
    ∃ added, addType t ts = us ++ added := by
  rcases hOrder with ⟨added, hOrder⟩
  rcases addType_extends t ts with ⟨more, hMore⟩
  exact ⟨added ++ more, by
    rw [hMore, hOrder, List.append_assoc]⟩

/- Before the chain only the object's condition is seeded. -/
theorem Progress.start
    (hDistinct : (types fetched).Nodup)
    (p : Phase)
    (generation : Int64)
    (now : Instant)
    (m : Metadata) :
    Progress p generation fetched []
      (seedReady now m fetched) where
  distinct := by
    unfold seedReady
    rw [types_seed]
    exact addType_nodup hDistinct
  order := by
    unfold seedReady
    rw [types_seed]
    exact addType_extends _ _
  untouched := by
    intro t hNotReady _
    unfold seedReady
    rw [find?_seed, if_neg hNotReady]
  recorded := by simp
  ready := by
    unfold seedReady
    rw [find?_seed, if_pos rfl]
    rfl
  readyKept := by
    intro c hFound
    unfold seedReady
    rw [find?_seed, if_pos rfl, hFound]
    rfl
  transitions := by
    intro t c old hNotReady hFound hOld _
    unfold seedReady at hFound
    rw [find?_seed, if_neg hNotReady, hOld] at hFound
    rw [Option.some.inj hFound]

section Step

variable {name : String}
variable {result : StepResult}
variable {seeded executed : Instant}
variable {before after : Metadata}

/-
  What a step leaves under a type: the record of its result
  under its own, and what was there under any other.
-/
theorem find?_step
    (hBefore : Phase.ofMetadata before = p)
    (hAfter : Phase.ofMetadata after = p)
    (t : String) :
    find? t (applyResult executed after name result
        (seedStep seeded before name cs)) =
      if t = p.conditionType name then
        (find? t (seedStep seeded before name cs)).map
          (·.update (ofResult executed after name result))
      else find? t cs := by
  have hType :
      (ofResult executed after name result).type =
        p.conditionType name := by
    rw [ofResult_type, hAfter]
  unfold applyResult
  rw [find?_set, hType]
  by_cases hOwn : t = p.conditionType name
  · rw [if_pos hOwn, if_pos hOwn]
    unfold seedStep
    rw [hBefore, find?_seed, if_pos hOwn]
    rfl
  · rw [if_neg hOwn, if_neg hOwn]
    unfold seedStep
    rw [hBefore, find?_seed, if_neg hOwn]

/-
  A step that has not been executed before is seeded and
  recorded.
-/
theorem Progress.step
    (hProgress : Progress p generation fetched results cs)
    (hNew : ∀ r ∈ results, r.1 ≠ name)
    (hBefore : Phase.ofMetadata before = p)
    (hAfter : Phase.ofMetadata after = p)
    (hGeneration : after.generation = generation) :
    Progress p generation fetched
      (results ++ [(name, result)])
      (applyResult executed after name result
        (seedStep seeded before name cs)) where
  distinct := by
    unfold applyResult seedStep
    rw [types_set, types_seed]
    exact addType_nodup (addType_nodup hProgress.distinct)
  order := by
    unfold applyResult seedStep
    rw [types_set, types_seed]
    exact extends_addType
      (extends_addType hProgress.order _) _
  untouched := by
    intro t hNotReady hOthers
    have hNe : t ≠ p.conditionType name :=
      hOthers (name, result) (by simp)
    rw [find?_step hBefore hAfter, if_neg hNe]
    exact hProgress.untouched t hNotReady
      (fun r hMember => hOthers r (by simp [hMember]))
  recorded := by
    intro r hMember
    rcases List.mem_append.mp hMember with hOld | hLast
    · have hNe :
          p.conditionType r.1 ≠ p.conditionType name :=
        fun hSame =>
          hNew r hOld (Phase.conditionType_inj hSame)
      rw [find?_step hBefore hAfter, if_neg hNe]
      exact hProgress.recorded r hOld
    · rw [List.mem_singleton.mp hLast,
        find?_step hBefore hAfter, if_pos rfl]
      unfold seedStep
      rw [hBefore, find?_seed, if_pos rfl]
      refine ⟨_, rfl, ?_, hGeneration⟩
      rw [← hAfter]
      exact update_records (ofResult_records _ _ _ _) _
  ready := by
    rw [find?_step hBefore hAfter,
      if_neg (p.conditionType_ne_ready name).symm]
    exact hProgress.ready
  readyKept := by
    intro c hFound
    rw [find?_step hBefore hAfter,
      if_neg (p.conditionType_ne_ready name).symm]
    exact hProgress.readyKept c hFound
  transitions := by
    intro t c old hNotReady hFound hOld hStatus
    rw [find?_step hBefore hAfter] at hFound
    by_cases hOwn : t = p.conditionType name
    · -- The step is new, so its condition is as fetched.
      have hFetched : find? t cs = some old := by
        rw [← hOld]
        refine hProgress.untouched t hNotReady ?_
        intro r hMember hSame
        rw [hOwn] at hSame
        exact hNew r hMember
          (Phase.conditionType_inj hSame).symm
      unfold seedStep at hFound
      rw [if_pos hOwn, hBefore, find?_seed, if_pos hOwn,
        hFetched] at hFound
      have hUpdated := Option.some.inj hFound
      rw [← hUpdated] at hStatus ⊢
      exact if_pos hStatus
    · rw [if_neg hOwn] at hFound
      exact hProgress.transitions t c old hNotReady hFound
        hOld hStatus

end Step

/- Whether all is done shows where the steps are found. -/
theorem allYes_iff_find?
    (hDistinct : (types cs).Nodup) :
    AllYes p results cs ↔
      ∀ r ∈ results, ∀ c,
        find? (p.conditionType r.1) cs = some c →
          c.status = .yes := by
  constructor
  · intro hAll r hMember c hFound
    have hOnly := only_of_find? hDistinct hFound
    exact hAll r hMember c hOnly.mem.1 hOnly.mem.2
  · intro hAll r hMember c hIn hType
    have hFound := (mem_iff_find? hDistinct).mp hIn
    rw [hType] at hFound
    exact hAll r hMember c hFound

/-
  With every result recorded, the conditions of the steps
  are true exactly if all of them are done.
-/
theorem Progress.allYes_iff
    (hProgress : Progress p generation fetched results cs) :
    AllYes p results cs ↔
      ∀ r ∈ results, r.2.IsDone := by
  rw [allYes_iff_find? hProgress.distinct]
  constructor
  · intro hAll r hMember
    rcases hProgress.recorded r hMember with
      ⟨c, hFound, hRecords, _⟩
    exact hRecords.yes_iff.mp (hAll r hMember c hFound)
  · intro hDone r hMember d hSame
    rcases hProgress.recorded r hMember with
      ⟨c, hFound, hRecords, _⟩
    rw [hFound] at hSame
    cases hSame
    exact hRecords.yes_iff.mpr (hDone r hMember)

section Readiness

variable {readiness : Readiness}
variable {m : Metadata}
variable {now : Instant}

/- The condition of the object, as it is set at the end. -/
def readyCondition
    (now : Instant)
    (m : Metadata)
    (readiness : Readiness) : Condition where
  type := readyType
  status := readiness.status
  reason := "Complete"
  message := readiness.message
  lastTransition := now
  observedGeneration := m.generation

theorem types_setReady :
    types (setReady now m readiness cs) =
      addType readyType (types cs) :=
  types_set (readyCondition now m readiness) cs

/- Setting the readiness is updating the object's condition. -/
theorem find?_setReady
    {old : Condition}
    (hOld : find? readyType cs = some old) :
    find? readyType (setReady now m readiness cs) =
      some (old.update (readyCondition now m readiness)) := by
  have hSet :=
    find?_set (readyCondition now m readiness) readyType cs
  rw [hOld] at hSet
  exact hSet.trans (if_pos rfl)

/- No other condition is touched. -/
theorem find?_setReady_of_ne
    {t : String}
    (hNotReady : t ≠ readyType) :
    find? t (setReady now m readiness cs) = find? t cs :=
  (find?_set (readyCondition now m readiness) t cs).trans
    (if_neg hNotReady)

theorem allYes_setReady
    (hDistinct : (types cs).Nodup) :
    AllYes p results (setReady now m readiness cs) ↔
      AllYes p results cs := by
  have hSet :
      (types (setReady now m readiness cs)).Nodup := by
    rw [types_setReady]
    exact addType_nodup hDistinct
  rw [allYes_iff_find? hSet, allYes_iff_find? hDistinct]
  simp only [find?_setReady_of_ne
    (p.conditionType_ne_ready _)]

/-
  The object's condition keeps its transition time as long
  as it keeps its truth value.
-/
theorem Progress.transition_ready
    {c old : Condition}
    (hProgress : Progress p generation fetched results cs)
    (hFound :
      find? readyType (setReady now m readiness cs) = some c)
    (hOld : find? readyType fetched = some old)
    (hStatus : old.status = c.status) :
    c.lastTransition = old.lastTransition := by
  rw [find?_setReady (hProgress.readyKept old hOld)] at hFound
  have hUpdated := Option.some.inj hFound
  rw [← hUpdated] at hStatus ⊢
  exact if_pos hStatus

/-
  At the end of the chain the readiness is set, which must
  say whether all results are done.
-/
theorem Progress.coherent
    (hProgress : Progress p generation fetched results cs)
    (hFetched : (types fetched).Nodup)
    (hReadiness :
      readiness = .ready ↔ ∀ r ∈ results, r.2.IsDone)
    (hGeneration : m.generation = generation)
    (now : Instant) :
    Coherent p generation fetched results
      (setReady now m readiness cs) := by
  have hDistinct :
      (types (setReady now m readiness cs)).Nodup := by
    rw [types_setReady]
    exact addType_nodup hProgress.distinct
  have hAll :
      AllYes p results (setReady now m readiness cs) ↔
        readiness = .ready := by
    rw [allYes_setReady hProgress.distinct,
      hProgress.allYes_iff, hReadiness]
  exact
    { distinct := hDistinct
      order := by
        rw [types_setReady]
        exact extends_addType hProgress.order _
      untouched := by
        intro c hNotReady hOthers
        rw [mem_iff_find? hDistinct,
          find?_setReady_of_ne hNotReady,
          hProgress.untouched _ hNotReady hOthers]
        exact (mem_iff_find? hFetched).symm
      recorded := by
        intro r hMember
        rcases hProgress.recorded r hMember with
          ⟨c, hFound, hRecords, hObserved⟩
        rw [← find?_setReady_of_ne
          (p.conditionType_ne_ready r.1)] at hFound
        exact ⟨c, only_of_find? hDistinct hFound, hRecords,
          hObserved⟩
      ready := by
        rcases Option.isSome_iff_exists.mp hProgress.ready
          with ⟨old, hOld⟩
        refine
          ⟨old.update (readyCondition now m readiness),
            only_of_find? hDistinct (find?_setReady hOld),
            ?_, ?_, hGeneration⟩
        · intro hYes
          change readiness.status = .yes
          rw [hAll.mp hYes]
          rfl
        · intro hNot
          change readiness.status = .no
          cases readiness with
          | ready => exact absurd (hAll.mpr rfl) hNot
          | processing => rfl
          | notReady => rfl
      transitions := by
        intro c hIn old hOldIn hType hStatus
        have hFound := (mem_iff_find? hDistinct).mp hIn
        have hOld := (mem_iff_find? hFetched).mp hOldIn
        rw [hType] at hOld
        by_cases hReady : c.type = readyType
        · rw [hReady] at hFound hOld
          exact hProgress.transition_ready hFound hOld hStatus
        · rw [find?_setReady_of_ne hReady] at hFound
          exact hProgress.transitions _ c old hReady hFound
            hOld hStatus }

end Readiness

end Coherence

end Conditions

end Reconciler
