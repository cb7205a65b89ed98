import Reconciler.Proofs.Engine.Chain

/-
  This file defines what is to be reported of a run.

  What goes wrong in a run is told by its journal, but for
  the error of the hook, which is the answer that the run
  gets from it.  Each incident has a report or none; policy,
  generation and tags are those of the fetched object,
  whatever the run and its steps do to their copies.

  Key definitions include:
    * `Incident`
    * `Manager.incident?`
    * `Manager.reportOf?`
    * `Manager.refusal?`
    * `Manager.reportsDue`
    * `Manager.ToldBut`

  Key theorems include:
    * `Manager.approach_eq_prepare`
    * `Manager.ToldBut.moveTo`
    * `Manager.ToldBut.settle`
    * `Manager.deliver_first`
-/

------------------------------------------------------------
-- Incidents
------------------------------------------------------------

namespace Reconciler

variable {μ : Type}

/-
  What can go wrong in a run.  A status that could not be
  written is that of the working copy as it was sent.
-/
inductive Incident where
  | notFetched (e : StoreError)
  | incapable (c : Capability)
  | notPatched (e : StoreError)
  | statusNotWritten (o : Object) (e : StoreError)
  | refused (e : OperatorError)
  | stepFailed (step : String) (e : StepError)

/- The object that a journal says was fetched. -/
def Journal.fetched?
    (j : List (Moment μ)) : Option Object :=
  (fetches j).findSome? (·.toOption)

namespace Manager

open Engine

variable {m : Manager μ}

/-
  What an event says has gone wrong, given the error that
  the hook answers with.
-/
def incident?
    (m : Manager μ)
    (refusal? : Option OperatorError) :
    Event → Option Incident
  | .fetched _ (.ok o) =>
      (m.missingCapability? o).map .incapable
  | .fetched _ (.error e) => some (.notFetched e)
  | .patched _ _ (.error e) => some (.notPatched e)
  | .statusUpdated o (.error e) =>
      some (.statusNotWritten o e)
  | .hookCalled => refusal?.map .refused
  | .executed step result =>
      result.error?.map (.stepFailed step)
  | _ => none

/-
  The report of an error that the policy has to allow for
  the object, with the generation of the object.
-/
def permitted?
    (m : Manager μ)
    (o : Object)
    (message : String)
    (step : Option String) : Option Report :=
  if m.policy.allows o.metadata.generation
      o.observedGeneration? then
    some ⟨message, m.tags o step,
      [("generation", .int o.metadata.generation.toInt)]⟩
  else
    none

/-
  The report that an incident calls for, given the fetched
  object.  Missing capabilities are reported under every
  policy.
-/
def reportOf?
    (m : Manager μ)
    (k : Key)
    (o? : Option Object) : Incident → Option Report
  | .notFetched e =>
      if e.isNotFound || e.isTerminating ||
          m.policy == .never then
        none
      else
        some ⟨e.message, m.keyTags k, []⟩
  | .incapable c =>
      let e : ReconcileError :=
        .missingCapability m.kind c.contract
      o?.map (fun o => ⟨e.message, m.tags o none, []⟩)
  | .notPatched e =>
      if e.isTerminating then
        none
      else
        o?.bind (m.permitted? · e.message none)
  | .statusNotWritten obj e =>
      if e.isTerminating || e.isConflict ||
          (e.isNotFound && obj.isDeleting) then
        none
      else
        o?.bind (m.permitted? · e.message none)
  | .refused e =>
      if e.report && e.failure.isReportable then
        o?.bind (m.permitted? · e.failure.fullText none)
      else
        none
  | .stepFailed step e =>
      if e.reported && e.failure.isReportable then
        o?.bind
          (m.permitted? · e.failure.fullText (some step))
      else
        none

/- The report that an event calls for. -/
def due?
    (m : Manager μ)
    (k : Key)
    (o? : Option Object)
    (refusal? : Option OperatorError)
    (e : Event) : Option Report :=
  (m.incident? refusal? e).bind (m.reportOf? k o?)

/- The error of a step is due if the step asks for that. -/
theorem due?_executed
    (m : Manager μ)
    (k : Key)
    (o : Object)
    (refusal? : Option OperatorError)
    (step : String)
    (result : StepResult) :
    m.due? k (some o) refusal? (.executed step result) =
      result.error?.bind (fun e =>
        if e.reported && e.failure.isReportable then
          m.permitted? o e.failure.fullText (some step)
        else
          none) := by
  unfold due? incident?
  dsimp only
  cases result.error? with
  | none => rfl
  | some e => rfl

/-
  The reports that the events of a run call for, as far as
  the reporter keeps them.
-/
def reportsDue
    (m : Manager μ)
    (k : Key)
    (refusal? : Option OperatorError)
    (j : List (Moment μ)) : List Report :=
  ((Journal.events j).filterMap
    (m.due? k (Journal.fetched? j) refusal?)).flatMap
      m.reporter.keep

------------------------------------------------------------
-- The Error of the Hook
------------------------------------------------------------

/-
  The error that the hook answers with where it is called
  for some work, unless the run is cancelled by then.
-/
def refusalAt?
    (m : Manager μ)
    (c : Context)
    (w : Work)
    (s : Session μ) : Option OperatorError :=
  match m.hook with
  | none => none
  | some hook =>
      if s.resume.scene.cancelled then
        none
      else
        match hook c w.obj s.resume.scene with
        | .ok (.error e) _ => some e
        | _ => none

/- A hook that the run gets to is asked. -/
theorem refusalAt?_asked
    {m : Manager μ}
    {c : Context}
    {w : Work}
    {s : Session μ}
    {scene : Scene μ}
    {hook : Hook μ}
    (hHook : m.hook = some hook)
    (hScene : s.resume.scene = scene)
    (hGoes : scene.cancelled = false) :
    m.refusalAt? c w s =
      match hook c w.obj scene with
      | .ok (.error e) _ => some e
      | _ => none := by
  unfold refusalAt?
  rw [hHook, hScene]
  dsimp only
  rw [hGoes]
  rfl

/-
  The error that the hook of a run answers with.  Up to the
  hook the run is that of the manager without it.
-/
def refusal?
    (m : Manager μ)
    (k : Key)
    (s : Session μ) : Option OperatorError :=
  match ({ m with hook := none } : Manager μ).approach k s
  with
  | .ok (.ok (c, w)) mid => m.refusalAt? c w mid
  | _ => none

/- A run up to its chain is one up to its hook, and the hook. -/
theorem approach_eq_prepare
    (m : Manager μ)
    (k : Key) :
    m.approach k = (do
      match ← ({ m with hook := none } : Manager μ).approach k
      with
      | .error why => return .error why
      | .ok (c, w) =>
          match ← m.prepare c w with
          | none => return .error .refused
          | some c => return .ok (c, w)) := by
  simp only [approach, bind_assoc]
  congr 1
  funext fetched
  cases fetched with
  | error e =>
      by_cases hMissing : e.isNotFound = true
      · simp [hMissing]
      · dsimp only
        rw [if_neg hMissing, if_neg hMissing, bind_assoc]
        rfl
  | ok o =>
      simp only [bind_assoc]
      congr 1
      funext _
      congr 1
      funext now
      have hParked :
          ({ m with hook := none } : Manager μ).parked?
              (Work.fresh o now) =
            m.parked? (Work.fresh o now) :=
        rfl
      rw [hParked]
      cases m.parked? (Work.fresh o now) with
      | some d => simp
      | none =>
          simp only [bind_assoc]
          rfl

------------------------------------------------------------
-- What Has Been Reported
------------------------------------------------------------

/-
  Since the start of a run these objects were fetched, and
  all that was due has been reported, but for what the last
  events call for.
-/
def ToldBut
    (m : Manager μ)
    (k : Key)
    (refusal? : Option OperatorError)
    (start : Session μ)
    (fetched : List (Except StoreError Object))
    (untold : List Event)
    (s : Session μ) : Prop :=
  ∃ new last,
    s.journal = start.journal ++ (new ++ last) ∧
      Journal.events last = untold ∧
      Journal.fetches (new ++ last) = fetched ∧
      s.reports =
        start.reports ++
          ((Journal.events new).filterMap
            (m.due? k (fetched.findSome? (·.toOption))
              refusal?)).flatMap m.reporter.keep

section Told

variable {k : Key}
variable {refusal? : Option OperatorError}
variable {start s : Session μ}
variable {fetched : List (Except StoreError Object)}
variable {untold : List Event}

namespace ToldBut

/- Something has happened of which nothing is told yet. -/
theorem moveTo
    {e : Event}
    (hTold : m.ToldBut k refusal? start fetched untold s)
    (hFetch : e.fetch? = none)
    (scene : Scene μ) :
    m.ToldBut k refusal? start fetched (untold ++ [e])
      (s.moveTo e scene) := by
  rcases hTold with
    ⟨new, last, hJournal, hLast, hFetches, hReports⟩
  refine
    ⟨new, last ++ [⟨e, scene⟩], ?_, ?_, ?_, hReports⟩
  · simp [hJournal]
  · simp [hLast]
  · rw [← List.append_assoc, Journal.fetches_append,
      hFetches]
    simp [Journal.fetches, hFetch]

/- What calls for no report is as good as told. -/
theorem settle
    (hTold : m.ToldBut k refusal? start fetched untold s)
    (hNothing :
      untold.filterMap
          (m.due? k (fetched.findSome? (·.toOption))
            refusal?) =
        []) :
    m.ToldBut k refusal? start fetched [] s := by
  rcases hTold with
    ⟨new, last, hJournal, hLast, hFetches, hReports⟩
  refine ⟨new ++ last, [], ?_, rfl, ?_, ?_⟩
  · rw [List.append_nil, hJournal]
  · rw [List.append_nil, hFetches]
  · rw [Journal.events_append, List.filterMap_append, hLast,
      hNothing, List.append_nil, hReports]

/- An event that calls for no report. -/
theorem pass
    {e : Event}
    (hTold : m.ToldBut k refusal? start fetched [] s)
    (hFetch : e.fetch? = none)
    (hNothing :
      m.due? k (fetched.findSome? (·.toOption)) refusal? e =
        none)
    (scene : Scene μ) :
    m.ToldBut k refusal? start fetched []
      (s.moveTo e scene) :=
  (hTold.moveTo hFetch scene).settle (by simp [hNothing])

/- The running of other tasks calls for no report. -/
theorem resume
    (hTold : m.ToldBut k refusal? start fetched [] s) :
    m.ToldBut k refusal? start fetched [] s.resume :=
  Session.resume_keeps (fun _ _ => hTold)
    (fun _ _ _ h => h.pass rfl rfl _)

/- The reports that are due are made. -/
theorem deliver
    (hTold : m.ToldBut k refusal? start fetched untold s) :
    m.ToldBut k refusal? start fetched []
      { s with
        reports := s.reports ++
          (untold.filterMap
            (m.due? k (fetched.findSome? (·.toOption))
              refusal?)).flatMap m.reporter.keep } := by
  rcases hTold with
    ⟨new, last, hJournal, hLast, hFetches, hReports⟩
  refine ⟨new ++ last, [], ?_, rfl, ?_, ?_⟩
  · rw [List.append_nil]
    exact hJournal
  · rw [List.append_nil, hFetches]
  · rw [Journal.events_append, List.filterMap_append, hLast,
      List.flatMap_append, ← List.append_assoc, ← hReports]

end ToldBut

------------------------------------------------------------
-- Reports
------------------------------------------------------------

/- Make a report, if there is one to make. -/
def deliver
    (m : Manager μ) : Option Report → Engine μ Unit
  | none => pure ()
  | some r => m.emit r

/- A report that is due is made. -/
theorem deliver_told
    {r? : Option Report}
    {H : Halt → Session μ → Prop}
    (hDue :
      untold.filterMap
          (m.due? k (fetched.findSome? (·.toOption))
            refusal?) =
        r?.toList) :
    Triple (m.ToldBut k refusal? start fetched untold)
      (m.deliver r?)
      (fun _ => m.ToldBut k refusal? start fetched []) H := by
  cases r? with
  | none => exact .pure (fun _ hTold => hTold.settle hDue)
  | some r =>
      refine .update (fun s hTold => ?_)
      have hMade := hTold.deliver
      rw [hDue] at hMade
      simpa using hMade

/-
  The report that an event calls for is made; nothing that
  came after it calls for one.
-/
theorem deliver_first
    {e : Event}
    {later : List Event}
    {r? : Option Report}
    {H : Halt → Session μ → Prop}
    (hDue :
      m.due? k (fetched.findSome? (·.toOption)) refusal? e =
        r?)
    (hLater :
      later.filterMap
          (m.due? k (fetched.findSome? (·.toOption))
            refusal?) =
        []) :
    Triple
      (m.ToldBut k refusal? start fetched (e :: later))
      (m.deliver r?)
      (fun _ => m.ToldBut k refusal? start fetched []) H := by
  apply deliver_told
  cases r? with
  | none =>
      rw [List.filterMap_cons_none hDue, hLater]
      rfl
  | some r =>
      rw [List.filterMap_cons_some hDue, hLater]
      rfl

theorem report_eq_deliver
    (f : Failure)
    (o : Object)
    (step : Option String) :
    m.report f o step =
      m.deliver
        (if f.isReportable then
          m.permitted? o f.fullText step
        else none) := by
  unfold report permitted? Report.capture?
  cases f.isReportable with
  | false => simp [deliver]
  | true =>
      dsimp only
      split
      · rfl
      · rfl

theorem reportStoreError_eq_deliver
    (e : StoreError)
    (o : Object) :
    m.reportStoreError e o =
      m.deliver
        (if e.isTerminating then none
        else m.permitted? o e.message none) := by
  have hReportable : (Failure.plain e.message).isReportable :=
    rfl
  have hText :
      (Failure.plain e.message).fullText = e.message := by
    simp [Failure.fullText, Failure.chain, chainText]
  unfold reportStoreError
  rw [report_eq_deliver, if_pos hReportable, hText]
  cases e.isTerminating <;> rfl

theorem reportStepError_eq_deliver
    (step : String)
    (result : StepResult)
    (o : Object) :
    m.reportStepError step result o =
      m.deliver
        (result.error?.bind (fun e =>
          if e.reported && e.failure.isReportable then
            m.permitted? o e.failure.fullText (some step)
          else none)) := by
  unfold reportStepError
  cases result.error? with
  | none => rfl
  | some e =>
      dsimp only
      rw [report_eq_deliver]
      cases hReported : e.reported <;> simp [deliver, hReported]

theorem reportFetchError_eq_deliver
    {e : StoreError}
    (hFound : e.isNotFound = false) :
    m.reportFetchError e k =
      m.deliver (m.reportOf? k none (.notFetched e)) := by
  unfold reportFetchError reportOf?
  dsimp only
  rw [hFound]
  cases e.isTerminating <;>
    cases hNever : m.policy == .never <;>
      simp [deliver, bne, hNever]

end Told

end Manager

end Reconciler
