import Reconciler.Proofs.Engine.Idle
import Reconciler.Proofs.Engine.Missing
import Reconciler.Proofs.Engine.Waiting

/-
  This file says when a second run is silent.

  What a completed run leaves behind is at rest: it carries
  the tokens that were declared, and its conditions tell what
  has been found.  So the next run is silent, if the steps
  find nothing more to do, unless one of them declares a
  token for the stored object that none has declared before.

  Key definitions include:
    * `Manager.Completes`
    * `Manager.RunsSilently`
    * `Manager.Revisits`

  Key theorems include:
    * `Manager.AtRest.runsSilently`
    * `Manager.completed_settles`
    * `Manager.tidy_unsettled`
-/

------------------------------------------------------------
-- Second Runs
------------------------------------------------------------

namespace Reconciler

namespace Manager

open Engine

variable {μ : Type}

section SecondRuns

variable {m : Manager μ}
variable {k : Key}
variable {o : Object}
variable {results : List Executed}
variable {met : Context → μ → Prop}
variable {again : Session μ}

/- The answer of a run, if its steps have come to one. -/
def Completes : Except ReconcileError Duration → Prop
  | .ok _ => True
  | .error (.step _ _ _) => True
  | .error _ => False

/- What holds after a completed run, recovered or not. -/
theorem recovered_of_triple
    {P : Session μ → Prop}
    {Q : Except ReconcileError Duration → Session μ → Prop}
    {H : Halt → Session μ → Prop}
    {tags : Table String String}
    {start end_ : Session μ}
    {answer : Except ReconcileError Duration}
    (hTriple :
      Triple P (m.reconcile k) (fun d => Q (.ok d)) H)
    (hHalts :
      ∀ step requeue cause s,
        H (.failed (.step step requeue cause)) s →
          Q (.error (.step step requeue cause)) s)
    (hStart : P start)
    (hRun :
      m.reconcileRecovered tags k start = (answer, end_))
    (hCompletes : Completes answer) :
    Q answer end_ := by
  unfold reconcileRecovered at hRun
  cases hReconcile : m.reconcile k start with
  | ok d s =>
      rw [hReconcile] at hRun
      cases hRun
      exact hTriple.of_ok hStart hReconcile
  | error h s =>
      rw [hReconcile] at hRun
      cases h with
      | panicked p =>
          cases hRun
          exact hCompletes.elim
      | failed e =>
          cases hRun
          cases e with
          | step step requeue cause =>
              have hEnd := hHalts step requeue cause s
                (hTriple.of_error hStart hReconcile)
              change Q _ { s with reports := s.reports ++ [] }
              rw [List.append_nil]
              exact hEnd
          | store _ => exact hCompletes.elim
          | prepare _ => exact hCompletes.elim
          | missingCapability _ _ => exact hCompletes.elim
          | cancelled => exact hCompletes.elim
          | panicked _ => exact hCompletes.elim

/-
  Another run writes nothing, leaves an object stored as it
  is, and comes to the same answer.
-/
def RunsSilently
    (m : Manager μ)
    (k : Key)
    (o : Object)
    (answer : Except ReconcileError Duration)
    (again : Session μ)
    (tags : Table String String) : Prop :=
  (m.reconcileRecovered tags k again).1 = answer ∧
    Untouched k o (m.reconcileRecovered tags k again).2 ∧
    again.SilentSince (m.reconcileRecovered tags k again).2

/- A run on an object at rest runs silently. -/
theorem AtRest.runsSilently
    {answer : Except ReconcileError Duration}
    (hScheduler : m.scheduler = none)
    (hTrack : m.trackLast = false)
    (hBehave : m.StepsBehave)
    (hClear : m.StepsClear)
    (hHook : m.HookSucceeds k)
    (hAnswered : Answered m.steps results)
    (hAnswer :
      (Verdict.ofResults results .zero false).answer = answer)
    (hRest :
      m.AtRest results
        (Verdict.ofResults results .zero false) o)
    (hRepeats : m.Repeats k o results met again)
    (hUntouched : Untouched k o again)
    (hUnhindered : again.Unhindered)
    (tags : Table String String) :
    m.RunsSilently k o answer again tags := by
  have hIdles :=
    Idles.start hUntouched hUnhindered hRepeats
  have hTriple := reconcile_idles hScheduler hTrack hBehave
    hClear hHook hAnswered hRest hRepeats
  unfold RunsSilently reconcileRecovered
  cases hReconcile : m.reconcile k again with
  | ok d s =>
      rcases hTriple.of_ok hIdles hReconcile with
        ⟨hSame, c, hEnd⟩
      exact ⟨hSame.symm.trans hAnswer, hEnd.untouched,
        hEnd.silent⟩
  | error h s =>
      rcases hTriple.of_error hIdles hReconcile with
        ⟨step, requeue, cause, rfl, hSame, c, hEnd⟩
      have hEnd := hEnd.aside (s.reports ++ []) s.draws
      exact ⟨hSame.symm.trans hAnswer, hEnd.untouched,
        hEnd.silent⟩

/-
  A completed run settles a live object: every token that was
  declared for it is stored.  If the steps that were executed
  find nothing more to do on the stored object, another run
  is silent, whenever it starts, exactly if the stored object
  carries every token that is declared for it now.

  The two differ where a step declares its tokens by what it
  finds on the object.
-/
theorem completed_settles
    {start end_ : Session μ}
    {tags : Table String String}
    {answer : Except ReconcileError Duration}
    (hScheduler : m.scheduler = none)
    (hTrack : m.trackLast = false)
    (hWritable : m.readOnly = false)
    (hBehave : m.StepsBehave)
    (hClear : m.StepsClear)
    (hSpares : m.SparesConditions)
    (hNames : m.stepNames.Nodup)
    (hHook : m.HookSucceeds k)
    (hKey : o.key = k)
    (hLive : o.isDeleting = false)
    (hUntouched : Untouched k o start)
    (hUnhindered : start.Unhindered)
    (hRun :
      m.reconcileRecovered tags k start = (answer, end_))
    (hCompletes : Completes answer) :
    ∃ stored new,
      end_.scene.store.object? k = some stored ∧
        end_.journal = start.journal ++ new ∧
        Tokens.declared m.steps o ⊆
          stored.metadata.finalizers ∧
        ∀ again met,
          Untouched k stored again →
          again.Unhindered →
          m.Repeats k stored (Journal.executed new) met
            again →
          ∀ tags,
            m.RunsSilently k stored answer again tags ↔
              Tokens.declared m.steps stored ⊆
                stored.metadata.finalizers := by
  have hLeaves : m.Leaves k o start answer end_ :=
    recovered_of_triple (Q := m.Leaves k o start)
      (reconcile_leaves hScheduler hTrack hWritable hBehave
        hClear hSpares hNames hHook hKey hLive hUntouched
        hUnhindered)
      (fun step requeue cause _ h =>
        h step requeue cause rfl)
      rfl hRun hCompletes
  rcases hLeaves with
    ⟨_, ⟨hAnswered, hAnswer, hCapable⟩,
      ⟨stored, hStored, hSettled⟩, new, hJournal, rfl⟩
  refine ⟨stored, new, hStored, hJournal,
    fun t hToken => hSettled.armed t hToken, ?_⟩
  intro again met hUntouched hUnhindered hRepeats tags
  constructor
  · intro hSilently
    by_contra hUnarmed
    have hMissing : Tokens.missing m.steps stored ≠ [] :=
      fun hNone => hUnarmed
        ((Tokens.missing_eq_nil_iff m.steps stored).mp hNone)
    have hWrote :=
      recovered_writes
        (fun _ => parked?_eq_none hScheduler _) hWritable
        ((m.missingCapability?_congr hSettled.kind).trans
          hCapable)
        hSettled.live hMissing hUntouched hUnhindered tags
    exact hWrote.not_silent hSilently.2.2
  · intro hArmed
    exact AtRest.runsSilently hScheduler hTrack hBehave hClear
      hHook hAnswered hAnswer
      (hSettled.atRest hLive hCapable hArmed) hRepeats
      hUntouched hUnhindered tags

end SecondRuns

------------------------------------------------------------
-- An Object at Rest
------------------------------------------------------------

/-
  A step that marks its object and comes back later.  Which
  tokens it declares is left open.
-/
def tidyStep
    (tokens : Object → List String) : Step Unit where
  name := "tidy"
  tokens := tokens
  process := fun _ o =>
    return (.proceed (some (.ofSeconds 5)),
      o.mapStatus (fun s => { s with payload := "tidy" }))

/- A manager that runs this step and keeps conditions. -/
def tidyManager
    (tokens : Object → List String) : Manager Unit :=
  { guardManager with
    steps := [tidyStep tokens]
    conditions := true
    hook := some (fun c _ => return .ok c) }

/- The session after a reconcile. -/
def tidyEnd
    (tokens : Object → List String) : Session Unit :=
  ((tidyManager tokens).reconcileRecovered [] guardKey
    guardStart).2

/- The same session some time later. -/
def tidyAgain
    (tokens : Object → List String)
    (d : Duration) : Session Unit :=
  { tidyEnd tokens with
    scene := (tidyEnd tokens).scene.advance d }

/- A minute, and more time than any clock can show. -/
def aMinute : Duration :=
  .ofSeconds 60

def anAeon : Duration :=
  .ofSeconds 9000000000000

/- The object of the host. -/
def tidyObject : Object where
  kind := .full
  metadata :=
    { Metadata.fresh "default" "object" with
      resourceVersion := some "1" }
  status := {}

/- A token for every object, or only for one with a mark. -/
def everyToken
    (_ : Object) : List String :=
  ["token"]

def markedToken
    (o : Object) : List String :=
  if o.status.payload = "tidy" then ["token"] else []

section Tidy

variable (tokens : Object → List String)

theorem tidy_stepsBehave :
    (tidyManager tokens).StepsBehave where
  hook := by
    intro hook hSome
    cases hSome
    exact fun _ _ _ => rfl
  process := by
    intro step hStep
    rw [List.mem_singleton.mp hStep]
    exact fun _ _ _ => rfl
  finalize := by
    intro step hStep
    rw [List.mem_singleton.mp hStep]
    exact fun _ _ _ => rfl
  keeps := by
    intro step hStep c o scene result o' scene' hRun
    rw [List.mem_singleton.mp hStep] at hRun
    rcases hRun with hRun | hRun
    · cases hRun
      rfl
    · cases hRun
      rfl

theorem tidy_stepsClear :
    (tidyManager tokens).StepsClear where
  hook := by
    intro hook hSome c o scene a scene' hScene hRun
    cases hSome
    cases hRun
    exact hScene
  process := by
    intro step hStep c o scene a scene' hScene hRun
    rw [List.mem_singleton.mp hStep] at hRun
    cases hRun
    exact hScene

theorem tidy_sparesConditions :
    (tidyManager tokens).SparesConditions := by
  intro _ step hStep c o scene result o' scene' hRun _ _
  rw [List.mem_singleton.mp hStep] at hRun
  cases hRun
  rfl

theorem tidy_hookSucceeds :
    (tidyManager tokens).HookSucceeds guardKey := by
  intro hook hSome o scene
  cases hSome
  exact ⟨_, _, rfl⟩

end Tidy

/- The host has its object, and nobody hinders it. -/
theorem tidy_untouched :
    Untouched guardKey tidyObject guardStart :=
  ⟨by decide +kernel, undisturbed_of_alone rfl⟩

theorem tidy_unhindered :
    guardStart.Unhindered :=
  unhindered_of_alone rfl
    { quiet :=
        ⟨by decide +kernel, by decide +kernel,
          by decide +kernel⟩
      goes := rfl
      readable := ⟨.epoch, by decide +kernel⟩ }

/- Time goes by, and the object stays. -/
theorem untouched_later
    {s : Session μ}
    {k : Key}
    {o : Object}
    (d : Duration)
    (hUntouched : Untouched k o s) :
    Untouched k o { s with scene := s.scene.advance d } where
  stored := hUntouched.stored
  undisturbed := hUntouched.undisturbed

/- Whether a result proceeds in five seconds. -/
def proceedsSoon : StepResult → Bool
  | .proceed (some d) => d == .ofSeconds 5
  | _ => false

theorem eq_of_proceedsSoon
    {result : StepResult}
    (hSoon : proceedsSoon result = true) :
    result = .proceed (some (.ofSeconds 5)) := by
  unfold proceedsSoon at hSoon
  split at hSoon
  · rw [eq_of_beq hSoon]
  · cases hSoon

/- The step finds nothing more to do on a marked object. -/
theorem tidy_repeats
    {tokens : Object → List String}
    {stored : Object}
    {results : List Executed}
    {again : Session Unit}
    (hMarked : stored.status.payload = "tidy")
    (hSoon :
      results.all (fun r => proceedsSoon r.2) = true) :
    (tidyManager tokens).Repeats guardKey stored results
      (fun _ _ => True) again where
  starts := trivial
  others := fun _ _ _ _ _ => trivial
  hooked := fun _ _ _ _ _ _ _ => trivial
  repeated := by
    intro step hStep result hMember c scene _ _ _
    have hResult : result = .proceed (some (.ofSeconds 5)) :=
      eq_of_proceedsSoon
        (List.all_eq_true.mp hSoon _ hMember)
    have hSame :
        stored.mapStatus
            (fun s => { s with payload := "tidy" }) =
          stored := by
      rw [← hMarked]
      rfl
    rw [List.mem_singleton.mp hStep, hResult]
    refine ⟨scene, ?_, trivial⟩
    change
      EStateM.Result.ok
        (StepResult.proceed (some (.ofSeconds 5)),
          stored.mapStatus
            (fun s => { s with payload := "tidy" })) scene = _
    rw [hSame]

/-
  What a reconcile of the tidy manager comes to: it succeeds,
  the object is marked, and nothing hinders a second run.
-/
structure TidiesUp
    (tokens : Object → List String) : Prop where
  answer :
    ((tidyManager tokens).reconcileRecovered [] guardKey
      guardStart).1.toOption = some (.ofSeconds 5)
  marked :
    ((tidyEnd tokens).scene.store.object? guardKey).map
      (·.status.payload) = some "tidy"
  soon :
    (Journal.executed (tidyEnd tokens).journal).all
      (fun r => proceedsSoon r.2) = true
  alone : (tidyEnd tokens).others.isEmpty = true
  quiet : (tidyEnd tokens).scene.store.Quiet
  goes : (tidyEnd tokens).scene.cancelled = false

theorem everyToken_tidiesUp :
    TidiesUp everyToken where
  answer := by decide +kernel
  marked := by decide +kernel
  soon := by decide +kernel
  alone := by decide +kernel
  quiet :=
    ⟨by decide +kernel, by decide +kernel, by decide +kernel⟩
  goes := by decide +kernel

theorem markedToken_tidiesUp :
    TidiesUp markedToken where
  answer := by decide +kernel
  marked := by decide +kernel
  soon := by decide +kernel
  alone := by decide +kernel
  quiet :=
    ⟨by decide +kernel, by decide +kernel, by decide +kernel⟩
  goes := by decide +kernel

/- As long as the clock can be read, nobody hinders it. -/
theorem TidiesUp.unhindered
    {tokens : Object → List String}
    {d : Duration}
    {now : Instant}
    (hTidies : TidiesUp tokens)
    (hRead :
      (tidyAgain tokens d).scene.clock.read = .ok now) :
    (tidyAgain tokens d).Unhindered :=
  unhindered_of_alone hTidies.alone
    { quiet := hTidies.quiet
      goes := hTidies.goes
      readable := ⟨now, hRead⟩ }

/-
  The object is marked and comes back in five seconds, and
  after a minute nothing is left to be written.
-/
theorem tidy_settles :
    ((tidyManager everyToken).reconcileRecovered [] guardKey
        guardStart).1.toOption = some (.ofSeconds 5) ∧
      ∃ stored,
        (tidyEnd everyToken).scene.store.object? guardKey =
            some stored ∧
          "token" ∈ stored.metadata.finalizers ∧
          (tidyManager everyToken).RunsSilently guardKey
            stored (.ok (.ofSeconds 5))
            (tidyAgain everyToken aMinute) [] := by
  have hTidies := everyToken_tidiesUp
  have hRun :
      (tidyManager everyToken).reconcileRecovered [] guardKey
          guardStart =
        (.ok (.ofSeconds 5), tidyEnd everyToken) :=
    run_of_answer (ok_of_toOption hTidies.answer)
  have hKey : tidyObject.key = guardKey := by
    decide +kernel
  rcases completed_settles rfl rfl rfl
      (tidy_stepsBehave everyToken)
      (tidy_stepsClear everyToken)
      (tidy_sparesConditions everyToken) (by decide +kernel)
      (tidy_hookSucceeds everyToken) hKey rfl tidy_untouched
      tidy_unhindered hRun trivial with
    ⟨stored, new, hStored, hJournal, hArmed, hSettles⟩
  have hSoon := hTidies.soon
  have hNew : (tidyEnd everyToken).journal = [] ++ new :=
    hJournal
  rw [hNew, List.nil_append] at hSoon
  have hMarked := hTidies.marked
  rw [hStored] at hMarked
  have hRead :
      (tidyAgain everyToken aMinute).scene.clock.read =
        .ok restingSlot := by
    decide +kernel
  have hSilent :=
    hSettles (tidyAgain everyToken aMinute) _
      (untouched_later _
        ⟨hStored, undisturbed_of_alone hTidies.alone⟩)
      (hTidies.unhindered hRead)
      (tidy_repeats (Option.some.inj hMarked) hSoon) []
  refine ⟨hTidies.answer, stored, hStored, ?_,
    hSilent.mpr hArmed⟩
  exact hArmed (List.mem_singleton_self "token")

/-
  A completed run on a live object, and a later session in
  which the executed steps find nothing more to do.  Nobody
  else writes objects, no failure is queued, and the second
  run is not cancelled.
-/
structure Revisits
    (m : Manager μ)
    (k : Key)
    (o stored : Object)
    (answer : Except ReconcileError Duration)
    (start again : Session μ) : Prop where
  scheduler : m.scheduler = none
  track : m.trackLast = false
  writable : m.readOnly = false
  behave : m.StepsBehave
  clear : m.StepsClear
  spares : m.SparesConditions
  names : m.stepNames.Nodup
  hook : m.HookSucceeds k
  key : o.key = k
  live : o.isDeleting = false
  untouched : Untouched k o start
  unhindered : start.Unhindered
  answered : (m.reconcileRecovered [] k start).1 = answer
  completes : Completes answer
  stays : Untouched k stored again
  quiet : again.scene.store.Quiet
  goes : again.scene.cancelled = false
  repeats :
    ∃ new met,
      (m.reconcileRecovered [] k start).2.journal =
          start.journal ++ new ∧
        (m.reconcileRecovered [] k start).2.scene.store.object?
            k = some stored ∧
        m.Repeats k stored (Journal.executed new) met again

/- The tidy manager revisits its object at any later time. -/
theorem TidiesUp.revisits
    {tokens : Object → List String}
    (hTidies : TidiesUp tokens)
    (d : Duration) :
    ∃ stored,
      (tidyManager tokens).Revisits guardKey tidyObject
          stored (.ok (.ofSeconds 5)) guardStart
          (tidyAgain tokens d) := by
  rcases Option.map_eq_some_iff.mp hTidies.marked with
    ⟨stored, hStored, hPayload⟩
  refine ⟨stored, ?_⟩
  exact
    { scheduler := rfl
      track := rfl
      writable := rfl
      behave := tidy_stepsBehave tokens
      clear := tidy_stepsClear tokens
      spares := tidy_sparesConditions tokens
      names := List.nodup_singleton "tidy"
      hook := tidy_hookSucceeds tokens
      key := by decide +kernel
      live := rfl
      untouched := tidy_untouched
      unhindered := tidy_unhindered
      answered := ok_of_toOption hTidies.answer
      completes := trivial
      stays :=
        untouched_later d
          ⟨hStored, undisturbed_of_alone hTidies.alone⟩
      quiet := hTidies.quiet
      goes := hTidies.goes
      repeats :=
        ⟨(tidyEnd tokens).journal, fun _ _ => True,
          (List.nil_append _).symm, hStored,
          tidy_repeats hPayload hTidies.soon⟩ }

/-
  The steps find nothing more to do, and yet a second run is
  not silent.  In the first case the token is declared for
  the marked object only, so that the second run sends a
  patch that stores it.  In the second case time has gone
  beyond the last instant, so that the second run panics when
  it reads the clock.
-/
theorem tidy_unsettled :
    (∃ stored,
      (tidyManager markedToken).Revisits guardKey tidyObject
          stored (.ok (.ofSeconds 5)) guardStart
          (tidyAgain markedToken aMinute) ∧
        (tidyAgain markedToken aMinute).Unhindered ∧
        stored.metadata.finalizers = [] ∧
        (((tidyManager markedToken).reconcileRecovered []
            guardKey (tidyAgain markedToken aMinute)
              ).2.scene.store.object? guardKey).map
            (·.metadata.finalizers) = some ["token"] ∧
        ¬ (tidyManager markedToken).RunsSilently guardKey
          stored (.ok (.ofSeconds 5))
          (tidyAgain markedToken aMinute) []) ∧
      ∃ stored,
        (tidyManager everyToken).Revisits guardKey tidyObject
            stored (.ok (.ofSeconds 5)) guardStart
            (tidyAgain everyToken anAeon) ∧
          ¬ (tidyManager everyToken).RunsSilently guardKey
            stored (.ok (.ofSeconds 5))
            (tidyAgain everyToken anAeon) [] := by
  constructor
  · rcases markedToken_tidiesUp.revisits aMinute with
      ⟨stored, hRevisits⟩
    have hRead :
        (tidyAgain markedToken aMinute).scene.clock.read =
          .ok restingSlot := by
      decide +kernel
    have hBefore :
        ((tidyAgain markedToken aMinute).scene.store.object?
            guardKey).map (·.metadata.finalizers) =
          some [] := by
      decide +kernel
    have hAfter :
        (((tidyManager markedToken).reconcileRecovered []
            guardKey (tidyAgain markedToken aMinute)
              ).2.scene.store.object? guardKey).map
            (·.metadata.finalizers) = some ["token"] := by
      decide +kernel
    rw [hRevisits.stays.stored] at hBefore
    have hNone : stored.metadata.finalizers = [] :=
      Option.some.inj hBefore
    refine ⟨stored, hRevisits,
      markedToken_tidiesUp.unhindered hRead, hNone, hAfter,
      ?_⟩
    rintro ⟨_, hUntouched, _⟩
    rw [hUntouched.stored] at hAfter
    have hToken : stored.metadata.finalizers = ["token"] :=
      Option.some.inj hAfter
    rw [hNone] at hToken
    cases hToken
  · rcases everyToken_tidiesUp.revisits anAeon with
      ⟨stored, hRevisits⟩
    have hPanics :
        ((tidyManager everyToken).reconcileRecovered []
          guardKey
          (tidyAgain everyToken anAeon)).1.toOption =
          none := by
      decide +kernel
    refine ⟨stored, hRevisits, ?_⟩
    rintro ⟨hAnswer, _, _⟩
    rw [hAnswer] at hPanics
    cases hPanics

end Manager

end Reconciler
