import Reconciler.Proofs.Engine.Protection

/-
  This file says what a chain of steps with fixed results
  does, without the engine: which steps count, what becomes
  of tokens and conditions, and how the chain ends.

  A chain that takes tokens off an object can be started
  again from any list of tokens that it has come through: a
  step that is skipped the second time counts like one that
  has settled.

  Key definitions include:
    * `Answers.visited`
    * `Manager.course`
    * `Manager.plan`
    * `Manager.passed`

  Key theorems include:
    * `Manager.advance_skipped`
    * `Manager.course_visited`
    * `Manager.plan_passed`
-/

------------------------------------------------------------
-- Answers
------------------------------------------------------------

namespace Reconciler

variable {μ : Type}

/- The results of the entry points of each step. -/
structure Answers (μ : Type) where
  process : Step μ → StepResult
  finalize : Step μ → StepResult

/- Whether a list of tokens has one of a step. -/
def Step.holds
    (step : Step μ)
    (o : Object)
    (fs : List String) : Bool :=
  (step.tokens o).any (fun t => fs.contains t)

namespace Answers

/-
  The result that counts for a step if the object carries
  these tokens.
-/
def answer
    (a : Answers μ)
    (o : Object)
    (step : Step μ)
    (fs : List String) : StepResult :=
  if !o.isDeleting then a.process step
  else if step.holds o fs then a.finalize step
  else .skipped Manager.noFinalizer

/- Whether a step takes its tokens off. -/
def releases
    (a : Answers μ)
    (o : Object)
    (step : Step μ)
    (fs : List String) : Bool :=
  o.isDeleting && step.holds o fs &&
    (a.finalize step).isSettled

/- The tokens that a step leaves. -/
def leftover
    (a : Answers μ)
    (o : Object)
    (step : Step μ)
    (fs : List String) : List String :=
  if a.releases o step fs then
    Tokens.without (step.tokens o) fs
  else
    fs

/- The tokens that a chain comes through. -/
def visited
    (a : Answers μ)
    (o : Object) :
    List (Step μ) → List String → List (List String)
  | [], fs => [fs]
  | step :: rest, fs =>
      if (a.answer o step fs).outcome.continuesChain then
        fs :: a.visited o rest (a.leftover o step fs)
      else
        [fs]

------------------------------------------------------------
-- Visited Tokens
------------------------------------------------------------

variable {a : Answers μ}
variable {o : Object}

/- A step takes its tokens off if its finalize settles. -/
theorem releases_eq
    (step : Step μ)
    (fs : List String) :
    a.releases o step fs =
      (o.isDeleting && step.holds o fs &&
        (a.answer o step fs).isSettled) := by
  unfold releases answer
  cases o.isDeleting with
  | false => rfl
  | true =>
      cases step.holds o fs with
      | false => rfl
      | true => rfl

theorem leftover_subset
    (step : Step μ)
    (fs : List String) :
    a.leftover o step fs ⊆ fs := by
  unfold leftover
  split
  · intro t hToken
    exact ((Tokens.mem_without _ _ t).mp hToken).1
  · exact List.Subset.refl fs

/- A chain starts with the tokens that it is given. -/
theorem mem_visited_start
    (steps : List (Step μ))
    (fs : List String) :
    fs ∈ a.visited o steps fs := by
  cases steps with
  | nil => exact List.mem_singleton.mpr rfl
  | cons step rest =>
      unfold visited
      split
      · exact List.mem_cons_self
      · exact List.mem_singleton.mpr rfl

/- A chain only ever loses tokens. -/
theorem visited_subset
    {steps : List (Step μ)}
    {fs fs' : List String}
    (hVisited : fs' ∈ a.visited o steps fs) :
    fs' ⊆ fs := by
  induction steps generalizing fs with
  | nil =>
      rw [List.mem_singleton.mp hVisited]
      exact List.Subset.refl fs
  | cons step rest ih =>
      unfold visited at hVisited
      split at hVisited
      · rcases List.mem_cons.mp hVisited with hSame | hLater
        · rw [hSame]
          exact List.Subset.refl fs
        · exact List.Subset.trans (ih hLater)
            (leftover_subset step fs)
      · rw [List.mem_singleton.mp hVisited]
        exact List.Subset.refl fs

/- A chain keeps the tokens that none of its steps has. -/
theorem visited_keeps
    {steps : List (Step μ)}
    {fs fs' : List String}
    {t : String}
    (hVisited : fs' ∈ a.visited o steps fs)
    (hToken : t ∈ fs)
    (hOther : ∀ step ∈ steps, t ∉ step.tokens o) :
    t ∈ fs' := by
  induction steps generalizing fs with
  | nil =>
      rw [List.mem_singleton.mp hVisited]
      exact hToken
  | cons step rest ih =>
      unfold visited at hVisited
      split at hVisited
      · rcases List.mem_cons.mp hVisited with hSame | hLater
        · rw [hSame]
          exact hToken
        · refine ih hLater ?_ (fun other hMember =>
            hOther other (List.mem_cons_of_mem step hMember))
          unfold leftover
          split
          · exact (Tokens.mem_without _ _ t).mpr
              ⟨hToken, hOther step List.mem_cons_self⟩
          · exact hToken
      · rw [List.mem_singleton.mp hVisited]
        exact hToken

/- A chain on a live object leaves the tokens alone. -/
theorem visited_live
    {steps : List (Step μ)}
    {fs fs' : List String}
    (hLive : o.isDeleting = false)
    (hVisited : fs' ∈ a.visited o steps fs) :
    fs' = fs := by
  induction steps with
  | nil => exact List.mem_singleton.mp hVisited
  | cons step rest ih =>
      have hSame : a.leftover o step fs = fs := by
        unfold leftover releases
        rw [hLive]
        rfl
      unfold visited at hVisited
      rw [hSame] at hVisited
      split at hVisited
      · rcases List.mem_cons.mp hVisited with hStart | hLater
        · exact hStart
        · exact ih hLater
      · exact List.mem_singleton.mp hVisited

theorem holds_iff
    (step : Step μ)
    (o : Object)
    (fs : List String) :
    step.holds o fs = true ↔
      ∃ t ∈ step.tokens o, t ∈ fs := by
  unfold Step.holds
  simp

end Answers

------------------------------------------------------------
-- Courses
------------------------------------------------------------

/-
  What a chain adds up: the tokens and conditions of the
  object, the soonest requeue, and whether a step failed.
-/
structure Tally where
  tokens : List String
  conditions : List Condition
  requeue : Duration := .zero
  hasError : Bool := false

/-
  What a chain comes to: its tally and, if a step asked for
  a retry, the step with its delay and error.
-/
structure Course where
  tally : Tally
  retry? : Option (String × Duration × Failure) := none

/- How a run ends whose chain came to this. -/
def Course.answer
    (c : Course) : Except Halt Duration :=
  match c.retry? with
  | none => .ok c.tally.requeue
  | some (step, requeue, cause) =>
      .error (.failed (.step step requeue cause))

/- How ready the object is once a chain came to this. -/
def Course.readiness
    (c : Course) : Readiness :=
  match c.retry? with
  | none => .ofRun c.tally.requeue c.tally.hasError
  | some _ => .notReady

/-
  What an undisturbed run comes to: how it ends, and the
  tokens and the status that it leaves.
-/
structure Plan where
  answer : Except Halt Duration
  tokens : List String
  status : Status

/- How a plan answers once panics are recovered from. -/
def Plan.recovered
    (tags : Table String String)
    (p : Plan) : Except ReconcileError Duration :=
  p.answer.mapError (fun h => (h.recover tags).1)

namespace Manager

variable (m : Manager μ)
variable (a : Answers μ)
variable (o : Object)
variable (now : Instant)

/- Change the conditions, if they are kept. -/
def recorded
    (f : List Condition → List Condition)
    (t : Tally) : Tally :=
  { t with
    conditions :=
      if m.keepsConditions o then f t.conditions
      else t.conditions }

/- Start the condition of a step. -/
def seeded
    (step : Step μ)
    (t : Tally) : Tally :=
  m.recorded o
    (Conditions.seedStep now o.metadata step.name) t

/- Record the result of a step, and its requeue. -/
def applied
    (step : Step μ)
    (result : StepResult)
    (t : Tally) : Tally :=
  m.recorded o
    (Conditions.applyResult now o.metadata step.name result)
    { t with requeue := t.requeue.soonest result.requeue }

/- What a step makes of a tally. -/
def advance
    (step : Step μ)
    (t : Tally) : Tally :=
  { m.applied o now step (a.answer o step t.tokens)
      (m.seeded o now step t) with
    tokens := a.leftover o step t.tokens }

/- What a chain of steps comes to. -/
def course : List (Step μ) → Tally → Course
  | [], t => { tally := t }
  | step :: rest, t =>
      let t' := m.advance a o now step t
      match a.answer o step t.tokens with
      | .proceed _ => course rest t'
      | .skipped _ => course rest t'
      | .stopChain _ _ => { tally := t' }
      | .errorContinue _ =>
          course rest { t' with hasError := true }
      | .errorStop _ _ =>
          { tally := { t' with hasError := true } }
      | .errorRetry e requeue? =>
          { tally := t'
            retry? := some (step.name,
              (StepResult.errorRetry e requeue?).requeue,
              e.failure) }

/- The tokens with which the chain of an object starts. -/
def armedWith
    (fs : List String) : List String :=
  if o.isDeleting then
    fs
  else
    Tokens.merged
      (Tokens.missing m.steps (o.withFinalizers fs)) fs

/- The tally with which the chain of an object starts. -/
def opening
    (fs : List String) : Tally :=
  m.recorded o (Conditions.seedReady now o.metadata)
    { tokens := m.armedWith o fs
      conditions := o.status.conditions }

/- The tally that is left when a chain came to this. -/
def summed
    (c : Course) : Tally :=
  m.recorded o
    (Conditions.setReady now o.metadata c.readiness) c.tally

/- What a run comes to whose chain came to this. -/
def planned
    (c : Course) : Plan :=
  let t := m.summed o now c
  { answer := c.answer
    tokens := t.tokens
    status := { o.status with conditions := t.conditions } }

/-
  What a run does with an object that carries these tokens,
  if nobody disturbs it.
-/
def plan
    (fs : List String) : Plan :=
  match m.missingCapability? o with
  | some c =>
      { answer := .error
          (.failed (.missingCapability m.kind c.contract))
        tokens := fs
        status := o.status }
  | none =>
      m.planned o now
        (m.course a o now (m.order o.isDeleting)
          (m.opening o now fs))

/- The tokens that a run may leave on its object. -/
def passed
    (fs : List String) : List (List String) :=
  match m.missingCapability? o with
  | some _ => [fs]
  | none =>
      fs :: a.visited o (m.order o.isDeleting)
        (m.armedWith o fs)

------------------------------------------------------------
-- Starting Again
------------------------------------------------------------

variable {m a o now}

/- A settled result counts like that of a skipped step. -/
theorem ofResult_settled
    {result : StepResult}
    (hSettled : result.isSettled = true)
    (m : Metadata)
    (name reason : String) :
    Conditions.ofResult now m name result =
      Conditions.ofResult now m name (.skipped reason) := by
  have hSettled := Bool.and_eq_true_iff.mp hSettled
  have hError : result.error? = none := by
    cases result with
    | proceed _ => rfl
    | stopChain _ _ => rfl
    | skipped _ => rfl
    | errorRetry _ _ => cases hSettled.1
    | errorContinue _ => cases hSettled.1
    | errorStop _ _ => cases hSettled.1
  unfold Conditions.ofResult
  rw [hError, hSettled.2]
  rfl

/- A settled step asks for no requeue. -/
theorem soonest_settled
    {result : StepResult}
    (hSettled : result.isSettled = true)
    (d : Duration) :
    d.soonest result.requeue = d :=
  if_pos (Bool.and_eq_true_iff.mp hSettled).2

/- A step that takes its tokens off is finalized. -/
theorem answer_released
    {step : Step μ}
    {fs : List String}
    (hReleases : a.releases o step fs = true) :
    a.answer o step fs = a.finalize step ∧
      (a.finalize step).isSettled = true := by
  have hReleased := Bool.and_eq_true_iff.mp hReleases
  have hOwned := Bool.and_eq_true_iff.mp hReleased.1
  refine ⟨?_, hReleased.2⟩
  unfold Answers.answer
  rw [hOwned.1, hOwned.2]
  rfl

/- Once its tokens are off it is skipped. -/
theorem answer_skipped
    {step : Step μ}
    {fs fs' : List String}
    (hReleases : a.releases o step fs = true)
    (hSkipped : step.holds o fs' = false) :
    a.answer o step fs' = .skipped noFinalizer ∧
      a.leftover o step fs' = fs' := by
  have hReleased := Bool.and_eq_true_iff.mp hReleases
  have hOwned := Bool.and_eq_true_iff.mp hReleased.1
  constructor
  · unfold Answers.answer
    rw [hOwned.1, hSkipped]
    rfl
  · unfold Answers.leftover Answers.releases
    rw [hSkipped, Bool.and_false]
    rfl

/-
  A step that has settled before is skipped, and everything
  but the tokens is as if it settled now.
-/
theorem advance_skipped
    {step : Step μ}
    {t : Tally}
    {fs : List String}
    (hReleases : a.releases o step t.tokens = true)
    (hSkipped : step.holds o fs = false) :
    m.advance a o now step { t with tokens := fs } =
      { m.advance a o now step t with tokens := fs } := by
  rcases answer_released hReleases with ⟨hAnswer, hSettled⟩
  rcases answer_skipped hReleases hSkipped with
    ⟨hSkip, hKept⟩
  unfold advance applied seeded recorded
  unfold Conditions.applyResult
  dsimp only
  rw [hAnswer, hSkip, hKept, soonest_settled hSettled,
    ofResult_settled hSettled o.metadata step.name
      noFinalizer]
  rfl

/- A step to which the tokens make no difference. -/
theorem advance_same
    {step : Step μ}
    {t : Tally}
    {fs : List String}
    (hReleases : a.releases o step t.tokens = false)
    (hSame : step.holds o fs = step.holds o t.tokens) :
    a.answer o step fs = a.answer o step t.tokens ∧
      m.advance a o now step { t with tokens := fs } =
        { m.advance a o now step t with tokens := fs } := by
  have hAnswer :
      a.answer o step fs = a.answer o step t.tokens := by
    unfold Answers.answer
    rw [hSame]
  have hKept : a.leftover o step fs = fs := by
    unfold Answers.leftover
    unfold Answers.releases at hReleases ⊢
    rw [hSame, hReleases]
    rfl
  refine ⟨hAnswer, ?_⟩
  unfold advance applied seeded recorded
  dsimp only
  rw [hAnswer, hKept]

/- The chain goes on after a step that settles. -/
theorem course_released
    {step : Step μ}
    {rest : List (Step μ)}
    {t : Tally}
    (hReleases : a.releases o step t.tokens = true)
    (hRuns : (a.finalize step).outcome ≠ .stopChain) :
    m.course a o now (step :: rest) t =
      m.course a o now rest (m.advance a o now step t) := by
  rcases answer_released hReleases with ⟨hAnswer, hSettled⟩
  have hNoError := (Bool.and_eq_true_iff.mp hSettled).1
  rw [course, hAnswer]
  cases hResult : a.finalize step with
  | proceed _ => rfl
  | skipped _ => rfl
  | stopChain _ _ =>
      rw [hResult] at hRuns
      exact absurd rfl hRuns
  | errorRetry _ _ =>
      rw [hResult] at hNoError
      cases hNoError
  | errorContinue _ =>
      rw [hResult] at hNoError
      cases hNoError
  | errorStop _ _ =>
      rw [hResult] at hNoError
      cases hNoError

/- The chain goes on after a step that is skipped. -/
theorem course_skipped
    {step : Step μ}
    {rest : List (Step μ)}
    {t : Tally}
    {fs fs' : List String}
    (hReleases : a.releases o step fs = true)
    (hSkipped : step.holds o fs' = false) :
    m.course a o now (step :: rest)
        { t with tokens := fs' } =
      m.course a o now rest
        (m.advance a o now step
          { t with tokens := fs' }) := by
  rw [course, (answer_skipped hReleases hSkipped).1]

/- Tokens that a later step leaves are held as before. -/
theorem holds_visited
    {step : Step μ}
    {rest : List (Step μ)}
    {fs fs' : List String}
    (hApart :
      ∀ other ∈ rest,
        (step.tokens o).Disjoint (other.tokens o))
    (hReleases : a.releases o step fs = false)
    (hVisited :
      fs' ∈ a.visited o rest (a.leftover o step fs)) :
    step.holds o fs' = step.holds o fs := by
  have hKept : a.leftover o step fs = fs := by
    unfold Answers.leftover
    rw [hReleases]
    rfl
  rw [hKept] at hVisited
  rw [Bool.eq_iff_iff, Answers.holds_iff, Answers.holds_iff]
  constructor
  · rintro ⟨t, hToken, hHas⟩
    exact ⟨t, hToken,
      Answers.visited_subset hVisited hHas⟩
  · rintro ⟨t, hToken, hHas⟩
    refine ⟨t, hToken, ?_⟩
    exact Answers.visited_keeps hVisited hHas
      (fun other hMember => hApart other hMember hToken)

/- Tokens that were taken off are not held again. -/
theorem not_holds_visited
    {step : Step μ}
    {rest : List (Step μ)}
    {fs fs' : List String}
    (hReleases : a.releases o step fs = true)
    (hVisited :
      fs' ∈ a.visited o rest (a.leftover o step fs)) :
    step.holds o fs' = false := by
  have hTaken :
      a.leftover o step fs =
        Tokens.without (step.tokens o) fs :=
    if_pos hReleases
  rw [hTaken] at hVisited
  rw [Bool.eq_false_iff, ne_eq, Answers.holds_iff]
  rintro ⟨t, hToken, hHas⟩
  have hLeft := Answers.visited_subset hVisited hHas
  exact ((Tokens.mem_without _ _ t).mp hLeft).2 hToken

/-
  A chain comes to the same from every list of tokens that
  it has come through.
-/
theorem course_visited
    {steps : List (Step μ)}
    {t : Tally}
    {fs : List String}
    (hApart :
      steps.Pairwise (fun step other =>
        (step.tokens o).Disjoint (other.tokens o)))
    (hRuns :
      ∀ step ∈ steps,
        (a.finalize step).outcome ≠ .stopChain)
    (hVisited : fs ∈ a.visited o steps t.tokens) :
    m.course a o now steps { t with tokens := fs } =
      m.course a o now steps t := by
  induction steps generalizing t with
  | nil =>
      rw [List.mem_singleton.mp hVisited]
  | cons step rest ih =>
      rcases List.pairwise_cons.mp hApart with
        ⟨hHead, hTail⟩
      have hRest :
          ∀ t' : Tally,
            t'.tokens = a.leftover o step t.tokens →
              fs ∈ a.visited o rest
                  (a.leftover o step t.tokens) →
                m.course a o now rest
                    { t' with tokens := fs } =
                  m.course a o now rest t' := by
        intro t' hTokens hLater
        refine ih hTail (fun other hMember =>
          hRuns other (List.mem_cons_of_mem step hMember)) ?_
        rw [hTokens]
        exact hLater
      unfold Answers.visited at hVisited
      split at hVisited
      · next hContinues =>
          rcases List.mem_cons.mp hVisited with
            hSame | hLater
          · rw [hSame]
          · cases hReleases : a.releases o step t.tokens with
            | true =>
                have hSkipped :=
                  not_holds_visited hReleases hLater
                rw [course_released hReleases
                    (hRuns step List.mem_cons_self),
                  course_skipped hReleases hSkipped,
                  advance_skipped hReleases hSkipped]
                exact hRest _ rfl hLater
            | false =>
                rcases advance_same hReleases
                    (holds_visited hHead hReleases hLater)
                  with ⟨hAnswer, hAdvance⟩
                unfold course
                dsimp only
                rw [hAnswer, hAdvance]
                cases hResult : a.answer o step t.tokens with
                | proceed _ => exact hRest _ rfl hLater
                | skipped _ => exact hRest _ rfl hLater
                | errorContinue _ =>
                    exact hRest
                      { m.advance a o now step t with
                        hasError := true } rfl hLater
                | stopChain _ _ =>
                    rw [hResult] at hContinues
                    cases hContinues
                | errorStop _ _ =>
                    rw [hResult] at hContinues
                    cases hContinues
                | errorRetry _ _ =>
                    rw [hResult] at hContinues
                    cases hContinues
      · rw [List.mem_singleton.mp hVisited]

/- A step that ends its chain leaves the tokens alone. -/
theorem leftover_ended
    {step : Step μ}
    {fs : List String}
    (hRuns : (a.finalize step).outcome ≠ .stopChain)
    (hEnds :
      ¬ (a.answer o step fs).outcome.continuesChain = true) :
    a.leftover o step fs = fs := by
  refine if_neg ?_
  intro hReleases
  rcases answer_released hReleases with ⟨hAnswer, hSettled⟩
  have hNoError := (Bool.and_eq_true_iff.mp hSettled).1
  rw [hAnswer] at hEnds
  cases hOutcome : (a.finalize step).outcome with
  | stopChain => exact hRuns hOutcome
  | errorRetry =>
      rw [hOutcome] at hNoError
      cases hNoError
  | errorStop =>
      rw [hOutcome] at hNoError
      cases hNoError
  | proceed =>
      rw [hOutcome] at hEnds
      exact hEnds rfl
  | skipped =>
      rw [hOutcome] at hEnds
      exact hEnds rfl
  | errorContinue =>
      rw [hOutcome] at hEnds
      exact hEnds rfl

/- A chain ends with tokens that it has come through. -/
theorem course_tokens
    {steps : List (Step μ)}
    {t : Tally}
    (hRuns :
      ∀ step ∈ steps,
        (a.finalize step).outcome ≠ .stopChain) :
    (m.course a o now steps t).tally.tokens ∈
      a.visited o steps t.tokens := by
  induction steps generalizing t with
  | nil => exact List.mem_singleton.mpr rfl
  | cons step rest ih =>
      have hRest :
          ∀ t' : Tally,
            t'.tokens = a.leftover o step t.tokens →
              (m.course a o now rest t').tally.tokens ∈
                t.tokens :: a.visited o rest
                  (a.leftover o step t.tokens) := by
        intro t' hTokens
        rw [← hTokens]
        exact List.mem_cons_of_mem _
          (ih (fun other hMember =>
            hRuns other (List.mem_cons_of_mem step hMember)))
      unfold Answers.visited
      split
      · next hContinues =>
          unfold course
          dsimp only
          cases hResult : a.answer o step t.tokens with
          | proceed _ => exact hRest _ rfl
          | skipped _ => exact hRest _ rfl
          | errorContinue _ => exact hRest _ rfl
          | stopChain _ _ =>
              rw [hResult] at hContinues
              cases hContinues
          | errorStop _ _ =>
              rw [hResult] at hContinues
              cases hContinues
          | errorRetry _ _ =>
              rw [hResult] at hContinues
              cases hContinues
      · next hEnds =>
          have hKept :
              (m.advance a o now step t).tokens = t.tokens :=
            leftover_ended (hRuns step List.mem_cons_self)
              hEnds
          rw [List.mem_singleton, ← hKept]
          unfold course
          dsimp only
          cases hResult : a.answer o step t.tokens with
          | stopChain _ _ => rfl
          | errorStop _ _ => rfl
          | errorRetry _ _ => rfl
          | proceed _ =>
              rw [hResult] at hEnds
              exact absurd rfl hEnds
          | skipped _ =>
              rw [hResult] at hEnds
              exact absurd rfl hEnds
          | errorContinue _ =>
              rw [hResult] at hEnds
              exact absurd rfl hEnds

------------------------------------------------------------
-- Plans that are Taken Up Again
------------------------------------------------------------

/- Steps that share no token share none in either order. -/
theorem TokensApart.order
    (hApart : m.TokensApart)
    (deleting : Bool) :
    (m.order deleting).Pairwise (fun step other =>
      (step.tokens o).Disjoint (other.tokens o)) := by
  have hSteps :
      m.steps.Pairwise (fun step other =>
        (step.tokens o).Disjoint (other.tokens o)) :=
    hApart.apart.imp (fun hPair => hPair o)
  unfold Manager.order
  split
  · apply List.pairwise_reverse.mpr
    apply hSteps.imp
    intro step other hPair t hOther hToken
    exact hPair hToken hOther
  · exact hSteps

/- A deleting object is given no token. -/
theorem armedWith_deleting
    (hDeleting : o.isDeleting = true)
    (fs : List String) :
    m.armedWith o fs = fs :=
  if_pos hDeleting

/- Nothing is missing once the tokens have been added. -/
theorem armedWith_armedWith
    (hApart : m.TokensApart)
    (fs : List String) :
    m.armedWith o (m.armedWith o fs) = m.armedWith o fs := by
  cases hDeleting : o.isDeleting with
  | true => exact armedWith_deleting hDeleting _
  | false =>
      have hArmed :
          ∀ fs,
            m.armedWith o fs =
              Tokens.merged
                (Tokens.missing m.steps
                  (o.withFinalizers fs)) fs := by
        intro fs
        unfold armedWith
        rw [hDeleting]
        rfl
      have hNone :
          Tokens.missing m.steps
            (o.withFinalizers (m.armedWith o fs)) = [] := by
        apply List.eq_nil_iff_forall_not_mem.mpr
        intro t hMissing
        rcases (Tokens.mem_missing _ _ t).mp hMissing with
          ⟨⟨step, hStep, hToken⟩, hNew⟩
        apply hNew
        change t ∈ m.armedWith o fs
        rw [hArmed, Tokens.mem_merged]
        by_cases hHas : t ∈ fs
        · exact .inl hHas
        · refine .inr ((Tokens.mem_missing _ _ t).mpr
            ⟨⟨step, hStep, ?_⟩, hHas⟩)
          rw [hApart.constant step hStep _
            (o.withFinalizers (m.armedWith o fs))]
          exact hToken
      rw [hArmed (m.armedWith o fs), hNone]
      rfl

/-
  A run that is taken up again with tokens that another run
  may have left comes to the same.
-/
theorem plan_passed
    {fs fs' : List String}
    (hApart : m.TokensApart)
    (hRuns :
      ∀ step ∈ m.steps,
        (a.finalize step).outcome ≠ .stopChain)
    (hPassed : fs' ∈ m.passed a o fs) :
    m.plan a o now fs' = m.plan a o now fs := by
  unfold passed at hPassed
  unfold plan
  cases hCapable : m.missingCapability? o with
  | some c =>
      rw [hCapable] at hPassed
      rw [List.mem_singleton.mp hPassed]
  | none =>
      rw [hCapable] at hPassed
      rcases List.mem_cons.mp hPassed with hSame | hVisited
      · rw [hSame]
      · have hCourse :
            m.course a o now (m.order o.isDeleting)
                (m.opening o now fs') =
              m.course a o now (m.order o.isDeleting)
                (m.opening o now fs) := by
          cases hDeleting : o.isDeleting with
          | false =>
              have hArmed :=
                Answers.visited_live hDeleting hVisited
              unfold opening
              rw [hArmed, armedWith_armedWith hApart]
          | true =>
              rw [hDeleting] at hVisited
              have hOpening :
                  m.opening o now fs' =
                    { m.opening o now fs with
                      tokens := fs' } := by
                unfold opening recorded
                rw [armedWith_deleting hDeleting]
              rw [hOpening]
              refine course_visited (hApart.order true) ?_
                hVisited
              intro step hStep
              exact hRuns step (mem_order.mp hStep)
        dsimp only
        rw [hCourse]

/- A run may leave the tokens that it has found. -/
theorem mem_passed_start
    (fs : List String) :
    fs ∈ m.passed a o fs := by
  unfold passed
  split
  · exact List.mem_singleton.mpr rfl
  · exact List.mem_cons_self

/- A run never leaves a deleting object with more tokens. -/
theorem passed_subset
    {fs fs' : List String}
    (hDeleting : o.isDeleting = true)
    (hPassed : fs' ∈ m.passed a o fs) :
    fs' ⊆ fs := by
  unfold passed at hPassed
  split at hPassed
  · rw [List.mem_singleton.mp hPassed]
    exact List.Subset.refl fs
  · rw [armedWith_deleting hDeleting] at hPassed
    rcases List.mem_cons.mp hPassed with hSame | hVisited
    · rw [hSame]
      exact List.Subset.refl fs
    · exact Answers.visited_subset hVisited

/- The plan of a run is among what it may leave. -/
theorem plan_tokens_passed
    (hRuns :
      ∀ step ∈ m.steps,
        (a.finalize step).outcome ≠ .stopChain)
    (fs : List String) :
    (m.plan a o now fs).tokens ∈ m.passed a o fs := by
  unfold plan passed
  split
  · exact List.mem_singleton.mpr rfl
  · apply List.mem_cons_of_mem
    exact course_tokens (t := m.opening o now fs)
      (fun step hStep => hRuns step (mem_order.mp hStep))

/- A plan for an object being deleted adds no tokens. -/
theorem plan_tokens_subset
    (hDeleting : o.isDeleting = true)
    (hRuns :
      ∀ step ∈ m.steps,
        (a.finalize step).outcome ≠ .stopChain)
    (fs : List String) :
    (m.plan a o now fs).tokens ⊆ fs :=
  passed_subset hDeleting (plan_tokens_passed hRuns fs)

/- A run plans to leave nothing of nothing. -/
theorem plan_tokens_nil
    (hDeleting : o.isDeleting = true)
    (hRuns :
      ∀ step ∈ m.steps,
        (a.finalize step).outcome ≠ .stopChain) :
    (m.plan a o now []).tokens = [] :=
  List.subset_nil.mp (plan_tokens_subset hDeleting hRuns [])

end Manager

end Reconciler
