import Reconciler.Proofs.Engine.Accounting

/-
  This file defines the executions of steps, and the chains
  that they make up.

  What is done with a step depends on the working copy that
  the steps before have left: on its deletion mark, and on
  the tokens that have not been taken off yet.

  Key definitions include:
    * `Step.Plays`
    * `Execution`
    * `Execution.Chain`
    * `Execution.FirstStop`
    * `Execution.Enters`

  Key theorems include:
    * `Execution.Chain.firstStop`
    * `Execution.Chain.given_metadata`
    * `Execution.Chain.enters`
-/

------------------------------------------------------------
-- Executions
------------------------------------------------------------

namespace Reconciler

variable {μ : Type}

/-
  The engine makes its own marks on a working copy: it sets
  conditions, and takes over a resource version.
-/
def Object.Marked
    (o o' : Object) : Prop :=
  ∃ cs version,
    o' =
      (o.mapStatus
        (fun s => { s with conditions := cs })).withVersion
          version

theorem Object.Marked.refl
    (o : Object) :
    o.Marked o :=
  ⟨o.status.conditions, o.metadata.resourceVersion, rfl⟩

theorem Object.Marked.conditions
    (o : Object)
    (cs : List Condition) :
    o.Marked
      (o.mapStatus (fun s => { s with conditions := cs })) :=
  ⟨cs, o.metadata.resourceVersion, rfl⟩

theorem Object.Marked.trans
    {o o' o'' : Object}
    (hFirst : o.Marked o')
    (hSecond : o'.Marked o'') :
    o.Marked o'' := by
  rcases hFirst with ⟨_, _, rfl⟩
  rcases hSecond with ⟨cs, version, rfl⟩
  exact ⟨cs, version, rfl⟩

/- Marks leave deletion mark and tokens alone. -/
theorem Object.Marked.same
    {o o' : Object}
    (hMarked : o.Marked o') :
    o'.isDeleting = o.isDeleting ∧
      o'.metadata.finalizers = o.metadata.finalizers := by
  rcases hMarked with ⟨cs, version, rfl⟩
  exact ⟨rfl, rfl⟩

/-
  How a step is run on a working copy: the entry points that
  are called, the result, and the copy handed back.  A live
  object is processed.  A deleting one is finalized if it
  carries a token of the step, and skipped otherwise.
-/
inductive Step.Plays
    (step : Step μ)
    (o : Object) :
    List Event → StepResult → Object → Prop
  | processed {context scene result o' scene'} :
      o.isDeleting = false →
      step.process context o scene =
        .ok (result, o') scene' →
      Plays step o [.processCalled step.name] result o'
  | finalized {context scene result o' scene'} :
      o.isDeleting = true →
      step.owns o = true →
      step.finalize context o scene =
        .ok (result, o') scene' →
      Plays step o [.finalizeCalled step.name] result o'
  | passed :
      o.isDeleting = true →
      step.owns o = false →
      Plays step o [] (.skipped Manager.noFinalizer) o

/- A step that edits no metadata of its working copy. -/
def Step.LeavesMetadata
    (step : Step μ) : Prop :=
  ∀ o o', step.Hands o o' → o'.metadata = o.metadata

theorem Step.Plays.metadata_eq
    {step : Step μ}
    {o o' : Object}
    {calls : List Event}
    {result : StepResult}
    (hLeaves : step.LeavesMetadata)
    (hPlays : step.Plays o calls result o') :
    o'.metadata = o.metadata := by
  cases hPlays with
  | processed _ hRun =>
      exact hLeaves _ _ ⟨_, _, _, _, .inl hRun⟩
  | finalized _ _ hRun =>
      exact hLeaves _ _ ⟨_, _, _, _, .inr hRun⟩
  | passed _ _ => rfl

/-
  The execution of a step: the working copy that it is
  given, the calls of its entry points, its result, and the
  working copy once the result is recorded.
-/
structure Execution (μ : Type) where
  step : Step μ
  given : Object
  calls : List Event
  result : StepResult
  left : Object

namespace Execution

/- What an execution leaves in the journal. -/
def events
    (x : Execution μ) : List Event :=
  x.calls ++ [.executed x.step.name x.result]

/- Whether an execution is the run of its step. -/
def Plays
    (x : Execution μ) : Prop :=
  ∃ o,
    x.step.Plays x.given x.calls x.result o ∧
      o.Marked x.left

/-
  The tokens that are taken off after an execution: those of
  a step that has finalized the object and has settled.
-/
def released
    (readOnly : Bool)
    (x : Execution μ) : List String :=
  if readOnly = false ∧ x.given.isDeleting = true ∧
      x.step.owns x.given = true ∧
        x.result.isSettled = true then
    x.step.tokens x.left
  else
    []

/- The working copy when the next step is due. -/
def after
    (readOnly : Bool)
    (x : Execution μ) : Object :=
  x.left.withFinalizers
    (Tokens.without (x.released readOnly)
      x.left.metadata.finalizers)

section Released

variable {x : Execution μ}

/- A step that has settled loses its tokens. -/
theorem after_of_settled
    (hDeleting : x.given.isDeleting = true)
    (hOwns : x.step.owns x.given = true)
    (hSettled : x.result.isSettled = true)
    (readOnly : Bool) :
    x.after readOnly =
      x.left.withFinalizers
        (Tokens.without
          (if readOnly then [] else x.step.tokens x.left)
          x.left.metadata.finalizers) := by
  unfold after released
  cases readOnly with
  | true => simp
  | false => simp [hDeleting, hOwns, hSettled]

/- A step that has not settled leaves its tokens there. -/
theorem after_of_unsettled
    (hUnsettled :
      (x.given.isDeleting && x.step.owns x.given &&
        x.result.isSettled) = false)
    (readOnly : Bool) :
    x.after readOnly = x.left := by
  have hNone : x.released readOnly = [] := by
    unfold released
    refine if_neg ?_
    rintro ⟨_, hDeleting, hOwns, hSettled⟩
    rw [hDeleting, hOwns, hSettled] at hUnsettled
    cases hUnsettled
  unfold after
  rw [hNone, Tokens.without_nil]
  rfl

end Released

/-
  The entry points that an execution calls, told by the
  deletion mark and by the tokens that remain: just the
  process call on a live object, just the finalize call on a
  deleting one with a token of the step, and none otherwise.
-/
structure Enters
    (deleting : Bool)
    (tokens : List String)
    (x : Execution μ) : Prop where
  live :
    deleting = false → x.calls = [.processCalled x.step.name]
  owned :
    deleting = true →
      (∃ t ∈ x.step.tokens x.given, t ∈ tokens) →
        x.calls = [.finalizeCalled x.step.name]
  disowned :
    deleting = true →
      (∀ t ∈ x.step.tokens x.given, t ∉ tokens) →
        x.calls = [] ∧ x.result = .skipped Manager.noFinalizer

section Plays

variable {x : Execution μ}

/- The tokens do not matter on a live object. -/
theorem Enters.of_live
    {tokens tokens' : List String}
    (hEnters : x.Enters false tokens) :
    x.Enters false tokens' where
  live := hEnters.live
  owned := nofun
  disowned := nofun

/- An execution enters its step as its working copy asks. -/
theorem Plays.enters
    (hPlays : x.Plays) :
    x.Enters x.given.isDeleting
      x.given.metadata.finalizers := by
  rcases hPlays with ⟨o, hStep, _⟩
  have hOwns := Tokens.owns_iff x.step x.given
  generalize hCalls : x.calls = calls at hStep
  generalize hResult : x.result = result at hStep
  cases hStep with
  | processed hLive _ =>
      exact
        { live := fun _ => hCalls
          owned := fun hDeleting _ =>
            absurd (hLive.symm.trans hDeleting) (by decide)
          disowned := fun hDeleting _ =>
            absurd (hLive.symm.trans hDeleting) (by decide) }
  | finalized hDeleting hOwned _ =>
      exact
        { live := fun hLive =>
            absurd (hLive.symm.trans hDeleting) (by decide)
          owned := fun _ _ => hCalls
          disowned := by
            intro _ hNone
            rcases hOwns.mp hOwned with ⟨t, hToken, hHas⟩
            exact absurd hHas (hNone t hToken) }
  | passed hDeleting hDisowned =>
      exact
        { live := fun hLive =>
            absurd (hLive.symm.trans hDeleting) (by decide)
          owned := fun _ hSome =>
            absurd
              (hDisowned.symm.trans (hOwns.mpr hSome))
              (by decide)
          disowned := fun _ _ => ⟨hCalls, hResult⟩ }

/- What a step that leaves the metadata alone leaves. -/
theorem Plays.left_metadata
    (hLeaves : x.step.LeavesMetadata)
    (hPlays : x.Plays) :
    x.left.isDeleting = x.given.isDeleting ∧
      x.left.metadata.finalizers =
        x.given.metadata.finalizers := by
  rcases hPlays with ⟨o, hStep, hMarked⟩
  have hMetadata := hStep.metadata_eq hLeaves
  rcases hMarked.same with ⟨hDeleting, hTokens⟩
  constructor
  · rw [hDeleting]
    exact congrArg Metadata.isDeleting hMetadata
  · rw [hTokens, hMetadata]

end Plays

/-
  Steps are executed in order, each on what the one before
  has left, until one of them ends the chain.
-/
inductive Chain
    (readOnly : Bool) :
    Object → List (Step μ) → List (Execution μ) → Prop
  | done {o} :
      Chain readOnly o [] []
  | stops {o x rest} :
      o.Marked x.given →
      x.Plays →
      x.result.outcome.continuesChain = false →
      Chain readOnly o (x.step :: rest) [x]
  | goesOn {o x rest xs} :
      o.Marked x.given →
      x.Plays →
      x.result.outcome.continuesChain = true →
      Chain readOnly (x.after readOnly) rest xs →
      Chain readOnly o (x.step :: rest) (x :: xs)

/-
  The executed steps are the shortest part of the order that
  ends with the first step whose outcome does not let the
  chain go on, or the whole order if there is none.
-/
structure FirstStop
    (order : List (Step μ))
    (xs : List (Execution μ)) : Prop where
  inOrder : xs.map (·.step) <+: order
  goesOn :
    ∀ x ∈ xs.dropLast,
      x.result.outcome.continuesChain = true
  stops :
    (∃ x ∈ xs.getLast?,
        x.result.outcome.continuesChain = false) ∨
      xs.map (·.step) = order ∧
        ∀ x ∈ xs, x.result.outcome.continuesChain = true

namespace Chain

variable {readOnly : Bool}
variable {o o' : Object}
variable {order : List (Step μ)}
variable {xs : List (Execution μ)}

/- The engine's marks do not matter to a chain. -/
theorem of_marked
    (hMarked : o.Marked o')
    (hChain : Chain readOnly o' order xs) :
    Chain readOnly o order xs := by
  cases hChain with
  | done => exact .done
  | stops hGiven hPlays hStop =>
      exact .stops (hMarked.trans hGiven) hPlays hStop
  | goesOn hGiven hPlays hOutcome hRest =>
      exact .goesOn (hMarked.trans hGiven) hPlays hOutcome
        hRest

/- A chain executes no step after the first that stops it. -/
theorem firstStop
    (hChain : Chain readOnly o order xs) :
    FirstStop order xs := by
  induction hChain with
  | done =>
      exact
        { inOrder := List.prefix_rfl
          goesOn := by simp
          stops := .inr ⟨rfl, by simp⟩ }
  | @stops o x rest _ _ hStop =>
      exact
        { inOrder := ⟨rest, rfl⟩
          goesOn := by simp
          stops := .inl ⟨x, rfl, hStop⟩ }
  | @goesOn o x rest xs _ _ hOutcome _ ih =>
      refine
        { inOrder := List.cons_prefix_cons.mpr
            ⟨rfl, ih.inOrder⟩
          goesOn := ?_
          stops := ?_ }
      · intro y hMember
        cases xs with
        | nil => cases hMember
        | cons z rest =>
            rw [List.dropLast_cons_cons] at hMember
            rcases List.mem_cons.mp hMember with
              hFirst | hLater
            · rw [hFirst]
              exact hOutcome
            · exact ih.goesOn y hLater
      · rcases ih.stops with ⟨y, hLast, hStop⟩ | ⟨hAll, hGo⟩
        · refine .inl ⟨y, ?_, hStop⟩
          rw [List.getLast?_cons, hLast]
          rfl
        · refine .inr ⟨by simp [hAll], ?_⟩
          intro y hMember
          rcases List.mem_cons.mp hMember with hFirst | hLater
          · rw [hFirst]
            exact hOutcome
          · exact hGo y hLater

/- All executions of a chain are runs of steps in order. -/
theorem plays
    (hChain : Chain readOnly o order xs) :
    ∀ x ∈ xs, x.Plays := by
  induction hChain with
  | done => simp
  | stops _ hPlays _ => simpa using hPlays
  | goesOn _ hPlays _ _ ih =>
      exact List.forall_mem_cons.mpr ⟨hPlays, ih⟩

/-
  With steps that leave the metadata alone, each step finds
  the deletion mark of the start, and the tokens of the
  start without those that were taken off before it.
-/
theorem given_metadata
    (hLeaves : ∀ step ∈ order, step.LeavesMetadata)
    (hChain : Chain readOnly o order xs)
    {before later : List (Execution μ)}
    {x : Execution μ}
    (hSplit : xs = before ++ x :: later) :
    x.given.isDeleting = o.isDeleting ∧
      x.given.metadata.finalizers =
        Tokens.without
          (before.flatMap (·.released readOnly))
          o.metadata.finalizers := by
  induction hChain generalizing before with
  | done => simp at hSplit
  | stops hGiven _ _ =>
      cases before with
      | nil =>
          cases hSplit
          rw [List.flatMap_nil, Tokens.without_nil]
          exact hGiven.same
      | cons _ _ => simp at hSplit
  | @goesOn o y rest xs hGiven hPlays _ _ ih =>
      cases before with
      | nil =>
          cases hSplit
          rw [List.flatMap_nil, Tokens.without_nil]
          exact hGiven.same
      | cons z before =>
          cases hSplit
          have hRest :=
            ih (fun step hStep =>
              hLeaves step (List.mem_cons_of_mem _ hStep)) rfl
          have hLeft :=
            hPlays.left_metadata
              (hLeaves _ List.mem_cons_self)
          constructor
          · exact hRest.1.trans
              (hLeft.1.trans hGiven.same.1)
          · rw [hRest.2, List.flatMap_cons,
              Tokens.without_append]
            unfold after
            rw [← hGiven.same.2, ← hLeft.2]
            rfl

/- The entry points that the steps of a chain are called by. -/
theorem enters
    (hLeaves : ∀ step ∈ order, step.LeavesMetadata)
    (hChain : Chain readOnly o order xs)
    {before later : List (Execution μ)}
    {x : Execution μ}
    (hSplit : xs = before ++ x :: later) :
    x.Enters o.isDeleting
      (Tokens.without
        (before.flatMap (·.released readOnly))
        o.metadata.finalizers) := by
  have hPlays := hChain.plays x (by simp [hSplit])
  rcases hChain.given_metadata hLeaves hSplit with
    ⟨hDeleting, hTokens⟩
  rw [← hDeleting, ← hTokens]
  exact hPlays.enters

end Chain

end Execution

end Reconciler
