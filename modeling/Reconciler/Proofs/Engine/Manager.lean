import Mathlib.Data.List.Induction
import Mathlib.Data.List.Nodup
import Reconciler.Engine.Manager
import Reconciler.Proofs.Condition.Owners

/-
  This file says which blueprints managers are built from,
  and what holds of every manager that was built.

  A blueprint is acceptable or has a first fault, which is
  what building tells.  The steps of a manager that was
  built have distinct names, so each of its steps has
  conditions of its own.

  Key definitions include:
    * `Blueprint.SoundNames`
    * `Blueprint.Acceptable`
    * `Blueprint.FirstFault`
    * `Manager.owners`

  Key theorems include:
    * `Blueprint.Acceptable.built`
    * `Blueprint.FirstFault.refused`
    * `Blueprint.acceptable_or_firstFault`
    * `Blueprint.build_stepNames_nodup`
    * `Blueprint.build_drawsInRange`
    * `Blueprint.build_decides`
-/

------------------------------------------------------------
-- Names of Steps
------------------------------------------------------------

namespace Reconciler

open Conditions (Owner)

namespace Blueprint

variable {μ : Type}

/- A name that a step may have. -/
structure ValidName (name : String) : Prop where
  nonempty : name ≠ ""
  unreserved : name ≠ readyType
  unbroken :
    ∀ c ∈ name.toList, Text.isBlankChar c = false

/- Valid names, none of which comes twice. -/
structure SoundNames (names : List String) : Prop where
  valid : ∀ name ∈ names, ValidName name
  distinct : names.Nodup

/-
  What is wrong with a name after some others.  An invalid
  name is not looked at any further.
-/
inductive NameFault
    (earlier : List String)
    (name : String) : ConfigError → Prop where
  | invalid
      (hInvalid : ¬ ValidName name) :
      NameFault earlier name (.invalidStepName name)
  | duplicate
      (hValid : ValidName name)
      (hAgain : name ∈ earlier) :
      NameFault earlier name (.duplicateStep name)

theorem isValidName_iff
    (name : String) :
    isValidName name = true ↔ ValidName name := by
  have hBlank :
      Text.hasBlank name = false ↔
        ∀ c ∈ name.toList, Text.isBlankChar c = false := by
    simp [Text.hasBlank]
  unfold isValidName
  rw [Bool.and_eq_true, Bool.and_eq_true, bne_iff_ne,
    bne_iff_ne, Bool.not_eq_true', hBlank]
  constructor
  · rintro ⟨⟨hNonempty, hUnreserved⟩, hUnbroken⟩
    exact ⟨hNonempty, hUnreserved, hUnbroken⟩
  · rintro ⟨hNonempty, hUnreserved, hUnbroken⟩
    exact ⟨⟨hNonempty, hUnreserved⟩, hUnbroken⟩

------------------------------------------------------------
-- Checking Names
------------------------------------------------------------

variable {seen names pre post : List String}
variable {name : String}
variable {e : ConfigError}

theorem checkNames_cons
    (hValid : ValidName name)
    (hNew : name ∉ seen)
    (rest : List String) :
    checkNames seen (name :: rest) =
      checkNames (name :: seen) rest := by
  have hName := (isValidName_iff name).mpr hValid
  simp [checkNames, hName, hNew]

/- A fault of the first name is told at once. -/
theorem NameFault.checkNames_cons
    (hFault : NameFault seen name e)
    (rest : List String) :
    checkNames seen (name :: rest) = .error e := by
  cases hFault with
  | invalid hInvalid =>
      have hName : ¬ isValidName name = true := fun hValid =>
        hInvalid ((isValidName_iff name).mp hValid)
      simp [checkNames, hName]
  | duplicate hValid hAgain =>
      have hName := (isValidName_iff name).mpr hValid
      simp [checkNames, hName, hAgain]

/- Sound names are passed over, and count as seen. -/
theorem SoundNames.checkNames_append
    (hSound : SoundNames names)
    (hNew : ∀ name ∈ names, name ∉ seen)
    (rest : List String) :
    checkNames seen (names ++ rest) =
      checkNames (names.reverse ++ seen) rest := by
  rcases hSound with ⟨hValid, hDistinct⟩
  induction names generalizing seen with
  | nil => rfl
  | cons name names ih =>
      have hHead : name ∉ names ∧ names.Nodup :=
        List.nodup_cons.mp hDistinct
      have hLater : ∀ other ∈ names, other ∉ name :: seen := by
        intro other hMember hSeen
        rcases List.mem_cons.mp hSeen with hSame | hOld
        · exact hHead.1 (hSame ▸ hMember)
        · exact hNew other
            (List.mem_cons_of_mem name hMember) hOld
      rw [List.cons_append,
        checkNames_cons (hValid name List.mem_cons_self)
          (hNew name List.mem_cons_self),
        ih hLater
          (fun other hMember =>
            hValid other (List.mem_cons_of_mem name hMember))
          hHead.2]
      simp

theorem SoundNames.checked
    (hSound : SoundNames names) :
    checkNames [] names = .ok () := by
  have hAll :
      checkNames [] (names ++ []) =
        checkNames (names.reverse ++ []) [] :=
    hSound.checkNames_append (by simp) []
  rw [List.append_nil] at hAll
  exact hAll

/- The first fault is the one that is told. -/
theorem SoundNames.checkNames_fault
    (hSound : SoundNames pre)
    (hFault : NameFault pre name e) :
    checkNames [] (pre ++ name :: post) = .error e := by
  have hSeen : NameFault (pre.reverse ++ []) name e := by
    cases hFault with
    | invalid hInvalid => exact .invalid hInvalid
    | duplicate hValid hAgain =>
        exact .duplicate hValid (by simpa using hAgain)
  rw [hSound.checkNames_append (by simp)]
  exact hSeen.checkNames_cons post

/- One more name that is valid and new. -/
theorem SoundNames.snoc
    (hSound : SoundNames names)
    (hValid : ValidName name)
    (hNew : name ∉ names) :
    SoundNames (names ++ [name]) where
  valid := by
    intro other hMember
    rcases List.mem_append.mp hMember with hOld | hLast
    · exact hSound.valid other hOld
    · rw [List.mem_singleton.mp hLast]
      exact hValid
  distinct := by
    refine List.nodup_append.mpr
      ⟨hSound.distinct, by simp, ?_⟩
    intro other hOld last hLast hSame
    rw [hSame, List.mem_singleton.mp hLast] at hOld
    exact hNew hOld

/-
  Names are sound, or there is a first one with a fault.  The
  induction takes the last name off, so that the names before
  the fault stay the same.
-/
theorem soundNames_or_fault
    (names : List String) :
    SoundNames names ∨
      ∃ pre name post e,
        names = pre ++ name :: post ∧
          SoundNames pre ∧ NameFault pre name e := by
  induction names using List.reverseRecOn with
  | nil => exact .inl ⟨by simp, List.nodup_nil⟩
  | append_singleton names last ih =>
      rcases ih with
        hSound | ⟨pre, name, post, e, hSplit, hBefore, hFault⟩
      · by_cases hValid : ValidName last
        · by_cases hAgain : last ∈ names
          · exact .inr ⟨names, last, [], _, rfl, hSound,
              .duplicate hValid hAgain⟩
          · exact .inl (hSound.snoc hValid hAgain)
        · exact .inr ⟨names, last, [], _, rfl, hSound,
            .invalid hValid⟩
      · exact .inr ⟨pre, name, post ++ [last], e,
          by simp [hSplit], hBefore, hFault⟩

------------------------------------------------------------
-- Acceptable Blueprints
------------------------------------------------------------

/- The names of the steps, in declaration order. -/
def stepNames
    (b : Blueprint μ) : List String :=
  b.steps.map (·.name)

/- A blueprint that a manager can be built from. -/
structure Acceptable (b : Blueprint μ) : Prop where
  operator : Text.isBlank b.operator = false
  names : SoundNames b.stepNames
  budget :
    ∀ config, b.spread = some config →
      120_000_000_000 ≤ config.defaultBudget.nanos

/-
  The first fault of a blueprint: a blank operator, else the
  fault of a name after names that are sound, else a budget
  below two minutes.
-/
inductive FirstFault
    (b : Blueprint μ) : ConfigError → Prop where
  | operator
      (hOperator : Text.isBlank b.operator = true) :
      FirstFault b .emptyOperatorName
  | name
      {pre post : List String}
      {name : String}
      {e : ConfigError}
      (hOperator : Text.isBlank b.operator = false)
      (hNames : b.stepNames = pre ++ name :: post)
      (hBefore : SoundNames pre)
      (hFault : NameFault pre name e) :
      FirstFault b e
  | budget
      {config : SpreadConfig}
      (hOperator : Text.isBlank b.operator = false)
      (hNames : SoundNames b.stepNames)
      (hSpread : b.spread = some config)
      (hShort :
        config.defaultBudget.nanos < 120_000_000_000) :
      FirstFault b
        (.spread ("default budget must be at least 2m, got "
          ++ config.defaultBudget.text))

variable {b : Blueprint μ}
variable {m : Manager μ}

/- Every blueprint is acceptable or has a first fault. -/
theorem acceptable_or_firstFault
    (b : Blueprint μ) :
    b.Acceptable ∨ ∃ e, b.FirstFault e := by
  cases hOperator : Text.isBlank b.operator with
  | true => exact .inr ⟨_, .operator hOperator⟩
  | false =>
      rcases soundNames_or_fault b.stepNames with
        hSound | ⟨pre, name, post, e, hSplit, hBefore, hFault⟩
      · by_cases hLong :
            ∀ config, b.spread = some config →
              120_000_000_000 ≤ config.defaultBudget.nanos
        · exact .inl ⟨hOperator, hSound, hLong⟩
        · simp only [not_forall, Nat.not_le] at hLong
          rcases hLong with ⟨config, hSpread, hShort⟩
          exact .inr
            ⟨_, .budget hOperator hSound hSpread hShort⟩
      · exact .inr ⟨e, .name hOperator hSplit hBefore hFault⟩

------------------------------------------------------------
-- Building
------------------------------------------------------------

theorem build_of_checkNames_error
    (hOperator : Text.isBlank b.operator = false)
    (hNames : checkNames [] b.stepNames = .error e) :
    b.build = .error e := by
  unfold build
  unfold stepNames at hNames
  rw [hOperator, hNames]
  rfl

theorem build_of_scheduler_error
    (hOperator : Text.isBlank b.operator = false)
    (hNames : checkNames [] b.stepNames = .ok ())
    (hScheduler : b.scheduler = .error e) :
    b.build = .error e := by
  unfold build
  unfold stepNames at hNames
  rw [hOperator, hNames, hScheduler]
  rfl

theorem build_of_scheduler
    {scheduler : Option Scheduler}
    (hOperator : Text.isBlank b.operator = false)
    (hNames : checkNames [] b.stepNames = .ok ())
    (hScheduler : b.scheduler = .ok scheduler) :
    ∃ m, b.build = .ok m ∧ m.steps = b.steps := by
  unfold build
  unfold stepNames at hNames
  rw [hOperator, hNames, hScheduler]
  exact ⟨_, rfl, rfl⟩

theorem Acceptable.built
    (hAcceptable : b.Acceptable) :
    ∃ m, b.build = .ok m ∧ m.steps = b.steps := by
  have hScheduler : ∃ s, b.scheduler = .ok s := by
    unfold scheduler
    cases hSpread : b.spread with
    | none => exact ⟨none, rfl⟩
    | some config =>
        have hLong : ¬ config.defaultBudget <
            SpreadConfig.minimumBudget :=
          Nat.not_lt.mpr (hAcceptable.budget config hSpread)
        simp [SpreadConfig.validate, hLong]
  rcases hScheduler with ⟨s, hScheduler⟩
  exact build_of_scheduler hAcceptable.operator
    hAcceptable.names.checked hScheduler

theorem FirstFault.refused
    (hFault : b.FirstFault e) :
    b.build = .error e := by
  cases hFault with
  | operator hOperator =>
      unfold build
      rw [hOperator]
      rfl
  | name hOperator hNames hBefore hFault =>
      apply build_of_checkNames_error hOperator
      rw [hNames]
      exact hBefore.checkNames_fault hFault
  | @budget config hOperator hNames hSpread hShort =>
      apply build_of_scheduler_error hOperator hNames.checked
      have hBelow :
          config.defaultBudget < SpreadConfig.minimumBudget :=
        hShort
      simp [scheduler, hSpread, SpreadConfig.validate, hBelow]

/- A manager is built from an acceptable blueprint. -/
theorem acceptable_of_build
    (hBuild : b.build = .ok m) :
    b.Acceptable ∧ m.steps = b.steps := by
  rcases acceptable_or_firstFault b with
    hAcceptable | ⟨e, hFault⟩
  · rcases hAcceptable.built with ⟨m', hBuilt, hSteps⟩
    rw [hBuild] at hBuilt
    cases hBuilt
    exact ⟨hAcceptable, hSteps⟩
  · cases hBuild.symm.trans hFault.refused

theorem firstFault_of_build
    (hBuild : b.build = .error e) :
    b.FirstFault e := by
  rcases acceptable_or_firstFault b with
    hAcceptable | ⟨e', hFault⟩
  · rcases hAcceptable.built with ⟨m', hBuilt, _⟩
    cases hBuild.symm.trans hBuilt
  · cases hBuild.symm.trans hFault.refused
    exact hFault

theorem build_stepNames_nodup
    (hBuild : b.build = .ok m) :
    m.stepNames.Nodup := by
  rcases acceptable_of_build hBuild with ⟨hAcceptable, hSteps⟩
  unfold Manager.stepNames
  rw [hSteps]
  exact hAcceptable.names.distinct

/- A manager that was built has the scheduler told before. -/
theorem build_scheduler
    (hBuild : b.build = .ok m) :
    b.scheduler = .ok m.scheduler := by
  rcases acceptable_of_build hBuild with ⟨hAcceptable, _⟩
  have hNames := hAcceptable.names.checked
  unfold stepNames at hNames
  unfold build at hBuild
  rw [hAcceptable.operator, hNames] at hBuild
  cases hScheduler : b.scheduler with
  | error e =>
      rw [hScheduler] at hBuild
      cases hBuild
  | ok scheduler =>
      rw [hScheduler] at hBuild
      cases hBuild
      rfl

/-
  A manager that was built draws inside its ranges, unless
  its blueprint brings a source that does not; and its budget
  is long enough for a draw.
-/
theorem build_drawsInRange
    {sched : Scheduler}
    (hOwn : ∀ j, b.jitter = some j → j.InRange)
    (hBuild : b.build = .ok m)
    (hScheduled : m.scheduler = some sched) :
    sched.jitter.InRange ∧
      SpreadConfig.minimumBudget ≤
        sched.config.defaultBudget := by
  have hScheduler := build_scheduler hBuild
  rw [hScheduled] at hScheduler
  unfold scheduler at hScheduler
  cases hSpread : b.spread with
  | none =>
      rw [hSpread] at hScheduler
      cases hScheduler
  | some config =>
      have hLong :=
        (acceptable_of_build hBuild).1.budget config hSpread
      rw [hSpread] at hScheduler
      dsimp only at hScheduler
      split at hScheduler
      · cases hScheduler
      · cases hScheduler
        refine ⟨?_, hLong⟩
        cases hJitter : b.jitter with
        | none => exact b.random.inRange
        | some j => exact hOwn j hJitter

end Blueprint

------------------------------------------------------------
-- Owners of Conditions
------------------------------------------------------------

namespace Manager

variable {μ : Type}

/-
  The owners of the conditions that a manager keeps: the
  object, and each of its steps in both phases.
-/
def owners
    (m : Manager μ) : List Owner :=
  .object :: m.stepNames.flatMap (fun name =>
    [.step name .processing, .step name .finalizing])

/- Steps of distinct names are distinct owners. -/
theorem owners_nodup
    {m : Manager μ}
    (hDistinct : m.stepNames.Nodup) :
    m.owners.Nodup := by
  refine List.nodup_cons.mpr ⟨by simp, ?_⟩
  refine List.nodup_flatMap.mpr ⟨by simp, ?_⟩
  refine hDistinct.imp ?_
  intro a b hOther
  simp [Function.onFun, List.disjoint_left, hOther]

end Manager

------------------------------------------------------------
-- Accepted and Refused Blueprints
------------------------------------------------------------

namespace Blueprint

variable {μ : Type}

/-
  A manager is built exactly from an acceptable blueprint,
  and any other is refused for its first fault.  A manager
  that was built has the steps of its blueprint; the types of
  the conditions of the object and of all these steps in both
  phases are distinct, and whatever is recorded for one of
  them makes no difference to the condition of another.
-/
theorem build_decides
    (b : Blueprint μ) :
    ((∃ m, b.build = .ok m) ↔ b.Acceptable) ∧
      (∀ e, b.build = .error e ↔ b.FirstFault e) ∧
      ∀ m, b.build = .ok m →
        m.steps = b.steps ∧
          (m.owners.map (·.type)).Nodup ∧
          m.owners.Pairwise
            (fun o o' => o.Spares o' ∧ o'.Spares o) := by
  refine ⟨⟨?_, ?_⟩, fun e => ⟨?_, ?_⟩, ?_⟩
  · rintro ⟨m, hBuild⟩
    exact (acceptable_of_build hBuild).1
  · intro hAcceptable
    rcases hAcceptable.built with ⟨m, hBuild, _⟩
    exact ⟨m, hBuild⟩
  · exact firstFault_of_build
  · exact FirstFault.refused
  · intro m hBuild
    have hOwners : m.owners.Nodup :=
      Manager.owners_nodup (build_stepNames_nodup hBuild)
    refine ⟨(acceptable_of_build hBuild).2, ?_, ?_⟩
    · exact hOwners.map (fun _ _ => Owner.type_inj)
    · refine hOwners.imp ?_
      intro o o' hOther
      exact ⟨Owner.spares hOther, Owner.spares hOther.symm⟩

/- A step that does nothing. -/
def idleStep
    (name : String) : Step Unit where
  name := name
  process := fun _ o => return (.ok, o)

/-
  The names of these steps end like types of conditions, and
  one of them is the type of another's.
-/
def nestedBlueprint : Blueprint Unit where
  operator := "operator"
  controller := "controller"
  kind := "TestObject"
  steps :=
    ["a", "a_Ready", "Ready_Finalize"].map idleStep
  spread := some ⟨.ofSeconds 120⟩

theorem nested_types_distinct :
    ∃ m,
      nestedBlueprint.build = .ok m ∧
        m.steps = nestedBlueprint.steps ∧
        m.owners.map (·.type) =
          ["Ready", "a_Ready", "a_Finalize", "a_Ready_Ready",
            "a_Ready_Finalize", "Ready_Finalize_Ready",
            "Ready_Finalize_Finalize"] ∧
        (m.owners.map (·.type)).Nodup ∧
        m.owners.Pairwise
          (fun o o' => o.Spares o' ∧ o'.Spares o) := by
  rcases build_decides nestedBlueprint with ⟨_, _, hBuilt⟩
  rcases hBuilt _ rfl with ⟨hSteps, hTypes, hSpared⟩
  exact ⟨_, rfl, hSteps, rfl, hTypes, hSpared⟩

/- A blank name is told before that it comes again. -/
example :
    build
        { nestedBlueprint with
          steps := ["a", " ", " ", "a"].map idleStep
          spread := some ⟨.zero⟩ } =
      .error (.invalidStepName " ") :=
  rfl

end Blueprint

end Reconciler
