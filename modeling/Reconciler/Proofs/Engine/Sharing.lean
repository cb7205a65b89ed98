import Reconciler.Proofs.Engine.Accounting
import Reconciler.Proofs.Engine.Manager

/-
  This file says when a token of an object that is being
  deleted waits for all the steps that declare it.

  The first of its owners that is finalized takes the token
  off at once, and the ledger has no other owner by then.
  So a token waits for its owners if and only if it has one;
  the cleanup of any other owner can be skipped.

  Key definitions include:
    * `Manager.Sheds`

  Key theorems include:
    * `Journal.Accounts.entered`
    * `Manager.shed_unique`
    * `Manager.sheds_awaitsOwners_iff`
    * `Manager.sharing_skips`
-/

------------------------------------------------------------
-- Entries of a Ledger
------------------------------------------------------------

namespace Reconciler

variable {μ : Type}

/- Once a step is done its tokens are off the object. -/
theorem Store.Accounted.lacks
    {k : Key}
    {o : Object}
    {done : List (Step μ)}
    {store : Store}
    {step : Step μ}
    {t : String}
    (hAccounted : store.Accounted k o done)
    (hDone : step ∈ done)
    (hToken : t ∈ step.tokens o) :
    store.Lacks k t := by
  intro stored hStored hHas
  rw [hAccounted.tokens stored hStored,
    Tokens.mem_remaining] at hHas
  exact hHas.2 step hDone hToken

namespace Journal

/- A place among the events is one in the journal. -/
theorem events_split
    {j : List (Moment μ)}
    {before after : List Event}
    {e : Event}
    (hEvents : events j = before ++ e :: after) :
    ∃ i mo rest,
      j = i ++ mo :: rest ∧ events i = before ∧
        mo.event = e := by
  rcases List.map_eq_append_iff.mp hEvents with
    ⟨i, tail, hSplit, hBefore, hTail⟩
  rcases List.map_eq_cons_iff.mp hTail with
    ⟨mo, rest, hCons, hEvent, _⟩
  rw [hCons] at hSplit
  exact ⟨i, mo, rest, hSplit, hBefore, hEvent⟩

namespace Accounts

variable {m : Manager μ}
variable {k : Key}
variable {o : Object}
variable {j : List (Moment μ)}
variable {mo : Moment μ}
variable {done : List (Step μ)}

/- The last moment of a ledger has no entry, or it is one. -/
theorem of_snoc
    (hAccounts : Accounts m k o (j ++ [mo]) done) :
    (Accounts m k o j done ∧
      mo.event.isAppliedPatch = false ∧
        mo.scene.store.Accounted k o done) ∨
    ∃ old step,
      done = old ++ [step] ∧ Accounts m k o j old ∧
        m.readOnly = false ∧ step ∈ m.steps ∧
          JustSettled step.name (events j) ∧
            mo.scene.store.Accounted k o done := by
  generalize hJournal : j ++ [mo] = all at hAccounts
  cases hAccounts with
  | start => simp at hJournal
  | kept hOld hEvent hStore =>
      rcases List.append_inj' hJournal rfl with
        ⟨hInit, hLast⟩
      cases hInit
      cases hLast
      exact .inl ⟨hOld, hEvent, hStore⟩
  | released hOld _ hWritable hStep _ _ hSettled hStore =>
      rcases List.append_inj' hJournal rfl with
        ⟨hInit, hLast⟩
      cases hInit
      cases hLast
      exact .inr
        ⟨_, _, rfl, hOld, hWritable, hStep, hSettled, hStore⟩

/- Every part of a journal has a part of the ledger. -/
theorem of_prefix
    {rest : List (Moment μ)}
    (hAccounts : Accounts m k o (j ++ rest) done) :
    ∃ done', Accounts m k o j done' := by
  induction rest using List.reverseRecOn generalizing done with
  | nil =>
      rw [List.append_nil] at hAccounts
      exact ⟨done, hAccounts⟩
  | append_singleton rest mo ih =>
      rw [← List.append_assoc] at hAccounts
      rcases hAccounts.of_snoc with
        ⟨hOld, _⟩ | ⟨_, _, _, hOld, _⟩
      · exact ih hOld
      · exact ih hOld

/- Since a step was entered its tokens are off the object. -/
theorem entered
    {step : Step μ}
    {t : String}
    (hAccounts : Accounts m k o j done)
    (hDone : step ∈ done)
    (hToken : t ∈ step.tokens o) :
    ∃ mo ∈ j, mo.scene.store.Lacks k t := by
  induction hAccounts with
  | start => cases hDone
  | kept _ _ _ ih =>
      rcases ih hDone with ⟨mo, hMember, hLacks⟩
      exact ⟨mo, List.mem_append_left _ hMember, hLacks⟩
  | released _ _ _ _ _ _ _ hStore =>
      exact ⟨_, List.mem_append_right _
        List.mem_cons_self, hStore.lacks hDone hToken⟩

end Accounts

end Journal

------------------------------------------------------------
-- Tokens that are Shed
------------------------------------------------------------

namespace Manager

open Engine

variable {m : Manager μ}
variable {k : Key}
variable {o : Object}
variable {start : Session μ}
variable {t : String}

/-
  A token is shed by a step that declares it and has just
  settled, before any other owner has been entered.
-/
theorem shed_owner
    {before : List (Moment μ)}
    {mo : Moment μ}
    {done : List (Step μ)}
    (hToken : t ∈ o.metadata.finalizers)
    (hKept : ∀ old ∈ before, ¬ old.scene.store.Lacks k t)
    (hShed : mo.scene.store.Lacks k t)
    (hAccounts :
      Journal.Accounts m k o (before ++ [mo]) done) :
    m.readOnly = false ∧
      ∃ step ∈ m.steps,
        t ∈ step.tokens o ∧
          Journal.JustSettled step.name
            (Journal.events before) := by
  have hNone :
      ∀ {old step},
        Journal.Accounts m k o before old → step ∈ old →
          t ∉ step.tokens o := by
    intro old step hOld hDone hDeclares
    rcases hOld.entered hDone hDeclares with
      ⟨earlier, hMember, hLacks⟩
    exact hKept earlier hMember hLacks
  rcases hAccounts.of_snoc with
    ⟨hOld, _, hStore⟩ |
    ⟨old, step, hDone, hOld, hWritable, hStep, hSettled,
      hStore⟩
  · rcases hStore.declared hToken hShed with
      ⟨step, hMember, hDeclares⟩
    exact absurd hDeclares (hNone hOld hMember)
  · rcases hStore.declared hToken hShed with
      ⟨owner, hMember, hDeclares⟩
    rw [hDone] at hMember
    rcases List.mem_append.mp hMember with hEarlier | hLast
    · exact absurd hDeclares (hNone hOld hEarlier)
    · rw [List.mem_singleton.mp hLast] at hDeclares
      exact ⟨hWritable, step, hStep, hDeclares, hSettled⟩

/-
  An owner of a token that has been finalized when the token
  is shed is the one that has just settled.
-/
theorem shed_unique
    {before after : List (Moment μ)}
    {mo : Moment μ}
    {ends : Option Halt}
    {step other : Step μ}
    {done : List (Step μ)}
    (hNames : m.stepNames.Nodup)
    (hKept : ∀ old ∈ before, ¬ old.scene.store.Lacks k t)
    (hAccounts :
      Journal.Accounts m k o (before ++ mo :: after) done)
    (hFails :
      Journal.FailsLast ends (before ++ mo :: after))
    (hStage :
      Journal.stage (Journal.events before) ≠ .overdue)
    (hStep : step ∈ m.steps)
    (hSettled :
      Journal.JustSettled step.name (Journal.events before))
    (hOther : other ∈ m.steps)
    (hDeclares : t ∈ other.tokens o)
    (hFinalized :
      Journal.Finalized other.name
        (Journal.events before)) :
    step = other := by
  have hSame :
      ∀ {a b : Step μ},
        a ∈ m.steps → b ∈ m.steps → a.name = b.name →
          a = b :=
    fun hA hB hName =>
      List.inj_on_of_nodup_map hNames hA hB hName
  rcases Journal.released_of_finalized hFinalized hStage with
    hNow | ⟨pre, e, post, hEvents, hPatch, hThen⟩
  · rw [hSettled.stage hStage] at hNow
    injection hNow with hName
    exact hSame hStep hOther hName
  · -- Else its patch has shed the token before.
    exfalso
    rcases Journal.events_split hEvents with
      ⟨i, earlier, rest, hSplit, hPre, hEvent⟩
    have hMember : earlier ∈ before := by
      rw [hSplit]
      exact List.mem_append_right _ List.mem_cons_self
    have hWhole :
        before ++ mo :: after =
          (i ++ [earlier]) ++ (rest ++ mo :: after) := by
      rw [hSplit]
      simp
    rw [hWhole] at hAccounts hFails
    rcases hAccounts.of_prefix with ⟨done', hPart⟩
    rcases hPart.of_snoc with
      ⟨_, hUnapplied, _⟩ |
      ⟨old, owner, hDone, _, _, hOwner, hReleased, hStore⟩
    · cases hKind : earlier.event with
      | patched modified base result =>
          cases result with
          | ok _ =>
              rw [hKind] at hUnapplied
              cases hUnapplied
          | error e =>
              have hLast :=
                hFails i earlier (rest ++ mo :: after)
                  modified base e (by simp) hKind
              have hEmpty := hLast.1
              simp at hEmpty
      | _ =>
          rw [← hEvent, hKind] at hPatch
          cases hPatch
    · rw [hPre] at hReleased
      have hEarly :
          Journal.stage pre ≠ .overdue := by
        rw [hThen]
        nofun
      rw [hReleased.stage hEarly] at hThen
      injection hThen with hName
      have hOwns : owner = other := hSame hOwner hOther hName
      have hEntered : other ∈ done' := by
        rw [hDone, ← hOwns]
        exact List.mem_append_right _ List.mem_cons_self
      exact hKept earlier hMember
        (hStore.lacks hEntered hDeclares)

/-
  A reconcile sheds a token at some moment: it is the first
  one that shows the object without the token.
-/
structure Sheds
    (m : Manager μ)
    (tags : Table String String)
    (k : Key)
    (t : String)
    (start : Session μ)
    (before : List (Moment μ))
    (mo : Moment μ) : Prop where
  ran :
    ∃ after,
      (m.reconcileRecovered tags k start).2.journal =
        start.journal ++ (before ++ mo :: after)
  kept :
    ∀ old ∈ before, ¬ old.scene.store.Lacks k t
  shed : mo.scene.store.Lacks k t

/-
  When a token is shed, all the steps that declare it have
  been finalized if and only if there is only one of them.
-/
theorem sheds_awaitsOwners_iff
    {b : Blueprint μ}
    {tags : Table String String}
    {before : List (Moment μ)}
    {mo : Moment μ}
    (hBuild : b.build = .ok m)
    (hKey : o.key = k)
    (hDeleting : o.isDeleting = true)
    (hConstant :
      ∀ step ∈ m.steps, ∀ o o',
        step.tokens o = step.tokens o')
    (hBehave : m.StepsBehave)
    (hStored : start.scene.store.object? k = some o)
    (hUndisturbed : start.Undisturbed)
    (hToken : t ∈ o.metadata.finalizers)
    (hSheds : m.Sheds tags k t start before mo) :
    (∀ step ∈ m.steps,
      t ∈ step.tokens o →
        Journal.Finalized step.name
          (Journal.events before)) ↔
      ∀ step ∈ m.steps, ∀ other ∈ m.steps,
        t ∈ step.tokens o → t ∈ other.tokens o →
          step = other := by
  rcases hSheds.ran with ⟨after, hJournal⟩
  rcases reconcileRecovered_books hKey hDeleting hConstant
      hBehave hStored hUndisturbed tags with
    ⟨ends, ⟨done, new, hNew, hAccounts, hFails, _⟩, _⟩
  have hSame : new = before ++ mo :: after := by
    rw [hNew] at hJournal
    exact List.append_cancel_left hJournal
  rw [hSame] at hAccounts hFails
  have hFirst :
      Journal.Accounts m k o
        ((before ++ [mo]) ++ after) done := by
    rw [List.append_assoc]
    exact hAccounts
  rcases hFirst.of_prefix with ⟨_, hPart⟩
  rcases shed_owner hToken hSheds.kept hSheds.shed hPart with
    ⟨hWritable, shedder, hShedder, hDeclares, hSettled⟩
  have hStage :
      Journal.stage (Journal.events before) ≠ .overdue := by
    rcases recovered_prompt hWritable hConstant hBehave tags
      with ⟨_, ⟨stage, hEnds, new', hNew', hReached⟩, _⟩
    have hStage := hEnds.ne_overdue
    rw [hNew] at hNew'
    rw [← List.append_cancel_left hNew', hSame,
      Journal.events_append] at hReached
    rw [← hReached] at hStage
    exact Journal.stage_earlier hStage
  constructor
  · intro hAll
    -- Whoever has been finalized by now has shed the token.
    have hUnique :
        ∀ step ∈ m.steps, t ∈ step.tokens o →
          shedder = step :=
      fun step hStep hOwns =>
        shed_unique (Blueprint.build_stepNames_nodup hBuild)
          hSheds.kept hAccounts hFails hStage hShedder
          hSettled hStep hOwns (hAll step hStep hOwns)
    intro step hStep other hOther hOwns hShares
    rw [← hUnique step hStep hOwns]
    exact hUnique other hOther hShares
  · intro hSingle step hStep hOwns
    rw [hSingle step hStep shedder hShedder hOwns hDeclares]
    exact hSettled.finalized

/- The manager whose two steps share a token was built. -/
theorem sharing_built :
    Blueprint.build
        { operator := "operator"
          controller := "controller"
          kind := "TestObject"
          steps := sharingManager.steps } =
      .ok sharingManager :=
  rfl

/- Whether a moment shows the object with a token. -/
def carries?
    (k : Key)
    (t : String)
    (mo : Moment μ) : Bool :=
  (mo.scene.store.object? k).any
    (fun stored => stored.metadata.hasFinalizer t)

theorem carries?_iff
    {mo : Moment μ} :
    carries? k t mo = false ↔ mo.scene.store.Lacks k t := by
  unfold carries? Store.Lacks Metadata.hasFinalizer
  cases mo.scene.store.object? k with
  | none => simp
  | some stored => simp

/- The moment at which a token is shed can be looked up. -/
theorem Sheds.of_journal
    {tags : Table String String}
    {j : List (Moment μ)}
    (n : Nat)
    (hJournal :
      (m.reconcileRecovered tags k start).2.journal =
        start.journal ++ j)
    (hKept : (j.take n).all (carries? k t) = true)
    (hShed :
      (j.drop n).head?.map (carries? k t) = some false) :
    ∃ mo, m.Sheds tags k t start (j.take n) mo := by
  cases hRest : j.drop n with
  | nil =>
      rw [hRest] at hShed
      cases hShed
  | cons mo after =>
      rw [hRest] at hShed
      have hLacks := Option.some.inj hShed
      refine ⟨mo, ⟨after, ?_⟩, ?_, carries?_iff.mp hLacks⟩
      · rw [← hRest, List.take_append_drop]
        exact hJournal
      · intro old hMember hEarly
        have hCarries := List.all_eq_true.mp hKept old hMember
        rw [carries?_iff.mpr hEarly] at hCarries
        cases hCarries

/- The patch sheds the token that the two steps share. -/
theorem sharing_sheds :
    ∃ mo,
      sharingManager.Sheds [] guardKey "token" sharingStart
        (sharingRan.journal.take 4) mo := by
  refine Sheds.of_journal 4 ?_ ?_ ?_
  · unfold sharingRan
    exact (List.nil_append _).symm
  · decide +kernel
  · decide +kernel

theorem sharing_sheds_awaitsOwners :
    "token" ∈ sharingObject.metadata.finalizers ∧
      ∃ mo,
        sharingManager.Sheds [] guardKey "token" sharingStart
            (sharingRan.journal.take 4) mo ∧
          ((∀ step ∈ sharingManager.steps,
            "token" ∈ step.tokens sharingObject →
              Journal.Finalized step.name
                (Journal.events
                  (sharingRan.journal.take 4))) ↔
            ∀ step ∈ sharingManager.steps,
              ∀ other ∈ sharingManager.steps,
                "token" ∈ step.tokens sharingObject →
                  "token" ∈ other.tokens sharingObject →
                    step = other) := by
  have hKey : sharingObject.key = guardKey := rfl
  have hToken :
      "token" ∈ sharingObject.metadata.finalizers := by
    decide
  rcases sharing_sheds with ⟨mo, hSheds⟩
  exact ⟨hToken, mo, hSheds,
    sheds_awaitsOwners_iff sharing_built hKey rfl
      sharing_tokens_constant sharing_stepsBehave
      sharing_stored sharing_undisturbed hToken hSheds⟩

/- The steps whose finalizations were called. -/
def finalizations
    (events : List Event) : List String :=
  events.filterMap (fun e =>
    match e with
    | .finalizeCalled step => some step
    | _ => none)

/-
  The shared token comes off, and one of the two steps that
  declare it is never finalized.
-/
theorem sharing_skips :
    (∃ b : Blueprint Unit, b.build = .ok sharingManager) ∧
      sharingObject.isDeleting = true ∧
      sharingStart.scene.store.object? guardKey =
        some sharingObject ∧
      "token" ∈ sharingObject.metadata.finalizers ∧
      sharingRan.scene.store.Lacks guardKey "token" ∧
      ∃ step ∈ sharingManager.steps,
        "token" ∈ step.tokens sharingObject ∧
          ¬ Journal.Finalized step.name
            (Journal.events sharingRan.journal) := by
  have hCalled :
      finalizations (Journal.events sharingRan.journal) =
        ["second"] := by
    decide +kernel
  have hTokens := sharing_tokens
  refine ⟨⟨_, sharing_built⟩, rfl, sharing_stored, by decide,
    ?_, _, List.mem_cons_self, by decide, ?_⟩
  · intro stored hStored
    rw [hStored] at hTokens
    have hLeft : stored.metadata.finalizers = ["foreign"] :=
      Option.some.inj hTokens
    rw [hLeft]
    decide
  · rintro ⟨before, after, result, hEvents, _⟩
    have hMember :
        "first" ∈
          finalizations (Journal.events sharingRan.journal) := by
      rw [hEvents]
      apply List.mem_filterMap.mpr
      exact ⟨.finalizeCalled "first", by simp [sharingStep],
        rfl⟩
    rw [hCalled] at hMember
    exact absurd hMember (by decide)

end Manager

end Reconciler
