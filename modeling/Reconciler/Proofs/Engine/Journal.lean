import Reconciler.Proofs.Engine.Triple

/-
  This file defines what can be read off a journal: its
  events, the status writes and fetches among them, the
  results of the steps, and the scene at its end.

  Key definitions include:
    * `Journal.events`
    * `Journal.statusWrites`
    * `Journal.fetches`
    * `Journal.executed`
    * `Journal.lastScene`
    * `Journal.IdleSince`
    * `Journal.JustSettled`

  Key theorems include:
    * `Journal.fetch_noted`
-/

------------------------------------------------------------
-- Events
------------------------------------------------------------

namespace Reconciler

namespace Event

/- Whether an event is a status write. -/
def isStatusWrite : Event → Bool
  | .statusUpdated _ _ => true
  | _ => false

/- The result of a fetch. -/
def fetch? : Event → Option (Except StoreError Object)
  | .fetched _ result => some result
  | _ => none

/- Whether an event is a patch that failed. -/
def isFailedPatch : Event → Bool
  | .patched _ _ (.error _) => true
  | _ => false

/-
  Whether an event is a patch of tokens that failed; such a
  patch leaves the labels alone.
-/
def isFailedTokenPatch : Event → Bool
  | .patched modified base (.error _) =>
      modified.metadata.labels = base.metadata.labels
  | _ => false

/- A patch of tokens that fails is a patch that fails. -/
theorem isFailedTokenPatch_of_not_failed
    {e : Event}
    (hPatch : e.isFailedPatch = false) :
    e.isFailedTokenPatch = false := by
  unfold isFailedPatch at hPatch
  split at hPatch
  · cases hPatch
  · next hOther =>
      unfold isFailedTokenPatch
      split
      · next modified base e => exact absurd rfl (hOther _ _ _)
      · rfl

/- The step and its result, if the event is one. -/
def executed? : Event → Option (String × StepResult)
  | .executed step result => some (step, result)
  | _ => none

end Event

------------------------------------------------------------
-- Journals
------------------------------------------------------------

namespace Journal

variable {μ : Type}

/- The events of a journal, without the scenes. -/
def events
    (j : List (Moment μ)) : List Event :=
  j.map (·.event)

/- The moments of the status writes. -/
def statusWrites
    (j : List (Moment μ)) : List (Moment μ) :=
  j.filter (·.event.isStatusWrite)

/- The results of the fetches. -/
def fetches
    (j : List (Moment μ)) :
    List (Except StoreError Object) :=
  j.filterMap (·.event.fetch?)

/- The executed steps with their results, in order. -/
def executed
    (j : List (Moment μ)) :
    List (String × StepResult) :=
  j.filterMap (·.event.executed?)

@[simp]
theorem events_nil :
    events ([] : List (Moment μ)) = [] :=
  rfl

@[simp]
theorem events_cons
    (mo : Moment μ)
    (j : List (Moment μ)) :
    events (mo :: j) = mo.event :: events j :=
  rfl

@[simp]
theorem events_append
    (i j : List (Moment μ)) :
    events (i ++ j) = events i ++ events j :=
  List.map_append

@[simp]
theorem statusWrites_append
    (i j : List (Moment μ)) :
    statusWrites (i ++ j) =
      statusWrites i ++ statusWrites j :=
  List.filter_append i j

@[simp]
theorem fetches_append
    (i j : List (Moment μ)) :
    fetches (i ++ j) = fetches i ++ fetches j :=
  List.filterMap_append

@[simp]
theorem executed_append
    (i j : List (Moment μ)) :
    executed (i ++ j) = executed i ++ executed j :=
  List.filterMap_append

/- The scene after a journal that began at a scene. -/
def lastScene
    (scene : Scene μ)
    (j : List (Moment μ)) : Scene μ :=
  (j.getLast?.map (·.scene)).getD scene

@[simp]
theorem lastScene_snoc
    (scene : Scene μ)
    (j : List (Moment μ))
    (mo : Moment μ) :
    lastScene scene (j ++ [mo]) = mo.scene := by
  unfold lastScene
  rw [List.getLast?_concat]
  rfl

/- A journal that is not empty hides where it began. -/
theorem lastScene_append_cons
    (scene : Scene μ)
    (before after : List (Moment μ))
    (mo : Moment μ) :
    lastScene scene (before ++ mo :: after) =
      lastScene mo.scene after := by
  rcases List.eq_nil_or_concat after with
    hNil | ⟨rest, last, hLast⟩
  · rw [hNil, lastScene_snoc]
    rfl
  · rw [hLast, List.concat_eq_append, lastScene_snoc,
      ← List.cons_append, ← List.append_assoc,
      lastScene_snoc]

/- The scene after a journal is its last one. -/
theorem lastScene_mem
    (scene : Scene μ)
    (j : List (Moment μ)) :
    lastScene scene j = scene ∨
      ∃ mo ∈ j, lastScene scene j = mo.scene := by
  rcases List.eq_nil_or_concat j with
    hNil | ⟨rest, last, hLast⟩
  · rw [hNil]
    exact .inl rfl
  · rw [hLast, List.concat_eq_append, lastScene_snoc]
    exact .inr ⟨last, by simp, rfl⟩

/- The scene after two journals is that after the second. -/
theorem lastScene_append
    (scene : Scene μ)
    (before after : List (Moment μ)) :
    lastScene scene (before ++ after) =
      lastScene (lastScene scene before) after := by
  cases after with
  | nil => simp [lastScene]
  | cons mo after =>
      rw [lastScene_append_cons]
      exact (lastScene_append_cons _ [] after mo).symm

/- Since a session nothing but other tasks has run. -/
def IdleSince
    (start s : Session μ) : Prop :=
  ∃ idle,
    s.journal = start.journal ++ idle ∧
      ∀ mo ∈ idle, mo.event = .resumed

theorem IdleSince.resume
    (s : Session μ) :
    IdleSince s s.resume := by
  rcases s.resume_cases with
    hIdle | ⟨change, rest, _, hRun⟩
  · rw [hIdle]
    exact ⟨[], by simp, by simp⟩
  · rw [hRun]
    exact ⟨[⟨.resumed, change s.scene⟩], rfl, by simp⟩

/- What a fetch notes: other tasks that ran, and itself. -/
theorem fetch_noted
    {k : Key}
    {start : Session μ} :
    Engine.Triple (fun s => s = start)
      (Engine.await (some <$> Engine.fetch k))
      (fun r s =>
        ∃ idle,
          s.journal =
              start.journal ++ idle ++
                [⟨.fetched k r, s.scene⟩] ∧
            ∀ mo ∈ idle, mo.event = .resumed)
      (fun _ _ => True) := by
  refine .await (M := IdleSince start) ?_
    (fun _ _ _ => trivial) (.map (.onStore ?_))
  · intro s hStart
    rw [hStart]
    exact .resume start
  · intro s r store hIdle _
    rcases hIdle.1 with ⟨idle, hJournal, hResumed⟩
    refine ⟨idle, ?_, hResumed⟩
    rw [Session.moveTo_journal, hJournal]
    rfl

section Idle

variable {idle : List (Moment μ)}

theorem statusWrites_idle
    (hIdle : ∀ mo ∈ idle, mo.event = .resumed) :
    statusWrites idle = [] := by
  apply List.filter_eq_nil_iff.mpr
  intro mo hMember
  rw [hIdle mo hMember]
  exact Bool.false_ne_true

theorem fetches_idle
    (hIdle : ∀ mo ∈ idle, mo.event = .resumed) :
    fetches idle = [] := by
  apply List.filterMap_eq_nil_iff.mpr
  intro mo hMember
  rw [hIdle mo hMember]
  rfl

theorem executed_idle
    (hIdle : ∀ mo ∈ idle, mo.event = .resumed) :
    executed idle = [] := by
  apply List.filterMap_eq_nil_iff.mpr
  intro mo hMember
  rw [hIdle mo hMember]
  rfl

end Idle

/- Only one place of a list is the last of a kind. -/
theorem split_unique
    {α : Type}
    {p : α → Prop}
    {before before' after after' : List α}
    {a a' : α}
    (hSame : before ++ a :: after = before' ++ a' :: after')
    (hKind : p a)
    (hKind' : p a')
    (hLast : ∀ b ∈ after, ¬ p b)
    (hLast' : ∀ b ∈ after', ¬ p b) :
    before = before' ∧ a = a' ∧ after = after' := by
  rcases List.append_eq_append_iff.mp hSame with
    ⟨gap, hBefore, hRest⟩ | ⟨gap, hBefore, hRest⟩
  · cases gap with
    | nil =>
        simp only [List.append_nil] at hBefore
        injection hRest with hHead hTail
        exact ⟨hBefore.symm, hHead, hTail⟩
    | cons b gap =>
        injection hRest with _ hTail
        have hMember : a' ∈ after := by
          rw [hTail]
          simp
        exact absurd hKind' (hLast a' hMember)
  · cases gap with
    | nil =>
        simp only [List.append_nil] at hBefore
        injection hRest with hHead hTail
        exact ⟨hBefore, hHead.symm, hTail.symm⟩
    | cons b gap =>
        injection hRest with _ hTail
        have hMember : a ∈ after' := by
          rw [hTail]
          simp
        exact absurd hKind (hLast' a hMember)

/- A place in a longer list is the new one or an old one. -/
theorem split_snoc
    {α : Type}
    {l before after : List α}
    {a b : α}
    (hSplit : l ++ [b] = before ++ a :: after) :
    (l = before ∧ b = a ∧ after = []) ∨
      ∃ rest,
        after = rest ++ [b] ∧ l = before ++ a :: rest := by
  rcases List.eq_nil_or_concat after with
    hNil | ⟨rest, last, hLast⟩
  · rw [hNil] at hSplit
    rcases List.append_inj' hSplit rfl with ⟨hSame, hEnd⟩
    injection hEnd with hEnd
    exact .inl ⟨hSame, hEnd, hNil⟩
  · rw [List.concat_eq_append] at hLast
    rw [hLast, ← List.cons_append, ← List.append_assoc]
      at hSplit
    rcases List.append_inj' hSplit rfl with ⟨hSame, hEnd⟩
    injection hEnd with hEnd
    exact .inr ⟨rest, hEnd ▸ hLast, hSame⟩

/- A finalize call of a step has just come to its end. -/
def JustReturned
    (step : String)
    (events : List Event) : Prop :=
  ∃ before,
    events = before ++ [.finalizeCalled step, .returned]

/- After a finalize call comes its end. -/
theorem JustReturned.call
    {α : Type}
    {step : String}
    {x : Call μ α} :
    Engine.Triple
      (fun s =>
        ∃ before,
          events s.journal =
            before ++ [.finalizeCalled step])
      (Engine.call x)
      (fun _ s => JustReturned step (events s.journal))
      (fun _ _ => True) := by
  refine .call ?_ ?_ (fun _ _ _ _ _ => trivial)
  · intro s a scene hCalled _
    rcases hCalled with ⟨before, hEvents⟩
    exact ⟨before, by simp [hEvents]⟩
  · intro s scene hCalled _
    rcases hCalled with ⟨before, hEvents⟩
    exact ⟨before, by simp [hEvents]⟩

/-
  A finalize call of a step has just come to a settled
  result: since then only other tasks have run.
-/
def JustSettled
    (step : String)
    (events : List Event) : Prop :=
  ∃ before after result,
    events =
        before ++
          [.finalizeCalled step, .returned,
            .executed step result] ++ after ∧
      result.isSettled = true ∧
      ∀ e ∈ after, e = .resumed

/- A step settles with the result of its finalize call. -/
theorem JustReturned.settled
    {step : String}
    {events : List Event}
    {result : StepResult}
    (hReturned : JustReturned step events)
    (hResult : result.isSettled = true) :
    JustSettled step (events ++ [.executed step result]) := by
  rcases hReturned with ⟨before, hEvents⟩
  exact ⟨before, [], result, by simp [hEvents], hResult,
    by simp⟩

/- The running of other tasks does not unsettle a step. -/
theorem JustSettled.resume
    {step : String}
    {s : Session μ}
    (hSettled : JustSettled step (events s.journal)) :
    JustSettled step (events s.resume.journal) := by
  rcases hSettled with
    ⟨before, after, result, hEvents, hResult, hAfter⟩
  unfold Session.resume
  split
  · exact ⟨before, after, result, hEvents, hResult, hAfter⟩
  · refine
      ⟨before, after ++ [.resumed], result, ?_, hResult, ?_⟩
    · simp [hEvents]
    · intro e hMember
      rcases List.mem_append.mp hMember with hOld | hNew
      · exact hAfter e hOld
      · exact List.mem_singleton.mp hNew

/-
  A step has just settled if it was finalized at all, and
  with a settled result.
-/
def SettledIf
    (finalized : Bool)
    (step : String)
    (result : StepResult)
    (j : List (Moment μ)) : Prop :=
  finalized = true → result.isSettled = true →
    JustSettled step (events j)

end Journal

end Reconciler
