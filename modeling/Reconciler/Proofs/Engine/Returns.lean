import Mathlib.Data.List.Perm.Basic
import Reconciler.Proofs.Condition.Coherence
import Reconciler.Proofs.Engine.Chain

/-
  This file says what a reconcile returns.

  Each executed step asks for a delay, where an empty one
  asks for nothing.  A run whose chain came to its end
  returns the least of the delays that are positive,
  whatever the order of the steps and whether any of them
  failed.  A run in which a step asked for a retry returns
  the error of that step with the delay of that step,
  whatever becomes of its status write; it can only panic
  before, if the time of a condition cannot be told.  What
  else a run can come to are the ways to cut it off.

  Key definitions include:
    * `Duration.LeastPositive`
    * `Duration.soonestOf`
    * `Halt.CutsOffAt`
    * `Manager.HaltsAfter`

  Key theorems include:
    * `Duration.leastPositive_soonestOf`
    * `Duration.LeastPositive.unique`
    * `Manager.executeStep_tallies`
    * `Manager.runChain_ends`
    * `Manager.storeError_fatal`
    * `Manager.reconcile_answers`
    * `Manager.overtime_retry_lost`
-/

------------------------------------------------------------
-- The Least Positive Delay
------------------------------------------------------------

namespace Reconciler

namespace Duration

/-
  A delay is the least positive one of a list, or it is
  empty and so are all of the list.
-/
inductive LeastPositive
    (ds : List Duration) : Duration → Prop where
  | none
      (hEmpty : ∀ x ∈ ds, x = zero) :
      LeastPositive ds zero
  | least
      {d : Duration}
      (hMember : d ∈ ds)
      (hPositive : zero < d)
      (hLeast : ∀ x ∈ ds, zero < x → d ≤ x) :
      LeastPositive ds d

/- The soonest of a list of delays, in their order. -/
def soonestOf
    (ds : List Duration) : Duration :=
  ds.foldl soonest zero

@[simp]
theorem soonestOf_snoc
    (ds : List Duration)
    (d : Duration) :
    soonestOf (ds ++ [d]) = (soonestOf ds).soonest d := by
  unfold soonestOf
  rw [List.foldl_append]
  rfl

/- A delay is empty or positive. -/
theorem zero_or_pos
    (d : Duration) :
    d = zero ∨ zero < d := by
  rcases Nat.eq_zero_or_pos d.nanos with hZero | hPos
  · exact .inl (Duration.ext hZero)
  · exact .inr hPos

/- No delay is both. -/
theorem not_pos_of_eq_zero
    {d : Duration}
    (hZero : d = zero) :
    ¬ zero < d := by
  rw [hZero]
  exact Nat.lt_irrefl 0

/- An empty candidate changes nothing. -/
theorem soonest_zero
    (d : Duration) :
    d.soonest zero = d :=
  if_pos rfl

/- A candidate replaces an empty delay. -/
theorem zero_soonest
    (d : Duration) :
    zero.soonest d = d := by
  rcases zero_or_pos d with hZero | hPos
  · rw [hZero, soonest_zero]
  · unfold soonest
    rw [if_neg (by simpa [isZero] using hPos.ne')]
    exact if_pos rfl

/- Of two positive delays the shorter one is the soonest. -/
theorem soonest_of_pos
    {a b : Duration}
    (hA : zero < a)
    (hB : zero < b) :
    a.soonest b = shorter a b := by
  unfold soonest
  rw [if_neg (by simpa [isZero] using hB.ne'),
    if_neg (by simpa [isZero] using hA.ne')]

/- The shorter of two delays is one of them. -/
theorem shorter_eq_or
    (a b : Duration) :
    shorter a b = a ∨ shorter a b = b := by
  unfold shorter
  split
  · exact .inl rfl
  · exact .inr rfl

/- The shorter of two delays exceeds neither. -/
theorem shorter_le
    {a b d : Duration}
    (hOne : a ≤ d ∨ b ≤ d) :
    shorter a b ≤ d := by
  change (shorter a b).nanos ≤ d.nanos
  rw [nanos_shorter]
  exact min_le_iff.mpr hOne

/- One more delay, and the soonest of it and the least. -/
theorem LeastPositive.snoc
    {ds : List Duration}
    {a : Duration}
    (hLeast : LeastPositive ds a)
    (b : Duration) :
    LeastPositive (ds ++ [b]) (a.soonest b) := by
  have hSnoc :
      ∀ {p : Duration → Prop},
        (∀ x ∈ ds, p x) → p b → ∀ x ∈ ds ++ [b], p x :=
    fun hOld hNew =>
      List.forall_mem_append.mpr
        ⟨hOld, List.forall_mem_singleton.mpr hNew⟩
  rcases zero_or_pos b with rfl | hB
  · rw [soonest_zero]
    cases hLeast with
    | none hEmpty => exact .none (hSnoc hEmpty rfl)
    | least hMember hPositive hLeast =>
        refine .least (List.mem_append_left _ hMember)
          hPositive (hSnoc hLeast ?_)
        exact fun hX => absurd hX (not_pos_of_eq_zero rfl)
  · have hIn : b ∈ ds ++ [b] := by simp
    cases hLeast with
    | none hEmpty =>
        rw [zero_soonest]
        refine .least hIn hB (hSnoc ?_ ?_)
        · exact fun x hOld hX =>
            absurd hX (not_pos_of_eq_zero (hEmpty x hOld))
        · exact fun _ => Nat.le_refl _
    | least hMember hPositive hLeast =>
        rw [soonest_of_pos hPositive hB]
        refine .least ?_ ?_ (hSnoc ?_ ?_)
        · rcases shorter_eq_or a b with hFirst | hSecond
          · rw [hFirst]
            exact List.mem_append_left _ hMember
          · rw [hSecond]
            exact hIn
        · rcases shorter_eq_or a b with hFirst | hSecond
          · rw [hFirst]
            exact hPositive
          · rw [hSecond]
            exact hB
        · exact fun x hOld hX =>
            shorter_le (.inl (hLeast x hOld hX))
        · exact fun _ => shorter_le (.inr (Nat.le_refl _))

/- More delays, taken one by one. -/
theorem LeastPositive.foldl
    {seen ds : List Duration}
    {a : Duration}
    (hLeast : LeastPositive seen a) :
    LeastPositive (seen ++ ds) (ds.foldl soonest a) := by
  induction ds generalizing seen a with
  | nil => simpa using hLeast
  | cons d rest ih =>
      have hRest := ih (hLeast.snoc d)
      rw [List.append_assoc] at hRest
      exact hRest

/- The soonest of a list is its least positive delay. -/
theorem leastPositive_soonestOf
    (ds : List Duration) :
    LeastPositive ds (soonestOf ds) := by
  have hNone : LeastPositive [] zero := .none (by simp)
  exact hNone.foldl

/- There is only one least positive delay. -/
theorem LeastPositive.unique
    {ds : List Duration}
    {a b : Duration}
    (hA : LeastPositive ds a)
    (hB : LeastPositive ds b) :
    a = b := by
  cases hA with
  | none hEmpty =>
      cases hB with
      | none _ => rfl
      | least hMember hPositive _ =>
          exact absurd hPositive
            (not_pos_of_eq_zero (hEmpty b hMember))
  | least hMemberA hPositiveA hLeastA =>
      cases hB with
      | none hEmpty =>
          exact absurd hPositiveA
            (not_pos_of_eq_zero (hEmpty a hMemberA))
      | least hMemberB hPositiveB hLeastB =>
          exact Duration.ext
            (Nat.le_antisymm (hLeastA b hMemberB hPositiveB)
              (hLeastB a hMemberA hPositiveA))

/- Only which delays there are decides on the least. -/
theorem LeastPositive.perm
    {ds ds' : List Duration}
    {d : Duration}
    (hLeast : LeastPositive ds d)
    (hPerm : ds.Perm ds') :
    LeastPositive ds' d := by
  cases hLeast with
  | none hEmpty =>
      exact .none
        (fun x hIn => hEmpty x (hPerm.mem_iff.mpr hIn))
  | least hMember hPositive hLeast =>
      exact .least (hPerm.mem_iff.mp hMember) hPositive
        (fun x hIn => hLeast x (hPerm.mem_iff.mpr hIn))

/- The order of the delays does not matter. -/
theorem soonestOf_perm
    {ds ds' : List Duration}
    (hPerm : ds.Perm ds') :
    soonestOf ds = soonestOf ds' :=
  ((leastPositive_soonestOf ds).perm hPerm).unique
    (leastPositive_soonestOf ds')

example :
    soonestOf [.ofSeconds 5, .zero, .ofSeconds 3] =
      .ofSeconds 3 := by
  decide

end Duration

------------------------------------------------------------
-- How a Run Ends
------------------------------------------------------------

/-
  The error of a store operation that has to end the run.  A
  missing object needs no work, and an object that went away
  while it was being deleted needs no status.
-/
def Event.fatal? : Event → Option StoreError
  | .fetched _ (.error e) =>
      if e.isNotFound then none else some e
  | .patched _ _ (.error e) => some e
  | .statusUpdated o (.error e) =>
      if e.isNotFound && o.isDeleting then none else some e
  | _ => none

variable {μ : Type}

/- The last that has happened since a session. -/
def Session.EndsWith
    (start : Session μ)
    (e : Event)
    (s : Session μ) : Prop :=
  ∃ before mo,
    s.journal = start.journal ++ (before ++ [mo]) ∧
      mo.event = e

/-
  Where a halt cuts a run off: the run is cancelled, the last
  that has happened since its start is a write that had to
  end it, or something has panicked.
-/
def Halt.CutsOffAt
    (start s : Session μ) : Halt → Prop
  | .failed .cancelled => s.scene.cancelled = true
  | .failed (.store e) =>
      ∃ event,
        start.EndsWith event s ∧
          event.fatal? = some e ∧ event.fetch? = none
  | .panicked _ => True
  | _ => False

/- The delays that executed steps have asked for. -/
def requeues
    (results : List Executed) : List Duration :=
  results.map (·.2.requeue)

/- None of the executed steps has asked for a retry. -/
def Unretried
    (results : List Executed) : Prop :=
  ∀ r ∈ results, r.2.outcome ≠ .errorRetry

@[simp]
theorem requeues_snoc
    (results : List Executed)
    (step : String)
    (result : StepResult) :
    requeues (results ++ [(step, result)]) =
      requeues results ++ [result.requeue] := by
  unfold requeues
  rw [List.map_append]
  rfl

theorem Unretried.snoc
    {results : List Executed}
    (hUnretried : Unretried results)
    {step : String}
    {result : StepResult}
    (hOther : result.outcome ≠ .errorRetry) :
    Unretried (results ++ [(step, result)]) := by
  intro r hMember
  rcases List.mem_append.mp hMember with hOld | hNew
  · exact hUnretried r hOld
  · rw [List.mem_singleton.mp hNew]
    exact hOther

/- Of all that was executed only the last asks for a retry. -/
theorem Unretried.last
    {results : List Executed}
    (hUnretried : Unretried results)
    {last r : Executed}
    (hMember : r ∈ results ++ [last])
    (hRetry : r.2.outcome = .errorRetry) :
    r = last := by
  rcases List.mem_append.mp hMember with hOld | hNew
  · exact absurd hRetry (hUnretried r hOld)
  · exact List.mem_singleton.mp hNew

namespace Manager

open Engine

/- Since the start of a run these steps were executed. -/
def Ran
    (start : Session μ)
    (results : List Executed)
    (s : Session μ) : Prop :=
  ∃ new,
    s.journal = start.journal ++ new ∧
      Journal.executed new = results

/-
  Why a run halts after the steps that it has executed.  If
  no step has asked for a retry, the run is cut off.  If the
  last one has, the run fails with that step, its delay and
  its error, or it cannot tell the time.
-/
inductive HaltsAfter
    (start s : Session μ) :
    List Executed → Halt → Prop where
  | cutOff
      {results : List Executed}
      {h : Halt}
      (hUnretried : Unretried results)
      (hCut : h.CutsOffAt start s) :
      HaltsAfter start s results h
  | retried
      {results : List Executed}
      (step : String)
      (e : StepError)
      (requeue? : Option Duration)
      (hUnretried : Unretried results) :
      HaltsAfter start s
        (results ++ [(step, .errorRetry e requeue?)])
        (.failed
          (.step step (requeue?.getD .zero) e.failure))
  | timeless
      {results : List Executed}
      (step : String)
      (e : StepError)
      (requeue? : Option Duration)
      {fault : ClockFault}
      (hUnretried : Unretried results)
      (hClock : s.scene.clock.read = .error fault) :
      HaltsAfter start s
        (results ++ [(step, .errorRetry e requeue?)])
        (.panicked (.message fault.message))

/- A run has halted for one of these reasons. -/
def Halted
    (start : Session μ)
    (h : Halt)
    (s : Session μ) : Prop :=
  ∃ results,
    Ran start results s ∧ HaltsAfter start s results h

section Running

variable {m : Manager μ}
variable {start s : Session μ}
variable {results : List Executed}

theorem Ran.moveTo
    {e : Event}
    (hRan : Ran start results s)
    (hOther : e.executed? = none)
    (scene : Scene μ) :
    Ran start results (s.moveTo e scene) := by
  rcases hRan with ⟨new, hJournal, hResults⟩
  refine ⟨new ++ [⟨e, scene⟩], by simp [hJournal], ?_⟩
  rw [Journal.executed_append, hResults]
  simp [Journal.executed, hOther]

/- What has just happened since the start of the run. -/
theorem Ran.endsWith
    (hRan : Ran start results s)
    (e : Event)
    (scene : Scene μ) :
    start.EndsWith e (s.moveTo e scene) := by
  rcases hRan with ⟨new, hJournal, _⟩
  refine ⟨new, ⟨e, scene⟩, ?_, rfl⟩
  rw [Session.moveTo_journal, hJournal, List.append_assoc]

theorem Ran.resume
    (hRan : Ran start results s) :
    Ran start results s.resume :=
  Session.resume_keeps (fun _ _ => hRan)
    (fun _ _ _ h => h.moveTo rfl _)

theorem Ran.note_executed
    (hRan : Ran start results s)
    (step : String)
    (result : StepResult) :
    Ran start (results ++ [(step, result)])
      (s.note (.executed step result)) := by
  rcases hRan with ⟨new, hJournal, hResults⟩
  refine
    ⟨new ++ [⟨.executed step result, s.scene⟩],
      by simp [hJournal], ?_⟩
  rw [Journal.executed_append, hResults]
  rfl

/- A run that is cut off before any step asks for a retry. -/
theorem Ran.cutOff
    {h : Halt}
    (hRan : Ran start results s)
    (hUnretried : Unretried results)
    (hCut : h.CutsOffAt start s) :
    Halted start h s :=
  ⟨results, hRan, .cutOff hUnretried hCut⟩

/- A report on the way does not change why a run halts. -/
theorem Halted.reported
    {h : Halt}
    (hHalted : Halted start h s)
    (rs : List Report) :
    Halted start h { s with reports := rs } := by
  rcases hHalted with ⟨results, hRan, hWhy⟩
  refine ⟨results, hRan, ?_⟩
  cases hWhy with
  | cutOff hUnretried hCut =>
      refine .cutOff hUnretried ?_
      cases h with
      | panicked _ => trivial
      | failed e => exact hCut
  | retried step e requeue? hUnretried =>
      exact .retried step e requeue? hUnretried
  | timeless step e requeue? hUnretried hClock =>
      exact .timeless step e requeue? hUnretried hClock

/- A write that fails is the last that happens. -/
theorem Ran.unwritten
    {e : StoreError}
    {event : Event}
    (hRan : Ran start results s)
    (hUnretried : Unretried results)
    (hOther : event.executed? = none)
    (hFatal : event.fatal? = some e)
    (hFetch : event.fetch? = none)
    (scene : Scene μ) :
    Halted start (.failed (.store e))
      (s.moveTo event scene) :=
  (hRan.moveTo hOther scene).cutOff hUnretried
    ⟨event, hRan.endsWith event scene, hFatal, hFetch⟩

------------------------------------------------------------
-- The Chain
------------------------------------------------------------

/- Conditions are kept, and no delay is asked for. -/
theorem updateConditions_ran
    {H : Halt → Session μ → Prop}
    {update :
      Instant → Metadata → List Condition →
        List Condition}
    {w : Work}
    (hPanic :
      ∀ fault s, Ran start results s →
        s.scene.clock.read = .error fault →
          H (.panicked (.message fault.message)) s) :
    Triple (Ran start results) (m.updateConditions update w)
      (fun w' s =>
        w'.requeue = w.requeue ∧ Ran start results s)
      H :=
  m.updateConditions_clock
    (fun _ _ h _ _ => ⟨rfl, h⟩) (fun _ h _ => ⟨rfl, h⟩)
    hPanic

theorem seedCondition_ran
    {H : Halt → Session μ → Prop}
    {type : String}
    {seed :
      Instant → Metadata → List Condition →
        List Condition}
    {w : Work}
    (hPanic :
      ∀ p s, Ran start results s → H (.panicked p) s) :
    Triple (Ran start results) (m.seedCondition type seed w)
      (fun w' s =>
        w'.requeue = w.requeue ∧ Ran start results s)
      H :=
  m.seedCondition_triple (fun _ h _ => ⟨rfl, h⟩)
    (fun _ => updateConditions_ran
      (fun _ s h _ => hPanic _ s h))

/- A call ends in one way or another, or panics. -/
theorem call_ran
    {α : Type}
    {c : Call μ α}
    {e : Event}
    (hUnretried : Unretried results)
    (hOther : e.executed? = none) :
    Triple (Ran start results)
      (do
        note e
        Engine.call c)
      (fun r s =>
        Ran start results s ∧
          (r.isNone → s.scene.cancelled = true))
      (Halted start) := by
  refine .bind
    (.note (Q := fun _ => Ran start results)
      (fun s h => h.moveTo hOther s.scene)) ?_
  intro _
  refine .call ?_ ?_ ?_
  · exact fun s a scene h _ =>
      ⟨h.moveTo rfl scene, fun hNone => nomatch hNone⟩
  · exact fun s scene h _ =>
      ⟨h.moveTo rfl scene.cancel, fun _ => rfl⟩
  · exact fun s p scene h _ =>
      (h.moveTo rfl scene).cutOff hUnretried trivial

/- A step is run; if it was dropped, the run is cancelled. -/
theorem runStep_ran
    {context : Context}
    {step : Step μ}
    {o : Object}
    (hUnretried : Unretried results) :
    Triple (Ran start results)
      (Manager.runStep context step o)
      (fun r s =>
        Ran start results s ∧
          (r.isNone → s.scene.cancelled = true))
      (Halted start) := by
  have hEnter :
      ∀ (c : Call μ (StepResult × Object)) (e : Event)
          (finalized : Bool),
        e.executed? = none →
          Triple (Ran start results)
            (do
              note e
              let ended ← Engine.call c
              return ended.map
                (fun r => (r.1, r.2, finalized)))
            (fun r s =>
              Ran start results s ∧
                (r.isNone → s.scene.cancelled = true))
            (Halted start) := by
    intro c e finalized hOther
    rw [← bind_assoc]
    refine .bind (call_ran hUnretried hOther) ?_
    intro ended
    refine .pure ?_
    intro s h
    rw [Option.isNone_map]
    exact h
  unfold Manager.runStep
  split
  · exact hEnter _ _ false rfl
  · split
    · exact hEnter _ _ true rfl
    · exact .pure (fun s h => ⟨h, fun hNone => nomatch hNone⟩)

/- The tokens of a step are released, or the run is cut off. -/
theorem releaseTokens_ran
    {step : Step μ}
    {w : Work}
    (hUnretried : Unretried results) :
    Triple (Ran start results) (m.releaseTokens step w)
      (fun w' s =>
        w'.requeue = w.requeue ∧ Ran start results s)
      (Halted start) := by
  refine m.releaseTokens_triple
    (E := fun e => Halted start (.failed (.store e)))
    (fun _ h => h.resume)
    (fun _ h hCancelled => h.cutOff hUnretried hCancelled)
    (fun _ _ rs h => h.reported rs) (fun _ _ h => h)
    (fun _ _ h => ⟨rfl, h⟩) (fun _ _ => ?_)
  refine sendTokens_triple ?_ ?_
  · exact fun _ _ _ h _ => ⟨rfl, h.1.moveTo rfl _⟩
  · exact fun _ _ _ h _ =>
      h.1.unwritten hUnretried rfl rfl rfl _

/- The time cannot be told after a step: the run halts. -/
theorem Ran.timeless
    {step : String}
    {result : StepResult}
    {fault : ClockFault}
    (hRan : Ran start (results ++ [(step, result)]) s)
    (hUnretried : Unretried results)
    (hClock : s.scene.clock.read = .error fault) :
    Halted start (.panicked (.message fault.message)) s := by
  cases result with
  | errorRetry e requeue? =>
      exact ⟨_, hRan,
        .timeless step e requeue? hUnretried hClock⟩
  | proceed _ =>
      exact hRan.cutOff (hUnretried.snoc (by nofun)) trivial
  | stopChain _ _ =>
      exact hRan.cutOff (hUnretried.snoc (by nofun)) trivial
  | skipped _ =>
      exact hRan.cutOff (hUnretried.snoc (by nofun)) trivial
  | errorContinue _ =>
      exact hRan.cutOff (hUnretried.snoc (by nofun)) trivial
  | errorStop _ _ =>
      exact hRan.cutOff (hUnretried.snoc (by nofun)) trivial

/-
  One step of the chain: its delay joins those that were
  asked for before.  What can halt the run after a step that
  asks for a retry is the clock alone.
-/
theorem executeStep_tallies
    {context : Context}
    {step : Step μ}
    {w : Work}
    (hUnretried : Unretried results)
    (hSoonest :
      w.requeue = Duration.soonestOf (requeues results)) :
    Triple (Ran start results)
      (m.executeStep context step w)
      (fun r s =>
        r.2.requeue =
            Duration.soonestOf
              (requeues (results ++ [(step.name, r.1)])) ∧
          Ran start (results ++ [(step.name, r.1)]) s)
      (Halted start) := by
  unfold Manager.executeStep
  dsimp only
  refine .bind
    (seedCondition_ran
      (fun _ _ h => h.cutOff hUnretried trivial)) ?_
  intro seeded
  refine .assume (fun hSeeded => ?_)
  refine .bind (Q := fun _ => Ran start results) ?_ ?_
  · refine .await (M := Ran start results)
      (fun _ h => h.resume)
      (fun _ h hCancelled => h.cutOff hUnretried hCancelled) ?_
    refine (runStep_ran hUnretried).mono (fun _ h => h.1) ?_
      (fun _ _ h => h)
    intro r s h
    cases r with
    | some _ => exact h.1
    | none => exact h.1.cutOff hUnretried (h.2 rfl)
  intro r
  rcases r with ⟨result, o, finalized⟩
  refine .bind
    (.note
      (Q := fun _ =>
        Ran start (results ++ [(step.name, result)]))
      (fun s h => h.note_executed step.name result)) ?_
  intro _
  refine .bind
    (updateConditions_ran
      (fun _ _ h hClock => h.timeless hUnretried hClock)) ?_
  intro recorded
  refine .assume (fun hRecorded => ?_)
  have hNext :
      recorded.requeue =
        Duration.soonestOf
          (requeues (results ++ [(step.name, result)])) := by
    rw [hRecorded, requeues_snoc, Duration.soonestOf_snoc,
      ← hSoonest, ← hSeeded]
  refine .bind
    (m.reportStepError_triple _ _ _ (fun _ _ h => h)) ?_
  intro _
  split
  · next hRelease =>
      have hSettled : result.isSettled = true :=
        (Bool.and_eq_true_iff.mp hRelease).2
      have hOther : result.outcome ≠ .errorRetry := by
        intro hRetry
        unfold StepResult.isSettled at hSettled
        rw [hRetry] at hSettled
        cases hSettled
      refine .bind
        (releaseTokens_ran (hUnretried.snoc hOther)) ?_
      intro released
      exact .pure (fun s h => ⟨h.1.trans hNext, h.2⟩)
  · exact .pure (fun s h => ⟨hNext, h⟩)

/-
  How a chain has ended: with the soonest of all delays, or
  with a step that asked for a retry, and its own delay.
-/
def Ended
    (start : Session μ)
    (e : ChainEnd)
    (s : Session μ) : Prop :=
  match e with
  | .completed w =>
      ∃ results,
        (Unretried results ∧
          w.requeue =
            Duration.soonestOf (requeues results)) ∧
          Ran start results s
  | .retry _ step requeue cause =>
      ∃ results e requeue?,
        (Unretried results ∧ requeue = requeue?.getD .zero ∧
          cause = e.failure) ∧
          Ran start
            (results ++ [(step, .errorRetry e requeue?)]) s

/- The whole chain, by induction on its steps. -/
theorem runChain_ends
    {context : Context}
    {steps : List (Step μ)}
    {w : Work}
    (hUnretried : Unretried results)
    (hSoonest :
      w.requeue = Duration.soonestOf (requeues results)) :
    Triple (Ran start results) (m.runChain context steps w)
      (Ended start) (Halted start) := by
  induction steps generalizing results w with
  | nil =>
      exact .pure (fun s h =>
        ⟨results, ⟨hUnretried, hSoonest⟩, h⟩)
  | cons step rest ih =>
      unfold runChain
      refine .bind
        (executeStep_tallies hUnretried hSoonest) ?_
      intro r
      rcases r with ⟨result, w'⟩
      refine .assume (fun hNext => ?_)
      cases result with
      | proceed _ =>
          exact ih (hUnretried.snoc Outcome.noConfusion) hNext
      | skipped _ =>
          exact ih (hUnretried.snoc Outcome.noConfusion) hNext
      | errorContinue _ =>
          exact ih (hUnretried.snoc Outcome.noConfusion) hNext
      | stopChain _ _ =>
          exact .pure (fun s h =>
            ⟨_, ⟨hUnretried.snoc Outcome.noConfusion, hNext⟩, h⟩)
      | errorStop _ _ =>
          exact .pure (fun s h =>
            ⟨_, ⟨hUnretried.snoc Outcome.noConfusion, hNext⟩, h⟩)
      | errorRetry e requeue? =>
          exact .pure (fun s h =>
            ⟨results, e, requeue?, ⟨hUnretried, rfl, rfl⟩, h⟩)

------------------------------------------------------------
-- Before and After the Chain
------------------------------------------------------------

/-
  A run has halted with no step executed; if the store is to
  blame for that, it has just failed.
-/
def HaltedEarly
    (start : Session μ)
    (h : Halt)
    (s : Session μ) : Prop :=
  Ran start [] s ∧
    ∀ e, h = .failed (.store e) →
      ∃ event,
        start.EndsWith event s ∧ event.fatal? = some e

/- The store has just failed. -/
theorem Ran.haltedEarly
    {e : StoreError}
    {event : Event}
    (hRan : Ran start [] s)
    (hEnds : start.EndsWith event s)
    (hFatal : event.fatal? = some e) :
    HaltedEarly start (.failed (.store e)) s := by
  refine ⟨hRan, ?_⟩
  intro e' hEq
  cases hEq
  exact ⟨event, hEnds, hFatal⟩

/- A report does not change why a run has halted early. -/
theorem HaltedEarly.reported
    {h : Halt}
    (hHalted : HaltedEarly start h s)
    (rs : List Report) :
    HaltedEarly start h { s with reports := rs } :=
  hHalted

/- Tokens are put on the object, or the run halts early. -/
theorem ensureTokens_ran
    {w : Work} :
    Triple (Ran start []) (m.ensureTokens w)
      (fun w' s => w'.requeue = w.requeue ∧ Ran start [] s)
      (HaltedEarly start) := by
  refine m.ensureTokens_reasons (M := Ran start [])
    (E := fun e => HaltedEarly start (.failed (.store e)))
    (fun _ h => h.resume) (fun _ h _ => ⟨h, nofun⟩)
    (fun _ _ rs h => h.reported rs) (fun _ _ h => h)
    (fun _ h _ => ⟨rfl, h⟩) (fun _ _ _ => ?_)
  refine sendTokens_triple ?_ ?_
  · exact fun _ _ _ h _ => ⟨rfl, h.1.moveTo rfl _⟩
  · exact fun _ _ _ h _ =>
      (h.1.moveTo rfl _).haltedEarly (h.1.endsWith _ _) rfl

/- The hook is called, or the run halts early. -/
theorem prepare_ran
    {context : Context}
    {w : Work} :
    Triple (Ran start []) (m.prepare context w)
      (fun _ => Ran start []) (HaltedEarly start) := by
  refine m.prepare_awaits
    (fun _ h => h.resume) (fun _ h => ⟨h, nofun⟩)
    (fun _ _ h => ⟨h, nofun⟩) (fun _ _ h => h) ?_
  intro hook _
  refine .bind
    (.note (Q := fun _ => Ran start [])
      (fun s h => h.1.moveTo rfl s.scene)) ?_
  intro _
  refine .call ?_ ?_ ?_
  · exact fun _ _ scene h _ => h.moveTo rfl scene
  · exact fun _ scene h _ => h.moveTo rfl scene.cancel
  · exact fun _ _ scene h _ => ⟨h.moveTo rfl scene, nofun⟩

/-
  A run that comes to its chain has executed no step, and no
  delay has been asked for.  Neither has one that does not.
-/
theorem approach_ran
    {k : Key} :
    Triple (fun s => s = start) (m.approach k)
      (fun r s =>
        (∀ c w, r = .ok (c, w) → w.requeue = .zero) ∧
          Ran start [] s)
      (HaltedEarly start) := by
  have hStarts : Ran start [] start := ⟨[], by simp, rfl⟩
  unfold approach
  refine .bind
    (Q := fun r s =>
      Ran start [] s ∧ start.EndsWith (.fetched k r) s) ?_ ?_
  · refine .await (M := Ran start []) ?_
      (fun _ h _ => ⟨h, nofun⟩) (.map (.onStore ?_))
    · intro s hStart
      rw [hStart]
      exact hStarts.resume
    · exact fun _ _ _ h _ =>
        ⟨h.1.moveTo rfl _, h.1.endsWith _ _⟩
  intro r
  cases r with
  | error e =>
      dsimp only
      split
      · exact .pure (fun _ h => ⟨by simp, h.1⟩)
      · next hNeeded =>
          exact .bind
            (m.reportFetchError_triple e k (fun _ _ h => h))
            (fun _ => .fail (fun _ h =>
              h.1.haltedEarly h.2 (if_neg hNeeded)))
  | ok o =>
      refine .bind (Q := fun _ => Ran start []) ?_ ?_
      · unfold checkCapabilities
        split
        · exact .pure (fun _ h => h.1)
        · exact .bind
            (m.emit_triple _ (fun _ _ h => h))
            (fun _ => .fail (fun _ h => ⟨h.1, nofun⟩))
      intro _
      refine .bind
        (.clock (Q := fun _ => Ran start [])
          (fun _ _ h _ => h) (fun _ _ h _ => ⟨h, nofun⟩)) ?_
      intro now
      dsimp only
      split
      · exact .pure (fun _ h => ⟨by simp, h⟩)
      refine .bind ensureTokens_ran ?_
      intro armed
      refine .assume (fun hArmed => ?_)
      refine .bind
        (seedCondition_ran (fun _ _ h => ⟨h, nofun⟩)) ?_
      intro seeded
      refine .assume (fun hSeeded => ?_)
      refine .bind prepare_ran ?_
      intro prepared
      cases prepared with
      | none => exact .pure (fun _ h => ⟨by simp, h⟩)
      | some c =>
          refine .pure (fun _ h => ⟨?_, h⟩)
          intro c' w hEq
          cases hEq
          exact hSeeded.trans hArmed

/- The stamp of the time asks for no delay. -/
theorem stampTime_requeue
    (w : Work) :
    (m.stampTime w).requeue = w.requeue := by
  unfold stampTime
  split
  · rfl
  · rfl

/- A chain is summed up, unless the time cannot be told. -/
theorem sumUp_ended
    {e : ChainEnd} :
    Triple (Ended start e) (m.sumUp e)
      (fun w s => w.requeue = e.work.requeue ∧ Ended start e s)
      (Halted start) := by
  cases e with
  | completed w =>
      refine .named (fun results => .assume ?_)
      rintro ⟨hUnretried, hSoonest⟩
      have hCut :
          ∀ p s, Ran start results s →
            Halted start (.panicked p) s :=
        fun _ _ h => h.cutOff hUnretried trivial
      have hSummed :
          ∀ (w' : Work) s,
            w'.requeue = w.requeue → Ran start results s →
              w'.requeue = w.requeue ∧
                Ended start (.completed w) s :=
        fun _ _ hSame h =>
          ⟨hSame, results, ⟨hUnretried, hSoonest⟩, h⟩
      refine .bind
        (updateConditions_ran (fun _ s h _ => hCut _ s h)) ?_
      intro ready
      refine .assume (fun hReady => ?_)
      split
      · exact .pure (fun s h => hSummed ready s hReady h)
      · refine .map (m.stampSlot_triple (fun _ _ h => h) ?_ ?_
          hCut)
        · exact fun s h =>
            hSummed _ s ((stampTime_requeue _).trans hReady) h
        · exact fun s _ _ h =>
            hSummed _ s ((stampTime_requeue _).trans hReady) h
  | retry w step requeue cause =>
      refine .named (fun results => .named (fun error =>
        .named (fun requeue? => .assume ?_)))
      rintro ⟨hUnretried, rfl, rfl⟩
      unfold sumUp recordReadiness
      refine (updateConditions_ran ?_).mono (fun _ h => h) ?_
        (fun _ _ h => h)
      · exact fun _ _ h hClock => h.timeless hUnretried hClock
      · exact fun _ _ h =>
          ⟨h.1, results, error, requeue?,
            ⟨hUnretried, rfl, rfl⟩, h.2⟩

/-
  The status write keeps what was asked for, unless it cuts
  the run off.
-/
theorem persistStatus_ran
    {w : Work} :
    Triple (Ran start results) (m.persistStatus w)
      (fun r s =>
        match r with
        | .ok w' => w'.requeue = w.requeue ∧ Ran start results s
        | .error e =>
            (Halt.failed e).CutsOffAt start s ∧
              Ran start results s)
      (fun _ _ => False) := by
  refine m.persistStatus_triple
    (W := fun r s =>
      Ran start results s ∧
        start.EndsWith (.statusUpdated w.obj r) s)
    (fun _ h => h.resume) (fun _ _ h => ⟨rfl, h⟩)
    (fun _ h hCancelled => ⟨hCancelled, h⟩)
    (fun _ _ => .onStore ?_)
    (fun _ _ _ h => h) (fun _ _ h => ⟨rfl, h.1⟩)
    (fun _ _ _ _ h => ⟨rfl, h.1⟩) ?_
  · intro s r store h _
    exact ⟨h.1.moveTo rfl _, h.1.endsWith _ _⟩
  · intro e s hNeeded h
    refine ⟨⟨_, h.2, if_neg ?_, rfl⟩, h.1⟩
    rw [Bool.and_eq_false_iff.mpr hNeeded]
    exact Bool.false_ne_true

/- The refresh label is dropped, or the run is cut off. -/
theorem clearRefreshLabel_ran
    {w : Work}
    (hUnretried : Unretried results) :
    Triple (Ran start results) (m.clearRefreshLabel w)
      (fun _ => Ran start results) (Halted start) := by
  refine m.clearRefreshLabel_triple
    (E := fun e => Halted start (.failed (.store e)))
    (fun _ h => h.resume) (fun _ _ h => h)
    (fun _ _ h hCancelled => h.cutOff hUnretried hCancelled)
    ?_ (fun _ _ rs h => h.reported rs) (fun _ _ h => h)
  intro _ _
  refine .onStore ?_
  intro s r store h _
  cases r with
  | ok _ => exact h.1.moveTo rfl _
  | error e => exact h.1.unwritten hUnretried rfl rfl rfl _

/-
  A run is closed: it returns the soonest of all delays, or
  fails with the step that asked for a retry.
-/
theorem close_answers
    {e : ChainEnd}
    {w : Work}
    (hRequeue : w.requeue = e.work.requeue) :
    Triple (Ended start e) (m.close e w)
      (fun d s =>
        ∃ results,
          Ran start results s ∧ Unretried results ∧
            d = Duration.soonestOf (requeues results))
      (Halted start) := by
  cases e with
  | completed w₀ =>
      refine .named (fun results => .assume ?_)
      rintro ⟨hUnretried, hSoonest⟩
      refine .bind
        (persistStatus_ran.mono (fun _ h => h)
          (fun _ _ h => h) (fun _ _ h => h.elim)) ?_
      intro r
      cases r with
      | error e =>
          exact .fail (fun _ h => h.2.cutOff hUnretried h.1)
      | ok w' =>
          refine .assume (fun hSame => ?_)
          have hAnswer :
              ∀ s,
                Ran start results s →
                  ∃ results,
                    Ran start results s ∧ Unretried results ∧
                      w'.requeue =
                        Duration.soonestOf
                          (requeues results) :=
            fun _ h =>
              ⟨results, h, hUnretried,
                (hSame.trans hRequeue).trans hSoonest⟩
          dsimp only
          split
          · exact .bind (clearRefreshLabel_ran hUnretried)
              (fun _ => .pure hAnswer)
          · exact .pure hAnswer
  | retry w₀ step requeue cause =>
      refine .named (fun results => .named (fun error =>
        .named (fun requeue? => .assume ?_)))
      rintro ⟨hUnretried, rfl, rfl⟩
      refine .bind
        (persistStatus_ran.mono (fun _ h => h)
          (fun _ _ h => h) (fun _ _ h => h.elim)) ?_
      intro r
      refine .fail ?_
      intro s h
      have hRan :
          Ran start
            (results ++
              [(step, .errorRetry error requeue?)]) s := by
        cases r with
        | ok _ => exact h.2
        | error _ => exact h.2
      exact ⟨_, hRan, .retried step error requeue? hUnretried⟩

/- The chain of a run and its close. -/
theorem afterApproach_answers
    (m : Manager μ)
    (start : Session μ)
    (c : Context)
    {w : Work}
    (hRequeue : w.requeue = .zero) :
    Triple (Ran start [])
      (do
        let e ← m.runChain c (m.order w.deleting) w
        let w ← m.sumUp e
        m.close e w)
      (fun d s =>
        ∃ results,
          Ran start results s ∧ Unretried results ∧
            d = Duration.soonestOf (requeues results))
      (Halted start) := by
  have hNone : Unretried [] := by
    simp [Unretried]
  refine .bind (runChain_ends hNone hRequeue) ?_
  intro e
  refine .bind sumUp_ended ?_
  intro w'
  exact .assume (fun hSame => close_answers hSame)

/-
  The three ways of a run: it does not come to its chain and
  executes nothing, it returns, or it halts.
-/
theorem reconcile_outcome
    (m : Manager μ)
    (k : Key)
    (start : Session μ) :
    ∃ results,
      Ran start results ((m.reconcile k).final start) ∧
        ((results = [] ∧
            ∀ c w mid,
              m.approach k start ≠ .ok (.ok (c, w)) mid) ∨
          (Unretried results ∧
            ∃ s,
              m.reconcile k start =
                .ok (Duration.soonestOf (requeues results))
                  s) ∨
          ∃ h s,
            m.reconcile k start = .error h s ∧
              HaltsAfter start s results h) := by
  have hReconcile := m.reconcile_eq_approach k
  unfold final
  cases hApproach : m.approach k start with
  | error h mid =>
      rw [hReconcile, bind_of_error hApproach]
      exact ⟨[], (approach_ran.of_error rfl hApproach).1,
        .inl ⟨rfl, fun _ _ _ hEq => (nomatch hEq)⟩⟩
  | ok r mid =>
      rcases approach_ran.of_ok rfl hApproach with
        ⟨hNone, hRan⟩
      rw [hReconcile, bind_of_ok hApproach]
      cases r with
      | error why =>
          refine ⟨[], hRan, .inl ⟨rfl, ?_⟩⟩
          intro c w mid' hEq
          cases hEq
      | ok r =>
          rcases r with ⟨c, w⟩
          have hRest :=
            m.afterApproach_answers start c (hNone c w rfl)
          dsimp only
          cases hRun :
              (do
                let e ← m.runChain c (m.order w.deleting) w
                let w ← m.sumUp e
                m.close e w : Engine μ Duration) mid with
          | ok d s =>
              rcases hRest.of_ok hRan hRun with
                ⟨results, hResults, hUnretried, rfl⟩
              exact ⟨results, hResults,
                .inr (.inl ⟨hUnretried, s, rfl⟩)⟩
          | error h s =>
              rcases hRest.of_error hRan hRun with
                ⟨results, hResults, hWhy⟩
              exact ⟨results, hResults,
                .inr (.inr ⟨h, s, rfl, hWhy⟩)⟩

/-
  A run that fails with an error of the store has just met
  it, in an operation that had to end it.
-/
theorem storeError_fatal
    {k : Key}
    {e : StoreError}
    (hRun :
      m.reconcile k start =
        .error (.failed (.store e)) s) :
    ∃ event,
      start.EndsWith event s ∧ event.fatal? = some e := by
  rw [m.reconcile_eq_approach] at hRun
  cases hApproach : m.approach k start with
  | error h mid =>
      rw [bind_of_error hApproach] at hRun
      cases hRun
      exact (approach_ran.of_error rfl hApproach).2 e rfl
  | ok r mid =>
      rw [bind_of_ok hApproach] at hRun
      cases r with
      | error why => cases hRun
      | ok r =>
          rcases r with ⟨c, w⟩
          rcases approach_ran.of_ok rfl hApproach with
            ⟨hNone, hRan⟩
          have hRest :=
            m.afterApproach_answers start c (hNone c w rfl)
          rcases hRest.of_error hRan hRun with
            ⟨results, _, hWhy⟩
          cases hWhy with
          | cutOff _ hCut =>
              rcases hCut with ⟨event, hEnds, hFatal, _⟩
              exact ⟨event, hEnds, hFatal⟩

end Running

/-
  What a reconcile returns.  If it comes to its chain and no
  step asks for a retry, it returns the least positive delay
  of all that the executed steps have asked for, in whatever
  order, or none if none is positive; unless it is cut off
  by a write that fails, by its cancellation, or by a panic.
  If a step asks for a retry, it fails with that step, with
  the delay of that step and with its error, whatever comes
  of the status write; unless the time cannot be told, which
  is a panic.
-/
theorem reconcile_answers
    (m : Manager μ)
    (k : Key)
    (start : Session μ) :
    ∃ new,
      ((m.reconcile k).final start).journal =
          start.journal ++ new ∧
        (∀ c w mid,
          m.approach k start = .ok (.ok (c, w)) mid →
            Unretried (Journal.executed new) →
              (∃ d s,
                m.reconcile k start = .ok d s ∧
                  Duration.LeastPositive
                    (requeues (Journal.executed new)) d ∧
                  ∀ ds,
                    ds.Perm
                        (requeues (Journal.executed new)) →
                      d = Duration.soonestOf ds) ∨
                ∃ h s,
                  m.reconcile k start = .error h s ∧
                    h.CutsOffAt start s) ∧
        ∀ step e requeue?,
          (step, .errorRetry e requeue?) ∈
              Journal.executed new →
            (∃ s,
              m.reconcile k start =
                .error
                  (.failed (.step step
                    (requeue?.getD .zero) e.failure)) s) ∨
              ∃ fault s,
                m.reconcile k start =
                    .error
                      (.panicked (.message fault.message)) s ∧
                  s.scene.clock.read = .error fault := by
  rcases reconcile_outcome m k start with
    ⟨results, ⟨new, hJournal, hResults⟩, hOutcome⟩
  refine ⟨new, hJournal, ?_, ?_⟩
  · intro c w mid hReached hUnretried
    rw [hResults] at hUnretried ⊢
    rcases hOutcome with
      ⟨_, hUnreached⟩ | ⟨_, s, hReturned⟩ |
        ⟨h, s, hHalted, hWhy⟩
    · exact absurd hReached (hUnreached c w mid)
    · exact .inl ⟨_, s, hReturned,
        Duration.leastPositive_soonestOf _,
        fun _ hPerm => (Duration.soonestOf_perm hPerm).symm⟩
    · refine .inr ⟨h, s, hHalted, ?_⟩
      cases hWhy with
      | cutOff _ hCut => exact hCut
      | retried step e requeue? _ =>
          exact absurd rfl
            (hUnretried (step, .errorRetry e requeue?)
              (by simp))
      | timeless _ _ _ _ _ => trivial
  · intro step e requeue? hMember
    rw [hResults] at hMember
    rcases hOutcome with
      ⟨hNone, _⟩ | ⟨hUnretried, _⟩ | ⟨h, s, hHalted, hWhy⟩
    · rw [hNone] at hMember
      cases hMember
    · exact absurd rfl (hUnretried _ hMember)
    · cases hWhy with
      | cutOff hUnretried _ =>
          exact absurd rfl (hUnretried _ hMember)
      | retried step' e' requeue?' hUnretried =>
          have hLast := hUnretried.last hMember rfl
          cases hLast
          exact .inl ⟨s, hHalted⟩
      | timeless step' e' requeue?' hUnretried hClock =>
          exact .inr ⟨_, s, hHalted, hClock⟩

/- A step that takes longer than any clock can show. -/
def overtimeStep : Step Unit where
  name := "step"
  process := fun _ o => do
    modify (Scene.advance (.ofSeconds 9000000000000))
    return (.retry (.plain "boom"), o)

/- A manager that keeps conditions, with this step. -/
def overtimeManager : Manager Unit where
  operator := "operator"
  controller := "controller"
  kind := "TestObject"
  steps := [overtimeStep]
  conditions := true
  scheduler := none
  hook := none
  reporter := .discarding
  policy := .standard
  readOnly := true
  trackLast := false

/- The key of an object. -/
def overtimeKey : Key :=
  .namespaced "default" "object"

/- A host with that object, at the start of 1970. -/
def overtimeStart : Session Unit where
  scene :=
    { store := Store.insert
        { kind := .full
          metadata := .fresh "default" "object"
          status := {} } {}
      clock := ⟨0⟩
      memory := () }

/-
  A run in which a step asks for a retry need not fail with
  that step: the time of its condition cannot be told any
  more, and that is a panic.
-/
theorem overtime_retry_lost :
    ¬ ∀ step e requeue?,
        (step, .errorRetry e requeue?) ∈
            Journal.executed
              ((overtimeManager.reconcile overtimeKey).final
                overtimeStart).journal →
          ∃ s,
            overtimeManager.reconcile overtimeKey
                overtimeStart =
              .error
                (.failed (.step step (requeue?.getD .zero)
                  e.failure)) s := by
  intro hFails
  have hExecuted :
      Journal.executed
          ((overtimeManager.reconcile overtimeKey).final
            overtimeStart).journal =
        [("step", .retry (.plain "boom"))] := by
    rfl
  have hPanics :
      (match overtimeManager.reconcile overtimeKey
          overtimeStart with
        | .error (.panicked _) _ => true
        | _ => false) = true := by
    decide +kernel
  rcases hFails "step" { failure := .plain "boom" } none
    (by rw [hExecuted]; exact List.mem_singleton.mpr rfl)
    with ⟨s, hRun⟩
  rw [hRun] at hPanics
  cases hPanics

end Manager

end Reconciler
