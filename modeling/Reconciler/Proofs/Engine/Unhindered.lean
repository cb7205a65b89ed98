import Reconciler.Proofs.Engine.Chain

/-
  This file is about runs that nobody hinders.

  No failure is queued, the run is not cancelled, the clock
  can be read, and other tasks neither change that nor write
  objects.  Past the gate such a run puts the declared tokens
  on its live object, seeds the condition of the object and
  calls the hook; nothing but the hook can keep it from its
  chain.

  Key definitions include:
    * `Session.Lasting`
    * `Session.SilentSince`
    * `Scene.Clear`
    * `Session.Unhindered`
    * `Manager.Proceeds`
    * `Manager.enter`

  Key theorems include:
    * `Manager.upholdsClose_of_lasting`
    * `Manager.enter_reaches`
    * `Manager.enter_hooked`
-/

------------------------------------------------------------
-- Lasting Facts
------------------------------------------------------------

namespace Reconciler

variable {μ : Type}

/-
  What is lasting stays true whatever happens to a session,
  as facts about the past do.
-/
structure Session.Lasting
    (J : Session μ → Prop) : Prop where
  moved :
    ∀ {s} (e : Event) (scene : Scene μ),
      J s → J (s.moveTo e scene)
  aside :
    ∀ {s} (others : List (Scene μ → Scene μ))
        (reports : List Report) (draws : Nat),
      J s →
        J { s with
          others := others
          reports := reports
          draws := draws }

theorem Session.Lasting.resume
    {J : Session μ → Prop}
    {s : Session μ}
    (hLasting : Session.Lasting J)
    (hJ : J s) :
    J s.resume :=
  Session.resume_keeps
    (fun rest _ => hLasting.aside rest s.reports s.draws hJ)
    (fun change _ s' h =>
      hLasting.moved .resumed (change s'.scene) h)

/- Since a session these events have happened. -/
def Session.Since
    (start : Session μ)
    (Q : List Event → Prop)
    (s : Session μ) : Prop :=
  ∃ new,
    s.journal = start.journal ++ new ∧
      Q (Journal.events new)

/- What has happened once has happened for good. -/
theorem Session.lasting_since
    {Q : List Event → Prop}
    (start : Session μ)
    (hGrows : ∀ es e, Q es → Q (es ++ [e])) :
    Session.Lasting (start.Since Q) where
  moved := by
    rintro s e scene ⟨new, hJournal, hQ⟩
    refine ⟨new ++ [⟨e, scene⟩], by simp [hJournal], ?_⟩
    rw [Journal.events_append]
    exact hGrows _ e hQ
  aside := fun _ _ _ h => h

/- Whether an event is a patch or a status update. -/
def Event.isWrite : Event → Bool
  | .patched _ _ _ => true
  | .statusUpdated _ _ => true
  | _ => false

/- Since a session nothing has been written. -/
def Session.SilentSince
    (start s : Session μ) : Prop :=
  start.Since (fun es => ∀ e ∈ es, e.isWrite = false) s

theorem Session.SilentSince.refl
    (s : Session μ) :
    s.SilentSince s :=
  ⟨[], by simp, by simp [Journal.events]⟩

/- A moment in which nothing is written. -/
theorem Session.SilentSince.moveTo
    {start s : Session μ}
    {e : Event}
    (hSilent : start.SilentSince s)
    (hOther : e.isWrite = false)
    (scene : Scene μ) :
    start.SilentSince (s.moveTo e scene) := by
  rcases hSilent with ⟨new, hJournal, hNew⟩
  refine ⟨new ++ [⟨e, scene⟩], by simp [hJournal], ?_⟩
  rw [Journal.events_append]
  exact List.forall_mem_append.mpr
    ⟨hNew, List.forall_mem_singleton.mpr hOther⟩

namespace Manager

open Engine

variable {m : Manager μ}

/- Lasting facts are upheld by every part of a run. -/
theorem upholdsClose_of_lasting
    {J : Session μ → Prop}
    (hLasting : Session.Lasting J) :
    m.UpholdsClose (fun _ => J) J where
  edited := fun _ h => h
  reported := fun {_ s} rs h =>
    hLasting.aside s.others rs s.draws h
  drawn := fun {_ s} n h =>
    hLasting.aside s.others s.reports n h
  halts := fun h => h
  haltReported := fun {s} rs h =>
    hLasting.aside s.others rs s.draws h
  resumed := fun h => hLasting.resume h
  noted := fun {_ s e} _ h => hLasting.moved e s.scene h
  hooked := fun _ _ =>
    .call_ends (fun _ _ scene h => hLasting.moved _ scene h)
      (fun _ _ scene h => hLasting.moved _ scene h)
  processed := fun _ _ _ =>
    .call_ends (fun _ _ scene h => hLasting.moved _ scene h)
      (fun _ _ scene h => hLasting.moved _ scene h)
  finalized := fun _ _ _ =>
    .call_ends (fun _ _ scene h => hLasting.moved _ scene h)
      (fun _ _ scene h => hLasting.moved _ scene h)
  released := fun _ _ =>
    sendTokens_triple
      (fun _ _ _ h _ => hLasting.moved _ _ h.1)
      (fun _ _ _ h _ => hLasting.moved _ _ h.1)
  written := by
    intro c _ _
    refine .onStore ?_
    intro s r store h _
    cases r with
    | ok _ => exact hLasting.moved _ _ h.1
    | error _ => exact hLasting.moved _ _ h.1
  cleared := fun _ =>
    .onStore (fun _ _ _ h _ => hLasting.moved _ _ h.1)

end Manager

------------------------------------------------------------
-- Sessions that Nobody Hinders
------------------------------------------------------------

/-
  Nothing in a scene stands in the way of a run: no failure
  is queued, the run is not cancelled, and the clock can be
  read.
-/
structure Scene.Clear
    (scene : Scene μ) : Prop where
  quiet : scene.store.Quiet
  goes : scene.cancelled = false
  readable : ∃ now, scene.clock.read = .ok now

/- A store that queues no failure either. -/
theorem Scene.Clear.withStore
    {scene : Scene μ}
    {store : Store}
    (hClear : scene.Clear)
    (hQuiet : store.Quiet) :
    Scene.Clear { scene with store := store } :=
  { hClear with quiet := hQuiet }

/-
  Nobody hinders the runs of a host: nothing stands in their
  way, and other tasks leave it so and write no objects.
-/
structure Session.Unhindered
    (s : Session μ) : Prop where
  clear : s.scene.Clear
  undisturbed : s.Undisturbed
  clearing :
    ∀ change ∈ s.others, ∀ scene : Scene μ,
      scene.Clear → (change scene).Clear

namespace Session.Unhindered

variable {s : Session μ}

theorem moveTo
    {scene : Scene μ}
    (hUnhindered : s.Unhindered)
    (e : Event)
    (hClear : scene.Clear) :
    (s.moveTo e scene).Unhindered :=
  { hUnhindered with clear := hClear }

theorem resume
    (hUnhindered : s.Unhindered) :
    s.resume.Unhindered := by
  refine Session.resume_keeps ?_ ?_
  · intro rest hRest
    exact
      { clear := hUnhindered.clear
        undisturbed := fun change hMember =>
          hUnhindered.undisturbed change (hRest hMember)
        clearing := fun change hMember =>
          hUnhindered.clearing change (hRest hMember) }
  · intro change hChange s' h
    exact h.moveTo .resumed
      (hUnhindered.clearing change hChange _ h.clear)

/- A run that nobody hinders has not been cancelled. -/
theorem not_cancelled
    (hUnhindered : s.Unhindered)
    (hCancelled : s.scene.cancelled = true) :
    False := by
  rw [hUnhindered.clear.goes] at hCancelled
  cases hCancelled

/- Reports and draws hinder nobody. -/
theorem aside
    (hUnhindered : s.Unhindered)
    (rs : List Report)
    (n : Nat) :
    Session.Unhindered
      { s with reports := rs, draws := n } where
  clear := hUnhindered.clear
  undisturbed := hUnhindered.undisturbed
  clearing := hUnhindered.clearing

end Session.Unhindered

------------------------------------------------------------
-- Runs that Nobody Hinders
------------------------------------------------------------

namespace Manager

open Engine

/-
  A run that nobody hinders and whose copies mirror the
  stored object.
-/
structure Proceeds
    (k : Key)
    (o : Object)
    (w : Work)
    (s : Session μ) : Prop where
  mirrors : Mirrors k o w.toCopies s
  unhindered : s.Unhindered

section Proceeds

variable {m : Manager μ}
variable {k : Key}
variable {o : Object}
variable {w : Work}
variable {s : Session μ}
variable {J : Session μ → Prop}

theorem Proceeds.resume
    (hProceeds : Proceeds k o w s) :
    Proceeds k o w s.resume where
  mirrors := hProceeds.mirrors.resume
  unhindered := hProceeds.unhindered.resume

/- A fetch that nobody hinders leaves it so. -/
theorem fetch_unhindered
    (k : Key) :
    Triple (fun s : Session μ => s.Unhindered)
      (await (some <$> fetch k))
      (fun _ s => s.Unhindered) (fun _ _ => True) := by
  refine .await (fun _ h => h.resume)
    (fun _ _ _ => trivial) (.map (.onStore ?_))
  intro s r store h hRun
  have hQuiet := h.1.clear.quiet.afterGet k
  rw [hRun] at hQuiet
  exact h.1.moveTo _ (h.1.clear.withStore hQuiet)

/- A patch of other tokens cannot fail on a live object. -/
theorem Proceeds.sendTokens
    {new : List String}
    (hLasting : Session.Lasting J)
    (hKey : o.key = k)
    (hLive : o.isDeleting = false)
    (hChanged : new ≠ w.obj.metadata.finalizers) :
    Triple (fun s => Proceeds k o w s ∧ J s)
      (Engine.sendTokens { w.toCopies with
        obj := w.obj.withFinalizers new })
      (fun r s =>
        match r.1 with
        | .ok _ =>
            Proceeds k o { w with toCopies := r.2 } s ∧ J s
        | .error _ => False)
      (fun _ _ => False) := by
  refine sendTokens_triple ?_ ?_
  · rintro s stored store ⟨hProceeds, hJ⟩ hRun
    rcases hProceeds.mirrors.patch_cases hKey hChanged
      hRun with ⟨_, hError, _⟩ | ⟨_, hOk, _, hMoved⟩
    · cases hError
    · cases hOk
      have hQuiet :=
        hProceeds.unhindered.clear.quiet.afterPatch
          (w.snapshot.withFinalizers new) w.snapshot
      have hStore :
          (Store.patch (w.snapshot.withFinalizers new)
            w.snapshot s.scene.store).2 = store :=
        congrArg Prod.snd hRun
      rw [hStore] at hQuiet
      have hClear :=
        hProceeds.unhindered.clear.withStore hQuiet
      exact
        ⟨{ mirrors := hMoved _
           unhindered :=
            hProceeds.unhindered.moveTo _ hClear },
          hLasting.moved _ _ hJ⟩
  · rintro s e store ⟨hProceeds, hJ⟩ hRun
    rcases hProceeds.mirrors.patch_cases hKey hChanged
      hRun with ⟨_, _, _, hQueued⟩ | ⟨_, hOk, _⟩
    · refine hQueued ?_ hProceeds.unhindered.clear.quiet.patch
      cases hProceeds.mirrors.holds with
      | stored _ hStored =>
          rw [hStored]
          rfl
      | gone hDeleting _ _ =>
          rw [hLive] at hDeleting
          cases hDeleting
    · cases hOk

/- The declared tokens are put on a live object. -/
theorem ensureTokens_proceeds
    (hLasting : Session.Lasting J)
    (hKey : o.key = k)
    (hLive : o.isDeleting = false) :
    Triple (fun s => Proceeds k o w s ∧ J s)
      (m.ensureTokens w)
      (fun w' s => Proceeds k o w' s ∧ J s)
      (fun _ _ => False) := by
  apply m.ensureTokens_triple (E := fun _ => False)
  · exact fun _ h => ⟨h.1.resume, hLasting.resume h.2⟩
  · intro s h hCancelled
    exact (h.1.unhindered.not_cancelled hCancelled).elim
  · exact fun _ _ h => h
  · exact fun _ _ h => h
  · exact fun _ h _ => h
  · intro _ _ hMissing
    rcases List.exists_mem_of_ne_nil _ hMissing with
      ⟨token, hToken⟩
    have hNew := ((Tokens.mem_missing _ _ token).mp hToken).2
    rw [Tokens.addAll_eq]
    exact (Proceeds.sendTokens hLasting hKey hLive
      (Tokens.merged_ne hToken hNew)).mono
        (fun _ h => h.1) (fun _ _ h => h) (fun _ _ h => h)

/- A condition is seeded without a panic. -/
theorem seedCondition_proceeds
    {type : String}
    {seed :
      Instant → Metadata → List Condition →
        List Condition} :
    Triple (fun s => Proceeds k o w s ∧ J s)
      (m.seedCondition type seed w)
      (fun w' s => Proceeds k o w' s ∧ J s)
      (fun _ _ => False) := by
  apply m.seedCondition_triple
  · exact fun _ h _ => h
  · intro _
    apply m.updateConditions_clock
    · intro t s h _ _
      exact ⟨{ h.1 with mirrors := h.1.mirrors.handed rfl },
        h.2⟩
    · exact fun _ h _ => h
    · intro fault s h hFault
      rcases h.1.unhindered.clear.readable with
        ⟨now, hRead⟩
      rw [hRead] at hFault
      cases hFault

end Proceeds

------------------------------------------------------------
-- The Way to the Chain
------------------------------------------------------------

/- From the gate to the chain. -/
def enter
    (m : Manager μ)
    (c : Context)
    (w : Work) :
    Engine μ (Except EarlyEnd (Context × Work)) := do
  let w ← m.ensureTokens w
  let w ← m.seedCondition readyType Conditions.seedReady w
  match ← m.prepare c w with
  | none => return .error .refused
  | some c => return .ok (c, w)

/-
  A hook that always hands back a context for the context of
  a reconcile.
-/
def HookSucceeds
    (m : Manager μ)
    (k : Key) : Prop :=
  ∀ hook, m.hook = some hook →
    ∀ o scene, ∃ c scene',
      hook (m.context k) o scene = .ok (.ok c) scene'

section Enter

variable {m : Manager μ}
variable {k : Key}
variable {o : Object}
variable {w : Work}
variable {start : Session μ}

/-
  Nothing but the hook keeps a run that nobody hinders from
  its chain.
-/
theorem enter_reaches
    (hKey : o.key = k)
    (hLive : o.isDeleting = false)
    (hHook : m.HookSucceeds k) :
    Triple (Proceeds k o w) (m.enter (m.context k) w)
      (fun r _ => ∃ c w', r = .ok (c, w'))
      (fun _ _ => False) := by
  have hLasting :
      Session.Lasting (fun _ : Session μ => True) :=
    ⟨fun _ _ _ => trivial, fun _ _ _ _ => trivial⟩
  refine .bind
    ((ensureTokens_proceeds hLasting hKey hLive).mono
      (fun _ h => ⟨h, trivial⟩) (fun _ _ h => h)
      (fun _ _ h => h)) ?_
  intro armed
  refine .bind seedCondition_proceeds ?_
  intro seeded
  refine .bind (Q := fun r _ => ∃ c, r = some c) ?_ ?_
  · unfold prepare
    split
    · exact .pure (fun _ _ => ⟨_, rfl⟩)
    · next hook hSome =>
        refine .bind
          (Q := fun r _ => ∃ c, r = .ok c)
          (.await (M := Proceeds k o seeded)
            (fun _ h => h.1.resume) ?_ ?_) ?_
        · intro s h hCancelled
          exact (h.unhindered.not_cancelled hCancelled).elim
        · refine .bind (Q := fun _ _ => True)
            (.note (fun _ _ => trivial)) ?_
          intro _
          refine .call ?_ ?_ ?_
          · intro s r scene _ hRun
            rcases hHook hook hSome seeded.obj s.scene with
              ⟨c, scene', hOk⟩
            rw [hOk] at hRun
            cases hRun
            exact ⟨c, rfl⟩
          · intro s scene _ hRun
            rcases hHook hook hSome seeded.obj s.scene with
              ⟨c, scene', hOk⟩
            rw [hOk] at hRun
            cases hRun
          · intro s p scene _ hRun
            rcases hHook hook hSome seeded.obj s.scene with
              ⟨c, scene', hOk⟩
            rw [hOk] at hRun
            cases hRun
        · rintro r s ⟨c, rfl⟩
          exact ⟨c, rfl⟩
  · rintro r s ⟨c, rfl⟩
    exact ⟨c, seeded, rfl⟩

/- The hook has been called since a session. -/
def HookedSince
    (start s : Session μ) : Prop :=
  start.Since (.hookCalled ∈ ·) s

theorem lasting_hookedSince
    (start : Session μ) :
    Session.Lasting (HookedSince start) :=
  start.lasting_since
    (fun _ _ h => List.mem_append_left _ h)

/- The hook is called, if there is one. -/
theorem prepare_hooked
    {c : Context} :
    Triple
      (fun s => Proceeds k o w s ∧ start.Since (fun _ => True) s)
      (m.prepare c w)
      (fun _ s => m.hook.isSome = true → HookedSince start s)
      (fun _ s => m.hook.isSome = true → HookedSince start s) := by
  have hLasting := lasting_hookedSince start
  have hGrows : Session.Lasting (start.Since (fun _ => True)) :=
    start.lasting_since (fun _ _ _ => trivial)
  unfold prepare
  split
  · next hNone =>
      refine .pure ?_
      intro s _ hSome
      rw [hNone] at hSome
      cases hSome
  · next hook hSome =>
      refine .bind (Q := fun _ => HookedSince start) ?_ ?_
      · refine .await
          (M := fun s =>
            Proceeds k o w s ∧ start.Since (fun _ => True) s)
          ?_ ?_ ?_
        · exact fun _ h => ⟨h.1.resume, hGrows.resume h.2⟩
        · intro s h hCancelled
          exact (h.1.unhindered.not_cancelled hCancelled).elim
        · refine .bind
            (.note (Q := fun _ => HookedSince start) ?_) ?_
          · rintro s ⟨⟨_, new, hJournal, _⟩, _⟩
            refine ⟨new ++ [⟨.hookCalled, s.scene⟩],
              by simp [hJournal], ?_⟩
            rw [Journal.events_append]
            exact List.mem_append_right _
              List.mem_cons_self
          · intro _
            refine .call_ends ?_ ?_
            · intro a s scene h
              have hMoved := hLasting.moved .returned scene h
              cases a with
              | some _ => exact hMoved
              | none => exact fun _ => hMoved
            · exact fun _ _ scene h _ =>
                hLasting.moved .returned scene h
      · intro r
        cases r with
        | ok c => exact .pure (fun _ h _ => h)
        | error e =>
            have hEnd :
                Triple (HookedSince start)
                  (if e.retry then
                    fail (.prepare e.failure)
                  else return none : Engine μ (Option Context))
                  (fun _ s =>
                    m.hook.isSome = true →
                      HookedSince start s)
                  (fun _ s =>
                    m.hook.isSome = true →
                      HookedSince start s) := by
              split
              · exact .fail (fun _ h _ => h)
              · exact .pure (fun _ h _ => h)
            dsimp only
            split
            · exact .bind
                (m.report_triple _ _ _
                  (fun s rs h =>
                    hLasting.aside s.others rs s.draws h))
                (fun _ => hEnd)
            · exact hEnd

end Enter

end Manager

end Reconciler
