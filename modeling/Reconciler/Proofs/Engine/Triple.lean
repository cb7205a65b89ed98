import Reconciler.Engine.Session

/-
  This file defines triples, which say where a computation
  of the engine ends or halts if it starts where a
  precondition holds, and the rules for them.

  A run of the engine ends in three ways: with a result,
  with an error, or with a panic.  The last two are both
  halts, so a triple has one postcondition for results and
  one for halts.

  Key definitions include:
    * `Call.Within`
    * `Engine.Triple`
    * `Engine.Either`
    * `Engine.final`

  Key theorems include:
    * `Engine.Triple.bind`
    * `Engine.Triple.await`
    * `Engine.Triple.onStore`
    * `Session.resume_keeps`
-/

------------------------------------------------------------
-- Sessions
------------------------------------------------------------

namespace Reconciler

namespace Session

variable {μ : Type}

@[simp]
theorem note_scene
    (e : Event)
    (s : Session μ) :
    (s.note e).scene = s.scene :=
  rfl

@[simp]
theorem note_journal
    (e : Event)
    (s : Session μ) :
    (s.note e).journal = s.journal ++ [⟨e, s.scene⟩] :=
  rfl

@[simp]
theorem moveTo_scene
    (e : Event)
    (scene : Scene μ)
    (s : Session μ) :
    (s.moveTo e scene).scene = scene :=
  rfl

@[simp]
theorem moveTo_journal
    (e : Event)
    (scene : Scene μ)
    (s : Session μ) :
    (s.moveTo e scene).journal =
      s.journal ++ [⟨e, scene⟩] :=
  rfl

/- At a pause either nothing happens or one task runs. -/
theorem resume_cases
    (s : Session μ) :
    s.resume = s ∨
      ∃ change rest,
        s.others = change :: rest ∧
          s.resume =
            { s with others := rest }.moveTo .resumed
              (change s.scene) := by
  unfold Session.resume
  split
  · exact .inl rfl
  · next change rest hOthers =>
      exact .inr ⟨change, rest, hOthers, rfl⟩

/-
  What holds at a pause holds after it if it survives that
  some of the other tasks are gone and that one of them has
  run.
-/
theorem resume_keeps
    {P : Session μ → Prop}
    {s : Session μ}
    (hWaited :
      ∀ rest, rest ⊆ s.others → P { s with others := rest })
    (hResumed :
      ∀ change ∈ s.others, ∀ s', P s' →
        P (s'.moveTo .resumed (change s'.scene))) :
    P s.resume := by
  rcases s.resume_cases with
    hIdle | ⟨change, rest, hOthers, hRun⟩
  · rw [hIdle]
    exact hWaited s.others (List.Subset.refl _)
  · have hChange : change ∈ s.others := by
      rw [hOthers]
      exact List.mem_cons_self
    have hRest : rest ⊆ s.others := by
      rw [hOthers]
      exact List.subset_cons_self _ _
    rw [hRun]
    exact hResumed change hChange _ (hWaited rest hRest)

end Session

------------------------------------------------------------
-- Calls
------------------------------------------------------------

/-
  A call that relates the store that it finds to the store
  that it leaves, whichever way it ends.
-/
def Call.Within
    {μ α : Type}
    (R : Store → Store → Prop)
    (c : Call μ α) : Prop :=
  ∀ scene,
    match c scene with
    | .ok _ scene' => R scene.store scene'.store
    | .error _ scene' => R scene.store scene'.store

/- What is known of a call in two ways is known together. -/
theorem Call.Within.and
    {μ α : Type}
    {R R' : Store → Store → Prop}
    {c : Call μ α}
    (hWithin : c.Within R)
    (hWithin' : c.Within R') :
    c.Within (fun store store' =>
      R store store' ∧ R' store store') := by
  intro scene
  have hLeft := hWithin scene
  have hRight := hWithin' scene
  cases hRun : c scene with
  | ok a scene' =>
      rw [hRun] at hLeft hRight
      exact ⟨hLeft, hRight⟩
  | error interrupt scene' =>
      rw [hRun] at hLeft hRight
      exact ⟨hLeft, hRight⟩

------------------------------------------------------------
-- Triples
------------------------------------------------------------

namespace Engine

variable {μ α β : Type}

/-
  Started where the precondition holds, a computation ends
  where `Q` holds of its result, or halts where `H` holds of
  the reason.
-/
def Triple
    (P : Session μ → Prop)
    (x : Engine μ α)
    (Q : α → Session μ → Prop)
    (H : Halt → Session μ → Prop) : Prop :=
  ∀ s, P s →
    match x s with
    | .ok a s' => Q a s'
    | .error h s' => H h s'

/-
  A postcondition in two parts, one for good results and one
  for errors.
-/
def Either
    {ε : Type}
    (A : α → Session μ → Prop)
    (B : ε → Session μ → Prop) :
    Except ε α → Session μ → Prop
  | .ok a => A a
  | .error e => B e

/- The session in which a run ends, whichever way it ends. -/
def final
    (x : Engine μ α)
    (s : Session μ) : Session μ :=
  match x s with
  | .ok _ s' => s'
  | .error _ s' => s'

/- A computation goes on from where its first part ended. -/
theorem bind_of_ok
    {x : Engine μ α}
    {f : α → Engine μ β}
    {s s' : Session μ}
    {a : α}
    (hRun : x s = .ok a s') :
    (x >>= f) s = f a s' := by
  change EStateM.bind x f s = _
  unfold EStateM.bind
  rw [hRun]

/- A computation ends where its first part halted. -/
theorem bind_of_error
    {x : Engine μ α}
    {f : α → Engine μ β}
    {s s' : Session μ}
    {h : Halt}
    (hRun : x s = .error h s') :
    (x >>= f) s = .error h s' := by
  change EStateM.bind x f s = _
  unfold EStateM.bind
  rw [hRun]

/- A clock that can be read is read without a trace. -/
theorem now_of_read
    {s : Session μ}
    {t : Instant}
    (hRead : s.scene.clock.read = .ok t) :
    (Engine.now : Engine μ Instant) s = .ok t s := by
  have hGet : (get : Engine μ (Session μ)) s = .ok s s := rfl
  unfold Engine.now
  rw [bind_of_ok hGet, hRead]
  rfl

namespace Triple

variable {P M : Session μ → Prop}
variable {Q Q' : α → Session μ → Prop}
variable {R : β → Session μ → Prop}
variable {H H' : Halt → Session μ → Prop}

------------------------------------------------------------
-- Structural Rules
------------------------------------------------------------

/- What a triple says of a run that ends. -/
theorem of_ok
    {x : Engine μ α}
    (hTriple : Triple P x Q H)
    {s s' : Session μ}
    {a : α}
    (hPre : P s)
    (hRun : x s = .ok a s') :
    Q a s' := by
  have hPost := hTriple s hPre
  rw [hRun] at hPost
  exact hPost

/- What a triple says of a run that halts. -/
theorem of_error
    {x : Engine μ α}
    (hTriple : Triple P x Q H)
    {s s' : Session μ}
    {h : Halt}
    (hPre : P s)
    (hRun : x s = .error h s') :
    H h s' := by
  have hPost := hTriple s hPre
  rw [hRun] at hPost
  exact hPost

/- What a triple says of the end of a run either way. -/
theorem of_final
    {x : Engine μ α}
    {R : Session μ → Prop}
    (hTriple : Triple P x (fun _ => R) (fun _ => R))
    {s : Session μ}
    (hPre : P s) :
    R (x.final s) := by
  unfold final
  cases hRun : x s with
  | ok a s' => exact hTriple.of_ok hPre hRun
  | error h s' => exact hTriple.of_error hPre hRun

/- A triple from what it says of each way to end. -/
theorem of_runs
    {x : Engine μ α}
    (hOk :
      ∀ s a s', P s → x s = .ok a s' → Q a s')
    (hError :
      ∀ s h s', P s → x s = .error h s' → H h s') :
    Triple P x Q H := by
  intro s hPre
  cases hRun : x s with
  | ok a s' => exact hOk s a s' hPre hRun
  | error h s' => exact hError s h s' hPre hRun

/- A stronger precondition and weaker postconditions. -/
theorem mono
    {x : Engine μ α}
    (hTriple : Triple M x Q' H')
    (hPre : ∀ s, P s → M s)
    (hPost : ∀ a s, Q' a s → Q a s)
    (hHalt : ∀ h s, H' h s → H h s) :
    Triple P x Q H :=
  of_runs
    (fun _ a s' hP hRun =>
      hPost a s' (hTriple.of_ok (hPre _ hP) hRun))
    (fun _ h s' hP hRun =>
      hHalt h s' (hTriple.of_error (hPre _ hP) hRun))

/- Two triples of one computation hold together. -/
theorem and
    {x : Engine μ α}
    (hLeft : Triple P x Q H)
    (hRight : Triple M x Q' H') :
    Triple (fun s => P s ∧ M s) x
      (fun a s => Q a s ∧ Q' a s)
      (fun h s => H h s ∧ H' h s) :=
  of_runs
    (fun _ _ _ hPre hRun =>
      ⟨hLeft.of_ok hPre.1 hRun, hRight.of_ok hPre.2 hRun⟩)
    (fun _ _ _ hPre hRun =>
      ⟨hLeft.of_error hPre.1 hRun,
        hRight.of_error hPre.2 hRun⟩)

theorem pure
    {a : α}
    (hPost : ∀ s, P s → Q a s) :
    Triple P (Pure.pure a) Q H :=
  hPost

theorem bind
    {x : Engine μ α}
    {f : α → Engine μ β}
    (hFirst : Triple P x Q H)
    (hRest : ∀ a, Triple (Q a) (f a) R H) :
    Triple P (x >>= f) R H := by
  intro s hPre
  change match EStateM.bind x f s with
    | .ok a s' => R a s'
    | .error h s' => H h s'
  unfold EStateM.bind
  cases hRun : x s with
  | ok a s' =>
      exact hRest a s' (hFirst.of_ok hPre hRun)
  | error h s' => exact hFirst.of_error hPre hRun

theorem map
    {x : Engine μ α}
    {f : α → β}
    (hTriple : Triple P x (fun a => R (f a)) H) :
    Triple P (f <$> x) R H := by
  intro s hPre
  change match EStateM.map f x s with
    | .ok a s' => R a s'
    | .error h s' => H h s'
  unfold EStateM.map
  cases hRun : x s with
  | ok a s' => exact hTriple.of_ok hPre hRun
  | error h s' => exact hTriple.of_error hPre hRun

/- A value that the precondition asks for is given a name. -/
theorem named
    {ι : Type}
    {x : Engine μ α}
    {N : ι → Session μ → Prop}
    (hTriple : ∀ i, Triple (N i) x Q H) :
    Triple (fun s => ∃ i, N i s) x Q H := by
  rintro s ⟨i, hPre⟩
  exact hTriple i s hPre

/- A fact that does not depend on the session is set apart. -/
theorem assume
    {x : Engine μ α}
    {p : Prop}
    (hTriple : p → Triple P x Q H) :
    Triple (fun s => p ∧ P s) x Q H :=
  fun s hPre => hTriple hPre.1 s hPre.2

------------------------------------------------------------
-- Primitives
------------------------------------------------------------

theorem note
    {e : Event}
    {Q : Unit → Session μ → Prop}
    (hPost : ∀ s, P s → Q () (s.note e)) :
    Triple P (Engine.note e) Q H :=
  hPost

theorem fail
    {e : ReconcileError}
    (hHalt : ∀ s, P s → H (.failed e) s) :
    Triple P (Engine.fail e : Engine μ α) Q H :=
  hHalt

theorem halt
    {h : Halt}
    (hHalt : ∀ s, P s → H h s) :
    Triple P (throw h : Engine μ α) Q H :=
  hHalt

/- A change of the session that is always made. -/
theorem update
    {f : Session μ → Session μ}
    {Q : Unit → Session μ → Prop}
    (hPost : ∀ s, P s → Q () (f s)) :
    Triple P (modify f : Engine μ Unit) Q H :=
  hPost

/- The session itself, as it is. -/
theorem read
    {Q : Session μ → Session μ → Prop}
    (hPost : ∀ s, P s → Q s s) :
    Triple P (get : Engine μ (Session μ)) Q H :=
  hPost

/-
  The clock is read without a trace, or the run panics if it
  cannot be read.
-/
theorem clock
    {Q : Instant → Session μ → Prop}
    (hPost :
      ∀ t s, P s → s.scene.clock.read = .ok t → Q t s)
    (hPanic :
      ∀ fault s, P s →
        s.scene.clock.read = .error fault →
          H (.panicked (.message fault.message)) s) :
    Triple P (Engine.now : Engine μ Instant) Q H := by
  refine bind
    (read (Q := fun s s' => s' = s ∧ P s')
      (fun _ h => ⟨rfl, h⟩)) ?_
  intro s
  split
  · next t hRead =>
      refine pure ?_
      rintro _ ⟨rfl, hPre⟩
      exact hPost t _ hPre hRead
  · next fault hRead =>
      refine halt ?_
      rintro _ ⟨rfl, hPre⟩
      exact hPanic fault _ hPre hRead

/-
  A call ends at a moment of its own, whichever way it ends.
-/
theorem call
    {c : Call μ α}
    {Q : Option α → Session μ → Prop}
    (hDone :
      ∀ s a scene, P s → c s.scene = .ok a scene →
        Q (some a) (s.moveTo .returned scene))
    (hDropped :
      ∀ s scene, P s → c s.scene = .error .dropped scene →
        Q none (s.moveTo .returned scene.cancel))
    (hPanicked :
      ∀ s p scene, P s →
        c s.scene = .error (.panicked p) scene →
        H (.panicked p) (s.moveTo .returned scene)) :
    Triple P (Engine.call c) Q H := by
  intro s hPre
  unfold Engine.call
  cases hCall : c s.scene with
  | ok a scene => exact hDone s a scene hPre hCall
  | error interrupt scene =>
      cases interrupt with
      | dropped => exact hDropped s scene hPre hCall
      | panicked p => exact hPanicked s p scene hPre hCall

/- A call of which nothing is known but that it ends. -/
theorem call_ends
    {c : Call μ α}
    {Q : Option α → Session μ → Prop}
    (hPost :
      ∀ a s scene, P s → Q a (s.moveTo .returned scene))
    (hHalt :
      ∀ h s scene, P s → H h (s.moveTo .returned scene)) :
    Triple P (Engine.call c) Q H :=
  call
    (fun s a scene hPre _ => hPost (some a) s scene hPre)
    (fun s scene hPre _ => hPost none s scene.cancel hPre)
    (fun s _ scene hPre _ => hHalt _ s scene hPre)

/- A call of which is known what it does to the store. -/
theorem call_within
    {c : Call μ α}
    {R : Store → Store → Prop}
    {Q : Option α → Session μ → Prop}
    (hWithin : c.Within R)
    (hDone :
      ∀ s a scene, P s → c s.scene = .ok a scene →
        R s.scene.store scene.store →
          Q (some a) (s.moveTo .returned scene))
    (hDropped :
      ∀ s scene, P s → R s.scene.store scene.store →
        Q none (s.moveTo .returned scene))
    (hHalted :
      ∀ h s scene, P s → R s.scene.store scene.store →
        H h (s.moveTo .returned scene)) :
    Triple P (Engine.call c) Q H := by
  refine call ?_ ?_ ?_
  · intro s a scene hPre hCall
    have hStore := hWithin s.scene
    rw [hCall] at hStore
    exact hDone s a scene hPre hCall hStore
  · intro s scene hPre hCall
    have hStore := hWithin s.scene
    rw [hCall] at hStore
    exact hDropped s scene.cancel hPre hStore
  · intro s p scene hPre hCall
    have hStore := hWithin s.scene
    rw [hCall] at hStore
    exact hHalted _ s scene hPre hStore

/-
  An awaited operation starts after the other tasks have
  run, if the reconcile is not cancelled by then.
-/
theorem cancellable
    {op : Engine μ (Option α)}
    {Q : Option α → Session μ → Prop}
    (hResume : ∀ s, P s → M s.resume)
    (hCancelled :
      ∀ s, M s → s.scene.cancelled = true → Q none s)
    (hOp :
      Triple
        (fun s => M s ∧ s.scene.cancelled = false)
        op Q H) :
    Triple P (Engine.cancellable op) Q H := by
  refine bind (update (Q := fun _ => M) hResume) ?_
  intro _
  refine bind
    (Q := fun b s => M s ∧ s.scene.cancelled = b)
    (fun _ h => ⟨h, rfl⟩) ?_
  intro cancelled
  cases cancelled with
  | true => exact pure (fun s h => hCancelled s h.1 h.2)
  | false => exact hOp

/- A cancelled reconcile ends where it awaits something. -/
theorem await
    {op : Engine μ (Option α)}
    (hResume : ∀ s, P s → M s.resume)
    (hCancelled :
      ∀ s, M s → s.scene.cancelled = true →
        H (.failed .cancelled) s)
    (hOp :
      Triple
        (fun s => M s ∧ s.scene.cancelled = false) op
        (fun a s =>
          match a with
          | some a => Q a s
          | none => H (.failed .cancelled) s) H) :
    Triple P (Engine.await op) Q H := by
  refine bind (cancellable hResume hCancelled hOp) ?_
  intro a
  cases a with
  | some a => exact pure (fun _ h => h)
  | none => exact fail (fun _ h => h)

/- A store operation is noted with its result. -/
theorem onStore
    {op : Store → α × Store}
    {event : α → Event}
    (hPost :
      ∀ s a store, P s → op s.scene.store = (a, store) →
        Q a (s.moveTo (event a)
          { s.scene with store := store })) :
    Triple P (Engine.onStore op event) Q H :=
  fun s hPre => hPost s _ _ hPre rfl

end Triple

end Engine

end Reconciler
