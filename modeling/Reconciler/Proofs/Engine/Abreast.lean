import Reconciler.Proofs.Engine.Journal
import Mathlib.Data.List.Forall2

/-
  This file compares two computations of the engine that run
  side by side.

  The two sessions may remember different things, and their
  stores may differ.  Scenes are alike if clocks agree and
  what is remembered is related; calls are alike if they
  cannot tell such scenes apart.  Two computations go
  abreast if they end in the same way, or halt for the same
  reason.

  Key definitions include:
    * `Scene.Like`
    * `Call.Like`
    * `Call.Agrees`
    * `Session.Like`
    * `Engine.Abreast`

  Key theorems include:
    * `Session.Like.resume`
    * `Engine.Abreast.bind`
    * `Engine.Abreast.call`
    * `Engine.Abreast.await`
    * `Engine.Abreast.right`
    * `Engine.Abreast.bindAgreeing`
    * `Engine.Abreast.awaitTogether`
    * `Engine.Abreast.callTogether`
-/

------------------------------------------------------------
-- Scenes that are Alike
------------------------------------------------------------

namespace Reconciler

variable {μ ν α β γ δ : Type}

/-
  Two scenes that only their stores can tell apart, of which
  neither is cancelled.
-/
structure Scene.Like
    (V : μ → ν → Prop)
    (a : Scene μ)
    (b : Scene ν) : Prop where
  clock : a.clock = b.clock
  goesLeft : a.cancelled = false
  goesRight : b.cancelled = false
  memory : V a.memory b.memory

variable {V : μ → ν → Prop}

/- Neither store matters. -/
theorem Scene.Like.withStores
    {a : Scene μ}
    {b : Scene ν}
    (hLike : a.Like V b)
    (left right : Store) :
    Scene.Like V { a with store := left }
      { b with store := right } :=
  { hLike with }

/- Two calls that end in the same way, in scenes alike. -/
inductive Call.Ends
    (V : μ → ν → Prop)
    (R : α → β → Prop) :
    EStateM.Result Interrupt (Scene μ) α →
      EStateM.Result Interrupt (Scene ν) β → Prop where
  | done
      {r : α}
      {r' : β}
      {a : Scene μ}
      {b : Scene ν}
      (hResult : R r r')
      (hScenes : a.Like V b) :
      Ends V R (.ok r a) (.ok r' b)
  | panicked
      {p : Panic}
      {a : Scene μ}
      {b : Scene ν}
      (hScenes : a.Like V b) :
      Ends V R (.error (.panicked p) a)
        (.error (.panicked p) b)

/- Two calls that cannot tell scenes apart. -/
def Call.Like
    (V : μ → ν → Prop)
    (R : α → β → Prop)
    (x : Call μ α)
    (y : Call ν β) : Prop :=
  ∀ a b, a.Like V b → Call.Ends V R (x a) (y b)

/-
  Two calls that end in the same way, after which either
  both runs are cancelled or none is.
-/
inductive Call.Matches
    (R : α → β → Prop) :
    EStateM.Result Interrupt (Scene μ) α →
      EStateM.Result Interrupt (Scene ν) β → Prop where
  | done
      {r : α}
      {r' : β}
      {a : Scene μ}
      {b : Scene ν}
      (hResult : R r r')
      (hFlag : b.cancelled = a.cancelled) :
      Matches R (.ok r a) (.ok r' b)
  | dropped
      {a : Scene μ}
      {b : Scene ν} :
      Matches R (.error .dropped a) (.error .dropped b)
  | panicked
      {p : Panic}
      {a : Scene μ}
      {b : Scene ν}
      (hFlag : b.cancelled = a.cancelled) :
      Matches R (.error (.panicked p) a)
        (.error (.panicked p) b)

/- Two calls that see of a scene only clock and flag. -/
def Call.Agrees
    (R : α → β → Prop)
    (x : Call μ α)
    (y : Call ν β) : Prop :=
  ∀ a b,
    b.clock = a.clock → b.cancelled = a.cancelled →
      Call.Matches R (x a) (y b)

/- Two other tasks that keep scenes alike. -/
def Scene.LikeChanges
    (V : μ → ν → Prop)
    (f : Scene μ → Scene μ)
    (g : Scene ν → Scene ν) : Prop :=
  ∀ a b, a.Like V b → (f a).Like V (g b)

/- Two sessions that stay alike whoever else runs. -/
structure Session.Like
    (V : μ → ν → Prop)
    (s : Session μ)
    (t : Session ν) : Prop where
  scenes : s.scene.Like V t.scene
  others :
    List.Forall₂ (Scene.LikeChanges V) s.others t.others

namespace Session.Like

variable {s : Session μ}
variable {t : Session ν}

/- Another event at scenes alike. -/
theorem moveTo
    {a : Scene μ}
    {b : Scene ν}
    (hLike : s.Like V t)
    (e e' : Event)
    (hScenes : a.Like V b) :
    (s.moveTo e a).Like V (t.moveTo e' b) where
  scenes := hScenes
  others := hLike.others

/- Another event on the right, at a scene still alike. -/
theorem moveRight
    {b : Scene ν}
    (hLike : s.Like V t)
    (e : Event)
    (hScenes : s.scene.Like V b) :
    s.Like V (t.moveTo e b) where
  scenes := hScenes
  others := hLike.others

/-
  At a pause of both sessions nothing happens, or two tasks
  run that keep them alike.
-/
theorem resume_cases
    (hLike : s.Like V t) :
    (s.resume = s ∧ t.resume = t) ∨
      ∃ (a : Scene μ) (b : Scene ν) (left : List _)
        (right : List _),
        s.resume =
            { s with others := left }.moveTo .resumed a ∧
          t.resume =
            { t with others := right }.moveTo .resumed b ∧
          a.Like V b ∧
          List.Forall₂ (Scene.LikeChanges V) left right := by
  rcases s with ⟨scene, others, journal, reports, draws⟩
  rcases t with ⟨scene', others', journal', reports', draws'⟩
  rcases hLike with ⟨hScenes, hOthers⟩
  cases hOthers with
  | nil => exact .inl ⟨rfl, rfl⟩
  | cons hFirst hRest =>
      exact .inr ⟨_, _, _, _, rfl, rfl, hFirst _ _ hScenes,
        hRest⟩

theorem resume
    (hLike : s.Like V t) :
    s.resume.Like V t.resume := by
  rcases hLike.resume_cases with
    ⟨hLeft, hRight⟩ | ⟨a, b, left, right, hLeft, hRight,
      hScenes, hOthers⟩
  · rw [hLeft, hRight]
    exact hLike
  · rw [hLeft, hRight]
    exact ⟨hScenes, hOthers⟩

end Session.Like

------------------------------------------------------------
-- Computations Abreast
------------------------------------------------------------

namespace Engine

/- Two runs that end together, or halt for one reason. -/
inductive Meets
    (Q : α → β → Session μ → Session ν → Prop)
    (H : Session μ → Session ν → Prop) :
    EStateM.Result Halt (Session μ) α →
      EStateM.Result Halt (Session ν) β → Prop where
  | ended
      {a : α}
      {b : β}
      {s : Session μ}
      {t : Session ν}
      (hPost : Q a b s t) :
      Meets Q H (.ok a s) (.ok b t)
  | halted
      {h : Halt}
      {s : Session μ}
      {t : Session ν}
      (hHalt : H s t) :
      Meets Q H (.error h s) (.error h t)

/-
  Started where the precondition holds, two computations end
  where `Q` holds of their results, or halt for the same
  reason where `H` holds.
-/
def Abreast
    (P : Session μ → Session ν → Prop)
    (x : Engine μ α)
    (y : Engine ν β)
    (Q : α → β → Session μ → Session ν → Prop)
    (H : Session μ → Session ν → Prop) : Prop :=
  ∀ s t, P s t → Meets Q H (x s) (y t)

/- Two results that are both there. -/
def Both
    (Q : α → β → Session μ → Session ν → Prop) :
    Option α → Option β → Session μ → Session ν → Prop
  | some a, some b => Q a b
  | _, _ => fun _ _ => False

/- Two results that are both there, or both not. -/
def Together
    (Q : α → β → Session μ → Session ν → Prop)
    (E : Session μ → Session ν → Prop) :
    Option α → Option β → Session μ → Session ν → Prop
  | some a, some b => Q a b
  | none, none => E
  | _, _ => fun _ _ => False

/- Two successes, or the same error twice. -/
def Agreeing
    {ε : Type}
    (Q : α → β → Session μ → Session ν → Prop)
    (E : ε → Session μ → Session ν → Prop) :
    Except ε α → Except ε β →
      Session μ → Session ν → Prop
  | .ok a, .ok b => Q a b
  | .error e, .error e' => fun s t => e' = e ∧ E e s t
  | _, _ => fun _ _ => False

namespace Abreast

variable {P M : Session μ → Session ν → Prop}
variable {Q Q' : α → β → Session μ → Session ν → Prop}
variable {R : γ → δ → Session μ → Session ν → Prop}
variable {H H' : Session μ → Session ν → Prop}
variable {x : Engine μ α}
variable {y : Engine ν β}

theorem pure
    {a : α}
    {b : β}
    (hPost : ∀ s t, P s t → Q a b s t) :
    Abreast P (Pure.pure a) (Pure.pure b) Q H :=
  fun s t hPre => .ended (hPost s t hPre)

theorem bind
    {f : α → Engine μ γ}
    {g : β → Engine ν δ}
    (hFirst : Abreast P x y Q H)
    (hRest : ∀ a b, Abreast (Q a b) (f a) (g b) R H) :
    Abreast P (x >>= f) (y >>= g) R H := by
  intro s t hPre
  have hMeets := hFirst s t hPre
  cases hLeft : x s with
  | ok a s' =>
      cases hRight : y t with
      | ok b t' =>
          rw [hLeft, hRight] at hMeets
          rw [bind_of_ok hLeft, bind_of_ok hRight]
          cases hMeets with
          | ended hPost => exact hRest a b s' t' hPost
      | error h t' =>
          rw [hLeft, hRight] at hMeets
          cases hMeets
  | error h s' =>
      cases hRight : y t with
      | ok b t' =>
          rw [hLeft, hRight] at hMeets
          cases hMeets
      | error h' t' =>
          rw [hLeft, hRight] at hMeets
          rw [bind_of_error hLeft, bind_of_error hRight]
          cases hMeets with
          | halted hHalt => exact .halted hHalt

/- A stronger precondition and weaker postconditions. -/
theorem mono
    (hAbreast : Abreast M x y Q' H')
    (hPre : ∀ s t, P s t → M s t)
    (hPost : ∀ a b s t, Q' a b s t → Q a b s t)
    (hHalt : ∀ s t, H' s t → H s t) :
    Abreast P x y Q H := by
  intro s t h
  have hMeets := hAbreast s t (hPre s t h)
  revert hMeets
  generalize x s = left
  generalize y t = right
  intro hMeets
  cases hMeets with
  | ended hEnd => exact .ended (hPost _ _ _ _ hEnd)
  | halted hEnd => exact .halted (hHalt _ _ hEnd)

theorem map
    {f : α → γ}
    {g : β → δ}
    (hAbreast :
      Abreast P x y (fun a b => R (f a) (g b)) H) :
    Abreast P (f <$> x) (g <$> y) R H := by
  rw [map_eq_pure_bind, map_eq_pure_bind]
  exact hAbreast.bind (fun _ _ => .pure (fun _ _ h => h))

/- What holds of both ends, whichever way the runs end. -/
theorem of_final
    {R : Session μ → Session ν → Prop}
    (hAbreast : Abreast P x y (fun _ _ => R) R)
    {s : Session μ}
    {t : Session ν}
    (hPre : P s t) :
    R (x.final s) (y.final t) := by
  have hMeets := hAbreast s t hPre
  unfold final
  revert hMeets
  generalize x s = left
  generalize y t = right
  intro hMeets
  cases hMeets with
  | ended hPost => exact hPost
  | halted hHalt => exact hHalt

/- What does not depend on the sessions is known before. -/
theorem fact
    {p : Prop}
    (hFact : ∀ s t, P s t → p)
    (hAbreast : p → Abreast P x y Q H) :
    Abreast P x y Q H :=
  fun s t hPre => hAbreast (hFact s t hPre) s t hPre

/- A value that the precondition asks for is given a name. -/
theorem named
    {ι : Type}
    {N : ι → Session μ → Session ν → Prop}
    (hAbreast : ∀ i, Abreast (N i) x y Q H) :
    Abreast (fun s t => ∃ i, N i s t) x y Q H := by
  rintro s t ⟨i, hPre⟩
  exact hAbreast i s t hPre

/- A fact that does not depend on the sessions is set apart. -/
theorem assume
    {p : Prop}
    (hAbreast : p → Abreast P x y Q H) :
    Abreast (fun s t => p ∧ P s t) x y Q H :=
  fun s t hPre => hAbreast hPre.1 s t hPre.2

------------------------------------------------------------
-- Primitives
------------------------------------------------------------

theorem note
    {e e' : Event}
    {Q : Unit → Unit → Session μ → Session ν → Prop}
    (hPost :
      ∀ s t, P s t → Q () () (s.note e) (t.note e')) :
    Abreast P (Engine.note e) (Engine.note e') Q H :=
  fun s t hPre => .ended (hPost s t hPre)

/- Both fail with the same error. -/
theorem fail
    {e : ReconcileError}
    (hHalt : ∀ s t, P s t → H s t) :
    Abreast P (Engine.fail e : Engine μ α)
      (Engine.fail e : Engine ν β) Q H :=
  fun s t hPre => .halted (hHalt s t hPre)

theorem halt
    {h : Halt}
    (hHalt : ∀ s t, P s t → H s t) :
    Abreast P (throw h : Engine μ α)
      (throw h : Engine ν β) Q H :=
  fun s t hPre => .halted (hHalt s t hPre)

theorem update
    {f : Session μ → Session μ}
    {g : Session ν → Session ν}
    {Q : Unit → Unit → Session μ → Session ν → Prop}
    (hPost : ∀ s t, P s t → Q () () (f s) (g t)) :
    Abreast P (modify f : Engine μ Unit)
      (modify g : Engine ν Unit) Q H :=
  fun s t hPre => .ended (hPost s t hPre)

theorem read
    {Q :
      Session μ → Session ν → Session μ → Session ν → Prop}
    (hPost : ∀ s t, P s t → Q s t s t) :
    Abreast P (get : Engine μ (Session μ))
      (get : Engine ν (Session ν)) Q H :=
  fun s t hPre => .ended (hPost s t hPre)

/- Clocks that agree show the same time, or none. -/
theorem clock
    {Q : Instant → Instant → Session μ → Session ν → Prop}
    (hClocks :
      ∀ s t, P s t → s.scene.clock = t.scene.clock)
    (hPost : ∀ i s t, P s t → Q i i s t)
    (hHalt : ∀ s t, P s t → H s t) :
    Abreast P (Engine.now : Engine μ Instant)
      (Engine.now : Engine ν Instant) Q H := by
  refine bind
    (read (Q := fun s t s' t' =>
      s.scene.clock = t.scene.clock ∧ P s' t')
      (fun s t h => ⟨hClocks s t h, h⟩)) ?_
  intro s t
  refine assume ?_
  intro hSame
  rw [hSame]
  split
  · exact pure (hPost _)
  · exact halt hHalt

/- Calls that are alike, at scenes alike. -/
theorem call
    {S : α → β → Prop}
    {c : Call μ α}
    {d : Call ν β}
    {Q :
      Option α → Option β → Session μ → Session ν → Prop}
    (hLike : Call.Like V S c d)
    (hScenes : ∀ s t, P s t → s.scene.Like V t.scene)
    (hDone :
      ∀ s t r r' a b, P s t →
        c s.scene = .ok r a → d t.scene = .ok r' b →
          S r r' → a.Like V b →
            Q (some r) (some r') (s.moveTo .returned a)
              (t.moveTo .returned b))
    (hPanicked :
      ∀ s t a b, P s t → a.Like V b →
        H (s.moveTo .returned a) (t.moveTo .returned b)) :
    Abreast P (Engine.call c) (Engine.call d) Q H := by
  intro s t hPre
  have hEnds := hLike _ _ (hScenes s t hPre)
  unfold Engine.call
  cases hLeft : c s.scene with
  | ok r a =>
      cases hRight : d t.scene with
      | ok r' b =>
          rw [hLeft, hRight] at hEnds
          cases hEnds with
          | done hResult hAfter =>
              exact .ended (hDone s t r r' a b hPre hLeft
                hRight hResult hAfter)
      | error i b =>
          rw [hLeft, hRight] at hEnds
          cases hEnds
  | error i a =>
      cases hRight : d t.scene with
      | ok r' b =>
          rw [hLeft, hRight] at hEnds
          cases hEnds
      | error i' b =>
          rw [hLeft, hRight] at hEnds
          cases hEnds with
          | panicked hAfter =>
              exact .halted (hPanicked s t a b hPre hAfter)

/- Both await something, and neither is cancelled. -/
theorem await
    {op : Engine μ (Option α)}
    {op' : Engine ν (Option β)}
    (hResume : ∀ s t, P s t → M s.resume t.resume)
    (hScenes : ∀ s t, M s t → s.scene.Like V t.scene)
    (hOp : Abreast M op op' (Both Q) H) :
    Abreast P (Engine.await op) (Engine.await op') Q H := by
  have hStarted :
      Abreast P (Engine.cancellable op)
        (Engine.cancellable op') (Both Q) H := by
    refine bind (update (Q := fun _ _ => M) hResume) ?_
    intro _ _
    refine bind
      (Q := fun b b' s t =>
        (b = false ∧ b' = false) ∧ M s t) ?_ ?_
    · intro s t hMid
      exact .ended
        ⟨⟨(hScenes s t hMid).goesLeft,
          (hScenes s t hMid).goesRight⟩, hMid⟩
    · intro b b'
      refine assume ?_
      rintro ⟨rfl, rfl⟩
      exact hOp
  refine bind hStarted ?_
  intro a b
  cases a with
  | none => exact fun _ _ h => h.elim
  | some a =>
      cases b with
      | none => exact fun _ _ h => h.elim
      | some b => exact pure (fun _ _ h => h)

/- Both make a store operation. -/
theorem onStore
    {op : Store → α × Store}
    {op' : Store → β × Store}
    {event : α → Event}
    {event' : β → Event}
    (hPost :
      ∀ s t a b left right, P s t →
        op s.scene.store = (a, left) →
          op' t.scene.store = (b, right) →
            Q a b
              (s.moveTo (event a)
                { s.scene with store := left })
              (t.moveTo (event' b)
                { t.scene with store := right })) :
    Abreast P (Engine.onStore op event)
      (Engine.onStore op' event') Q H :=
  fun s t hPre => .ended (hPost s t _ _ _ _ hPre rfl rfl)

/- One computation goes on while the other has ended. -/
theorem right
    {a : α}
    (hRight :
      ∀ s, Triple (P s) y (fun b => Q a b s)
        (fun _ _ => False)) :
    Abreast P (Pure.pure a) y Q H := by
  intro s t hPre
  have hEnd := hRight s t hPre
  change Meets Q H (.ok a s) (y t)
  cases hRun : y t with
  | ok b t' =>
      rw [hRun] at hEnd
      exact .ended hEnd
  | error h t' =>
      rw [hRun] at hEnd
      exact hEnd.elim

------------------------------------------------------------
-- Computations that End Together
------------------------------------------------------------

/- Two computations go on from results that go together. -/
theorem bindTogether
    {x : Engine μ (Option α)}
    {y : Engine ν (Option β)}
    {f : Option α → Engine μ γ}
    {g : Option β → Engine ν δ}
    {E : Session μ → Session ν → Prop}
    (hFirst : Abreast P x y (Together Q E) H)
    (hNone : Abreast E (f none) (g none) R H)
    (hSome :
      ∀ a b, Abreast (Q a b) (f (some a)) (g (some b)) R H) :
    Abreast P (x >>= f) (y >>= g) R H := by
  apply hFirst.bind
  intro r r'
  cases r with
  | none =>
      cases r' with
      | none => exact hNone
      | some _ => exact fun _ _ h => h.elim
  | some a =>
      cases r' with
      | none => exact fun _ _ h => h.elim
      | some b => exact hSome a b

/- What two computations do with results that agree. -/
theorem agreeing
    {ε : Type}
    {f : Except ε α → Engine μ γ}
    {g : Except ε β → Engine ν δ}
    {E : ε → Session μ → Session ν → Prop}
    (hOk :
      ∀ a b, Abreast (Q a b) (f (.ok a)) (g (.ok b)) R H)
    (hError :
      ∀ e, Abreast (E e) (f (.error e)) (g (.error e)) R H)
    (r : Except ε α)
    (r' : Except ε β) :
    Abreast (Agreeing Q E r r') (f r) (g r') R H := by
  cases r with
  | ok a =>
      cases r' with
      | ok b => exact hOk a b
      | error _ => exact fun _ _ h => h.elim
  | error e =>
      cases r' with
      | ok _ => exact fun _ _ h => h.elim
      | error e' =>
          apply assume
          rintro rfl
          exact hError e'

/- Two computations go on from results that agree. -/
theorem bindAgreeing
    {ε : Type}
    {x : Engine μ (Except ε α)}
    {y : Engine ν (Except ε β)}
    {f : Except ε α → Engine μ γ}
    {g : Except ε β → Engine ν δ}
    {E : ε → Session μ → Session ν → Prop}
    (hFirst : Abreast P x y (Agreeing Q E) H)
    (hOk :
      ∀ a b, Abreast (Q a b) (f (.ok a)) (g (.ok b)) R H)
    (hError :
      ∀ e, Abreast (E e) (f (.error e)) (g (.error e)) R H) :
    Abreast P (x >>= f) (y >>= g) R H :=
  hFirst.bind (agreeing hOk hError)

/- Both start the operation, or neither does. -/
theorem cancellableTogether
    {op : Engine μ (Option α)}
    {op' : Engine ν (Option β)}
    {E : Session μ → Session ν → Prop}
    (hResume : ∀ s t, P s t → M s.resume t.resume)
    (hFlags :
      ∀ s t, M s t → t.scene.cancelled = s.scene.cancelled)
    (hCancelled : ∀ s t, M s t → E s t)
    (hOp : Abreast M op op' (Together Q E) H) :
    Abreast P (Engine.cancellable op)
      (Engine.cancellable op') (Together Q E) H := by
  refine bind (update (Q := fun _ _ => M) hResume) ?_
  intro _ _
  refine bind
    (Q := fun b b' s t => b' = b ∧ M s t) ?_ ?_
  · exact fun s t hMid => .ended ⟨hFlags s t hMid, hMid⟩
  · intro b b'
    refine assume ?_
    rintro rfl
    split
    · exact pure hCancelled
    · exact hOp

/- Both await an operation, or both are cancelled. -/
theorem awaitTogether
    {op : Engine μ (Option α)}
    {op' : Engine ν (Option β)}
    (hResume : ∀ s t, P s t → M s.resume t.resume)
    (hFlags :
      ∀ s t, M s t → t.scene.cancelled = s.scene.cancelled)
    (hCancelled : ∀ s t, M s t → H s t)
    (hOp : Abreast M op op' (Together Q H) H) :
    Abreast P (Engine.await op) (Engine.await op') Q H :=
  bindTogether
    (cancellableTogether hResume hFlags hCancelled hOp)
    (fail (fun _ _ h => h))
    (fun _ _ => pure (fun _ _ h => h))

/- Calls that agree, at scenes with one clock and one flag. -/
theorem callTogether
    {S : α → β → Prop}
    {c : Call μ α}
    {d : Call ν β}
    {E : Session μ → Session ν → Prop}
    (hAgrees : Call.Agrees S c d)
    (hClocks :
      ∀ s t, P s t → t.scene.clock = s.scene.clock)
    (hFlags :
      ∀ s t, P s t → t.scene.cancelled = s.scene.cancelled)
    (hDone :
      ∀ s t r r' a b, P s t →
        c s.scene = .ok r a → d t.scene = .ok r' b →
          S r r' → b.cancelled = a.cancelled →
            Q r r' (s.moveTo .returned a)
              (t.moveTo .returned b))
    (hDropped :
      ∀ s t a b, P s t →
        c s.scene = .error .dropped a →
          d t.scene = .error .dropped b →
            E (s.moveTo .returned a.cancel)
              (t.moveTo .returned b.cancel))
    (hPanicked :
      ∀ s t p a b, P s t →
        c s.scene = .error (.panicked p) a →
          d t.scene = .error (.panicked p) b →
            b.cancelled = a.cancelled →
              H (s.moveTo .returned a)
                (t.moveTo .returned b)) :
    Abreast P (Engine.call c) (Engine.call d)
      (Together Q E) H := by
  intro s t hPre
  have hMatches :=
    hAgrees _ _ (hClocks s t hPre) (hFlags s t hPre)
  unfold Engine.call
  generalize hLeft : c s.scene = left at hMatches
  generalize hRight : d t.scene = right at hMatches
  cases hMatches with
  | done hResult hFlag =>
      exact .ended (hDone s t _ _ _ _ hPre hLeft hRight
        hResult hFlag)
  | dropped =>
      exact .ended (hDropped s t _ _ hPre hLeft hRight)
  | panicked hFlag =>
      exact .halted (hPanicked s t _ _ _ hPre hLeft hRight
        hFlag)

end Abreast

end Engine

end Reconciler
