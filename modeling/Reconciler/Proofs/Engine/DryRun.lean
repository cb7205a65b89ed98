import Reconciler.Proofs.Engine.ShadowRun
import Reconciler.Proofs.Engine.Waiting

/-
  This file shows that a read-only run is a faithful dry run.

  Hook and steps know and edit nothing of an object but its
  status, and they leave the store alone.  Then a manager
  that may not write takes the same turns as one that may,
  with the same status at hand, and comes to the same
  answer; the store stays as it is.

  A turn does not tell what a call was given.  Calls are
  watched for that: hook and steps remember in addition the
  status that they had at hand.  Watching changes no turn.

  Key definitions include:
    * `Manager.StatusOnly`
    * `Manager.watched`
    * `Manager.sightings`
    * `Manager.DryRun`

  Key theorems include:
    * `Manager.reconcile_still`
    * `Manager.StatusOnly.hasLike_watched`
    * `Manager.readOnly_dryRun`
-/

------------------------------------------------------------
-- Watched Calls
------------------------------------------------------------

namespace Reconciler

variable {μ ν α β : Type}

/- The same scene, in which something else is remembered. -/
def Scene.remembering
    (memory : ν)
    (scene : Scene μ) : Scene ν where
  store := scene.store
  clock := scene.clock
  cancelled := scene.cancelled
  memory := memory

namespace Call

/- The end of a call, which remembers a status as well. -/
def watch
    (seen : Status) :
    EStateM.Result Interrupt (Scene μ) α →
      EStateM.Result Interrupt (Scene (μ × Status)) α
  | .ok a scene =>
      .ok a (scene.remembering (scene.memory, seen))
  | .error interrupt scene =>
      .error interrupt
        (scene.remembering (scene.memory, seen))

/- A call that remembers the status that it was given. -/
def watched
    (seen : Status)
    (c : Call μ α) : Call (μ × Status) α :=
  fun scene =>
    watch seen (c (scene.remembering scene.memory.1))

variable {R : α → β → Prop}
variable {x : Call μ α}
variable {y : Call μ β}

/- Watching is not seen by the calls themselves. -/
theorem Like.watched
    (hLike : Call.Like Eq R x y)
    (seen : Status) :
    Call.Like Eq R (Call.watched seen x)
      (Call.watched seen y) := by
  intro a b hScenes
  have hEnds := hLike (a.remembering a.memory.1)
    (b.remembering b.memory.1)
    { hScenes with memory := congrArg Prod.fst hScenes.memory }
  unfold Call.watched
  revert hEnds
  generalize x (a.remembering a.memory.1) = left
  generalize y (b.remembering b.memory.1) = right
  intro hEnds
  cases hEnds with
  | done hResult hAfter =>
      exact .done hResult
        { hAfter with
          memory := congrArg (·, seen) hAfter.memory }
  | panicked hAfter =>
      exact .panicked
        { hAfter with
          memory := congrArg (·, seen) hAfter.memory }

/- Nor is it when they are given objects that agree. -/
theorem Like.watchedAt
    {o o' : Object}
    (hLike : Call.Like Eq R x y)
    (hAgrees : o.Agrees o') :
    Call.Like Eq R (Call.watched o.status x)
      (Call.watched o'.status y) := by
  rw [hAgrees.status]
  exact hLike.watched o.status

/- Whether only one of two calls is watched does not matter. -/
theorem Like.watchedRight
    (hLike : Call.Like Eq R x y)
    (seen : Status) :
    Call.Like (fun a b => a = b.1) R x
      (Call.watched seen y) := by
  intro a b hScenes
  have hEnds := hLike a (b.remembering b.memory.1)
    { hScenes with memory := hScenes.memory }
  unfold Call.watched
  revert hEnds
  generalize x a = left
  generalize y (b.remembering b.memory.1) = right
  intro hEnds
  cases hEnds with
  | done hResult hAfter =>
      exact .done hResult
        { hAfter with memory := hAfter.memory }
  | panicked hAfter =>
      exact .panicked { hAfter with memory := hAfter.memory }

/- What a call does to the store does not depend on it. -/
theorem Within.watched
    {S : Store → Store → Prop}
    (hWithin : x.Within S)
    (seen : Status) :
    (Call.watched seen x).Within S := by
  intro scene
  have hStore := hWithin (scene.remembering scene.memory.1)
  unfold Call.watched
  revert hStore
  generalize x (scene.remembering scene.memory.1) = ended
  intro hStore
  cases ended with
  | ok _ _ => exact hStore
  | error _ _ => exact hStore

/- What a call hands back when it is watched. -/
theorem of_watched
    {seen : Status}
    {scene scene' : Scene (μ × Status)}
    {a : α}
    (hRun : Call.watched seen x scene = .ok a scene') :
    ∃ after,
      x (scene.remembering scene.memory.1) = .ok a after := by
  unfold Call.watched at hRun
  revert hRun
  generalize x (scene.remembering scene.memory.1) = ended
  intro hRun
  cases ended with
  | ok b after =>
      cases hRun
      exact ⟨after, rfl⟩
  | error _ _ => cases hRun

end Call

/- A hook that remembers the status that it was given. -/
def Hook.watched
    (f : Hook μ) : Hook (μ × Status) :=
  fun c o => Call.watched o.status (f c o)

/- A step that remembers the status that it was given. -/
def Step.watched
    (step : Step μ) : Step (μ × Status) where
  name := step.name
  tokens := step.tokens
  process := fun c o =>
    Call.watched o.status (step.process c o)
  finalize := fun c o =>
    Call.watched o.status (step.finalize c o)

/- Another task, which does not touch the status. -/
def Scene.watchedChange
    (change : Scene μ → Scene μ)
    (scene : Scene (μ × Status)) : Scene (μ × Status) :=
  let after := change (scene.remembering scene.memory.1)
  after.remembering (after.memory, scene.memory.2)

/- A session in which no call has been watched yet. -/
def Session.watched
    (s : Session μ) : Session (μ × Status) where
  scene := s.scene.remembering (s.scene.memory, {})
  others := s.others.map Scene.watchedChange
  reports := s.reports
  draws := s.draws

namespace Manager

open Engine

/- The same manager, read-only or not. -/
def withReadOnly
    (m : Manager μ)
    (readOnly : Bool) : Manager μ :=
  { m with readOnly := readOnly }

/- The same manager, all of whose calls are watched. -/
def watched
    (m : Manager μ) : Manager (μ × Status) :=
  m.recast (m.hook.map Hook.watched)
    (m.steps.map Step.watched) m.readOnly

/- The turns that a reconcile takes, in order. -/
def turns
    (m : Manager μ)
    (k : Key)
    (s : Session μ) : List Event :=
  (Journal.turns (((m.reconcile k).final s).journal.drop
    s.journal.length)).map (·.event)

/-
  The turns that a reconcile takes, each with the status
  that the last call was given: at the end of a call that is
  the status that it had at hand.
-/
def sightings
    (m : Manager μ)
    (k : Key)
    (s : Session μ) : List (Event × Status) :=
  (Journal.turns
    ((m.watched.reconcile k).final s.watched).journal).map
      (fun mo => (mo.event, mo.scene.memory.2))

------------------------------------------------------------
-- Hooks and Steps that Know the Status
------------------------------------------------------------

/-
  Hook and steps know of an object no more than its status,
  edit no more than that, do not look at the store, and do
  not cancel the reconcile.
-/
structure StatusOnly
    (m : Manager μ) : Prop where
  hook :
    ∀ hook, m.hook = some hook → Hook.Like Eq hook hook
  process :
    ∀ step ∈ m.steps, ∀ c o o', o.Agrees o' →
      Call.Like Eq StepResult.Agrees (step.process c o)
        (step.process c o')
  finalize :
    ∀ step ∈ m.steps, ∀ c o o', o.Agrees o' →
      Call.Like Eq StepResult.Agrees (step.finalize c o)
        (step.finalize c o')

/- Nothing is cancelled, and other tasks see no store. -/
structure Steady
    (s : Session μ) : Prop where
  goes : s.scene.cancelled = false
  others :
    ∀ change ∈ s.others, Scene.LikeChanges Eq change change

section StatusOnly

variable {m : Manager μ}
variable {k : Key}
variable {o : Object}
variable {s : Session μ}

/- A manager is like itself, whether it writes or not. -/
theorem StatusOnly.hasLike
    (hStatus : m.StatusOnly)
    (hApart : m.TokensApart) :
    m.HasLike Eq m.hook m.steps where
  hook := by
    have hHook := hStatus.hook
    revert hHook
    generalize m.hook = f
    intro hHook
    cases f with
    | none => exact .none
    | some f => exact .some (hHook f rfl)
  steps :=
    List.forall₂_same.mpr (fun step hStep =>
      { name := rfl
        tokens := fun o o' =>
          hApart.constant step hStep o' o
        process := hStatus.process step hStep
        finalize := hStatus.finalize step hStep })

/- Its hook and steps stay like each other when watched. -/
theorem StatusOnly.hasLike_watched
    (hStatus : m.StatusOnly)
    (hApart : m.TokensApart) :
    m.watched.HasLike Eq m.watched.hook m.watched.steps where
  hook := by
    have hHook := hStatus.hook
    change Option.Rel _ (m.hook.map Hook.watched)
      (m.hook.map Hook.watched)
    revert hHook
    generalize m.hook = f
    intro hHook
    cases f with
    | none => exact .none
    | some f =>
        exact .some (fun c o o' hAgrees =>
          (hHook f rfl c o o' hAgrees).watchedAt hAgrees)
  steps := by
    refine List.forall₂_same.mpr ?_
    intro watcher hWatcher
    rcases List.mem_map.mp hWatcher with
      ⟨step, hStep, rfl⟩
    exact
      { name := rfl
        tokens := fun o o' => hApart.constant step hStep o' o
        process := fun c o o' hAgrees =>
          (hStatus.process step hStep c o o'
            hAgrees).watchedAt hAgrees
        finalize := fun c o o' hAgrees =>
          (hStatus.finalize step hStep c o o'
            hAgrees).watchedAt hAgrees }

/- They are like those that are not watched, too. -/
theorem StatusOnly.hasLike_watchedRight
    (hStatus : m.StatusOnly)
    (hApart : m.TokensApart) :
    m.HasLike (fun a (b : μ × Status) => a = b.1)
      m.watched.hook m.watched.steps where
  hook := by
    have hHook := hStatus.hook
    change Option.Rel _ m.hook (m.hook.map Hook.watched)
    revert hHook
    generalize m.hook = f
    intro hHook
    cases f with
    | none => exact .none
    | some f =>
        exact .some (fun c o o' hAgrees =>
          (hHook f rfl c o o' hAgrees).watchedRight _)
  steps := by
    refine List.forall₂_map_right_iff.mpr
      (List.forall₂_same.mpr ?_)
    intro step hStep
    exact
      { name := rfl
        tokens := fun o o' => hApart.constant step hStep o' o
        process := fun c o o' hAgrees =>
          (hStatus.process step hStep c o o'
            hAgrees).watchedRight _
        finalize := fun c o o' hAgrees =>
          (hStatus.finalize step hStep c o o'
            hAgrees).watchedRight _ }

/- Watched calls are calls of the hook or of steps. -/
theorem StepsBehave.watched
    (hBehave : m.StepsBehave) :
    m.watched.StepsBehave where
  hook := by
    intro watcher hSome c o
    rcases Option.map_eq_some_iff.mp hSome with
      ⟨f, hHook, rfl⟩
    exact (hBehave.hook f hHook c o).watched _
  process := by
    intro watcher hWatcher c o
    rcases List.mem_map.mp hWatcher with
      ⟨step, hStep, rfl⟩
    exact (hBehave.process step hStep c o).watched _
  finalize := by
    intro watcher hWatcher c o
    rcases List.mem_map.mp hWatcher with
      ⟨step, hStep, rfl⟩
    exact (hBehave.finalize step hStep c o).watched _
  keeps := by
    intro watcher hWatcher c o scene result o' scene' hRun
    rcases List.mem_map.mp hWatcher with
      ⟨step, hStep, rfl⟩
    rcases hRun with hRun | hRun
    · rcases Call.of_watched hRun with ⟨after, hOwn⟩
      exact hBehave.keeps step hStep c o _ result o' after
        (.inl hOwn)
    · rcases Call.of_watched hRun with ⟨after, hOwn⟩
      exact hBehave.keeps step hStep c o _ result o' after
        (.inr hOwn)

theorem StepsQuiet.watched
    (hQuiet : m.StepsQuiet) :
    m.watched.StepsQuiet where
  hook := by
    intro watcher hSome c o
    rcases Option.map_eq_some_iff.mp hSome with
      ⟨f, hHook, rfl⟩
    exact (hQuiet.hook f hHook c o).watched _
  process := by
    intro watcher hWatcher c o
    rcases List.mem_map.mp hWatcher with
      ⟨step, hStep, rfl⟩
    exact (hQuiet.process step hStep c o).watched _
  finalize := by
    intro watcher hWatcher c o
    rcases List.mem_map.mp hWatcher with
      ⟨step, hStep, rfl⟩
    exact (hQuiet.finalize step hStep c o).watched _

/- Tokens of watched steps are apart as before. -/
theorem TokensApart.watched
    (hApart : m.TokensApart) :
    m.watched.steps.Pairwise (fun q q' =>
      (q.tokens o).Disjoint (q'.tokens o)) :=
  List.pairwise_map.mpr
    (hApart.apart.imp (fun hPair => hPair o))

------------------------------------------------------------
-- Hosts that are Alike
------------------------------------------------------------

/- Other tasks of a watched session are the same tasks. -/
theorem mem_watched_others
    {change : Scene (μ × Status) → Scene (μ × Status)}
    (hMember : change ∈ s.watched.others) :
    ∃ own ∈ s.others, change = Scene.watchedChange own := by
  rcases List.mem_map.mp hMember with ⟨own, hOwn, hSame⟩
  exact ⟨own, hOwn, hSame.symm⟩

/- Nobody stands in the way of a run that is watched. -/
theorem unopposed_watched
    (hUnopposed : s.Unopposed k) :
    s.watched.Unopposed k where
  keyed := hUnopposed.keyed
  quiet := hUnopposed.quiet
  undisturbed := by
    intro change hMember scene
    rcases mem_watched_others hMember with ⟨own, hOwn, rfl⟩
    exact hUnopposed.undisturbed own hOwn
      (scene.remembering scene.memory.1)
  unfailing := by
    intro change hMember scene hQuiet
    rcases mem_watched_others hMember with ⟨own, hOwn, rfl⟩
    exact hUnopposed.unfailing own hOwn
      (scene.remembering scene.memory.1) hQuiet

/- A host is like itself. -/
theorem Steady.startsLike
    (hSteady : Steady s)
    (hUnopposed : s.Unopposed k)
    (hStored : s.scene.store.object? k = some o) :
    StartsLike Eq k o s s where
  level :=
    { scenes := ⟨rfl, hSteady.goes, hSteady.goes, rfl⟩
      others := List.forall₂_same.mpr hSteady.others }
  reports := rfl
  draws := rfl
  stored := hStored
  stored' := hStored
  unopposed := hUnopposed
  unopposed' := hUnopposed

/- It is like itself when watched. -/
theorem Steady.startsLike_watched
    (hSteady : Steady s)
    (hUnopposed : s.Unopposed k)
    (hStored : s.scene.store.object? k = some o) :
    StartsLike Eq k o s.watched s.watched where
  level :=
    { scenes := ⟨rfl, hSteady.goes, hSteady.goes, rfl⟩
      others := by
        refine List.forall₂_same.mpr ?_
        intro change hMember a b hScenes
        rcases mem_watched_others hMember with
          ⟨own, hOwn, rfl⟩
        have hAfter := hSteady.others own hOwn
          (a.remembering a.memory.1)
          (b.remembering b.memory.1)
          { hScenes with
            memory := congrArg Prod.fst hScenes.memory }
        have hSeen : a.memory.2 = b.memory.2 :=
          congrArg Prod.snd hScenes.memory
        exact
          { hAfter with
            memory := Prod.ext hAfter.memory hSeen } }
  reports := rfl
  draws := rfl
  stored := hStored
  stored' := hStored
  unopposed := unopposed_watched hUnopposed
  unopposed' := unopposed_watched hUnopposed

/- Whether only one of two hosts is watched does not matter. -/
theorem Steady.startsLike_watchedRight
    (hSteady : Steady s)
    (hUnopposed : s.Unopposed k)
    (hStored : s.scene.store.object? k = some o) :
    StartsLike (fun a (b : μ × Status) => a = b.1) k o s
      s.watched where
  level :=
    { scenes := ⟨rfl, hSteady.goes, hSteady.goes, rfl⟩
      others := by
        refine List.forall₂_map_right_iff.mpr
          (List.forall₂_same.mpr ?_)
        intro change hMember a b hScenes
        have hAfter := hSteady.others change hMember a
          (b.remembering b.memory.1)
          { hScenes with memory := hScenes.memory }
        exact { hAfter with memory := hAfter.memory } }
  reports := rfl
  draws := rfl
  stored := hStored
  stored' := hStored
  unopposed := hUnopposed
  unopposed' := unopposed_watched hUnopposed

end StatusOnly

------------------------------------------------------------
-- Runs that Write Nothing
------------------------------------------------------------

/-
  Since its start a run has written nothing, and the stored
  objects are what they were.
-/
structure Still
    (start s : Session μ) : Prop where
  objects :
    s.scene.store.objects = start.scene.store.objects
  undisturbed : s.Undisturbed
  silent : start.SilentSince s

section Still

variable {m : Manager μ}
variable {start s : Session μ}

/- A moment in which nothing is written. -/
theorem Still.moveTo
    {scene : Scene μ}
    {e : Event}
    (hStill : Still start s)
    (hOther : e.isWrite = false)
    (hObjects :
      scene.store.objects = s.scene.store.objects) :
    Still start (s.moveTo e scene) where
  objects := hObjects.trans hStill.objects
  undisturbed := hStill.undisturbed
  silent := hStill.silent.moveTo hOther scene

theorem Still.aside
    (hStill : Still start s)
    (rs : List Report)
    (n : Nat) :
    Still start { s with reports := rs, draws := n } where
  objects := hStill.objects
  undisturbed := hStill.undisturbed
  silent := hStill.silent

theorem Still.resume
    (hStill : Still start s) :
    Still start s.resume :=
  hStill.undisturbed.resume
    (fun _ hFewer h =>
      { h with
        undisturbed := fun change hMember =>
          h.undisturbed change (hFewer change hMember) })
    (fun hObjects h => h.moveTo rfl hObjects) hStill

/- A call that writes no objects. -/
theorem Still.call
    {α : Type}
    {c : Call μ α}
    (hKeeps : c.KeepsObjects) :
    Triple (Still start) (Engine.call c)
      (fun _ => Still start) (fun _ => Still start) :=
  .call_within hKeeps
    (fun _ _ _ h _ hObjects => h.moveTo rfl hObjects)
    (fun _ _ h hObjects => h.moveTo rfl hObjects)
    (fun _ _ _ h hObjects => h.moveTo rfl hObjects)

/- A manager that may not write does not write. -/
theorem upholdsClose_still
    (hReadOnly : m.readOnly = true)
    (hBehave : m.StepsBehave) :
    m.UpholdsClose (fun _ => Still start)
      (Still start) where
  edited := fun _ h => h
  reported := fun {_ s} rs h => h.aside rs s.draws
  drawn := fun {_ s} n h => h.aside s.reports n
  halts := fun h => h
  haltReported := fun {s} rs h => h.aside rs s.draws
  resumed := fun h => h.resume
  noted := by
    intro c s e hNotes h
    refine h.moveTo ?_ rfl
    cases hNotes <;> rfl
  hooked := fun context hHook =>
    Still.call (hBehave.hook _ hHook context _)
  processed := fun context hStep _ =>
    Still.call (hBehave.process _ hStep context _)
  finalized := fun context hStep _ =>
    Still.call (hBehave.finalize _ hStep context _)
  released := by
    intro c step _ hWritable
    rw [hReadOnly] at hWritable
    cases hWritable
  written := by
    intro c hWritable
    rw [hReadOnly] at hWritable
    cases hWritable
  cleared := by
    intro c hWritable
    rw [hReadOnly] at hWritable
    cases hWritable

/- A read-only run leaves every stored object as it is. -/
theorem reconcile_still
    {k : Key}
    (hReadOnly : m.readOnly = true)
    (hBehave : m.StepsBehave)
    (hUndisturbed : start.Undisturbed) :
    Triple (fun s => s = start) (m.reconcile k)
      (fun _ => Still start) (fun _ => Still start) := by
  have hUpholds :
      m.UpholdsClose (fun _ => Still start) (Still start) :=
    upholdsClose_still hReadOnly hBehave
  have hStart : Still start start :=
    ⟨rfl, hUndisturbed, .refl start⟩
  have hFetch :
      Triple (fun s => s = start) (await (some <$> fetch k))
        (fun _ => Still start) (fun _ => Still start) := by
    refine .await (M := Still start) ?_ (fun _ h _ => h)
      (.map (.onStore ?_))
    · rintro s rfl
      exact hStart.resume
    · intro s r store h hRun
      have hObjects := Store.get_objects k s.scene.store
      rw [hRun] at hObjects
      exact h.1.moveTo rfl hObjects
  rw [m.reconcile_eq_draft_finish k]
  refine .bind
    (hUpholds.toUpholds.draft (F := fun _ => Still start)
      (hFetch.mono (fun _ h => h) ?_ (fun _ _ h => h))
      (fun h => h) (fun {_ s} rs h => h.aside rs s.draws)
      ?_) ?_
  · intro r s h
    cases r with
    | ok _ => exact h
    | error _ => exact h
  · intro w
    refine m.ensureTokens_triple (E := Still start)
      (fun _ h => h.resume) (fun _ h _ => h)
      (fun s rs h => h.aside rs s.draws) (fun _ _ h => h)
      (fun _ h _ => h) ?_
    intro hWritable
    rw [hReadOnly] at hWritable
    cases hWritable
  · intro d
    cases d with
    | early why => exact hUpholds.finish (d := .early why)
    | closing e w => exact hUpholds.finish (d := .closing e w)

end Still

------------------------------------------------------------
-- Dry Runs
------------------------------------------------------------

/- Runs that are alike have taken the same turns. -/
theorem Alike.map_turns
    {γ : Type}
    {V : μ → ν → Prop}
    {start s : Session μ}
    {start' t : Session ν}
    {f : Moment μ → γ}
    {g : Moment ν → γ}
    (hAlike : Alike V start start' s t)
    (hSame :
      ∀ mo mo', Moment.Like V mo mo' → f mo = g mo') :
    (Journal.turns
        (s.journal.drop start.journal.length)).map f =
      (Journal.turns
        (t.journal.drop start'.journal.length)).map g := by
  rcases hAlike.turns with ⟨new, new', hLeft, hRight, hTurns⟩
  rw [hLeft, hRight, List.drop_left, List.drop_left]
  have hMapped :
      List.Forall₂ (· = ·) ((Journal.turns new).map f)
        ((Journal.turns new').map g) :=
    List.forall₂_map_left_iff.mpr
      (List.forall₂_map_right_iff.mpr
        (hTurns.imp hSame))
  rw [List.forall₂_eq_eq_eq] at hMapped
  exact hMapped

/-
  What a dry run tells of the run that writes: the answer,
  the reports, and the turns with the status at hand in each
  of them.  It writes nothing itself.
-/
structure DryRun
    (m : Manager μ)
    (k : Key)
    (s : Session μ)
    (tags : Table String String) : Prop where
  answer :
    ((m.withReadOnly true).reconcileRecovered tags k s).1 =
      ((m.withReadOnly false).reconcileRecovered tags k s).1
  reports :
    ((m.withReadOnly true).reconcileRecovered tags k
        s).2.reports =
      ((m.withReadOnly false).reconcileRecovered tags k
        s).2.reports
  turns :
    (m.withReadOnly true).turns k s =
      (m.withReadOnly false).turns k s
  sightings :
    (m.withReadOnly true).sightings k s =
      (m.withReadOnly false).sightings k s
  watched :
    ∀ readOnly,
      ((m.withReadOnly readOnly).sightings k s).map (·.1) =
        (m.withReadOnly readOnly).turns k s
  objects :
    ((m.withReadOnly true).reconcileRecovered tags k
        s).2.scene.store.objects =
      s.scene.store.objects
  silent :
    s.SilentSince
      ((m.withReadOnly true).reconcileRecovered tags k s).2

section DryRun

variable {m : Manager μ}
variable {k : Key}
variable {o : Object}
variable {s : Session μ}

/- The two managers go in tandem. -/
theorem StatusOnly.tandem
    (hStatus : m.StatusOnly)
    (hBehave : m.StepsBehave)
    (hQuiet : m.StepsQuiet)
    (hApart : m.TokensApart)
    (hSteady : Steady s)
    (hUnopposed : s.Unopposed k)
    (hStored : s.scene.store.object? k = some o) :
    (m.withReadOnly true).Tandem Eq m.hook m.steps k o s
      s where
  readOnly := rfl
  behave := { hBehave with }
  behaves := { hBehave with }
  quiet := { hQuiet with }
  key := hUnopposed.keyed o hStored
  like := { hStatus.hasLike hApart with }
  apart := hApart.apart.imp (fun hPair => hPair o)
  start := hSteady.startsLike hUnopposed hStored

/- So do they if all calls are watched. -/
theorem StatusOnly.tandem_watched
    (hStatus : m.StatusOnly)
    (hBehave : m.StepsBehave)
    (hQuiet : m.StepsQuiet)
    (hApart : m.TokensApart)
    (hSteady : Steady s)
    (hUnopposed : s.Unopposed k)
    (hStored : s.scene.store.object? k = some o) :
    (m.withReadOnly true).watched.Tandem Eq m.watched.hook
      m.watched.steps k o s.watched s.watched where
  readOnly := rfl
  behave := { hBehave.watched with }
  behaves := { hBehave.watched with }
  quiet := { hQuiet.watched with }
  key := hUnopposed.keyed o hStored
  like := { hStatus.hasLike_watched hApart with }
  apart := hApart.watched
  start := hSteady.startsLike_watched hUnopposed hStored

/- So do they if the calls of one of them are watched. -/
theorem StatusOnly.tandem_watchedRight
    (hStatus : m.StatusOnly)
    (hBehave : m.StepsBehave)
    (hQuiet : m.StepsQuiet)
    (hApart : m.TokensApart)
    (hSteady : Steady s)
    (hUnopposed : s.Unopposed k)
    (hStored : s.scene.store.object? k = some o) :
    (m.withReadOnly true).Tandem
      (fun a (b : μ × Status) => a = b.1) m.watched.hook
      m.watched.steps k o s s.watched where
  readOnly := rfl
  behave := { hBehave with }
  behaves := { hBehave.watched with }
  quiet := { hQuiet.watched with }
  key := hUnopposed.keyed o hStored
  like := { hStatus.hasLike_watchedRight hApart with }
  apart := hApart.watched
  start := hSteady.startsLike_watchedRight hUnopposed hStored

/- What is seen of a run that starts with no journal. -/
theorem sightings_eq
    (m : Manager μ)
    (k : Key)
    (s : Session μ) :
    m.sightings k s =
      (Journal.turns
        (((m.watched.reconcile k).final
            s.watched).journal.drop
          s.watched.journal.length)).map
        (fun mo => (mo.event, mo.scene.memory.2)) :=
  rfl

/-
  A read-only run on a stored object is a faithful dry run of
  one that writes, if hook and steps know and edit only the
  status, tokens are constant and apart, and nobody stands
  in the way.
-/
theorem readOnly_dryRun
    (hStatus : m.StatusOnly)
    (hBehave : m.StepsBehave)
    (hQuiet : m.StepsQuiet)
    (hApart : m.TokensApart)
    (hSteady : Steady s)
    (hUnopposed : s.Unopposed k)
    (hStored : s.scene.store.object? k = some o)
    (tags : Table String String) :
    m.DryRun k s tags := by
  have hPlain := hStatus.tandem hBehave hQuiet hApart hSteady
    hUnopposed hStored
  have hWatched := hStatus.tandem_watched hBehave hQuiet
    hApart hSteady hUnopposed hStored
  have hMixed := hStatus.tandem_watchedRight hBehave hQuiet
    hApart hSteady hUnopposed hStored
  have hEnd := reconcileRecovered_shadows hPlain tags
  have hTurns :
      (m.withReadOnly true).turns k s =
        (m.withReadOnly false).turns k s :=
    (final_shadows hPlain).map_turns
      (fun _ _ h => h.event.symm)
  have hSightings :
      (m.withReadOnly true).sightings k s =
        (m.withReadOnly false).sightings k s := by
    rw [sightings_eq, sightings_eq]
    refine (final_shadows hWatched).map_turns ?_
    intro mo mo' hLike
    rw [hLike.event, hLike.scenes.memory]
  -- The turns of the watched run are those of the dry run.
  have hSeen :
      (m.withReadOnly true).turns k s =
        ((m.withReadOnly false).sightings k s).map (·.1) := by
    rw [sightings_eq, List.map_map]
    exact (final_shadows hMixed).map_turns
      (fun _ _ h => h.event.symm)
  have hStill :
      Still s
        ((m.withReadOnly true).reconcileRecovered tags k
          s).2 := by
    have hRun :=
      reconcile_still (m := m.withReadOnly true) (k := k) rfl
        { hBehave with } hUnopposed.undisturbed
    unfold reconcileRecovered
    cases hReconcile : (m.withReadOnly true).reconcile k s with
    | ok d s' => exact hRun.of_ok rfl hReconcile
    | error h s' =>
        exact (hRun.of_error rfl hReconcile).aside _ s'.draws
  refine
    { answer := hEnd.1.symm
      reports := hEnd.2.reports.symm
      turns := hTurns
      sightings := hSightings
      watched := ?_
      objects := hStill.objects
      silent := hStill.silent }
  intro readOnly
  cases readOnly with
  | true => rw [hSightings, ← hSeen]
  | false => rw [← hSeen, hTurns]

end DryRun

/- A step with one token, which marks its object. -/
def markingStep
    (name : String) : Step Unit where
  name := name
  tokens := fun _ => [name]
  process := fun _ o =>
    return (.ok,
      o.mapStatus (fun s => { s with payload := name }))
  finalize := fun _ o =>
    return (.ok,
      o.mapStatus (fun s => { s with payload := name }))

/- A manager with a hook and two such steps. -/
def markingManager : Manager Unit :=
  { leavingManager with
    steps := [markingStep "first", markingStep "second"]
    hook := some (fun c _ => return .ok c) }

/- An object that is being deleted, with both tokens. -/
def markedObject : Object :=
  { leavingObject with
    metadata :=
      { leavingObject.metadata with
        finalizers := ["first", "second"] } }

/- A host with that object. -/
def markedStart : Session Unit where
  scene :=
    { store := Store.insert markedObject {}
      clock := ⟨0⟩
      memory := () }

/- The steps of the manager are marking steps. -/
theorem eq_markingStep
    {step : Step Unit}
    (hStep : step ∈ markingManager.steps) :
    step = markingStep step.name := by
  rcases List.mem_pair.mp hStep with rfl | rfl
  · rfl
  · rfl

theorem marking_stepsBehave :
    markingManager.StepsBehave where
  hook := by
    intro hook hSome
    cases hSome
    exact fun _ _ _ => rfl
  process := by
    intro step hStep
    rw [eq_markingStep hStep]
    exact fun _ _ _ => rfl
  finalize := by
    intro step hStep
    rw [eq_markingStep hStep]
    exact fun _ _ _ => rfl
  keeps := by
    intro step hStep c o scene result o' scene' hRun
    rw [eq_markingStep hStep] at hRun
    rcases hRun with hRun | hRun
    · cases hRun
      rfl
    · cases hRun
      rfl

theorem marking_stepsQuiet :
    markingManager.StepsQuiet where
  hook := by
    intro hook hSome
    cases hSome
    exact fun _ _ _ hQuiet => hQuiet
  process := by
    intro step hStep
    rw [eq_markingStep hStep]
    exact fun _ _ _ hQuiet => hQuiet
  finalize := by
    intro step hStep
    rw [eq_markingStep hStep]
    exact fun _ _ _ hQuiet => hQuiet

/- What a marking step hands back depends on the status. -/
theorem marked_agrees
    {o o' : Object}
    (hAgrees : o.Agrees o')
    (name : String) :
    StepResult.Agrees
      (.ok, o.mapStatus (fun s => { s with payload := name }))
      (.ok,
        o'.mapStatus (fun s => { s with payload := name })) :=
  ⟨rfl, hAgrees.kind, congrArg
    (fun s : Status => { s with payload := name })
    hAgrees.status⟩

theorem marking_statusOnly :
    markingManager.StatusOnly where
  hook := by
    intro hook hSome c o o' _ a b hScenes
    cases hSome
    exact .done rfl hScenes
  process := by
    intro step hStep c o o' hAgrees a b hScenes
    rw [eq_markingStep hStep]
    exact .done (marked_agrees hAgrees _) hScenes
  finalize := by
    intro step hStep c o o' hAgrees a b hScenes
    rw [eq_markingStep hStep]
    exact .done (marked_agrees hAgrees _) hScenes

theorem marking_tokensApart :
    markingManager.TokensApart where
  constant := by
    intro step hStep o o'
    rw [eq_markingStep hStep]
    rfl
  apart := by
    refine List.pairwise_pair.mpr ?_
    intro o token hFirst hSecond
    rw [List.mem_singleton.mp hFirst] at hSecond
    exact absurd (List.mem_singleton.mp hSecond) (by decide)

theorem marked_stored :
    markedStart.scene.store.object? guardKey =
      some markedObject := by
  decide +kernel

theorem marked_unopposed :
    markedStart.Unopposed guardKey where
  keyed := by
    intro o hStored
    rw [marked_stored] at hStored
    cases hStored
    rfl
  quiet := ⟨rfl, rfl, rfl⟩
  undisturbed := by
    intro change hMember
    cases hMember
  unfailing := by
    intro change hMember
    cases hMember

/-
  Both steps finalize the object.  It goes away in one run
  and stays in the other, and nothing else differs.
-/
theorem marking_dryRun :
    markingManager.StatusOnly ∧
      markingManager.StepsBehave ∧
      markingManager.StepsQuiet ∧
      markingManager.TokensApart ∧
      Steady markedStart ∧
      markedStart.Unopposed guardKey ∧
      markedStart.scene.store.object? guardKey =
        some markedObject ∧
      (((markingManager.withReadOnly false).reconcile
          guardKey).final markedStart).scene.store.contains
        guardKey = false ∧
      markingManager.DryRun guardKey markedStart [] := by
  have hSteady : Steady markedStart :=
    { goes := rfl
      others := by
        intro change hMember
        cases hMember }
  exact
    ⟨marking_statusOnly, marking_stepsBehave,
      marking_stepsQuiet, marking_tokensApart, hSteady,
      marked_unopposed, marked_stored, by decide +kernel,
      readOnly_dryRun marking_statusOnly marking_stepsBehave
        marking_stepsQuiet marking_tokensApart hSteady
        marked_unopposed marked_stored []⟩

end Manager

end Reconciler
