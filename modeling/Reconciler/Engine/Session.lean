import Reconciler.Step.Basic

/-
  This file defines sessions, the state that lasts over the
  reconciles of a host, and the engine's computations on
  them.

  Wherever the engine awaits something, other tasks of the
  host may run first.  What they do is part of the session,
  as a list of changes to the scene of which each pause
  takes one; the empty list is a host without other tasks.
  The journal notes what happened, newest last, each event
  with the scene that it left behind: between two moments
  that follow each other the scene does not change.

  Key definitions include:
    * `Event`
    * `Moment`
    * `Session`
    * `Engine`
    * `Engine.cancellable`
    * `Engine.await`
    * `Engine.call`
-/

------------------------------------------------------------
-- Journals
------------------------------------------------------------

namespace Reconciler

/-
  Other tasks that ran, a store operation with its result, a
  call of the hook or of an entry point, the end of a call,
  or a step with the result that counts for it.
-/
inductive Event where
  | resumed
  | fetched (key : Key)
      (result : Except StoreError Object)
  | patched (modified base : Object)
      (result : Except StoreError Object)
  | statusUpdated (obj : Object)
      (result : Except StoreError Object)
  | hookCalled
  | processCalled (step : String)
  | finalizeCalled (step : String)
  | returned
  | executed (step : String) (result : StepResult)

/- An event with the scene right after it. -/
structure Moment (μ : Type) where
  event : Event
  scene : Scene μ

------------------------------------------------------------
-- Sessions
------------------------------------------------------------

/- The state of the engine over many reconciles. -/
structure Session (μ : Type) where
  scene : Scene μ
  others : List (Scene μ → Scene μ) := []
  journal : List (Moment μ) := []
  reports : List Report := []
  draws : Nat := 0

namespace Session

variable {μ : Type}

/- Add an event to the journal. -/
def note
    (e : Event)
    (s : Session μ) : Session μ :=
  { s with journal := s.journal ++ [⟨e, s.scene⟩] }

/- Go on at another scene, which an event explains. -/
def moveTo
    (e : Event)
    (scene : Scene μ)
    (s : Session μ) : Session μ :=
  note e { s with scene := scene }

/- Let the next of the other tasks run. -/
def resume
    (s : Session μ) : Session μ :=
  match s.others with
  | [] => s
  | change :: rest =>
      moveTo .resumed (change s.scene)
        { s with others := rest }

end Session

/- A computation of the engine. -/
abbrev Engine (μ : Type) :=
  EStateM Halt (Session μ)

namespace Engine

variable {μ α : Type}

/- Add an event to the journal. -/
def note
    (e : Event) : Engine μ Unit :=
  modify (·.note e)

/- Whether the reconcile has been cancelled. -/
def isCancelled : Engine μ Bool := do
  return (← get).scene.cancelled

/- End the run with an error. -/
def fail
    (e : ReconcileError) : Engine μ α :=
  throw (.failed e)

/- Read the wall clock; one that cannot be read panics. -/
def now : Engine μ Instant := do
  match (← get).scene.clock.read with
  | .ok t => return t
  | .error fault =>
      throw (.panicked (.message fault.message))

------------------------------------------------------------
-- Awaiting
------------------------------------------------------------

/- Let the next of the other tasks run. -/
def pause : Engine μ Unit :=
  modify Session.resume

/-
  Await an operation unless the reconcile is cancelled by
  the time it would start.  Nothing is handed back if it
  was not started or was dropped.
-/
def cancellable
    (op : Engine μ (Option α)) : Engine μ (Option α) := do
  pause
  if ← isCancelled then
    return none
  else
    op

/- Await an operation; a cancelled reconcile ends here. -/
def await
    (op : Engine μ (Option α)) : Engine μ α := do
  match ← cancellable op with
  | some a => return a
  | none => fail .cancelled

------------------------------------------------------------
-- Calls and Store Operations
------------------------------------------------------------

/-
  Make a call of a step or a hook.  A dropped call hands
  back nothing; only a cancelled one is dropped.
-/
def call
    (c : Call μ α) : Engine μ (Option α) :=
  fun s =>
    match c s.scene with
    | .ok a scene =>
        .ok (some a) (s.moveTo .returned scene)
    | .error .dropped scene =>
        .ok none (s.moveTo .returned scene.cancel)
    | .error (.panicked p) scene =>
        .error (.panicked p) (s.moveTo .returned scene)

/- Make a store operation and note it with its result. -/
def onStore
    (op : Store → α × Store)
    (event : α → Event) : Engine μ α := do
  let s ← get
  let (a, store) := op s.scene.store
  set (s.moveTo (event a) { s.scene with store := store })
  return a

/- Fetch the object of a key. -/
def fetch
    (k : Key) :
    Engine μ (Except StoreError Object) :=
  onStore (Store.get k) (.fetched k)

/- Patch the stored object of the base's key. -/
def sendPatch
    (modified base : Object) :
    Engine μ (Except StoreError Object) :=
  onStore (Store.patch modified base)
    (.patched modified base)

/- Update the status of the stored object. -/
def sendStatus
    (o : Object) :
    Engine μ (Except StoreError Object) :=
  onStore (Store.updateStatus o) (.statusUpdated o)

end Engine

end Reconciler
