import Reconciler.Engine.Reconcile
import Reconciler.Script.Turn

/-
  This file defines scenarios: a manager with scripted steps
  over a store, and commands to the two of them from the
  outside.

  Key definitions include:
    * `World`
    * `Command`
    * `Reply`
    * `World.obey`
-/

------------------------------------------------------------
-- Worlds
------------------------------------------------------------

namespace Reconciler

/- A session with scripted steps, and its manager if any. -/
structure World where
  session : Session Memory
  manager : Option (Manager Memory) := none

/- A scene without objects or memories. -/
def Scene.empty
    (now : Clock) : Scene Memory where
  store := {}
  clock := now
  memory := {}

namespace World

/- A world without objects and without a manager. -/
def empty
    (now : Clock) : World where
  session := { scene := .empty now }

/- The store of a world. -/
def store
    (w : World) : Store :=
  w.session.scene.store

/- Change the scene of a world. -/
def mapScene
    (f : Scene Memory → Scene Memory)
    (w : World) : World :=
  { w with
    session := { w.session with scene := f w.session.scene } }

/- Change the store of a world. -/
def mapStore
    (f : Store → Store)
    (w : World) : World :=
  w.mapScene (·.mapStore f)

/- Make a store operation. -/
def onStore
    {α : Type}
    (op : Store → α × Store)
    (w : World) : α × World :=
  let (a, store) := op w.store
  (a, w.mapStore (fun _ => store))

end World

------------------------------------------------------------
-- Commands
------------------------------------------------------------

/- An object at hand, or the stored one of a key. -/
inductive Source where
  | given (o : Object)
  | stored (k : Key)

/- The object of a source. -/
def Source.object?
    (src : Source)
    (s : Store) : Option Object :=
  match src with
  | .given o => some o
  | .stored k => s.object? k

/- What can be asked of a world. -/
inductive Command where
  | reconcile (k : Key) (cancelled : Bool)
      (tags : Table String String)
  | build (b : Blueprint Memory)
  | insert (o : Object)
  | modify (k : Key) (patch : Json)
  | get (k : Key)
  | patch (src : Source) (change : Option Json)
  | updateStatus (src : Source) (change : Option Json)
  | failNext (operation : StoreOperation) (e : StoreError)
  | contains (k : Key)
  | clearHistory
  | advance (d : Duration)
  | setClock (c : Clock)

/- What a world answers. -/
inductive Reply where
  | nothing
  | flag (b : Bool)
  | key (k : Key)
  | object (r : Except StoreError Object)
  | noObject
  | noManager
  | reconciled (r : Except ReconcileError Duration)
  | built (r : Except ConfigError (Manager Memory))

namespace World

/-
  Reconcile a key with a fresh cancellation flag and recover
  from panics.
-/
def reconcile
    (k : Key)
    (cancelled : Bool)
    (tags : Table String String)
    (w : World) : Reply × World :=
  match w.manager with
  | none => (.noManager, w)
  | some m =>
      let w := w.mapScene
        (fun s => { s with cancelled := cancelled })
      let (r, session) :=
        m.reconcileRecovered tags k w.session
      (.reconciled r, { w with session := session })

/-
  Replace the manager; its scripts start with their first
  turns, and its jitter with its first draw.
-/
def build
    (b : Blueprint Memory)
    (w : World) : Reply × World :=
  let w := w.mapScene (fun s =>
    { s with memory := { s.memory with counts := [] } })
  let r := b.build
  (.built r,
    { w with
      session := { w.session with draws := 0 }
      manager := r.toOption })

/- Merge a change into a stored object. -/
def modify
    (k : Key)
    (patch : Json)
    (w : World) : Reply × World :=
  let reply :=
    match w.store.object? k with
    | none => .nothing
    | some o => .flag (o.merged? patch).isSome
  (reply, w.mapStore (·.modify k (·.merged patch)))

/- Make a store operation on an object and a changed one. -/
def write
    (op :
      Object → Object → Store →
        Except StoreError Object × Store)
    (src : Source)
    (change : Option Json)
    (w : World) : Reply × World :=
  match src.object? w.store with
  | none => (.noObject, w)
  | some base =>
      let modified :=
        match change with
        | none => base
        | some patch => base.merged patch
      let (r, w) := w.onStore (op modified base)
      (.object r, w)

/- Do what is asked. -/
def obey
    (w : World) : Command → Reply × World
  | .reconcile k cancelled tags =>
      w.reconcile k cancelled tags
  | .build b => w.build b
  | .insert o => (.key o.key, w.mapStore (·.insert o))
  | .modify k patch => w.modify k patch
  | .get k =>
      let (r, w) := w.onStore (Store.get k)
      (.object r, w)
  | .patch src change => w.write Store.patch src change
  | .updateStatus src change =>
      w.write (fun modified _ => Store.updateStatus modified)
        src change
  | .failNext operation e =>
      (.nothing, w.mapStore (·.failNext operation e))
  | .contains k => (.flag (w.store.contains k), w)
  | .clearHistory => (.nothing, w.mapStore (·.clearHistory))
  | .advance d => (.nothing, w.mapScene (·.advance d))
  | .setClock c =>
      (.nothing, w.mapScene (fun s => { s with clock := c }))

end World

end Reconciler
