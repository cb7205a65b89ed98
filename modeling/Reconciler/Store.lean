import Reconciler.Error.Store
import Reconciler.Json.MergePatch
import Reconciler.Object.Basic
import Reconciler.Text.Quoted

/-
  This file defines an object store in memory for objects
  of one kind each, with a status of its own:

    * `Store.patch` applies the merge patch between two
      objects and never touches the status;
    * `Store.updateStatus` replaces only the status and
      refuses stale resource versions;
    * every write takes a fresh resource version, also one
      that turns out to change nothing;
    * an object that is being deleted and has no tokens
      left is removed.

  Failures can be queued for each operation; each of them
  fails exactly one call.

  Key definitions include:
    * `Store`
    * `Store.object?`
    * `Store.insert`
    * `Store.modify`
    * `Store.get`
    * `Store.patch`
    * `Store.updateStatus`
-/

------------------------------------------------------------
-- The Store
------------------------------------------------------------

namespace Reconciler

/- A patch as the store received it. -/
structure RecordedPatch where
  key : Key
  patch : Json
deriving DecidableEq

/- The operations that can be made to fail. -/
inductive StoreOperation where
  | get
  | patch
  | status
deriving DecidableEq, Repr

/-
  Stored objects, the count of versions handed out, what
  has been recorded about calls, and the failures to come.
-/
structure Store where
  objects : Table Key Object := []
  version : Nat := 0
  patches : List RecordedPatch := []
  statusUpdates : List Object := []
  gets : Nat := 0
  getFailures : List StoreError := []
  patchFailures : List StoreError := []
  statusFailures : List StoreError := []

namespace Store

instance : Inhabited Store :=
  ⟨{}⟩

/- The stored object of a key. -/
def object?
    (k : Key)
    (s : Store) : Option Object :=
  Table.get? k s.objects

/- Whether an object is stored under a key. -/
def contains
    (k : Key)
    (s : Store) : Bool :=
  (s.object? k).isSome

/- The resource version with a given number. -/
def versionText
    (n : Nat) : Option String :=
  some (toString n)

/- Take the next resource version. -/
def takeVersion
    (s : Store) : Option String × Store :=
  (versionText (s.version + 1),
    { s with version := s.version + 1 })

/- Store an object under a key. -/
def place
    (k : Key)
    (o : Object)
    (s : Store) : Store :=
  { s with objects := Table.put k o s.objects }

/- Remove the object of a key. -/
def discard
    (k : Key)
    (s : Store) : Store :=
  { s with objects := Table.erase k s.objects }

------------------------------------------------------------
-- Other Writers
------------------------------------------------------------

/- Insert or replace an object, with a fresh version. -/
def insert
    (o : Object)
    (s : Store) : Store :=
  let (version, s) := s.takeVersion
  s.place o.key (o.withVersion version)

/-
  Change a stored object in place; a version is taken even
  if the key is absent.
-/
def modify
    (k : Key)
    (f : Object → Object)
    (s : Store) : Store :=
  let (version, s) := s.takeVersion
  match s.object? k with
  | none => s
  | some o => s.place k ((f o).withVersion version)

/- Let the next call of an operation fail. -/
def failNext
    (operation : StoreOperation)
    (e : StoreError)
    (s : Store) : Store :=
  match operation with
  | .get =>
      { s with getFailures := s.getFailures ++ [e] }
  | .patch =>
      { s with patchFailures := s.patchFailures ++ [e] }
  | .status =>
      { s with statusFailures := s.statusFailures ++ [e] }

/- Forget the recorded calls; the objects stay. -/
def clearHistory
    (s : Store) : Store :=
  { s with patches := [], statusUpdates := [], gets := 0 }

------------------------------------------------------------
-- Operations of the Engine
------------------------------------------------------------

/- Fetch the object of a key. -/
def get
    (k : Key)
    (s : Store) : Except StoreError Object × Store :=
  let s := { s with gets := s.gets + 1 }
  match s.getFailures with
  | e :: rest => (.error e, { s with getFailures := rest })
  | [] =>
      match s.object? k with
      | some o => (.ok o, s)
      | none => (.error (.notFound k), s)

/- The patch between two objects, without their statuses. -/
def mainPatch
    (modified base : Object) : Json :=
  match MergePatch.between base.toJson modified.toJson with
  | .obj members => .obj (Table.erase "status" members)
  | patch => patch

/-
  What a patch makes of a stored object: its JSON form is
  patched and read again.
-/
def patched?
    (patch : Json)
    (stored : Object) : Option Object :=
  Object.ofJson? stored.kind
    (MergePatch.apply patch stored.toJson)

/-
  Store a changed object, or remove it if it is being
  deleted and has no tokens left.
-/
def settle
    (k : Key)
    (o : Object)
    (s : Store) : Store :=
  if o.isDeleting && o.metadata.finalizers.isEmpty then
    s.discard k
  else
    s.place k o

/- Note a patch that has been received. -/
def record
    (k : Key)
    (patch : Json)
    (s : Store) : Store :=
  let received : RecordedPatch := ⟨k, patch⟩
  { s with patches := s.patches ++ [received] }

/-
  Apply the patch between two objects to the object stored
  under the key of the base, and hand back the result.
-/
def patch
    (modified base : Object)
    (s : Store) : Except StoreError Object × Store :=
  let k := base.key
  match s.patchFailures with
  | e :: rest =>
      (.error e, { s with patchFailures := rest })
  | [] =>
      let patch := mainPatch modified base
      let (version, s) := (s.record k patch).takeVersion
      match s.object? k with
      | none => (.error (.notFound k), s)
      | some stored =>
          if MergePatch.isEmpty patch then
            (.ok stored, s)
          else
            match patched? patch stored with
            | none =>
                (.error (.serialization "unreadable object"),
                  s)
            | some o =>
                let o := o.withVersion version
                (.ok o, s.settle k o)

/- What a refused status update says. -/
def staleDetail
    (given current : Option String) : String :=
  "resource version " ++ Text.quotedOption given ++
    " is stale, current is " ++ Text.quotedOption current

/-
  Replace the status of the stored object of the same key,
  if the resource versions agree, and hand back the result.
-/
def updateStatus
    (o : Object)
    (s : Store) : Except StoreError Object × Store :=
  let k := o.key
  match s.statusFailures with
  | e :: rest =>
      (.error e, { s with statusFailures := rest })
  | [] =>
      let (version, s) := s.takeVersion
      match s.object? k with
      | none => (.error (.notFound k), s)
      | some stored =>
          let given := o.metadata.resourceVersion
          let current := stored.metadata.resourceVersion
          if given = current then
            let updated :=
              (stored.mapStatus
                (fun _ => o.status)).withVersion version
            (.ok updated,
              { s.place k updated with
                statusUpdates := s.statusUpdates ++ [o] })
          else
            (.error (.conflict k
              (staleDetail given current)), s)

end Store

end Reconciler
