import Reconciler.Proofs.Json.Written
import Reconciler.Proofs.Object.Persisted

/-
  This file proves that patches between objects are exact.

  The JSON form of an object is a record of records, so there
  is no null in it, and what is read from it is the object
  without its budget.  The patch between two objects of one
  kind therefore leads from the one to the other, and is
  empty only if they have the same form.

  Key definitions include:
    * `Object.Proper`

  Key theorems include:
    * `Object.Proper.toJson_written`
    * `Object.Proper.read_toJson`
    * `Object.patches_exact`
-/

------------------------------------------------------------
-- Written Forms
------------------------------------------------------------

namespace Reconciler

open Json (Written)

theorem Instant.toJson_written
    (t : Instant) :
    t.toJson.Written :=
  .str t.text

theorem Condition.toJson_written
    (c : Condition) :
    c.toJson.Written := by
  apply Written.record
  · simp only [List.map_cons, List.map_nil]
    decide
  · exact ⟨.some c.lastTransition.toJson_written,
      .some (.str _), .some (.int _), .some (.str _),
      .some (.str _), .some (.str _)⟩

namespace Status

theorem toJson_written
    (s : Status) :
    s.toJson.Written := by
  apply Written.record
  · simp only [List.map_cons, List.map_nil]
    decide
  · exact ⟨.some (.list Condition.toJson_written _),
      .map Instant.toJson_written _,
      .map Instant.toJson_written _, .some (.int _),
      .some (.str _)⟩

theorem toPlainJson_written
    (s : Status) :
    s.toPlainJson.Written := by
  apply Written.record
  · exact List.pairwise_singleton _ _
  · exact .some (.str _)

end Status

/- Labels are written in the order of their table. -/
theorem Metadata.toJson_written
    {m : Metadata}
    (hLabels : Table.Ordered m.labels) :
    m.toJson.Written := by
  apply Written.record
  · simp only [List.map_cons, List.map_nil]
    decide
  · exact ⟨.map .str _, .map Instant.toJson_written _,
      .some (.list .str _), .some (.int _),
      .some (.textTable hLabels), .some (.str _),
      .map .str _, .map .str _⟩

------------------------------------------------------------
-- Proper Objects
------------------------------------------------------------

namespace Object

open MergePatch (between apply isEmpty)

/-
  What every object is like: its labels are a table in order,
  and the status of a plain one has nothing but its payload.
-/
structure Proper
    (o : Object) : Prop where
  labels : Table.Ordered o.metadata.labels
  plain :
    o.kind = .plain →
      o.status = { payload := o.status.payload }

theorem isObject_toJson
    (o : Object) :
    o.toJson.isObject = true := by
  unfold toJson
  split <;> rfl

namespace Proper

variable {o m : Object}

/- Whatever its kind, an object writes a record of records. -/
theorem toJson_written
    (hProper : o.Proper) :
    o.toJson.Written := by
  have hMetadata :=
    Metadata.toJson_written hProper.labels
  unfold toJson
  split
  · apply Written.record
    · simp only [List.map_cons, List.map_nil]
      decide
    · exact ⟨.some hMetadata, .some o.status.toJson_written⟩
  · apply Written.record
    · simp only [List.map_cons, List.map_nil]
      decide
    · exact ⟨.some hMetadata,
        .some o.status.toPlainJson_written⟩
  · apply Written.record
    · simp only [List.map_cons, List.map_nil]
      decide
    · refine ⟨.some ?_, .some hMetadata,
        .some o.status.toJson_written⟩
      exact .list .str _

/- Nothing but the budget is lost. -/
theorem persisted_eq
    (hProper : o.Proper) :
    o.persisted = o.withoutBudget := by
  have hPlain := hProper.plain
  rcases o with ⟨kind, m, s⟩
  cases kind with
  | plain =>
      have hStatus : s = { payload := s.payload } :=
        hPlain rfl
      change Object.mk .plain m { payload := s.payload } =
        Object.mk .plain m { s with budget := none }
      rw [hStatus]
  | full => rfl
  | listed _ => rfl

/- An object is read as it was written, without its budget. -/
theorem read_toJson
    (hProper : o.Proper) :
    ofJson? o.kind o.toJson = some o.withoutBudget := by
  rw [ofJson?_toJson, hProper.persisted_eq]

end Proper

------------------------------------------------------------
-- Patches
------------------------------------------------------------

/-
  The form of an object has no object with a null member in
  it, and is read as the object, without its budget.  The
  patch between two objects of one kind makes the form of
  the one into what is read as the other, and it is empty
  exactly if the two have the same form.
-/
theorem patches_exact
    {o m : Object}
    (hBase : o.Proper)
    (hModified : m.Proper)
    (hKind : o.kind = m.kind) :
    (∀ members k,
      o.toJson.Holds (.obj members) →
        (k, .null) ∉ members) ∧
      ofJson? o.kind o.toJson = some o.withoutBudget ∧
      ofJson? o.kind
          (apply (between o.toJson m.toJson) o.toJson) =
        some m.withoutBudget ∧
      (isEmpty (between o.toJson m.toJson) = true ↔
        o.toJson = m.toJson) := by
  have hCanonical := hBase.toJson_written.canonical
  have hWritten := hModified.toJson_written
  refine ⟨?_, hBase.read_toJson, ?_, ?_⟩
  · intro members k hHolds
    exact hBase.toJson_written.no_null hHolds k
  · rw [MergePatch.apply_between_written hCanonical hWritten,
      hKind]
    exact hModified.read_toJson
  · exact MergePatch.isEmpty_between_written hCanonical
      hWritten o.isObject_toJson m.isObject_toJson

/- An object that uses every field of its form. -/
def laden : Object where
  kind := .full
  metadata :=
    { name := "a"
      ns := some "ns"
      generation := 3
      resourceVersion := some "7"
      deletionTimestamp := some .epoch
      finalizers := ["f", "g"]
      labels := [("app", "x"), ("tier", "back")] }
  status :=
    { payload := "p"
      observedGeneration := 2
      nextReconcile := some .epoch
      lastReconcile := some .epoch
      budget := some (.ofSeconds 300)
      conditions :=
        [⟨"Ready", .unknown, "Processing", "wait", .epoch, 2⟩] }

/- The same object, after what could be left out has gone. -/
def eased : Object where
  kind := .full
  metadata :=
    { name := "a"
      ns := some "ns"
      generation := 3
      finalizers := ["g"]
      labels := [("tier", "front")] }
  status :=
    { payload := "q"
      budget := some (.ofSeconds 120)
      conditions :=
        [⟨"Ready", .yes, "Complete", "done", .epoch, 3⟩] }

/- A plain object. -/
def bare : Object :=
  ⟨.plain, .fresh "ns" "b", { payload := "p" }⟩

theorem laden_patches_exact :
    (laden.Proper ∧ eased.Proper ∧ bare.Proper) ∧
      ofJson? .full
          (apply (between laden.toJson eased.toJson)
            laden.toJson) =
        some eased.withoutBudget ∧
      ofJson? .plain
          (apply
            (between bare.toJson
              (bare.withFinalizers ["f"]).toJson)
            bare.toJson) =
        some (bare.withFinalizers ["f"]) := by
  have hLaden : laden.Proper :=
    ⟨by decide, fun hPlain => by cases hPlain⟩
  have hEased : eased.Proper :=
    ⟨by decide, fun hPlain => by cases hPlain⟩
  have hBare : bare.Proper := ⟨by decide, fun _ => rfl⟩
  have hGuarded : (bare.withFinalizers ["f"]).Proper :=
    ⟨by decide, fun _ => rfl⟩
  refine ⟨⟨hLaden, hEased, hBare⟩, ?_, ?_⟩
  · exact (patches_exact hLaden hEased rfl).2.2.1
  · exact (patches_exact hBare hGuarded rfl).2.2.1

end Object

end Reconciler
