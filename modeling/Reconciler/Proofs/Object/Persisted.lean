import Reconciler.Object.Basic
import Reconciler.Proofs.Json.Record
import Reconciler.Proofs.Time.Text

/-
  This file proves that objects are read as they were
  written, but for what their JSON form leaves out: the
  budget, and of the status of a plain object everything but
  the payload.

  Records are read by their members, so what is proved is
  said of every table that shows the members of a record;
  a patched record is such a table.

  Key definitions include:
    * `Metadata.Shown`
    * `Object.persisted`

  Key theorems include:
    * `Metadata.Shown.read`
    * `Condition.ofJson?_toJson`
    * `Status.ofJson?_toJson`
    * `Object.read_persisted`
-/

------------------------------------------------------------
-- Members
------------------------------------------------------------

namespace Reconciler

namespace Json

variable {α : Type}
variable {read? : Json → Option α}
variable {k : String}
variable {t : Table String Json}

theorem required?_member
    {v : Json}
    {a : α}
    (hMember : Table.get? k t = some v)
    (hRead : read? v = some a) :
    required? read? k t = some a := by
  unfold required?
  rw [hMember]
  exact hRead

theorem defaulted?_member
    {missing a : α}
    {v : Json}
    (hMember : Table.get? k t = some v)
    (hRead : read? v = some a) :
    defaulted? read? missing k t = some a := by
  unfold defaulted?
  rw [hMember]
  exact hRead

/- A member that may be missing is read as it was written. -/
theorem optional?_member
    {write : α → Json}
    {a? : Option α}
    (hMember : Table.get? k t = a?.map write)
    (hValue : ∀ a, (write a).isNull = false)
    (hRead : ∀ a, read? (write a) = some a) :
    optional? read? k t = some a? := by
  unfold optional?
  rw [hMember]
  cases a? with
  | none => rfl
  | some a =>
      rw [Option.map_some]
      split
      · next hNone => cases hNone
      · next hNull =>
          have hIsNull := hValue a
          rw [Option.some.inj hNull] at hIsNull
          cases hIsNull
      · next v _ hSome =>
          rw [← Option.some.inj hSome, hRead]
          rfl

/- A number is read as it was written. -/
theorem asInt64?_int
    (i : Int64) :
    asInt64? (.int i.toInt) = some i := by
  have hInt :
      (Json.int i.toInt).asIntIn? (-0x8000000000000000)
          0x8000000000000000 =
        some i.toInt :=
    if_pos ⟨i.le_toInt, i.toInt_lt⟩
  unfold asInt64?
  rw [hInt, Option.map_some, Int64.ofInt_toInt]

theorem defaulted?_number
    {missing i : Int64}
    (hMember : Table.get? k t = some (.int i.toInt)) :
    defaulted? asInt64? missing k t = some i :=
  defaulted?_member hMember (asInt64?_int i)

theorem mapM_map
    {item? : Json → Option α}
    {write : α → Json}
    (hRead : ∀ a, item? (write a) = some a)
    (as : List α) :
    (as.map write).mapM item? = some as := by
  induction as with
  | nil => rfl
  | cons a rest ih =>
      rw [List.map_cons, List.mapM_cons, hRead, ih]
      rfl

theorem asTextTable?_textTable
    (t : Table String String) :
    asTextTable? (.textTable t) = some t := by
  unfold textTable asTextTable?
  dsimp only
  induction t with
  | nil => rfl
  | cons e rest ih =>
      rw [List.map_cons, List.mapM_cons, ih]
      rfl

end Json

------------------------------------------------------------
-- Metadata
------------------------------------------------------------

namespace Metadata

/- A table that shows the members of metadata. -/
structure Shown
    (m : Metadata)
    (t : Table String Json) : Prop where
  name : Table.get? "name" t = some (.str m.name)
  ns : Table.get? "namespace" t = m.ns.map .str
  cluster : Table.get? "cluster" t = m.cluster.map .str
  generation :
    Table.get? "generation" t =
      some (.int m.generation.toInt)
  version :
    Table.get? "resourceVersion" t =
      m.resourceVersion.map .str
  deletion :
    Table.get? "deletionTimestamp" t =
      m.deletionTimestamp.map Instant.toJson
  finalizers :
    Table.get? "finalizers" t = some (.texts m.finalizers)
  labels :
    Table.get? "labels" t = some (.textTable m.labels)

/- Metadata show their own members. -/
theorem shown_toJson
    (m : Metadata) :
    Shown m m.toJson.members := by
  constructor <;> apply Json.get?_record <;> simp

/- Metadata are read from a table that shows them. -/
theorem Shown.read
    {m : Metadata}
    {t : Table String Json}
    (hShown : Shown m t) :
    ofJson? (.obj t) = some m := by
  unfold ofJson?
  refine read_part (a := t) rfl ?_
  refine read_part
    (Json.required?_member hShown.name rfl) ?_
  refine read_part
    (Json.optional?_member hShown.ns (fun _ => rfl)
      (fun _ => rfl)) ?_
  refine read_part
    (Json.optional?_member hShown.cluster (fun _ => rfl)
      (fun _ => rfl)) ?_
  refine read_part
    (Json.defaulted?_number hShown.generation) ?_
  refine read_part
    (Json.optional?_member hShown.version (fun _ => rfl)
      (fun _ => rfl)) ?_
  refine read_part
    (Json.optional?_member hShown.deletion (fun _ => rfl)
      Instant.ofJson?_toJson) ?_
  refine read_part
    (Json.defaulted?_member hShown.finalizers
      (Json.asList?_texts _)) ?_
  refine read_part
    (Json.defaulted?_member hShown.labels
      (Json.asTextTable?_textTable _)) ?_
  rfl

end Metadata

------------------------------------------------------------
-- Conditions and Statuses
------------------------------------------------------------

theorem ConditionStatus.ofText?_text
    (s : ConditionStatus) :
    ofText? s.text = some s := by
  cases s <;> rfl

/- A condition is read as it was written. -/
theorem Condition.ofJson?_toJson
    (c : Condition) :
    ofJson? c.toJson = some c := by
  unfold ofJson? toJson
  refine read_part rfl ?_
  refine read_part
    (Json.required?_member (v := .str c.type) rfl rfl) ?_
  refine read_part
    (Json.required?_member (v := .str c.status.text) rfl
      c.status.ofText?_text) ?_
  refine read_part
    (Json.required?_member (v := .str c.reason) rfl rfl) ?_
  refine read_part
    (Json.required?_member (v := .str c.message) rfl rfl) ?_
  refine read_part
    (Json.required?_member (v := c.lastTransition.toJson) rfl
      c.lastTransition.ofJson?_toJson) ?_
  refine read_part
    (Json.defaulted?_number (i := c.observedGeneration)
      rfl) ?_
  rfl

namespace Status

/- A status shows its members. -/
theorem get?_toJson
    (s : Status) :
    Table.get? "some" s.toJson.members =
        some (.str s.payload) ∧
      Table.get? "observedGeneration" s.toJson.members =
        some (.int s.observedGeneration.toInt) ∧
      Table.get? "nextReconcileTime" s.toJson.members =
        s.nextReconcile.map Instant.toJson ∧
      Table.get? "lastReconcileTime" s.toJson.members =
        s.lastReconcile.map Instant.toJson ∧
      Table.get? "conditions" s.toJson.members =
        some (.arr (s.conditions.map Condition.toJson)) := by
  refine ⟨?_, ?_, ?_, ?_, ?_⟩ <;>
    apply Json.get?_record <;> simp

/- A status is read as it was written, without its budget. -/
theorem ofJson?_toJson
    (s : Status) :
    ofJson? s.toJson = some { s with budget := none } := by
  rcases s.get?_toJson with
    ⟨hPayload, hGeneration, hNext, hLast, hConditions⟩
  unfold ofJson?
  refine read_part (a := s.toJson.members) rfl ?_
  refine read_part
    (Json.defaulted?_member hPayload rfl) ?_
  refine read_part
    (Json.defaulted?_number hGeneration) ?_
  refine read_part
    (Json.optional?_member hNext (fun _ => rfl)
      Instant.ofJson?_toJson) ?_
  refine read_part
    (Json.optional?_member hLast (fun _ => rfl)
      Instant.ofJson?_toJson) ?_
  refine read_part
    (Json.defaulted?_member hConditions
      (Json.mapM_map Condition.ofJson?_toJson _)) ?_
  rfl

/- Of the status of a plain object the payload is read. -/
theorem ofPlainJson?_toPlainJson
    (s : Status) :
    ofPlainJson? s.toPlainJson =
      some { payload := s.payload } :=
  rfl

end Status

theorem Capability.ofJson?_text
    (c : Capability) :
    ofJson? (.str c.text) = some c := by
  cases c <;> rfl

------------------------------------------------------------
-- Objects
------------------------------------------------------------

namespace Object

/-
  What the JSON form keeps of an object: of the status of a
  plain one the payload, of any other all but the budget.
-/
def persisted
    (o : Object) : Object :=
  match o.kind with
  | .plain =>
      o.mapStatus (fun s => { payload := s.payload })
  | _ => o.withoutBudget

@[simp]
theorem persisted_kind
    (o : Object) :
    o.persisted.kind = o.kind := by
  unfold persisted
  split <;> rfl

@[simp]
theorem persisted_metadata
    (o : Object) :
    o.persisted.metadata = o.metadata := by
  unfold persisted
  split <;> rfl

/- Metadata do not matter for what is kept of the status. -/
theorem persisted_mapMetadata
    (o : Object)
    (f : Metadata → Metadata) :
    (o.mapMetadata f).persisted =
      o.persisted.mapMetadata f := by
  unfold persisted
  change (match o.kind with | .plain => _ | _ => _) = _
  split <;> rfl

/- Reading what was kept keeps all of it. -/
theorem persisted_persisted
    (o : Object) :
    o.persisted.persisted = o.persisted := by
  rcases o with ⟨kind, m, s⟩
  cases kind <;> rfl

/-
  An object without a budget is kept as it is; the status of
  a plain one has nothing but its payload.
-/
theorem persisted_of_noBudget
    {o : Object}
    (hBudget : o.status.budget = none)
    (hPlain :
      o.kind = .plain →
        o.status = { payload := o.status.payload }) :
    o.persisted = o := by
  rcases o with ⟨kind, m, s⟩
  cases kind with
  | plain =>
      change Object.mk _ _ { payload := s.payload } = _
      rw [← hPlain rfl]
  | full =>
      change Object.mk _ _ { s with budget := none } = _
      rw [← hBudget]
  | listed _ =>
      change Object.mk _ _ { s with budget := none } = _
      rw [← hBudget]

/-
  An object is read from members that show its status and
  capabilities, with whatever metadata they show.
-/
theorem read_persisted
    {o : Object}
    {m : Metadata}
    {t metadata : Table String Json}
    (hMetadata :
      Table.get? "metadata" t = some (.obj metadata))
    (hShown : m.Shown metadata)
    (hOther :
      ∀ k ∈ ["status", "caps"],
        Table.get? k t = Table.get? k o.toJson.members) :
    ofJson? o.kind (.obj t) =
      some (o.persisted.mapMetadata (fun _ => m)) := by
  have hStatus := hOther "status" (by simp)
  have hCaps := hOther "caps" (by simp)
  unfold ofJson?
  refine read_part (a := t) rfl ?_
  refine read_part
    (Json.required?_member hMetadata hShown.read) ?_
  rcases o with ⟨kind, m', s⟩
  cases kind with
  | full =>
      exact read_part
        (Json.defaulted?_member hStatus s.ofJson?_toJson) rfl
  | plain =>
      exact read_part
        (Json.defaulted?_member hStatus
          s.ofPlainJson?_toPlainJson) rfl
  | listed cs =>
      refine read_part
        (Json.defaulted?_member hStatus s.ofJson?_toJson) ?_
      refine read_part
        (Json.defaulted?_member (a := cs) hCaps ?_) rfl
      have hItems :=
        Json.mapM_map Capability.ofJson?_text cs
      unfold Json.texts
      rw [List.map_map]
      exact hItems

/- An object is read as what its JSON form keeps of it. -/
theorem ofJson?_toJson
    (o : Object) :
    ofJson? o.kind o.toJson = some o.persisted := by
  have hMembers : o.toJson = .obj o.toJson.members := by
    rcases o with ⟨kind, m, s⟩
    cases kind <;> rfl
  have hMetadata :
      Table.get? "metadata" o.toJson.members =
        some (.obj o.metadata.toJson.members) := by
    rcases o with ⟨kind, m, s⟩
    cases kind <;> rfl
  rw [hMembers, read_persisted hMetadata
    o.metadata.shown_toJson (fun _ _ => rfl)]
  rw [← persisted_metadata o]
  rfl

end Object

end Reconciler
