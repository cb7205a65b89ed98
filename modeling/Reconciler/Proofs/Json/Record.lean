import Reconciler.Json.Basic
import Reconciler.Proofs.Table

/-
  This file proves that records show their fields, and that
  texts are read as they were written.

  Key theorems include:
    * `Json.get?_record`
    * `Json.optional?_text`
    * `Json.asList?_texts`
-/

------------------------------------------------------------
-- Records
------------------------------------------------------------

namespace Reconciler

namespace Json

/- The members of a record are among its fields. -/
theorem keys_record
    (fields : List (String × Option Json)) :
    (Table.keys (record fields).members).Sublist
      (fields.map (·.1)) := by
  induction fields with
  | nil => exact .slnil
  | cons field rest ih =>
      rcases field with ⟨k, v?⟩
      cases v? with
      | none => exact .cons _ ih
      | some v => exact .cons_cons _ ih

/- A record shows the value that a field was given. -/
theorem get?_record
    {fields : List (String × Option Json)}
    {k : String}
    {v? : Option Json}
    (hKeys : (fields.map (·.1)).Nodup)
    (hField : (k, v?) ∈ fields) :
    Table.get? k (record fields).members = v? := by
  cases v? with
  | some v =>
      apply Table.get?_of_mem
      · exact hKeys.sublist (keys_record fields)
      · exact List.mem_filterMap.mpr ⟨(k, some v), hField, rfl⟩
  | none =>
      cases hFound : Table.get? k (record fields).members with
      | none => rfl
      | some v =>
          -- The field of that value would have the same key.
          have hMember := Table.mem_of_get? hFound
          rcases List.mem_filterMap.mp hMember with
            ⟨⟨l, w?⟩, hOther, hValue⟩
          rcases Option.map_eq_some_iff.mp hValue with
            ⟨w, hSome, hEntry⟩
          cases hEntry
          have hSame :=
            List.inj_on_of_nodup_map hKeys hField hOther rfl
          cases hSame
          cases hSome

/- A record with a field that has a value. -/
theorem record_field
    (pre post : List (String × Option Json))
    (k : String)
    (v : Json) :
    record (pre ++ (k, some v) :: post) =
      .obj ((record pre).members ++
        (k, v) :: (record post).members) := by
  unfold record
  rw [List.filterMap_append]
  rfl

------------------------------------------------------------
-- Texts
------------------------------------------------------------

/- Texts agree only if they are the same. -/
theorem agree_texts
    {ss ss' : List String}
    (hAgree : Agree (texts ss) (texts ss')) :
    ss = ss' := by
  have hSignless :
      ∀ ts : List String,
        signlessItems (ts.map .str) = ts.map .str := by
    intro ts
    induction ts with
    | nil => rfl
    | cons t rest ih =>
        rw [List.map_cons, signlessItems, ih]
        rfl
  unfold Agree texts at hAgree
  rw [signless, signless, hSignless, hSignless] at hAgree
  injection hAgree with hItems
  apply List.map_injective_iff.mpr _ hItems
  intro s s' hText
  injection hText

/- A list of texts is read as it was written. -/
theorem asList?_texts
    (ss : List String) :
    asList? asText? (texts ss) = some ss := by
  have hItems :
      (ss.map Json.str).mapM asText? = some ss := by
    induction ss with
    | nil => rfl
    | cons s rest ih =>
        rw [List.map_cons, List.mapM_cons, ih]
        rfl
  exact hItems

/- A text that may be missing is read as it was written. -/
theorem optional?_text
    {k : String}
    {s? : Option String}
    {t : Table String Json}
    (hMember : Table.get? k t = s?.map .str) :
    optional? asText? k t = some s? := by
  unfold optional?
  rw [hMember]
  cases s? with
  | none => rfl
  | some s => rfl

end Json

end Reconciler
