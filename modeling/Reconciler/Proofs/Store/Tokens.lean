import Reconciler.Proofs.Store.Patch

/-
  This file says what the writes of the engine do to the
  tokens of a stored object.

  A patch of tokens sets them; every other write keeps them.
  An object without tokens may go away in a write.

  Key definitions include:
    * `Store.Retokens`

  Key theorems include:
    * `Store.patch_withFinalizers`
    * `Store.patch_removeRefreshLabel`
    * `Store.updateStatus_tokens`
-/

------------------------------------------------------------
-- Writes and Tokens
------------------------------------------------------------

namespace Reconciler

namespace Store

/-
  The object of a key is written with a list of tokens, or
  goes away if the list is empty.
-/
def Retokens
    (k : Key)
    (fs : List String)
    (s s' : Store) : Prop :=
  ∃ stored,
    s.object? k = some stored ∧
      ((∃ o,
        s'.object? k = some o ∧
          o.key = stored.key ∧
          o.metadata.finalizers = fs) ∨
      (s'.object? k = none ∧ fs = []))

namespace Retokens

variable {k : Key}
variable {s s' : Store}
variable {stored o : Object}

/- A store with the same objects. -/
theorem of_objects
    (hStored : s.object? k = some stored)
    (hObjects : s'.objects = s.objects) :
    Retokens k stored.metadata.finalizers s s' := by
  refine ⟨stored, hStored, .inl ⟨stored, ?_, rfl, rfl⟩⟩
  rw [object?_congr hObjects]
  exact hStored

/- A store in which a patched object has been settled. -/
theorem of_settle
    {fs : List String}
    (hStored : s.object? k = some stored)
    (hObjects : s'.objects = (s.settle k o).objects)
    (hKey : o.key = stored.key)
    (hFinalizers : o.metadata.finalizers = fs) :
    Retokens k fs s s' := by
  have hObject := object?_congr hObjects k
  rw [object?_settle, if_pos rfl] at hObject
  refine ⟨stored, hStored, ?_⟩
  split at hObject
  · next hRemoved =>
      have hEmpty : o.metadata.finalizers = [] := by
        have hBoth := Bool.and_eq_true_iff.mp hRemoved
        exact List.isEmpty_iff.mp hBoth.2
      exact .inr ⟨hObject, hFinalizers.symm.trans hEmpty⟩
  · exact .inl ⟨o, hObject, hKey, hFinalizers⟩

end Retokens

/-
  A patch of tokens fails and changes no object, or sets the
  tokens.
-/
theorem patch_withFinalizers
    {base : Object}
    {s : Store}
    (fs : List String)
    (hTokens :
      ∀ stored, s.object? base.key = some stored →
        stored.metadata.finalizers =
          base.metadata.finalizers) :
    (∃ e,
      (patch (base.withFinalizers fs) base s).1 = .error e ∧
        (patch (base.withFinalizers fs) base s).2.objects =
          s.objects) ∨
    (∃ o,
      (patch (base.withFinalizers fs) base s).1 = .ok o ∧
        Retokens base.key fs s
          (patch (base.withFinalizers fs) base s).2) := by
  rcases patch_cases (base.withFinalizers fs) base s with
    hFailed |
    ⟨stored, hStored, hEmpty, hOk, _, hObjects⟩ |
    ⟨stored, o, hStored, hChanges, hPatched, hOk, _,
      hObjects⟩
  · exact .inl hFailed
  · have hSame : fs = stored.metadata.finalizers := by
      rw [hTokens stored hStored]
      rw [mainPatch_withFinalizers] at hEmpty
      split at hEmpty
      · next hSame => exact hSame
      · cases hEmpty
    rw [hSame] at hOk hObjects ⊢
    exact .inr ⟨stored, hOk, .of_objects hStored hObjects⟩
  · rw [mainPatch_withFinalizers] at hChanges hPatched
    split at hChanges
    · cases hChanges
    · next hChanged =>
        rw [if_neg hChanged] at hPatched
        have hKey : o.key = stored.key :=
          patched?_key hPatched (by simp)
        have hFinalizers : o.metadata.finalizers = fs :=
          patched?_finalizers hPatched
        exact .inr
          ⟨_, hOk,
            .of_settle hStored hObjects hKey hFinalizers⟩

/- A patch of labels keeps the tokens. -/
theorem patch_removeRefreshLabel
    (base : Object)
    (s : Store) :
    (patch (base.mapMetadata (·.removeRefreshLabel))
        base s).2.objects = s.objects ∨
      ∃ stored,
        s.object? base.key = some stored ∧
          Retokens base.key stored.metadata.finalizers s
            (patch (base.mapMetadata (·.removeRefreshLabel))
              base s).2 := by
  rcases patch_cases
    (base.mapMetadata (·.removeRefreshLabel)) base s with
    ⟨_, _, hObjects⟩ |
    ⟨_, _, _, _, _, hObjects⟩ |
    ⟨stored, o, hStored, hChanges, hPatched, _, _, hObjects⟩
  · exact .inl hObjects
  · exact .inl hObjects
  · rcases mainPatch_removeRefreshLabel base with
      hEmpty | ⟨changes, hPatch, hLabels⟩
    · rw [hEmpty] at hChanges
      cases hChanges
    · rw [hPatch] at hPatched
      have hKey : o.key = stored.key := by
        apply patched?_key hPatched
        intro e hMember
        rw [hLabels e hMember]
        simp
      have hFinalizers :
          o.metadata.finalizers =
            stored.metadata.finalizers := by
        apply patched?_finalizers_kept hPatched
        intro e hMember
        rw [hLabels e hMember]
        simp
      exact .inr
        ⟨stored, hStored,
          .of_settle hStored hObjects hKey hFinalizers⟩

/- A status update keeps the tokens. -/
theorem updateStatus_tokens
    (o : Object)
    (s : Store) :
    (updateStatus o s).2.objects = s.objects ∨
      ∃ stored,
        s.object? o.key = some stored ∧
          Retokens o.key stored.metadata.finalizers s
            (updateStatus o s).2 := by
  rcases updateStatus_cases o s with
    ⟨_, _, hObjects⟩ |
    ⟨old, stored, hOld, hStored, _, _, hObjects⟩
  · exact .inl hObjects
  · refine .inr
      ⟨old, hOld, old, hOld, .inl ⟨stored, ?_, ?_, ?_⟩⟩
    · change Table.get? o.key _ = _
      rw [hObjects, Table.get?_put, if_pos rfl]
    · rw [hStored]
      rfl
    · rw [hStored]
      rfl

end Store

end Reconciler
