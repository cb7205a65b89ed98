import Reconciler.Engine.Tokens

/-
  This file says what adding and removing tokens makes of an
  object: nothing but its list of tokens changes.

  Key definitions include:
    * `Tokens.merged`
    * `Tokens.without`

  Key theorems include:
    * `Tokens.addAll_eq`
    * `Tokens.removeAll_eq`
    * `Tokens.mem_missing`
    * `Tokens.missing_eq_nil_iff`
-/

------------------------------------------------------------
-- Lists of Tokens
------------------------------------------------------------

namespace Reconciler

namespace Tokens

/- A list of tokens with others, each appended if missing. -/
def merged
    (tokens fs : List String) : List String :=
  tokens.foldl
    (fun fs t => if fs.contains t then fs else fs ++ [t]) fs

/- A list of tokens without some of them. -/
def without
    (tokens fs : List String) : List String :=
  fs.filter (fun t => !tokens.contains t)

theorem mem_merged
    (tokens fs : List String)
    (t : String) :
    t ∈ merged tokens fs ↔ t ∈ fs ∨ t ∈ tokens := by
  unfold merged
  induction tokens generalizing fs with
  | nil => simp
  | cons token rest ih =>
      rw [List.foldl_cons, ih, List.mem_cons]
      split
      · next hHas =>
          have hMember : token ∈ fs := by
            simpa using hHas
          constructor
          · rintro (hOld | hRest)
            · exact .inl hOld
            · exact .inr (.inr hRest)
          · rintro (hOld | hSame | hRest)
            · exact .inl hOld
            · exact .inl (hSame ▸ hMember)
            · exact .inr hRest
      · simp [or_assoc]

theorem mem_without
    (tokens fs : List String)
    (t : String) :
    t ∈ without tokens fs ↔ t ∈ fs ∧ t ∉ tokens := by
  unfold without
  simp

theorem without_nil
    (fs : List String) :
    without [] fs = fs :=
  List.filter_eq_self.mpr (fun _ _ => rfl)

/- Tokens are taken out all at once or one after another. -/
theorem without_append
    (tokens tokens' fs : List String) :
    without (tokens ++ tokens') fs =
      without tokens' (without tokens fs) := by
  unfold without
  rw [List.filter_filter]
  apply List.filter_congr
  intro t _
  simp [Bool.and_comm]

/- A list that lacks an added token changes. -/
theorem merged_ne
    {tokens fs : List String}
    {t : String}
    (hToken : t ∈ tokens)
    (hMissing : t ∉ fs) :
    merged tokens fs ≠ fs := by
  intro hSame
  apply hMissing
  rw [← hSame, mem_merged]
  exact .inr hToken

/- A list that has a removed token changes. -/
theorem without_ne
    {tokens fs : List String}
    {t : String}
    (hToken : t ∈ tokens)
    (hHas : t ∈ fs) :
    without tokens fs ≠ fs := by
  intro hSame
  rw [← hSame, mem_without] at hHas
  exact hHas.2 hToken

theorem foldl_addFinalizer
    (tokens : List String)
    (m : Metadata) :
    tokens.foldl (fun m t => m.addFinalizer t) m =
      { m with finalizers := merged tokens m.finalizers } := by
  induction tokens generalizing m with
  | nil => rfl
  | cons token rest ih =>
      rw [List.foldl_cons, ih]
      unfold Metadata.addFinalizer merged
      rw [List.foldl_cons]
      unfold Metadata.hasFinalizer
      split <;> rfl

theorem foldl_removeFinalizer
    (tokens : List String)
    (m : Metadata) :
    tokens.foldl (fun m t => m.removeFinalizer t) m =
      { m with
        finalizers := without tokens m.finalizers } := by
  induction tokens generalizing m with
  | nil =>
      rw [without_nil]
      rfl
  | cons token rest ih =>
      rw [List.foldl_cons, ih]
      unfold Metadata.removeFinalizer without
      dsimp only
      rw [List.filter_filter]
      congr 1
      apply List.filter_congr
      intro t _
      rw [List.contains_cons, Bool.not_or, Bool.and_comm]
      rfl

------------------------------------------------------------
-- Tokens of Objects
------------------------------------------------------------

/- Added tokens are appended to those of the object. -/
theorem addAll_eq
    (tokens : List String)
    (o : Object) :
    addAll tokens o =
      o.withFinalizers
        (merged tokens o.metadata.finalizers) :=
  congrArg (fun m => { o with metadata := m })
    (foldl_addFinalizer tokens o.metadata)

/- Removed tokens are gone, the others stay in order. -/
theorem removeAll_eq
    (tokens : List String)
    (o : Object) :
    removeAll tokens o =
      o.withFinalizers
        (without tokens o.metadata.finalizers) :=
  congrArg (fun m => { o with metadata := m })
    (foldl_removeFinalizer tokens o.metadata)

/- A step owns an object if it carries a token of the step. -/
theorem owns_iff
    {μ : Type}
    (step : Step μ)
    (o : Object) :
    step.owns o = true ↔
      ∃ t ∈ step.tokens o, t ∈ o.metadata.finalizers := by
  unfold Step.owns Metadata.hasFinalizer
  simp

/- There is nothing to take off for a step without a token. -/
theorem without_of_disowned
    {μ : Type}
    {step : Step μ}
    {o : Object}
    (hDisowned : step.owns o = false) :
    without (step.tokens o) o.metadata.finalizers =
      o.metadata.finalizers := by
  apply List.filter_eq_self.mpr
  intro t hHas
  have hOther : t ∉ step.tokens o := by
    intro hToken
    have hOwns := (owns_iff step o).mpr ⟨t, hToken, hHas⟩
    exact absurd (hDisowned.symm.trans hOwns) (by decide)
  simpa using hOther

/- Added tokens are on the object, besides its own. -/
theorem addAll_cases
    (tokens : List String)
    (o : Object) :
    ∃ fs,
      addAll tokens o = o.withFinalizers fs ∧
        ∀ t, t ∈ fs ↔
          t ∈ o.metadata.finalizers ∨ t ∈ tokens :=
  ⟨_, addAll_eq tokens o, mem_merged tokens _⟩

/- Removed tokens are gone, the others stay. -/
theorem removeAll_cases
    (tokens : List String)
    (o : Object) :
    ∃ fs,
      removeAll tokens o = o.withFinalizers fs ∧
        ∀ t, t ∈ fs ↔
          t ∈ o.metadata.finalizers ∧ t ∉ tokens :=
  ⟨_, removeAll_eq tokens o, mem_without tokens _⟩

/- A token is missing if a step declares it in vain. -/
theorem mem_missing
    {μ : Type}
    (steps : List (Step μ))
    (o : Object)
    (t : String) :
    t ∈ missing steps o ↔
      (∃ step ∈ steps, t ∈ step.tokens o) ∧
        t ∉ o.metadata.finalizers := by
  unfold missing declared Metadata.hasFinalizer
  simp

/- None is missing if the object carries all of them. -/
theorem missing_eq_nil_iff
    {μ : Type}
    (steps : List (Step μ))
    (o : Object) :
    missing steps o = [] ↔
      declared steps o ⊆ o.metadata.finalizers := by
  constructor
  · intro hNone t hToken
    by_cases hHas : t ∈ o.metadata.finalizers
    · exact hHas
    · have hMissing :=
        (mem_missing steps o t).mpr
          ⟨List.mem_flatMap.mp hToken, hHas⟩
      rw [hNone] at hMissing
      cases hMissing
  · intro hAll
    refine List.eq_nil_iff_forall_not_mem.mpr ?_
    intro t hMissing
    rcases (mem_missing steps o t).mp hMissing with
      ⟨hDeclared, hLacks⟩
    exact hLacks (hAll (List.mem_flatMap.mpr hDeclared))

/- The tokens of an object are all that can be missing. -/
theorem missing_congr
    {μ : Type}
    {steps : List (Step μ)}
    {o o' : Object}
    (hConstant :
      ∀ step ∈ steps, ∀ o o', step.tokens o = step.tokens o')
    (hTokens :
      o.metadata.finalizers = o'.metadata.finalizers) :
    missing steps o = missing steps o' := by
  have hDeclared : declared steps o = declared steps o' := by
    unfold declared
    rw [List.flatMap_def, List.flatMap_def]
    exact congrArg List.flatten (List.map_congr_left
      (fun step hStep => hConstant step hStep o o'))
  unfold missing Metadata.hasFinalizer
  rw [hDeclared, hTokens]

end Tokens

end Reconciler
