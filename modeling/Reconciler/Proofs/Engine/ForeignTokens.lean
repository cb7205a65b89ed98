import Reconciler.Proofs.Engine.Mirror

/-
  This file says what a patch of tokens does to the tokens
  that someone else has changed in the meantime.

  A patch holds the whole list of tokens, computed from the
  snapshot, so the stored list becomes that list whatever it
  was.  What others did to tokens of their own since the
  snapshot was taken is undone; nothing else of the stored
  object is touched.

  Key definitions include:
    * `Store.tokensAt`
    * `Copies.Rewrites`
    * `TokenCall`
    * `TokenCall.OnlyOwn`

  Key theorems include:
    * `Copies.rewrites_of_sent`
    * `TokenCall.run_eq`
    * `TokenCall.onlyOwn_iff`
    * `TokenCall.run_tokens`
-/

------------------------------------------------------------
-- Stored Tokens
------------------------------------------------------------

namespace Reconciler

variable {μ : Type}

/- The tokens stored under a key; nothing stored has none. -/
def Store.tokensAt
    (k : Key)
    (store : Store) : List String :=
  match store.object? k with
  | none => []
  | some o => o.metadata.finalizers

namespace Copies

/-
  A patch has put a list of tokens in the place of the
  stored one: the stored object takes it, or goes away if it
  is being deleted and the list is empty.  Other objects
  stay, and both copies take list and version over.
-/
structure Rewrites
    (c : Copies)
    (new : List String)
    (s : Session μ)
    (c' : Copies)
    (s' : Session μ) : Prop where
  copies :
    ∃ version,
      c' =
        ⟨(c.obj.withFinalizers new).withVersion version,
          (c.snapshot.withFinalizers new).withVersion
            version⟩
  stored :
    ∃ stored,
      s.scene.store.object? c.snapshot.key = some stored ∧
        s'.scene.store.object? c.snapshot.key =
          (if stored.isDeleting && new.isEmpty then none
          else some (stored.persisted.retokened new
            c'.snapshot.metadata.resourceVersion))
  others :
    ∀ k, k ≠ c.snapshot.key →
      s'.scene.store.object? k = s.scene.store.object? k

variable {c c' : Copies}
variable {new : List String}
variable {s s' : Session μ}

/- The stored tokens are the new ones, whatever they were. -/
theorem Rewrites.tokensAt
    (hRewrites : c.Rewrites new s c' s') :
    s'.scene.store.tokensAt c.snapshot.key = new := by
  rcases hRewrites.stored with ⟨stored, _, hStored⟩
  unfold Store.tokensAt
  rw [hStored]
  by_cases hGone :
      (stored.isDeleting && new.isEmpty) = true
  · rw [if_pos hGone]
    have hEmpty := (Bool.and_eq_true_iff.mp hGone).2
    exact (List.isEmpty_iff.mp hEmpty).symm
  · rw [if_neg hGone]
    rfl

/- A patch of other tokens that succeeds rewrites the list. -/
theorem rewrites_of_sent
    {sent : Bool}
    (hChanged : new ≠ c.snapshot.metadata.finalizers)
    (hRun :
      Engine.sendTokens
          { c with obj := c.obj.withFinalizers new } s =
        .ok (.ok sent, c') s') :
    sent = true ∧ c.Rewrites new s c' s' := by
  have hTriple :
      Engine.Triple (fun s' => s' = s)
        (Engine.sendTokens
          { c with obj := c.obj.withFinalizers new })
        (fun r s' =>
          ∀ sent,
            r.1 = .ok sent →
              sent = true ∧ c.Rewrites new s r.2 s')
        (fun _ _ => True) := by
    apply Manager.sendTokens_triple
    · intro s o store hSame hPatch sent hSent
      cases hSame
      cases hSent
      rcases Store.patch_tokens_ok hChanged hPatch with
        ⟨stored, version, hStored, hPatched, hObjects⟩
      have hShown :
          ∀ k, store.object? k =
            (s.scene.store.settle c.snapshot.key o).object?
              k :=
        Store.object?_congr hObjects
      cases hPatched
      have hDeleting :
          stored.persisted.metadata.isDeleting =
            stored.isDeleting := by
        rw [Object.persisted_metadata]
        rfl
      refine ⟨rfl, ⟨⟨_, rfl⟩, ⟨stored, hStored, ?_⟩, ?_⟩⟩
      · rw [Session.moveTo_scene, hShown,
          Store.object?_settle, if_pos rfl]
        change
          (if stored.persisted.metadata.isDeleting &&
            new.isEmpty then none else _) = _
        rw [hDeleting]
        rfl
      · intro k hOther
        rw [Session.moveTo_scene, hShown,
          Store.object?_settle, if_neg hOther]
    · intro s e store _ _ sent hSent
      cases hSent
  exact hTriple.of_ok rfl hRun sent rfl

end Copies

------------------------------------------------------------
-- Calls that Patch Tokens
------------------------------------------------------------

/-
  The two calls that patch tokens: one puts the missing
  tokens of all steps on an object, one takes those of a
  step off it.
-/
inductive TokenCall (μ : Type) where
  | add (steps : List (Step μ))
  | remove (step : Step μ)

namespace TokenCall

open Engine
open Manager (guardKey guardStep)

/- The call, as the engine makes it. -/
def run
    (readOnly : Bool)
    (c : Copies) :
    TokenCall μ →
      Engine μ (Except StoreError Bool × Copies)
  | .add steps => addTokens readOnly steps c
  | .remove step => removeTokens readOnly step c

/- The tokens that the call is about. -/
def own
    (o : Object) : TokenCall μ → List String
  | .add steps => Tokens.declared steps o
  | .remove step => step.tokens o

/- The tokens that it leaves on its working copy. -/
def result
    (o : Object) : TokenCall μ → List String
  | .add steps =>
      Tokens.merged (Tokens.missing steps o)
        o.metadata.finalizers
  | .remove step =>
      Tokens.without (step.tokens o) o.metadata.finalizers

/-
  Tokens change, as a set, only in that own ones are added
  by the one call and removed by the other.
-/
def OnlyOwn
    (o : Object)
    (before after : List String) : TokenCall μ → Prop
  | .add steps =>
      (∀ t ∈ before, t ∈ after) ∧
        ∀ t ∈ after,
          t ∈ before ∨ t ∈ Tokens.declared steps o
  | .remove step =>
      (∀ t ∈ after, t ∈ before) ∧
        ∀ t ∈ before, t ∈ after ∨ t ∈ step.tokens o

/- Foreign tokens are the same in both lists. -/
def SameForeign
    (call : TokenCall μ)
    (o : Object)
    (before after : List String) : Prop :=
  ∀ t, t ∉ call.own o → (t ∈ after ↔ t ∈ before)

/- After the call its own tokens are where they belong. -/
def Handled
    (o : Object)
    (after : List String) : TokenCall μ → Prop
  | .add steps =>
      ∀ t ∈ Tokens.declared steps o, t ∈ after
  | .remove step => ∀ t ∈ step.tokens o, t ∉ after

variable {o : Object}

/- The resulting tokens, one by one. -/
theorem mem_result_add
    (steps : List (Step μ))
    (o : Object)
    (t : String) :
    t ∈ (TokenCall.add steps).result o ↔
      t ∈ o.metadata.finalizers ∨
        t ∈ Tokens.declared steps o := by
  have hDeclared :
      t ∈ Tokens.declared steps o ↔
        ∃ step ∈ steps, t ∈ step.tokens o :=
    List.mem_flatMap
  unfold result
  rw [Tokens.mem_merged, Tokens.mem_missing, hDeclared]
  by_cases hHas : t ∈ o.metadata.finalizers
  · simp [hHas]
  · simp [hHas]

theorem mem_result_remove
    (step : Step μ)
    (o : Object)
    (t : String) :
    t ∈ (TokenCall.remove step).result o ↔
      t ∈ o.metadata.finalizers ∧ t ∉ step.tokens o :=
  Tokens.mem_without _ _ t

/- A call leaves foreign tokens of its copy alone. -/
theorem result_sameForeign
    (call : TokenCall μ)
    (o : Object) :
    call.SameForeign o o.metadata.finalizers
      (call.result o) := by
  intro t hForeign
  cases call with
  | add steps =>
      rw [mem_result_add]
      exact or_iff_left hForeign
  | remove step =>
      rw [mem_result_remove]
      exact and_iff_left hForeign

theorem result_handled
    (call : TokenCall μ)
    (o : Object) :
    call.Handled o (call.result o) := by
  cases call with
  | add steps =>
      intro t hOwn
      exact (mem_result_add steps o t).mpr (.inr hOwn)
  | remove step =>
      intro t hOwn hLeft
      exact ((mem_result_remove step o t).mp hLeft).2 hOwn

/-
  Where own tokens are handled, a change is the call's own
  exactly if it leaves the foreign tokens alone.
-/
theorem onlyOwn_iff
    (call : TokenCall μ)
    (before : List String)
    {after : List String}
    (hHandled : call.Handled o after) :
    call.OnlyOwn o before after ↔
      call.SameForeign o before after := by
  cases call with
  | add steps =>
      constructor
      · rintro ⟨hKept, hAdded⟩ t hForeign
        constructor
        · intro hAfter
          exact (hAdded t hAfter).resolve_right hForeign
        · exact hKept t
      · intro hSame
        constructor
        · intro t hBefore
          by_cases hOwn : t ∈ Tokens.declared steps o
          · exact hHandled t hOwn
          · exact (hSame t hOwn).mpr hBefore
        · intro t hAfter
          by_cases hOwn : t ∈ Tokens.declared steps o
          · exact .inr hOwn
          · exact .inl ((hSame t hOwn).mp hAfter)
  | remove step =>
      constructor
      · rintro ⟨hKept, hRemoved⟩ t hForeign
        constructor
        · exact hKept t
        · intro hBefore
          exact (hRemoved t hBefore).resolve_right hForeign
      · intro hSame
        constructor
        · intro t hAfter
          by_cases hOwn : t ∈ step.tokens o
          · exact absurd hAfter (hHandled t hOwn)
          · exact (hSame t hOwn).mp hAfter
        · intro t hBefore
          by_cases hOwn : t ∈ step.tokens o
          · exact .inr hOwn
          · exact .inl ((hSame t hOwn).mpr hBefore)

/- A call has nothing to send, or it sends other tokens. -/
theorem run_eq
    (call : TokenCall μ)
    (readOnly : Bool)
    (c : Copies) :
    call.run readOnly c = pure (.ok false, c) ∨
      (call.result c.obj ≠ c.obj.metadata.finalizers ∧
        call.run readOnly c =
          sendTokens { c with
            obj := c.obj.withFinalizers
              (call.result c.obj) }) := by
  cases call with
  | add steps =>
      dsimp only [run]
      unfold addTokens
      split
      · exact .inl rfl
      · split
        · exact .inl rfl
        · next hMissing =>
            rcases List.exists_mem_of_ne_nil _ hMissing with
              ⟨t, hToken⟩
            have hNew :=
              ((Tokens.mem_missing _ _ t).mp hToken).2
            rw [Tokens.addAll_eq]
            exact .inr ⟨Tokens.merged_ne hToken hNew, rfl⟩
  | remove step =>
      dsimp only [run]
      unfold removeTokens
      split
      · exact .inl rfl
      · next hSend =>
          have hOwns : step.owns c.obj = true := by
            simp only [Bool.or_eq_true, not_or] at hSend
            simpa using hSend.2
          rcases (Tokens.owns_iff step c.obj).mp hOwns with
            ⟨t, hToken, hHas⟩
          have hRemoved :=
            Tokens.removeAll_eq (step.tokens c.obj) c.obj
          refine .inr ⟨Tokens.without_ne hToken hHas, ?_⟩
          exact congrArg
            (fun o => sendTokens { c with obj := o }) hRemoved

/-
  What a call that succeeds does, for copies taken from the
  store and whatever is stored by then.  One that sends
  nothing changes nothing.  One that sends a patch makes the
  stored tokens those of the snapshot with its own added or
  removed; so the change is its own exactly if nobody has
  touched a foreign token since the snapshot was taken.
-/
theorem run_tokens
    {call : TokenCall μ}
    {readOnly sent : Bool}
    {c c' : Copies}
    {s s' : Session μ}
    (hTaken :
      c.obj.metadata.finalizers =
        c.snapshot.metadata.finalizers)
    (hRun : call.run readOnly c s = .ok (.ok sent, c') s') :
    (sent = false → c' = c ∧ s' = s) ∧
      (sent = true →
        c.Rewrites (call.result c.obj) s c' s' ∧
          call.Handled c.obj
            (s'.scene.store.tokensAt c.snapshot.key) ∧
          call.SameForeign c.obj
            c.snapshot.metadata.finalizers
            (s'.scene.store.tokensAt c.snapshot.key) ∧
          (call.OnlyOwn c.obj
              (s.scene.store.tokensAt c.snapshot.key)
              (s'.scene.store.tokensAt c.snapshot.key) ↔
            call.SameForeign c.obj
              c.snapshot.metadata.finalizers
              (s.scene.store.tokensAt c.snapshot.key))) := by
  rcases call.run_eq readOnly c with
    hNothing | ⟨hChanged, hSends⟩
  · rw [hNothing] at hRun
    cases hRun
    exact ⟨fun _ => ⟨rfl, rfl⟩, fun h => nomatch h⟩
  · rw [hSends] at hRun
    rcases Copies.rewrites_of_sent (hTaken ▸ hChanged) hRun
      with ⟨hSent, hRewrites⟩
    have hHandled := call.result_handled c.obj
    have hForeign := call.result_sameForeign c.obj
    have hOwn :=
      call.onlyOwn_iff
        (s.scene.store.tokensAt c.snapshot.key) hHandled
    rw [hTaken] at hForeign
    rw [hRewrites.tokensAt, hOwn]
    refine ⟨by simp [hSent],
      fun _ => ⟨hRewrites, hHandled, hForeign, ?_⟩⟩
    constructor
    · intro hSame t hNotOwn
      exact (hSame t hNotOwn).symm.trans (hForeign t hNotOwn)
    · intro hSame t hNotOwn
      exact (hForeign t hNotOwn).trans (hSame t hNotOwn).symm

/- The answer of a call that succeeds. -/
def answer?
    (call : TokenCall μ)
    (c : Copies)
    (s : Session μ) : Option Bool :=
  match call.run false c s with
  | .ok (.ok sent, _) _ => some sent
  | _ => none

theorem run_of_answer
    {call : TokenCall μ}
    {c : Copies}
    {s : Session μ}
    {sent : Bool}
    (hAnswer : call.answer? c s = some sent) :
    ∃ c',
      call.run false c s =
        .ok (.ok sent, c') ((call.run false c).final s) := by
  unfold answer? at hAnswer
  unfold Engine.final
  split at hAnswer
  · next sent' c' s' hRun =>
      cases hAnswer
      exact ⟨c', by rw [hRun]⟩
  · cases hAnswer

/- An object with the token of someone else. -/
def staleObject : Object where
  kind := .full
  metadata :=
    { Metadata.fresh "default" "object" with
      finalizers := ["old"]
      resourceVersion := some "1" }
  status := {}

/- The store from which its copies have been taken. -/
def staleStore : Store :=
  Store.insert staleObject {}

/- A session in which the tokens have been replaced since. -/
def staleStart : Session Unit where
  scene :=
    { store :=
        staleStore.modify guardKey (·.withFinalizers ["new"])
      clock := ⟨0⟩
      memory := () }

/- The call that puts the missing token of a step on it. -/
def staleCall : TokenCall Unit :=
  .add [guardStep]

/-
  Others may change their tokens while a patch is on its
  way: a new one is lost, and a removed one is back.
-/
theorem stale_undoes :
    (staleStore.get guardKey).1.toOption = some staleObject ∧
      staleStart.scene.store.tokensAt guardKey = ["new"] ∧
      staleCall.answer? ⟨staleObject, staleObject⟩
        staleStart = some true ∧
      ((staleCall.run false ⟨staleObject, staleObject⟩).final
          staleStart).scene.store.tokensAt guardKey =
        ["old", "token"] ∧
      staleCall.own staleObject = ["token"] ∧
      ¬ staleCall.OnlyOwn staleObject
        (staleStart.scene.store.tokensAt guardKey)
        (((staleCall.run false
            ⟨staleObject, staleObject⟩).final
          staleStart).scene.store.tokensAt guardKey) := by
  have hBefore :
      staleStart.scene.store.tokensAt guardKey = ["new"] := by
    decide +kernel
  have hAfter :
      ((staleCall.run false ⟨staleObject, staleObject⟩).final
          staleStart).scene.store.tokensAt guardKey =
        ["old", "token"] := by
    decide +kernel
  refine ⟨by decide +kernel, hBefore, by decide +kernel,
    hAfter, rfl, ?_⟩
  intro hOwn
  have hKept := hOwn.1 "new"
  rw [hBefore, hAfter] at hKept
  exact absurd (hKept (by decide)) (by decide)

theorem stale_run_tokens :
    ∃ c' s',
      staleCall.run false ⟨staleObject, staleObject⟩
          staleStart =
        .ok (.ok true, c') s' ∧
      Copies.Rewrites ⟨staleObject, staleObject⟩
        ["old", "token"] staleStart c' s' ∧
      (staleCall.OnlyOwn staleObject
          (staleStart.scene.store.tokensAt guardKey)
          (s'.scene.store.tokensAt guardKey) ↔
        staleCall.SameForeign staleObject ["old"]
          (staleStart.scene.store.tokensAt guardKey)) := by
  have hAnswer :
      staleCall.answer? ⟨staleObject, staleObject⟩
        staleStart = some true := by
    decide +kernel
  rcases run_of_answer hAnswer with ⟨c', hRun⟩
  rcases (run_tokens rfl hRun).2 rfl with
    ⟨hRewrites, _, _, hOwn⟩
  exact ⟨c', _, hRun, hRewrites, hOwn⟩

end TokenCall

end Reconciler
