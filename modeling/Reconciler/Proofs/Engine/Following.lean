import Reconciler.Proofs.Engine.ForeignTokens

/-
  This file follows the two copies of an object through any
  sequence of calls that patch tokens, when nobody else
  writes the object and any patch can fail.

  A call that fails leaves the working copy ahead of the
  other two: it keeps the tokens that were meant for it.
  Snapshot and stored object go together all the same, since
  every patch is computed against the snapshot.  But what is
  missing is looked up on the working copy, so that tokens
  which have failed to be sent are not sent again.

  Key definitions include:
    * `Copies.Current`
    * `Copies.Agree`
    * `Copies.Follows`
    * `TokenAct.run`
    * `TokenAct.unsent`
    * `Copies.Ahead`

  Key theorems include:
    * `Store.Holds.patch`
    * `Copies.Follows.sendTokens`
    * `TokenCall.run_follows`
    * `TokenCall.snapshot_follows`
    * `Copies.Ahead.run`
    * `TokenCall.add_stores_iff`
-/

------------------------------------------------------------
-- Patches of Tokens that May Be Empty
------------------------------------------------------------

namespace Reconciler

variable {μ : Type}

namespace Store

/- A patch that succeeds has been recorded. -/
theorem patch_ok_patches
    {modified base o : Object}
    {s : Store}
    (hPatch : (patch modified base s).1 = .ok o) :
    (patch modified base s).2.patches =
      s.patches ++ [⟨base.key, mainPatch modified base⟩] := by
  cases hQueue : s.patchFailures with
  | cons e rest =>
      unfold patch at hPatch
      rw [hQueue] at hPatch
      cases hPatch
  | nil =>
      unfold patch
      rw [hQueue]
      simp only [record, takeVersion]
      split
      · rfl
      · split
        · rfl
        · split
          · rfl
          · unfold settle
            split <;> rfl

/-
  What a patch does that sets the tokens of an object to any
  list: it fails and changes no object, or the store holds
  the object with these tokens at the version handed back.
  A patch of the tokens that are there changes nothing.
-/
theorem Holds.patch
    {k : Key}
    {o base : Object}
    {fs : List String}
    {version : Option String}
    {s : Store}
    (hHolds : s.Holds k o fs version)
    (hKey : o.key = k)
    (hBase : base = o.retokened fs version)
    (new : List String) :
    (∃ e,
      (patch (base.withFinalizers new) base s).1 = .error e ∧
        (patch (base.withFinalizers new) base s).2.objects =
          s.objects) ∨
    ∃ stored,
      (patch (base.withFinalizers new) base s).1 =
          .ok stored ∧
        (patch (base.withFinalizers new) base s).2.Holds k o
          new stored.metadata.resourceVersion := by
  by_cases hChanged : new = fs
  · have hBaseKey : base.key = k := by
      rw [hBase]
      exact hKey
    have hBaseTokens : base.metadata.finalizers = fs := by
      rw [hBase]
      rfl
    rcases patch_cases (base.withFinalizers new) base s with
      hFailed | ⟨found, hFound, _, hOk, _, hObjects⟩ |
      ⟨_, _, _, hChanges, _⟩
    · exact .inl hFailed
    · rw [hBaseKey] at hFound
      rw [hChanged] at hOk hObjects ⊢
      refine .inr ⟨found, hOk, ?_⟩
      rw [hHolds.version hFound]
      exact hHolds.congr (object?_congr hObjects k)
    · rw [mainPatch_withFinalizers, hBaseTokens,
        if_pos hChanged] at hChanges
      cases hChanges
  · rcases hHolds.patch_tokens hKey hBase hChanged with
      ⟨e, hError, hObjects, _⟩ | ⟨stored, hOk, _, hAfter⟩
    · exact .inl ⟨e, hError, hObjects⟩
    · exact .inr ⟨stored, hOk, hAfter⟩

/- The tokens that a store holds are the stored ones. -/
theorem Holds.tokensAt
    {k : Key}
    {o : Object}
    {fs : List String}
    {version : Option String}
    {s : Store}
    (hHolds : s.Holds k o fs version) :
    s.tokensAt k = fs := by
  unfold Store.tokensAt
  cases hHolds with
  | stored _ hStored =>
      rw [hStored]
      rfl
  | gone _ hNone hGone =>
      rw [hGone]
      exact hNone.symm

end Store

/- A computation that cannot halt hands something back. -/
theorem Engine.Triple.returns
    {α : Type}
    {x : Engine μ α}
    {P : Session μ → Prop}
    {Q : α → Session μ → Prop}
    {s : Session μ}
    (hTriple : Triple P x Q (fun _ _ => False))
    (hPre : P s) :
    ∃ a s', x s = .ok a s' ∧ Q a s' := by
  cases hRun : x s with
  | ok a s' => exact ⟨a, s', rfl, hTriple.of_ok hPre hRun⟩
  | error h s' => exact (hTriple.of_error hPre hRun).elim

------------------------------------------------------------
-- Copies that Follow the Store
------------------------------------------------------------

namespace Copies

/-
  As long as the object is stored, the snapshot has its
  tokens and its version.
-/
def Current
    (k : Key)
    (c : Copies)
    (store : Store) : Prop :=
  ∀ stored, store.object? k = some stored →
    c.snapshot.metadata.finalizers =
        stored.metadata.finalizers ∧
      c.snapshot.metadata.resourceVersion =
        stored.metadata.resourceVersion

/-
  Working copy and snapshot have the same tokens at the same
  version, and so has the stored object, unless it was being
  deleted and is gone with its last token.
-/
structure Agree
    (k : Key)
    (o : Object)
    (c : Copies)
    (store : Store) : Prop where
  tokens :
    c.obj.metadata.finalizers =
      c.snapshot.metadata.finalizers
  version :
    c.obj.metadata.resourceVersion =
      c.snapshot.metadata.resourceVersion
  stored :
    (∃ stored,
      store.object? k = some stored ∧
        stored.metadata.finalizers =
          c.snapshot.metadata.finalizers ∧
        stored.metadata.resourceVersion =
          c.snapshot.metadata.resourceVersion) ∨
    (o.isDeleting = true ∧
      c.snapshot.metadata.finalizers = [] ∧
      store.object? k = none)

/-
  Snapshot and store have the object with the same tokens at
  the same version.  The working copy may have others.
-/
structure Follows
    (k : Key)
    (o : Object)
    (c : Copies)
    (store : Store) : Prop where
  obj :
    ∃ fs,
      c.obj =
        o.retokened fs c.snapshot.metadata.resourceVersion
  snapshot :
    c.snapshot =
      o.retokened c.snapshot.metadata.finalizers
        c.snapshot.metadata.resourceVersion
  holds :
    store.Holds k o c.snapshot.metadata.finalizers
      c.snapshot.metadata.resourceVersion

namespace Follows

variable {k : Key}
variable {o : Object}
variable {c : Copies}
variable {store : Store}

/- Two copies of a stored object follow it. -/
theorem of_stored
    (hStored : store.object? k = some o) :
    Follows k o ⟨o, o⟩ store where
  obj := ⟨o.metadata.finalizers, rfl⟩
  snapshot := rfl
  holds := .stored (.inl rfl) hStored

theorem current
    (hFollows : Follows k o c store) :
    c.Current k store := by
  intro stored hStored
  have hHeld := hFollows.holds.eq_retokened hStored
  rw [hHeld]
  exact ⟨rfl, rfl⟩

/- The working copy is being deleted if the object is. -/
theorem isDeleting
    (hFollows : Follows k o c store) :
    c.obj.isDeleting = o.isDeleting := by
  rcases hFollows.obj with ⟨fs, hObj⟩
  rw [hObj]
  rfl

/- What else a store holds does not matter. -/
theorem congr
    {store' : Store}
    (hFollows : Follows k o c store)
    (hObjects : store'.objects = store.objects) :
    Follows k o c store' :=
  { hFollows with
    holds :=
      hFollows.holds.congr
        (Store.object?_congr hObjects k) }

/- Copies with the same tokens agree with the store. -/
theorem agree
    (hFollows : Follows k o c store)
    (hTokens :
      c.obj.metadata.finalizers =
        c.snapshot.metadata.finalizers) :
    c.Agree k o store where
  tokens := hTokens
  version := by
    rcases hFollows.obj with ⟨fs, hObj⟩
    rw [hObj]
    rfl
  stored := by
    cases hFollows.holds with
    | stored _ hStored => exact .inl ⟨_, hStored, rfl, rfl⟩
    | gone hDeleting hNone hGone =>
        exact .inr ⟨hDeleting, hNone, hGone⟩

end Follows

/-
  What came of sending the tokens of a working copy.  After
  a failure both copies and the stored objects are as they
  were; else one patch has been sent and recorded, and both
  copies have the tokens that were sent.
-/
structure Sent
    (k : Key)
    (c : Copies)
    (s : Session μ)
    (r : Except StoreError Bool × Copies)
    (s' : Session μ) : Prop where
  failed :
    ∀ e, r.1 = .error e →
      r.2 = c ∧
        s'.scene.store.objects = s.scene.store.objects
  done :
    ∀ sent, r.1 = .ok sent →
      sent = true ∧
        r.2.obj.metadata.finalizers =
          c.obj.metadata.finalizers ∧
        r.2.snapshot.metadata.finalizers =
          c.obj.metadata.finalizers ∧
        (∃ patch,
          s'.scene.store.patches =
            s.scene.store.patches ++ [⟨k, patch⟩]) ∧
        ∃ modified stored,
          s'.journal =
            s.journal ++
              [⟨.patched modified c.snapshot (.ok stored),
                s'.scene⟩]

/-
  Sending other tokens than the copies have: whatever comes
  of it, the copies still follow the store.
-/
theorem Follows.sendTokens
    {k : Key}
    {o : Object}
    {c : Copies}
    {s : Session μ}
    (hFollows : Follows k o c s.scene.store)
    (hKey : o.key = k)
    (new : List String) :
    ∃ r s',
      Engine.sendTokens
          { c with obj := c.obj.withFinalizers new } s =
        .ok r s' ∧
      Follows k o r.2 s'.scene.store ∧
      Sent k { c with obj := c.obj.withFinalizers new } s r
        s' := by
  have hOwn :
      ∃ fs, c.obj.withFinalizers new =
        o.retokened fs
          c.snapshot.metadata.resourceVersion := by
    rcases hFollows.obj with ⟨fs, hObj⟩
    rw [hObj]
    exact ⟨new, rfl⟩
  have hSnapshotKey : c.snapshot.key = k := by
    rw [hFollows.snapshot]
    exact hKey
  have hPatched :=
    hFollows.holds.patch hKey hFollows.snapshot new
  refine Engine.Triple.returns (P := fun s' => s' = s)
    (Manager.sendTokens_triple ?_ ?_) rfl
  · intro s₀ stored store hSame hPatch
    have hPatch :
        Store.patch (c.snapshot.withFinalizers new)
            c.snapshot s.scene.store =
          (.ok stored, store) :=
      hSame ▸ hPatch
    have hRecorded :=
      Store.patch_ok_patches (congrArg Prod.fst hPatch)
    rw [hPatch] at hPatched hRecorded
    rcases hPatched with
      ⟨e, hError, _⟩ | ⟨stored', hOk, hHolds⟩
    · cases hError
    · cases hOk
      rw [hSame]
      refine ⟨⟨?_, ?_, hHolds⟩, ⟨nofun, ?_⟩⟩
      · rcases hOwn with ⟨fs, hObj⟩
        exact ⟨fs, congrArg
          (·.withVersion stored.metadata.resourceVersion)
            hObj⟩
      · exact
          (congrArg
            (fun snapshot : Object =>
              (snapshot.withFinalizers new).withVersion
                stored.metadata.resourceVersion)
            hFollows.snapshot).trans rfl
      · intro sent hSent
        cases hSent
        rw [hSnapshotKey] at hRecorded
        exact ⟨rfl, rfl, rfl, ⟨_, hRecorded⟩,
          ⟨_, stored, rfl⟩⟩
  · intro s₀ e store hSame hPatch
    have hPatch :
        Store.patch (c.snapshot.withFinalizers new)
            c.snapshot s.scene.store =
          (.error e, store) :=
      hSame ▸ hPatch
    rw [hPatch] at hPatched
    rcases hPatched with
      ⟨_, _, hObjects⟩ | ⟨_, hOk, _⟩
    · have hKept : Follows k o c store :=
        hFollows.congr hObjects
      refine ⟨{ hKept with obj := hOwn }, ⟨?_, nofun⟩⟩
      intro _ _
      refine ⟨rfl, ?_⟩
      rw [hSame]
      exact hObjects
    · cases hOk

end Copies

------------------------------------------------------------
-- Sequences of Calls
------------------------------------------------------------

/-
  What can happen to two copies of an object: a failure is
  queued for the next patch, or one of the calls that patch
  tokens is made.
-/
inductive TokenAct (μ : Type) where
  | fail (e : StoreError)
  | call (readOnly : Bool) (tokenCall : TokenCall μ)

namespace TokenAct

/- Copies and session after an act. -/
def after
    (p : Copies × Session μ) :
    TokenAct μ → Copies × Session μ
  | .fail e =>
      (p.1,
        { p.2 with
          scene :=
            p.2.scene.mapStore (Store.failNext .patch e) })
  | .call readOnly tokenCall =>
      match tokenCall.run readOnly p.1 p.2 with
      | .ok (_, c) s => (c, s)
      | .error _ s => (p.1, s)

/- Where a call ends that comes back. -/
theorem after_call
    {p : Copies × Session μ}
    {readOnly : Bool}
    {tokenCall : TokenCall μ}
    {r : Except StoreError Bool}
    {c : Copies}
    {s : Session μ}
    (hRun :
      tokenCall.run readOnly p.1 p.2 = .ok (r, c) s) :
    (TokenAct.call readOnly tokenCall).after p = (c, s) := by
  unfold after
  dsimp only
  rw [hRun]

/- Copies and session after any number of acts. -/
def run
    (p : Copies × Session μ)
    (acts : List (TokenAct μ)) : Copies × Session μ :=
  acts.foldl after p

end TokenAct

namespace TokenCall

variable {k : Key}
variable {o : Object}
variable {c : Copies}
variable {s : Session μ}

/-
  What a call does to copies that follow the store.  It
  always comes back.  If it fails, snapshot and stored
  objects are as they were; if it has sent a patch, this was
  the only one, and all three agree; if not, it has done
  nothing.
-/
structure Kept
    (k : Key)
    (o : Object)
    (c : Copies)
    (s : Session μ)
    (r : Except StoreError Bool)
    (c' : Copies)
    (s' : Session μ) : Prop where
  failed :
    ∀ e, r = .error e →
      c'.snapshot = c.snapshot ∧
        s'.scene.store.objects = s.scene.store.objects
  sent :
    r = .ok true →
      c'.Agree k o s'.scene.store ∧
        (∃ patch,
          s'.scene.store.patches =
            s.scene.store.patches ++ [⟨k, patch⟩]) ∧
        ∃ modified stored,
          s'.journal =
            s.journal ++
              [⟨.patched modified c.snapshot (.ok stored),
                s'.scene⟩]
  idle : r = .ok false → c' = c ∧ s' = s

/- A call keeps the copies following the store. -/
theorem run_follows
    (hKey : o.key = k)
    (hFollows : c.Follows k o s.scene.store)
    (readOnly : Bool)
    (call : TokenCall μ) :
    ∃ r c' s',
      call.run readOnly c s = .ok (r, c') s' ∧
        c'.Follows k o s'.scene.store ∧
        Kept k o c s r c' s' := by
  rcases call.run_eq readOnly c with hNothing | ⟨_, hSends⟩
  · rw [hNothing]
    exact ⟨.ok false, c, s, rfl, hFollows,
      ⟨nofun, nofun, fun _ => ⟨rfl, rfl⟩⟩⟩
  · rcases hFollows.sendTokens hKey (call.result c.obj) with
      ⟨⟨r, c'⟩, s', hRun, hAfter, hSent⟩
    rw [hSends]
    refine ⟨r, c', s', hRun, hAfter, ?_, ?_, ?_⟩
    · intro e hError
      rcases hSent.failed e hError with ⟨hCopies, hObjects⟩
      have hSnapshot := congrArg Copies.snapshot hCopies
      exact ⟨hSnapshot, hObjects⟩
    · intro hTrue
      rcases hSent.done true hTrue with
        ⟨_, hOwn, hSnapshot, hRecorded, hNoted⟩
      exact ⟨hAfter.agree (hOwn.trans hSnapshot.symm),
        hRecorded, hNoted⟩
    · intro hFalse
      cases (hSent.done false hFalse).1

end TokenCall

/- Whatever happens, the copies follow the store. -/
theorem Copies.Follows.run
    {k : Key}
    {o : Object}
    {p : Copies × Session μ}
    (hKey : o.key = k)
    (hFollows : p.1.Follows k o p.2.scene.store)
    (acts : List (TokenAct μ)) :
    (TokenAct.run p acts).1.Follows k o
      (TokenAct.run p acts).2.scene.store := by
  induction acts generalizing p with
  | nil => exact hFollows
  | cons act rest ih =>
      refine ih (p := act.after p) ?_
      cases act with
      | fail e => exact hFollows.congr rfl
      | call readOnly call =>
          rcases call.run_follows hKey hFollows readOnly with
            ⟨r, c', s', hRun, hAfter, _⟩
          rw [TokenAct.after_call hRun]
          exact hAfter

namespace TokenCall

/-
  Two copies of a stored object after any calls that patch
  tokens, any of which may have failed, and one more call.
  Before and after it the snapshot has tokens and version of
  the stored object, as long as there is one.  A call that
  fails changes neither snapshot nor store; one that answers
  that it has sent a patch has sent exactly one, and then
  all three copies agree; one that answers that it has not
  has done nothing.
-/
theorem snapshot_follows
    {k : Key}
    {o : Object}
    {s : Session μ}
    (hKey : o.key = k)
    (hFetched : s.scene.store.object? k = some o)
    (acts : List (TokenAct μ))
    (readOnly : Bool)
    (call : TokenCall μ) :
    let p := TokenAct.run (⟨o, o⟩, s) acts
    ∃ r c' s',
      call.run readOnly p.1 p.2 = .ok (r, c') s' ∧
        p.1.Current k p.2.scene.store ∧
        c'.Current k s'.scene.store ∧
        Kept k o p.1 p.2 r c' s' := by
  intro p
  have hFollows : p.1.Follows k o p.2.scene.store :=
    Copies.Follows.run hKey (.of_stored hFetched) acts
  rcases run_follows hKey hFollows readOnly call with
    ⟨r, c', s', hRun, hAfter, hKept⟩
  exact ⟨r, c', s', hRun, hFollows.current, hAfter.current,
    hKept⟩

open Manager (guardKey guardStep)

/- A failure that is met before the patch of the store. -/
def outage : StoreError :=
  .transient "down"

/- A session in which the object of a step is stored. -/
def bareStart : Session Unit :=
  { staleStart with
    scene := { staleStart.scene with store := staleStore } }

/- The token of the step is added in vain. -/
def vainAdding : List (TokenAct Unit) :=
  [.fail outage, .call false staleCall]

/- The copies and the session after that. -/
def vainTried : Copies × Session Unit :=
  TokenAct.run (⟨staleObject, staleObject⟩, bareStart)
    vainAdding

/-
  To take back what has failed to be sent, a patch is sent
  that holds nothing; the copies agree again.
-/
theorem vain_snapshot_follows :
    bareStart.scene.store.object? guardKey =
        some staleObject ∧
      ∃ c' s',
        (TokenCall.remove guardStep).run false vainTried.1
            vainTried.2 =
          .ok (.ok true, c') s' ∧
        vainTried.1.obj.metadata.finalizers =
          ["old", "token"] ∧
        c'.Agree guardKey staleObject s'.scene.store := by
  have hFetched :
      bareStart.scene.store.object? guardKey =
        some staleObject := by
    decide +kernel
  have hAhead :
      vainTried.1.obj.metadata.finalizers =
        ["old", "token"] := by
    decide +kernel
  have hAnswer :
      (TokenCall.remove guardStep).answer? vainTried.1
          vainTried.2 =
        some true := by
    decide +kernel
  rcases snapshot_follows (k := guardKey) rfl hFetched
      vainAdding false (.remove guardStep) with
    ⟨r, c', s', hRun, _, _, hKept⟩
  rcases run_of_answer hAnswer with ⟨c'', hTrue⟩
  cases hRun.symm.trans hTrue
  exact ⟨hFetched, c', _, hRun, hAhead, (hKept.sent rfl).1⟩

end TokenCall

------------------------------------------------------------
-- Tokens that Have Failed to Be Sent
------------------------------------------------------------

namespace TokenAct

/-
  An act of a caller that only adds tokens, and that writes.
-/
def Adds : TokenAct μ → Prop
  | .fail _ => True
  | .call readOnly (.add _) => readOnly = false
  | .call _ (.remove _) => False

/-
  The tokens that have failed to be sent, after an act: a
  call that fails adds those that it has put on the working
  copy, and a patch that succeeds has sent all of them.
-/
def unsentAfter
    (p : Copies × Session μ)
    (unsent : List String) : TokenAct μ → List String
  | .fail _ => unsent
  | .call readOnly tokenCall =>
      match tokenCall.run readOnly p.1 p.2 with
      | .ok (.error _, c) _ =>
          unsent ++
            Tokens.without p.1.obj.metadata.finalizers
              c.obj.metadata.finalizers
      | .ok (.ok true, _) _ => []
      | _ => unsent

/- The tokens that have failed to be sent, after all acts. -/
def unsent
    (p : Copies × Session μ)
    (before : List String) : List (TokenAct μ) → List String
  | [] => before
  | act :: rest =>
      unsent (act.after p) (act.unsentAfter p before) rest

end TokenAct

/-
  The working copy is ahead of snapshot and store by tokens
  that have failed to be sent.
-/
structure Copies.Ahead
    (k : Key)
    (o : Object)
    (c : Copies)
    (store : Store)
    (unsent : List String) : Prop
    extends c.Follows k o store where
  known :
    ∀ t,
      t ∈ c.obj.metadata.finalizers ↔
        t ∈ c.snapshot.metadata.finalizers ∨ t ∈ unsent
  apart :
    ∀ t ∈ unsent, t ∉ c.snapshot.metadata.finalizers

namespace Copies.Ahead

variable {k : Key}
variable {o : Object}
variable {c c' : Copies}
variable {store store' : Store}
variable {unsent : List String}

/- Copies with the same tokens have none that is unsent. -/
theorem of_same
    (hFollows : c.Follows k o store)
    (hTokens :
      c.obj.metadata.finalizers =
        c.snapshot.metadata.finalizers) :
    c.Ahead k o store [] where
  toFollows := hFollows
  known := by
    intro t
    rw [hTokens]
    simp
  apart := nofun

/-
  Where the working copy alone has taken tokens, these have
  failed to be sent.
-/
theorem grows
    (hAhead : c.Ahead k o store unsent)
    (hFollows : c'.Follows k o store')
    (hGrows :
      c.obj.metadata.finalizers ⊆
        c'.obj.metadata.finalizers)
    (hSnapshot :
      c'.snapshot.metadata.finalizers =
        c.snapshot.metadata.finalizers) :
    c'.Ahead k o store'
      (unsent ++
        Tokens.without c.obj.metadata.finalizers
          c'.obj.metadata.finalizers) where
  toFollows := hFollows
  known := by
    intro t
    have hOld := hGrows (a := t)
    rw [List.mem_append, Tokens.mem_without, hSnapshot]
    rw [hAhead.known] at hOld ⊢
    tauto
  apart := by
    intro t hToken
    rw [List.mem_append, Tokens.mem_without] at hToken
    rw [hSnapshot]
    rcases hToken with hOld | hNew
    · exact hAhead.apart t hOld
    · intro hStored
      exact hNew.2 ((hAhead.known t).mpr (.inl hStored))

end Copies.Ahead

namespace TokenCall

open Engine

variable {k : Key}
variable {o : Object}
variable {c : Copies}
variable {s : Session μ}

/- On a live object a call adds tokens, or none is missing. -/
theorem run_add_cases
    (steps : List (Step μ))
    (hLive : c.obj.isDeleting = false) :
    ((∀ t ∈ Tokens.declared steps c.obj,
        t ∈ c.obj.metadata.finalizers) ∧
      (TokenCall.add steps).run false c =
        pure (.ok false, c)) ∨
    (TokenCall.add steps).run false c =
      sendTokens { c with
        obj := c.obj.withFinalizers
          ((TokenCall.add steps).result c.obj) } := by
  dsimp only [run]
  unfold addTokens
  rw [hLive, Bool.or_false, if_neg Bool.false_ne_true]
  split
  · next hMissing =>
      refine .inl ⟨?_, rfl⟩
      intro t hDeclared
      apply Decidable.byContradiction
      intro hNew
      have hMember : t ∈ Tokens.missing steps c.obj :=
        (Tokens.mem_missing _ _ t).mpr
          ⟨List.mem_flatMap.mp hDeclared, hNew⟩
      rw [hMissing] at hMember
      cases hMember
  · rw [Tokens.addAll_eq]
    exact .inr rfl

/-
  What a call that adds tokens does to a working copy that
  is ahead.  If it succeeds, all declared tokens are stored,
  unless it has sent no patch and one of them had failed to
  be sent before.
-/
theorem add_ahead
    {unsent : List String}
    (hKey : o.key = k)
    (hLive : o.isDeleting = false)
    (hAhead : c.Ahead k o s.scene.store unsent)
    (steps : List (Step μ)) :
    ∃ r c' s',
      (TokenCall.add steps).run false c s =
        .ok (r, c') s' ∧
      c'.Ahead k o s'.scene.store
        ((TokenAct.call false (.add steps)).unsentAfter
          (c, s) unsent) ∧
      ∀ sent, r = .ok sent →
        ((∀ t ∈ Tokens.declared steps c.obj,
            t ∈ c'.snapshot.metadata.finalizers) ↔
          sent = true ∨
            ∀ t ∈ Tokens.declared steps c.obj,
              t ∉ unsent) := by
  have hObjLive : c.obj.isDeleting = false :=
    hAhead.isDeleting.trans hLive
  unfold TokenAct.unsentAfter
  dsimp only
  rcases run_add_cases steps hObjLive with
    ⟨hDeclared, hNothing⟩ | hSends
  · rw [hNothing]
    refine ⟨.ok false, c, s, rfl, hAhead, ?_⟩
    intro sent hSent
    cases hSent
    constructor
    · intro hStored
      exact .inr (fun t hToken hUnsent =>
        hAhead.apart t hUnsent (hStored t hToken))
    · intro hNone t hToken
      have hOther := (hNone.resolve_left nofun) t hToken
      exact ((hAhead.known t).mp
        (hDeclared t hToken)).resolve_right hOther
  · rcases hAhead.sendTokens hKey
        ((TokenCall.add steps).result c.obj) with
      ⟨⟨r, c'⟩, s', hRun, hAfter, hSent⟩
    have hResult := mem_result_add steps c.obj
    rw [hSends, hRun]
    refine ⟨r, c', s', rfl, ?_, ?_⟩
    · cases r with
      | error e =>
          have hCopies := (hSent.failed e rfl).1
          refine hAhead.grows hAfter ?_
            (congrArg (·.snapshot.metadata.finalizers) hCopies)
          intro t hToken
          rw [congrArg (·.obj.metadata.finalizers) hCopies]
          exact (hResult t).mpr (.inl hToken)
      | ok sent =>
          rcases hSent.done sent rfl with
            ⟨hTrue, hObj, hSnapshot, _⟩
          rw [hTrue]
          exact .of_same hAfter (hObj.trans hSnapshot.symm)
    · intro sent hOk
      rcases hSent.done sent hOk with
        ⟨hTrue, _, hSnapshot, _⟩
      refine ⟨fun _ => .inl hTrue, fun _ t hToken => ?_⟩
      have hStored :
          c'.snapshot.metadata.finalizers =
            (TokenCall.add steps).result c.obj :=
        hSnapshot
      rw [hStored, hResult]
      exact .inr hToken

end TokenCall

/- Calls that add tokens keep account of what is unsent. -/
theorem Copies.Ahead.run
    {k : Key}
    {o : Object}
    {p : Copies × Session μ}
    {unsent : List String}
    {acts : List (TokenAct μ)}
    (hKey : o.key = k)
    (hLive : o.isDeleting = false)
    (hAhead : p.1.Ahead k o p.2.scene.store unsent)
    (hAdds : ∀ act ∈ acts, act.Adds) :
    (TokenAct.run p acts).1.Ahead k o
      (TokenAct.run p acts).2.scene.store
      (TokenAct.unsent p unsent acts) := by
  induction acts generalizing p unsent with
  | nil => exact hAhead
  | cons act rest ih =>
      have hRest :=
        fun next hNext =>
          hAdds next (List.mem_cons_of_mem act hNext)
      refine ih (p := act.after p) ?_ hRest
      cases act with
      | fail e =>
          exact
            { hAhead with
              toFollows := hAhead.toFollows.congr rfl }
      | call readOnly call =>
          have hAdd := hAdds _ List.mem_cons_self
          cases call with
          | remove step => cases hAdd
          | add steps =>
              cases hAdd
              rcases TokenCall.add_ahead hKey hLive hAhead
                  steps with
                ⟨r, c', s', hRun, hAfter, _⟩
              rw [TokenAct.after_call hRun]
              exact hAfter

namespace TokenCall

/-
  Two copies of a live object after any calls that add
  tokens, any of which may have failed, and one more such
  call.  If it succeeds, every declared token is stored
  exactly if it has sent a patch or none of these tokens has
  failed to be sent before.
-/
theorem add_stores_iff
    {k : Key}
    {o : Object}
    {s : Session μ}
    {acts : List (TokenAct μ)}
    (hKey : o.key = k)
    (hFetched : s.scene.store.object? k = some o)
    (hLive : o.isDeleting = false)
    (hAdds : ∀ act ∈ acts, act.Adds)
    (steps : List (Step μ)) :
    let p := TokenAct.run (⟨o, o⟩, s) acts
    ∃ r c' s',
      (TokenCall.add steps).run false p.1 p.2 =
        .ok (r, c') s' ∧
      ∀ sent, r = .ok sent →
        ((∀ t ∈ Tokens.declared steps p.1.obj,
            t ∈ s'.scene.store.tokensAt k) ↔
          sent = true ∨
            ∀ t ∈ Tokens.declared steps p.1.obj,
              t ∉ TokenAct.unsent (⟨o, o⟩, s) [] acts) := by
  intro p
  have hStart :
      Copies.Ahead k o ⟨o, o⟩ s.scene.store [] :=
    .of_same (.of_stored hFetched) rfl
  have hAhead :
      p.1.Ahead k o p.2.scene.store
        (TokenAct.unsent (⟨o, o⟩, s) [] acts) :=
    hStart.run (p := (⟨o, o⟩, s)) hKey hLive hAdds
  rcases add_ahead hKey hLive hAhead steps with
    ⟨r, c', s', hRun, hAfter, hStored⟩
  refine ⟨r, c', s', hRun, ?_⟩
  rw [hAfter.holds.tokensAt]
  exact hStored

open Manager (guardKey guardStep)

/- Another step, which has a token of its own. -/
def otherStep : Step Unit :=
  { guardStep with
    name := "other"
    tokens := fun _ => ["other"] }

/-
  A token that has failed to be sent is stored as soon as
  another one is missing, which makes a patch be sent.
-/
theorem other_add_stores :
    (∀ act ∈ vainAdding, act.Adds) ∧
      ∃ c' s',
        (TokenCall.add [guardStep, otherStep]).run false
            vainTried.1 vainTried.2 =
          .ok (.ok true, c') s' ∧
        ∀ t ∈ ["token", "other"],
          t ∈ s'.scene.store.tokensAt guardKey := by
  have hAdds : ∀ act ∈ vainAdding, act.Adds := by
    intro act hAct
    rcases List.mem_pair.mp hAct with rfl | rfl
    · exact trivial
    · exact rfl
  have hFetched :
      bareStart.scene.store.object? guardKey =
        some staleObject := by
    decide +kernel
  have hAnswer :
      (TokenCall.add [guardStep, otherStep]).answer?
          vainTried.1 vainTried.2 =
        some true := by
    decide +kernel
  rcases add_stores_iff (k := guardKey) rfl hFetched rfl
      hAdds [guardStep, otherStep] with
    ⟨r, c', s', hRun, hStored⟩
  rcases run_of_answer hAnswer with ⟨c'', hTrue⟩
  cases hRun.symm.trans hTrue
  exact ⟨hAdds, c', _, hRun,
    (hStored true rfl).mpr (.inl rfl)⟩

/-
  The same call made again sends nothing, and its success
  says nothing about the store.
-/
theorem vain_add_succeeds :
    bareStart.scene.store.object? guardKey =
        some staleObject ∧
      staleObject.isDeleting = false ∧
      staleCall.answer? vainTried.1 vainTried.2 =
        some false ∧
      guardStep.tokens staleObject = ["token"] ∧
      ((staleCall.run false vainTried.1).final
          vainTried.2).scene.store.tokensAt guardKey =
        ["old"] := by
  refine ⟨?_, rfl, ?_, rfl, ?_⟩
  all_goals decide +kernel

end TokenCall

end Reconciler
