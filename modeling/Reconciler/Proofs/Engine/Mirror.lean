import Reconciler.Proofs.Engine.Finalizers
import Reconciler.Proofs.Store.Patched

/-
  This file follows the object of a run that is alone with
  the store.

  Without other writers both copies and the stored object
  differ from the fetched object in tokens and version only,
  until the status is written.  A patch of tokens that does
  not fail changes all three in the same way; the stored
  object goes away if it is being deleted and loses its last
  token.

  Key definitions include:
    * `Object.retokened`
    * `Store.Holds`
    * `Manager.Mirrors`
    * `Manager.Alone`

  Key theorems include:
    * `Store.Holds.patch_tokens`
    * `Manager.Mirrors.patch_cases`
    * `Manager.Alone.carries`
-/

------------------------------------------------------------
-- Stored Objects
------------------------------------------------------------

namespace Reconciler

/- Whether an event is a patch. -/
def Event.isPatch : Event → Bool
  | .patched _ _ _ => true
  | _ => false

/- An object with other tokens, at another version. -/
def Object.retokened
    (fs : List String)
    (version : Option String)
    (o : Object) : Object :=
  (o.withFinalizers fs).withVersion version

theorem Object.persisted_retokened
    (o : Object)
    (fs : List String)
    (version : Option String) :
    (o.retokened fs version).persisted =
      o.persisted.retokened fs version := by
  unfold retokened withVersion withFinalizers
  rw [persisted_mapMetadata, persisted_mapMetadata]

/-
  What a store holds of an object that has taken tokens and
  version: the object, or what its JSON form keeps of it;
  nothing if it is being deleted and has no token left.
-/
inductive Store.Holds
    (k : Key)
    (o : Object)
    (fs : List String)
    (version : Option String)
    (store : Store) : Prop where
  | stored
      {x : Object}
      (hSame : x = o ∨ x = o.persisted)
      (hStored :
        store.object? k = some (x.retokened fs version)) :
      Holds k o fs version store
  | gone
      (hDeleting : o.isDeleting = true)
      (hNone : fs = [])
      (hGone : store.object? k = none) :
      Holds k o fs version store

/- A store that shows the same object holds the same. -/
theorem Store.Holds.congr
    {k : Key}
    {o : Object}
    {fs : List String}
    {version : Option String}
    {store store' : Store}
    (hHolds : store.Holds k o fs version)
    (hSame : store'.object? k = store.object? k) :
    store'.Holds k o fs version := by
  cases hHolds with
  | stored hObject hStored =>
      exact .stored hObject (hSame.trans hStored)
  | gone hDeleting hNone hGone =>
      exact .gone hDeleting hNone (hSame.trans hGone)

/-
  What is stored has kind and metadata of the object, but
  for tokens and version.
-/
theorem Store.Holds.eq_retokened
    {k : Key}
    {o stored : Object}
    {fs : List String}
    {version : Option String}
    {store : Store}
    (hHolds : store.Holds k o fs version)
    (hStored : store.object? k = some stored) :
    stored =
      (o.mapStatus (fun _ => stored.status)).retokened fs
        version := by
  cases hHolds with
  | @stored x hSame hObject =>
      rw [hObject] at hStored
      cases hStored
      rcases hSame with hSame | hSame
      · rw [hSame]
        rfl
      · rw [hSame]
        simp [Object.retokened, Object.withVersion,
          Object.withFinalizers, Object.mapMetadata,
          Object.mapStatus]
  | gone _ _ hGone =>
      rw [hGone] at hStored
      cases hStored

/- The version of what is stored. -/
theorem Store.Holds.version
    {k : Key}
    {o stored : Object}
    {fs : List String}
    {version : Option String}
    {store : Store}
    (hHolds : store.Holds k o fs version)
    (hStored : store.object? k = some stored) :
    stored.metadata.resourceVersion = version := by
  rw [hHolds.eq_retokened hStored]
  rfl

/-
  What a store holds after a patch of tokens: the object
  goes away exactly if it is being deleted and none is left.
-/
theorem Store.holds_settle
    {k : Key}
    {o x : Object}
    {fs : List String}
    {version : Option String}
    {store : Store}
    (hSame : x = o ∨ x = o.persisted) :
    (store.settle k
        (x.persisted.retokened fs version)).object? k =
        (if o.isDeleting && fs.isEmpty then none
        else some (o.persisted.retokened fs version)) ∧
      (store.settle k
        (x.persisted.retokened fs version)).Holds k o fs
          version := by
  have hPersisted : x.persisted = o.persisted := by
    rcases hSame with hSame | hSame
    · rw [hSame]
    · rw [hSame, Object.persisted_persisted]
  have hDeleting :
      (o.persisted.retokened fs version).isDeleting =
        o.isDeleting := by
    change o.persisted.metadata.isDeleting = _
    rw [Object.persisted_metadata]
    rfl
  have hObject :=
    Store.object?_settle k k
      (o.persisted.retokened fs version) store
  rw [if_pos rfl, hDeleting] at hObject
  change _ = (if o.isDeleting && fs.isEmpty then none
    else some (o.persisted.retokened fs version)) at hObject
  rw [hPersisted]
  refine ⟨hObject, ?_⟩
  split at hObject
  · next hGone =>
      have hGone := Bool.and_eq_true_iff.mp hGone
      exact .gone hGone.1 (List.isEmpty_iff.mp hGone.2)
        hObject
  · exact .stored (.inr rfl) hObject

/-
  What a patch of other tokens does to what is held: it
  fails and changes no object, or the store holds the object
  with these tokens at the version handed back.  A patch of
  a stored object fails only if a failure is queued.
-/
theorem Store.Holds.patch_tokens
    {k : Key}
    {o base : Object}
    {fs new : List String}
    {version : Option String}
    {s : Store}
    (hHolds : s.Holds k o fs version)
    (hKey : o.key = k)
    (hBase : base = o.retokened fs version)
    (hChanged : new ≠ fs) :
    (∃ e,
      (patch (base.withFinalizers new) base s).1 = .error e ∧
        (patch (base.withFinalizers new) base s).2.objects =
          s.objects ∧
        ((s.object? k).isSome = true →
          s.patchFailures ≠ [])) ∨
    ∃ stored,
      (patch (base.withFinalizers new) base s).1 =
          .ok stored ∧
        (patch (base.withFinalizers new) base s).2.object? k =
          (if o.isDeleting && new.isEmpty then none
          else some (o.persisted.retokened new
            stored.metadata.resourceVersion)) ∧
        (patch (base.withFinalizers new) base s).2.Holds k o
          new stored.metadata.resourceVersion := by
  have hBaseKey : base.key = k := by
    rw [hBase]
    exact hKey
  have hBaseTokens : base.metadata.finalizers = fs := by
    rw [hBase]
    rfl
  cases hHolds with
  | gone _ _ hGone =>
      rw [← hBaseKey] at hGone
      rcases patch_cases (base.withFinalizers new) base s with
        ⟨e, hError, hObjects⟩ | ⟨_, hSome, _⟩ |
        ⟨_, _, hSome, _⟩
      · refine .inl ⟨e, hError, hObjects, ?_⟩
        intro hSome
        rw [← hBaseKey, hGone] at hSome
        cases hSome
      · rw [hGone] at hSome
        cases hSome
      · rw [hGone] at hSome
        cases hSome
  | @stored x hSame hStored =>
      rw [← hBaseKey] at hStored
      rcases Store.patch_tokens hStored
        (hBaseTokens ▸ hChanged) with
        ⟨hQueued, e, hError, hObjects⟩ |
        ⟨version', hOk, hObjects⟩
      · exact .inl ⟨e, hError, hObjects, fun _ => hQueued⟩
      · have hRetokened :
            (((x.retokened fs version).persisted
              |>.withFinalizers new).withVersion version') =
              x.persisted.retokened new version' := by
          rw [Object.persisted_retokened]
          rfl
        rw [hRetokened] at hOk hObjects
        rw [hBaseKey] at hObjects
        have hShown := object?_congr hObjects k
        have hSettled :
            _ ∧ (s.settle k
              (x.persisted.retokened new version')).Holds k o
                new version' :=
          holds_settle hSame
        exact .inr ⟨_, hOk, hShown.trans hSettled.1,
          hSettled.2.congr hShown⟩

------------------------------------------------------------
-- Copies that Mirror the Store
------------------------------------------------------------

variable {μ : Type}

/- What survives other tasks that keep the stored objects. -/
theorem Session.Undisturbed.resume
    {P : Session μ → Prop}
    {s : Session μ}
    (hUndisturbed : s.Undisturbed)
    (hWaited :
      ∀ {s : Session μ} (others : List (Scene μ → Scene μ)),
        (∀ change ∈ others, change ∈ s.others) →
          P s → P { s with others := others })
    (hResumed :
      ∀ {s : Session μ} {scene : Scene μ},
        scene.store.objects = s.scene.store.objects →
          P s → P (s.moveTo .resumed scene))
    (hP : P s) :
    P s.resume :=
  Session.resume_keeps
    (fun rest hRest =>
      hWaited rest (fun _ hMember => hRest hMember) hP)
    (fun change hChange s' h =>
      hResumed (hUndisturbed change hChange s'.scene) h)

namespace Manager

open Engine

/- The stored object is as it was, and others leave it. -/
structure Untouched
    (k : Key)
    (o : Object)
    (s : Session μ) : Prop where
  stored : s.scene.store.object? k = some o
  undisturbed : s.Undisturbed

/- A moment in which the stored objects stay. -/
theorem Untouched.idle
    {k : Key}
    {o : Object}
    {s : Session μ}
    {scene : Scene μ}
    (hUntouched : Untouched k o s)
    (e : Event)
    (hObjects :
      scene.store.objects = s.scene.store.objects) :
    Untouched k o (s.moveTo e scene) where
  stored :=
    (Store.object?_congr hObjects k).trans hUntouched.stored
  undisturbed := hUntouched.undisturbed

/- Other tasks may be given up. -/
theorem Untouched.waited
    {k : Key}
    {o : Object}
    {s : Session μ}
    (hUntouched : Untouched k o s)
    (others : List (Scene μ → Scene μ))
    (hFewer : ∀ change ∈ others, change ∈ s.others) :
    Untouched k o { s with others := others } where
  stored := hUntouched.stored
  undisturbed := fun change hMember =>
    hUntouched.undisturbed change (hFewer change hMember)

/- Other tasks keep the stored objects. -/
theorem Untouched.resume
    {k : Key}
    {o : Object}
    {s : Session μ}
    (hUntouched : Untouched k o s) :
    Untouched k o s.resume :=
  hUntouched.undisturbed.resume
    (fun others hFewer h => h.waited others hFewer)
    (fun hObjects h => h.idle _ hObjects) hUntouched

/-
  The copies of a run and the stored object are the fetched
  object with the same tokens at the same version; only the
  working copy may have another status.
-/
structure Mirrors
    (k : Key)
    (o : Object)
    (c : Copies)
    (s : Session μ) : Prop where
  own : c.obj.metadata = c.snapshot.metadata
  snapshot :
    c.snapshot =
      o.retokened c.snapshot.metadata.finalizers
        c.snapshot.metadata.resourceVersion
  holds :
    s.scene.store.Holds k o c.snapshot.metadata.finalizers
      c.snapshot.metadata.resourceVersion
  undisturbed : s.Undisturbed

/- A fetched object is the stored one. -/
theorem Untouched.mirrors
    {k : Key}
    {o : Object}
    {s : Session μ}
    (hUntouched : Untouched k o s) :
    Mirrors k o ⟨o, o⟩ s where
  own := rfl
  snapshot := rfl
  holds := .stored (.inl rfl) hUntouched.stored
  undisturbed := hUntouched.undisturbed

namespace Mirrors

variable {k : Key}
variable {o : Object}
variable {c : Copies}
variable {s : Session μ}

/- The snapshot has the key of the object. -/
theorem snapshot_key
    (hMirrors : Mirrors k o c s)
    (hKey : o.key = k) :
    c.snapshot.key = k := by
  rw [hMirrors.snapshot]
  exact hKey

/- The working copy is being deleted if the object is. -/
theorem isDeleting
    (hMirrors : Mirrors k o c s) :
    c.obj.isDeleting = o.isDeleting := by
  change c.obj.metadata.isDeleting = _
  rw [hMirrors.own, hMirrors.snapshot]
  rfl

/- The tokens of the working copy are those of the snapshot. -/
theorem tokens
    (hMirrors : Mirrors k o c s) :
    c.snapshot.metadata.finalizers =
      c.obj.metadata.finalizers := by
  rw [hMirrors.own]

/- The metadata of the working copy are all that matters. -/
theorem handed
    {o' : Object}
    (hMirrors : Mirrors k o c s)
    (hMetadata : o'.metadata = c.obj.metadata) :
    Mirrors k o { c with obj := o' } s where
  own := hMetadata.trans hMirrors.own
  snapshot := hMirrors.snapshot
  holds := hMirrors.holds
  undisturbed := hMirrors.undisturbed

/- Other tasks may be given up. -/
theorem waited
    (hMirrors : Mirrors k o c s)
    (others : List (Scene μ → Scene μ))
    (hFewer : ∀ change ∈ others, change ∈ s.others) :
    Mirrors k o c { s with others := others } where
  own := hMirrors.own
  snapshot := hMirrors.snapshot
  holds := hMirrors.holds
  undisturbed := fun change hMember =>
    hMirrors.undisturbed change (hFewer change hMember)

/- A moment in which the stored objects stay. -/
theorem idle
    {scene : Scene μ}
    (hMirrors : Mirrors k o c s)
    (e : Event)
    (hObjects :
      scene.store.objects = s.scene.store.objects) :
    Mirrors k o c (s.moveTo e scene) where
  own := hMirrors.own
  snapshot := hMirrors.snapshot
  holds :=
    hMirrors.holds.congr (Store.object?_congr hObjects k)
  undisturbed := hMirrors.undisturbed

/- Other tasks keep the stored objects. -/
theorem resume
    (hMirrors : Mirrors k o c s) :
    Mirrors k o c s.resume :=
  hMirrors.undisturbed.resume
    (fun others hFewer h => h.waited others hFewer)
    (fun hObjects h => h.idle _ hObjects) hMirrors

/-
  What a patch of other tokens does: it fails and changes no
  object, or copies and store take the tokens.  A patch of a
  stored object fails only if a failure is queued.
-/
theorem patch_cases
    {new : List String}
    {r : Except StoreError Object}
    {store : Store}
    (hMirrors : Mirrors k o c s)
    (hKey : o.key = k)
    (hChanged : new ≠ c.obj.metadata.finalizers)
    (hRun :
      Store.patch (c.snapshot.withFinalizers new) c.snapshot
          s.scene.store =
        (r, store)) :
    (∃ e,
      r = .error e ∧
        store.objects = s.scene.store.objects ∧
        ((s.scene.store.object? k).isSome = true →
          s.scene.store.patchFailures ≠ [])) ∨
    ∃ stored,
      r = .ok stored ∧
        store.object? k =
          (if o.isDeleting && new.isEmpty then none
          else some (o.persisted.retokened new
            stored.metadata.resourceVersion)) ∧
        ∀ e,
          Mirrors k o
            ⟨(c.obj.withFinalizers new).withVersion
                stored.metadata.resourceVersion,
              (c.snapshot.withFinalizers new).withVersion
                stored.metadata.resourceVersion⟩
            (s.moveTo e
              { s.scene with store := store }) := by
  rw [← hMirrors.tokens] at hChanged
  have hPatched :=
    hMirrors.holds.patch_tokens hKey hMirrors.snapshot hChanged
  rw [hRun] at hPatched
  rcases hPatched with
    hFailed | ⟨stored, hOk, hObject, hHolds⟩
  · exact .inl hFailed
  · refine .inr ⟨stored, hOk, hObject, ?_⟩
    intro e
    exact
      { own :=
          congrArg
            (fun m : Metadata =>
              { m with
                finalizers := new
                resourceVersion :=
                  stored.metadata.resourceVersion })
            hMirrors.own
        snapshot :=
          (congrArg
            (fun snapshot : Object =>
              (snapshot.withFinalizers new).withVersion
                stored.metadata.resourceVersion)
            hMirrors.snapshot).trans rfl
        holds := hHolds
        undisturbed := hMirrors.undisturbed }

/-
  What the write of the status does: it fails and changes no
  object, or the stored object takes the status.  The write
  for a stored object fails only if a failure is queued.
-/
theorem status_cases
    {r : Except StoreError Object}
    {store : Store}
    (hMirrors : Mirrors k o c s)
    (hKey : o.key = k)
    (hRun :
      Store.updateStatus c.obj s.scene.store = (r, store)) :
    (∃ e,
      r = .error e ∧
        store.objects = s.scene.store.objects ∧
        ((s.scene.store.object? k).isSome = true →
          s.scene.store.statusFailures ≠ [])) ∨
    ∃ stored,
      r = .ok stored ∧
        (s.scene.store.object? k).isSome = true ∧
        store.object? k =
          some ((o.mapStatus (fun _ => c.obj.status)).retokened
            c.snapshot.metadata.finalizers
            stored.metadata.resourceVersion) := by
  have hObjKey : c.obj.key = k := by
    rw [← hMirrors.snapshot_key hKey]
    exact congrArg Metadata.key hMirrors.own
  rcases Store.updateStatus_cases c.obj s.scene.store with
    ⟨e, hError, hObjects⟩ |
    ⟨old, stored, hOld, hNew, hOk, _, hObjects⟩
  · rw [hRun] at hError hObjects
    refine .inl ⟨e, hError, hObjects, ?_⟩
    intro hSome hQueue
    rcases Option.isSome_iff_exists.mp hSome with
      ⟨old, hStored⟩
    have hVersion :
        c.obj.metadata.resourceVersion =
          old.metadata.resourceVersion := by
      rw [hMirrors.own]
      exact (hMirrors.holds.version hStored).symm
    rw [← hObjKey] at hStored
    have hWritten :=
      (Store.updateStatus_current hQueue hStored hVersion).1
    rw [hRun] at hWritten
    rw [hWritten] at hError
    cases hError
  · rw [hRun] at hOk hObjects
    rw [hObjKey] at hOld hObjects
    refine .inr ⟨stored, hOk, by rw [hOld]; rfl, ?_⟩
    have hStored : store.object? k = some stored := by
      change Table.get? k store.objects = _
      rw [hObjects, Table.get?_put, if_pos rfl]
    rw [hStored, hNew, hMirrors.holds.eq_retokened hOld]
    rfl

end Mirrors

/- A patch of other tokens keeps copies and store alike. -/
theorem Mirrors.sendTokens
    {k : Key}
    {o : Object}
    {c : Copies}
    {new : List String}
    {H : Halt → Session μ → Prop}
    (hKey : o.key = k)
    (hChanged : new ≠ c.obj.metadata.finalizers) :
    Triple (Mirrors k o c)
      (Engine.sendTokens
        { c with obj := c.obj.withFinalizers new })
      (fun r s =>
        match r.1 with
        | .ok _ =>
            Mirrors k o r.2 s ∧
              r.2.obj.status = c.obj.status
        | .error _ => Mirrors k o c s)
      H := by
  refine sendTokens_triple ?_ ?_
  · intro s stored store hMirrors hRun
    rcases hMirrors.patch_cases hKey hChanged hRun with
      ⟨_, hError, _⟩ | ⟨_, hOk, _, hMoved⟩
    · cases hError
    · cases hOk
      exact ⟨hMoved _, rfl⟩
  · intro s e store hMirrors hRun
    rcases hMirrors.patch_cases hKey hChanged hRun with
      ⟨_, _, hObjects, _⟩ | ⟨_, hOk, _⟩
    · exact hMirrors.idle _ hObjects
    · cases hOk

/-
  After the write of a status nobody has touched the object
  with that status.
-/
theorem Mirrors.sendStatus
    {k : Key}
    {o : Object}
    {c : Copies}
    {H : Halt → Session μ → Prop}
    (hKey : o.key = k) :
    Triple (Mirrors k o c) (Engine.sendStatus c.obj)
      (fun r s =>
        match r with
        | .ok stored =>
            Untouched k
              ((o.mapStatus (fun _ => c.obj.status)).retokened
                c.snapshot.metadata.finalizers
                stored.metadata.resourceVersion) s
        | .error _ => Mirrors k o c s)
      H := by
  refine .onStore ?_
  intro s r store hMirrors hRun
  rcases hMirrors.status_cases hKey hRun with
    ⟨_, hError, hObjects, _⟩ | ⟨stored, hOk, _, hObject⟩
  · rw [hError]
    exact hMirrors.idle _ hObjects
  · rw [hOk]
    exact ⟨hObject, hMirrors.undisturbed⟩

/-
  A run that is alone fetches what was stored when it
  started, if the fetch does not fail.
-/
theorem fetch_triple
    {k : Key}
    {o : Object}
    {P F E : Session μ → Prop}
    {H : Halt → Session μ → Prop}
    (hUntouched : ∀ s, P s → Untouched k o s)
    (hWaited :
      ∀ s (others : List (Scene μ → Scene μ)),
        (∀ change ∈ others, change ∈ s.others) →
          P s → P { s with others := others })
    (hResumed :
      ∀ s (scene : Scene μ),
        scene.store.objects = s.scene.store.objects →
          P s → P (s.moveTo .resumed scene))
    (hCancelled : ∀ s, P s → H (.failed .cancelled) s)
    (hOk :
      ∀ s (scene : Scene μ),
        scene.store.objects = s.scene.store.objects →
          P s → F (s.moveTo (.fetched k (.ok o)) scene))
    (hError :
      ∀ s e (scene : Scene μ),
        scene.store.objects = s.scene.store.objects →
          P s → E (s.moveTo (.fetched k (.error e)) scene)) :
    Triple P (await (some <$> fetch k))
      (fun r s =>
        match r with
        | .ok o' => o' = o ∧ F s
        | .error _ => E s)
      H := by
  refine .await (M := P) ?_ (fun s hP _ => hCancelled s hP)
    (.map (.onStore ?_))
  · intro s hP
    exact (hUntouched s hP).undisturbed.resume
      (fun others hFewer hP => hWaited _ others hFewer hP)
      (fun hObjects hP => hResumed _ _ hObjects hP) hP
  · intro s r store h hRun
    have hObjects := Store.get_objects k s.scene.store
    rw [hRun] at hObjects
    cases r with
    | error e => exact hError s e _ hObjects h.1
    | ok o' =>
        have hObject :=
          Store.get_ok (congrArg Prod.fst hRun)
        rw [(hUntouched s h.1).stored] at hObject
        cases hObject
        exact ⟨rfl, hOk s _ hObjects h.1⟩

end Manager

------------------------------------------------------------
-- Runs that are Alone
------------------------------------------------------------

/- A step may hand back a working copy for another one. -/
def Step.Hands
    (step : Step μ)
    (o o' : Object) : Prop :=
  ∃ context scene result scene',
    step.process context o scene =
        .ok (result, o') scene' ∨
      step.finalize context o scene =
        .ok (result, o') scene'

namespace Manager

open Engine

/- Steps that behave hand back the metadata they were given. -/
theorem StepsBehave.hands
    {m : Manager μ}
    {step : Step μ}
    {o o' : Object}
    (hBehave : m.StepsBehave)
    (hStep : step ∈ m.steps)
    (hHands : step.Hands o o') :
    o'.metadata = o.metadata := by
  rcases hHands with ⟨context, scene, result, scene', hRun⟩
  exact hBehave.keeps step hStep context o scene result o'
    scene' hRun

/-
  An invariant of a run that is alone with the store: the
  stored objects stay but where the run patches them, and
  no other moment matters.
-/
structure Alone
    (m : Manager μ)
    (I : Work → Session μ → Prop)
    (H : Halt → Session μ → Prop) : Prop where
  undisturbed : ∀ {w s}, I w s → s.Undisturbed
  waited :
    ∀ {w s} (others : List (Scene μ → Scene μ)),
      (∀ change ∈ others, change ∈ s.others) →
        I w s → I w { s with others := others }
  idle :
    ∀ {w s e} {scene : Scene μ},
      e.isPatch = false →
        scene.store.objects = s.scene.store.objects →
          I w s → I w (s.moveTo e scene)
  handed :
    ∀ {w s o} {step : Step μ},
      step ∈ m.steps → step.Hands w.obj o →
        I w s → I { w with obj := o } s
  recorded :
    ∀ {w s} (cs : List Condition),
      I w s →
        I { w with
          obj := w.obj.mapStatus
            (fun st => { st with conditions := cs }) } s
  tallied :
    ∀ {w s} (requeue : Duration) (hasError : Bool),
      I w s →
        I { w with requeue := requeue, hasError := hasError } s
  reported :
    ∀ {w s} (rs : List Report),
      I w s → I w { s with reports := rs }
  halts : ∀ {w s} (h : Halt), I w s → H h s
  haltReported :
    ∀ {h s} (rs : List Report),
      H h s → H h { s with reports := rs }
  released :
    ∀ {w step},
      step ∈ m.steps → m.readOnly = false →
        step.owns w.obj = true →
          Triple
            (fun s =>
              I w s ∧ s.scene.cancelled = false ∧
                Journal.JustSettled step.name
                  (Journal.events s.journal))
            (sendTokens { w.toCopies with
              obj := Tokens.removeAll
                (step.tokens w.obj) w.obj })
            (fun r s =>
              match r.1 with
              | .ok _ => I { w with toCopies := r.2 } s
              | .error e => H (.failed (.store e)) s)
            H

namespace Alone

variable {m : Manager μ}
variable {I : Work → Session μ → Prop}
variable {H : Halt → Session μ → Prop}
variable {w : Work}

/- Other tasks keep the stored objects. -/
theorem resume
    {s : Session μ}
    (hAlone : m.Alone I H)
    (hI : I w s) :
    I w s.resume :=
  (hAlone.undisturbed hI).resume
    (fun others hFewer h => hAlone.waited others hFewer h)
    (fun hObjects h => hAlone.idle rfl hObjects h) hI

/- A call that keeps the stored objects. -/
theorem call
    {α : Type}
    {x : Call μ α}
    (hAlone : m.Alone I H)
    (hKeeps : x.KeepsObjects) :
    Triple (I w) (Engine.call x) (fun _ => I w) H :=
  .call_within hKeeps
    (fun _ _ _ hI _ hObjects => hAlone.idle rfl hObjects hI)
    (fun _ _ hI hObjects => hAlone.idle rfl hObjects hI)
    (fun h _ _ hI hObjects =>
      hAlone.halts h (hAlone.idle rfl hObjects hI))

/- A call of a step, which hands back a working copy. -/
theorem callStep
    {x : Call μ (StepResult × Object)}
    {step : Step μ}
    {context : Context}
    (hAlone : m.Alone I H)
    (hStep : step ∈ m.steps)
    (hEntry :
      x = step.process context w.obj ∨
        x = step.finalize context w.obj)
    (hKeeps : x.KeepsObjects) :
    Triple (I w) (Engine.call x)
      (fun r => I { w with
        obj := (r.map (·.2)).getD w.obj })
      H := by
  refine .call_within hKeeps ?_
    (fun _ _ hI hObjects => hAlone.idle rfl hObjects hI)
    (fun h _ _ hI hObjects =>
      hAlone.halts h (hAlone.idle rfl hObjects hI))
  intro s r scene hI hRun hObjects
  have hIdle := hAlone.idle (e := .returned) rfl hObjects hI
  refine hAlone.handed hStep ?_ hIdle
  refine ⟨context, s.scene, r.1, scene, ?_⟩
  rcases hEntry with hEntry | hEntry
  · rw [hEntry] at hRun
    exact .inl hRun
  · rw [hEntry] at hRun
    exact .inr hRun

/-
  An invariant of a run that is alone is carried through the
  run.
-/
theorem carries
    (hBehave : m.StepsBehave)
    (hAlone : m.Alone I H) :
    m.Carries I H where
  recorded := hAlone.recorded
  tallied := hAlone.tallied
  reported := hAlone.reported
  halts := hAlone.halts
  haltReported := hAlone.haltReported
  resumed := hAlone.resume
  noted := by
    intro w s e hNotes hI
    refine hAlone.idle ?_ rfl hI
    cases hNotes <;> rfl
  hooked := by
    intro w hook context hHook
    exact hAlone.call (hBehave.hook hook hHook context w.obj)
  processed := by
    intro w step context hStep _
    exact hAlone.callStep hStep (.inl rfl)
      (hBehave.process step hStep context w.obj)
  finalized := by
    intro w step context hStep _
    exact hAlone.callStep hStep (.inr rfl)
      (hBehave.finalize step hStep context w.obj)
  released := hAlone.released

end Alone

end Manager

end Reconciler
