import Mathlib.Logic.Relation
import Reconciler.Engine.Reporting

/-
  This file says which failures the filter of reports holds
  back, and what becomes of the others.

  Error values name their sources.  Following them from the
  outermost value leads to the root, and the values of a
  failure are those that are met on the way.

  Key definitions include:
    * `Failure.source?`
    * `Failure.Reaches`
    * `Report.capture`

  Key theorems include:
    * `Failure.source_induction`
    * `Failure.mem_values_iff`
    * `Failure.isReportable_eq_false_iff`
    * `Report.capture_filters`
    * `Manager.report_eq_capture`
-/

------------------------------------------------------------
-- Following Sources
------------------------------------------------------------

namespace Reconciler

namespace Failure

variable {f g : Failure}

/-
  The error value that an error value names as its source.
  What a note is put on is the source of the whole, whatever
  the note is.
-/
def source? : Failure → Option Failure
  | .plain _ => none
  | .store (.serialization detail) => some (.plain detail)
  | .store _ => none
  | .reconcile (.store e) => some (.store e)
  | .reconcile (.step _ _ cause) => some cause
  | .reconcile (.prepare cause) => some cause
  | .reconcile _ => none
  | .noted _ inner => some inner

/- An error value is met by following sources. -/
def Reaches : Failure → Failure → Prop :=
  Relation.ReflTransGen (fun f g => f.source? = some g)

theorem values_of_root
    (hRoot : f.source? = none) :
    f.values = [f] := by
  cases f with
  | plain message => rfl
  | store e =>
      cases e with
      | serialization detail => cases hRoot
      | _ => rfl
  | reconcile e =>
      cases e with
      | store e => cases hRoot
      | step name requeue cause => cases hRoot
      | prepare cause => cases hRoot
      | _ => rfl
  | noted note inner => cases hRoot

theorem values_of_source
    (hSource : f.source? = some g) :
    f.values = f :: g.values := by
  cases f with
  | plain message => cases hSource
  | store e =>
      cases e <;> cases hSource
      rfl
  | reconcile e => cases e <;> cases hSource <;> rfl
  | noted note inner =>
      cases hSource
      rfl

/- A source is a smaller error value. -/
theorem sizeOf_source
    (hSource : f.source? = some g) :
    sizeOf g < sizeOf f := by
  cases f with
  | plain message => cases hSource
  | store e =>
      cases e <;> cases hSource
      simp only [plain.sizeOf_spec, store.sizeOf_spec,
        StoreError.serialization.sizeOf_spec]
      omega
  | reconcile e =>
      cases e <;> cases hSource <;>
        simp only [store.sizeOf_spec, reconcile.sizeOf_spec,
          ReconcileError.store.sizeOf_spec,
          ReconcileError.step.sizeOf_spec,
          ReconcileError.prepare.sizeOf_spec] <;>
        omega
  | noted note inner =>
      cases hSource
      simp only [noted.sizeOf_spec]
      omega

/- Induction from the root to the outermost error value. -/
theorem source_induction
    {P : Failure → Prop}
    (root : ∀ f, f.source? = none → P f)
    (wrap : ∀ f g, f.source? = some g → P g → P f)
    (f : Failure) :
    P f := by
  cases hSource : f.source? with
  | none => exact root f hSource
  | some g =>
      exact wrap f g hSource (source_induction root wrap g)
termination_by sizeOf f
decreasing_by exact sizeOf_source hSource

theorem reaches_of_root
    (hRoot : f.source? = none) :
    f.Reaches g ↔ g = f := by
  constructor
  · intro hReaches
    rcases hReaches.cases_head with hSame | ⟨c, hFirst, _⟩
    · exact hSame.symm
    · cases hRoot.symm.trans hFirst
  · rintro rfl
    exact .refl

theorem reaches_of_source
    {h : Failure}
    (hSource : f.source? = some h) :
    f.Reaches g ↔ g = f ∨ h.Reaches g := by
  constructor
  · intro hReaches
    rcases hReaches.cases_head with
      hSame | ⟨c, hFirst, hRest⟩
    · exact .inl hSame.symm
    · obtain rfl : h = c :=
        Option.some.inj (hSource.symm.trans hFirst)
      exact .inr hRest
  · rintro (rfl | hRest)
    · exact .refl
    · exact .head hSource hRest

/- The values of a failure are met by following sources. -/
theorem mem_values_iff
    (f g : Failure) :
    g ∈ f.values ↔ f.Reaches g := by
  induction f using source_induction with
  | root f hRoot =>
      rw [values_of_root hRoot, reaches_of_root hRoot,
        List.mem_singleton]
  | wrap f h hSource ih =>
      rw [values_of_source hSource, reaches_of_source hSource,
        List.mem_cons, ih]

------------------------------------------------------------
-- The Filter
------------------------------------------------------------

/-
  A value that is recognized is the store error in question
  or has it as its source, so that it does not matter by
  which of the two it is recognized.
-/
theorem reaches_of_isTerminating
    (hTerminating : f.isTerminating = true) :
    ∃ ns, f.Reaches (.store (.namespaceTerminating ns)) := by
  cases f with
  | plain message => cases hTerminating
  | store e =>
      cases e <;> cases hTerminating
      exact ⟨_, .refl⟩
  | reconcile e =>
      cases e with
      | store e =>
          cases e <;> cases hTerminating
          exact ⟨_, .single rfl⟩
      | _ => cases hTerminating
  | noted note inner => cases hTerminating

theorem isReportable_eq_false_iff
    (f : Failure) :
    f.isReportable = false ↔
      ∃ ns, f.Reaches (.store (.namespaceTerminating ns)) := by
  unfold isReportable
  rw [Bool.not_eq_false', List.any_eq_true]
  constructor
  · rintro ⟨g, hMember, hTerminating⟩
    rcases reaches_of_isTerminating hTerminating with
      ⟨ns, hReaches⟩
    exact ⟨ns, ((mem_values_iff f g).mp hMember).trans hReaches⟩
  · rintro ⟨ns, hReaches⟩
    exact ⟨_, (mem_values_iff f _).mpr hReaches, rfl⟩

/- Notes around a failure make no difference. -/
theorem isReportable_notes
    (f : Failure)
    (notes : List Note) :
    (notes.foldl (fun g note => .noted note g) f).isReportable =
      f.isReportable := by
  induction notes generalizing f with
  | nil => rfl
  | cons note rest ih => exact ih (.noted note f)

end Failure

------------------------------------------------------------
-- Capturing
------------------------------------------------------------

namespace Report

/-
  Give a failure that passes the filter to a sink, whatever
  the sink does with it; the answer is whether it was given.
-/
def capture
    {M : Type → Type}
    [Monad M]
    (sink : Report → M Unit)
    (f : Failure)
    (tags : Table String String)
    (extras : Table String Json) : M Bool :=
  match Report.capture? f tags extras with
  | some report => do
      sink report
      return true
  | none => return false

/-
  A failure is held back exactly if a store error of a
  terminating namespace is among the error values that are
  met by following sources; notes around it never count.  Any
  other failure is given to the sink once, with the tags and
  extras that came with it.
-/
theorem capture_filters
    (f : Failure) :
    (f.isReportable = false ↔
      ∃ ns, f.Reaches (.store (.namespaceTerminating ns))) ∧
    (∀ notes : List Note,
      (notes.foldl (fun g note => .noted note g)
        f).isReportable = f.isReportable) ∧
    ∀ {M : Type → Type} [Monad M] (sink : Report → M Unit)
      (tags : Table String String)
      (extras : Table String Json),
      capture sink f tags extras =
        if f.isReportable then do
          sink ⟨f.fullText, tags, extras⟩
          return true
        else
          return false := by
  refine ⟨f.isReportable_eq_false_iff, f.isReportable_notes, ?_⟩
  intro M _ sink tags extras
  unfold capture capture?
  cases f.isReportable with
  | true => rfl
  | false => rfl

/-
  The cause lies three levels deep, as what a step of another
  reconcile has failed with.
-/
example :
    Failure.isReportable
        (.noted (.text "outer")
          (.reconcile (.prepare
            (.noted (.text "inner")
              (.reconcile (.step "x" .zero
                (.store (.namespaceTerminating "ns")))))))) =
      false :=
  rfl

/- The same store error is used as a note. -/
example :
    Failure.isReportable
        (.noted (.store (.namespaceTerminating "ns"))
          (.plain "boom")) =
      true :=
  rfl

end Report

/- What a manager reports, it captures with its own sink. -/
theorem Manager.report_eq_capture
    {μ : Type}
    (m : Manager μ)
    (f : Failure)
    (snapshot : Object)
    (step : Option String) :
    m.report f snapshot step =
      if m.policy.allows snapshot.metadata.generation
          snapshot.observedGeneration? then do
        discard (Report.capture m.emit f (m.tags snapshot step)
          [("generation",
            .int snapshot.metadata.generation.toInt)])
      else
        pure () := by
  unfold report Report.capture
  dsimp only
  cases m.policy.allows snapshot.metadata.generation
      snapshot.observedGeneration? with
  | false => rfl
  | true =>
      cases Report.capture? f (m.tags snapshot step)
          [("generation",
            .int snapshot.metadata.generation.toInt)] with
      | none => rfl
      | some report => rfl

end Reconciler
