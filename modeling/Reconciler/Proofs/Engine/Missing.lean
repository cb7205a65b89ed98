import Reconciler.Proofs.Engine.Parked
import Reconciler.Proofs.Engine.Settled

/-
  This file proves that a run sends a patch for the tokens
  that its object misses.

  A live object may lack tokens that steps declare for it.  A
  run that nobody hinders, and that does not park the object,
  sends a patch for them before it seeds a condition, calls
  the hook or executes a step; and what has been written once
  has been written for good.

  Key definitions include:
    * `Session.WroteSince`

  Key theorems include:
    * `Session.WroteSince.not_silent`
    * `Manager.ensureTokens_writes`
    * `Manager.recovered_writes`
-/

------------------------------------------------------------
-- Writes
------------------------------------------------------------

namespace Reconciler

variable {μ : Type}

/- Since a session something has been written. -/
def Session.WroteSince
    (start s : Session μ) : Prop :=
  start.Since (fun es => ∃ e ∈ es, e.isWrite = true) s

/- What has been written once has been written for good. -/
theorem Session.lasting_wroteSince
    (start : Session μ) :
    Session.Lasting start.WroteSince := by
  refine start.lasting_since
    (Q := fun es => ∃ e ∈ es, e.isWrite = true) ?_
  rintro es last ⟨e, hMember, hWrite⟩
  exact ⟨e, List.mem_append_left _ hMember, hWrite⟩

/- A moment in which something is written. -/
theorem Session.WroteSince.of_moveTo
    {start s : Session μ}
    {e : Event}
    (hSince : start.Since (fun _ => True) s)
    (hWrite : e.isWrite = true)
    (scene : Scene μ) :
    start.WroteSince (s.moveTo e scene) := by
  rcases hSince with ⟨new, hJournal, _⟩
  refine ⟨new ++ [⟨e, scene⟩], by simp [hJournal], e, ?_,
    hWrite⟩
  rw [Journal.events_append]
  exact List.mem_append_right _ List.mem_cons_self

/- Whoever has written was not silent. -/
theorem Session.WroteSince.not_silent
    {start s : Session μ}
    (hWrote : start.WroteSince s) :
    ¬ start.SilentSince s := by
  rintro ⟨new, hJournal, hSilent⟩
  rcases hWrote with ⟨new', hSame, e, hMember, hWrite⟩
  rw [hJournal] at hSame
  rw [← List.append_cancel_left hSame] at hMember
  rw [hSilent e hMember] at hWrite
  cases hWrite

------------------------------------------------------------
-- Missing Tokens
------------------------------------------------------------

namespace Manager

open Engine

variable {m : Manager μ}
variable {k : Key}
variable {o : Object}
variable {start : Session μ}
variable {w : Work}

/- Missing tokens are written, whether that fails or not. -/
theorem ensureTokens_writes
    (hWritable : m.readOnly = false)
    (hLive : w.obj.isDeleting = false)
    (hMissing : Tokens.missing m.steps w.obj ≠ []) :
    Triple
      (fun s =>
        s.Unhindered ∧ start.Since (fun _ => True) s)
      (m.ensureTokens w)
      (fun _ => start.WroteSince)
      (fun _ => start.WroteSince) := by
  have hGrows : Session.Lasting (start.Since (fun _ => True)) :=
    start.lasting_since (fun _ _ _ => trivial)
  refine m.ensureTokens_triple (E := start.WroteSince)
    (fun _ h => ⟨h.1.resume, hGrows.resume h.2⟩) ?_
    (fun s rs h =>
      start.lasting_wroteSince.aside s.others rs s.draws h)
    (fun _ _ h => h) ?_ ?_
  · intro s h hCancelled
    exact (h.1.not_cancelled hCancelled).elim
  · rintro s _ (hReadOnly | hDeleting | hNone)
    · rw [hWritable] at hReadOnly
      cases hReadOnly
    · rw [hLive] at hDeleting
      cases hDeleting
    · exact absurd hNone hMissing
  · intro _ _ _
    exact sendTokens_triple
      (fun _ _ _ h _ => .of_moveTo h.1.2 rfl _)
      (fun _ _ _ h _ => .of_moveTo h.1.2 rfl _)

/-
  A run on a live object that misses tokens has written, when
  it comes to its end, whatever that is.
-/
theorem recovered_writes
    (hUnparked :
      ∀ now, m.parked? (Work.fresh o now) = none)
    (hWritable : m.readOnly = false)
    (hCapable : m.missingCapability? o = none)
    (hLive : o.isDeleting = false)
    (hMissing : Tokens.missing m.steps o ≠ [])
    (hUntouched : Untouched k o start)
    (hUnhindered : start.Unhindered)
    (tags : Table String String) :
    start.WroteSince
      (m.reconcileRecovered tags k start).2 := by
  have hGrows : Session.Lasting (start.Since (fun _ => True)) :=
    start.lasting_since (fun _ _ _ => trivial)
  have hFetch :
      Triple
        (fun s =>
          Untouched k o s ∧ s.Unhindered ∧
            start.Since (fun _ => True) s)
        (await (some <$> fetch k))
        (fun r s =>
          r = .ok o ∧ Untouched k o s ∧ s.Unhindered ∧
            start.Since (fun _ => True) s)
        (fun _ _ => False) :=
    fetch_stored (fun _ h => hGrows.resume h)
      (fun _ _ _ _ h => hGrows.moved _ _ h)
  have hBegun : start.Since (fun _ => True) start :=
    ⟨[], by simp, trivial⟩
  cases hRun : await (some <$> fetch k) start with
  | error h s =>
      exact (hFetch.of_error
        ⟨hUntouched, hUnhindered, hBegun⟩ hRun).elim
  | ok r s =>
      rcases hFetch.of_ok ⟨hUntouched, hUnhindered, hBegun⟩
        hRun with ⟨rfl, _, hGoes, hSince⟩
      rcases hGoes.clear.readable with ⟨now, hClock⟩
      have hSteps :
          Triple
            (fun s =>
              s.Unhindered ∧ start.Since (fun _ => True) s)
            (m.ensureTokens (Work.fresh o now) >>=
              m.runSteps (m.context k))
            (fun _ => start.WroteSince)
            (fun _ => start.WroteSince) :=
        .bind
          (ensureTokens_writes hWritable hLive hMissing)
          (fun _ =>
            (upholdsClose_of_lasting
              start.lasting_wroteSince).runSteps)
      unfold reconcileRecovered
      rw [reconcile_eq_of_fetched hRun hCapable hClock,
        hUnparked now]
      dsimp only
      cases hEnd :
          (m.ensureTokens (Work.fresh o now) >>=
            m.runSteps (m.context k)) s with
      | ok d s' => exact hSteps.of_ok ⟨hGoes, hSince⟩ hEnd
      | error h s' =>
          have hWrote : start.WroteSince s' :=
            hSteps.of_error ⟨hGoes, hSince⟩ hEnd
          exact start.lasting_wroteSince.aside s'.others _
            s'.draws hWrote

end Manager

end Reconciler
