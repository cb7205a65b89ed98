import Mathlib.Algebra.Group.Nat.Defs
import Reconciler.Proofs.Time.Delay
import Reconciler.Spread.Scheduler

/-
  This file bounds the delays that a scheduler draws.

  A draw is a whole number of minutes in the upper half of
  the whole minutes of the budget.  It is shorter than the
  budget, so that no word is exceeded on the way, and by less
  than a minute it may fall short of half the budget.

  Key definitions include:
    * `Duration.minutes`

  Key theorems include:
    * `Scheduler.draw_minutes`
    * `Scheduler.draw_bounds`
    * `Scheduler.setNext?_of_short`
    * `Scheduler.draws_within_budget`
-/

------------------------------------------------------------
-- Whole Minutes
------------------------------------------------------------

namespace Reconciler

namespace Duration

/- The whole minutes of a duration. -/
def minutes
    (d : Duration) : Nat :=
  d.nanos / 60_000_000_000

theorem seconds_div
    (d : Duration) :
    d.seconds / 60 = d.minutes :=
  Nat.div_div_eq_div_mul d.nanos 1_000_000_000 60

/- Seconds that fit into a word are not cut off. -/
theorem nanos_ofSeconds
    {n : Nat}
    (hWord : n < 2 ^ 64) :
    (ofSeconds n).nanos = n * 1_000_000_000 := by
  apply Nat.min_eq_left
  unfold maxNanos
  omega

end Duration

namespace Scheduler

variable {sched : Scheduler}
variable {s : Status}
variable {budget : Duration}

------------------------------------------------------------
-- Draws
------------------------------------------------------------

/-
  Minutes below those of a duration make a word of seconds,
  so that none of a source inside its range are cut off.
-/
theorem seconds_word
    {m : Nat}
    (hHigh : m < budget.minutes) :
    m * 60 < 2 ^ 64 := by
  have hBounded := budget.bounded
  unfold Duration.minutes at hHigh
  omega

/-
  With two whole minutes the range of a draw is not empty,
  and the draw is the minutes of the source.
-/
theorem draw_minutes
    (hJitter : sched.jitter.InRange)
    (hBudget : sched.budget s = budget)
    (hLong : SpreadConfig.minimumBudget ≤ budget)
    (n : Nat) :
    ∃ m,
      budget.minutes / 2 ≤ m ∧
        m < budget.minutes ∧
        m * 60 < 2 ^ 64 ∧
        (sched.draw n s).nanos = m * 60_000_000_000 := by
  have hMinimum : 120_000_000_000 ≤ budget.nanos := hLong
  have hRange : budget.minutes / 2 < budget.minutes := by
    unfold Duration.minutes
    omega
  rcases hJitter n _ _ hRange with ⟨hLow, hHigh⟩
  have hWord := seconds_word hHigh
  refine ⟨_, hLow, hHigh, hWord, ?_⟩
  unfold draw
  dsimp only
  rw [hBudget, budget.seconds_div,
    Duration.nanos_ofSeconds hWord, Nat.mul_assoc]

/-
  A draw is shorter than the budget, and longer than half of
  it less a minute.
-/
theorem draw_bounds
    {m : Nat}
    (hLow : budget.minutes / 2 ≤ m)
    (hHigh : m < budget.minutes) :
    budget.nanos <
        2 * (m * 60_000_000_000 + 60_000_000_000) ∧
      m * 60_000_000_000 < budget.nanos := by
  unfold Duration.minutes at hLow hHigh
  omega

------------------------------------------------------------
-- Slots
------------------------------------------------------------

/- A delay below 2 ^ 63 milliseconds is scheduled as it is. -/
theorem schedulable_of_short
    {d : Duration}
    (hShort : d.nanos < 2 ^ 63 * 1_000_000) :
    schedulable d = d :=
  if_pos hShort

/- Such a draw leads to the slot that is stored. -/
theorem setNext?_of_short
    {n : Nat}
    {now slot : Instant}
    (hShort : (sched.draw n s).nanos < 2 ^ 63 * 1_000_000)
    (hSlot : now.after? (sched.draw n s) = some slot) :
    sched.setNext? n s now =
      some { s with nextReconcile := some slot } := by
  unfold setNext? nextSlot?
  rw [schedulable_of_short hShort, hSlot, Option.map_some]

/-
  Take a budget of at least two minutes, from the status or
  else from the configuration, and a source of jitter that
  stays inside its ranges; every fixed source is one.  A draw
  is a whole number of minutes, from half the minutes of the
  budget up to all of them, and its seconds make a word.  So
  it is shorter than the budget and longer than half of it
  less a minute.  A draw below 2 ^ 63 milliseconds is added
  to the current instant, if there is such an instant; it is
  stored as the next slot, and the rest of the status stays.
-/
theorem draws_within_budget
    (hJitter : sched.jitter.InRange)
    (hBudget :
      s.budget = some budget ∨
        (s.budget = none ∧
          sched.config.defaultBudget = budget))
    (hLong : SpreadConfig.minimumBudget ≤ budget)
    (n : Nat)
    (now : Instant) :
    (∀ minutes, (Jitter.fixed minutes).InRange) ∧
      (∃ m,
        budget.minutes / 2 ≤ m ∧
          m < budget.minutes ∧
          m * 60 < 2 ^ 64 ∧
          (sched.draw n s).nanos = m * 60_000_000_000) ∧
      budget.nanos <
        2 * ((sched.draw n s).nanos + 60_000_000_000) ∧
      sched.draw n s < budget ∧
      ∀ slot,
        (sched.draw n s).nanos < 2 ^ 63 * 1_000_000 →
          now.after? (sched.draw n s) = some slot →
            sched.setNext? n s now =
                some { s with nextReconcile := some slot } ∧
              (now.isLeap = false →
                slot.count =
                  now.count + (sched.draw n s).nanos) := by
  have hTaken : sched.budget s = budget := by
    unfold Scheduler.budget
    rcases hBudget with hOwn | ⟨hNone, hDefault⟩
    · rw [hOwn, Option.getD_some]
    · rw [hNone, Option.getD_none, hDefault]
  rcases draw_minutes hJitter hTaken hLong n with
    ⟨m, hLow, hHigh, hWord, hDraw⟩
  rcases draw_bounds hLow hHigh with ⟨hHalf, hShorter⟩
  refine ⟨Jitter.fixed_inRange,
    ⟨m, hLow, hHigh, hWord, hDraw⟩, ?_, ?_, ?_⟩
  · rw [hDraw]
    exact hHalf
  · change (sched.draw n s).nanos < budget.nanos
    rw [hDraw]
    exact hShorter
  · intro slot hShort hSlot
    refine ⟨setNext?_of_short hShort hSlot, ?_⟩
    intro hRegular
    exact ((Instant.after?_eq_some_iff hRegular).mp hSlot).2

/- Five minutes and a half, of which two to four are drawn. -/
def narrow : Scheduler :=
  ⟨{ defaultBudget := .ofSeconds 330 }, .fixed 100⟩

/- Four minutes after the start of 1970. -/
def fourMinutes : Instant :=
  (Instant.ofParts? 240 0).getD .epoch

theorem narrow_within_budget :
    narrow.jitter.InRange ∧
      SpreadConfig.minimumBudget ≤
        narrow.config.defaultBudget ∧
      (narrow.draw 0 {}).nanos <
        (narrow.config.defaultBudget).nanos ∧
      narrow.setNext? 0 {} .epoch =
        some { nextReconcile := some fourMinutes } := by
  have hJitter : narrow.jitter.InRange :=
    Jitter.fixed_inRange 100
  have hLong :
      SpreadConfig.minimumBudget ≤
        narrow.config.defaultBudget := by
    decide
  rcases draws_within_budget (s := {}) hJitter
      (.inr ⟨rfl, rfl⟩) hLong 0 .epoch with
    ⟨_, _, _, hShorter, hStored⟩
  exact ⟨hJitter, hLong, hShorter,
    (hStored fourMinutes (by decide) (by decide)).1⟩

end Scheduler

end Reconciler
