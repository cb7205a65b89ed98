import Reconciler.Time.Clock

/-
  This file says how delays and instants fit together.

  A clock never shows a leap second.  Among instants outside
  leap seconds the order of time is that of the nanoseconds
  counted since 1970, and delays add up.

  Key definitions include:
    * `Instant.count`

  Key theorems include:
    * `Clock.read_regular`
    * `Instant.after?_eq_some_iff`
    * `Instant.after?_lt_iff`
    * `Instant.isZero_delayUntil_iff`
    * `Instant.after?_delayUntil_iff`
-/

------------------------------------------------------------
-- Counted Nanoseconds
------------------------------------------------------------

namespace Reconciler

namespace Instant

/-
  The nanoseconds that a clock has counted at an instant;
  those of a leap second are counted again by the next one.
-/
def count
    (t : Instant) : Int :=
  t.second * 1_000_000_000 + t.nanos

variable {t u : Instant}
variable {d : Duration}

/- Outside a leap second less than a second has passed. -/
theorem nanos_lt
    (hRegular : t.isLeap = false) :
    t.nanos < 1_000_000_000 := by
  unfold isLeap at hRegular
  simpa using hRegular

theorem isLeap_of_lt
    (hNanos : t.nanos < 1_000_000_000) :
    t.isLeap = false := by
  unfold isLeap
  simpa using hNanos

/- Outside leap seconds the order is that of the counts. -/
theorem lt_iff_count
    (hT : t.isLeap = false)
    (hU : u.isLeap = false) :
    t < u ↔ t.count < u.count := by
  have hNanosT := nanos_lt hT
  have hNanosU := nanos_lt hU
  change t.rank < u.rank ↔ _
  unfold rank count
  omega

/- The parts of an instant that was made of parts. -/
theorem ofParts?_eq_some
    {second : Int}
    {nanos : Nat}
    (hParts : ofParts? second nanos = some t) :
    t.second = second ∧ t.nanos = nanos := by
  unfold ofParts? at hParts
  split at hParts
  · cases hParts
    exact ⟨rfl, rfl⟩
  · cases hParts

/- Parts within the bounds make an instant. -/
theorem ofParts?_of_parts
    {second : Int}
    {nanos : Nat}
    (hSecond : t.second = second)
    (hNanos : t.nanos = nanos) :
    ofParts? second nanos = some t := by
  cases hSecond
  cases hNanos
  unfold ofParts?
  rw [dif_pos ⟨t.earliest, t.latest, t.bounded, t.regular⟩]

/-
  A delay counts from an instant outside leap seconds; it
  never ends inside one.
-/
theorem after?_eq_some_iff
    (hRegular : t.isLeap = false) :
    t.after? d = some u ↔
      u.isLeap = false ∧ u.count = t.count + d.nanos := by
  have hNanos := nanos_lt hRegular
  have hMod : t.nanos % 1_000_000_000 = t.nanos :=
    Nat.mod_eq_of_lt hNanos
  unfold after?
  rw [if_neg (by simp [hRegular]), hMod]
  dsimp only
  constructor
  · intro hParts
    rcases ofParts?_eq_some hParts with ⟨hSecond, hRest⟩
    constructor
    · apply isLeap_of_lt
      omega
    · unfold count
      omega
  · rintro ⟨hLeap, hCount⟩
    have hNanosU := nanos_lt hLeap
    unfold count at hCount
    apply ofParts?_of_parts
    · omega
    · omega

/- The order of two instants is that of their delays. -/
theorem after?_lt_iff
    {v : Instant}
    {e : Duration}
    (hRegular : t.isLeap = false)
    (hU : t.after? d = some u)
    (hV : t.after? e = some v) :
    u < v ↔ d.nanos < e.nanos := by
  rw [after?_eq_some_iff hRegular] at hU hV
  rw [lt_iff_count hU.1 hV.1, hU.2, hV.2]
  omega

------------------------------------------------------------
-- Delays to an Instant
------------------------------------------------------------

/- No difference is too long for a duration. -/
theorem nanos_delayUntil
    (t u : Instant) :
    (t.delayUntil u).nanos = (difference t u).toNat := by
  have hBound :
      (difference t u).toNat ≤ Duration.maxNanos := by
    have hT := t.earliest
    have hU := u.latest
    have hNanos := u.bounded
    unfold difference leapNanos Duration.maxNanos
    split
    · omega
    · split <;> omega
  exact Nat.min_eq_left hBound

/- Outside leap seconds a difference is one of the counts. -/
theorem difference_regular
    (hT : t.isLeap = false)
    (hU : u.isLeap = false) :
    difference t u = u.count - t.count := by
  unfold difference leapNanos count
  rw [hT, hU]
  simp only [Bool.false_eq_true, false_and, if_false]
  omega

/-
  An instant that has not passed is no delay away only if it
  is now.
-/
theorem isZero_delayUntil_iff
    (hRegular : t.isLeap = false)
    (hAhead : ¬ u < t) :
    (t.delayUntil u).isZero = true ↔ u = t := by
  have hNanos := nanos_lt hRegular
  have hBound := u.bounded
  have hLast := u.regular
  have hRank : ¬ u.rank < t.rank := hAhead
  have hZero :
      (t.delayUntil u).isZero = true ↔
        difference t u ≤ 0 := by
    unfold Duration.isZero
    rw [nanos_delayUntil, decide_eq_true_iff]
    omega
  rw [hZero]
  constructor
  · intro hNone
    unfold difference leapNanos at hNone
    rw [hRegular] at hNone
    unfold rank at hRank
    unfold isLeap timeOfDay at hNone
    simp only [Bool.false_eq_true, false_and, if_false,
      decide_eq_true_eq] at hNone
    apply ext
    · split at hNone <;> omega
    · split at hNone <;> omega
  · intro hNow
    rw [hNow, difference_regular hRegular hRegular]
    omega

/-
  The delay to an instant that has not passed leads there,
  unless the instant lies inside a leap second.
-/
theorem after?_delayUntil_iff
    (hRegular : t.isLeap = false)
    (hAhead : ¬ u < t) :
    t.after? (t.delayUntil u) = some u ↔
      u.isLeap = false := by
  rw [after?_eq_some_iff hRegular]
  constructor
  · exact fun h => h.1
  · intro hLeap
    rw [lt_iff_count hLeap hRegular] at hAhead
    rw [nanos_delayUntil, difference_regular hRegular hLeap]
    exact ⟨hLeap, by omega⟩

/- Two delays from one instant, the one before the other. -/
theorem nanos_delayUntil_after
    {v : Instant}
    {e : Duration}
    (hRegular : t.isLeap = false)
    (hU : t.after? d = some u)
    (hV : t.after? e = some v) :
    (v.delayUntil u).nanos = d.nanos - e.nanos := by
  rw [after?_eq_some_iff hRegular] at hU hV
  rw [nanos_delayUntil, difference_regular hV.1 hU.1, hU.2,
    hV.2]
  omega

end Instant

------------------------------------------------------------
-- Clocks
------------------------------------------------------------

/- A clock never shows a leap second. -/
theorem Clock.read_regular
    {c : Clock}
    {t : Instant}
    (hRead : c.read = .ok t) :
    t.isLeap = false := by
  unfold read at hRead
  split at hRead
  · cases hRead
  · split at hRead
    · next t' hParts =>
        cases hRead
        apply Instant.isLeap_of_lt
        rw [(Instant.ofParts?_eq_some hParts).2]
        omega
    · cases hRead

end Reconciler
