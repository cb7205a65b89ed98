/-
  This file defines jitter, the source of the minutes that
  spread reconciles over time.

  A source answers its n-th draw from a half-open range;
  where the range is empty, it answers the lower end.  Which
  minutes a random source answers is left open: it may be
  any source that stays inside its ranges, as every one does
  that is made of the words of a generator.

  Key definitions include:
    * `Jitter`
    * `Jitter.InRange`
    * `Jitter.fixed`
    * `Jitter.ofWords`
    * `Jitter.Random`
-/

------------------------------------------------------------
-- Sources
------------------------------------------------------------

namespace Reconciler

/- A source of minutes: draw index, low end, high end. -/
structure Jitter where
  draw : Nat → Nat → Nat → Nat

namespace Jitter

/- Every draw from a range that is not empty is inside it. -/
def InRange
    (j : Jitter) : Prop :=
  ∀ n low high,
    low < high →
      low ≤ j.draw n low high ∧ j.draw n low high < high

/- Always the same minutes, clamped into the range. -/
def fixed
    (minutes : Nat) : Jitter :=
  ⟨fun _ low high =>
    if high ≤ low then low
    else max low (min minutes (high - 1))⟩

/- A fixed source stays inside every range. -/
theorem fixed_inRange
    (minutes : Nat) :
    InRange (fixed minutes) := by
  intro n low high hLt
  simp only [fixed, Nat.not_le.mpr hLt, if_false]
  omega

------------------------------------------------------------
-- Random Sources
------------------------------------------------------------

/- Minutes made of the words of a generator. -/
def ofWords
    (word : Nat → Nat) : Jitter :=
  ⟨fun n low high =>
    if high ≤ low then low
    else low + word n % (high - low)⟩

/- Whatever the words are, no range is left. -/
theorem ofWords_inRange
    (word : Nat → Nat) :
    InRange (ofWords word) := by
  intro n low high hLt
  have hMod : word n % (high - low) < high - low :=
    Nat.mod_lt _ (by omega)
  simp only [ofWords, Nat.not_le.mpr hLt, if_false]
  omega

/-
  A source for trials: its words count up from a seed, so
  that the same seed leads to the same minutes.
-/
def seeded
    (seed : Nat) : Jitter :=
  ofWords (fun n => seed + n)

/-
  A random source.  Nothing is known of it but that it stays
  inside its ranges.
-/
structure Random extends Jitter where
  inRange : toJitter.InRange

namespace Random

/- Any generator gives such a source. -/
def ofWords
    (word : Nat → Nat) : Random where
  toJitter := Jitter.ofWords word
  inRange := ofWords_inRange word

end Random

end Jitter

end Reconciler
