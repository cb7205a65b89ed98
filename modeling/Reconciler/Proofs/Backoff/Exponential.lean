import Mathlib.Algebra.Group.Nat.Defs
import Mathlib.Data.List.Induction
import Mathlib.Data.String.Basic
import Reconciler.Backoff.Exponential
import Reconciler.Proofs.Table

/-
  This file gives the delays of exponential backoff.

  A delay is computed in words that can be exceeded three
  times over: by the factor, by the product and by the count
  of calls.  Each time the limit takes the place of what is
  not there, so delays never decrease and never exceed the
  limit, and it does not matter that counts stop at the top.

  In one place the limit comes too early: a factor that is
  no 32-bit word need not make a product above the limit, so
  a short initial delay is not doubled more than 31 times.

  Key definitions include:
    * `Backoff.again`
    * `Backoff.delayAfter`
    * `Backoff.Ask`
    * `Backoff.callsSince`

  Key theorems include:
    * `Backoff.nanos_delay`
    * `Backoff.delay_mono`
    * `Backoff.delay_counted`
    * `Backoff.delayAfter_eq`
    * `Backoff.run_counts`
    * `Backoff.delays_double_iff`
-/

------------------------------------------------------------
-- Delays
------------------------------------------------------------

namespace Reconciler

namespace Backoff

variable {κ : Type}

section Delays

variable (b : Backoff κ)

/-
  The initial delay is doubled while the factor is a 32-bit
  word; a product that is no duration is above the limit.
-/
theorem nanos_delay
    (n : Nat) :
    (b.delay n).nanos =
      if n < 32 then
        min (b.initial.nanos * 2 ^ n) b.limit.nanos
      else
        b.limit.nanos := by
  have hLimit := b.limit.bounded
  unfold delay factor?
  by_cases hFactor : n < 32
  · rw [if_pos hFactor, if_pos hFactor, Option.bind_some]
    unfold Duration.times?
    split
    · next d hProduct =>
        split at hProduct
        · cases hProduct
          exact Duration.nanos_shorter _ _
        · cases hProduct
    · next hProduct =>
        split at hProduct
        · cases hProduct
        · next hTooLong =>
            have hLonger :
                b.limit.nanos ≤ b.initial.nanos * 2 ^ n :=
              Nat.le_of_lt (Nat.lt_of_lt_of_le hLimit
                (Nat.le_of_not_lt hTooLong))
            exact (Nat.min_eq_right hLonger).symm
  · rw [if_neg hFactor, if_neg hFactor]
    rfl

/- Two backoffs with the same limits give the same delays. -/
theorem delay_congr
    {b b' : Backoff κ}
    (hInitial : b.initial = b'.initial)
    (hLimit : b.limit = b'.limit)
    (n : Nat) :
    b.delay n = b'.delay n := by
  apply Duration.ext
  rw [nanos_delay, nanos_delay, hInitial, hLimit]

theorem delay_le_limit
    (n : Nat) :
    b.delay n ≤ b.limit := by
  change (b.delay n).nanos ≤ b.limit.nanos
  rw [nanos_delay]
  split
  · exact Nat.min_le_right _ _
  · exact Nat.le_refl _

/- More calls never make a delay shorter. -/
theorem delay_mono
    {m n : Nat}
    (hMore : m ≤ n) :
    b.delay m ≤ b.delay n := by
  change (b.delay m).nanos ≤ (b.delay n).nanos
  rw [nanos_delay b n]
  split
  · next hWord =>
      have hPow : 2 ^ m ≤ 2 ^ n :=
        Nat.pow_le_pow_right (by decide) hMore
      have hProduct :
          b.initial.nanos * 2 ^ m ≤ b.initial.nanos * 2 ^ n :=
        Nat.mul_le_mul_left _ hPow
      rw [nanos_delay, if_pos (by omega)]
      omega
  · exact b.delay_le_limit m

/- No delay is shorter than the initial one. -/
theorem initial_le_delay
    (hLimit : b.initial ≤ b.limit)
    (n : Nat) :
    b.initial ≤ b.delay n := by
  have hFirst : (b.delay 0).nanos = b.initial.nanos := by
    rw [nanos_delay, if_pos (by decide), Nat.pow_zero,
      Nat.mul_one]
    exact Nat.min_eq_left hLimit
  have hMore : (b.delay 0).nanos ≤ (b.delay n).nanos :=
    b.delay_mono (Nat.zero_le n)
  rw [hFirst] at hMore
  exact hMore

/- From the last 32-bit factor on, every delay is the limit. -/
theorem delay_of_large
    {n : Nat}
    (hLarge : 32 ≤ n) :
    b.delay n = b.limit := by
  apply Duration.ext
  rw [nanos_delay, if_neg (by omega)]

/- A count that has stopped at the top makes no difference. -/
theorem delay_counted
    (n : Nat) :
    b.delay (min n maxCount) = b.delay n := by
  by_cases hTop : n ≤ maxCount
  · rw [Nat.min_eq_left hTop]
  · have hLarge : 32 ≤ maxCount := by decide
    rw [Nat.min_eq_right (by omega), b.delay_of_large hLarge,
      b.delay_of_large (by omega)]

end Delays

/- Counts stop at the top. -/
theorem nextCount_min
    (n : Nat) :
    nextCount (min n maxCount) = min (n + 1) maxCount := by
  unfold nextCount
  omega

------------------------------------------------------------
-- Counted Calls
------------------------------------------------------------

variable [LinearOrder κ]

theorem requeues_next
    (item k : κ)
    (b : Backoff κ) :
    (b.next item).2.requeues k =
      if k = item then nextCount (b.requeues item)
      else b.requeues k := by
  unfold next requeues
  rw [Table.get?_put]
  split
  · rfl
  · rfl

theorem requeues_forget
    (item k : κ)
    (b : Backoff κ) :
    (b.forget item).requeues k =
      if k = item then 0 else b.requeues k := by
  unfold forget requeues
  rw [Table.get?_erase]
  split
  · rfl
  · rfl

/- A number of calls for one item. -/
def again
    (item : κ) : Nat → Backoff κ → Backoff κ
  | 0, b => b
  | n + 1, b => ((again item n b).next item).2

/- Calls are counted, and change nothing else. -/
theorem again_counts
    (item : κ)
    (n : Nat)
    (b : Backoff κ) :
    (again item n b).initial = b.initial ∧
      (again item n b).limit = b.limit ∧
      (b.requeues item = 0 →
        (again item n b).requeues item = min n maxCount) := by
  induction n with
  | zero =>
      refine ⟨rfl, rfl, ?_⟩
      intro hNone
      rw [again, hNone, Nat.zero_min]
  | succ n ih =>
      refine ⟨ih.1, ih.2.1, ?_⟩
      intro hNone
      rw [again, requeues_next, if_pos rfl, ih.2.2 hNone,
        nextCount_min]

/-
  The delay for an item after a number of calls for it, from
  a backoff that has not been called before.
-/
def delayAfter
    (initial limit : Duration)
    (item : κ)
    (n : Nat) : Duration :=
  ((again item n
    { initial := initial, limit := limit }).next item).1

/- Every backoff with these limits gives the same delay. -/
theorem delayAfter_eq
    (b : Backoff κ)
    (item : κ)
    (n : Nat) :
    delayAfter b.initial b.limit item n = b.delay n := by
  let fresh : Backoff κ :=
    { initial := b.initial, limit := b.limit }
  rcases again_counts item n fresh with
    ⟨hInitial, hLimit, hCount⟩
  have hCalls :
      (again item n fresh).requeues item = min n maxCount :=
    hCount rfl
  change (again item n fresh).delay
    ((again item n fresh).requeues item) = b.delay n
  rw [hCalls, delay_counted]
  exact delay_congr hInitial hLimit n

------------------------------------------------------------
-- Histories of Calls
------------------------------------------------------------

/- What a backoff can be asked. -/
inductive Ask (κ : Type) where
  | next (item : κ)
  | forget (item : κ)
  | requeues (item : κ)

namespace Ask

/- The backoff after a call. -/
def after
    (b : Backoff κ) : Ask κ → Backoff κ
  | .next item => (b.next item).2
  | .forget item => b.forget item
  | .requeues _ => b

/- What a call makes of the number of calls for an item. -/
def counted
    (item : κ)
    (n : Nat) : Ask κ → Nat
  | .next k => if item = k then n + 1 else n
  | .forget k => if item = k then 0 else n
  | .requeues _ => n

end Ask

/- A backoff after calls. -/
def run
    (b : Backoff κ)
    (asks : List (Ask κ)) : Backoff κ :=
  asks.foldl Ask.after b

/- The calls for an item since it was last forgotten. -/
def callsSince
    (item : κ)
    (asks : List (Ask κ)) : Nat :=
  asks.foldl (fun n ask => ask.counted item n) 0

/- Calls are counted, and no limit changes. -/
theorem run_counts
    (initial limit : Duration)
    (asks : List (Ask κ)) :
    let b : Backoff κ := { initial := initial, limit := limit }
    (b.run asks).initial = initial ∧
      (b.run asks).limit = limit ∧
      ∀ item,
        (b.run asks).requeues item =
          min (callsSince item asks) maxCount := by
  intro b
  induction asks using List.reverseRecOn with
  | nil => exact ⟨rfl, rfl, fun _ => rfl⟩
  | append_singleton asks ask ih =>
      rcases ih with ⟨hInitial, hLimit, hCounts⟩
      unfold run callsSince
      rw [List.foldl_append]
      cases ask with
      | next k =>
          refine ⟨hInitial, hLimit, ?_⟩
          intro item
          rw [List.foldl_append]
          change ((b.run asks).next k).2.requeues item =
            min (if item = k then callsSince item asks + 1
              else callsSince item asks) maxCount
          rw [requeues_next]
          split
          · next hSame =>
              rw [← hSame, hCounts, nextCount_min]
          · exact hCounts item
      | forget k =>
          refine ⟨hInitial, hLimit, ?_⟩
          intro item
          rw [List.foldl_append]
          change ((b.run asks).forget k).requeues item =
            min (if item = k then 0
              else callsSince item asks) maxCount
          rw [requeues_forget]
          split
          · rfl
          · exact hCounts item
      | requeues k =>
          refine ⟨hInitial, hLimit, ?_⟩
          intro item
          rw [List.foldl_append]
          exact hCounts item

/- The delay for an item is that of the calls since. -/
theorem next_run
    (initial limit : Duration)
    (asks : List (Ask κ))
    (item : κ) :
    let b : Backoff κ := { initial := initial, limit := limit }
    ((b.run asks).next item).1 =
      b.delay (callsSince item asks) := by
  intro b
  rcases run_counts initial limit asks with
    ⟨hInitial, hLimit, hCounts⟩
  change (b.run asks).delay ((b.run asks).requeues item) = _
  rw [hCounts, delay_counted]
  exact delay_congr hInitial hLimit _

/- Any number of calls can be made. -/
theorem callsSince_replicate
    (item : κ)
    (n : Nat) :
    callsSince item (List.replicate n (.next item)) = n := by
  unfold callsSince
  induction n with
  | zero => rfl
  | succ n ih =>
      rw [List.replicate_succ', List.foldl_append, ih]
      exact if_pos rfl

/-
  The delay of the call after `n` calls, for any calls for
  any items.  It is the initial delay doubled `n` times, or
  the limit where that is less, exactly if the factor is a
  32-bit word or the limit is reached by then.  So it is
  right for every `n` exactly if the limit is reached by the
  first factor that is none.
-/
theorem delays_double_iff
    (initial limit : Duration)
    (item : κ) :
    let b : Backoff κ := { initial := initial, limit := limit }
    (∀ asks,
      ((b.run asks).next item).1.nanos =
        if callsSince item asks < 32 then
          min (initial.nanos * 2 ^ callsSince item asks)
            limit.nanos
        else
          limit.nanos) ∧
      (∀ asks,
        ((b.run asks).next item).1.nanos =
            min (initial.nanos * 2 ^ callsSince item asks)
              limit.nanos ↔
          callsSince item asks < 32 ∨
            limit.nanos ≤
              initial.nanos * 2 ^ callsSince item asks) ∧
      ((∀ asks,
        ((b.run asks).next item).1.nanos =
          min (initial.nanos * 2 ^ callsSince item asks)
            limit.nanos) ↔
        limit.nanos ≤ initial.nanos * 2 ^ 32) := by
  intro b
  have hDelay :
      ∀ asks,
        ((b.run asks).next item).1.nanos =
          if callsSince item asks < 32 then
            min (initial.nanos * 2 ^ callsSince item asks)
              limit.nanos
          else
            limit.nanos := by
    intro asks
    rw [next_run, nanos_delay]
  have hExact :
      ∀ asks,
        ((b.run asks).next item).1.nanos =
            min (initial.nanos * 2 ^ callsSince item asks)
              limit.nanos ↔
          callsSince item asks < 32 ∨
            limit.nanos ≤
              initial.nanos * 2 ^ callsSince item asks := by
    intro asks
    rw [hDelay]
    split
    · next hWord => exact ⟨fun _ => .inl hWord, fun _ => rfl⟩
    · next hWord =>
        rw [eq_comm, min_eq_right_iff]
        exact (or_iff_right hWord).symm
  refine ⟨hDelay, hExact, ?_⟩
  constructor
  · intro hAlways
    have hThere :=
      (hExact (List.replicate 32 (.next item))).mp
        (hAlways _)
    rw [callsSince_replicate] at hThere
    exact hThere.resolve_left (by decide)
  · intro hReached asks
    apply (hExact asks).mpr
    by_cases hWord : callsSince item asks < 32
    · exact .inl hWord
    · right
      have hPow : 2 ^ 32 ≤ 2 ^ callsSince item asks :=
        Nat.pow_le_pow_right (by decide) (by omega)
      exact Nat.le_trans hReached
        (Nat.mul_le_mul_left _ hPow)

/-
  With no initial delay every delay should be none; the 33rd
  is the limit.
-/
theorem instant_jumps :
    let b : Backoff String :=
      { initial := .zero, limit := .ofSeconds 120 }
    let asks := List.replicate 32 (.next "a")
    callsSince "a" asks = 32 ∧
      min (b.initial.nanos * 2 ^ 32) b.limit.nanos = 0 ∧
      ((b.run asks).next "a").1 = .ofSeconds 120 := by
  intro b asks
  refine ⟨callsSince_replicate "a" 32, by decide, ?_⟩
  rw [next_run, callsSince_replicate]
  exact b.delay_of_large (Nat.le_refl 32)

end Backoff

end Reconciler
