import Reconciler.Table
import Reconciler.Time.Duration

/-
  This file defines exponential backoff for single items:
  each call for an item doubles the delay, up to a limit,
  until the item is forgotten.

  Key definitions include:
    * `Backoff`
    * `Backoff.delay`
    * `Backoff.next`
    * `Backoff.forget`
    * `Backoff.requeues`
-/

------------------------------------------------------------
-- Exponential Backoff
------------------------------------------------------------

namespace Reconciler

/- Counts of calls are 32-bit words that stop at the top. -/
def maxCount : Nat :=
  0x100000000 - 1

/- One more call, up to the largest count. -/
def nextCount
    (n : Nat) : Nat :=
  min (n + 1) maxCount

/- The two limits and the calls so far of each item. -/
structure Backoff (κ : Type) where
  initial : Duration
  limit : Duration
  calls : Table κ Nat := []

namespace Backoff

variable {κ : Type}
variable [DecidableEq κ] [LT κ] [DecidableLT κ]

/- The largest power of two that is a 32-bit word. -/
def factor?
    (exponent : Nat) : Option Nat :=
  if exponent < 32 then some (Nat.pow 2 exponent) else none

/-
  The delay after a number of calls: the initial delay
  doubled as often, or the limit where that is longer, no
  duration, or where the factor is no 32-bit word.
-/
def delay
    (b : Backoff κ)
    (calls : Nat) : Duration :=
  match (factor? calls).bind b.initial.times? with
  | some d => d.shorter b.limit
  | none => b.limit

/- The calls for an item since it was last forgotten. -/
def requeues
    (item : κ)
    (b : Backoff κ) : Nat :=
  (Table.get? item b.calls).getD 0

/- The delay for an item, counting the call. -/
def next
    (item : κ)
    (b : Backoff κ) : Duration × Backoff κ :=
  let n := b.requeues item
  (b.delay n,
    { b with calls := Table.put item (nextCount n) b.calls })

/- Start over for an item. -/
def forget
    (item : κ)
    (b : Backoff κ) : Backoff κ :=
  { b with calls := Table.erase item b.calls }

end Backoff

end Reconciler
