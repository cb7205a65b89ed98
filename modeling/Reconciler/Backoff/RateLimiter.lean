import Reconciler.Backoff.Exponential
import Reconciler.Error.Config

/-
  This file defines the rate limiter of requeues.  Within a
  window after the first call for an item the delay is
  static; later calls back off exponentially.  Forgetting
  an item starts both phases over.

  Key definitions include:
    * `RateLimiterConfig.validate`
    * `RateLimiter`
    * `RateLimiter.next`
    * `RateLimiter.forget`
    * `RateLimiter.requeues`
    * `RateLimiter.tracked`
-/

------------------------------------------------------------
-- Configuration
------------------------------------------------------------

namespace Reconciler

/- The four delays of a rate limiter. -/
structure RateLimiterConfig where
  staticDelay : Duration := .ofSeconds 5
  staticWindow : Duration := .ofSeconds 60
  initialBackoff : Duration := .ofSeconds 5
  maxBackoff : Duration := .ofSeconds 120
deriving DecidableEq

namespace RateLimiterConfig

/- A delay that is shorter than it may be. -/
def tooShort
    (what : String)
    (value : Duration)
    (bound : String)
    (least : Duration) : ConfigError :=
  .rateLimiter
    (what ++ " (" ++ value.text ++ ") must be >= " ++
      bound ++ " (" ++ least.text ++ ")")

/-
  The static delay is the shortest of the four, and the
  limit is not below the initial backoff.
-/
def validate
    (c : RateLimiterConfig) : Except ConfigError Unit :=
  if c.initialBackoff < c.staticDelay then
    .error (tooShort "initial backoff" c.initialBackoff
      "static delay" c.staticDelay)
  else if c.staticWindow < c.staticDelay then
    .error (tooShort "static window" c.staticWindow
      "static delay" c.staticDelay)
  else if c.maxBackoff < c.initialBackoff then
    .error (tooShort "max backoff" c.maxBackoff
      "initial backoff" c.initialBackoff)
  else
    .ok ()

end RateLimiterConfig

------------------------------------------------------------
-- The Limiter
------------------------------------------------------------

/- The first call for an item and the number of calls. -/
structure Attempts where
  first : Nat
  count : Nat
deriving DecidableEq, Repr

/-
  The calls of each item, and the backoff of the calls
  after their windows.  Times are nanoseconds of a clock
  that never goes back.
-/
structure RateLimiter (κ : Type) where
  config : RateLimiterConfig
  attempts : Table κ Attempts := []
  backoff : Backoff κ

namespace RateLimiter

variable {κ : Type}
variable [DecidableEq κ] [LT κ] [DecidableLT κ]

omit [DecidableEq κ] [LT κ] [DecidableLT κ] in
/- A limiter without calls, if its delays are in order. -/
def create
    (c : RateLimiterConfig) :
    Except ConfigError (RateLimiter κ) := do
  c.validate
  return {
    config := c
    backoff :=
      { initial := c.initialBackoff, limit := c.maxBackoff } }

/- The calls for an item, the present one included. -/
def attempt
    (item : κ)
    (now : Nat)
    (l : RateLimiter κ) : Attempts :=
  match Table.get? item l.attempts with
  | none => ⟨now, nextCount 0⟩
  | some a => ⟨a.first, nextCount a.count⟩

/- Whether a call is still in the window of its item. -/
def inWindow
    (a : Attempts)
    (now : Nat)
    (l : RateLimiter κ) : Bool :=
  now - a.first ≤ l.config.staticWindow.nanos

/- The delay for an item, counting the call. -/
def next
    (item : κ)
    (now : Nat)
    (l : RateLimiter κ) : Duration × RateLimiter κ :=
  let a := l.attempt item now
  let l := { l with attempts := Table.put item a l.attempts }
  if l.inWindow a now then
    (l.config.staticDelay, l)
  else
    let (delay, backoff) := l.backoff.next item
    (delay, { l with backoff := backoff })

/- The calls for an item since it was last forgotten. -/
def requeues
    (item : κ)
    (l : RateLimiter κ) : Nat :=
  match Table.get? item l.attempts with
  | none => 0
  | some a => a.count

omit [DecidableEq κ] [LT κ] [DecidableLT κ] in
/- The number of items with calls. -/
def tracked
    (l : RateLimiter κ) : Nat :=
  l.attempts.length

/- Start both phases over for an item. -/
def forget
    (item : κ)
    (l : RateLimiter κ) : RateLimiter κ :=
  { l with
    attempts := Table.erase item l.attempts
    backoff := l.backoff.forget item }

end RateLimiter

end Reconciler
