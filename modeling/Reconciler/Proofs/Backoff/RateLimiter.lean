import Mathlib.Data.Set.Card
import Mathlib.Data.String.Basic
import Reconciler.Backoff.RateLimiter
import Reconciler.Proofs.Backoff.Exponential

/-
  This file proves that a rate limiter refines its history.

  A limiter keeps two tables with counts of their own.  What
  it answers about an item is determined by one list all the
  same: the times of the calls for the item since it was last
  forgotten.  The first of them opens the window, and the
  calls behind the window are those that back off.

  Key definitions include:
    * `RateLimiter.Call`
    * `RateLimiter.run`
    * `RateLimiter.timesSince`
    * `RateLimiter.promised`
    * `RateLimiter.Follows`

  Key theorems include:
    * `RateLimiter.Follows.next_promised`
    * `RateLimiter.Follows.run`
    * `RateLimiter.promised_mono`
    * `RateLimiter.refines_history`
-/

------------------------------------------------------------
-- Histories
------------------------------------------------------------

namespace Reconciler

namespace RateLimiter

/- What a limiter can be asked. -/
inductive Call (κ : Type) where
  | next (item : κ)
  | forget (item : κ)
  | requeues (item : κ)
  | tracked

namespace Call

variable {κ : Type}

/- Whether a call can matter to an item. -/
def concerns
    [DecidableEq κ]
    (item : κ) : Call κ → Bool
  | .next k => k = item
  | .forget k => k = item
  | .requeues _ => false
  | .tracked => false

/- The limiter after a call at a time. -/
def after
    [LinearOrder κ]
    (now : Nat)
    (l : RateLimiter κ) : Call κ → RateLimiter κ
  | .next item => (l.next item now).2
  | .forget item => l.forget item
  | .requeues _ => l
  | .tracked => l

/- What a call makes of the times that count for an item. -/
def remembered
    [DecidableEq κ]
    (item : κ)
    (now : Nat)
    (times : List Nat) : Call κ → List Nat
  | .next k => if k = item then times ++ [now] else times
  | .forget k => if k = item then [] else times
  | .requeues _ => times
  | .tracked => times

/- Calls for other items are not remembered. -/
theorem remembered_of_other
    [DecidableEq κ]
    {item : κ}
    {call : Call κ}
    (hOther : call.concerns item = false)
    (now : Nat)
    (times : List Nat) :
    call.remembered item now times = times := by
  cases call with
  | next k => exact if_neg (of_decide_eq_false hOther)
  | forget k => exact if_neg (of_decide_eq_false hOther)
  | requeues k => rfl
  | tracked => rfl

end Call

variable {κ : Type}
variable [LinearOrder κ]

/- A limiter after calls, each with the time it is made at. -/
def run
    (l : RateLimiter κ)
    (calls : List (Nat × Call κ)) : RateLimiter κ :=
  calls.foldl (fun l call => call.2.after call.1 l) l

/-
  The times of the calls for an item since it was last
  forgotten.
-/
def timesSince
    (item : κ)
    (calls : List (Nat × Call κ)) : List Nat :=
  calls.foldl
    (fun times call =>
      call.2.remembered item call.1 times) []

/- The last call is remembered last. -/
theorem timesSince_append
    (item : κ)
    (calls : List (Nat × Call κ))
    (call : Nat × Call κ) :
    timesSince item (calls ++ [call]) =
      call.2.remembered item call.1
        (timesSince item calls) := by
  unfold timesSince
  rw [List.foldl_append]
  rfl

/- Only calls for the item itself are counted for it. -/
theorem timesSince_next
    (item k : κ)
    (now : Nat)
    (calls : List (Nat × Call κ)) :
    timesSince k (calls ++ [(now, .next item)]) =
      if k = item then timesSince k calls ++ [now]
      else timesSince k calls := by
  rw [timesSince_append]
  simp only [Call.remembered, eq_comm]

theorem timesSince_forget
    (item k : κ)
    (now : Nat)
    (calls : List (Nat × Call κ)) :
    timesSince k (calls ++ [(now, .forget item)]) =
      if k = item then [] else timesSince k calls := by
  rw [timesSince_append]
  simp only [Call.remembered, eq_comm]

/- The calls that can matter to an item. -/
def ownCalls
    (item : κ)
    (calls : List (Nat × Call κ)) : List (Nat × Call κ) :=
  calls.filter (fun call => call.2.concerns item)

/- No others are remembered. -/
theorem timesSince_ownCalls
    (item : κ)
    (calls : List (Nat × Call κ)) :
    timesSince item (ownCalls item calls) =
      timesSince item calls := by
  induction calls using List.reverseRecOn with
  | nil => rfl
  | append_singleton calls call ih =>
      unfold ownCalls at ih ⊢
      rw [List.filter_append, timesSince_append]
      cases hOwn : call.2.concerns item with
      | true =>
          rw [List.filter_singleton, hOwn, cond_true,
            timesSince_append, ih]
      | false =>
          rw [List.filter_singleton, hOwn, cond_false,
            List.append_nil, ih,
            Call.remembered_of_other hOwn]

/- As long as an item is not forgotten, its calls add up. -/
theorem timesSince_grows
    {item : κ}
    {more : List (Nat × Call κ)}
    (hKept : ∀ call ∈ more, call.2 ≠ .forget item)
    (calls : List (Nat × Call κ)) :
    ∃ times,
      timesSince item (calls ++ more) =
        timesSince item calls ++ times := by
  induction more using List.reverseRecOn with
  | nil => exact ⟨[], by simp⟩
  | append_singleton more call ih =>
      rcases ih (fun call hMember =>
          hKept call (List.mem_append_left _ hMember)) with
        ⟨times, hTimes⟩
      have hLast := hKept call (by simp)
      rw [← List.append_assoc, timesSince_append, hTimes]
      rcases call with ⟨now, call⟩
      cases call with
      | next k =>
          by_cases hKey : k = item
          · exact ⟨times ++ [now], by
              simp [Call.remembered, hKey]⟩
          · exact ⟨times, by simp [Call.remembered, hKey]⟩
      | forget k =>
          have hKey : k ≠ item := by
            intro hSame
            exact hLast (by rw [hSame])
          exact ⟨times, by simp [Call.remembered, hKey]⟩
      | requeues k => exact ⟨times, rfl⟩
      | tracked => exact ⟨times, rfl⟩

------------------------------------------------------------
-- Windows
------------------------------------------------------------

/- Whether a time is behind the window of the first one. -/
def isLate
    (window : Duration)
    (times : List Nat)
    (now : Nat) : Bool :=
  match times with
  | [] => false
  | first :: _ => window.nanos < now - first

/- The times behind the window of the first one. -/
def late
    (window : Duration)
    (times : List Nat) : List Nat :=
  times.filter (isLate window times)

/-
  The delay for a call, given the calls before it: static in
  the window, and else the one that a backoff of its own
  gives after the earlier calls behind the window.
-/
def promised
    (c : RateLimiterConfig)
    (item : κ)
    (times : List Nat)
    (now : Nat) : Duration :=
  if isLate c.staticWindow times now then
    Backoff.delayAfter c.initialBackoff c.maxBackoff item
      (late c.staticWindow times).length
  else
    c.staticDelay

/- What is recorded of the calls for an item. -/
def recorded : List Nat → Option Attempts
  | [] => none
  | first :: rest =>
      some ⟨first, min (rest.length + 1) maxCount⟩

/- More calls do not move the window. -/
theorem isLate_append
    {window : Duration}
    {times : List Nat}
    (hSome : times ≠ [])
    (more : List Nat) :
    isLate window (times ++ more) = isLate window times := by
  cases times with
  | nil => exact absurd rfl hSome
  | cons first rest => rfl

/- A window that has passed stays behind. -/
theorem isLate_mono
    {window : Duration}
    {times : List Nat}
    {now later : Nat}
    (hLate : isLate window times now = true)
    (hClock : now ≤ later) :
    isLate window times later = true := by
  cases times with
  | nil => cases hLate
  | cons first rest =>
      have hPassed : window.nanos < now - first :=
        of_decide_eq_true hLate
      have hStill : window.nanos < later - first := by omega
      exact decide_eq_true hStill

/- The first call is never late. -/
theorem late_append
    (window : Duration)
    (times : List Nat)
    (now : Nat) :
    late window (times ++ [now]) =
      if isLate window times now then
        late window times ++ [now]
      else
        late window times := by
  cases times with
  | nil => simp [late, isLate]
  | cons first rest =>
      have hWindow :
          isLate window (first :: rest ++ [now]) =
            isLate window (first :: rest) :=
        rfl
      unfold late
      rw [hWindow, List.filter_append]
      cases hLate : isLate window (first :: rest) now with
      | true => simp [hLate]
      | false => simp [hLate]

------------------------------------------------------------
-- One Call
------------------------------------------------------------

/- What a limiter holds after a history. -/
structure Follows
    (c : RateLimiterConfig)
    (calls : List (Nat × Call κ))
    (l : RateLimiter κ) : Prop where
  config : l.config = c
  initial : l.backoff.initial = c.initialBackoff
  limit : l.backoff.limit = c.maxBackoff
  ordered : Table.Ordered l.attempts
  recorded :
    ∀ item,
      Table.get? item l.attempts =
        recorded (timesSince item calls)
  counted :
    ∀ item,
      l.backoff.requeues item =
        min (late c.staticWindow
          (timesSince item calls)).length maxCount

variable {c : RateLimiterConfig}
variable {calls : List (Nat × Call κ)}
variable {l : RateLimiter κ}

namespace Follows

/- A call is recorded behind those before it. -/
theorem attempt
    (hFollows : Follows c calls l)
    (item : κ)
    (now : Nat) :
    some (l.attempt item now) =
      RateLimiter.recorded
        (timesSince item calls ++ [now]) := by
  unfold RateLimiter.attempt
  rw [hFollows.recorded item]
  cases timesSince item calls with
  | nil => rfl
  | cons first rest =>
      simp only [RateLimiter.recorded,
        Backoff.nextCount_min, List.cons_append,
        List.length_append, List.length_singleton]

/- It is in the window unless it is late. -/
theorem inWindow
    (hFollows : Follows c calls l)
    (item : κ)
    (now : Nat) :
    l.inWindow (l.attempt item now) now =
      !isLate c.staticWindow (timesSince item calls) now := by
  have hAttempt := hFollows.attempt item now
  unfold RateLimiter.inWindow
  rw [hFollows.config]
  cases hTimes : timesSince item calls with
  | nil =>
      rw [hTimes] at hAttempt
      rw [Option.some.inj hAttempt]
      simp [isLate]
  | cons first rest =>
      rw [hTimes] at hAttempt
      rw [Option.some.inj hAttempt]
      change decide (now - first ≤ c.staticWindow.nanos) =
        !decide (c.staticWindow.nanos < now - first)
      rw [← decide_not, decide_eq_decide]
      exact Nat.not_lt.symm

/- What a call gives, and what it leaves behind. -/
theorem next_eq
    (hFollows : Follows c calls l)
    (item : κ)
    (now : Nat) :
    l.next item now =
      if isLate c.staticWindow (timesSince item calls) now then
        ((l.backoff.next item).1,
          { l with
            attempts :=
              Table.put item (l.attempt item now) l.attempts
            backoff := (l.backoff.next item).2 })
      else
        (c.staticDelay,
          { l with
            attempts :=
              Table.put item (l.attempt item now)
                l.attempts }) := by
  have hWindow := hFollows.inWindow item now
  unfold RateLimiter.inWindow at hWindow
  unfold RateLimiter.next RateLimiter.inWindow
  dsimp only
  rw [hWindow, ← hFollows.config]
  cases isLate l.config.staticWindow (timesSince item calls)
    now <;> rfl

/- The delay is the promised one. -/
theorem next_promised
    (hFollows : Follows c calls l)
    (item : κ)
    (now : Nat) :
    (l.next item now).1 =
      promised c item (timesSince item calls) now := by
  unfold promised
  rw [hFollows.next_eq]
  split
  · rw [← hFollows.initial, ← hFollows.limit,
      Backoff.delayAfter_eq]
    change l.backoff.delay (l.backoff.requeues item) = _
    rw [hFollows.counted, Backoff.delay_counted]
  · rfl

/- A call is remembered, and counted if it is late. -/
theorem next
    (hFollows : Follows c calls l)
    (item : κ)
    (now : Nat) :
    Follows c (calls ++ [(now, .next item)])
      (l.next item now).2 := by
  have hRecorded :
      ∀ k,
        Table.get? k
            (Table.put item (l.attempt item now)
              l.attempts) =
          RateLimiter.recorded
            (timesSince k
              (calls ++ [(now, .next item)])) := by
    intro k
    rw [Table.get?_put, timesSince_next]
    split
    · next hKey =>
        rw [hKey]
        exact hFollows.attempt item now
    · exact hFollows.recorded k
  have hOrdered :=
    hFollows.ordered.put item (l.attempt item now)
  rw [hFollows.next_eq]
  cases hLate :
      isLate c.staticWindow (timesSince item calls) now with
  | true =>
      refine ⟨hFollows.config, hFollows.initial,
        hFollows.limit, hOrdered, hRecorded, ?_⟩
      intro k
      change (l.backoff.next item).2.requeues k = _
      rw [Backoff.requeues_next, timesSince_next]
      split
      · next hKey =>
          rw [hKey, late_append, hLate, if_pos rfl,
            hFollows.counted, Backoff.nextCount_min,
            List.length_append, List.length_singleton]
      · exact hFollows.counted k
  | false =>
      refine ⟨hFollows.config, hFollows.initial,
        hFollows.limit, hOrdered, hRecorded, ?_⟩
      intro k
      change l.backoff.requeues k = _
      rw [timesSince_next]
      split
      · next hKey =>
          rw [hKey, late_append, hLate, if_neg (by simp)]
          exact hFollows.counted item
      · exact hFollows.counted k

/- An item that is forgotten has no calls. -/
theorem forget
    (hFollows : Follows c calls l)
    (item : κ)
    (now : Nat) :
    Follows c (calls ++ [(now, .forget item)])
      (l.forget item) where
  config := hFollows.config
  initial := hFollows.initial
  limit := hFollows.limit
  ordered := hFollows.ordered.erase item
  recorded := by
    intro k
    change Table.get? k (Table.erase item l.attempts) = _
    rw [Table.get?_erase, timesSince_forget]
    split
    · rfl
    · exact hFollows.recorded k
  counted := by
    intro k
    change (l.backoff.forget item).requeues k = _
    rw [Backoff.requeues_forget, timesSince_forget]
    split
    · rfl
    · exact hFollows.counted k

/- A call that only asks changes nothing. -/
theorem ask
    (hFollows : Follows c calls l)
    {call : Nat × Call κ}
    (hAsks : ∀ item, call.2.concerns item = false) :
    Follows c (calls ++ [call]) l := by
  have hTimes :
      ∀ k,
        timesSince k (calls ++ [call]) =
          timesSince k calls := by
    intro k
    rw [timesSince_append]
    exact Call.remembered_of_other (hAsks k) _ _
  exact
    { hFollows with
      recorded := by
        intro k
        rw [hTimes]
        exact hFollows.recorded k
      counted := by
        intro k
        rw [hTimes]
        exact hFollows.counted k }

/- Every call follows the history. -/
theorem after
    (hFollows : Follows c calls l)
    (call : Nat × Call κ) :
    Follows c (calls ++ [call]) (call.2.after call.1 l) := by
  rcases call with ⟨now, call⟩
  cases call with
  | next item => exact hFollows.next item now
  | forget item => exact hFollows.forget item now
  | requeues item => exact hFollows.ask (fun _ => rfl)
  | tracked => exact hFollows.ask (fun _ => rfl)

end Follows

/- A limiter without calls follows the empty history. -/
theorem follows_create
    (c : RateLimiterConfig) :
    Follows (κ := κ) c []
      { config := c
        backoff :=
          { initial := c.initialBackoff
            limit := c.maxBackoff } } where
  config := rfl
  initial := rfl
  limit := rfl
  ordered := List.Pairwise.nil
  recorded := fun _ => rfl
  counted := fun _ => rfl

/- A limiter that has followed one history follows more. -/
theorem Follows.run
    (hFollows : Follows c [] l)
    (calls : List (Nat × Call κ)) :
    Follows c calls (l.run calls) := by
  induction calls using List.reverseRecOn with
  | nil => exact hFollows
  | append_singleton calls call ih =>
      unfold RateLimiter.run
      rw [List.foldl_append]
      exact ih.after call

/- What is tracked are the items with calls. -/
theorem Follows.tracked
    (hFollows : Follows c calls l) :
    l.tracked =
      {item | timesSince item calls ≠ []}.ncard := by
  have hKeys := hFollows.ordered.keys_nodup
  have hItems :
      {item | timesSince item calls ≠ []} =
        ((Table.keys l.attempts).toFinset : Set κ) := by
    ext item
    have hMissing :
        item ∉ Table.keys l.attempts ↔
          timesSince item calls = [] := by
      rw [← Table.get?_eq_none_iff, hFollows.recorded]
      cases timesSince item calls <;>
        simp [RateLimiter.recorded]
    simp [← hMissing]
  rw [hItems, Set.ncard_coe_finset,
    List.toFinset_card_of_nodup hKeys]
  unfold RateLimiter.tracked Table.keys
  rw [List.length_map]

theorem Follows.requeues
    (hFollows : Follows c calls l)
    (item : κ) :
    l.requeues item =
      min (timesSince item calls).length (2 ^ 32 - 1) := by
  unfold RateLimiter.requeues
  rw [hFollows.recorded]
  cases timesSince item calls with
  | nil => rfl
  | cons first rest => rfl

------------------------------------------------------------
-- Bounds
------------------------------------------------------------

/- A valid configuration has its delays in order. -/
theorem delays_ordered
    (hValid : c.validate = .ok ()) :
    c.staticDelay ≤ c.initialBackoff ∧
      c.initialBackoff ≤ c.maxBackoff := by
  unfold RateLimiterConfig.validate at hValid
  split at hValid
  · cases hValid
  · next hInitial =>
      split at hValid
      · cases hValid
      · split at hValid
        · cases hValid
        · next hMax =>
            exact ⟨Nat.le_of_not_lt hInitial,
              Nat.le_of_not_lt hMax⟩

theorem promised_of_inWindow
    {times : List Nat}
    {now : Nat}
    (hLate : isLate c.staticWindow times now = false)
    (item : κ) :
    promised c item times now = c.staticDelay := by
  unfold promised
  rw [hLate, if_neg (by simp)]

theorem promised_of_late
    {times : List Nat}
    {now : Nat}
    (hLate : isLate c.staticWindow times now = true)
    (item : κ) :
    promised c item times now =
      Backoff.delay
        ({ initial := c.initialBackoff
           limit := c.maxBackoff } : Backoff κ)
        (late c.staticWindow times).length := by
  unfold promised
  rw [hLate, if_pos rfl, ← Backoff.delayAfter_eq]

/- Every delay lies between the shortest and the limit. -/
theorem promised_bounds
    (hValid : c.validate = .ok ())
    (item : κ)
    (times : List Nat)
    (now : Nat) :
    c.staticDelay ≤ promised c item times now ∧
      promised c item times now ≤ c.maxBackoff := by
  rcases delays_ordered hValid with ⟨hInitial, hMax⟩
  cases hLate : isLate c.staticWindow times now with
  | false =>
      rw [promised_of_inWindow hLate]
      exact ⟨Nat.le_refl _, Nat.le_trans hInitial hMax⟩
  | true =>
      rw [promised_of_late hLate]
      let b : Backoff κ :=
        { initial := c.initialBackoff
          limit := c.maxBackoff }
      exact
        ⟨Nat.le_trans hInitial (b.initial_le_delay hMax _),
          b.delay_le_limit _⟩

/-
  A call whose window has passed finds it passed later on,
  and then there are no fewer late calls before it.
-/
theorem promised_mono
    (hValid : c.validate = .ok ())
    (item : κ)
    (times more : List Nat)
    {now later : Nat}
    (hClock : now ≤ later) :
    promised c item times now ≤
      promised c item (times ++ now :: more) later := by
  cases hLate : isLate c.staticWindow times now with
  | false =>
      rw [promised_of_inWindow hLate]
      exact (promised_bounds hValid item _ later).1
  | true =>
      have hSome : times ≠ [] := by
        intro hNone
        rw [hNone] at hLate
        cases hLate
      have hSameWindow :
          isLate c.staticWindow (times ++ now :: more) =
            isLate c.staticWindow times :=
        isLate_append hSome _
      have hStillLate :
          isLate c.staticWindow (times ++ now :: more) later =
            true := by
        rw [hSameWindow]
        exact isLate_mono hLate hClock
      have hMoreLate :
          (late c.staticWindow times).length ≤
            (late c.staticWindow
              (times ++ now :: more)).length := by
        unfold late
        rw [hSameWindow, List.filter_append,
          List.length_append]
        exact Nat.le_add_right _ _
      rw [promised_of_late hLate, promised_of_late hStillLate]
      exact Backoff.delay_mono _ hMoreLate

------------------------------------------------------------
-- Refinement
------------------------------------------------------------

/-
  A valid configuration makes a limiter that answers by the
  history of its calls.  The delay for an item is promised
  by the times of its calls since it was last forgotten; the
  calls counted for it are these, as far as a count goes;
  and the items tracked are those that have any.  Calls for
  other items change none of this.  As long as an item is
  not forgotten and the clock does not go back, its delays
  never decrease, and none exceeds the limit.
-/
theorem refines_history
    (hValid : c.validate = .ok ()) :
    ∃ l : RateLimiter κ,
      create c = .ok l ∧
        (∀ calls item now,
          ((l.run calls).next item now).1 =
            promised c item (timesSince item calls) now) ∧
        (∀ calls item,
          (l.run calls).requeues item =
            min (timesSince item calls).length
              (2 ^ 32 - 1)) ∧
        (∀ calls,
          (l.run calls).tracked =
            {item | timesSince item calls ≠ []}.ncard) ∧
        (∀ calls item now,
          ((l.run calls).next item now).1 =
              ((l.run (ownCalls item calls)).next item now).1 ∧
            (l.run calls).requeues item =
              (l.run (ownCalls item calls)).requeues item ∧
            Table.has item (l.run calls).attempts =
              Table.has item
                (l.run (ownCalls item calls)).attempts) ∧
        (∀ calls between item now later,
          now ≤ later →
            (∀ call ∈ between, call.2 ≠ .forget item) →
              ((l.run calls).next item now).1 ≤
                ((l.run
                  (calls ++ (now, .next item) :: between)).next
                    item later).1) ∧
        (∀ calls item now,
          ((l.run calls).next item now).1 ≤ c.maxBackoff) := by
  let l : RateLimiter κ :=
    { config := c
      backoff :=
        { initial := c.initialBackoff
          limit := c.maxBackoff } }
  have hCreate : create c = .ok l := by
    unfold create
    rw [hValid]
    rfl
  have hRun : ∀ calls, Follows c calls (l.run calls) :=
    (follows_create c).run
  refine ⟨l, hCreate, ?_, ?_, ?_, ?_, ?_, ?_⟩
  · intro calls item now
    exact (hRun calls).next_promised item now
  · intro calls item
    exact (hRun calls).requeues item
  · intro calls
    exact (hRun calls).tracked
  · intro calls item now
    rw [(hRun calls).next_promised, (hRun calls).requeues,
      (hRun _).next_promised, (hRun _).requeues,
      timesSince_ownCalls]
    refine ⟨rfl, rfl, ?_⟩
    unfold Table.has
    rw [(hRun calls).recorded, (hRun _).recorded,
      timesSince_ownCalls]
  · intro calls between item now later hClock hKept
    -- The earlier call counts among those before the later.
    rcases timesSince_grows hKept
        (calls ++ [(now, .next item)]) with ⟨more, hTimes⟩
    rw [timesSince_next, if_pos rfl, List.append_assoc,
      List.append_assoc] at hTimes
    rw [(hRun calls).next_promised, (hRun _).next_promised]
    change _ ≤ promised c item
      (timesSince item (calls ++ ([(now, .next item)] ++ between)))
      later
    rw [hTimes]
    exact promised_mono hValid item _ more hClock
  · intro calls item now
    rw [(hRun calls).next_promised]
    exact (promised_bounds hValid item _ now).2

/- The static delay is half the first one that backs off. -/
def paced : RateLimiterConfig where
  initialBackoff := .ofSeconds 10
  maxBackoff := .ofSeconds 80

/- The last two calls for one of the items are late. -/
def trail : List (Nat × Call String) :=
  [(0, .next "a"), (60_000_000_000, .next "a"),
    (60_000_000_001, .next "a"), (60_000_000_001, .next "b"),
    (61_000_000_000, .next "a")]

theorem paced_refines_history :
    paced.validate = .ok () ∧
      ∃ l : RateLimiter String,
        create paced = .ok l ∧
          ((l.run trail).next "a" 61_000_000_000).1 =
            .ofSeconds 40 ∧
          (l.run trail).requeues "a" = 4 := by
  have hValid : paced.validate = .ok () := by decide
  rcases refines_history (κ := String) hValid with
    ⟨l, hCreate, hNext, hRequeues, _⟩
  refine ⟨hValid, l, hCreate, ?_, ?_⟩
  · exact (hNext trail "a" 61_000_000_000).trans (by decide)
  · exact (hRequeues trail "a").trans (by decide)

end RateLimiter

end Reconciler
