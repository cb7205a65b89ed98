import Reconciler.Proofs.Time.Calendar
import Reconciler.Time.Instant

/-
  This file proves that the text of an instant is read as
  that instant: every part of the text is read back, and
  what follows it is left.

  Key theorems include:
    * `Instant.Reader.number?_padded`
    * `Instant.Reader.year?_yearDigits`
    * `Instant.Reader.fraction?_fractionDigits`
    * `Instant.parse?_text`
    * `Instant.ofJson?_toJson`
-/

------------------------------------------------------------
-- Readers
------------------------------------------------------------

namespace Reconciler

/- The rest of a reader runs on what a part has read. -/
theorem read_part
    {α β : Type}
    {part : Option α}
    {rest : α → Option β}
    {a : α}
    {r : Option β}
    (hPart : part = some a)
    (hRest : rest a = r) :
    part >>= rest = r := by
  rw [hPart]
  exact hRest

------------------------------------------------------------
-- Digits
------------------------------------------------------------

namespace Duration

/- Padding writes nothing but digits. -/
theorem isDigit_padded
    {width n : Nat}
    {c : Char}
    (hMember : c ∈ padded width n) :
    c.isDigit = true := by
  unfold padded at hMember
  rcases List.mem_append.mp hMember with hZero | hDigit
  · rw [List.eq_of_mem_replicate hZero]
    decide
  · exact Nat.isDigit_of_mem_toDigits (by decide)
      (by decide) hDigit

theorem padded_ne_nil
    (width n : Nat) :
    padded width n ≠ [] := by
  unfold padded
  exact List.append_ne_nil_of_right_ne_nil _
    Nat.toDigits_ne_nil

/- A number that fits is written with the full width. -/
theorem length_padded
    {width n : Nat}
    (hWidth : 0 < width)
    (hFits : n < 10 ^ width) :
    (padded width n).length = width := by
  have hDigits :=
    (Nat.length_toDigits_le_iff (by decide) hWidth).mpr hFits
  unfold padded
  dsimp only
  rw [List.length_append, List.length_replicate]
  omega

/- Padding does not change the number. -/
theorem ofDigitChars_padded
    (width n : Nat) :
    Nat.ofDigitChars 10 (padded width n) 0 = n := by
  unfold padded
  rw [Nat.ofDigitChars_append,
    Nat.ofDigitChars_replicate_zero, Nat.mul_zero,
    Nat.ofDigitChars_ten_toDigits]

end Duration

------------------------------------------------------------
-- Reading Numbers
------------------------------------------------------------

namespace Instant

namespace Reader

open Duration

/- Digits are read as the number that they write. -/
theorem number?_eq
    {ds : List Char}
    (hSome : ds ≠ [])
    (hDigits : ∀ c ∈ ds, c.isDigit = true) :
    number? ds = some (Nat.ofDigitChars 10 ds 0) := by
  unfold number?
  rw [if_pos ⟨hSome, List.all_eq_true.mpr hDigits⟩,
    Nat.ofDigitChars_eq_foldl]
  simp only [Nat.mul_comm 10]
  rfl

theorem number?_padded
    (width n : Nat) :
    number? (padded width n) = some n := by
  rw [number?_eq (padded_ne_nil width n)
    (fun _ => isDigit_padded), ofDigitChars_padded]

/- A number of a fixed width is read, and no more. -/
theorem fixed?_padded
    {width n : Nat}
    (hWidth : 0 < width)
    (hFits : n < 10 ^ width)
    (cs : List Char) :
    fixed? width (padded width n ++ cs) = some (n, cs) := by
  have hLength := length_padded hWidth hFits
  unfold fixed?
  rw [List.take_left' hLength, List.drop_left' hLength,
    if_pos hLength, number?_padded]
  rfl

theorem oneOf?_cons
    {c : Char}
    {expected : List Char}
    (hMember : c ∈ expected)
    (cs : List Char) :
    oneOf? expected (c :: cs) = some cs :=
  if_pos hMember

/- Digits before something else are told apart from it. -/
theorem span_padded
    {c : Char}
    (width n : Nat)
    (hOther : c.isDigit = false)
    (cs : List Char) :
    (padded width n ++ c :: cs).takeWhile Char.isDigit =
        padded width n ∧
      (padded width n ++ c :: cs).dropWhile Char.isDigit =
        c :: cs := by
  have hDigits :
      ∀ d ∈ padded width n, d.isDigit = true :=
    fun _ => isDigit_padded
  constructor
  · rw [List.takeWhile_append_of_pos hDigits,
      List.takeWhile_cons_of_neg (by simp [hOther]),
      List.append_nil]
  · rw [List.dropWhile_append_of_pos hDigits,
      List.dropWhile_cons_of_neg (by simp [hOther])]

theorem signedYear?_padded
    (sign : Int)
    (width n : Nat)
    (cs : List Char) :
    signedYear? sign (padded width n ++ '-' :: cs) =
      some (sign * n, '-' :: cs) := by
  rcases span_padded width n (c := '-') (by decide) cs with
    ⟨hDigits, hRest⟩
  unfold signedYear?
  rw [hDigits, hRest, number?_padded]
  rfl

/- Without a sign a year has four digits. -/
theorem year?_padded
    {n : Nat}
    (hFits : n < 10 ^ 4)
    (cs : List Char) :
    year? (padded 4 n ++ cs) = some ((n : Int), cs) := by
  have hRead := fixed?_padded (by decide) hFits cs
  rcases List.exists_cons_of_ne_nil (padded_ne_nil 4 n) with
    ⟨d, ds, hDigits⟩
  have hMember : d ∈ padded 4 n := by
    rw [hDigits]
    exact List.mem_cons_self
  have hDigit := isDigit_padded hMember
  rw [hDigits, List.cons_append] at hRead ⊢
  unfold year?
  split
  · next hSame =>
      injection hSame with hSame
      rw [hSame] at hDigit
      exact absurd hDigit (by decide)
  · next hSame =>
      injection hSame with hSame
      rw [hSame] at hDigit
      exact absurd hDigit (by decide)
  · rw [hRead]
    rfl

/- A year is read as it was written. -/
theorem year?_yearDigits
    (year : Int)
    (cs : List Char) :
    year? (yearDigits year ++ '-' :: cs) =
      some (year, '-' :: cs) := by
  unfold yearDigits
  dsimp only
  split
  · next hBefore =>
      change signedYear? (-1) (_ ++ _) = _
      rw [signedYear?_padded]
      have hYear : -1 * (year.natAbs : Int) = year := by
        omega
      rw [hYear]
  · split
    · next hAfter =>
        change signedYear? 1 (_ ++ _) = _
        rw [signedYear?_padded]
        have hYear : 1 * (year.natAbs : Int) = year := by
          omega
        rw [hYear]
    · next hFour =>
        rw [year?_padded (by omega)]
        have hYear : (year.natAbs : Int) = year := by omega
        rw [hYear]

/- A fraction is read in nanoseconds, whatever its width. -/
theorem fraction?_padded
    {width n : Nat}
    (hWidth : 0 < width)
    (hNine : width ≤ 9)
    (hFits : n < 10 ^ width) :
    fraction? ('.' :: padded width n ++ ['Z']) =
      some (n * 10 ^ (9 - width), ['Z']) := by
  rcases span_padded width n (c := 'Z') (by decide) [] with
    ⟨hDigits, hRest⟩
  have hLength := length_padded hWidth hFits
  have hFilled :
      (padded width n ++ List.replicate 9 '0').take 9 =
        padded width n ++ List.replicate (9 - width) '0' := by
    rw [List.take_append, hLength,
      List.take_of_length_le (by omega),
      List.take_replicate, Nat.min_eq_left (by omega)]
  have hNumber :
      number?
          (padded width n ++
            List.replicate (9 - width) '0') =
        some (n * 10 ^ (9 - width)) := by
    rw [number?_eq]
    · rw [Nat.ofDigitChars_append, ofDigitChars_padded,
        Nat.ofDigitChars_replicate_zero, Nat.mul_comm]
    · exact List.append_ne_nil_of_left_ne_nil
        (padded_ne_nil width n) _
    · intro c hMember
      rcases List.mem_append.mp hMember with hDigit | hZero
      · exact isDigit_padded hDigit
      · rw [List.eq_of_mem_replicate hZero]
        decide
  rw [List.cons_append, fraction?, hDigits, hRest, hFilled,
    hNumber, number?_padded]
  rfl

/- The nanoseconds of a second are read as written. -/
theorem fraction?_fractionDigits
    {nanos : Nat}
    (hNanos : nanos < 1_000_000_000) :
    fraction? (fractionDigits nanos ++ ['Z']) =
      some (nanos, ['Z']) := by
  unfold fractionDigits
  split
  · next hZero =>
      rw [hZero]
      rfl
  · split
    · next hMillis =>
        rw [fraction?_padded (by decide) (by decide)
          (by omega)]
        have hSame :
            nanos / 1_000_000 * 10 ^ (9 - 3) = nanos := by
          omega
        rw [hSame]
    · split
      · next hMicros =>
          rw [fraction?_padded (by decide) (by decide)
            (by omega)]
          have hSame :
              nanos / 1000 * 10 ^ (9 - 6) = nanos := by
            omega
          rw [hSame]
      · rw [fraction?_padded (by decide) (by decide)
          (by omega)]
        have hSame : nanos * 10 ^ (9 - 9) = nanos := by
          omega
        rw [hSame]

end Reader

------------------------------------------------------------
-- Reading Instants
------------------------------------------------------------

/- The parts of an instant make up the instant. -/
theorem ofParts?_self
    (t : Instant) :
    ofParts? t.second t.nanos = some t :=
  dif_pos ⟨t.earliest, t.latest, t.bounded, t.regular⟩

/- The shown second and fraction tell second and nanos. -/
theorem secondOfMinute_shown
    (t : Instant) :
    secondOfMinute
        (t.timeOfDay.toNat % 60 + if t.isLeap then 1 else 0)
        (t.nanos % 1_000_000_000) =
      (t.timeOfDay.toNat % 60, t.nanos) := by
  have hBounded := t.bounded
  have hRegular := t.regular
  have hMinute :
      (t.timeOfDay.toNat % 60 : Int) = t.second % 60 := by
    unfold timeOfDay
    omega
  unfold secondOfMinute
  by_cases hLeap : t.isLeap = true
  · have hNanos : 1_000_000_000 ≤ t.nanos := by
      simpa [isLeap] using hLeap
    have hLast : t.timeOfDay.toNat % 60 = 59 := by omega
    rw [hLeap, hLast, if_pos (by decide)]
    congr 1
    omega
  · have hNanos : t.nanos < 1_000_000_000 := by
      simpa [isLeap] using hLeap
    rw [if_neg hLeap, if_neg (by omega)]
    congr 1
    omega

/- The parts of a date have two digits after the year. -/
theorem date_bounds
    {d : Calendar.Date}
    (hValid : d.valid = true) :
    d.month < 10 ^ 2 ∧ d.day < 10 ^ 2 := by
  rw [Calendar.Date.valid_iff] at hValid
  have hDays :
      Calendar.Date.daysInMonth d.year d.month ≤ 31 := by
    unfold Calendar.Date.daysInMonth
    split <;> split <;> decide
  omega

open Reader Duration in
/- Every part of a text is read, and checked afterwards. -/
theorem parse?_parts
    {d : Calendar.Date}
    {hour minute second nanos : Nat}
    (hMonth : d.month < 10 ^ 2)
    (hDay : d.day < 10 ^ 2)
    (hHour : hour < 10 ^ 2)
    (hMinute : minute < 10 ^ 2)
    (hSecond : second < 10 ^ 2)
    (hNanos : nanos < 1_000_000_000) :
    parse?
        (String.ofList
          (yearDigits d.year ++
            '-' :: padded 2 d.month ++
            '-' :: padded 2 d.day ++
            'T' :: padded 2 hour ++
            ':' :: padded 2 minute ++
            ':' :: padded 2 second ++
            fractionDigits nanos ++ ['Z'])) =
      if inYears d.year && d.valid && hour < 24 &&
          minute < 60 && second ≤ 60 then
        ofParts?
          (d.dayNumber * 86400 +
            (hour * 3600 + minute * 60 +
              (secondOfMinute second nanos).1))
          (secondOfMinute second nanos).2
      else
        none := by
  have hTwo : 0 < 2 := by decide
  simp only [List.append_assoc, List.cons_append]
  unfold parse?
  rw [String.toList_ofList]
  refine read_part (year?_yearDigits _ _) ?_
  refine read_part (oneOf?_cons (by decide) _) ?_
  refine read_part (fixed?_padded hTwo hMonth _) ?_
  refine read_part (oneOf?_cons (by decide) _) ?_
  refine read_part (fixed?_padded hTwo hDay _) ?_
  refine read_part (oneOf?_cons (by decide) _) ?_
  refine read_part (fixed?_padded hTwo hHour _) ?_
  refine read_part (oneOf?_cons (by decide) _) ?_
  refine read_part (fixed?_padded hTwo hMinute _) ?_
  refine read_part (oneOf?_cons (by decide) _) ?_
  refine read_part (fixed?_padded hTwo hSecond _) ?_
  refine read_part (fraction?_fractionDigits hNanos) ?_
  refine read_part (a := 0) rfl ?_
  dsimp only
  rw [Int.sub_zero]

/- The text of an instant is read as the instant. -/
theorem parse?_text
    (t : Instant) :
    parse? t.text = some t := by
  have hEarliest := t.earliest
  have hLatest := t.latest
  have hTime : (t.timeOfDay.toNat : Int) = t.second % 86400 :=
    Int.toNat_of_nonneg (by unfold timeOfDay; omega)
  have hYear :=
    Calendar.Date.ofDayNumber_year
      (n := t.second / 86400) (by omega) (by omega)
  have hValid :=
    Calendar.Date.ofDayNumber_valid (t.second / 86400)
  have hNumber :=
    Calendar.Date.dayNumber_ofDayNumber (t.second / 86400)
  have hShown := t.secondOfMinute_shown
  have hSixty :
      (t.timeOfDay.toNat % 60 +
          if t.isLeap then 1 else 0) ≤ 60 := by
    split <;> omega
  have hSame := t.ofParts?_self
  rcases date_bounds hValid with ⟨hMonth, hDay⟩
  unfold text
  dsimp only
  generalize Calendar.Date.ofDayNumber (t.second / 86400) =
    date at *
  generalize t.timeOfDay.toNat = time at *
  generalize
    (time % 60 + if t.isLeap = true then 1 else 0) =
      shown at *
  have hDate : inYears date.year = true := by
    simpa [inYears] using hYear
  have hHour : time / 3600 < 24 := by omega
  have hMinute : time / 60 % 60 < 60 := by omega
  rw [parse?_parts hMonth hDay (by omega) (by omega)
    (by omega) (Nat.mod_lt _ (by decide)), hShown]
  rw [if_pos (by simp [hDate, hValid, hHour, hMinute, hSixty])]
  dsimp only
  rw [hNumber]
  have hSecond :
      t.second / 86400 * 86400 +
          (((time / 3600 : Nat) : Int) * 3600 +
            ((time / 60 % 60 : Nat) : Int) * 60 +
            ((time % 60 : Nat) : Int)) =
        t.second := by
    omega
  rw [hSecond]
  exact hSame

/- An instant in JSON is read as it was written. -/
theorem ofJson?_toJson
    (t : Instant) :
    ofJson? t.toJson = some t := by
  unfold ofJson? toJson
  change (some t.text).bind parse? = some t
  rw [Option.bind_some, parse?_text]

end Instant

end Reconciler
