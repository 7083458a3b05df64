/-
This file is a small library on the proleptic Gregorian calendar: dates count the days from the
first of January of the year one, and a day's number gives its date back. It computes as Python's
`datetime` does, and also renders numbers with a fixed count of digits and reads them back.
-/

import Mathlib.Algebra.Ring.Nat

namespace Calendar

/-! ### Dates -/

/-- A year, a month and a day of the month, each counted from one. -/
structure CivilDate where
  year : Nat
  month : Nat
  day : Nat
deriving DecidableEq, Repr

def isLeap (year : Nat) : Bool :=
  year % 4 == 0 && (year % 100 != 0 || year % 400 == 0)

def daysInMonth (leap : Bool) (month : Nat) : Nat :=
  if month = 2 && leap then 29
  else [0, 31, 28, 31, 30, 31, 30, 31, 31, 30, 31, 30, 31].getD month 0

/-- The days of a year before a month. -/
def daysBeforeMonth (leap : Bool) (month : Nat) : Nat :=
  [0, 0, 31, 59, 90, 120, 151, 181, 212, 243, 273, 304, 334].getD month 0 +
    if 2 < month && leap then 1 else 0

/-- The days before a year. -/
def daysBeforeYear (year : Nat) : Nat :=
  (year - 1) * 365 + (year - 1) / 4 - (year - 1) / 100 + (year - 1) / 400

namespace CivilDate

/-- The number of the day. -/
def ordinal (date : CivilDate) : Nat :=
  daysBeforeYear date.year + daysBeforeMonth (isLeap date.year) date.month + date.day

/-- The date is in the calendar. -/
def Valid (date : CivilDate) : Prop :=
  1 ≤ date.year ∧ 1 ≤ date.month ∧ date.month ≤ 12 ∧ 1 ≤ date.day ∧
    date.day ≤ daysInMonth (isLeap date.year) date.month

instance (date : CivilDate) : Decidable date.Valid :=
  inferInstanceAs (Decidable (_ ∧ _ ∧ _ ∧ _ ∧ _))

end CivilDate

/-- The month and the day of the month of a day of the year, counted from zero. A month is guessed,
and is at most one too late. -/
def monthDay (leap : Bool) (dayOfYear : Nat) : Nat × Nat :=
  let month := (dayOfYear + 50) / 32
  if dayOfYear < daysBeforeMonth leap month then
    (month - 1, dayOfYear - (daysBeforeMonth leap month - daysInMonth leap (month - 1)) + 1)
  else (month, dayOfYear - daysBeforeMonth leap month + 1)

/-- The date of a day's number, by its cycles of 400, 100 and 4 years and its year in the last. -/
def ofOrdinal (number : Nat) : CivilDate :=
  let day := number - 1
  let cycles400 := day / 146097
  let day := day % 146097
  let cycles100 := day / 36524
  let day := day % 36524
  let cycles4 := day / 1461
  let day := day % 1461
  let years := day / 365
  let day := day % 365
  let year := cycles400 * 400 + 1 + cycles100 * 100 + cycles4 * 4 + years
  if years = 4 ∨ cycles100 = 4 then ⟨year - 1, 12, 31⟩
  else
    let leap := years = 3 && (cycles4 != 24 || cycles100 = 3)
    ⟨year, (monthDay leap day).1, (monthDay leap day).2⟩

/-- A day of the year has a month and a day that count back to it. -/
theorem monthDay_spec : ∀ leap, ∀ dayOfYear < 365,
    1 ≤ (monthDay leap dayOfYear).1 ∧ (monthDay leap dayOfYear).1 ≤ 12 ∧
      1 ≤ (monthDay leap dayOfYear).2 ∧
      (monthDay leap dayOfYear).2 ≤ daysInMonth leap (monthDay leap dayOfYear).1 ∧
      daysBeforeMonth leap (monthDay leap dayOfYear).1 + (monthDay leap dayOfYear).2 =
        dayOfYear + 1 := by
  decide +kernel

/-- The days before a year, by the cycles it is counted in. -/
theorem daysBeforeYear_cycles {cycles400 cycles100 cycles4 years : Nat} (few100 : cycles100 < 4)
    (few4 : cycles4 < 25) (few : years < 4) :
    daysBeforeYear (cycles400 * 400 + 1 + cycles100 * 100 + cycles4 * 4 + years) =
      cycles400 * 146097 + cycles100 * 36524 + cycles4 * 1461 + years * 365 := by
  unfold daysBeforeYear
  omega

/-- A year of the cycles is leap when it is the last of four, unless it ends a century that does not
end its four. -/
theorem isLeap_cycles {cycles400 cycles100 cycles4 years : Nat} (few100 : cycles100 < 4)
    (few4 : cycles4 < 25) (few : years < 4) :
    isLeap (cycles400 * 400 + 1 + cycles100 * 100 + cycles4 * 4 + years) =
      (decide (years = 3) && (cycles4 != 24 || decide (cycles100 = 3))) := by
  rw [Bool.eq_iff_iff]
  simp only [isLeap, Bool.and_eq_true, Bool.or_eq_true, beq_iff_eq, bne_iff_ne, decide_eq_true_eq]
  omega

/-- The date of a number is in the calendar, and counts back to the number. -/
theorem ofOrdinal_spec {number : Nat} (positive : 1 ≤ number) :
    (ofOrdinal number).Valid ∧ (ofOrdinal number).ordinal = number := by
  obtain ⟨cycles400, cycles400_eq⟩ : ∃ cycles400, cycles400 = (number - 1) / 146097 := ⟨_, rfl⟩
  obtain ⟨cycles100, cycles100_eq⟩ : ∃ cycles100,
    cycles100 = (number - 1) % 146097 / 36524 := ⟨_, rfl⟩
  obtain ⟨cycles4, cycles4_eq⟩ : ∃ cycles4,
    cycles4 = (number - 1) % 146097 % 36524 / 1461 := ⟨_, rfl⟩
  obtain ⟨years, years_eq⟩ : ∃ years,
    years = (number - 1) % 146097 % 36524 % 1461 / 365 := ⟨_, rfl⟩
  obtain ⟨day, day_eq⟩ : ∃ day, day = (number - 1) % 146097 % 36524 % 1461 % 365 := ⟨_, rfl⟩
  have small : day < 365 ∧ years ≤ 4 ∧ cycles4 ≤ 24 ∧ cycles100 ≤ 4 := by omega
  have whole : number =
      cycles400 * 146097 + cycles100 * 36524 + cycles4 * 1461 + years * 365 + day + 1 := by
    omega
  simp only [ofOrdinal, ← cycles400_eq, ← cycles100_eq, ← cycles4_eq, ← years_eq, ← day_eq]
  by_cases last : years = 4 ∨ cycles100 = 4
  · rw [if_pos last]
    -- the last day of a leap year, which is the last of its four
    obtain ⟨earlier100, earlier4, few100, few4, leaps, same, before⟩ : ∃ earlier100 earlier4,
        earlier100 < 4 ∧ earlier4 < 25 ∧ (earlier4 = 24 → earlier100 = 3) ∧
          cycles400 * 400 + 1 + cycles100 * 100 + cycles4 * 4 + years - 1 =
            cycles400 * 400 + 1 + earlier100 * 100 + earlier4 * 4 + 3 ∧
          cycles400 * 146097 + earlier100 * 36524 + earlier4 * 1461 + 3 * 365 + 366 = number := by
      by_cases century : cycles100 = 4
      · exact ⟨3, 24, by omega⟩
      · exact ⟨cycles100, cycles4, by omega⟩
    have leap : isLeap (cycles400 * 400 + 1 + earlier100 * 100 + earlier4 * 4 + 3) = true := by
      rw [isLeap_cycles few100 few4 (by decide)]
      simp only [decide_true, Bool.true_and, Bool.or_eq_true, bne_iff_ne, decide_eq_true_eq]
      omega
    rw [same]
    refine ⟨⟨?_, Nat.le_of_ble_eq_true rfl, le_refl 12, Nat.le_of_ble_eq_true rfl, ?_⟩, ?_⟩
    · change 1 ≤ cycles400 * 400 + 1 + earlier100 * 100 + earlier4 * 4 + 3
      omega
    · dsimp only
      rw [leap]
      decide
    · rw [CivilDate.ordinal]
      dsimp only
      have november : daysBeforeMonth true 12 = 335 := by decide
      rw [leap, daysBeforeYear_cycles few100 few4 (by decide), november]
      omega
  · rw [if_neg last]
    have few : cycles100 < 4 ∧ cycles4 < 25 ∧ years < 4 := by omega
    have leap := @isLeap_cycles cycles400 cycles100 cycles4 years few.1 few.2.1 few.2.2
    have before := @daysBeforeYear_cycles cycles400 cycles100 cycles4 years few.1 few.2.1 few.2.2
    rw [← leap]
    obtain ⟨fromFirst, toLast, dayFirst, dayLast, counts⟩ := monthDay_spec
      (isLeap (cycles400 * 400 + 1 + cycles100 * 100 + cycles4 * 4 + years)) day small.1
    refine ⟨⟨?_, fromFirst, toLast, dayFirst, dayLast⟩, ?_⟩
    · change 1 ≤ cycles400 * 400 + 1 + cycles100 * 100 + cycles4 * 4 + years
      omega
    · unfold CivilDate.ordinal
      dsimp only
      rw [before, add_assoc, counts]
      omega

/-- The last day of the year 9999. -/
theorem year_ofOrdinal {number : Nat} (last : number ≤ 3652059) :
    (ofOrdinal number).year ≤ 9999 := by
  simp only [ofOrdinal]
  split
  · dsimp only
    omega
  · dsimp only
    omega

theorem daysInMonth_le (leap : Bool) (month : Nat) : daysInMonth leap month ≤ 31 := by
  unfold daysInMonth
  split
  · decide
  · rw [List.getD_eq_getElem?_getD]
    cases found : [0, 31, 28, 31, 30, 31, 30, 31, 31, 30, 31, 30, 31][month]? with
    | none => exact Nat.zero_le 31
    | some days =>
      have listed := List.mem_of_getElem? found
      have each : ∀ days ∈ [0, 31, 28, 31, 30, 31, 30, 31, 31, 30, 31, 30, 31], days ≤ 31 := by
        decide
      exact each days listed

/-! ### Numbers of a fixed width -/

/-- The last digits of a number, with zeros before it. -/
def padded : Nat → Nat → List Char
  | 0, _ => []
  | width + 1, number => padded width (number / 10) ++ [Nat.digitChar (number % 10)]

/-- A number of a fixed count of digits. -/
def readPadded (width : Nat) (text : List Char) : Option (Nat × List Char) :=
  if (text.take width).length = width ∧ (text.take width).all Char.isDigit then
    some (Nat.ofDigitChars 10 (text.take width) 0, text.drop width)
  else none

theorem length_padded (width number : Nat) : (padded width number).length = width := by
  induction width generalizing number with
  | zero => rfl
  | succ width inductionHypothesis => rw [padded, List.length_append, inductionHypothesis]; rfl

theorem isDigit_of_mem_padded {width number : Nat} {character : Char}
    (member : character ∈ padded width number) : character.isDigit = true := by
  induction width generalizing number with
  | zero => cases member
  | succ width inductionHypothesis =>
    rcases List.mem_append.mp member with earlier | last
    · exact inductionHypothesis earlier
    · rw [List.mem_singleton.mp last, Nat.isDigit_digitChar]
      exact decide_eq_true (Nat.mod_lt _ (by decide))

theorem ofDigitChars_padded {width number : Nat} (fits : number < 10 ^ width) :
    Nat.ofDigitChars 10 (padded width number) 0 = number := by
  induction width generalizing number with
  | zero =>
    rw [pow_zero, Nat.lt_one_iff] at fits
    rw [fits]
    rfl
  | succ width inductionHypothesis =>
    have shorter : number / 10 < 10 ^ width := by
      rw [pow_succ] at fits
      omega
    rw [padded, Nat.ofDigitChars_append, inductionHypothesis shorter,
      Nat.ofDigitChars_cons_digitChar_of_lt_ten (Nat.mod_lt _ (by decide)), Nat.ofDigitChars_nil]
    omega

/-- A number that fits its width is read back. -/
theorem readPadded_padded {width number : Nat} (fits : number < 10 ^ width) (rest : List Char) :
    readPadded width (padded width number ++ rest) = some (number, rest) := by
  have taken : (padded width number ++ rest).take width = padded width number := by
    rw [List.take_append_of_le_length (Nat.le_of_eq (length_padded width number).symm),
      List.take_of_length_le (Nat.le_of_eq (length_padded width number))]
  have dropped : (padded width number ++ rest).drop width = rest := by
    rw [List.drop_append_of_le_length (Nat.le_of_eq (length_padded width number).symm),
      List.drop_of_length_le (Nat.le_of_eq (length_padded width number)), List.nil_append]
  rw [readPadded, taken, dropped, if_pos, ofDigitChars_padded fits]
  exact ⟨length_padded width number,
    List.all_eq_true.mpr fun character member => isDigit_of_mem_padded member⟩

end Calendar
