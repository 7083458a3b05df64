/-
This file is a small library on the texts of aware datetimes, as Python's `isoformat` writes them: a
wall clock of fixed width, a fraction of a second where there is one, and the UTC offset. Such texts
stand in the order of their wall clocks, and of their offsets' texts where these are the same. That
is the order of the instants only as long as the offsets do not turn it round.
-/

import FleetMemory.Calendar
import Mathlib.Data.String.Basic
import Mathlib.Tactic.NormNum

namespace Calendar

/-! ### Texts of a fixed width -/

/-- Of two texts with beginnings of the same length, the beginnings are compared first. -/
theorem append_lt_append_iff {first second : List Char} (same : first.length = second.length)
    (rest other : List Char) :
    first ++ rest < second ++ other ↔ first < second ∨ first = second ∧ rest < other := by
  induction first generalizing second with
  | nil =>
    obtain rfl := List.eq_nil_of_length_eq_zero same.symm
    simp
  | cons character following inductionHypothesis =>
    cases second with
    | nil => cases same
    | cons head tail =>
      rw [List.cons_append, List.cons_append, List.cons_lt_cons_iff, List.cons_lt_cons_iff,
        inductionHypothesis (Nat.succ.inj same), List.cons.injEq]
      tauto

theorem digitChar_lt_iff : ∀ first < 10, ∀ second < 10,
    (Nat.digitChar first < Nat.digitChar second ↔ first < second) := by
  decide

theorem padded_eq_iff {width first second : Nat} (fits : first < 10 ^ width)
    (secondFits : second < 10 ^ width) : padded width first = padded width second ↔ first = second := by
  constructor
  · intro same
    rw [← ofDigitChars_padded fits, same, ofDigitChars_padded secondFits]
  · intro same
    rw [same]

/-- Numbers of one width are ordered as their texts. -/
theorem padded_lt_iff {width first second : Nat} (fits : first < 10 ^ width)
    (secondFits : second < 10 ^ width) :
    padded width first < padded width second ↔ first < second := by
  induction width generalizing first second with
  | zero =>
    rw [pow_zero] at fits secondFits
    simp only [padded, List.lt_irrefl, false_iff]
    omega
  | succ width inductionHypothesis =>
    rw [pow_succ] at fits secondFits
    have digits := digitChar_lt_iff (first % 10) (Nat.mod_lt _ (by decide)) (second % 10)
      (Nat.mod_lt _ (by decide))
    have tens := @inductionHypothesis (first / 10) (second / 10) (by omega) (by omega)
    have sameTens := @padded_eq_iff width (first / 10) (second / 10) (by omega) (by omega)
    rw [padded, padded, append_lt_append_iff ((length_padded _ _).trans (length_padded _ _).symm),
      List.cons_lt_cons_iff, digits, tens, sameTens]
    simp only [List.lt_irrefl, and_false, or_false]
    omega

/-- Numbers of one width are compared before what follows them. -/
theorem padded_append_lt_iff {width first second : Nat} (fits : first < 10 ^ width)
    (secondFits : second < 10 ^ width) (rest other : List Char) :
    padded width first ++ rest < padded width second ++ other ↔
      first < second ∨ first = second ∧ rest < other := by
  rw [append_lt_append_iff ((length_padded _ _).trans (length_padded _ _).symm),
    padded_lt_iff fits secondFits, padded_eq_iff fits secondFits]

/-! ### Dates in order -/

/-- The date comes before another in the calendar. -/
def DateBefore (first second : CivilDate) : Prop :=
  first.year < second.year ∨ first.year = second.year ∧
    (first.month < second.month ∨ first.month = second.month ∧ first.day < second.day)

/-- A month ends before the next one begins, and the last one with the year. -/
theorem month_ends : ∀ leap, ∀ month ≤ 12, 1 ≤ month →
    daysBeforeMonth leap month + daysInMonth leap month ≤ 365 + leap.toNat ∧
      ∀ later ≤ 12, month < later →
        daysBeforeMonth leap month + daysInMonth leap month ≤ daysBeforeMonth leap later := by
  decide +kernel

theorem daysBeforeYear_succ (year : Nat) (first : 1 ≤ year) :
    daysBeforeYear (year + 1) = daysBeforeYear year + 365 + (isLeap year).toNat := by
  obtain ⟨before, rfl⟩ := Nat.exists_eq_add_of_le' first
  have fours := @Nat.succ_div before 4
  have hundreds := @Nat.succ_div before 100
  have all := @Nat.succ_div before 400
  have leap : (isLeap (before + 1)).toNat =
      if 4 ∣ before + 1 ∧ (¬100 ∣ before + 1 ∨ 400 ∣ before + 1) then 1 else 0 := by
    split_ifs with holds
    · exact Bool.toNat_eq_one.mpr (by simpa [isLeap, Nat.dvd_iff_mod_eq_zero] using holds)
    · exact Bool.toNat_eq_zero.mpr (by simpa [isLeap, Nat.dvd_iff_mod_eq_zero] using holds)
  have fewer : before / 100 ≤ before / 4 := Nat.div_le_div_left (by decide) (by decide)
  simp only [daysBeforeYear, Nat.add_sub_cancel, leap]
  generalize before / 4 = quarters at fours fewer ⊢
  generalize before / 100 = centuries at hundreds fewer ⊢
  generalize before / 400 = cycles at all ⊢
  rw [fours, hundreds, all]
  split_ifs <;> omega

theorem daysBeforeYear_mono {first second : Nat} (le : first ≤ second) :
    daysBeforeYear first ≤ daysBeforeYear second := by
  refine monotone_nat_of_le_succ (fun year => ?_) le
  unfold daysBeforeYear
  omega

/-- A date that comes before another has a smaller number. -/
theorem ordinal_lt_of_before {first second : CivilDate} (valid : first.Valid)
    (secondValid : second.Valid) (before : DateBefore first second) :
    first.ordinal < second.ordinal := by
  obtain ⟨year, month, monthLast, day, dayLast⟩ := valid
  obtain ⟨secondYear, secondMonth, secondMonthLast, secondDay, secondDayLast⟩ := secondValid
  have ends := month_ends (isLeap first.year) first.month monthLast month
  unfold CivilDate.ordinal
  rcases before with years | ⟨sameYear, months | ⟨sameMonth, days⟩⟩
  · have next := daysBeforeYear_succ first.year year
    have later := @daysBeforeYear_mono (first.year + 1) second.year years
    omega
  · have later := ends.2 second.month secondMonthLast months
    rw [← sameYear]
    omega
  · rw [← sameYear, ← sameMonth]
    omega

/-- Dates stand in the order of their numbers. -/
theorem before_of_ordinal_lt {first second : CivilDate} (valid : first.Valid)
    (secondValid : second.Valid) (lt : first.ordinal < second.ordinal) :
    DateBefore first second := by
  by_contra notBefore
  have order : DateBefore second first ∨ second = first := by
    unfold DateBefore at notBefore ⊢
    rw [CivilDate.mk.injEq]
    omega
  rcases order with before | rfl
  · exact absurd (ordinal_lt_of_before secondValid valid before) (lt_asymm lt)
  · exact lt_irrefl _ lt

/-! ### Wall clocks -/

/-- The date of a second, counted from the first of January of the year one. -/
def dateOfSecond (second : Nat) : CivilDate :=
  ofOrdinal (second / 86400 + 1)

/-- `YYYY-MM-DDTHH:MM:SS`, with what follows it. -/
def secondText (second : Nat) (rest : List Char) : List Char :=
  let date := dateOfSecond second
  let time := second % 86400
  padded 4 date.year ++ '-' :: (padded 2 date.month ++ '-' :: (padded 2 date.day ++ 'T' ::
    (padded 2 (time / 3600) ++ ':' :: (padded 2 (time / 60 % 60) ++ ':' ::
      (padded 2 (time % 60) ++ rest)))))

/-- The seconds of the calendar. -/
def calendarSeconds : Nat := 3652059 * 86400

theorem dateOfSecond_spec {second : Nat} (inside : second < calendarSeconds) :
    (dateOfSecond second).Valid ∧ (dateOfSecond second).ordinal = second / 86400 + 1 ∧
      (dateOfSecond second).year < 10 ^ 4 ∧ (dateOfSecond second).month < 10 ^ 2 ∧
      (dateOfSecond second).day < 10 ^ 2 := by
  have spec := @ofOrdinal_spec (second / 86400 + 1) (Nat.succ_pos _)
  have last := @year_ofOrdinal (second / 86400 + 1) (by unfold calendarSeconds at inside; omega)
  have days := daysInMonth_le (isLeap (ofOrdinal (second / 86400 + 1)).year)
    (ofOrdinal (second / 86400 + 1)).month
  obtain ⟨_, _, monthLast, _, dayLast⟩ := spec.1
  exact ⟨spec.1, spec.2, lt_of_le_of_lt last (by decide), lt_of_le_of_lt monthLast (by decide),
    lt_of_le_of_lt (dayLast.trans days) (by decide)⟩

/-- The clock shows an earlier second. -/
def ClockBefore (first second : Nat) : Prop :=
  DateBefore (dateOfSecond first) (dateOfSecond second) ∨
    dateOfSecond first = dateOfSecond second ∧ first % 86400 < second % 86400

theorem clockBefore_of_lt {first second : Nat} (inside : first < calendarSeconds)
    (secondInside : second < calendarSeconds) (lt : first < second) : ClockBefore first second := by
  obtain ⟨valid, number, _⟩ := dateOfSecond_spec inside
  obtain ⟨secondValid, secondNumber, _⟩ := dateOfSecond_spec secondInside
  by_cases sameDay : first / 86400 = second / 86400
  · exact Or.inr ⟨by rw [dateOfSecond, dateOfSecond, sameDay], by omega⟩
  · exact Or.inl (before_of_ordinal_lt valid secondValid (by omega))

/-- Dates are compared by their years, months and days. -/
theorem date_lt_iff (first second : CivilDate) (after : Prop) :
    (first.year < second.year ∨ first.year = second.year ∧
      (first.month < second.month ∨ first.month = second.month ∧
        (first.day < second.day ∨ first.day = second.day ∧ after))) ↔
      DateBefore first second ∨ first = second ∧ after := by
  have same : first = second ↔ first.year = second.year ∧ first.month = second.month ∧
      first.day = second.day := by
    rw [← CivilDate.mk.injEq]
  simp only [same, DateBefore, and_or_left, or_assoc, and_assoc]

/-- The time of a day is compared by its hours, minutes and seconds. -/
theorem time_lt_iff {first second : Nat} (after : Prop) :
    (first / 3600 < second / 3600 ∨ first / 3600 = second / 3600 ∧
      (first / 60 % 60 < second / 60 % 60 ∨ first / 60 % 60 = second / 60 % 60 ∧
        (first % 60 < second % 60 ∨ first % 60 = second % 60 ∧ after))) ↔
      first < second ∨ first = second ∧ after := by
  by_cases holds : after
  · simp only [holds, and_true]
    omega
  · simp only [holds, and_false, or_false]
    omega

/-- Texts are compared by the fields of their wall clocks, and then by what follows. -/
theorem secondText_lt_fields {first second : Nat} (inside : first < calendarSeconds)
    (secondInside : second < calendarSeconds) (rest other : List Char) :
    secondText first rest < secondText second other ↔
      ClockBefore first second ∨ dateOfSecond first = dateOfSecond second ∧
        first % 86400 = second % 86400 ∧ rest < other := by
  obtain ⟨_, _, year, month, day⟩ := dateOfSecond_spec inside
  obtain ⟨_, _, secondYear, secondMonth, secondDay⟩ := dateOfSecond_spec secondInside
  rw [secondText, secondText, padded_append_lt_iff year secondYear, List.cons_lt_cons_self,
    padded_append_lt_iff month secondMonth, List.cons_lt_cons_self,
    padded_append_lt_iff day secondDay, List.cons_lt_cons_self,
    padded_append_lt_iff (by omega) (by omega), List.cons_lt_cons_self,
    padded_append_lt_iff (by omega) (by omega), List.cons_lt_cons_self,
    padded_append_lt_iff (by omega) (by omega), time_lt_iff, date_lt_iff, ClockBefore, and_or_left,
    or_assoc]

/-- Texts are compared by the seconds of their wall clocks, and then by what follows. -/
theorem secondText_lt_iff {first second : Nat} (inside : first < calendarSeconds)
    (secondInside : second < calendarSeconds) (rest other : List Char) :
    secondText first rest < secondText second other ↔
      first < second ∨ first = second ∧ rest < other := by
  rcases lt_trichotomy first second with lt | rfl | gt
  · exact iff_of_true ((secondText_lt_fields inside secondInside _ _).mpr
      (Or.inl (clockBefore_of_lt inside secondInside lt))) (Or.inl lt)
  · rw [secondText_lt_fields inside inside]
    simp [ClockBefore, DateBefore]
  · have reversed := (secondText_lt_fields secondInside inside other rest).mpr
      (Or.inl (clockBefore_of_lt secondInside inside gt))
    exact iff_of_false (lt_asymm reversed) (by omega)

/-- `.ffffff`, if there is a fraction of a second. -/
def fractionText (microsecond : Nat) (rest : List Char) : List Char :=
  if microsecond = 0 then rest else '.' :: (padded 6 microsecond ++ rest)

/-- The text does not go on as a fraction would, or later. -/
def BelowFraction (rest : List Char) : Prop :=
  ∀ character ∈ rest.head?, character < '.'

theorem lt_fraction {rest : List Char} (below : BelowFraction rest) (digits : List Char) :
    rest < '.' :: digits := by
  cases rest with
  | nil => exact List.nil_lt_cons _ _
  | cons character others => exact List.cons_lt_cons_iff.mpr (Or.inl (below character rfl))

/-- Fractions are compared before what follows them, when that is below a fraction. -/
theorem fractionText_lt_iff {first second : Nat} (fits : first < 1000000)
    (secondFits : second < 1000000) {rest other : List Char} (below : BelowFraction rest)
    (otherBelow : BelowFraction other) :
    fractionText first rest < fractionText second other ↔
      first < second ∨ first = second ∧ rest < other := by
  rw [fractionText, fractionText]
  split
  · rename_i zero
    split
    · rename_i secondZero
      simp [zero, secondZero]
    · rename_i positive
      exact iff_of_true (lt_fraction below _) (by omega)
  · rename_i positive
    split
    · rename_i secondZero
      exact iff_of_false (lt_asymm (lt_fraction otherBelow _)) (by omega)
    · rw [List.cons_lt_cons_self, padded_append_lt_iff fits secondFits]

/-- A wall clock with microseconds, and what follows it. -/
def wallText (wall : Nat) (rest : List Char) : List Char :=
  secondText (wall / 1000000) (fractionText (wall % 1000000) rest)

/-- The microseconds of the calendar. -/
def calendarEnd : Nat := calendarSeconds * 1000000

/-- Wall clocks are compared before what follows them, when that is below a fraction. -/
theorem wallText_lt_iff {first second : Nat} (inside : first < calendarEnd)
    (secondInside : second < calendarEnd) {rest other : List Char} (below : BelowFraction rest)
    (otherBelow : BelowFraction other) :
    wallText first rest < wallText second other ↔ first < second ∨ first = second ∧ rest < other := by
  rw [wallText, wallText,
    secondText_lt_iff (Nat.div_lt_of_lt_mul (by rwa [Nat.mul_comm])) (Nat.div_lt_of_lt_mul
      (by rwa [Nat.mul_comm])),
    fractionText_lt_iff (Nat.mod_lt _ (by decide)) (Nat.mod_lt _ (by decide)) below otherBelow]
  by_cases after : rest < other
  · simp only [after, and_true]
    omega
  · simp only [after, and_false, or_false]
    omega

/-! ### Offsets -/

/-- `:SS` and its fraction, if the offset has seconds. -/
def offsetSeconds (microseconds : Nat) : List Char :=
  if microseconds = 0 then []
  else ':' :: (padded 2 (microseconds / 1000000) ++ fractionText (microseconds % 1000000) [])

/-- `HH:MM`, and the seconds of the offset, if it has any. -/
def magnitudeText (magnitude : Nat) : List Char :=
  padded 2 (magnitude / 3600000000) ++ ':' :: (padded 2 (magnitude / 60000000 % 60) ++
    offsetSeconds (magnitude % 60000000))

/-- A UTC offset. -/
def offsetText (offset : Int) : List Char :=
  (if offset < 0 then '-' else '+') :: magnitudeText offset.natAbs

/-- The microseconds of a day. -/
def dayLength : Nat := 86400000000

theorem offsetSeconds_lt_iff {first second : Nat} (fits : first < 60000000)
    (secondFits : second < 60000000) : offsetSeconds first < offsetSeconds second ↔ first < second := by
  rw [offsetSeconds, offsetSeconds]
  split
  · rename_i zero
    split
    · rename_i secondZero
      simp [zero, secondZero]
    · exact iff_of_true (List.nil_lt_cons _ _) (by omega)
  · split
    · exact iff_of_false (List.not_lt_nil _) (by omega)
    · rw [List.cons_lt_cons_self, padded_append_lt_iff (by omega) (by omega),
        fractionText_lt_iff (Nat.mod_lt _ (by decide)) (Nat.mod_lt _ (by decide))
          (by rintro _ ⟨⟩) (by rintro _ ⟨⟩)]
      simp only [List.lt_irrefl, and_false, or_false]
      omega

theorem magnitudeText_lt_iff {first second : Nat} (fits : first < dayLength)
    (secondFits : second < dayLength) : magnitudeText first < magnitudeText second ↔ first < second := by
  unfold dayLength at fits secondFits
  rw [magnitudeText, magnitudeText, padded_append_lt_iff (by omega) (by omega),
    List.cons_lt_cons_self, padded_append_lt_iff (by omega) (by omega),
    offsetSeconds_lt_iff (Nat.mod_lt _ (by decide)) (Nat.mod_lt _ (by decide))]
  omega

/-- The text of the first offset comes before that of the second: a plus sign before a minus sign,
and of two with one sign the smaller before the larger magnitude. -/
def OffsetBefore (first second : Int) : Prop :=
  0 ≤ first ∧ (second < 0 ∨ first < second) ∨ first < 0 ∧ second < first

theorem offsetText_lt_iff {first second : Int} (fits : first.natAbs < dayLength)
    (secondFits : second.natAbs < dayLength) :
    offsetText first < offsetText second ↔ OffsetBefore first second := by
  rw [offsetText, offsetText, List.cons_lt_cons_iff, magnitudeText_lt_iff fits secondFits,
    OffsetBefore]
  have plusBefore : '+' < '-' := by decide
  have minusAfter : ¬ '-' < '+' := by decide
  have different : '-' ≠ '+' := by decide
  rcases lt_or_ge first 0 with negative | positive
  · rcases lt_or_ge second 0 with secondNegative | secondPositive
    · rw [if_pos negative, if_pos secondNegative]
      simp only [lt_irrefl, true_and, false_or]
      omega
    · rw [if_pos negative, if_neg (not_lt.mpr secondPositive)]
      simp only [minusAfter, different, false_and, or_self, false_iff]
      omega
  · rcases lt_or_ge second 0 with secondNegative | secondPositive
    · rw [if_neg (not_lt.mpr positive), if_pos secondNegative]
      exact iff_of_true (Or.inl plusBefore) (by omega)
    · rw [if_neg (not_lt.mpr positive), if_neg (not_lt.mpr secondPositive)]
      simp only [lt_irrefl, true_and, false_or]
      omega

/-! ### Aware datetimes -/

/-- A datetime with a UTC offset: the microseconds its wall clock shows, from the first of January of
the year one, and those the wall clock is ahead of UTC, less than a day. -/
structure AwareDatetime where
  wall : Nat
  offset : Int
  inCalendar : wall < calendarEnd
  withinDay : offset.natAbs < dayLength

namespace AwareDatetime

/-- The instant, in microseconds from the first of January of the year one in UTC. -/
def instant (datetime : AwareDatetime) : Int :=
  datetime.wall - datetime.offset

/-- `datetime.isoformat()`. -/
def isoformat (datetime : AwareDatetime) : String :=
  String.ofList (wallText datetime.wall (offsetText datetime.offset))

theorem belowFraction_offsetText (offset : Int) : BelowFraction (offsetText offset) := by
  intro character begins
  rw [offsetText, List.head?_cons, Option.mem_some_iff] at begins
  rw [← begins]
  split <;> decide

/-- The texts of datetimes stand in the order of their wall clocks, and in that of their offsets'
texts where the wall clocks are the same. -/
theorem isoformat_lt_iff (first second : AwareDatetime) :
    first.isoformat < second.isoformat ↔ first.wall < second.wall ∨
      first.wall = second.wall ∧ OffsetBefore first.offset second.offset := by
  rw [String.lt_iff_toList_lt, isoformat, isoformat, String.toList_ofList, String.toList_ofList,
    wallText_lt_iff first.inCalendar second.inCalendar (belowFraction_offsetText _)
      (belowFraction_offsetText _), offsetText_lt_iff first.withinDay second.withinDay]

/-- Different datetimes have different texts. -/
theorem isoformat_injective {first second : AwareDatetime}
    (same : first.isoformat = second.isoformat) : first = second := by
  have notBefore := (isoformat_lt_iff first second).not.mp (same ▸ lt_irrefl _)
  have notAfter := (isoformat_lt_iff second first).not.mp (same ▸ lt_irrefl _)
  unfold OffsetBefore at notBefore notAfter
  obtain ⟨wall, offset, _, _⟩ := first
  obtain ⟨secondWall, secondOffset, _, _⟩ := second
  dsimp only at notBefore notAfter
  obtain rfl : wall = secondWall := by omega
  obtain rfl : offset = secondOffset := by omega
  rfl

/-- The first text comes before the second, but not its instant: the wall clock is behind by no
more than its offset is, or the same with a smaller offset, both ahead of UTC. -/
theorem before_not_instant_iff (first second : AwareDatetime) :
    (first.isoformat < second.isoformat ∧ second.instant ≤ first.instant) ↔
      (first.wall < second.wall ∧
          (second.wall : Int) - first.wall ≤ second.offset - first.offset) ∨
        (first.wall = second.wall ∧ 0 ≤ first.offset ∧ first.offset < second.offset) := by
  rw [isoformat_lt_iff, OffsetBefore, instant, instant]
  omega

/-- The first instant comes before the second, but not its text: the wall clock is ahead by less than
its offset is, or the same with a larger offset, both ahead of UTC. -/
theorem instant_not_before_iff (first second : AwareDatetime) :
    (¬first.isoformat < second.isoformat ∧ first.instant < second.instant) ↔
      (second.wall < first.wall ∧
          (first.wall : Int) - second.wall < first.offset - second.offset) ∨
        (first.wall = second.wall ∧ 0 ≤ second.offset ∧ second.offset < first.offset) := by
  rw [isoformat_lt_iff, OffsetBefore, instant, instant]
  omega

end AwareDatetime

end Calendar
