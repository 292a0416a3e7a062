import OpenairHss.Strftime.Specs
import Mathlib.Data.List.Basic
import Mathlib.Data.Int.DivMod
import Mathlib.Tactic.IntervalCases

/-!
# Times, and what `strftime` makes of them

A `Moment` is a time of the Gregorian calendar, in some time zone.  `Moment.expansion` is the text of
a specifier as `strftime` defines it in the C locale, or, for "%0", "%1", "%i", "%v" and "%+", as the
program does.

* `yearWeek_isoWeek`: `cal_year_week` finds the year and the week of ISO 8601.
* `countP_weeks`: the formula for the weeks that began in the year.
* `flatten_buffers`: the specifiers that are expanded right, for every moment.
-/

namespace OpenairHss.Strftime

/-! ### The calendar -/

/-- A year with 366 days. -/
def Leap (year : Int) : Prop := (4 ∣ year ∧ ¬ 100 ∣ year) ∨ 400 ∣ year

instance (year : Int) : Decidable (Leap year) := inferInstanceAs (Decidable (_ ∨ _))

def daysInYear (year : Int) : Nat := if Leap year then 366 else 365

def daysInMonth (year : Int) (month : Nat) : Nat :=
  if month = 2 then if Leap year then 29 else 28
  else if month = 4 ∨ month = 6 ∨ month = 9 ∨ month = 11 then 30
  else 31

/-- The days of a year before a date. -/
def daysTo (year : Int) (month day : Nat) : Nat :=
  ((List.range (month - 1)).map fun i => daysInMonth year (i + 1)).sum + (day - 1)

/-- The days from 0001-01-01, which is a Monday, to the first day of a year. -/
def daysBefore (year : Int) : Int :=
  365 * (year - 1) + (year - 1) / 4 - (year - 1) / 100 + (year - 1) / 400

theorem daysBefore_succ (year : Int) : daysBefore (year + 1) = daysBefore year + daysInYear year := by
  rw [daysInYear]
  split
  case isTrue h =>
    simp only [daysBefore, Leap] at h ⊢
    omega
  case isFalse h =>
    simp only [daysBefore, Leap] at h ⊢
    omega

theorem daysInYear_cases (year : Int) : daysInYear year = 365 ∨ daysInYear year = 366 := by
  rw [daysInYear]
  split
  · exact Or.inr rfl
  · exact Or.inl rfl

theorem daysTo_lt {year : Int} {month day : Nat} (hmonth : 1 ≤ month ∧ month ≤ 12)
    (hday : 1 ≤ day ∧ day ≤ daysInMonth year month) : daysTo year month day < daysInYear year := by
  obtain ⟨hlow, hhigh⟩ := hmonth
  obtain ⟨hfirst, hlast⟩ := hday
  simp only [daysTo, daysInYear, daysInMonth] at hlast ⊢
  by_cases hleap : Leap year
  · simp only [hleap, if_true] at hlast ⊢
    interval_cases month <;> simp [List.range_succ] at hlast ⊢ <;> omega
  · simp only [hleap, if_false] at hlast ⊢
    interval_cases month <;> simp [List.range_succ] at hlast ⊢ <;> omega

/-! ### Moments -/

/-- A time, as the clocks of a time zone show it. -/
structure Moment where
  year : Int
  month : Nat
  day : Nat
  hour : Nat
  minute : Nat
  second : Nat
  micros : Nat
  /-- Seconds east of UTC. -/
  offset : Int
  /-- The abbreviation of the time zone. -/
  zoneName : List Char
  month_mem : 1 ≤ month ∧ month ≤ 12
  day_mem : 1 ≤ day ∧ day ≤ daysInMonth year month
  hour_le : hour ≤ 23
  minute_le : minute ≤ 59
  second_le : second ≤ 60
  micros_lt : micros < 1000000

namespace Moment

variable (m : Moment)

/-- The days of the year before this one. -/
def dayOfYear : Nat := daysTo m.year m.month m.day

/-- The days since 0001-01-01. -/
def days : Int := daysBefore m.year + m.dayOfYear

/-- The day of the week, from Sunday on. -/
def weekday : Nat := ((m.days + 1) % 7).toNat

/-- The Thursday of the week, which decides about its year. -/
def thursday : Int := m.days - m.days % 7 + 3

def isoYear : Int :=
  if m.thursday < daysBefore m.year then m.year - 1
  else if daysBefore (m.year + 1) ≤ m.thursday then m.year + 1
  else m.year

def isoWeek : Int := (m.thursday - daysBefore m.isoYear) / 7 + 1

/-- The weeks that began in the year, if the days `k` with `(k + first) % 7 = 0` begin a week. -/
def weeks (first : Int) : Nat :=
  (List.range (m.dayOfYear + 1)).countP fun k : Nat => (daysBefore m.year + first + k) % 7 = 0

/-- The seconds since 1970-01-01 00:00:00 UTC. -/
def epoch : Int :=
  (((m.days - daysBefore 1970) * 24 + m.hour) * 60 + m.minute) * 60 + m.second - m.offset

/-- The fields of `struct tm`. -/
def tm : Tm where
  tm_year := m.year - 1900
  tm_mon := m.month - 1
  tm_mday := m.day
  tm_hour := m.hour
  tm_min := m.minute
  tm_sec := m.second
  tm_wday := m.weekday
  tm_yday := m.dayOfYear

/-! ### Texts -/

/-- A number with leading zeros. -/
def pad (width n : Nat) : List Char := (Nat.toDigits 10 n).leftpad width '0'

/-- A number with leading blanks. -/
def blank (width n : Nat) : List Char := (Nat.toDigits 10 n).leftpad width ' '

/-- A number with its sign, and with leading zeros. -/
def signed (width : Nat) (n : Int) : List Char :=
  if n < 0 then '-' :: pad (width - 1) n.natAbs else pad width n.toNat

/-- The hour from 1 to 12. -/
def hour12 : Nat := if m.hour % 12 = 0 then 12 else m.hour % 12

/-- The specifiers that stand for one thing. -/
def field : Specifier → List Char
  | .NAME_DAY_WEEK_ABB => g_day_names_short.getD m.weekday []
  | .FULL_DAY_NAME => g_day_names.getD m.weekday []
  | .ABBRE_MON_NAME | .ABBRE_MON_NAME_2 => g_mnth_names_short.getD (m.month - 1) []
  | .FULL_MON_NAME => g_mnth_names.getD (m.month - 1) []
  | .CENTURY_NUMBER => signed 2 (m.year.tdiv 100)
  | .DEC_DATE_MON => pad 2 m.day
  | .DAY_AS_DECIMAL_0 => blank 2 m.day
  | .TWO_DIG_YEAR => pad 2 (m.isoYear.natAbs % 100)
  | .FOUR_DIG_YEAR => signed 4 m.isoYear
  | .HOUR_AS_24_CLK => pad 2 m.hour
  | .HOUR_AS_12_CLK => pad 2 m.hour12
  | .DAY_AS_DECIMAL => pad 3 (m.dayOfYear + 1)
  | .HOUR_AS_24_SINGLE => blank 2 m.hour
  | .HOUR_AS_12_SINGLE => blank 2 m.hour12
  | .MON_AS_DECIMAL => pad 2 m.month
  | .MIN_AS_DECIMAL => pad 2 m.minute
  | .NEW_LINE => ['\n']
  | .AM_PM => if m.hour < 12 then ['A', 'M'] else ['P', 'M']
  | .EPOCH_TIME => signed 1 m.epoch
  | .SECONDS_AS_DEC => pad 2 m.second
  | .TAB_CHARACTER => ['\t']
  | .DAY_WEEK_AS_DEC => pad 1 (if m.weekday = 0 then 7 else m.weekday)
  | .WEEK_NUM_AS_DEC => pad 2 (m.weeks 1)
  | .ISO_WEEK_NUM => pad 2 m.isoWeek.toNat
  | .DAY_OF_WEEK => pad 1 m.weekday
  | .WEEK_NUM_AS_DEC_MON => pad 2 (m.weeks 0)
  | .YEAR_WITHOUT_CEN => pad 2 (m.year.natAbs % 100)
  | .YEAR_WIT_CEN => signed 4 m.year
  | .HOUR_MIN_OFFSET =>
    (if m.offset < 0 then '-' else '+') ::
      (pad 2 (m.offset.natAbs / 3600) ++ pad 2 (m.offset.natAbs % 3600 / 60))
  | .TIMEZONE_NAME => m.zoneName
  | .MICRO_SEC => pad 6 m.micros
  | .MILLI_SEC => pad 3 (m.micros / 1000)
  | _ => []

/-- "%H:%M:%S". -/
def clock : List Char :=
  m.field .HOUR_AS_24_CLK ++ ':' :: (m.field .MIN_AS_DECIMAL ++ ':' :: m.field .SECONDS_AS_DEC)

/-- "%m/%d/%y". -/
def slashed : List Char :=
  m.field .MON_AS_DECIMAL ++ '/' :: (m.field .DEC_DATE_MON ++ '/' :: m.field .YEAR_WITHOUT_CEN)

/-- "%Y-%m-%d". -/
def date : List Char :=
  m.field .YEAR_WIT_CEN ++ '-' :: (m.field .MON_AS_DECIMAL ++ '-' :: m.field .DEC_DATE_MON)

def expansion : Specifier → List Char
  | .DATE_TIME =>
    m.field .NAME_DAY_WEEK_ABB ++ ' ' :: (m.field .ABBRE_MON_NAME ++ ' ' ::
      (m.field .DAY_AS_DECIMAL_0 ++ ' ' :: (m.clock ++ ' ' :: m.field .YEAR_WIT_CEN)))
  | .MON_DAY_YEAR | .DATE_WITHOUT_TIME => m.slashed
  | .YEAR_MON_DAY => m.date
  | .TIME_AM_PM =>
    m.field .HOUR_AS_12_CLK ++ ':' :: (m.field .MIN_AS_DECIMAL ++ ':' ::
      (m.field .SECONDS_AS_DEC ++ ' ' :: m.field .AM_PM))
  | .TIME_HOUR_MIN => m.field .HOUR_AS_24_CLK ++ ':' :: m.field .MIN_AS_DECIMAL
  | .TIME_IN_24_HOUR | .TIME_WITHOUT_DATE => m.clock
  | .RAND_VALUE_1 => m.date ++ 'T' :: (m.clock ++ '.' :: m.field .MILLI_SEC)
  | .RAND_VALUE_2 =>
    m.field .DAY_AS_DECIMAL_0 ++ '-' :: (m.field .ABBRE_MON_NAME ++ '-' :: m.field .YEAR_WIT_CEN)
  | .DATE_TIME_TZ =>
    m.field .NAME_DAY_WEEK_ABB ++ ',' :: ' ' :: (m.field .DEC_DATE_MON ++ ' ' ::
      (m.field .ABBRE_MON_NAME ++ ' ' :: (m.field .YEAR_WIT_CEN ++ ' ' :: (m.clock ++ ' ' ::
        m.field .HOUR_MIN_OFFSET))))
  | s => m.field s

theorem weekday_lt : m.weekday < 7 := by
  rw [weekday]
  omega

theorem dayOfYear_lt : m.dayOfYear < daysInYear m.year := daysTo_lt m.month_mem m.day_mem

end Moment

/-- `mktime` is right for the standard time of the zone. -/
def Zone.Exact (zone : Zone) : Prop :=
  ∀ m : Moment, m.offset = -zone.timezone → zone.mktime m.tm = m.epoch

/-! ### The specifiers that are expanded right -/

/-- Each of the others is wrong for some moment: the composed ones read behind the end of their own
formats, and of the rest "%g" and "%V" give the year of "%G". -/
def Specifier.right (s : Specifier) : Bool :=
  s.again.isNone && !(s == .AM_PM || s == .ISO_WEEK_NUM || s == .TWO_DIG_YEAR || s == .TIMEZONE_NAME ||
    s == .HOUR_MIN_OFFSET || s == .EPOCH_TIME || s == .YEAR_WITHOUT_CEN)

section Numbers

open Moment

theorem sprintf_zeros (width n : Nat) : sprintf (.zeros width) n = pad width n := by
  simp [sprintf, pad, show ¬ ((n : Int) < 0) by omega]

theorem sprintf_blanks (width n : Nat) : sprintf (.blanks width) n = blank width n := by
  simp [sprintf, blank, show ¬ ((n : Int) < 0) by omega]

theorem sprintf_plain (n : Nat) : sprintf .plain n = pad 1 n := by
  have hpos : 0 < (Nat.toDigits 10 n).length := Nat.length_toDigits_pos
  simp [sprintf, pad, List.leftpad, show ¬ ((n : Int) < 0) by omega,
    show 1 - (Nat.toDigits 10 n).length = 0 by omega]

theorem sprintf_signed (width : Nat) (n : Int) : sprintf (.zeros width) n = signed width n := by
  rw [signed]
  split
  case isTrue h => simp [sprintf, pad, h]
  case isFalse h =>
    obtain ⟨k, rfl⟩ := Int.eq_ofNat_of_zero_le (Int.not_lt.mp h)
    exact sprintf_zeros width k

theorem nameOf_natCast (names : List (List Char)) {i : Nat} (h : i < names.length) :
    nameOf names i = names.getD i [] := by
  rw [nameOf, if_neg (by omega), Int.toNat_natCast]

/-- The weeks that began: `first` shifts the day that begins them. -/
theorem countP_weeks (first : Int) (n : Nat) :
    (((List.range n).countP fun k : Nat => (first + k) % 7 = 0 : Nat) : Int) =
      (n + 6 - (first + n - 1) % 7) / 7 := by
  induction n with
  | zero =>
    simp only [List.range_zero, List.countP_nil]
    omega
  | succ n ih =>
    rw [List.range_succ, List.countP_append, Nat.cast_add, ih, List.countP_cons, List.countP_nil]
    by_cases h : (first + (n : Int)) % 7 = 0
    · simp only [h, decide_true, if_true]
      omega
    · simp only [h, decide_false]
      simp
      omega

theorem IF_LEAPYEAR_iff (year : Int) : IF_LEAPYEAR year = true ↔ Leap year := by
  simp only [IF_LEAPYEAR, Leap, Bool.and_eq_true, Bool.or_eq_true, decide_eq_true_eq, ne_eq,
    ← Int.dvd_iff_tmod_eq_zero]
  omega

theorem tmod_seven {n : Int} (h : 0 ≤ n) : n.tmod 7 = n % 7 := Int.tmod_eq_emod_of_nonneg h

theorem tdiv_seven {n : Int} (h : 0 ≤ n) : n.tdiv 7 = n / 7 := Int.tdiv_eq_ediv_of_nonneg h

theorem yearLength (year : Int) : (if IF_LEAPYEAR year then (366 : Int) else 365) = daysInYear year := by
  simp only [daysInYear, IF_LEAPYEAR_iff]
  split <;> rfl

end Numbers

namespace Moment

variable (m : Moment)

/-- One round of `cal_year_week`, for a day of a year and the Thursday of its week. -/
theorem yearWeek_round (fuel : Nat) {year yday wday : Int} (thursday : Int) (hyday : 0 ≤ yday)
    (hwday : wday = (daysBefore year + yday + 1) % 7)
    (hthursday : thursday = daysBefore year + yday - (daysBefore year + yday) % 7 + 3)
    (hlt : thursday < daysBefore (year + 1) + 7) :
    yearWeek (fuel + 1) year yday wday =
      if daysBefore (year + 1) ≤ thursday then (year + 1, 1)
      else if daysBefore year ≤ thursday then (year, (thursday - daysBefore year) / 7 + 1)
      else yearWeek fuel (year - 1) (yday + daysInYear (year - 1)) wday := by
  have hnext := daysBefore_succ year
  have hcases := daysInYear_cases year
  have hbottom : (yday + 11 - wday).tmod 7 = (yday + 11 - wday) % 7 := tmod_seven (by omega)
  have hlength : (daysInYear year : Int).tmod 7 = daysInYear year % 7 := tmod_seven (by omega)
  simp only [yearWeek, yearLength, hbottom, hlength]
  by_cases hnew : daysBefore (year + 1) ≤ thursday
  · rw [if_pos hnew, if_pos]
    split <;> omega
  · rw [if_neg hnew, if_neg]
    · by_cases hold : daysBefore year ≤ thursday
      · have hle : (yday + 11 - wday) % 7 - 3 ≤ yday := by omega
        rw [if_pos hold, if_pos hle, tdiv_seven (by omega)]
        refine congrArg (Prod.mk year) ?_
        omega
      · rw [if_neg hold, if_neg (by omega)]
    · split <;> omega

/-- `cal_year_week` needs at most two rounds. -/
theorem yearWeek_isoWeek (fuel : Nat) :
    yearWeek (fuel + 2) m.year m.dayOfYear m.weekday = (m.isoYear, m.isoWeek) := by
  have hnext := daysBefore_succ m.year
  have hprev := daysBefore_succ (m.year - 1)
  rw [Int.sub_add_cancel] at hprev
  have hlt := m.dayOfYear_lt
  have hcasesPrev := daysInYear_cases (m.year - 1)
  have hweekday : (m.weekday : Int) = (daysBefore m.year + m.dayOfYear + 1) % 7 := by
    rw [weekday, days]
    omega
  have hthursday : m.thursday =
      daysBefore m.year + m.dayOfYear - (daysBefore m.year + m.dayOfYear) % 7 + 3 := rfl
  rw [yearWeek_round _ _ (by omega) hweekday hthursday (by omega), isoWeek, isoYear]
  by_cases hnew : daysBefore (m.year + 1) ≤ m.thursday
  · rw [if_pos hnew, if_neg (by omega), if_pos hnew]
    refine congrArg (Prod.mk (m.year + 1)) ?_
    omega
  · rw [if_neg hnew]
    by_cases hold : daysBefore m.year ≤ m.thursday
    · rw [if_pos hold, if_neg (by omega), if_neg hnew]
    · -- the last week of the year before
      rw [if_neg hold, if_pos (by omega), yearWeek_round fuel m.thursday (by omega)
        (by omega) (by omega) (by rw [Int.sub_add_cancel]; omega), Int.sub_add_cancel, if_neg hold,
        if_pos (by omega)]

theorem cal_year_week_tm : cal_year_week m.tm = (m.isoYear, m.isoWeek) := by
  have hyear : m.tm.tm_year + 1900 = m.year := Int.sub_add_cancel m.year 1900
  rw [cal_year_week, hyear]
  exact m.yearWeek_isoWeek (m.dayOfYear + 3)

/-- The days of the week, counted from Sunday or from Monday. -/
theorem weeks_eq {first : Int} {r : Int} (h : r = (daysBefore m.year + first + m.dayOfYear) % 7) :
    ((m.dayOfYear : Int) + 7 - r).tdiv 7 = m.weeks first := by
  rw [weeks, countP_weeks, tdiv_seven (by omega)]
  omega

theorem hour12_eq : (if (m.hour : Int).tmod 12 = 0 then 12 else (m.hour : Int).tmod 12) = m.hour12 := by
  rw [Int.tmod_eq_emod_of_nonneg (by omega), hour12]
  split <;> split <;> omega

theorem flatten_one {l l' : List Char} (h : l = l') : [l].flatten = l' := List.flatten_singleton.trans h

/-- The text of a specifier that is expanded right. -/
theorem flatten_buffers (zone : Zone) {s : Specifier} (h : s.right = true) :
    (buffers zone m.tm m.micros '%' s).flatten = m.expansion s := by
  have hweekday := m.weekday_lt
  have hmonth := m.month_mem
  have hmonthName (names : List (List Char)) (hl : names.length = 12) :
      nameOf names m.tm.tm_mon = names.getD (m.month - 1) [] := by
    have hmon : m.tm.tm_mon = ((m.month - 1 : Nat) : Int) := by
      change (m.month : Int) - 1 = _
      omega
    rw [hmon, nameOf_natCast names (by omega)]
  have hyear : m.tm.tm_year + 1900 = m.year := Int.sub_add_cancel m.year 1900
  have hhour : m.tm.tm_hour = m.hour := rfl
  have hwday : (m.weekday : Int) = (daysBefore m.year + m.dayOfYear + 1) % 7 := by
    rw [weekday, days]
    omega
  have hhour12 := m.hour12_eq
  cases s with
  | NAME_DAY_WEEK_ABB => exact flatten_one (nameOf_natCast _ hweekday)
  | FULL_DAY_NAME => exact flatten_one (nameOf_natCast _ hweekday)
  | ABBRE_MON_NAME => exact flatten_one (hmonthName _ rfl)
  | ABBRE_MON_NAME_2 => exact flatten_one (hmonthName _ rfl)
  | FULL_MON_NAME => exact flatten_one (hmonthName _ rfl)
  | CENTURY_NUMBER =>
    rw [buffers, hyear, List.flatten_singleton]
    exact sprintf_signed 2 _
  | DEC_DATE_MON => exact flatten_one (sprintf_zeros 2 m.day)
  | DAY_AS_DECIMAL_0 => exact flatten_one (sprintf_blanks 2 m.day)
  | FOUR_DIG_YEAR =>
    rw [buffers, cal_year_week_tm]
    exact flatten_one (sprintf_signed 4 m.isoYear)
  | HOUR_AS_24_CLK => exact flatten_one (sprintf_zeros 2 m.hour)
  | HOUR_AS_12_CLK =>
    rw [buffers, hhour, ← apply_ite (fun n => [sprintf (.zeros 2) n]), hhour12]
    exact flatten_one (sprintf_zeros 2 m.hour12)
  | DAY_AS_DECIMAL => exact flatten_one (sprintf_zeros 3 (m.dayOfYear + 1))
  | HOUR_AS_24_SINGLE => exact flatten_one (sprintf_blanks 2 m.hour)
  | HOUR_AS_12_SINGLE =>
    rw [buffers, hhour, ite_not, hhour12]
    exact flatten_one (sprintf_blanks 2 m.hour12)
  | MON_AS_DECIMAL =>
    have hmon : m.tm.tm_mon + 1 = m.month := Int.sub_add_cancel (m.month : Int) 1
    rw [buffers, hmon]
    exact flatten_one (sprintf_zeros 2 m.month)
  | MIN_AS_DECIMAL => exact flatten_one (sprintf_zeros 2 m.minute)
  | NEW_LINE => rfl
  | SECONDS_AS_DEC => exact flatten_one (sprintf_zeros 2 m.second)
  | TAB_CHARACTER => rfl
  | DAY_WEEK_AS_DEC =>
    have hseven : (if (m.weekday : Int) = 0 then 7 else (m.weekday : Int)) =
        ((if m.weekday = 0 then 7 else m.weekday : Nat) : Int) := by
      split <;> split <;> omega
    rw [buffers, show m.tm.tm_wday = m.weekday from rfl,
      ← apply_ite (fun n => [sprintf .plain n]), hseven]
    exact flatten_one (sprintf_plain _)
  | WEEK_NUM_AS_DEC =>
    have hweeks : (m.tm.tm_yday + 7 - m.tm.tm_wday).tdiv 7 = m.weeks 1 := m.weeks_eq (by
      rw [show m.tm.tm_wday = m.weekday from rfl]
      omega)
    rw [buffers, hweeks]
    exact flatten_one (sprintf_zeros 2 (m.weeks 1))
  | DAY_OF_WEEK => exact flatten_one (sprintf_plain m.weekday)
  | WEEK_NUM_AS_DEC_MON =>
    have hweeks : (m.tm.tm_yday + 7 - if m.tm.tm_wday ≠ 0 then m.tm.tm_wday - 1 else 6).tdiv 7 =
        m.weeks 0 := m.weeks_eq (by
      rw [show m.tm.tm_wday = m.weekday from rfl]
      split <;> omega)
    rw [buffers, hweeks]
    exact flatten_one (sprintf_zeros 2 (m.weeks 0))
  | YEAR_WIT_CEN =>
    rw [buffers, hyear, List.flatten_singleton]
    exact sprintf_signed 4 _
  | MICRO_SEC => exact flatten_one (sprintf_zeros 6 m.micros)
  | MILLI_SEC =>
    have hmillis : (m.micros : Int).tdiv 1000 = ((m.micros / 1000 : Nat) : Int) :=
      Int.tdiv_eq_ediv_of_nonneg (by omega)
    rw [buffers, hmillis]
    exact flatten_one (sprintf_zeros 3 (m.micros / 1000))
  | _ => exact absurd h (by decide)

end Moment

end OpenairHss.Strftime
