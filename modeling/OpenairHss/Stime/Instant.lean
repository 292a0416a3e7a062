import OpenairHss.Stime.ReadBack

/-!
# Dates of ISO 8601

`DateFromStr` with the milliseconds, and the texts "YYYY-MM-DDTHH:MM:SS" and "YYYY-MM-DD HH:MM:SS",
both with or without ".mmm".

* `found_written`: the numbers of such a text, each for what it is.
* `DateFromStr_written`: the date is that of the text, for the years from 1970 to 2037.
-/

namespace OpenairHss.Stime

open FdJson (Octets)

/-! ### The milliseconds -/

/-- `milliseconds`, which the switch over the fields with a time separator takes in three cases. -/
def milliseconds (pd : ParseDate) : Int :=
  match (pd.field 0).timeSep, (pd.field 1).timeSep, (pd.field 2).timeSep, (pd.field 3).timeSep,
    (pd.field 4).timeSep with
  | true, true, false, false, false => pd.int 3
  | false, false, true, true, false => pd.int 5
  | false, false, false, true, true => pd.int 6
  | _, _, _, _, _ => 0

/-- `struct timeval`. -/
structure Timeval where
  tv_sec : Int
  tv_usec : Int
  deriving DecidableEq

/-- What is found in a text: the date, with a month from 1 to 12, and the milliseconds. -/
def System.found (sys : System) (strIn : Octets) : Option (Tm × Int) := do
  let pd ← scan strIn.length {} strIn
  if pd.fields = [] ∨ (pd.fields.length = 1 ∧ ¬ pd.anyHalf) then none
  else
    let t ← arrange pd
    let date ← determine_date sys pd 0 t
    return (date, milliseconds pd)

/-- `DateFromStr`, without `isLocal`: what is written to `ptvout`. -/
def System.timevalOf (sys : System) (timegm : Tm → Int) (strIn : Octets) : Timeval :=
  match sys.found strIn with
  | none => ⟨0, 0⟩
  | some (t, milliseconds) =>
    let ms := if 2037 < t.tm_year then 0 else milliseconds
    let t := t.limit
    ⟨timegm { t with tm_year := t.tm_year - 1900, tm_mon := t.tm_mon - 1 }, (ms * 1000).bmod (2 ^ 32)⟩

/-- The seconds are those of `DateFromStr`. -/
theorem timevalOf_seconds (sys : System) (strIn : Octets) :
    (sys.timevalOf sys.timegm strIn).tv_sec = sys.DateFromStr strIn := by
  have hdate : sys.dateOf strIn = (sys.found strIn).map Prod.fst := by
    rw [System.dateOf, System.found]
    cases scan strIn.length {} strIn with
    | none => rfl
    | some pd =>
      simp only [bind, Option.bind_some]
      split
      · rfl
      · cases arrange pd with
        | none => rfl
        | some t =>
          simp only [Option.bind_some]
          cases determine_date sys pd 0 t <;> rfl
  rw [System.timevalOf, System.DateFromStr, hdate]
  cases sys.found strIn with
  | none => rfl
  | some p => rfl

/-! ### The calendar -/

/-- A year with 366 days. -/
def Leap (year : Nat) : Prop := (4 ∣ year ∧ ¬ 100 ∣ year) ∨ 400 ∣ year

instance (year : Nat) : Decidable (Leap year) := inferInstanceAs (Decidable (_ ∨ _))

def daysInMonth (year month : Nat) : Nat :=
  if month = 2 then if Leap year then 29 else 28
  else if month = 4 ∨ month = 6 ∨ month = 9 ∨ month = 11 then 30
  else 31

def daysInYear (year : Nat) : Nat := if Leap year then 366 else 365

/-- The days since 1970-01-01. -/
def daysSince (year month day : Nat) : Nat :=
  ((List.range (year - 1970)).map fun i => daysInYear (1970 + i)).sum +
    ((List.range (month - 1)).map fun i => daysInMonth year (i + 1)).sum + (day - 1)

/-- The seconds since 1970-01-01 00:00:00 UTC, of the fields of a date from 1970 on. -/
def utc (t : Tm) : Int :=
  let days := daysSince (t.tm_year + 1900).toNat (t.tm_mon + 1).toNat t.tm_mday.toNat
  ((days * 24 + t.tm_hour) * 60 + t.tm_min) * 60 + t.tm_sec

/-- A date from 1970 to 2037. -/
structure Numbers.OnCalendar (n : Numbers) : Prop where
  year : 1970 ≤ n.year ∧ n.year ≤ 2037
  month : 1 ≤ n.month ∧ n.month ≤ 12
  day : 1 ≤ n.day ∧ n.day ≤ daysInMonth n.year n.month
  hour : n.hour ≤ 23
  minute : n.minute ≤ 59
  second : n.second ≤ 59

def Numbers.tm (n : Numbers) : Tm where
  tm_year := n.year - 1900
  tm_mon := n.month - 1
  tm_mday := n.day
  tm_hour := n.hour
  tm_min := n.minute
  tm_sec := n.second

theorem leap_iff (year : Nat) : IF_LEAPYEAR year = true ↔ Leap year := by
  simp only [IF_LEAPYEAR, Leap, Nat.dvd_iff_mod_eq_zero, Bool.and_eq_true, Bool.or_eq_true,
    decide_eq_true_eq]
  omega

theorem daysInMonth_le (year month : Nat) : daysInMonth year month ≤ 31 := by
  rw [daysInMonth]
  repeat' split
  all_goals omega

/-- The dates of the calendar are those that the code takes for valid. -/
theorem Numbers.OnCalendar.valid {n : Numbers} (hn : n.OnCalendar) : n.Valid := by
  have hmonth := hn.month
  have hday := hn.day
  have hyear := hn.year
  have hle := daysInMonth_le n.year n.month
  refine ⟨by omega, hmonth.2, by omega, ?_, hn.hour, hn.minute, hn.second⟩
  rw [validate_date, u32_natCast (by omega), u32_natCast (by omega), u32_natCast (by omega),
    decide_eq_true_iff]
  refine ⟨hmonth.1, hmonth.2, hday.1, hday.2.trans (le_of_eq ?_)⟩
  simp only [daysInMonth, leap_iff]

/-! ### Dates -/

section Dates

variable {n : Numbers} (ms : Option (Fin 1000))

theorem milliseconds_collected (n : Numbers) :
    milliseconds (n.collected ms) = millis ms := by
  cases ms with
  | none => rfl
  | some m => exact toInt_ofNat (n := m.val) (by omega)

/-- What is found in such a text. -/
theorem found_written (sys : System) (hn : n.Valid) {sep : UInt8}
    (hsep : sep = 0x54 ∨ sep = 0x20) : sys.found (n.written sep ms) = some
      ((⟨n.year, n.month, n.day, n.hour, n.minute, n.second⟩ : Tm),
        (millis ms : Int)) := by
  have hfields : ¬ ((n.collected ms).fields = [] ∨
      ((n.collected ms).fields.length = 1 ∧ ¬ (n.collected ms).anyHalf)) := by
    simp [Numbers.collected]
  have hcount : 2 < if ms.isSome then 4 else 3 := by
    split <;> omega
  simp only [System.found, scan_written hn.small hsep, bind, Option.bind_some]
  rw [if_neg hfields, arrange_collected ms hn, Option.bind_some,
    determine_collected ms sys hn hcount, milliseconds_collected]
  rfl

end Dates

/-- **A date of ISO 8601 is read as exactly its instant**, milliseconds included: year, month and day
are never exchanged. -/
theorem DateFromStr_written (sys : System) {n : Numbers} (hn : n.OnCalendar) {sep : UInt8}
    (hsep : sep = 0x54 ∨ sep = 0x20) (ms : Option (Fin 1000)) :
    sys.timevalOf utc (n.written sep ms) = ⟨utc n.tm, millis ms * 1000⟩ := by
  have hyear := hn.year
  have hms := millis_lt ms
  rw [System.timevalOf, found_written ms sys hn.valid hsep]
  simp only [Tm.limit]
  rw [if_neg (by omega), if_neg (by omega), Int.bmod_eq_of_le (by omega) (by omega)]
  rfl

def atEpoch : System := ⟨fun _ => ⟨70, 0, 1, 0, 0, 0⟩, utc, 0⟩

theorem DateFromStr_written_leapDay :
    atEpoch.timevalOf utc ((⟨2024, 2, 29, 23, 59, 58⟩ : Numbers).written 0x54 (some 7)) =
      ⟨1709251198, 7000⟩ := by
  have h := DateFromStr_written atEpoch (n := ⟨2024, 2, 29, 23, 59, 58⟩)
    ⟨by decide, by decide, by decide, by decide, by decide, by decide⟩ (Or.inl rfl) (some 7)
  exact h.trans (by decide)

end OpenairHss.Stime
