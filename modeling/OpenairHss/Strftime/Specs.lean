import OpenairHss.Lib.Budget

/-!
# Formatting a time

`format_time_into_specs` of `stime.cpp`, and what it calls.  A format is the list of its characters;
the terminator stands behind them.  The space from `dest` to `max_limit` is a `Space`.

* `charAt`: reading behind the terminator is a fault.
* `step`: one round of the loop.  After a specifier `i` is left on its letter, which the next round
  treats like any other character.
-/

namespace OpenairHss.Strftime

inductive Fault
  /-- A read behind the terminator of the format. -/
  | pastFormat
  /-- A write at `max_limit`. -/
  | pastLimit
  /-- The rounds that the model grants were not enough. -/
  | unfinished
  deriving DecidableEq

/-- The fields of `struct tm` that are printed.  They are of type `int` there; `tm_year + 1900` is
meant to be one too. -/
structure Tm where
  tm_year : Int
  tm_mon : Int
  tm_mday : Int
  tm_hour : Int
  tm_min : Int
  tm_sec : Int
  tm_wday : Int
  tm_yday : Int
  deriving DecidableEq

/-- The time zone of the process, of the C library. -/
structure Zone where
  /-- Seconds west of UTC. -/
  timezone : Int
  mktime : Tm → Int

/-- `strftime_format`, without LITERAL, NULL_CHAR, ALTERNATE_ERA and MODIFIER, and without `am_pm`,
which has no case. -/
inductive Specifier
  | NAME_DAY_WEEK_ABB
  | FULL_DAY_NAME
  | ABBRE_MON_NAME
  | FULL_MON_NAME
  | DATE_TIME
  | CENTURY_NUMBER
  | DEC_DATE_MON
  | MON_DAY_YEAR
  | DAY_AS_DECIMAL_0
  | YEAR_MON_DAY
  | TWO_DIG_YEAR
  | FOUR_DIG_YEAR
  | ABBRE_MON_NAME_2
  | HOUR_AS_24_CLK
  | HOUR_AS_12_CLK
  | DAY_AS_DECIMAL
  | HOUR_AS_24_SINGLE
  | HOUR_AS_12_SINGLE
  | MON_AS_DECIMAL
  | MIN_AS_DECIMAL
  | NEW_LINE
  | AM_PM
  | TIME_AM_PM
  | TIME_HOUR_MIN
  | EPOCH_TIME
  | SECONDS_AS_DEC
  | TAB_CHARACTER
  | TIME_IN_24_HOUR
  | DAY_WEEK_AS_DEC
  | WEEK_NUM_AS_DEC
  | ISO_WEEK_NUM
  | DAY_OF_WEEK
  | WEEK_NUM_AS_DEC_MON
  | DATE_WITHOUT_TIME
  | TIME_WITHOUT_DATE
  | YEAR_WITHOUT_CEN
  | YEAR_WIT_CEN
  | HOUR_MIN_OFFSET
  | TIMEZONE_NAME
  | DATE_TIME_TZ
  | RAND_VALUE_1
  | RAND_VALUE_2
  | MICRO_SEC
  | MILLI_SEC
  deriving DecidableEq

namespace Specifier

/-- The values of `strftime_format`. -/
def char : Specifier → Char
  | NAME_DAY_WEEK_ABB => 'a'
  | FULL_DAY_NAME => 'A'
  | ABBRE_MON_NAME => 'b'
  | FULL_MON_NAME => 'B'
  | DATE_TIME => 'c'
  | CENTURY_NUMBER => 'C'
  | DEC_DATE_MON => 'd'
  | MON_DAY_YEAR => 'D'
  | DAY_AS_DECIMAL_0 => 'e'
  | YEAR_MON_DAY => 'F'
  | TWO_DIG_YEAR => 'g'
  | FOUR_DIG_YEAR => 'G'
  | ABBRE_MON_NAME_2 => 'h'
  | HOUR_AS_24_CLK => 'H'
  | HOUR_AS_12_CLK => 'I'
  | DAY_AS_DECIMAL => 'j'
  | HOUR_AS_24_SINGLE => 'k'
  | HOUR_AS_12_SINGLE => 'l'
  | MON_AS_DECIMAL => 'm'
  | MIN_AS_DECIMAL => 'M'
  | NEW_LINE => 'n'
  | AM_PM => 'p'
  | TIME_AM_PM => 'r'
  | TIME_HOUR_MIN => 'R'
  | EPOCH_TIME => 's'
  | SECONDS_AS_DEC => 'S'
  | TAB_CHARACTER => 't'
  | TIME_IN_24_HOUR => 'T'
  | DAY_WEEK_AS_DEC => 'u'
  | WEEK_NUM_AS_DEC => 'U'
  | ISO_WEEK_NUM => 'V'
  | DAY_OF_WEEK => 'w'
  | WEEK_NUM_AS_DEC_MON => 'W'
  | DATE_WITHOUT_TIME => 'x'
  | TIME_WITHOUT_DATE => 'X'
  | YEAR_WITHOUT_CEN => 'y'
  | YEAR_WIT_CEN => 'Y'
  | HOUR_MIN_OFFSET => 'z'
  | TIMEZONE_NAME => 'Z'
  | DATE_TIME_TZ => '+'
  | RAND_VALUE_1 => 'i'
  | RAND_VALUE_2 => 'v'
  | MICRO_SEC => '1'
  | MILLI_SEC => '0'

def all : List Specifier :=
  [NAME_DAY_WEEK_ABB, FULL_DAY_NAME, ABBRE_MON_NAME, FULL_MON_NAME, DATE_TIME, CENTURY_NUMBER,
    DEC_DATE_MON, MON_DAY_YEAR, DAY_AS_DECIMAL_0, YEAR_MON_DAY, TWO_DIG_YEAR, FOUR_DIG_YEAR,
    ABBRE_MON_NAME_2, HOUR_AS_24_CLK, HOUR_AS_12_CLK, DAY_AS_DECIMAL, HOUR_AS_24_SINGLE,
    HOUR_AS_12_SINGLE, MON_AS_DECIMAL, MIN_AS_DECIMAL, NEW_LINE, AM_PM, TIME_AM_PM, TIME_HOUR_MIN,
    EPOCH_TIME, SECONDS_AS_DEC, TAB_CHARACTER, TIME_IN_24_HOUR, DAY_WEEK_AS_DEC, WEEK_NUM_AS_DEC,
    ISO_WEEK_NUM, DAY_OF_WEEK, WEEK_NUM_AS_DEC_MON, DATE_WITHOUT_TIME, TIME_WITHOUT_DATE,
    YEAR_WITHOUT_CEN, YEAR_WIT_CEN, HOUR_MIN_OFFSET, TIMEZONE_NAME, DATE_TIME_TZ, RAND_VALUE_1,
    RAND_VALUE_2, MICRO_SEC, MILLI_SEC]

/-- The case of the switch for a character. -/
def ofChar (temp : Char) : Option Specifier := all.find? fun s => s.char = temp

theorem mem_all (s : Specifier) : s ∈ all := by
  cases s <;> decide

theorem ofChar_char (s : Specifier) : ofChar s.char = some s := by
  cases s <;> decide

theorem char_of_ofChar {c : Char} {s : Specifier} (h : ofChar c = some s) : s.char = c := by
  simpa using List.find?_some h

theorem char_ne_literal (s : Specifier) : s.char ≠ '%' := by
  cases s <;> decide

end Specifier

/-! ### Tables and numbers -/

def g_day_names : List (List Char) :=
  ["Sunday".toList, "Monday".toList, "Tuesday".toList, "Wednesday".toList, "Thursday".toList,
    "Friday".toList, "Saturday".toList]

def g_day_names_short : List (List Char) :=
  ["Sun".toList, "Mon".toList, "Tue".toList, "Wed".toList, "Thu".toList, "Fri".toList, "Sat".toList]

def g_mnth_names : List (List Char) :=
  ["January".toList, "February".toList, "March".toList, "April".toList, "May".toList,
    "June".toList, "July".toList, "August".toList, "September".toList, "October".toList,
    "November".toList, "December".toList]

def g_mnth_names_short : List (List Char) :=
  ["Jan".toList, "Feb".toList, "Mar".toList, "Apr".toList, "May".toList, "Jun".toList,
    "Jul".toList, "Aug".toList, "Sep".toList, "Oct".toList, "Nov".toList, "Dec".toList]

/-- The name of an index, or "?" outside of the table. -/
def nameOf (names : List (List Char)) (i : Int) : List Char :=
  if i < 0 ∨ names.length - 1 < i then ['?'] else names.getD i.toNat []

/-- `sprintf` with "%d", with "%2d" and the like, and with "%02d" and the like. -/
inductive DateTimeFormat
  | plain
  | blanks (width : Nat)
  | zeros (width : Nat)

/-- `format_sprintf_s (buffer, 32, date_time_format, n)`; no number fills the buffer. -/
def sprintf (date_time_format : DateTimeFormat) (n : Int) : List Char :=
  let sign := if n < 0 then ['-'] else []
  let digits := Nat.toDigits 10 n.natAbs
  match date_time_format with
  | .plain => sign ++ digits
  | .blanks width => (sign ++ digits).leftpad width ' '
  | .zeros width => sign ++ digits.leftpad (width - sign.length) '0'

def IF_LEAPYEAR (year : Int) : Bool :=
  decide (year.tmod 4 = 0) && (decide (year.tmod 100 ≠ 0) || decide (year.tmod 400 = 0))

/-- The loop of `cal_year_week`. -/
def yearWeek : Nat → Int → Int → Int → Int × Int
  | 0, year, _, _ => (year, 0)
  | fuel + 1, year, yday, wday =>
    let length : Int := if IF_LEAPYEAR year then 366 else 365
    let bottom := (yday + 11 - wday).tmod 7 - 3
    let top := bottom - length.tmod 7
    let top := if top < -3 then top + 7 else top
    let top := top + length
    if top ≤ yday then (year + 1, 1)
    else if bottom ≤ yday then (year, 1 + (yday - bottom).tdiv 7)
    else
      let year := year - 1
      yearWeek fuel year (yday + if IF_LEAPYEAR year then 366 else 365) wday

/-- The year and the week.  `bottom` is at most 3, and each round adds a year's days to `yday`. -/
def cal_year_week (t : Tm) : Int × Int :=
  yearWeek (t.tm_yday.natAbs + 5) (t.tm_year + 1900) t.tm_yday t.tm_wday

/-! ### The switch -/

section Switch

variable (zone : Zone) (t : Tm) (tv_usec : Int)

/-- The buffers that a case hands to `add_timeformat_to_string`, one after the other.  `here` is
`time_format[i]`, which the case of the years looks at. -/
def buffers (here : Char) : Specifier → List (List Char)
  | .FULL_DAY_NAME => [nameOf g_day_names t.tm_wday]
  | .NAME_DAY_WEEK_ABB => [nameOf g_day_names_short t.tm_wday]
  | .MILLI_SEC => [sprintf (.zeros 3) (tv_usec.tdiv 1000)]
  | .MICRO_SEC => [sprintf (.zeros 6) tv_usec]
  | .FULL_MON_NAME => [nameOf g_mnth_names t.tm_mon]
  | .ABBRE_MON_NAME | .ABBRE_MON_NAME_2 => [nameOf g_mnth_names_short t.tm_mon]
  | .CENTURY_NUMBER => [sprintf (.zeros 2) ((t.tm_year + 1900).tdiv 100)]
  | .DEC_DATE_MON => [sprintf (.zeros 2) t.tm_mday]
  | .DAY_AS_DECIMAL_0 => [sprintf (.blanks 2) t.tm_mday]
  | .HOUR_AS_24_CLK => [sprintf (.zeros 2) t.tm_hour]
  | .HOUR_AS_12_CLK =>
    if t.tm_hour.tmod 12 = 0 then [sprintf (.zeros 2) 12]
    else [sprintf (.zeros 2) (t.tm_hour.tmod 12)]
  | .HOUR_AS_24_SINGLE => [sprintf (.blanks 2) t.tm_hour]
  | .HOUR_AS_12_SINGLE =>
    [sprintf (.blanks 2) (if t.tm_hour.tmod 12 ≠ 0 then t.tm_hour.tmod 12 else 12)]
  | .DAY_AS_DECIMAL => [sprintf (.zeros 3) (t.tm_yday + 1)]
  | .MIN_AS_DECIMAL => [sprintf (.zeros 2) t.tm_min]
  | .MON_AS_DECIMAL => [sprintf (.zeros 2) (t.tm_mon + 1)]
  | .AM_PM => if 12 ≤ t.tm_hour then [['p', 'm']] else [['a', 'm']]
  | .NEW_LINE => [['\n']]
  | .SECONDS_AS_DEC => [sprintf (.zeros 2) t.tm_sec]
  -- "%lu"
  | .EPOCH_TIME => [sprintf .plain (zone.mktime t % 2 ^ 64)]
  | .TAB_CHARACTER => [['\t']]
  | .DAY_WEEK_AS_DEC => if t.tm_wday = 0 then [sprintf .plain 7] else [sprintf .plain t.tm_wday]
  | .WEEK_NUM_AS_DEC => [sprintf (.zeros 2) ((t.tm_yday + 7 - t.tm_wday).tdiv 7)]
  | .ISO_WEEK_NUM | .FOUR_DIG_YEAR | .TWO_DIG_YEAR =>
    let (yr, wk) := cal_year_week t
    if here = Specifier.ISO_WEEK_NUM.char then [sprintf (.zeros 2) wk]
    else if here = Specifier.TWO_DIG_YEAR.char then [sprintf (.zeros 2) (yr.tmod 100)]
    else [sprintf (.zeros 4) yr]
  | .DAY_OF_WEEK => [sprintf .plain t.tm_wday]
  | .WEEK_NUM_AS_DEC_MON =>
    [sprintf (.zeros 2)
      ((t.tm_yday + 7 - if t.tm_wday ≠ 0 then t.tm_wday - 1 else 6).tdiv 7)]
  | .YEAR_WIT_CEN => [sprintf (.zeros 4) (t.tm_year + 1900)]
  | .YEAR_WITHOUT_CEN => [sprintf (.zeros 2) ((t.tm_year + 1900).tmod 100)]
  | .TIMEZONE_NAME => [['?']]
  | .HOUR_MIN_OFFSET =>
    let temp_var := zone.timezone
    [if 0 ≤ temp_var then ['+'] else ['-'], sprintf (.zeros 2) (temp_var.tdiv 3600),
      sprintf (.zeros 2) ((temp_var.tmod 3600).tdiv 60)]
  | _ => []

/-- The format with which a case calls the function again. -/
def Specifier.again : Specifier → Option (List Char)
  | DATE_TIME => "%a %b %e %H:%M:%S %Y".toList
  | MON_DAY_YEAR => "%m/%d/%y".toList
  | YEAR_MON_DAY => "%Y-%m-%d".toList
  | RAND_VALUE_1 => "%Y-%m-%dT%H:%M:%S.%0".toList
  | TIME_HOUR_MIN => "%H:%M".toList
  | TIME_AM_PM => "%I:%M:%S %p".toList
  | TIME_IN_24_HOUR => "%H:%M:%S".toList
  | RAND_VALUE_2 => "%e-%b-%Y".toList
  | DATE_WITHOUT_TIME => "%m/%d/%y".toList
  | TIME_WITHOUT_DATE => "%H:%M:%S".toList
  | DATE_TIME_TZ => "%a, %d %b %Y %H:%M:%S %z".toList
  | _ => none

/-- `dest` and `max_limit`. -/
abbrev Dest := Space Char

def add_timeformat_to_string : List Char → Dest → Except Fault Dest
  | [], dest => .ok dest
  | c :: buffer, dest =>
    if dest.room = 0 then .ok dest
    else (dest.put .pastLimit c).bind (add_timeformat_to_string buffer)

/-- The cases of the switch. -/
def switch (format_time_into_specs : List Char → Dest → Except Fault Dest) (here : Char)
    (s : Specifier) (dest : Dest) : Except Fault Dest :=
  match s.again with
  | some time_format => format_time_into_specs time_format dest
  | none => (buffers zone t tv_usec here s).foldlM
      (fun dest buffer => add_timeformat_to_string buffer dest) dest

/-! ### The loop -/

/-- `time_format[i]`. -/
def charAt (time_format : List Char) (i : Int) : Except Fault Char :=
  if i < 0 ∨ time_format.length < i then .error .pastFormat
  else .ok (time_format.getD i.toNat '\x00')

/-- The end of a round: a character, if there is room for it.  `none` leaves the loop. -/
def copyNext (time_format : List Char) (i : Int) (dest : Dest) :
    Except Fault (Dest × Option Int) :=
  if dest.room = 0 then .ok (dest, none)
  else do
    let c ← charAt time_format (i + 1)
    let dest ← dest.put .pastLimit c
    return (dest, some (i + 2))

/-- A round of the loop. -/
def step (handle : Char → Specifier → Dest → Except Fault Dest) (time_format : List Char) (i : Int)
    (dest : Dest) : Except Fault (Dest × Option Int) := do
  let here ← charAt time_format i
  if here = '\x00' then return (dest, none)
  else if here = '%' then
    -- the modifiers are looked for where LITERAL has just been found
    let i := if here = 'E' then i + 1 else if here = 'O' then i + 1 else i
    let temp ← charAt time_format (i + 1)
    if temp = '\x00' then copyNext time_format (i - 1) dest
    else match Specifier.ofChar temp with
      | some s => do
        let dest ← handle here s dest
        return (dest, some (i + 1))
      | none => copyNext time_format i dest
  else copyNext time_format i dest

def loop (handle : Char → Specifier → Dest → Except Fault Dest) (time_format : List Char) :
    Nat → Int → Dest → Except Fault Dest
  | 0, _, _ => .error .unfinished
  | fuel + 1, i, dest => do
    let (dest, next) ← step handle time_format i dest
    match next with
    | none => return dest
    | some i => loop handle time_format fuel i dest

/-- `format_time_into_specs`, with at most `nesting` calls of itself inside of each other. -/
def specs : Nat → List Char → Dest → Except Fault Dest
  | 0, _, _ => .error .unfinished
  | nesting + 1, time_format, dest =>
    loop (switch zone t tv_usec (specs nesting)) time_format (time_format.length + 2) 0 dest

/-- `format_time_into_specs`.  The formats of its own call it no more. -/
def format_time_into_specs (time_format : List Char) (dest : Dest) : Except Fault Dest :=
  specs zone t tv_usec 2 time_format dest

/-- `format_time_into_string`: the length it returns, and what is left of the space. -/
def format_time_into_string (max_limit : Nat) (type_format : Option (List Char)) :
    Except Fault (Nat × Dest) := do
  let ptr ← format_time_into_specs zone t tv_usec (type_format.getD "%c".toList) ⟨[], max_limit⟩
  if ptr.room = 0 then return (0, ptr)
  else do
    let st ← ptr.put .pastLimit '\x00'
    return (ptr.written.length, st)

end Switch

end OpenairHss.Strftime
