import OpenairHss.FdJson.AddAvps
import Mathlib.Data.Nat.Log

/-!
# Dates as texts

`STime::Format` for the format `%i`, and `STime::ParseDateTime`, of `stime.cpp`, both in UTC.

The reader takes dates of many forms: it collects up to seven numbers with the signs that stand
between them (`scan`), takes some of them for the time of the day (`arrange`), and tries orders of day,
month and year for the rest (`determine_date`).  A year after 2037 becomes 2037.

`format_time_into_specs` reads behind the end of its format.  What it writes then stands behind a NUL,
and is no part of the text.
-/

namespace OpenairHss.Stime

open FdJson (Octets)

/-- `struct tm`, with `tm_isdst` 0. -/
structure Tm where
  tm_year : Int
  tm_mon : Int
  tm_mday : Int
  tm_hour : Int
  tm_min : Int
  tm_sec : Int
  deriving DecidableEq

/-- The calendar and the clock of the system. -/
structure System where
  gmtime : Int → Tm
  mktime : Tm → Int
  time : Int

namespace System

variable (sys : System)

/-- `mktime`, and once more for the hour before if it has answered -1. -/
def mktimeAgain (t : Tm) : Option Int :=
  let tl := sys.mktime t
  if tl ≠ -1 then some tl
  else
    let tl := sys.mktime { t with tm_hour := t.tm_hour - 1 }
    if tl = -1 then none else some (tl + 3600)

def timegm (t : Tm) : Int :=
  match sys.mktimeAgain t with
  | none => -1
  | some tl => match sys.mktimeAgain (sys.gmtime tl) with
    | none => -1
    | some tb => tl - (tb - tl)

end System

/-! ### Writing -/

/-- `%0*u`. -/
def decimal (width n : Nat) : Octets :=
  (List.range (max width (Nat.log 10 n + 1))).reverse.map fun i => UInt8.ofNat (0x30 + n / 10 ^ i % 10)

/-- `convert_date_time_format (n, "%0*d", ..)`. -/
def convert (width : Nat) (n : Int) : Octets :=
  if n < 0 then 0x2D :: decimal (width - 1) n.natAbs else decimal width n.toNat

/-- `STime::Format (.., "%i", false)`, which is "%Y-%m-%dT%H:%M:%S.%0". -/
def System.format (sys : System) (tv_sec tv_usec : Int) : Octets :=
  let t := sys.gmtime tv_sec
  convert 4 (t.tm_year + 1900) ++ 0x2D :: (convert 2 (t.tm_mon + 1) ++ 0x2D :: (convert 2 t.tm_mday
    ++ 0x54 :: (convert 2 t.tm_hour ++ 0x3A :: (convert 2 t.tm_min ++ 0x3A :: (convert 2 t.tm_sec
    ++ 0x2E :: convert 3 (tv_usec.tdiv 1000))))))

/-! ### Reading -/

/-- A number, with its flags. -/
structure Field where
  value : BitVec 32 := 0
  timeSep : Bool := false
  dateSep : Bool := false
  monthSep : Bool := false
  amSep : Bool := false
  pmSep : Bool := false

/-- `parse_date`: the fields in their order, and the flags of `field_parse_flags`. -/
structure ParseDate where
  fields : List Field := []
  amSep : Bool := false
  pmSep : Bool := false
  /-- `dwDateSeps`. -/
  dateSeps : Nat := 0

namespace ParseDate

def push (pd : ParseDate) (f : Field) : ParseDate := { pd with fields := pd.fields ++ [f] }

/-- The flags of the last field are set. -/
def mark (pd : ParseDate) (g : Field → Field) : ParseDate :=
  { pd with fields := pd.fields.modify (pd.fields.length - 1) g }

/-- `field_flags[i]` and `field_values[i]`. -/
def field (pd : ParseDate) (i : Nat) : Field := pd.fields.getD i {}

/-- AM_SEP or PM_SEP of a field. -/
def half (pd : ParseDate) (i : Nat) : Bool := (pd.field i).amSep || (pd.field i).pmSep

/-- AM_SEP or PM_SEP of any. -/
def anyHalf (pd : ParseDate) : Bool := pd.amSep || pd.pmSep

def int (pd : ParseDate) (i : Nat) : Int := (pd.field i).value.toInt

end ParseDate

def isdigit (c : UInt8) : Bool := decide (0x30 ≤ c ∧ c ≤ 0x39)

def isalpha (c : UInt8) : Bool := decide ((0x41 ≤ c ∧ c ≤ 0x5A) ∨ (0x61 ≤ c ∧ c ≤ 0x7A))

def isspace (c : UInt8) : Bool := decide (c = 0x20 ∨ (0x09 ≤ c ∧ c ≤ 0x0D))

def tolower (c : UInt8) : UInt8 := if 0x41 ≤ c ∧ c ≤ 0x5A then c + 0x20 else c

/-- `strtoul`, into a `uint32_t`. -/
def strtoul (digits : Octets) : BitVec 32 :=
  BitVec.ofNat 32 (min (digits.foldl (fun n c => n * 10 + (c.toNat - 0x30)) 0) (2 ^ 64 - 1))

inductive Token
  | month (n : BitVec 32)
  | day
  | am
  | pm

/-- The words, in lower case. -/
def tokens : List (String × Token) :=
  [("january", .month 1), ("february", .month 2), ("march", .month 3), ("april", .month 4),
    ("may", .month 5), ("june", .month 6), ("july", .month 7), ("august", .month 8),
    ("september", .month 9), ("october", .month 10), ("november", .month 11),
    ("december", .month 12), ("jan", .month 1), ("feb", .month 2), ("mar", .month 3),
    ("apr", .month 4), ("may", .month 5), ("jun", .month 6), ("jul", .month 7), ("aug", .month 8),
    ("sep", .month 9), ("oct", .month 10), ("nov", .month 11), ("dec", .month 12), ("monday", .day),
    ("tuesday", .day), ("wednesday", .day), ("thursday", .day), ("friday", .day),
    ("saturday", .day), ("sunday", .day), ("mon", .day), ("tue", .day), ("wed", .day),
    ("thu", .day), ("fri", .day), ("sat", .day), ("sun", .day), ("am", .am), ("pm", .pm)]

/-- `!strncasecmp (text, token, strlen (token))`. -/
def startsWith (text : Octets) (token : String) : Bool :=
  (token.toList.map fun c => UInt8.ofNat c.toNat).isPrefixOf (text.map tolower)

/-- A letter for the half of the day. -/
def halfOf (c : UInt8) : Option Token :=
  if c = 0x61 ∨ c = 0x41 then some .am else if c = 0x70 ∨ c = 0x50 then some .pm else none

/-- The half of the day is set. -/
def ParseDate.markHalf (pd : ParseDate) (pm : Bool) : ParseDate :=
  if pm then { pd.mark fun f => { f with pmSep := true } with pmSep := true }
  else { pd.mark fun f => { f with amSep := true } with amSep := true }

/-- The loop over the text; `none` is a text that is not a date.  It ends within as many rounds as
the text has characters. -/
def scan : Nat → ParseDate → Octets → Option ParseDate
  | 0, pd, _ => some pd
  | _ + 1, pd, [] => some pd
  | fuel + 1, pd, c :: rest =>
    if 7 ≤ pd.fields.length then some pd
    else if isdigit c then
      scan fuel (pd.push { value := strtoul ((c :: rest).takeWhile isdigit) })
        ((c :: rest).dropWhile isdigit)
    else if isalpha c then
      match tokens.find? fun t => startsWith (c :: rest) t.1 with
      | some (name, token) =>
        let behind := (c :: rest).drop name.length
        match token with
        | .month n => scan fuel (pd.push { value := n, monthSep := true, dateSep := true }) behind
        | .day => scan fuel pd behind
        | .am => if pd.fields = [] ∨ pd.anyHalf then none else scan fuel (pd.markHalf false) behind
        | .pm => if pd.fields = [] ∨ pd.anyHalf then none else scan fuel (pd.markHalf true) behind
      | none =>
        -- a single letter for the half of the day takes the character after it with it
        if (halfOf c).isSome ∧ pd.fields ≠ [] ∧ ¬ pd.anyHalf then
          scan fuel (pd.markHalf (c = 0x70 ∨ c = 0x50)) rest.tail
        else if c = 0x54 then scan fuel pd rest
        else none
    else if c = 0x3A ∨ c = 0x2E then
      if pd.fields = [] ∨ rest = [] then none
      else scan fuel (pd.mark fun f => { f with timeSep := true }) rest
    else if c = 0x2D ∨ c = 0x2F then
      let pd := { pd with dateSeps := pd.dateSeps + 1 }
      if 2 < pd.dateSeps ∨ pd.fields = [] ∨ rest = [] then none
      else scan fuel (pd.mark fun f => { f with dateSep := true }) rest
    else if c = 0x2C ∨ isspace c then
      if c = 0x2C ∧ rest = [] then none else scan fuel pd rest
    else none

/-- What is taken for the time of the day, and where the fields of the date are. -/
structure Arranged where
  tm_hour : Int := 0
  tm_min : Int := 0
  tm_sec : Int := 0
  field_count : Nat
  dwOffset : Nat := 0

/-- DDDTT, and what falls through to it. -/
def arrangeDate (pd : ParseDate) : Option Arranged :=
  let n := pd.fields.length
  if (n = 2 ∧ pd.anyHalf) ∨ (n = 5 ∧ (pd.half 0 ∨ pd.half 1 ∨ pd.half 2)) ∨ n = 4 ∨ n = 6 then none
  else some
    { tm_hour := pd.int 3, tm_min := pd.int 4, field_count := if n = 5 then 3 else n }

/-- The switch over the fields with a time separator. -/
def arrange (pd : ParseDate) : Option Arranged :=
  let n := pd.fields.length
  match (pd.field 0).timeSep, (pd.field 1).timeSep, (pd.field 2).timeSep, (pd.field 3).timeSep,
    (pd.field 4).timeSep with
  | true, false, false, false, false =>
    if 3 < n ∧ (pd.half 2 ∨ pd.half 3 ∨ pd.half 4) then none
    else if n ≠ 2 ∧ n ≠ 4 ∧ n ≠ 5 then none
    else some { tm_hour := pd.int 0, tm_min := pd.int 1, field_count := n - 2, dwOffset := 2 }
  | true, true, false, false, false =>
    if 4 < n ∧ (pd.half 3 ∨ pd.half 4 ∨ pd.half 5) then none
    else if n ≠ 3 ∧ n ≠ 5 ∧ n ≠ 6 then none
    else some
      { tm_hour := pd.int 0, tm_min := pd.int 1, tm_sec := pd.int 2, field_count := n - 3,
        dwOffset := 3 }
  | false, false, true, false, false =>
    if n ≠ 4 ∨ pd.half 0 ∨ pd.half 1 then none
    else some { tm_hour := pd.int 2, tm_min := pd.int 3, field_count := n - 2 }
  | false, false, false, false, false =>
    if n = 1 ∧ pd.anyHalf then some { tm_hour := pd.int 0, field_count := 0 }
    else if 4 < n ∨ (n < 3 ∧ pd.anyHalf) then none
    else if n = 3 then
      if pd.half 0 then some { tm_hour := pd.int 0, field_count := 2, dwOffset := 1 }
      else if pd.half 2 then some { tm_hour := pd.int 2, field_count := 2 }
      else if pd.anyHalf then none
      else arrangeDate pd
    else if n = 4 then
      if pd.half 0 then some { tm_hour := pd.int 0, field_count := 3, dwOffset := 1 }
      else if pd.half 3 then some { tm_hour := pd.int 3, field_count := 3 }
      else none
    else arrangeDate pd
  | false, false, false, true, false => arrangeDate pd
  | false, false, true, true, false =>
    if n ≠ 5 ∨ pd.half 0 ∨ pd.half 1 then none
    else some
      { tm_hour := pd.int 2, tm_min := pd.int 3, tm_sec := pd.int 4, field_count := n - 3 }
  | false, false, false, true, true =>
    if pd.half 0 ∨ pd.half 1 ∨ pd.half 2 then none
    else some
      { tm_hour := pd.int 3, tm_min := pd.int 4, tm_sec := pd.int 5, field_count := n - 3 }
  | _, _, _, _, _ => none

/-- An `int` as a `uint32_t`. -/
def u32 (n : Int) : Nat := (BitVec.ofInt 32 n).toNat

def IF_LEAPYEAR (year : Nat) : Bool := year % 4 = 0 && (year % 100 ≠ 0 || year % 400 = 0)

def validate_date (day month year : Int) : Bool :=
  let numg_day_names :=
    if u32 month = 2 then if IF_LEAPYEAR (u32 year) then 29 else 28
    else if u32 month = 4 ∨ u32 month = 6 ∨ u32 month = 9 ∨ u32 month = 11 then 30
    else 31
  decide (1 ≤ u32 month ∧ u32 month ≤ 12 ∧ 1 ≤ u32 day ∧ u32 day ≤ numg_day_names)

def giveYear (year : Int) : Int :=
  if year < 30 then 2000 + year else if year < 100 then 1900 + year else year

def create_date (pd : ParseDate) (t : Arranged) (day month year : Int) : Option Tm :=
  if 23 < t.tm_hour ∨ 59 < t.tm_min ∨ 59 < t.tm_sec then none
  else some
    { tm_hour :=
        if t.tm_hour < 12 ∧ pd.pmSep then t.tm_hour + 12
        else if t.tm_hour = 12 ∧ pd.amSep then 0
        else t.tm_hour
      tm_min := t.tm_min
      tm_sec := t.tm_sec
      tm_mday := day
      tm_mon := month
      tm_year := giveYear year }

def MON_DAY_YEAR_ORDER : BitVec 32 := 1
def YEAR_MON_DAY_ORDER : BitVec 32 := 2
def YEAR_DAY_MON_ORDER : BitVec 32 := 4
def DAY_MON_YEAR_ORDER : BitVec 32 := 8
def MON_YEAR_DAY_ORDER : BitVec 32 := 16

/-- The loop of `initiate_and_create_date`, which ends when the counter reaches the orders that are
left, taken as a number; `none` is its end without an answer. -/
def tryOrders (pd : ParseDate) (t : Arranged) (date : Nat) (day month year : Int) :
    Nat → Nat → BitVec 32 → Option (Option Tm)
  | 0, _, _ => none
  | fuel + 1, i, date_order =>
    let day_try :=
      if i = 1 then
        if date = 1 then
          date_order &&& ~~~ (MON_DAY_YEAR_ORDER ||| YEAR_MON_DAY_ORDER ||| MON_YEAR_DAY_ORDER)
        else date_order &&& ~~~ (DAY_MON_YEAR_ORDER ||| YEAR_DAY_MON_ORDER)
      else date_order
    if date_order.toNat ≤ i then none
    else if day_try &&& MON_DAY_YEAR_ORDER ≠ 0 then
      if validate_date month day year then some (create_date pd t month day year)
      else tryOrders pd t date day month year fuel (i + 1) (date_order &&& ~~~ MON_DAY_YEAR_ORDER)
    else if day_try &&& YEAR_MON_DAY_ORDER ≠ 0 then
      if validate_date year month day then some (create_date pd t year month day)
      else tryOrders pd t date day month year fuel (i + 1) (date_order &&& ~~~ YEAR_MON_DAY_ORDER)
    else if day_try &&& YEAR_DAY_MON_ORDER ≠ 0 then
      if validate_date month year day then some (create_date pd t month year day)
      else tryOrders pd t date day month year fuel (i + 1) (date_order &&& ~~~ YEAR_DAY_MON_ORDER)
    else if day_try &&& DAY_MON_YEAR_ORDER ≠ 0 then
      if validate_date day month year then some (create_date pd t day month year)
      else tryOrders pd t date day month year fuel (i + 1) (date_order &&& ~~~ DAY_MON_YEAR_ORDER)
    else if day_try &&& MON_YEAR_DAY_ORDER ≠ 0 then
      if validate_date year day month then some (create_date pd t year day month)
      else tryOrders pd t date day month year fuel (i + 1) (date_order &&& ~~~ MON_YEAR_DAY_ORDER)
    else tryOrders pd t date day month year fuel (i + 1) date_order

/-- `initiate_and_create_date`: two fields are tried once more, as a month and a year. -/
def initiate_and_create_date (pd : ParseDate) (t : Arranged) (date : Nat) (date_order : BitVec 32)
    (day month year : Int) : Option Tm :=
  match tryOrders pd t date day month year 32 0 date_order with
  | some answer => answer
  | none =>
    if t.field_count = 2 then
      (tryOrders pd t date day month 1 32 0 (YEAR_MON_DAY_ORDER ||| MON_YEAR_DAY_ORDER)).join
    else none

def determine_date (sys : System) (pd : ParseDate) (date : Nat) (t : Arranged) : Option Tm :=
  let seek := t.dwOffset
  if t.field_count = 0 then create_date pd t 30 12 1899
  else
    let day := pd.int seek
    let month := pd.int (seek + 1)
    let year := if t.field_count = 2 then (sys.gmtime sys.time).tm_year + 1900 else pd.int (seek + 2)
    let date_order :=
      if (pd.field seek).monthSep then MON_DAY_YEAR_ORDER
      else if (pd.field (seek + 1)).monthSep then
        if 2 < t.field_count then DAY_MON_YEAR_ORDER ||| YEAR_MON_DAY_ORDER else DAY_MON_YEAR_ORDER
      else if 2 < t.field_count ∧ (pd.field (seek + 2)).monthSep then YEAR_DAY_MON_ORDER
      else if 2 < t.field_count then
        MON_DAY_YEAR_ORDER ||| DAY_MON_YEAR_ORDER ||| (YEAR_MON_DAY_ORDER ||| YEAR_DAY_MON_ORDER)
      else MON_DAY_YEAR_ORDER ||| DAY_MON_YEAR_ORDER
    initiate_and_create_date pd t date date_order day month year

/-- The years that are too late. -/
def Tm.limit (t : Tm) : Tm :=
  if 2037 < t.tm_year then
    { t with tm_year := 2037, tm_mon := 12, tm_hour := 23, tm_min := 59, tm_sec := 59 }
  else t

/-- The date that `DateFromStr` finds, with a month from 1 to 12. -/
def System.dateOf (sys : System) (strIn : Octets) : Option Tm := do
  let pd ← scan strIn.length {} strIn
  if pd.fields = [] ∨ (pd.fields.length = 1 ∧ ¬ pd.anyHalf) then none
  else
    let t ← arrange pd
    determine_date sys pd 0 t

/-- `DateFromStr`, without `isLocal`: the seconds that are set. -/
def System.DateFromStr (sys : System) (strIn : Octets) : Int :=
  match sys.dateOf strIn with
  | none => 0
  | some t =>
    let t := t.limit
    sys.timegm { t with tm_year := t.tm_year - 1900, tm_mon := t.tm_mon - 1 }

def System.ParseDateTime (sys : System) (pszDate : Octets) : Int := sys.DateFromStr pszDate

end OpenairHss.Stime
