import OpenairHss.Stime.DateTime
import Mathlib.Tactic.Common
import Mathlib.Tactic.IntervalCases

/-!
# A date that is written is read back

* `scan_written`: the numbers and the signs of a text that is written as ISO 8601 has it.
* `determine_collected`: the first number is the year, since it is no month.
* `ParseDateTime_format`: the date is read as it was written, but for the years after 2037.
-/

namespace OpenairHss.Stime

open FdJson (Octets)

/-! ### Digits -/

def digit (k : Nat) : UInt8 := UInt8.ofNat (0x30 + k % 10)

theorem digit_mod : ∀ k < 10, isdigit (UInt8.ofNat (0x30 + k)) = true ∧
    (UInt8.ofNat (0x30 + k)).toNat - 0x30 = k := by
  decide

theorem isdigit_digit (k : Nat) : isdigit (digit k) = true :=
  (digit_mod (k % 10) (Nat.mod_lt _ (by omega))).1

theorem toNat_digit (k : Nat) : (digit k).toNat - 0x30 = k % 10 :=
  (digit_mod (k % 10) (Nat.mod_lt _ (by omega))).2

/-- A number that fits into the width. -/
theorem convert_eq {width n : Nat} (hw : 0 < width) (hn : n < 10 ^ width) :
    convert width (n : Int) = (List.range width).reverse.map fun i => digit (n / 10 ^ i) := by
  have hlog : Nat.log 10 n + 1 ≤ width := by
    have := Nat.log_lt_of_lt_pow' (b := 10) (by omega) hn
    omega
  rw [convert, if_neg (by omega), decimal, Int.toNat_natCast, max_eq_left hlog]
  rfl

theorem convert_two {n : Nat} (hn : n < 100) : convert 2 (n : Int) = [digit (n / 10), digit n] := by
  rw [convert_eq (by omega) hn]
  simp [List.range_succ]

theorem convert_four {n : Nat} (hn : n < 10000) :
    convert 4 (n : Int) = [digit (n / 1000), digit (n / 100), digit (n / 10), digit n] := by
  rw [convert_eq (by omega) hn]
  simp [List.range_succ]

theorem strtoul_two {n : Nat} (hn : n < 100) :
    strtoul [digit (n / 10), digit n] = BitVec.ofNat 32 n := by
  simp only [strtoul, List.foldl_cons, List.foldl_nil, toNat_digit]
  congr 1
  omega

theorem strtoul_four {n : Nat} (hn : n < 10000) :
    strtoul [digit (n / 1000), digit (n / 100), digit (n / 10), digit n] = BitVec.ofNat 32 n := by
  simp only [strtoul, List.foldl_cons, List.foldl_nil, toNat_digit]
  congr 1
  omega

theorem toInt_ofNat {n : Nat} (hn : n < 10000) : (BitVec.ofNat 32 n).toInt = n := by
  have hnat : (BitVec.ofNat 32 n).toNat = n := by
    rw [BitVec.toNat_ofNat]
    omega
  rw [BitVec.toInt_eq_toNat_of_lt (by omega), hnat]

theorem u32_natCast {n : Nat} (hn : n < 10000) : u32 (n : Int) = n := by
  rw [u32, BitVec.ofInt_natCast, BitVec.toNat_ofNat]
  omega

/-! ### The loop over the text -/

section Scan

variable {fuel : Nat} {pd : ParseDate} {rest : Octets}

theorem scan_nil : scan fuel pd [] = some pd := by cases fuel <;> rfl

/-- A number. -/
theorem scan_number {digits : Octets} (hdigits : ∀ c ∈ digits, isdigit c = true)
    (hne : digits ≠ []) (hrest : rest.takeWhile isdigit = [] ∧ rest.dropWhile isdigit = rest)
    (hlen : pd.fields.length < 7) :
    scan (fuel + 1) pd (digits ++ rest) = scan fuel (pd.push { value := strtoul digits }) rest := by
  cases digits with
  | nil => exact absurd rfl hne
  | cons c digits =>
    have htake : (c :: (digits ++ rest)).takeWhile isdigit = c :: digits := by
      rw [← List.cons_append, List.takeWhile_append_of_pos hdigits, hrest.1, List.append_nil]
    have hdrop : (c :: (digits ++ rest)).dropWhile isdigit = rest := by
      rw [← List.cons_append, List.dropWhile_append_of_pos hdigits, hrest.2]
    rw [List.cons_append, scan, if_neg (by omega), if_pos (hdigits c List.mem_cons_self), htake, hdrop]

/-- A sign of a date. -/
theorem scan_dash (hlen : pd.fields.length < 7) (hfields : pd.fields ≠ []) (hrest : rest ≠ [])
    (hseps : pd.dateSeps < 2) :
    scan (fuel + 1) pd (0x2D :: rest)
      = scan fuel ({ pd with dateSeps := pd.dateSeps + 1 }.mark fun f => { f with dateSep := true })
          rest := by
  have hcond : ¬ (2 < pd.dateSeps + 1 ∨ pd.fields = [] ∨ rest = []) := by
    rintro (h | h | h)
    · omega
    · exact hfields h
    · exact hrest h
  rw [scan, if_neg (by omega), if_neg (by decide), if_neg (by decide), if_neg (by decide),
    if_pos (by decide), if_neg hcond]

/-- A sign of a time. -/
theorem scan_colon {c : UInt8} (hc : c = 0x3A ∨ c = 0x2E) (hlen : pd.fields.length < 7)
    (hfields : pd.fields ≠ []) (hrest : rest ≠ []) :
    scan (fuel + 1) pd (c :: rest)
      = scan fuel (pd.mark fun f => { f with timeSep := true }) rest := by
  have hcond : ¬ (pd.fields = [] ∨ rest = []) := by
    rintro (h | h)
    · exact hfields h
    · exact hrest h
  have hno : isdigit c = false ∧ isalpha c = false := by
    rcases hc with rfl | rfl <;> decide
  rw [scan, if_neg (by omega), if_neg (by simp [hno.1]), if_neg (by simp [hno.2]), if_pos hc,
    if_neg hcond]

/-- No word begins with a T and a digit. -/
theorem tokens_T {d : UInt8} (hd : isdigit d = true) :
    (tokens.find? fun t => startsWith (0x54 :: d :: rest) t.1) = none := by
  have hlower : tolower d = d := by
    rw [tolower, if_neg]
    simp only [isdigit, decide_eq_true_iff] at hd
    intro h
    exact absurd (UInt8.le_trans h.1 hd.2) (by decide)
  have hword : ∀ t ∈ tokens, (∃ c ∈ (t.1.toList.map fun c => UInt8.ofNat c.toNat)[0]?, c ≠ 0x74) ∨
      ∃ c ∈ (t.1.toList.map fun c => UInt8.ofNat c.toNat)[1]?, isdigit c = false := by
    decide
  refine List.find?_eq_none.mpr fun t ht hstarts => ?_
  obtain ⟨behind, heq⟩ := List.isPrefixOf_iff_prefix.mp hstarts
  have hat : ∀ (i : Nat) (c : UInt8), (t.1.toList.map fun c => UInt8.ofNat c.toNat)[i]? = some c →
      ((0x54 :: d :: rest).map tolower)[i]? = some c := by
    intro i c hc
    rw [← heq, List.getElem?_append_left (List.getElem?_eq_some_iff.mp hc).1, hc]
  rcases hword t ht with ⟨c, hc, hne⟩ | ⟨c, hc, hno⟩
  · exact hne (Option.some.inj (hat 0 c hc)).symm
  · have hcd : d = c := hlower ▸ Option.some.inj (hat 1 c hc)
    rw [← hcd, hd] at hno
    exact absurd hno nofun

/-- The T between the date and the time. -/
theorem scan_T {d : UInt8} (hd : isdigit d = true) (hlen : pd.fields.length < 7) :
    scan (fuel + 1) pd (0x54 :: d :: rest) = scan fuel pd (d :: rest) := by
  rw [scan, if_neg (by omega), if_neg (by decide), if_pos (by decide), tokens_T hd]
  have hhalf : ¬ ((halfOf 0x54).isSome = true ∧ pd.fields ≠ [] ∧ ¬ pd.anyHalf = true) :=
    fun h => absurd h.1 (by decide)
  exact (if_neg hhalf).trans (if_pos rfl)

end Scan

/-! ### The text of a date -/

def two (n : Nat) : Octets := [digit (n / 10), digit n]

def four (n : Nat) : Octets := [digit (n / 1000), digit (n / 100), digit (n / 10), digit n]

theorem isdigit_two {n : Nat} : ∀ c ∈ two n, isdigit c = true := by
  simp [two, isdigit_digit]

theorem isdigit_four {n : Nat} : ∀ c ∈ four n, isdigit c = true := by
  simp [four, isdigit_digit]

structure Numbers where
  year : Nat
  month : Nat
  day : Nat
  hour : Nat
  minute : Nat
  second : Nat

/-- They have two digits, but for the year. -/
structure Numbers.Small (n : Numbers) : Prop where
  year : n.year < 10000
  month : n.month < 100
  day : n.day < 100
  hour : n.hour < 100
  minute : n.minute < 100
  second : n.second < 100

/-- The text, with no milliseconds. -/
def Numbers.text (n : Numbers) : Octets :=
  four n.year ++ 0x2D :: (two n.month ++ 0x2D :: (two n.day ++ 0x54 :: (two n.hour ++ 0x3A ::
    (two n.minute ++ 0x3A :: (two n.second ++ 0x2E :: [0x30, 0x30, 0x30])))))

/-- What is collected of it. -/
def Numbers.parsed (n : Numbers) : ParseDate where
  fields := [{ value := BitVec.ofNat 32 n.year, dateSep := true },
    { value := BitVec.ofNat 32 n.month, dateSep := true }, { value := BitVec.ofNat 32 n.day },
    { value := BitVec.ofNat 32 n.hour, timeSep := true },
    { value := BitVec.ofNat 32 n.minute, timeSep := true },
    { value := BitVec.ofNat 32 n.second, timeSep := true }, { value := 0 }]
  dateSeps := 2

theorem scan_T_two {fuel n : Nat} {pd : ParseDate} {rest : Octets} (hlen : pd.fields.length < 7) :
    scan (fuel + 1) pd (0x54 :: (two n ++ rest)) = scan fuel pd (two n ++ rest) :=
  scan_T (isdigit_digit _) hlen

/-- The number at the end. -/
theorem scan_last {fuel : Nat} {pd : ParseDate} {digits : Octets}
    (hdigits : ∀ c ∈ digits, isdigit c = true) (hne : digits ≠ []) (hlen : pd.fields.length < 7) :
    scan (fuel + 1) pd digits = some (pd.push { value := strtoul digits }) := by
  have h : scan (fuel + 1) pd (digits ++ []) = scan fuel (pd.push { value := strtoul digits }) [] :=
    scan_number hdigits hne ⟨rfl, rfl⟩ hlen
  rwa [List.append_nil, scan_nil] at h

def three (n : Nat) : Octets := [digit (n / 100), digit (n / 10), digit n]

/-- The milliseconds of a fraction, if there is one. -/
def millis (ms : Option (Fin 1000)) : Nat := ms.elim 0 Fin.val

/-- The fraction as a text. -/
def fraction : Option (Fin 1000) → Octets
  | none => []
  | some ms => 0x2E :: three ms

/-- "YYYY-MM-DD", a separator, "HH:MM:SS" and the fraction. -/
def Numbers.written (n : Numbers) (sep : UInt8) (ms : Option (Fin 1000)) : Octets :=
  four n.year ++ 0x2D :: (two n.month ++ 0x2D :: (two n.day ++ sep :: (two n.hour ++ 0x3A ::
    (two n.minute ++ 0x3A :: (two n.second ++ fraction ms)))))

/-- What is collected of it. -/
def Numbers.collected (n : Numbers) (ms : Option (Fin 1000)) : ParseDate where
  fields := [{ value := BitVec.ofNat 32 n.year, dateSep := true },
    { value := BitVec.ofNat 32 n.month, dateSep := true }, { value := BitVec.ofNat 32 n.day },
    { value := BitVec.ofNat 32 n.hour, timeSep := true },
    { value := BitVec.ofNat 32 n.minute, timeSep := true },
    { value := BitVec.ofNat 32 n.second, timeSep := ms.isSome }] ++
    ms.toList.map fun m => { value := BitVec.ofNat 32 m.val }
  dateSeps := 2

theorem millis_lt (ms : Option (Fin 1000)) : millis ms < 1000 := by
  cases ms with
  | none => exact Nat.zero_lt_succ _
  | some m => exact m.isLt

section Scan

variable {fuel : Nat} {pd : ParseDate} {rest : Octets}

theorem strtoul_three {n : Nat} (hn : n < 1000) : strtoul (three n) = BitVec.ofNat 32 n := by
  simp only [strtoul, three, List.foldl_cons, List.foldl_nil, toNat_digit]
  congr 1
  omega

theorem isdigit_three {n : Nat} : ∀ c ∈ three n, isdigit c = true := by
  simp [three, isdigit_digit]

/-- The blank between the date and the time. -/
theorem scan_space (hlen : pd.fields.length < 7) :
    scan (fuel + 1) pd (0x20 :: rest) = scan fuel pd rest := by
  rw [scan, if_neg (by omega), if_neg (by decide), if_neg (by decide), if_neg (by decide),
    if_neg (by decide), if_pos (by decide), if_neg (fun h => absurd h.1 (by decide))]

/-- The sign between the date and the time. -/
theorem scan_sep {sep : UInt8} (hsep : sep = 0x54 ∨ sep = 0x20) {n : Nat}
    (hlen : pd.fields.length < 7) :
    scan (fuel + 1) pd (sep :: (two n ++ rest)) = scan fuel pd (two n ++ rest) := by
  rcases hsep with rfl | rfl
  · exact scan_T_two hlen
  · exact scan_space hlen

/-- The seconds and the fraction. -/
theorem scan_seconds {s : Nat} (hs : s < 100) (ms : Option (Fin 1000))
    (hlen : pd.fields.length = 5) :
    scan (fuel + 3) pd (two s ++ fraction ms) = some { pd with
      fields := pd.fields ++ { value := BitVec.ofNat 32 s, timeSep := ms.isSome } ::
        ms.toList.map fun m => { value := BitVec.ofNat 32 m.val } } := by
  have htwo : strtoul (two s) = BitVec.ofNat 32 s := strtoul_two hs
  cases ms with
  | none =>
    rw [fraction, List.append_nil, scan_last isdigit_two (List.cons_ne_nil _ _) (by omega), htwo]
    rfl
  | some m =>
    have hpush : (pd.push { value := BitVec.ofNat 32 s }).fields.length = 6 := by
      simp [ParseDate.push, hlen]
    have hmark : ((pd.push { value := BitVec.ofNat 32 s }).mark fun f =>
        { f with timeSep := true }).fields.length < 7 := by
      simp [ParseDate.push, ParseDate.mark, hlen]
    have hthree : three m ≠ [] := List.cons_ne_nil _ _
    rw [fraction, scan_number isdigit_two (List.cons_ne_nil _ _) ⟨rfl, rfl⟩ (by omega), htwo,
      scan_colon (Or.inr rfl) (by omega) (List.ne_nil_of_length_pos (by omega)) hthree,
      scan_last isdigit_three hthree hmark, strtoul_three m.isLt]
    simp [ParseDate.push, ParseDate.mark, List.modify_eq_take_drop]

/-- **The loop over such a text.** -/
theorem scan_written {n : Numbers} (hn : n.Small) {sep : UInt8} (hsep : sep = 0x54 ∨ sep = 0x20)
    (ms : Option (Fin 1000)) :
    scan (n.written sep ms).length {} (n.written sep ms) = some (n.collected ms) := by
  have hsigns : isdigit 0x2D = false ∧ isdigit 0x3A = false := by decide
  have hsepdigit : isdigit sep = false := by rcases hsep with rfl | rfl <;> decide
  have hlen : (n.written sep ms).length = (16 + (fraction ms).length) + 3 := by
    simp [Numbers.written, four, two]
    omega
  rw [hlen, Numbers.written]
  have hfuel : ∃ k, 16 + (fraction ms).length + 3 = k + 3 + 10 := ⟨6 + (fraction ms).length, by omega⟩
  obtain ⟨k, hk⟩ := hfuel
  rw [hk]
  rw [scan_number isdigit_four, scan_dash, scan_number isdigit_two, scan_dash,
    scan_number isdigit_two, scan_sep hsep]
  · rw [scan_number isdigit_two, scan_colon (Or.inl rfl), scan_number isdigit_two,
      scan_colon (Or.inl rfl), scan_seconds hn.second]
    · simp [ParseDate.push, ParseDate.mark, Numbers.collected, four, two, strtoul_four hn.year,
        strtoul_two hn.month, strtoul_two hn.day, strtoul_two hn.hour, strtoul_two hn.minute]
    all_goals simp [ParseDate.push, ParseDate.mark, two, hsigns]
  all_goals simp [ParseDate.push, ParseDate.mark, two, four, hsigns, hsepdigit]

end Scan

/-- The loop over a text that was written. -/
theorem scan_text {n : Numbers} (hn : n.Small) : scan n.text.length {} n.text = some n.parsed :=
  scan_written hn (Or.inl rfl) (some 0)

/-! ### The date -/

/-- A date of the calendar, with a year of four digits. -/
structure Numbers.Valid (n : Numbers) : Prop where
  year : 1000 ≤ n.year ∧ n.year < 10000
  month : n.month ≤ 12
  day : n.day ≤ 31
  date : validate_date n.day n.month n.year = true
  hour : n.hour ≤ 23
  minute : n.minute ≤ 59
  second : n.second ≤ 59

theorem Numbers.Valid.small {n : Numbers} (hn : n.Valid) : n.Small := by
  obtain ⟨hy, hm, hd, -, hh, hmin, hs⟩ := hn
  constructor <;> omega

/-- What is taken for the time of the day. -/
theorem arrange_collected {n : Numbers} (ms : Option (Fin 1000)) (hn : n.Valid) : arrange (n.collected ms) = some
    { tm_hour := n.hour, tm_min := n.minute, tm_sec := n.second,
      field_count := if ms.isSome then 4 else 3 } := by
  have hh := toInt_ofNat (n := n.hour) (by have := hn.hour; omega)
  have hmin := toInt_ofNat (n := n.minute) (by have := hn.minute; omega)
  have hs := toInt_ofNat (n := n.second) (by have := hn.second; omega)
  cases ms <;>
    simp [arrange, Numbers.collected, ParseDate.field, ParseDate.half, ParseDate.int, hh, hmin, hs]

theorem arrange_parsed {n : Numbers} (hn : n.Valid) :
    arrange n.parsed = some
      { tm_hour := n.hour, tm_min := n.minute, tm_sec := n.second, field_count := 4 } :=
  arrange_collected (some 0) hn

/-- **The order of the date**: a year is no month, and then the year is the first number. -/
theorem tryOrders_year {pd : ParseDate} {t : Arranged} {n : Numbers} (hn : n.Valid) :
    tryOrders pd t 0 n.year n.month n.day 32 0
        (MON_DAY_YEAR_ORDER ||| DAY_MON_YEAR_ORDER ||| (YEAR_MON_DAY_ORDER ||| YEAR_DAY_MON_ORDER))
      = some (create_date pd t n.day n.month n.year) := by
  have hyear : validate_date n.month n.year n.day = false := by
    have hy := hn.year
    rw [validate_date, u32_natCast hy.2]
    exact decide_eq_false fun h => by omega
  rw [tryOrders, if_neg (by decide), if_pos (by decide), hyear, if_neg Bool.false_ne_true, tryOrders,
    if_neg (by decide), if_neg (by decide), if_pos (by decide), if_pos hn.date]

/-- **The date that is found**: the year is the first number. -/
theorem determine_collected {n : Numbers} (ms : Option (Fin 1000)) (sys : System) (hn : n.Valid) {count : Nat} (hcount : 2 < count) :
    determine_date sys (n.collected ms) 0
        { tm_hour := n.hour, tm_min := n.minute, tm_sec := n.second, field_count := count }
      = some
        { tm_year := n.year, tm_mon := n.month, tm_mday := n.day, tm_hour := n.hour,
          tm_min := n.minute, tm_sec := n.second } := by
  have hy := toInt_ofNat hn.year.2
  have hm := toInt_ofNat (n := n.month) (by have := hn.month; omega)
  have hd := toInt_ofNat (n := n.day) (by have := hn.day; omega)
  have hyear := hn.year
  have hhour := hn.hour
  have hminute := hn.minute
  have hsecond := hn.second
  have horders := @tryOrders_year (n.collected ms)
    { tm_hour := n.hour, tm_min := n.minute, tm_sec := n.second, field_count := count } n hn
  have hcreate : create_date (n.collected ms)
      { tm_hour := n.hour, tm_min := n.minute, tm_sec := n.second, field_count := count } n.day
        n.month n.year = some
        { tm_year := n.year, tm_mon := n.month, tm_mday := n.day, tm_hour := n.hour,
          tm_min := n.minute, tm_sec := n.second } := by
    rw [create_date, if_neg (by simp only; omega)]
    simp only [Numbers.collected, giveYear]
    rw [if_neg (by omega), if_neg (by omega)]
    simp
  have hint : (n.collected ms).int 0 = n.year ∧ (n.collected ms).int 1 = n.month ∧
      (n.collected ms).int 2 = n.day := ⟨hy, hm, hd⟩
  have hmonths : ∀ i < 3, ((n.collected ms).field i).monthSep = false := by
    intro i hi
    interval_cases i <;> rfl
  have hcount0 : ¬ count = 0 := by omega
  rw [determine_date, if_neg hcount0]
  simp only [Nat.zero_add, hint, hmonths 0 (by omega), hmonths 1 (by omega), hmonths 2 (by omega),
    Bool.false_eq_true, and_false, if_false, if_pos hcount, if_neg (show ¬ count = 2 by omega)]
  rw [initiate_and_create_date, horders]
  exact hcreate

theorem determine_parsed (sys : System) {n : Numbers} (hn : n.Valid) :
    determine_date sys n.parsed 0
        { tm_hour := n.hour, tm_min := n.minute, tm_sec := n.second, field_count := 4 }
      = some
        { tm_year := n.year, tm_mon := n.month, tm_mday := n.day, tm_hour := n.hour,
          tm_min := n.minute, tm_sec := n.second } :=
  determine_collected (some 0) sys hn (by omega)

/-- The date after the limit of the reader. -/
def Tm.kept (t : Tm) : Tm :=
  if 2037 < t.tm_year + 1900 then
    { t with tm_year := 137, tm_mon := 11, tm_hour := 23, tm_min := 59, tm_sec := 59 }
  else t

/-- The numbers that are written. -/
def Tm.numbers (t : Tm) : Numbers where
  year := (t.tm_year + 1900).toNat
  month := (t.tm_mon + 1).toNat
  day := t.tm_mday.toNat
  hour := t.tm_hour.toNat
  minute := t.tm_min.toNat
  second := t.tm_sec.toNat

/-- A date of the calendar. -/
structure Tm.Valid (t : Tm) : Prop where
  nonneg : 0 ≤ t.tm_mon ∧ 0 ≤ t.tm_mday ∧ 0 ≤ t.tm_hour ∧ 0 ≤ t.tm_min ∧ 0 ≤ t.tm_sec
  numbers : t.numbers.Valid

/-- The fields of a date are the numbers that are written. -/
theorem Tm.Valid.eq {t : Tm} (hv : t.Valid) :
    t = { tm_year := (t.numbers.year : Int) - 1900, tm_mon := (t.numbers.month : Int) - 1,
          tm_mday := t.numbers.day, tm_hour := t.numbers.hour, tm_min := t.numbers.minute,
          tm_sec := t.numbers.second } := by
  obtain ⟨hmon, hday, hhour, hmin, hsec⟩ := hv.nonneg
  have hyear := hv.numbers.year
  obtain ⟨year, mon, mday, hour, min, sec⟩ := t
  simp only [Tm.numbers, Tm.mk.injEq] at *
  omega

/-- The text of a date of the calendar. -/
theorem format_eq {sys : System} {s : Int} (hv : (sys.gmtime s).Valid) :
    sys.format s 0 = (sys.gmtime s).numbers.text := by
  have hn := hv.numbers.small
  have hzeros : convert 3 ((0 : Int).tdiv 1000) = [0x30, 0x30, 0x30] := by decide
  have heq := hv.eq
  generalize (sys.gmtime s).numbers = n at *
  rw [System.format]
  simp only [heq, hzeros, Int.sub_add_cancel]
  rw [convert_four hn.year, convert_two hn.month, convert_two hn.day, convert_two hn.hour,
    convert_two hn.minute, convert_two hn.second]
  rfl

/-- The date that is found in a text that was written. -/
theorem dateOf_text (sys : System) {n : Numbers} (hn : n.Valid) :
    sys.dateOf n.text = some
      { tm_year := n.year, tm_mon := n.month, tm_mday := n.day, tm_hour := n.hour,
        tm_min := n.minute, tm_sec := n.second } := by
  have hfields : ¬ (n.parsed.fields = [] ∨ (n.parsed.fields.length = 1 ∧ ¬ n.parsed.anyHalf)) := by
    simp [Numbers.parsed]
  simp only [System.dateOf, scan_text hn.small, bind, Option.bind_some]
  rw [if_neg hfields, arrange_parsed hn, Option.bind_some]
  exact determine_parsed sys hn

/-- **A date is read as it was written**, up to the end of 2037. -/
theorem ParseDateTime_format {sys : System} {s : Int} (hv : (sys.gmtime s).Valid) :
    sys.ParseDateTime (sys.format s 0) = sys.timegm (sys.gmtime s).kept := by
  have heq := hv.eq
  rw [format_eq hv, System.ParseDateTime, System.DateFromStr, dateOf_text sys hv.numbers]
  generalize (sys.gmtime s).numbers = n at *
  show sys.timegm _ = sys.timegm _
  rw [heq, Tm.limit, Tm.kept]
  by_cases hlate : 2037 < (n.year : Int)
  · rw [if_pos hlate, if_pos (by simpa using hlate)]
    rfl
  · rw [if_neg hlate, if_neg (by simpa using hlate)]

/-! ### The seconds -/

/-- The zone of the system has one offset around these seconds: the fields of `gmtime`, taken as local
time, are those of `zone` seconds before. -/
structure System.Zoned (sys : System) (zone s : Int) : Prop where
  mktime_gmtime : sys.mktime (sys.gmtime s) = s - zone
  mktime_before : sys.mktime (sys.gmtime (s - zone)) = s - zone - zone
  mktime_hour : ∀ s' ∈ [s, s - zone], sys.mktime { sys.gmtime s' with
    tm_hour := (sys.gmtime s').tm_hour - 1 } = sys.mktime (sys.gmtime s') - 3600

/-- -1 is no error then, and is found out to be none. -/
theorem mktimeAgain_eq {sys : System} {t : Tm}
    (hhour : sys.mktime { t with tm_hour := t.tm_hour - 1 } = sys.mktime t - 3600) :
    sys.mktimeAgain t = some (sys.mktime t) := by
  by_cases h : sys.mktime t = -1
  · simp only [System.mktimeAgain, h, hhour]
    decide
  · simp only [System.mktimeAgain, ne_eq, h, not_false_eq_true, if_true]

/-- `timegm` is the inverse of `gmtime`. -/
theorem timegm_gmtime {sys : System} {zone s : Int} (hz : sys.Zoned zone s) :
    sys.timegm (sys.gmtime s) = s := by
  have hagain := mktimeAgain_eq (hz.mktime_hour s List.mem_cons_self)
  have hbefore := mktimeAgain_eq (hz.mktime_hour (s - zone) (List.mem_cons_of_mem _ List.mem_cons_self))
  simp only [System.timegm, hagain, hz.mktime_gmtime, hbefore, hz.mktime_before]
  omega

/-- The calendar is right about these seconds: their date is one of the calendar, and so is the date
that is read for it, and the zone has one offset around either. -/
structure System.Covers (sys : System) (s : Int) : Prop where
  valid : (sys.gmtime s).Valid
  zoned : ∃ zone, sys.Zoned zone s
  limit : ∃ s', 0 ≤ s' ∧ s' < 2 ^ 32 ∧ sys.gmtime s' = (sys.gmtime s).kept ∧ ∃ zone, sys.Zoned zone s'

/-- **Seconds that are written and read**: they are the same up to the end of 2037, and seconds of 32
bits in any case. -/
theorem seconds_read_back {sys : System} {s : Int} (hs : sys.Covers s) :
    ∃ s', sys.ParseDateTime (sys.format s 0) = s' ∧ 0 ≤ s' ∧ s' < 2 ^ 32 ∧
      (s' = s ↔ (sys.gmtime s).tm_year + 1900 ≤ 2037) := by
  obtain ⟨zone, hz⟩ := hs.zoned
  obtain ⟨s', hlow, hhigh, hgm, zone', hz'⟩ := hs.limit
  refine ⟨s', ?_, hlow, hhigh, ?_⟩
  · rw [ParseDateTime_format hs.valid, ← hgm, timegm_gmtime hz']
  · by_cases hlate : 2037 < (sys.gmtime s).tm_year + 1900
    · refine iff_of_false (fun heq => ?_) (by omega)
      rw [heq, Tm.kept, if_pos hlate] at hgm
      have hyear := congrArg Tm.tm_year hgm
      simp only at hyear
      omega
    · refine iff_of_true ?_ (by omega)
      rw [Tm.kept, if_neg hlate] at hgm
      have := congrArg sys.timegm hgm
      rwa [timegm_gmtime hz', timegm_gmtime hz] at this

end OpenairHss.Stime
