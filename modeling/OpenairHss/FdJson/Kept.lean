import OpenairHss.FdJson.GetJson
import OpenairHss.FdJson.Tolerant
import OpenairHss.Stime.ReadBack
import Mathlib.Data.List.TakeWhile

/-!
# The values that a text keeps

When the value of an AVP comes back from the text of the AVP (`value_iff`).  An integer always does.
Octets are written by the derived type that the code has for them, and read by their own: without a
type they are digits; an address and a time have to be what they are called, and a time may not be
after 2037; what is written as it is must not contain a NUL, and if it is read as OctetString it must
not look like digits.
-/

namespace OpenairHss.FdJson

/-! ### What is asked -/

/-- A value, but for the bits of a floating point number. -/
def AvpValue.exact : AvpValue → AvpValue
  | .f32 _ => .f32 0
  | .f64 _ => .f64 0
  | v => v

/-- An AVP that was added. -/
def Event.avp : Event → Option Event
  | .added reference name value => some (.added reference name (value.map AvpValue.exact))
  | .reported _ => none

/-- The AVPs that were added, with their places. -/
def added {α : Type} (x : Code α) : List (Path × Event) :=
  x.effects.filterMap fun e => e.2.avp.map (e.1, ·)

mutual

/-- The AVPs of a tree, with their places in the document. -/
def nodes (path : Path) (reference : Option String) : AvpTree → List (Path × Event)
  | .leaf name value => [(path, .added reference name (some value.exact))]
  | .group name children => (path, .added reference name none) :: nodesFrom path 0 (some name) children

def nodesFrom (path : Path) (i : Nat) (reference : Option String) :
    List AvpTree → List (Path × Event)
  | [] => []
  | a :: rest => nodes (i :: path) reference a ++ nodesFrom path (i + 1) reference rest

end

/-- **What is asked**: the AVPs that are added for the text of a tree are those of the tree, each in
its place. -/
def Restores (fd : FreeDiameter) (w : Writer) (errfunc : Bool) (tree : AvpTree) : Prop :=
  ∃ json, fdJsonGetJSON fd w tree = .ok json ∧
    added (fdJsonAddAvps fd errfunc (some json)) = nodes [0] none tree

/-! ### When the code does it -/

/-- An address of one of the two families. -/
def isAddress (data : Octets) : Bool :=
  (data.take 2 = [0, 1] && data.length = 6) || (data.take 2 = [0, 2] && data.length = 18)

/-- A time up to the end of 2037. -/
def isTime (w : Writer) (data : Octets) : Bool :=
  data.length = 4 && (w.system.gmtime (timeSeconds data)).tm_year + 1900 ≤ 2037

/-- The octets of an AVP are restored, where `derived` is the type that they are written by. -/
def octetsKept (w : Writer) (d : DictAvp) (derived : Option String) (data : Octets) : Bool :=
  match derived with
  | none => true
  | some "Address" => d.type_name = some "Address" && isAddress data
  | some "Time" => d.type_name = some "Time" && isTime w data
  | some _ => !data.contains 0 && (d.type ≠ .octetString || !isHexString data)

def valueKept (w : Writer) (d : DictAvp) (derived : Option String) : AvpValue → Bool
  | .os data => octetsKept w d derived data
  | .f32 v => (w.reread (w.ofFloat v)).any JsonNumber.isFloat
  | .f64 v => (w.reread (w.ofDouble v)).any JsonNumber.isDouble
  | .i32 _ | .i64 _ | .u32 _ | .u64 _ => true

mutual

def memberKept (fd : FreeDiameter) (w : Writer) (d : DictAvp) (derived : Option String) :
    AvpTree → Bool
  | .leaf _ value => valueKept w d derived value
  | .group _ children => membersKept fd w none children

def membersKept (fd : FreeDiameter) (w : Writer) (derived : Option String) : List AvpTree → Bool
  | [] => true
  | a :: rest => match fd.dict a.name with
    | some d => memberKept fd w d (nextDerived d derived) a
        && membersKept fd w (nextDerived d derived) rest
    | none => false

end

/-- A tree is restored: an AVP that is not grouped is, if its value is that of an empty one. -/
def treeKept (fd : FreeDiameter) (w : Writer) : AvpTree → Bool
  | .leaf _ value => value.exact = value.basetype.zero
  | .group _ children => membersKept fd w none children

/-! ### RapidJSON and the system -/

/-- What is written of addresses is read as such: the texts have dots or colons, and no NUL; a time
is read by the code of `STime`; and an integer that fits into 64 bits is the same when it was written
and read. -/
structure Writer.Faithful (fd : FreeDiameter) (w : Writer) : Prop where
  ntop4 : ∀ addr, addr.length = 4 → fd.inet_pton4 (w.inet_ntop4 addr) = some addr ∧
    0x2E ∈ w.inet_ntop4 addr ∧ 0 ∉ w.inet_ntop4 addr
  ntop6 : ∀ addr, addr.length = 16 → fd.inet_pton4 (w.inet_ntop6 addr) = none ∧
    fd.inet_pton6 (w.inet_ntop6 addr) = some addr ∧ 0x3A ∈ w.inet_ntop6 addr ∧
    0 ∉ w.inet_ntop6 addr
  parseDateTime : fd.parseDateTime = w.system.ParseDateTime
  reread : ∀ n, (JsonNumber.int n).isInt64 = true ∨ (JsonNumber.int n).isUint64 = true →
    w.reread (.int n) = some (.int n)

/-! ### Digits -/

theorem hexDigits_spec : ∀ n < 16, isHexDigit (hexDigits n) = true ∧ hexDigits n ≠ 0 ∧
    hex2bin (hexDigits n) = UInt8.ofNat n := by
  decide

theorem hex_byte (b : UInt8) :
    (hex2bin (hexDigits (b.toNat / 16)) <<< 4) + hex2bin (hexDigits (b.toNat % 16)) = b := by
  have hb := b.toNat_lt
  rw [(hexDigits_spec _ (by omega)).2.2, (hexDigits_spec _ (by omega)).2.2]
  refine UInt8.toNat_inj.mp ?_
  have hfour : UInt8.toNat 4 % 8 = 4 := rfl
  simp only [UInt8.toNat_add, UInt8.toNat_shiftLeft, UInt8.toNat_ofNat', Nat.shiftLeft_eq, hfour]
  omega

def digitsOf (data : Octets) : Octets :=
  data.flatMap fun b => [hexDigits (b.toNat / 16), hexDigits (b.toNat % 16)]

theorem hexOctets_digitsOf (data : Octets) : hexOctets (digitsOf data) = data := by
  induction data with
  | nil => rfl
  | cons b data ih =>
    rw [digitsOf, List.flatMap_cons]
    show ((hex2bin _ <<< 4) + hex2bin _) :: hexOctets (digitsOf data) = _
    rw [hex_byte, ih]

theorem digitsOf_spec (data : Octets) :
    (digitsOf data).length = 2 * data.length ∧
      ∀ c ∈ digitsOf data, isHexDigit c = true ∧ c ≠ 0 := by
  induction data with
  | nil => exact ⟨rfl, nofun⟩
  | cons b data ih =>
    have hb := b.toNat_lt
    have hhigh := hexDigits_spec (b.toNat / 16) (by omega)
    have hlow := hexDigits_spec (b.toNat % 16) (by omega)
    rw [digitsOf, List.flatMap_cons]
    refine ⟨?_, fun c hc => ?_⟩
    · have hlen := ih.1
      simp only [digitsOf] at hlen
      simp only [List.length_append, hlen, List.length_cons, List.length_nil]
      omega
    · rcases List.mem_append.mp hc with hc | hc
      · rcases List.mem_pair.mp hc with rfl | rfl
        · exact ⟨hhigh.1, hhigh.2.1⟩
        · exact ⟨hlow.1, hlow.2.1⟩
      · exact ih.2 c hc

theorem untilNul_eq {s : Octets} (hs : 0 ∉ s) : untilNul s = s := by
  rw [untilNul, List.takeWhile_eq_self_iff]
  intro c hc
  simp only [decide_eq_true_iff]
  rintro rfl
  exact hs hc

theorem untilNul_eq_iff (s : Octets) : untilNul s = s ↔ 0 ∉ s := by
  refine ⟨fun h h0 => ?_, untilNul_eq⟩
  rw [untilNul, List.takeWhile_eq_self_iff] at h
  exact absurd (h 0 h0) (by simp)

theorem length_hexOctets (s : Octets) : (hexOctets s).length = s.length / 2 := by
  induction s using hexOctets.induct with
  | case1 c d rest ih =>
    simp only [hexOctets, List.length_cons, ih]
    omega
  | case2 s hs =>
    rw [hexOctets]
    · match s with
      | [] => rfl
      | [c] => simp
      | c :: d :: rest => exact absurd rfl (hs c d rest)
    · exact hs

/-- Digits are shorter than they are written. -/
theorem hexOctets_ne {s data : Octets} (hlen : s.length ≤ data.length) (hhex : isHexString s = true) :
    hexOctets (s.drop 2) ≠ data := by
  intro heq
  have h2 : ¬ s.length < 2 := by
    intro hlt
    simp [isHexString, hlt] at hhex
  have := congrArg List.length heq
  rw [length_hexOctets, List.length_drop] at this
  omega

/-- A text with a character that is no digit is no text of digits. -/
theorem isHexString_of_mem {s : Octets} {c : UInt8} (hc : c ∈ s) (h0 : c ≠ 0x30) (hx : c ≠ 0x78)
    (hX : c ≠ 0x58) (hno : isHexDigit c = false) : isHexString s = false := by
  by_contra hhex
  rw [Bool.not_eq_false] at hhex
  unfold isHexString at hhex
  split at hhex
  · cases hhex
  split at hhex
  · cases hhex
  split at hhex
  · cases hhex
  · rename_i hlen hshort hstart
    rcases s with _ | ⟨a, _ | ⟨b, rest⟩⟩
    · cases hc
    · exact hshort (by simp)
    · simp only [List.getD_cons_zero, List.getD_cons_succ, not_or, not_not, ne_eq] at hstart
      rcases List.mem_cons.mp hc with rfl | hc
      · exact h0 hstart.1
      · rcases List.mem_cons.mp hc with rfl | hc
        · exact (hstart.2 ⟨hx, hX⟩).elim
        · have := List.all_eq_true.mp hhex c hc
          rw [hno] at this
          cases this

/-! ### Times -/

/-- The octets of `ntp.second`. -/
def secondOctets (u : BitVec 32) : Octets := [3, 2, 1, 0].map fun i => UInt8.ofNat (u.toNat / 2 ^ (8 * i))

theorem ntpSecond_secondOctets (u : BitVec 32) : ntpSecond (secondOctets u) = u := by
  have hu := u.isLt
  refine BitVec.eq_of_toNat_eq ?_
  simp only [ntpSecond, secondOctets, List.map_cons, List.map_nil, List.foldl_cons, List.foldl_nil,
    UInt8.toNat_ofNat', BitVec.toNat_ofNat]
  omega

theorem secondOctets_ntpSecond {data : Octets} (hlen : data.length = 4) :
    secondOctets (ntpSecond data) = data := by
  match data with
  | [a, b, c, d] =>
    have ha := a.toNat_lt
    have hb := b.toNat_lt
    have hc := c.toNat_lt
    have hd := d.toNat_lt
    simp only [secondOctets, ntpSecond, List.map_cons, List.map_nil, List.foldl_cons, List.foldl_nil,
      BitVec.toNat_ofNat, List.cons.injEq, and_true, ← UInt8.toNat_inj, UInt8.toNat_ofNat']
    omega

theorem timeSeconds_eq (data : Octets) :
    timeSeconds data = ((ntpSecond data - 0x83AA7E80#32).toNat : Int) := by
  have hlt := (ntpSecond data - 0x83AA7E80#32).isLt
  rw [timeSeconds, FdAvp.STime.setNTPTime]
  rw [BitVec.toInt_eq_toNat_of_lt]
  · rw [BitVec.toNat_setWidth_of_le (by omega)]
  · rw [BitVec.toNat_setWidth_of_le (by omega)]
    omega

/-- The octets of a time are those of its seconds. -/
theorem timeOctets_iff {data : Octets} (hlen : data.length = 4) {t : Int} (h0 : 0 ≤ t)
    (h32 : t < 2 ^ 32) : timeOctets t = data ↔ t = timeSeconds data := by
  have hiff : timeOctets t = data ↔ BitVec.ofInt 32 (t + 0x83AA7E80) = ntpSecond data := by
    show secondOctets _ = data ↔ _
    constructor
    · intro h
      rw [← h, ntpSecond_secondOctets]
    · intro h
      rw [h, secondOctets_ntpSecond hlen]
  obtain ⟨n, rfl⟩ := Int.eq_ofNat_of_zero_le h0
  have hu := (ntpSecond data).isLt
  rw [hiff, timeSeconds_eq, ← BitVec.toNat_inj]
  generalize ntpSecond data = u at *
  simp only [BitVec.toNat_ofInt, BitVec.toNat_sub, BitVec.toNat_ofNat]
  omega

/-! ### Octets -/

section Octets

variable {fd : FreeDiameter} {w : Writer} {name : String} {d : DictAvp} {derived : Option String}
  {data s : Octets}

/-- What an address is written as. -/
theorem fdJsonAddressToStr_iff :
    fdJsonAddressToStr w name data = .ok s ↔
      (∃ addr, addr.length = 4 ∧ data = 0 :: 1 :: addr ∧ s = w.inet_ntop4 addr) ∨
        ∃ addr, addr.length = 16 ∧ data = 0 :: 2 :: addr ∧ s = w.inet_ntop6 addr := by
  match data with
  | [] => simp [fdJsonAddressToStr]
  | [_] => simp [fdJsonAddressToStr]
  | a :: b :: addr =>
    have ha := a.toNat_lt
    have hb := b.toNat_lt
    have h1 : a.toNat * 256 + b.toNat = 1 ↔ a = 0 ∧ b = 1 := by
      rw [← UInt8.toNat_inj, ← UInt8.toNat_inj]
      show _ ↔ a.toNat = 0 ∧ b.toNat = 1
      omega
    have h2 : a.toNat * 256 + b.toNat = 2 ↔ a = 0 ∧ b = 2 := by
      rw [← UInt8.toNat_inj, ← UInt8.toNat_inj]
      show _ ↔ a.toNat = 0 ∧ b.toNat = 2
      omega
    simp only [fdJsonAddressToStr, h1, h2, List.cons.injEq]
    by_cases hv4 : a = 0 ∧ b = 1
    · obtain ⟨rfl, rfl⟩ := hv4
      rw [if_pos ⟨rfl, rfl⟩]
      by_cases hlen : addr.length = 4
      · rw [if_neg (by omega)]
        constructor
        · intro h
          exact Or.inl ⟨addr, hlen, ⟨rfl, rfl, rfl⟩, (Except.ok.inj h).symm⟩
        · rintro (⟨_, -, ⟨-, -, rfl⟩, rfl⟩ | ⟨_, -, ⟨-, habs, -⟩, -⟩)
          · rfl
          · exact absurd habs (by decide)
      · rw [if_pos (by omega)]
        refine iff_of_false nofun ?_
        rintro (⟨_, hlen', ⟨-, -, rfl⟩, -⟩ | ⟨_, -, ⟨-, habs, -⟩, -⟩)
        · exact hlen hlen'
        · exact absurd habs (by decide)
    · rw [if_neg hv4]
      by_cases hv6 : a = 0 ∧ b = 2
      · obtain ⟨rfl, rfl⟩ := hv6
        rw [if_pos ⟨rfl, rfl⟩]
        by_cases hlen : addr.length = 16
        · rw [if_neg (by omega)]
          constructor
          · intro h
            exact Or.inr ⟨addr, hlen, ⟨rfl, rfl, rfl⟩, (Except.ok.inj h).symm⟩
          · rintro (⟨_, -, ⟨-, habs, -⟩, -⟩ | ⟨_, -, ⟨-, -, rfl⟩, rfl⟩)
            · exact absurd habs (by decide)
            · rfl
        · rw [if_pos (by omega)]
          refine iff_of_false nofun ?_
          rintro (⟨_, -, ⟨-, habs, -⟩, -⟩ | ⟨_, hlen', ⟨-, -, rfl⟩, -⟩)
          · exact absurd habs (by decide)
          · exact hlen hlen'
      · rw [if_neg hv6]
        refine iff_of_false nofun ?_
        rintro (⟨_, -, ⟨ha0, hb1, -⟩, -⟩ | ⟨_, -, ⟨ha0, hb2, -⟩, -⟩)
        · exact hv4 ⟨ha0, hb1⟩
        · exact hv6 ⟨ha0, hb2⟩

theorem isAddress_iff : isAddress data = true ↔
    (∃ addr, addr.length = 4 ∧ data = 0 :: 1 :: addr) ∨
      ∃ addr, addr.length = 16 ∧ data = 0 :: 2 :: addr := by
  match data with
  | [] => simp [isAddress]
  | [_] => simp [isAddress]
  | a :: b :: addr =>
    simp only [isAddress, List.take_succ_cons, List.take_zero, List.length_cons, Bool.or_eq_true,
      Bool.and_eq_true, decide_eq_true_iff, List.cons.injEq, and_true]
    constructor
    · rintro (⟨⟨rfl, rfl⟩, hlen⟩ | ⟨⟨rfl, rfl⟩, hlen⟩)
      · exact Or.inl ⟨addr, by omega, rfl, rfl, rfl⟩
      · exact Or.inr ⟨addr, by omega, rfl, rfl, rfl⟩
    · rintro (⟨_, hlen, rfl, rfl, rfl⟩ | ⟨_, hlen, rfl, rfl, rfl⟩)
      · exact Or.inl ⟨⟨rfl, rfl⟩, by omega⟩
      · exact Or.inr ⟨⟨rfl, rfl⟩, by omega⟩

/-- The value that is read of a string: octets in any case. -/
theorem stringValue_octets (hbase : d.avp_basetype = .octetString) (ht : d.type = .octetString) :
    stringValue fd d s = some (.os (if isHexString (untilNul s) then
      hexOctets ((untilNul s).drop 2) else untilNul s)) := by
  rw [stringValue, if_neg (by simp [hbase]), ht]
  simp only
  split <;> rfl

theorem type_of_none (hbase : d.avp_basetype = .octetString) (hd : d.type_name = none) :
    d.type = .octetString := by
  rw [DictAvp.type, hd, hbase]
  rfl

/-- A text that is not one of digits is read by OctetString as it is. -/
theorem stringValue_text (hbase : d.avp_basetype = .octetString) (ht : d.type = .octetString)
    (h0 : 0 ∉ s) (hhex : isHexString s = false) : stringValue fd d s = some (.os s) := by
  rw [stringValue_octets hbase ht, untilNul_eq h0, hhex]
  rfl

/-- **An address** is restored by its own type. -/
theorem address_iff (hfaith : w.Faithful fd) (hbase : d.avp_basetype = .octetString)
    (hd : d.type_name = some "Address" ∨ d.type_name = none) :
    (∃ s, fdJsonAddressToStr w name data = .ok s ∧ stringValue fd d s = some (.os data)) ↔
      d.type_name = some "Address" ∧ isAddress data = true := by
  have hmem : (∃ s, fdJsonAddressToStr w name data = .ok s ∧ stringValue fd d s = some (.os data)) →
      isAddress data = true := by
    rintro ⟨s, hs, -⟩
    rcases fdJsonAddressToStr_iff.mp hs with ⟨addr, hlen, rfl, -⟩ | ⟨addr, hlen, rfl, -⟩
    · exact isAddress_iff.mpr (Or.inl ⟨addr, hlen, rfl⟩)
    · exact isAddress_iff.mpr (Or.inr ⟨addr, hlen, rfl⟩)
  rcases hd with hd | hd
  · refine ⟨fun h => ⟨hd, hmem h⟩, fun ⟨_, h⟩ => ?_⟩
    have ht : d.type = .address := by simp [DictAvp.type, hd]
    rcases isAddress_iff.mp h with ⟨addr, hlen, rfl⟩ | ⟨addr, hlen, rfl⟩
    · obtain ⟨hpton, -, h0⟩ := hfaith.ntop4 addr hlen
      refine ⟨_, fdJsonAddressToStr_iff.mpr (Or.inl ⟨addr, hlen, rfl, rfl⟩), ?_⟩
      rw [stringValue, if_neg (by simp [hbase]), ht, untilNul_eq h0, hpton]
      rfl
    · obtain ⟨hpton4, hpton6, -, h0⟩ := hfaith.ntop6 addr hlen
      refine ⟨_, fdJsonAddressToStr_iff.mpr (Or.inr ⟨addr, hlen, rfl, rfl⟩), ?_⟩
      rw [stringValue, if_neg (by simp [hbase]), ht, untilNul_eq h0, hpton4, hpton6]
      rfl
  · -- the text of an address is no text of digits, and it has no NUL
    refine iff_of_false ?_ fun h => absurd (hd.symm.trans h.1) nofun
    rintro ⟨s, hs, hvalue⟩
    have htext : 0 ∉ s ∧ isHexString s = false ∧ 0 ∈ data := by
      rcases fdJsonAddressToStr_iff.mp hs with ⟨addr, hlen, rfl, rfl⟩ | ⟨addr, hlen, rfl, rfl⟩
      · obtain ⟨-, hdot, h0⟩ := hfaith.ntop4 addr hlen
        exact ⟨h0, isHexString_of_mem hdot (by decide) (by decide) (by decide) (by decide), by simp⟩
      · obtain ⟨-, -, hcolon, h0⟩ := hfaith.ntop6 addr hlen
        exact ⟨h0, isHexString_of_mem hcolon (by decide) (by decide) (by decide) (by decide),
          by simp⟩
    obtain ⟨h0, hhex, hdata⟩ := htext
    rw [stringValue_text hbase (type_of_none hbase hd) h0 hhex] at hvalue
    cases hvalue
    exact h0 hdata

/-- The text of a time: 23 characters, with a dash, and no NUL. -/
theorem time_text {n : Stime.Numbers} : n.text.length = 23 ∧ 0x2D ∈ n.text ∧ 0 ∉ n.text := by
  have hdigit : ∀ k, Stime.digit k ≠ 0 := by
    intro k h
    have := Stime.isdigit_digit k
    rw [h] at this
    exact absurd this (by decide)
  refine ⟨by simp [Stime.Numbers.text, Stime.four, Stime.two], by simp [Stime.Numbers.text], ?_⟩
  simp [Stime.Numbers.text, Stime.four, Stime.two, (hdigit _).symm]

/-- **A time** is restored by its own type, up to the end of 2037. -/
theorem time_iff (hfaith : w.Faithful fd) (hbase : d.avp_basetype = .octetString)
    (hd : d.type_name = some "Time" ∨ d.type_name = none)
    (hcover : data.length = 4 → w.system.Covers (timeSeconds data)) :
    (∃ s, fdJsonTimeToStr w name data = .ok s ∧ stringValue fd d s = some (.os data)) ↔
      d.type_name = some "Time" ∧ isTime w data = true := by
  by_cases hlen : data.length = 4
  · have hcov := hcover hlen
    have htime : ∀ s, fdJsonTimeToStr w name data = .ok s ↔ s = w.system.format (timeSeconds data) 0 := by
      intro s
      rw [fdJsonTimeToStr, if_neg (by omega)]
      exact ⟨fun h => (Except.ok.inj h).symm, fun h => congrArg Except.ok h.symm⟩
    simp only [htime, exists_eq_left]
    have htext := time_text (n := (w.system.gmtime (timeSeconds data)).numbers)
    rw [← Stime.format_eq hcov.valid] at htext
    rcases hd with hd | hd
    · obtain ⟨t, hparse, h0, h32, hsame⟩ := Stime.seconds_read_back hcov
      have ht : d.type = .time := by simp [DictAvp.type, hd]
      have hvalue : stringValue fd d (w.system.format (timeSeconds data) 0) = some (.os (timeOctets t)) := by
        rw [stringValue, if_neg (by simp [hbase]), ht, untilNul_eq htext.2.2, hfaith.parseDateTime,
          hparse]
      rw [hvalue, isTime, Option.some.injEq, AvpValue.os.injEq, timeOctets_iff hlen h0 h32, hsame]
      simp [hd, hlen]
    · refine iff_of_false (fun hvalue => ?_) fun h => absurd (hd.symm.trans h.1) nofun
      have hhex : isHexString (w.system.format (timeSeconds data) 0) = false :=
        isHexString_of_mem htext.2.1 (by decide) (by decide) (by decide) (by decide)
      rw [stringValue_text hbase (type_of_none hbase hd) htext.2.2 hhex] at hvalue
      have := congrArg List.length (AvpValue.os.inj (Option.some.inj hvalue))
      omega
  · refine iff_of_false ?_ fun h => hlen (by simpa [isTime] using And.left (by simpa [isTime] using h.2))
    rintro ⟨s, hs, -⟩
    rw [fdJsonTimeToStr, if_pos hlen] at hs
    exact absurd hs nofun

/-- **Octets that are written as they are** are restored if they are a C string that is not taken for
digits. -/
theorem raw_iff (hbase : d.avp_basetype = .octetString) (ha : d.type ≠ .address)
    (ht : d.type ≠ .time) :
    stringValue fd d data = some (.os data) ↔
      0 ∉ data ∧ (d.type ≠ .octetString ∨ isHexString data = false) := by
  by_cases hoctets : d.type = .octetString
  · rw [stringValue_octets hbase hoctets, Option.some.injEq, AvpValue.os.injEq]
    simp only [hoctets, ne_eq, not_true_eq_false, false_or]
    have hle : (untilNul data).length ≤ data.length := (List.takeWhile_sublist _).length_le
    constructor
    · intro h
      split at h
      · rename_i hhex
        exact absurd h (hexOctets_ne hle hhex)
      · rename_i hhex
        exact ⟨(untilNul_eq_iff data).mp h, by rw [h] at hhex; simpa using hhex⟩
    · rintro ⟨h0, hhex⟩
      rw [untilNul_eq h0, hhex]
      rfl
  · have hvalue : stringValue fd d data = some (.os (untilNul data)) := by
      rw [stringValue, if_neg (by simp [hbase])]
      cases htype : d.type with
      | address => exact absurd htype ha
      | time => exact absurd htype ht
      | octetString => exact absurd htype hoctets
      | _ => rfl
    rw [hvalue, Option.some.injEq, AvpValue.os.injEq, untilNul_eq_iff]
    simp [hoctets]

end Octets

/-! ### Values -/

section Values

variable {fd : FreeDiameter} {w : Writer} {d : DictAvp} {prior : Option String}

def readValue (fd : FreeDiameter) (d : DictAvp) : Json → Option AvpValue
  | .number n => numberValue fd d n
  | .string s => stringValue fd d s
  | .null | .bool _ | .array _ | .object _ => none

/-- A value comes back, written by the type that the code has for it. -/
def Comes (fd : FreeDiameter) (w : Writer) (name : String) (d : DictAvp) (derived : Option String)
    (v : AvpValue) : Prop :=
  ∃ j j' v', memberValue w name derived v = .ok j ∧ rereadJson w j = some j' ∧
    readValue fd d j' = some v' ∧ v'.exact = v.exact

/-- The type that octets are written by: their own, or without one that of an AVP before. -/
theorem nextDerived_octets (hbase : d.avp_basetype = .octetString) :
    nextDerived d prior = (d.type_name <|> prior) := by
  rw [nextDerived, if_pos hbase]

/-- Octets that are written come back as they are, or they do not come back. -/
theorem comes_octets {name : String} {derived : Option String} {data : Octets}
    (hbase : d.avp_basetype = .octetString) :
    Comes fd w name d derived (.os data) ↔
      ∃ s, octetsText w name derived data = .ok s ∧ stringValue fd d s = some (.os data) := by
  rw [Comes, memberValue]
  constructor
  · rintro ⟨j, j', v', hj, hj', hv', hexact⟩
    cases htext : octetsText w name derived data with
    | error e =>
      rw [htext] at hj
      exact absurd hj nofun
    | ok s =>
      rw [htext] at hj
      cases hj
      cases hj'
      refine ⟨s, rfl, ?_⟩
      have hb := stringValue_basetype hv'
      rw [hbase] at hb
      cases v' with
      | os data' =>
        rw [show data' = data from AvpValue.os.inj hexact] at hv'
        exact hv'
      | _ => exact absurd hb nofun
  · rintro ⟨s, htext, hv⟩
    rw [htext]
    exact ⟨_, _, _, rfl, rfl, hv, rfl⟩

/-- **Octets.** -/
theorem octets_iff (hfaith : w.Faithful fd) (name : String) (hbase : d.avp_basetype = .octetString)
    {data : Octets} (hcover : data.length = 4 → w.system.Covers (timeSeconds data)) :
    Comes fd w name d (nextDerived d prior) (.os data) ↔
      octetsKept w d (nextDerived d prior) data = true := by
  have hown : ∀ t, nextDerived d prior = some t → d.type_name = some t ∨ d.type_name = none := by
    intro t ht
    rw [nextDerived_octets hbase] at ht
    cases hd : d.type_name with
    | none => exact Or.inr rfl
    | some t' =>
      rw [hd] at ht
      exact Or.inl ht
  cases hder : nextDerived d prior with
  | none =>
    have hd : d.type_name = none := by
      rw [nextDerived_octets hbase] at hder
      cases hd : d.type_name with
      | none => rfl
      | some t' =>
        rw [hd] at hder
        exact absurd hder nofun
    rw [comes_octets hbase]
    refine iff_of_true ⟨_, rfl, ?_⟩ rfl
    have hspec := digitsOf_spec data
    have hno0 : 0 ∉ fdJsonBinaryToHex data := by
      intro h
      rcases List.mem_cons.mp h with h | h
      · exact absurd h (by decide)
      · rcases List.mem_cons.mp h with h | h
        · exact absurd h (by decide)
        · exact (hspec.2 0 h).2 rfl
    have hhex : isHexString (fdJsonBinaryToHex data) = true := by
      have hlen : (fdJsonBinaryToHex data).length = 2 * data.length + 2 := by
        rw [fdJsonBinaryToHex, List.length_cons, List.length_cons]
        exact congrArg (· + 2) hspec.1
      rw [isHexString, if_neg (by omega), if_neg (by omega), if_neg (by simp [fdJsonBinaryToHex])]
      exact List.all_eq_true.mpr fun c hc => (hspec.2 c hc).1
    rw [stringValue_octets hbase (type_of_none hbase hd), untilNul_eq hno0, if_pos hhex]
    exact congrArg (some ∘ AvpValue.os) (hexOctets_digitsOf data)
  | some t =>
    have hd := hown t hder
    by_cases ha : t = "Address"
    · subst ha
      rw [comes_octets hbase, octetsText, address_iff hfaith hbase hd]
      simp [octetsKept]
    · by_cases ht : t = "Time"
      · subst ht
        rw [comes_octets hbase, octetsText, time_iff hfaith hbase hd hcover]
        simp [octetsKept]
      · have htext : octetsText w name (some t) data = .ok data := by
          rw [octetsText]
          · simpa using ha
          · simpa using ht
        have htype : d.type ≠ .address ∧ d.type ≠ .time := by
          rcases hd with hd | hd
          · rw [DictAvp.type, hd, hbase]
            split <;> simp_all [BaseType.dataType]
          · rw [type_of_none hbase hd]
            exact ⟨nofun, nofun⟩
        rw [comes_octets hbase, htext]
        simp only [Except.ok.injEq, exists_eq_left', raw_iff hbase htype.1 htype.2]
        rw [octetsKept]
        · simp
        · simpa using ha
        · simpa using ht

/-- An integer that is written comes back. -/
theorem comes_int (hfaith : w.Faithful fd) {name : String} {derived : Option String} {v : AvpValue}
    {n : Int} (htext : memberValue w name derived v = .ok (.number (.int n)))
    (hrange : (JsonNumber.int n).isInt64 = true ∨ (JsonNumber.int n).isUint64 = true)
    (hvalue : numberValue fd d (.int n) = some v) : Comes fd w name d derived v := by
  refine ⟨_, .number (.int n), v, htext, ?_, hvalue, rfl⟩
  rw [rereadJson, hfaith.reread n hrange]
  rfl

/-- A number of floating point comes back if the number that is read is one. -/
theorem comes_float {name : String} {derived : Option String} {v : AvpValue} {n : JsonNumber}
    (htext : memberValue w name derived v = .ok (.number n)) :
    Comes fd w name d derived v ↔
      ∃ n', w.reread n = some n' ∧ ∃ v', numberValue fd d n' = some v' ∧ v'.exact = v.exact := by
  rw [Comes, htext]
  constructor
  · rintro ⟨j, j', v', hj, hj', hv', hexact⟩
    cases hj
    rw [rereadJson] at hj'
    cases hn : w.reread n with
    | none =>
      rw [hn] at hj'
      exact absurd hj' nofun
    | some n' =>
      rw [hn] at hj'
      cases hj'
      exact ⟨n', rfl, v', hv', hexact⟩
  · rintro ⟨n', hn, v', hv', hexact⟩
    refine ⟨_, .number n', v', rfl, ?_, hv', hexact⟩
    rw [rereadJson, hn]
    rfl

/-- **A value** comes back if it is kept. -/
theorem value_iff (hfaith : w.Faithful fd) (name : String) {v : AvpValue}
    (hbase : v.basetype = d.avp_basetype)
    (hcover : ∀ data, v = .os data → data.length = 4 → w.system.Covers (timeSeconds data)) :
    Comes fd w name d (nextDerived d prior) v ↔ valueKept w d (nextDerived d prior) v = true := by
  cases v with
  | os data => exact octets_iff hfaith name hbase.symm (hcover data rfl)
  | i32 v =>
    have hlow := v.le_toInt
    have hhigh := v.toInt_lt
    refine iff_of_true (comes_int hfaith rfl (Or.inl (decide_eq_true (by omega))) ?_) rfl
    have hrange : (JsonNumber.int v.toInt).isInt = true := decide_eq_true (by omega)
    rw [numberValue, ← hbase]
    simp [AvpValue.basetype, hrange]
  | i64 v =>
    have hlow := v.le_toInt
    have hhigh := v.toInt_lt
    have hrange : (JsonNumber.int v.toInt).isInt64 = true := decide_eq_true (by omega)
    refine iff_of_true (comes_int hfaith rfl (Or.inl hrange) ?_) rfl
    rw [numberValue, ← hbase]
    simp [AvpValue.basetype, hrange]
  | u32 v =>
    have hlt := v.isLt
    have hrange : (JsonNumber.int v.toNat).isUint = true := by
      rw [JsonNumber.isUint, decide_eq_true_iff]
      omega
    have hint : (JsonNumber.int v.toNat).isInt64 = true := by
      rw [JsonNumber.isInt64, decide_eq_true_iff]
      omega
    refine iff_of_true (comes_int hfaith rfl (Or.inl hint) ?_) rfl
    rw [numberValue, ← hbase]
    simp [AvpValue.basetype, hrange]
  | u64 v =>
    have hlt := v.isLt
    have hrange : (JsonNumber.int v.toNat).isUint64 = true := by
      rw [JsonNumber.isUint64, decide_eq_true_iff]
      omega
    refine iff_of_true (comes_int hfaith rfl (Or.inr hrange) ?_) rfl
    rw [numberValue, ← hbase]
    simp [AvpValue.basetype, hrange]
  | f32 v =>
    rw [comes_float rfl, valueKept]
    cases w.reread (w.ofFloat v) with
    | none => simp
    | some n =>
      simp only [Option.some.injEq, exists_eq_left', Option.any_some, numberValue, ← hbase,
        AvpValue.basetype]
      by_cases hn : n.isFloat = true
      · simp [hn, AvpValue.exact]
      · simp [hn]
  | f64 v =>
    rw [comes_float rfl, valueKept]
    cases w.reread (w.ofDouble v) with
    | none => simp
    | some n =>
      simp only [Option.some.injEq, exists_eq_left', Option.any_some, numberValue, ← hbase,
        AvpValue.basetype]
      by_cases hn : n.isDouble = true
      · simp [hn, AvpValue.exact]
      · simp [hn]

end Values

end OpenairHss.FdJson
