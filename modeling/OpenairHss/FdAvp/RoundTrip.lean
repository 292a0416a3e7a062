import OpenairHss.FdAvp.Avp
import Mathlib.Data.List.TakeWhile

/-!
# Values that are set and read

* `roundTrips_iff`: for every data type and every value of an overload for it, the getter returns
  what was set if and only if the value is `Kept`.
* `times_iff`: where the two codecs for times agree, and which seconds they keep.

A 64-bit integer is stored for a time only, an IPFilterRule cannot be read as a string, and a time
has the seconds of 32 bits.
-/

namespace OpenairHss.FdAvp

open FdJson (Octets AvpValue)

/-! ### Words -/

theorem swapped_swapped (u : BitVec 32) : swapped (swapped u) = u := by
  refine BitVec.eq_of_getLsbD_eq fun i hi => ?_
  simp only [swapped, BitVec.getLsbD_append, BitVec.getLsbD_extractLsb']
  grind

theorem octetsWord_wordOctets (u : BitVec 32) : octetsWord (wordOctets u) = some u := by
  rw [wordOctets, octetsWord, Option.some.injEq]
  refine BitVec.eq_of_getLsbD_eq fun i hi => ?_
  simp only [BitVec.getLsbD_append, BitVec.getLsbD_extractLsb']
  grind

/-! ### What is set, and what is read -/

/-- A value of one of the overloads; an address is given as its octets. -/
inductive Value
  | i32 (v : BitVec 32)
  | u32 (v : BitVec 32)
  | i64 (v : BitVec 64)
  | u64 (v : BitVec 64)
  | string (s : Octets)
  | bytes (b : Octets)
  | ipv4 (addr : Octets)
  | ipv6 (addr : Octets)
  | stime (t : STime)

/-- The overload for a value: an address is set as its text. -/
def Value.set (net : Inet) (a : FDAvp) : Value → Except Fault FDAvp
  | .i32 v => return a.setI32 v
  | .u32 v => return a.setU32 v
  | .i64 v => return a.setI64 v
  | .u64 v => return a.setU64 v
  | .string s => return a.setString net s
  | .bytes b => return a.setBytes b
  | .ipv4 addr => return a.setString net (net.ntop4 addr)
  | .ipv6 addr => return a.setString net (net.ntop6 addr)
  | .stime t => a.setSTime t

/-- The getters for a value return it; those that fill a buffer do if the buffer is large enough. -/
def Value.ReadFrom (net : Inet) (a : FDAvp) : Value → Prop
  | .i32 v => a.getI32 = .ok (some v)
  | .u32 v => a.getU32 = .ok (some v)
  | .i64 v => a.getI64 = .ok (some v)
  | .u64 v => a.getU64 = .ok (some v)
  | .string s => a.getString net = .ok (some s) ∧
      ∀ data : Octets, s.length < data.length → a.getChars net data = .ok (some s)
  | .bytes b => (∀ len, b.length ≤ len → a.getBytes len = .ok (some b)) ∧
      ∀ data : Octets, b.length < data.length → a.getChars net data = .ok (some b)
  | .ipv4 addr => a.getSS = .ok (some (.inet addr)) ∧ a.getString net = .ok (some (net.ntop4 addr))
  | .ipv6 addr => a.getSS = .ok (some (.inet6 addr)) ∧ a.getString net = .ok (some (net.ntop6 addr))
  | .stime t => a.getSTime = .ok (some t)

/-- The data types that an overload is for. -/
def Value.isFor : Value → DiameterDataType → Bool
  | .i32 _, t => t = .i32 || t = .unknown
  | .u32 _, t => t = .u32
  | .i64 _, t => t = .i64 || t = .time
  | .u64 _, t => t = .u64
  | .string _, t => t = .utf8String || t = .diameterIdentity || t = .diameterURI || t = .ipFilterRule
  | .bytes _, t => t = .octetString
  | .ipv4 _, t | .ipv6 _, t => t = .address
  | .stime _, t => t = .time

/-- The value that is set is read. -/
def RoundTrips (net : Inet) (t : DiameterDataType) (v : Value) : Prop :=
  ∃ a, v.set net (FDAvp.new t) = .ok a ∧ v.ReadFrom net a

/-- The values that are kept. -/
def Kept (t : DiameterDataType) : Value → Prop
  | .i64 v => t = .time ∧ -2208988800 ≤ v.toInt ∧ v.toInt < 2085978496
  | .stime s => s.tv_usec = 0 ∧ s.tv_sec.toNat < 2 ^ 32
  | .string _ => t ≠ .ipFilterRule
  | _ => True

/-- The text of an address is a C string that is read as the address. -/
def Inet.Knows (net : Inet) : Value → Prop
  | .ipv4 addr => addr.length = 4 ∧ net.pton4 (net.ntop4 addr) = some addr ∧
      (∀ c ∈ net.ntop4 addr, c ≠ 0) ∧ (net.ntop4 addr).length < FDAvp.inet6AddrStrLen
  | .ipv6 addr => addr.length = 16 ∧ net.pton4 (net.ntop6 addr) = none ∧
      net.pton6 (net.ntop6 addr) = some addr ∧
      (∀ c ∈ net.ntop6 addr, c ≠ 0) ∧ (net.ntop6 addr).length < FDAvp.inet6AddrStrLen
  | _ => True

/-! ### The setters -/

namespace FDAvp

@[simp] theorem new_dataType (t : DiameterDataType) : (new t).dataType = t := rfl

@[simp] theorem assignValue_dataType (a : FDAvp) : a.assignValue.dataType = a.dataType := by
  unfold assignValue
  split <;> rfl

/-- What a setter stores. -/
theorem setValue_eq {t : DiameterDataType} (ht : t ≠ .grouped) (v : AvpValue) :
    (new t).setValue v = ⟨t, v, some v⟩ := by
  rw [setValue, assignValue, if_pos]
  · rfl
  · exact ht

theorem assignValue_setBytes {t : DiameterDataType} (ht : t ≠ .grouped) (v : Octets) :
    assignValue ((new t).setBytes v) = ⟨t, .os v, some (.os v)⟩ := by
  rw [setBytes, setValue_eq ht, assignValue, if_pos ht]

theorem setString_eq (net : Inet) {t : DiameterDataType} (ht : t ≠ .grouped) (ha : t ≠ .address)
    (v : Octets) : (new t).setString net v = ⟨t, .os v, some (.os v)⟩ := by
  rw [setString, new_dataType, if_neg ha, assignValue_setBytes ht]

/-- An address that is given as text. -/
theorem setString_address (net : Inet) {text addr : Octets} (hnul : ∀ c ∈ text, c ≠ 0)
    {family : UInt8}
    (h : (net.pton4 text = some addr ∧ family = 1) ∨
      (net.pton4 text = none ∧ net.pton6 text = some addr ∧ family = 2)) :
    (new .address).setString net text
      = ⟨.address, .os ([0, family] ++ addr), some (.os ([0, family] ++ addr))⟩ := by
  have htext : text.takeWhile (· ≠ 0) = text :=
    List.takeWhile_eq_self_iff.mpr fun c hc => by simpa using hnul c hc
  rw [setString, new_dataType, if_pos rfl, htext]
  rcases h with ⟨h4, rfl⟩ | ⟨h4, h6, rfl⟩
  · simp only [h4]
    exact assignValue_setBytes (by decide) _
  · simp only [h4, h6]
    exact assignValue_setBytes (by decide) _

/-! ### Times -/

/-- The seconds that `set (int64_t)` and `get (int64_t&)` make of a number of seconds. -/
def reduced (v : BitVec 64) : BitVec 64 :=
  (((v.setWidth 32).setWidth 64 + 2208988800#64).setWidth 32).setWidth 64 - 2208988800#64

theorem getI64_setI64 (v : BitVec 64) :
    ((new .time).setI64 v).getI64 = .ok (some (reduced v)) := by
  rw [setI64, new_dataType, if_pos rfl, assignValue_setBytes (by decide), getI64, if_pos rfl, timeWord,
    os, value]
  simp only [bind, Except.bind, pure, Except.pure, octetsWord_wordOctets, swapped_swapped]
  rfl

theorem toNat_reduced (v : BitVec 64) :
    (reduced v).toNat = (2 ^ 64 - 2208988800 + (v.toNat + 2208988800) % 2 ^ 32) % 2 ^ 64 := by
  have hword : (((v.setWidth 32).setWidth 64 + 2208988800#64).setWidth 32).toNat
      = (v.toNat + 2208988800) % 2 ^ 32 := by
    rw [BitVec.toNat_setWidth, BitVec.toNat_add, BitVec.toNat_setWidth, BitVec.toNat_setWidth,
      BitVec.toNat_ofNat]
    omega
  rw [reduced, BitVec.toNat_sub, BitVec.toNat_setWidth 64, hword, BitVec.toNat_ofNat]
  generalize v.toNat = n
  omega

/-- The seconds are kept from 1900 on, up to the end of the 32 bits. -/
theorem reduced_eq_iff (v : BitVec 64) :
    reduced v = v ↔ -2208988800 ≤ v.toInt ∧ v.toInt < 2085978496 := by
  rw [← BitVec.toNat_inj, toNat_reduced, BitVec.toInt_eq_toNat_cond]
  have hv := v.isLt
  generalize v.toNat = n at hv
  split <;> omega

theorem getSTime_setSTime (t : STime) :
    ∃ a, (new .time).setSTime t = .ok a ∧
      a.getSTime = .ok (some (STime.setNTPTime t.getNTPTime 0)) := by
  rw [setSTime, new_dataType, if_pos rfl, assignValue_setBytes (by decide)]
  refine ⟨_, rfl, ?_⟩
  rw [getSTime, if_pos rfl, timeWord, os, value]
  simp only [bind, Except.bind, pure, Except.pure, octetsWord_wordOctets, swapped_swapped]

/-- The seconds of 32 bits are kept, and nothing else. -/
theorem ntpTime_eq_iff (t : STime) :
    STime.setNTPTime t.getNTPTime 0 = t ↔ t.tv_usec = 0 ∧ t.tv_sec.toNat < 2 ^ 32 := by
  obtain ⟨sec, usec⟩ := t
  have hsec := sec.isLt
  have husec : BitVec.ofNat 64 ((0#32).toNat * 10 ^ 6 / 2 ^ 32) = usec ↔ usec = 0 := eq_comm
  have htime : ((sec + 0x83AA7E80#64).setWidth 32 - 0x83AA7E80#32).setWidth 64 = sec ↔
      sec.toNat < 2 ^ 32 := by
    rw [← BitVec.toNat_inj, BitVec.toNat_setWidth, BitVec.toNat_sub, BitVec.toNat_setWidth,
      BitVec.toNat_add, BitVec.toNat_ofNat, BitVec.toNat_ofNat]
    generalize sec.toNat = n at hsec
    omega
  simp only [STime.setNTPTime, STime.getNTPTime, STime.mk.injEq]
  exact (and_congr htime husec).trans and_comm

end FDAvp

/-! ### The round trip -/

open FDAvp

theorem roundTrips_i64 (net : Inet) {t : DiameterDataType} (ht : t = .i64 ∨ t = .time) (v : BitVec 64) :
    RoundTrips net t (.i64 v) ↔ Kept t (.i64 v) := by
  have hrun : RoundTrips net t (.i64 v) ↔ ((new t).setI64 v).getI64 = .ok (some v) := by
    constructor
    · rintro ⟨a, hset, hread⟩
      cases hset
      exact hread
    · exact fun h => ⟨_, rfl, h⟩
  rw [hrun, Kept]
  rcases ht with rfl | rfl
  · -- nothing is stored
    refine iff_of_false (fun h => ?_) (fun h => absurd h.1 (by decide))
    exact absurd h nofun
  · rw [getI64_setI64, ← reduced_eq_iff]
    simp

theorem roundTrips_stime (net : Inet) (s : STime) :
    RoundTrips net .time (.stime s) ↔ Kept .time (.stime s) := by
  obtain ⟨a, hset, hget⟩ := getSTime_setSTime s
  rw [Kept, ← ntpTime_eq_iff]
  constructor
  · rintro ⟨a', hset', hread⟩
    rw [Value.set, hset] at hset'
    cases hset'
    have hsome := hget.symm.trans hread
    simpa using hsome
  · intro h
    exact ⟨a, hset, by rw [Value.ReadFrom, hget, h]⟩

theorem roundTrips_string (net : Inet) {t : DiameterDataType}
    (ht : t = .utf8String ∨ t = .diameterIdentity ∨ t = .diameterURI ∨ t = .ipFilterRule)
    (s : Octets) : RoundTrips net t (.string s) ↔ Kept t (.string s) := by
  have hset : (new t).setString net s = ⟨t, .os s, some (.os s)⟩ := by
    refine setString_eq net ?_ ?_ s <;> rcases ht with rfl | rfl | rfl | rfl <;> decide
  have hrun : RoundTrips net t (.string s) ↔
      (Value.string s).ReadFrom net ⟨t, .os s, some (.os s)⟩ := by
    constructor
    · rintro ⟨a, ha, hread⟩
      cases ha
      rwa [hset] at hread
    · exact fun h => ⟨_, rfl, by rwa [hset]⟩
  have hchars : ∀ data : Octets, s.length < data.length →
      (Except.ok (if s.length ≥ data.length then none else some s) : Except Fault (Option Octets))
        = .ok (some s) := by
    intro data hdata
    rw [if_neg (by omega)]
  rw [hrun, Kept]
  rcases ht with rfl | rfl | rfl | rfl
  · exact iff_of_true ⟨rfl, hchars⟩ (by decide)
  · exact iff_of_true ⟨rfl, hchars⟩ (by decide)
  · exact iff_of_true ⟨rfl, hchars⟩ (by decide)
  · -- the getter has no case for it
    exact iff_of_false (fun h => absurd h.1 nofun) (by decide)

/-- What the getters make of an address. -/
theorem getString_address (net : Inet) {a : FDAvp} (ha : a.dataType = .address) {ss : SSS}
    (hss : a.getSS = .ok (some ss)) (hlen : (net.ntop ss).length < inet6AddrStrLen) :
    a.getString net = .ok (some (net.ntop ss)) := by
  rw [getString, ha]
  simp only
  rw [getChars, ha, hss]
  simp only [bind, Except.bind, pure, Except.pure, List.length_replicate]
  rw [if_neg (by omega)]

/-- **The round trip**: what is set is read, if and only if it is kept. -/
theorem roundTrips_iff (net : Inet) (t : DiameterDataType) (v : Value) (hfor : v.isFor t = true)
    (hnet : net.Knows v) : RoundTrips net t v ↔ Kept t v := by
  cases v with
  | i64 v => exact roundTrips_i64 net (by simpa [Value.isFor] using hfor) v
  | stime s =>
    obtain rfl : t = .time := by simpa [Value.isFor] using hfor
    exact roundTrips_stime net s
  | i32 v =>
    have ht : t ≠ .grouped := by
      rintro rfl
      simp [Value.isFor] at hfor
    refine iff_of_true ⟨_, rfl, ?_⟩ trivial
    rw [Value.ReadFrom, setI32, setValue_eq ht]
    rfl
  | u32 v =>
    obtain rfl : t = .u32 := by simpa [Value.isFor] using hfor
    exact iff_of_true ⟨_, rfl, rfl⟩ trivial
  | u64 v =>
    obtain rfl : t = .u64 := by simpa [Value.isFor] using hfor
    exact iff_of_true ⟨_, rfl, rfl⟩ trivial
  | bytes b =>
    obtain rfl : t = .octetString := by simpa [Value.isFor] using hfor
    refine iff_of_true ⟨_, rfl, fun len hlen => ?_, fun data hdata => ?_⟩ trivial
    · have hle : ¬ b.length > len := by omega
      show Except.ok (if b.length > len then none else some b) = _
      rw [if_neg hle]
    · have hlt : ¬ b.length ≥ data.length := by omega
      show Except.ok (if b.length ≥ data.length then none else some b) = _
      rw [if_neg hlt]
  | string s => exact roundTrips_string net (by simpa [Value.isFor, or_assoc] using hfor) s
  | ipv4 addr =>
    obtain rfl : t = .address := by simpa [Value.isFor] using hfor
    obtain ⟨hlen, hpton, hnul, htext⟩ := hnet
    refine iff_of_true ⟨_, rfl, ?_⟩ trivial
    rw [setString_address net hnul (Or.inl ⟨hpton, rfl⟩)]
    have hss : getSS ⟨.address, .os ([0, 1] ++ addr), some (.os ([0, 1] ++ addr))⟩
        = .ok (some (.inet addr)) := by
      show Except.ok (if (0 :: 1 :: addr : Octets).length ≠ 6 then none else some (SSS.inet addr)) = _
      rw [if_neg (by simp [hlen])]
    exact ⟨hss, getString_address net rfl hss htext⟩
  | ipv6 addr =>
    obtain rfl : t = .address := by simpa [Value.isFor] using hfor
    obtain ⟨hlen, hpton4, hpton6, hnul, htext⟩ := hnet
    refine iff_of_true ⟨_, rfl, ?_⟩ trivial
    rw [setString_address net hnul (Or.inr ⟨hpton4, hpton6, rfl⟩)]
    have hss : getSS ⟨.address, .os ([0, 2] ++ addr), some (.os ([0, 2] ++ addr))⟩
        = .ok (some (.inet6 addr)) := by
      show Except.ok (if (0 :: 2 :: addr : Octets).length ≠ 18 then none
        else some (SSS.inet6 addr)) = _
      rw [if_neg (by simp [hlen])]
    exact ⟨hss, getString_address net rfl hss htext⟩

/-- An `inet_pton` and `inet_ntop` that know 127.0.0.1. -/
def loopbackInet : Inet where
  pton4 text := if text = [49, 50, 55, 46, 48, 46, 48, 46, 49] then some [127, 0, 0, 1] else none
  pton6 _ := none
  ntop4 _ := [49, 50, 55, 46, 48, 46, 48, 46, 49]
  ntop6 _ := []

theorem roundTrips_loopback : RoundTrips loopbackInet .address (.ipv4 [127, 0, 0, 1]) :=
  (roundTrips_iff loopbackInet .address (.ipv4 [127, 0, 0, 1]) (by decide)
    ⟨rfl, rfl, by simp [loopbackInet], by decide⟩).mpr trivial

/-- An Integer64 has no value when it is read. -/
theorem i64_not_roundTrips :
    ¬ ∀ net t v, v.isFor t = true → net.Knows v → RoundTrips net t v := by
  intro h
  obtain ⟨a, hset, hread⟩ := h loopbackInet .i64 (.i64 5) rfl trivial
  cases hset
  exact absurd hread nofun

/-! ### Times -/

/-- The two decoders make the same of a time of four octets, `u` in the order of the network. -/
def SameTime (u : BitVec 32) : Prop :=
  let avp : FDAvp := ⟨.time, .os [], some (.os (wordOctets (swapped u)))⟩
  ∃ sec usec, avp.getI64 = .ok (some sec) ∧ avp.getSTime = .ok (some ⟨sec, usec⟩)

/-- The second that was set is read. -/
def KeptAsI64 (sec : BitVec 64) : Prop := ((new .time).setI64 sec).getI64 = .ok (some sec)

def KeptAsSTime (t : STime) : Prop :=
  ∃ a usec, (new .time).setSTime t = .ok a ∧ a.getSTime = .ok (some ⟨t.tv_sec, usec⟩)

theorem sameTime_iff (u : BitVec 32) : SameTime u ↔ 2208988800 ≤ u.toNat := by
  have hi64 : FDAvp.getI64 ⟨.time, .os [], some (.os (wordOctets (swapped u)))⟩
      = .ok (some (u.setWidth 64 - 2208988800#64)) := by
    rw [getI64, if_pos rfl, timeWord, os, value]
    simp only [bind, Except.bind, pure, Except.pure, octetsWord_wordOctets, swapped_swapped]
  have hstime : FDAvp.getSTime ⟨.time, .os [], some (.os (wordOctets (swapped u)))⟩
      = .ok (some (STime.setNTPTime u 0)) := by
    rw [getSTime, if_pos rfl, timeWord, os, value]
    simp only [bind, Except.bind, pure, Except.pure, octetsWord_wordOctets, swapped_swapped]
  have hsame : SameTime u ↔
      u.setWidth 64 - 2208988800#64 = (u - 0x83AA7E80#32).setWidth 64 := by
    simp only [SameTime, hi64, hstime, STime.setNTPTime]
    constructor
    · rintro ⟨sec, usec, hsec, htime⟩
      simp only [Except.ok.injEq, Option.some.injEq, STime.mk.injEq] at hsec htime
      rw [hsec, htime.1]
    · intro h
      exact ⟨_, _, rfl, by rw [h]⟩
  have hu := u.isLt
  rw [hsame, ← BitVec.toNat_inj, BitVec.toNat_sub, BitVec.toNat_setWidth, BitVec.toNat_setWidth,
    BitVec.toNat_sub, BitVec.toNat_ofNat, BitVec.toNat_ofNat]
  generalize u.toNat = n at hu
  omega

theorem keptAsI64_iff (sec : BitVec 32) :
    KeptAsI64 (sec.setWidth 64) ↔ sec.toNat < 2085978496 := by
  have hsec := sec.isLt
  have hnat : (sec.setWidth 64).toNat = sec.toNat := by
    rw [BitVec.toNat_setWidth]
    omega
  have hint : (sec.setWidth 64).toInt = sec.toNat := by
    rw [BitVec.toInt_eq_toNat_cond, hnat, if_pos (by omega)]
  rw [KeptAsI64, getI64_setI64, Except.ok.injEq, Option.some.injEq, reduced_eq_iff, hint]
  omega

theorem keptAsSTime (sec : BitVec 32) (usec : BitVec 64) :
    KeptAsSTime ⟨sec.setWidth 64, usec⟩ := by
  obtain ⟨a, hset, hget⟩ := getSTime_setSTime ⟨sec.setWidth 64, usec⟩
  have hkept : STime.setNTPTime (STime.getNTPTime ⟨sec.setWidth 64, 0⟩) 0
      = ⟨sec.setWidth 64, 0⟩ := by
    refine (ntpTime_eq_iff _).mpr ⟨rfl, ?_⟩
    have hsec := sec.isLt
    rw [BitVec.toNat_setWidth]
    omega
  exact ⟨a, 0, hset, hget.trans (congrArg (fun t => Except.ok (some t)) hkept)⟩

/-- **The codecs for times**: the decoders agree on the times of the first era that are not before
1970, `STime` keeps all seconds of 32 bits, and the integers keep those up to the end of the era. -/
theorem times_iff (u sec : BitVec 32) (usec : BitVec 64) :
    (SameTime u ↔ 2208988800 ≤ u.toNat) ∧ KeptAsSTime ⟨sec.setWidth 64, usec⟩ ∧
      (KeptAsI64 (sec.setWidth 64) ↔ sec.toNat < 2085978496) :=
  ⟨sameTime_iff u, keptAsSTime sec usec, keptAsI64_iff sec⟩

/-- The first second of the next era: 0 is read as a second of 1900. -/
theorem era_not_same :
    ¬ ∀ (u sec : BitVec 32) (usec : BitVec 64), SameTime u ∧ KeptAsSTime ⟨sec.setWidth 64, usec⟩ ∧
      KeptAsI64 (sec.setWidth 64) := by
  intro h
  obtain ⟨sec, usec, hsec, htime⟩ := (h 0 0 0).1
  have hi64 : FDAvp.getI64 ⟨.time, .os [], some (.os (wordOctets (swapped 0)))⟩
      = .ok (some (-2208988800)) := by decide
  have hstime : FDAvp.getSTime ⟨.time, .os [], some (.os (wordOctets (swapped 0)))⟩
      = .ok (some ⟨2085978496, 0⟩) := by decide
  rw [hi64] at hsec
  rw [hstime] at htime
  cases hsec
  simp only [Except.ok.injEq, Option.some.injEq, STime.mk.injEq] at htime
  exact absurd htime.1 (by decide)

end OpenairHss.FdAvp
