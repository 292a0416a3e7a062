import OpenairHss.FdJson.AddAvps

/-!
# The values of an AVP

`FDAvp::set` and `FDAvp::get` of `fd.h` and `fd.cpp`.

An `FDAvp` has `m_value`, which the setters fill, and freeDiameter has a value for the AVP, which
`assignValue` sets and the getters read (`stored`).  The getters are those of an `FDAvp` that was made
for an AVP that exists (one that makes its AVP has no header, and its getters return `false`); they
return `none` for `false`.

The addresses are those of `inet_pton` and `inet_ntop`, which are a parameter (`Inet`).
-/

namespace OpenairHss.FdAvp

open FdJson (Octets AvpValue)

/-- `DiameterDataType`: a derived type that is not listed, as Enumerated, is `DDTUnknown`. -/
inductive DiameterDataType
  | unknown
  | octetString
  | i32
  | i64
  | u32
  | u64
  | f32
  | f64
  | grouped
  | address
  | time
  | utf8String
  | diameterIdentity
  | diameterURI
  | ipFilterRule
  deriving DecidableEq

/-- `inet_pton` and `inet_ntop`, for AF_INET and AF_INET6. -/
structure Inet where
  pton4 : Octets → Option Octets
  pton6 : Octets → Option Octets
  ntop4 : Octets → Octets
  ntop6 : Octets → Octets

structure FDAvp where
  dataType : DiameterDataType
  m_value : AvpValue
  /-- What `fd_msg_avp_setvalue` has stored. -/
  stored : Option AvpValue

/-- How a getter is left other than by `return`. -/
inductive Fault
  /-- `avp_value` is `NULL`. -/
  | noValue
  /-- A member of the union is read that was not written. -/
  | otherMember
  /-- An octet behind the end is read. -/
  | behindEnd
  | fdException
  deriving DecidableEq

/-! ### Words and times -/

def wordOctets (u : BitVec 32) : Octets :=
  [⟨u.extractLsb' 0 8⟩, ⟨u.extractLsb' 8 8⟩, ⟨u.extractLsb' 16 8⟩, ⟨u.extractLsb' 24 8⟩]

def octetsWord : Octets → Option (BitVec 32)
  | b0 :: b1 :: b2 :: b3 :: _ => some (b3.toBitVec ++ b2.toBitVec ++ b1.toBitVec ++ b0.toBitVec)
  | _ => none

/-- The octets of a word are put into the order of the network, or back. -/
def swapped (u : BitVec 32) : BitVec 32 :=
  u.extractLsb' 0 8 ++ u.extractLsb' 8 8 ++ u.extractLsb' 16 8 ++ u.extractLsb' 24 8

structure STime where
  tv_sec : BitVec 64
  tv_usec : BitVec 64
  deriving DecidableEq

/-- `STime::getNTPTime`, the seconds. -/
def STime.getNTPTime (t : STime) : BitVec 32 := (t.tv_sec + 0x83AA7E80#64).setWidth 32

def STime.setNTPTime (second fraction : BitVec 32) : STime where
  tv_sec := (second - 0x83AA7E80#32).setWidth 64
  tv_usec := BitVec.ofNat 64 (fraction.toNat * 10 ^ 6 / 2 ^ 32)

inductive SSS
  | inet (addr : Octets)
  | inet6 (addr : Octets)
  deriving DecidableEq

def Inet.ntop (net : Inet) : SSS → Octets
  | .inet addr => net.ntop4 addr
  | .inet6 addr => net.ntop6 addr

namespace FDAvp

/-! ### Setters -/

def new (t : DiameterDataType) : FDAvp := ⟨t, .os [], none⟩

def assignValue (a : FDAvp) : FDAvp :=
  if a.dataType ≠ .grouped then { a with stored := some a.m_value } else a

/-- The setters that do no more than that. -/
def setValue (a : FDAvp) (v : AvpValue) : FDAvp := assignValue { a with m_value := v }

def setI32 (a : FDAvp) (v : BitVec 32) : FDAvp := setValue a (.i32 v)

def setU32 (a : FDAvp) (v : BitVec 32) : FDAvp := setValue a (.u32 v)

def setU64 (a : FDAvp) (v : BitVec 64) : FDAvp := setValue a (.u64 v)

def setBytes (a : FDAvp) (v : Octets) : FDAvp := setValue a (.os v)

/-- `set (int64_t)`: but for a time, nothing is assigned.  The octets of a time are those of a local
variable, which `assignValue` reads once more when its block has ended. -/
def setI64 (a : FDAvp) (v : BitVec 64) : FDAvp :=
  if a.dataType = .time then
    let u := ((v.setWidth 32).setWidth 64 + 2208988800#64).setWidth 32
    assignValue (setBytes a (wordOctets (swapped u)))
  else { a with m_value := .i64 v }

def setString (net : Inet) (a : FDAvp) (v : Octets) : FDAvp :=
  let text := v.takeWhile (· ≠ 0)
  let a := if a.dataType = .address then
      match net.pton4 text with
      | some addr => setBytes a ([0, 1] ++ addr)
      | none => match net.pton6 text with
        | some addr => setBytes a ([0, 2] ++ addr)
        | none => setBytes a v
    else setBytes a v
  assignValue a

def setSTime (a : FDAvp) (v : STime) : Except Fault FDAvp :=
  if a.dataType = .time then
    return assignValue (setBytes a (wordOctets (swapped v.getNTPTime)))
  else throw .fdException

/-! ### Getters -/

def value (a : FDAvp) : Except Fault AvpValue :=
  match a.stored with
  | some v => .ok v
  | none => .error .noValue

def os (a : FDAvp) : Except Fault Octets := do
  match ← a.value with
  | .os data => return data
  | _ => throw .otherMember

def getI32 (a : FDAvp) : Except Fault (Option (BitVec 32)) := do
  match ← a.value with
  | .i32 v => return some v
  | _ => throw .otherMember

def getU32 (a : FDAvp) : Except Fault (Option (BitVec 32)) := do
  match ← a.value with
  | .u32 v => return some v
  | _ => throw .otherMember

def getU64 (a : FDAvp) : Except Fault (Option (BitVec 64)) := do
  match ← a.value with
  | .u64 v => return some v
  | _ => throw .otherMember

def timeWord (a : FDAvp) : Except Fault (BitVec 32) := do
  match octetsWord (← a.os) with
  | some u => return swapped u
  | none => throw .behindEnd

def getI64 (a : FDAvp) : Except Fault (Option (BitVec 64)) := do
  if a.dataType = .time then
    let u ← a.timeWord
    return some (u.setWidth 64 - 2208988800#64)
  else match ← a.value with
    | .i64 v => return some v
    | _ => throw .otherMember

def getSTime (a : FDAvp) : Except Fault (Option STime) := do
  if a.dataType = .time then
    let u ← a.timeWord
    return some (STime.setNTPTime u 0)
  else throw .fdException

def getSS (a : FDAvp) : Except Fault (Option SSS) := do
  let data ← a.os
  match data with
  | t :: t' :: addr =>
    match 256 * t.toNat + t'.toNat with
    | 1 => return if data.length ≠ 6 then none else some (.inet addr)
    | 2 => return if data.length ≠ 18 then none else some (.inet6 addr)
    | _ => return none
  | _ => throw .behindEnd

/-- `get (uint8_t*, size_t&)`, into a buffer of this size. -/
def getBytes (a : FDAvp) (len : Nat) : Except Fault (Option Octets) := do
  if a.dataType ≠ .octetString then return none
  let data ← a.os
  return if data.length > len then none else some data

/-- `get (char*, size_t&)`, with what the buffer has before. -/
def getChars (net : Inet) (a : FDAvp) (data : Octets) : Except Fault (Option Octets) := do
  match a.dataType with
  | .address =>
    match ← a.getSS with
    | none => return none
    | some ss =>
      let str := net.ntop ss
      return if str.length ≥ data.length then none else some str
  | .utf8String | .diameterIdentity | .diameterURI | .octetString =>
    let v ← a.os
    return if v.length ≥ data.length then none else some v
  | _ => return some data

def inet6AddrStrLen : Nat := 46

def getString (net : Inet) (a : FDAvp) : Except Fault (Option Octets) := do
  match a.dataType with
  | .address => a.getChars net (List.replicate inet6AddrStrLen 0)
  | .utf8String | .diameterIdentity | .diameterURI =>
    let v ← a.os
    return some v
  | _ => return none

end FDAvp

end OpenairHss.FdAvp
