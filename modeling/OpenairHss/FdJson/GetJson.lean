import OpenairHss.FdAvp.Avp
import OpenairHss.Stime.DateTime

/-!
# JSON from AVPs

`fdJsonGetJSON` of `fdjson.cpp`, which writes an AVP with all that is in it as a JSON text.

The derived type of an AVP is looked for where its base type is OctetString.  If there is none, the
type that was found for an AVP before it in the same group is used.

What RapidJSON and the system do is a parameter (`Writer`).
-/

namespace OpenairHss.FdJson

inductive AvpTree
  | leaf (name : String) (value : AvpValue)
  | group (name : String) (children : List AvpTree)

def AvpTree.name : AvpTree → String
  | .leaf name _ => name
  | .group name _ => name

/-- What is taken from RapidJSON and the system to write a text. -/
structure Writer where
  system : Stime.System
  inet_ntop4 : Octets → Octets
  inet_ntop6 : Octets → Octets
  ofFloat : BitVec 32 → JsonNumber
  ofDouble : BitVec 64 → JsonNumber
  write : Json → String
  /-- A number, after it was written and read; some are not written. -/
  reread : JsonNumber → Option JsonNumber

/-- How the code is left other than by its end. -/
inductive GetStop
  | timeLength (name : String)
  | ipv4Length (name : String)
  | ipv6Length (name : String)
  | addressType (type : Nat) (name : String)
  /-- The address type of fewer than two octets; no length fits whatever is read behind the end. -/
  | noAddressType (name : String)
  /-- `runtimeError`: `fd_msg_model` has failed.  It is reported, and there is no text. -/
  | model (name : String)
  deriving DecidableEq

def hexDigits (n : Nat) : UInt8 := if n < 10 then UInt8.ofNat (0x30 + n) else UInt8.ofNat (0x37 + n)

def fdJsonBinaryToHex (buffer : Octets) : Octets :=
  0x30 :: 0x78 :: buffer.flatMap fun b => [hexDigits (b.toNat / 16), hexDigits (b.toNat % 16)]

def ntpSecond (buffer : Octets) : BitVec 32 :=
  BitVec.ofNat 32 (buffer.foldl (fun n c => n * 256 + c.toNat) 0)

/-- The seconds of a `STime` that was set to it. -/
def timeSeconds (buffer : Octets) : Int := (FdAvp.STime.setNTPTime (ntpSecond buffer) 0).tv_sec.toInt

section Code

variable (fd : FreeDiameter) (w : Writer)

def fdJsonTimeToStr (name : String) (buffer : Octets) : Except GetStop Octets :=
  if buffer.length ≠ 4 then .error (.timeLength name)
  else .ok (w.system.format (timeSeconds buffer) 0)

def fdJsonAddressToStr (name : String) : Octets → Except GetStop Octets
  | a :: b :: addr =>
    let addressType := a.toNat * 256 + b.toNat
    if addressType = 1 then
      if addr.length + 2 ≠ 6 then .error (.ipv4Length name) else .ok (w.inet_ntop4 addr)
    else if addressType = 2 then
      if addr.length + 2 ≠ 18 then .error (.ipv6Length name) else .ok (w.inet_ntop6 addr)
    else .error (.addressType addressType name)
  | _ => .error (.noAddressType name)

/-- `isDerived` with the name of `derivedData`, after an AVP of the dictionary. -/
def nextDerived (d : DictAvp) (derived : Option String) : Option String :=
  if d.avp_basetype = .octetString then d.type_name <|> derived else derived

def octetsText (name : String) (derived : Option String) (data : Octets) : Except GetStop Octets :=
  match derived with
  | some "Address" => fdJsonAddressToStr w name data
  | some "Time" => fdJsonTimeToStr w name data
  | some _ => .ok data
  | none => .ok (fdJsonBinaryToHex data)

def memberValue (name : String) (derived : Option String) : AvpValue → Except GetStop Json
  | .os data => (octetsText w name derived data).map .string
  | .i32 v => .ok (.number (.int v.toInt))
  | .i64 v => .ok (.number (.int v.toInt))
  | .u32 v => .ok (.number (.int v.toNat))
  | .u64 v => .ok (.number (.int v.toNat))
  | .f32 v => .ok (.number (w.ofFloat v))
  | .f64 v => .ok (.number (w.ofDouble v))

def model (name : String) : Except GetStop DictAvp :=
  match fd.dict name with
  | some d => .ok d
  | none => .error (.model name)

mutual

/-- One round of the loop of `fdJsonAddMembers`: the member for an AVP, where `derived` is that of
the AVP. -/
def fdJsonAddMember (derived : Option String) : AvpTree → Except GetStop Json
  | .leaf name value => memberValue w name derived value
  | .group _ children => return .object (← fdJsonAddMembers none children)

/-- `fdJsonAddMembers`, from a child on. -/
def fdJsonAddMembers (derived : Option String) :
    List AvpTree → Except GetStop (List (String × Json))
  | [] => .ok []
  | a :: rest => do
    let d ← model fd a.name
    let value ← fdJsonAddMember (nextDerived d derived) a
    return (a.name, value) :: (← fdJsonAddMembers (nextDerived d derived) rest)

end

/-- The AVPs in an AVP; one that is not grouped has none. -/
def AvpTree.children : AvpTree → List AvpTree
  | .leaf _ _ => []
  | .group _ children => children

def document (tree : AvpTree) : Except GetStop Json := do
  let members ← fdJsonAddMembers fd w none tree.children
  let _ ← model fd tree.name
  return .object [(tree.name, .object members)]

def fdJsonGetJSON (tree : AvpTree) : Except GetStop String :=
  return w.write (← document fd w tree)

end Code

/-! ### The document that is read -/

mutual

def rereadJson (w : Writer) : Json → Option Json
  | .number n => (w.reread n).map .number
  | .array elements => (rereadElements w elements).map .array
  | .object members => (rereadMembers w members).map .object
  | .null => some .null
  | .bool b => some (.bool b)
  | .string s => some (.string s)

def rereadElements (w : Writer) : List Json → Option (List Json)
  | [] => some []
  | value :: rest => do return (← rereadJson w value) :: (← rereadElements w rest)

def rereadMembers (w : Writer) : List (String × Json) → Option (List (String × Json))
  | [] => some []
  | (name, value) :: rest => do return (name, ← rereadJson w value) :: (← rereadMembers w rest)

end

end OpenairHss.FdJson
