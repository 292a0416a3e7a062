import OpenairHss.Lib.Json
import OpenairHss.Lib.Traced

/-!
# AVPs from JSON

`fdJsonAddAvps` of `fdjson.cpp`, which makes AVPs of the members of a JSON text and adds them to a
message or a grouped AVP.

What is outside of the repository is a parameter (`FreeDiameter`): the dictionary, the message
functions, and the conversions of addresses and times.  An effect carries the place of the member
that it is about, as the path of positions in the document, innermost first; so does an exception.

`fdJsonAddAvps` reads the members of a document without asking whether it is an object, which is an
assertion of RapidJSON.
-/

namespace OpenairHss.FdJson

/-! ### The dictionary -/

/-- `AVP_TYPE_*`. -/
inductive BaseType
  | octetString
  | integer32
  | integer64
  | unsigned32
  | unsigned64
  | float32
  | float64
  | grouped
  deriving DecidableEq

/-- `AvpDataType`, without `ADTUnknown`. -/
inductive AvpDataType
  | octetString
  | i32
  | i64
  | u32
  | u64
  | f32
  | f64
  | grouped
  | address
  | time
  | utf8String
  | diameterIdentity
  | diameterURI
  | enumerated
  | ipFilterRule
  deriving DecidableEq

/-- What the dictionary has of an AVP: its base type, and the name of its derived type. -/
structure DictAvp where
  avp_basetype : BaseType
  type_name : Option String

def BaseType.dataType : BaseType → AvpDataType
  | .octetString => .octetString
  | .integer32 => .i32
  | .integer64 => .i64
  | .unsigned32 => .u32
  | .unsigned64 => .u64
  | .float32 => .f32
  | .float64 => .f64
  | .grouped => .grouped

/-- The type that `AvpDictionaryEntry::init` finds. -/
def DictAvp.type (d : DictAvp) : AvpDataType :=
  match d.type_name with
  | some "Enumerated" => .enumerated
  | some "Time" => .time
  | some "Address" => .address
  | some "UTF8String" => .utf8String
  | some "DiameterIdentity" => .diameterIdentity
  | some "DiameterURI" => .diameterURI
  | some "IPFilterRule" => .ipFilterRule
  | _ => d.avp_basetype.dataType

abbrev Octets : Type := List UInt8

/-- `union avp_value`. -/
inductive AvpValue
  | i32 (v : BitVec 32)
  | i64 (v : BitVec 64)
  | u32 (v : BitVec 32)
  | u64 (v : BitVec 64)
  | f32 (v : BitVec 32)
  | f64 (v : BitVec 64)
  | os (data : Octets)
  deriving DecidableEq

/-- What `memset (&mValue, 0, ..)` leaves, for an AVP of this base type. -/
def BaseType.zero : BaseType → AvpValue
  | .integer32 => .i32 0
  | .integer64 => .i64 0
  | .unsigned32 => .u32 0
  | .unsigned64 => .u64 0
  | .float32 => .f32 0
  | .float64 => .f64 0
  | .octetString | .grouped => .os []

/-- What the code takes from freeDiameter, RapidJSON and the system. -/
structure FreeDiameter where
  /-- The document of a text, unless `HasParseError`. -/
  parse : String → Option Json
  dict : String → Option DictAvp
  /-- The return codes of `fd_msg_avp_new`, `fd_msg_avp_setvalue` and `fd_msg_avp_add`; the reference
  is the AVP of this name, or what the AVPs are added to. -/
  avpNew : String → Int
  setvalue : String → AvpValue → Int
  avpAdd : Option String → String → Int
  inet_pton4 : Octets → Option Octets
  inet_pton6 : Octets → Option Octets
  /-- The seconds after `STime::ParseDateTime`. -/
  parseDateTime : Octets → Int
  /-- `GetFloat` of a number with these bits. -/
  float : BitVec 64 → BitVec 32

/-! ### Exceptions and effects -/

/-- The place of a member in the document, innermost first. -/
abbrev Path : Type := List Nat

/-- `runtimeInfo`: what is wrong with a member. -/
inductive Info
  | unknown (name : String)
  | bool (name : String)
  | null (name : String)
  | mismatch (name : String) (type : AvpDataType)
  deriving DecidableEq

/-- `runtimeError`: which function of freeDiameter has failed. -/
inductive Failure
  | creating (name : String) (ret : Int)
  | setting (name : String) (ret : Int)
  | adding (name : String) (ret : Int)
  deriving DecidableEq

/-- What is passed to `errfunc`. -/
inductive Report
  | info (i : Info)
  | failure (f : Failure)
  | parsing
  deriving DecidableEq

/-- How the code is left other than by its end. -/
inductive Stop
  | runtimeInfo (path : Path) (i : Info)
  | runtimeError (f : Failure)
  /-- A call of `errfunc` that is `NULL`. -/
  | nullCall
  /-- `RAPIDJSON_ASSERT`. -/
  | assertion
  deriving DecidableEq

inductive Event
  /-- An AVP was added; a grouped one has no value. -/
  | added (reference : Option String) (name : String) (value : Option AvpValue)
  | reported (r : Report)
  deriving DecidableEq

abbrev Code : Type → Type := Traced Stop (Path × Event)

/-! ### Values -/

/-- A C string: what stands before the first NUL. -/
def untilNul (s : Octets) : Octets := s.takeWhile (· ≠ 0)

def cString (s : String) : Octets := s.toUTF8.data.toList.takeWhile (· ≠ 0)

def cName (s : String) : String := String.ofList (s.toList.takeWhile (· ≠ '\x00'))

def isHexDigit (x : UInt8) : Bool :=
  decide ((0x30 ≤ x ∧ x ≤ 0x39) ∨ (0x61 ≤ x ∧ x ≤ 0x66) ∨ (0x41 ≤ x ∧ x ≤ 0x46))

def hex2bin (x : UInt8) : UInt8 :=
  if 0x30 ≤ x ∧ x ≤ 0x39 then x - 0x30
  else if 0x61 ≤ x ∧ x ≤ 0x66 then x - 0x61 + 10
  else if 0x41 ≤ x ∧ x ≤ 0x46 then x - 0x41 + 10
  else 15

def isHexString (s : Octets) : Bool :=
  if s.length % 2 ≠ 0 then false
  else if s.length < 2 then false
  else if s.getD 0 0 ≠ 0x30 ∨ ¬ (s.getD 1 0 = 0x78 ∨ s.getD 1 0 = 0x58) then false
  else (s.drop 2).all isHexDigit

def hexOctets : Octets → Octets
  | c :: d :: rest => ((hex2bin c <<< 4) + hex2bin d) :: hexOctets rest
  | _ => []

/-- The four octets of `ntp.second`, in the order of the network. -/
def timeOctets (tv_sec : Int) : Octets :=
  let u := BitVec.ofInt 32 (tv_sec + 0x83AA7E80)
  [3, 2, 1, 0].map fun i => UInt8.ofNat (u.toNat / 2 ^ (8 * i))

section Values

variable (fd : FreeDiameter)

def numberValue (d : DictAvp) (n : JsonNumber) : Option AvpValue :=
  let integer : Int := match n with
    | .int n => n
    | .double _ _ => 0
  let bits : BitVec 64 := match n with
    | .int _ => 0
    | .double _ bits => bits
  match d.avp_basetype with
  | .integer32 => if n.isInt then some (.i32 (BitVec.ofInt 32 integer)) else none
  | .integer64 => if n.isInt64 then some (.i64 (BitVec.ofInt 64 integer)) else none
  | .unsigned32 => if n.isUint then some (.u32 (BitVec.ofInt 32 integer)) else none
  | .unsigned64 => if n.isUint64 then some (.u64 (BitVec.ofInt 64 integer)) else none
  | .float32 => if n.isFloat then some (.f32 (fd.float bits)) else none
  | .float64 => if n.isDouble then some (.f64 bits) else none
  | .octetString | .grouped => none

def stringValue (d : DictAvp) (s : Octets) : Option AvpValue :=
  let raw := untilNul s
  if d.avp_basetype ≠ .octetString then none
  else match d.type with
    | .address => match fd.inet_pton4 raw with
      | some addr => some (.os ([0, 1] ++ addr))
      | none => match fd.inet_pton6 raw with
        | some addr => some (.os ([0, 2] ++ addr))
        | none => some (.os raw)
    | .time => some (.os (timeOctets (fd.parseDateTime raw)))
    | .octetString => if isHexString raw then some (.os (hexOctets (raw.drop 2))) else some (.os raw)
    | _ => some (.os raw)

end Values

/-! ### The code -/

section Code

variable (fd : FreeDiameter) (errfunc : Bool)

/-- `errfunc (what)`; `errfunc` says whether the pointer is not `NULL`. -/
def callErrfunc (path : Path) (r : Report) : Code Unit :=
  if errfunc then Traced.emit (path, .reported r) else Traced.raise .nullCall

/-- `AVP avp (name)`. -/
def newAvp (path : Path) (name : String) : Code DictAvp :=
  match fd.dict name with
  | some d => pure d
  | none => Traced.raise (.runtimeInfo path (.unknown name))

def addTo (path : Path) (reference : Option String) (name : String) (d : DictAvp)
    (value : AvpValue) : Code Unit :=
  if fd.avpNew name ≠ 0 then Traced.raise (.runtimeError (.creating name (fd.avpNew name)))
  else if d.avp_basetype ≠ .grouped ∧ fd.setvalue name value ≠ 0 then
    Traced.raise (.runtimeError (.setting name (fd.setvalue name value)))
  else if fd.avpAdd reference name ≠ 0 then
    Traced.raise (.runtimeError (.adding name (fd.avpAdd reference name)))
  else Traced.emit (path, .added reference name
    (if d.avp_basetype = .grouped then none else some value))

/-- An AVP without members: its value, or a `runtimeInfo`. -/
def addValue (path : Path) (reference : Option String) (name : String) (d : DictAvp)
    (value : Option AvpValue) : Code Unit :=
  match value with
  | some v => addTo fd path reference name d v
  | none => Traced.raise (.runtimeInfo path (.mismatch name d.type))

/-- `catch (runtimeInfo& exi) { errfunc (exi.what ()); }`. -/
def catchInfo (x : Code Unit) : Code Unit :=
  x.handle fun
    | .runtimeInfo path i => callErrfunc errfunc path (.info i)
    | s => Traced.raise s

mutual

def fdJsonAddAvp (path : Path) (reference : Option String) (name : String) : Json → Code Unit
  | .bool _ => do
    let _ ← newAvp fd path name
    Traced.raise (.runtimeInfo path (.bool name))
  | .null => do
    let _ ← newAvp fd path name
    Traced.raise (.runtimeInfo path (.null name))
  | .number n => do
    let avp ← newAvp fd path name
    addValue fd path reference name avp (numberValue fd avp n)
  | .string s => do
    let avp ← newAvp fd path name
    addValue fd path reference name avp (stringValue fd avp s)
  | .array elements => do
    let _ ← newAvp fd path name
    addElements path 0 reference name elements
  | .object members => do
    let avp ← newAvp fd path name
    addTo fd path reference name avp avp.avp_basetype.zero
    addMembers path 0 (some name) members

/-- The loop over the elements of an array. -/
def addElements (path : Path) (i : Nat) (reference : Option String) (name : String) :
    List Json → Code Unit
  | [] => pure ()
  | value :: rest => do
    fdJsonAddAvp (i :: path) reference name value
    addElements path (i + 1) reference name rest

/-- `fdJsonAddAvps` for the members of an object inside of the document. -/
def addMembers (path : Path) (i : Nat) (reference : Option String) :
    List (String × Json) → Code Unit
  | [] => pure ()
  | (name, value) :: rest => do
    catchInfo errfunc (fdJsonAddAvp (i :: path) reference (cName name) value)
    addMembers path (i + 1) reference rest

end

/-- The loop of `fdJsonAddAvps` over the members of the document. -/
def addDocument (i : Nat) : List (String × Json) → Code Unit
  | [] => pure ()
  | (name, value) :: rest => do
    fdJsonAddAvp fd errfunc [i] none (cName name) value
    addDocument (i + 1) rest

def FDJSON_SUCCESS : Int := 0
def FDJSON_JSON_PARSING_ERROR : Int := 1
def FDJSON_EXCEPTION : Int := 2

def fdJsonAddAvps (json : Option String) : Code Int :=
  match json.bind fd.parse with
  | none => do
    callErrfunc errfunc [] .parsing
    return FDJSON_JSON_PARSING_ERROR
  | some (.object members) =>
    (do
      addDocument fd errfunc 0 members
      return FDJSON_SUCCESS : Code Int).handle fun
        | .runtimeError f => do
          callErrfunc errfunc [] (.failure f)
          return FDJSON_EXCEPTION
        | s => Traced.raise s
  | some _ => Traced.raise .assertion

/-- `FDAvp::addJson` and `FDMessage::addJson`. -/
def addJson (json : String) : Code Unit := do
  let _ ← fdJsonAddAvps fd false (some json)
  return ()

end Code

end OpenairHss.FdJson
