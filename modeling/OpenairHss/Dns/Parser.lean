import Mathlib.Data.List.Basic
import Mathlib.Data.BitVec
import Mathlib.Data.UInt

/-!
# The parser of DNS responses

`CachedDNS::Parser` with its `MessageBuffer`.  A pointer into the message is an offset, and `none`
is `NULL`.  A read through a pointer that does not lie in the message ends the run (`outside`):
the language says nothing about what follows.  The loop of `parseDomainName` has `fuel` for the
number of its passes, and `spins` is the outcome when that runs out.

A message that DNS delivers has at most 65535 octets, so no `int` of the parser wraps.  The members
that `parseResourceRecord` sets for the functions it calls are their argument `Fixed`.  The time at
which a record expires is left out: nothing of the parser reads it.
-/

namespace OpenairHss.Dns

abbrev Octets : Type := List UInt8

/-- The class `IN` and the types that have a function of their own. -/
def nsCIn : Nat := 1
def nsTA : Nat := 1
def nsTNs : Nat := 2
def nsTCname : Nat := 5
def nsTAaaa : Nat := 28
def nsTSrv : Nat := 33
def nsTNaptr : Nat := 35

/-! ### What is parsed -/

structure Question where
  qname : Octets
  qtype : Nat
  qclass : Nat

/-- The fields that all records have. -/
structure Fixed where
  name : Octets
  type : Nat
  cls : Nat
  ttl : Int
  rdlength : Nat

inductive ResourceRecord
  | rr (name : Octets) (type cls : Nat) (ttl : Int)
  | a (name : Octets) (ttl : Int) (address : Octets)
  | ns (name : Octets) (ttl : Int) (ns : Octets)
  | cname (name : Octets) (ttl : Int) (cname : Octets)
  | aaaa (name : Octets) (ttl : Int) (address : Octets)
  | srv (name : Octets) (ttl : Int) (priority weight port : Nat) (target : Octets)
  | naptr (name : Octets) (ttl : Int) (order preference : Nat)
      (flags service regexp replacement : Octets)

structure Query where
  question : List Question
  answer : List ResourceRecord
  authority : List ResourceRecord
  additional : List ResourceRecord

/-! ### The language of the parser -/

/-- The offset of the buffer, and the query that is filled. -/
structure St where
  ofs : Nat
  query : Query

/-- How a piece of the parser ends. -/
inductive Res (α : Type)
  | done (a : α) (s : St)
  /-- `SError::throwRuntimeException`. -/
  | raised (what : String)
  /-- A byte outside the message was read. -/
  | outside
  /-- The passes of a loop ran out. -/
  | spins

def Parser (α : Type) : Type := St → Res α

instance : Monad Parser where
  pure a := fun s => .done a s
  bind p k := fun s => match p s with
    | .done a s' => k a s'
    | .raised what => .raised what
    | .outside => .outside
    | .spins => .spins

theorem Parser.bind_apply {α β : Type} (p : Parser α) (k : α → Parser β) (s : St) :
    (p >>= k) s = match p s with
      | .done a s' => k a s'
      | .raised what => .raised what
      | .outside => .outside
      | .spins => .spins := rfl

theorem bind_of {α β : Type} {p : Parser α} {k : α → Parser β} {s s' : St} {a : α}
    (h : p s = .done a s') : (p >>= k) s = k a s' := by
  rw [Parser.bind_apply, h]

def raise {α : Type} (what : String) : Parser α := fun _ => .raised what
def spin {α : Type} : Parser α := fun _ => .spins
def getOffset : Parser Nat := fun s => .done s.ofs s

section Buffer

variable (m : Octets)

/-- `MessageBuffer::getPointer (ofs)`. -/
def pointerAt (ofs : Nat) : Option Nat := if ofs ≥ m.length then none else some ofs

def getPointer : Parser (Option Nat) := fun s => .done (pointerAt m s.ofs) s

def validateLength (ofs len : Nat) : Bool := if ofs + len ≥ m.length then false else true

/-- `MessageBuffer::incrementOffset`. -/
def advance (ofs len : Nat) : Nat := if ofs + len > m.length then m.length else ofs + len

theorem advance_of_le {m : Octets} {ofs n : Nat} (h : ofs + n ≤ m.length) :
    advance m ofs n = ofs + n := if_neg (Nat.not_lt.mpr h)

def incrementOffset (len : Nat) : Parser Unit := fun s =>
  .done () { s with ofs := advance m s.ofs len }

/-- `ptr[i]`. -/
def deref (ptr : Option Nat) (i : Nat) : Parser UInt8 := fun s =>
  match ptr.bind fun ofs => m[ofs + i]? with
  | some b => .done b s
  | none => .outside

/-- The `len` bytes at `ptr`.  Where `len` is 0 nothing is read. -/
def copy (ptr : Option Nat) (len : Nat) : Parser Octets := fun s =>
  if len = 0 then .done [] s
  else match ptr with
    | some ofs => if ofs + len ≤ m.length then .done ((m.drop ofs).take len) s else .outside
    | none => .outside

def getInt16 (ptr : Option Nat) (i : Nat) : Parser Nat := do
  let b0 ← deref m ptr i
  let b1 ← deref m ptr (i + 1)
  return b0.toNat * 2 ^ 8 + b1.toNat

/-- `GET_INT32`, an `int`. -/
def getInt32 (ptr : Option Nat) (i : Nat) : Parser Int := do
  let b0 ← deref m ptr i
  let b1 ← deref m ptr (i + 1)
  let b2 ← deref m ptr (i + 2)
  let b3 ← deref m ptr (i + 3)
  return Int.bmod (b0.toNat * 2 ^ 24 + b1.toNat * 2 ^ 16 + b2.toNat * 2 ^ 8 + b3.toNat : Nat) (2 ^ 32)

end Buffer

/-! ### Names and strings -/

def labelLength (b : UInt8) : Option Nat :=
  if b &&& 0xc0 = 0 then some (b &&& 0x3f).toNat else none

/-- The first octet of a compression pointer. -/
def isLabelOffset (b : UInt8) : Bool := b &&& 0xc0 = 0xc0

/-- `LABEL_OFFSET`, for the two octets of a compression pointer. -/
def labelOffset (b0 b1 : UInt8) : Nat := (b0 &&& 0x3f).toNat * 2 ^ 8 + b1.toNat

/-- `std::transform` with `tolower`. -/
def toLower (dn : Octets) : Octets :=
  dn.map fun b => if 0x41 ≤ b ∧ b ≤ 0x5a then b + 0x20 else b

/-- The digits of `%x`. -/
def hexDigits (b : UInt8) : String := String.ofList (Nat.toDigits 16 b.toNat)

/-- The locals of `parseDomainName`. -/
structure NameState where
  dn : Octets
  compressedLength : Nat
  currOfs : Nat
  offsetActive : Bool
  ptr : Option Nat

namespace NameState

/-- The locals after a label of `val` octets, `b` being the octet that follows it. -/
def afterLabel (st : NameState) (val : Nat) (label : Octets) (b : UInt8) : NameState where
  dn := st.dn ++ label ++ (if b ≠ 0 then [0x2e] else [])
  compressedLength :=
    if !st.offsetActive then st.compressedLength + (val + 1) else st.compressedLength
  currOfs := st.currOfs + (val + 1)
  offsetActive := st.offsetActive
  ptr := st.ptr.map (· + 1 + val)

/-- The locals after a compression pointer to `val`. -/
def afterOffset (m : Octets) (st : NameState) (val : Nat) : NameState where
  dn := st.dn
  compressedLength := if !st.offsetActive then st.compressedLength + 2 else st.compressedLength
  currOfs := val
  offsetActive := true
  ptr := pointerAt m val

/-- The octets that the name takes where it stands. -/
def length (st : NameState) : Nat :=
  if !st.offsetActive then st.compressedLength + 1 else st.compressedLength

end NameState

section Parser

variable (m : Octets)

/-- The loop of `parseDomainName`. -/
def nameLoop : Nat → NameState → Parser NameState
  | 0, _ => spin
  | fuel + 1, st => do
    let b ← deref m st.ptr 0
    if b = 0 then return st
    else match labelLength b with
    | some val =>
      if !validateLength m st.currOfs val then raise "label extends beyond end of message"
      else
        let label ← copy m (st.ptr.map (· + 1)) val
        let b' ← deref m (st.ptr.map (· + 1 + val)) 0
        nameLoop fuel (st.afterLabel val label b')
    | none =>
      if isLabelOffset b then do
        let b1 ← deref m st.ptr 1
        nameLoop fuel (st.afterOffset m (labelOffset b b1))
      else raise ("Unexpected label/offset field " ++ hexDigits b ++ " at offset "
        ++ toString (st.ptr.getD 0))

def parseDomainName (fuel : Nat) : Parser Octets := do
  let currOfs ← getOffset
  let ptr ← getPointer m
  let st ← nameLoop m fuel
    { dn := [], compressedLength := 0, currOfs := currOfs, offsetActive := false, ptr := ptr }
  let dn := if st.length = 1 then [0x2e] else st.dn
  incrementOffset m st.length
  return toLower dn

def parseCharacterString : Parser Octets := do
  let len ← deref m (← getPointer m) 0
  incrementOffset m 1
  let cs ← copy m (← getPointer m) len.toNat
  incrementOffset m len.toNat
  return toLower cs

/-! ### Records -/

variable (fuel : Nat)

def parseRR (r : Fixed) : Parser ResourceRecord := do
  incrementOffset m r.rdlength
  return .rr r.name r.type r.cls r.ttl

/-- The body that `parseA` and `parseAAAA` share: an address of `size` octets. -/
def parseAddress (what : String) (size : Nat) (r : Fixed) (rdata : Option Nat) :
    Parser Octets := do
  if r.rdlength ≠ size then
    raise (what ++ " - invalid RDLENGTH [" ++ toString r.rdlength ++ "] expected ["
      ++ toString size ++ "]")
  else
    let address ← copy m rdata size
    incrementOffset m r.rdlength
    return address

def parseA (r : Fixed) (rdata : Option Nat) : Parser ResourceRecord := do
  let address ← parseAddress m "Parser::parseA()" 4 r rdata
  return .a r.name r.ttl address

def parseAAAA (r : Fixed) (rdata : Option Nat) : Parser ResourceRecord := do
  let address ← parseAddress m "Parser::parseAAAA()" 16 r rdata
  return .aaaa r.name r.ttl address

def parseNS (r : Fixed) : Parser ResourceRecord := do
  return .ns r.name r.ttl (← parseDomainName m fuel)

def parseCNAME (r : Fixed) : Parser ResourceRecord := do
  return .cname r.name r.ttl (← parseDomainName m fuel)

def parseSRV (r : Fixed) (rdata : Option Nat) : Parser ResourceRecord := do
  let priority ← getInt16 m rdata 0
  let weight ← getInt16 m rdata 2
  let port ← getInt16 m rdata 4
  incrementOffset m 6
  let target ← parseDomainName m fuel
  return .srv r.name r.ttl priority weight port target

def parseNAPTR (r : Fixed) (rdata : Option Nat) : Parser ResourceRecord := do
  let order ← getInt16 m rdata 0
  let preference ← getInt16 m rdata 2
  incrementOffset m 4
  let flags ← parseCharacterString m
  let service ← parseCharacterString m
  let regexp ← parseCharacterString m
  let replacement ← parseDomainName m fuel
  return .naptr r.name r.ttl order preference flags service regexp replacement

/-- The fields that all records have. -/
def parseFixed : Parser Fixed := do
  let name ← parseDomainName m fuel
  let ptr ← getPointer m
  let type ← getInt16 m ptr 0
  let cls ← getInt16 m ptr 2
  let ttl ← getInt32 m ptr 4
  let rdlength ← getInt16 m ptr 8
  incrementOffset m 10
  return ⟨name, type, cls, ttl, rdlength⟩

def parseResourceRecord : Parser ResourceRecord := do
  let r ← parseFixed m fuel
  let rdata ← getPointer m
  if r.cls = nsCIn ∧ r.type = nsTA then parseA m r rdata
  else if r.cls = nsCIn ∧ r.type = nsTNs then parseNS m fuel r
  else if r.cls = nsCIn ∧ r.type = nsTCname then parseCNAME m fuel r
  else if r.cls = nsCIn ∧ r.type = nsTAaaa then parseAAAA m r rdata
  else if r.cls = nsCIn ∧ r.type = nsTSrv then parseSRV m fuel r rdata
  else if r.cls = nsCIn ∧ r.type = nsTNaptr then parseNAPTR m fuel r rdata
  else parseRR m r

def parseQuestion : Parser Question := do
  let qname ← parseDomainName m fuel
  let ptr ← getPointer m
  let qtype ← getInt16 m ptr 0
  let qclass ← getInt16 m ptr 2
  incrementOffset m 4
  return ⟨qname, qtype, qclass⟩

/-! ### Messages -/

/-- `QDCOUNT`, `ANCOUNT`, `NSCOUNT` and `ARCOUNT`. -/
structure Counts where
  qd : Nat
  an : Nat
  ns : Nat
  ar : Nat

def parseHeader : Parser Counts := do
  let ptr ← getPointer m
  let qd ← getInt16 m ptr 4
  let an ← getInt16 m ptr 6
  let ns ← getInt16 m ptr 8
  let ar ← getInt16 m ptr 10
  incrementOffset m 12
  return ⟨qd, an, ns, ar⟩

/-- `Query::addQuestion` and its siblings. -/
def addToQuery (f : Query → Query) : Parser Unit := fun s => .done () { s with query := f s.query }

/-- `for (int i = 0; i < n; i++) body`. -/
def forCount : Nat → Parser Unit → Parser Unit
  | 0, _ => return ()
  | n + 1, body => do
    body
    forCount n body

def parse : Parser Unit := do
  let c ← parseHeader m
  forCount c.qd do
    let q ← parseQuestion m fuel
    addToQuery fun y => { y with question := y.question ++ [q] }
  forCount c.an do
    let r ← parseResourceRecord m fuel
    addToQuery fun y => { y with answer := y.answer ++ [r] }
  forCount c.ns do
    let r ← parseResourceRecord m fuel
    addToQuery fun y => { y with authority := y.authority ++ [r] }
  forCount c.ar do
    let r ← parseResourceRecord m fuel
    addToQuery fun y => { y with additional := y.additional ++ [r] }

end Parser

/-- The parser at the start of a message. -/
def St.init : St := ⟨0, ⟨[], [], [], []⟩⟩

end OpenairHss.Dns
