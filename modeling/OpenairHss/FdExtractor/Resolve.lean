import Mathlib.Data.List.Basic
import Mathlib.Data.BitVec
import Mathlib.Data.UInt

/-!
# Extractors

`FDExtractor` of `fd.cpp` with the extractors for AVPs and lists: the fields of a message, which are
found in the message when the first of them is read.

An extractor object is known by its address: the path of fields and list elements from the extractor
of the message, innermost first.  The objects are records in a heap, as in the source: the flag
`m_resolved`, the index, the reference to the AVP, and for lists the number of elements.
freeDiameter has the message; its browse functions walk the children of an AVP in order.
-/

namespace OpenairHss.FdExtractor

structure FDExtractorKey where
  vendor : BitVec 32
  avpcode : BitVec 32
  deriving DecidableEq

/-- The extractors that are registered for a key: `etAvp`, `etAvpList`, `etExtractor` and
`etExtractorList`.  `m_entries` has the newest entry first; one with the key of an older one takes
its place. -/
inductive Field
  | avp
  | avpList
  | extractor (m_entries : List (FDExtractorKey × Field))
  | extractorList (m_entries : List (FDExtractorKey × Field))

abbrev Entries : Type := List (FDExtractorKey × Field)

/-- What leads from an object to another: a registered field, or an element of a list. -/
inductive Step
  | field (key : FDExtractorKey)
  | element (n : Nat)
  deriving DecidableEq

/-- The address of an object, innermost first. -/
abbrev Address : Type := List Step

/-- What is at an address, for the entries of the message. -/
def fieldAt (entries : Entries) : Address → Option Field
  | [] => some (.extractor entries)
  | .field key :: p => match fieldAt entries p with
    | some (.extractor m_entries) => m_entries.lookup key
    | _ => none
  | .element _ :: l => match fieldAt entries l with
    | some (.extractorList m_entries) => some (.extractor m_entries)
    | some .avpList => some .avp
    | _ => none

/-- A message of freeDiameter: the children of an AVP or a message, and the vendor and code of an
AVP. -/
structure Message (Ref : Type) where
  root : Ref
  children : Ref → List Ref
  header : Ref → FDExtractorKey

structure Object (Ref : Type) where
  m_idx : Int := -1
  m_resolved : Bool := false
  /-- `m_reference`, or the AVP of `m_avp`. -/
  reference : Option Ref := none
  /-- The index for the next child. -/
  m_index : Int := 1
  /-- The size of `m_list`. -/
  size : Nat := 0

def Object.exists {Ref : Type} (o : Object Ref) : Bool := decide (o.m_idx ≠ -1)

abbrev Heap (Ref : Type) : Type := Address → Object Ref

namespace Heap

variable {Ref : Type}

def modify (h : Heap Ref) (a : Address) (f : Object Ref → Object Ref) : Heap Ref :=
  fun a' => if a' = a then f (h a) else h a'

/-- A new element of the list at `a`. -/
def push (h : Heap Ref) (a : Address) (new : Object Ref) : Heap Ref :=
  (h.modify (.element (h a).size :: a) fun _ => new).modify a fun o =>
    { o with size := o.size + 1, m_resolved := true }

@[simp] theorem modify_self (h : Heap Ref) (a : Address) (f : Object Ref → Object Ref) :
    h.modify a f a = f (h a) := if_pos rfl

theorem modify_of_ne (h : Heap Ref) {a a' : Address} (f : Object Ref → Object Ref) (hne : a' ≠ a) :
    h.modify a f a' = h a' := if_neg hne

end Heap

/-- The extractors of a message, before a field is read. -/
def fresh {Ref : Type} (msg : Message Ref) : Heap Ref :=
  fun a => if a = [] then { reference := some msg.root } else {}

inductive FDException
  /-- "FDExtractor reference and parent are not set". -/
  | notSet
  /-- "m_avp already assigned". -/
  | alreadyAssigned
  deriving DecidableEq

section Code

variable {Ref : Type} (msg : Message Ref) (entries : Entries)

/-! ### Resolution -/

/-- A child of the AVP of the extractor at `p`. -/
def bindChild (p : Address) (m_entries : Entries) (h : Heap Ref) (loopavp : Ref) :
    Except FDException (Heap Ref) :=
  let key := msg.header loopavp
  let a := Step.field key :: p
  let index := (h p).m_index
  let counted := h.modify p fun o => { o with m_index := index + 1 }
  match m_entries.lookup key with
  | none => .ok h
  | some .avp =>
    if (h a).reference.isSome then .error .alreadyAssigned
    else .ok (counted.modify a fun o =>
      { o with m_idx := index, m_resolved := true, reference := some loopavp })
  | some .avpList =>
    .ok (counted.push a { m_idx := index, m_resolved := true, reference := some loopavp })
  | some (.extractor _) =>
    .ok (counted.modify a fun o => { o with m_idx := index, reference := some loopavp })
  | some (.extractorList _) =>
    .ok (counted.push a { m_idx := index, reference := some loopavp })

def bindChildren (p : Address) (m_entries : Entries) (h : Heap Ref) :
    List Ref → Except FDException (Heap Ref)
  | [] => .ok h
  | loopavp :: rest => do bindChildren p m_entries (← bindChild msg p m_entries h loopavp) rest

/-- `resolve`, from where the reference is known or the AVP was not found in the parent. -/
def finish (p : Address) (h : Heap Ref) : Except FDException (Heap Ref) :=
  let needToResolve := !(h p).m_resolved
  let h := h.modify p fun o => { o with m_resolved := true }
  match (h p).reference, fieldAt entries p with
  | some r, some (.extractor m_entries) =>
    if needToResolve then bindChildren msg p m_entries h (msg.children r) else .ok h
  | _, _ => .ok h

/-- `FDExtractor::resolve`; the parent of an element is the parent of its list. -/
def resolve : Address → Heap Ref → Except FDException (Heap Ref)
  | [], h =>
    if (h []).m_resolved then .ok h
    else if (h []).reference.isSome then finish msg entries [] h
    else .error .notSet
  | .field key :: parent, h =>
    let p := Step.field key :: parent
    if (h p).m_resolved then .ok h
    else if (h p).reference.isSome then finish msg entries p h
    else do
      let h ← resolve parent h
      if (h p).exists then finish msg entries p h else .ok h
  | .element n :: .field key :: parent, h =>
    let p := Step.element n :: .field key :: parent
    if (h p).m_resolved then .ok h
    else if (h p).reference.isSome then finish msg entries p h
    else do
      let h ← resolve parent h
      if (h p).exists then finish msg entries p h else .ok h
  | .element _ :: _, h => .ok h

/-! ### Reading -/

/-- The extractor that an AVP, a list, or an element of a list was found by. -/
def owner : Address → Address
  | .element _ :: .field _ :: p => p
  | .field _ :: p => p
  | a => a

/-- What is read of the extractors. -/
inductive Access
  /-- `FDExtractorAvp::exists`, and `m_avp` if it does. -/
  | avp (a : Address)
  | exists (p : Address)
  | getReference (p : Address)
  /-- The size of `getList ()`. -/
  | getList (l : Address)

inductive Answer (Ref : Type)
  | avp (r : Option Ref)
  | exists (b : Bool)
  | reference (r : Option Ref)
  | size (n : Nat)

/-- An object that is not resolved has `p` resolved first. -/
def resolveUnless (m_resolved : Bool) (p : Address) (h : Heap Ref) :
    Except FDException (Heap Ref) :=
  if m_resolved then .ok h else resolve msg entries p h

def access (h : Heap Ref) : Access → Except FDException (Answer Ref × Heap Ref)
  | .avp a => do
    let h ← resolveUnless msg entries (h a).m_resolved (owner a) h
    return (.avp (if (h a).exists then (h a).reference else none), h)
  | .exists p => do
    let h ← resolveUnless msg entries (h p).m_resolved p h
    return (.exists (h p).exists, h)
  | .getReference p => do
    let h ← resolveUnless msg entries (h p).m_resolved p h
    return (.reference (h p).reference, h)
  | .getList l => do
    let h ← resolveUnless msg entries (h l).m_resolved (owner l) h
    return (.size (h l).size, h)

def accesses (h : Heap Ref) : List Access → Except FDException (List (Answer Ref))
  | [] => .ok []
  | acc :: rest => do
    let (answer, h) ← access msg entries h acc
    return answer :: (← accesses h rest)

end Code

/-! ### What is meant -/

section Meant

variable {Ref : Type} (msg : Message Ref) (entries : Entries)

/-- The AVPs with a key, in the order of the message. -/
def withKey (key : FDExtractorKey) (avps : List Ref) : List Ref :=
  avps.filter fun r => msg.header r = key

/-- The AVP that an address stands for. -/
def located : Address → Option Ref
  | [] => some msg.root
  | .field key :: p => match located p with
    | some r => (withKey msg key (msg.children r)).head?
    | none => none
  | .element n :: .field key :: p => match located p with
    | some r => (withKey msg key (msg.children r))[n]?
    | none => none
  | .element _ :: _ => none

def listed : Address → List Ref
  | .field key :: p => match located msg p with
    | some r => withKey msg key (msg.children r)
    | none => []
  | _ => []

/-- What is to be answered. -/
def meant : Access → Answer Ref
  | .avp a => .avp (located msg a)
  | .exists p => .exists (p ≠ [] && (located msg p).isSome)
  | .getReference p => .reference (located msg p)
  | .getList l => .size (listed msg l).length

/-- The object that is read is of the class for the access. -/
def Access.Typed : Access → Prop
  | .avp a => fieldAt entries a = some .avp
  | .exists p | .getReference p => ∃ m_entries, fieldAt entries p = some (.extractor m_entries)
  | .getList l => fieldAt entries l = some .avpList ∨
      ∃ m_entries, fieldAt entries l = some (.extractorList m_entries)

def Field.Single : Field → Prop
  | .avp | .extractor _ => True
  | .avpList | .extractorList _ => False

/-- In every group, there is at most one AVP for a field for one AVP. -/
def SingleValued : Prop :=
  ∀ p m_entries r key f, fieldAt entries p = some (.extractor m_entries) → located msg p = some r →
    m_entries.lookup key = some f → f.Single → (withKey msg key (msg.children r)).length ≤ 1

end Meant

end OpenairHss.FdExtractor
