import OpenairHss.FdExtractor.Resolve
import OpenairHss.FdJson.AddAvps
import OpenairHss.Lib.Forest

/-!
# Copies of AVPs

`copy` and `copyall` of `fd.cpp`, and `FDAvp::add` and `FDMessage::add` of the extractors, which copy
the AVP that an extractor has found into an AVP or a message.

The functions of freeDiameter are a parameter (`MsgApi`): they read and change its messages, the
`Store`, and return an error or nothing.  `Documented` says what they do to the objects, which are
messages and AVPs.
-/

namespace OpenairHss.FdExtractor

open FdJson (AvpValue BaseType)
open Forest (View)

/-! ### freeDiameter -/

structure DictAvpData where
  avp_code : BitVec 32
  avp_vendor : BitVec 32
  avp_name : String
  avp_flag_val : BitVec 8
  avp_basetype : BaseType

structure AvpHdr where
  avp_code : BitVec 32
  avp_vendor : BitVec 32
  avp_flags : BitVec 8
  avp_value : Option AvpValue

inductive Browse
  | firstChild
  | next

/-- The functions of freeDiameter, with the error that they return.  `fd_msg_avp_new` is called without
flags, and `fd_msg_avp_add` for `MSG_BRW_LAST_CHILD`. -/
structure MsgApi (Store Ref Model : Type) where
  fd_msg_model : Store → Ref → Except Int (Option Model)
  fd_dict_getval : Option Model → Except Int DictAvpData
  fd_msg_avp_new : Store → Option Model → Except Int (Ref × Store)
  fd_msg_browse_internal : Store → Ref → Browse → Except Int (Option Ref)
  fd_msg_avp_hdr : Store → Ref → Except Int AvpHdr
  fd_msg_avp_setvalue : Store → Ref → Option AvpValue → Except Int Store
  fd_msg_avp_add : Store → Ref → Ref → Except Int Store

inductive CopyException
  /-- "Error [%d] retrieving avp dict_object". -/
  | dictObject (ret : Int)
  /-- "Error [%d] retrieving avp dictionary data". -/
  | dictData (ret : Int)
  /-- "Error [%d] createing new AVP [%s]". -/
  | creating (avp_name : String) (ret : Int)
  /-- "fd_msg_avp_hdr returned %d retrieving header for [%s]". -/
  | header (avp_name : String) (ret : Int)
  /-- "fd_msg_avp_setvalue returned %d setting the AVP value for [%s]". -/
  | value (avp_name : String) (ret : Int)
  /-- "Error [%d] adding [%s] AVP". -/
  | adding (avp_name : String) (ret : Int)
  /-- "browse returned %d direction MSG_BRW_FIRST_CHILD". -/
  | firstChild (ret : Int)
  /-- "browse returned %d direction MSG_BRW_NEXT". -/
  | next (ret : Int)

inductive Fault
  | exception (e : CopyException)
  | extractor (e : FDException)
  /-- An extractor that exists has no reference. -/
  | null
  | unfinished

section Code

variable {Store Ref Model : Type} (fd : MsgApi Store Ref Model)

/-- What was done before an exception stays done. -/
abbrev Run (Store : Type) : Type → Type := EStateM Fault Store

def ask {α : Type} (call : Store → Except Int α) (e : Int → CopyException) : Run Store α := fun s =>
  match call s with
  | .ok x => .ok x s
  | .error ret => .error (.exception (e ret)) s

def make {α : Type} (call : Store → Except Int (α × Store)) (e : Int → CopyException) :
    Run Store α := fun s =>
  match call s with
  | .ok (x, s') => .ok x s'
  | .error ret => .error (.exception (e ret)) s

def perform (call : Store → Except Int Store) (e : Int → CopyException) : Run Store Unit := fun s =>
  match call s with
  | .ok s' => .ok () s'
  | .error ret => .error (.exception (e ret)) s

mutual

/-- `copy`; the first argument bounds the depth of the calls. -/
def copy : Nat → Ref → Ref → Run Store Unit
  | 0, _, _ => throw .unfinished
  | n + 1, src, dst => do
    let model ← ask (fun s => fd.fd_msg_model s src) .dictObject
    let avp_data ← ask (fun _ => fd.fd_dict_getval model) .dictData
    let a ← make (fun s => fd.fd_msg_avp_new s model) (.creating avp_data.avp_name)
    (if avp_data.avp_basetype = .grouped then copyall n src a
      else do
        let hdr ← ask (fun s => fd.fd_msg_avp_hdr s src) (.header avp_data.avp_name)
        perform (fun s => fd.fd_msg_avp_setvalue s a hdr.avp_value) (.value avp_data.avp_name))
    perform (fun s => fd.fd_msg_avp_add s dst a) (.adding avp_data.avp_name)

def copyall : Nat → Ref → Ref → Run Store Unit
  | 0, _, _ => throw .unfinished
  | n + 1, src, dst => do
    let loopavp ← ask (fun s => fd.fd_msg_browse_internal s src .firstChild) .firstChild
    copyLoop n loopavp dst

def copyLoop : Nat → Option Ref → Ref → Run Store Unit
  | 0, _, _ => throw .unfinished
  | _ + 1, none, _ => pure ()
  | n + 1, some loopavp, dst => do
    copy n loopavp dst
    let loopavp ← ask (fun s => fd.fd_msg_browse_internal s loopavp .next) .next
    copyLoop n loopavp dst

end

/-! ### Extractors -/

-- The message that the extractors read is another than the one that is written.
variable (msg : Message Ref) (entries : Entries)

abbrev AddRun (Store Ref : Type) : Type → Type := EStateM Fault (Heap Ref × Store)

def read (acc : Access) : AddRun Store Ref (Answer Ref) := fun σ =>
  match access msg entries σ.1 acc with
  | .ok (answer, h) => .ok answer (h, σ.2)
  | .error e => .error (.extractor e) σ

def copied (n : Nat) (src dst : Ref) : AddRun Store Ref Unit := fun σ =>
  match copy fd n src dst σ.2 with
  | .ok () s => .ok () (σ.1, s)
  | .error e s => .error e (σ.1, s)

def addExtractor (n : Nat) (dst : Ref) (p : Address) : AddRun Store Ref Unit := do
  match ← read msg entries (.exists p) with
  | .exists true => match ← read msg entries (.getReference p) with
    | .reference (some r) => copied fd n r dst
    | _ => throw .null
  | _ => pure ()

def addExtractorAvp (n : Nat) (dst : Ref) (a : Address) : AddRun Store Ref Unit := do
  match ← read msg entries (.avp a) with
  | .avp (some r) => copied fd n r dst
  | _ => pure ()

/-- The loop over a list, from an element on. -/
def addElements (add : Address → AddRun Store Ref Unit) (l : Address) :
    Nat → Nat → AddRun Store Ref Unit
  | 0, _ => throw .unfinished
  | fuel + 1, i => do
    match ← read msg entries (.getList l) with
    | .size k => (if i < k then do
        add (.element i :: l)
        addElements add l fuel (i + 1)
      else pure ())
    | _ => pure ()

def addExtractorList (n : Nat) (dst : Ref) (l : Address) : AddRun Store Ref Unit :=
  addElements msg entries (addExtractor fd msg entries n dst) l n 0

def addExtractorAvpList (n : Nat) (dst : Ref) (l : Address) : AddRun Store Ref Unit :=
  addElements msg entries (addExtractorAvp fd msg entries n dst) l n 0

end Code

/-! ### What freeDiameter does -/

/-- An AVP: its entry of the dictionary, if there is one, and its header. -/
structure Avp (Model : Type) where
  model : Option Model
  hdr : AvpHdr

inductive MsgOrAvp (Model : Type)
  | msg
  | avp (d : Avp Model)

/-- An AVP of the dictionary, with these flags and this value. -/
def Avp.of {Model : Type} (dict : Model → DictAvpData) (m : Model) (flags : BitVec 8)
    (value : Option AvpValue) : Avp Model :=
  ⟨some m, (dict m).avp_code, (dict m).avp_vendor, flags, value⟩

section Documented

variable {Store Ref Model : Type} [DecidableEq Ref]

structure Documented (fd : MsgApi Store Ref Model) (dict : Model → DictAvpData)
    (view : Store → View Ref (MsgOrAvp Model)) : Prop where
  model : ∀ {s r d}, (view s).data r = some (.avp d) → fd.fd_msg_model s r = .ok d.model
  getval : ∀ m, fd.fd_dict_getval (some m) = .ok (dict m)
  /-- An AVP that is not in the dictionary has no model. -/
  getval_null : ∃ ret, fd.fd_dict_getval none = .error ret
  header : ∀ {s r d}, (view s).data r = some (.avp d) → fd.fd_msg_avp_hdr s r = .ok d.hdr
  firstChild : ∀ {s r}, (view s).Live r →
    fd.fd_msg_browse_internal s r .firstChild = .ok ((view s).children r).head?
  next : ∀ {s p l r l'}, (view s).children p = l ++ r :: l' →
    fd.fd_msg_browse_internal s r .next = .ok l'.head?
  /-- A new AVP has the flags of the dictionary. -/
  new : ∀ s m, ∃ a s', fd.fd_msg_avp_new s (some m) = .ok (a, s') ∧ ¬ (view s).Live a ∧
    view s' = (view s).create a (.avp (.of dict m (dict m).avp_flag_val none))
  setvalue : ∀ {s a m flags v}, (view s).data a = some (.avp (.of dict m flags v)) →
    (dict m).avp_basetype ≠ .grouped → ∀ value, ∃ s', fd.fd_msg_avp_setvalue s a value = .ok s' ∧
      view s' = (view s).setData a (.avp (.of dict m flags value))
  add : ∀ {s p a}, (view s).Live p → (view s).Live a → (view s).parent a = none →
    ∃ s', fd.fd_msg_avp_add s p a = .ok s' ∧ view s' = (view s).append p a

end Documented

/-! ### Trees of AVPs -/

/-- A tree of AVPs.  One of the dictionary has AVPs below it if its type is Grouped, and a value
otherwise; one that is not in the dictionary is its octets. -/
inductive AvpTree {Model : Type} (dict : Model → DictAvpData) where
  | leaf (m : Model) (hm : (dict m).avp_basetype ≠ .grouped) (flags : BitVec 8)
      (value : Option AvpValue)
  | group (m : Model) (hm : (dict m).avp_basetype = .grouped) (flags : BitVec 8)
      (avps : List (AvpTree dict))
  | unknown (code vendor : BitVec 32) (flags : BitVec 8)

namespace AvpTree

variable {Model : Type} {dict : Model → DictAvpData}

mutual

def tree : AvpTree dict → Forest.Tree (MsgOrAvp Model)
  | .leaf m _ flags value => .node (.avp (.of dict m flags value)) []
  | .group m _ flags avps => .node (.avp (.of dict m flags none)) (trees avps)
  | .unknown code vendor flags => .node (.avp ⟨none, code, vendor, flags, none⟩) []

def trees : List (AvpTree dict) → List (Forest.Tree (MsgOrAvp Model))
  | [] => []
  | t :: ts => tree t :: trees ts

end

mutual

def Known : AvpTree dict → Prop
  | .leaf .. => True
  | .group _ _ _ avps => KnownAll avps
  | .unknown .. => False

def KnownAll : List (AvpTree dict) → Prop
  | [] => True
  | t :: ts => Known t ∧ KnownAll ts

end

mutual

def withDictFlags : AvpTree dict → AvpTree dict
  | .leaf m hm _ value => .leaf m hm (dict m).avp_flag_val value
  | .group m hm _ avps => .group m hm (dict m).avp_flag_val (withDictFlagsAll avps)
  | .unknown code vendor flags => .unknown code vendor flags

def withDictFlagsAll : List (AvpTree dict) → List (AvpTree dict)
  | [] => []
  | t :: ts => withDictFlags t :: withDictFlagsAll ts

end

mutual

def depth : AvpTree dict → Nat
  | .leaf .. | .unknown .. => 1
  | .group _ _ _ avps => 2 + depthAll avps

def depthAll : List (AvpTree dict) → Nat
  | [] => 1
  | t :: ts => 1 + max (depth t) (depthAll ts)

end

end AvpTree

end OpenairHss.FdExtractor
