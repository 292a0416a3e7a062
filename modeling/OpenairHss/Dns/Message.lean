import OpenairHss.Dns.Parser

/-!
# DNS messages

What a message says, and how RFC 1035 lays it out.  A `Message N` has names of some kind `N`: with
`Placed`, the names say where and how they are written, and with text, what is read.

A name is written as its labels, the rest of which may stand elsewhere, behind a compression pointer
to an earlier offset (`Spelled`).  The pointer may lead to the root label alone; `Placed.rootPointer`
says of a name that it ends in such a pointer.
-/

namespace OpenairHss.Dns

/-! ### What a message says -/

inductive RData (N : Type)
  | a (address : Octets)
  | ns (server : N)
  | cname (canonical : N)
  | aaaa (address : Octets)
  | srv (priority weight port : Nat) (target : N)
  | naptr (order preference : Nat) (flags service regexp : Octets) (replacement : N)
  | other (type cls : Nat) (rdata : Octets)

structure Asked (N : Type) where
  name : N
  type : Nat
  cls : Nat

structure Record (N : Type) where
  name : N
  ttl : Nat
  data : RData N

structure Message (N : Type) where
  question : List (Asked N)
  answer : List (Record N)
  authority : List (Record N)
  additional : List (Record N)

section

variable {N : Type}

/-- The types of class `IN` that the parser knows. -/
def knownTypes : List Nat := [nsTA, nsTNs, nsTCname, nsTAaaa, nsTSrv, nsTNaptr]

def RData.type : RData N → Nat
  | .a _ => nsTA
  | .ns _ => nsTNs
  | .cname _ => nsTCname
  | .aaaa _ => nsTAaaa
  | .srv _ _ _ _ => nsTSrv
  | .naptr _ _ _ _ _ _ => nsTNaptr
  | .other type _ _ => type

def RData.cls : RData N → Nat
  | .other _ cls _ => cls
  | _ => nsCIn

/-- A name server of class `IN`. -/
def RData.isNs : RData N → Bool
  | .ns _ => true
  | _ => false

def RData.names : RData N → List N
  | .ns n | .cname n | .srv _ _ _ n | .naptr _ _ _ _ _ n => [n]
  | _ => []

def Message.records (msg : Message N) : List (Record N) :=
  msg.answer ++ msg.authority ++ msg.additional

def Record.names (r : Record N) : List N := r.name :: r.data.names

def Message.names (msg : Message N) : List N :=
  msg.question.map Asked.name ++ msg.records.flatMap Record.names

end

/-! ### Octets -/

/-- These octets stand at an offset. -/
def Stands (m : Octets) (ofs : Nat) (bytes : Octets) : Prop := bytes <+: m.drop ofs

def be16 (v : Nat) : Octets := [UInt8.ofNat (v / 2 ^ 8), UInt8.ofNat v]

def be32 (v : Nat) : Octets := be16 (v / 2 ^ 16) ++ be16 v

/-- A character string: its length, and its octets. -/
def charString (s : Octets) : Octets := UInt8.ofNat s.length :: s

/-! ### How it is written -/

section Layout

variable (m : Octets)

/-- A name with these labels stands at an offset, up to the offset `next`.  The last argument says
that it ends in a pointer to the root label. -/
inductive Spelled : Nat → List Octets → Nat → Bool → Prop
  | root {ofs : Nat} (h : Stands m ofs [0]) : Spelled ofs [] (ofs + 1) false
  | label {ofs next : Nat} {l : Octets} {ls : List Octets} {b : Bool} (h0 : l ≠ [])
      (h63 : l.length ≤ 63) (h : Stands m ofs (UInt8.ofNat l.length :: l))
      (rest : Spelled (ofs + (l.length + 1)) ls next b) : Spelled ofs (l :: ls) next b
  | rootPointer {ofs target : Nat} (h14 : target < 2 ^ 14) (hback : target < ofs)
      (h : Stands m ofs (be16 (0xc000 + target))) (there : Stands m target [0]) :
      Spelled ofs [] (ofs + 2) true
  | pointer {ofs target next : Nat} {ls : List Octets} {b : Bool} (h14 : target < 2 ^ 14)
      (hback : target < ofs) (h : Stands m ofs (be16 (0xc000 + target)))
      (hroot : ¬ Stands m target [0]) (there : Spelled target ls next b) :
      Spelled ofs ls (ofs + 2) b

/-- A name, where it stands and how it ends. -/
structure Placed where
  ofs : Nat
  labels : List Octets
  rootPointer : Bool

/-- A name at an offset. -/
def NamePlaced (n : Placed) (ofs next : Nat) : Prop :=
  n.ofs = ofs ∧ Spelled m ofs n.labels next n.rootPointer

/-- The data of a record. -/
def DataPlaced (ofs next : Nat) : RData Placed → Prop
  | .a address => address.length = 4 ∧ Stands m ofs address ∧ next = ofs + 4
  | .ns n => NamePlaced m n ofs next
  | .cname n => NamePlaced m n ofs next
  | .aaaa address => address.length = 16 ∧ Stands m ofs address ∧ next = ofs + 16
  | .srv priority weight port target =>
    (priority < 2 ^ 16 ∧ weight < 2 ^ 16 ∧ port < 2 ^ 16) ∧
      Stands m ofs (be16 priority ++ be16 weight ++ be16 port) ∧ NamePlaced m target (ofs + 6) next
  | .naptr order preference flags service regexp replacement =>
    (order < 2 ^ 16 ∧ preference < 2 ^ 16) ∧
      (flags.length < 2 ^ 8 ∧ service.length < 2 ^ 8 ∧ regexp.length < 2 ^ 8) ∧
      Stands m ofs (be16 order ++ be16 preference ++ charString flags ++ charString service ++
        charString regexp) ∧
      NamePlaced m replacement
        (ofs + 4 + (flags.length + 1) + (service.length + 1) + (regexp.length + 1)) next
  | .other type cls rdata =>
    (type < 2 ^ 16 ∧ cls < 2 ^ 16 ∧ ¬ (cls = nsCIn ∧ type ∈ knownTypes)) ∧ Stands m ofs rdata ∧
      next = ofs + rdata.length

/-- A record: its name, ten octets, and its data. -/
def RecordPlaced (r : Record Placed) (ofs next : Nat) : Prop :=
  ∃ p, NamePlaced m r.name ofs p ∧ r.ttl < 2 ^ 32 ∧ next - (p + 10) < 2 ^ 16 ∧
    Stands m p (be16 r.data.type ++ be16 r.data.cls ++ be32 r.ttl ++ be16 (next - (p + 10))) ∧
    DataPlaced m (p + 10) next r.data

def QuestionPlaced (q : Asked Placed) (ofs next : Nat) : Prop :=
  ∃ p, NamePlaced m q.name ofs p ∧ q.type < 2 ^ 16 ∧ q.cls < 2 ^ 16 ∧
    Stands m p (be16 q.type ++ be16 q.cls) ∧ next = p + 4

/-- Things that stand one after the other. -/
inductive Row {α : Type} (P : α → Nat → Nat → Prop) : List α → Nat → Nat → Prop
  | nil (ofs : Nat) : Row P [] ofs ofs
  | cons {a : α} {as : List α} {ofs mid next : Nat} (head : P a ofs mid) (tail : Row P as mid next) :
      Row P (a :: as) ofs next

/-- A message: the header with the counts, and the four sections. -/
structure MessagePlaced (msg : Message Placed) : Prop where
  counts : msg.question.length < 2 ^ 16 ∧ msg.answer.length < 2 ^ 16 ∧
    msg.authority.length < 2 ^ 16 ∧ msg.additional.length < 2 ^ 16
  header : Stands m 4 (be16 msg.question.length ++ be16 msg.answer.length ++
    be16 msg.authority.length ++ be16 msg.additional.length)
  sections : ∃ o₁ o₂ o₃, Row (QuestionPlaced m) msg.question 12 o₁ ∧
    Row (RecordPlaced m) msg.answer o₁ o₂ ∧ Row (RecordPlaced m) msg.authority o₂ o₃ ∧
    Row (RecordPlaced m) msg.additional o₃ m.length

end Layout

/-! ### Lemmas about octets -/

section Lemmas

variable {m bytes bytes' : Octets} {ofs : Nat} {b : UInt8}

theorem stands_append : Stands m ofs (bytes ++ bytes') ↔
    Stands m ofs bytes ∧ Stands m (ofs + bytes.length) bytes' := by
  unfold Stands
  rw [← List.drop_drop]
  constructor
  · rintro ⟨rest, hrest⟩
    rw [← hrest, List.append_assoc]
    exact ⟨List.prefix_append _ _, by rw [List.drop_left]; exact List.prefix_append _ _⟩
  · rintro ⟨⟨rest, hrest⟩, h⟩
    rw [← hrest] at h ⊢
    rw [List.drop_left] at h
    exact (List.prefix_append_right_inj bytes).mpr h

theorem Stands.get (h : Stands m ofs bytes) {i : Nat} (hi : i < bytes.length) :
    m[ofs + i]? = some bytes[i] := by
  obtain ⟨rest, hrest⟩ := h
  rw [← List.getElem?_drop, ← hrest, List.getElem?_append_left hi, List.getElem?_eq_getElem hi]

theorem Stands.head (h : Stands m ofs (b :: bytes)) : m[ofs]? = some b :=
  h.get (i := 0) (Nat.succ_pos _)

theorem Stands.tail (h : Stands m ofs (b :: bytes)) : Stands m (ofs + 1) bytes :=
  (stands_append.mp (show Stands m ofs ([b] ++ bytes) from h)).2

theorem stands_root : Stands m ofs [b] ↔ m[ofs]? = some b := by
  refine ⟨Stands.head, fun h => ?_⟩
  obtain ⟨hlt, rfl⟩ := List.getElem?_eq_some_iff.mp h
  unfold Stands
  rw [List.drop_eq_getElem_cons hlt]
  exact List.prefix_append [m[ofs]] _

theorem Stands.take (h : Stands m ofs bytes) : (m.drop ofs).take bytes.length = bytes :=
  (List.prefix_iff_eq_take.mp h).symm

theorem Stands.le (h : Stands m ofs bytes) (hb : bytes ≠ []) : ofs + bytes.length ≤ m.length := by
  have hlen := h.length_le
  rw [List.length_drop] at hlen
  have := List.length_pos_of_ne_nil hb
  omega

@[simp] theorem be16_length (v : Nat) : (be16 v).length = 2 := rfl
@[simp] theorem be32_length (v : Nat) : (be32 v).length = 4 := rfl
@[simp] theorem charString_length (s : Octets) : (charString s).length = s.length + 1 := rfl

/-- A name takes up at least one octet. -/
theorem Spelled.lt {ofs next : Nat} {ls : List Octets} {c : Bool} (h : Spelled m ofs ls next c) :
    ofs < next := by
  induction h with
  | root => omega
  | label _ _ _ _ ih => omega
  | rootPointer => omega
  | pointer => omega

/-- A name lies in the message. -/
theorem Spelled.le {ofs next : Nat} {ls : List Octets} {c : Bool} (h : Spelled m ofs ls next c) :
    next ≤ m.length := by
  induction h with
  | root h => exact h.le (by simp)
  | label _ _ _ _ ih => exact ih
  | rootPointer _ _ h => exact h.le (by simp [be16])
  | pointer _ _ h => exact h.le (by simp [be16])

end Lemmas

end OpenairHss.Dns
