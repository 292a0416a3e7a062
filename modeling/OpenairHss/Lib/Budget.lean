import Mathlib.Data.List.Basic
import Mathlib.Data.BitVec
import Mathlib.Data.UInt

/-!
# Output into bounded space

A `Space` is filled from its start on and holds what was written and how much room is left.  An
`Output` is what code would write if the room did not end, and the fault it runs into after that, if
any.  `Output.feed` cuts it to the room: the fault is met only if everything before it fits.

* `Space.add_append`, `Output.feed_append`: outputs compose.
* `Output.feed_inj`: with enough room two outputs can be told apart.
-/

/-- What was written, and how many items still fit. -/
structure Space (α : Type) where
  written : List α
  room : Nat
  deriving DecidableEq

namespace Space

variable {ε α : Type}

/-- One item, which has to fit. -/
def put (full : ε) (a : α) (d : Space α) : Except ε (Space α) :=
  if d.room = 0 then .error full else .ok ⟨d.written ++ [a], d.room - 1⟩

/-- As many items as fit. -/
def add (l : List α) (d : Space α) : Space α := ⟨d.written ++ l.take d.room, d.room - l.length⟩

@[simp] theorem add_nil (d : Space α) : d.add [] = d := by
  simp [add]

theorem add_of_room {d : Space α} (l : List α) (h : d.room = 0) : d.add l = d := by
  cases d
  simp_all [add]

theorem add_append (l l' : List α) (d : Space α) : d.add (l ++ l') = (d.add l).add l' := by
  simp only [add, List.take_append, List.append_assoc, List.length_append, Nat.sub_sub]

theorem put_of_room {d : Space α} (full : ε) (a : α) (h : d.room ≠ 0) :
    d.put full a = .ok (d.add [a]) := by
  rw [put, if_neg h, add, List.take_of_length_le (Nat.pos_of_ne_zero h)]
  rfl

theorem add_of_le {d : Space α} {l : List α} (h : l.length ≤ d.room) :
    d.add l = ⟨d.written ++ l, d.room - l.length⟩ := by
  rw [add, List.take_of_length_le h]

end Space

/-- Items, and a fault that comes after at least one of them. -/
structure Output (ε α : Type) where
  items : List α
  fault : Option ε
  items_ne : fault ≠ none → items ≠ []

namespace Output

variable {ε α : Type}

/-- Items without a fault. -/
def text (l : List α) : Output ε α := ⟨l, none, fun h => absurd rfl h⟩

/-- A fault after one item. -/
def failing (e : ε) (a : α) : Output ε α := ⟨[a], some e, fun _ => List.cons_ne_nil a []⟩

/-- One output, and the next if the first met no fault. -/
def append (o p : Output ε α) : Output ε α :=
  ⟨if o.fault = none then o.items ++ p.items else o.items, o.fault.or p.fault, by
    intro h
    cases ho : o.fault with
    | some e =>
      rw [if_neg (Option.some_ne_none e)]
      exact o.items_ne (by rw [ho]; exact Option.some_ne_none e)
    | none =>
      rw [if_pos rfl]
      rw [ho, Option.none_or] at h
      exact List.append_ne_nil_of_right_ne_nil _ (p.items_ne h)⟩

instance : Append (Output ε α) := ⟨append⟩

/-- What is left of an output in bounded space. -/
def feed (o : Output ε α) (d : Space α) : Except ε (Space α) :=
  match o.fault with
  | none => .ok (d.add o.items)
  | some e => if o.items.length ≤ d.room then .error e else .ok (d.add o.items)

@[simp] theorem fault_text (l : List α) : (text l : Output ε α).fault = none := rfl

@[simp] theorem items_text (l : List α) : (text l : Output ε α).items = l := rfl

@[simp] theorem feed_text (l : List α) (d : Space α) : (text l : Output ε α).feed d = .ok (d.add l) :=
  rfl

@[simp] theorem fault_append (o p : Output ε α) : (o ++ p).fault = o.fault.or p.fault := rfl

theorem fault_append_of_some {o : Output ε α} (p : Output ε α) {e : ε} (h : o.fault = some e) :
    (o ++ p).fault = some e := by
  rw [fault_append, h, Option.some_or]

@[simp] theorem items_text_append (l : List α) (p : Output ε α) :
    (text l ++ p).items = l ++ p.items := rfl

@[simp] theorem fault_text_append (l : List α) (p : Output ε α) :
    (text l ++ p).fault = p.fault := rfl

theorem text_append_text (l l' : List α) : (text l ++ text l' : Output ε α) = text (l ++ l') := rfl

@[simp] theorem text_nil_append (p : Output ε α) : (text [] ++ p : Output ε α) = p := rfl

theorem eq_text {o : Output ε α} (h : o.fault = none) : o = text o.items := by
  obtain ⟨items, fault, hne⟩ := o
  obtain rfl : fault = none := h
  rfl

theorem items_append_of_none {o : Output ε α} (p : Output ε α) (h : o.fault = none) :
    (o ++ p).items = o.items ++ p.items := if_pos h

theorem items_append_of_some {o : Output ε α} (p : Output ε α) {e : ε} (h : o.fault = some e) :
    (o ++ p).items = o.items := if_neg (by rw [h]; exact Option.some_ne_none e)

theorem feed_of_fault {o : Output ε α} {e : ε} (h : o.fault = some e) (d : Space α) :
    o.feed d = if o.items.length ≤ d.room then .error e else .ok (d.add o.items) := by
  rw [feed, h]

theorem feed_of_none {o : Output ε α} (h : o.fault = none) (d : Space α) :
    o.feed d = .ok (d.add o.items) := by
  rw [feed, h]

/-- Without room nothing happens. -/
theorem feed_of_room (o : Output ε α) {d : Space α} (h : d.room = 0) : o.feed d = .ok d := by
  cases ho : o.fault with
  | none => rw [feed_of_none ho, Space.add_of_room _ h]
  | some e =>
    have hne : o.items ≠ [] := o.items_ne (by rw [ho]; exact Option.some_ne_none e)
    have hpos := List.length_pos_of_ne_nil hne
    rw [feed_of_fault ho, if_neg (by omega), Space.add_of_room _ h]

theorem feed_append (o p : Output ε α) (d : Space α) :
    (o ++ p).feed d = (o.feed d).bind p.feed := by
  cases ho : o.fault with
  | none =>
    have hitems := items_append_of_none p ho
    rw [feed_of_none ho]
    cases hp : p.fault with
    | none =>
      rw [feed_of_none (by rw [fault_append, ho, hp]; rfl), hitems, Space.add_append]
      exact (feed_of_none hp _).symm
    | some e =>
      have hne : p.items ≠ [] := p.items_ne (by rw [hp]; exact Option.some_ne_none e)
      have hpos := List.length_pos_of_ne_nil hne
      have hroom : o.items.length + p.items.length ≤ d.room ↔
          p.items.length ≤ d.room - o.items.length := by omega
      rw [feed_of_fault (e := e) (by rw [fault_append, ho, hp]; rfl), hitems, Space.add_append]
      refine Eq.trans ?_ (feed_of_fault hp _).symm
      simp only [List.length_append, hroom]
      rfl
  | some e =>
    rw [feed_of_fault (fault_append_of_some p ho), items_append_of_some p ho, feed_of_fault ho]
    split
    · rfl
    · -- the first output has used up the room
      exact (feed_of_room p (Nat.sub_eq_zero_of_le (by omega))).symm

/-- With enough room a fault or another text shows. -/
theorem feed_inj {o : Output ε α} {l : List α} {d : Space α}
    (hroom : o.items.length + l.length ≤ d.room) (h : o.feed d = .ok (d.add l)) :
    o.fault = none ∧ o.items = l := by
  cases ho : o.fault with
  | some e =>
    rw [feed_of_fault ho, if_pos (by omega)] at h
    exact absurd h nofun
  | none =>
    rw [feed_of_none ho, Space.add_of_le (by omega), Space.add_of_le (by omega)] at h
    have hwritten := congrArg Space.written (Except.ok.inj h)
    exact ⟨rfl, List.append_cancel_left hwritten⟩

end Output
