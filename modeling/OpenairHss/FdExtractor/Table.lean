import OpenairHss.FdExtractor.Copy

/-!
# A store of messages

A freeDiameter with what `Documented` says of it: the objects are numbered as they are made.  An AVP
is in one list at most, which the fields `child` and `once` are about.
-/

namespace OpenairHss.FdExtractor

open FdJson (AvpValue)
open Forest

structure Table (Model : Type) where
  /-- The next object. -/
  size : Nat
  object : Nat → MsgOrAvp Model
  children : Nat → List Nat
  parent : Nat → Option Nat
  child : ∀ {p c}, c ∈ children p → parent c = some p
  once : ∀ p, (children p).Nodup
  bounded : ∀ {p c}, c ∈ children p → c < size

namespace Table

variable {Model : Type}

def view (s : Table Model) : View Nat (MsgOrAvp Model) where
  data r := if r < s.size then some (s.object r) else none
  children := s.children
  parent := s.parent

def create (s : Table Model) (d : Avp Model) : Table Model where
  size := s.size + 1
  object := Function.update s.object s.size (.avp d)
  children := Function.update s.children s.size []
  parent := Function.update s.parent s.size none
  child {p c} hc := by
    by_cases hp : p = s.size
    · subst hp
      rw [Function.update_self] at hc
      exact absurd hc List.not_mem_nil
    · rw [Function.update_of_ne hp] at hc
      rw [Function.update_of_ne (Nat.ne_of_lt (s.bounded hc)), s.child hc]
  once p := by
    by_cases hp : p = s.size
    · subst hp
      rw [Function.update_self]
      exact List.nodup_nil
    · rw [Function.update_of_ne hp]
      exact s.once p
  bounded {p c} hc := by
    by_cases hp : p = s.size
    · subst hp
      rw [Function.update_self] at hc
      exact absurd hc List.not_mem_nil
    · rw [Function.update_of_ne hp] at hc
      exact Nat.lt_succ_of_lt (s.bounded hc)

/-- An AVP that is in no list becomes the last child of an object. -/
def append (s : Table Model) (p a : Nat) (ha : a < s.size) (hp : s.parent a = none) :
    Table Model where
  size := s.size
  object := s.object
  children := Function.update s.children p (s.children p ++ [a])
  parent := Function.update s.parent a (some p)
  child {q c} hc := by
    have hne : ∀ {q}, c ∈ s.children q → c ≠ a := by
      rintro q hcq rfl
      rw [s.child hcq] at hp
      exact absurd hp nofun
    by_cases hq : q = p
    · subst hq
      rw [Function.update_self, List.mem_append, List.mem_singleton] at hc
      rcases hc with hc | rfl
      · rw [Function.update_of_ne (hne hc), s.child hc]
      · exact Function.update_self ..
    · rw [Function.update_of_ne hq] at hc
      rw [Function.update_of_ne (hne hc), s.child hc]
  once q := by
    have hne : ∀ {q c}, c ∈ s.children q → c ≠ a := by
      rintro q c hcq rfl
      rw [s.child hcq] at hp
      exact absurd hp nofun
    by_cases hq : q = p
    · subst hq
      rw [Function.update_self]
      refine List.nodup_append.mpr ⟨s.once q, by simp, fun c hc b hb => ?_⟩
      rw [List.mem_singleton.mp hb]
      exact hne hc
    · rw [Function.update_of_ne hq]
      exact s.once q
  bounded {q c} hc := by
    by_cases hq : q = p
    · subst hq
      rw [Function.update_self, List.mem_append, List.mem_singleton] at hc
      rcases hc with hc | rfl
      · exact s.bounded hc
      · exact ha
    · rw [Function.update_of_ne hq] at hc
      exact s.bounded hc

/-- The element behind one of a list. -/
def after (r : Nat) (l : List Nat) : Option Nat := (l.dropWhile (· ≠ r)).tail.head?

theorem after_append {r : Nat} {l l' : List Nat} (h : (l ++ r :: l').Nodup) :
    after r (l ++ r :: l') = l'.head? := by
  have hr : ∀ c ∈ l, (decide (c ≠ r)) = true := by
    intro c hc
    rw [decide_eq_true_iff]
    rintro rfl
    exact (List.nodup_append.mp h).2.2 c hc c List.mem_cons_self rfl
  rw [after, List.dropWhile_append_of_pos hr, List.dropWhile_cons_of_neg (by simp), List.tail_cons]

def einval : Int := 22

end Table

open Table in
def table {Model : Type} (dict : Model → DictAvpData) : MsgApi (Table Model) Nat Model where
  fd_msg_model s r :=
    if r < s.size then
      match s.object r with
      | .avp d => .ok d.model
      | .msg => .error einval
    else .error einval
  fd_dict_getval
    | some m => .ok (dict m)
    | none => .error einval
  fd_msg_avp_new s
    | some m => .ok (s.size, s.create (.of dict m (dict m).avp_flag_val none))
    | none => .ok (s.size, s.create ⟨none, 0, 0, 0, none⟩)
  fd_msg_browse_internal s r
    | .firstChild => .ok (s.children r).head?
    | .next => match s.parent r with
      | some p => .ok (after r (s.children p))
      | none => .ok none
  fd_msg_avp_hdr s r :=
    if r < s.size then
      match s.object r with
      | .avp d => .ok d.hdr
      | .msg => .error einval
    else .error einval
  fd_msg_avp_setvalue s a value :=
    match s.object a with
    | .avp d =>
      .ok { s with object := Function.update s.object a (.avp { d with hdr.avp_value := value }) }
    | .msg => .error einval
  fd_msg_avp_add s p a :=
    if h : a < s.size ∧ s.parent a = none then .ok (s.append p a h.1 h.2) else .error einval

section Documented

variable {Model : Type} {dict : Model → DictAvpData} {s : Table Model} {r : Nat}

theorem Table.view_data (s : Table Model) (r : Nat) :
    s.view.data r = if r < s.size then some (s.object r) else none := rfl

theorem Table.live_iff : s.view.Live r ↔ r < s.size := by
  rw [View.Live, Table.view_data]
  by_cases hr : r < s.size <;> simp [hr]

theorem Table.of_data {o : MsgOrAvp Model} (h : s.view.data r = some o) :
    r < s.size ∧ s.object r = o := by
  rw [Table.view_data] at h
  by_cases hr : r < s.size
  · rw [if_pos hr] at h
    exact ⟨hr, Option.some.inj h⟩
  · rw [if_neg hr] at h
    exact absurd h nofun

theorem Table.view_create (s : Table Model) (d : Avp Model) :
    (s.create d).view = s.view.create s.size (.avp d) := by
  have hdata : (s.create d).view.data = Function.update s.view.data s.size (some (.avp d)) := by
    funext r
    rw [view_data]
    show (if r < s.size + 1 then some (Function.update s.object s.size (.avp d) r) else none) = _
    by_cases hr : r = s.size
    · subst hr
      rw [if_pos (Nat.lt_succ_self _), Function.update_self, Function.update_self]
    · have hlt : r < s.size + 1 ↔ r < s.size := by omega
      rw [Function.update_of_ne hr, Function.update_of_ne hr, view_data]
      simp only [hlt]
  rw [View.create, ← hdata]
  rfl

/-- **The store does what is documented.** -/
theorem table_documented (dict : Model → DictAvpData) : Documented (table dict) dict Table.view where
  model h := by
    obtain ⟨hr, ho⟩ := Table.of_data h
    show (if _ then _ else _) = _
    rw [if_pos hr, ho]
  getval m := rfl
  getval_null := ⟨Table.einval, rfl⟩
  header h := by
    obtain ⟨hr, ho⟩ := Table.of_data h
    show (if _ then _ else _) = _
    rw [if_pos hr, ho]
  firstChild _ := rfl
  next {s p l r l'} h := by
    have hc : r ∈ s.children p := by
      rw [show s.children p = l ++ r :: l' from h]
      exact List.mem_append_right l List.mem_cons_self
    have hnodup : (l ++ r :: l').Nodup := by
      rw [← show s.children p = l ++ r :: l' from h]
      exact s.once p
    show (match s.parent r with | some p => _ | none => _) = _
    rw [s.child hc, ← Table.after_append hnodup, ← show s.children p = l ++ r :: l' from h]
  new s m :=
    ⟨s.size, _, rfl, by rw [Table.live_iff]; exact Nat.lt_irrefl _, Table.view_create s _⟩
  setvalue {s a m flags v} h _ value := by
    obtain ⟨ha, ho⟩ := Table.of_data h
    refine ⟨{ s with object := Function.update s.object a (.avp (.of dict m flags value)) }, ?_, ?_⟩
    · show (match s.object a with | .avp d => _ | .msg => _) = _
      rw [ho]
      rfl
    · have hdata : ∀ r, (if r < s.size then
          some (Function.update s.object a (MsgOrAvp.avp (.of dict m flags value)) r) else none) =
          Function.update s.view.data a (some (.avp (.of dict m flags value))) r := by
        intro r
        by_cases hr : r = a
        · subst hr
          rw [if_pos ha, Function.update_self, Function.update_self]
        · rw [Function.update_of_ne hr, Function.update_of_ne hr, Table.view_data]
      rw [View.setData, ← funext hdata]
      rfl
  add {s p a} _ ha hparent :=
    ⟨_, dif_pos ⟨Table.live_iff.mp ha, hparent⟩, rfl⟩

end Documented

end OpenairHss.FdExtractor
