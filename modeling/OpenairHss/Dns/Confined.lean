import OpenairHss.Dns.Parser
import OpenairHss.Lib.Walk
import Mathlib.Data.Finset.Lattice.Fold

/-!
# What the DNS parser reads

`WellPlaced m` says where the fields of a message have to lie for the parser to read only bytes of
the message, and to end.  It follows the layout of RFC 1035 up to the place where the parser raises
its error, and asks of a name that its chain of labels and compression pointers stays in the message
and meets no offset twice.

* `confined_iff`: the parser ends and reads nothing outside the message exactly if the message is
  well placed.
-/

namespace OpenairHss.Dns

open Walk

/-! ### Where a message has its fields -/

section Layout

variable (m : Octets)

/-- What stands at an offset of a name: its end, a label or a compression pointer that leads to
another offset, or something that is rejected. -/
inductive Hop
  | stop
  | bad
  | go (p : Nat)

/-- The hop at an offset, unless its octets lie outside the message. -/
def hop (ofs : Nat) : Option Hop :=
  match m[ofs]? with
  | none => none
  | some b =>
    if b = 0 then some .stop
    else match labelLength b with
    | some n => if ofs + n ≥ m.length then some .bad else some (.go (ofs + (n + 1)))
    | none =>
      if isLabelOffset b then m[ofs + 1]?.map fun b1 => .go (labelOffset b b1)
      else some .bad

/-- The chain of labels and compression pointers. -/
def next (ofs : Nat) : Option Nat :=
  match hop m ofs with
  | some (.go p) => some p
  | _ => none

/-- The chain from an offset stays in the message and meets no offset twice. -/
structure NameSafe (ofs : Nat) : Prop where
  inside : ∀ n p, walk (next m) n ofs = some p → hop m p ≠ none
  simple : Simple (next m) ofs

/-- The chain from an offset comes to the end of a name. -/
def NameAccepted (ofs : Nat) : Prop := ∃ n p, walk (next m) n ofs = some p ∧ hop m p = some .stop

/-- The octets of a name that stand in front: up to its end or its first compression pointer.  The
second argument counts the octets of a label that are left. -/
def span : Octets → Nat → Nat
  | [], _ => 0
  | _ :: rest, skip + 1 => 1 + span rest skip
  | b :: rest, 0 =>
    if b = 0 then 1
    else match labelLength b with
    | some n => 1 + span rest n
    | none => 2

/-- The two octets at an offset. -/
def int16 (ofs : Nat) : Nat := (m.getD ofs 0).toNat * 2 ^ 8 + (m.getD (ofs + 1) 0).toNat

variable (Name : Nat → Prop)

/-- A name, and `P` of the offset after it if it is accepted. -/
def NameAt (P : Nat → Prop) (ofs : Nat) : Prop :=
  Name ofs ∧ (NameAccepted m ofs → P (advance m ofs (span (m.drop ofs) 0)))

/-- `n` octets, and `P` of the offset after them. -/
def FieldAt (n : Nat) (P : Nat → Prop) (ofs : Nat) : Prop := ofs + n ≤ m.length ∧ P (ofs + n)

/-- A character string: its length and that many octets. -/
def StringAt (P : Nat → Prop) (ofs : Nat) : Prop :=
  FieldAt m 1 (FieldAt m (m.getD ofs 0).toNat P) ofs

def QuestionAt (P : Nat → Prop) : Nat → Prop := NameAt m Name (FieldAt m 4 P)

/-- The data of a record.  An address of a wrong length is rejected; data of a type that is not
known may end outside the message, since nothing of them is read. -/
def RdataAt (type cls rdlength : Nat) (P : Nat → Prop) : Nat → Prop :=
  if cls = nsCIn ∧ type = nsTA then fun ofs => rdlength = 4 → FieldAt m 4 P ofs
  else if cls = nsCIn ∧ type = nsTNs then NameAt m Name P
  else if cls = nsCIn ∧ type = nsTCname then NameAt m Name P
  else if cls = nsCIn ∧ type = nsTAaaa then fun ofs => rdlength = 16 → FieldAt m 16 P ofs
  else if cls = nsCIn ∧ type = nsTSrv then FieldAt m 6 (NameAt m Name P)
  else if cls = nsCIn ∧ type = nsTNaptr then
    FieldAt m 4 (StringAt m (StringAt m (StringAt m (NameAt m Name P))))
  else fun ofs => P (advance m ofs rdlength)

/-- A record: name, ten octets, and data. -/
def RecordAt (P : Nat → Prop) : Nat → Prop :=
  NameAt m Name fun ofs =>
    FieldAt m 10 (RdataAt m Name (int16 m ofs) (int16 m (ofs + 2)) (int16 m (ofs + 8)) P) ofs

/-- `n` of something, one after the other. -/
def times (F : (Nat → Prop) → Nat → Prop) : Nat → (Nat → Prop) → Nat → Prop
  | 0, P => P
  | n + 1, P => F (times F n P)

/-- A message with names that meet `Name`. -/
def MessageWith : Prop :=
  FieldAt m 12 (times (QuestionAt m Name) (int16 m 4) (times (RecordAt m Name) (int16 m 6)
    (times (RecordAt m Name) (int16 m 8) (times (RecordAt m Name) (int16 m 10) fun _ => True)))) 0

/-- The fields of the message, up to the one that the parser rejects, lie inside it. -/
def WellPlaced : Prop := MessageWith m (NameSafe m)

end Layout

/-! ### Names -/

section Names

variable {m : Octets}

/-- The chain from an offset stays in the message and ends within a number of hops. -/
def SafeWithin (m : Octets) : Nat → Nat → Prop
  | 0, _ => False
  | fuel + 1, ofs => match hop m ofs with
    | none => False
    | some (.go p) => SafeWithin m fuel p
    | some _ => True

theorem next_of_go {ofs p : Nat} (h : hop m ofs = some (.go p)) : next m ofs = some p := by
  rw [next, h]

theorem hop_of_next {ofs p : Nat} (h : next m ofs = some p) : hop m ofs = some (.go p) := by
  unfold next at h
  split at h
  case h_1 p hp => rw [hp, Option.some.inj h]
  case h_2 => exact absurd h (by simp)

theorem lt_of_hop {ofs : Nat} (h : hop m ofs ≠ none) : ofs < m.length := by
  by_contra hle
  apply h
  rw [hop, List.getElem?_eq_none (Nat.not_lt.mp hle)]

theorem NameSafe.of_safeWithin : ∀ {fuel ofs : Nat}, SafeWithin m fuel ofs → NameSafe m ofs := by
  have hends : ∀ (fuel ofs : Nat), SafeWithin m fuel ofs →
      Ends (next m) ofs ∧ ∀ n p, walk (next m) n ofs = some p → hop m p ≠ none := by
    intro fuel
    induction fuel with
    | zero => intro ofs h; exact absurd h id
    | succ fuel ih =>
      intro ofs h
      unfold SafeWithin at h
      cases hh : next m ofs with
      | some q =>
        rw [hop_of_next hh] at h
        obtain ⟨⟨n, hn⟩, hin⟩ := ih q h
        refine ⟨⟨n + 1, by rw [walk, hh, Option.bind_some, hn]⟩, fun n p hp => ?_⟩
        cases n with
        | zero =>
          obtain rfl := Option.some.inj hp
          rw [hop_of_next hh]
          exact Option.some_ne_none _
        | succ n =>
          rw [walk, hh] at hp
          exact hin n p hp
      | none =>
        refine ⟨⟨1, by rw [walk, hh, Option.bind_none]⟩, fun n p hp => ?_⟩
        cases n with
        | zero =>
          obtain rfl := Option.some.inj hp
          intro hnone
          rw [hnone] at h
          exact h
        | succ n => rw [walk, hh] at hp; exact absurd hp (by simp)
  intro fuel ofs h
  obtain ⟨he, hin⟩ := hends fuel ofs h
  refine ⟨hin, (ends_iff_simple (Set.finite_lt_nat m.length) fun n p hp => ?_).mp he⟩
  exact lt_of_hop (hin n p hp)

/-- A chain that ends does so within a number of hops. -/
theorem safeWithin_of_walk {n ofs : Nat} (hn : walk (next m) n ofs = none)
    (hin : ∀ n p, walk (next m) n ofs = some p → hop m p ≠ none) : SafeWithin m n ofs := by
  induction n generalizing ofs with
  | zero => exact absurd hn (Option.some_ne_none ofs)
  | succ n ih =>
    unfold SafeWithin
    have h0 := hin 0 ofs rfl
    split
    case h_1 h => exact h0 h
    case h_2 q h =>
      have hnext := next_of_go h
      refine ih (by rwa [walk, hnext] at hn) fun k p hp => hin (k + 1) p ?_
      rw [walk, hnext]
      exact hp
    case h_3 => trivial

/-- **There is a number of hops within which every safe name ends.** -/
theorem exists_fuel (m : Octets) : ∃ fuel, ∀ ofs, NameSafe m ofs → SafeWithin m fuel ofs := by
  have hends : ∀ ofs, ∃ n, NameSafe m ofs → walk (next m) n ofs = none := by
    intro ofs
    by_cases h : NameSafe m ofs
    · obtain ⟨n, hn⟩ := (ends_iff_simple (Set.finite_lt_nat m.length)
        fun n p hp => lt_of_hop (h.inside n p hp)).mpr h.simple
      exact ⟨n, fun _ => hn⟩
    · exact ⟨0, fun h' => absurd h' h⟩
  choose hops hhops using hends
  refine ⟨(Finset.range m.length).sup hops, fun ofs h => safeWithin_of_walk ?_ h.inside⟩
  refine walk_none_of_le (hhops ofs h) (Finset.le_sup (f := hops) ?_)
  exact Finset.mem_range.mpr (lt_of_hop (h.inside 0 ofs rfl))

end Names

/-! ### The outcome of a piece of the parser -/

section Outcome

variable {α β : Type} {m : Octets} {s : St}

/-- The piece ends and reads nothing outside the message; `Q` holds if it does not raise. -/
def Wp (p : Parser α) (s : St) (Q : α → St → Prop) : Prop :=
  match p s with
  | .done a s' => Q a s'
  | .raised _ => True
  | .outside => False
  | .spins => False

@[simp] theorem wp_pure (a : α) (Q : α → St → Prop) : Wp (pure a) s Q ↔ Q a s := Iff.rfl

@[simp] theorem wp_bind (p : Parser α) (k : α → Parser β) (Q : β → St → Prop) :
    Wp (p >>= k) s Q ↔ Wp p s fun a s' => Wp (k a) s' Q := by
  simp only [Wp, bind]
  cases p s <;> rfl

@[simp] theorem wp_raise (what : String) (Q : α → St → Prop) : Wp (raise what) s Q ↔ True := Iff.rfl

@[simp] theorem wp_spin (Q : α → St → Prop) : Wp spin s Q ↔ False := Iff.rfl

@[simp] theorem wp_getOffset (Q : Nat → St → Prop) : Wp getOffset s Q ↔ Q s.ofs s := Iff.rfl

@[simp] theorem wp_getPointer (Q : Option Nat → St → Prop) :
    Wp (getPointer m) s Q ↔ Q (pointerAt m s.ofs) s := Iff.rfl

@[simp] theorem wp_incrementOffset (n : Nat) (Q : Unit → St → Prop) :
    Wp (incrementOffset m n) s Q ↔ Q () { s with ofs := advance m s.ofs n } := Iff.rfl

@[simp] theorem wp_addToQuery (f : Query → Query) (Q : Unit → St → Prop) :
    Wp (addToQuery f) s Q ↔ Q () { s with query := f s.query } := Iff.rfl

theorem wp_congr {p : Parser α} {Q Q' : α → St → Prop} (h : ∀ a s, Q a s ↔ Q' a s) :
    Wp p s Q ↔ Wp p s Q' := by
  rw [funext fun a => funext fun s => propext (h a s)]

theorem wp_deref (ptr : Option Nat) (i : Nat) (Q : UInt8 → St → Prop) :
    Wp (deref m ptr i) s Q ↔ ∃ b, (ptr.bind fun ofs => m[ofs + i]?) = some b ∧ Q b s := by
  simp only [Wp, deref]
  cases (ptr.bind fun ofs => m[ofs + i]?) <;> simp

/-- A read through the pointer of the buffer. -/
theorem wp_deref_pointerAt (ofs i : Nat) (Q : UInt8 → St → Prop) :
    Wp (deref m (pointerAt m ofs) i) s Q ↔ ofs + i < m.length ∧ Q (m.getD (ofs + i) 0) s := by
  rw [wp_deref, pointerAt]
  by_cases h : ofs + i < m.length
  · have hofs : ¬ ofs ≥ m.length := by omega
    simp [hofs, h]
  · have hnone : m[ofs + i]? = none := List.getElem?_eq_none (Nat.not_lt.mp h)
    split <;> simp [h]

/-- A copy through the pointer of the buffer. -/
theorem wp_copy_pointerAt (ofs n : Nat) (P : St → Prop) :
    Wp (copy m (pointerAt m ofs) n) s (fun _ s => P s) ↔ (n = 0 ∨ ofs + n ≤ m.length) ∧ P s := by
  unfold Wp copy pointerAt
  by_cases hn : n = 0
  · simp [hn]
  · by_cases h : ofs + n ≤ m.length
    · have hofs : ¬ ofs ≥ m.length := by omega
      simp [hn, h, hofs]
    · by_cases hofs : ofs ≥ m.length <;> simp [hn, h, hofs]

theorem wp_copy_some {ofs n : Nat} (h : ofs + n ≤ m.length) (Q : Octets → St → Prop) :
    Wp (copy m (some ofs) n) s Q ↔ Q ((m.drop ofs).take n) s := by
  unfold Wp copy
  by_cases hn : n = 0
  · simp [hn]
  · simp [hn, h]

theorem wp_getInt16 (ofs i : Nat) (Q : Nat → St → Prop) :
    Wp (getInt16 m (pointerAt m ofs) i) s Q
      ↔ ofs + i + 2 ≤ m.length ∧ Q (int16 m (ofs + i)) s := by
  simp only [getInt16, wp_bind, wp_deref_pointerAt, wp_pure, int16, ← Nat.add_assoc]
  constructor
  · rintro ⟨-, h, hq⟩
    exact ⟨by omega, hq⟩
  · rintro ⟨h, hq⟩
    exact ⟨by omega, by omega, hq⟩

theorem wp_getInt32 (ofs i : Nat) (P : St → Prop) :
    Wp (getInt32 m (pointerAt m ofs) i) s (fun _ s => P s) ↔ ofs + i + 4 ≤ m.length ∧ P s := by
  simp only [getInt32, wp_bind, wp_deref_pointerAt, wp_pure]
  constructor
  · rintro ⟨-, -, -, h, hp⟩
    exact ⟨by omega, hp⟩
  · rintro ⟨h, hp⟩
    exact ⟨by omega, by omega, by omega, by omega, hp⟩

end Outcome

/-! ### Names are read as they are laid out -/

section Reading

variable {m : Octets} {s : St}

theorem span_skip {l : Octets} {n : Nat} (h : n ≤ l.length) :
    span l n = n + span (l.drop n) 0 := by
  induction n generalizing l with
  | zero => rw [Nat.zero_add, List.drop_zero]
  | succ n ih =>
    cases l with
    | nil => exact absurd h (by simp)
    | cons b l =>
      rw [span, ih (Nat.le_of_succ_le_succ h), List.drop_succ_cons]
      omega

theorem drop_of_getElem? {ofs : Nat} {b : UInt8} (h : m[ofs]? = some b) :
    m.drop ofs = b :: m.drop (ofs + 1) := by
  obtain ⟨hlt, rfl⟩ := List.getElem?_eq_some_iff.mp h
  exact List.drop_eq_getElem_cons hlt

theorem span_label {ofs n : Nat} {b : UInt8} (hb : m[ofs]? = some b) (h0 : b ≠ 0)
    (hl : labelLength b = some n) (hn : ofs + n < m.length) :
    span (m.drop ofs) 0 = n + 1 + span (m.drop (ofs + (n + 1))) 0 := by
  have hlen : n ≤ (m.drop (ofs + 1)).length := by
    rw [List.length_drop]
    omega
  rw [drop_of_getElem? hb, span, if_neg h0, hl]
  simp only
  rw [span_skip hlen, List.drop_drop, show ofs + 1 + n = ofs + (n + 1) by omega]
  omega

theorem accepted_stop {ofs : Nat} (h : hop m ofs = some .stop) : NameAccepted m ofs :=
  ⟨0, ofs, rfl, h⟩

theorem not_accepted_bad {ofs : Nat} (h : hop m ofs = some .bad) : ¬ NameAccepted m ofs := by
  rintro ⟨n, p, hw, hp⟩
  cases n with
  | zero =>
    obtain rfl := Option.some.inj hw
    rw [h] at hp
    cases hp
  | succ n =>
    rw [walk, next, h] at hw
    cases hw

theorem accepted_go {ofs p : Nat} (h : hop m ofs = some (.go p)) :
    NameAccepted m ofs ↔ NameAccepted m p := by
  constructor
  · rintro ⟨n, q, hw, hq⟩
    cases n with
    | zero =>
      obtain rfl := Option.some.inj hw
      rw [h] at hq
      exact absurd hq nofun
    | succ n =>
      rw [walk, next_of_go h] at hw
      exact ⟨n, q, hw, hq⟩
  · rintro ⟨n, q, hw, hq⟩
    refine ⟨n + 1, q, ?_, hq⟩
    rw [walk, next_of_go h]
    exact hw

theorem safeWithin_lt {fuel ofs : Nat} (h : SafeWithin m fuel ofs) : ofs < m.length :=
  lt_of_hop ((NameSafe.of_safeWithin h).inside 0 ofs rfl)

/-- A pointer that stands for an offset. -/
def Points (m : Octets) (ptr : Option Nat) (ofs : Nat) : Prop :=
  ptr = some ofs ∨ ptr = none ∧ m.length ≤ ofs

theorem points_pointerAt (ofs : Nat) : Points m (pointerAt m ofs) ofs := by
  unfold pointerAt
  split
  case isTrue h => exact Or.inr ⟨rfl, h⟩
  case isFalse => exact Or.inl rfl

theorem Points.deref {ptr : Option Nat} {ofs : Nat} (h : Points m ptr ofs) (i : Nat)
    (Q : UInt8 → St → Prop) :
    Wp (deref m ptr i) s Q ↔ ∃ b, m[ofs + i]? = some b ∧ Q b s := by
  rw [wp_deref]
  rcases h with rfl | ⟨rfl, hle⟩
  · rfl
  · rw [List.getElem?_eq_none (by omega)]
    rfl

/-- What the loop has counted when it is at an offset, with what it will count. -/
def NameState.total (m : Octets) (st : NameState) (ofs : Nat) : Nat :=
  st.compressedLength + if st.offsetActive then 0 else span (m.drop ofs) 0

theorem total_afterLabel (st : NameState) {ofs n : Nat} (label : Octets) (b : UInt8)
    (h : span (m.drop ofs) 0 = n + 1 + span (m.drop (ofs + (n + 1))) 0) :
    (st.afterLabel n label b).total m (ofs + (n + 1)) = st.total m ofs := by
  obtain ⟨dn, len, curr, active, ptr⟩ := st
  cases active with
  | false =>
    simp only [NameState.total, NameState.afterLabel, Bool.not_false, if_true, Bool.false_eq_true,
      if_false]
    omega
  | true => rfl

/-- **The loop of `parseDomainName` follows the chain of the name.** -/
theorem wp_nameLoop (P : Nat → St → Prop) : ∀ (fuel : Nat) (st : NameState) (ofs : Nat),
    Points m st.ptr ofs → st.currOfs = ofs →
    (Wp (nameLoop m fuel st) s (fun st' s' => P st'.length s')
      ↔ SafeWithin m fuel ofs ∧ (NameAccepted m ofs → P (st.total m ofs) s)) := by
  intro fuel
  induction fuel with
  | zero =>
    intro st ofs _ _
    simp [nameLoop, SafeWithin]
  | succ fuel ih =>
    intro st ofs hptr hcurr
    rw [nameLoop, wp_bind, hptr.deref, SafeWithin, Nat.add_zero]
    cases hb : m[ofs]? with
    | none => simp [hop, hb]
    | some b =>
      simp only [Option.some.injEq, exists_eq_left']
      have hlt : ofs < m.length := (List.getElem?_eq_some_iff.mp hb).1
      have hsome : st.ptr = some ofs := hptr.resolve_right fun h => absurd h.2 (by omega)
      by_cases h0 : b = 0
      · -- the end of the name
        have hhop : hop m ofs = some .stop := by rw [hop, hb]; simp [h0]
        have hspan : span (m.drop ofs) 0 = 1 := by
          rw [drop_of_getElem? hb, span, if_pos h0]
        rw [if_pos h0, wp_pure, hhop]
        simp only [true_and, accepted_stop hhop, forall_const, NameState.total, NameState.length,
          hspan]
        cases st.offsetActive <;> rfl
      · rw [if_neg h0]
        cases hl : labelLength b with
        | some n =>
          simp only
          by_cases hv : ofs + n ≥ m.length
          · -- a label that is too long
            have hhop : hop m ofs = some .bad := by rw [hop, hb]; simp [h0, hl, hv]
            simp [validateLength, hcurr, hv, hhop, not_accepted_bad hhop]
          · have hhop : hop m ofs = some (.go (ofs + (n + 1))) := by rw [hop, hb]; simp [h0, hl, hv]
            have hval : validateLength m st.currOfs n = true := by
              rw [validateLength, hcurr, if_neg hv]
            have hptr' : Points m (some (ofs + 1 + n)) (ofs + (n + 1)) :=
              Or.inl (congrArg some (by omega))
            have htotal : ∀ label b', (st.afterLabel n label b').total m (ofs + (n + 1))
                = st.total m ofs := fun label b' =>
              total_afterLabel st label b' (span_label hb h0 hl (by omega))
            rw [hval, hsome, hhop]
            simp only [Bool.not_true, Bool.false_eq_true, if_false, wp_bind, Option.map_some,
              wp_copy_some (show ofs + 1 + n ≤ m.length by omega), hptr'.deref, Nat.add_zero]
            have hnext : ∀ label b', Wp (nameLoop m fuel (st.afterLabel n label b')) s
                (fun st' s' => P st'.length s') ↔ SafeWithin m fuel (ofs + (n + 1)) ∧
                  (NameAccepted m ofs → P (st.total m ofs) s) := by
              intro label b'
              rw [ih _ (ofs + (n + 1)) (by rw [NameState.afterLabel, hsome]; exact hptr')
                (by rw [NameState.afterLabel, hcurr]), htotal, accepted_go hhop]
            simp only [hnext]
            constructor
            · rintro ⟨b', -, h⟩
              exact h
            · intro h
              exact ⟨_, List.getElem?_eq_getElem (safeWithin_lt h.1), h⟩
        | none =>
          simp only
          by_cases ho : isLabelOffset b
          · rw [if_pos ho, wp_bind, hptr.deref]
            cases hb1 : m[ofs + 1]? with
            | none =>
              have hhop : hop m ofs = none := by rw [hop, hb]; simp [h0, hl, ho, hb1]
              simp [hhop]
            | some b1 =>
              -- a compression pointer
              have hhop : hop m ofs = some (.go (labelOffset b b1)) := by
                rw [hop, hb]; simp [h0, hl, ho, hb1]
              have hspan : span (m.drop ofs) 0 = 2 := by
                rw [drop_of_getElem? hb, span, if_neg h0, hl]
              have htotal : (st.afterOffset m (labelOffset b b1)).total m (labelOffset b b1)
                  = st.total m ofs := by
                simp only [NameState.total, NameState.afterOffset, hspan]
                cases st.offsetActive <;> rfl
              simp only [Option.some.injEq, exists_eq_left', hhop]
              rw [ih _ (labelOffset b b1) (points_pointerAt _) rfl, htotal, accepted_go hhop]
          · have hhop : hop m ofs = some .bad := by rw [hop, hb]; simp [h0, hl, ho]
            simp [ho, hhop, not_accepted_bad hhop]

variable (fuel : Nat)

theorem wp_parseDomainName (P : Nat → Prop) :
    Wp (parseDomainName m fuel) s (fun _ s' => P s'.ofs)
      ↔ NameAt m (SafeWithin m fuel) P s.ofs := by
  simp only [parseDomainName, wp_bind, wp_getOffset, wp_getPointer, wp_incrementOffset, wp_pure]
  rw [wp_nameLoop (fun n s' => P (advance m s'.ofs n)) fuel _ s.ofs (points_pointerAt s.ofs) rfl]
  simp only [NameState.total, Bool.false_eq_true, if_false, Nat.zero_add, NameAt]

theorem wp_parseCharacterString (P : Nat → Prop) :
    Wp (parseCharacterString m) s (fun _ s' => P s'.ofs) ↔ StringAt m P s.ofs := by
  simp only [parseCharacterString, wp_bind, wp_getPointer, wp_deref_pointerAt, wp_incrementOffset,
    wp_pure, Nat.add_zero, StringAt, FieldAt]
  refine and_congr_right fun h1 => ?_
  rw [wp_copy_pointerAt _ _ fun s' => P (advance m s'.ofs _), advance_of_le h1]
  generalize (m.getD s.ofs 0).toNat = n
  constructor
  · rintro ⟨hn, hp⟩
    have hle : s.ofs + 1 + n ≤ m.length := by
      rcases hn with rfl | hn
      · exact h1
      · exact hn
    rw [advance_of_le hle] at hp
    exact ⟨hle, hp⟩
  · rintro ⟨hle, hp⟩
    rw [advance_of_le hle]
    exact ⟨Or.inr hle, hp⟩

theorem wp_parseQuestion (P : Nat → Prop) :
    Wp (parseQuestion m fuel) s (fun _ s' => P s'.ofs)
      ↔ QuestionAt m (SafeWithin m fuel) P s.ofs := by
  simp only [parseQuestion, wp_bind, wp_getPointer, wp_getInt16, wp_incrementOffset, wp_pure]
  rw [QuestionAt, ← wp_parseDomainName]
  refine wp_congr fun _ s' => ?_
  simp only [FieldAt]
  constructor
  · rintro ⟨-, h, hp⟩
    rw [advance_of_le (by omega)] at hp
    exact ⟨by omega, hp⟩
  · rintro ⟨h, hp⟩
    rw [advance_of_le h]
    exact ⟨by omega, by omega, hp⟩

theorem wp_parseFixed (P : Nat → Nat → Nat → Nat → Prop) :
    Wp (parseFixed m fuel) s (fun r s' => P r.type r.cls r.rdlength s'.ofs)
      ↔ NameAt m (SafeWithin m fuel) (fun ofs =>
          FieldAt m 10 (P (int16 m ofs) (int16 m (ofs + 2)) (int16 m (ofs + 8))) ofs) s.ofs := by
  simp only [parseFixed, wp_bind, wp_getPointer, wp_getInt16, wp_getInt32, wp_incrementOffset,
    wp_pure]
  rw [← wp_parseDomainName]
  refine wp_congr fun _ s' => ?_
  simp only [FieldAt, Nat.add_zero]
  constructor
  · rintro ⟨-, -, -, h, hp⟩
    rw [advance_of_le (by omega)] at hp
    exact ⟨by omega, hp⟩
  · rintro ⟨h, hp⟩
    rw [advance_of_le h]
    exact ⟨by omega, by omega, by omega, by omega, hp⟩

/-- An address of `size` octets. -/
theorem wp_parseAddress {what : String} {size : Nat} (hsize : size ≠ 0) (r : Fixed)
    (P : Nat → Prop) :
    Wp (parseAddress m what size r (pointerAt m s.ofs)) s (fun _ s' => P s'.ofs)
      ↔ (r.rdlength = size → FieldAt m size P s.ofs) := by
  unfold parseAddress
  by_cases hr : r.rdlength = size
  · simp only [hr, ne_eq, not_true_eq_false, if_false, wp_bind, wp_incrementOffset, wp_pure,
      forall_const, FieldAt]
    rw [wp_copy_pointerAt _ _ fun s' => P (advance m s'.ofs size)]
    constructor
    · rintro ⟨hn, hp⟩
      have hle := hn.resolve_left hsize
      rw [advance_of_le hle] at hp
      exact ⟨hle, hp⟩
    · rintro ⟨hle, hp⟩
      rw [advance_of_le hle]
      exact ⟨Or.inr hle, hp⟩
  · simp [hr]

theorem wp_parseSRV (r : Fixed) (P : Nat → Prop) :
    Wp (parseSRV m fuel r (pointerAt m s.ofs)) s (fun _ s' => P s'.ofs)
      ↔ FieldAt m 6 (NameAt m (SafeWithin m fuel) P) s.ofs := by
  simp only [parseSRV, wp_bind, wp_getInt16, wp_incrementOffset, wp_pure, wp_parseDomainName,
    FieldAt]
  constructor
  · rintro ⟨-, -, h, hp⟩
    rw [advance_of_le (by omega)] at hp
    exact ⟨by omega, hp⟩
  · rintro ⟨h, hp⟩
    rw [advance_of_le h]
    exact ⟨by omega, by omega, by omega, hp⟩

theorem wp_parseNAPTR (r : Fixed) (P : Nat → Prop) :
    Wp (parseNAPTR m fuel r (pointerAt m s.ofs)) s (fun _ s' => P s'.ofs)
      ↔ FieldAt m 4 (StringAt m (StringAt m (StringAt m (NameAt m (SafeWithin m fuel) P))))
          s.ofs := by
  simp only [parseNAPTR, wp_bind, wp_getInt16, wp_incrementOffset, wp_pure, wp_parseDomainName,
    wp_parseCharacterString, FieldAt]
  constructor
  · rintro ⟨-, h, hp⟩
    rw [advance_of_le (by omega)] at hp
    exact ⟨by omega, hp⟩
  · rintro ⟨h, hp⟩
    rw [advance_of_le h]
    exact ⟨by omega, by omega, hp⟩

theorem wp_parseResourceRecord (P : Nat → Prop) :
    Wp (parseResourceRecord m fuel) s (fun _ s' => P s'.ofs)
      ↔ RecordAt m (SafeWithin m fuel) P s.ofs := by
  simp only [parseResourceRecord, wp_bind, wp_getPointer]
  rw [RecordAt, ← wp_parseFixed fuel fun type cls rdlength =>
    RdataAt m (SafeWithin m fuel) type cls rdlength P]
  refine wp_congr fun r s' => ?_
  unfold RdataAt
  split_ifs
  · simp only [parseA, wp_bind, wp_pure]
    exact wp_parseAddress (by decide) r P
  · simp only [parseNS, wp_bind, wp_pure]
    exact wp_parseDomainName fuel P
  · simp only [parseCNAME, wp_bind, wp_pure]
    exact wp_parseDomainName fuel P
  · simp only [parseAAAA, wp_bind, wp_pure]
    exact wp_parseAddress (by decide) r P
  · exact wp_parseSRV fuel r P
  · exact wp_parseNAPTR fuel r P
  · simp only [parseRR, wp_bind, wp_incrementOffset, wp_pure]

/-- **A counted loop reads as many of what its body reads.** -/
theorem wp_forCount {body : Parser Unit} {F : (Nat → Prop) → Nat → Prop}
    (h : ∀ s P, Wp body s (fun _ s' => P s'.ofs) ↔ F P s.ofs) (n : Nat) (P : Nat → Prop) (s : St) :
    Wp (forCount n body) s (fun _ s' => P s'.ofs) ↔ times F n P s.ofs := by
  induction n generalizing s with
  | zero => rfl
  | succ n ih =>
    rw [forCount, wp_bind, times, ← h]
    exact wp_congr fun _ s' => ih s'

end Reading

/-! ### Messages -/

section Messages

variable {m : Octets}

theorem wp_parse (fuel : Nat) :
    Wp (parse m fuel) St.init (fun _ _ => True) ↔ MessageWith m (SafeWithin m fuel) := by
  have hq : ∀ (f : Question → Query → Query) (s : St) (P : Nat → Prop),
      Wp (parseQuestion m fuel >>= fun q => addToQuery (f q)) s (fun _ s' => P s'.ofs)
        ↔ QuestionAt m (SafeWithin m fuel) P s.ofs := by
    intro f s P
    simp only [wp_bind, wp_addToQuery]
    exact wp_parseQuestion fuel P
  have hr : ∀ (f : ResourceRecord → Query → Query) (s : St) (P : Nat → Prop),
      Wp (parseResourceRecord m fuel >>= fun r => addToQuery (f r)) s (fun _ s' => P s'.ofs)
        ↔ RecordAt m (SafeWithin m fuel) P s.ofs := by
    intro f s P
    simp only [wp_bind, wp_addToQuery]
    exact wp_parseResourceRecord fuel P
  -- the sections, from the last to the first
  have har := fun n => wp_forCount (hr fun r y => { y with additional := y.additional ++ [r] }) n
    fun _ => True
  have hns := fun n P => wp_forCount (hr fun r y => { y with authority := y.authority ++ [r] }) n P
  have han := fun n P => wp_forCount (hr fun r y => { y with answer := y.answer ++ [r] }) n P
  have hqd := fun n P => wp_forCount (hq fun q y => { y with question := y.question ++ [q] }) n P
  simp only [parse, parseHeader, wp_bind, wp_getPointer, wp_getInt16, wp_incrementOffset, wp_pure,
    har, hns, han, hqd, MessageWith, FieldAt, St.init, Nat.zero_add]
  constructor
  · rintro ⟨-, -, -, h, hp⟩
    rw [advance_of_le (by omega)] at hp
    exact ⟨by omega, by simpa using hp⟩
  · rintro ⟨h, hp⟩
    rw [advance_of_le (by omega)]
    exact ⟨by omega, by omega, by omega, by omega, by simpa using hp⟩

variable {N N' : Nat → Prop} {P P' : Nat → Prop} {ofs : Nat}

theorem NameAt.mono (hN : ∀ ofs, N ofs → N' ofs) (hP : ∀ ofs, P ofs → P' ofs)
    (h : NameAt m N P ofs) : NameAt m N' P' ofs :=
  ⟨hN ofs h.1, fun hacc => hP _ (h.2 hacc)⟩

theorem FieldAt.mono {n : Nat} (hP : ∀ ofs, P ofs → P' ofs) (h : FieldAt m n P ofs) :
    FieldAt m n P' ofs :=
  ⟨h.1, hP _ h.2⟩

theorem StringAt.mono (hP : ∀ ofs, P ofs → P' ofs) (h : StringAt m P ofs) : StringAt m P' ofs :=
  FieldAt.mono (fun _ => FieldAt.mono hP) h

theorem RdataAt.mono {type cls rdlength : Nat} (hN : ∀ ofs, N ofs → N' ofs)
    (hP : ∀ ofs, P ofs → P' ofs) (h : RdataAt m N type cls rdlength P ofs) :
    RdataAt m N' type cls rdlength P' ofs := by
  have hname : ∀ ofs, NameAt m N P ofs → NameAt m N' P' ofs := fun _ => NameAt.mono hN hP
  unfold RdataAt at h ⊢
  split_ifs at h ⊢
  · exact fun hlen => FieldAt.mono hP (h hlen)
  · exact hname ofs h
  · exact hname ofs h
  · exact fun hlen => FieldAt.mono hP (h hlen)
  · exact FieldAt.mono hname h
  · exact FieldAt.mono (fun _ => StringAt.mono fun _ => StringAt.mono fun _ => StringAt.mono hname) h
  · exact hP _ h

theorem RecordAt.mono (hN : ∀ ofs, N ofs → N' ofs) (hP : ∀ ofs, P ofs → P' ofs)
    (h : RecordAt m N P ofs) : RecordAt m N' P' ofs :=
  NameAt.mono hN (fun _ => FieldAt.mono fun _ => RdataAt.mono hN hP) h

theorem times_mono {F F' : (Nat → Prop) → Nat → Prop}
    (hF : ∀ (P P' : Nat → Prop) (ofs : Nat), (∀ ofs, P ofs → P' ofs) → F P ofs → F' P' ofs)
    (n : Nat) (hP : ∀ ofs, P ofs → P' ofs) : ∀ {ofs : Nat}, times F n P ofs → times F' n P' ofs := by
  induction n with
  | zero => intro ofs h; exact hP ofs h
  | succ n ih => intro ofs h; exact hF _ _ ofs (fun _ => ih) h

theorem MessageWith.mono (hN : ∀ ofs, N ofs → N' ofs) (h : MessageWith m N) : MessageWith m N' := by
  have hrecord : ∀ (P P' : Nat → Prop) (ofs : Nat), (∀ ofs, P ofs → P' ofs) →
      RecordAt m N P ofs → RecordAt m N' P' ofs := fun _ _ _ hP => RecordAt.mono hN hP
  have hquestion : ∀ (P P' : Nat → Prop) (ofs : Nat), (∀ ofs, P ofs → P' ofs) →
      QuestionAt m N P ofs → QuestionAt m N' P' ofs :=
    fun _ _ _ hP => NameAt.mono hN fun _ => FieldAt.mono hP
  refine FieldAt.mono (fun _ => times_mono hquestion _ fun _ => ?_) h
  exact times_mono hrecord _ fun _ => times_mono hrecord _ fun _ => times_mono hrecord _ fun _ => id

/-- The piece of the parser came to an end, and read nothing outside the message. -/
def Res.Inside {α : Type} : Res α → Prop
  | .done _ _ => True
  | .raised _ => True
  | .outside => False
  | .spins => False

/-- The parser ends, and reads nothing outside the message. -/
def Confined (m : Octets) : Prop := ∃ fuel, (parse m fuel St.init).Inside

theorem inside_iff_wp {α : Type} (p : Parser α) (s : St) :
    (p s).Inside ↔ Wp p s fun _ _ => True := by
  unfold Wp
  cases p s <;> rfl

theorem WellPlaced.of_confined (h : Confined m) : WellPlaced m := by
  obtain ⟨fuel, h⟩ := h
  rw [inside_iff_wp, wp_parse] at h
  exact MessageWith.mono (fun _ => NameSafe.of_safeWithin) h

theorem WellPlaced.confined (h : WellPlaced m) : Confined m := by
  obtain ⟨fuel, hfuel⟩ := exists_fuel m
  refine ⟨fuel, ?_⟩
  rw [inside_iff_wp, wp_parse]
  exact MessageWith.mono hfuel h

end Messages

/-- **The parser ends and reads only bytes of the message exactly if the fields of the message lie
inside it**, up to the field that it rejects, and no name goes round in a circle. -/
theorem confined_iff (m : Octets) : Confined m ↔ WellPlaced m :=
  ⟨WellPlaced.of_confined, WellPlaced.confined⟩

/-- A response to a question for the host `a`, the name of whose answer is a compression pointer to
itself: the loop of `parseDomainName` goes round for ever. -/
theorem not_confined_circle :
    ¬ Confined [0, 0, 0x81, 0x80, 0, 1, 0, 1, 0, 0, 0, 0, 1, 0x61, 0, 0, 1, 0, 1,
      0xc0, 19, 0, 1, 0, 1, 0, 0, 0, 60, 0, 4, 192, 0, 2, 1] := by
  intro h
  obtain ⟨-, -, hquestion⟩ := WellPlaced.of_confined h
  obtain ⟨-, hname, -⟩ := hquestion ⟨1, 14, rfl, rfl⟩
  exact absurd (hname.simple 0 1 19 rfl rfl) (by decide)

end OpenairHss.Dns
