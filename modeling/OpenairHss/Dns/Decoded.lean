import OpenairHss.Dns.Message
import Mathlib.Tactic.Ring

/-!
# What the parser makes of a message

With enough fuel the parser goes through every message that is laid out as in RFC 1035, and what it
reads is what the message says, with two exceptions (`decoded_iff`):

* A name that ends in a pointer to the root label is read with a dot at its end, or as the empty text
  if it has no other label.
* `RRecordNS` gives itself the type of a CNAME record.
-/

namespace OpenairHss.Dns

/-! ### What is compared -/

/-- The fields that a record of its own class has. -/
inductive Fields
  | none
  | address (address : Octets)
  | name (name : Octets)
  | srv (priority weight port : Nat) (target : Octets)
  | naptr (order preference : Nat) (flags service regexp replacement : Octets)
  deriving DecidableEq

/-- What the getters of a record return. -/
structure Shown where
  name : Octets
  type : Nat
  cls : Nat
  ttl : Nat
  fields : Fields
  deriving DecidableEq

/-- `getName`, `getType`, `getClass`, `getTTL` and the getters of the class of the record, with the
types that the constructors of `cdnsrecord.h` pass on; `getTTL` returns a `uint32_t`. -/
def ResourceRecord.shown : ResourceRecord → Shown
  | .rr name type cls ttl => ⟨name, type, cls, (ttl % 2 ^ 32).toNat, .none⟩
  | .a name ttl address => ⟨name, nsTA, nsCIn, (ttl % 2 ^ 32).toNat, .address address⟩
  | .ns name ttl server => ⟨name, nsTCname, nsCIn, (ttl % 2 ^ 32).toNat, .name server⟩
  | .cname name ttl canonical => ⟨name, nsTCname, nsCIn, (ttl % 2 ^ 32).toNat, .name canonical⟩
  | .aaaa name ttl address => ⟨name, nsTAaaa, nsCIn, (ttl % 2 ^ 32).toNat, .address address⟩
  | .srv name ttl priority weight port target =>
    ⟨name, nsTSrv, nsCIn, (ttl % 2 ^ 32).toNat, .srv priority weight port target⟩
  | .naptr name ttl order preference flags service regexp replacement =>
    ⟨name, nsTNaptr, nsCIn, (ttl % 2 ^ 32).toNat,
      .naptr order preference flags service regexp replacement⟩

section Meaning

variable {N : Type} (text : N → Octets)

/-- The fields of a record, with names as texts and strings in lower case. -/
def RData.fields : RData N → Fields
  | .a address | .aaaa address => .address address
  | .ns n | .cname n => .name (text n)
  | .srv priority weight port target => .srv priority weight port (text target)
  | .naptr order preference flags service regexp replacement =>
    .naptr order preference (toLower flags) (toLower service) (toLower regexp) (text replacement)
  | .other _ _ _ => .none

/-- A record with a type for name servers. -/
def Record.shown (nsType : Nat) (r : Record N) : Shown :=
  ⟨text r.name, if r.data.isNs then nsType else r.data.type, r.data.cls, r.ttl, r.data.fields text⟩

def Asked.shown (q : Asked N) : Octets × Nat × Nat := (text q.name, q.type, q.cls)

/-- The four sections as they are shown. -/
def Message.shown (nsType : Nat) (msg : Message N) :
    List (Octets × Nat × Nat) × List Shown × List Shown × List Shown :=
  (msg.question.map (Asked.shown text), msg.answer.map (Record.shown text nsType),
    msg.authority.map (Record.shown text nsType), msg.additional.map (Record.shown text nsType))

end Meaning

def Query.shown (y : Query) : List (Octets × Nat × Nat) × List Shown × List Shown × List Shown :=
  (y.question.map fun q => (q.qname, q.qtype, q.qclass), y.answer.map ResourceRecord.shown,
    y.authority.map ResourceRecord.shown, y.additional.map ResourceRecord.shown)

/-- Labels joined by dots. -/
def joined (labels : List Octets) : Octets := [0x2e].intercalate labels

/-- The text of a name: its labels in lower case, and a dot for the root. -/
def Placed.meant (n : Placed) : Octets :=
  toLower (if n.labels = [] then [0x2e] else joined n.labels)

/-- What the loop appends for a name. -/
def appended (labels : List Octets) (rootPointer : Bool) : Octets :=
  joined labels ++ if rootPointer ∧ labels ≠ [] then [0x2e] else []

/-- The text that is read for a name. -/
def Placed.read (n : Placed) : Octets :=
  toLower (if n.labels = [] ∧ n.rootPointer = false then [0x2e] else appended n.labels n.rootPointer)

/-! ### Parsers with enough fuel -/

/-- With enough fuel the parser ends with this value and in this state. -/
def Yields {α : Type} (p : Nat → Parser α) (s : St) (a : α) (s' : St) : Prop :=
  ∃ n, ∀ fuel ≥ n, p fuel s = .done a s'

section Yields

variable {α β : Type} {s s' s'' : St} {a : α} {b : β}

theorem yields_of_eq {p : Parser α} (h : p s = .done a s') : Yields (fun _ => p) s a s' :=
  ⟨0, fun _ _ => h⟩

theorem yields_pure : Yields (fun _ => (pure a : Parser α)) s a s := yields_of_eq rfl

theorem Yields.bind {p : Nat → Parser α} {k : Nat → α → Parser β} (hp : Yields p s a s')
    (hk : Yields (fun fuel => k fuel a) s' b s'') :
    Yields (fun fuel => p fuel >>= k fuel) s b s'' := by
  obtain ⟨n, hn⟩ := hp
  obtain ⟨n', hn'⟩ := hk
  refine ⟨max n n', fun fuel hfuel => ?_⟩
  exact (bind_of (hn fuel (le_trans (le_max_left _ _) hfuel))).trans
    (hn' fuel (le_trans (le_max_right _ _) hfuel))

/-- A step that does not need fuel. -/
theorem yields_then {p : Parser α} {k : Nat → α → Parser β} (hp : p s = .done a s')
    (hk : Yields (fun fuel => k fuel a) s' b s'') : Yields (fun fuel => p >>= k fuel) s b s'' :=
  (yields_of_eq hp).bind hk

end Yields

/-! ### Octets -/

section Octets

variable {m bytes : Octets} {s : St} {ofs : Nat}

theorem pointerAt_of_lt (h : ofs < m.length) : pointerAt m ofs = some ofs :=
  if_neg (Nat.not_le.mpr h)

theorem deref_of {p i : Nat} {b : UInt8} (h : m[p + i]? = some b) :
    deref m (some p) i s = .done b s := by
  simp [deref, h]

theorem int16_of_be16 {v : Nat} (hv : v < 2 ^ 16) :
    (UInt8.ofNat (v / 2 ^ 8)).toNat * 2 ^ 8 + (UInt8.ofNat v).toNat = v := by
  simp only [UInt8.toNat_ofNat', Nat.reducePow] at hv ⊢
  omega

theorem getInt16_of {p i v : Nat} (hv : v < 2 ^ 16) (h : Stands m (p + i) (be16 v)) :
    getInt16 m (some p) i s = .done v s := by
  have h1 : m[p + (i + 1)]? = some (UInt8.ofNat v) := h.tail.head
  unfold getInt16
  rw [bind_of (deref_of h.head), bind_of (deref_of h1), int16_of_be16 hv]
  rfl

theorem copy_of {p : Nat} (h : Stands m p bytes) {ptr : Option Nat}
    (hptr : bytes ≠ [] → ptr = some p) : copy m ptr bytes.length s = .done bytes s := by
  unfold copy
  split
  case isTrue h0 => rw [List.length_eq_zero_iff.mp h0]
  case isFalse h0 =>
    have hne : bytes ≠ [] := fun he => h0 (by rw [he]; rfl)
    rw [hptr hne]
    simp only [if_pos (h.le hne), h.take]

end Octets

/-! ### Names -/

section Names

variable {m : Octets} {s : St} {ofs next : Nat} {ls : List Octets} {c : Bool}

theorem label_octet {n : Nat} (h0 : 0 < n) (h63 : n ≤ 63) :
    UInt8.ofNat n ≠ 0 ∧ labelLength (UInt8.ofNat n) = some n := by
  have hall : ∀ i : Fin 64, 0 < i.val →
      UInt8.ofNat i ≠ 0 ∧ labelLength (UInt8.ofNat i) = some i.val := by decide
  exact hall ⟨n, by omega⟩ h0

/-- The two octets of a compression pointer. -/
theorem pointer_octets {target : Nat} (h : target < 2 ^ 14) :
    UInt8.ofNat ((0xc000 + target) / 2 ^ 8) ≠ 0 ∧
      labelLength (UInt8.ofNat ((0xc000 + target) / 2 ^ 8)) = none ∧
      isLabelOffset (UInt8.ofNat ((0xc000 + target) / 2 ^ 8)) = true ∧
      labelOffset (UInt8.ofNat ((0xc000 + target) / 2 ^ 8)) (UInt8.ofNat (0xc000 + target)) = target := by
  have hall : ∀ i : Fin 64, UInt8.ofNat (192 + i) ≠ 0 ∧ labelLength (UInt8.ofNat (192 + i)) = none ∧
      isLabelOffset (UInt8.ofNat (192 + i)) = true ∧
      (UInt8.ofNat (192 + i) &&& 0x3f).toNat = i.val := by decide
  have hlt : target / 2 ^ 8 < 64 := by omega
  have hdiv : (0xc000 + target) / 2 ^ 8 = 192 + target / 2 ^ 8 := by omega
  obtain ⟨h1, h2, h3, h4⟩ := hall ⟨target / 2 ^ 8, hlt⟩
  rw [hdiv]
  refine ⟨h1, h2, h3, ?_⟩
  rw [labelOffset, h4, UInt8.toNat_ofNat']
  simp only [Nat.reducePow] at h ⊢
  omega

/-- A name begins with 0 if it is the root and no pointer. -/
theorem Spelled.head (h : Spelled m ofs ls next c) :
    ∃ b, m[ofs]? = some b ∧ (b = 0 ↔ ls = [] ∧ c = false) := by
  induction h with
  | root h => exact ⟨0, h.head, by simp⟩
  | label h0 h63 h =>
    exact ⟨_, h.head, by simp [(label_octet (List.length_pos_of_ne_nil h0) h63).1]⟩
  | rootPointer h14 _ h =>
    exact ⟨_, h.head, iff_of_false (pointer_octets h14).1 fun hls => nomatch hls.2⟩
  | pointer h14 _ h hroot _ ih =>
    obtain ⟨b, hb, hiff⟩ := ih
    have hb0 : b ≠ 0 := fun hb0 => hroot (stands_root.mpr (hb0 ▸ hb))
    exact ⟨_, h.head, iff_of_false (pointer_octets h14).1 fun hls => hb0 (hiff.mpr hls)⟩

/-- A label in front of a name. -/
theorem appended_cons {l : Octets} {b : UInt8} (hb : b = 0 ↔ ls = [] ∧ c = false) :
    l ++ (if b ≠ 0 then [0x2e] else []) ++ appended ls c = appended (l :: ls) c := by
  cases ls with
  | nil =>
    cases c with
    | false => simp [appended, joined, hb.mpr]
    | true => simp [appended, joined, show b ≠ 0 from fun h => nomatch (hb.mp h).2]
  | cons l' ls =>
    have hb0 : b ≠ 0 := fun h => nomatch (hb.mp h).1
    simp [appended, joined, hb0, List.intercalate_cons_cons]

/-- One pass of the loop. -/
theorem yields_pass {st st₁ st' : NameState}
    (hpass : ∀ fuel, nameLoop m (fuel + 1) st s = nameLoop m fuel st₁ s)
    (h : Yields (fun fuel => nameLoop m fuel st₁) s st' s) :
    Yields (fun fuel => nameLoop m fuel st) s st' s := by
  obtain ⟨n, hn⟩ := h
  refine ⟨n + 1, fun fuel hfuel => ?_⟩
  obtain ⟨k, rfl⟩ := Nat.exists_eq_add_of_le' (show 1 ≤ fuel by omega)
  exact (hpass k).trans (hn k (by omega))

theorem pass_label {l : Octets} {b : UInt8} (h0 : l ≠ []) (h63 : l.length ≤ 63)
    (h : Stands m ofs (UInt8.ofNat l.length :: l)) (hb : m[ofs + (l.length + 1)]? = some b)
    {st : NameState} (hofs : st.currOfs = ofs) (hptr : st.ptr = some ofs) (fuel : Nat) :
    nameLoop m (fuel + 1) st s = nameLoop m fuel (st.afterLabel l.length l b) s := by
  obtain ⟨hne, hlen⟩ := label_octet (List.length_pos_of_ne_nil h0) h63
  have hlt : ofs + (l.length + 1) < m.length := (List.getElem?_eq_some_iff.mp hb).1
  have hvalid : validateLength m st.currOfs l.length = true := by
    rw [validateLength, if_neg]
    omega
  have hcopy : copy m (st.ptr.map (· + 1)) l.length s = .done l s :=
    copy_of h.tail fun _ => by rw [hptr, Option.map_some]
  have hb' : m[ofs + 1 + l.length + 0]? = some b := by
    rw [show ofs + 1 + l.length + 0 = ofs + (l.length + 1) by omega]
    exact hb
  have hnext : deref m (st.ptr.map (· + 1 + l.length)) 0 s = .done b s := by
    rw [hptr]
    exact deref_of hb'
  have hfirst : deref m st.ptr 0 s = .done (UInt8.ofNat l.length) s := by
    rw [hptr]
    exact deref_of h.head
  rw [nameLoop, bind_of hfirst, if_neg hne, hlen]
  simp only [hvalid, Bool.not_true, Bool.false_eq_true, if_false]
  rw [bind_of hcopy, bind_of hnext]

theorem pass_pointer {target : Nat} (h14 : target < 2 ^ 14)
    (h : Stands m ofs (be16 (0xc000 + target))) {st : NameState} (hptr : st.ptr = some ofs)
    (fuel : Nat) : nameLoop m (fuel + 1) st s = nameLoop m fuel (st.afterOffset m target) s := by
  obtain ⟨hne, hlen, hoffset, htarget⟩ := pointer_octets h14
  have hfirst : deref m st.ptr 0 s = .done (UInt8.ofNat ((0xc000 + target) / 2 ^ 8)) s := by
    rw [hptr]
    exact deref_of h.head
  have hsecond : deref m st.ptr 1 s = .done (UInt8.ofNat (0xc000 + target)) s := by
    rw [hptr]
    exact deref_of h.tail.head
  rw [nameLoop, bind_of hfirst, if_neg hne, hlen]
  simp only [hoffset, if_true]
  rw [bind_of hsecond, htarget]

/-- **The loop appends the labels of a name.** -/
theorem yields_nameLoop (h : Spelled m ofs ls next c) :
    ∀ st : NameState, st.currOfs = ofs → st.ptr = some ofs →
      ∃ st', Yields (fun fuel => nameLoop m fuel st) s st' s ∧ st'.dn = st.dn ++ appended ls c ∧
        st'.length = if st.offsetActive then st.compressedLength
          else st.compressedLength + (next - ofs) := by
  have hstop : ∀ {ofs : Nat} {st : NameState}, Stands m ofs [0] → st.ptr = some ofs →
      Yields (fun fuel => nameLoop m fuel st) s st s := by
    intro ofs st h hptr
    refine ⟨1, fun fuel hfuel => ?_⟩
    obtain ⟨k, rfl⟩ := Nat.exists_eq_add_of_le' hfuel
    have hfirst : deref m st.ptr 0 s = .done 0 s := by
      rw [hptr]
      exact deref_of h.head
    show nameLoop m (k + 1) st s = _
    rw [nameLoop, bind_of hfirst]
    rfl
  induction h with
  | @root ofs h =>
    intro st hofs hptr
    refine ⟨st, hstop h hptr, by simp [appended, joined], ?_⟩
    rw [NameState.length]
    cases st.offsetActive <;> simp
  | @label ofs next l ls c h0 h63 h rest ih =>
    intro st hofs hptr
    obtain ⟨b, hb, hiff⟩ := rest.head
    obtain ⟨st', hy, hdn, hlen⟩ := ih (st.afterLabel l.length l b)
      (by rw [NameState.afterLabel, hofs])
      (by simp only [NameState.afterLabel, hptr, Option.map_some, Option.some.injEq]; omega)
    refine ⟨st', yields_pass (pass_label h0 h63 h hb hofs hptr) hy, ?_, ?_⟩
    · rw [hdn, ← appended_cons hiff]
      simp [NameState.afterLabel]
    · have hlt := rest.lt
      rw [hlen]
      cases hact : st.offsetActive with
      | false =>
        simp only [NameState.afterLabel, hact, Bool.not_false, if_true, Bool.false_eq_true, if_false]
        omega
      | true => simp [NameState.afterLabel, hact]
  | @rootPointer ofs target h14 hback h there =>
    intro st hofs hptr
    have hlt : target < m.length := (List.getElem?_eq_some_iff.mp there.head).1
    refine ⟨st.afterOffset m target,
      yields_pass (pass_pointer h14 h hptr) (hstop there (pointerAt_of_lt hlt)), ?_, ?_⟩
    · simp [NameState.afterOffset, appended, joined]
    · rw [NameState.length]
      cases hact : st.offsetActive <;> simp [NameState.afterOffset, hact]
  | @pointer ofs target next ls c h14 hback h hroot there ih =>
    intro st hofs hptr
    obtain ⟨b, hb, -⟩ := there.head
    have hlt : target < m.length := (List.getElem?_eq_some_iff.mp hb).1
    obtain ⟨st', hy, hdn, hlen⟩ := ih (st.afterOffset m target) rfl (pointerAt_of_lt hlt)
    refine ⟨st', yields_pass (pass_pointer h14 h hptr) hy, hdn, ?_⟩
    rw [hlen]
    cases hact : st.offsetActive <;> simp [NameState.afterOffset, hact]

/-- Only the root takes one octet. -/
theorem Spelled.one_iff (h : Spelled m ofs ls next c) : next - ofs = 1 ↔ ls = [] ∧ c = false := by
  cases h with
  | root => simp
  | label _ _ _ rest =>
    have hlt := rest.lt
    exact iff_of_false (by omega) fun hls => nomatch hls.1
  | rootPointer => exact iff_of_false (by omega) fun hls => nomatch hls.2
  | pointer h14 _ h hroot there =>
    obtain ⟨b, hb, hiff⟩ := there.head
    have hb0 : b ≠ 0 := fun hb0 => hroot (stands_root.mpr (hb0 ▸ hb))
    exact iff_of_false (by omega) fun hls => hb0 (hiff.mpr hls)

/-- **`parseDomainName`** reads a name. -/
theorem yields_parseDomainName {n : Placed} (h : NamePlaced m n s.ofs next) :
    Yields (parseDomainName m) s n.read { s with ofs := next } := by
  obtain ⟨-, h⟩ := h
  obtain ⟨b, hb, -⟩ := h.head
  have hlt : s.ofs < m.length := (List.getElem?_eq_some_iff.mp hb).1
  obtain ⟨st, hy, hdn, hlen⟩ := yields_nameLoop (s := s) h
    ⟨[], 0, s.ofs, false, some s.ofs⟩ rfl rfl
  have hlen : st.length = next - s.ofs := by simpa using hlen
  have hdn : st.dn = appended n.labels n.rootPointer := by simpa using hdn
  have hadvance : advance m s.ofs st.length = next := by
    have h1 := h.lt
    have h2 := h.le
    rw [advance_of_le (by omega)]
    omega
  have htext : toLower (if st.length = 1 then [0x2e] else st.dn) = n.read := by
    rw [Placed.read, hdn, hlen]
    by_cases hone : next - s.ofs = 1
    · rw [if_pos hone, if_pos (h.one_iff.mp hone)]
    · rw [if_neg hone, if_neg fun hls => hone (h.one_iff.mpr hls)]
  have hpointer : getPointer m s = .done (some s.ofs) s := by rw [getPointer, pointerAt_of_lt hlt]
  refine yields_then (show getOffset s = .done s.ofs s from rfl) (yields_then hpointer ?_)
  refine Yields.bind hy (yields_of_eq ?_)
  show Res.done _ { s with ofs := advance m s.ofs st.length } = _
  rw [htext, hadvance]

end Names

/-! ### Questions and records -/

section Records

variable {m : Octets} {s : St} {next : Nat}

/-- The pointer to octets that stand at the offset of the buffer. -/
theorem getPointer_of {bytes : Octets} (h : Stands m s.ofs bytes) (hb : bytes ≠ []) :
    getPointer m s = .done (some s.ofs) s := by
  have hle := h.le hb
  have hpos := List.length_pos_of_ne_nil hb
  rw [getPointer, pointerAt_of_lt (by omega)]

theorem incrementOffset_of {len : Nat} (h : s.ofs + len ≤ m.length) :
    incrementOffset m len s = .done () { s with ofs := s.ofs + len } := by
  rw [incrementOffset, advance_of_le h]

theorem yields_parseQuestion {q : Asked Placed} (h : QuestionPlaced m q s.ofs next) :
    Yields (parseQuestion m) s ⟨q.name.read, q.type, q.cls⟩ { s with ofs := next } := by
  obtain ⟨p, hname, htype, hcls, hfields, rfl⟩ := h
  have hle : p + 4 ≤ m.length := hfields.le (by simp [be16])
  obtain ⟨h1, h2⟩ := stands_append.mp hfields
  have h2 : Stands m (p + 2) (be16 q.cls) := h2
  refine (yields_parseDomainName hname).bind (yields_of_eq ?_)
  rw [bind_of (getPointer_of (s := { s with ofs := p }) hfields (by simp [be16])),
    bind_of (getInt16_of htype h1), bind_of (getInt16_of hcls h2),
    bind_of (incrementOffset_of (s := { s with ofs := p }) hle)]
  rfl

/-- The text of a character string. -/
theorem parseCharacterString_of {cs : Octets} (hlen : cs.length < 2 ^ 8)
    (h : Stands m s.ofs (charString cs)) :
    parseCharacterString m s = .done (toLower cs) { s with ofs := s.ofs + (cs.length + 1) } := by
  have hle : s.ofs + (cs.length + 1) ≤ m.length := h.le (List.cons_ne_nil _ _)
  have hfirst : deref m (some s.ofs) 0 s = .done (UInt8.ofNat cs.length) s := deref_of h.head
  have hnat : (UInt8.ofNat cs.length).toNat = cs.length := by
    rw [UInt8.toNat_ofNat', Nat.mod_eq_of_lt hlen]
  have hcopy : copy m (pointerAt m (s.ofs + 1)) cs.length { s with ofs := s.ofs + 1 } =
      .done cs { s with ofs := s.ofs + 1 } := by
    refine copy_of h.tail fun hne => pointerAt_of_lt ?_
    have := List.length_pos_of_ne_nil hne
    omega
  unfold parseCharacterString
  rw [bind_of (getPointer_of h (List.cons_ne_nil _ _)), bind_of hfirst, hnat,
    bind_of (incrementOffset_of (by omega : s.ofs + 1 ≤ m.length)),
    bind_of (show getPointer m { s with ofs := s.ofs + 1 } = .done (pointerAt m (s.ofs + 1)) _ from rfl),
    bind_of hcopy,
    bind_of (incrementOffset_of (s := { s with ofs := s.ofs + 1 }) (by show s.ofs + 1 + _ ≤ _; omega))]
  show Res.done _ { s with ofs := s.ofs + 1 + cs.length } = _
  rw [Nat.add_assoc, Nat.add_comm 1]

/-- The value of four octets, as an `int`. -/
theorem getInt32_of {p i v : Nat} (hv : v < 2 ^ 32) (h : Stands m (p + i) (be32 v)) :
    getInt32 m (some p) i s = .done (Int.bmod v (2 ^ 32)) s := by
  have h1 : m[p + (i + 1)]? = some (UInt8.ofNat (v / 2 ^ 16)) := h.tail.head
  have h2 : m[p + (i + 2)]? = some (UInt8.ofNat (v / 2 ^ 8)) := h.tail.tail.head
  have h3 : m[p + (i + 3)]? = some (UInt8.ofNat v) := h.tail.tail.tail.head
  have hsum : (UInt8.ofNat (v / 2 ^ 16 / 2 ^ 8)).toNat * 2 ^ 24 +
      (UInt8.ofNat (v / 2 ^ 16)).toNat * 2 ^ 16 + (UInt8.ofNat (v / 2 ^ 8)).toNat * 2 ^ 8 +
      (UInt8.ofNat v).toNat = v := by
    simp only [UInt8.toNat_ofNat', Nat.reducePow] at hv ⊢
    omega
  unfold getInt32
  rw [bind_of (deref_of h.head), bind_of (deref_of h1), bind_of (deref_of h2), bind_of (deref_of h3),
    hsum]
  rfl

/-- What `getTTL` returns. -/
theorem ttl_of {v : Nat} (hv : v < 2 ^ 32) : (Int.bmod v (2 ^ 32) % 2 ^ 32).toNat = v := by
  have hmod : Int.bmod (v : Int) (2 ^ 32) % 2 ^ 32 = v := by
    have h := @Int.bmod_emod v (2 ^ 32)
    have h' : (v : Int) % 2 ^ 32 = v := Int.emod_eq_of_lt (by omega) (by omega)
    exact h.trans h'
  rw [hmod, Int.toNat_natCast]

theorem yields_parseFixed {n : Placed} {ttl type cls rdlength p : Nat}
    (hname : NamePlaced m n s.ofs p) (httl : ttl < 2 ^ 32) (htype : type < 2 ^ 16)
    (hcls : cls < 2 ^ 16) (hlen : rdlength < 2 ^ 16)
    (h : Stands m p (be16 type ++ be16 cls ++ be32 ttl ++ be16 rdlength)) :
    ∃ t : Int, (t % 2 ^ 32).toNat = ttl ∧
      Yields (parseFixed m) s ⟨n.read, type, cls, t, rdlength⟩ { s with ofs := p + 10 } := by
  have hle : p + 10 ≤ m.length := h.le (by simp [be16])
  obtain ⟨h123, h4⟩ := stands_append.mp h
  obtain ⟨h12, h3⟩ := stands_append.mp h123
  obtain ⟨h1, h2⟩ := stands_append.mp h12
  have h2 : Stands m (p + 2) (be16 cls) := h2
  have h3 : Stands m (p + 4) (be32 ttl) := h3
  have h4 : Stands m (p + 8) (be16 rdlength) := h4
  refine ⟨Int.bmod ttl (2 ^ 32), ttl_of httl,
    (yields_parseDomainName hname).bind (yields_of_eq ?_)⟩
  rw [bind_of (getPointer_of (s := { s with ofs := p }) h (by simp [be16])),
    bind_of (getInt16_of htype h1), bind_of (getInt16_of hcls h2), bind_of (getInt32_of httl h3),
    bind_of (getInt16_of hlen h4), bind_of (incrementOffset_of (s := { s with ofs := p }) hle)]
  rfl

/-- The switch of `parseResourceRecord`. -/
def parseData (m : Octets) (fuel : Nat) (r : Fixed) (rdata : Option Nat) : Parser ResourceRecord :=
  if r.cls = nsCIn ∧ r.type = nsTA then parseA m r rdata
  else if r.cls = nsCIn ∧ r.type = nsTNs then parseNS m fuel r
  else if r.cls = nsCIn ∧ r.type = nsTCname then parseCNAME m fuel r
  else if r.cls = nsCIn ∧ r.type = nsTAaaa then parseAAAA m r rdata
  else if r.cls = nsCIn ∧ r.type = nsTSrv then parseSRV m fuel r rdata
  else if r.cls = nsCIn ∧ r.type = nsTNaptr then parseNAPTR m fuel r rdata
  else parseRR m r

/-- What the first part of a record says. -/
structure Agreeing (f : Fixed) (r : Record Placed) (rdlength : Nat) : Prop where
  name : f.name = r.name.read
  type : f.type = r.data.type
  cls : f.cls = r.data.cls
  ttl : (f.ttl % 2 ^ 32).toNat = r.ttl
  rdlength : f.rdlength = rdlength

section Data

variable {f : Fixed} {name : Placed} {ttl : Nat}

theorem parseAddress_of (what : String) {address : Octets} (hne : address ≠ [])
    (h : Stands m s.ofs address) (hlen : f.rdlength = address.length) :
    parseAddress m what address.length f (pointerAt m s.ofs) s =
      .done address { s with ofs := s.ofs + address.length } := by
  have hle := h.le hne
  have hpos := List.length_pos_of_ne_nil hne
  have hpointer : pointerAt m s.ofs = some s.ofs := pointerAt_of_lt (by omega)
  unfold parseAddress
  rw [if_neg (not_not.mpr hlen), bind_of (copy_of h fun _ => hpointer), hlen,
    bind_of (incrementOffset_of hle)]
  rfl

theorem yields_parseSRV {priority weight port : Nat} {target : Placed}
    (h : DataPlaced m s.ofs next (.srv priority weight port target)) :
    Yields (fun fuel => parseSRV m fuel f (pointerAt m s.ofs)) s
      (.srv f.name f.ttl priority weight port target.read) { s with ofs := next } := by
  obtain ⟨⟨hp, hw, hport⟩, hstands, htarget⟩ := h
  have hle : s.ofs + 6 ≤ m.length := hstands.le (by simp [be16])
  have hpointer : pointerAt m s.ofs = some s.ofs := pointerAt_of_lt (by omega)
  obtain ⟨h12, h3⟩ := stands_append.mp hstands
  obtain ⟨h1, h2⟩ := stands_append.mp h12
  have h2 : Stands m (s.ofs + 2) (be16 weight) := h2
  have h3 : Stands m (s.ofs + 4) (be16 port) := h3
  have hname := yields_parseDomainName (s := ⟨s.ofs + 6, s.query⟩) htarget
  rw [hpointer]
  exact yields_then (getInt16_of hp h1) (yields_then (getInt16_of hw h2)
    (yields_then (getInt16_of hport h3) (yields_then (incrementOffset_of hle)
      (hname.bind yields_pure))))

theorem yields_parseNAPTR {order preference : Nat} {flags service regexp : Octets}
    {replacement : Placed}
    (h : DataPlaced m s.ofs next (.naptr order preference flags service regexp replacement)) :
    Yields (fun fuel => parseNAPTR m fuel f (pointerAt m s.ofs)) s
      (.naptr f.name f.ttl order preference (toLower flags) (toLower service) (toLower regexp)
        replacement.read) { s with ofs := next } := by
  obtain ⟨⟨ho, hp⟩, ⟨hflags, hservice, hregexp⟩, hstands, hreplacement⟩ := h
  obtain ⟨h1234, h5⟩ := stands_append.mp hstands
  obtain ⟨h123, h4⟩ := stands_append.mp h1234
  obtain ⟨h12, h3⟩ := stands_append.mp h123
  have hle : s.ofs + 4 ≤ m.length := h12.le (by simp [be16])
  have hpointer : pointerAt m s.ofs = some s.ofs := pointerAt_of_lt (by omega)
  obtain ⟨h1, h2⟩ := stands_append.mp h12
  have h2 : Stands m (s.ofs + 2) (be16 preference) := h2
  have h3 : Stands m (s.ofs + 4) (charString flags) := h3
  have h4 : Stands m (s.ofs + 4 + (flags.length + 1)) (charString service) := by
    refine cast (congrArg (fun ofs => Stands m ofs _) ?_) h4
    simp only [List.length_append, be16_length, charString_length]
    omega
  have h5 : Stands m (s.ofs + 4 + (flags.length + 1) + (service.length + 1)) (charString regexp) := by
    refine cast (congrArg (fun ofs => Stands m ofs _) ?_) h5
    simp only [List.length_append, be16_length, charString_length]
    omega
  have hname := yields_parseDomainName (s := ⟨_, s.query⟩) hreplacement
  rw [hpointer]
  exact yields_then (getInt16_of ho h1) (yields_then (getInt16_of hp h2)
    (yields_then (incrementOffset_of hle)
      (yields_then (parseCharacterString_of (s := ⟨s.ofs + 4, s.query⟩) hflags h3)
        (yields_then (parseCharacterString_of (s := ⟨_, s.query⟩) hservice h4)
          (yields_then (parseCharacterString_of (s := ⟨_, s.query⟩) hregexp h5)
            (hname.bind yields_pure))))))

theorem parseRR_of {rdata : Octets} (h : Stands m s.ofs rdata) (hofs : s.ofs ≤ m.length)
    (hlen : f.rdlength = rdata.length) :
    parseRR m f s = .done (.rr f.name f.type f.cls f.ttl) { s with ofs := s.ofs + rdata.length } := by
  have hle : s.ofs + rdata.length ≤ m.length := by
    by_cases hne : rdata = []
    · rw [hne]
      exact hofs
    · exact h.le hne
  unfold parseRR
  rw [hlen, bind_of (incrementOffset_of hle)]
  rfl

/-- **The data of a record** are read as they stand. -/
theorem yields_parseData {r : Record Placed} (h : DataPlaced m s.ofs next r.data)
    (hofs : s.ofs ≤ m.length) (hf : Agreeing f r (next - s.ofs)) :
    ∃ rr : ResourceRecord, rr.shown = r.shown Placed.read nsTCname ∧
      Yields (fun fuel => parseData m fuel f (pointerAt m s.ofs)) s rr { s with ofs := next } := by
  obtain ⟨name, ttl, data⟩ := r
  obtain ⟨hname, htype, hcls, httl, hlen⟩ := hf
  have hshown : ∀ {type cls : Nat} {fields : Fields},
      Shown.mk f.name type cls (f.ttl % 2 ^ 32).toNat fields = ⟨name.read, type, cls, ttl, fields⟩ := by
    intro type cls fields
    rw [hname, httl]
  have hselect : ∀ {p : Nat → Parser ResourceRecord} {rr : ResourceRecord},
      (∀ fuel, parseData m fuel f (pointerAt m s.ofs) = p fuel) → Yields p s rr { s with ofs := next } →
      Yields (fun fuel => parseData m fuel f (pointerAt m s.ofs)) s rr { s with ofs := next } := by
    intro p rr hp hy
    rw [funext hp]
    exact hy
  cases data with
  | a address =>
    obtain ⟨hlength, hstands, rfl⟩ := h
    have hne : address ≠ [] := List.ne_nil_of_length_eq_add_one hlength
    have haddress := parseAddress_of "Parser::parseA()" (f := f) hne hstands
      (by rw [hlen, hlength]; exact Nat.add_sub_cancel_left _ _)
    rw [hlength] at haddress
    refine ⟨.a f.name f.ttl address, hshown, hselect (p := fun _ => parseA m f _) (fun fuel => ?_)
      (yields_then haddress yields_pure)⟩
    simp [parseData, htype, hcls, RData.type, RData.cls]
  | ns n =>
    refine ⟨.ns f.name f.ttl n.read, hshown, hselect (p := fun fuel => parseNS m fuel f) (fun fuel => ?_)
      ((yields_parseDomainName h).bind yields_pure)⟩
    simp [parseData, htype, hcls, RData.type, RData.cls, nsTA, nsTNs]
  | cname n =>
    refine ⟨.cname f.name f.ttl n.read, hshown, hselect (p := fun fuel => parseCNAME m fuel f) (fun fuel => ?_)
      ((yields_parseDomainName h).bind yields_pure)⟩
    simp [parseData, htype, hcls, RData.type, RData.cls, nsTA, nsTNs, nsTCname]
  | aaaa address =>
    obtain ⟨hlength, hstands, rfl⟩ := h
    have hne : address ≠ [] := List.ne_nil_of_length_eq_add_one hlength
    have haddress := parseAddress_of "Parser::parseAAAA()" (f := f) hne hstands
      (by rw [hlen, hlength]; exact Nat.add_sub_cancel_left _ _)
    rw [hlength] at haddress
    refine ⟨.aaaa f.name f.ttl address, hshown, hselect (p := fun _ => parseAAAA m f _)
      (fun fuel => ?_) (yields_then haddress yields_pure)⟩
    simp [parseData, htype, hcls, RData.type, RData.cls, nsTA, nsTNs, nsTCname, nsTAaaa]
  | srv priority weight port target =>
    refine ⟨.srv f.name f.ttl priority weight port target.read, hshown,
      hselect (fun fuel => ?_) (yields_parseSRV h)⟩
    simp [parseData, htype, hcls, RData.type, RData.cls, nsTA, nsTNs, nsTCname, nsTAaaa, nsTSrv]
  | naptr order preference flags service regexp replacement =>
    refine ⟨.naptr f.name f.ttl order preference (toLower flags) (toLower service) (toLower regexp)
      replacement.read, hshown, hselect (fun fuel => ?_) (yields_parseNAPTR h)⟩
    simp [parseData, htype, hcls, RData.type, RData.cls, nsTA, nsTNs, nsTCname, nsTAaaa, nsTSrv,
      nsTNaptr]
  | other type cls rdata =>
    obtain ⟨⟨-, -, hunknown⟩, hstands, rfl⟩ := h
    have hrr := parseRR_of (f := f) hstands hofs (by rw [hlen]; exact Nat.add_sub_cancel_left _ _)
    have hno : ∀ t ∈ knownTypes, ¬ (f.cls = nsCIn ∧ f.type = t) := by
      rintro t ht ⟨hc, ht'⟩
      have htype' : type = t := htype.symm.trans ht'
      exact hunknown ⟨hcls.symm.trans hc, htype' ▸ ht⟩
    refine ⟨.rr f.name f.type f.cls f.ttl, ?_, hselect (fun fuel => ?_) (yields_of_eq hrr)⟩
    · show Shown.mk f.name f.type f.cls (f.ttl % 2 ^ 32).toNat .none = _
      rw [hshown, htype, hcls]
      rfl
    · simp only [knownTypes, List.mem_cons, List.not_mem_nil, or_false, forall_eq_or_imp,
        forall_eq] at hno
      obtain ⟨h1, h2, h3, h4, h5, h6⟩ := hno
      simp only [parseData, h1, h2, h3, h4, h5, h6, if_false]

end Data

theorem yields_parseResourceRecord {r : Record Placed} (h : RecordPlaced m r s.ofs next) :
    ∃ rr : ResourceRecord, rr.shown = r.shown Placed.read nsTCname ∧
      Yields (parseResourceRecord m) s rr { s with ofs := next } := by
  obtain ⟨p, hname, httl, hlen, hfixed, hdata⟩ := h
  have hle : p + 10 ≤ m.length := hfixed.le (by simp [be16])
  have htype : r.data.type < 2 ^ 16 ∧ r.data.cls < 2 ^ 16 := by
    cases hr : r.data with
    | other type cls rdata =>
      rw [hr] at hdata
      exact ⟨hdata.1.1, hdata.1.2.1⟩
    | _ =>
      simp [RData.type, RData.cls, nsCIn, nsTA, nsTNs, nsTCname, nsTAaaa, nsTSrv, nsTNaptr]
  obtain ⟨t, ht, hy₁⟩ := yields_parseFixed hname httl htype.1 htype.2 hlen hfixed
  obtain ⟨rr, hshown, hy⟩ := yields_parseData (s := ⟨p + 10, s.query⟩)
    (f := ⟨r.name.read, r.data.type, r.data.cls, t, next - (p + 10)⟩) hdata hle ⟨rfl, rfl, rfl, ht, rfl⟩
  refine ⟨rr, hshown, hy₁.bind ?_⟩
  exact yields_then (show getPointer m ⟨p + 10, s.query⟩ = .done (pointerAt m (p + 10)) _ from rfl) hy

end Records

/-! ### Messages -/

section Sections

variable {m : Octets} {α β : Type}

/-- A section: each thing of a row adds what it shows. -/
theorem yields_row {P : α → Nat → Nat → Prop} (body : Nat → Parser Unit) (shown : α → β)
    (put : List β → List (Octets × Nat × Nat) × List Shown × List Shown × List Shown) {as : List α}
    {ofs next : Nat} (hbody : ∀ a o o' y xs, P a o o' → y.shown = put xs →
      ∃ y' : Query, Yields body ⟨o, y⟩ () ⟨o', y'⟩ ∧ y'.shown = put (xs ++ [shown a]))
    (hrow : Row P as ofs next) : ∀ (y : Query) (xs : List β), y.shown = put xs →
      ∃ y' : Query, Yields (fun fuel => forCount as.length (body fuel)) ⟨ofs, y⟩ () ⟨next, y'⟩ ∧
        y'.shown = put (xs ++ as.map shown) := by
  induction hrow with
  | nil ofs =>
    intro y xs hy
    exact ⟨y, yields_pure, by simpa using hy⟩
  | cons head _ ih =>
    intro y xs hy
    obtain ⟨y₁, h₁, hy₁⟩ := hbody _ _ _ y xs head hy
    obtain ⟨y₂, h₂, hy₂⟩ := ih y₁ _ hy₁
    refine ⟨y₂, h₁.bind h₂, ?_⟩
    rw [hy₂, List.append_assoc]
    rfl

/-- **The parser goes through every message**, and shows each name as it is read. -/
theorem yields_parse {msg : Message Placed} (h : MessagePlaced m msg) :
    ∃ y : Query, Yields (parse m) St.init () ⟨m.length, y⟩ ∧
      y.shown = msg.shown Placed.read nsTCname := by
  obtain ⟨⟨hqd, han, hns, har⟩, hheader, o₁, o₂, o₃, hq, ha, hau, had⟩ := h
  have hle : 4 + 8 ≤ m.length := hheader.le (by simp [be16])
  obtain ⟨h123, h4⟩ := stands_append.mp hheader
  obtain ⟨h12, h3⟩ := stands_append.mp h123
  obtain ⟨h1, h2⟩ := stands_append.mp h12
  have h1 : Stands m (0 + 4) (be16 msg.question.length) := h1
  have h2 : Stands m (0 + 6) (be16 msg.answer.length) := h2
  have h3 : Stands m (0 + 8) (be16 msg.authority.length) := h3
  have h4 : Stands m (0 + 10) (be16 msg.additional.length) := h4
  have hpointer : getPointer m St.init = .done (some 0) St.init := by
    rw [getPointer]
    exact congrArg (fun p => Res.done p St.init) (pointerAt_of_lt (by show 0 < m.length; omega))
  have hparseHeader : parseHeader m St.init = .done ⟨msg.question.length, msg.answer.length,
      msg.authority.length, msg.additional.length⟩ ⟨12, St.init.query⟩ := by
    unfold parseHeader
    rw [bind_of hpointer, bind_of (getInt16_of hqd h1), bind_of (getInt16_of han h2),
      bind_of (getInt16_of hns h3), bind_of (getInt16_of har h4),
      bind_of (incrementOffset_of (s := St.init) (by show 0 + 12 ≤ m.length; omega))]
    rfl
  have hquestion : ∀ (q : Asked Placed) o o' y xs rest, QuestionPlaced m q o o' →
      y.shown = (xs, rest) → ∃ y' : Query,
        Yields (fun fuel => parseQuestion m fuel >>= fun q =>
          addToQuery fun y => { y with question := y.question ++ [q] }) ⟨o, y⟩ () ⟨o', y'⟩ ∧
        y'.shown = (xs ++ [q.shown Placed.read], rest) := by
    intro q o o' y xs rest hq hy
    refine ⟨_, (yields_parseQuestion (s := ⟨o, y⟩) hq).bind (yields_of_eq rfl), ?_⟩
    simp only [Query.shown, Prod.mk.injEq] at hy ⊢
    simp [hy, Asked.shown]
  have hrecord : ∀ (f : ResourceRecord → Query → Query)
      (put : List Shown → List (Octets × Nat × Nat) × List Shown × List Shown × List Shown),
      (∀ rr y xs, y.shown = put xs → (f rr y).shown = put (xs ++ [rr.shown])) →
      ∀ (r : Record Placed) o o' y xs, RecordPlaced m r o o' → y.shown = put xs →
        ∃ y' : Query, Yields (fun fuel => parseResourceRecord m fuel >>= fun rr => addToQuery (f rr))
            ⟨o, y⟩ () ⟨o', y'⟩ ∧ y'.shown = put (xs ++ [r.shown Placed.read nsTCname]) := by
    intro f put hf r o o' y xs hr hy
    obtain ⟨rr, hshown, hyields⟩ := yields_parseResourceRecord (s := ⟨o, y⟩) hr
    refine ⟨f rr y, hyields.bind (yields_of_eq rfl), ?_⟩
    rw [← hshown]
    exact hf rr y xs hy
  obtain ⟨y₁, hy₁, hs₁⟩ := yields_row _ _ (fun xs => (xs, [], [], []))
    (fun q o o' y xs => hquestion q o o' y xs _) hq St.init.query [] rfl
  obtain ⟨y₂, hy₂, hs₂⟩ := yields_row _ _ (fun xs => (msg.question.map (Asked.shown _), xs, [], []))
    (hrecord (fun rr y => { y with answer := y.answer ++ [rr] }) _ fun rr y xs hy => by
      simp only [Query.shown, Prod.mk.injEq] at hy ⊢
      simp [hy]) ha y₁ [] hs₁
  obtain ⟨y₃, hy₃, hs₃⟩ := yields_row _ _ (fun xs => (_, msg.answer.map (Record.shown _ _), xs, []))
    (hrecord (fun rr y => { y with authority := y.authority ++ [rr] }) _ fun rr y xs hy => by
      simp only [Query.shown, Prod.mk.injEq] at hy ⊢
      simp [hy]) hau y₂ [] hs₂
  obtain ⟨y₄, hy₄, hs₄⟩ := yields_row _ _
    (fun xs => (_, _, msg.authority.map (Record.shown _ _), xs))
    (hrecord (fun rr y => { y with additional := y.additional ++ [rr] }) _ fun rr y xs hy => by
      simp only [Query.shown, Prod.mk.injEq] at hy ⊢
      simp [hy]) had y₃ [] hs₃
  exact ⟨y₄, yields_then hparseHeader (hy₁.bind (hy₂.bind (hy₃.bind hy₄))), hs₄⟩

end Sections

/-! ### When it is read as it is meant -/

/-- With enough fuel the parser ends, and shows what the message says. -/
def ParsedAs (m : Octets) (msg : Message Placed) : Prop :=
  ∃ n, ∀ fuel ≥ n, ∃ s, parse m fuel St.init = .done () s ∧
    s.query.shown = msg.shown Placed.meant nsTNs

section Compare

variable {m : Octets} {msg : Message Placed}

theorem length_toLower (dn : Octets) : (toLower dn).length = dn.length := List.length_map _

/-- A name is read as it is meant, unless it ends in a pointer to the root. -/
theorem read_eq_meant_iff (n : Placed) : n.read = n.meant ↔ n.rootPointer = false := by
  obtain ⟨ofs, labels, rootPointer⟩ := n
  cases rootPointer with
  | false =>
    refine iff_of_true ?_ rfl
    by_cases h : labels = [] <;> simp [Placed.read, Placed.meant, appended, h]
  | true =>
    refine iff_of_false (fun h => ?_) nofun
    have hlen := congrArg List.length h
    simp only [Placed.read, Placed.meant, length_toLower, Bool.true_eq_false, and_false, if_false]
      at hlen
    by_cases hnil : labels = []
    · simp [hnil, appended, joined] at hlen
    · simp [hnil, appended] at hlen

theorem fields_iff (d : RData Placed) :
    d.fields Placed.read = d.fields Placed.meant ↔ ∀ n ∈ d.names, n.rootPointer = false := by
  cases d <;> simp [RData.fields, RData.names, read_eq_meant_iff]

theorem record_shown_iff (r : Record Placed) :
    r.shown Placed.read nsTCname = r.shown Placed.meant nsTNs ↔
      r.data.isNs = false ∧ ∀ n ∈ r.names, n.rootPointer = false := by
  have htype : (if r.data.isNs then nsTCname else r.data.type) =
      (if r.data.isNs then nsTNs else r.data.type) ↔ r.data.isNs = false := by
    cases r.data.isNs with
    | false => simp
    | true => simp [nsTCname, nsTNs]
  simp only [Record.shown, Shown.mk.injEq, read_eq_meant_iff, htype, fields_iff, Record.names,
    List.forall_mem_cons, true_and]
  exact and_left_comm

theorem shown_iff : msg.shown Placed.read nsTCname = msg.shown Placed.meant nsTNs ↔
    (∀ r ∈ msg.records, r.data.isNs = false) ∧ ∀ n ∈ msg.names, n.rootPointer = false := by
  have hasked : ∀ q : Asked Placed, q.shown Placed.read = q.shown Placed.meant ↔
      q.name.rootPointer = false := by
    intro q
    simp [Asked.shown, read_eq_meant_iff]
  have hrecords : ∀ rs : List (Record Placed),
      rs.map (Record.shown Placed.read nsTCname) = rs.map (Record.shown Placed.meant nsTNs) ↔
        ∀ r ∈ rs, r.data.isNs = false ∧ ∀ n ∈ r.names, n.rootPointer = false := by
    intro rs
    rw [List.map_inj_left]
    exact forall₂_congr fun r _ => record_shown_iff r
  have hall : (∀ r ∈ msg.records, r.data.isNs = false ∧ ∀ n ∈ r.names, n.rootPointer = false) ↔
      (∀ r ∈ msg.records, r.data.isNs = false) ∧
        ∀ n ∈ msg.records.flatMap Record.names, n.rootPointer = false := by
    simp only [List.mem_flatMap, forall_exists_index, and_imp]
    exact ⟨fun h => ⟨fun r hr => (h r hr).1, fun n r hr hn => (h r hr).2 n hn⟩,
      fun h r hr => ⟨h.1 r hr, fun n hn => h.2 n r hr hn⟩⟩
  rw [Message.names, List.forall_mem_append, and_left_comm, ← hall]
  simp only [Message.shown, Prod.mk.injEq, hrecords, List.map_inj_left, hasked, Message.records,
    List.forall_mem_append, List.forall_mem_map, and_assoc]

/-- **A message is read as it is meant** exactly if it has no name server record, and no name that
ends in a pointer to the root label. -/
theorem decoded_iff (h : MessagePlaced m msg) : ParsedAs m msg ↔
    (∀ r ∈ msg.records, r.data.isNs = false) ∧ ∀ n ∈ msg.names, n.rootPointer = false := by
  obtain ⟨y, ⟨k, hk⟩, hy⟩ := yields_parse h
  rw [← shown_iff, ← hy]
  constructor
  · rintro ⟨n, hn⟩
    obtain ⟨s, hs, hshown⟩ := hn (max n k) (le_max_left _ _)
    rw [hk _ (le_max_right _ _)] at hs
    injection hs with _ hs
    rw [← hshown, ← hs]
  · exact fun hshown => ⟨k, fun fuel hfuel => ⟨_, hk fuel hfuel, hshown⟩⟩

end Compare

/-! ### Three messages -/

instance (m : Octets) (ofs : Nat) (bytes : Octets) : Decidable (Stands m ofs bytes) :=
  inferInstanceAs (Decidable (bytes <+: m.drop ofs))

def nameA (ofs : Nat) : Placed := ⟨ofs, [[0x61]], false⟩

/-- A question about `a`, and its address; the second name is a pointer to the first. -/
def sampleAddress : Octets :=
  [0, 0, 0x80, 0, 0, 1, 0, 1, 0, 0, 0, 0, 1, 0x61, 0, 0, 1, 0, 1,
    0xc0, 12, 0, 1, 0, 1, 0, 0, 0, 60, 0, 4, 192, 0, 2, 1]

def sampleMessage : Message Placed where
  question := [⟨nameA 12, 1, 1⟩]
  answer := [⟨nameA 19, 60, .a [192, 0, 2, 1]⟩]
  authority := []
  additional := []

theorem spelled_a {m : Octets} {ofs : Nat} (h : Stands m ofs [1, 0x61, 0]) :
    Spelled m ofs [[0x61]] (ofs + 3) false :=
  .label (by decide) (by decide) (stands_append.mp (show Stands m ofs ([1, 0x61] ++ [0]) from h)).1
    (.root (stands_append.mp (show Stands m ofs ([1, 0x61] ++ [0]) from h)).2)

theorem decoded_iff_sample : ParsedAs sampleAddress sampleMessage ∧
    (∀ r ∈ sampleMessage.records, r.data.isNs = false) ∧
      ∀ n ∈ sampleMessage.names, n.rootPointer = false := by
  have ha : Spelled sampleAddress 12 [[0x61]] 15 false := spelled_a (by decide)
  have hcond : (∀ r ∈ sampleMessage.records, r.data.isNs = false) ∧
      ∀ n ∈ sampleMessage.names, n.rootPointer = false := by
    simp [sampleMessage, Message.records, Message.names, Record.names, RData.names, RData.isNs, nameA]
  have hplaced : MessagePlaced sampleAddress sampleMessage := by
    refine ⟨by decide, by decide, 19, 35, 35, .cons ⟨15, ⟨rfl, ha⟩, by decide, by decide, by decide, rfl⟩
      (.nil _), .cons ⟨21, ⟨rfl, ?_⟩, by decide, by decide, by decide, rfl, by decide, rfl⟩ (.nil _),
      .nil _, .nil _⟩
    exact .pointer (show 12 < 2 ^ 14 by decide) (by decide) (by decide) (by decide) ha
  exact ⟨(decoded_iff hplaced).mpr hcond, hcond⟩

/-- The name server `a` of the root. -/
def sampleNs : Octets :=
  [0, 0, 0x80, 0, 0, 0, 0, 1, 0, 0, 0, 0, 0, 0, 2, 0, 1, 0, 0, 0, 60, 0, 3, 1, 0x61, 0]

def messageNs : Message Placed where
  question := []
  answer := [⟨⟨12, [], false⟩, 60, .ns (nameA 23)⟩]
  authority := []
  additional := []

/-- A question about the root, and one about `a`, written with a pointer to the root label of the
first. -/
def sampleRoot : Octets :=
  [0, 0, 0x80, 0, 0, 2, 0, 0, 0, 0, 0, 0, 0, 0, 1, 0, 1, 1, 0x61, 0xc0, 12, 0, 1, 0, 1]

def messageRoot : Message Placed where
  question := [⟨⟨12, [], false⟩, 1, 1⟩, ⟨⟨17, [[0x61]], true⟩, 1, 1⟩]
  answer := []
  authority := []
  additional := []

/-- A message with a name server and one with a pointer to the root label, which are not read as they
are meant. -/
theorem not_decoded :
    (MessagePlaced sampleNs messageNs ∧ ¬ ParsedAs sampleNs messageNs) ∧
      MessagePlaced sampleRoot messageRoot ∧ ¬ ParsedAs sampleRoot messageRoot := by
  have hnot : ∀ {m : Octets} {msg : Message Placed}, MessagePlaced m msg →
      msg.shown Placed.read nsTCname ≠ msg.shown Placed.meant nsTNs → ¬ ParsedAs m msg := by
    rintro m msg h hne ⟨n, hn⟩
    obtain ⟨y, ⟨k, hk⟩, hy⟩ := yields_parse h
    obtain ⟨s, hs, hshown⟩ := hn (max n k) (le_max_left _ _)
    rw [hk _ (le_max_right _ _)] at hs
    injection hs with _ hs
    exact hne (hy.symm.trans (by rw [← hshown, ← hs]))
  have hns : MessagePlaced sampleNs messageNs := by
    refine ⟨by decide, by decide, 12, 26, 26, .nil _, .cons ⟨13, ⟨rfl, .root (by decide)⟩, by decide,
      by decide, by decide, ⟨rfl, spelled_a (by decide)⟩⟩ (.nil _), .nil _, .nil _⟩
  have hroot : MessagePlaced sampleRoot messageRoot := by
    refine ⟨by decide, by decide, 25, 25, 25, .cons ⟨13, ⟨rfl, .root (by decide)⟩, by decide, by decide,
      by decide, rfl⟩ (.cons ⟨21, ⟨rfl, ?_⟩, by decide, by decide, by decide, rfl⟩ (.nil _)),
      .nil _, .nil _, .nil _⟩
    exact .label (by decide) (by decide) (by decide)
      (.rootPointer (show 12 < 2 ^ 14 by decide) (by decide) (by decide) (by decide))
  exact ⟨⟨hns, hnot hns (by decide)⟩, hroot, hnot hroot (by decide)⟩

end OpenairHss.Dns
