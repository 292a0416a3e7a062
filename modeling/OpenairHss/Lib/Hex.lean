import Mathlib.Data.Fintype.Basic
import Mathlib.Data.List.GetD
import Mathlib.Data.BitVec
import Mathlib.Data.UInt

/-!
# Bytes in hexadecimal

A text spells bytes with two digits each, the high one first.  What a digit is, is a parameter:
`digit c` is the value of the character `c`, if it has one, and `char v` the character that is
written for a value.

* `decode_isSome_iff`: the texts that spell bytes.
* `decode_encode`: what is written is read back.
* `decode_mono`: with more digits, the same bytes are read.
* `le_length_decodePrefix_iff`: how far a reader comes that stops where no two digits follow.
-/

namespace Hex

/-! ### A byte -/

/-- A byte from its two halves. -/
def pair (h l : Fin 16) : BitVec 8 := BitVec.ofNat 8 (16 * h + l)

def high (b : BitVec 8) : Fin 16 := ⟨b.toNat / 16, by have := b.isLt; omega⟩

def low (b : BitVec 8) : Fin 16 := ⟨b.toNat % 16, by omega⟩

theorem toNat_pair (h l : Fin 16) : (pair h l).toNat = 16 * h + l := by
  rw [pair, BitVec.toNat_ofNat, Nat.mod_eq_of_lt (by omega)]

@[simp] theorem pair_high_low (b : BitVec 8) : pair (high b) (low b) = b := by
  apply BitVec.eq_of_toNat_eq
  rw [toNat_pair, high, low]
  exact Nat.div_add_mod b.toNat 16

/-- The byte as it is put together with a shift. -/
theorem shift_or_eq_pair (h l : Fin 16) :
    BitVec.ofNat 8 h <<< 4 ||| BitVec.ofNat 8 l = pair h l := by
  have hl : (l : Nat) < 2 ^ 4 := l.isLt
  apply BitVec.eq_of_toNat_eq
  rw [toNat_pair, BitVec.toNat_or, BitVec.toNat_shiftLeft, BitVec.toNat_ofNat, BitVec.toNat_ofNat,
    Nat.mod_eq_of_lt (show (h : Nat) < 2 ^ 8 by omega),
    Nat.mod_eq_of_lt (show (l : Nat) < 2 ^ 8 by omega), Nat.shiftLeft_eq,
    Nat.mod_eq_of_lt (by omega), ← Nat.shiftLeft_eq, ← Nat.shiftLeft_add_eq_or_of_lt hl,
    Nat.shiftLeft_eq, Nat.mul_comm]

/-- The low half as it is masked out. -/
theorem toNat_and_low (b : BitVec 8) : (b &&& 0x0f).toNat = low b := by
  rw [BitVec.toNat_and]
  exact Nat.and_two_pow_sub_one_eq_mod b.toNat 4

/-- The high half, masked after the shift. -/
theorem toNat_shift_and (b : BitVec 8) : ((b >>> 4) &&& 0x0f).toNat = high b := by
  have hshift : (b >>> 4).toNat = high b := by
    rw [BitVec.toNat_ushiftRight]
    exact Nat.shiftRight_eq_div_pow b.toNat 4
  calc ((b >>> 4) &&& 0x0f).toNat
      = (b >>> 4).toNat % 16 := toNat_and_low (b >>> 4)
    _ = (high b : Nat) % 16 := by rw [hshift]
    _ = high b := Nat.mod_eq_of_lt (high b).isLt

/-- The high half, masked before the shift. -/
theorem toNat_and_shift (b : BitVec 8) : ((b &&& 0xf0) >>> 4).toNat = high b := by
  rw [BitVec.ushiftRight_and_distrib]
  exact toNat_shift_and b

/-- The value of an ASCII character as a hexadecimal digit. -/
def ofAscii (code : Nat) : Option (Fin 16) :=
  if h : 48 ≤ code ∧ code ≤ 57 then some ⟨code - 48, by omega⟩
  else if h : 65 ≤ code ∧ code ≤ 70 then some ⟨code - 55, by omega⟩
  else if h : 97 ≤ code ∧ code ≤ 102 then some ⟨code - 87, by omega⟩
  else none

theorem ofAscii_isSome_iff (code : Nat) : (ofAscii code).isSome ↔
    (48 ≤ code ∧ code ≤ 57) ∨ (65 ≤ code ∧ code ≤ 70) ∨ (97 ≤ code ∧ code ≤ 102) := by
  unfold ofAscii
  split_ifs with h h h <;> simp_all

theorem ofAscii_eq_some {code : Nat} {v : Fin 16} (h : ofAscii code = some v) :
    (48 ≤ code ∧ code ≤ 57 ∧ code = 48 + v) ∨ (65 ≤ code ∧ code ≤ 70 ∧ code = 55 + v) ∨
      (97 ≤ code ∧ code ≤ 102 ∧ code = 87 + v) := by
  unfold ofAscii at h
  split_ifs at h with hdecimal hupper hlower
  · obtain rfl := Option.some.inj h
    exact Or.inl ⟨hdecimal.1, hdecimal.2, by simp only; omega⟩
  · obtain rfl := Option.some.inj h
    exact Or.inr (Or.inl ⟨hupper.1, hupper.2, by simp only; omega⟩)
  · obtain rfl := Option.some.inj h
    exact Or.inr (Or.inr ⟨hlower.1, hlower.2, by simp only; omega⟩)

/-- The value of a character as a hexadecimal digit. -/
def ofChar (c : Char) : Option (Fin 16) := ofAscii c.toNat

theorem decimal_iff (c : Char) : '0' ≤ c ∧ c ≤ '9' ↔ 48 ≤ c.toNat ∧ c.toNat ≤ 57 := Iff.rfl

theorem upper_iff (c : Char) : 'A' ≤ c ∧ c ≤ 'F' ↔ 65 ≤ c.toNat ∧ c.toNat ≤ 70 := Iff.rfl

theorem lower_iff (c : Char) : 'a' ≤ c ∧ c ≤ 'f' ↔ 97 ≤ c.toNat ∧ c.toNat ≤ 102 := Iff.rfl

/-! ### Texts -/

section

variable {α : Type} (digit : α → Option (Fin 16)) (char : Fin 16 → α)

/-- The bytes that a text of digits spells. -/
def decode : List α → Option (List (BitVec 8))
  | [] => some []
  | [_] => none
  | c :: d :: text =>
    match digit c, digit d with
    | some h, some l => (decode text).map (pair h l :: ·)
    | _, _ => none

/-- The bytes that are spelled up to where no two digits follow. -/
def decodePrefix : List α → List (BitVec 8)
  | [] => []
  | [_] => []
  | c :: d :: text =>
    match digit c, digit d with
    | some h, some l => pair h l :: decodePrefix text
    | _, _ => []

/-- The text that spells bytes. -/
def encode (bytes : List (BitVec 8)) : List α :=
  bytes.flatMap fun b => [char (high b), char (low b)]

@[simp] theorem encode_nil : encode char [] = [] := rfl

@[simp] theorem encode_cons (b : BitVec 8) (bytes : List (BitVec 8)) :
    encode char (b :: bytes) = char (high b) :: char (low b) :: encode char bytes := rfl

@[simp] theorem length_encode (bytes : List (BitVec 8)) :
    (encode char bytes).length = 2 * bytes.length := by
  induction bytes with
  | nil => rfl
  | cons b bytes ih =>
    rw [encode_cons, List.length_cons, List.length_cons, List.length_cons, ih]
    omega

theorem forall_mem_encode (p : α → Prop) (bytes : List (BitVec 8)) :
    (∀ c ∈ encode char bytes, p c) ↔ ∀ b ∈ bytes, p (char (high b)) ∧ p (char (low b)) := by
  induction bytes with
  | nil => simp
  | cons b bytes ih =>
    rw [encode_cons, List.forall_mem_cons, List.forall_mem_cons, List.forall_mem_cons, ih,
      and_assoc]

variable {digit}

theorem decode_pair {c d : α} {h l : Fin 16} (hc : digit c = some h) (hd : digit d = some l)
    (text : List α) : decode digit (c :: d :: text) = (decode digit text).map (pair h l :: ·) := by
  rw [decode, hc, hd]

theorem decodePrefix_pair {c d : α} {h l : Fin 16} (hc : digit c = some h) (hd : digit d = some l)
    (text : List α) :
    decodePrefix digit (c :: d :: text) = pair h l :: decodePrefix digit text := by
  rw [decodePrefix, hc, hd]

/-- A text begins with two digits, or nothing is read of it. -/
theorem decode_stop {c d : α} (hno : ¬((digit c).isSome ∧ (digit d).isSome)) (text : List α) :
    decode digit (c :: d :: text) = none ∧ decodePrefix digit (c :: d :: text) = [] := by
  rw [decode, decodePrefix]
  cases hc : digit c with
  | none => exact ⟨rfl, rfl⟩
  | some h =>
    cases hd : digit d with
    | none => exact ⟨rfl, rfl⟩
    | some l =>
      refine absurd ?_ hno
      rw [hc, hd]
      exact ⟨rfl, rfl⟩

variable (digit) in
/-- The rule for a reader of two characters at a time: a text is empty, a single character, two
digits and a text, or two characters that are not both digits and a text. -/
theorem induction_on_pairs {P : List α → Prop} (nil : P []) (single : ∀ c, P [c])
    (digits : ∀ c d h l text, digit c = some h → digit d = some l → P text → P (c :: d :: text))
    (stop : ∀ c d text, ¬((digit c).isSome ∧ (digit d).isSome) → P (c :: d :: text))
    (text : List α) : P text := by
  induction text using decode.induct digit with
  | case1 => exact nil
  | case2 c => exact single c
  | case3 c d text h l hd hc ih => exact digits c d h l text hc hd ih
  | case4 c d text hno =>
    refine stop c d text ?_
    rintro ⟨hc, hd⟩
    obtain ⟨h, hc⟩ := Option.isSome_iff_exists.mp hc
    obtain ⟨l, hd⟩ := Option.isSome_iff_exists.mp hd
    exact hno h l hc hd

/-- **The texts that spell bytes** have an even number of characters, all of them digits. -/
theorem decode_isSome_iff (text : List α) :
    (decode digit text).isSome ↔ text.length % 2 = 0 ∧ ∀ c ∈ text, (digit c).isSome := by
  induction text using induction_on_pairs digit with
  | nil => simp [decode]
  | single c => simp [decode]
  | digits c d h l text hc hd ih =>
    rw [decode_pair hc hd, Option.isSome_map, ih]
    simp only [List.length_cons, List.forall_mem_cons, hc, hd, Option.isSome_some, true_and]
    constructor
    · rintro ⟨hlen, hall⟩
      exact ⟨by omega, hall⟩
    · rintro ⟨hlen, hall⟩
      exact ⟨by omega, hall⟩
  | stop c d text hno =>
    rw [(decode_stop hno text).1]
    refine iff_of_false Bool.false_ne_true ?_
    rintro ⟨-, hall⟩
    exact hno ⟨hall c (by simp), hall d (by simp)⟩

theorem length_decode {text : List α} {bytes : List (BitVec 8)}
    (h : decode digit text = some bytes) : text.length = 2 * bytes.length := by
  induction text using induction_on_pairs digit generalizing bytes with
  | nil =>
    obtain rfl := Option.some.inj h
    rfl
  | single c => exact absurd h nofun
  | digits c d v w text hc hd ih =>
    rw [decode_pair hc hd] at h
    obtain ⟨bytes, hbytes, rfl⟩ := Option.map_eq_some_iff.mp h
    rw [List.length_cons, List.length_cons, List.length_cons, ih hbytes]
    omega
  | stop c d text hno =>
    rw [(decode_stop hno text).1] at h
    exact absurd h nofun

/-- The digits of a byte, by its index. -/
theorem getElem?_of_decode {text : List α} {bytes : List (BitVec 8)}
    (h : decode digit text = some bytes) {i : Nat} (hi : i < bytes.length) :
    ∃ c d v w, text[2 * i]? = some c ∧ text[2 * i + 1]? = some d ∧ digit c = some v ∧
      digit d = some w ∧ bytes[i] = pair v w := by
  induction text using induction_on_pairs digit generalizing bytes i with
  | nil =>
    obtain rfl := Option.some.inj h
    exact absurd hi (Nat.not_lt_zero i)
  | single c => exact absurd h nofun
  | digits c d v w text hc hd ih =>
    rw [decode_pair hc hd] at h
    obtain ⟨bytes, hbytes, rfl⟩ := Option.map_eq_some_iff.mp h
    cases i with
    | zero => exact ⟨c, d, v, w, rfl, rfl, hc, hd, rfl⟩
    | succ i => exact ih hbytes (Nat.lt_of_succ_lt_succ hi)
  | stop c d text hno =>
    rw [(decode_stop hno text).1] at h
    exact absurd h nofun

/-- With more digits, the same bytes are read. -/
theorem decode_mono {digit' : α → Option (Fin 16)}
    (hmono : ∀ c v, digit c = some v → digit' c = some v) {text : List α} {bytes : List (BitVec 8)} (h : decode digit text = some bytes) :
    decode digit' text = some bytes := by
  induction text using induction_on_pairs digit generalizing bytes with
  | nil => exact h
  | single c => exact h
  | digits c d v w text hc hd ih =>
    rw [decode_pair hc hd] at h
    obtain ⟨bytes, hbytes, rfl⟩ := Option.map_eq_some_iff.mp h
    rw [decode_pair (hmono c v hc) (hmono d w hd), ih hbytes]
    rfl
  | stop c d text hno =>
    rw [(decode_stop hno text).1] at h
    exact absurd h nofun

/-- **What is written is read back.** -/
theorem decode_encode (hchar : ∀ v, digit (char v) = some v) (bytes : List (BitVec 8)) :
    decode digit (encode char bytes) = some bytes := by
  induction bytes with
  | nil => rfl
  | cons b bytes ih =>
    rw [encode_cons, decode_pair (hchar _) (hchar _), ih, pair_high_low]
    rfl

/-! ### How far a reader comes -/

theorem decodePrefix_of_decode {text : List α} {bytes : List (BitVec 8)}
    (h : decode digit text = some bytes) : decodePrefix digit text = bytes := by
  induction text using induction_on_pairs digit generalizing bytes with
  | nil => exact Option.some.inj h
  | single c => exact absurd h nofun
  | digits c d v w text hc hd ih =>
    rw [decode_pair hc hd] at h
    obtain ⟨bytes, hbytes, rfl⟩ := Option.map_eq_some_iff.mp h
    rw [decodePrefix_pair hc hd, ih hbytes]
  | stop c d text hno =>
    rw [(decode_stop hno text).1] at h
    exact absurd h nofun

/-- `n` bytes are read if and only if the text begins with `2 * n` digits. -/
theorem le_length_decodePrefix_iff (n : Nat) (text : List α) :
    n ≤ (decodePrefix digit text).length ↔
      2 * n ≤ text.length ∧ ∀ c ∈ text.take (2 * n), (digit c).isSome := by
  induction text using induction_on_pairs digit generalizing n with
  | nil =>
    cases n with
    | zero => simp [decodePrefix]
    | succ n => simp [decodePrefix]
  | single c =>
    cases n with
    | zero => simp [decodePrefix]
    | succ n =>
      refine iff_of_false (Nat.not_succ_le_zero n) ?_
      rintro ⟨hlen, -⟩
      rw [List.length_singleton] at hlen
      omega
  | digits c d v w text hc hd ih =>
    cases n with
    | zero => simp
    | succ n =>
      rw [decodePrefix_pair hc hd, List.length_cons, Nat.add_le_add_iff_right, ih,
        show 2 * (n + 1) = 2 * n + 1 + 1 by omega]
      simp only [List.length_cons, List.take_succ_cons, List.forall_mem_cons, hc, hd,
        Option.isSome_some, true_and, Nat.add_le_add_iff_right]
  | stop c d text hno =>
    cases n with
    | zero => simp
    | succ n =>
      rw [(decode_stop hno text).2]
      refine iff_of_false (Nat.not_succ_le_zero n) ?_
      rintro ⟨-, hall⟩
      rw [show 2 * (n + 1) = 2 * n + 1 + 1 by omega, List.take_succ_cons,
        List.take_succ_cons] at hall
      exact hno ⟨hall c (by simp), hall d (by simp)⟩

end

end Hex
