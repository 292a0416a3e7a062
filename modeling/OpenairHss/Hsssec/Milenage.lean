import OpenairHss.Hsssec.Kdf
import Mathlib.Tactic.FinCases

/-!
# MILENAGE

The functions of 3GPP TS 35.206 on 128-bit words, for an arbitrary block cipher `E`, and the
proof that `fx.c` computes them: with `TEMP = E_K(RAND ⊕ OPc)` and
`IN1 = SQN ‖ AMF ‖ SQN ‖ AMF`,

    OUT1 = E_K(TEMP ⊕ rot(IN1 ⊕ OPc, r1) ⊕ c1) ⊕ OPc,
    OUTi = E_K(rot(TEMP ⊕ OPc, ri) ⊕ ci) ⊕ OPc        (i = 2, …, 5).

The source moves byte `i` to place `(i + s) % 16`, which is a left rotation by `8 * (16 - s)`
bits (`word_xorInto`), and puts `ci` on by touching the last byte only (`word_xorLast`).
-/

namespace OpenairHss.Hsssec

open ByteVec Interact

/-! ### The standard -/

namespace Ts35206

variable (E : BitVec 128 → BitVec 128 → BitVec 128) (k opc rand : BitVec 128)
  (sqn : BitVec 48) (amf : BitVec 16)

/-- The rotations `r1`, …, `r5`. -/
def r : Fin 5 → Nat := ![64, 0, 32, 64, 96]

/-- The constants `c1`, …, `c5`. -/
def c : Fin 5 → BitVec 128 := ![0, 1, 2, 4, 8]

def temp : BitVec 128 := E k (rand ^^^ opc)

def in1 : BitVec 128 := sqn ++ amf ++ sqn ++ amf

def out1 : BitVec 128 :=
  E k (temp E k opc rand ^^^ (in1 sqn amf ^^^ opc).rotateLeft (r 0) ^^^ c 0) ^^^ opc

/-- `OUT2`, …, `OUT5` (`i = 1` is `OUT2`). -/
def out (i : Fin 5) : BitVec 128 :=
  E k ((temp E k opc rand ^^^ opc).rotateLeft (r i) ^^^ c i) ^^^ opc

/-- MAC-A, the bits `0` to `63` of `OUT1` (the standard counts from the most significant bit). -/
def f1 : BitVec 64 := (out1 E k opc rand sqn amf).extractLsb' 64 64

/-- MAC-S, the bits `64` to `127` of `OUT1`. -/
def f1star : BitVec 64 := (out1 E k opc rand sqn amf).extractLsb' 0 64

/-- RES, the bits `64` to `127` of `OUT2`. -/
def f2 : BitVec 64 := (out E k opc rand 1).extractLsb' 0 64

/-- CK is `OUT3`. -/
def f3 : BitVec 128 := out E k opc rand 2

/-- IK is `OUT4`. -/
def f4 : BitVec 128 := out E k opc rand 3

/-- AK, the bits `0` to `47` of `OUT2`. -/
def f5 : BitVec 48 := (out E k opc rand 1).extractLsb' 80 48

/-- The anonymity key for resynchronisation, the bits `0` to `47` of `OUT5`. -/
def f5star : BitVec 48 := (out E k opc rand 4).extractLsb' 80 48

end Ts35206

/-! ### The loops of the source -/

theorem xorInto_apply {s : Nat} (hs : s ≤ 16) (a b dst : Bytes 16) (j : Fin 16) :
    xorInto s a b dst j
      = (fun i => a i ^^^ b i) ⟨(j + (16 - s)) % 16, Nat.mod_lt _ (by decide)⟩ := by
  have hinj : Function.Injective
      (fun i : Fin 16 => (⟨(i + s) % 16, Nat.mod_lt _ (by decide)⟩ : Fin 16)) := by
    intro i i' h
    have := Fin.mk.inj h
    omega
  have hj : j = ⟨((⟨(j + (16 - s)) % 16, Nat.mod_lt _ (by decide)⟩ : Fin 16) + s) % 16,
      Nat.mod_lt _ (by decide)⟩ := by
    apply Fin.ext
    simp only
    omega
  conv_lhs => rw [hj]
  exact forLoop_update_apply hinj (fun i _ => a i ^^^ b i) dst _

theorem word_xorInto_zero (a b dst : Bytes 16) :
    word (xorInto 0 a b dst) = word a ^^^ word b := by
  rw [← word_xor]
  congr 1
  funext j
  rw [xorInto_apply (by decide)]
  have e : (⟨(j + (16 - 0)) % 16, Nat.mod_lt _ (by decide)⟩ : Fin 16) = j := by
    apply Fin.ext
    simp only
    omega
  rw [e]

/-- **The source's rotated exclusive or** is a left rotation of the exclusive or. -/
theorem word_xorInto {s : Nat} (h0 : 0 < s) (hs : s ≤ 16) (a b dst : Bytes 16) :
    word (xorInto s a b dst) = (word a ^^^ word b).rotateLeft (8 * (16 - s)) := by
  rw [← word_xor]
  exact word_rotate (by omega) (fun i => xorInto_apply hs a b dst i)

theorem word_xorBy (b a : Bytes 16) : word (xorBy b a) = word a ^^^ word b := by
  rw [← word_xor, xorBy, forLoop_update_id (fun i x => x ^^^ b i)]

theorem word_xorLast (x : BitVec 8) (a : Bytes 16) :
    word (xorLast x a) = word a ^^^ x.setWidth 128 := by
  apply BitVec.eq_of_getLsbD_eq
  intro j hj
  rw [BitVec.getLsbD_xor, getLsbD_word _ hj, getLsbD_word _ hj, BitVec.getLsbD_setWidth, xorLast]
  by_cases hlow : j < 8
  · have e : (⟨16 - 1 - j / 8, by omega⟩ : Fin 16) = 15 := by
      apply Fin.ext
      simp only
      omega
    rw [e, Function.update_self, BitVec.getLsbD_xor, Nat.mod_eq_of_lt hlow, decide_eq_true hj,
      Bool.true_and]
  · have e : (⟨16 - 1 - j / 8, by omega⟩ : Fin 16) ≠ 15 := by
      intro h
      have := congrArg Fin.val h
      simp only at this
      omega
    rw [Function.update_of_ne e, BitVec.getLsbD_of_ge x j (by omega), Bool.and_false,
      Bool.xor_false]

theorem takeFrom_eq (n s : Nat) (h : s + n ≤ 16) (out : Bytes 16) :
    takeFrom n s h out = fun i : Fin n => out ⟨s + i, by omega⟩ := by
  rw [takeFrom, forLoop_update_id (fun i _ => out ⟨i + s, by omega⟩)]
  funext i
  congr 1
  exact Fin.ext (Nat.add_comm _ _)

theorem word_takeFrom (n s : Nat) (h : s + n ≤ 16) (out : Bytes 16) :
    word (takeFrom n s h out) = (word out).extractLsb' (8 * (16 - s - n)) (8 * n) := by
  rw [takeFrom_eq, word_slice h]

theorem takeFrom_all (out : Bytes 16) : takeFrom 16 0 (by decide) out = out := by
  rw [takeFrom_eq]
  funext i
  congr 1
  exact Fin.ext (Nat.zero_add _)

theorem rotateLeft_zero {w : Nat} (x : BitVec w) : x.rotateLeft 0 = x := by
  apply BitVec.eq_of_getLsbD_eq
  intro j hj
  simp [hj]

theorem fillIn1_eq (sqn : Bytes 6) (amf : Bytes 2) :
    fillIn1 sqn amf = Fin.append (Fin.append (Fin.append sqn amf) sqn) amf := by
  funext i
  fin_cases i <;> rfl

theorem word_fillIn1 (sqn : Bytes 6) (amf : Bytes 2) :
    word (fillIn1 sqn amf) = Ts35206.in1 (word sqn) (word amf) := by
  apply BitVec.eq_of_getLsbD_eq
  intro j _
  rw [fillIn1_eq, Ts35206.in1]
  refine (getLsbD_word_append _ _ j).trans ?_
  rw [BitVec.getLsbD_append, BitVec.getLsbD_append, getLsbD_word_append, BitVec.getLsbD_append,
    BitVec.getLsbD_append, getLsbD_word_append]

/-! ### `fx.c` computes the standard -/

section Correct

variable {R : Type} (cipher : BlockCipher R)

/-- `E_K` on words: the key schedule followed by an encryption. -/
def BlockCipher.onWords (k b : BitVec 128) : BitVec 128 :=
  word (n := 16) (cipher.encrypt (cipher.schedule (ofWord (n := 16) k)) (ofWord (n := 16) b))

theorem word_encrypt (k b : Bytes 16) :
    word (cipher.encrypt (cipher.schedule k) b) = cipher.onWords (word k) (word b) := by
  unfold BlockCipher.onWords
  rw [ofWord_word, ofWord_word]

theorem word_out1 (opc k rand : Bytes 16) (sqn : Bytes 6) (amf : Bytes 2) (table : R) :
    word (cipher.alone (out1 opc k rand sqn amf) table)
      = Ts35206.out1 cipher.onWords (word k) (word opc) (word rand) (word sqn) (word amf) := by
  have h : cipher.alone (out1 opc k rand sqn amf) table
      = xorBy opc (cipher.encrypt (cipher.schedule k)
          (xorBy (cipher.encrypt (cipher.schedule k) (xorInto 0 rand opc (fun _ => 0)))
            (xorInto 8 (fillIn1 sqn amf) opc (xorInto 0 rand opc (fun _ => 0))))) := rfl
  rw [h, word_xorBy, word_encrypt, word_xorBy, word_encrypt, word_xorInto_zero,
    word_xorInto (by decide) (by decide), word_fillIn1, Ts35206.out1, Ts35206.temp]
  rw [BitVec.xor_comm (BitVec.rotateLeft _ _), show Ts35206.c 0 = 0#128 from rfl,
    BitVec.xor_zero]
  rfl

/-- The block that `f2345` and `f5star` compute for one rotation and one constant. -/
def BlockCipher.outOf (opc k rand : Bytes 16) (s : Nat) (x : BitVec 8) (dst : Bytes 16) :
    Bytes 16 :=
  let temp := cipher.encrypt (cipher.schedule k) (xorInto 0 rand opc (fun _ => 0))
  xorBy opc (cipher.encrypt (cipher.schedule k) (xorLast x (xorInto s temp opc dst)))

theorem word_outOf (opc k rand dst : Bytes 16) (s : Nat) (x : BitVec 8) (i : Fin 5)
    (hs : s ≤ 16) (hr : 0 < s ∧ 8 * (16 - s) = Ts35206.r i ∨ s = 0 ∧ Ts35206.r i = 0)
    (hx : x.setWidth 128 = Ts35206.c i) :
    word (cipher.outOf opc k rand s x dst)
      = Ts35206.out cipher.onWords (word k) (word opc) (word rand) i := by
  rw [BlockCipher.outOf, word_xorBy, word_encrypt, word_xorLast, hx, Ts35206.out, Ts35206.temp]
  rcases hr with ⟨h0, hr⟩ | ⟨rfl, hr⟩
  · rw [word_xorInto h0 hs, word_encrypt, word_xorInto_zero, hr]
  · rw [word_xorInto_zero, word_encrypt, word_xorInto_zero, hr, rotateLeft_zero]

variable (opc k rand : Bytes 16) (table : R)

theorem word_f1 (sqn : Bytes 6) (amf : Bytes 2) :
    word (cipher.alone (f1 opc k rand sqn amf) table)
      = Ts35206.f1 cipher.onWords (word k) (word opc) (word rand) (word sqn) (word amf) := by
  have h : cipher.alone (f1 opc k rand sqn amf) table
      = takeFrom 8 0 (by decide) (cipher.alone (out1 opc k rand sqn amf) table) := rfl
  rw [h, word_takeFrom, word_out1]
  rfl

theorem word_f1star (sqn : Bytes 6) (amf : Bytes 2) :
    word (cipher.alone (f1star opc k rand sqn amf) table)
      = Ts35206.f1star cipher.onWords (word k) (word opc) (word rand) (word sqn)
          (word amf) := by
  have h : cipher.alone (f1star opc k rand sqn amf) table
      = takeFrom 8 8 (by decide) (cipher.alone (out1 opc k rand sqn amf) table) := rfl
  rw [h, word_takeFrom, word_out1]
  rfl

theorem word_f2345_res :
    word (cipher.alone (f2345 opc k rand) table).res
      = Ts35206.f2 cipher.onWords (word k) (word opc) (word rand) := by
  have h : ∃ dst, (cipher.alone (f2345 opc k rand) table).res
      = takeFrom 8 8 (by decide) (cipher.outOf opc k rand 0 1 dst) := ⟨_, rfl⟩
  obtain ⟨dst, h⟩ := h
  rw [h, word_takeFrom, word_outOf cipher opc k rand dst 0 1 1 (by decide)
    (Or.inr ⟨rfl, rfl⟩) (by decide)]
  rfl

theorem word_f2345_ak :
    word (cipher.alone (f2345 opc k rand) table).ak
      = Ts35206.f5 cipher.onWords (word k) (word opc) (word rand) := by
  have h : ∃ dst, (cipher.alone (f2345 opc k rand) table).ak
      = takeFrom 6 0 (by decide) (cipher.outOf opc k rand 0 1 dst) := ⟨_, rfl⟩
  obtain ⟨dst, h⟩ := h
  rw [h, word_takeFrom, word_outOf cipher opc k rand dst 0 1 1 (by decide)
    (Or.inr ⟨rfl, rfl⟩) (by decide)]
  rfl

theorem word_f2345_ck :
    word (cipher.alone (f2345 opc k rand) table).ck
      = Ts35206.f3 cipher.onWords (word k) (word opc) (word rand) := by
  have h : ∃ dst, (cipher.alone (f2345 opc k rand) table).ck
      = takeFrom 16 0 (by decide) (cipher.outOf opc k rand 12 2 dst) := ⟨_, rfl⟩
  obtain ⟨dst, h⟩ := h
  rw [h, takeFrom_all, word_outOf cipher opc k rand dst 12 2 2 (by decide)
    (Or.inl ⟨by decide, rfl⟩) (by decide)]
  rfl

theorem word_f2345_ik :
    word (cipher.alone (f2345 opc k rand) table).ik
      = Ts35206.f4 cipher.onWords (word k) (word opc) (word rand) := by
  have h : ∃ dst, (cipher.alone (f2345 opc k rand) table).ik
      = takeFrom 16 0 (by decide) (cipher.outOf opc k rand 8 4 dst) := ⟨_, rfl⟩
  obtain ⟨dst, h⟩ := h
  rw [h, takeFrom_all, word_outOf cipher opc k rand dst 8 4 3 (by decide)
    (Or.inl ⟨by decide, rfl⟩) (by decide)]
  rfl

theorem word_f5star :
    word (cipher.alone (f5star opc k rand) table)
      = Ts35206.f5star cipher.onWords (word k) (word opc) (word rand) := by
  have h : ∃ dst, cipher.alone (f5star opc k rand) table
      = takeFrom 6 0 (by decide) (cipher.outOf opc k rand 4 8 dst) := ⟨_, rfl⟩
  obtain ⟨dst, h⟩ := h
  rw [h, word_takeFrom, word_outOf cipher opc k rand dst 4 8 4 (by decide)
    (Or.inl ⟨by decide, rfl⟩) (by decide)]
  rfl

end Correct

/-! ### The vector -/

theorem generateAutn_eq (sqn ak : Bytes 6) (amf : Bytes 2) (mac_a : Bytes 8) :
    generateAutn sqn ak amf mac_a
      = Fin.append (Fin.append (fun i => sqn i ^^^ ak i) amf) mac_a := by
  funext i
  fin_cases i <;> rfl

theorem deriveKasme_eq (kdf : List (BitVec 8) → List (BitVec 8) → Bytes 32) (ck ik : Bytes 16)
    (plmn : Bytes 3) (sqn ak : Bytes 6) :
    deriveKasme kdf ck ik plmn sqn ak
      = kdf (List.ofFn ck ++ List.ofFn ik)
          ([0x10] ++ List.ofFn plmn ++ [0x00, 0x03] ++ List.ofFn (fun i => sqn i ^^^ ak i)
            ++ [0x00, 0x06]) := rfl

section Vector

variable {R : Type} (cipher : BlockCipher R)
  (kdf : List (BitVec 8) → List (BitVec 8) → Bytes 32)
  (opc key : Bytes 16) (plmn : Bytes 3) (sqn : Bytes 6) (vector : AucVector) (table : R)

/-- What `generate_vector` writes, in terms of the functions it calls. -/
theorem alone_generateVector :
    ∃ t₁ t₂, cipher.alone (generateVector kdf opc key plmn sqn vector) table
      = let mac_a := cipher.alone (f1 opc key vector.rand sqn vectorAmf) t₁
        let f := cipher.alone (f2345 opc key vector.rand) t₂
        { vector with
          xres := f.res
          autn := generateAutn sqn f.ak vectorAmf mac_a
          kasme := deriveKasme kdf f.ck f.ik plmn sqn f.ak } := ⟨_, _, rfl⟩

theorem ofWord_f3 : ofWord (n := 16) (Ts35206.f3 cipher.onWords (word key) (word opc)
    (word vector.rand)) = (cipher.alone (f2345 opc key vector.rand) table).ck := by
  rw [← word_f2345_ck cipher opc key vector.rand table]
  exact ofWord_word _

theorem ofWord_f4 : ofWord (n := 16) (Ts35206.f4 cipher.onWords (word key) (word opc)
    (word vector.rand)) = (cipher.alone (f2345 opc key vector.rand) table).ik := by
  rw [← word_f2345_ik cipher opc key vector.rand table]
  exact ofWord_word _

theorem ofWord_f5 : ofWord (n := 6) (Ts35206.f5 cipher.onWords (word key) (word opc)
    (word vector.rand)) = (cipher.alone (f2345 opc key vector.rand) table).ak := by
  rw [← word_f2345_ak cipher opc key vector.rand table]
  exact ofWord_word _

theorem autnSqn_lt (i : Fin 6) : (i : Nat) < 16 := by omega

theorem autnAmf_lt (i : Fin 2) : 6 + (i : Nat) < 16 := by omega

theorem autnMac_lt (i : Fin 8) : 8 + (i : Nat) < 16 := by omega

/-- The SQN a USIM reads out of a vector: the head of AUTN with the anonymity key taken off. -/
def usimSqn (v : AucVector) : Bytes 6 :=
  let AK : Bytes 6 := ofWord (n := 6)
    (Ts35206.f5 cipher.onWords (word key) (word opc) (word v.rand))
  fun i => v.autn ⟨i, autnSqn_lt i⟩ ^^^ AK i

/-- **A vector carries the SQN it was built from.** -/
theorem usimSqn_generateVector :
    usimSqn cipher opc key (cipher.alone (generateVector kdf opc key plmn sqn vector) table)
      = sqn := by
  obtain ⟨t₁, t₂, h⟩ := alone_generateVector cipher kdf opc key plmn sqn vector table
  rw [h]
  simp only [usimSqn]
  rw [ofWord_f5 cipher opc key vector t₂, generateAutn_eq]
  funext i
  have e : (⟨i, by omega⟩ : Fin 16) = Fin.castAdd 8 (Fin.castAdd 2 i) := rfl
  rw [e, Fin.append_left, Fin.append_left, BitVec.xor_assoc, BitVec.xor_self, BitVec.xor_zero]

theorem generateVector_amf :
    (fun i : Fin 2 => (cipher.alone (generateVector kdf opc key plmn sqn vector) table).autn
      ⟨6 + i, autnAmf_lt i⟩) = vectorAmf := by
  obtain ⟨t₁, t₂, h⟩ := alone_generateVector cipher kdf opc key plmn sqn vector table
  rw [h]
  simp only
  rw [generateAutn_eq]
  funext i
  have e : (⟨6 + i, by omega⟩ : Fin 16) = Fin.castAdd 8 (Fin.natAdd 6 i) := rfl
  rw [e, Fin.append_left, Fin.append_right]

theorem generateVector_mac :
    word (fun i : Fin 8 => (cipher.alone (generateVector kdf opc key plmn sqn vector) table).autn
      ⟨8 + i, autnMac_lt i⟩)
      = Ts35206.f1 cipher.onWords (word key) (word opc) (word vector.rand) (word sqn)
          (word vectorAmf) := by
  obtain ⟨t₁, t₂, h⟩ := alone_generateVector cipher kdf opc key plmn sqn vector table
  rw [h]
  simp only
  rw [generateAutn_eq, ← word_f1 cipher opc key vector.rand t₁ sqn vectorAmf]
  congr 1
  funext i
  have e : (⟨8 + i, by omega⟩ : Fin 16) = Fin.natAdd 8 i := rfl
  rw [e, Fin.append_right]

theorem generateVector_xres :
    word (cipher.alone (generateVector kdf opc key plmn sqn vector) table).xres
      = Ts35206.f2 cipher.onWords (word key) (word opc) (word vector.rand) := by
  obtain ⟨t₁, t₂, h⟩ := alone_generateVector cipher kdf opc key plmn sqn vector table
  rw [h]
  exact word_f2345_res cipher opc key vector.rand t₂

theorem generateVector_kasme :
    (cipher.alone (generateVector kdf opc key plmn sqn vector) table).kasme
      = let RAND := word vector.rand
        let AK : Bytes 6 := ofWord (n := 6)
          (Ts35206.f5 cipher.onWords (word key) (word opc) RAND)
        kdf (List.ofFn (ofWord (n := 16) (Ts35206.f3 cipher.onWords (word key) (word opc) RAND))
            ++ List.ofFn (ofWord (n := 16)
              (Ts35206.f4 cipher.onWords (word key) (word opc) RAND)))
          ([0x10] ++ List.ofFn plmn ++ [0x00, 0x03] ++ List.ofFn (fun i => sqn i ^^^ AK i)
            ++ [0x00, 0x06]) := by
  obtain ⟨t₁, t₂, h⟩ := alone_generateVector cipher kdf opc key plmn sqn vector table
  rw [h]
  simp only
  rw [deriveKasme_eq, ofWord_f3 cipher opc key vector t₂, ofWord_f4 cipher opc key vector t₂,
    ofWord_f5 cipher opc key vector t₂]

end Vector

/-- **`fx.c` is MILENAGE, and the vector of `generate_vector` is one a USIM accepts.**  The cipher
and the key derivation are arbitrary, and the round key table may hold anything before a call. -/
theorem milenage_and_vector {R : Type} (cipher : BlockCipher R)
    (kdf : List (BitVec 8) → List (BitVec 8) → Bytes 32) (opc key rand : Bytes 16)
    (sqn : Bytes 6) (amf : Bytes 2) (plmn : Bytes 3) (vector : AucVector) (table : R) :
    let E := cipher.onWords
    let K := word key
    let OPc := word opc
    (word (cipher.alone (f1 opc key rand sqn amf) table)
        = Ts35206.f1 E K OPc (word rand) (word sqn) (word amf) ∧
      word (cipher.alone (f1star opc key rand sqn amf) table)
        = Ts35206.f1star E K OPc (word rand) (word sqn) (word amf) ∧
      word (cipher.alone (f2345 opc key rand) table).res = Ts35206.f2 E K OPc (word rand) ∧
      word (cipher.alone (f2345 opc key rand) table).ck = Ts35206.f3 E K OPc (word rand) ∧
      word (cipher.alone (f2345 opc key rand) table).ik = Ts35206.f4 E K OPc (word rand) ∧
      word (cipher.alone (f2345 opc key rand) table).ak = Ts35206.f5 E K OPc (word rand) ∧
      word (cipher.alone (f5star opc key rand) table)
        = Ts35206.f5star E K OPc (word rand)) ∧
    let v := cipher.alone (generateVector kdf opc key plmn sqn vector) table
    let RAND := word vector.rand
    let AK : Bytes 6 := ofWord (n := 6) (Ts35206.f5 E K OPc RAND)
    v.rand = vector.rand ∧
      (fun i : Fin 6 => v.autn ⟨i, autnSqn_lt i⟩ ^^^ AK i) = sqn ∧
      word (fun i : Fin 2 => v.autn ⟨6 + i, autnAmf_lt i⟩) = 0x8000#16 ∧
      word (fun i : Fin 8 => v.autn ⟨8 + i, autnMac_lt i⟩)
        = Ts35206.f1 E K OPc RAND (word sqn) 0x8000#16 ∧
      word v.xres = Ts35206.f2 E K OPc RAND ∧
      v.kasme = kdf
        (List.ofFn (ofWord (n := 16) (Ts35206.f3 E K OPc RAND))
          ++ List.ofFn (ofWord (n := 16) (Ts35206.f4 E K OPc RAND)))
        ([0x10] ++ List.ofFn plmn ++ [0x00, 0x03] ++ List.ofFn (fun i => sqn i ^^^ AK i)
          ++ [0x00, 0x06]) := by
  intro E K OPc
  refine ⟨⟨word_f1 cipher opc key rand table sqn amf, word_f1star cipher opc key rand table sqn amf,
    word_f2345_res cipher opc key rand table, word_f2345_ck cipher opc key rand table,
    word_f2345_ik cipher opc key rand table, word_f2345_ak cipher opc key rand table,
    word_f5star cipher opc key rand table⟩, ?_⟩
  intro v RAND AK
  have hamf : word vectorAmf = 0x8000#16 := by decide
  refine ⟨rfl, usimSqn_generateVector cipher kdf opc key plmn sqn vector table, ?_, ?_, ?_, ?_⟩
  · rw [generateVector_amf, hamf]
  · exact (generateVector_mac cipher kdf opc key plmn sqn vector table).trans (by rw [hamf])
  · exact generateVector_xres cipher kdf opc key plmn sqn vector table
  · exact generateVector_kasme cipher kdf opc key plmn sqn vector table

end OpenairHss.Hsssec
