import Mathlib.RingTheory.AdjoinRoot
import Mathlib.Algebra.Polynomial.Degree.Lemmas
import Mathlib.Algebra.CharP.Two
import Mathlib.Data.ZMod.Basic
import Mathlib.GroupTheory.OrderOfElement
import Mathlib.Algebra.Field.ZMod
import Mathlib.Data.Fintype.Card
import Mathlib.Tactic.NormNum.Prime
import Mathlib.Data.BitVec
import Mathlib.Data.UInt

/-!
# The field with 256 elements

A byte `b₇ … b₀` stands for the residue of `b₇ X⁷ + ⋯ + b₀` in `(ZMod 2)[X]` modulo
`m = X⁸ + X⁴ + X³ + X + 1`.  Addition is exclusive or, multiplication is Horner's rule over the
bits of one factor (`mulBits`), where multiplication by `X` is a shift followed, if a bit falls
out, by the subtraction of `m` (`xtime`).

* `value`: the residue of a byte, an element of `AdjoinRoot m`.  It is injective and takes the
  operations on bytes to those of the quotient ring (`value_add`, `value_mul`), so every ring law
  is inherited from there.
* `Gf256` is a field; the inverse of `a` is `a ^ 254`.
-/

open Polynomial

/-- A byte, read as an element of the field. -/
@[ext]
structure Gf256 where
  bits : BitVec 8
deriving DecidableEq

namespace Gf256

/-! ### The operations -/

/-- Multiplication by `X`. -/
def xtime (a : BitVec 8) : BitVec 8 := if a.msb then (a <<< 1) ^^^ 0x1b else a <<< 1

/-- Horner's rule over the bits of `a`, from the highest one down. -/
def mulBits (a b : BitVec 8) : BitVec 8 :=
  [7, 6, 5, 4, 3, 2, 1, 0].foldl (fun acc i => xtime acc ^^^ if a.getLsbD i then b else 0) 0

def squareBits (a : BitVec 8) : BitVec 8 := mulBits a a

/-- The product of the powers `a ^ 2`, `a ^ 4`, …, `a ^ 2ⁿ`. -/
def squaresBits (a : BitVec 8) : Nat → BitVec 8
  | 0 => 1
  | n + 1 => mulBits (squareBits a) (squaresBits (squareBits a) n)

/-- The power `a ^ 254`, where `254 = 2 + 4 + 8 + 16 + 32 + 64 + 128`. -/
def invBits (a : BitVec 8) : BitVec 8 := squaresBits a 7

instance : Zero Gf256 := ⟨⟨0⟩⟩
instance : One Gf256 := ⟨⟨1⟩⟩
instance : Add Gf256 := ⟨fun a b => ⟨a.bits ^^^ b.bits⟩⟩
instance : Neg Gf256 := ⟨fun a => a⟩
instance : Mul Gf256 := ⟨fun a b => ⟨mulBits a.bits b.bits⟩⟩
instance : Inv Gf256 := ⟨fun a => ⟨invBits a.bits⟩⟩

@[simp] theorem bits_zero : (0 : Gf256).bits = 0 := rfl
@[simp] theorem bits_one : (1 : Gf256).bits = 1 := rfl
@[simp] theorem bits_add (a b : Gf256) : (a + b).bits = a.bits ^^^ b.bits := rfl
@[simp] theorem bits_neg (a : Gf256) : (-a).bits = a.bits := rfl
@[simp] theorem bits_mul (a b : Gf256) : (a * b).bits = mulBits a.bits b.bits := rfl
@[simp] theorem bits_inv (a : Gf256) : (a⁻¹).bits = invBits a.bits := rfl

/-! ### The quotient ring -/

noncomputable def modulus : (ZMod 2)[X] := X ^ 8 + X ^ 4 + X ^ 3 + X + 1

theorem degree_modulus : modulus.degree = 8 := by
  unfold modulus
  compute_degree!

theorem monic_modulus : modulus.Monic := by
  unfold modulus
  monicity!

/-- The quotient ring that bytes are residues of. -/
abbrev Residue : Type := AdjoinRoot modulus

/-- The residue of `X`. -/
noncomputable abbrev α : Residue := AdjoinRoot.root modulus

theorem two_eq_zero : (2 : Residue) = 0 := by
  rw [← map_ofNat (AdjoinRoot.of modulus) 2, show (OfNat.ofNat 2 : ZMod 2) = 0 from rfl, map_zero]

theorem add_self (x : Residue) : x + x = 0 := by
  rw [← two_mul, two_eq_zero, zero_mul]

/-- `α` is a root of the modulus. -/
theorem α_pow_eight : α ^ 8 = α ^ 4 + α ^ 3 + α + 1 := by
  have h : AdjoinRoot.mk modulus (X ^ 8 + X ^ 4 + X ^ 3 + X + 1) = 0 := AdjoinRoot.mk_self
  simp only [map_add, map_pow, map_one, AdjoinRoot.mk_X] at h
  linear_combination h - (α ^ 4 + α ^ 3 + α + 1) * two_eq_zero

def ofBit (b : Bool) : ZMod 2 := if b then 1 else 0

theorem ofBit_xor (b c : Bool) : ofBit (b ^^ c) = ofBit b + ofBit c := by
  cases b <;> cases c <;> decide

theorem ofBit_injective : Function.Injective ofBit := by
  intro b c h
  cases b <;> cases c <;> simp_all [ofBit]

/-- The polynomial that a byte spells. -/
noncomputable def poly (a : BitVec 8) : (ZMod 2)[X] :=
  ∑ i : Fin 8, C (ofBit (a.getLsbD i)) * X ^ (i : ℕ)

/-- The residue that a byte stands for. -/
noncomputable def residue (a : BitVec 8) : Residue := AdjoinRoot.mk modulus (poly a)

theorem coeff_poly (a : BitVec 8) (i : Fin 8) : (poly a).coeff i = ofBit (a.getLsbD i) := by
  simp only [poly, finsetSum_coeff, coeff_C_mul_X_pow]
  rw [Finset.sum_eq_single i]
  · rw [if_pos rfl]
  · intro j _ hj
    exact if_neg fun e => hj (Fin.ext e.symm)
  · intro h
    exact absurd (Finset.mem_univ i) h

theorem degree_poly_lt (a : BitVec 8) : (poly a).degree < modulus.degree := by
  rw [degree_modulus]
  refine lt_of_le_of_lt (degree_sum_le _ _) ((Finset.sup_lt_iff (by decide)).mpr ?_)
  intro i _
  refine lt_of_le_of_lt (degree_C_mul_X_pow_le _ _) ?_
  exact_mod_cast i.isLt

/-- **A byte is determined by its residue**: two polynomials of degree below `8` that differ by
a multiple of the modulus are equal. -/
theorem residue_injective : Function.Injective residue := by
  intro a b h
  have hd : modulus ∣ poly a - poly b := AdjoinRoot.mk_eq_mk.mp h
  have hlt : (poly a - poly b).degree < modulus.degree :=
    lt_of_le_of_lt (degree_sub_le _ _) (max_lt (degree_poly_lt a) (degree_poly_lt b))
  have e : poly a = poly b := by
    by_contra hne
    exact monic_modulus.not_dvd_of_degree_lt (sub_ne_zero.mpr hne) hlt hd
  apply BitVec.eq_of_getLsbD_eq
  intro i hi
  apply ofBit_injective
  rw [← coeff_poly a ⟨i, hi⟩, e, coeff_poly]

theorem residue_zero : residue 0 = 0 := by
  simp [residue, poly, ofBit]

theorem residue_xor (a b : BitVec 8) : residue (a ^^^ b) = residue a + residue b := by
  simp only [residue, poly, BitVec.getLsbD_xor, ofBit_xor, map_add, add_mul,
    Finset.sum_add_distrib]

/-- The residue of a byte as a sum of powers of `α`. -/
theorem residue_eq (a : BitVec 8) :
    residue a = ∑ i : Fin 8, AdjoinRoot.of modulus (ofBit (a.getLsbD i)) * α ^ (i : ℕ) := by
  simp only [residue, poly, map_sum, map_mul, map_pow, AdjoinRoot.mk_C, AdjoinRoot.mk_X]

/-- A shift multiplies by `X`, up to the bit that falls out. -/
theorem residue_shiftLeft (a : BitVec 8) :
    residue (a <<< 1) + AdjoinRoot.of modulus (ofBit a.msb) * α ^ 8 = α * residue a := by
  have h0 : (a <<< 1).getLsbD ((0 : Fin 8) : ℕ) = false := by simp
  have hs : ∀ i : Fin 7, (a <<< 1).getLsbD (i.succ : ℕ) = a.getLsbD i := by
    intro i
    rw [BitVec.getLsbD_shiftLeft, Fin.val_succ]
    simp only [Nat.add_sub_cancel, show (i : ℕ) + 1 < 8 from by omega, decide_true, Bool.true_and,
      Nat.succ_lt_succ_iff, Nat.not_lt_zero, decide_false, Bool.not_false]
  have hlast : a.getLsbD ((Fin.last 7 : Fin 8) : ℕ) = a.msb :=
    (BitVec.msb_eq_getLsbD_last a).symm
  rw [residue_eq (a <<< 1), Fin.sum_univ_succ, h0, residue_eq a, Fin.sum_univ_castSucc (n := 7),
    hlast, mul_add, Finset.mul_sum]
  simp only [hs]
  simp only [ofBit, Fin.val_succ, Fin.val_castSucc, Fin.val_last, map_zero, Bool.false_eq_true,
    if_false, zero_mul, zero_add]
  refine congrArg₂ (· + ·) (Finset.sum_congr rfl fun i _ => ?_) ?_
  · ring
  · ring

/-- The byte `0x1b` stands for `X⁸`. -/
theorem residue_low : residue 0x1b = α ^ 8 := by
  simp only [residue_eq, Fin.sum_univ_eight, α_pow_eight]
  simp [ofBit, BitVec.getLsbD, Nat.testBit]
  ring

/-- **`xtime` multiplies by `X`.** -/
theorem residue_xtime (a : BitVec 8) : residue (xtime a) = α * residue a := by
  rw [← residue_shiftLeft]
  cases h : a.msb with
  | false => simp [xtime, h, ofBit]
  | true =>
    rw [xtime, if_pos h, residue_xor, residue_low]
    simp [ofBit]

/-- **`mulBits` multiplies residues.** -/
theorem residue_mulBits (a b : BitVec 8) : residue (mulBits a b) = residue a * residue b := by
  have hbit : ∀ i, residue (if a.getLsbD i then b else 0)
      = AdjoinRoot.of modulus (ofBit (a.getLsbD i)) * residue b := by
    intro i
    cases a.getLsbD i with
    | false => simp only [ofBit, Bool.false_eq_true, if_false, residue_zero, map_zero, zero_mul]
    | true => simp only [ofBit, if_true, map_one, one_mul]
  rw [residue_eq a, Fin.sum_univ_eight]
  simp only [mulBits, List.foldl_cons, List.foldl_nil, residue_xor, residue_xtime, hbit,
    residue_zero]
  simp only [Fin.isValue, Fin.coe_ofNat_eq_mod]
  ring

/-! ### The field -/

noncomputable def value (a : Gf256) : Residue := residue a.bits

theorem value_injective : Function.Injective value :=
  fun _ _ h => Gf256.ext (residue_injective h)

theorem value_zero : value 0 = 0 := residue_zero

theorem value_one : value 1 = 1 := by
  simp [value, residue_eq, Fin.sum_univ_eight, ofBit, BitVec.getLsbD, Nat.testBit]

theorem value_add (a b : Gf256) : value (a + b) = value a + value b := residue_xor _ _

theorem value_mul (a b : Gf256) : value (a * b) = value a * value b := residue_mulBits _ _

/-- The byte `0x02` stands for `X`. -/
theorem value_two : value ⟨0x02⟩ = α := by
  simp [value, residue_eq, Fin.sum_univ_eight, ofBit, BitVec.getLsbD, Nat.testBit]

instance : CommRing Gf256 where
  add_assoc a b c := value_injective (by simp only [value_add, add_assoc])
  zero_add a := value_injective (by simp only [value_add, value_zero, zero_add])
  add_zero a := value_injective (by simp only [value_add, value_zero, add_zero])
  add_comm a b := value_injective (by simp only [value_add, add_comm])
  neg_add_cancel a := value_injective ((value_add _ _).trans ((add_self _).trans value_zero.symm))
  mul_assoc a b c := value_injective (by simp only [value_mul, mul_assoc])
  one_mul a := value_injective (by simp only [value_mul, value_one, one_mul])
  mul_one a := value_injective (by simp only [value_mul, value_one, mul_one])
  zero_mul a := value_injective (by simp only [value_mul, value_zero, zero_mul])
  mul_zero a := value_injective (by simp only [value_mul, value_zero, mul_zero])
  left_distrib a b c := value_injective (by simp only [value_mul, value_add, mul_add])
  right_distrib a b c := value_injective (by simp only [value_mul, value_add, add_mul])
  mul_comm a b := value_injective (by simp only [value_mul, mul_comm])
  nsmul := nsmulRec
  zsmul := zsmulRec

/-- The generator `X + 1` of the multiplicative group. -/
def gen : Gf256 := ⟨0x03⟩

/-- The powers on the way to `255`, and to its quotients by `3`, `5` and `17`. -/
theorem gen_powers : gen ^ 17 = ⟨0xe1⟩ ∧ (⟨0xe1⟩ : Gf256) ^ 15 = 1 ∧ (⟨0xe1⟩ : Gf256) ^ 5 ≠ 1 ∧
    (⟨0xe1⟩ : Gf256) ^ 3 ≠ 1 ∧ gen ^ 15 ≠ 1 := by
  decide +kernel

theorem gen_pow_mul (n : ℕ) : gen ^ (17 * n) = (⟨0xe1⟩ : Gf256) ^ n := by
  rw [pow_mul, gen_powers.1]

theorem orderOf_gen : orderOf gen = 255 := by
  obtain ⟨-, h255, h85, h51, h15⟩ := gen_powers
  apply orderOf_eq_of_pow_and_pow_div_prime (by decide)
  · rw [show 255 = 17 * 15 from rfl, gen_pow_mul]
    exact h255
  · intro p hp hd
    rw [show 255 = 3 * (5 * 17) from rfl, hp.dvd_mul, hp.dvd_mul,
      Nat.prime_dvd_prime_iff_eq hp Nat.prime_three, Nat.prime_dvd_prime_iff_eq hp Nat.prime_five,
      Nat.prime_dvd_prime_iff_eq hp (by norm_num)] at hd
    rcases hd with rfl | rfl | rfl
    · rw [show 255 / 3 = 17 * 5 from rfl, gen_pow_mul]
      exact h85
    · rw [show 255 / 5 = 17 * 3 from rfl, gen_pow_mul]
      exact h51
    · exact h15

/-- A field element and its byte. -/
def equivFin : Gf256 ≃ Fin (2 ^ 8) where
  toFun a := a.bits.toFin
  invFun n := ⟨BitVec.ofFin n⟩
  left_inv _ := rfl
  right_inv _ := rfl

instance : Fintype Gf256 := Fintype.ofEquiv _ equivFin.symm

/-- **Every element but zero is a power of the generator**: the powers below `255` are pairwise
different and never zero, so they are all of the `255` nonzero elements. -/
theorem exists_gen_pow {a : Gf256} (ha : a ≠ 0) : ∃ n, gen ^ n = a := by
  have hne : ∀ n, gen ^ n ≠ 0 := by
    intro n h
    have h1 : gen ^ 255 = 1 := orderOf_gen ▸ pow_orderOf_eq_one gen
    have h2 : (gen ^ n) ^ 255 = 1 := by rw [← pow_mul, mul_comm, pow_mul, h1, one_pow]
    rw [h, zero_pow (by decide)] at h2
    exact absurd h2 (by decide)
  let f : Fin 255 → { x : Gf256 // x ≠ 0 } := fun n => ⟨gen ^ (n : ℕ), hne n⟩
  have hf : Function.Injective f := by
    intro m n h
    have h' : gen ^ (m : ℕ) = gen ^ (n : ℕ) := congrArg Subtype.val h
    exact Fin.ext (pow_injOn_Iio_orderOf (by simp [orderOf_gen]) (by simp [orderOf_gen]) h')
  have hcard : Fintype.card { x : Gf256 // x ≠ 0 } = Fintype.card (Fin 255) := by
    rw [Fintype.card_subtype_compl, Fintype.card_subtype_eq, Fintype.card_congr equivFin,
      Fintype.card_fin, Fintype.card_fin]
    norm_num
  obtain ⟨n, hn⟩ := (Fintype.bijective_iff_injective_and_card f).mpr ⟨hf, hcard.symm⟩ |>.2 ⟨a, ha⟩
  exact ⟨n, congrArg Subtype.val hn⟩

theorem mk_squaresBits : ∀ (n : ℕ) (a : Gf256),
    (⟨squaresBits a.bits n⟩ : Gf256) = a ^ (2 ^ (n + 1) - 2) := by
  intro n
  induction n with
  | zero => intro a; rfl
  | succ n ih =>
    intro a
    have h : (⟨squaresBits a.bits (n + 1)⟩ : Gf256) = (a * a) * (a * a) ^ (2 ^ (n + 1) - 2) :=
      congrArg (a * a * ·) (ih (a * a))
    have he : 2 ^ (n + 1 + 1) - 2 = 2 * (2 ^ (n + 1) - 2) + 2 := by
      have := Nat.one_le_two_pow (n := n)
      omega
    rw [h, he, ← pow_two, ← pow_mul, ← pow_add, add_comm]

instance : Field Gf256 where
  exists_pair_ne := ⟨0, 1, by decide⟩
  mul_inv_cancel a ha := by
    obtain ⟨n, rfl⟩ := exists_gen_pow ha
    have h1 : gen ^ 255 = 1 := orderOf_gen ▸ pow_orderOf_eq_one gen
    have h2 : (gen ^ n)⁻¹ = (gen ^ n) ^ 254 := mk_squaresBits 7 _
    rw [h2, ← pow_succ', ← pow_mul, mul_comm, pow_mul, h1, one_pow]
  inv_zero := (mk_squaresBits 7 0).trans (zero_pow (by decide))
  nnqsmul := _
  nnqsmul_def := fun _ _ => rfl
  qsmul := _
  qsmul_def := fun _ _ => rfl

end Gf256
