import OpenairHss.Lib.Gf256
import OpenairHss.Lib.Bytes
import Mathlib.LinearAlgebra.Matrix.Notation

/-!
# AES-128

The cipher of FIPS-197 with a key of four words, in the standard's own terms: a state of four
rows and four columns of bytes, the S-box as inversion in the field `Gf256` followed by an affine
map, `MixColumns` as the product of every column with a fixed matrix over `Gf256`, and the key
expansion as a recursion on the index of a word.

* `sbox_injective`, `mixColumns_injective`: the two layers that are not plain permutations or
  exclusive ors can be undone.
* `cipher_injective`: **for every key the cipher is injective in the block**.
-/

namespace Aes

open ByteVec Matrix

/-- A column of the state, or a word of the expanded key. -/
abbrev Word : Type := Fin 4 → BitVec 8

/-- The state: row first, then column. -/
abbrev State : Type := Fin 4 → Fin 4 → BitVec 8

/-! ### The round transformations -/

/-- The affine map of the S-box: bit `i` becomes
`bᵢ ⊕ bᵢ₊₄ ⊕ bᵢ₊₅ ⊕ bᵢ₊₆ ⊕ bᵢ₊₇ ⊕ cᵢ`, with indices modulo `8` and `c = 0x63`. -/
def affine (b : BitVec 8) : BitVec 8 :=
  b ^^^ b.rotateLeft 4 ^^^ b.rotateLeft 3 ^^^ b.rotateLeft 2 ^^^ b.rotateLeft 1 ^^^ 0x63

def sbox (b : BitVec 8) : BitVec 8 := affine (Gf256.mk b)⁻¹.bits

def subBytes (s : State) : State := fun r c => sbox (s r c)

/-- `ShiftRows`: row `r` moves `r` places to the left, cyclically. -/
def shiftRows (s : State) : State := fun r c => s r (c + r)

def mixMatrix : Matrix (Fin 4) (Fin 4) Gf256 :=
  !![⟨0x02⟩, ⟨0x03⟩, ⟨0x01⟩, ⟨0x01⟩;
     ⟨0x01⟩, ⟨0x02⟩, ⟨0x03⟩, ⟨0x01⟩;
     ⟨0x01⟩, ⟨0x01⟩, ⟨0x02⟩, ⟨0x03⟩;
     ⟨0x03⟩, ⟨0x01⟩, ⟨0x01⟩, ⟨0x02⟩]

/-- `MixColumns`: every column is multiplied by the matrix. -/
def mixColumns (s : State) : State := fun r c => (mixMatrix *ᵥ fun k => Gf256.mk (s k c)) r |>.bits

/-- `AddRoundKey`: column `c` takes the word `w c`. -/
def addRoundKey (w : Fin 4 → Word) (s : State) : State := fun r c => s r c ^^^ w c r

/-! ### The key expansion -/

theorem next_lt (r : Fin 4) : ((r : Nat) + 1) % 4 < 4 := Nat.mod_lt _ (by decide)

def rotWord (w : Word) : Word := fun r => w ⟨(r + 1) % 4, next_lt r⟩

def subWord (w : Word) : Word := fun r => sbox (w r)

/-- The round constant word `j`, whose first byte is `X ^ (j - 1)`. -/
def rcon (j : Nat) : Word := ![(Gf256.mk 0x02 ^ (j - 1)).bits, 0, 0, 0]

def keyExpansion (key : Bytes 16) (i : Nat) : Word :=
  if h : i < 4 then fun r => key ⟨4 * i + r, by omega⟩
  else
    let temp := keyExpansion key (i - 1)
    let temp := if i % 4 = 0 then fun r => subWord (rotWord temp) r ^^^ rcon (i / 4) r else temp
    fun r => keyExpansion key (i - 4) r ^^^ temp r
termination_by i

def roundKey (key : Bytes 16) (round : Nat) : Fin 4 → Word :=
  fun c => keyExpansion key (4 * round + c)

/-! ### The cipher -/

/-- The state after the initial round key and `n` full rounds. -/
def rounds (key : Bytes 16) (s : State) : Nat → State
  | 0 => addRoundKey (roundKey key 0) s
  | n + 1 => addRoundKey (roundKey key (n + 1))
      (mixColumns (shiftRows (subBytes (rounds key s n))))

/-- The state that an input block fills, column by column. -/
def load (input : Bytes 16) : State := fun r c => input ⟨r + 4 * c, by omega⟩

theorem row_lt (i : Fin 16) : (i : Nat) % 4 < 4 := Nat.mod_lt _ (by decide)

theorem column_lt (i : Fin 16) : (i : Nat) / 4 < 4 := Nat.div_lt_of_lt_mul i.isLt

/-- The block that a state spells, column by column. -/
def unload (s : State) : Bytes 16 := fun i => s ⟨i % 4, row_lt i⟩ ⟨i / 4, column_lt i⟩

/-- `Cipher`, for ten rounds. -/
def cipher (key input : Bytes 16) : Bytes 16 :=
  unload (addRoundKey (roundKey key 10) (shiftRows (subBytes (rounds key (load input) 9))))

/-! ### The cipher can be undone -/

def invAffine (b : BitVec 8) : BitVec 8 :=
  b.rotateLeft 6 ^^^ b.rotateLeft 3 ^^^ b.rotateLeft 1 ^^^ 0x05

theorem invAffine_affine : ∀ b : BitVec 8, invAffine (affine b) = b := by
  decide +kernel

theorem affine_invAffine (b : BitVec 8) : affine (invAffine b) = b := by
  have hfinite : Finite (BitVec 8) := Finite.of_injective BitVec.toFin fun _ _ => BitVec.eq_of_toFin_eq
  have hinj : Function.Injective affine := Function.LeftInverse.injective invAffine_affine
  obtain ⟨a, rfl⟩ := Finite.injective_iff_surjective.mp hinj b
  rw [invAffine_affine]

theorem sbox_injective : Function.Injective sbox := by
  intro a b h
  have ha : (Gf256.mk a)⁻¹ = (Gf256.mk b)⁻¹ :=
    Gf256.ext (Function.LeftInverse.injective invAffine_affine h)
  exact congrArg Gf256.bits (inv_injective ha)

theorem subBytes_injective : Function.Injective subBytes := by
  intro s t h
  funext r c
  exact sbox_injective (congrFun (congrFun h r) c)

theorem shiftRows_injective : Function.Injective shiftRows := by
  intro s t h
  funext r c
  have := congrFun (congrFun h r) (c - r)
  simpa only [shiftRows, sub_add_cancel] using this

def invMixMatrix : Matrix (Fin 4) (Fin 4) Gf256 :=
  !![⟨0x0e⟩, ⟨0x0b⟩, ⟨0x0d⟩, ⟨0x09⟩;
     ⟨0x09⟩, ⟨0x0e⟩, ⟨0x0b⟩, ⟨0x0d⟩;
     ⟨0x0d⟩, ⟨0x09⟩, ⟨0x0e⟩, ⟨0x0b⟩;
     ⟨0x0b⟩, ⟨0x0d⟩, ⟨0x09⟩, ⟨0x0e⟩]

theorem invMixMatrix_mul_mixMatrix : invMixMatrix * mixMatrix = 1 := by
  ext i j
  fin_cases i <;> fin_cases j <;> rfl

theorem mixColumns_injective : Function.Injective mixColumns := by
  intro s t h
  funext r c
  have hc : (mixMatrix *ᵥ fun k => Gf256.mk (s k c)) = mixMatrix *ᵥ fun k => Gf256.mk (t k c) := by
    funext r
    exact Gf256.ext (congrFun (congrFun h r) c)
  have h' := congrArg (invMixMatrix *ᵥ ·) hc
  simp only [Matrix.mulVec_mulVec, invMixMatrix_mul_mixMatrix, Matrix.one_mulVec] at h'
  exact congrArg Gf256.bits (congrFun h' r)

theorem addRoundKey_injective (w : Fin 4 → Word) : Function.Injective (addRoundKey w) := by
  intro s t h
  funext r c
  exact (BitVec.xor_left_inj _).mp (congrFun (congrFun h r) c)

theorem rounds_injective (key : Bytes 16) :
    ∀ n, Function.Injective (fun s => rounds key s n) := by
  intro n
  induction n with
  | zero => exact addRoundKey_injective _
  | succ n ih =>
    intro s t h
    exact ih (subBytes_injective (shiftRows_injective (mixColumns_injective
      (addRoundKey_injective _ h))))

theorem load_injective : Function.Injective load := by
  intro a b h
  funext i
  have := congrFun (congrFun h ⟨i % 4, by omega⟩) ⟨i / 4, by omega⟩
  simpa only [load, Nat.mod_add_div] using this

theorem unload_injective : Function.Injective unload := by
  intro s t h
  funext r c
  have := congrFun h ⟨r + 4 * c, by omega⟩
  have hr : (⟨(r + 4 * c) % 4, by omega⟩ : Fin 4) = r := Fin.ext (by simp only; omega)
  have hc : (⟨(r + 4 * c) / 4, by omega⟩ : Fin 4) = c := Fin.ext (by simp only; omega)
  simpa only [unload, hr, hc] using this

/-- **For every key the cipher is injective in the block.** -/
theorem cipher_injective (key : Bytes 16) : Function.Injective (cipher key) := by
  intro a b h
  exact load_injective (rounds_injective key 9 (subBytes_injective (shiftRows_injective
    (addRoundKey_injective _ (unload_injective h)))))

end Aes
