import OpenairHss.Hsssec.Fx
import OpenairHss.Lib.Aes

/-!
# `rijndael.c` computes AES-128

The source keeps its state as `state[row][column]`, reads its S-box and the multiplication by `x`
from tables and shifts rows in place.  Each function below is the source's function, loop by
loop; the state and the table of round keys are passed explicitly.

* `lookup_S`: the table `S` is the S-box of the standard, that is inversion in the field followed
  by the affine map.
* `mixColumn_eq`: the in-place `MixColumn` is the matrix product.
* `rijndaelKeySchedule_apply`: row `i` of column `j` of round key `r` is byte `i` of the word
  `4 r + j` of the standard's key expansion, whatever the table held before.
-/

namespace OpenairHss.Hsssec

open ByteVec

namespace Rijndael

/-! ### The source -/

def S : List Nat :=
  [99, 124, 119, 123, 242, 107, 111, 197, 48, 1, 103, 43, 254, 215, 171, 118, 202, 130, 201,
    125, 250, 89, 71, 240, 173, 212, 162, 175, 156, 164, 114, 192, 183, 253, 147, 38, 54, 63,
    247, 204, 52, 165, 229, 241, 113, 216, 49, 21, 4, 199, 35, 195, 24, 150, 5, 154, 7, 18, 128,
    226, 235, 39, 178, 117, 9, 131, 44, 26, 27, 110, 90, 160, 82, 59, 214, 179, 41, 227, 47,
    132, 83, 209, 0, 237, 32, 252, 177, 91, 106, 203, 190, 57, 74, 76, 88, 207, 208, 239, 170,
    251, 67, 77, 51, 133, 69, 249, 2, 127, 80, 60, 159, 168, 81, 163, 64, 143, 146, 157, 56,
    245, 188, 182, 218, 33, 16, 255, 243, 210, 205, 12, 19, 236, 95, 151, 68, 23, 196, 167, 126,
    61, 100, 93, 25, 115, 96, 129, 79, 220, 34, 42, 144, 136, 70, 238, 184, 20, 222, 94, 11,
    219, 224, 50, 58, 10, 73, 6, 36, 92, 194, 211, 172, 98, 145, 149, 228, 121, 231, 200, 55,
    109, 141, 213, 78, 169, 108, 86, 244, 234, 101, 122, 174, 8, 186, 120, 37, 46, 28, 166, 180,
    198, 232, 221, 116, 31, 75, 189, 139, 138, 112, 62, 181, 102, 72, 3, 246, 14, 97, 53, 87,
    185, 134, 193, 29, 158, 225, 248, 152, 17, 105, 217, 142, 148, 155, 30, 135, 233, 206, 85,
    40, 223, 140, 161, 137, 13, 191, 230, 66, 104, 65, 153, 45, 15, 176, 84, 187, 22]

def Xtime : List Nat :=
  [0, 2, 4, 6, 8, 10, 12, 14, 16, 18, 20, 22, 24, 26, 28, 30, 32, 34, 36, 38, 40, 42, 44, 46,
    48, 50, 52, 54, 56, 58, 60, 62, 64, 66, 68, 70, 72, 74, 76, 78, 80, 82, 84, 86, 88, 90, 92,
    94, 96, 98, 100, 102, 104, 106, 108, 110, 112, 114, 116, 118, 120, 122, 124, 126, 128, 130,
    132, 134, 136, 138, 140, 142, 144, 146, 148, 150, 152, 154, 156, 158, 160, 162, 164, 166,
    168, 170, 172, 174, 176, 178, 180, 182, 184, 186, 188, 190, 192, 194, 196, 198, 200, 202,
    204, 206, 208, 210, 212, 214, 216, 218, 220, 222, 224, 226, 228, 230, 232, 234, 236, 238,
    240, 242, 244, 246, 248, 250, 252, 254, 27, 25, 31, 29, 19, 17, 23, 21, 11, 9, 15, 13, 3, 1,
    7, 5, 59, 57, 63, 61, 51, 49, 55, 53, 43, 41, 47, 45, 35, 33, 39, 37, 91, 89, 95, 93, 83,
    81, 87, 85, 75, 73, 79, 77, 67, 65, 71, 69, 123, 121, 127, 125, 115, 113, 119, 117, 107,
    105, 111, 109, 99, 97, 103, 101, 155, 153, 159, 157, 147, 145, 151, 149, 139, 137, 143, 141,
    131, 129, 135, 133, 187, 185, 191, 189, 179, 177, 183, 181, 171, 169, 175, 173, 163, 161,
    167, 165, 219, 217, 223, 221, 211, 209, 215, 213, 203, 201, 207, 205, 195, 193, 199, 197,
    251, 249, 255, 253, 243, 241, 247, 245, 235, 233, 239, 237, 227, 225, 231, 229]

/-- `table[x]`, for a table of 256 bytes. -/
def lookup (table : List Nat) (x : BitVec 8) : BitVec 8 := BitVec.ofNat 8 (table.getD x.toNat 0)

/-- `u8 [4][4]`. -/
abbrev Square : Type := Fin 4 → Fin 4 → BitVec 8

/-- `state[i][j] = v`. -/
def set (state : Square) (i j : Fin 4) (v : BitVec 8) : Square :=
  Function.update state i (Function.update (state i) j v)

/-- `for (i = 0; i < 16; i++) state[i & 0x03][i >> 2] = bytes[i]`. -/
def fill (bytes : Bytes 16) (state : Square) : Square :=
  forLoop 16 (fun i state => set state ⟨i % 4, by omega⟩ ⟨i / 4, by omega⟩ (bytes i)) state

/-- `u8 roundKeys[11][4][4]`. -/
abbrev RoundKeys : Type := Fin 11 → Square

/-- One pass of the loop of `RijndaelKeySchedule`: `prev` is `roundKeys[i - 1]` and `cur` is
`roundKeys[i]`. -/
def nextRoundKey (prev : Square) (roundConst : BitVec 8) (cur : Square) : Square :=
  let cur := set cur 0 0 (lookup S (prev 1 3) ^^^ prev 0 0 ^^^ roundConst)
  let cur := set cur 1 0 (lookup S (prev 2 3) ^^^ prev 1 0)
  let cur := set cur 2 0 (lookup S (prev 3 3) ^^^ prev 2 0)
  let cur := set cur 3 0 (lookup S (prev 0 3) ^^^ prev 3 0)
  forLoop 4 (fun j cur =>
    let cur := set cur j 1 (prev j 1 ^^^ cur j 0)
    let cur := set cur j 2 (prev j 2 ^^^ cur j 1)
    set cur j 3 (prev j 3 ^^^ cur j 2)) cur

/-- `RijndaelKeySchedule`, from whatever the table holds. -/
def rijndaelKeySchedule (key : Bytes 16) (roundKeys : RoundKeys) : RoundKeys :=
  -- first round key equals key
  let roundKeys := Function.update roundKeys 0 (fill key (roundKeys 0))
  -- the loop runs from i = 1 to i = 10; its index here is i - 1
  (forLoop 10 (fun i p =>
    (Function.update p.1 i.succ (nextRoundKey (p.1 i.castSucc) p.2 (p.1 i.succ)),
      lookup Xtime p.2)) (roundKeys, 1)).1

def keyAdd (state : Square) (roundKeys : RoundKeys) (round : Fin 11) : Square :=
  forLoop 4 (fun i state =>
    forLoop 4 (fun j state => set state i j (state i j ^^^ roundKeys round i j)) state) state

def byteSub (state : Square) : Square :=
  forLoop 4 (fun i state =>
    forLoop 4 (fun j state => set state i j (lookup S (state i j))) state) state

def shiftRow (state : Square) : Square :=
  -- left rotate row 1 by 1
  let temp := state 1 0
  let state := set state 1 0 (state 1 1)
  let state := set state 1 1 (state 1 2)
  let state := set state 1 2 (state 1 3)
  let state := set state 1 3 temp
  -- left rotate row 2 by 2
  let temp := state 2 0
  let state := set state 2 0 (state 2 2)
  let state := set state 2 2 temp
  let temp := state 2 1
  let state := set state 2 1 (state 2 3)
  let state := set state 2 3 temp
  -- left rotate row 3 by 3
  let temp := state 3 0
  let state := set state 3 0 (state 3 3)
  let state := set state 3 3 (state 3 2)
  let state := set state 3 2 (state 3 1)
  set state 3 1 temp

def mixColumn (state : Square) : Square :=
  forLoop 4 (fun i state =>
    let temp := state 0 i ^^^ state 1 i ^^^ state 2 i ^^^ state 3 i
    let tmp0 := state 0 i
    let tmp := lookup Xtime (state 0 i ^^^ state 1 i)
    let state := set state 0 i (state 0 i ^^^ (temp ^^^ tmp))
    let tmp := lookup Xtime (state 1 i ^^^ state 2 i)
    let state := set state 1 i (state 1 i ^^^ (temp ^^^ tmp))
    let tmp := lookup Xtime (state 2 i ^^^ state 3 i)
    let state := set state 2 i (state 2 i ^^^ (temp ^^^ tmp))
    let tmp := lookup Xtime (state 3 i ^^^ tmp0)
    set state 3 i (state 3 i ^^^ (temp ^^^ tmp))) state

/-- `RijndaelEncrypt`; the local state and the output start as zeroes. -/
def rijndaelEncrypt (roundKeys : RoundKeys) (input : Bytes 16) : Bytes 16 :=
  let state := fill input (fun _ _ => 0)
  let state := keyAdd state roundKeys 0
  -- full rounds r = 1, …, 9; the index here is r - 1
  let state := forLoop 9 (fun r state =>
    keyAdd (mixColumn (shiftRow (byteSub state))) roundKeys ⟨r + 1, by omega⟩) state
  -- final round, with r = 10
  let state := keyAdd (shiftRow (byteSub state)) roundKeys 10
  forLoop 16 (fun i output => Function.update output i (state ⟨i % 4, by omega⟩ ⟨i / 4, by omega⟩))
    (fun _ => 0)

/-! ### The tables -/

/-- The table `Xtime`, entry by entry. -/
theorem Xtime_eq : Xtime = (List.range 256).map fun n => (Gf256.xtime (BitVec.ofNat 8 n)).toNat := by
  decide +kernel

theorem lookup_Xtime (x : BitVec 8) : lookup Xtime x = Gf256.xtime x := by
  have hx : (List.range 256)[x.toNat]? = some x.toNat := List.getElem?_range x.isLt
  rw [lookup, Xtime_eq, List.getD_eq_getElem?_getD, List.getElem?_map, hx, Option.map_some,
    Option.getD_some, BitVec.ofNat_toNat, BitVec.ofNat_toNat, BitVec.setWidth_eq, BitVec.setWidth_eq]

/-- The table `S` against the inverses, entry by entry. -/
theorem zipWith_S : (List.range 256).zipWith (fun n s =>
      Gf256.mulBits (Aes.invAffine (BitVec.ofNat 8 s)) (BitVec.ofNat 8 n)) S =
    0 :: List.replicate 255 1 := by
  decide +kernel

theorem mul_invAffine_S (x : BitVec 8) :
    x = 0 ∨ Gf256.mulBits (Aes.invAffine (lookup S x)) x = 1 := by
  have hlen := congrArg List.length zipWith_S
  rw [List.length_zipWith, List.length_range, List.length_cons, List.length_replicate] at hlen
  have hlt := x.isLt
  have hx : x.toNat < S.length := by omega
  have hat : (0 :: List.replicate 255 1)[x.toNat]? =
      some (Gf256.mulBits (Aes.invAffine (lookup S x)) x) := by
    rw [← zipWith_S, List.getElem?_zipWith, List.getElem?_range x.isLt, lookup,
      List.getD_eq_getElem?_getD, List.getElem?_eq_getElem hx]
    simp only [Option.getD_some, BitVec.ofNat_toNat, BitVec.setWidth_eq]
  cases hn : x.toNat with
  | zero => exact Or.inl (BitVec.eq_of_toNat_eq hn)
  | succ n =>
    rw [hn, List.getElem?_cons_succ, List.getElem?_replicate_of_lt (by omega)] at hat
    exact Or.inr (Option.some.inj hat).symm

/-- **The table `S`** is the S-box of the standard. -/
theorem lookup_S (x : BitVec 8) : lookup S x = Aes.sbox x := by
  rcases mul_invAffine_S x with rfl | h
  · have hzero : (Gf256.mk 0)⁻¹ = 0 := inv_zero
    rw [Aes.sbox, hzero]
    rfl
  · have hm : Gf256.mk (Aes.invAffine (lookup S x)) * Gf256.mk x = 1 := Gf256.ext h
    rw [Aes.sbox, ← eq_inv_of_mul_eq_one_left hm, Aes.affine_invAffine]

/-! ### The steps of a round -/

theorem fill_eq (bytes : Bytes 16) (state : Square) : fill bytes state = Aes.load bytes := by
  funext i j
  fin_cases i <;> fin_cases j <;> rfl

theorem keyAdd_eq {roundKeys : RoundKeys} {round : Fin 11} {w : Fin 4 → Aes.Word}
    (h : ∀ i j, roundKeys round i j = w j i) (state : Square) :
    keyAdd state roundKeys round = Aes.addRoundKey w state := by
  have e : keyAdd state roundKeys round = fun i j => state i j ^^^ roundKeys round i j := by
    funext i j
    fin_cases i <;> fin_cases j <;> rfl
  rw [e]
  funext i j
  rw [h, Aes.addRoundKey]

theorem byteSub_eq (state : Square) : byteSub state = Aes.subBytes state := by
  have e : byteSub state = fun i j => lookup S (state i j) := by
    funext i j
    fin_cases i <;> fin_cases j <;> rfl
  rw [e]
  funext i j
  exact lookup_S _

theorem shiftRow_eq (state : Square) : shiftRow state = Aes.shiftRows state := by
  funext i j
  fin_cases i <;> fin_cases j <;> rfl

/-- The table `Xtime` multiplies by `X`. -/
theorem mk_lookup_Xtime (x : BitVec 8) :
    Gf256.mk (lookup Xtime x) = Gf256.mk 0x02 * Gf256.mk x := by
  apply Gf256.value_injective
  rw [Gf256.value_mul, lookup_Xtime]
  exact (Gf256.residue_xtime x).trans (by rw [Gf256.value_two]; rfl)

theorem mk_xor (a b : BitVec 8) : Gf256.mk (a ^^^ b) = Gf256.mk a + Gf256.mk b := rfl

/-- One entry of `MixColumn`, read off the source. -/
theorem mixColumn_apply (state : Square) (r c : Fin 4) :
    mixColumn state r c
      = state r c ^^^ (state 0 c ^^^ state 1 c ^^^ state 2 c ^^^ state 3 c
          ^^^ lookup Xtime (state r c ^^^ state (r + 1) c)) := by
  fin_cases r <;> fin_cases c <;> rfl

theorem mixColumn_eq (state : Square) : mixColumn state = Aes.mixColumns state := by
  funext r c
  have e : Aes.mixColumns state r c
      = (∑ k, Aes.mixMatrix r k * Gf256.mk (state k c)).bits := rfl
  rw [mixColumn_apply, e, Fin.sum_univ_four]
  refine congrArg Gf256.bits (?_ : Gf256.mk _ = _)
  have h3 : Gf256.mk 0x03#8 = Gf256.mk 0x02#8 + 1 := rfl
  have h1 : Gf256.mk 0x01#8 = 1 := rfl
  -- the sum of the column holds a second copy of the entry itself, and the two cancel
  have hr : Gf256.mk (state r c) + Gf256.mk (state r c) = 0 := neg_add_cancel _
  simp only [mk_xor, mk_lookup_Xtime]
  fin_cases r
  all_goals
    simp [Aes.mixMatrix, h1, h3] at hr ⊢
    linear_combination hr

/-! ### The key schedule -/

/-- The first column of the next round key. -/
theorem nextRoundKey_zero (prev cur : Square) (roundConst : BitVec 8) (i : Fin 4) :
    nextRoundKey prev roundConst cur i 0
      = lookup S (prev (i + 1) 3) ^^^ prev i 0 ^^^ (![roundConst, 0, 0, 0] : Aes.Word) i := by
  fin_cases i
  · rfl
  all_goals exact (BitVec.xor_zero).symm

/-- Every further column adds the column before it. -/
theorem nextRoundKey_succ (prev cur : Square) (roundConst : BitVec 8) (i : Fin 4) (j : Fin 3) :
    nextRoundKey prev roundConst cur i j.succ
      = prev i j.succ ^^^ nextRoundKey prev roundConst cur i j.castSucc := by
  fin_cases i <;> fin_cases j <;> rfl

theorem roundKey_zero (key : Bytes 16) (n : Nat) (i : Fin 4) :
    Aes.roundKey key (n + 1) 0 i
      = Aes.roundKey key n 0 i ^^^ (Aes.sbox (Aes.roundKey key n 3 (i + 1)) ^^^ Aes.rcon (n + 1) i) := by
  have h4 : ¬ 4 * (n + 1) < 4 := by omega
  have hp : 4 * (n + 1) - 1 = 4 * n + 3 := by omega
  have hq : 4 * (n + 1) - 4 = 4 * n := by omega
  simp only [Aes.roundKey, Fin.val_zero, Nat.add_zero]
  rw [Aes.keyExpansion, dif_neg h4, hp, hq, if_pos (Nat.mul_mod_right 4 _),
    Nat.mul_div_cancel_left _ (by decide : 0 < 4)]
  rfl

theorem roundKey_succ (key : Bytes 16) (n : Nat) (i : Fin 4) (j : Fin 3) :
    Aes.roundKey key (n + 1) j.succ i
      = Aes.roundKey key n j.succ i ^^^ Aes.roundKey key (n + 1) j.castSucc i := by
  have h4 : ¬ 4 * (n + 1) + (j + 1) < 4 := by omega
  have hp : 4 * (n + 1) + (j + 1) - 1 = 4 * (n + 1) + j := by omega
  have hq : 4 * (n + 1) + (j + 1) - 4 = 4 * n + (j + 1) := by omega
  have hm : (4 * (n + 1) + (j + 1 : Nat)) % 4 ≠ 0 := by omega
  simp only [Aes.roundKey, Fin.val_succ, Fin.val_castSucc]
  rw [Aes.keyExpansion, dif_neg h4, hp, hq, if_neg hm]

/-- One pass of the loop takes round key `n` of the standard to round key `n + 1`. -/
theorem nextRoundKey_eq {key : Bytes 16} {n : Nat} {prev : Square}
    (h : ∀ i j, prev i j = Aes.roundKey key n j i) (cur : Square) (i j : Fin 4) :
    nextRoundKey prev (Gf256.mk 0x02 ^ n).bits cur i j = Aes.roundKey key (n + 1) j i := by
  induction j using Fin.induction with
  | zero =>
    rw [nextRoundKey_zero, roundKey_zero, lookup_S, h, h, BitVec.xor_comm (Aes.sbox _),
      BitVec.xor_assoc]
    rfl
  | succ j ih => rw [nextRoundKey_succ, roundKey_succ, h, ih]

/-- The invariant of the loop of `RijndaelKeySchedule` after `n` passes: the round keys up to
number `n` are the standard's, and the round constant is the next one. -/
def Scheduled (key : Bytes 16) (n : Nat) (p : RoundKeys × BitVec 8) : Prop :=
  (∀ r : Fin 11, r.val ≤ n → ∀ i j, p.1 r i j = Aes.roundKey key r j i) ∧
    p.2 = (Gf256.mk 0x02 ^ n).bits

/-- **The round keys** are those of the standard, whatever the table held before. -/
theorem rijndaelKeySchedule_apply (key : Bytes 16) (roundKeys : RoundKeys) (r : Fin 11)
    (i j : Fin 4) : rijndaelKeySchedule key roundKeys r i j = Aes.roundKey key r j i := by
  refine (forLoop_induction (Scheduled key) ⟨?_, rfl⟩ ?_).1 r (by omega) i j
  · intro r hr i j
    obtain rfl : r = 0 := Fin.ext (by simpa using hr)
    simp only [Function.update_self]
    rw [fill_eq, Aes.load, Fin.val_zero, Aes.roundKey, Aes.keyExpansion,
      dif_pos (by omega)]
    congr 1
    apply Fin.ext
    simp only
    omega
  · rintro n ⟨table, roundConst⟩ ⟨htable, hconst⟩
    simp only at htable hconst
    subst hconst
    refine ⟨?_, ?_⟩
    · intro r hr i j
      by_cases h : r = n.succ
      · subst h
        simp only [Function.update_self]
        exact nextRoundKey_eq (htable n.castSucc (by simp)) _ i j
      · simp only [Function.update_of_ne h]
        refine htable r ?_ i j
        have : r.val ≠ n.val + 1 := fun e => h (Fin.ext e)
        omega
    · rw [pow_succ', Gf256.bits_mul]
      exact congrArg Gf256.bits (mk_lookup_Xtime _)

/-- What `RijndaelKeySchedule` leaves in the table depends on the key alone. -/
theorem rijndaelKeySchedule_congr (key : Bytes 16) (t t' : RoundKeys) :
    rijndaelKeySchedule key t = rijndaelKeySchedule key t' := by
  funext r i j
  rw [rijndaelKeySchedule_apply, rijndaelKeySchedule_apply]

/-! ### The cipher -/

/-- The state after the full rounds. -/
theorem rounds_eq (key : Bytes 16) (roundKeys : RoundKeys) (state : Square) :
    forLoop 9 (fun r state => keyAdd (mixColumn (shiftRow (byteSub state)))
        (rijndaelKeySchedule key roundKeys) ⟨r + 1, by omega⟩)
      (keyAdd state (rijndaelKeySchedule key roundKeys) 0)
      = Aes.rounds key state 9 := by
  refine forLoop_induction (fun n s => s = Aes.rounds key state n) ?_ ?_
  · exact keyAdd_eq (rijndaelKeySchedule_apply key roundKeys 0) state
  · rintro r _ rfl
    rw [byteSub_eq, shiftRow_eq, mixColumn_eq, Aes.rounds]
    exact keyAdd_eq (rijndaelKeySchedule_apply key roundKeys _) _

theorem rijndaelEncrypt_eq (key : Bytes 16) (roundKeys : RoundKeys) (input : Bytes 16) :
    rijndaelEncrypt (rijndaelKeySchedule key roundKeys) input = Aes.cipher key input := by
  simp only [rijndaelEncrypt]
  rw [forLoop_update_id (fun i _ => _), fill_eq, rounds_eq, byteSub_eq, shiftRow_eq,
    keyAdd_eq (rijndaelKeySchedule_apply key roundKeys 10)]
  rfl

/-- **`rijndael.c` computes AES-128**: for every key, every block and every earlier content of
the table of round keys, and so no two blocks have the same encryption. -/
theorem rijndael_computes_aes :
    (∀ (key : Bytes 16) (roundKeys : RoundKeys) (input : Bytes 16),
      rijndaelEncrypt (rijndaelKeySchedule key roundKeys) input = Aes.cipher key input) ∧
    ∀ (key : Bytes 16) (roundKeys : RoundKeys),
      Function.Injective (rijndaelEncrypt (rijndaelKeySchedule key roundKeys)) := by
  refine ⟨rijndaelEncrypt_eq, ?_⟩
  intro key roundKeys a b h
  rw [rijndaelEncrypt_eq, rijndaelEncrypt_eq] at h
  exact Aes.cipher_injective key h

-- The example vector of the standard's appendix C.1.
example :
    rijndaelEncrypt (rijndaelKeySchedule (fun i => BitVec.ofNat 8 i) (fun _ _ _ => 0))
        (fun i => BitVec.ofNat 8 (0x11 * i))
      = ![0x69, 0xc4, 0xe0, 0xd8, 0x6a, 0x7b, 0x04, 0x30, 0xd8, 0xcd, 0xb7, 0x80, 0x70, 0xb4,
          0xc5, 0x5a] := by
  decide +kernel

end Rijndael

/-- The block cipher of `rijndael.c`.  What `RijndaelKeySchedule` leaves in the table does not
depend on what was there (`rijndaelKeySchedule_congr`), so it is run from a table of zeroes. -/
def rijndael : BlockCipher Rijndael.RoundKeys where
  schedule key := Rijndael.rijndaelKeySchedule key (fun _ _ _ => 0)
  encrypt := Rijndael.rijndaelEncrypt

end OpenairHss.Hsssec
