import OpenairHss.Lib.Bytes
import OpenairHss.Lib.Hex
import Mathlib.Tactic.FinCases

/-!
# The security columns of a subscriber

`getImsiSecData` and `updateRandSqn` of `dataaccess.cpp`, with the conversions they use:
`convert_ascii_to_binary`, `Utility::bytes2hex` and the macros `SQN_TO_U64` and `U64_TO_SQN` of
`util.h`, in their little-endian branch.

The SQN is a `bigint` column.  Reading it keeps its low 48 bits (`word_sqnOfNb`), and the value
`updateRandSqn` writes is the SQN as a number, plus 32, with no reduction (`sqnText_eq`); the
reduction happens at the next read (`sqnOf_updateRandSqn`).  Whatever is written in hexadecimal is
read back (`convertAsciiToBinary_bytes2hex`).
-/

namespace OpenairHss.DataAccess

open ByteVec

/-! ### Hexadecimal text -/

def asciiToBinary (c : Char) : BitVec 8 :=
  if '0' ≤ c ∧ c ≤ '9' then BitVec.ofNat 8 (c.toNat - '0'.toNat)
  else if 'a' ≤ c ∧ c ≤ 'f' then BitVec.ofNat 8 (c.toNat - 'a'.toNat + 10)
  else if 'A' ≤ c ∧ c ≤ 'F' then BitVec.ofNat 8 (c.toNat - 'A'.toNat + 10)
  else 0

/-- `convert_ascii_to_binary`.  A text that is too short is read on as zeroes. -/
def convertAsciiToBinary (length : Nat) (src : String) : Bytes length :=
  fun i => (asciiToBinary (src.toList.getD (2 * i) '\x00') <<< 4) |||
    asciiToBinary (src.toList.getD (2 * i + 1) '\x00')

/-- The digits of `Utility::bytes2hex`, in lower case. -/
def hexl : List Char := "0123456789abcdef".toList

/-- `Utility::bytes2hex`, without a delimiter and in lower case. -/
def bytes2hex {n : Nat} (bytes : Bytes n) : String :=
  String.ofList ((List.ofFn bytes).flatMap fun b : BitVec 8 =>
    [hexl.getD ((b >>> 4) &&& 0x0f#8).toNat '0', hexl.getD (b &&& 0x0f#8).toNat '0'])

/-! ### The sequence number -/

/-- The `u64` of a `SqnU64Union` whose bytes are `u8`, on a little-endian machine. -/
def unionU64 (u8 : Bytes 8) : BitVec 64 := word (n := 8) (fun i => u8 (Fin.rev i))

/-- The bytes of a `SqnU64Union` whose `u64` is given, on a little-endian machine. -/
def unionU8 (u64 : BitVec 64) : Bytes 8 := fun i => ofWord (n := 8) u64 (Fin.rev i)

def sqnToU64 (sqn : Bytes 6) : BitVec 64 :=
  let u8 : Bytes 8 := fun _ => 0
  let u8 := Function.update u8 5 (sqn 0)
  let u8 := Function.update u8 4 (sqn 1)
  let u8 := Function.update u8 3 (sqn 2)
  let u8 := Function.update u8 2 (sqn 3)
  let u8 := Function.update u8 1 (sqn 4)
  let u8 := Function.update u8 0 (sqn 5)
  unionU64 u8

def u64ToSqn (u : BitVec 64) : Bytes 6 :=
  ![unionU8 u 5, unionU8 u 4, unionU8 u 3, unionU8 u 2, unionU8 u 1, unionU8 u 0]

/-- The six assignments to `imsisec.sqn` in `getImsiSecData`. -/
def sqnOfNb (sqn_nb : BitVec 64) : Bytes 6 :=
  ![((sqn_nb &&& (255#64 <<< 40)) >>> 40).setWidth 8, ((sqn_nb &&& (255#64 <<< 32)) >>> 32).setWidth 8,
    ((sqn_nb &&& (255#64 <<< 24)) >>> 24).setWidth 8, ((sqn_nb &&& (255#64 <<< 16)) >>> 16).setWidth 8,
    ((sqn_nb &&& (255#64 <<< 8)) >>> 8).setWidth 8, (sqn_nb &&& 0xFF#64).setWidth 8]

/-- The six bytes of a SQN as a number. -/
def sqnVal (sqn : Bytes 6) : Nat := (word sqn).toNat

/-! ### The two functions -/

/-- `DAImsiSec`. -/
structure ImsiSec where
  key : Bytes 16
  sqn : Bytes 6
  rand : Bytes 16
  opc : Bytes 16

/-- The columns of `users_imsi` that `getImsiSec` selects; a column may be null. -/
structure SecRow where
  key : Option String
  sqn : Option Int
  rand : Option String
  opc : Option String

/-- `getImsiSecData` on the first row of the result, if there is one.  `sqn_nb` is the content of
the uninitialised local of that name, which a null column leaves as it is. -/
def getImsiSecData (sqn_nb : Int) : Option SecRow → Option ImsiSec
  | none => none
  | some row => some {
      key := convertAsciiToBinary 16 (row.key.getD "")
      rand := convertAsciiToBinary 16 (row.rand.getD "")
      opc := convertAsciiToBinary 16 (row.opc.getD "")
      sqn := sqnOfNb (BitVec.ofInt 64 (row.sqn.getD sqn_nb)) }

/-- The number that `updateRandSqn` puts into its statement. -/
def sqnText (sqn : Bytes 6) (inc_sqn : Bool) : Nat :=
  let eu := sqnToU64 sqn
  (if inc_sqn then eu + 32 else eu).toNat

/-- The statement of `updateRandSqn`, as its effect on the row: `rand` and `sqn` are set. -/
def updateRandSqn (rand : Bytes 16) (sqn : Bytes 6) (inc_sqn : Bool) (row : SecRow) : SecRow :=
  { row with rand := some (bytes2hex rand), sqn := some (sqnText sqn inc_sqn) }

def getImsiSecText (imsi : String) : String :=
  "SELECT key,sqn,rand,OPc FROM vhss.users_imsi WHERE imsi='" ++ imsi ++ "';"

def updateRandSqnText (imsi : String) (rand : Bytes 16) (sqn : Bytes 6) (inc_sqn : Bool) : String :=
  "UPDATE vhss.users_imsi SET rand='" ++ bytes2hex rand ++ "', sqn=" ++ toString (sqnText sqn inc_sqn)
    ++ " WHERE imsi='" ++ imsi ++ "';"

/-! ### Values -/

theorem sqnVal_lt (sqn : Bytes 6) : sqnVal sqn < 2 ^ 48 := (word sqn).isLt

theorem sqnToU64_eq (sqn : Bytes 6) : sqnToU64 sqn = (word sqn).setWidth 64 := by
  have e : sqnToU64 sqn = word (n := 2 + 6) (Fin.append (fun _ => 0) sqn) := by
    unfold sqnToU64 unionU64
    congr 1
  have hz : word (fun _ : Fin 2 => (0 : BitVec 8)) = 0#16 := by decide
  apply BitVec.eq_of_getLsbD_eq
  intro j hj
  rw [e]
  refine (getLsbD_word_append _ _ j).trans ?_
  rw [hz, BitVec.getLsbD_append, BitVec.getLsbD_setWidth, decide_eq_true hj, Bool.true_and]
  split
  · rfl
  · rw [BitVec.getLsbD_zero, BitVec.getLsbD_of_ge _ _ (by omega)]

/-- **Reading a stored SQN keeps its low 48 bits.** -/
theorem word_sqnOfNb (nb : BitVec 64) : word (sqnOfNb nb) = nb.setWidth 48 := by
  have e : sqnOfNb nb = ofWord (n := 6) (nb.setWidth 48) := by
    unfold sqnOfNb
    rw [mask_ushiftRight nb (s := 40) (by decide), mask_ushiftRight nb (s := 32) (by decide),
      mask_ushiftRight nb (s := 24) (by decide), mask_ushiftRight nb (s := 16) (by decide),
      mask_ushiftRight nb (s := 8) (by decide)]
    have h0 : (nb &&& 0xFF#64).setWidth 8 = nb.extractLsb' 0 8 :=
      mask_ushiftRight nb (s := 0) (by decide)
    rw [h0]
    funext i
    apply BitVec.eq_of_getLsbD_eq
    intro j hj
    have hw : ∀ s, s + 8 ≤ 48 →
        ((nb.setWidth 48).extractLsb' s 8).getLsbD j = (nb.extractLsb' s 8).getLsbD j := by
      intro s hs
      simp only [BitVec.getLsbD_extractLsb', BitVec.getLsbD_setWidth, hj, decide_true,
        Bool.true_and, decide_eq_true (show s + j < 48 by omega)]
    fin_cases i <;> exact (hw _ (by decide)).symm
  rw [e]
  exact word_ofWord _

/-- The number written is the SQN as a number, with 32 added when it is to be incremented. -/
theorem sqnText_eq (sqn : Bytes 6) (inc_sqn : Bool) :
    sqnText sqn inc_sqn = sqnVal sqn + if inc_sqn then 32 else 0 := by
  have hlt := sqnVal_lt sqn
  unfold sqnText
  rw [sqnToU64_eq]
  have h64 : ((word sqn).setWidth 64).toNat = sqnVal sqn := by
    rw [BitVec.toNat_setWidth]
    exact Nat.mod_eq_of_lt (lt_trans hlt (by decide))
  cases inc_sqn
  · exact h64
  · simp only [if_true, BitVec.toNat_add, h64]
    exact Nat.mod_eq_of_lt (lt_trans (Nat.add_lt_add_right hlt 32) (by decide))

/-- The SQN read from a column that holds `n`. -/
theorem sqnVal_sqnOfNb (n : Nat) : sqnVal (sqnOfNb (BitVec.ofInt 64 n)) = n % 2 ^ 48 := by
  unfold sqnVal
  rw [word_sqnOfNb]
  have h : (BitVec.ofInt 64 (n : Int)) = BitVec.ofNat 64 n := rfl
  have hd : 2 ^ 48 ∣ 2 ^ 64 := Nat.pow_dvd_pow 2 (by decide)
  rw [h, BitVec.toNat_setWidth, BitVec.toNat_ofNat, Nat.mod_mod_of_dvd _ hd]

/-- **A SQN that was written with an increment is read back 32 higher**, modulo `2 ^ 48`. -/
theorem sqnOf_updateRandSqn (junk : Int) (rand : Bytes 16) (sqn : Bytes 6) (row : SecRow) :
    ∃ sec, getImsiSecData junk (some (updateRandSqn rand sqn true row)) = some sec ∧
      sqnVal sec.sqn = (sqnVal sqn + 32) % 2 ^ 48 := by
  refine ⟨_, rfl, ?_⟩
  have h := sqnText_eq sqn true
  rw [if_pos rfl] at h
  rw [← h]
  exact sqnVal_sqnOfNb _

/-- The six bytes that `U64_TO_SQN` takes are the low 48 bits. -/
theorem word_u64ToSqn (u : BitVec 64) : word (u64ToSqn u) = u.setWidth 48 := by
  have e : u64ToSqn u = ofWord (n := 6) (u.setWidth 48) := by
    funext i
    apply BitVec.eq_of_getLsbD_eq
    intro j hj
    have hbyte : ∀ s, s + 8 ≤ 48 →
        (u.extractLsb' s 8).getLsbD j = ((u.setWidth 48).extractLsb' s 8).getLsbD j := by
      intro s hs
      simp only [BitVec.getLsbD_extractLsb', BitVec.getLsbD_setWidth, hj, decide_true,
        Bool.true_and, decide_eq_true (show s + j < 48 by omega)]
    fin_cases i <;> exact hbyte _ (by decide)
  rw [e]
  exact word_ofWord _

/-- The SQN that a resynchronisation leaves. -/
theorem sqnVal_incremented (sqn : Bytes 6) :
    sqnVal (u64ToSqn (sqnToU64 sqn + 32)) = (sqnVal sqn + 32) % 2 ^ 48 := by
  have hd : 2 ^ 48 ∣ 2 ^ 64 := Nat.pow_dvd_pow 2 (by decide)
  have h64 : ((word sqn).setWidth 64).toNat = sqnVal sqn := by
    rw [BitVec.toNat_setWidth]
    exact Nat.mod_eq_of_lt (lt_trans (sqnVal_lt sqn) (by decide))
  have h32 : (32 : BitVec 64).toNat = 32 := rfl
  rw [sqnVal, word_u64ToSqn, sqnToU64_eq, BitVec.toNat_setWidth, BitVec.toNat_add, h64, h32]
  exact Nat.mod_mod_of_dvd _ hd

/-! ### Hexadecimal text that is read back -/

/-- The two characters of a byte. -/
def hexChars (b : BitVec 8) : List Char :=
  [hexl.getD ((b >>> 4) &&& 0x0f#8).toNat '0', hexl.getD (b &&& 0x0f#8).toNat '0']

/-- The characters of `hexl`. -/
def hexChar (v : Fin 16) : Char := hexl.getD v '0'

theorem ofChar_hexChar (v : Fin 16) : Hex.ofChar (hexChar v) = some v := by
  revert v
  decide

theorem hexChars_eq (b : BitVec 8) : hexChars b = [hexChar (Hex.high b), hexChar (Hex.low b)] := by
  have hhigh : ((b >>> 4) &&& 0x0f#8).toNat = Hex.high b := Hex.toNat_shift_and b
  have hlow : (b &&& 0x0f#8).toNat = Hex.low b := Hex.toNat_and_low b
  rw [hexChars, hexChar, hexChar, hhigh, hlow]

theorem toList_bytes2hex {n : Nat} (b : Bytes n) :
    (bytes2hex b).toList = Hex.encode hexChar (List.ofFn b) := by
  have htext : (bytes2hex b).toList = (List.ofFn b).flatMap hexChars := String.toList_ofList
  rw [htext, Hex.encode, funext hexChars_eq]

theorem asciiToBinary_of_some {c : Char} {v : Fin 16} (h : Hex.ofChar c = some v) :
    asciiToBinary c = BitVec.ofNat 8 v := by
  unfold asciiToBinary
  simp only [Hex.decimal_iff, Hex.lower_iff, Hex.upper_iff]
  rcases Hex.ofAscii_eq_some h with ⟨hge, hle, hv⟩ | ⟨hge, hle, hv⟩ | ⟨hge, hle, hv⟩
  · rw [if_pos ⟨hge, hle⟩, hv]
    exact congrArg (BitVec.ofNat 8) (Nat.add_sub_cancel_left 48 v)
  · rw [if_neg (by omega), if_neg (by omega), if_pos ⟨hge, hle⟩, hv]
    exact congrArg (BitVec.ofNat 8) (show 55 + (v : Nat) - 65 + 10 = v by omega)
  · rw [if_neg (by omega), if_pos ⟨hge, hle⟩, hv]
    exact congrArg (BitVec.ofNat 8) (show 87 + (v : Nat) - 97 + 10 = v by omega)

/-- **A text that spells bytes is converted to them**, and to zeroes behind them. -/
theorem convertAsciiToBinary_of_decode {text : String} {bytes : List (BitVec 8)}
    (h : Hex.decode Hex.ofChar text.toList = some bytes) {n : Nat} (i : Fin n) :
    convertAsciiToBinary n text i = bytes.getD i 0 := by
  rw [convertAsciiToBinary, List.getD_eq_getElem?_getD, List.getD_eq_getElem?_getD]
  by_cases hi : (i : Nat) < bytes.length
  · obtain ⟨c, d, v, w, hc, hd, hv, hw, hbyte⟩ := Hex.getElem?_of_decode h hi
    rw [hc, hd, Option.getD_some, Option.getD_some, asciiToBinary_of_some hv,
      asciiToBinary_of_some hw, List.getD_eq_getElem _ _ hi, hbyte]
    exact Hex.shift_or_eq_pair v w
  · have hlength := Hex.length_decode h
    rw [List.getElem?_eq_none (by omega), List.getElem?_eq_none (by omega),
      List.getD_eq_default _ _ (by omega)]
    decide

/-- **Bytes written in hexadecimal are read back.** -/
theorem convertAsciiToBinary_bytes2hex {n : Nat} (b : Bytes n) :
    convertAsciiToBinary n (bytes2hex b) = b := by
  funext i
  have hdecode : Hex.decode Hex.ofChar (bytes2hex b).toList = some (List.ofFn b) := by
    rw [toList_bytes2hex]
    exact Hex.decode_encode hexChar ofChar_hexChar (List.ofFn b)
  rw [convertAsciiToBinary_of_decode hdecode, List.getD_eq_getElem _ _ (by simp), List.getElem_ofFn]

/-- **What is stored is read back**: the RAND and, modulo `2 ^ 48`, the SQN of `updateRandSqn`; and
keys in hexadecimal. -/
theorem stored_and_read :
    (∀ (sqn_nb : Int) (rand : Bytes 16) (sqn : Bytes 6) (inc_sqn : Bool) (row : SecRow),
      ∃ sec, getImsiSecData sqn_nb (some (updateRandSqn rand sqn inc_sqn row)) = some sec ∧
        sec.rand = rand ∧
        sqnVal sec.sqn = (sqnVal sqn + 32 * (if inc_sqn then 1 else 0)) % 2 ^ 48) ∧
    ∀ key : Bytes 16, convertAsciiToBinary 16 (bytes2hex key) = key := by
  refine ⟨fun sqn_nb rand sqn inc_sqn row => ⟨_, rfl, ?_, ?_⟩, convertAsciiToBinary_bytes2hex⟩
  · exact convertAsciiToBinary_bytes2hex rand
  · have htext : sqnVal sqn + 32 * (if inc_sqn then 1 else 0) = sqnText sqn inc_sqn := by
      rw [sqnText_eq]
      cases inc_sqn <;> rfl
    rw [htext]
    exact sqnVal_sqnOfNb _

end OpenairHss.DataAccess
