import OpenairHss.Lib.Bytes
import Mathlib.Data.List.TakeWhile

/-!
# Access restriction

`bcd_to_hex` of `conversion.c`, and `split_plmn` and `apply_access_restriction` of
`access_restriction.c`.  The buffer `imsi_hex` is uninitialised; its content is a parameter.

The second comparison of the source joins its two tests with `&&`, and the MCC is known to agree by
then, so that the MNC never decides (`applyAccessRestriction_eq_zero_iff`).
-/

namespace OpenairHss.Hsssec

open ByteVec

/-- `ascii_to_dec_table`. -/
def asciiToDec (c : Char) : Option (BitVec 8) :=
  if '0' ≤ c ∧ c ≤ '9' then some (BitVec.ofNat 8 (c.toNat - '0'.toNat)) else none

/-- `bcd_to_hex`: the digits are written one after another, and the first character that is no digit
ends it with an error. -/
def bcdToHex : List Char → Nat → (Nat → BitVec 8) → Option (Nat → BitVec 8)
  | [], _, dst => some dst
  | c :: h, i, dst => match asciiToDec c with
    | none => none
    | some value => bcdToHex h (i + 1) (Function.update dst i value)

/-- `split_plmn`: the digits of MCC and MNC. -/
def splitPlmn (plmn : Bytes 3) : Bytes 3 × Bytes 3 :=
  let mcc : Bytes 3 := ![plmn 0 &&& 0x0F, (plmn 0 &&& 0xF0) >>> 4, plmn 1 &&& 0x0F]
  if plmn 1 &&& 0xF0 = 0xF0 then (mcc, ![0, plmn 2 &&& 0x0F, (plmn 2 &&& 0xF0) >>> 4])
  else (mcc, ![plmn 2 &&& 0x0F, (plmn 2 &&& 0xF0) >>> 4, (plmn 1 &&& 0xF0) >>> 4])

/-- `apply_access_restriction`; `imsi_hex` is the memory of that buffer. -/
def applyAccessRestriction (imsi_hex : Nat → BitVec 8) (imsi : String) (vplmn : Bytes 3) : Int :=
  -- strlen (imsi) stops at a NUL
  match bcdToHex (imsi.toList.takeWhile (· ≠ '\x00')) 0 imsi_hex with
  | none => -1
  | some imsi_hex =>
    let (vmcc, vmnc) := splitPlmn vplmn
    let hmcc : Bytes 3 := ![imsi_hex 0, imsi_hex 1, imsi_hex 2]
    if vmcc ≠ hmcc then -1
    else
      let hmnc : Bytes 3 := ![0, imsi_hex 3, imsi_hex 4]
      if vmcc ≠ hmcc ∧ vmnc ≠ hmnc then -1 else 0

/-! ### What is written into the buffer -/

/-- The bytes `ds` from index `i` on. -/
def overwrite (dst : Nat → BitVec 8) (i : Nat) (ds : List (BitVec 8)) : Nat → BitVec 8 :=
  fun j => if j < i then dst j else ds.getD (j - i) (dst j)

theorem bcdToHex_eq (h : List Char) (i : Nat) (dst : Nat → BitVec 8) :
    bcdToHex h i dst = (h.mapM asciiToDec).map (overwrite dst i) := by
  induction h generalizing i dst with
  | nil =>
    have hdst : overwrite dst i [] = dst := by
      funext j
      simp [overwrite]
    exact congrArg some hdst.symm
  | cons c h ih =>
    rw [bcdToHex, List.mapM_cons]
    cases hc : asciiToDec c with
    | none => rfl
    | some value =>
      simp only [ih]
      cases h.mapM asciiToDec with
      | none => rfl
      | some ds =>
        refine congrArg some (funext fun j => ?_)
        simp only [overwrite]
        by_cases hlt : j < i
        · rw [if_pos (by omega), if_pos hlt, Function.update_of_ne (by omega)]
        by_cases heq : j = i
        · subst heq
          rw [if_pos (by omega), if_neg hlt, Function.update_self, Nat.sub_self]
          rfl
        · rw [if_neg (by omega), if_neg hlt, Function.update_of_ne heq,
            show j - i = j - (i + 1) + 1 by omega]
          rfl

/-! ### What is decided -/

/-- The digits of an IMSI, if it has nothing else. -/
def imsiDigits (imsi : String) : Option (List (BitVec 8)) := imsi.toList.mapM asciiToDec

/-- What `strlen` sees of it. -/
def imsiSeen (imsi : String) : Option (List (BitVec 8)) :=
  (imsi.toList.takeWhile (· ≠ '\x00')).mapM asciiToDec

/-- The visited network is the home network: the IMSI begins with its MCC and its two-digit MNC. -/
def AtHome (imsi : String) (vplmn : Bytes 3) : Prop :=
  ∃ d0 d1 d2 d3 d4 rest, imsiDigits imsi = some (d0 :: d1 :: d2 :: d3 :: d4 :: rest) ∧
    (splitPlmn vplmn).1 = ![d0, d1, d2] ∧ (splitPlmn vplmn).2 = ![0, d3, d4]

/-- The first three bytes of the buffer are the visited MCC. -/
def SameMcc (imsi_hex : Nat → BitVec 8) (ds : List (BitVec 8)) (vplmn : Bytes 3) : Prop :=
  (splitPlmn vplmn).1 = ![ds.getD 0 (imsi_hex 0), ds.getD 1 (imsi_hex 1), ds.getD 2 (imsi_hex 2)]

theorem applyAccessRestriction_eq_zero_iff (imsi_hex : Nat → BitVec 8) (imsi : String)
    (vplmn : Bytes 3) : applyAccessRestriction imsi_hex imsi vplmn = 0 ↔
      ∃ ds, imsiSeen imsi = some ds ∧ SameMcc imsi_hex ds vplmn := by
  unfold applyAccessRestriction
  rw [bcdToHex_eq, ← imsiSeen]
  cases imsiSeen imsi with
  | none => simp
  | some ds =>
    simp only [Option.map_some, Option.some.injEq, exists_eq_left']
    -- the bytes behind the digits are those of the buffer
    change _ = 0 ↔ (splitPlmn vplmn).1 =
      ![overwrite imsi_hex 0 ds 0, overwrite imsi_hex 0 ds 1, overwrite imsi_hex 0 ds 2]
    by_cases hmcc : (splitPlmn vplmn).1 =
        ![overwrite imsi_hex 0 ds 0, overwrite imsi_hex 0 ds 1, overwrite imsi_hex 0 ds 2]
    · rw [if_neg (not_not.mpr hmcc), if_neg fun h => h.1 hmcc]
      exact iff_of_true rfl hmcc
    · rw [if_pos hmcc]
      exact iff_of_false (by decide) hmcc

/-- The characters of an IMSI with only digits. -/
theorem asciiToDec_ne_none {h : List Char} {ds : List (BitVec 8)}
    (hds : h.mapM asciiToDec = some ds) : ∀ c ∈ h, asciiToDec c ≠ none := by
  induction h generalizing ds with
  | nil => exact nofun
  | cons c h ih =>
    rw [List.mapM_cons] at hds
    obtain ⟨d, hd, hds⟩ := Option.bind_eq_some_iff.mp hds
    obtain ⟨ds', hds', -⟩ := Option.bind_eq_some_iff.mp hds
    intro c' hc'
    rcases List.mem_cons.mp hc' with rfl | hc'
    · rw [hd]
      exact nofun
    · exact ih hds' c' hc'

/-- An IMSI of digits has no NUL. -/
theorem imsiSeen_of_digits {imsi : String} {ds : List (BitVec 8)} (h : imsiDigits imsi = some ds) :
    imsiSeen imsi = some ds := by
  have hcut : imsi.toList.takeWhile (· ≠ '\x00') = imsi.toList := by
    refine List.takeWhile_eq_self_iff.mpr fun c hc => decide_eq_true ?_
    rintro rfl
    exact asciiToDec_ne_none h _ hc (by decide)
  rw [imsiSeen, hcut]
  exact h

/-- **When the decision is about the home network.**  The IMSI has at most 15 characters, so that it
fits into the buffer; the visited PLMN has an MNC of two digits. -/
theorem access_decided_iff (imsi_hex : Nat → BitVec 8) (imsi : String) (vplmn : Bytes 3)
    (_ : imsi.length ≤ 15) (_ : vplmn 1 &&& 0xF0 = 0xF0) :
    (applyAccessRestriction imsi_hex imsi vplmn = 0 ↔ AtHome imsi vplmn) ↔
      ∀ ds, imsiSeen imsi = some ds → SameMcc imsi_hex ds vplmn → imsiDigits imsi = some ds ∧
        5 ≤ ds.length ∧ (splitPlmn vplmn).2 = ![0, ds.getD 3 0, ds.getD 4 0] := by
  rw [applyAccessRestriction_eq_zero_iff]
  constructor
  · intro h ds hds hmcc
    obtain ⟨d0, d1, d2, d3, d4, rest, hdigits, -, hmnc⟩ := h.mp ⟨ds, hds, hmcc⟩
    obtain rfl : d0 :: d1 :: d2 :: d3 :: d4 :: rest = ds := by
      rw [imsiSeen_of_digits hdigits] at hds
      exact Option.some.inj hds
    exact ⟨hdigits, by simp, hmnc⟩
  · intro h
    constructor
    · rintro ⟨ds, hds, hmcc⟩
      obtain ⟨hdigits, hlen, hmnc⟩ := h ds hds hmcc
      match ds, hlen with
      | d0 :: d1 :: d2 :: d3 :: d4 :: rest, _ =>
        exact ⟨d0, d1, d2, d3, d4, rest, hdigits, hmcc, hmnc⟩
    · rintro ⟨d0, d1, d2, d3, d4, rest, hdigits, hmcc, -⟩
      exact ⟨_, imsiSeen_of_digits hdigits, hmcc⟩

/-- An IMSI of network 208 93 in its home network. -/
theorem access_decided_iff_home :
    applyAccessRestriction (fun _ => 0) "208930000000001" ![0x02, 0xf8, 0x39] = 0 ↔
      AtHome "208930000000001" ![0x02, 0xf8, 0x39] := by
  refine (access_decided_iff (fun _ => 0) "208930000000001" ![0x02, 0xf8, 0x39] (by decide)
    (by decide)).mpr fun ds hds _ => ?_
  obtain rfl : [2, 0, 8, 9, 3, 0, 0, 0, 0, 0, 0, 0, 0, 0, 1] = ds :=
    Option.some.inj ((by decide : some _ = imsiSeen "208930000000001").trans hds)
  exact ⟨by decide, by decide, by decide⟩

/-- The same IMSI in network 208 01: it is let in. -/
theorem not_access_decided :
    ¬ (applyAccessRestriction (fun _ => 0) "208930000000001" ![0x02, 0xf8, 0x10] = 0 ↔
      AtHome "208930000000001" ![0x02, 0xf8, 0x10]) := by
  intro h
  obtain ⟨d0, d1, d2, d3, d4, rest, hdigits, -, hmnc⟩ := h.mp (by decide +kernel)
  have hds : imsiDigits "208930000000001" =
      some [2, 0, 8, 9, 3, 0, 0, 0, 0, 0, 0, 0, 0, 0, 1] := by decide
  rw [hds] at hdigits
  simp only [Option.some.injEq, List.cons.injEq] at hdigits
  obtain ⟨-, -, -, rfl, -⟩ := hdigits
  have hdigit : (splitPlmn ![0x02, 0xf8, 0x10]).2 1 = 9 := congrFun hmnc 1
  exact absurd hdigit (by decide)

end OpenairHss.Hsssec
