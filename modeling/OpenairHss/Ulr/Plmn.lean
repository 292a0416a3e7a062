import OpenairHss.Ulr.Processor

/-!
# The text of a PLMN

`PLMNID_TO_HEX_STR` writes the three bytes in hexadecimal.  `setw (2)` holds for the first of them
only, so the second and the third lose a leading zero: the text has six digits exactly if neither is
below 16 (`length_plmnidToHexStr`).

Four digits and six digits are read back in one way.  Five digits are cut in two ways, after the
third or after the fourth, and `plmn_detected_iff` says that these are the only PLMNs with one text:
a change from one to the other is not seen by `phase3`.
-/

namespace OpenairHss.Ulr

open Processor

/-! ### Digits -/

def hexDigit (d : Nat) : Char := "0123456789ABCDEF".toList.getD d '0'

theorem hexDigit_inj {d e : Nat} (hd : d < 16) (he : e < 16) : hexDigit d = hexDigit e ↔ d = e := by
  have hall : ∀ i j : Fin 16, hexDigit i = hexDigit j → i = j := by decide
  constructor
  · intro h
    exact congrArg Fin.val (hall ⟨d, hd⟩ ⟨e, he⟩ h)
  · rintro rfl
    rfl

theorem hexDigits_short {n : Nat} (h : n < 16) : hexDigits n = [hexDigit n] := if_pos h

theorem hexDigits_long {n : Nat} (h : 16 ≤ n) :
    hexDigits n = [hexDigit (n / 16), hexDigit (n % 16)] := if_neg (Nat.not_lt.mpr h)

/-- The first byte has both of its digits. -/
theorem toList_plmnidToHexStr (a b c : BitVec 8) :
    (plmnidToHexStr [a, b, c]).toList =
      hexDigit (a.toNat / 16) :: hexDigit (a.toNat % 16)
        :: (hexDigits b.toNat ++ hexDigits c.toNat) := by
  rw [plmnidToHexStr, String.toList_ofList]
  show List.replicate (2 - (hexDigits a.toNat).length) '0' ++ hexDigits a.toNat
    ++ hexDigits b.toNat ++ hexDigits c.toNat = _
  by_cases h : a.toNat < 16
  · have hzero : a.toNat / 16 = 0 ∧ a.toNat % 16 = a.toNat := by omega
    rw [hexDigits_short h, hzero.1, hzero.2]
    rfl
  · rw [hexDigits_long (Nat.not_lt.mp h)]
    rfl

/-- **The text has six digits exactly if its second and its third byte have two.** -/
theorem length_plmnidToHexStr (a b c : BitVec 8) :
    (plmnidToHexStr [a, b, c]).toList.length = 6 ↔ 16 ≤ b.toNat ∧ 16 ≤ c.toNat := by
  have hlen : ∀ n : Nat, (hexDigits n).length = if n < 16 then 1 else 2 := by
    intro n
    by_cases h : n < 16
    · rw [hexDigits_short h, if_pos h]
      rfl
    · rw [hexDigits_long (Nat.not_lt.mp h), if_neg h]
      rfl
  rw [toList_plmnidToHexStr, List.length_cons, List.length_cons, List.length_append, hlen, hlen]
  by_cases hb : b.toNat < 16
  · rw [if_pos hb]
    split <;> omega
  · rw [if_neg hb]
    split <;> omega

/-! ### Two ways to cut five digits -/

/-- The digits of the bytes `b` and `c`, of which the first has one digit and the second has two, are
those of the bytes `b'` and `c'`, of which the first has two and the second has one. -/
def Recut (b c b' c' : BitVec 8) : Prop :=
  1 ≤ b.toNat ∧ b.toNat < 16 ∧ 16 ≤ c.toNat ∧ b'.toNat = 16 * b.toNat + c.toNat / 16 ∧
    c'.toNat = c.toNat % 16

instance (b c b' c' : BitVec 8) : Decidable (Recut b c b' c') :=
  inferInstanceAs (Decidable (_ ∧ _ ∧ _ ∧ _ ∧ _))

/-- Two PLMNs with one text. -/
def SameText (p q : BitVec 8 × BitVec 8 × BitVec 8) : Prop :=
  p.1 = q.1 ∧ (Recut p.2.1 p.2.2 q.2.1 q.2.2 ∨ Recut q.2.1 q.2.2 p.2.1 p.2.2)

theorem hexDigits_append_eq_iff (b c b' c' : BitVec 8) :
    hexDigits b.toNat ++ hexDigits c.toNat = hexDigits b'.toNat ++ hexDigits c'.toNat ↔
      (b = b' ∧ c = c') ∨ Recut b c b' c' ∨ Recut b' c' b c := by
  have hb := b.isLt
  have hc := c.isLt
  have hb' := b'.isLt
  have hc' := c'.isLt
  rw [← BitVec.toNat_inj, ← BitVec.toNat_inj]
  unfold Recut
  generalize b.toNat = b at *
  generalize c.toNat = c at *
  generalize b'.toNat = b' at *
  generalize c'.toNat = c' at *
  have hdigit : ∀ {d e : Nat}, d < 16 → e < 16 → (hexDigit d = hexDigit e ↔ d = e) := hexDigit_inj
  rcases Nat.lt_or_ge b 16 with h₁ | h₁ <;> rcases Nat.lt_or_ge c 16 with h₂ | h₂ <;>
    rcases Nat.lt_or_ge b' 16 with h₃ | h₃ <;> rcases Nat.lt_or_ge c' 16 with h₄ | h₄ <;>
    simp (disch := omega) only [hexDigits_short, hexDigits_long, List.cons_append, List.nil_append,
      List.cons.injEq, hdigit, and_true, reduceCtorEq, and_false, false_iff] <;>
    omega

/-- Two PLMNs have one text exactly if they are the same or their five digits are cut in two ways. -/
theorem plmnidToHexStr_eq_iff (a b c a' b' c' : BitVec 8) :
    plmnidToHexStr [a, b, c] = plmnidToHexStr [a', b', c'] ↔
      [a, b, c] = [a', b', c'] ∨ SameText (a, b, c) (a', b', c') := by
  have ha := a.isLt
  have ha' := a'.isLt
  have hfirst : (hexDigit (a.toNat / 16) = hexDigit (a'.toNat / 16) ∧
      hexDigit (a.toNat % 16) = hexDigit (a'.toNat % 16)) ↔ a = a' := by
    rw [hexDigit_inj (by omega) (by omega), hexDigit_inj (by omega) (by omega),
      ← BitVec.toNat_inj]
    omega
  rw [← String.toList_inj, toList_plmnidToHexStr, toList_plmnidToHexStr, List.cons.injEq,
    List.cons.injEq, ← and_assoc, hfirst, hexDigits_append_eq_iff, SameText]
  simp only [List.cons.injEq, and_true]
  exact and_or_left

/-! ### The comparison in `phase3` -/

/-- **When a change of the visited PLMN is detected.**  All texts consist of hexadecimal digits; a
text has six of them exactly if the second and the third byte are not below 16; two PLMNs have
different texts exactly if they do not differ in the cut of five digits alone; and `phase3` reports
on an attached subscriber with the text of the one stored and the text of the other new exactly
then. -/
theorem plmn_detected_iff (a b c a' b' c' : BitVec 8) :
    (∀ x ∈ (plmnidToHexStr [a, b, c]).toList, x ∈ "0123456789ABCDEF".toList) ∧
      ((plmnidToHexStr [a, b, c]).toList.length = 6 ↔ 16 ≤ b.toNat ∧ 16 ≤ c.toNat) ∧
      (([a, b, c] ≠ [a', b', c'] → plmnidToHexStr [a, b, c] ≠ plmnidToHexStr [a', b', c']) ↔
        ¬ SameText (a, b, c) (a', b', c')) ∧
      ∀ d : Data, d.orig_info.ms_ps_status = "ATTACHED" →
        d.orig_info.visited_plmnid = plmnidToHexStr [a, b, c] →
        d.new_info.visited_plmnid = plmnidToHexStr [a', b', c'] →
        (([a, b, c] ≠ [a', b', c'] → reportRoaming d ≠ .ret ()) ↔
          ¬ SameText (a, b, c) (a', b', c')) := by
  have hdetected : ([a, b, c] ≠ [a', b', c'] → plmnidToHexStr [a, b, c] ≠ plmnidToHexStr [a', b', c'])
      ↔ ¬ SameText (a, b, c) (a', b', c') := by
    rw [ne_eq, ne_eq, plmnidToHexStr_eq_iff]
    constructor
    · intro h hsame
      refine h (fun heq => ?_) (Or.inr hsame)
      obtain ⟨-, hrecut⟩ := hsame
      simp only [List.cons.injEq, and_true] at heq
      obtain ⟨-, rfl, rfl⟩ := heq
      rcases hrecut with ⟨-, -, h₁, -, h₂⟩ | ⟨-, -, h₁, -, h₂⟩
      · dsimp only at h₁ h₂
        omega
      · dsimp only at h₁ h₂
        omega
    · rintro h hne (heq | hsame)
      · exact hne heq
      · exact h hsame
  refine ⟨fun x hx => ?_, length_plmnidToHexStr a b c, hdetected, fun d hps horig hnew => ?_⟩
  · have hmem : ∀ d : Nat, hexDigit d ∈ "0123456789ABCDEF".toList := by
      intro d
      unfold hexDigit
      rw [List.getD_eq_getElem?_getD]
      cases h : "0123456789ABCDEF".toList[d]? with
      | none => decide
      | some y => exact List.mem_of_getElem? h
    have hdigits : ∀ n : Nat, ∀ x ∈ hexDigits n, x ∈ "0123456789ABCDEF".toList := by
      intro n x hx
      rcases Nat.lt_or_ge n 16 with h | h
      · rw [hexDigits_short h] at hx
        obtain rfl := List.mem_singleton.mp hx
        exact hmem n
      · rw [hexDigits_long h] at hx
        rcases List.mem_cons.mp hx with rfl | hx
        · exact hmem _
        · obtain rfl := List.mem_singleton.mp hx
          exact hmem _
    rw [toList_plmnidToHexStr] at hx
    rcases List.mem_cons.mp hx with rfl | hx
    · exact hmem _
    rcases List.mem_cons.mp hx with rfl | hx
    · exact hmem _
    rcases List.mem_append.mp hx with hx | hx
    · exact hdigits _ x hx
    · exact hdigits _ x hx
  · rw [← hdetected]
    refine imp_congr_right fun _ => ?_
    rw [reportRoaming, hps, horig, hnew]
    by_cases heq : plmnidToHexStr [a, b, c] = plmnidToHexStr [a', b', c']
    · rw [if_neg fun h => h.2 heq]
      exact ⟨fun h => absurd rfl h, fun h => absurd heq h⟩
    · rw [if_pos ⟨rfl, heq⟩]
      exact ⟨fun _ => heq, fun _ => nofun⟩

/-- `00 01 11` and `00 11 01`: both are written `00111`. -/
theorem not_plmn_detected :
    ¬ ∀ a b c a' b' c' : BitVec 8, (plmnidToHexStr [a, b, c]).toList.length = 6 ∧
      ([a, b, c] ≠ [a', b', c'] → plmnidToHexStr [a, b, c] ≠ plmnidToHexStr [a', b', c']) := by
  intro h
  have htext : plmnidToHexStr [0x00, 0x01, 0x11] = plmnidToHexStr [0x00, 0x11, 0x01] := by decide
  exact (h 0x00 0x01 0x11 0x00 0x11 0x01).2 (by decide) htext

end OpenairHss.Ulr
