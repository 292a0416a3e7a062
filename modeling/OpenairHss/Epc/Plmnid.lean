import OpenairHss.Epc.Fqdn
import Mathlib.Tactic.Common

/-!
# The names of two networks

* `nibbles_ext_iff`: an octet is its two nibbles.
* `parseMnc_eq_iff`, `parseMcc_eq_iff`: when two PLMN identities give the same codes.
* `withPlmnid_text_eq_iff`: when a name is the same for two PLMN identities. A network code of two
  digits and the one of three digits that starts with a zero give the same names.
-/

namespace OpenairHss.Epc

open Dns

/-! ### Nibbles -/

theorem toNat_lowNibble (a : UInt8) : (lowNibble a).toNat = a.toNat % 16 := by
  rw [lowNibble, UInt8.toNat_and]
  exact Nat.and_two_pow_sub_one_eq_mod a.toNat 4

theorem toNat_highNibble (a : UInt8) : (highNibble a).toNat = a.toNat / 16 := by
  have hlt : a.toNat < 256 := a.toNat_lt
  calc (highNibble a).toNat = (a.toNat &&& 0xf0) >>> 4 := by
        rw [highNibble, UInt8.toNat_shiftRight, UInt8.toNat_and]
        rfl
    _ = a.toNat >>> 4 &&& 0xf0 >>> 4 := Nat.shiftRight_and_distrib
    _ = a.toNat / 16 % 16 := by
        rw [Nat.shiftRight_eq_div_pow]
        exact Nat.and_two_pow_sub_one_eq_mod _ 4
    _ = a.toNat / 16 := by omega

theorem nibbles_ext_iff (a b : UInt8) :
    a = b ↔ lowNibble a = lowNibble b ∧ highNibble a = highNibble b := by
  constructor
  · rintro rfl
    exact ⟨rfl, rfl⟩
  · rintro ⟨hlow, hhigh⟩
    have hmod : a.toNat % 16 = b.toNat % 16 := by
      rw [← toNat_lowNibble, ← toNat_lowNibble, hlow]
    have hdiv : a.toNat / 16 = b.toNat / 16 := by
      rw [← toNat_highNibble, ← toNat_highNibble, hhigh]
    exact UInt8.toNat_inj.mp (by omega)

/-! ### Codes -/

/-- The identities have the same country code. -/
def SameCountry (p q : Plmnid) : Prop :=
  p.octet1 = q.octet1 ∧ lowNibble p.octet2 = lowNibble q.octet2

instance (p q : Plmnid) : Decidable (SameCountry p q) := inferInstanceAs (Decidable (_ ∧ _))

/-- The network code of `p` has two digits, and that of `q` is the same with a zero in front. -/
def Padded (p q : Plmnid) : Prop :=
  highNibble p.octet2 = 0x0f ∧ highNibble q.octet2 ≠ 0x0f ∧ lowNibble q.octet3 = 0 ∧
    highNibble q.octet3 = lowNibble p.octet3 ∧ highNibble q.octet2 = highNibble p.octet3

instance (p q : Plmnid) : Decidable (Padded p q) :=
  inferInstanceAs (Decidable (_ ∧ _ ∧ _ ∧ _ ∧ _))

/-- The identities are equal, or one is the other with a zero in front of its network code. -/
def SameNetwork (p q : Plmnid) : Prop :=
  p = q ∨ SameCountry p q ∧ (Padded p q ∨ Padded q p)

instance (p q : Plmnid) : Decidable (SameNetwork p q) :=
  inferInstanceAs (Decidable (_ ∨ _ ∧ (_ ∨ _)))

theorem digit_inj (a b : UInt8) : a + 0x30 = b + 0x30 ↔ a = b := UInt8.add_left_inj _

theorem zero_eq_digit (a : UInt8) : 0x30 = a + 0x30 ↔ a = 0 := by
  rw [eq_comm, ← digit_inj a 0]
  rfl

theorem parseMcc_eq_iff (p q : Plmnid) : parseMcc p = parseMcc q ↔ SameCountry p q := by
  simp only [parseMcc, SameCountry, List.cons_eq_cons, digit_inj, nibbles_ext_iff p.octet1,
    and_true, and_assoc]

theorem parseMnc_eq_iff (p q : Plmnid) :
    parseMnc p = parseMnc q ↔
      (p.octet3 = q.octet3 ∧ highNibble p.octet2 = highNibble q.octet2) ∨
        Padded p q ∨ Padded q p := by
  unfold parseMnc Padded
  by_cases hp : highNibble p.octet2 = 0x0f <;> by_cases hq : highNibble q.octet2 = 0x0f
  -- both codes have two digits
  · simp [hp, hq, nibbles_ext_iff p.octet3]
  -- only that of `p`
  · rw [if_pos hp, if_neg hq]
    simp only [hp, hq, nibbles_ext_iff p.octet3, List.cons_eq_cons, digit_inj, zero_eq_digit]
    grind
  -- only that of `q`
  · rw [if_neg hp, if_pos hq]
    simp only [hp, hq, nibbles_ext_iff p.octet3, List.cons_eq_cons, digit_inj, zero_eq_digit,
      eq_comm (b := (0x30 : UInt8))]
    grind
  -- both have three
  · simp [hp, hq, nibbles_ext_iff p.octet3, and_assoc]

theorem codes_eq_iff (p q : Plmnid) :
    parseMnc p = parseMnc q ∧ parseMcc p = parseMcc q ↔ SameNetwork p q := by
  rw [parseMnc_eq_iff, parseMcc_eq_iff, SameNetwork, SameCountry]
  obtain ⟨p₁, p₂, p₃⟩ := p
  obtain ⟨q₁, q₂, q₃⟩ := q
  simp only [Plmnid.mk.injEq, nibbles_ext_iff p₂]
  grind

/-! ### Names -/

theorem length_parseMnc (p : Plmnid) : (parseMnc p).length = 3 := by
  unfold parseMnc
  split <;> rfl

/-- A part of fixed length can be read between two others. -/
theorem append_middle_inj {a b : Octets} (hlen : a.length = b.length) (s t u : Octets) :
    s ++ (a ++ t) = s ++ (b ++ u) ↔ a = b ∧ t = u := by
  constructor
  · intro h
    exact List.append_inj (List.append_cancel_left h) hlen
  · rintro ⟨rfl, rfl⟩
    rfl

/-- The codes can be read from every ending that has both of them. -/
theorem appendMcc_appendMnc_inj (s e : Octets) (p q : Plmnid) :
    appendMcc (appendMnc s (parseMnc p)) (parseMcc p) ++ e =
        appendMcc (appendMnc s (parseMnc q)) (parseMcc q) ++ e ↔ SameNetwork p q := by
  have hmnc : (parseMnc p).length = (parseMnc q).length := by
    rw [length_parseMnc, length_parseMnc]
  have hmcc : (parseMcc p).length = (parseMcc q).length := rfl
  rw [← codes_eq_iff]
  simp only [appendMcc, appendMnc, List.append_assoc]
  rw [← List.append_assoc s, ← List.append_assoc s, append_middle_inj hmnc]
  simp only [List.append_cancel_left_eq, append_middle_inj hmcc, and_true]

theorem appendMcc_inj (s e : Octets) (p q : Plmnid) :
    appendMcc s (parseMcc p) ++ e = appendMcc s (parseMcc q) ++ e ↔ SameCountry p q := by
  have hmcc : (parseMcc p).length = (parseMcc q).length := rfl
  rw [← parseMcc_eq_iff]
  simp only [appendMcc, List.append_assoc]
  rw [← List.append_assoc s, ← List.append_assoc s, append_middle_inj hmcc]
  simp only [and_true]

theorem appendNetwork_inj (s : Octets) (p q : Plmnid) :
    appendNetwork s (parseMnc p) (parseMcc p) = appendNetwork s (parseMnc q) (parseMcc q) ↔
      SameNetwork p q :=
  appendMcc_appendMnc_inj s (octets "3gppnetwork.org") p q

theorem appendPublic_inj (s : Octets) (p q : Plmnid) :
    appendPublic s (parseMnc p) (parseMcc p) = appendPublic s (parseMnc q) (parseMcc q) ↔
      SameNetwork p q := by
  rw [appendPublic, appendPublic, append3gppNetwork, append3gppNetwork, List.append_assoc,
    List.append_assoc]
  exact appendMcc_appendMnc_inj s _ p q

theorem appendVisited_inj (s : Octets) (p q : Plmnid) :
    appendVisited s (parseMcc p) = appendVisited s (parseMcc q) ↔ SameCountry p q := by
  rw [appendVisited, appendVisited, append3gppNetwork, append3gppNetwork, List.append_assoc,
    List.append_assoc]
  exact appendMcc_inj s _ p q

namespace Fqdn

/-- The name has the code of the country, and not that of the network. -/
def country : Fqdn → Bool
  | nonemergencyEpdgVisitedcountry _ | emergencyEpdgVisitedcountry _ | globalEnodebId _ _
  | localHomenetwork _ _ => true
  | _ => false

/-- **When a name is the same for two PLMN identities.** -/
theorem withPlmnid_text_eq_iff (n : Fqdn) (p q : Plmnid) :
    (n.withPlmnid p).text = (n.withPlmnid q).text ↔
      if n.country then SameCountry p q else SameNetwork p q := by
  cases n with
  | homeNetwork => exact appendNetwork_inj _ p q
  | homeNetworkGprs => exact appendMcc_appendMnc_inj _ _ p q
  | apn => exact appendMcc_appendMnc_inj _ _ p q
  | nonemergencyEpdgOi => exact appendPublic_inj _ p q
  | nonemergencyEpdgLac => exact appendPublic_inj _ p q
  | emergencyEpdgOi => exact appendPublic_inj _ p q
  | emergencyEpdgTai => exact appendPublic_inj _ p q
  | emergencyEpdgLac => exact appendPublic_inj _ p q
  | nonemergencyEpdgVisitedcountry => exact appendVisited_inj _ p q
  | emergencyEpdgVisitedcountry => exact appendVisited_inj _ p q
  | globalEnodebId => exact appendVisited_inj _ p q
  | localHomenetwork => exact appendVisited_inj _ p q
  | _ => exact appendNetwork_inj _ p q

end Fqdn

end OpenairHss.Epc
