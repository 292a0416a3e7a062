import OpenairHss.Epc.Service
import OpenairHss.Lib.Csv

/-!
# The text of a service field

* `atoi_toString`: a number in decimal digits is read back.
* `parse_protocolText`, `parse_serviceText`: from the text of a service, with the names that the program
  has for it and for its protocols, the parser finds all of it again.
-/

namespace OpenairHss.Epc

open Dns Getline

/-! ### Numbers -/

def IsDigit (b : UInt8) : Prop := 0x30 ≤ b ∧ b ≤ 0x39

instance (b : UInt8) : Decidable (IsDigit b) := inferInstanceAs (Decidable (_ ∧ _))

theorem digit_bounds {c : Char} (h : c.isDigit) : 0x30 ≤ c.toNat ∧ c.toNat ≤ 0x39 :=
  Char.isDigit_iff_toNat.mp h

theorem toNat_digit {c : Char} (h : c.isDigit) : (UInt8.ofNat c.toNat).toNat = c.toNat := by
  have := digit_bounds h
  exact UInt8.toNat_ofNat_of_lt' (by show c.toNat < 256; omega)

theorem isDigit_digit {c : Char} (h : c.isDigit) : IsDigit (UInt8.ofNat c.toNat) := by
  have hbounds := digit_bounds h
  rw [IsDigit, UInt8.le_iff_toNat_le, UInt8.le_iff_toNat_le, toNat_digit h]
  exact hbounds

theorem foldl_digits (cs : List Char) (h : ∀ c ∈ cs, c.isDigit) (n : Nat) :
    (cs.map fun c => UInt8.ofNat c.toNat).foldl
        (fun (n : Int) (b : UInt8) => n * 10 + (b.toNat - 0x30 : Nat)) n =
      (Nat.ofDigitChars 10 cs n : Nat) := by
  induction cs generalizing n with
  | nil => rfl
  | cons c cs ih =>
    have hc := toNat_digit (h c List.mem_cons_self)
    have hnext : (n : Int) * 10 + (c.toNat - 0x30 : Nat) = (10 * n + (c.toNat - 0x30) : Nat) := by
      omega
    rw [List.map_cons, List.foldl_cons, hc, hnext, ih fun d hd => h d (List.mem_cons_of_mem c hd),
      Nat.ofDigitChars_cons]
    rfl

theorem takeWhile_digits {s : Octets} (h : ∀ b ∈ s, IsDigit b) :
    s.takeWhile (fun b => decide (0x30 ≤ b ∧ b ≤ 0x39)) = s := by
  have hall : (s ++ []).takeWhile (fun b => decide (0x30 ≤ b ∧ b ≤ 0x39)) =
      s ++ [].takeWhile fun b => decide (0x30 ≤ b ∧ b ≤ 0x39) :=
    List.takeWhile_append_of_pos fun b hb => decide_eq_true (h b hb)
  rwa [List.takeWhile_nil, List.append_nil] at hall

theorem atoi_digits {s : Octets} (hne : s ≠ []) (h : ∀ b ∈ s, IsDigit b) :
    atoi s = Int.bmod (max (-2 ^ 63) (min (2 ^ 63 - 1)
      (s.foldl (fun (n : Int) (b : UInt8) => n * 10 + (b.toNat - 0x30 : Nat)) 0))) (2 ^ 32) := by
  have htake := takeWhile_digits h
  cases s with
  | nil => exact absurd rfl hne
  | cons b s =>
    have hb : IsDigit b := h b List.mem_cons_self
    have hblank : ¬(b = 0x20 ∨ (0x09 ≤ b ∧ b ≤ 0x0d)) := by
      unfold IsDigit at hb
      grind
    have hminus : b ≠ 0x2d := by
      rintro rfl
      exact absurd hb.1 (by decide)
    have hplus : b ≠ 0x2b := by
      rintro rfl
      exact absurd hb.1 (by decide)
    unfold atoi
    rw [List.dropWhile_cons_of_neg (by simpa using hblank)]
    simp only
    split
    case h_1 _ heq => exact absurd (List.cons_eq_cons.mp heq).1 hminus
    case h_2 _ heq => exact absurd (List.cons_eq_cons.mp heq).1 hplus
    case h_3 => rw [htake, if_neg Bool.false_ne_true]

theorem isDigit_of_mem_toString {n : Nat} {c : Char} (h : c ∈ (toString n).toList) : c.isDigit := by
  rw [show (toString n).toList = Nat.toDigits 10 n from Nat.toList_repr] at h
  exact Nat.isDigit_of_mem_toDigits (by decide) (by decide) h

theorem isDigit_of_mem_octets {n : Nat} {b : UInt8} (h : b ∈ octets (toString n)) : IsDigit b := by
  obtain ⟨c, hc, rfl⟩ := List.mem_map.mp h
  exact isDigit_digit (isDigit_of_mem_toString hc)

theorem octets_toString_ne_nil (n : Nat) : octets (toString n) ≠ [] := by
  intro h
  have hchars : (toString n).toList = [] := List.map_eq_nil_iff.mp h
  exact Csv.toString_ne_empty n (String.toList_eq_nil_iff.mp hchars)

theorem atoi_toString (n : Nat) (h : n < 2 ^ 31) : atoi (octets (toString n)) = n := by
  have hvalue : (octets (toString n)).foldl
      (fun (n : Int) (b : UInt8) => n * 10 + (b.toNat - 0x30 : Nat)) 0 = n := by
    have hfold := foldl_digits (toString n).toList (fun _ => isDigit_of_mem_toString) 0
    have hread : Nat.ofDigitChars 10 (toString n).toList 0 = n := by
      rw [show (toString n).toList = Nat.toDigits 10 n from Nat.toList_repr]
      exact Nat.ofDigitChars_toDigits (by decide) (by decide)
    rw [hread] at hfold
    exact hfold
  rw [atoi_digits (octets_toString_ne_nil n) fun _ => isDigit_of_mem_octets, hvalue, Int.bmod_def]
  omega

/-! ### Names -/

/-- `Utility::getAppService` of an enumerator. -/
def appServiceName (s : AppServiceEnum) : String :=
  ((appServices.find? fun e => e.2 = s).map (·.1)).getD "x-3gpp-unknown"

/-- `Utility::getAppProtocol` of an enumerator. -/
def appProtocolName (proto : AppProtocolEnum) : String :=
  ((appProtocols.find? fun e => e.2 = proto).map (·.1)).getD "x-unknown"

theorem getAppService_name (s : AppServiceEnum) : getAppService (octets (appServiceName s)) = s := by
  cases s <;> decide

theorem getAppProtocol_name (proto : AppProtocolEnum) :
    getAppProtocol (octets (appProtocolName proto)) = proto := by
  cases proto <;> decide

/-- None of the delimiters of the field. -/
def Name (s : Octets) : Prop := 0x3a ∉ s ∧ 0x2b ∉ s ∧ s ≠ []

instance (s : Octets) : Decidable (Name s) := inferInstanceAs (Decidable (_ ∧ _ ∧ _))

theorem name_appService (s : AppServiceEnum) : Name (octets (appServiceName s)) := by
  cases s <;> decide

theorem name_appProtocol (proto : AppProtocolEnum) : Name (octets (appProtocolName proto)) := by
  cases proto <;> decide

/-! ### The field -/

/-- A protocol and the usage types that it is restricted to. -/
structure Restricted where
  protocol : AppProtocolEnum
  usageTypes : List Nat

/-- The usage types, each of which fits into an `int`. -/
def Restricted.Fits (r : Restricted) : Prop := ∀ ut ∈ r.usageTypes, ut < 2 ^ 31

def usageTypesText (uts : List Nat) : Octets :=
  [0x2e].intercalate (uts.map fun ut => octets (toString ut))

def protocolText (r : Restricted) : Octets :=
  octets (appProtocolName r.protocol) ++
    if r.usageTypes = [] then [] else octets "+ue-" ++ usageTypesText r.usageTypes

def serviceText (s : AppServiceEnum) (rs : List Restricted) : Octets :=
  [0x3a].intercalate (octets (appServiceName s) :: rs.map protocolText)

theorem not_mem_toString {b : UInt8} (hb : ¬IsDigit b) (n : Nat) : b ∉ octets (toString n) :=
  fun h => hb (isDigit_of_mem_octets h)

theorem not_mem_usageTypesText {b : UInt8} (hb : ¬IsDigit b) (hdot : b ≠ 0x2e) (uts : List Nat) :
    b ∉ usageTypesText uts := by
  refine not_mem_intercalate hdot fun p hp => ?_
  obtain ⟨ut, -, rfl⟩ := List.mem_map.mp hp
  exact not_mem_toString hb ut

theorem getlines_usageTypesText (uts : List Nat) :
    getlines 0x2e (usageTypesText uts) = uts.map fun ut => octets (toString ut) := by
  refine getlines_intercalate _ _ (fun p hp => ?_) fun hlast => ?_
  · obtain ⟨ut, -, rfl⟩ := List.mem_map.mp hp
    exact not_mem_toString (by decide) ut
  · obtain ⟨ut, -, hut⟩ := List.mem_map.mp (List.mem_of_getLast? hlast)
    exact octets_toString_ne_nil ut hut

theorem protocolText_plain (r : Restricted) : 0x3a ∉ protocolText r ∧ protocolText r ≠ [] := by
  obtain ⟨hcolon, -, hne⟩ := name_appProtocol r.protocol
  refine ⟨?_, List.append_ne_nil_of_left_ne_nil hne _⟩
  rw [protocolText, List.mem_append]
  rintro (h | h)
  · exact hcolon h
  · split at h
    · exact List.not_mem_nil h
    · rcases List.mem_append.mp h with h | h
      · exact absurd h (by decide)
      · exact not_mem_usageTypesText (by decide) (by decide) _ h

/-- A protocol is read back with its usage types. -/
theorem parse_protocolText (r : Restricted) (h : r.Fits) : AppProtocol.parse (protocolText r) =
    ⟨protocolText r, r.protocol, r.usageTypes.map Int.ofNat⟩ := by
  obtain ⟨-, hplus, hne⟩ := name_appProtocol r.protocol
  by_cases hnil : r.usageTypes = []
  · have htext : protocolText r = octets (appProtocolName r.protocol) := by
      rw [protocolText, if_pos hnil, List.append_nil]
    rw [AppProtocol.parse, htext, getline_last hplus hne, hnil]
    simp only [getAppProtocol_name]
    rfl
  · have htext : protocolText r = octets (appProtocolName r.protocol) ++
        0x2b :: (octets "ue" ++ 0x2d :: usageTypesText r.usageTypes) := by
      rw [protocolText, if_neg hnil]
      rfl
    have hread : (getlines 0x2e (usageTypesText r.usageTypes)).map atoi =
        r.usageTypes.map Int.ofNat := by
      rw [getlines_usageTypesText, List.map_map]
      exact List.map_congr_left fun ut hut => atoi_toString ut (h ut hut)
    rw [AppProtocol.parse, htext, getline_delimited hplus]
    simp only [getline_delimited (show 0x2d ∉ octets "ue" by decide), getAppProtocol_name, hread,
      if_true]

theorem getline_serviceText (s : AppServiceEnum) (rs : List Restricted) :
    getline 0x3a (serviceText s rs) =
      some (octets (appServiceName s), [0x3a].intercalate (rs.map protocolText)) := by
  obtain ⟨hcolon, -, hne⟩ := name_appService s
  cases rs with
  | nil =>
    have htext : serviceText s [] = octets (appServiceName s) := List.intercalate_singleton
    rw [htext, getline_last hcolon hne]
    rfl
  | cons r rs =>
    have htext : serviceText s (r :: rs) = octets (appServiceName s) ++
        0x3a :: [0x3a].intercalate ((r :: rs).map protocolText) := by
      rw [serviceText, List.map_cons, List.intercalate_cons_cons, List.append_assoc,
        List.singleton_append]
    rw [htext, getline_delimited hcolon]

theorem getlines_protocols (rs : List Restricted) :
    getlines 0x3a ([0x3a].intercalate (rs.map protocolText)) = rs.map protocolText := by
  refine getlines_intercalate _ _ (fun p hp => ?_) fun hlast => ?_
  · obtain ⟨r, -, rfl⟩ := List.mem_map.mp hp
    exact (protocolText_plain r).1
  · obtain ⟨r, -, hr⟩ := List.mem_map.mp (List.mem_of_getLast? hlast)
    exact (protocolText_plain r).2 hr

theorem service_serviceText (s : AppServiceEnum) (rs : List Restricted) :
    (AppService.parse (serviceText s rs)).m_service = s := by
  rw [AppService.parse, getline_serviceText]
  exact getAppService_name s

theorem protocols_serviceText (s : AppServiceEnum) {rs : List Restricted} (h : ∀ r ∈ rs, r.Fits) :
    (AppService.parse (serviceText s rs)).m_protocols =
      rs.map fun r => ⟨protocolText r, r.protocol, r.usageTypes.map Int.ofNat⟩ := by
  rw [AppService.parse, getline_serviceText]
  show (getlines 0x3a ([0x3a].intercalate (rs.map protocolText))).map AppProtocol.parse = _
  rw [getlines_protocols, List.map_map]
  exact List.map_congr_left fun r hr => parse_protocolText r (h r hr)

/-- **A service is read back with its protocols.** -/
theorem parse_serviceText (s : AppServiceEnum) (rs : List Restricted) (h : ∀ r ∈ rs, r.Fits) :
    AppService.parse (serviceText s rs) = ⟨serviceText s rs, s,
      rs.map fun r => ⟨protocolText r, r.protocol, r.usageTypes.map Int.ofNat⟩⟩ := by
  have hservice := service_serviceText s rs
  have hprotocols := protocols_serviceText s h
  rw [AppService.parse, getline_serviceText] at hservice hprotocols ⊢
  exact congrArg₂ (AppService.mk (serviceText s rs)) hservice hprotocols

theorem parse_serviceText_pgw :
    AppService.parse (serviceText .pgw [⟨.s5Gtp, [1, 4]⟩, ⟨.gn, []⟩]) =
      ⟨serviceText .pgw [⟨.s5Gtp, [1, 4]⟩, ⟨.gn, []⟩], .pgw,
        [⟨.s5Gtp, [1, 4]⟩, ⟨.gn, []⟩].map fun r =>
          ⟨protocolText r, r.protocol, r.usageTypes.map Int.ofNat⟩⟩ :=
  parse_serviceText .pgw _ (by
    intro r hr ut hut
    simp only [List.mem_cons, List.not_mem_nil, or_false] at hr
    rcases hr with rfl | rfl
    · simp only [List.mem_cons, List.not_mem_nil, or_false] at hut
      omega
    · exact absurd hut List.not_mem_nil)

end OpenairHss.Epc
