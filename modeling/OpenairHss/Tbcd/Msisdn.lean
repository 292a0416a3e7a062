import OpenairHss.FdAvp.Avp
import OpenairHss.Nir.Request
import OpenairHss.Tbcd.Codec

/-!
# MSISDNs and IMSIs in buffers

The places where `COIRcmd::process`, `NIIRcmd::process`, `RIRBuilder::sendRIR` and
`FDHss::sendRIR_ChangeImsiImeiSvAssn` convert MSISDNs and IMSIs, with their buffers.

* `within_iff`: a call stays within its buffers if and only if it `Fits`.
* `msisdn_iff`: the Msisdn AVP of a RIR is the MSISDN if and only if the MSISDN fits into the buffer
  and what the buffer had behind it is read as nothing.  That of NIDD-Authorization-Response is the
  MSISDN if and only if the buffer happened to hold it.
-/

namespace OpenairHss.Tbcd

open FdAvp (FDAvp)

/-- `MSISDN_LEN` and `IMSI_LEN` of `s6t_impl.cpp`. -/
def MSISDN_LEN : Nat := 10
def IMSI_LEN : Nat := 15

/-- The bytes that buffers have before they are written. -/
structure Stack where
  bytes : Nat → Byte
  chars : Nat → Char

/-- The indices of a buffer that were written, and its size. -/
abbrev Region : Type := List Nat × Nat

def region {α : Type} (b : Buffer α) (size : Nat) : Region := (b.written, size)

/-- An AVP is copied into a buffer of `size` octets, and then read as TBCD into one of `room`
characters and the end. -/
def received (mem : Stack) (avp : FDAvp) (size room : Nat) : List Region :=
  match avp.getBytes size with
  | .ok (some data) =>
    let bytes := (Buffer.fresh mem.bytes).copy 0 (data.map UInt8.toBitVec)
    let text := tbcd2str (bytes.contents data.length) (Buffer.fresh mem.chars) (room + 1)
    [region bytes size, region text.1 (room + 1)]
  | _ => []

inductive Call
  | str2tbcd (src : List Char) (dstlen : Nat)
  | str2tbcdCString (src : List Char) (dstlen : Nat)
  | str2tbcdString (src : List Char) (dstlen : Nat)
  | tbcd2str (src : List Byte) (dstlen : Nat)
  | tbcd2strString (src : List Byte)
  /-- `COIRcmd::process`. -/
  | coirMsisdn (msisdn : FDAvp)
  /-- `NIIRcmd::process`. -/
  | niirUserName (user_name : FDAvp)
  | niirMsisdn (msisdn : FDAvp)
  | niirStored (msisdnFromDB : List Char)
  /-- `RIRBuilder::sendRIR`. -/
  | groupRir (m_msisdn : List Char)
  /-- `FDHss::sendRIR_ChangeImsiImeiSvAssn`. -/
  | changeRir (msisdn : Int)

/-- What a call writes to. -/
def Call.regions (mem : Stack) : Call → List Region
  | .str2tbcd src dstlen => [region (Tbcd.str2tbcd src (Buffer.fresh mem.bytes) dstlen).1 dstlen]
  | .str2tbcdCString src dstlen =>
    [region (Tbcd.str2tbcdCString src (Buffer.fresh mem.bytes) dstlen).1 dstlen]
  | .str2tbcdString src dstlen =>
    [region (Tbcd.str2tbcdString src (Buffer.fresh mem.bytes) dstlen).1 dstlen]
  | .tbcd2str src dstlen => [region (Tbcd.tbcd2str src (Buffer.fresh mem.chars) dstlen).1 dstlen]
  | .tbcd2strString src =>
    [region (Tbcd.tbcd2strString src (Buffer.fresh mem.chars)).1 (src.length * 2)]
  | .coirMsisdn msisdn => received mem msisdn MSISDN_LEN MSISDN_LEN
  | .niirUserName user_name => received mem user_name IMSI_LEN IMSI_LEN
  | .niirMsisdn msisdn => received mem msisdn MSISDN_LEN MSISDN_LEN
  | .niirStored msisdnFromDB =>
    [region (Tbcd.str2tbcdCString msisdnFromDB (Buffer.fresh mem.bytes) MSISDN_LEN).1 MSISDN_LEN]
  | .groupRir m_msisdn =>
    [region (Tbcd.str2tbcdCString m_msisdn (Buffer.fresh mem.bytes) 5).1 5]
  | .changeRir msisdn =>
    [region (Tbcd.str2tbcdCString (toString msisdn).toList (Buffer.fresh mem.bytes) 5).1 5]

/-- **A call stays within its buffers.** -/
def Call.Within (mem : Stack) (call : Call) : Prop :=
  ∀ r ∈ call.regions mem, ∀ i ∈ r.1, i < r.2

/-! ### What fits -/

/-- The characters that TBCD has: a filler ends its byte. -/
def characters (src : List Byte) : Nat :=
  (src.map fun b => if b.toNat / 16 = 15 then 0 else if b.toNat % 16 = 15 then 1 else 2).sum

/-- What is received and fits into `size` octets has at most `room` characters. -/
def ReceivedFits (avp : FDAvp) (size room : Nat) : Prop :=
  ∀ data, avp.getBytes size = .ok (some data) → characters (data.map UInt8.toBitVec) ≤ room

/-- The calls that stay within their buffers. -/
def Call.Fits : Call → Prop
  | .str2tbcd src dstlen | .str2tbcdString src dstlen => (src.length + 1) / 2 ≤ dstlen
  | .str2tbcdCString src dstlen => ((cString src).length + 1) / 2 ≤ dstlen
  | .tbcd2str src dstlen => characters src < dstlen
  | .tbcd2strString src => ∃ b ∈ src, b.toNat / 16 = 15 ∨ b.toNat % 16 = 15
  | .coirMsisdn msisdn | .niirMsisdn msisdn => ReceivedFits msisdn MSISDN_LEN MSISDN_LEN
  | .niirUserName user_name => ReceivedFits user_name IMSI_LEN IMSI_LEN
  | .niirStored msisdnFromDB => (cString msisdnFromDB).length ≤ 20
  | .groupRir m_msisdn => (cString m_msisdn).length ≤ 10
  | .changeRir msisdn => (cString (toString msisdn).toList).length ≤ 10

theorem length_nibbles_eq : ∀ b : Byte, (nibbles b).length
    = if b.toNat / 16 = 15 then 0 else if b.toNat % 16 = 15 then 1 else 2 := by decide

theorem length_tbcd2str (src : List Byte) : (Diameter.tbcd2str src).length = characters src := by
  induction src with
  | nil => rfl
  | cons b src ih =>
    rw [tbcd2str_cons, List.length_append, ih, length_nibbles_eq]
    rfl

/-- Only a filler makes the text shorter than two characters for each byte. -/
theorem characters_lt_iff (src : List Byte) :
    characters src < src.length * 2 ↔ ∃ b ∈ src, b.toNat / 16 = 15 ∨ b.toNat % 16 = 15 := by
  induction src with
  | nil => simp [characters]
  | cons b src ih =>
    have hle := length_tbcd2str_le src
    rw [length_tbcd2str] at hle
    have hcons : characters (b :: src)
        = (if b.toNat / 16 = 15 then 0 else if b.toNat % 16 = 15 then 1 else 2) + characters src :=
      rfl
    rw [hcons, List.length_cons, List.exists_mem_cons_iff, ← ih]
    split
    · omega
    · split <;> omega

theorem within_singleton {α : Type} {b : Buffer α} {size : Nat} :
    (∀ r ∈ [region b size], ∀ i ∈ r.1, i < r.2) ↔ Buffer.Within size b := by
  simp [region, Buffer.Within]

/-- `get` does not write more octets than the buffer has. -/
theorem length_of_getBytes {avp : FDAvp} {len : Nat} {data : FdJson.Octets}
    (h : avp.getBytes len = .ok (some data)) : data.length ≤ len := by
  unfold FdAvp.FDAvp.getBytes at h
  split at h
  · exact absurd h nofun
  · cases hos : avp.os with
    | error e =>
      rw [hos] at h
      exact absurd h nofun
    | ok octets =>
      rw [hos] at h
      simp only [bind, Except.bind, pure, Except.pure, Except.ok.injEq] at h
      split at h
      · exact absurd h nofun
      · cases h
        omega

theorem received_iff (mem : Stack) (avp : FDAvp) (size room : Nat) :
    (∀ r ∈ received mem avp size room, ∀ i ∈ r.1, i < r.2) ↔ ReceivedFits avp size room := by
  unfold received ReceivedFits
  cases hget : avp.getBytes size with
  | error e => exact iff_of_true nofun nofun
  | ok found =>
    cases found with
    | none => exact iff_of_true nofun nofun
    | some data =>
      have hlen := length_of_getBytes hget
      have hcopy := Buffer.filled_copy (Buffer.fresh mem.bytes) 0 (data.map UInt8.toBitVec)
      have hwithin : Buffer.Within size
          ((Buffer.fresh mem.bytes).copy 0 (data.map UInt8.toBitVec)) :=
        (hcopy.stays_within_iff size).mpr (by simpa using hlen)
      have hcontents := hcopy.contents_of_le (n := data.length) (by simp)
      rw [List.take_of_length_le (by simp)] at hcontents
      have htext := within_tbcd2str (data.map UInt8.toBitVec) mem.chars (room + 1)
      rw [length_tbcd2str] at htext
      simp only [List.forall_mem_cons, hcontents]
      constructor
      · rintro ⟨-, h, -⟩ data' hdata'
        cases hdata'
        have := htext.mp h
        omega
      · intro h
        have := h data rfl
        exact ⟨hwithin, htext.mpr (by omega), nofun⟩

/-- **The bounds**: a call stays within its buffers if and only if it fits. -/
theorem within_iff (mem : Stack) (call : Call) : call.Within mem ↔ call.Fits := by
  cases call with
  | str2tbcd src dstlen => exact within_singleton.trans (within_str2tbcd src mem.bytes dstlen dstlen)
  | str2tbcdCString src dstlen =>
    exact within_singleton.trans (within_str2tbcd (cString src) mem.bytes dstlen dstlen)
  | str2tbcdString src dstlen =>
    exact within_singleton.trans (within_str2tbcd src mem.bytes dstlen dstlen)
  | tbcd2str src dstlen =>
    refine within_singleton.trans ((within_tbcd2str src mem.chars dstlen).trans ?_)
    rw [length_tbcd2str]
    rfl
  | tbcd2strString src =>
    refine within_singleton.trans ((within_tbcd2str src mem.chars (src.length * 2)).trans ?_)
    rw [length_tbcd2str]
    exact characters_lt_iff src
  | coirMsisdn msisdn => exact received_iff mem msisdn MSISDN_LEN MSISDN_LEN
  | niirUserName user_name => exact received_iff mem user_name IMSI_LEN IMSI_LEN
  | niirMsisdn msisdn => exact received_iff mem msisdn MSISDN_LEN MSISDN_LEN
  | niirStored msisdnFromDB =>
    refine within_singleton.trans ((within_str2tbcd _ mem.bytes MSISDN_LEN MSISDN_LEN).trans ?_)
    rw [Call.Fits, MSISDN_LEN]
    omega
  | groupRir m_msisdn =>
    refine within_singleton.trans ((within_str2tbcd _ mem.bytes 5 5).trans ?_)
    rw [Call.Fits]
    omega
  | changeRir msisdn =>
    refine within_singleton.trans ((within_str2tbcd _ mem.bytes 5 5).trans ?_)
    rw [Call.Fits]
    omega

/-- An MSISDN of 11 digits in a group RIR. -/
theorem groupRir_overrun : ¬ ∀ mem call, Call.Within mem call := by
  intro h
  have hwithin := within_singleton.mp
    (h ⟨fun _ => 0, fun _ => nul⟩ (.groupRir ['3', '3', '6', '1', '2', '3', '4', '5', '6', '7', '8']))
  exact absurd ((within_str2tbcd _ _ _ _).mp hwithin) (by decide)

/-! ### The Msisdn AVP -/

/-- All octets of the buffer are added, whatever `str2tbcd` returns. -/
def msisdnAvp (size : Nat) (mem : Nat → Byte) (msisdn : List Char) : List Byte :=
  (str2tbcdCString msisdn (Buffer.fresh mem) size).1.contents size

/-- The octets of a `bigint`, which `cass_value_get_string` yields as they are. -/
def bigint (n : Nat) : List Char :=
  (List.range 8).map fun i => Char.ofNat (n / 256 ^ (7 - i) % 256)

/-- The messages that an MSISDN is put into, with where it comes from: for
NIDD-Authorization-Response it is the column of `users_imsi`, read into a `std::string`. -/
inductive Sent
  | groupRir (m_msisdn : List Char)
  | changeRir (msisdn : Nat)
  | niddAuthorizationResponse (msisdn : Nat)

def Sent.msisdn : Sent → List Char
  | .groupRir m_msisdn => m_msisdn
  | .changeRir msisdn => (toString msisdn).toList
  | .niddAuthorizationResponse msisdn => (toString msisdn).toList

/-- The text that is encoded. -/
def Sent.src : Sent → List Char
  | .groupRir m_msisdn => m_msisdn
  | .changeRir msisdn => (toString msisdn).toList
  | .niddAuthorizationResponse msisdn => bigint msisdn

def Sent.size : Sent → Nat
  | .groupRir _ | .changeRir _ => 5
  | .niddAuthorizationResponse _ => MSISDN_LEN

/-- The Msisdn AVP, with what the buffer had before. -/
def Sent.avp (mem : Nat → Byte) (sent : Sent) : List Byte := msisdnAvp sent.size mem sent.src

/-- The Msisdn AVP is read as the MSISDN. -/
def Sent.Decodes (mem : Nat → Byte) (sent : Sent) : Prop :=
  ∀ buffer, (tbcd2strString (sent.avp mem) (Buffer.fresh buffer)).2 = sent.msisdn

theorem nibbles_eq_nil_iff : ∀ b : Byte, nibbles b = [] ↔ b.toNat / 16 = 15 := by decide

theorem tbcd2str_eq_nil_iff (bytes : List Byte) :
    Diameter.tbcd2str bytes = [] ↔ ∀ b ∈ bytes, b.toNat / 16 = 15 := by
  induction bytes with
  | nil => simp [Diameter.tbcd2str]
  | cons b bytes ih =>
    rw [tbcd2str_cons, List.append_eq_nil_iff, nibbles_eq_nil_iff, ih, List.forall_mem_cons]

theorem cString_of_digits {s : List Char} (hs : ∀ c ∈ s, c.isDigit = true) : cString s = s := by
  refine List.takeWhile_eq_self_iff.mpr fun c hc => ?_
  have hdigit := hs c hc
  rw [decide_eq_true_iff]
  rintro rfl
  exact absurd hdigit (by decide)

theorem mem_alphabet_of_isDigit {c : Char} (h : c.isDigit = true) : c ∈ alphabet := by
  simp only [Char.isDigit, Bool.and_eq_true, decide_eq_true_eq] at h
  have hlow : 48 ≤ c.toNat := UInt32.le_iff_toNat_le.mp h.1
  have hhigh : c.toNat ≤ 57 := UInt32.le_iff_toNat_le.mp h.2
  have hall : ∀ n < 10, Char.ofNat (48 + n) ∈ alphabet := by decide
  rw [← Char.ofNat_toNat c, ← Nat.add_sub_cancel' hlow]
  exact hall (c.toNat - 48) (by omega)

/-- The AVP of an MSISDN that fits. -/
theorem msisdnAvp_of_le {size : Nat} {s : List Char} (mem : Nat → Byte)
    (hs : ∀ c ∈ s, c.isDigit = true) (hfits : (s.length + 1) / 2 ≤ size) :
    msisdnAvp size mem s = Diameter.str2tbcd s
      ++ (List.range (size - (s.length + 1) / 2)).map fun j => mem ((s.length + 1) / 2 + j) := by
  have hfilled := (filled_str2tbcd s (Buffer.fresh mem) size).1
  rw [msisdnAvp, str2tbcdCString, cString_of_digits hs,
    hfilled.contents_of_ge (by rwa [length_str2tbcd]), length_str2tbcd]

/-- An MSISDN of 15 digits begins with a NUL in a `bigint`. -/
theorem cString_bigint {n : Nat} (h : n < 10 ^ 15) : cString (bigint n) = [] := by
  have hzero : n / 256 ^ 7 = 0 := Nat.div_eq_of_lt (by omega)
  have hfirst : Char.ofNat (n / 256 ^ (7 - 0) % 256) = nul := by
    rw [Nat.sub_zero, hzero]
    rfl
  rw [cString, bigint, List.range_succ_eq_map, List.map_cons, hfirst,
    List.takeWhile_cons_of_neg (by decide)]

/-- No character is encoded: the AVP is what the buffer had before. -/
theorem msisdnAvp_nil (size : Nat) (mem : Nat → Byte) {s : List Char} (hs : cString s = []) :
    msisdnAvp size mem s = (List.range size).map mem := by
  rw [msisdnAvp, str2tbcdCString, hs]
  rfl

/-- The Msisdn AVP of a RIR. -/
theorem tbcd2str_msisdnAvp_iff {size : Nat} {s : List Char} (mem : Nat → Byte)
    (hs : ∀ c ∈ s, c.isDigit = true) :
    Diameter.tbcd2str (msisdnAvp size mem s) = s ↔ (s.length + 1) / 2 ≤ size ∧
      ∀ i, (s.length + 1) / 2 ≤ i → i < size → (mem i).toNat / 16 = 15 := by
  have halphabet : ∀ c ∈ s, c ∈ alphabet := fun c hc => mem_alphabet_of_isDigit (hs c hc)
  by_cases hfits : (s.length + 1) / 2 ≤ size
  · rw [msisdnAvp_of_le mem hs hfits, tbcd2str_append, tbcd2str_str2tbcd s halphabet,
      List.append_right_eq_self, tbcd2str_eq_nil_iff]
    refine ⟨fun h => ⟨hfits, fun i hi hsize => ?_⟩, fun h b hb => ?_⟩
    · refine h _ (List.mem_map.mpr ⟨i - (s.length + 1) / 2, ?_, ?_⟩)
      · rw [List.mem_range]
        omega
      · rw [Nat.add_sub_cancel' hi]
    · obtain ⟨j, hj, rfl⟩ := List.mem_map.mp hb
      rw [List.mem_range] at hj
      exact h.2 _ (by omega) (by omega)
  · -- the buffer has fewer octets than the MSISDN needs
    refine iff_of_false (fun h => ?_) (fun h => hfits h.1)
    have hlen := length_tbcd2str_le (msisdnAvp size mem s)
    rw [h, msisdnAvp, Buffer.length_contents] at hlen
    omega

/-- What the buffer had before does not spoil the AVP, or makes it up. -/
def Sent.Right (mem : Nat → Byte) : Sent → Prop
  | .niddAuthorizationResponse msisdn =>
    Diameter.tbcd2str ((List.range MSISDN_LEN).map mem) = (toString msisdn).toList
  | sent => (sent.msisdn.length + 1) / 2 ≤ sent.size ∧
      ∀ i, (sent.msisdn.length + 1) / 2 ≤ i → i < sent.size → (mem i).toNat / 16 = 15

/-- **The Msisdn AVP**, for MSISDNs of at most 15 digits: that of a RIR is read as the MSISDN if and
only if the MSISDN fits into the buffer, and the octets behind it begin with a filler; that of
NIDD-Authorization-Response if and only if the buffer had it before. -/
theorem msisdn_iff (mem : Nat → Byte) (sent : Sent)
    (hdigits : ∀ c ∈ sent.msisdn, c.isDigit = true) (hlen : sent.msisdn.length ≤ 15) :
    sent.Decodes mem ↔ sent.Right mem := by
  have hdecodes : sent.Decodes mem ↔ Diameter.tbcd2str (sent.avp mem) = sent.msisdn := by
    simp only [Sent.Decodes, tbcd2strString_eq]
    exact ⟨fun h => h fun _ => nul, fun h _ => h⟩
  rw [hdecodes]
  cases sent with
  | groupRir m_msisdn => exact tbcd2str_msisdnAvp_iff mem hdigits
  | changeRir msisdn => exact tbcd2str_msisdnAvp_iff mem hdigits
  | niddAuthorizationResponse msisdn =>
    have hlt : msisdn < 10 ^ 15 := by
      refine (Nat.length_repr_le_iff (by decide)).mp ?_
      rwa [← String.length_toList]
    rw [Sent.avp, Sent.src, msisdnAvp_nil _ mem (cString_bigint hlt)]
    exact Iff.rfl

/-- An MSISDN of 10 digits fills the buffer of a group RIR. -/
theorem msisdn_iff_ten :
    (Sent.groupRir ['3', '3', '6', '1', '2', '3', '4', '5', '6', '7']).Decodes fun _ => 0 :=
  (msisdn_iff (fun _ => 0) (.groupRir ['3', '3', '6', '1', '2', '3', '4', '5', '6', '7'])
    (List.all_eq_true.mp (by decide)) (by decide)).mpr
      ⟨by decide, fun i hi hsize => absurd hsize (Nat.not_lt.mpr hi)⟩

/-- One of 11 digits does not fit. -/
theorem msisdn_not_decodes :
    ¬ ∀ mem (sent : Sent), (∀ c ∈ sent.msisdn, c.isDigit = true) → 1 ≤ sent.msisdn.length →
      sent.msisdn.length ≤ 15 → sent.Decodes mem := by
  intro h
  have hdecodes := h (fun _ => 0)
    (.groupRir ['3', '3', '6', '1', '2', '3', '4', '5', '6', '7', '8'])
    (List.all_eq_true.mp (by decide)) (by decide) (by decide) fun _ => nul
  rw [tbcd2strString_eq] at hdecodes
  have hlen := length_tbcd2str_le
    (Sent.avp (fun _ => 0) (.groupRir ['3', '3', '6', '1', '2', '3', '4', '5', '6', '7', '8']))
  rw [hdecodes, Sent.avp, msisdnAvp, Buffer.length_contents] at hlen
  exact absurd hlen (by decide)

/-! ### The group of an NIR -/

/-- The AVP of `NIIRcmd::process`, with the column as it is read. -/
theorem nir_msisdnAvp_eq (mem : Nir.Memory) (msisdn : Nat) :
    Nir.msisdnAvp mem (String.ofList (bigint msisdn))
      = .msisdn (Sent.avp mem.msisdntbcd (.niddAuthorizationResponse msisdn)) := by
  have hfilled := (filled_str2tbcd (cString (bigint msisdn)) (Buffer.fresh mem.msisdntbcd)
    MSISDN_LEN).1
  rw [Nir.msisdnAvp, Sent.avp, Sent.src, msisdnAvp, str2tbcdCString, String.toList_ofList]
  congr 1
  refine List.map_congr_left fun i _ => ?_
  exact (hfilled.cell i).symm

end OpenairHss.Tbcd
