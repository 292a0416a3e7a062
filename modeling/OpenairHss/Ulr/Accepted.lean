import OpenairHss.Ulr.Checks
import OpenairHss.DataAccess.Subscribers

/-!
# What an accepted ULR writes

The members that the checks of `phase2` leave behind when they accept a ULR: a text of the request
is in the new information if it is there, and its flag is set then (`phase2Checks_accepted`).
-/

namespace OpenairHss.Ulr

/-- ULR-Flags as `phase2` tests them; without the AVP the local variable holds what it held. -/
def ulrFlags (req : Request) : BitVec 32 := req.ulr_flags.getD (req.rat_type.getD req.u32)

/-- A flag under a condition. -/
def flagIf (c : Bool) (flag : BitVec 32) : BitVec 32 := if c then flag else 0

/-- The information that an accepted ULR leaves behind. -/
def acceptedInfo (req : Request) (plmn : List (BitVec 8)) (info : ImsiInfo) : ImsiInfo :=
  { info with
    mmehost := req.origin_host.getD info.mmehost
    mmerealm := req.origin_realm.getD info.mmerealm
    visited_plmnid := plmnidToHexStr plmn
    imei := req.imei.getD info.imei
    imei_sv := req.software_version.getD info.imei_sv }

/-- The flags of `updateLocation`. -/
def writtenFlags : BitVec 32 := mmeIdentityPresent ||| imeiPresent ||| svPresent

/-- What is left of the data that the checks have begun with. -/
structure Accepted (req : Request) (d d' : Data) : Prop where
  info : ∃ plmn, req.visited_plmn_id = some plmn ∧ d'.new_info = acceptedInfo req plmn d.new_info
  flags : d'.present_flags &&& writtenFlags =
    (d.present_flags ||| flagIf (flagIsSet (ulrFlags req) ulrInitialAttachInd) mmeIdentityPresent
      ||| flagIf req.imei.isSome imeiPresent ||| flagIf req.software_version.isSome svPresent)
      &&& writtenFlags

variable {req : Request} {d d' : Data}

theorem ok_of_bind {ε α β : Type} {x : Except ε α} {f : α → Except ε β} {b : β}
    (h : (x >>= f) = .ok b) : ∃ a, x = .ok a ∧ f a = .ok b := by
  cases x with
  | error e => exact absurd h nofun
  | ok a => exact ⟨a, rfl, h⟩

theorem checkFlags_ok {u32 : BitVec 32} (h : checkFlags u32 d = .ok d') :
    d' = { d with present_flags :=
      d.present_flags ||| flagIf (flagIsSet u32 ulrInitialAttachInd) mmeIdentityPresent } := by
  unfold checkFlags at h
  split at h
  · exact absurd h nofun
  split at h
  · exact absurd h nofun
  split at h
  · exact absurd h nofun
  split at h
  case isTrue hinit =>
    rw [flagIf, if_pos hinit]
    exact (Except.ok.inj h).symm
  case isFalse hinit =>
    have hd : d' = d := by
      split at h
      · split at h
        · exact absurd h nofun
        split at h
        · exact absurd h nofun
        · exact (Except.ok.inj h).symm
      · exact absurd h nofun
    have hor : d.present_flags ||| (0 : BitVec 32) = d.present_flags := BitVec.or_zero
    rw [flagIf, if_neg hinit, hor, hd]

theorem checkPlmn_ok (h : checkPlmn req d = .ok d') : ∃ plmn, req.visited_plmn_id = some plmn ∧
    d' = { d with plmn_id := plmn, new_info.visited_plmnid := plmnidToHexStr plmn } := by
  unfold checkPlmn at h
  cases hreq : req.visited_plmn_id with
  | none =>
    rw [hreq] at h
    exact absurd h nofun
  | some plmn =>
    rw [hreq] at h
    dsimp only at h
    split at h
    · exact absurd h nofun
    split at h
    · exact absurd h nofun
    · exact ⟨plmn, rfl, (Except.ok.inj h).symm⟩

theorem checkImei_ok (h : checkImei req d = .ok d') :
    d' = { d with
      new_info.imei := req.imei.getD d.new_info.imei
      present_flags := d.present_flags ||| flagIf req.imei.isSome imeiPresent } := by
  unfold checkImei at h
  cases hreq : req.imei with
  | none =>
    rw [hreq] at h
    obtain rfl := Except.ok.inj h
    simp [flagIf]
  | some imei =>
    rw [hreq] at h
    dsimp only at h
    split at h
    · exact absurd h nofun
    · obtain rfl := Except.ok.inj h
      rfl

theorem checkSoftwareVersion_ok (h : checkSoftwareVersion req d = .ok d') :
    d' = { d with
      new_info.imei_sv := req.software_version.getD d.new_info.imei_sv
      present_flags := d.present_flags ||| flagIf req.software_version.isSome svPresent } := by
  unfold checkSoftwareVersion at h
  cases hreq : req.software_version with
  | none =>
    rw [hreq] at h
    obtain rfl := Except.ok.inj h
    simp [flagIf]
  | some imei_sv =>
    rw [hreq] at h
    dsimp only at h
    split at h
    · exact absurd h nofun
    · obtain rfl := Except.ok.inj h
      rfl

/-- Only flags that `updateLocation` does not test are added. -/
structure SameWrites (d d' : Data) : Prop where
  info : d'.new_info = d.new_info
  flags : d'.present_flags &&& writtenFlags = d.present_flags &&& writtenFlags

theorem SameWrites.refl (d : Data) : SameWrites d d := ⟨rfl, rfl⟩

theorem SameWrites.trans {d'' : Data} (h : SameWrites d d') (h' : SameWrites d' d'') : SameWrites d d'' :=
  ⟨h'.info.trans h.info, h'.flags.trans h.flags⟩

theorem and_writtenFlags {flag : BitVec 32} (h : flag &&& writtenFlags = 0) (x : BitVec 32) :
    (x ||| flag) &&& writtenFlags = x &&& writtenFlags := by
  rw [BitVec.and_or_distrib_right, h]
  exact BitVec.or_zero

theorem sameWrites_supportedFeatures (fs : List SupportedFeatures) (u32 : BitVec 32) (d : Data) :
    SameWrites d (supportedFeatures fs u32 d).2 := by
  induction fs generalizing u32 d with
  | nil => exact SameWrites.refl d
  | cons f fs ih =>
    have hzero : mmeSupportedFeaturesPresent &&& writtenFlags = 0 := by decide
    have hflag := and_writtenFlags hzero d.present_flags
    unfold supportedFeatures
    dsimp only
    split
    · split
      · refine SameWrites.trans ?_ (ih _ _)
        exact ⟨rfl, hflag⟩
      · refine SameWrites.trans ?_ (ih _ _)
        exact ⟨rfl, hflag⟩
    · exact ih _ _

theorem sameWrites_addFeatures (req : Request) (u32 : BitVec 32) (d : Data) :
    SameWrites d (addFeatures req u32 d) := by
  have hsrvcc : SameWrites d (if req.ue_srvcc_capability.isSome then
      { d with present_flags := d.present_flags ||| ueSrvccPresent } else d) := by
    split
    · exact ⟨rfl, and_writtenFlags (by decide) _⟩
    · exact SameWrites.refl d
  have hlist := hsrvcc.trans (sameWrites_supportedFeatures req.supported_features
    (req.ue_srvcc_capability.getD u32) _)
  exact hlist.trans ⟨rfl, rfl⟩

theorem addSubscriptionData_ok {json : String → Bool} (h : addSubscriptionData json d = .ok d') :
    SameWrites d d' := by
  unfold addSubscriptionData at h
  split at h
  · split at h
    · exact absurd h nofun
    · obtain rfl := Except.ok.inj h
      exact ⟨rfl, rfl⟩
  · obtain rfl := Except.ok.inj h
    exact SameWrites.refl d

/-- **What an accepted ULR writes.** -/
theorem phase2Checks_accepted {json : String → Bool} (h : phase2Checks json req d = .ok d') :
    Accepted req d d' := by
  obtain ⟨d₆, h, hsub⟩ := ok_of_bind h
  unfold phase2Before at h
  dsimp only at h
  split at h
  · exact absurd h nofun
  obtain ⟨d₁, h₁, h⟩ := ok_of_bind h
  obtain rfl := checkFlags_ok h₁
  split at h
  · exact absurd h nofun
  obtain ⟨d₂, h₂, h⟩ := ok_of_bind h
  obtain ⟨plmn, hplmn, rfl⟩ := checkPlmn_ok h₂
  obtain ⟨d₃, h₃, h⟩ := ok_of_bind h
  obtain ⟨d₄, h₄, h₃⟩ := ok_of_bind h₃
  obtain rfl := checkImei_ok h₄
  obtain ⟨d₅, h₅, h₃⟩ := ok_of_bind h₃
  obtain rfl := checkSoftwareVersion_ok h₅
  split at h₃
  · exact absurd h₃ nofun
  obtain rfl := Except.ok.inj h₃
  obtain rfl := Except.ok.inj h
  have hlast := (sameWrites_addFeatures req _ _).trans (addSubscriptionData_ok hsub)
  exact ⟨⟨plmn, hplmn, hlast.info⟩, hlast.flags⟩

/-! ### The flags of `updateLocation` -/

theorem flagIsSet_of_written {x y flag : BitVec 32} (hflag : writtenFlags &&& flag = flag)
    (h : x &&& writtenFlags = y &&& writtenFlags) : flagIsSet x flag = flagIsSet y flag := by
  have hand : ∀ z : BitVec 32, z &&& flag = z &&& writtenFlags &&& flag := fun z => by
    rw [BitVec.and_assoc, hflag]
  rw [flagIsSet, flagIsSet, hand x, hand y, h]

/-- With no flag at the beginning, the flags tell what the request has. -/
theorem Accepted.flagIsSet (h : Accepted req d d') (hd : d.present_flags = 0) :
    Ulr.flagIsSet d'.present_flags mmeIdentityPresent =
        Ulr.flagIsSet (ulrFlags req) ulrInitialAttachInd ∧
      Ulr.flagIsSet d'.present_flags imeiPresent = req.imei.isSome ∧
      Ulr.flagIsSet d'.present_flags svPresent = req.software_version.isSome := by
  rw [flagIsSet_of_written (by decide) h.flags, flagIsSet_of_written (by decide) h.flags,
    flagIsSet_of_written (by decide) h.flags, hd]
  cases Ulr.flagIsSet (ulrFlags req) ulrInitialAttachInd <;> cases req.imei.isSome <;>
    cases req.software_version.isSome <;> decide

/-! ### The texts of `updateLocation` -/

/-- The texts of the request that are written have no quote and no NUL. -/
structure PlainRequest (req : Request) : Prop where
  imei : ∀ s ∈ req.imei, Cql.Plain s
  software_version : ∀ s ∈ req.software_version, Cql.Plain s
  origin_host : ∀ s ∈ req.origin_host, Cql.Plain s
  origin_realm : ∀ s ∈ req.origin_realm, Cql.Plain s

theorem mem_hexDigits {n : Nat} (hn : n < 256) {c : Char} (hc : c ∈ hexDigits n) :
    c ≠ '\'' ∧ c ≠ '\x00' := by
  have hdigits : ∀ i : Fin 16, "0123456789ABCDEF".toList.getD i '0' ≠ '\'' ∧
      "0123456789ABCDEF".toList.getD i '0' ≠ '\x00' := by decide
  unfold hexDigits at hc
  dsimp only at hc
  split at hc
  case isTrue hlt =>
    obtain rfl := List.mem_singleton.mp hc
    exact hdigits ⟨n, hlt⟩
  case isFalse =>
    simp only [List.mem_cons, List.not_mem_nil, or_false] at hc
    rcases hc with rfl | rfl
    · exact hdigits ⟨n / 16, by omega⟩
    · exact hdigits ⟨n % 16, by omega⟩

theorem plain_plmnidToHexStr (plmn : List (BitVec 8)) : Cql.Plain (plmnidToHexStr plmn) := by
  intro c hc
  rw [plmnidToHexStr, String.toList_ofList] at hc
  rcases List.mem_append.mp hc with hc | hc
  · rcases List.mem_append.mp hc with hc | hc
    · rcases List.mem_append.mp hc with hc | hc
      · obtain rfl := List.eq_of_mem_replicate hc
        decide
      · exact mem_hexDigits (plmn.getD 0 0).isLt hc
    · exact mem_hexDigits (plmn.getD 1 0).isLt hc
  · exact mem_hexDigits (plmn.getD 2 0).isLt hc

theorem plain_getD {o : Option String} (h : ∀ s ∈ o, Cql.Plain s) {s : String} (hs : Cql.Plain s) :
    Cql.Plain (o.getD s) := by
  cases o with
  | none => exact hs
  | some t => exact h t rfl

theorem Accepted.plain (h : Accepted req d d') (hreq : PlainRequest req)
    (hd : DataAccess.PlainLocation d.new_info) : DataAccess.PlainLocation d'.new_info := by
  obtain ⟨plmn, -, hinfo⟩ := h.info
  rw [hinfo]
  exact ⟨plain_getD hreq.imei hd.imei, plain_getD hreq.software_version hd.imei_sv,
    plain_getD hreq.origin_host hd.mmehost, plain_getD hreq.origin_realm hd.mmerealm,
    plain_plmnidToHexStr plmn⟩

/-- The members of a `DAImsiInfo` that are not initialised. -/
structure Numbers where
  msisdn : Int
  access_restriction : BitVec 32
  mme_id : Int

/-- A `DAImsiInfo` as it is made: its texts are empty. -/
def blankInfo (n : Numbers) : ImsiInfo where
  imsi := ""
  mmehost := ""
  mmerealm := ""
  ms_ps_status := ""
  subscription_data := ""
  msisdn := n.msisdn
  visited_plmnid := ""
  access_restriction := n.access_restriction
  imei := ""
  imei_sv := ""
  mme_id := n.mme_id

theorem plain_empty : Cql.Plain "" := by decide

/-- The information that the checks begin with. -/
theorem plain_start (hreq : PlainRequest req) (n : Numbers) (imsi : String) :
    DataAccess.PlainLocation { blankInfo n with
      imsi := imsi
      mmehost := req.origin_host.getD ""
      mmerealm := req.origin_realm.getD "" } :=
  ⟨plain_empty, plain_empty, plain_getD hreq.origin_host plain_empty,
    plain_getD hreq.origin_realm plain_empty, plain_empty⟩

end OpenairHss.Ulr
