import OpenairHss.Ulr.Checks
import OpenairHss.Ulr.Processor

/-!
# A ULR with the outcomes of its queries

`Outcomes` fixes what every query of a ULR comes to, and leaves open when and in which thread.
From these and the request follow the data that `phase2` sees (`Scene.data2`), and the result that
a ULR should be answered with (`Scene.expected`).
-/

namespace OpenairHss.Ulr

open Processor Diameter

/-- What the queries of a ULR come to, and which of them cannot be issued.  All but the queries for
events are made at most once. -/
structure Outcomes where
  imsi : Option (Option ImsiInfoRow)
  extIds : Option (List String)
  eventIdsMsisdn : Option (List EventId)
  eventIdsExtIds : Option (List EventId)
  events : String → Option (List Event)
  mme : Option (Option (Option Int))
  update : Option Unit
  fails : Db → Bool
  eventsFail : String → Bool

namespace Outcomes

def db (o : Outcomes) : (act : Db × String) → act.1.Fut
  | (.getImsiInfo, _) => o.imsi
  | (.getExtIds, _) => o.extIds
  | (.getEvntidsMsisdn, _) => o.eventIdsMsisdn
  | (.getEvntidsExtids, _) => o.eventIdsExtIds
  | (.getEvntsEvntids, stmt) => o.events stmt
  | (.getMmeidHost, _) => o.mme
  | (.updateImsi, _) => o.update

/-- The call cannot be issued. -/
def failed (o : Outcomes) : Db × String → Bool
  | (.getEvntsEvntids, stmt) => o.eventsFail stmt
  | (db, _) => o.fails db

/-- A database with these outcomes. -/
def Agrees (o : Outcomes) (e : Env kind) : Prop :=
  (∀ act, e.db act = o.db act) ∧ ∀ act, e.reg act = .failed ↔ o.failed act = true

/-- The queries of `phase1`. -/
def phase1Dbs : List Db := [.getImsiInfo, .getExtIds, .getEvntidsMsisdn, .getMmeidHost]

/-- The queries of `phase1` can be issued. -/
def issued (o : Outcomes) : Bool := phase1Dbs.all fun db => !o.fails db

/-- The subscriber is known. -/
def found (o : Outcomes) : Bool := (o.imsi.getD none).isSome

theorem row_of_found {o : Outcomes} (h : o.found = true) : ∃ row, o.imsi = some (some row) := by
  obtain ⟨row, hrow⟩ := Option.isSome_iff_exists.mp h
  cases himsi : o.imsi with
  | none =>
    rw [himsi] at hrow
    exact absurd hrow nofun
  | some row? =>
    rw [himsi] at hrow
    exact ⟨row, congrArg some hrow⟩

/-- The replies that are possible. -/
theorem reg_cases {o : Outcomes} {e : Env kind} {c : Core kind} {act : Db × String}
    {r : Reg act.1.Fut} (h : o.Agrees e) (hr : e.reply c (.register act) = some r) :
    (r = .failed ∧ o.failed act = true) ∨ (r = .registered ∧ o.failed act = false) ∨
      r = .immediate (o.db act) ∧ o.failed act = false := by
  have hf := h.2 act
  obtain rfl := Option.some.inj hr
  cases hk : e.reg act with
  | failed => exact Or.inl ⟨rfl, hf.mp hk⟩
  | async =>
    rw [hk] at hf
    exact Or.inr (Or.inl ⟨rfl, Bool.eq_false_iff.mpr fun h => nomatch hf.mpr h⟩)
  | inline =>
    rw [hk] at hf
    exact Or.inr (Or.inr ⟨by rw [← h.1 act], Bool.eq_false_iff.mpr fun h => nomatch hf.mpr h⟩)

end Outcomes

/-! ### What `phase2` reads -/

/-- The members that only the worker writes, the answer apart. -/
structure View where
  new_info : ImsiInfo
  present_flags : BitVec 32
  plmn_id : List (BitVec 8)
  ulrflags : BitVec 32

def Data.view (d : Data) : View := ⟨d.new_info, d.present_flags, d.plmn_id, d.ulrflags⟩

/-- Data that agree on what `phase2` reads. -/
def Same (d d' : Data) : Prop := d.orig_info = d'.orig_info ∧ d.view = d'.view

/-- Two outcomes of checks that agree up to the answer and the members of other threads. -/
inductive SameOutcome : Except Rejection Data → Except Rejection Data → Prop
  | error {r r' : Rejection} (h : r.2 = r'.2) : SameOutcome (.error r) (.error r')
  | ok {d d' : Data} (h : Same d d') : SameOutcome (.ok d) (.ok d')

theorem SameOutcome.bind {x y : Except Rejection Data} {f : Data → Except Rejection Data}
    (h : SameOutcome x y) (hf : ∀ d d', Same d d' → SameOutcome (f d) (f d')) :
    SameOutcome (x >>= f) (y >>= f) := by
  cases h with
  | error h => exact .error h
  | ok h => exact hf _ _ h

section Checks

variable {d d' : Data}

theorem Same.fields (h : Same d d') :
    d.orig_info = d'.orig_info ∧ d.new_info = d'.new_info ∧ d.present_flags = d'.present_flags ∧
      d.plmn_id = d'.plmn_id ∧ d.ulrflags = d'.ulrflags := by
  obtain ⟨ho, hv⟩ := h
  obtain ⟨h1, h2, h3, h4⟩ := View.mk.inj hv
  exact ⟨ho, h1, h2, h3, h4⟩

theorem checkFlags_same (u32 : BitVec 32) (h : Same d d') :
    SameOutcome (checkFlags u32 d) (checkFlags u32 d') := by
  obtain ⟨ho, hn, hp, hm, hu⟩ := h.fields
  unfold checkFlags
  simp only [ho, hn]
  split_ifs
  all_goals first
    | exact .error rfl
    | exact .ok h
    | exact .ok ⟨rfl, by simp only [Data.view, hp, hm, hu]⟩

theorem checkPlmn_same (req : Request) (h : Same d d') :
    SameOutcome (checkPlmn req d) (checkPlmn req d') := by
  obtain ⟨ho, hn, hp, hm, hu⟩ := h.fields
  unfold checkPlmn
  split
  · exact .error rfl
  split_ifs
  · exact .error rfl
  · exact .error rfl
  · exact .ok ⟨ho, by simp only [Data.view, hn, hp, hu]⟩

theorem checkImei_same (req : Request) (h : Same d d') :
    SameOutcome (checkImei req d) (checkImei req d') := by
  obtain ⟨ho, hn, hp, hm, hu⟩ := h.fields
  unfold checkImei
  split
  · exact .ok h
  split_ifs
  · exact .error rfl
  · exact .ok ⟨ho, by simp only [Data.view, hn, hp, hm, hu]⟩

theorem checkSoftwareVersion_same (req : Request) (h : Same d d') :
    SameOutcome (checkSoftwareVersion req d) (checkSoftwareVersion req d') := by
  obtain ⟨ho, hn, hp, hm, hu⟩ := h.fields
  unfold checkSoftwareVersion
  split
  · exact .ok h
  split_ifs
  · exact .error rfl
  · exact .ok ⟨ho, by simp only [Data.view, hn, hp, hm, hu]⟩

theorem checkTerminal_same (req : Request) (h : Same d d') :
    SameOutcome (checkTerminal req d) (checkTerminal req d') := by
  refine SameOutcome.bind (checkImei_same req h) fun d d' h =>
    SameOutcome.bind (checkSoftwareVersion_same req h) fun d d' h => ?_
  split_ifs
  · exact .error rfl
  · exact .ok h

theorem supportedFeatures_same : ∀ (fs : List SupportedFeatures) (u32 : BitVec 32) {d d' : Data},
    Same d d' → Same (supportedFeatures fs u32 d).2 (supportedFeatures fs u32 d').2
  | [], _, _, _, h => h
  | f :: fs, u32, d, d', h => by
    obtain ⟨ho, hn, hp, hm, hu⟩ := h.fields
    unfold supportedFeatures
    simp only
    split_ifs
    · exact supportedFeatures_same fs _ ⟨ho, by simp only [Data.view, hn, hp, hm, hu]⟩
    · exact supportedFeatures_same fs _ ⟨ho, by simp only [Data.view, hn, hp, hm, hu]⟩
    · exact supportedFeatures_same fs _ h

theorem addFeatures_same (req : Request) (u32 : BitVec 32) (h : Same d d') :
    Same (addFeatures req u32 d) (addFeatures req u32 d') := by
  have hif : Same (if req.ue_srvcc_capability.isSome then
        { d with present_flags := d.present_flags ||| ueSrvccPresent } else d)
      (if req.ue_srvcc_capability.isSome then
        { d' with present_flags := d'.present_flags ||| ueSrvccPresent } else d') := by
    obtain ⟨ho, hn, hp, hm, hu⟩ := h.fields
    split_ifs
    · exact ⟨ho, by simp only [Data.view, hn, hp, hm, hu]⟩
    · exact h
  have hs := supportedFeatures_same req.supported_features (req.ue_srvcc_capability.getD u32) hif
  obtain ⟨ho, hn, hp, hm, hu⟩ := hs.fields
  exact ⟨ho, by simp only [addFeatures, Data.view, hn, hp, hm, hu]⟩

theorem addSubscriptionData_same (json : String → Bool) (h : Same d d') :
    SameOutcome (addSubscriptionData json d) (addSubscriptionData json d') := by
  obtain ⟨ho, hn, hp, hm, hu⟩ := h.fields
  unfold addSubscriptionData
  rw [ho, hu]
  split_ifs
  · exact .error rfl
  · exact .ok ⟨rfl, by simp only [Data.view, hn, hp, hm]⟩
  · exact .ok h

theorem phase2Before_same (req : Request) (h : Same d d') :
    SameOutcome (phase2Before req d) (phase2Before req d') := by
  obtain ⟨ho, hn, hp, hm, hu⟩ := h.fields
  unfold phase2Before
  simp only [ho]
  split_ifs
  · exact .error rfl
  · refine SameOutcome.bind (checkFlags_same _ ⟨rfl, by simp only [Data.view, hn, hp, hm, hu]⟩)
      fun d d' h => ?_
    exact .error rfl
  · refine SameOutcome.bind (checkFlags_same _ ⟨rfl, by simp only [Data.view, hn, hp, hm, hu]⟩)
      fun d d' h => ?_
    exact SameOutcome.bind (checkPlmn_same req h) fun d d' h =>
      SameOutcome.bind (checkTerminal_same req h) fun d d' h => .ok (addFeatures_same req _ h)

/-- **The checks of `phase2` read nothing that another thread writes**, apart from the row of the
subscriber. -/
theorem phase2Checks_same (json : String → Bool) (req : Request) (h : Same d d') :
    SameOutcome (phase2Checks json req d) (phase2Checks json req d') :=
  SameOutcome.bind (phase2Before_same req h) fun _ _ h => addSubscriptionData_same json h

end Checks

/-! ### No rejection is a success -/

/-- An outcome that is not a rejection with the code for success. -/
def NoFalseSuccess (x : Except Rejection Data) : Prop :=
  ∀ r, x = .error r → r.2 ≠ .resultCode erDiameterSuccess

theorem phase2Checks_noFalseSuccess (json : String → Bool) (req : Request) (d : Data) :
    NoFalseSuccess (phase2Checks json req d) := by
  intro r hr
  have hchecks := phase2Checks_checked json req d
  rw [hr] at hchecks
  exact hchecks.2

/-! ### A ULR -/

/-- A ULR: the request, the data its processor begins with, and what its queries come to. -/
structure Scene where
  json : String → Bool
  req : Request
  start : Data
  outcomes : Outcomes

namespace Scene

variable (S : Scene)

/-- The data after the checks of `phase1`. -/
def data1 : Data :=
  { S.start with
    ans := S.start.ans ++ [.origin, .authSessionState (S.req.auth_session_state.getD S.req.u32)]
    new_info := { S.start.new_info with
      imsi := S.req.user_name.getD S.start.new_info.imsi
      mmehost := S.req.origin_host.getD S.start.new_info.mmehost
      mmerealm := S.req.origin_realm.getD S.start.new_info.mmerealm } }

/-- `phase1` rejects the ULR. -/
def tooLong : Bool := decide (S.data1.new_info.imsi.length > imsiLength)

/-- `m_orig_info` with the row of the subscriber. -/
def orig : ImsiInfo := match S.outcomes.imsi with
  | some (some row) => getImsiInfoData row S.start.orig_info
  | _ => S.start.orig_info

/-- The data that `phase2` sees. -/
def data2 : Data := { S.data1 with orig_info := S.orig }

/-- `m_mmeidentity` after the query for it. -/
def mme : Int := match S.outcomes.mme with
  | some (some id) => id.getD S.start.mmeidentity
  | _ => S.start.mmeidentity

/-- `phase2` is reached and accepts the ULR with these data. -/
structure Accepts (d : Data) : Prop where
  short : S.tooLong = false
  issued : S.outcomes.issued = true
  found : S.outcomes.found = true
  checks : phase2Checks S.json S.req S.data2 = .ok d

/-- The result that the ULR should be answered with. -/
def expected : DiamResult :=
  if S.tooLong then .resultCode erDiameterInvalidAvpValue
  else if S.outcomes.issued && S.outcomes.found then
    match phase2Checks S.json S.req S.data2 with
    | .error r => r.2
    | .ok _ => .resultCode erDiameterSuccess
  else .experimental diameterErrorUserUnknown

theorem Accepts.expected {S : Scene} {d : Data} (h : S.Accepts d) :
    S.expected = .resultCode erDiameterSuccess := by
  simp [Scene.expected, h.short, h.issued, h.found, h.checks]

/-- The update that a ULR accepted with these data makes. -/
def updateText (d : Data) : String := updateLocationText d.new_info d.present_flags S.mme

end Scene

end OpenairHss.Ulr
