import OpenairHss.Diameter
import Mathlib.Data.BitVec
import Mathlib.Data.List.Basic

/-!
# The ULR and its checks

The data of a `ULRProcessor` and the checks of `ULRProcessor::phase2`, in the order of the source.
A `std::string` is a `String` with one character a byte.  An AVP of the request is an `Option`; a
`get` on an absent one leaves its target as it was, which for the local `u32` of a phase is
uninitialised memory (`Request.u32`).

`fdJsonAddAvps` reads the subscription data with a JSON library and the Diameter dictionary; here
it is a parameter `json : String → Bool`, true when it returns 0.  It may also throw, which is the
matter of the processor.
-/

namespace OpenairHss.Ulr

open Diameter

/-! ### Constants -/

def imeiLength : Nat := 15
def svLength : Nat := 2

def vendor3gpp : BitVec 32 := 10415

def ulrSingleRegistrationInd : BitVec 32 := 1#32
def ulrS6aS6dIndicator : BitVec 32 := 1#32 <<< 1
def ulrSkipSubscriberData : BitVec 32 := 1#32 <<< 2
def ulrNodeTypeInd : BitVec 32 := 1#32 <<< 4
def ulrInitialAttachInd : BitVec 32 := 1#32 <<< 5

def eUtranNotAllowed : BitVec 32 := 1#32 <<< 4

def mmeIdentityPresent : BitVec 32 := 1#32
def mmeSupportedFeaturesPresent : BitVec 32 := 1#32 <<< 1
def imeiPresent : BitVec 32 := 1#32 <<< 2
def svPresent : BitVec 32 := 1#32 <<< 3
def ueSrvccPresent : BitVec 32 := 1#32 <<< 4

def flagIsSet (x flag : BitVec 32) : Bool := x &&& flag != 0

def ulrPadValid (x : BitVec 32) : Bool := x &&& ~~~0x01ff#32 == 0

/-! ### Data -/

/-- The fields of `DAImsiInfo` that are used. -/
structure ImsiInfo where
  imsi : String
  mmehost : String
  mmerealm : String
  ms_ps_status : String
  subscription_data : String
  msisdn : Int
  visited_plmnid : String
  access_restriction : BitVec 32
  imei : String
  imei_sv : String
  mme_id : Int

/-- The columns that `getImsiInfo` selects. -/
structure ImsiInfoRow where
  imsi : Option String
  mmehost : Option String
  mmerealm : Option String
  ms_ps_status : Option String
  subscription_data : Option String
  msisdn : Option Int
  visited_plmnid : Option String
  access_restriction : Option (BitVec 32)
  mmeidentity_idmmeidentity : Option Int

/-- `getImsiInfoData` on a row: a null column leaves the field as it was. -/
def getImsiInfoData (row : ImsiInfoRow) (info : ImsiInfo) : ImsiInfo :=
  { info with
    imsi := row.imsi.getD info.imsi
    mmehost := row.mmehost.getD info.mmehost
    mmerealm := row.mmerealm.getD info.mmerealm
    ms_ps_status := row.ms_ps_status.getD info.ms_ps_status
    subscription_data := row.subscription_data.getD info.subscription_data
    msisdn := row.msisdn.getD info.msisdn
    visited_plmnid := row.visited_plmnid.getD info.visited_plmnid
    access_restriction := row.access_restriction.getD info.access_restriction
    mme_id := row.mmeidentity_idmmeidentity.getD info.mme_id }

/-- `DAEventId`. -/
structure EventId where
  scef_id : String
  scef_ref_id : Nat
  deriving DecidableEq

/-- The fields of `DAEvent` that are used. -/
structure Event where
  scef_id : String
  monitoring_type : Int
  mec_json : String

/-- The AVPs that the phases put into the answer.  `subscriptionData` is what `fdJsonAddAvps` makes
of a text, `monitoringEvent` what `addJson` puts into Subscription-Data. -/
inductive UlaAvp
  | origin
  | authSessionState (u32 : BitVec 32)
  | supportedFeatures (featureList : BitVec 32)
  | ulaFlags (u32 : BitVec 32)
  | subscriptionData (json : String)
  | monitoringEvent (json : String)
  | result (r : DiamResult)

/-- An answer that was sent. -/
structure Ula where
  avps : List UlaAvp

/-- The result that was added last. -/
def Ula.result (a : Ula) : DiamResult :=
  match a.avps.getLast? with
  | some (.result r) => r
  | _ => .resultCode 0

@[simp] theorem Ula.result_append (avps : List UlaAvp) (r : DiamResult) :
    (Ula.mk (avps ++ [.result r])).result = r := by
  rw [Ula.result, List.getLast?_append_cons]
  rfl

/-- Supported-Features of the request. -/
structure SupportedFeatures where
  vendor_id : Option (BitVec 32)
  feature_list_id : Option (BitVec 32)
  feature_list : Option (BitVec 32)

structure Request where
  auth_session_state : Option (BitVec 32)
  user_name : Option String
  origin_host : Option String
  origin_realm : Option String
  rat_type : Option (BitVec 32)
  ulr_flags : Option (BitVec 32)
  visited_plmn_id : Option (List (BitVec 8))
  imei : Option String
  software_version : Option String
  tgpp2_meid : Option String
  ue_srvcc_capability : Option (BitVec 32)
  supported_features : List SupportedFeatures
  /-- The content of the uninitialised local `u32`. -/
  u32 : BitVec 32

/-- The members of `ULRProcessor` that hold data. -/
structure Data where
  ans : List UlaAvp
  orig_info : ImsiInfo
  new_info : ImsiInfo
  present_flags : BitVec 32
  plmn_id : List (BitVec 8)
  extIdLst : List String
  evtIdLst : List EventId
  evtLst : List Event
  mmeidentity : Int
  ulrflags : BitVec 32
  /-- The SCEFs to which a RIR was sent. -/
  rirs : List String

/-! ### Phase 2 -/

/-- The upper case hexadecimal digits of a number below 256, without leading zero. -/
def hexDigits (n : Nat) : List Char :=
  let digit := fun d : Nat => "0123456789ABCDEF".toList.getD d '0'
  if n < 16 then [digit n] else [digit (n / 16), digit (n % 16)]

/-- `PLMNID_TO_HEX_STR`.  `setw (2)` is used up by the first byte, so only that is padded. -/
def plmnidToHexStr (plmnid : List (BitVec 8)) : String :=
  let b := fun i => (plmnid.getD i 0).toNat
  let first := hexDigits (b 0)
  String.ofList (List.replicate (2 - first.length) '0' ++ first ++ hexDigits (b 1) ++ hexDigits (b 2))

/-- The loop over Supported-Features, with the local `u32` it reuses. -/
def supportedFeatures : List SupportedFeatures → BitVec 32 → Data → BitVec 32 × Data
  | [], u32, d => (u32, d)
  | f :: fs, u32, d =>
    let u32 := f.vendor_id.getD u32
    if u32 = vendor3gpp then
      let u32 := f.feature_list.getD u32
      let d := { d with present_flags := d.present_flags ||| mmeSupportedFeaturesPresent }
      let u32 := f.feature_list_id.getD u32
      if u32 = 2 then
        let u32 := f.feature_list.getD u32
        supportedFeatures fs u32 { d with ans := d.ans ++ [.supportedFeatures u32] }
      else supportedFeatures fs u32 d
    else supportedFeatures fs u32 d

/-- A rejection: the answer so far, and the result that is added to it. -/
abbrev Rejection : Type := List UlaAvp × DiamResult

def invalidAvp (d : Data) : Rejection := (d.ans, .resultCode erDiameterInvalidAvpValue)

def unknownServingNode (d : Data) : Rejection :=
  (d.ans, .experimental diameterErrorUnknownServingNode)

/-- The checks of the flags and of the serving node. -/
def checkFlags (u32 : BitVec 32) (d : Data) : Except Rejection Data :=
  if flagIsSet u32 ulrSingleRegistrationInd then .error (invalidAvp d)
  else if !flagIsSet u32 ulrS6aS6dIndicator then .error (invalidAvp d)
  else if flagIsSet u32 ulrNodeTypeInd then .error (invalidAvp d)
  else if flagIsSet u32 ulrInitialAttachInd then
    .ok { d with present_flags := d.present_flags ||| mmeIdentityPresent }
  else if d.orig_info.mmehost ≠ "" ∧ d.orig_info.mmerealm ≠ "" then
    if d.orig_info.mmehost ≠ d.new_info.mmehost then .error (unknownServingNode d)
    else if d.orig_info.mmerealm ≠ d.new_info.mmerealm then .error (unknownServingNode d)
    else .ok d
  else .error (unknownServingNode d)

/-- Visited-PLMN-Id: it has to fit into the four bytes of `m_plmn_id` and to have three. -/
def checkPlmn (req : Request) (d : Data) : Except Rejection Data :=
  match req.visited_plmn_id with
  | none => .error (invalidAvp d)
  | some plmn =>
    if plmn.length > 4 then .error (invalidAvp d)
    else if plmn.length ≠ 3 then .error (invalidAvp d)
    else .ok { d with
      plmn_id := plmn
      new_info := { d.new_info with visited_plmnid := plmnidToHexStr plmn } }

/-- IMEI in Terminal-Information. -/
def checkImei (req : Request) (d : Data) : Except Rejection Data :=
  match req.imei with
  | none => .ok d
  | some imei =>
    if imei.length > imeiLength then .error (invalidAvp d)
    else .ok { d with
      new_info := { d.new_info with imei := imei }
      present_flags := d.present_flags ||| imeiPresent }

/-- Software-Version in Terminal-Information. -/
def checkSoftwareVersion (req : Request) (d : Data) : Except Rejection Data :=
  match req.software_version with
  | none => .ok d
  | some imei_sv =>
    if imei_sv.length ≠ svLength then .error (invalidAvp d)
    else .ok { d with
      new_info := { d.new_info with imei_sv := imei_sv }
      present_flags := d.present_flags ||| svPresent }

/-- Terminal-Information. -/
def checkTerminal (req : Request) (d : Data) : Except Rejection Data := do
  let d ← checkImei req d
  let d ← checkSoftwareVersion req d
  if req.tgpp2_meid.isSome then .error (invalidAvp d) else .ok d

/-- UE-SRVCC-Capability, Supported-Features and ULA-Flags; `u32` is what the local variable holds. -/
def addFeatures (req : Request) (u32 : BitVec 32) (d : Data) : Data :=
  let d := if req.ue_srvcc_capability.isSome then
      { d with present_flags := d.present_flags ||| ueSrvccPresent }
    else d
  let u32 := req.ue_srvcc_capability.getD u32
  let d := (supportedFeatures req.supported_features u32 d).2
  { d with ans := d.ans ++ [.ulaFlags 1], ulrflags := req.ulr_flags.getD d.ulrflags }

/-- Subscription-Data, unless it is to be skipped: `json` is whether `fdJsonAddAvps` returns 0, if it
returns (`callAddAvps`).  What was added before an error stays. -/
def addSubscriptionData (json : String → Bool) (d : Data) : Except Rejection Data :=
  if !flagIsSet d.ulrflags ulrSkipSubscriberData then
    if !json d.orig_info.subscription_data then
      .error (d.ans ++ [.subscriptionData d.orig_info.subscription_data],
        .experimental diameterErrorUnknownEpsSubscription)
    else .ok { d with ans := d.ans ++ [.subscriptionData d.orig_info.subscription_data] }
  else .ok d

/-- `ULRProcessor::phase2` from the test of `m_dbresult` to Subscription-Data. -/
def phase2Before (req : Request) (d : Data) : Except Rejection Data :=
  let d := { d with
    new_info := { d.new_info with
      mmehost := req.origin_host.getD d.new_info.mmehost
      mmerealm := req.origin_realm.getD d.new_info.mmerealm } }
  let u32 := req.rat_type.getD req.u32
  if u32 ≠ 1004 ∨ flagIsSet d.orig_info.access_restriction eUtranNotAllowed then
    .error (d.ans, .resultCode diameterErrorRatNotAllowed)
  else do
    let u32 := req.ulr_flags.getD u32
    let d ← checkFlags u32 d
    if !ulrPadValid u32 then .error (invalidAvp d)
    else do
      let d ← checkPlmn req d
      let d ← checkTerminal req d
      return addFeatures req u32 d

/-- `ULRProcessor::phase2` after the test of `m_dbresult`. -/
def phase2Checks (json : String → Bool) (req : Request) (d : Data) : Except Rejection Data := do
  let d ← phase2Before req d
  addSubscriptionData json d

end OpenairHss.Ulr
