import OpenairHss.Cir.Request
import OpenairHss.FdAvp.Avp
import OpenairHss.Lib.Interact
import OpenairHss.Tbcd.Codec

/-!
# The NIR

`NIIRcmd::process`: the user is given by IMSI, by MSISDN or by external identifier, and the other
identities are put into NIDD-Authorization-Response.

* `Request.userNameBytes_eq`: the IMSI is read into bytes, which a text does not have, so the branch
  for it is never taken.
* `results_niirProcess`: Result-Code with `DIAMETER_SUCCESS` is put into the answer first, and
  `handleGlobalErrorCode` adds a second result at the end, so that no answer carries exactly one.
* `not_msisdn_of_niirProcess`: no answer carries an Msisdn.
* `eval_niirUserCalls`: the request call by call.
* `meets_niirUser`: the calls meet a demand, if those under the IMSIs that are found do.
-/

namespace OpenairHss.Nir

open Cir Diameter Interact
open FdAvp (DiameterDataType FDAvp)

/-! ### Data -/

def msisdnLen : Nat := 10
def imsiLen : Nat := 15

def diameterErrorUserNoApnSubscription : Nat := 5451

structure Request where
  user_name : Option String
  msisdn : Option (List (BitVec 8))
  external_identifier : Option String
  service_selection : Option String
  requested_validity_time : Option String
  origin_host : Option String
  origin_realm : Option String

/-- `FDAvp::get` of an AVP with these octets into a buffer of `len` octets. -/
def getBytes (dataType : DiameterDataType) (octets : List (BitVec 8)) (len : Nat) :
    Option (List (BitVec 8)) :=
  match FDAvp.getBytes ⟨dataType, .os [], some (.os (octets.map .ofBitVec))⟩ len with
  | .ok (some data) => some (data.map UInt8.toBitVec)
  | _ => none

/-- User-Name is a text for the dictionary. -/
def Request.userNameBytes (nir : Request) : Option (List (BitVec 8)) :=
  nir.user_name.bind fun s =>
    getBytes .utf8String (s.toUTF8.data.toList.map UInt8.toBitVec) imsiLen

/-- Msisdn is an octet string for the dictionary. -/
def Request.msisdnBytes (nir : Request) : Option (List (BitVec 8)) :=
  nir.msisdn.bind fun octets => getBytes .octetString octets msisdnLen

/-- **Texts are not read into bytes.** -/
theorem Request.userNameBytes_eq (nir : Request) : nir.userNameBytes = none := by
  unfold Request.userNameBytes
  cases nir.user_name <;> rfl

/-- What the buffers hold if the conversions do not fill them, or write beyond their end. -/
structure Memory where
  imsichar : String
  msisdnchar : String
  msisdntbcd : Nat → BitVec 8

/-- What the request meets in the database: `none` is an exception, `some none` is `false`.
`getMsisdnFromImsi` yields the octets of a `bigint`, a character for each. -/
structure Outcomes where
  getSubDataFromImsi : String → Option (Option String)
  getMsisdnFromImsi : String → Option (Option String)
  getExtIdsFromImsi : String → Option (Option (List String))
  getImsiFromMsisdn : String → Option (Option String)
  getImsiListFromExtId : String → Option (List String)
  updateValidityTime : String → String → Option Unit
  updateNIRDestination : String → String → String → Option Unit
  /-- `fdJsonGetApnValueFromSubData`. -/
  apnValue : String → Option (Option String)

/-- The AVPs of NIDD-Authorization-Response. -/
inductive ResponseAvp
  | msisdn (bytes : List (BitVec 8))
  | externalIdentifier (extid : String)
  | userName (imsi : String)

inductive NiaAvp
  | origin
  | authSessionState (u32 : Nat)
  | result (r : DiamResult)
  | niddAuthorizationResponse (avps : List ResponseAvp)

def results (avps : List NiaAvp) : List DiamResult :=
  avps.filterMap fun
    | .result r => some r
    | _ => none

/-! ### The request -/

/-- `tbcd2str` into a buffer with room for `len` characters and the end. -/
def tbcdInto (len : Nat) (old : String) (bytes : List (BitVec 8)) : String :=
  if (tbcd2str bytes).length ≤ len then String.ofList (tbcd2str bytes) else old

/-- `str2tbcd` of `c_str()` into `msisdntbcd`, all bytes of which are added. -/
def msisdnAvp (mem : Memory) (msisdn : String) : ResponseAvp :=
  .msisdn ((List.range msisdnLen).map fun i =>
    (str2tbcd (Tbcd.cString msisdn.toList)).getD i (mem.msisdntbcd i))

section

variable (out : Outcomes) (nir : Request)

def checkAPNSubscribed (imsi apn : String) : Option Bool := do
  match ← out.getSubDataFromImsi imsi with
  | none => return false
  | some subData =>
    match ← out.apnValue subData with
    | none => return false
    | some apnFromDB => return decide (apn = apnFromDB)

/-- Service-Selection is absent, or subscribed for the IMSI. -/
def apnOk (imsi : String) : Option Bool :=
  match nir.service_selection with
  | none => some true
  | some apn => checkAPNSubscribed out imsi apn

/-- Requested-Validity-Time and the origin are stored; the origin under `imsichar`. -/
def storeValidity (imsi imsichar : String) : Option Unit :=
  match nir.requested_validity_time with
  | none => some ()
  | some time => do
    out.updateValidityTime imsi time
    match nir.origin_host, nir.origin_realm with
    | some host, some realm => out.updateNIRDestination imsichar host realm
    | _, _ => return ()

/-- The AVPs of a user and whether the APN is subscribed. -/
abbrev Found : Type := List NiaAvp × Bool

/-- A user given by IMSI: a branch that is never taken. -/
def byUserName (mem : Memory) (imsichar : String) : Option Found := do
  let ok ← apnOk out nir imsichar
  let response ← (do
    match ← out.getMsisdnFromImsi imsichar with
    | none => return []
    | some msisdn =>
      match ← out.getExtIdsFromImsi imsichar with
      | none => return []
      | some extids =>
        return [NiaAvp.niddAuthorizationResponse
          (msisdnAvp mem msisdn :: extids.map .externalIdentifier)])
  storeValidity out nir imsichar imsichar
  return (response, ok)

/-- A user given by MSISDN. -/
def byMsisdn (mem : Memory) (msisdnchar : String) : Option Found := do
  match ← out.getImsiFromMsisdn msisdnchar with
  | none => return ([], true)
  | some imsi =>
    let ok ← apnOk out nir imsi
    let extids ← out.getExtIdsFromImsi imsi
    storeValidity out nir imsi mem.imsichar
    return ([.niddAuthorizationResponse
      (.userName imsi :: (extids.getD []).map .externalIdentifier)], ok)

/-- The APN for each IMSI of a list. -/
def apnOkAll : List String → Option Bool
  | [] => some true
  | imsi :: imsis => do
    let ok ← apnOk out nir imsi
    let rest ← apnOkAll imsis
    return ok && rest

/-- The AVPs for each IMSI of a list.  They go into a group that is not added to the answer. -/
def groupAll (mem : Memory) : List String → Option (List ResponseAvp)
  | [] => some []
  | imsi :: imsis => do
    let msisdn ← out.getMsisdnFromImsi imsi
    storeValidity out nir imsi mem.imsichar
    let rest ← groupAll mem imsis
    return .userName imsi :: msisdn.toList.map (msisdnAvp mem) ++ rest

/-- A user given by external identifier. -/
def byExternalIdentifier (mem : Memory) (extid : String) : Option Found := do
  let imsis ← out.getImsiListFromExtId extid
  let ok ← apnOkAll out nir imsis
  let _ ← groupAll out nir mem imsis
  return ([], ok)

/-- The AVPs of the user, with the result code and the flag `experimental`. -/
def niirUser (mem : Memory) : Option (List NiaAvp × Nat × Bool) :=
  let code (r : Found) : List NiaAvp × Nat × Bool :=
    if r.2 then (r.1, erDiameterSuccess, false) else (r.1, diameterErrorUserNoApnSubscription, true)
  match nir.userNameBytes, nir.msisdnBytes, nir.external_identifier with
  | some bytes, _, _ => (byUserName out nir mem (tbcdInto imsiLen mem.imsichar bytes)).map code
  | none, some bytes, _ => (byMsisdn out nir mem (tbcdInto msisdnLen mem.msisdnchar bytes)).map code
  | none, none, some extid => (byExternalIdentifier out nir mem extid).map code
  | none, none, none => some ([], diameterErrorUserUnknown, true)

/-- `NIIRcmd::process`: the answer, unless something throws. -/
def niirProcess (mem : Memory) : Option (List NiaAvp) :=
  (niirUser out nir mem).map fun r =>
    [.origin, .authSessionState 1, .result (.resultCode erDiameterSuccess)] ++ r.1
      ++ [.result (handleGlobalErrorCode r.2.1 r.2.2)]

end

/-! ### Its results -/

section

variable {out : Outcomes} {nir : Request} {mem : Memory}

/-- The AVPs of a user are no results. -/
theorem results_byUserName {imsichar : String} {r : Found}
    (h : byUserName out nir mem imsichar = some r) : results r.1 = [] := by
  obtain ⟨ok, -, h⟩ := Option.bind_eq_some_iff.mp h
  obtain ⟨response, hresponse, h⟩ := Option.bind_eq_some_iff.mp h
  obtain ⟨-, -, h⟩ := Option.bind_eq_some_iff.mp h
  obtain rfl := Option.some.inj h
  obtain ⟨msisdn, -, hresponse⟩ := Option.bind_eq_some_iff.mp hresponse
  cases msisdn with
  | none =>
    obtain rfl := Option.some.inj hresponse
    rfl
  | some msisdn =>
    obtain ⟨extids, -, hresponse⟩ := Option.bind_eq_some_iff.mp hresponse
    cases extids with
    | none =>
      obtain rfl := Option.some.inj hresponse
      rfl
    | some extids =>
      obtain rfl := Option.some.inj hresponse
      rfl

theorem results_byMsisdn {msisdnchar : String} {r : Found}
    (h : byMsisdn out nir mem msisdnchar = some r) : results r.1 = [] := by
  obtain ⟨imsi, -, h⟩ := Option.bind_eq_some_iff.mp h
  cases imsi with
  | none =>
    obtain rfl := Option.some.inj h
    rfl
  | some imsi =>
    obtain ⟨ok, -, h⟩ := Option.bind_eq_some_iff.mp h
    obtain ⟨extids, -, h⟩ := Option.bind_eq_some_iff.mp h
    obtain ⟨-, -, h⟩ := Option.bind_eq_some_iff.mp h
    obtain rfl := Option.some.inj h
    rfl

theorem results_byExternalIdentifier {extid : String} {r : Found}
    (h : byExternalIdentifier out nir mem extid = some r) : results r.1 = [] := by
  obtain ⟨imsis, -, h⟩ := Option.bind_eq_some_iff.mp h
  obtain ⟨ok, -, h⟩ := Option.bind_eq_some_iff.mp h
  obtain ⟨-, -, h⟩ := Option.bind_eq_some_iff.mp h
  obtain rfl := Option.some.inj h
  rfl

/-- The AVPs are those of the user. -/
theorem avps_of_code {x : Option Found} {r : List NiaAvp × Nat × Bool}
    (h : x.map (fun r : Found => if r.2 then (r.1, erDiameterSuccess, false)
      else (r.1, diameterErrorUserNoApnSubscription, true)) = some r) :
    ∃ f, x = some f ∧ r.1 = f.1 := by
  obtain ⟨f, hf, rfl⟩ := Option.map_eq_some_iff.mp h
  refine ⟨f, hf, ?_⟩
  split <;> rfl

theorem results_niirUser {r : List NiaAvp × Nat × Bool} (h : niirUser out nir mem = some r) :
    results r.1 = [] := by
  unfold niirUser at h
  split at h
  · obtain ⟨f, hf, hr⟩ := avps_of_code h
    rw [hr, results_byUserName hf]
  · obtain ⟨f, hf, hr⟩ := avps_of_code h
    rw [hr, results_byMsisdn hf]
  · obtain ⟨f, hf, hr⟩ := avps_of_code h
    rw [hr, results_byExternalIdentifier hf]
  · obtain rfl := Option.some.inj h
    rfl

/-- **Every answer to an NIR carries two results.** -/
theorem results_niirProcess {ans : List NiaAvp} (h : niirProcess out nir mem = some ans) :
    ∃ r, results ans = [.resultCode erDiameterSuccess, r] := by
  obtain ⟨r, hr, rfl⟩ := Option.map_eq_some_iff.mp h
  have hfirst : ∀ l, results ([.origin, .authSessionState 1,
      .result (.resultCode erDiameterSuccess)] ++ l) = .resultCode erDiameterSuccess :: results l :=
    fun _ => rfl
  have happend : ∀ l l' : List NiaAvp, results (l ++ l') = results l ++ results l' :=
    fun _ _ => List.filterMap_append
  refine ⟨handleGlobalErrorCode r.2.1 r.2.2, ?_⟩
  rw [List.append_assoc, hfirst, happend, results_niirUser hr]
  rfl

/-! ### Its identities -/

/-- The AVPs of NIDD-Authorization-Response among the AVPs. -/
def identities (avps : List NiaAvp) : List ResponseAvp :=
  avps.flatMap fun
    | .niddAuthorizationResponse l => l
    | _ => []

theorem identities_byMsisdn {msisdnchar : String} {r : Found}
    (h : byMsisdn out nir mem msisdnchar = some r) (bytes : List (BitVec 8)) :
    .msisdn bytes ∉ identities r.1 := by
  obtain ⟨imsi, -, h⟩ := Option.bind_eq_some_iff.mp h
  cases imsi with
  | none =>
    obtain rfl := Option.some.inj h
    exact List.not_mem_nil
  | some imsi =>
    obtain ⟨ok, -, h⟩ := Option.bind_eq_some_iff.mp h
    obtain ⟨extids, -, h⟩ := Option.bind_eq_some_iff.mp h
    obtain ⟨-, -, h⟩ := Option.bind_eq_some_iff.mp h
    obtain rfl := Option.some.inj h
    simp [identities]

/-- **No answer carries an Msisdn**: User-Name is not read, and the group of an external identifier
is not added. -/
theorem not_msisdn_of_niirProcess {ans : List NiaAvp} (h : niirProcess out nir mem = some ans)
    (bytes : List (BitVec 8)) : .msisdn bytes ∉ identities ans := by
  obtain ⟨r, hr, rfl⟩ := Option.map_eq_some_iff.mp h
  have happend : ∀ l, identities ([.origin, .authSessionState 1,
      .result (.resultCode erDiameterSuccess)] ++ l
        ++ [.result (handleGlobalErrorCode r.2.1 r.2.2)]) = identities l := by
    intro l
    simp [identities, List.flatMap_append]
  rw [happend]
  unfold niirUser at hr
  rw [nir.userNameBytes_eq] at hr
  split at hr
  case h_1 huser => exact absurd huser nofun
  case h_2 =>
    obtain ⟨f, hf, hfst⟩ := avps_of_code hr
    rw [hfst]
    exact identities_byMsisdn hf bytes
  case h_3 =>
    obtain ⟨f, hf, hfst⟩ := avps_of_code hr
    obtain ⟨imsis, -, hf⟩ := Option.bind_eq_some_iff.mp hf
    obtain ⟨ok, -, hf⟩ := Option.bind_eq_some_iff.mp hf
    obtain ⟨-, -, hf⟩ := Option.bind_eq_some_iff.mp hf
    obtain rfl := Option.some.inj hf
    rw [hfst]
    exact List.not_mem_nil
  case h_4 =>
    obtain rfl := Option.some.inj hr
    exact List.not_mem_nil

end

/-! ### Query by query -/

/-- The calls of the database; a call with the reply `none` has returned `false`. -/
inductive Query
  | getSubDataFromImsi (imsi : String)
  | getMsisdnFromImsi (imsi : String)
  | getExtIdsFromImsi (imsi : String)
  | getImsiFromMsisdn (msisdn : String)
  | getImsiListFromExtId (extid : String)
  | updateValidityTime (imsi time : String)
  | updateNIRDestination (imsi host realm : String)
  | apnValue (subData : String)

def Query.Rep : Query → Type
  | .getSubDataFromImsi _ | .getMsisdnFromImsi _ | .getImsiFromMsisdn _ | .apnValue _ =>
    Option String
  | .getExtIdsFromImsi _ => Option (List String)
  | .getImsiListFromExtId _ => List String
  | .updateValidityTime _ _ | .updateNIRDestination _ _ _ => Unit

/-- The reply to a call, unless it throws. -/
def Outcomes.reply (out : Outcomes) : (q : Query) → Option q.Rep
  | .getSubDataFromImsi imsi => out.getSubDataFromImsi imsi
  | .getMsisdnFromImsi imsi => out.getMsisdnFromImsi imsi
  | .getExtIdsFromImsi imsi => out.getExtIdsFromImsi imsi
  | .getImsiFromMsisdn msisdn => out.getImsiFromMsisdn msisdn
  | .getImsiListFromExtId extid => out.getImsiListFromExtId extid
  | .updateValidityTime imsi time => out.updateValidityTime imsi time
  | .updateNIRDestination imsi host realm => out.updateNIRDestination imsi host realm
  | .apnValue subData => out.apnValue subData

/-- A part of `process`: other requests may write between its calls. -/
abbrev Calls : Type → Type := Prog Query Query.Rep

def ask (q : Query) : Calls q.Rep := Prog.perform q

section

variable (nir : Request)

def checkAPNSubscribedCalls (imsi apn : String) : Calls Bool := do
  match (← ask (.getSubDataFromImsi imsi) : Option String) with
  | none => return false
  | some subData =>
    match (← ask (.apnValue subData) : Option String) with
    | none => return false
    | some apnFromDB => return decide (apn = apnFromDB)

def apnOkCalls (imsi : String) : Calls Bool :=
  match nir.service_selection with
  | none => return true
  | some apn => checkAPNSubscribedCalls imsi apn

def storeValidityCalls (imsi imsichar : String) : Calls Unit :=
  match nir.requested_validity_time with
  | none => return ()
  | some time => do
    let _ ← ask (.updateValidityTime imsi time)
    match nir.origin_host, nir.origin_realm with
    | some host, some realm =>
      let _ ← ask (.updateNIRDestination imsichar host realm)
      return ()
    | _, _ => return ()

def byUserNameCalls (mem : Memory) (imsichar : String) : Calls Found := do
  let ok ← apnOkCalls nir imsichar
  let response ← (do
    match (← ask (.getMsisdnFromImsi imsichar) : Option String) with
    | none => return []
    | some msisdn =>
      match (← ask (.getExtIdsFromImsi imsichar) : Option (List String)) with
      | none => return []
      | some extids =>
        return [NiaAvp.niddAuthorizationResponse
          (msisdnAvp mem msisdn :: extids.map .externalIdentifier)])
  storeValidityCalls nir imsichar imsichar
  return (response, ok)

def byMsisdnCalls (mem : Memory) (msisdnchar : String) : Calls Found := do
  match (← ask (.getImsiFromMsisdn msisdnchar) : Option String) with
  | none => return ([], true)
  | some imsi =>
    let ok ← apnOkCalls nir imsi
    let extids : Option (List String) ← ask (.getExtIdsFromImsi imsi)
    storeValidityCalls nir imsi mem.imsichar
    return ([.niddAuthorizationResponse
      (.userName imsi :: (extids.getD []).map .externalIdentifier)], ok)

def apnOkAllCalls : List String → Calls Bool
  | [] => return true
  | imsi :: imsis => do
    let ok ← apnOkCalls nir imsi
    let rest ← apnOkAllCalls imsis
    return ok && rest

def groupAllCalls (mem : Memory) : List String → Calls (List ResponseAvp)
  | [] => return []
  | imsi :: imsis => do
    let msisdn : Option String ← ask (.getMsisdnFromImsi imsi)
    storeValidityCalls nir imsi mem.imsichar
    let rest ← groupAllCalls mem imsis
    return .userName imsi :: msisdn.toList.map (msisdnAvp mem) ++ rest

def byExternalIdentifierCalls (mem : Memory) (extid : String) : Calls Found := do
  let imsis : List String ← ask (.getImsiListFromExtId extid)
  let ok ← apnOkAllCalls nir imsis
  let _ ← groupAllCalls nir mem imsis
  return ([], ok)

/-- The user of a request. -/
def niirUserCalls (mem : Memory) : Calls (List NiaAvp × Nat × Bool) :=
  let code (r : Found) : List NiaAvp × Nat × Bool :=
    if r.2 then (r.1, erDiameterSuccess, false) else (r.1, diameterErrorUserNoApnSubscription, true)
  match nir.userNameBytes, nir.msisdnBytes, nir.external_identifier with
  | some bytes, _, _ =>
    (byUserNameCalls nir mem (tbcdInto imsiLen mem.imsichar bytes)).bind fun r => .ret (code r)
  | none, some bytes, _ =>
    (byMsisdnCalls nir mem (tbcdInto msisdnLen mem.msisdnchar bytes)).bind fun r => .ret (code r)
  | none, none, some extid =>
    (byExternalIdentifierCalls nir mem extid).bind fun r => .ret (code r)
  | none, none, none => return ([], diameterErrorUserUnknown, true)

end

section

variable (out : Outcomes) (nir : Request) (mem : Memory)

theorem eval_ask_bind {α : Type} (q : Query) (f : q.Rep → Calls α) :
    ((ask q).bind f).eval out.reply = (out.reply q).bind fun r => (f r).eval out.reply := rfl

theorem eval_checkAPNSubscribedCalls (imsi apn : String) :
    (checkAPNSubscribedCalls imsi apn).eval out.reply = checkAPNSubscribed out imsi apn := by
  unfold checkAPNSubscribedCalls checkAPNSubscribed
  simp only [ask, Prog.bind_eq, Prog.eval_bind, Prog.eval_perform]
  refine congrArg (Option.bind (out.getSubDataFromImsi imsi)) (funext fun subData => ?_)
  cases subData with
  | none => rfl
  | some subData =>
    simp only [Prog.eval_bind, Prog.eval_perform]
    refine congrArg (Option.bind (out.apnValue subData)) (funext fun apnFromDB => ?_)
    cases apnFromDB <;> rfl

theorem eval_apnOkCalls (imsi : String) :
    (apnOkCalls nir imsi).eval out.reply = apnOk out nir imsi := by
  unfold apnOkCalls apnOk
  cases nir.service_selection with
  | none => rfl
  | some apn => exact eval_checkAPNSubscribedCalls out imsi apn

theorem eval_storeValidityCalls (imsi imsichar : String) :
    (storeValidityCalls nir imsi imsichar).eval out.reply = storeValidity out nir imsi imsichar := by
  unfold storeValidityCalls storeValidity
  cases nir.requested_validity_time with
  | none => rfl
  | some time =>
    simp only [ask, Prog.bind_eq, Prog.eval_bind, Prog.eval_perform]
    refine congrArg (Option.bind (out.updateValidityTime imsi time)) (funext fun _ => ?_)
    split
    case h_1 host realm _ _ =>
      simp only [Prog.eval_bind, Prog.eval_perform]
      exact Option.bind_fun_some (out.updateNIRDestination imsichar host realm)
    case h_2 => rfl

theorem eval_byUserNameCalls (imsichar : String) :
    (byUserNameCalls nir mem imsichar).eval out.reply = byUserName out nir mem imsichar := by
  unfold byUserNameCalls byUserName
  simp only [ask, Prog.bind_eq, Prog.eval_bind, Prog.eval_perform, eval_apnOkCalls]
  refine congrArg (Option.bind (apnOk out nir imsichar)) (funext fun ok => ?_)
  refine congrArg₂ Option.bind ?_ (funext fun response => ?_)
  · refine congrArg (Option.bind (out.getMsisdnFromImsi imsichar)) (funext fun msisdn => ?_)
    cases msisdn with
    | none => rfl
    | some msisdn =>
      simp only [Prog.eval_bind, Prog.eval_perform]
      refine congrArg (Option.bind (out.getExtIdsFromImsi imsichar)) (funext fun extids => ?_)
      cases extids <;> rfl
  · rw [eval_storeValidityCalls]
    rfl

theorem eval_byMsisdnCalls (msisdnchar : String) :
    (byMsisdnCalls nir mem msisdnchar).eval out.reply = byMsisdn out nir mem msisdnchar := by
  unfold byMsisdnCalls byMsisdn
  simp only [ask, Prog.bind_eq, Prog.eval_bind, Prog.eval_perform]
  refine congrArg (Option.bind (out.getImsiFromMsisdn msisdnchar)) (funext fun imsi => ?_)
  cases imsi with
  | none => rfl
  | some imsi =>
    simp only [Prog.eval_bind, eval_apnOkCalls]
    refine congrArg (Option.bind (apnOk out nir imsi)) (funext fun ok => ?_)
    refine (eval_ask_bind out (.getExtIdsFromImsi imsi) _).trans ?_
    refine congrArg (Option.bind (out.getExtIdsFromImsi imsi)) (funext fun extids => ?_)
    refine (Prog.eval_bind _ _ _).trans ?_
    rw [eval_storeValidityCalls]
    rfl

theorem eval_apnOkAllCalls (imsis : List String) :
    (apnOkAllCalls nir imsis).eval out.reply = apnOkAll out nir imsis := by
  induction imsis with
  | nil => rfl
  | cons imsi imsis ih =>
    simp only [apnOkAllCalls, apnOkAll, Prog.bind_eq, Prog.eval_bind, eval_apnOkCalls, ih]
    rfl

theorem eval_groupAllCalls (imsis : List String) :
    (groupAllCalls nir mem imsis).eval out.reply = groupAll out nir mem imsis := by
  induction imsis with
  | nil => rfl
  | cons imsi imsis ih =>
    refine (eval_ask_bind out (.getMsisdnFromImsi imsi) _).trans ?_
    refine congrArg (Option.bind (out.getMsisdnFromImsi imsi)) (funext fun msisdn => ?_)
    refine (Prog.eval_bind _ _ _).trans ?_
    rw [eval_storeValidityCalls]
    refine congrArg (Option.bind (storeValidity out nir imsi mem.imsichar)) (funext fun _ => ?_)
    refine (Prog.eval_bind _ _ _).trans ?_
    rw [ih]
    rfl

theorem eval_byExternalIdentifierCalls (extid : String) :
    (byExternalIdentifierCalls nir mem extid).eval out.reply =
      byExternalIdentifier out nir mem extid := by
  refine (eval_ask_bind out (.getImsiListFromExtId extid) _).trans ?_
  refine congrArg (Option.bind (out.getImsiListFromExtId extid)) (funext fun imsis : List String => ?_)
  refine (Prog.eval_bind _ _ _).trans ?_
  rw [eval_apnOkAllCalls]
  refine congrArg (Option.bind (apnOkAll out nir imsis)) (funext fun ok => ?_)
  refine (Prog.eval_bind _ _ _).trans ?_
  rw [eval_groupAllCalls]
  rfl

/-- **The calls one after the other are the request.** -/
theorem eval_niirUserCalls :
    (niirUserCalls nir mem).eval out.reply = niirUser out nir mem := by
  have hmap : ∀ (p : Calls Found) (code : Found → List NiaAvp × Nat × Bool),
      (p.bind fun r => .ret (code r)).eval out.reply = (p.eval out.reply).map code := by
    intro p code
    rw [Prog.eval_bind]
    exact (Option.map_eq_bind (f := code)).symm
  unfold niirUserCalls niirUser
  split
  · rw [hmap, eval_byUserNameCalls]
  · rw [hmap, eval_byMsisdnCalls]
  · rw [hmap, eval_byExternalIdentifierCalls]
  · rfl

end

/-! ### What the calls demand -/

/-- A lookup. -/
def Query.Reads : Query → Prop
  | .updateValidityTime _ _ | .updateNIRDestination _ _ _ => False
  | _ => True

section

variable {demand : Query → Prop} {reads : (q : Query) → q.Rep → Prop} {nir : Request}
  {mem : Memory} {α β : Type}

/-- Calls that meet a demand, as long as the replies are such. -/
def Meets (demand : Query → Prop) (reads : (q : Query) → q.Rep → Prop) (p : Calls α)
    (Q : α → Prop) : Prop :=
  p.wp (fun q g K => demand q ∧ ∀ r, reads q r → K r g) () fun a _ => Q a

theorem meets_ret {a : α} {Q : α → Prop} (h : Q a) : Meets demand reads (.ret a) Q := h

theorem meets_bind {p : Calls α} {f : α → Calls β} {P : α → Prop} {Q : β → Prop}
    (hp : Meets demand reads p P) (hf : ∀ a, P a → Meets demand reads (f a) Q) :
    Meets demand reads (p.bind f) Q := by
  unfold Meets
  rw [Prog.wp_bind]
  refine Prog.wp_mono ?_ (fun a _ ha => hf a ha) hp
  exact fun _ _ _ _ hK h => ⟨h.1, fun r hr => hK _ _ (h.2 r hr)⟩

theorem meets_ask {q : Query} (hq : demand q) : Meets demand reads (ask q) (reads q) :=
  ⟨hq, fun _ hr => hr⟩

theorem meets_storeValidity {imsi imsichar : String}
    (htime : ∀ time, nir.requested_validity_time = some time →
      demand (.updateValidityTime imsi time) ∧
      ∀ host realm, nir.origin_host = some host → nir.origin_realm = some realm →
        demand (.updateNIRDestination imsichar host realm)) :
    Meets demand reads (storeValidityCalls nir imsi imsichar) fun _ => True := by
  unfold storeValidityCalls
  cases htime' : nir.requested_validity_time with
  | none => exact meets_ret trivial
  | some time =>
    obtain ⟨hvalidity, hdestination⟩ := htime time htime'
    refine meets_bind (meets_ask hvalidity) fun _ _ => ?_
    cases hhost : nir.origin_host with
    | none => exact meets_ret trivial
    | some host =>
      cases hrealm : nir.origin_realm with
      | none => exact meets_ret trivial
      | some realm =>
        exact meets_bind (meets_ask (hdestination host realm hhost hrealm)) fun _ _ =>
          meets_ret trivial

/-- The IMSI is found for the user of a request. -/
def Finds (reads : (q : Query) → q.Rep → Prop) (nir : Request) (mem : Memory) (imsi : String) :
    Prop :=
  match nir.msisdnBytes, nir.external_identifier with
  | some bytes, _ =>
    reads (.getImsiFromMsisdn (tbcdInto msisdnLen mem.msisdnchar bytes)) (some imsi)
  | none, some extid =>
    ∃ imsis : List String, reads (.getImsiListFromExtId extid) imsis ∧ imsi ∈ imsis
  | none, none => False

variable (hreads : ∀ q, q.Reads → demand q)

include hreads

theorem meets_apnOk (imsi : String) :
    Meets demand reads (apnOkCalls nir imsi) fun _ => True := by
  unfold apnOkCalls
  split
  · exact meets_ret trivial
  · refine meets_bind (meets_ask (hreads _ trivial)) fun subData _ => ?_
    cases subData with
    | none => exact meets_ret trivial
    | some subData =>
      refine meets_bind (meets_ask (hreads _ trivial)) fun apnFromDB _ => ?_
      cases apnFromDB with
      | none => exact meets_ret trivial
      | some apnFromDB => exact meets_ret trivial

theorem meets_byMsisdn {msisdnchar : String}
    (hstore : ∀ imsi : String, reads (.getImsiFromMsisdn msisdnchar) (some imsi) →
      Meets demand reads (storeValidityCalls nir imsi mem.imsichar) fun _ => True) :
    Meets demand reads (byMsisdnCalls nir mem msisdnchar) fun _ => True := by
  refine meets_bind (meets_ask (hreads _ trivial)) fun imsi himsi => ?_
  cases imsi with
  | none => exact meets_ret trivial
  | some imsi =>
    exact meets_bind (meets_apnOk hreads imsi) fun ok _ =>
      meets_bind (meets_ask (hreads _ trivial)) fun _ _ =>
        meets_bind (hstore imsi himsi) fun _ _ => meets_ret trivial

theorem meets_apnOkAll (imsis : List String) :
    Meets demand reads (apnOkAllCalls nir imsis) fun _ => True := by
  induction imsis with
  | nil => exact meets_ret trivial
  | cons imsi imsis ih =>
    exact meets_bind (meets_apnOk hreads imsi) fun ok _ =>
      meets_bind ih fun rest _ => meets_ret trivial

theorem meets_groupAll (imsis : List String)
    (hstore : ∀ imsi ∈ imsis,
      Meets demand reads (storeValidityCalls nir imsi mem.imsichar) fun _ => True) :
    Meets demand reads (groupAllCalls nir mem imsis) fun _ => True := by
  induction imsis with
  | nil => exact meets_ret trivial
  | cons imsi imsis ih =>
    exact meets_bind (meets_ask (hreads _ trivial)) fun _ _ =>
      meets_bind (hstore imsi List.mem_cons_self) fun _ _ =>
        meets_bind (ih fun i hi => hstore i (List.mem_cons_of_mem _ hi)) fun rest _ =>
          meets_ret trivial

theorem meets_byExternalIdentifier {extid : String}
    (hstore : ∀ imsis : List String, reads (.getImsiListFromExtId extid) imsis → ∀ imsi ∈ imsis,
      Meets demand reads (storeValidityCalls nir imsi mem.imsichar) fun _ => True) :
    Meets demand reads (byExternalIdentifierCalls nir mem extid) fun _ => True := by
  refine meets_bind (meets_ask (hreads _ trivial)) fun imsis himsis => ?_
  exact meets_bind (meets_apnOkAll hreads imsis) fun ok _ =>
    meets_bind (meets_groupAll hreads imsis (hstore imsis himsis)) fun group _ =>
      meets_ret trivial

/-- **The calls of a request** meet a demand that the updates for the IMSIs meet. -/
theorem meets_niirUser (hstore : ∀ imsi, Finds reads nir mem imsi →
      Meets demand reads (storeValidityCalls nir imsi mem.imsichar) fun _ => True) :
    Meets demand reads (niirUserCalls nir mem) fun _ => True := by
  unfold Finds at hstore
  unfold niirUserCalls
  rw [nir.userNameBytes_eq]
  dsimp only
  cases hmsisdn : nir.msisdnBytes with
  | some bytes =>
    rw [hmsisdn] at hstore
    exact meets_bind (meets_byMsisdn hreads hstore) fun _ _ => meets_ret trivial
  | none =>
    rw [hmsisdn] at hstore
    cases hextid : nir.external_identifier with
    | some extid =>
      rw [hextid] at hstore
      refine meets_bind (meets_byExternalIdentifier hreads fun imsis himsis imsi hmem => ?_)
        fun _ _ => meets_ret trivial
      exact hstore imsi ⟨imsis, himsis, hmem⟩
    | none => exact meets_ret trivial

end

end OpenairHss.Nir
