import OpenairHss.Cir.RirBuilder
import OpenairHss.DataAccess.Events
import OpenairHss.Lib.Emit

/-!
# The CIR

`COIRcmd::process` with `processHssDb`, `processSimpleImsi` and `processMultiImsi`, the sender of
the IDR (`sendINSDRreq`) and the handler of its answer (`IDRRreq::processAnswer`).  The code is
written over `Emit`: it sends answers and IDRs, starts a RIR builder and posts messages to it, and any
database call may throw.  The process ends where `fdJsonAddAvps` calls its `errfunc`, which is null
here, and nothing is defined any more where the CIR is used after it has been deleted; both are
`Stop.exited`.

What the code meets outside (the database, the state of the MME's peer, the outcome of sending) is
an argument (`Outcomes`), call by call.  Sending a CIA succeeds.
-/

namespace OpenairHss.Cir

open Diameter
open DataAccess (DAEvent)

/-! ### Data -/

/-- The result that `handleGlobalErrorCode` adds to an answer. -/
def handleGlobalErrorCode (result_code : Nat) (experimental : Bool) : DiamResult :=
  if diameterErrorIsVendor result_code && experimental then .experimental result_code
  else .resultCode result_code

def diameterErrorConfigurationEventStorageNotSuccessful : Nat := 5513
def diameterErrorConfigurationEventNonExistant : Nat := 5514

def groupConfigurationInProgress : Nat := 1

/-- Monitoring-Event-Configuration of the request. -/
structure EventConfiguration where
  scef_id : Option String
  scef_reference_id_for_deletion : List Nat
  scef_reference_id : Option Nat
  maximum_number_of_reports : Option Nat
  monitoring_duration : Option Nat
  monitoring_type : Option Nat
  /-- What `getJson` makes of the AVP. -/
  json : String

structure Request where
  msisdn : Option (List (BitVec 8))
  external_identifier : Option String
  origin_host : Option String
  origin_realm : Option String
  group_reporting_guard_timer : Option Nat
  monitoring_event_configuration : List EventConfiguration
  /-- What `getJson` makes of User-Identifier. -/
  ui_json : String

/-- Monitoring-Event-Config-Status, as `buildCfgStatusAvp` fills it. -/
structure ConfigStatus where
  scef_id : String
  scef_ref_id : Nat
  service_result_code : Nat
  vendor_id : Option Nat

def buildCfgStatusAvp (s : MonitoringConfEventStatus) : ConfigStatus where
  scef_id := s.scef_id
  scef_ref_id := s.scef_ref_id
  service_result_code := s.result
  vendor_id := if s.result ≠ erDiameterSuccess then some vendor3gpp else none

inductive CiaAvp
  | origin
  | authSessionState (u32 : Nat)
  | result (r : DiamResult)
  | ciaFlags (u32 : Nat)
  | monitoringEventConfigStatus (s : ConfigStatus)
  | s6tHssCause (u32 : Nat)

/-- An IDR on its way, with the members of `IDRRreq`.  `group` says that `m_rirbuilder` is not
null. -/
structure Idr where
  imsi : String
  msisdn : String
  mmehost : String
  mmerealm : String
  subscription_data : String
  monitoring_event_configuration : List EventConfiguration
  evt_map : EvenStatusMap
  group : Bool

/-- What the code does to the outside. -/
inductive Effect
  | cia (avps : List CiaAvp)
  | idr (i : Idr)
  /-- `new RIRBuilder (..)`, with the interval of its timer in milliseconds. -/
  | startBuilder (b : RirBuilder) (interval : Option Nat)
  /-- `rir_builder->postMessage (..)`. -/
  | post (m : Msg)

abbrev Code : Type → Type := Emit Effect

/-- The fields of `DAImsiInfo` that are used; they are empty when there is no row. -/
structure ImsiInfo where
  ms_ps_status : String
  mmehost : String
  mmerealm : String
  str_msisdn : String
  subscription_data : String

/-- What one call of `sendINSDRreq` meets. -/
structure IdrOutcome where
  /-- `getImsiInfo`. -/
  info : Option ImsiInfo
  /-- `getState` is `PSOpen`, if it does not throw. -/
  peerOpen : Option Bool
  /-- `createINSDRreq`: the process ends if the subscription data is not read by `fdJsonAddAvps`. -/
  created : Except Stop Unit
  /-- `send` does not throw. -/
  sent : Bool

/-- What a CIR meets: `none` is an exception.  The calls of `processHssDb` are numbered by the
configuration and, for deletions, by the place in its list; the calls of `sendINSDRreq` by the
place of the IMSI. -/
structure Outcomes where
  getImsiFromMsisdn : Int → Option (Option String)
  checkExtIdExists : String → Option Bool
  getImsiListFromExtId : String → Option (List String)
  getEvent : Nat → Nat → Option Bool
  deleteEvent : Nat → Nat → Option Unit
  addEvent : Nat → DAEvent → Option Bool
  idr : Nat → IdrOutcome

/-! ### The database -/

/-- The body of the loop over Scef-Reference-ID-For-Deletion: the status of one deletion.  `found`
is the outcome of `getEvent`, `deleted` that of `deleteEvent`. -/
def deletionStatus (scef_id : String) (scef_ref_id : Nat) (found : Option Bool)
    (deleted : Option Unit) : MonitoringConfEventStatus :=
  let ok : Bool := match found with
    | some true => deleted.isSome
    | _ => false
  let aconf : MonitoringConfEventStatus :=
    { scef_id := scef_id, scef_ref_id := scef_ref_id, is_remove := true }
  -- is_long_evt and !delete_evt_fail go together
  { aconf.forceLongTerm ok with
    result := if ok then erDiameterSuccess else diameterErrorConfigurationEventNonExistant }

/-- The status of an event to be configured, before the database is asked. -/
def configurationStatus (c : EventConfiguration) (scef_ref_id : Nat) : MonitoringConfEventStatus :=
  { scef_id := c.scef_id.getD ""
    scef_ref_id := scef_ref_id
    is_remove := false
    max_nb_reports := c.maximum_number_of_reports.getD 0
    max_nb_reports_set := c.maximum_number_of_reports.isSome
    mon_duration_set := c.monitoring_duration.isSome }

/-- The event that is handed to `addEvent`. -/
def configurationEvent (cir : Request) (msisdn : Int) (c : EventConfiguration) (scef_ref_id : Nat) :
    DAEvent where
  scef_id := c.scef_id.getD ""
  scef_ref_id := scef_ref_id
  msisdn := msisdn
  extid := cir.external_identifier.getD ""
  mec_json := c.json
  ui_json := cir.ui_json
  monitoring_type := c.monitoring_type.getD 0

/-- The status of a configured event: only long term events go to the database. -/
def configured (s : MonitoringConfEventStatus) (added : Option Bool) : MonitoringConfEventStatus :=
  if s.isLongTermEvt then
    { s with
      result := if added = some true then erDiameterSuccess
        else diameterErrorConfigurationEventStorageNotSuccessful }
  else s

/-- One Monitoring-Event-Configuration, number `i`. -/
def processConfiguration (out : Outcomes) (cir : Request) (msisdn : Int) (evt_map : EvenStatusMap)
    (c : EventConfiguration) (i : Nat) : EvenStatusMap :=
  let scef_id := c.scef_id.getD ""
  let evt_map := (c.scef_reference_id_for_deletion.zipIdx).foldl (fun m d =>
    m.insert (toLex (scef_id, d.1))
      (deletionStatus scef_id d.1 (out.getEvent i d.2) (out.deleteEvent i d.2))) evt_map
  match c.scef_reference_id with
  | none => evt_map
  | some ref =>
    evt_map.insert (toLex (scef_id, ref)) (configured (configurationStatus c ref)
      (out.addEvent i (configurationEvent cir msisdn c ref)))

/-- `processHssDb`, into an empty map. -/
def processHssDb (out : Outcomes) (cir : Request) (msisdn : Int) : EvenStatusMap :=
  cir.monitoring_event_configuration.zipIdx.foldl
    (fun m c => processConfiguration out cir msisdn m c.1 c.2) SortedMap.empty

/-! ### The IDR -/

/-- The request that `createINSDRreq` builds. -/
def createINSDRreq (info : ImsiInfo) (cir : Request) (imsi : String) (evt_map : EvenStatusMap)
    (group : Bool) : Idr where
  imsi := imsi
  msisdn := info.str_msisdn
  mmehost := info.mmehost
  mmerealm := info.mmerealm
  subscription_data := info.subscription_data
  monitoring_event_configuration := cir.monitoring_event_configuration
  evt_map := evt_map
  group := group

/-- `Application::sendINSDRreq`; the returned `int` is `true` or `false` or one of `MME_DOWN` and
`IMSI_NOT_ACTIVE`. -/
def sendINSDRreq (o : IdrOutcome) (cir : Request) (imsi : String) (evt_map : EvenStatusMap)
    (group : Bool) : Code Int := do
  let info ← Emit.ask o.info
  let imsi_attached := info.ms_ps_status = "ATTACHED"
  let mme_reachable ← Emit.ask o.peerOpen
  if ¬ imsi_attached ∨ ¬ mme_reachable then
    if !group then
      if ¬ imsi_attached then return imsiNotActive
      return mmeDown
    else
      if ¬ imsi_attached then
        Emit.emit (.post (.mmeResponse ⟨none, imsi, imsiNotActive, info.str_msisdn⟩))
      else
        Emit.emit (.post (.mmeResponse ⟨none, imsi, mmeDown, info.str_msisdn⟩))
      return 1
  else
    Emit.call o.created
    if o.sent then
      Emit.emit (.idr (createINSDRreq info cir imsi evt_map group))
      return 1
    else return 0

/-! ### One IMSI, or a group -/

/-- The CIA of `processSimpleImsi` when the IDR was not sent. -/
def notSentCia (ret : Int) (evt_map : EvenStatusMap) : List CiaAvp :=
  [.origin, .authSessionState 1, .result (.resultCode erDiameterSuccess)]
    ++ evt_map.entries.map (fun e => .monitoringEventConfigStatus (buildCfgStatusAvp
      (if e.2.isLongTermEvt then e.2 else { e.2 with result := diameterUnableToComply })))
    ++ (if ret = imsiNotActive then [.s6tHssCause absentSubscriber] else [])

def processSimpleImsi (out : Outcomes) (cir : Request) (imsi : String) (msisdn : Int) :
    Code Unit := do
  let hss_db_rst := processHssDb out cir msisdn
  let ret ← sendINSDRreq (out.idr 0) cir imsi hss_db_rst false
  if ret = mmeDown ∨ ret = imsiNotActive then
    Emit.emit (.cia (notSentCia ret hss_db_rst))

/-- The loop of `processMultiImsi` over the IMSIs, from number `k` on. -/
def sendAll (out : Outcomes) (cir : Request) (evt_map : EvenStatusMap) :
    Nat → List String → Code Unit
  | _, [] => return ()
  | k, imsi :: imsis => do
    let _ ← sendINSDRreq (out.idr k) cir imsi evt_map true
    sendAll out cir evt_map (k + 1) imsis

def processMultiImsi (out : Outcomes) (cir : Request) (list_imsi : List String) : Code Unit := do
  let hss_db_rst := processHssDb out cir 0
  Emit.emit (.startBuilder (RirBuilder.new list_imsi.length hss_db_rst
    (cir.origin_host.getD "") (cir.origin_realm.getD ""))
    (cir.group_reporting_guard_timer.map (· * 1000)))
  sendAll out cir hss_db_rst 0 list_imsi
  Emit.emit (.cia [.origin, .authSessionState 1, .result (.resultCode erDiameterSuccess),
    .ciaFlags groupConfigurationInProgress])
  Emit.emit (.post .ciaSent)

/-! ### The CIR -/

/-- `std::stoll` on a text without blanks and signs: the longest run of decimal digits at its
head, if there is one and its value fits into 64 bits. -/
def stoll (s : List Char) : Option Int :=
  let digits := s.takeWhile Char.isDigit
  let n : Nat := digits.foldl (fun n c => 10 * n + (c.toNat - 48)) 0
  if digits = [] ∨ n ≥ 2 ^ 63 then none else some n

/-- The user of the CIR, until a helper has taken over (`none`) or the loop is left with a result
code. -/
def coirUser (out : Outcomes) (cir : Request) : Code (Option Nat) :=
  match cir.msisdn with
  | some msisdn => do
    let msisdn64 ← Emit.ask (stoll (tbcd2str msisdn))
    match ← Emit.ask (out.getImsiFromMsisdn msisdn64) with
    | none => return some diameterErrorUserUnknown
    | some imsi => do
      processSimpleImsi out cir imsi msisdn64
      return none
  | none =>
    match cir.external_identifier with
    | some s => do
      if ← Emit.ask (out.checkExtIdExists s) then do
        let list_imsi ← Emit.ask (out.getImsiListFromExtId s)
        processMultiImsi out cir list_imsi
        return none
      else return some diameterErrorUserUnknown
    | none => return some diameterErrorUserUnknown

/-- `COIRcmd::process`. -/
def coirProcess (out : Outcomes) (cir : Request) : Code Unit := do
  match ← Emit.catching (coirUser out cir) (return some diameterErrorUserUnknown) with
  | none => return ()
  | some result_code =>
    -- `experimental` is true wherever the loop is left with a result code
    Emit.emit (.cia [.origin, .authSessionState 1,
      .result (handleGlobalErrorCode result_code true)])

/-! ### The answer to the IDR -/

/-- Monitoring-Event-Config-Status of an IDA; the result code is that of the first Service-Report,
if there is one. -/
structure IdaStatus where
  scef_id : String
  scef_ref_id : Nat
  service_result_code : Option Nat

structure Ida where
  result_code : Option Nat
  experimental_result_code : Option Nat
  monitoring_event_config_status : List IdaStatus

/-- `ida_result_code`. -/
def Ida.code (ida : Ida) : Nat := (ida.result_code <|> ida.experimental_result_code).getD 0

/-- The statuses that the IDA of a single IMSI adds to the CIA: those of the one-shot events.  The
result of an event stays in the map. -/
def oneShotStatuses : List IdaStatus → EvenStatusMap → List CiaAvp
  | [], _ => []
  | st :: sts, evt_map =>
    match evt_map.find? (toLex (st.scef_id, st.scef_ref_id)) with
    | none => oneShotStatuses sts evt_map
    | some s =>
      if s.isLongTermEvt then oneShotStatuses sts evt_map
      else
        let s := { s with result := st.service_result_code.getD s.result }
        .monitoringEventConfigStatus (buildCfgStatusAvp s)
          :: oneShotStatuses sts (evt_map.alter (toLex (st.scef_id, st.scef_ref_id)) fun _ => s)

def singleCia (evt_map : EvenStatusMap) (ida : Ida) : List CiaAvp :=
  let longTerm := evt_map.entries.filter (·.2.isLongTermEvt)
  let oneShot := evt_map.entries.filter (!·.2.isLongTermEvt)
  [.authSessionState 1, .origin, .result (.resultCode erDiameterSuccess)]
    ++ longTerm.map (fun e => .monitoringEventConfigStatus (buildCfgStatusAvp e.2))
    ++ (if ida.code = erDiameterSuccess then
          oneShotStatuses ida.monitoring_event_config_status evt_map
        else
          oneShot.map (fun e => .monitoringEventConfigStatus (buildCfgStatusAvp
            { e.2 with result := diameterErrorUserUnknown }))
            ++ [.s6tHssCause absentSubscriber])

/-- `mme_response`. -/
def mmeResponseMap (sts : List IdaStatus) : EvenStatusMap :=
  sts.foldl (fun m st => m.insert (toLex (st.scef_id, st.scef_ref_id))
    { scef_id := st.scef_id, scef_ref_id := st.scef_ref_id, is_remove := false,
      result := st.service_result_code.getD 0 }) SortedMap.empty

/-- `IDRRreq::processAnswer`: it begins with an answer to `cir_req`, which may have been deleted. -/
def processAnswer (idr : Idr) (ida : Ida) (deleted : Bool) : Code Unit := do
  Emit.call (if deleted then .error .exited else .ok ())
  if !idr.group then Emit.emit (.cia (singleCia idr.evt_map ida))
  else if ida.code = erDiameterSuccess then
    Emit.emit (.post (.mmeResponse
      ⟨some (mmeResponseMap ida.monitoring_event_config_status), idr.imsi, 0, idr.msisdn⟩))
  else Emit.emit (.post (.mmeResponse ⟨none, idr.imsi, mmeDown, idr.msisdn⟩))

end OpenairHss.Cir
