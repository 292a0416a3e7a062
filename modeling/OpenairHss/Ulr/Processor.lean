import OpenairHss.Processor.Machine
import OpenairHss.Ulr.Request
import Mathlib.Data.List.Sort

/-!
# The ULR processor

The statements, result handlers and phases of `ULRProcessor`, as the code of a processor.

Two slips of the source are kept where they are: `getEventIdsExternalIds` completes
`ULRDB_GET_EVNTIDS_MSISDN`, and `m_dbevtissued` is lowered by the event callback although nothing
raises it.  In `phase1` the counter of the first query is raised last.  Reading `m_dbresult` in
`phase4` only decides on a log line and is left out.
-/

namespace OpenairHss.Ulr

open Interact Processor Diameter

/-! ### Statements -/

def getImsiInfoText (imsi : String) : String :=
  "SELECT imsi, mmehost, mmerealm, ms_ps_status, subscription_data, msisdn, visited_plmnid, access_restriction, mmeidentity_idmmeidentity FROM users_imsi where imsi = '"
    ++ imsi ++ "' ;"

def getExtIdsFromImsiText (imsi : String) : String :=
  "SELECT extid FROM extid_imsi_xref WHERE imsi = '" ++ imsi ++ "'"

/-- `DataAccess::getEventIdsFromMsisdn`. -/
def getEventIdsFromMsisdnText (msisdn : Int) : String :=
  "SELECT scef_id, scef_ref_id FROM events_msisdn WHERE msisdn = " ++ toString msisdn
    ++ " order by scef_id, scef_ref_id"

/-- `DataAccess::getEventIdsFromExtIds`. -/
def getEventIdsFromExtIdsText (extids : String) : String :=
  "SELECT scef_id, scef_ref_id FROM events_extid WHERE extid in (" ++ extids ++ ")"

def getEventsText (scef_id : String) (scef_ref_ids : List Nat) : String :=
  "SELECT * FROM events WHERE scef_id = '" ++ scef_id ++ "' AND scef_ref_id = ("
    ++ ",".intercalate (scef_ref_ids.map toString) ++ ")"

def getMmeIdFromHostText (host : String) : String :=
  "SELECT idmmeidentity FROM vhss.mmeidentity_host WHERE mmehost='" ++ host ++ "';"

def updateLocationText (location : ImsiInfo) (present_flags : BitVec 32) (idmmeidentity : Int) :
    String :=
  "UPDATE vhss.users_imsi SET "
    ++ (if flagIsSet present_flags imeiPresent then "imei='" ++ location.imei ++ "'," else "")
    ++ (if flagIsSet present_flags svPresent then "imeisv='" ++ location.imei_sv ++ "'," else "")
    ++ (if flagIsSet present_flags mmeIdentityPresent then
        "mmeidentity_idmmeidentity=" ++ toString idmmeidentity ++ ",mmehost='" ++ location.mmehost
          ++ "',mmerealm='" ++ location.mmerealm ++ "',"
      else "")
    ++ "ms_ps_status='ATTACHED',visited_plmnid='" ++ location.visited_plmnid ++ "' WHERE imsi='"
    ++ location.imsi ++ "';"

/-! ### Vocabulary -/

/-- The actions `ULRDB_*`. -/
inductive Db
  | getImsiInfo
  | getExtIds
  | getEvntidsMsisdn
  | getEvntidsExtids
  | getEvntsEvntids
  | getMmeidHost
  | updateImsi
  deriving DecidableEq

/-- The bits of the actions. -/
def Db.item : Db → BitVec 32
  | .getImsiInfo => 0x00000001
  | .getExtIds => 0x00000002
  | .getEvntidsMsisdn => 0x00000004
  | .getEvntidsExtids => 0x00000008
  | .getEvntsEvntids => 0x00000010
  | .getMmeidHost => 0x00000020
  | .updateImsi => 0x00000040

/-- What a query resolves to: `none` is an error code other than `CASS_OK`. -/
def Db.Fut : Db → Type
  | .getImsiInfo => Option (Option ImsiInfoRow)
  | .getExtIds => Option (List String)
  | .getEvntidsMsisdn | .getEvntidsExtids => Option (List EventId)
  | .getEvntsEvntids => Option (List Event)
  /- The row for the host, if any, and its `idmmeidentity`, if not null. -/
  | .getMmeidHost => Option (Option (Option Int))
  | .updateImsi => Option Unit

/-- The calls of `phase2` and `phase3` that may not return: the queries that wait for their result
may throw, and so may the two that read JSON.  `fdJsonAddAvps` throws for a top-level member that the
dictionary does not know; `addJson` has no function for its errors, so that it calls a null pointer
for a text that is not JSON for AVPs of its group, and for an answer without Subscription-Data. -/
inductive Qry
  | getEventIdsFromExtId (extid : String)
  | getEvent (scef_id : String) (scef_ref_id : Nat)
  | fdJsonAddAvps (json : String)
  | addJson (json : String)

def Qry.Rep : Qry → Type
  | .getEventIdsFromExtId _ => List EventId
  | .getEvent _ _ => Option Event
  | .fdJsonAddAvps _ | .addJson _ => Unit

/-- The vocabulary of `ULRProcessor`; a call is an action and its statement. -/
abbrev kind : Kind where
  Act := Db × String
  Fut := fun a => a.1.Fut
  Qry := Qry
  Rep := Qry.Rep
  Data := Data
  Ans := Ula

def phaseFinal : Nat := 200
def phase1 : Nat := 201
def phase2 : Nat := 202
def phase3 : Nat := 203
def phase4 : Nat := 204
def phase5 : Nat := 205

/-! ### Result handlers -/

/-- `getImsiInfo (future)`.  `getImsiInfoData` throws on an error. -/
def onImsiInfo (fut : Option (Option ImsiInfoRow)) : Proc kind Unit := do
  match fut with
  | none =>
    throwException
  | some none => dbOpComplete Db.getImsiInfo.item false
  | some (some row) =>
    updateData (K := kind) (fun d : Data =>
      { d with orig_info := getImsiInfoData row d.orig_info })
    dbOpComplete Db.getImsiInfo.item true

/-- `getEvents (future)`. -/
def onEvents (fut : Option (List Event)) : Proc kind Unit :=
  completeEvents (K := kind) Db.getEvntsEvntids.item fut.isSome fun d : Data =>
    { d with evtLst := d.evtLst ++ fut.getD [] }

/-- The call of `DataAccess::getEvents` and what follows it: false if the loop is to be left. -/
def issueEvents (scef_id : String) (scef_ref_ids : List Nat) : Proc kind Bool :=
  issueCounted (K := kind) (.getEvntsEvntids, getEventsText scef_id scef_ref_ids) onEvents
    [Db.getEvntsEvntids.item]

/-- The loop of `getEvents ()` over the sorted list, and the call after it. -/
def eventsLoop : List EventId → String → List Nat → Proc kind Unit
  | [], scef_id, scef_ref_ids =>
    if scef_ref_ids.length > 0 then do
      let _ ← issueEvents scef_id scef_ref_ids
      return ()
    else return ()
  | ei :: rest, scef_id, scef_ref_ids =>
    if scef_id ≠ ei.scef_id ∧ scef_ref_ids.length > 0 then do
      let success ← issueEvents scef_id scef_ref_ids
      if success then eventsLoop rest ei.scef_id [ei.scef_ref_id] else return ()
    else eventsLoop rest scef_id (scef_ref_ids ++ [ei.scef_ref_id])

/-- `DAEventIdList::compare`, as an order. -/
def EventId.le (l r : EventId) : Prop :=
  ¬ (r.scef_id < l.scef_id ∨ r.scef_id = l.scef_id ∧ r.scef_ref_id < l.scef_ref_id)

instance : DecidableRel EventId.le := fun l r =>
  inferInstanceAs (Decidable (¬ (r.scef_id < l.scef_id ∨ r.scef_id = l.scef_id ∧
    r.scef_ref_id < l.scef_ref_id)))

def getEvents : Proc kind Unit := do
  let d : Data ← readData (K := kind)
  if d.evtIdLst.length = 0 then dbOpComplete Db.getEvntsEvntids.item true
  else
    updateData (K := kind) (fun d : Data =>
      { d with evtIdLst := d.evtIdLst.insertionSort EventId.le })
    let d : Data ← readData (K := kind)
    eventsLoop d.evtIdLst "" []

/-- The body that `getEventIdsMsisdn` and `getEventIdsExternalIds` share; both complete the item of
the first. -/
def onEventIds (item : BitVec 32) (fut : Option (List EventId)) : Proc kind Unit := do
  enterLst
  updateData (K := kind) (fun d : Data => { d with evtIdLst := d.evtIdLst ++ fut.getD [] })
  dbOpComplete item fut.isSome
  let executed ← readExecuted (K := kind)
  let result ← readResult (K := kind)
  let both := Db.getEvntidsMsisdn.item ||| Db.getEvntidsExtids.item
  let getevents := (executed &&& both) != (0 : BitVec 32) && (result &&& both) != (0 : BitVec 32)
  leaveLst
  if getevents then getEvents else return ()

/-- `getEventIdsMsisdn (future)`. -/
def onEventIdsMsisdn (fut : Option (List EventId)) : Proc kind Unit :=
  onEventIds Db.getEvntidsMsisdn.item fut

/-- `getEventIdsExternalIds (future)`. -/
def onEventIdsExternalIds (fut : Option (List EventId)) : Proc kind Unit :=
  onEventIds Db.getEvntidsMsisdn.item fut

/-- `getExternalIds (future)`. -/
def onExternalIds (fut : Option (List String)) : Proc kind Unit := do
  updateData (K := kind) (fun d : Data => { d with extIdLst := d.extIdLst ++ fut.getD [] })
  dbOpComplete Db.getExtIds.item fut.isSome
  if fut.isSome then
    let d : Data ← readData (K := kind)
    let extids := ",".intercalate (d.extIdLst.map fun extid => "'" ++ extid ++ "'")
    let _ ← issueCounted (K := kind) (.getEvntidsExtids, getEventIdsFromExtIdsText extids)
      onEventIdsExternalIds [Db.getEvntidsExtids.item, Db.getEvntsEvntids.item]
    return ()
  else dbOpComplete Db.getEvntidsExtids.item false

/-- `getMmeIdentity (future)`. -/
def onMmeIdentity (fut : Option (Option (Option Int))) : Proc kind Unit := do
  match fut with
  | some (some id) =>
    updateData (K := kind) (fun d : Data => { d with mmeidentity := id.getD d.mmeidentity })
    dbOpComplete Db.getMmeidHost.item true
  | _ => dbOpComplete Db.getMmeidHost.item false

/-- `updateImsiInfo (future)`. -/
def onUpdate (fut : Option Unit) : Proc kind Unit := dbOpComplete Db.updateImsi.item fut.isSome

/-- The switch of `on_ulr_callback`. -/
def handler : (act : Db × String) → act.1.Fut → Proc kind Unit
  | (.getImsiInfo, _), fut => onImsiInfo fut
  | (.getExtIds, _), fut => onExternalIds fut
  | (.getEvntidsMsisdn, _), fut => onEventIdsMsisdn fut
  | (.getEvntidsExtids, _), fut => onEventIdsExternalIds fut
  | (.getEvntsEvntids, _), fut => onEvents fut
  | (.getMmeidHost, _), fut => onMmeIdentity fut
  | (.updateImsi, _), fut => onUpdate fut

/-! ### Phases -/

/-- The answer with a result, and the end. -/
def reject (r : Rejection) : Proc kind Unit := do
  sendAnswer (K := kind) ⟨r.1 ++ [.result r.2]⟩
  setNextphase phaseFinal

/-- The second query of `phase1`, if the first was issued. -/
def phase1ExtIds (d : Data) : Bool → Proc kind Bool
  | true => issueCounted (K := kind) (.getExtIds, getExtIdsFromImsiText d.new_info.imsi)
      onExternalIds [Db.getExtIds.item, Db.getEvntidsExtids.item, Db.getEvntsEvntids.item]
  | false => do
    dbOpComplete Db.getImsiInfo.item false
    return false

/-- The third query. -/
def phase1EventIds (d : Data) : Bool → Proc kind Bool
  | true => issueCounted (K := kind)
      (.getEvntidsMsisdn, getEventIdsFromMsisdnText d.new_info.msisdn) onEventIdsMsisdn
      [Db.getEvntidsMsisdn.item, Db.getEvntsEvntids.item]
  | false => return false

/-- The fourth query. -/
def phase1MmeId (d : Data) : Bool → Proc kind Bool
  | true => issueCounted (K := kind) (.getMmeidHost, getMmeIdFromHostText d.new_info.mmehost)
      onMmeIdentity [Db.getMmeidHost.item]
  | false => return false

def phase1Body (req : Request) : Proc kind Unit := do
  updateData (K := kind) (fun d : Data =>
    { d with
      ans := d.ans ++ [.origin, .authSessionState (req.auth_session_state.getD req.u32)]
      new_info := { d.new_info with imsi := req.user_name.getD d.new_info.imsi } })
  let d : Data ← readData (K := kind)
  if d.new_info.imsi.length > imsiLength then reject (invalidAvp d)
  else
    updateData (K := kind) (fun d : Data =>
      { d with new_info := { d.new_info with
          mmehost := req.origin_host.getD d.new_info.mmehost
          mmerealm := req.origin_realm.getD d.new_info.mmerealm } })
    let d : Data ← readData (K := kind)
    setNextphase phase2
    let result ← issue (K := kind) (.getImsiInfo, getImsiInfoText d.new_info.imsi) onImsiInfo
    let result ← phase1ExtIds d result
    let result ← phase1EventIds d result
    let result ← phase1MmeId d result
    if result then incDbissued
    else reject (d.ans, .experimental diameterErrorUserUnknown)

/-- The call of `fdJsonAddAvps`, if the checks before it do not reject. -/
def callAddAvps : Except Rejection Data → Proc kind Unit
  | .ok d =>
    if !flagIsSet d.ulrflags ulrSkipSubscriberData then do
      let _ : Unit ← query (K := kind) (Qry.fdJsonAddAvps d.orig_info.subscription_data)
      return ()
    else return ()
  | .error _ => return ()

def phase2Body (json : String → Bool) (req : Request) : Proc kind Unit := do
  let result ← readResult (K := kind)
  let d : Data ← readData (K := kind)
  if (result &&& Db.getImsiInfo.item) = (0 : BitVec 32) then
    reject (d.ans, .experimental diameterErrorUserUnknown)
  else
    callAddAvps (phase2Before req d)
    match phase2Checks json req d with
    | .error r => reject r
    | .ok d' =>
      updateData (K := kind) (fun d : Data =>
        { d with
          ans := d'.ans, new_info := d'.new_info, present_flags := d'.present_flags
          plmn_id := d'.plmn_id, ulrflags := d'.ulrflags })
      setNextphase phase3

/-- The first loop of `phase3`. -/
def askEventIds : List String → Proc kind Unit
  | [] => return ()
  | extid :: rest => do
    let ids : List EventId ← query (K := kind) (Qry.getEventIdsFromExtId extid)
    updateData (K := kind) (fun d : Data => { d with evtIdLst := d.evtIdLst ++ ids })
    askEventIds rest

/-- The second loop of `phase3`. -/
def askEvents : List EventId → Proc kind Unit
  | [] => return ()
  | ei :: rest => do
    let e : Option Event ← query (K := kind) (Qry.getEvent ei.scef_id ei.scef_ref_id)
    updateData (K := kind) (fun d : Data => { d with evtLst := d.evtLst ++ e.toList })
    askEvents rest

/-- The third loop. -/
def addEvents : List Event → Proc kind Unit
  | [] => return ()
  | e :: rest => do
    let _ : Unit ← query (K := kind) (Qry.addJson e.mec_json)
    updateData (K := kind) (fun d : Data => { d with ans := d.ans ++ [.monitoringEvent e.mec_json] })
    addEvents rest

def roamingStatusEvt : Int := 4

/-- The events of the subscriber, put into the answer. -/
def collectEvents (d : Data) : Proc kind Unit :=
  if !flagIsSet d.ulrflags ulrSkipSubscriberData then do
    askEventIds d.extIdLst
    let d : Data ← readData (K := kind)
    askEvents d.evtIdLst
    let d : Data ← readData (K := kind)
    addEvents d.evtLst
  else return ()

/-- The RIRs for a change of the visited PLMN. -/
def reportRoaming (d : Data) : Proc kind Unit :=
  if d.orig_info.ms_ps_status = "ATTACHED" ∧
      d.orig_info.visited_plmnid ≠ d.new_info.visited_plmnid then
    updateData (K := kind) (fun d : Data =>
      { d with rirs := d.rirs ++
          (d.evtLst.filter fun e => e.monitoring_type = roamingStatusEvt).map (·.scef_id) })
  else return ()

def phase3Body : Proc kind Unit := do
  let d : Data ← readData (K := kind)
  collectEvents d
  let d : Data ← readData (K := kind)
  sendAnswer (K := kind) ⟨d.ans ++ [.result (.resultCode erDiameterSuccess)]⟩
  reportRoaming d
  setNextphase phase4

def phase4Body : Proc kind Unit := do
  setNextphase phase5
  updateData (K := kind) (fun d : Data =>
    { d with new_info := { d.new_info with mme_id := d.mmeidentity } })
  let d : Data ← readData (K := kind)
  let success ← issueCounted (K := kind)
    (.updateImsi, updateLocationText d.new_info d.present_flags d.mmeidentity) onUpdate
    [Db.updateImsi.item]
  if success then return () else setNextphase phaseFinal

def phase5Body : Proc kind Unit := setNextphase phaseFinal

/-- The switch of `processNextPhase`. -/
def body (json : String → Bool) (req : Request) (phase : Nat) : Proc kind Unit :=
  if phase = phase1 then phase1Body req
  else if phase = phase2 then phase2Body json req
  else if phase = phase3 then phase3Body
  else if phase = phase4 then phase4Body
  else if phase = phase5 then phase5Body
  else return ()

/-- `phaseReady`. -/
def ready (phase : Nat) (executed : BitVec 32) (d : Data) : Bool :=
  if phase = phase1 then true
  else if phase = phase2 then flagIsSet executed Db.getImsiInfo.item
  else if phase = phase3 then
    flagIsSet d.ulrflags ulrSkipSubscriberData || flagIsSet executed Db.getEvntsEvntids.item
  else if phase = phase4 then flagIsSet executed Db.getMmeidHost.item
  else if phase = phase5 then flagIsSet executed Db.updateImsi.item
  else false

/-- `ULRProcessor` for a request. -/
def code (json : String → Bool) (req : Request) : Code kind where
  final := phaseFinal
  ready := ready
  body := body json req
  handler := handler

/-- The constructor; `orig` and `new` are the memory of the two `DAImsiInfo`, whose strings are
empty. -/
def Data.init (orig new : ImsiInfo) : Data where
  ans := []
  orig_info := orig
  new_info := new
  present_flags := 0
  plmn_id := []
  extIdLst := []
  evtIdLst := []
  evtLst := []
  mmeidentity := -1
  ulrflags := 0
  rirs := []

end OpenairHss.Ulr
