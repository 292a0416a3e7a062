import OpenairHss.DataAccess.Schema
import OpenairHss.Processor.Owned
import OpenairHss.Requests.Order
import OpenairHss.Ulr.Rule

/-!
# The monitoring events in a ULA

What the tables hold is a `Content`.  `getEventsFromImsi` reads the events of a subscriber one query
after the other; a ULR asks for everything at once, and `phase3` puts together what has arrived.

* `quiet`: before `phase3`, and in any run of a ULR whose subscriber has no events, nothing is put
  into the answer.
* `Gathered`: what `phase3` has to find when it begins.
* `reported_of_run`: then the ULA has the events that `getEventsFromImsi` reads, each once.
-/

namespace OpenairHss.Ulr

open Interact Processor Diameter Cql Steps

/-! ### The statement of `getEvents` -/

/-- **The statement of `getEvents` is rejected**: what is in brackets is no number. -/
theorem execute_getEventsText {scef_id : String} (h : Plain scef_id) (refs : List Nat)
    (db : Cql.Db) : DataAccess.dbExecute db (getEventsText scef_id refs) = none := by
  have hsplit : getEventsText scef_id refs =
      render [.lit "SELECT * FROM events WHERE scef_id = '", .str scef_id,
        .lit "' AND scef_ref_id = ("] ++ (",".intercalate (refs.map toString) ++ ")") := by
    unfold getEventsText
    exact String.append_assoc
  have hsound : ∀ p ∈ [Part.lit "SELECT * FROM events WHERE scef_id = '", .str scef_id,
      .lit "' AND scef_ref_id = ("], p.Sound := by
    simp only [List.forall_mem_cons]
    exact ⟨Part.sound_lit (by decide), h, Part.sound_lit (by decide), nofun⟩
  rw [hsplit, DataAccess.dbExecute, execute_append _ hsound rfl]
  refine Option.bind_eq_none_iff.mpr fun toks htoks => ?_
  obtain ⟨r', -, hr'⟩ := Option.bind_eq_some_iff.mp htoks
  obtain ⟨last, -, rfl⟩ := Option.map_eq_some_iff.mp hr'
  have hparse : ∀ ts : List Tok, parse DataAccess.keyspace ([kw "select", .sym '*', kw "from",
      kw "events", kw "where", .word "scef_id".toList, .sym '=', .str scef_id.toList, kw "and",
      .word "scef_ref_id".toList, .sym '=', .sym '('] ++ ts) = none := by
    intro ts
    cases ts with
    | nil => rfl
    | cons t ts => rfl
  rw [List.append_assoc]
  exact congrArg (fun stmt => stmt.bind (exec DataAccess.schema db)) (hparse (r'.2 ++ last))

/-! ### The tables -/

/-- The rows that the queries for events read.  `info_imsi` and `extIds_empty`: the IMSI is the key,
and a key is not empty. -/
structure Content where
  info : String → Option ImsiInfoRow
  extIds : String → List String
  idsOfMsisdn : Int → List EventId
  idsOfExtId : String → List EventId
  event : EventId → Option Event
  info_imsi : ∀ {imsi row}, info imsi = some row → row.imsi = some imsi
  extIds_empty : extIds "" = []

/-- A database with these rows: what it answers to statements whose texts are plain.  A query may
fail; `getEvents` always does (`execute_getEventsText`). -/
structure Content.Answers (D : Content) (e : Env kind) : Prop where
  info : ∀ imsi, Plain imsi → e.db (.getImsiInfo, getImsiInfoText imsi) = none ∨
    e.db (.getImsiInfo, getImsiInfoText imsi) = some (D.info imsi)
  extIds : ∀ imsi, Plain imsi → e.db (.getExtIds, getExtIdsFromImsiText imsi) = none ∨
    e.db (.getExtIds, getExtIdsFromImsiText imsi) = some (D.extIds imsi)
  idsOfMsisdn : ∀ msisdn, e.db (.getEvntidsMsisdn, getEventIdsFromMsisdnText msisdn) = none ∨
    e.db (.getEvntidsMsisdn, getEventIdsFromMsisdnText msisdn) = some (D.idsOfMsisdn msisdn)
  idsOfExtIds : ∀ extIds, (∀ x ∈ extIds, Plain x) →
    e.db (.getEvntidsExtids, getEventIdsFromExtIdsText (quoted extIds)) = none ∨
    ∃ ids, e.db (.getEvntidsExtids, getEventIdsFromExtIdsText (quoted extIds)) = some ids ∧
      ids.Perm (extIds.dedup.flatMap D.idsOfExtId)
  events : ∀ scef_id refs, Plain scef_id →
    e.db (.getEvntsEvntids, getEventsText scef_id refs) = none
  askIds : ∀ extid ids, Plain extid → e.ask (.getEventIdsFromExtId extid) = some ids →
    ids = D.idsOfExtId extid
  askEvent : ∀ scef_id ref ev, Plain scef_id → e.ask (.getEvent scef_id ref) = some ev →
    ev = D.event ⟨scef_id, ref⟩

namespace Content

variable (D : Content)

/-- The list `evtIdLst` of `DataAccess::getEventsFromImsi`; `mem` is the memory of `info`. -/
def eventIdsFromImsi (mem : ImsiInfo) (imsi : String) : List EventId :=
  match D.info imsi with
  | none => []
  | some row =>
    let info := getImsiInfoData row mem
    D.idsOfMsisdn info.msisdn ++ (D.extIds info.imsi).flatMap D.idsOfExtId

def getEventsFromImsi (mem : ImsiInfo) (imsi : String) : List Event :=
  (D.eventIdsFromImsi mem imsi).filterMap D.event

/-- The events that it reads, each of them once. -/
def subscriberEvents (mem : ImsiInfo) (imsi : String) : List Event :=
  (D.eventIdsFromImsi mem imsi).dedup.filterMap D.event

theorem mem_subscriberEvents {mem : ImsiInfo} {imsi : String} {ev : Event} :
    ev ∈ D.subscriberEvents mem imsi ↔ ev ∈ D.getEventsFromImsi mem imsi := by
  simp only [subscriberEvents, getEventsFromImsi, List.mem_filterMap, List.mem_dedup]

theorem eventIdsFromImsi_eq {mem : ImsiInfo} {imsi : String} {row : ImsiInfoRow}
    (h : D.info imsi = some row) : D.eventIdsFromImsi mem imsi =
      D.idsOfMsisdn (getImsiInfoData row mem).msisdn ++ (D.extIds imsi).flatMap D.idsOfExtId := by
  have himsi : (getImsiInfoData row mem).imsi = imsi := by
    change row.imsi.getD mem.imsi = imsi
    rw [D.info_imsi h]
    rfl
  simp only [eventIdsFromImsi, h, himsi]

/-- What the statements for this subscriber quote is plain: its IMSI, its external identifiers, and the
SCEF-IDs listed for the MSISDN of `phase1`, for them and for the subscriber. -/
structure PlainTexts (mem new : ImsiInfo) (imsi : String) : Prop where
  request : Plain imsi
  extIds : ∀ x ∈ D.extIds imsi, Plain x
  unwritten : ∀ id ∈ D.idsOfMsisdn new.msisdn, Plain id.scef_id
  ofExtIds : ∀ x ∈ D.extIds imsi, ∀ id ∈ D.idsOfExtId x, Plain id.scef_id
  subscriber : ∀ id ∈ D.eventIdsFromImsi mem imsi, Plain id.scef_id

end Content

def monitoring (avps : List UlaAvp) : List String :=
  avps.filterMap fun
    | .monitoringEvent json => some json
    | _ => none

@[simp] theorem monitoring_append (l l' : List UlaAvp) :
    monitoring (l ++ l') = monitoring l ++ monitoring l' := List.filterMap_append

theorem monitoring_events (events : List Event) :
    monitoring (events.map fun e => .monitoringEvent e.mec_json) = events.map (·.mec_json) := by
  induction events with
  | nil => rfl
  | cons e events ih => exact congrArg (e.mec_json :: ·) ih

theorem monitoring_of_addedTo {d : Data} {ans : List UlaAvp} (h : AddedTo d ans) :
    monitoring ans = monitoring d.ans := by
  obtain ⟨l, hl, rfl⟩ := h
  have hnone : monitoring l = [] := by
    refine List.filterMap_eq_nil_iff.mpr fun a ha => ?_
    cases hl a ha with
    | supportedFeatures => rfl
    | ulaFlags => rfl
    | subscriptionData => rfl
  rw [monitoring_append, hnone, List.append_nil]

/-! ### Nothing to report -/

section Quiet

variable (D : Content) (imsi : String) (new : ImsiInfo) (dead : EventId → Prop) (fin : Prop)

/-- An external identifier whose events are all `dead`. -/
def DeadExtId (x : String) : Prop := Plain x ∧ ∀ id ∈ D.idsOfExtId x, dead id

/-- Only dead ids have arrived, and no event. -/
structure QuietData (d : Data) : Prop where
  imsi : d.new_info.imsi = "" ∨ d.new_info.imsi = imsi
  msisdn : d.new_info.msisdn = new.msisdn
  extIds : ∀ x ∈ d.extIdLst, DeadExtId D dead x
  ids : ∀ id ∈ d.evtIdLst, dead id
  events : d.evtLst = []
  ans : monitoring d.ans = []
  rirs : d.rirs = []
  skip : flagIsSet d.ulrflags ulrSkipSubscriberData = false

/-- The statements of a ULR for this subscriber. -/
def QuietAct : Db × String → Prop
  | (.getExtIds, text) => text = getExtIdsFromImsiText "" ∨ text = getExtIdsFromImsiText imsi
  | (.getEvntidsMsisdn, text) => text = getEventIdsFromMsisdnText new.msisdn
  | (.getEvntidsExtids, text) => ∃ extIds, (∀ x ∈ extIds, DeadExtId D dead x) ∧
      text = getEventIdsFromExtIdsText (quoted extIds)
  | (.getEvntsEvntids, text) => ∃ scef_id refs, Plain scef_id ∧ text = getEventsText scef_id refs
  | _ => True

/-- Nothing is put into the answer.  `fin` says whether a ULR may be answered with success. -/
def quiet : DataRule kind where
  data := QuietData D imsi new dead
  ans a := monitoring a.avps = [] ∧ (a.result = .resultCode erDiameterSuccess → fin)
  act := QuietAct D imsi new dead
  fut act fut := ∃ e, D.Answers e ∧ fut = e.db act
  rep q r := ∃ e, D.Answers e ∧ e.ask q = some r

variable {D imsi new dead fin}

theorem quiet_refuse {ans : List UlaAvp} (hd : monitoring ans = []) {r : DiamResult}
    (hr : r ≠ .resultCode erDiameterSuccess) :
    (quiet D imsi new dead fin).ans ⟨ans ++ [.result r]⟩ := by
  refine ⟨?_, fun h => ?_⟩
  · rw [monitoring_append, hd]
    rfl
  · rw [Ula.result_append] at h
    exact absurd h hr

/-- **A ULR for a subscriber whose events are all dead keeps the rule**, up to `phase3`. -/
theorem tolerates_quiet {json : String → Bool} {req : Request}
    (himsi : req.user_name.getD "" = imsi) (hplain : Plain imsi)
    (hdead : ∀ id, dead id → Plain id.scef_id) (hextIds : ∀ x ∈ D.extIds imsi, Plain x)
    (hskip : flagIsSet (req.ulr_flags.getD 0) ulrSkipSubscriberData = false)
    (hmsisdn : ∀ id ∈ D.idsOfMsisdn new.msisdn, dead id)
    (hext : ∀ x ∈ D.extIds imsi, ∀ id ∈ D.idsOfExtId x, dead id) :
    Tolerates json req (quiet D imsi new dead fin) where
  imsiInfo _ _ hd := ⟨hd.imsi, hd.msisdn, hd.extIds, hd.ids, hd.events, hd.ans, hd.rirs, hd.skip⟩
  extIds := by
    intro text l d hact hfut hd
    obtain ⟨e, he, hl⟩ := hfut
    refine ⟨hd.imsi, hd.msisdn, fun x hx => ?_, hd.ids, hd.events, hd.ans, hd.rirs, hd.skip⟩
    rcases List.mem_append.mp hx with hx | hx
    · exact hd.extIds x hx
    rcases hact with rfl | rfl
    · rcases he.extIds "" (by decide) with h | h
      · rw [h] at hl
        cases hl
      · rw [h, D.extIds_empty] at hl
        obtain rfl := Option.some.inj hl
        exact absurd hx List.not_mem_nil
    · rcases he.extIds imsi hplain with h | h
      · rw [h] at hl
        cases hl
      · rw [h] at hl
        obtain rfl := Option.some.inj hl
        exact ⟨hextIds x hx, hext x hx⟩
  eventIdsMsisdn := by
    intro text l d hact hfut hd
    obtain ⟨e, he, hl⟩ := hfut
    obtain rfl : text = _ := hact
    refine ⟨hd.imsi, hd.msisdn, hd.extIds, fun id hid => ?_, hd.events, hd.ans, hd.rirs, hd.skip⟩
    rcases List.mem_append.mp hid with hid | hid
    · exact hd.ids id hid
    rcases he.idsOfMsisdn new.msisdn with h | h
    · rw [h] at hl
      cases hl
    · rw [h] at hl
      obtain rfl := Option.some.inj hl
      exact hmsisdn id hid
  eventIdsExtIds := by
    intro text l d hact hfut hd
    obtain ⟨e, he, hl⟩ := hfut
    obtain ⟨extIds, hall, rfl⟩ := hact
    refine ⟨hd.imsi, hd.msisdn, hd.extIds, fun id hid => ?_, hd.events, hd.ans, hd.rirs, hd.skip⟩
    rcases List.mem_append.mp hid with hid | hid
    · exact hd.ids id hid
    rcases he.idsOfExtIds extIds fun x hx => (hall x hx).1 with h | ⟨ids, h, hperm⟩
    · rw [h] at hl
      cases hl
    · rw [h] at hl
      obtain rfl := Option.some.inj hl
      obtain ⟨x, hx, hid⟩ := List.mem_flatMap.mp (hperm.mem_iff.mp hid)
      exact (hall x (List.mem_dedup.mp hx)).2 id hid
  events := by
    intro text l d hact hfut hd
    obtain ⟨e, he, hl⟩ := hfut
    obtain ⟨scef_id, refs, hscef, rfl⟩ := hact
    rw [he.events scef_id refs hscef] at hl
    cases hl
  sort hd := by
    refine ⟨hd.imsi, hd.msisdn, hd.extIds, fun id hid => ?_, hd.events, hd.ans, hd.rirs, hd.skip⟩
    exact hd.ids id ((List.perm_insertionSort _ _).mem_iff.mp hid)
  mmeIdentity _ hd := ⟨hd.imsi, hd.msisdn, hd.extIds, hd.ids, hd.events, hd.ans, hd.rirs, hd.skip⟩
  callExtIds hd := ⟨_, hd.extIds, rfl⟩
  callEvents := by
    intro d scef_id hd hscef refs
    refine ⟨scef_id, refs, ?_, rfl⟩
    rcases hscef with rfl | hmem
    · decide
    · obtain ⟨id, hid, rfl⟩ := List.mem_map.mp hmem
      exact hdead id (hd.ids id hid)
  begin := by
    intro d hd
    refine ⟨?_, hd.msisdn, hd.extIds, hd.ids, hd.events, ?_, hd.rirs, hd.skip⟩
    · change req.user_name.getD d.new_info.imsi = "" ∨ req.user_name.getD d.new_info.imsi = imsi
      cases hname : req.user_name with
      | none => exact hd.imsi
      | some name =>
        rw [hname] at himsi
        exact Or.inr himsi
    · rw [monitoring_append, hd.ans]
      rfl
  origin hd := ⟨hd.imsi, hd.msisdn, hd.extIds, hd.ids, hd.events, hd.ans, hd.rirs, hd.skip⟩
  calls := by
    intro d hd
    refine ⟨trivial, ?_, ?_, trivial⟩
    · rcases hd.imsi with h | h
      · exact Or.inl (by rw [h])
      · exact Or.inr (by rw [h])
    · rw [hd.msisdn]
      exact rfl
  refuse hd hr := quiet_refuse hd.ans hr
  rejected := by
    intro d r hd hr
    have hchecks := phase2Checks_checked json req d
    rw [hr] at hchecks
    exact quiet_refuse ((monitoring_of_addedTo hchecks.1).trans hd.ans) hchecks.2
  accepted := by
    intro d d' d₀ hd hd' hd₀
    have hchecks := phase2Checks_checked json req d
    rw [hd'] at hchecks
    refine ⟨?_, hchecks.msisdn.trans hd.msisdn, hd₀.extIds, hd₀.ids, hd₀.events,
      (monitoring_of_addedTo hchecks.ans).trans hd.ans, hd₀.rirs, ?_⟩
    · change d'.new_info.imsi = "" ∨ d'.new_info.imsi = imsi
      rw [hchecks.imsi]
      exact hd.imsi
    · change flagIsSet d'.ulrflags ulrSkipSubscriberData = false
      rcases hchecks.ulrflags with h | h
      · rw [h]
        exact hd.skip
      · rw [h]
        cases hflags : req.ulr_flags with
        | none => exact hd.skip
        | some u32 =>
          rw [hflags] at hskip
          exact hskip
  mmeId hd := ⟨hd.imsi, hd.msisdn, hd.extIds, hd.ids, hd.events, hd.ans, hd.rirs, hd.skip⟩
  callUpdate _ := trivial

/-- What the rule asks of a step. -/
theorem quiet_environment {C : State kind → Env kind × Move → Prop}
    (hC : ∀ s l, C s l → D.Answers l.1) :
    (∀ s l, C s l → ∀ act, (quiet D imsi new dead fin).fut act (l.1.db act)) ∧
      ∀ s l, C s l → ∀ q r, l.1.ask q = some r → (quiet D imsi new dead fin).rep q r :=
  ⟨fun s l h _ => ⟨l.1, hC s l h, rfl⟩, fun s l h _ _ hr => ⟨l.1, hC s l h, hr⟩⟩

theorem quiet_init {orig : ImsiInfo} (hnew : new.imsi = "") :
    (quiet D imsi new dead fin).Holds (State.init phase1 (Data.init orig new)).core := by
  have hskip : flagIsSet 0 ulrSkipSubscriberData = false := by decide
  exact ⟨⟨Or.inl hnew, rfl, nofun, nofun, rfl, rfl, rfl, hskip⟩, nofun, nofun⟩

end Quiet

/-! ### A subscriber without events -/

section NoEvents

variable {D : Content} {imsi : String} {new : ImsiInfo}

/-- The event of a dead id is not there. -/
def NoRow (D : Content) (id : EventId) : Prop := Plain id.scef_id ∧ D.event id = none

theorem obeys_askEventIds_quiet (extIds : List String)
    (h : ∀ x ∈ extIds, DeadExtId D (NoRow D) x) :
    Obeys (quiet D imsi new (NoRow D) True) (askEventIds extIds) := by
  induction extIds with
  | nil => exact obeys_ret _
  | cons x rest ih =>
    refine obeys_query fun ids hids => obeys_bind (obeys_update fun d hd => ?_) fun _ =>
      ih fun x hx => h x (List.mem_cons_of_mem _ hx)
    obtain ⟨e, he, hask⟩ := hids
    obtain rfl := he.askIds x ids (h x List.mem_cons_self).1 hask
    refine ⟨hd.imsi, hd.msisdn, hd.extIds, fun id hid => ?_, hd.events, hd.ans, hd.rirs, hd.skip⟩
    rcases List.mem_append.mp hid with hid | hid
    · exact hd.ids id hid
    · exact (h x List.mem_cons_self).2 id hid

theorem obeys_askEvents_quiet (ids : List EventId) (h : ∀ id ∈ ids, NoRow D id) :
    Obeys (quiet D imsi new (NoRow D) True) (askEvents ids) := by
  induction ids with
  | nil => exact obeys_ret _
  | cons id rest ih =>
    refine obeys_query fun ev hev => obeys_bind (obeys_update fun d hd => ?_) fun _ =>
      ih fun id hid => h id (List.mem_cons_of_mem _ hid)
    obtain ⟨e, he, hask⟩ := hev
    obtain ⟨hplain, hnone⟩ := h id List.mem_cons_self
    obtain rfl := he.askEvent _ _ _ hplain hask
    refine ⟨hd.imsi, hd.msisdn, hd.extIds, hd.ids, ?_, hd.ans, hd.rirs, hd.skip⟩
    change d.evtLst ++ (D.event id).toList = []
    rw [hnone, hd.events]
    rfl

theorem obeys_phase3Body_quiet : Obeys (quiet D imsi new (NoRow D) True) phase3Body := by
  refine obeys_read fun d hd => obeys_bind ?_ fun _ => obeys_read fun d hd =>
    obeys_bind (obeys_answer ⟨?_, fun _ => trivial⟩) fun _ => obeys_bind ?_ fun _ =>
    obeys_call trivial
  · unfold collectEvents
    split
    · refine obeys_bind (obeys_askEventIds_quiet _ hd.extIds) fun _ => obeys_read fun d hd =>
        obeys_bind (obeys_askEvents_quiet _ hd.ids) fun _ => obeys_read fun d hd => ?_
      rw [hd.events]
      exact obeys_ret _
    · exact obeys_ret _
  · rw [monitoring_append, hd.ans]
    rfl
  · unfold reportRoaming
    split
    · refine obeys_update fun d hd => ?_
      refine ⟨hd.imsi, hd.msisdn, hd.extIds, hd.ids, hd.events, hd.ans, ?_, hd.skip⟩
      change d.rirs ++ _ = []
      rw [hd.rirs, hd.events]
      rfl
    · exact obeys_ret _

end NoEvents

/-! ### `phase3` with everything at hand -/

/-- The SCEFs to which a change of the visited PLMN is to be reported. -/
def roamingScefs (events : List Event) : List String :=
  (events.filter fun e => e.monitoring_type = roamingStatusEvt).map (·.scef_id)

/-- The data without what the callback of `getMmeIdFromHost` writes. -/
def Data.settled (d : Data) : Data := { d with mmeidentity := 0 }

section Gathered

variable (D : Content) (events : List Event)

/-- A success comes with the events, and RIRs go out for all of them or for none. -/
def reporting : OwnRule kind Data where
  view := Data.settled
  good v := v.rirs = [] ∨ v.rirs.Perm (roamingScefs events)
  ans a := a.result = .resultCode erDiameterSuccess →
    (monitoring a.avps).Perm (events.map (·.mec_json))
  act a := a.1 = .getMmeidHost ∨ a.1 = .updateImsi
  rep q r := ∃ e, D.Answers e ∧ e.ask q = some r

variable {D events}

theorem owns_askEventIds (extIds : List String) (hplain : ∀ x ∈ extIds, Plain x) (v : Data)
    (hv : v.rirs = []) :
    Owns (reporting D events) (fun w => w = v) (askEventIds extIds) fun _ w =>
      w = { v with evtIdLst := v.evtIdLst ++ extIds.flatMap D.idsOfExtId } := by
  induction extIds generalizing v with
  | nil =>
    refine owns_ret fun w hw => ?_
    rw [hw, List.flatMap_nil, List.append_nil]
  | cons x rest ih =>
    refine owns_query fun ids hids => ?_
    obtain ⟨e, he, hask⟩ := hids
    obtain rfl := he.askIds x ids (hplain x List.mem_cons_self) hask
    let v' : Data := { v with evtIdLst := v.evtIdLst ++ D.idsOfExtId x }
    have hupdate : Owns (reporting D events) (fun w => w = v)
        (updateData (K := kind) fun d : Data => { d with evtIdLst := d.evtIdLst ++ D.idsOfExtId x })
        fun _ w => w = v' := by
      refine owns_update fun d hd => ?_
      obtain rfl : d.settled = v := hd
      exact ⟨Or.inl hv, rfl⟩
    have hrest := ih (fun y hy => hplain y (List.mem_cons_of_mem _ hy)) v' hv
    have he : v'.evtIdLst ++ rest.flatMap D.idsOfExtId =
        v.evtIdLst ++ (x :: rest).flatMap D.idsOfExtId := by
      rw [List.flatMap_cons, List.append_assoc]
    rw [he] at hrest
    exact owns_bind hupdate fun _ => hrest

theorem owns_askEvents (ids : List EventId) (hplain : ∀ id ∈ ids, Plain id.scef_id) (v : Data)
    (hv : v.rirs = []) :
    Owns (reporting D events) (fun w => w = v) (askEvents ids) fun _ w =>
      w = { v with evtLst := v.evtLst ++ ids.filterMap D.event } := by
  induction ids generalizing v with
  | nil =>
    refine owns_ret fun w hw => ?_
    rw [hw, List.filterMap_nil, List.append_nil]
  | cons id rest ih =>
    refine owns_query fun ev hev => ?_
    obtain ⟨e, he, hask⟩ := hev
    obtain rfl := he.askEvent _ _ ev (hplain id List.mem_cons_self) hask
    let v' : Data := { v with evtLst := v.evtLst ++ (D.event id).toList }
    have hupdate : Owns (reporting D events) (fun w => w = v)
        (updateData (K := kind) fun d : Data => { d with evtLst := d.evtLst ++ (D.event id).toList })
        fun _ w => w = v' := by
      refine owns_update fun d hd => ?_
      obtain rfl : d.settled = v := hd
      exact ⟨Or.inl hv, rfl⟩
    have hrest := ih (fun y hy => hplain y (List.mem_cons_of_mem _ hy)) v' hv
    have he : v'.evtLst ++ rest.filterMap D.event = v.evtLst ++ (id :: rest).filterMap D.event := by
      rw [List.filterMap_cons, List.append_assoc]
      cases D.event id <;> rfl
    rw [he] at hrest
    exact owns_bind hupdate fun _ => hrest

theorem owns_addEvents (l : List Event) (v : Data) (hv : v.rirs = []) :
    Owns (reporting D events) (fun w => w = v) (addEvents l) fun _ w =>
      w = { v with ans := v.ans ++ l.map fun e => .monitoringEvent e.mec_json } := by
  induction l generalizing v with
  | nil =>
    refine owns_ret fun w hw => ?_
    rw [hw, List.map_nil, List.append_nil]
  | cons e rest ih =>
    refine owns_query fun _ _ => ?_
    let v' : Data := { v with ans := v.ans ++ [.monitoringEvent e.mec_json] }
    have hupdate : Owns (reporting D events) (fun w => w = v)
        (updateData (K := kind) fun d : Data =>
          { d with ans := d.ans ++ [.monitoringEvent e.mec_json] }) fun _ w => w = v' := by
      refine owns_update fun d hd => ?_
      obtain rfl : d.settled = v := hd
      exact ⟨Or.inl hv, rfl⟩
    have hrest := ih v' hv
    have he : v'.ans ++ rest.map (fun e => .monitoringEvent e.mec_json) =
        v.ans ++ (e :: rest).map fun e => .monitoringEvent e.mec_json := by
      rw [List.map_cons, List.append_assoc]
      rfl
    rw [he] at hrest
    exact owns_bind hupdate fun _ => hrest

/-- What `phase3` finds. -/
structure AtHand (D : Content) (events : List Event) (v : Data) : Prop where
  plainExtIds : ∀ x ∈ v.extIdLst, Plain x
  plainIds : ∀ id ∈ v.evtIdLst ++ v.extIdLst.flatMap D.idsOfExtId, Plain id.scef_id
  events : ((v.evtIdLst ++ v.extIdLst.flatMap D.idsOfExtId).filterMap D.event).Perm events
  evtLst : v.evtLst = []
  ans : monitoring v.ans = []
  rirs : v.rirs = []
  skip : flagIsSet v.ulrflags ulrSkipSubscriberData = false

/-- The events, from the lists. -/
def Data.collected (D : Content) (v : Data) : Data :=
  let evtIdLst := v.evtIdLst ++ v.extIdLst.flatMap D.idsOfExtId
  let evtLst := v.evtLst ++ evtIdLst.filterMap D.event
  { v with
    evtIdLst := evtIdLst, evtLst := evtLst
    ans := v.ans ++ evtLst.map fun e => .monitoringEvent e.mec_json }

theorem owns_collectEvents {d : Data} (h : AtHand D events d.settled) :
    Owns (reporting D events) (fun w => w = d.settled) (collectEvents d) fun _ w =>
      w = d.settled.collected D := by
  have hskip : flagIsSet d.ulrflags ulrSkipSubscriberData = false := h.skip
  unfold collectEvents
  rw [hskip]
  refine owns_bind (owns_askEventIds d.extIdLst h.plainExtIds d.settled h.rirs) fun _ => owns_read fun d' hd' => ?_
  have hids : d'.evtIdLst = d.evtIdLst ++ d.extIdLst.flatMap D.idsOfExtId :=
    congrArg Data.evtIdLst hd'
  have hrirs : d'.settled.rirs = [] := (congrArg Data.rirs hd').trans h.rirs
  have hplain : ∀ id ∈ d'.evtIdLst, Plain id.scef_id := by
    rw [hids]
    exact h.plainIds
  refine owns_bind (owns_askEvents d'.evtIdLst hplain d'.settled hrirs) fun _ => owns_read fun d₁ hd₁ => ?_
  have heq : d₁.settled = { d'.settled with
      evtLst := d'.settled.evtLst ++ d'.evtIdLst.filterMap D.event } := hd₁
  have hadd : Owns (reporting D events) (fun w => w = d₁.settled) (addEvents d₁.evtLst) fun _ w =>
      w = { d₁.settled with
        ans := d₁.settled.ans ++ d₁.evtLst.map fun e => .monitoringEvent e.mec_json } :=
    owns_addEvents d₁.evtLst d₁.settled ((congrArg Data.rirs heq).trans hrirs)
  have hlst : d₁.evtLst = d'.settled.evtLst ++ d'.evtIdLst.filterMap D.event :=
    congrArg Data.evtLst heq
  have hd'' : d'.settled = { d.settled with
      evtIdLst := d.settled.evtIdLst ++ d.extIdLst.flatMap D.idsOfExtId } := hd'
  have hcollected : { d₁.settled with
      ans := d₁.settled.ans ++ d₁.evtLst.map fun e => .monitoringEvent e.mec_json } =
      d.settled.collected D := by
    rw [hlst, heq, hids, hd'']
    rfl
  rw [hcollected] at hadd
  exact hadd

theorem owns_phase3Body {P : Data → Prop} (hP : ∀ v, P v → AtHand D events v) :
    Owns (reporting D events) P phase3Body fun _ _ => True := by
  refine owns_read fun d hd => owns_bind (owns_collectEvents (hP _ hd)) fun _ =>
    owns_read fun d₁ hd₁ => owns_bind (owns_answer fun _ => ?_) fun _ => owns_bind ?_ fun _ =>
    owns_setNextphase _
  all_goals
    have h : AtHand D events d.settled := hP _ hd
    have heq : d₁.settled = d.settled.collected D := hd₁
    have hlst : d₁.settled.evtLst = (d.settled.collected D).evtLst := congrArg Data.evtLst heq
    change d₁.evtLst = _ at hlst
    have hevt : d₁.evtLst.Perm events := by
      rw [hlst]
      change (d.settled.evtLst ++ _).Perm events
      rw [h.evtLst, List.nil_append]
      exact h.events
  · have hans : d₁.ans = d.settled.ans ++ d₁.evtLst.map fun e => .monitoringEvent e.mec_json := by
      rw [hlst]
      exact congrArg Data.ans heq
    change (monitoring (d₁.ans ++ [.result _])).Perm _
    rw [hans, monitoring_append, monitoring_append, h.ans, monitoring_events, List.nil_append]
    exact (List.append_nil _).symm ▸ hevt.map (·.mec_json)
  · unfold reportRoaming
    split
    · refine owns_update fun d₂ hd₂ => ⟨Or.inr ?_, trivial⟩
      have heq₂ : d₂.settled = d₁.settled := hd₂
      have hrirs : d₂.rirs = [] := (congrArg Data.rirs (heq₂.trans heq)).trans h.rirs
      have hevt₂ : d₂.settled.evtLst = d₁.settled.evtLst := congrArg Data.evtLst heq₂
      change (d₂.rirs ++ roamingScefs d₂.evtLst).Perm (roamingScefs events)
      rw [hrirs, show d₂.evtLst = d₁.evtLst from hevt₂]
      exact (hevt.filter _).map _
    · exact owns_ret fun _ _ => trivial

theorem calm_handler (act : Db × String) (fut : act.1.Fut)
    (h : act.1 = .getMmeidHost ∨ act.1 = .updateImsi) :
    Calm (reporting D events) (handler act fut) := by
  obtain ⟨db, text⟩ := act
  rcases h with h | h
  · obtain rfl : db = .getMmeidHost := h
    match fut with
    | none => exact calm_dbOpComplete _ _
    | some none => exact calm_dbOpComplete _ _
    | some (some id) =>
      exact calm_bind (calm_update fun _ => rfl) fun _ => calm_dbOpComplete _ _
  · obtain rfl : db = .updateImsi := h
    exact calm_dbOpComplete _ _

/-- The phases after it write neither the answer nor the RIRs. -/
theorem owns_later {json : String → Bool} {req : Request} {phase : Nat} (h : phase3 < phase) :
    Owns (reporting D events) (reporting D events).good (body json req phase) fun _ _ => True := by
  have hne : ¬ phase = phase1 ∧ ¬ phase = phase2 ∧ ¬ phase = phase3 := by
    simp only [phase1, phase2, phase3] at h ⊢
    omega
  unfold body
  rw [if_neg hne.1, if_neg hne.2.1, if_neg hne.2.2]
  split
  · refine owns_bind (owns_setNextphase _) fun _ =>
      owns_bind (Q := fun _ => (reporting D events).good) (owns_update fun d hd => ⟨hd, hd⟩)
      fun _ => owns_read fun d hd => ?_
    refine owns_bind (owns_issueCounted (Or.inr rfl) (fun fut => owns_dbOpComplete _ _) _)
      fun success => ?_
    cases success with
    | true => exact owns_ret fun _ _ => trivial
    | false => exact (owns_setNextphase _).top
  split
  · exact (owns_setNextphase _).top
  · exact owns_ret fun _ _ => trivial

end Gathered

/-! ### Runs -/

variable {json : String → Bool} {req : Request} {orig new : ImsiInfo}

/-- The subscriber has no events, and the MSISDN that `phase1` asks for, which nobody has written,
has none either. -/
structure Content.NoEvents (D : Content) (mem new : ImsiInfo) (imsi : String) : Prop where
  unwritten : ∀ id ∈ D.idsOfMsisdn new.msisdn, D.event id = none
  extIds : ∀ x ∈ D.extIds imsi, ∀ id ∈ D.idsOfExtId x, D.event id = none
  subscriber : ∀ id ∈ D.eventIdsFromImsi mem imsi, D.event id = none

/-- The worker begins `phase3`. -/
def Begins (s : State kind) (m : Move) : Prop :=
  m = .loop ∧ s.core.m_nextphase = phase3 ∧
    ready phase3 s.core.m_dbexecuted s.core.data = true

/-- What has arrived: the external identifiers of the subscriber and the event ids of its MSISDN,
but not those of its external identifiers.  No query for any of these is under way, and no event id
occurs twice. -/
structure Gathered (D : Content) (mem : ImsiInfo) (imsi : String) (s : State kind) : Prop where
  callbacks : s.callbacks = []
  pending : ∀ act ∈ s.core.pending, act.1 = .getMmeidHost
  extIds : s.core.data.extIdLst.Perm (D.extIds imsi)
  msisdn : ∃ row, D.info imsi = some row ∧
    s.core.data.evtIdLst.Perm (D.idsOfMsisdn (getImsiInfoData row mem).msisdn)
  nodup : (D.eventIdsFromImsi mem imsi).Nodup

/-- The answers with success come with the events, and RIRs go out for all of them or for none. -/
def Reported (events : List Event) (s : State kind) : Prop :=
  (∀ a ∈ s.core.answers, a.result = .resultCode erDiameterSuccess →
    (monitoring a.avps).Perm (events.map (·.mec_json))) ∧
  (s.core.data.rirs = [] ∨ s.core.data.rirs.Perm (roamingScefs events))

/-- Up to `phase3` no answer is a success, and no RIR goes out. -/
theorem holds_quiet {D : Content} {mem : ImsiInfo}
    (hplain : D.PlainTexts mem new (req.user_name.getD "")) (hnew : new.imsi = "")
    (hskip : flagIsSet (req.ulr_flags.getD 0) ulrSkipSubscriberData = false) {s : State kind}
    (h : Run (code json req) (fun s l => D.Answers l.1 ∧ ¬ Begins s l.2)
      (State.init phase1 (Data.init orig new)) s) :
    (quiet D (req.user_name.getD "") new (fun id => Plain id.scef_id) False).Holds s.core := by
  have T : Tolerates json req (quiet D (req.user_name.getD "") new (fun id => Plain id.scef_id) False) :=
    tolerates_quiet rfl hplain.request (fun _ h => h) hplain.extIds hskip hplain.unwritten
      hplain.ofExtIds
  obtain ⟨hfut, hrep⟩ := quiet_environment (D := D) (C := fun s l => D.Answers l.1 ∧ ¬ Begins s l.2)
    fun _ _ hC => hC.1
  refine DataRule.invariant (fun s e hC hr => T.body fun hphase => ?_) T.handler hfut hrep h rfl rfl
    (quiet_init hnew)
  have hready : ready s.core.m_nextphase s.core.m_dbexecuted s.core.data = true := by
    have hne : s.core.m_nextphase ≠ phaseFinal := by
      rw [hphase]
      decide
    exact (if_neg hne).symm.trans hr
  rw [hphase] at hready
  exact absurd ⟨rfl, hphase, hready⟩ hC.2

/-- A subscriber without events. -/
theorem reported_of_noEvents {D : Content} {mem : ImsiInfo}
    (hplain : D.PlainTexts mem new (req.user_name.getD "")) (hnew : new.imsi = "")
    (hskip : flagIsSet (req.ulr_flags.getD 0) ulrSkipSubscriberData = false)
    (hno : D.NoEvents mem new (req.user_name.getD "")) {s : State kind}
    (h : Run (code json req) (fun _ l => D.Answers l.1)
      (State.init phase1 (Data.init orig new)) s) :
    Reported (D.subscriberEvents mem (req.user_name.getD "")) s := by
  have T : Tolerates json req (quiet D (req.user_name.getD "") new (NoRow D) True) :=
    tolerates_quiet rfl hplain.request (fun _ h => h.1) hplain.extIds hskip
      (fun id hid => ⟨hplain.unwritten id hid, hno.unwritten id hid⟩)
      fun x hx id hid => ⟨hplain.ofExtIds x hx id hid, hno.extIds x hx id hid⟩
  obtain ⟨hfut, hrep⟩ := quiet_environment (D := D) (C := fun _ l => D.Answers l.1) fun _ _ hC => hC
  have hinv := DataRule.invariant (fun _ _ _ _ => T.body fun _ => obeys_phase3Body_quiet) T.handler
    hfut hrep h rfl rfl (quiet_init hnew)
  have hnone : D.subscriberEvents mem (req.user_name.getD "") = [] := by
    refine List.filterMap_eq_nil_iff.mpr fun id hid => ?_
    exact hno.subscriber id (List.mem_dedup.mp hid)
  refine ⟨fun a ha _ => ?_, Or.inl hinv.data.rirs⟩
  rw [hnone, (hinv.answers a ha).1]
  exact .nil

/-- The step that begins `phase3`. -/
theorem begins_exec {s t : State kind} {l : Env kind × Move} (h : Begins s l.2)
    (hx : exec (code json req) s l = some t) :
    t = { s with
      core := { s.core with ran := s.core.ran ++ [phase3] }
      worker := some phase3Body } := by
  obtain ⟨hl, hphase, hready⟩ := h
  have hne : s.core.m_nextphase ≠ phaseFinal := by
    rw [hphase]
    decide
  have hr : s.core.phaseReady (code json req) = true := by
    refine (if_neg hne).trans ?_
    rw [hphase]
    exact hready
  obtain ⟨_, hst⟩ := exec_cases hx
  cases hst with
  | delete e hw hr' hf => exact absurd hf hne
  | leave e hw hr' => exact absurd (hr.symm.trans hr') (by decide)
  | body e hw hr' hf =>
    rw [hphase]
    rfl
  | _ => cases hl

/-- After `phase3` has begun, only later phases begin. -/
theorem later_of_begun {C : State kind → Env kind × Move → Prop} {d : Data} {s t : State kind}
    (hs : Run (code json req) (fun _ _ => True) (State.init phase1 d) s)
    (h3 : phase3 ∈ s.core.ran) (h : Run (code json req) C s t) :
    Run (code json req) (fun u l => C u l ∧ (l.2 = .loop → u.core.phaseReady (code json req) = true →
      u.core.m_nextphase ≠ phaseFinal → phase3 < u.core.m_nextphase)) s t := by
  refine h.strengthen fun u l v hu hC hx => ⟨hC, fun hl hr hf => ?_⟩
  have hmem : phase3 ∈ u.core.ran := hu.invariant h3 fun _ _ _ hm _ hx => mem_ran hx hm
  have hv : Run (code json req) (fun _ _ => True) (State.init phase1 d) v :=
    (hs.trans (hu.strengthen fun _ _ _ _ _ _ => trivial)).tail trivial hx
  have hran := (ulr_in_order hv).1
  obtain ⟨_, hst⟩ := exec_cases hx
  cases hst with
  | delete e hw hr' hf' => exact absurd hf' hf
  | leave e hw hr' => exact absurd (hr.symm.trans hr') (by decide)
  | body e hw hr' hf' => exact (List.pairwise_append.mp hran).2.2 _ hmem _ List.mem_cons_self
  | _ => cases hl

/-- A run from the beginning of `phase3`. -/
theorem reported_of_gathered {D : Content} {mem : ImsiInfo} {imsi : String} {d : Data}
    {s t u : State kind} {l : Env kind × Move}
    (hs : Run (code json req) (fun _ _ => True) (State.init phase1 d) s)
    (hq : (quiet D imsi new (fun id => Plain id.scef_id) False).Holds s.core) (hb : Begins s l.2)
    (hg : Gathered D mem imsi s) (hx : exec (code json req) s l = some t)
    (h : Run (code json req) (fun _ l => D.Answers l.1) t u) :
    Reported (D.subscriberEvents mem imsi) u := by
  have ht : Run (code json req) (fun _ _ => True) (State.init phase1 d) t := hs.tail trivial hx
  obtain rfl := begins_exec hb hx
  have hlater := later_of_begun ht (by simp) h
  obtain ⟨row, hrow, hids⟩ := hg.msisdn
  have hat : AtHand D (D.subscriberEvents mem imsi) s.core.data.settled := by
    refine ⟨fun x hx => (hq.data.extIds x hx).1, fun id hid => ?_, ?_, hq.data.events, hq.data.ans,
      hq.data.rirs, hq.data.skip⟩
    · rcases List.mem_append.mp hid with hid | hid
      · exact hq.data.ids id hid
      · obtain ⟨x, hx, hid⟩ := List.mem_flatMap.mp hid
        exact (hq.data.extIds x hx).2 id hid
    rw [Content.subscriberEvents, hg.nodup.dedup, D.eventIdsFromImsi_eq hrow]
    exact (hids.append (hg.extIds.flatMap_right _)).filterMap _
  have hinv := OwnRule.invariant (M := code json req) (R := reporting D (D.subscriberEvents mem imsi))
    (fun s e hC hr hf => owns_later (hC.2 rfl hr hf)) calm_handler
    (fun _ l hC _ _ hr => ⟨l.1, hC.1, hr⟩) hlater rfl (owns_phase3Body fun _ hv => hv) hat
    hg.callbacks ⟨Or.inl hq.data.rirs, fun a ha h => absurd ((hq.answers a ha).2 h) id,
      fun act hact => Or.inl (hg.pending act hact)⟩
  exact ⟨hinv.answers, hinv.good⟩

/-- **The monitoring events of a ULA**: a successful ULR without Skip-Subscriber-Data is answered
with the events that `getEventsFromImsi` reads, each of them once, if there are none, or if `phase3`
begins with everything at hand. -/
theorem reported_of_run {D : Content} {mem : ImsiInfo}
    (hplain : D.PlainTexts mem new (req.user_name.getD "")) (hnew : new.imsi = "")
    (hskip : flagIsSet (req.ulr_flags.getD 0) ulrSkipSubscriberData = false) {s : State kind}
    (h : Run (code json req) (fun s l => D.Answers l.1 ∧
        (D.NoEvents mem new (req.user_name.getD "") ∨
          (Begins s l.2 → Gathered D mem (req.user_name.getD "") s)))
      (State.init phase1 (Data.init orig new)) s) :
    Reported (D.subscriberEvents mem (req.user_name.getD "")) s := by
  by_cases hno : D.NoEvents mem new (req.user_name.getD "")
  · exact reported_of_noEvents hplain hnew hskip hno (h.strengthen fun _ _ _ _ hC _ => hC.1)
  rcases h.until fun s l => Begins s l.2 with hrun | ⟨u, l, v, hu, hC, hb, hx, hv⟩
  · have hq := holds_quiet (D := D) hplain hnew hskip
      (hrun.strengthen fun _ _ _ _ hC _ => ⟨hC.1.1, hC.2⟩)
    exact ⟨fun a ha h => absurd ((hq.answers a ha).2 h) id, Or.inl hq.data.rirs⟩
  · have hq := holds_quiet (D := D) hplain hnew hskip
      (hu.strengthen fun _ _ _ _ hC _ => ⟨hC.1.1, hC.2⟩)
    exact reported_of_gathered (hu.strengthen fun _ _ _ _ _ _ => trivial) hq hb
      ((hC.2.resolve_left hno) hb) hx (hv.strengthen fun _ _ _ _ hC _ => hC.1)

/-! ### A subscriber with one event -/

open Requests

/-- Tables with one event, of every MSISDN or of the external identifier of every subscriber. -/
def sampleContent (ofMsisdn : Bool) : Content where
  info imsi := if imsi = "001010000000001" then some sampleRow else none
  extIds imsi := if imsi = "" then [] else ["ue@a"]
  idsOfMsisdn _ := if ofMsisdn then [⟨"scef.a", 7⟩] else []
  idsOfExtId _ := if ofMsisdn then [] else [⟨"scef.a", 7⟩]
  event id := if id = ⟨"scef.a", 7⟩ then some ⟨"scef.a", 4, "x"⟩ else none
  info_imsi := by
    intro imsi row h
    split at h
    case isTrue himsi =>
      obtain rfl := Option.some.inj h
      rw [himsi]
      rfl
    case isFalse => cases h
  extIds_empty := rfl

/-- A database with these tables, in which the queries for other subscribers fail, and so does that
for the events of an external identifier. -/
def sampleEventDb (ofMsisdn : Bool) : (act : Db × String) → act.1.Fut
  | (.getImsiInfo, text) => if text = getImsiInfoText "001010000000001" then some (some sampleRow)
      else none
  | (.getExtIds, text) => if text = getExtIdsFromImsiText "" then some [] else some ["ue@a"]
  | (.getEvntidsMsisdn, _) => some ((sampleContent ofMsisdn).idsOfMsisdn 0)
  | (.getEvntidsExtids, _) => if ofMsisdn then some [] else none
  | (.getEvntsEvntids, _) => none
  | (.getMmeidHost, _) => some (some (some 1))
  | (.updateImsi, _) => some ()

def sampleEventEnv (ofMsisdn : Bool) : Env kind where
  db := sampleEventDb ofMsisdn
  reg _ := .async
  ask
    | .getEventIdsFromExtId extid => some ((sampleContent ofMsisdn).idsOfExtId extid)
    | .getEvent scef_id ref => some ((sampleContent ofMsisdn).event ⟨scef_id, ref⟩)
    | .fdJsonAddAvps _ | .addJson _ => some ()

theorem between_inj (p q : String) {s t : String} : p ++ s ++ q = p ++ t ++ q ↔ s = t := by
  rw [String.append_left_inj, String.append_right_inj]

theorem getImsiInfoText_inj {imsi imsi' : String} :
    getImsiInfoText imsi = getImsiInfoText imsi' ↔ imsi = imsi' := by
  unfold getImsiInfoText
  exact between_inj _ _

theorem getExtIdsFromImsiText_inj {imsi imsi' : String} :
    getExtIdsFromImsiText imsi = getExtIdsFromImsiText imsi' ↔ imsi = imsi' := by
  unfold getExtIdsFromImsiText
  exact between_inj _ _

theorem sampleEventEnv_answers (ofMsisdn : Bool) :
    (sampleContent ofMsisdn).Answers (sampleEventEnv ofMsisdn) where
  info := by
    intro imsi _
    simp only [sampleEventEnv, sampleEventDb, sampleContent, getImsiInfoText_inj]
    by_cases himsi : imsi = "001010000000001"
    · simp only [himsi, if_true]
      exact Or.inr rfl
    · simp only [himsi, if_false]
      exact Or.inl rfl
  extIds := by
    intro imsi _
    simp only [sampleEventEnv, sampleEventDb, sampleContent, getExtIdsFromImsiText_inj]
    by_cases himsi : imsi = ""
    · simp only [himsi, if_true]
      exact Or.inr rfl
    · simp only [himsi, if_false]
      exact Or.inr rfl
  idsOfMsisdn _ := Or.inr rfl
  idsOfExtIds := by
    intro extIds _
    simp only [sampleEventEnv, sampleEventDb]
    cases ofMsisdn with
    | true =>
      refine Or.inr ⟨[], rfl, ?_⟩
      have hnone : extIds.dedup.flatMap (sampleContent true).idsOfExtId = [] :=
        List.flatMap_eq_nil_iff.mpr fun _ _ => rfl
      rw [hnone]
    | false => exact Or.inl rfl
  events _ _ _ := rfl
  askIds _ _ _ h := (Option.some.inj h).symm
  askEvent _ _ _ _ h := (Option.some.inj h).symm

/-- The memory of a `DAImsiInfo`. -/
def sampleMemory : ImsiInfo := ⟨"", "", "", "", "", 0, "", 0, "", "", 0⟩

/-- A test: `phase3` does not begin here, or everything is at hand. -/
def gatheredTest (s : State kind) : Bool :=
  s.worker.isNone ||
    !decide (s.core.m_nextphase = phase3 ∧ ready phase3 s.core.m_dbexecuted s.core.data = true) ||
    decide (s.callbacks.isEmpty = true ∧ s.core.pending = [] ∧ s.core.data.extIdLst = ["ue@a"] ∧
      s.core.data.evtIdLst = [⟨"scef.a", 7⟩])

/-- A run of the sample ULR: first the worker before the database, up to the answer with the
external identifiers, and then everything that can arrive before the worker. -/
def sampleEventRun (n : Nat) : State kind :=
  greedy (code (fun _ => true) sampleUlr) (sampleEventEnv true) gatheredTest
    [.work, .loop, .callback 0, .callback 1, .callback 2, .callback 3, .deliver 2, .deliver 0,
      .finish 0, .take] n
    (greedy (code (fun _ => true) sampleUlr) (sampleEventEnv true) gatheredTest workFirst 35
      (State.init phase1 (Data.init sampleMemory sampleMemory)))

theorem gathered_of_test {s t : State kind} {e : Env kind} {m : Move} (h : gatheredTest s = true)
    (hb : Begins s m) (hx : exec (code (fun _ => true) sampleUlr) s (e, m) = some t) :
    Gathered (sampleContent true) sampleMemory "001010000000001" s := by
  obtain ⟨rfl, hphase, hready⟩ := hb
  have hw : s.worker.isNone = false := by
    obtain ⟨_, hst⟩ := exec_cases hx
    cases hst with
    | delete e hw => rw [hw]; rfl
    | body e hw => rw [hw]; rfl
    | leave e hw => rw [hw]; rfl
  simp only [gatheredTest, hw, hphase, hready, and_self, decide_true, Bool.not_true, Bool.or_false,
    Bool.false_or, decide_eq_true_eq, List.isEmpty_iff] at h
  obtain ⟨hc, hp, hext, hids⟩ := h
  refine ⟨hc, by rw [hp]; exact nofun, by rw [hext]; rfl, ⟨sampleRow, rfl, ?_⟩, ?_⟩
  · rw [hids]
    rfl
  · exact List.nodup_singleton _

theorem sampleEventRun_run (n : Nat) :
    Run (code (fun _ => true) sampleUlr) (fun s l => (sampleContent true).Answers l.1 ∧
        ((sampleContent true).NoEvents sampleMemory sampleMemory "001010000000001" ∨
          (Begins s l.2 → Gathered (sampleContent true) sampleMemory "001010000000001" s)))
      (State.init phase1 (Data.init sampleMemory sampleMemory)) (sampleEventRun n) := by
  have hrun : Run (code (fun _ => true) sampleUlr)
      (fun s l => l.1 = sampleEventEnv true ∧ gatheredTest s = true)
      (State.init phase1 (Data.init sampleMemory sampleMemory)) (sampleEventRun n) :=
    (greedy_run (fun _ _ h => ⟨rfl, h⟩) _ _ _).trans (greedy_run (fun _ _ h => ⟨rfl, h⟩) _ _ _)
  refine hrun.strengthen fun s l t _ hC hx => ?_
  obtain ⟨e, m⟩ := l
  obtain ⟨rfl, htest⟩ := hC
  exact ⟨sampleEventEnv_answers true, Or.inr fun hb => gathered_of_test htest hb hx⟩

theorem sampleContent_plain :
    (sampleContent true).PlainTexts sampleMemory sampleMemory "001010000000001" where
  request := by decide
  extIds := by
    intro x hx
    obtain rfl := List.mem_singleton.mp hx
    decide
  unwritten := by
    intro id hid
    obtain rfl := List.mem_singleton.mp hid
    decide
  ofExtIds _ _ _ hid := absurd hid List.not_mem_nil
  subscriber := by
    intro id hid
    obtain rfl := List.mem_singleton.mp hid
    decide

theorem reported_of_run_sample :
    (sampleEventRun 60).core.answers.map (fun a => monitoring a.avps) = [["x"]] ∧
      Reported ((sampleContent true).subscriberEvents sampleMemory "001010000000001")
        (sampleEventRun 60) :=
  ⟨by decide +kernel, reported_of_run sampleContent_plain rfl (by decide)
    (sampleEventRun_run 60)⟩

/-- The run of a ULR in which the MSISDN turns out to have no events before the external identifiers
have arrived. -/
def sampleEventEarly : State kind :=
  greedy (code (fun _ => true) sampleUlr) (sampleEventEnv false) (fun _ => true)
    [.work, .loop, .callback 0, .finish 0, .take, .deliver 2, .deliver 0] 60
    (State.init phase1 (Data.init sampleMemory sampleMemory))

/-- `phase3` begins, and the event of the external identifier is not in the ULA. -/
theorem not_reported :
    ∃ (D : Content) (s : State kind),
      Run (code (fun _ => true) sampleUlr) (fun _ l => D.Answers l.1)
        (State.init phase1 (Data.init sampleMemory sampleMemory)) s ∧
      s.core.answers.map (·.result) = [.resultCode erDiameterSuccess] ∧
      (D.getEventsFromImsi sampleMemory "001010000000001").map (·.mec_json) = ["x"] ∧
      ¬ Reported (D.subscriberEvents sampleMemory "001010000000001") s := by
  refine ⟨sampleContent false, sampleEventEarly,
    greedy_run (fun _ _ _ => sampleEventEnv_answers false) _ _ _, by decide +kernel, rfl, fun h => ?_⟩
  have hans : sampleEventEarly.core.answers.map (fun a => (a.result, monitoring a.avps)) =
      [(.resultCode erDiameterSuccess, [])] := by
    decide +kernel
  obtain ⟨a, ha, ha'⟩ := List.mem_map.mp (hans ▸ List.mem_cons_self)
  obtain ⟨hres, hmon⟩ := Prod.mk.inj ha'
  have hperm := h.1 a ha hres
  rw [hmon] at hperm
  exact absurd hperm.length_eq (by decide)

end OpenairHss.Ulr
