import OpenairHss.DataAccess.Events
import Mathlib.Data.List.Nodup
import Mathlib.Data.List.Count

/-!
# The events of an IMSI

`DataAccess::getEventsFromImsi` lists the event ids of the MSISDN of an IMSI and of each of its
external identifiers, and reads one event for each of them; `FDHss::sendRIR_ChangeImsiImeiSvAssn`
reports on those that it has read.  The queries quote the IMSI, the external identifiers and the
SCEF-IDs as they are; `Queries` says what is answered where these are plain.

Nothing takes an id out that is listed twice, and a SCEF-Reference-ID, which the tables hold in 64
bits, is read into 32.  `once_iff`: for plain texts, each event of the IMSI is read exactly once, and
no other, exactly if no event is listed twice and none, nor its truncation, stands at a number that
does not fit.
-/

namespace OpenairHss.DataAccess

open Cql

/-! ### Tables -/

/-- The columns of `events` that are not in its key. -/
structure EventRow where
  msisdn : Option Int
  extid : Option String
  monitoring_event_configuration : Option String
  monitoring_type : Option Int
  user_identifier : Option String

/-- SCEF-ID and SCEF-Reference-ID, as a table holds them. -/
abbrev StoredId : Type := String × Int

/-- What the tables hold: the MSISDN of `users_imsi`, which may be null, and the rows of the others.
No primary key occurs twice. -/
structure Tables where
  users_imsi : String → Option (Option Int)
  extid_imsi_xref : List (String × String)
  events_msisdn : List (Int × StoredId)
  events_extid : List (String × StoredId)
  events : StoredId → Option EventRow
  xref_nodup : extid_imsi_xref.Nodup
  msisdn_nodup : events_msisdn.Nodup
  extid_nodup : events_extid.Nodup

def partition {α β : Type} [DecidableEq α] (rows : List (α × β)) (key : α) : List β :=
  rows.filterMap fun row => if row.1 = key then some row.2 else none

theorem mem_partition {α β : Type} [DecidableEq α] {rows : List (α × β)} {key : α} {x : β} :
    x ∈ partition rows key ↔ (key, x) ∈ rows := by
  simp only [partition, List.mem_filterMap, Option.ite_none_right_eq_some]
  constructor
  · rintro ⟨row, hrow, rfl, h⟩
    obtain rfl := Option.some.inj h
    exact hrow
  · exact fun h => ⟨_, h, rfl, rfl⟩

namespace Tables

variable (db : Tables)

/-! ### What the tables hold -/

/-- `GET_EVENT_DATA` of a SCEF-Reference-ID: it is read as `int64_t` and cast to `uint32_t`. -/
def truncated (id : StoredId) : StoredId := (id.1, id.2 % 2 ^ 32)

/-- The external identifiers of an IMSI. -/
def extIds (imsi : String) : List String := partition db.extid_imsi_xref imsi

/-- The event ids of an MSISDN, as they stand in the table. -/
def idsOfMsisdn (msisdn : Int) : List StoredId := partition db.events_msisdn msisdn

/-- The event ids of an external identifier. -/
def idsOfExtId (extid : String) : List StoredId := partition db.events_extid extid

/-- The event in the row for an id that has been read. -/
def eventOf (id : StoredId) : Option DAEvent :=
  (db.events id).map fun row =>
    { scef_id := id.1
      scef_ref_id := (id.2 % 2 ^ 32).toNat
      msisdn := row.msisdn.getD 0
      extid := row.extid.getD ""
      mec_json := row.monitoring_event_configuration.getD ""
      ui_json := row.user_identifier.getD ""
      monitoring_type := row.monitoring_type.getD 0 }

/-- The ids for an IMSI; `mem` is what stands in the memory of the MSISDN of `info`. -/
def listed (mem : Int) (imsi : String) : List StoredId :=
  match db.users_imsi imsi with
  | none => []
  | some msisdn =>
    db.idsOfMsisdn (msisdn.getD mem) ++ (db.extIds imsi).flatMap db.idsOfExtId

/-- The events of these ids. -/
def eventsOfImsi (mem : Int) (imsi : String) : List DAEvent :=
  ((db.listed mem imsi).map truncated).filterMap db.eventOf

/-- What the queries for the events of an IMSI quote is plain. -/
structure PlainTexts (mem : Int) (imsi : String) : Prop where
  request : Plain imsi
  extid : ∀ x ∈ db.extIds imsi, Plain x
  scef_id : ∀ id ∈ db.listed mem imsi, Plain id.1

end Tables

/-! ### The source -/

/-- What the queries of `getEventsFromImsi` answer: `none` is an error, such as the rejection of a
statement.  A query with plain texts is answered with what the tables hold; of the others nothing is
asked. -/
structure Queries (db : Tables) where
  getImsiInfo : String → Option (Option (Option Int))
  getExtIdsFromImsi : String → Option (List String)
  getEventIdsFromMsisdn : Int → Option (List StoredId)
  getEventIdsFromExtId : String → Option (List StoredId)
  getEvent : StoredId → Option (Option DAEvent)
  getImsiInfo_plain : ∀ {imsi}, Plain imsi → getImsiInfo imsi = some (db.users_imsi imsi)
  getExtIdsFromImsi_plain : ∀ {imsi}, Plain imsi → getExtIdsFromImsi imsi = some (db.extIds imsi)
  getEventIdsFromMsisdn_eq : ∀ msisdn, getEventIdsFromMsisdn msisdn = some (db.idsOfMsisdn msisdn)
  getEventIdsFromExtId_plain : ∀ {extid}, Plain extid →
    getEventIdsFromExtId extid = some (db.idsOfExtId extid)
  getEvent_plain : ∀ {id : StoredId}, Plain id.1 → getEvent id = some (db.eventOf id)

namespace Queries

variable {db : Tables} (q : Queries db)

/-- The list `evtIdLst` of `getEventsFromImsi`.  The results of `getExtIdsFromImsi` and
`getEventIdsFromMsisdn` are not looked at; `getImsiInfo` and `getEventIdsFromExtId` throw. -/
def evtIdLst (mem : Int) (imsi : String) : Option (List StoredId) := do
  match ← q.getImsiInfo imsi with
  | none => return []
  | some msisdn =>
    let extIdLst := (q.getExtIdsFromImsi imsi).getD []
    let evtIdLst := (q.getEventIdsFromMsisdn (msisdn.getD mem)).getD []
    let ids ← extIdLst.mapM q.getEventIdsFromExtId
    return evtIdLst ++ ids.flatten

/-- `getEventsFromImsi`: `none` is an exception. -/
def getEventsFromImsi (mem : Int) (imsi : String) : Option (List DAEvent) := do
  let ids ← q.evtIdLst mem imsi
  let events ← (ids.map Tables.truncated).mapM q.getEvent
  return events.reduceOption

end Queries

def changeImsiImeiSvAssn : Int := 3

/-- The RIR of `sendRIR_ChangeImsiImeiSvAssn`; the MSISDN before its TBCD encoding. -/
structure ChangeRir where
  destination_host : String
  destination_realm : Option String
  user_name : String
  msisdn : Int
  scef_id : String
  scef_reference_id : Nat
  monitoring_type : Int

/-- What stands behind the first dot of a SCEF-ID. -/
def realmOf (scef_id : String) : Option String :=
  match scef_id.toList.dropWhile (· ≠ '.') with
  | [] => none
  | _ :: realm => some (String.ofList realm)

/-- The RIRs for a list of events. -/
def changeRirs (events : List DAEvent) (imsi : String) (msisdn : Int) : List ChangeRir :=
  events.filterMap fun e =>
    if e.monitoring_type = changeImsiImeiSvAssn then
      some { destination_host := e.scef_id
             destination_realm := realmOf e.scef_id
             user_name := imsi
             msisdn := msisdn
             scef_id := e.scef_id
             scef_reference_id := e.scef_ref_id
             monitoring_type := changeImsiImeiSvAssn }
    else none

/-- `FDHss::sendRIR_ChangeImsiImeiSvAssn`: the RIRs that it sends, unless it throws. -/
def sendRIR_ChangeImsiImeiSvAssn {db : Tables} (q : Queries db) (mem : Int) (imsi : String)
    (msisdn : Int) : Option (List ChangeRir) :=
  (q.getEventsFromImsi mem imsi).map fun events => changeRirs events imsi msisdn

/-! ### All queries are answered -/

theorem mapM_eq_some_map {α β : Type} {f : α → Option β} {g : α → β} {l : List α}
    (h : ∀ a ∈ l, f a = some (g a)) : l.mapM f = some (l.map g) := by
  induction l with
  | nil => rfl
  | cons a l ih =>
    obtain ⟨ha, hl⟩ := List.forall_mem_cons.mp h
    rw [List.mapM_cons, ha, ih hl]
    rfl

namespace Queries

variable {db : Tables} (q : Queries db) {mem : Int} {imsi : String}

theorem evtIdLst_eq (h : db.PlainTexts mem imsi) :
    q.evtIdLst mem imsi = some (db.listed mem imsi) := by
  rw [evtIdLst, q.getImsiInfo_plain h.request, Tables.listed]
  cases db.users_imsi imsi with
  | none => rfl
  | some msisdn =>
    have hids := mapM_eq_some_map (f := q.getEventIdsFromExtId) (g := db.idsOfExtId)
      fun x hx => q.getEventIdsFromExtId_plain (h.extid x hx)
    simp only [Option.bind_eq_bind, Option.bind_some, q.getExtIdsFromImsi_plain h.request,
      q.getEventIdsFromMsisdn_eq, Option.getD_some, hids, List.flatMap_def]
    rfl

/-- **For plain texts the events of the tables are read.** -/
theorem getEventsFromImsi_eq (h : db.PlainTexts mem imsi) :
    q.getEventsFromImsi mem imsi = some (db.eventsOfImsi mem imsi) := by
  have hevents : ((db.listed mem imsi).map Tables.truncated).mapM q.getEvent =
      some (((db.listed mem imsi).map Tables.truncated).map db.eventOf) := by
    refine mapM_eq_some_map fun id hid => q.getEvent_plain ?_
    obtain ⟨id', hid', rfl⟩ := List.mem_map.mp hid
    exact h.scef_id id' hid'
  rw [getEventsFromImsi, q.evtIdLst_eq h, Option.bind_eq_bind, Option.bind_some, hevents,
    Option.bind_eq_bind, Option.bind_some, Tables.eventsOfImsi]
  exact congrArg some List.filterMap_map

end Queries

/-! ### The events of an IMSI -/

namespace Tables

variable (db : Tables)

/-- The event with this id is listed for the MSISDN of the IMSI, or for one of its external
identifiers. -/
def Associated (imsi : String) (id : StoredId) : Prop :=
  (∃ msisdn, db.users_imsi imsi = some (some msisdn) ∧ (msisdn, id) ∈ db.events_msisdn) ∨
    ∃ extid, (imsi, extid) ∈ db.extid_imsi_xref ∧ (extid, id) ∈ db.events_extid

/-- There is a row for the event. -/
def Stored (id : StoredId) : Prop := (db.events id).isSome = true

instance (id : StoredId) : Decidable (db.Stored id) := inferInstanceAs (Decidable (_ = _))

/-- The SCEF-Reference-ID fits into 32 bits. -/
def Fits (id : StoredId) : Prop := truncated id = id

theorem truncated_truncated (id : StoredId) : truncated (truncated id) = truncated id := by
  rw [truncated, truncated]
  simp

/-- If there is a row for the IMSI, what is associated with it is listed. -/
theorem mem_listed {mem : Int} {imsi : String} {id : StoredId} (h : db.Associated imsi id)
    {msisdn : Option Int} (hrow : db.users_imsi imsi = some msisdn) : id ∈ db.listed mem imsi := by
  rw [listed, hrow]
  dsimp only
  rw [List.mem_append]
  rcases h with ⟨m, hm, h⟩ | ⟨x, hx, h⟩
  · obtain rfl := Option.some.inj (hrow.symm.trans hm)
    exact Or.inl (mem_partition.mpr h)
  · exact Or.inr (List.mem_flatMap.mpr ⟨x, mem_partition.mpr hx, mem_partition.mpr h⟩)

/-- The ids of the events that are read. -/
def readIds (mem : Int) (imsi : String) : List StoredId :=
  ((db.listed mem imsi).filter fun id => db.Stored (truncated id)).map truncated

theorem eventOf_id {id : StoredId} {e : DAEvent} (h : db.eventOf (truncated id) = some e) :
    (e.scef_id, (e.scef_ref_id : Int)) = truncated id := by
  obtain ⟨row, -, rfl⟩ := Option.map_eq_some_iff.mp h
  refine Prod.ext rfl ?_
  simp only [truncated]
  omega

/-- The events that are read, by their ids. -/
theorem eventsOfImsi_eq (mem : Int) (imsi : String) :
    (db.eventsOfImsi mem imsi).map (fun e => ((e.scef_id, (e.scef_ref_id : Int)) : StoredId)) =
      db.readIds mem imsi := by
  rw [eventsOfImsi, readIds]
  induction db.listed mem imsi with
  | nil => rfl
  | cons id ids ih =>
    rw [List.map_cons]
    cases hrow : db.eventOf (truncated id) with
    | none =>
      have hno : ¬ db.Stored (truncated id) := by
        intro h
        obtain ⟨row, h⟩ := Option.isSome_iff_exists.mp h
        rw [eventOf, h] at hrow
        exact absurd hrow nofun
      rw [List.filterMap_cons_none hrow, List.filter_cons_of_neg (by simpa using hno)]
      exact ih
    | some e =>
      have hyes : db.Stored (truncated id) := by
        obtain ⟨row, h, -⟩ := Option.map_eq_some_iff.mp hrow
        rw [Stored, h]
        rfl
      rw [List.filterMap_cons_some hrow, List.filter_cons_of_pos (by simpa using hyes),
        List.map_cons, List.map_cons, ih, db.eventOf_id hrow]

/-! ### Exactly once -/

/-- Each event of the IMSI is among the events of the listed ids exactly once and no other is; and so
there is one RIR for each of them that is about a change of IMSI and IMEI. -/
structure HoldOnce (mem : Int) (imsi : String) (msisdn : Int) : Prop where
  events : ((db.eventsOfImsi mem imsi).map
    fun e => ((e.scef_id, (e.scef_ref_id : Int)) : StoredId)).Nodup
  events_iff : ∀ id : StoredId, (∃ e ∈ db.eventsOfImsi mem imsi,
    (e.scef_id, (e.scef_ref_id : Int)) = id) ↔ db.Associated imsi id ∧ db.Stored id
  rirs : ((changeRirs (db.eventsOfImsi mem imsi) imsi msisdn).map
    fun r => ((r.scef_id, (r.scef_reference_id : Int)) : StoredId)).Nodup
  rirs_iff : ∀ id : StoredId, (∃ r ∈ changeRirs (db.eventsOfImsi mem imsi) imsi msisdn,
    (r.scef_id, (r.scef_reference_id : Int)) = id) ↔
      db.Associated imsi id ∧ ∃ row, db.events id = some row ∧
        row.monitoring_type = some changeImsiImeiSvAssn

/-- What must hold of the tables: an event that would be read is associated with the IMSI, its
number fits, and it is listed once; and an event that is associated is listed, and its number
fits. -/
structure Distinct (mem : Int) (imsi : String) : Prop where
  listed : ∀ id ∈ db.listed mem imsi, db.Stored (truncated id) →
    db.Associated imsi id ∧ Fits id ∧ (db.listed mem imsi).count id = 1
  associated : ∀ id, db.Associated imsi id → db.Stored id → id ∈ db.listed mem imsi ∧ Fits id

theorem mem_readIds {mem : Int} {imsi : String} {id : StoredId} :
    id ∈ db.readIds mem imsi ↔
      ∃ id' ∈ db.listed mem imsi, db.Stored (truncated id') ∧ truncated id' = id := by
  simp only [readIds, List.mem_map, List.mem_filter, decide_eq_true_eq, and_assoc]

/-- Each id is read once, and those that are associated and stored. -/
theorem readIds_iff (mem : Int) (imsi : String) :
    ((db.readIds mem imsi).Nodup ∧
      ∀ id, id ∈ db.readIds mem imsi ↔ db.Associated imsi id ∧ db.Stored id) ↔
      db.Distinct mem imsi := by
  have hfilter : ∀ {id}, id ∈ (db.listed mem imsi).filter (fun id => db.Stored (truncated id)) ↔
      id ∈ db.listed mem imsi ∧ db.Stored (truncated id) := by
    intro id
    rw [List.mem_filter, decide_eq_true_eq]
  constructor
  · rintro ⟨hnodup, hiff⟩
    have hinj := List.inj_on_of_nodup_map hnodup
    have hfits : ∀ id ∈ db.listed mem imsi, db.Stored (truncated id) →
        db.Associated imsi id ∧ Fits id := by
      intro id hid hstored
      obtain ⟨hassociated, -⟩ := (hiff (truncated id)).mp (db.mem_readIds.mpr ⟨id, hid, hstored, rfl⟩)
      obtain ⟨msisdn, hrow⟩ : ∃ msisdn, db.users_imsi imsi = some msisdn := by
        rw [Tables.listed] at hid
        cases hrow : db.users_imsi imsi with
        | none =>
          rw [hrow] at hid
          exact absurd hid List.not_mem_nil
        | some msisdn => exact ⟨msisdn, rfl⟩
      -- the truncation is listed as well, so it is the same entry
      have hlisted : truncated id ∈ db.listed mem imsi := db.mem_listed hassociated hrow
      have heq : truncated id = id := hinj (hfilter.mpr ⟨hlisted, by
        rwa [truncated_truncated]⟩) (hfilter.mpr ⟨hid, hstored⟩) (truncated_truncated id)
      exact ⟨heq ▸ hassociated, heq⟩
    refine ⟨fun id hid hstored => ?_, fun id hassociated hstored => ?_⟩
    · obtain ⟨hassociated, hfit⟩ := hfits id hid hstored
      refine ⟨hassociated, hfit, ?_⟩
      have hone := List.nodup_iff_count_eq_one.mp (List.Nodup.of_map _ hnodup) id
        (hfilter.mpr ⟨hid, hstored⟩)
      rwa [List.count_filter (by simpa using hstored)] at hone
    · obtain ⟨id', hid', hstored', rfl⟩ :=
        db.mem_readIds.mp ((hiff id).mpr ⟨hassociated, hstored⟩)
      have hfit : truncated id' = id' := (hfits id' hid' hstored').2
      rw [hfit]
      exact ⟨hid', hfit⟩
  · intro h
    have hfit : ∀ {id}, id ∈ (db.listed mem imsi).filter (fun id => db.Stored (truncated id)) →
        truncated id = id := fun hid =>
      (h.listed _ (hfilter.mp hid).1 (hfilter.mp hid).2).2.1
    refine ⟨List.Nodup.map_on (fun id hid id' hid' heq => ?_) ?_, fun id => ?_⟩
    · rwa [hfit hid, hfit hid'] at heq
    · refine List.nodup_iff_count_eq_one.mpr fun id hid => ?_
      obtain ⟨hmem, hstored⟩ := hfilter.mp hid
      rw [List.count_filter (by simpa using hstored)]
      exact (h.listed id hmem hstored).2.2
    · rw [db.mem_readIds]
      constructor
      · rintro ⟨id', hid', hstored, rfl⟩
        obtain ⟨hassociated, hfits, -⟩ := h.listed id' hid' hstored
        rw [hfits] at hstored ⊢
        exact ⟨hassociated, hstored⟩
      · rintro ⟨hassociated, hstored⟩
        obtain ⟨hlisted, hfits⟩ := h.associated id hassociated hstored
        exact ⟨id, hlisted, hfits.symm ▸ hstored, hfits⟩

theorem mem_eventsOfImsi {mem : Int} {imsi : String} {id : StoredId} :
    (∃ e ∈ db.eventsOfImsi mem imsi, (e.scef_id, (e.scef_ref_id : Int)) = id) ↔
      id ∈ db.readIds mem imsi := by
  rw [← db.eventsOfImsi_eq, List.mem_map]

/-- What an event that is read says of its row. -/
theorem row_of_mem {mem : Int} {imsi : String} {e : DAEvent}
    (h : e ∈ db.eventsOfImsi mem imsi) :
    ∃ row, db.events (e.scef_id, e.scef_ref_id) = some row ∧
      e.monitoring_type = row.monitoring_type.getD 0 := by
  obtain ⟨id, hid, he⟩ := List.mem_filterMap.mp h
  obtain ⟨id', -, rfl⟩ := List.mem_map.mp hid
  rw [db.eventOf_id he]
  obtain ⟨row, hrow, rfl⟩ := Option.map_eq_some_iff.mp he
  exact ⟨row, hrow, rfl⟩

/-- The RIRs, by the ids that they carry. -/
theorem changeRirs_eq (mem : Int) (imsi : String) (msisdn : Int) :
    (changeRirs (db.eventsOfImsi mem imsi) imsi msisdn).map
        (fun r => ((r.scef_id, (r.scef_reference_id : Int)) : StoredId)) =
      ((db.eventsOfImsi mem imsi).filter fun e => e.monitoring_type = changeImsiImeiSvAssn).map
        fun e => (e.scef_id, (e.scef_ref_id : Int)) := by
  rw [changeRirs]
  induction db.eventsOfImsi mem imsi with
  | nil => rfl
  | cons e events ih =>
    by_cases he : e.monitoring_type = changeImsiImeiSvAssn
    · rw [List.filterMap_cons, if_pos he, List.filter_cons_of_pos (by simpa using he)]
      exact congrArg _ ih
    · rw [List.filterMap_cons, if_neg he, List.filter_cons_of_neg (by simpa using he)]
      exact ih

theorem holdOnce_iff (mem : Int) (imsi : String) (msisdn : Int) :
    db.HoldOnce mem imsi msisdn ↔ db.Distinct mem imsi := by
  rw [← db.readIds_iff]
  constructor
  · intro h
    refine ⟨db.eventsOfImsi_eq mem imsi ▸ h.events, fun id => ?_⟩
    rw [← db.mem_eventsOfImsi]
    exact h.events_iff id
  · rintro ⟨hnodup, hiff⟩
    have hevents : ((db.eventsOfImsi mem imsi).map
        fun e => ((e.scef_id, (e.scef_ref_id : Int)) : StoredId)).Nodup :=
      db.eventsOfImsi_eq mem imsi ▸ hnodup
    refine ⟨hevents, fun id => db.mem_eventsOfImsi.trans (hiff id), ?_, fun id => ?_⟩
    · rw [db.changeRirs_eq]
      exact hevents.sublist (List.filter_sublist.map _)
    · have hmem : (∃ r ∈ changeRirs (db.eventsOfImsi mem imsi) imsi msisdn,
          (r.scef_id, (r.scef_reference_id : Int)) = id) ↔
            ∃ e ∈ db.eventsOfImsi mem imsi, e.monitoring_type = changeImsiImeiSvAssn ∧
              (e.scef_id, (e.scef_ref_id : Int)) = id := by
        have hlists := db.changeRirs_eq mem imsi msisdn
        have heq := iff_of_eq (congrArg (id ∈ ·) hlists)
        simp only [List.mem_map, List.mem_filter, decide_eq_true_eq, and_assoc] at heq
        exact heq
      rw [hmem]
      constructor
      · rintro ⟨e, he, htype, rfl⟩
        obtain ⟨row, hrow, hrowtype⟩ := db.row_of_mem he
        have hassociated := ((hiff _).mp (db.mem_eventsOfImsi.mp ⟨e, he, rfl⟩)).1
        refine ⟨hassociated, row, hrow, ?_⟩
        rw [htype] at hrowtype
        cases hm : row.monitoring_type with
        | none =>
          rw [hm] at hrowtype
          exact absurd hrowtype (by decide)
        | some m =>
          rw [hm] at hrowtype
          exact congrArg some hrowtype.symm
      · rintro ⟨hassociated, row, hrow, htype⟩
        have hstored : db.Stored id := by
          rw [Stored, hrow]
          rfl
        obtain ⟨e, he, rfl⟩ := db.mem_eventsOfImsi.mpr ((hiff id).mpr ⟨hassociated, hstored⟩)
        obtain ⟨row', hrow', hrowtype⟩ := db.row_of_mem he
        obtain rfl : row = row' := Option.some.inj (hrow.symm.trans hrow')
        refine ⟨e, he, ?_, rfl⟩
        rw [hrowtype, htype, Option.getD_some]

end Tables

namespace Queries

variable {db : Tables} (q : Queries db)

/-- Each event of the IMSI is read exactly once and no other is; and so one RIR is sent for each of
them that is about a change of IMSI and IMEI. -/
structure Once (mem : Int) (imsi : String) (msisdn : Int) : Prop where
  events : ∃ events, q.getEventsFromImsi mem imsi = some events ∧
    (events.map fun e => ((e.scef_id, (e.scef_ref_id : Int)) : StoredId)).Nodup ∧
    ∀ id : StoredId, (∃ e ∈ events, (e.scef_id, (e.scef_ref_id : Int)) = id) ↔
      db.Associated imsi id ∧ db.Stored id
  rirs : ∃ rirs, sendRIR_ChangeImsiImeiSvAssn q mem imsi msisdn = some rirs ∧
    (rirs.map fun r => ((r.scef_id, (r.scef_reference_id : Int)) : StoredId)).Nodup ∧
    ∀ id : StoredId, (∃ r ∈ rirs, (r.scef_id, (r.scef_reference_id : Int)) = id) ↔
      db.Associated imsi id ∧ ∃ row, db.events id = some row ∧
        row.monitoring_type = some changeImsiImeiSvAssn

/-- **When each event of an IMSI is read, and reported on, exactly once.** -/
theorem once_iff {mem : Int} {imsi : String} (hplain : db.PlainTexts mem imsi) (msisdn : Int) :
    q.Once mem imsi msisdn ↔ db.Distinct mem imsi := by
  have hread := q.getEventsFromImsi_eq hplain
  have hsent : sendRIR_ChangeImsiImeiSvAssn q mem imsi msisdn =
      some (changeRirs (db.eventsOfImsi mem imsi) imsi msisdn) := by
    rw [sendRIR_ChangeImsiImeiSvAssn, hread]
    rfl
  rw [← db.holdOnce_iff mem imsi msisdn]
  constructor
  · rintro ⟨⟨events, hevents, h⟩, rirs, hrirs, h'⟩
    obtain rfl := Option.some.inj (hread.symm.trans hevents)
    obtain rfl := Option.some.inj (hsent.symm.trans hrirs)
    exact ⟨h.1, h.2, h'.1, h'.2⟩
  · intro h
    exact ⟨⟨_, hread, h.events, h.events_iff⟩, _, hsent, h.rirs, h.rirs_iff⟩

end Queries

/-! ### An event with two identities -/

/-- Queries that are all answered. -/
def Tables.queries (db : Tables) : Queries db where
  getImsiInfo imsi := some (db.users_imsi imsi)
  getExtIdsFromImsi imsi := some (db.extIds imsi)
  getEventIdsFromMsisdn msisdn := some (db.idsOfMsisdn msisdn)
  getEventIdsFromExtId extid := some (db.idsOfExtId extid)
  getEvent id := some (db.eventOf id)
  getImsiInfo_plain _ := rfl
  getExtIdsFromImsi_plain _ := rfl
  getEventIdsFromMsisdn_eq _ := rfl
  getEventIdsFromExtId_plain _ := rfl
  getEvent_plain _ := rfl

/-- The event 7 stands under the MSISDN of the subscriber and under an external identifier. -/
def twoIdentities : Tables where
  users_imsi imsi := if imsi = "001010000000001" then some (some 33600000001) else none
  extid_imsi_xref := [("001010000000001", "a@b")]
  events_msisdn := [(33600000001, ("scef", 7))]
  events_extid := [("a@b", ("scef", 7))]
  events id := if id = ("scef", 7) then some ⟨some 33600000001, some "a@b", none, some 3, none⟩ else none
  xref_nodup := List.nodup_singleton _
  msisdn_nodup := List.nodup_singleton _
  extid_nodup := List.nodup_singleton _

theorem twoIdentities_plain : twoIdentities.PlainTexts 0 "001010000000001" where
  request := by decide
  extid := by
    intro x hx
    obtain rfl := List.mem_singleton.mp hx
    decide
  scef_id := by
    intro id hid
    have hlisted : twoIdentities.listed 0 "001010000000001" = [("scef", 7), ("scef", 7)] := by
      decide +kernel
    rw [hlisted] at hid
    obtain rfl : id = ("scef", 7) := by simpa using hid
    decide

theorem once_iff_twoIdentities :
    twoIdentities.queries.Once 0 "001010000000001" 33600000001 ↔
      twoIdentities.Distinct 0 "001010000000001" :=
  twoIdentities.queries.once_iff twoIdentities_plain 33600000001

/-- It is read twice, and reported on twice. -/
theorem not_once :
    ¬ ∀ (db : Tables) (q : Queries db) (mem : Int) (imsi : String) (msisdn : Int),
      q.Once mem imsi msisdn := by
  intro h
  obtain ⟨events, hevents, hnodup, -⟩ :=
    (h twoIdentities twoIdentities.queries 0 "001010000000001" 33600000001).events
  have hread : (twoIdentities.queries.getEventsFromImsi 0 "001010000000001").map
      (List.map fun e => ((e.scef_id, (e.scef_ref_id : Int)) : StoredId)) =
        some [("scef", 7), ("scef", 7)] := by
    decide +kernel
  rw [hevents] at hread
  rw [Option.some.inj hread] at hnodup
  exact absurd hnodup (by decide)

end OpenairHss.DataAccess
