import OpenairHss.DataAccess.Schema
import OpenairHss.Lib.Index
import OpenairHss.Lib.Quoted
import OpenairHss.Lib.Steps

/-!
# The event tables

`DataAccess::addEvent`, `getEvent` and `deleteEvent`.  An event stands in the table `events` and,
for its MSISDN and its external identifier, in the tables `events_msisdn` and `events_extid`, by
which it is found.

`addEvent` leaves the entries of an event that it overwrites, and the last statement of
`deleteEvent` has the external identifier without quotes, so that it is rejected when the event has
one.
-/

namespace OpenairHss.DataAccess

open Cql Index Steps

structure DAEvent where
  scef_id : String
  scef_ref_id : Nat
  msisdn : Int
  extid : String
  mec_json : String
  ui_json : String
  monitoring_type : Int

/-! ### Statements -/

def insertEventText (e : DAEvent) : String :=
  "INSERT INTO events (scef_id, scef_ref_id, msisdn, extid, monitoring_event_configuration, user_identifier, monitoring_type) VALUES ('"
    ++ e.scef_id ++ "'," ++ toString e.scef_ref_id ++ "," ++ toString e.msisdn ++ ",'" ++ e.extid
    ++ "','" ++ e.mec_json ++ "','" ++ e.ui_json ++ "'," ++ toString e.monitoring_type ++ ")"

def insertMsisdnText (e : DAEvent) : String :=
  "INSERT INTO events_msisdn (msisdn, scef_id, scef_ref_id) VALUES (" ++ toString e.msisdn ++ ",'"
    ++ e.scef_id ++ "'," ++ toString e.scef_ref_id ++ ")"

def insertExtidText (e : DAEvent) : String :=
  "INSERT INTO events_extid (extid, scef_id, scef_ref_id) VALUES ('" ++ e.extid ++ "','"
    ++ e.scef_id ++ "'," ++ toString e.scef_ref_id ++ ")"

def getEventText (scef_id : String) (scef_ref_id : Nat) : String :=
  "SELECT * FROM events WHERE scef_id = '" ++ scef_id ++ "' AND scef_ref_id = "
    ++ toString scef_ref_id

def deleteEventText (scef_id : String) (scef_ref_id : Nat) : String :=
  "DELETE FROM events WHERE scef_id = '" ++ scef_id ++ "' AND scef_ref_id = "
    ++ toString scef_ref_id

def deleteMsisdnText (msisdn : Int) (scef_id : String) (scef_ref_id : Nat) : String :=
  "DELETE FROM events_msisdn WHERE msisdn=" ++ toString msisdn ++ " AND scef_id='" ++ scef_id
    ++ "' AND scef_ref_id=" ++ toString scef_ref_id

def deleteExtidText (extid scef_id : String) (scef_ref_id : Nat) : String :=
  "DELETE FROM events_extid WHERE extid=" ++ extid ++ " AND scef_id='" ++ scef_id
    ++ "' AND scef_ref_id=" ++ toString scef_ref_id

/-! ### Functions -/

/-- `addEvent`: the tables after it, and whether it returned. -/
def addEvent (e : DAEvent) : Db → Db × Bool :=
  dbExecuteAll ([insertEventText e]
    ++ (if e.msisdn ≠ 0 then [insertMsisdnText e] else [])
    ++ (if e.extid ≠ "" then [insertExtidText e] else []))

/-- A column with a number, for a target that holds 0. -/
def intColumn (row : Row) (col : String) : Int := intColumnOr 0 row col

/-- The event that `getEvent` fills in; `scef_ref_id` is cast to `uint32_t`. -/
def eventOfRow (row : Row) : DAEvent where
  scef_id := textColumn row "scef_id"
  scef_ref_id := (intColumn row "scef_ref_id" % 2 ^ 32).toNat
  msisdn := intColumn row "msisdn"
  extid := textColumn row "extid"
  mec_json := textColumn row "monitoring_event_configuration"
  ui_json := textColumn row "user_identifier"
  monitoring_type := intColumn row "monitoring_type"

/-- `getEvent`: `none` is an exception. -/
def getEvent (db : Db) (scef_id : String) (scef_ref_id : Nat) : Option (Option DAEvent) :=
  (dbExecute db (getEventText scef_id scef_ref_id)).map fun r => r.2.map eventOfRow

def deleteEvent (scef_id : String) (scef_ref_id : Nat) (db : Db) : Db × Bool :=
  match getEvent db scef_id scef_ref_id with
  | none => (db, false)
  | some none => (db, true)
  | some (some event) =>
    dbExecuteAll ([deleteEventText scef_id scef_ref_id]
      ++ (if event.msisdn ≠ 0 then [deleteMsisdnText event.msisdn scef_id scef_ref_id] else [])
      ++ (if event.extid ≠ "" then [deleteExtidText event.extid scef_id scef_ref_id] else [])) db

/-! ### The statements as they are meant -/

def eventKey (scef_id : List Char) (scef_ref_id : Int) : List Value :=
  [.text scef_id, .int scef_ref_id]

def msisdnKey (msisdn : Int) (scef_id : List Char) (scef_ref_id : Int) : List Value :=
  [.int msisdn, .text scef_id, .int scef_ref_id]

def extidKey (extid scef_id : List Char) (scef_ref_id : Int) : List Value :=
  [.text extid, .text scef_id, .int scef_ref_id]

def eventNames : List Name :=
  [name "scef_id", name "scef_ref_id", name "msisdn", name "extid",
    name "monitoring_event_configuration", name "user_identifier", name "monitoring_type"]

def eventValues (e : DAEvent) : List Value :=
  [.text e.scef_id.toList, .int e.scef_ref_id, .int e.msisdn, .text e.extid.toList,
    .text e.mec_json.toList, .text e.ui_json.toList, .int e.monitoring_type]

/-- The columns of the statements about `events_msisdn` and `events_extid`. -/
def msisdnNames : List Name := [name "msisdn", name "scef_id", name "scef_ref_id"]

def extidNames : List Name := [name "extid", name "scef_id", name "scef_ref_id"]

/-- The texts of an event stand for themselves in a statement. -/
structure DAEvent.Plain (e : DAEvent) : Prop where
  scef_id : Cql.Plain e.scef_id
  extid : Cql.Plain e.extid
  mec_json : Cql.Plain e.mec_json
  ui_json : Cql.Plain e.ui_json

/-- What the tables can hold of an event. -/
structure DAEvent.Fits (e : DAEvent) : Prop where
  scef_id : e.scef_id.toList ≠ []
  scef_ref_id : CType.bigint.fits (.int e.scef_ref_id) = true
  msisdn : CType.bigint.fits (.int e.msisdn) = true

set_option maxRecDepth 8000 in
theorem dbExecute_insertEvent {e : DAEvent} (h : e.Plain) {db : Db} {r : Db × Option Row}
    (hr : dbExecute db (insertEventText e) = some r) :
    e.Fits ∧ r.1 = db.upsert (name "events") (eventKey e.scef_id.toList e.scef_ref_id)
      (eventNames.zip (eventValues e)) := by
  have hexec : dbExecute db (insertEventText e) =
      exec schema db (.insert (name "events") eventNames (eventValues e)) := by
    unfold eventValues
    rw [← signed_natAbs e.msisdn, ← signed_natAbs e.monitoring_type]
    have htemplate : Template .between [.lit "INSERT INTO events (scef_id, scef_ref_id, msisdn, extid, monitoring_event_configuration, user_identifier, monitoring_type) VALUES ('",
        .str e.scef_id, .lit "',", .nat e.scef_ref_id, .lit ",", .int e.msisdn, .lit ",'",
        .str e.extid, .lit "','", .str e.mec_json, .lit "','", .str e.ui_json, .lit "',",
        .int e.monitoring_type, .lit ")"] _ :=
      .lit rfl rfl (.str rfl rfl rfl (.nat (.lit rfl rfl (.int (.lit rfl rfl (.str rfl rfl rfl
        (.str rfl rfl rfl (.str rfl rfl rfl (.int (.lit rfl rfl (.nil rfl)))))))))))
    refine htemplate.execute rfl ?_ db
    simp only [List.forall_mem_cons, Part.Plain]
    exact ⟨trivial, h.scef_id, trivial, trivial, trivial, trivial, trivial, h.extid, trivial,
      h.mec_json, trivial, h.ui_json, trivial, trivial, trivial, nofun⟩
  have htys : eventNames.map (fun c => events.columns.lookup c) =
      [CType.text, .bigint, .bigint, .text, .text, .text, .int].map some := by decide
  rw [hexec, exec_insert (t := events) rfl rfl, admits_zip htys (by decide) rfl] at hr
  obtain ⟨hfits, key, hkey, rfl⟩ := hr
  obtain ⟨hne, rfl⟩ := (key?_text rfl).mp hkey
  simp only [eventValues, List.forall₂_cons] at hfits
  exact ⟨⟨hne, hfits.2.1, hfits.2.2.1⟩, rfl⟩

theorem dbExecute_insertMsisdn {e : DAEvent} (h : e.Plain) (hfits : e.Fits) (db : Db) :
    dbExecute db (insertMsisdnText e) = some (db.upsert (name "events_msisdn")
      (msisdnKey e.msisdn e.scef_id.toList e.scef_ref_id)
      (msisdnNames.zip (msisdnKey e.msisdn e.scef_id.toList e.scef_ref_id)), none) := by
  have hexec : dbExecute db (insertMsisdnText e) =
      exec schema db (.insert (name "events_msisdn") msisdnNames
        (msisdnKey e.msisdn e.scef_id.toList e.scef_ref_id)) := by
    unfold msisdnKey
    rw [← signed_natAbs e.msisdn]
    have htemplate : Template .between [.lit "INSERT INTO events_msisdn (msisdn, scef_id, scef_ref_id) VALUES (",
        .int e.msisdn, .lit ",'", .str e.scef_id, .lit "',", .nat e.scef_ref_id, .lit ")"] _ :=
      .lit rfl rfl (.int (.lit rfl rfl (.str rfl rfl rfl (.nat (.lit rfl rfl (.nil rfl))))))
    refine htemplate.execute rfl ?_ db
    simp only [List.forall_mem_cons, Part.Plain]
    exact ⟨trivial, trivial, trivial, h.scef_id, trivial, trivial, trivial, nofun⟩
  have htys : msisdnNames.map (fun c => eventsMsisdn.columns.lookup c) =
      [CType.bigint, .text, .bigint].map some := by decide
  rw [hexec, exec_insert (t := eventsMsisdn) rfl rfl, admits_zip htys (by decide) rfl]
  exact ⟨.cons hfits.msisdn (.cons rfl (.cons hfits.scef_ref_id .nil)), _, (key?_int rfl).mpr rfl, rfl⟩

theorem dbExecute_insertExtid {e : DAEvent} (h : e.Plain) (hfits : e.Fits)
    (hextid : e.extid.toList ≠ []) (db : Db) :
    dbExecute db (insertExtidText e) = some (db.upsert (name "events_extid")
      (extidKey e.extid.toList e.scef_id.toList e.scef_ref_id)
      (extidNames.zip (extidKey e.extid.toList e.scef_id.toList e.scef_ref_id)), none) := by
  have hexec : dbExecute db (insertExtidText e) =
      exec schema db (.insert (name "events_extid") extidNames
        (extidKey e.extid.toList e.scef_id.toList e.scef_ref_id)) := by
    have htemplate : Template .between [.lit "INSERT INTO events_extid (extid, scef_id, scef_ref_id) VALUES ('",
        .str e.extid, .lit "','", .str e.scef_id, .lit "',", .nat e.scef_ref_id, .lit ")"] _ :=
      .lit rfl rfl (.str rfl rfl rfl (.str rfl rfl rfl (.nat (.lit rfl rfl (.nil rfl)))))
    refine htemplate.execute rfl ?_ db
    simp only [List.forall_mem_cons, Part.Plain]
    exact ⟨trivial, h.extid, trivial, h.scef_id, trivial, trivial, trivial, nofun⟩
  have htys : extidNames.map (fun c => eventsExtid.columns.lookup c) =
      [CType.text, .text, .bigint].map some := by decide
  rw [hexec, exec_insert (t := eventsExtid) rfl rfl, admits_zip htys (by decide) rfl]
  exact ⟨.cons rfl (.cons rfl (.cons hfits.scef_ref_id .nil)), _, (key?_text rfl).mpr ⟨hextid, rfl⟩, rfl⟩

section Delete

variable {scef_id : String} {ref : Nat} {db : Db}

/-- The columns of the statements about `events`. -/
def eventKeyNames : List Name := [name "scef_id", name "scef_ref_id"]

/-- What a key of `events` must be. -/
structure KeyFits (scef_id : String) (ref : Nat) : Prop where
  scef_id : scef_id.toList ≠ []
  scef_ref_id : CType.bigint.fits (.int ref) = true

theorem events_whereKey {key : List Value} :
    events.whereKey? (eventKeyNames.zip (eventKey scef_id.toList ref)) = some key ↔
      KeyFits scef_id ref ∧ eventKey scef_id.toList ref = key := by
  have htys : eventKeyNames.map (fun c => events.columns.lookup c) =
      [CType.text, .bigint].map some := by decide
  rw [whereKey?_zip htys (by decide) rfl (by decide), key?_text rfl]
  constructor
  · rintro ⟨hfits, hne, hkey⟩
    simp only [eventKey, List.forall₂_cons] at hfits
    exact ⟨⟨hne, hfits.2.1⟩, hkey⟩
  · rintro ⟨hfits, hkey⟩
    exact ⟨.cons rfl (.cons hfits.scef_ref_id .nil), hfits.scef_id, hkey⟩

theorem dbExecute_getEvent (h : Plain scef_id) {r : Db × Option Row} :
    dbExecute db (getEventText scef_id ref) = some r ↔
      KeyFits scef_id ref ∧ (db, db (name "events") (eventKey scef_id.toList ref)) = r := by
  have hexec : dbExecute db (getEventText scef_id ref) = exec schema db
      (.select (name "events") none (eventKeyNames.zip (eventKey scef_id.toList ref))) := by
    have htemplate : Template .between [.lit "SELECT * FROM events WHERE scef_id = '", .str scef_id,
        .lit "' AND scef_ref_id = ", .nat ref] _ :=
      .lit rfl rfl (.str rfl rfl rfl (.nat (.nil rfl)))
    refine htemplate.execute rfl ?_ db
    simp only [List.forall_mem_cons, Part.Plain]
    exact ⟨trivial, h, trivial, trivial, nofun⟩
  rw [hexec, exec_select_all (t := events) rfl]
  constructor
  · rintro ⟨key, hkey, rfl⟩
    obtain ⟨hfits, rfl⟩ := events_whereKey.mp hkey
    exact ⟨hfits, rfl⟩
  · rintro ⟨hfits, rfl⟩
    exact ⟨_, events_whereKey.mpr ⟨hfits, rfl⟩, rfl⟩

theorem dbExecute_deleteEvent (h : Plain scef_id) (hfits : KeyFits scef_id ref) :
    dbExecute db (deleteEventText scef_id ref) =
      some (db.set (name "events") (eventKey scef_id.toList ref) none, none) := by
  have hexec : dbExecute db (deleteEventText scef_id ref) = exec schema db
      (.delete (name "events") (eventKeyNames.zip (eventKey scef_id.toList ref))) := by
    have htemplate : Template .between [.lit "DELETE FROM events WHERE scef_id = '", .str scef_id,
        .lit "' AND scef_ref_id = ", .nat ref] _ :=
      .lit rfl rfl (.str rfl rfl rfl (.nat (.nil rfl)))
    refine htemplate.execute rfl ?_ db
    simp only [List.forall_mem_cons, Part.Plain]
    exact ⟨trivial, h, trivial, trivial, nofun⟩
  rw [hexec, exec_delete (t := events) rfl]
  exact ⟨_, events_whereKey.mpr ⟨hfits, rfl⟩, rfl⟩

theorem dbExecute_deleteMsisdn {msisdn : Int} (h : Plain scef_id)
    (hmsisdn : CType.bigint.fits (.int msisdn) = true) (hfits : KeyFits scef_id ref) :
    dbExecute db (deleteMsisdnText msisdn scef_id ref) =
      some (db.set (name "events_msisdn") (msisdnKey msisdn scef_id.toList ref) none, none) := by
  have hexec : dbExecute db (deleteMsisdnText msisdn scef_id ref) = exec schema db
      (.delete (name "events_msisdn") (msisdnNames.zip (msisdnKey msisdn scef_id.toList ref))) := by
    conv_rhs => rw [msisdnKey, ← signed_natAbs msisdn]
    have htemplate : Template .between [.lit "DELETE FROM events_msisdn WHERE msisdn=", .int msisdn,
        .lit " AND scef_id='", .str scef_id, .lit "' AND scef_ref_id=", .nat ref] _ :=
      .lit rfl rfl (.int (.lit rfl rfl (.str rfl rfl rfl (.nat (.nil rfl)))))
    refine htemplate.execute rfl ?_ db
    simp only [List.forall_mem_cons, Part.Plain]
    exact ⟨trivial, trivial, trivial, h, trivial, trivial, nofun⟩
  have htys : msisdnNames.map (fun c => eventsMsisdn.columns.lookup c) =
      [CType.bigint, .text, .bigint].map some := by decide
  rw [hexec, exec_delete (t := eventsMsisdn) rfl]
  refine ⟨_, (whereKey?_zip htys (by decide) rfl (by decide)).mpr ⟨?_, (key?_int rfl).mpr rfl⟩, rfl⟩
  exact .cons hmsisdn (.cons rfl (.cons hfits.scef_ref_id .nil))

end Delete

/-! ### The tables after a call -/

/-- A statement that stands under a condition. -/
theorem dbExecuteAll_if {c : Prop} [Decidable c] {text : String} {texts : List String} {db : Db}
    {r : Db × Option Row} (h : c → dbExecute db text = some r) :
    dbExecuteAll ((if c then [text] else []) ++ texts) db =
      dbExecuteAll texts (if c then r.1 else db) := by
  by_cases hc : c
  · rw [if_pos hc, if_pos hc, List.singleton_append, dbExecuteAll, h hc]
  · rw [if_neg hc, if_neg hc, List.nil_append]

/-- The tables after `addEvent`, if its first statement is accepted. -/
def added (e : DAEvent) (db : Db) : Db :=
  ((db.upsert (name "events") (eventKey e.scef_id.toList e.scef_ref_id)
      (eventNames.zip (eventValues e))).upsertIf (e.msisdn ≠ 0) (name "events_msisdn")
    (msisdnKey e.msisdn e.scef_id.toList e.scef_ref_id)
    (msisdnNames.zip (msisdnKey e.msisdn e.scef_id.toList e.scef_ref_id))).upsertIf (e.extid ≠ "")
  (name "events_extid") (extidKey e.extid.toList e.scef_id.toList e.scef_ref_id)
  (extidNames.zip (extidKey e.extid.toList e.scef_id.toList e.scef_ref_id))

theorem addEvent_accepted {e : DAEvent} (h : e.Plain) {db : Db} {r : Db × Option Row}
    (hr : dbExecute db (insertEventText e) = some r) : (addEvent e db).1 = added e db := by
  obtain ⟨hfits, hdb⟩ := dbExecute_insertEvent h hr
  have hextid : e.extid ≠ "" → e.extid.toList ≠ [] := fun h h' => h (String.toList_eq_nil_iff.mp h')
  have hfirst : ∀ texts, dbExecuteAll (insertEventText e :: texts) db = dbExecuteAll texts r.1 := by
    intro texts
    rw [dbExecuteAll, hr]
  rw [addEvent, List.append_assoc, List.singleton_append, hfirst, hdb,
    dbExecuteAll_if fun _ => dbExecute_insertMsisdn h hfits _, ← List.append_nil (ite _ _ _),
    dbExecuteAll_if fun hx => dbExecute_insertExtid h hfits (hextid hx) _]
  rfl

/-- The tables after `deleteEvent`, if the event is there and has no external identifier. -/
def deleted (scef_id : String) (ref : Nat) (msisdn : Int) (db : Db) : Db :=
  let db := db.set (name "events") (eventKey scef_id.toList ref) none
  if msisdn ≠ 0 then db.set (name "events_msisdn") (msisdnKey msisdn scef_id.toList ref) none
  else db

theorem deleteEvent_found {scef_id : String} {ref : Nat} {db : Db} {row : Row}
    (h : Plain scef_id) (hfits : KeyFits scef_id ref) (htyped : Typed schema db)
    (hrow : db (name "events") (eventKey scef_id.toList ref) = some row)
    (hextid : textColumn row "extid" = "") :
    (deleteEvent scef_id ref db).1 = deleted scef_id ref (intColumn row "msisdn") db := by
  have hget : getEvent db scef_id ref = some (some (eventOfRow row)) := by
    rw [getEvent, (dbExecute_getEvent h).mpr ⟨hfits, rfl⟩, Option.map_some, hrow, Option.map_some]
  have hmsisdn : CType.bigint.fits (.int (intColumn row "msisdn")) = true := by
    unfold intColumn intColumnOr
    split
    case h_1 n hn =>
      obtain ⟨ty, hty, hv⟩ := htyped _ events _ row rfl hrow _ _ hn
      obtain rfl : CType.bigint = ty := Option.some.inj (Eq.trans (by decide) hty)
      exact hv
    case h_2 => decide
  have hfirst : ∀ texts, dbExecuteAll (deleteEventText scef_id ref :: texts) db =
      dbExecuteAll texts (db.set (name "events") (eventKey scef_id.toList ref) none) := by
    intro texts
    rw [dbExecuteAll, dbExecute_deleteEvent h hfits]
  have hlast : (if (eventOfRow row).extid ≠ "" then
      [deleteExtidText (eventOfRow row).extid scef_id ref] else []) = [] :=
    if_neg fun h => h hextid
  have hlet : (eventOfRow row).msisdn = intColumn row "msisdn" := rfl
  unfold deleteEvent
  rw [hget]
  dsimp only
  rw [hlast, hlet, List.append_assoc, List.singleton_append, hfirst,
    dbExecuteAll_if fun _ => dbExecute_deleteMsisdn h hmsisdn hfits]
  rfl

/-! ### The two indexes -/

/-- **`events_msisdn` and `events_extid` list the events.** -/
structure Consistent (db : Db) : Prop where
  msisdn : ∀ (msisdn : Int) (scef_id : List Char) (ref : Int),
    (db (name "events_msisdn") (msisdnKey msisdn scef_id ref)).isSome ↔
      msisdn ≠ 0 ∧ ∃ row, db (name "events") (eventKey scef_id ref) = some row ∧
        row (name "msisdn") = some (.int msisdn)
  extid : ∀ (extid scef_id : List Char) (ref : Int),
    (db (name "events_extid") (extidKey extid scef_id ref)).isSome ↔
      extid ≠ [] ∧ ∃ row, db (name "events") (eventKey scef_id ref) = some row ∧
        row (name "extid") = some (.text extid)

/-- The events by their keys. -/
def eventRows (db : Db) (k : List Char × Int) : Option Row := db (name "events") (eventKey k.1 k.2)

/-- The attributes by which an event is listed. -/
def msisdnAttr (row : Row) : Option Int :=
  if intColumn row "msisdn" = 0 then none else some (intColumn row "msisdn")

def extidAttr (row : Row) : Option (List Char) :=
  if textColumn row "extid" = "" then none else some (textColumn row "extid").toList

def msisdnEntries (db : Db) (x : Int) (k : List Char × Int) : Prop :=
  (db (name "events_msisdn") (msisdnKey x k.1 k.2)).isSome

def extidEntries (db : Db) (x : List Char) (k : List Char × Int) : Prop :=
  (db (name "events_extid") (extidKey x k.1 k.2)).isSome

theorem msisdnAttr_eq_some {row : Row} {x : Int} :
    msisdnAttr row = some x ↔ x ≠ 0 ∧ row (name "msisdn") = some (.int x) := by
  unfold msisdnAttr intColumn intColumnOr
  split
  case h_1 n hn =>
    rw [hn]
    constructor
    · intro h
      obtain ⟨hne, h⟩ := Option.ite_none_left_eq_some.mp h
      obtain rfl := Option.some.inj h
      exact ⟨hne, rfl⟩
    · rintro ⟨hne, h⟩
      obtain rfl : n = x := by simpa using h
      rw [if_neg hne]
  case h_2 hn =>
    rw [if_pos rfl]
    exact ⟨nofun, fun h => absurd h.2 (hn x)⟩

theorem extidAttr_eq_some {row : Row} {x : List Char} :
    extidAttr row = some x ↔ x ≠ [] ∧ row (name "extid") = some (.text x) := by
  unfold extidAttr textColumn
  split
  case h_1 s hs =>
    rw [hs, String.toList_ofList]
    constructor
    · intro h
      obtain ⟨hne, h⟩ := Option.ite_none_left_eq_some.mp h
      obtain rfl := Option.some.inj h
      refine ⟨fun h' => hne ?_, rfl⟩
      rw [h']
    · rintro ⟨hne, h⟩
      obtain rfl : s = x := by simpa using h
      rw [if_neg fun h' => hne (by simpa using congrArg String.toList h')]
  case h_2 hs =>
    rw [if_pos rfl]
    exact ⟨nofun, fun h => absurd h.2 (hs x)⟩

theorem consistent_iff {db : Db} :
    Consistent db ↔ Indexes (eventRows db) msisdnAttr (msisdnEntries db) ∧
      Indexes (eventRows db) extidAttr (extidEntries db) := by
  have hm : ∀ (x : Int) (k : List Char × Int),
      (∃ row, eventRows db k = some row ∧ msisdnAttr row = some x) ↔
        x ≠ 0 ∧ ∃ row, db (name "events") (eventKey k.1 k.2) = some row ∧
          row (name "msisdn") = some (.int x) := by
    intro x k
    simp only [msisdnAttr_eq_some, eventRows]
    exact ⟨fun ⟨row, h, hne, hx⟩ => ⟨hne, row, h, hx⟩, fun ⟨hne, row, h, hx⟩ => ⟨row, h, hne, hx⟩⟩
  have hx : ∀ (x : List Char) (k : List Char × Int),
      (∃ row, eventRows db k = some row ∧ extidAttr row = some x) ↔
        x ≠ [] ∧ ∃ row, db (name "events") (eventKey k.1 k.2) = some row ∧
          row (name "extid") = some (.text x) := by
    intro x k
    simp only [extidAttr_eq_some, eventRows]
    exact ⟨fun ⟨row, h, hne, hx⟩ => ⟨hne, row, h, hx⟩, fun ⟨hne, row, h, hx⟩ => ⟨row, h, hne, hx⟩⟩
  constructor
  · intro h
    exact ⟨fun x k => (h.msisdn x k.1 k.2).trans (hm x k).symm,
      fun x k => (h.extid x k.1 k.2).trans (hx x k).symm⟩
  · rintro ⟨h₁, h₂⟩
    exact ⟨fun x s r => (h₁ x (s, r)).trans (hm x (s, r)), fun x s r => (h₂ x (s, r)).trans (hx x (s, r))⟩

section Step

variable {e : DAEvent} {db : Db}

/-- The row of an event after `addEvent`. -/
def addedRow (e : DAEvent) (db : Db) : Row := fun c =>
  (eventNames.zip (eventValues e)).lookup c <|>
    (db (name "events") (eventKey e.scef_id.toList e.scef_ref_id)).bind fun row => row c

theorem msisdnAttr_addedRow :
    msisdnAttr (addedRow e db) = if e.msisdn = 0 then none else some e.msisdn := rfl

theorem extidAttr_addedRow :
    extidAttr (addedRow e db) = if e.extid = "" then none else some e.extid.toList := by
  have h : textColumn (addedRow e db) "extid" = e.extid := String.ofList_toList
  rw [extidAttr, h]

theorem added_events (e : DAEvent) (db : Db) (key : List Value) :
    added e db (name "events") key =
      db.set (name "events") (eventKey e.scef_id.toList e.scef_ref_id) (some (addedRow e db))
        (name "events") key := by
  rw [added, Db.upsertIf_of_table_ne (by decide), Db.upsertIf_of_table_ne (by decide)]
  rfl

theorem added_msisdn (e : DAEvent) (db : Db) (key : List Value) :
    (added e db (name "events_msisdn") key).isSome ↔
      (e.msisdn ≠ 0 ∧ key = msisdnKey e.msisdn e.scef_id.toList e.scef_ref_id) ∨
        (db (name "events_msisdn") key).isSome := by
  rw [added, Db.upsertIf_of_table_ne (by decide), Db.isSome_upsertIf, Db.upsert,
    Db.set_of_table_ne (by decide)]

theorem added_extid (e : DAEvent) (db : Db) (key : List Value) :
    (added e db (name "events_extid") key).isSome ↔
      (e.extid ≠ "" ∧ key = extidKey e.extid.toList e.scef_id.toList e.scef_ref_id) ∨
        (db (name "events_extid") key).isSome := by
  rw [added, Db.isSome_upsertIf, Db.upsertIf_of_table_ne (by decide), Db.upsert,
    Db.set_of_table_ne (by decide)]

/-- What the row that `addEvent` overwrites must be: it is listed under nothing but what the new
one is listed under. -/
def Overwrites (e : DAEvent) (db : Db) : Prop :=
  ∀ row, db (name "events") (eventKey e.scef_id.toList e.scef_ref_id) = some row →
    (intColumn row "msisdn" = 0 ∨ intColumn row "msisdn" = e.msisdn) ∧
      (textColumn row "extid" = "" ∨ textColumn row "extid" = e.extid)

section Keys

variable {k : List Char × Int} {s : List Char} {r : Int}

theorem eventKey_inj : eventKey k.1 k.2 = eventKey s r ↔ k = (s, r) := by
  simp [eventKey, Prod.ext_iff]

theorem msisdnKey_inj {x x' : Int} :
    msisdnKey x k.1 k.2 = msisdnKey x' s r ↔ k = (s, r) ∧ x' = x := by
  simp [msisdnKey, Prod.ext_iff, eq_comm, and_comm]

theorem extidKey_inj {x x' : List Char} :
    extidKey x k.1 k.2 = extidKey x' s r ↔ k = (s, r) ∧ x' = x := by
  simp [extidKey, Prod.ext_iff, eq_comm, and_comm]

end Keys

theorem consistent_added (h : Consistent db) (hold : Overwrites e db) : Consistent (added e db) := by
  obtain ⟨h₁, h₂⟩ := consistent_iff.mp h
  have hsame : eventRows (added e db) (e.scef_id.toList, e.scef_ref_id) = some (addedRow e db) := by
    rw [eventRows, added_events, Db.set_same]
  have hother : ∀ k, k ≠ (e.scef_id.toList, (e.scef_ref_id : Int)) →
      eventRows (added e db) k = eventRows db k := by
    intro k hk
    rw [eventRows, added_events, Db.set_of_key_ne fun h => hk (eventKey_inj.mp h)]
    rfl
  refine consistent_iff.mpr ⟨h₁.put ?_ hsame hother ?_, h₂.put ?_ hsame hother ?_⟩
  · intro row x hrow hx
    rw [msisdnAttr] at hx
    obtain ⟨hne, hx⟩ := Option.ite_none_left_eq_some.mp hx
    obtain hm := (hold row hrow).1.resolve_left hne
    rw [msisdnAttr_addedRow, ← hm, if_neg hne, hx]
  · intro x k
    rw [msisdnEntries, added_msisdn, msisdnAttr_addedRow, Option.ite_none_left_eq_some,
      Option.some.injEq, and_left_comm]
    exact or_congr_left (and_congr_right fun _ => msisdnKey_inj)
  · intro row x hrow hx
    rw [extidAttr] at hx
    obtain ⟨hne, hx⟩ := Option.ite_none_left_eq_some.mp hx
    obtain hm := (hold row hrow).2.resolve_left hne
    rw [extidAttr_addedRow, ← hm, if_neg hne, hx]
  · intro x k
    rw [extidEntries, added_extid, extidAttr_addedRow, Option.ite_none_left_eq_some,
      Option.some.injEq, and_left_comm]
    exact or_congr_left (and_congr_right fun _ => extidKey_inj)

theorem consistent_deleted {scef_id : String} {ref : Nat} {row : Row} (h : Consistent db)
    (hrow : db (name "events") (eventKey scef_id.toList ref) = some row)
    (hextid : textColumn row "extid" = "") :
    Consistent (deleted scef_id ref (intColumn row "msisdn") db) := by
  obtain ⟨h₁, h₂⟩ := consistent_iff.mp h
  have hevents : ∀ key, deleted scef_id ref (intColumn row "msisdn") db (name "events") key =
      db.set (name "events") (eventKey scef_id.toList ref) none (name "events") key := by
    intro key
    unfold deleted
    split
    case isTrue => exact Db.set_of_table_ne (by decide) _ _ _
    case isFalse => rfl
  have hsame : eventRows (deleted scef_id ref (intColumn row "msisdn") db) (scef_id.toList, ref) =
      none := by
    rw [eventRows, hevents, Db.set_same]
  have hother : ∀ k, k ≠ (scef_id.toList, (ref : Int)) →
      eventRows (deleted scef_id ref (intColumn row "msisdn") db) k = eventRows db k := by
    intro k hk
    rw [eventRows, hevents, Db.set_of_key_ne fun h => hk (eventKey_inj.mp h)]
    rfl
  have hnone : db.set (name "events") (eventKey scef_id.toList ref) none (name "events_msisdn") =
      db (name "events_msisdn") := funext fun k => Db.set_of_table_ne (by decide) _ _ _
  have hkey : eventRows db (scef_id.toList, ref) = some row := hrow
  refine consistent_iff.mpr ⟨h₁.remove hkey hsame hother ?_, h₂.remove hkey hsame hother ?_⟩
  · intro x k
    by_cases hm : intColumn row "msisdn" ≠ 0
    · rw [msisdnEntries, deleted, if_pos hm]
      by_cases hk : msisdnKey x k.1 k.2 = msisdnKey (intColumn row "msisdn") scef_id.toList ref
      · obtain ⟨hk', hx⟩ := msisdnKey_inj.mp hk
        rw [hk, Db.set_same, msisdnAttr, if_neg hm]
        exact ⟨nofun, fun h' => absurd ⟨hk', congrArg some hx⟩ h'.2⟩
      · rw [Db.set_of_key_ne hk, hnone, msisdnAttr, if_neg hm, Option.some.injEq]
        exact (and_iff_left fun h' => hk (msisdnKey_inj.mpr h')).symm
    · rw [msisdnEntries, deleted, if_neg hm, hnone, msisdnAttr, if_pos (not_not.mp hm)]
      exact (and_iff_left nofun).symm
  · intro x k
    have hentries : extidEntries (deleted scef_id ref (intColumn row "msisdn") db) x k ↔
        extidEntries db x k := by
      unfold extidEntries deleted
      split
      case isTrue => rw [Db.set_of_table_ne (by decide), Db.set_of_table_ne (by decide)]
      case isFalse => rw [Db.set_of_table_ne (by decide)]
    rw [hentries, extidAttr, if_pos hextid]
    exact (and_iff_left nofun).symm

end Step

/-! ### Runs -/

inductive EventCall
  | addEvent (e : DAEvent)
  | deleteEvent (scef_id : String) (scef_ref_id : Nat)

def EventCall.run : EventCall → Db → Db
  | .addEvent e, db => (DataAccess.addEvent e db).1
  | .deleteEvent scef_id scef_ref_id, db => (DataAccess.deleteEvent scef_id scef_ref_id db).1

/-- The calls that keep the indexes: the texts are plain, and, if the tables can hold the event, the
row that is overwritten is listed under nothing else, or that is deleted has no external
identifier. -/
def EventCall.Keeps (db : Db) : EventCall → Prop
  | .addEvent e => e.Plain ∧ (e.Fits → Overwrites e db)
  | .deleteEvent scef_id ref => Plain scef_id ∧ (KeyFits scef_id ref →
    ∀ row, db (name "events") (eventKey scef_id.toList ref) = some row →
      textColumn row "extid" = "")

theorem typed_dbExecuteAll {texts : List String} {db : Db} (h : Typed schema db) :
    Typed schema (dbExecuteAll texts db).1 := by
  induction texts generalizing db with
  | nil => exact h
  | cons text texts ih =>
    rw [dbExecuteAll]
    split
    case h_1 db' row hr => exact ih (h.execute hr)
    case h_2 => exact h

theorem EventCall.typed_run (c : EventCall) {db : Db} (h : Typed schema db) :
    Typed schema (c.run db) := by
  cases c with
  | addEvent e => exact typed_dbExecuteAll h
  | deleteEvent scef_id ref =>
    change Typed schema (DataAccess.deleteEvent scef_id ref db).1
    unfold DataAccess.deleteEvent
    split
    · exact h
    · exact h
    · exact typed_dbExecuteAll h

theorem EventCall.consistent_run {c : EventCall} {db : Db} (htyped : Typed schema db)
    (h : Consistent db) (hc : c.Keeps db) : Consistent (c.run db) := by
  cases c with
  | addEvent e =>
    cases hr : dbExecute db (insertEventText e) with
    | none =>
      have hdb : (DataAccess.addEvent e db).1 = db := by
        rw [DataAccess.addEvent, List.append_assoc, List.singleton_append, dbExecuteAll, hr]
      rw [EventCall.run, hdb]
      exact h
    | some r =>
      obtain ⟨hplain, hold⟩ := hc
      rw [EventCall.run, addEvent_accepted hplain hr]
      exact consistent_added h (hold (dbExecute_insertEvent hplain hr).1)
  | deleteEvent scef_id ref =>
    cases hr : dbExecute db (getEventText scef_id ref) with
    | none =>
      have hget : getEvent db scef_id ref = none := by rw [getEvent, hr, Option.map_none]
      have hdb : (DataAccess.deleteEvent scef_id ref db).1 = db := by
        unfold DataAccess.deleteEvent
        rw [hget]
      rw [EventCall.run, hdb]
      exact h
    | some r =>
      obtain ⟨hplain, hextid⟩ := hc
      obtain ⟨hfits, rfl⟩ := (dbExecute_getEvent hplain).mp hr
      cases hrow : db (name "events") (eventKey scef_id.toList ref) with
      | none =>
        have hget : getEvent db scef_id ref = some none := by
          rw [getEvent, hr, Option.map_some, hrow, Option.map_none]
        have hdb : (DataAccess.deleteEvent scef_id ref db).1 = db := by
          unfold DataAccess.deleteEvent
          rw [hget]
        rw [EventCall.run, hdb]
        exact h
      | some row =>
        rw [EventCall.run, deleteEvent_found hplain hfits htyped hrow (hextid hfits row hrow)]
        exact consistent_deleted h hrow (hextid hfits row hrow)

/-- **Along every run of calls that keep them, the indexes list the events.** -/
theorem consistent_of_reaches {db db' : Db} (htyped : Typed schema db) (h : Consistent db)
    (hr : Reaches (fun db (c : EventCall) db' => c.run db = db') (fun db c => c.Keeps db) db db') :
    Consistent db' := by
  have hinv : Typed schema db' ∧ Consistent db' := by
    refine hr.invariant (I := fun db => Typed schema db ∧ Consistent db) ⟨htyped, h⟩ ?_
    rintro s c t ⟨hty, hcons⟩ hc rfl
    exact ⟨c.typed_run hty, EventCall.consistent_run hty hcons hc⟩
  exact hinv.2

def noRows : Db := fun _ _ => none

theorem typed_noRows : Typed schema noRows := nofun

theorem consistent_noRows : Consistent noRows :=
  ⟨fun _ _ _ => ⟨nofun, fun h => absurd h.2.choose_spec.1 nofun⟩,
    fun _ _ _ => ⟨nofun, fun h => absurd h.2.choose_spec.1 nofun⟩⟩

def msisdnEvent : DAEvent where
  scef_id := "scef"
  scef_ref_id := 7
  msisdn := 33612345678
  extid := ""
  mec_json := ""
  ui_json := ""
  monitoring_type := 2

def extidEvent : DAEvent := { msisdnEvent with msisdn := 0, extid := "a@b" }

theorem consistent_of_reaches_msisdnEvent :
    Reaches (fun db (c : EventCall) db' => c.run db = db') (fun db c => c.Keeps db) noRows
        ((EventCall.addEvent msisdnEvent).run noRows) ∧
      Consistent ((EventCall.addEvent msisdnEvent).run noRows) := by
  have hrun : Reaches (fun db (c : EventCall) db' => c.run db = db') (fun db c => c.Keeps db) noRows
      ((EventCall.addEvent msisdnEvent).run noRows) := by
    refine (Reaches.refl noRows).tail (l := .addEvent msisdnEvent) ⟨?_, fun _ _ h => ?_⟩ rfl
    · exact ⟨by decide, by decide, by decide, by decide⟩
    · cases h
  exact ⟨hrun, consistent_of_reaches typed_noRows consistent_noRows hrun⟩

/-- An event with an external identifier is added and deleted: its entry in `events_extid` stays. -/
theorem not_consistent_extidEvent :
    ¬ ∀ cs : List EventCall, Consistent (cs.foldl (fun db c => c.run db) noRows) := by
  intro h
  have hentry := (h [.addEvent extidEvent, .deleteEvent "scef" 7]).extid "a@b".toList "scef".toList 7
  have hrun : (fun db : Db =>
        (db (name "events_extid") (extidKey "a@b".toList "scef".toList 7)).isSome = true ∧
          (db (name "events") (eventKey "scef".toList 7)).isNone = true)
      ([EventCall.addEvent extidEvent, .deleteEvent "scef" 7].foldl (fun db c => c.run db) noRows) := by
    decide +kernel
  obtain ⟨hstays, hgone⟩ := hrun
  obtain ⟨-, row, hrow, -⟩ := hentry.mp hstays
  rw [hrow] at hgone
  exact absurd hgone nofun

end OpenairHss.DataAccess
