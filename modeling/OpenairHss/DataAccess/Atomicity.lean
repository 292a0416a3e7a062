import OpenairHss.DataAccess.Events
import OpenairHss.Lib.Locality

/-!
# Statements that fail

`addEvent` and `deleteEvent` run up to three statements, and raise a `DAException` at the first that
fails.  The statements before it are not undone, and since each of them writes a table of its own,
none is undone by a later one.

`unchanged_iff`: the event tables are left alone by every call that raises exactly if the statements
before the one that fails write nothing new.  `deleteEvent` always has removed the row of `events`
when it fails later; with an external identifier this needs no failure of the database.  The texts
are plain in this.
-/

namespace OpenairHss.DataAccess

open Cql Locality

/-! ### A database that fails -/

/-- The `n`-th statement of a call, for a database that fails at some of them. -/
def attempt (fails : Nat → Bool) (n : Nat) (text : String) (db : Db) : Option Db :=
  if fails n then none else (dbExecute db text).map (·.1)

/-- The statements of a call from the `n`-th on. -/
def attempts (fails : Nat → Bool) (n : Nat) (texts : List String) :
    List (Step Name (List Value → Option Row)) :=
  texts.mapIdx fun i text => attempt fails (n + i) text

def addEventTexts (e : DAEvent) : List String :=
  [insertEventText e]
    ++ (if e.msisdn ≠ 0 then [insertMsisdnText e] else [])
    ++ (if e.extid ≠ "" then [insertExtidText e] else [])

/-- The statements of `deleteEvent` for the event that it has found. -/
def deleteEventTexts (scef_id : String) (scef_ref_id : Nat) (event : DAEvent) : List String :=
  [deleteEventText scef_id scef_ref_id]
    ++ (if event.msisdn ≠ 0 then [deleteMsisdnText event.msisdn scef_id scef_ref_id] else [])
    ++ (if event.extid ≠ "" then [deleteExtidText event.extid scef_id scef_ref_id] else [])

/-- `addEvent`: the tables after it, and whether it returned. -/
def addEventWith (fails : Nat → Bool) (e : DAEvent) (db : Db) : Db × Bool :=
  runAll (attempts fails 0 (addEventTexts e)) db

/-- `deleteEvent`; its first statement is that of `getEvent`. -/
def deleteEventWith (fails : Nat → Bool) (scef_id : String) (scef_ref_id : Nat) (db : Db) :
    Db × Bool :=
  if fails 0 then (db, false)
  else match getEvent db scef_id scef_ref_id with
    | none => (db, false)
    | some none => (db, true)
    | some (some event) =>
      runAll (attempts fails 1 (deleteEventTexts scef_id scef_ref_id event)) db

theorem attempts_cons (fails : Nat → Bool) (n : Nat) (text : String) (texts : List String) :
    attempts fails n (text :: texts) = attempt fails n text :: attempts fails (n + 1) texts := by
  simp only [attempts, List.mapIdx_cons, Nat.add_zero, Nat.add_assoc, Nat.add_comm 1]

/-- Without failures these are the functions of before. -/
theorem runAll_attempts (n : Nat) (texts : List String) (db : Db) :
    runAll (attempts (fun _ => false) n texts) db = dbExecuteAll texts db := by
  induction texts generalizing n db with
  | nil => rfl
  | cons text texts ih =>
    rw [attempts_cons, runAll, dbExecuteAll, attempt, if_neg Bool.false_ne_true]
    cases dbExecute db text with
    | none => rfl
    | some r => exact ih (n + 1) r.1

theorem addEventWith_never (e : DAEvent) (db : Db) :
    addEventWith (fun _ => false) e db = addEvent e db := runAll_attempts 0 _ db

theorem deleteEventWith_never (scef_id : String) (scef_ref_id : Nat) (db : Db) :
    deleteEventWith (fun _ => false) scef_id scef_ref_id db = deleteEvent scef_id scef_ref_id db := by
  rw [deleteEventWith, if_neg Bool.false_ne_true, deleteEvent]
  cases getEvent db scef_id scef_ref_id with
  | none => rfl
  | some event =>
    cases event with
    | none => rfl
    | some event => exact runAll_attempts 1 _ db

/-! ### One table each -/

/-- The table that a statement is about. -/
def tableOf : Stmt → Name
  | .insert table _ _ | .update table _ _ | .delete table _ | .select table _ _ => table

/-- The statement in a text. -/
def stmtOf (text : String) : Option Stmt := (tokens text).bind (parse keyspace)

theorem dbExecute_stmtOf (db : Db) (text : String) :
    dbExecute db text = (stmtOf text).bind (exec schema db) := (Option.bind_assoc _ _ _).symm

/-- A row is written in a table. -/
theorem at_set {table : Name} {key : List Value} {row : Db → Option Row}
    (h : ∀ {db db' : Db}, db table = db' table → row db = row db') :
    At table fun db : Db => some (db.set table key (row db)) where
  frame := by
    rintro s t i hs hi
    obtain rfl := Option.some.inj hs
    exact funext fun k => Db.set_of_table_ne hi _ _ _
  congr := by
    rintro s s' t hs ht
    obtain rfl := Option.some.inj ht
    refine ⟨_, rfl, funext fun k => ?_⟩
    by_cases hk : k = key
    · rw [hk, Db.set_same, Db.set_same, h hs]
    · rw [Db.set_of_key_ne hk, Db.set_of_key_ne hk, hs]

theorem at_none (table : Name) : At table fun _ : Db => none :=
  ⟨fun h => absurd h nofun, fun _ h => absurd h nofun⟩

theorem at_self (table : Name) : At table fun db : Db => some db where
  frame := fun h _ => by rw [Option.some.inj h]
  congr := fun hs h => ⟨_, rfl, by rw [← Option.some.inj h, hs]⟩

theorem at_upsert (table : Name) (key : List Value) (eqs : List (Name × Value)) :
    At table fun db : Db => some (db.upsert table key eqs) :=
  at_set fun h => by rw [h]

/-- **A statement reads and writes its table alone.** -/
theorem at_exec (stmt : Stmt) : At (tableOf stmt) fun db => (exec schema db stmt).map (·.1) := by
  cases stmt with
  | insert table cols vals =>
    simp only [exec, bind, pure]
    cases schema.lookup table with
    | none => exact at_none table
    | some t =>
      dsimp only [Option.bind_some]
      split
      · cases t.key? (cols.zip vals) with
        | none => exact at_none table
        | some key => exact at_upsert table key _
      · exact at_none table
  | update table sets wheres =>
    simp only [exec, bind, pure]
    cases schema.lookup table with
    | none => exact at_none table
    | some t =>
      dsimp only [Option.bind_some]
      cases t.whereKey? wheres with
      | none => exact at_none table
      | some key =>
        dsimp only [Option.bind_some]
        split
        · exact at_upsert table key _
        · exact at_none table
  | delete table wheres =>
    simp only [exec, bind, pure]
    cases schema.lookup table with
    | none => exact at_none table
    | some t =>
      dsimp only [Option.bind_some]
      cases t.whereKey? wheres with
      | none => exact at_none table
      | some key => exact at_set fun _ => rfl
  | select table cols wheres =>
    simp only [exec, bind, pure]
    cases schema.lookup table with
    | none => exact at_none table
    | some t =>
      dsimp only [Option.bind_some]
      cases t.whereKey? wheres with
      | none => exact at_none table
      | some key =>
        cases cols with
        | none => exact at_self table
        | some cols =>
          dsimp only [Option.bind_some]
          split
          · exact at_self table
          · exact at_none table

/-- A text that can only be a statement about one table. -/
theorem at_attempt {table : Name} {text : String}
    (h : ∀ stmt, stmtOf text = some stmt → tableOf stmt = table) (fails : Nat → Bool) (n : Nat) :
    At table (attempt fails n text) := by
  unfold attempt
  cases fails n with
  | true => exact at_none table
  | false =>
    cases hstmt : stmtOf text with
    | none =>
      have hnone : ∀ db, dbExecute db text = none := fun db => by rw [dbExecute_stmtOf, hstmt]; rfl
      simp only [hnone]
      exact at_none table
    | some stmt =>
      have hexec : ∀ db, dbExecute db text = exec schema db stmt := fun db => by
        rw [dbExecute_stmtOf, hstmt]
        rfl
      simp only [hexec]
      exact h stmt hstmt ▸ at_exec stmt

theorem parse_insert {w : Name} {ts : List Tok} {stmt : Stmt}
    (h : parse keyspace ([kw "insert", kw "into", .word w, .sym '('] ++ ts) = some stmt) :
    tableOf stmt = w := by
  have hinsert : parseInsert keyspace ([kw "into", .word w, .sym '('] ++ ts) = some stmt := h
  -- the columns, the words up to the constants, the constants, and the end
  obtain ⟨_, -, h⟩ := Option.bind_eq_some_iff.mp hinsert
  obtain ⟨_, -, h⟩ := Option.bind_eq_some_iff.mp h
  obtain ⟨_, -, h⟩ := Option.bind_eq_some_iff.mp h
  obtain ⟨_, -, h⟩ := Option.bind_eq_some_iff.mp h
  obtain ⟨_, -, h⟩ := Option.bind_eq_some_iff.mp h
  obtain ⟨_, -, h⟩ := Option.bind_eq_some_iff.mp h
  obtain ⟨_, -, h⟩ := Option.bind_eq_some_iff.mp h
  obtain rfl := Option.some.inj h
  rfl

theorem parse_delete (w : Name) (ts : List Tok) :
    parse keyspace ([kw "delete", kw "from", .word w, kw "where"] ++ ts) =
      (parseWhere (kw "where" :: ts)).bind fun wheres => some (.delete w wheres) := rfl

theorem parse_select (w : Name) (ts : List Tok) :
    parse keyspace ([kw "select", .sym '*', kw "from", .word w, kw "where"] ++ ts) =
      (parseWhere (kw "where" :: ts)).bind fun wheres => some (.select w none wheres) := rfl

section Heads

variable {m : Mode} {head : List Char} {tail : String} {w : Name} {ts : List Tok}

theorem stmtOf_head (hhead : scan .between head = some (m, ts))
    (hnul : (head.all (· != '\x00')) = true) :
    stmtOf (String.ofList head ++ tail) =
      (lexFrom m (cut tail.toList)).bind fun toks => parse keyspace (ts ++ toks) :=
  (congrArg (Option.bind · (parse keyspace)) (Template.lexFrom_lit hhead hnul tail)).trans
    (Option.bind_map ..)

/-- The statement in a text that begins with an `INSERT`, or with a `DELETE` or `SELECT` and a
`WHERE`. -/
theorem stmtOf_insert
    (hhead : scan .between head = some (m, [kw "insert", kw "into", .word w, .sym '('] ++ ts))
    (hnul : (head.all (· != '\x00')) = true) {stmt : Stmt}
    (hstmt : stmtOf (String.ofList head ++ tail) = some stmt) : tableOf stmt = w := by
  rw [stmtOf_head hhead hnul] at hstmt
  obtain ⟨toks, -, hparse⟩ := Option.bind_eq_some_iff.mp hstmt
  rw [List.append_assoc] at hparse
  exact parse_insert hparse

theorem stmtOf_delete
    (hhead : scan .between head = some (m, [kw "delete", kw "from", .word w, kw "where"] ++ ts))
    (hnul : (head.all (· != '\x00')) = true) :
    stmtOf (String.ofList head ++ tail) =
      ((lexFrom m (cut tail.toList)).bind fun toks => parseWhere (kw "where" :: (ts ++ toks))).bind
        fun wheres => some (.delete w wheres) := by
  simp only [stmtOf_head hhead hnul, List.append_assoc, parse_delete, Option.bind_assoc]

theorem stmtOf_select
    (hhead : scan .between head =
      some (m, [kw "select", .sym '*', kw "from", .word w, kw "where"] ++ ts))
    (hnul : (head.all (· != '\x00')) = true) :
    stmtOf (String.ofList head ++ tail) =
      ((lexFrom m (cut tail.toList)).bind fun toks => parseWhere (kw "where" :: (ts ++ toks))).bind
        fun wheres => some (.select w none wheres) := by
  simp only [stmtOf_head hhead hnul, List.append_assoc, parse_select, Option.bind_assoc]

end Heads

set_option maxRecDepth 4000 in
theorem table_insertEvent {e : DAEvent} {stmt : Stmt}
    (h : stmtOf (insertEventText e) = some stmt) : tableOf stmt = name "events" := by
  unfold insertEventText at h
  simp only [String.append_assoc] at h
  exact stmtOf_insert rfl rfl h

theorem table_insertMsisdn {e : DAEvent} {stmt : Stmt}
    (h : stmtOf (insertMsisdnText e) = some stmt) : tableOf stmt = name "events_msisdn" := by
  unfold insertMsisdnText at h
  simp only [String.append_assoc] at h
  exact stmtOf_insert rfl rfl h

theorem table_insertExtid {e : DAEvent} {stmt : Stmt}
    (h : stmtOf (insertExtidText e) = some stmt) : tableOf stmt = name "events_extid" := by
  unfold insertExtidText at h
  simp only [String.append_assoc] at h
  exact stmtOf_insert rfl rfl h

/-- The texts of `getEvent` and of the first statement of `deleteEvent` have one `WHERE`. -/
theorem stmtOf_getEvent_deleteEvent (scef_id : String) (ref : Nat) :
    ∃ wheres : Option (List (Name × Value)),
      stmtOf (getEventText scef_id ref) =
          wheres.bind (fun wheres => some (.select (name "events") none wheres)) ∧
        stmtOf (deleteEventText scef_id ref) =
          wheres.bind fun wheres => some (.delete (name "events") wheres) := by
  unfold getEventText deleteEventText
  simp only [String.append_assoc]
  exact ⟨_, stmtOf_select rfl rfl, stmtOf_delete rfl rfl⟩

theorem table_deleteMsisdn {msisdn : Int} {scef_id : String} {ref : Nat} {stmt : Stmt}
    (h : stmtOf (deleteMsisdnText msisdn scef_id ref) = some stmt) :
    tableOf stmt = name "events_msisdn" := by
  unfold deleteMsisdnText at h
  simp only [String.append_assoc] at h
  rw [stmtOf_delete rfl rfl] at h
  obtain ⟨wheres, -, h⟩ := Option.bind_eq_some_iff.mp h
  obtain rfl := Option.some.inj h
  rfl

theorem table_deleteExtid {extid scef_id : String} {ref : Nat} {stmt : Stmt}
    (h : stmtOf (deleteExtidText extid scef_id ref) = some stmt) :
    tableOf stmt = name "events_extid" := by
  unfold deleteExtidText at h
  simp only [String.append_assoc] at h
  rw [stmtOf_delete rfl rfl] at h
  obtain ⟨wheres, -, h⟩ := Option.bind_eq_some_iff.mp h
  obtain rfl := Option.some.inj h
  rfl

/-! ### What a failed call leaves -/

/-- The tables that the statements for an event write, one after the other. -/
def writtenTables (event : DAEvent) : List Name :=
  [name "events"]
    ++ (if event.msisdn ≠ 0 then [name "events_msisdn"] else [])
    ++ (if event.extid ≠ "" then [name "events_extid"] else [])

theorem nodup_writtenTables (event : DAEvent) : (writtenTables event).Nodup := by
  unfold writtenTables
  split <;> split <;> decide

/-- Texts that are about the tables of a list, one after the other. -/
theorem atAll_attempts {tables : List Name} {texts : List String}
    (h : List.Forall₂ (fun table text => ∀ stmt, stmtOf text = some stmt → tableOf stmt = table)
      tables texts) (fails : Nat → Bool) (n : Nat) : AtAll tables (attempts fails n texts) := by
  induction h generalizing n with
  | nil => exact .nil
  | cons hhead htail ih =>
    rw [attempts_cons]
    exact .cons (at_attempt hhead fails n) (ih (n + 1))

theorem forall₂_if {α β : Type} {R : α → β → Prop} {c : Prop} [Decidable c] {a : α} {b : β}
    (h : R a b) : List.Forall₂ R (if c then [a] else []) (if c then [b] else []) := by
  split
  · exact .cons h .nil
  · exact .nil

theorem atAll_addEvent (fails : Nat → Bool) (e : DAEvent) :
    AtAll (writtenTables e) (attempts fails 0 (addEventTexts e)) := by
  refine atAll_attempts ?_ fails 0
  refine List.rel_append (List.rel_append ?_ (forall₂_if ?_)) (forall₂_if ?_)
  · exact .cons (fun _ => table_insertEvent) .nil
  · exact fun _ => table_insertMsisdn
  · exact fun _ => table_insertExtid

theorem table_deleteEvent {scef_id : String} {ref : Nat} {stmt : Stmt}
    (h : stmtOf (deleteEventText scef_id ref) = some stmt) : tableOf stmt = name "events" := by
  obtain ⟨wheres, -, hdelete⟩ := stmtOf_getEvent_deleteEvent scef_id ref
  rw [hdelete] at h
  obtain ⟨_, -, h⟩ := Option.bind_eq_some_iff.mp h
  obtain rfl := Option.some.inj h
  rfl

theorem atAll_deleteEvent (fails : Nat → Bool) (scef_id : String) (ref : Nat) (event : DAEvent) :
    AtAll (writtenTables event) (attempts fails 1 (deleteEventTexts scef_id ref event)) := by
  refine atAll_attempts ?_ fails 1
  refine List.rel_append (List.rel_append ?_ (forall₂_if ?_)) (forall₂_if ?_)
  · exact .cons (fun _ => table_deleteEvent) .nil
  · exact fun _ => table_deleteMsisdn
  · exact fun _ => table_deleteExtid

/-- The event tables are as they were, if the call has raised a `DAException`. -/
def LeavesEvents (db : Db) (r : Db × Bool) : Prop :=
  r.2 = false → ∀ table ∈ [name "events", name "events_msisdn", name "events_extid"],
    r.1 table = db table

/-- Nothing but the event tables is written. -/
theorem leavesEvents_iff {event : DAEvent} {fs : List (Step Name (List Value → Option Row))}
    (h : AtAll (writtenTables event) fs) (db : Db) :
    LeavesEvents db (runAll fs db) ↔ Undisturbed db fs := by
  rw [← runAll_eq_iff h (nodup_writtenTables event)]
  refine imp_congr_right fun _ => ⟨fun heq => funext fun table => ?_, fun heq _ _ => by rw [heq]⟩
  by_cases ht : table ∈ writtenTables event
  · refine heq table ?_
    rw [writtenTables, List.mem_append, List.mem_append, List.mem_ite_nil_right,
      List.mem_ite_nil_right] at ht
    simp only [List.mem_singleton] at ht
    simp only [List.mem_cons, List.not_mem_nil, or_false]
    tauto
  · exact runAll_frame h ht db

/-- The statement that removes the event which has been found changes the tables. -/
theorem deleteEvent_not_idle {fails : Nat → Bool} {n : Nat} {scef_id : String} {ref : Nat} {db : Db}
    {event : DAEvent} (hget : getEvent db scef_id ref = some (some event)) :
    attempt fails n (deleteEventText scef_id ref) db ≠ some db := by
  intro hidle
  obtain ⟨wheres, hselect, hdelete⟩ := stmtOf_getEvent_deleteEvent scef_id ref
  obtain ⟨r, hr, hfound⟩ := Option.map_eq_some_iff.mp hget
  obtain ⟨row, hrow, -⟩ := Option.map_eq_some_iff.mp hfound
  rw [dbExecute_stmtOf, hselect] at hr
  obtain ⟨stmt, hstmt, hexec⟩ := Option.bind_eq_some_iff.mp hr
  obtain ⟨eqs, heqs, h⟩ := Option.bind_eq_some_iff.mp hstmt
  obtain rfl := Option.some.inj h
  obtain ⟨key, hkey, rfl⟩ := (exec_select_all (t := events) rfl).mp hexec
  obtain ⟨-, hdb⟩ := Option.ite_none_left_eq_some.mp hidle
  obtain ⟨r', hr', hdb⟩ := Option.map_eq_some_iff.mp hdb
  rw [dbExecute_stmtOf, hdelete, heqs] at hr'
  obtain ⟨key', hkey', rfl⟩ := (exec_delete (t := events) rfl).mp hr'
  obtain rfl : key = key' := Option.some.inj (hkey.symm.trans hkey')
  have hgone := congrFun (congrFun hdb (name "events")) key
  exact absurd ((Db.set_same _ _ _ _).symm.trans (hgone.trans hrow)) nofun

/-- An external identifier without quotes is no constant. -/
theorem dbExecute_deleteExtid {extid : String} (h : Unread extid) (scef_id : String) (ref : Nat)
    (db : Db) : dbExecute db (deleteExtidText extid scef_id ref) = none := by
  have hstmt : stmtOf (deleteExtidText extid scef_id ref) = none := by
    unfold deleteExtidText
    simp only [String.append_assoc]
    rw [stmtOf_delete rfl rfl, lexFrom_unread h]
    rfl
  rw [dbExecute_stmtOf, hstmt]
  rfl

theorem extid_ne_empty {extid : String} (h : Unread extid) : extid ≠ "" := by
  rintro rfl
  obtain ⟨user, rest, hs, -⟩ := h
  exact List.append_ne_nil_of_right_ne_nil user (List.cons_ne_nil '@' rest) hs.symm

/-- With such an external identifier the last statement of `deleteEvent` always fails. -/
theorem last_deleteEvent_fails (fails : Nat → Bool) (n : Nat) (scef_id : String) (ref : Nat)
    {event : DAEvent} (h : Unread event.extid) (db : Db) :
    ∃ f ∈ attempts fails n (deleteEventTexts scef_id ref event).tail, f db = none := by
  have hmem : deleteExtidText event.extid scef_id ref ∈ (deleteEventTexts scef_id ref event).tail := by
    rw [deleteEventTexts, if_pos (extid_ne_empty h), List.append_assoc, List.singleton_append,
      List.tail_cons]
    exact List.mem_append_right _ List.mem_cons_self
  obtain ⟨i, hi, htext⟩ := List.getElem_of_mem hmem
  refine ⟨attempt fails (n + i) (deleteExtidText event.extid scef_id ref), ?_, ?_⟩
  · rw [attempts, List.mem_mapIdx]
    exact ⟨i, hi, by rw [htext]⟩
  · rw [attempt, dbExecute_deleteExtid h]
    split
    · rfl
    · rfl

/-- **When a call that raises leaves the event tables**, if its texts are plain and the external
identifier that `deleteEvent` finds has an `@` behind a name.  `addEvent`: the statements before the
first that fails write nothing new.  `deleteEvent`: no event is found, or its first `DELETE` fails, or
the event has no external identifier and none of the others fails. -/
theorem unchanged_iff (fails : Nat → Bool) (db : Db) :
    (∀ e : DAEvent, e.Plain → (LeavesEvents db (addEventWith fails e db) ↔
      Undisturbed db (attempts fails 0 (addEventTexts e)))) ∧
    ∀ (scef_id : String) (ref : Nat), Plain scef_id →
      (∀ event, getEvent db scef_id ref = some (some event) →
        event.extid = "" ∨ Unread event.extid) →
      (LeavesEvents db (deleteEventWith fails scef_id ref db) ↔
        ∀ event, fails 0 = false → getEvent db scef_id ref = some (some event) →
          attempt fails 1 (deleteEventText scef_id ref) db = none ∨ event.extid = "" ∧
            ∀ f ∈ attempts fails 2 (deleteEventTexts scef_id ref event).tail, f db ≠ none) := by
  refine ⟨fun e _ => leavesEvents_iff (atAll_addEvent fails e) db, fun scef_id ref _ hextid => ?_⟩
  have hsame : ∀ b, LeavesEvents db (db, b) := fun _ _ _ _ => rfl
  rw [deleteEventWith]
  cases fails 0 with
  | true => exact iff_of_true (hsame _) nofun
  | false =>
    rw [if_neg Bool.false_ne_true]
    cases hget : getEvent db scef_id ref with
    | none => exact iff_of_true (hsame _) nofun
    | some found =>
      cases found with
      | none => exact iff_of_true (hsame _) nofun
      | some event =>
        have htexts : attempts fails 1 (deleteEventTexts scef_id ref event) =
            attempt fails 1 (deleteEventText scef_id ref) ::
              attempts fails 2 (deleteEventTexts scef_id ref event).tail := attempts_cons ..
        dsimp only
        rw [leavesEvents_iff (atAll_deleteEvent fails scef_id ref event), htexts, Undisturbed]
        constructor
        · rintro (h | h | h) event' - hevent
          · exact Or.inl h
          · obtain rfl := Option.some.inj (Option.some.inj hevent)
            refine Or.inr ⟨(hextid event hget).resolve_right fun hunread => ?_, h⟩
            obtain ⟨f, hf, hnone⟩ := last_deleteEvent_fails fails 2 scef_id ref hunread db
            exact h f hf hnone
          · exact absurd h.1 (deleteEvent_not_idle hget)
        · intro h
          exact (h event rfl rfl).imp_right fun h => Or.inl h.2

/-- An event is added again, and one with an external identifier is deleted. -/
theorem unchanged_iff_extidEvent :
    (LeavesEvents (addEvent extidEvent noRows).1
        (addEventWith (fun _ => false) extidEvent (addEvent extidEvent noRows).1) ↔
      Undisturbed (addEvent extidEvent noRows).1
        (attempts (fun _ => false) 0 (addEventTexts extidEvent))) ∧
    (LeavesEvents (addEvent extidEvent noRows).1
        (deleteEventWith (fun _ => false) "scef" 7 (addEvent extidEvent noRows).1) ↔
      ∀ event, (fun _ : Nat => false) 0 = false →
        getEvent (addEvent extidEvent noRows).1 "scef" 7 = some (some event) →
          attempt (fun _ => false) 1 (deleteEventText "scef" 7) (addEvent extidEvent noRows).1 = none ∨
            event.extid = "" ∧ ∀ f ∈ attempts (fun _ => false) 2 (deleteEventTexts "scef" 7 event).tail,
              f (addEvent extidEvent noRows).1 ≠ none) := by
  have hplain : extidEvent.Plain := ⟨by decide, by decide, by decide, by decide⟩
  have hstored : (getEvent (addEvent extidEvent noRows).1 "scef" 7).map (·.map (·.extid)) =
      some (some "a@b") := by
    decide +kernel
  have hunchanged := unchanged_iff (fun _ => false) (addEvent extidEvent noRows).1
  refine ⟨hunchanged.1 extidEvent hplain, hunchanged.2 "scef" 7 (by decide) fun event hevent => ?_⟩
  rw [hevent] at hstored
  have hextid : event.extid = "a@b" := Option.some.inj (Option.some.inj hstored)
  refine Or.inr (hextid ▸ ⟨['a'], ['b'], rfl, fun c hc => ?_⟩)
  obtain rfl := List.mem_singleton.mp hc
  exact Or.inl rfl

/-- An event with an external identifier is removed from `events`, and then the call raises; the
database fails at nothing. -/
theorem not_unchanged :
    ¬ ∀ (fails : Nat → Bool) (db : Db),
      (∀ e : DAEvent, LeavesEvents db (addEventWith fails e db)) ∧
        ∀ (scef_id : String) (ref : Nat), LeavesEvents db (deleteEventWith fails scef_id ref db) := by
  intro h
  have hleaves := (h (fun _ => false) (addEvent extidEvent noRows).1).2 "scef" 7
  rw [deleteEventWith_never] at hleaves
  have hrun : (fun db : Db => (deleteEvent "scef" 7 db).2 = false ∧
        (db (name "events") (eventKey "scef".toList 7)).isSome = true ∧
          ((deleteEvent "scef" 7 db).1 (name "events") (eventKey "scef".toList 7)).isSome = false)
      (addEvent extidEvent noRows).1 := by
    decide +kernel
  obtain ⟨hraised, hstands, hgone⟩ := hrun
  rw [hleaves hraised _ List.mem_cons_self, hstands] at hgone
  exact absurd hgone nofun

end OpenairHss.DataAccess
