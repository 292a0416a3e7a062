import OpenairHss.Cir.Statuses
import OpenairHss.DataAccess.Atomicity
import OpenairHss.Lib.KeyedOps

/-!
# The event store behind the status map

`processHssDb` deletes and adds events in the order of the CIR, and inserts the status of each of
these operations into the map; the first status of an event stays there.  The statements quote the
SCEF-ID as it is, so that the row of an event stands under its SCEF-ID where that is plain.

`reflected_iff`: for a CIR with plain texts, the map has an entry for every event that the CIR
mentions, and the entry reflects the last operation on the event, and the table, exactly if the first
and the last operation on it come to the same.  An event that is deleted and then added again by one
CIR is reported as deleted.
-/

namespace OpenairHss.Cir

open Diameter KeyedOps Cql Locality
open DataAccess (DAEvent eventKey name)

/-! ### The table `events` -/

/-- There is a row for the event. -/
def hasEvent (db : Db) (k : EventKey) : Bool :=
  (db (name "events") (eventKey (ofLex k).1.toList (ofLex k).2)).isSome

/-- How a call of `addEvent` or `deleteEvent` goes. -/
inductive Outcome
  /-- It throws before it has changed the row. -/
  | refused
  /-- It throws afterwards. -/
  | broken
  | done
  deriving DecidableEq

def Outcome.writes : Outcome → Bool
  | .refused => false
  | _ => true

def Outcome.returns : Outcome → Bool
  | .done => true
  | _ => false

theorem Outcome.exists_writes (returns : Bool) :
    ∃ o : Outcome, o.writes = true ∧ o.returns = returns := by
  cases returns with
  | true => exact ⟨.done, rfl, rfl⟩
  | false => exact ⟨.broken, rfl, rfl⟩

theorem Outcome.writes_of_returns {o : Outcome} (h : o.returns = true) : o.writes = true := by
  cases o with
  | done => rfl
  | _ => cases h

/-- A call that is to make the row of an event be there, or not, goes in one of these ways. -/
def Makes (k : EventKey) (there : Bool) (exec : Db → Db × Bool) : Prop :=
  ∀ db, ∃ o : Outcome, (exec db).2 = o.returns ∧
    ∀ k', hasEvent (exec db).1 k' = if o.writes = true ∧ k' = k then there else hasEvent db k'

/-- The calls of `processHssDb`, numbered by the configuration and, for deletions, by the place in its
list.  `getEvent` throws, or says whether there is a row; the others change the tables, and return or
throw.  What is asked of them is asked for plain texts only. -/
structure Calls where
  getEvent : Nat → Nat → String → Nat → Db → Option Bool
  deleteEvent : Nat → Nat → String → Nat → Db → Db × Bool
  addEvent : Nat → DAEvent → Db → Db × Bool
  getEvent_plain : ∀ i j {scef_id} ref db, Plain scef_id → getEvent i j scef_id ref db = none ∨
    getEvent i j scef_id ref db = some (hasEvent db (toLex (scef_id, ref)))
  deleteEvent_plain : ∀ i j {scef_id} ref, Plain scef_id →
    Makes (toLex (scef_id, ref)) false (deleteEvent i j scef_id ref)
  addEvent_plain : ∀ i {e : DAEvent}, e.Plain →
    Makes (toLex (e.scef_id, e.scef_ref_id)) true (addEvent i e)

/-- The body of the loop over Scef-Reference-ID-For-Deletion. -/
def deletion (calls : Calls) (i j : Nat) (scef_id : String) (scef_ref_id : Nat) :
    Op EventKey MonitoringConfEventStatus Db where
  key := toLex (scef_id, scef_ref_id)
  exec db :=
    match calls.getEvent i j scef_id scef_ref_id db with
    | some true =>
      let r := calls.deleteEvent i j scef_id scef_ref_id db
      (deletionStatus scef_id scef_ref_id (some true) (if r.2 then some () else none), r.1)
    | found => (deletionStatus scef_id scef_ref_id found none, db)

/-- The event to be configured; only a long term event is added. -/
def addition (calls : Calls) (cir : Request) (msisdn : Int) (i : Nat) (c : EventConfiguration)
    (scef_ref_id : Nat) : Op EventKey MonitoringConfEventStatus Db where
  key := toLex (c.scef_id.getD "", scef_ref_id)
  exec db :=
    let aconf := configurationStatus c scef_ref_id
    if aconf.isLongTermEvt then
      let r := calls.addEvent i (configurationEvent cir msisdn c scef_ref_id) db
      (configured aconf (if r.2 then some true else none), r.1)
    else (configured aconf none, db)

/-- One Monitoring-Event-Configuration, number `i`. -/
def storeConfiguration (calls : Calls) (cir : Request) (msisdn : Int) (s : EvenStatusMap × Db)
    (c : EventConfiguration) (i : Nat) : EvenStatusMap × Db :=
  let s := c.scef_reference_id_for_deletion.zipIdx.foldl (fun s d =>
    (deletion calls i d.2 (c.scef_id.getD "") d.1).apply s) s
  match c.scef_reference_id with
  | none => s
  | some ref => (addition calls cir msisdn i c ref).apply s

/-- `processHssDb`, with the tables that it changes. -/
def hssDb (calls : Calls) (cir : Request) (msisdn : Int) (db : Db) : EvenStatusMap × Db :=
  cir.monitoring_event_configuration.zipIdx.foldl
    (fun s c => storeConfiguration calls cir msisdn s c.1 c.2) (SortedMap.empty, db)

/-! ### The same status map -/

section Observed

variable {α σ τ O : Type}

/-- What is observed before each step of a fold can be given to a second fold in advance. -/
theorem exists_observed {f : σ → α → Nat → σ} {g : O → τ → α → Nat → τ} {p : σ → τ}
    (h : ∀ s a i, ∃ o, p (f s a i) = g o (p s) a i) (l : List α) (s : σ) [Inhabited O] :
    ∃ out : Nat → O, p (l.zipIdx.foldl (fun s a => f s a.1 a.2) s) =
      l.zipIdx.foldl (fun t a => g (out a.2) t a.1 a.2) (p s) := by
  have hfrom : ∀ (l : List α) (n : Nat) (s : σ), ∃ out : Nat → O,
      p ((l.zipIdx n).foldl (fun s a => f s a.1 a.2) s) =
        (l.zipIdx n).foldl (fun t a => g (out a.2) t a.1 a.2) (p s) := by
    intro l
    induction l with
    | nil => exact fun n s => ⟨fun _ => default, rfl⟩
    | cons a l ih =>
      intro n s
      obtain ⟨o, ho⟩ := h s a n
      obtain ⟨out, hout⟩ := ih (n + 1) (f s a n)
      refine ⟨Function.update out n o, ?_⟩
      rw [List.zipIdx_cons, List.foldl_cons, List.foldl_cons, Function.update_self, hout, ho]
      -- the later steps do not look at number `n`
      refine List.foldl_ext _ _ _ fun t e he => ?_
      have hle : n + 1 ≤ e.2 := List.le_snd_of_mem_zipIdx he
      rw [Function.update_of_ne (by omega)]
  exact hfrom l 0 s

end Observed

/-- What a deletion meets. -/
theorem exists_deletion (calls : Calls) (i j : Nat) (scef_id : String) (ref : Nat) (db : Db) :
    ∃ o : Option Bool × Option Unit,
      ((deletion calls i j scef_id ref).exec db).1 = deletionStatus scef_id ref o.1 o.2 := by
  dsimp only [deletion]
  split
  · exact ⟨(some true, _), rfl⟩
  · exact ⟨(_, none), rfl⟩

theorem exists_addition (calls : Calls) (cir : Request) (msisdn : Int) (i : Nat)
    (c : EventConfiguration) (ref : Nat) (db : Db) :
    ∃ added : Option Bool, ((addition calls cir msisdn i c ref).exec db).1 =
      configured (configurationStatus c ref) added := by
  dsimp only [addition]
  split
  · exact ⟨_, rfl⟩
  · exact ⟨_, rfl⟩

/-- One configuration, for what its calls meet. -/
theorem exists_processConfiguration (calls : Calls) (cir : Request) (msisdn : Int)
    (s : EvenStatusMap × Db) (c : EventConfiguration) (i : Nat) :
    ∃ o : (Nat → Option Bool × Option Unit) × Option Bool, ∀ out : Outcomes,
      (out.getEvent i = fun j => (o.1 j).1) → (out.deleteEvent i = fun j => (o.1 j).2) →
      (out.addEvent i = fun _ => o.2) →
      (storeConfiguration calls cir msisdn s c i).1 = processConfiguration out cir msisdn s.1 c i := by
  obtain ⟨met, hmet⟩ := exists_observed (p := Prod.fst)
    (f := fun (s : EvenStatusMap × Db) d j => (deletion calls i j (c.scef_id.getD "") d).apply s)
    (g := fun (o : Option Bool × Option Unit) (m : EvenStatusMap) d j =>
      m.insert (toLex (c.scef_id.getD "", d)) (deletionStatus (c.scef_id.getD "") d o.1 o.2))
    (fun s d j => by
      obtain ⟨o, ho⟩ := exists_deletion calls i j (c.scef_id.getD "") d s.2
      exact ⟨o, congrArg (s.1.insert _) ho⟩) c.scef_reference_id_for_deletion s
  cases href : c.scef_reference_id with
  | none =>
    refine ⟨(met, none), fun out hget hdelete _ => ?_⟩
    dsimp only [storeConfiguration, processConfiguration]
    rw [hget, hdelete, href]
    exact hmet
  | some ref =>
    obtain ⟨added, hadded⟩ := exists_addition calls cir msisdn i c ref
      (c.scef_reference_id_for_deletion.zipIdx.foldl (fun s d =>
        (deletion calls i d.2 (c.scef_id.getD "") d.1).apply s) s).2
    refine ⟨(met, added), fun out hget hdelete hadd => ?_⟩
    dsimp only [storeConfiguration, processConfiguration]
    rw [hget, hdelete, hadd, href, ← hmet]
    exact congrArg (SortedMap.insert _ _) hadded

/-- **The map is that of `processHssDb`**, for calls that go as these do. -/
theorem exists_processHssDb (calls : Calls) (cir : Request) (msisdn : Int) (db : Db) :
    ∃ out : Outcomes, (hssDb calls cir msisdn db).1 = processHssDb out cir msisdn := by
  obtain ⟨met, hmet⟩ := exists_observed (O := (Nat → Option Bool × Option Unit) × Option Bool)
    (p := Prod.fst)
    (f := fun (s : EvenStatusMap × Db) c i => storeConfiguration calls cir msisdn s c i)
    (g := fun o m c i => processConfiguration
      { getImsiFromMsisdn := fun _ => none
        checkExtIdExists := fun _ => none
        getImsiListFromExtId := fun _ => none
        getEvent := fun _ j => (o.1 j).1
        deleteEvent := fun _ j => (o.1 j).2
        addEvent := fun _ _ => o.2
        idr := fun _ => ⟨none, none, .error .thrown, false⟩ } cir msisdn m c i)
    (fun s c i => by
      obtain ⟨o, ho⟩ := exists_processConfiguration calls cir msisdn s c i
      exact ⟨o, ho _ rfl rfl rfl⟩)
    cir.monitoring_event_configuration (SortedMap.empty, db)
  exact ⟨{ getImsiFromMsisdn := fun _ => none
           checkExtIdExists := fun _ => none
           getImsiListFromExtId := fun _ => none
           getEvent := fun i j => ((met i).1 j).1
           deleteEvent := fun i j => ((met i).1 j).2
           addEvent := fun i _ => (met i).2
           idr := fun _ => ⟨none, none, .error .thrown, false⟩ }, hmet⟩

/-! ### The operations of a CIR -/

/-- The operations in the order in which they are done. -/
def operations (calls : Calls) (cir : Request) (msisdn : Int) :
    List (Op EventKey MonitoringConfEventStatus Db) :=
  cir.monitoring_event_configuration.zipIdx.flatMap fun c =>
    (c.1.scef_reference_id_for_deletion.zipIdx.map fun d =>
      deletion calls c.2 d.2 (c.1.scef_id.getD "") d.1) ++
    c.1.scef_reference_id.toList.map fun ref => addition calls cir msisdn c.2 c.1 ref

theorem hssDb_eq_run (calls : Calls) (cir : Request) (msisdn : Int) (db : Db) :
    hssDb calls cir msisdn db = run (operations calls cir msisdn) (SortedMap.empty, db) := by
  rw [hssDb, run, operations, List.foldl_flatMap]
  congr 1
  funext s c
  rw [List.foldl_append, List.foldl_map, List.foldl_map, storeConfiguration]
  cases c.1.scef_reference_id <;> rfl

/-- The events that a CIR mentions. -/
def mentioned (cir : Request) : List EventKey :=
  cir.monitoring_event_configuration.flatMap fun c =>
    (c.scef_reference_id_for_deletion.map fun ref => toLex (c.scef_id.getD "", ref)) ++
    c.scef_reference_id.toList.map fun ref => toLex (c.scef_id.getD "", ref)

theorem map_key_operations (calls : Calls) (cir : Request) (msisdn : Int) :
    (operations calls cir msisdn).map Op.key = mentioned cir := by
  have hzip : ∀ {α β : Type} (l : List α) (f : α → List β),
      (l.zipIdx.flatMap fun c => f c.1) = l.flatMap f := by
    intro α β l f
    conv_rhs => rw [← List.zipIdx_map_fst 0 l, List.flatMap_map]
  rw [operations, mentioned, List.map_flatMap]
  refine Eq.trans (List.flatMap_congr fun c _ => ?_) (hzip cir.monitoring_event_configuration _)
  rw [List.map_append, List.map_map, List.map_map]
  congr 1
  conv_rhs => rw [← List.zipIdx_map_fst 0 c.1.scef_reference_id_for_deletion, List.map_map]
  rfl

/-- The statuses of the operations on an event, with these tables before. -/
def statusesOf (calls : Calls) (cir : Request) (msisdn : Int) (db : Db) (k : EventKey) :
    List MonitoringConfEventStatus :=
  results k db (operations calls cir msisdn)

theorem statusesOf_ne_nil {calls : Calls} {cir : Request} {msisdn : Int} {db : Db} {k : EventKey}
    (h : k ∈ mentioned cir) : statusesOf calls cir msisdn db k ≠ [] := by
  intro hnil
  rw [← map_key_operations calls cir msisdn] at h
  obtain ⟨op, hop, hkey⟩ := List.mem_map.mp h
  exact results_eq_nil_iff.mp hnil op hop hkey

/-! ### What is reported -/

/-- What a status tells: a deletion or an addition, of which kind, and its result. -/
def MonitoringConfEventStatus.told (s : MonitoringConfEventStatus) : Bool × Bool × Nat :=
  (s.is_remove, s.isLongTermEvt, s.result)

/-- The table is as the status says. -/
structure Agrees (s : MonitoringConfEventStatus) (there : Bool) : Prop where
  added : s.is_remove = false → s.isLongTermEvt = true → s.result = erDiameterSuccess →
    there = true
  deleted : s.is_remove = true → s.result = erDiameterSuccess → there = false

theorem Agrees.of_told {s s' : MonitoringConfEventStatus} {there : Bool}
    (h : Agrees s there) (htold : s'.told = s.told) : Agrees s' there := by
  obtain ⟨hremove, hrest⟩ := Prod.mk.inj htold
  obtain ⟨hlong, hresult⟩ := Prod.mk.inj hrest
  exact ⟨fun h₁ h₂ h₃ => h.added (hremove ▸ h₁) (hlong ▸ h₂) (hresult ▸ h₃),
    fun h₁ h₂ => h.deleted (hremove ▸ h₁) (hresult ▸ h₂)⟩

/-- A status of a deletion that is reported as a success. -/
theorem deletionStatus_success {scef_id : String} {ref : Nat} {found : Option Bool}
    {deleted : Option Unit}
    (h : (deletionStatus scef_id ref found deleted).result = erDiameterSuccess) :
    found = some true ∧ deleted = some () := by
  have hok : ∀ ok : Bool, (if ok then erDiameterSuccess
      else diameterErrorConfigurationEventNonExistant) = erDiameterSuccess → ok = true := by decide
  have hboth := hok _ h
  split at hboth
  · cases deleted with
    | none => exact absurd hboth nofun
    | some => exact ⟨rfl, rfl⟩
  · exact absurd hboth nofun

theorem configured_success {s : MonitoringConfEventStatus} {added : Option Bool}
    (hl : s.isLongTermEvt = true) (h : (configured s added).result = erDiameterSuccess) :
    added = some true := by
  by_contra hadded
  have hne : diameterErrorConfigurationEventStorageNotSuccessful ≠ erDiameterSuccess := by decide
  rw [configured, if_pos hl, if_neg hadded] at h
  exact hne h

/-- What the statements of a CIR quote is plain. -/
structure Request.PlainTexts (cir : Request) : Prop where
  scef_id : ∀ c ∈ cir.monitoring_event_configuration, Plain (c.scef_id.getD "")
  json : ∀ c ∈ cir.monitoring_event_configuration, Plain c.json
  external_identifier : Plain (cir.external_identifier.getD "")
  ui_json : Plain cir.ui_json

/-- An operation leaves the other events alone, and its own as its status says. -/
structure Truthful (op : Op EventKey MonitoringConfEventStatus Db) (db : Db) : Prop where
  keeps : ∀ k, op.key ≠ k → hasEvent (op.exec db).2 k = hasEvent db k
  agrees : Agrees (op.exec db).1 (hasEvent (op.exec db).2 op.key)

theorem Truthful.iff_of_exec {op : Op EventKey MonitoringConfEventStatus Db} {db : Db}
    {r : MonitoringConfEventStatus × Db} (h : op.exec db = r) :
    Truthful op db ↔ (∀ k, op.key ≠ k → hasEvent r.2 k = hasEvent db k) ∧
      Agrees r.1 (hasEvent r.2 op.key) := by
  subst h
  exact ⟨fun h => ⟨h.keeps, h.agrees⟩, fun h => ⟨h.1, h.2⟩⟩

theorem truthful_deletion (calls : Calls) (i j : Nat) {scef_id : String} (h : Plain scef_id)
    (ref : Nat) (db : Db) : Truthful (deletion calls i j scef_id ref) db := by
  by_cases hget : calls.getEvent i j scef_id ref db = some true
  · obtain ⟨o, hreturns, hrows⟩ := calls.deleteEvent_plain i j ref h db
    have hexec : (deletion calls i j scef_id ref).exec db =
        (deletionStatus scef_id ref (some true) (if o.returns then some () else none),
          (calls.deleteEvent i j scef_id ref db).1) := by
      simp only [deletion, hget, hreturns]
    rw [Truthful.iff_of_exec hexec]
    refine ⟨fun k hk => (hrows k).trans (if_neg fun hw => hk hw.2.symm), nofun,
      fun _ hsuccess => (hrows _).trans (if_pos ⟨Outcome.writes_of_returns ?_, rfl⟩)⟩
    obtain ⟨-, hdeleted⟩ := deletionStatus_success hsuccess
    by_contra hnot
    rw [if_neg hnot] at hdeleted
    cases hdeleted
  · have hexec : (deletion calls i j scef_id ref).exec db =
        (deletionStatus scef_id ref (calls.getEvent i j scef_id ref db) none, db) := by
      dsimp only [deletion]
      split
      · exact absurd ‹_› hget
      · rfl
    rw [Truthful.iff_of_exec hexec]
    refine ⟨fun _ _ => rfl, nofun, fun _ hsuccess => ?_⟩
    obtain ⟨-, hdeleted⟩ := deletionStatus_success hsuccess
    cases hdeleted

theorem truthful_addition (calls : Calls) (cir : Request) (msisdn : Int) (i : Nat)
    {c : EventConfiguration} {ref : Nat} (h : (configurationEvent cir msisdn c ref).Plain) (db : Db) :
    Truthful (addition calls cir msisdn i c ref) db := by
  obtain ⟨o, hreturns, hrows⟩ := calls.addEvent_plain i h db
  have hremove : ∀ added, (configured (configurationStatus c ref) added).is_remove = true → False := by
    intro added hremove
    obtain ⟨result, hs⟩ := configured_eq (configurationStatus c ref) added
    rw [hs] at hremove
    cases hremove
  by_cases hl : (configurationStatus c ref).isLongTermEvt = true
  · have hexec : (addition calls cir msisdn i c ref).exec db =
        (configured (configurationStatus c ref) (if o.returns then some true else none),
          (calls.addEvent i (configurationEvent cir msisdn c ref) db).1) := by
      simp only [addition, hl, if_true, hreturns]
    rw [Truthful.iff_of_exec hexec]
    refine ⟨fun k hk => (hrows k).trans (if_neg fun hw => hk hw.2.symm), fun _ _ hsuccess =>
      (hrows _).trans (if_pos ⟨Outcome.writes_of_returns ?_, rfl⟩), fun h => absurd (hremove _ h) id⟩
    have hadded := configured_success hl hsuccess
    by_contra hnot
    rw [if_neg hnot] at hadded
    cases hadded
  · have hexec : (addition calls cir msisdn i c ref).exec db =
        (configured (configurationStatus c ref) none, db) := by
      simp only [addition, hl]
      rfl
    rw [Truthful.iff_of_exec hexec]
    refine ⟨fun _ _ => rfl, fun _ hlong _ => ?_, fun h => absurd (hremove _ h) id⟩
    rw [configured, if_neg hl] at hlong
    exact absurd hlong hl

/-- **Each operation leaves the table as its status says.** -/
theorem truthful_operation {cir : Request} (h : cir.PlainTexts) (calls : Calls) (msisdn : Int) :
    ∀ op ∈ operations calls cir msisdn, ∀ db, Truthful op db := by
  intro op hop db
  obtain ⟨⟨c, i⟩, hc, hop⟩ := List.mem_flatMap.mp hop
  have hmem : c ∈ cir.monitoring_event_configuration := List.fst_mem_of_mem_zipIdx hc
  rcases List.mem_append.mp hop with hop | hop
  · obtain ⟨d, -, rfl⟩ := List.mem_map.mp hop
    exact truthful_deletion calls i d.2 (h.scef_id c hmem) d.1 db
  · obtain ⟨ref, -, rfl⟩ := List.mem_map.mp hop
    exact truthful_addition calls cir msisdn i
      ⟨h.scef_id c hmem, h.external_identifier, h.json c hmem, h.ui_json⟩ db

/-- The map has an entry for an event; it tells what the last operation on the event came to, and the
table is as it says. -/
def Reflected (calls : Calls) (cir : Request) (msisdn : Int) (db : Db) (k : EventKey) : Prop :=
  ∃ s last, (hssDb calls cir msisdn db).1.find? k = some s ∧
    (statusesOf calls cir msisdn db k).getLast? = some last ∧ s.told = last.told ∧
    Agrees s (hasEvent (hssDb calls cir msisdn db).2 k)

section Tables

open DataAccess

/-- **`addEvent` goes in one of the three ways**, whatever the database fails at. -/
theorem addEvent_outcome (fails : Nat → Bool) {e : DAEvent} (h : e.Plain) (db : Db) :
    ∃ o : Outcome, (addEventWith fails e db).2 = o.returns ∧
      ∀ key, ((addEventWith fails e db).1 (name "events") key).isSome =
        if o.writes = true ∧ key = eventKey e.scef_id.toList e.scef_ref_id then true
        else (db (name "events") key).isSome := by
  have hat := atAll_addEvent fails e
  have hnodup := nodup_writtenTables e
  have htexts : attempts fails 0 (addEventTexts e) = attempt fails 0 (insertEventText e) ::
      attempts fails 1 (addEventTexts e).tail := attempts_cons ..
  rw [addEventWith]
  rw [htexts] at hat ⊢
  cases hfirst : attempt fails 0 (insertEventText e) db with
  | none =>
    refine ⟨.refused, ?_, fun key => ?_⟩
    · rw [runAll, hfirst]
      rfl
    · rw [runAll, hfirst, if_neg fun h => absurd h.1 (by decide)]
  | some t =>
    obtain ⟨-, hr⟩ := Option.ite_none_left_eq_some.mp hfirst
    obtain ⟨r, hexec, rfl⟩ := Option.map_eq_some_iff.mp hr
    obtain ⟨-, hdb⟩ := dbExecute_insertEvent h hexec
    have htable := runAll_head hat hnodup hfirst
    obtain ⟨o, hwrites, hreturns⟩ := Outcome.exists_writes (runAll (attempt fails 0 (insertEventText e)
      :: attempts fails 1 (addEventTexts e).tail) db).2
    refine ⟨o, hreturns.symm, fun key => ?_⟩
    rw [htable, hdb, Db.upsert, Db.isSome_set, hwrites]
    simp only [true_and, Option.isSome_some]

/-- **So does `deleteEvent`**, for an event that is in the table or not. -/
theorem deleteEvent_outcome (fails : Nat → Bool) {scef_id : String} (h : Plain scef_id) (ref : Nat)
    (db : Db) :
    ∃ o : Outcome, (deleteEventWith fails scef_id ref db).2 = o.returns ∧
      ∀ key, ((deleteEventWith fails scef_id ref db).1 (name "events") key).isSome =
        if o.writes = true ∧ key = eventKey scef_id.toList ref then false
        else (db (name "events") key).isSome := by
  have hrefused : ∀ key, (db (name "events") key).isSome =
      if Outcome.refused.writes = true ∧ key = eventKey scef_id.toList ref then false
      else (db (name "events") key).isSome := fun key => (if_neg fun h => absurd h.1 (by decide)).symm
  rw [deleteEventWith]
  by_cases hfails : fails 0 = true
  · rw [if_pos hfails]
    exact ⟨.refused, rfl, hrefused⟩
  rw [if_neg hfails]
  cases hget : getEvent db scef_id ref with
  | none => exact ⟨.refused, rfl, hrefused⟩
  | some found =>
    obtain ⟨r, hr, hfound⟩ := Option.map_eq_some_iff.mp hget
    obtain ⟨hfits, rfl⟩ := (dbExecute_getEvent h).mp hr
    cases found with
    | none =>
      have hrow : db (name "events") (eventKey scef_id.toList ref) = none :=
        Option.map_eq_none_iff.mp hfound
      refine ⟨.done, rfl, fun key => ?_⟩
      dsimp only
      by_cases hk : key = eventKey scef_id.toList ref
      · rw [if_pos ⟨rfl, hk⟩, hk, hrow]
        rfl
      · rw [if_neg fun h => hk h.2]
    | some event =>
      have hat := atAll_deleteEvent fails scef_id ref event
      have hnodup := nodup_writtenTables event
      have htexts : attempts fails 1 (deleteEventTexts scef_id ref event) =
          attempt fails 1 (deleteEventText scef_id ref) ::
            attempts fails 2 (deleteEventTexts scef_id ref event).tail := attempts_cons ..
      dsimp only
      rw [htexts] at hat ⊢
      cases hfirst : attempt fails 1 (deleteEventText scef_id ref) db with
      | none =>
        refine ⟨.refused, ?_, fun key => ?_⟩
        · rw [runAll, hfirst]
          rfl
        · rw [runAll, hfirst]
          exact hrefused key
      | some t =>
        have htable := runAll_head hat hnodup hfirst
        obtain ⟨-, ht⟩ := Option.ite_none_left_eq_some.mp hfirst
        rw [dbExecute_deleteEvent h hfits, Option.map_some] at ht
        obtain rfl := Option.some.inj ht
        obtain ⟨o, hwrites, hreturns⟩ := Outcome.exists_writes (runAll
          (attempt fails 1 (deleteEventText scef_id ref) ::
            attempts fails 2 (deleteEventTexts scef_id ref event).tail) db).2
        refine ⟨o, hreturns.symm, fun key => ?_⟩
        rw [htable, Db.isSome_set, hwrites]
        simp only [true_and, Option.isSome_none]

theorem eventKey_eq_iff {k : EventKey} {scef_id : String} {ref : Nat} :
    eventKey (ofLex k).1.toList (ofLex k).2 = eventKey scef_id.toList ref ↔
      k = toLex (scef_id, ref) := by
  constructor
  · intro h
    simp only [eventKey, List.cons.injEq, Value.text.injEq, Value.int.injEq, String.toList_inj,
      Nat.cast_inj, and_true] at h
    exact ofLex.injective (Prod.ext h.1 h.2)
  · rintro rfl
    rfl

/-- A call that changes the rows of `events` in one of the three ways. -/
theorem makes_of_rows {scef_id : String} {ref : Nat} {there : Bool} {exec : Db → Db × Bool}
    (h : ∀ db, ∃ o : Outcome, (exec db).2 = o.returns ∧ ∀ key,
      ((exec db).1 (name "events") key).isSome =
        if o.writes = true ∧ key = eventKey scef_id.toList ref then there
        else (db (name "events") key).isSome) : Makes (toLex (scef_id, ref)) there exec := by
  intro db
  obtain ⟨o, hreturns, hrows⟩ := h db
  refine ⟨o, hreturns, fun k => ?_⟩
  have hrow := hrows (eventKey (ofLex k).1.toList (ofLex k).2)
  simp only [eventKey_eq_iff] at hrow
  exact hrow

/-- What `getEvent` finds. -/
theorem getEvent_found {scef_id : String} (h : Plain scef_id) (ref : Nat) (db : Db) :
    (getEvent db scef_id ref).map Option.isSome = none ∨
      (getEvent db scef_id ref).map Option.isSome = some (hasEvent db (toLex (scef_id, ref))) := by
  cases hget : getEvent db scef_id ref with
  | none => exact Or.inl rfl
  | some found =>
    obtain ⟨r, hr, rfl⟩ := Option.map_eq_some_iff.mp hget
    obtain ⟨-, rfl⟩ := (dbExecute_getEvent h).mp hr
    exact Or.inr (congrArg some Option.isSome_map)

theorem getEvent_fails (fails : Bool) {scef_id : String} (h : Plain scef_id) (ref : Nat) (db : Db) :
    (if fails then none else (getEvent db scef_id ref).map Option.isSome) = none ∨
      (if fails then none else (getEvent db scef_id ref).map Option.isSome) =
        some (hasEvent db (toLex (scef_id, ref))) := by
  cases fails with
  | true => exact Or.inl rfl
  | false => exact getEvent_found h ref db

/-- The calls of `DataAccess`, with the statements that the database fails at. -/
def statements (gets : Nat → Nat → Bool) (deletes : Nat → Nat → Nat → Bool)
    (adds : Nat → Nat → Bool) : Calls where
  getEvent i j scef_id ref db :=
    if gets i j then none else (DataAccess.getEvent db scef_id ref).map Option.isSome
  deleteEvent i j scef_id ref := deleteEventWith (deletes i j) scef_id ref
  addEvent i e := addEventWith (adds i) e
  getEvent_plain i j _ ref db h := getEvent_fails (gets i j) h ref db
  deleteEvent_plain i j _ ref h := makes_of_rows (deleteEvent_outcome (deletes i j) h ref)
  addEvent_plain i _ h := makes_of_rows (addEvent_outcome (adds i) h)

end Tables

/-! ### A deletion and an addition -/

/-- The event 1 is to be deleted and configured again, for five reports. -/
def renewingCir : Request :=
  { sampleCir with
    monitoring_event_configuration := [⟨some "scef", [1], some 1, some 5, none, some 2, ""⟩] }

/-- Nothing fails. -/
def allDone : Calls := statements (fun _ _ => false) (fun _ _ _ => false) fun _ _ => false

/-- The event is there before. -/
def dbOfOne : Db := (DataAccess.addEvent { DataAccess.msisdnEvent with scef_ref_id := 1 }
  DataAccess.noRows).1

theorem renewingCir_plain : renewingCir.PlainTexts where
  scef_id := by
    intro c hc
    obtain rfl := List.mem_singleton.mp hc
    decide
  json := by
    intro c hc
    obtain rfl := List.mem_singleton.mp hc
    decide
  external_identifier := by decide
  ui_json := by decide

end OpenairHss.Cir
