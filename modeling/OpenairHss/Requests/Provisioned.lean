import OpenairHss.Air.Freshness
import OpenairHss.Air.Updates
import OpenairHss.Lib.Steps
import OpenairHss.Nir.Request
import OpenairHss.Pur.Request
import OpenairHss.Ulr.Accepted
import OpenairHss.Ulr.Watch

/-!
# The subscribers stay the same

`UPDATE` is an upsert, so a request that writes without having found the subscriber adds one.  A
`World` is the tables with all the tables before them, and a step of it runs one `UPDATE` that a
request makes; what the request has read before may be from any of the tables so far.

A ULR, an AIR and a PUR write under the IMSI that they have looked up.  A ULR whose texts have
quotes in them can write elsewhere, and an NIR writes without having looked up a subscriber: under
the IMSIs that it has found for its MSISDN or external identifier, and under the local variable
`imsichar`, which is not set.

`subscribers_kept`: apart from these the subscribers stay the same.
-/

namespace OpenairHss.Provisioned

open ByteVec Cql DataAccess Hsssec Interact Processor Steps

/-! ### Messages -/

/-- The tables, and those before them. -/
structure World where
  now : Db
  past : List Db

/-- The tables so far. -/
def World.dbs (w : World) : List Db := w.now :: w.past

/-- A message with the memory that its handler begins with. -/
inductive Message (R : Type)
  | ulr (json : String → Bool) (req : Ulr.Request) (orig new : Ulr.Numbers)
  | air (env : AirProcessor.Surroundings R) (req : AirProcessor.Request) (sec : ImsiSec)
    (plmn_id : Bytes 3)
  | pur (mem : Pur.Memory) (pur : Pur.Request)
  | nir (mem : Nir.Memory) (nir : Nir.Request)

/-- The data that the processor of a ULR begins with. -/
def ulrStart (orig new : Ulr.Numbers) : Ulr.Data :=
  Ulr.Data.init (Ulr.blankInfo orig) (Ulr.blankInfo new)

/-- The columns that `getImsiSec` selects. -/
def secRow (row : Row) : SecRow where
  key := textColumn? row "key"
  sqn := intColumn? row "sqn"
  rand := textColumn? row "rand"
  opc := textColumn? row "opc"

section

variable {R : Type} (cipher : BlockCipher R)
  (kdf : List (BitVec 8) → List (BitVec 8) → Bytes 32)
  (imsisOfExtId : String → Option (List String))

/-- The subscriber that a ULR finds in one of the tables so far. -/
def UlrReads (w : World) (S : Ulr.Scene) : Prop :=
  ∃ db ∈ w.dbs, S.outcomes.imsi =
    (dbExecute db (Ulr.getImsiInfoText S.data1.new_info.imsi)).map fun r => r.2.map imsiInfoRow

/-- The rows that an AIR finds in the tables so far. -/
def AirReads (w : World) (e : Env AirProcessor.kind) : Prop :=
  ∀ text, ∃ db ∈ w.dbs, e.db (.getImsiSec, text) =
    (dbExecute db text).map fun r => r.2.map secRow

/-- The rows that a PUR finds in the tables so far. -/
def PurReads (w : World) : (o : Pur.Sql) → o.Res → Prop
  | .select text, row => ∃ db ∈ w.dbs, (dbExecute db text).map (·.2) = some row
  | .update _, _ => True

/-- What an NIR finds in the tables so far; the tables of external identifiers are not written by
any of the messages, and what it reads otherwise does not matter. -/
def NirReads (w : World) : (q : Nir.Query) → q.Rep → Prop
  | .getImsiFromMsisdn msisdn, imsi => ∃ db ∈ w.dbs, getImsiFromMsisdn db msisdn = some imsi
  | .getImsiListFromExtId extid, imsis => imsisOfExtId extid = some imsis
  | _, _ => True

/-- The `UPDATE` of a call. -/
def updateOf : Nir.Query → Option String
  | .updateValidityTime imsi time => some (UpdateValidityTimeText imsi time)
  | .updateNIRDestination imsi host realm => some (UpdateNIRDestinationText imsi host realm)
  | _ => none

/-- The `UPDATE`s that a message makes. -/
def Issues (w : World) : Message R → String → Prop
  | .ulr json req orig new, text => ∃ outcomes s,
    UlrReads w ⟨json, req, ulrStart orig new, outcomes⟩ ∧
      Run (Ulr.code json req) (fun _ l => outcomes.Agrees l.1)
        (State.init Ulr.phase1 (ulrStart orig new)) s ∧
      s.Performs (.register (.updateImsi, text))
  | .air env req sec plmn_id, text => ∃ s,
    Run (AirProcessor.code cipher kdf env req) (fun _ l => AirReads w l.1)
        (State.init AirProcessor.phase1 (AirProcessor.Data.init sec plmn_id)) s ∧
      s.Performs (.register (.updateImsi, text))
  | .pur mem pur, text => (Pur.puurStmts mem pur).Performs (PurReads w) (.update text)
  | .nir mem nir, text => ∃ q,
    (Nir.niirUserCalls nir mem).Performs (NirReads imsisOfExtId w) q ∧ updateOf q = some text

/-- A statement is run; the tables are kept for those who have read them. -/
def step (w : World) (l : Message R × String) : Option World :=
  (dbExecute w.now l.2).map fun r => ⟨r.1, w.dbs⟩

/-! ### Messages that add nobody -/

/-- If the IMSI is a key, it is that of a subscriber. -/
def Known (w : World) (imsi : String) : Prop :=
  ∀ key, imsiKey? imsi = some key → key ∈ subscribers w.now

/-- An NIR may write under this IMSI, which is taken from the tables or from memory. -/
def Target (w : World) (imsi : String) : Prop := Plain imsi ∧ Known w imsi

/-- The destination of an NIR is stored under this IMSI. -/
def TargetDestination (w : World) (nir : Nir.Request) (imsi : String) : Prop :=
  nir.origin_host.isSome → nir.origin_realm.isSome → Target w imsi

/-- The subscribers under whom an NIR stores its validity time, and its destination. -/
def NirKnown (w : World) (mem : Nir.Memory) (nir : Nir.Request) : Prop :=
  ∀ imsi, Nir.Finds (NirReads imsisOfExtId w) nir mem imsi →
    Target w imsi ∧ TargetDestination w nir mem.imsichar

/-- The texts of an NIR that are written have no quote and no NUL. -/
structure PlainNir (nir : Nir.Request) : Prop where
  time : ∀ s ∈ nir.requested_validity_time, Plain s
  host : ∀ s ∈ nir.origin_host, Plain s
  realm : ∀ s ∈ nir.origin_realm, Plain s

/-- What keeps a message from adding a subscriber. -/
def Keeps (w : World) : Message R → Prop
  | .ulr _ req _ _ => Ulr.PlainRequest req
  | .air .. => True
  | .pur .. => True
  | .nir mem nir => nir.requested_validity_time = none ∨
    PlainNir nir ∧ NirKnown imsisOfExtId w mem nir

end

section

variable {w : World} {imsi text : String}

/-- The subscribers are the same in all tables so far. -/
def World.Steady (w : World) : Prop := ∀ db ∈ w.dbs, subscribers db = subscribers w.now

theorem known_of_found (hw : w.Steady) {cols : List Name} (h : Selects text cols imsi) {db : Db} (hdb : db ∈ w.dbs)
    {db' : Db} {row : Row} (hr : dbExecute db text = some (db', some row)) : Known w imsi := by
  obtain ⟨key, hkey, hmem⟩ := h.found hr
  intro key' hkey'
  obtain rfl := Option.some.inj (hkey.symm.trans hkey')
  rw [← hw db hdb]
  exact hmem

/-- An `UPDATE` under the IMSI of a subscriber. -/
theorem subscribers_of_known {sets : List (Name × Value)} (h : Updates text sets imsi)
    (hknown : Known w imsi) {r : Db × Option Row} (hr : dbExecute w.now text = some r) :
    subscribers r.1 = subscribers w.now := by
  obtain ⟨key, hkey, hsub⟩ := h.subscribers_eq hr
  rw [hsub, Set.insert_eq_of_mem (hknown key hkey)]

/-! ### The four messages -/

theorem row_of_map {α : Type} {r : Option (Db × Option Row)} {f : Row → α} {a : α}
    (h : (r.map fun r => r.2.map f) = some (some a)) : ∃ db' row, r = some (db', some row) := by
  obtain ⟨⟨db', row?⟩, hr, h⟩ := Option.map_eq_some_iff.mp h
  obtain ⟨row, hrow, -⟩ := Option.map_eq_some_iff.mp h
  obtain rfl : row? = some row := hrow
  exact ⟨db', row, hr⟩

/-- **A ULR** writes under the IMSI that it has found. -/
theorem ulr_known {json : String → Bool} {req : Ulr.Request} {orig new : Ulr.Numbers}
    {outcomes : Ulr.Outcomes} {s : State Ulr.kind} (hw : w.Steady)
    (hreads : UlrReads w ⟨json, req, ulrStart orig new, outcomes⟩) (hreq : Ulr.PlainRequest req)
    (h : Run (Ulr.code json req) (fun _ l => outcomes.Agrees l.1)
      (State.init Ulr.phase1 (ulrStart orig new)) s)
    (ht : s.Performs (.register (.updateImsi, text))) :
    ∃ sets imsi, Updates text sets imsi ∧ Known w imsi := by
  let S : Ulr.Scene := ⟨json, req, ulrStart orig new, outcomes⟩
  obtain ⟨d, hd, rfl⟩ := Ulr.ulr_updates (S := S) (fun _ _ _ hC => hC) h ht
  have hchecked := Ulr.phase2Checks_checked json req S.data2
  have haccepted := Ulr.phase2Checks_accepted hd.checks
  rw [show Ulr.phase2Checks json req S.data2 = .ok d from hd.checks] at hchecked
  have himsi : d.new_info.imsi = S.data1.new_info.imsi := hchecked.imsi
  have hplain := haccepted.plain hreq (Ulr.plain_start hreq new _)
  refine ⟨_, _, updates_updateLocation hplain _ _, ?_⟩
  rw [himsi]
  -- the row that was found
  obtain ⟨db, hdb, himsiInfo⟩ := hreads
  obtain ⟨row, houtcome⟩ := Ulr.Outcomes.row_of_found hd.found
  obtain ⟨db', row', hr⟩ := row_of_map (himsiInfo.symm.trans houtcome)
  exact known_of_found hw (selects_getImsiInfo _) hdb hr

/-- The empty text is nobody's key. -/
theorem known_empty (w : World) : Known w "" := by
  intro key hkey
  rw [imsiKey?_empty] at hkey
  exact absurd hkey nofun

/-- **An AIR** writes under the IMSI that it has found. -/
theorem air_known {R : Type} {cipher : BlockCipher R}
    {kdf : List (BitVec 8) → List (BitVec 8) → Bytes 32} {env : AirProcessor.Surroundings R}
    {req : AirProcessor.Request} {sec : ImsiSec} {plmn_id : Bytes 3} {s : State AirProcessor.kind}
    (hw : w.Steady)
    (h : Run (AirProcessor.code cipher kdf env req) (fun _ l => AirReads w l.1)
      (State.init AirProcessor.phase1 (AirProcessor.Data.init sec plmn_id)) s)
    (ht : s.Performs (.register (.updateImsi, text))) :
    ∃ sets imsi, Updates text sets imsi ∧ Known w imsi := by
  have hfinds : ∀ (s : State AirProcessor.kind) e (m : Move), AirReads w e →
      AirProcessor.Finds (req.user_name.getD "") (Known w (req.user_name.getD "")) e := by
    intro s e m he row hrow
    obtain ⟨db, hdb, hread⟩ := he (getImsiSecText (req.user_name.getD ""))
    obtain ⟨db', row', hr⟩ := row_of_map (hread.symm.trans hrow)
    exact known_of_found hw (selects_getImsiSec _) hdb hr
  obtain ⟨hfound, imsi, rand, sqn, himsi, rfl⟩ :=
    AirProcessor.air_updates cipher kdf env hfinds h ht
  refine ⟨_, imsi, updates_updateRandSqn imsi rand sqn true, ?_⟩
  rcases himsi with rfl | rfl
  · exact known_empty w
  · exact hfound

/-- What a statement of a PUR has to meet. -/
def PurDemand (w : World) : Pur.Sql → Prop
  | .select _ => True
  | .update text => ∃ sets imsi, Updates text sets imsi ∧ Known w imsi

/-- **A PUR** writes under the IMSI that it has found. -/
theorem pur_known {mem : Pur.Memory} {pur : Pur.Request} (hw : w.Steady)
    (h : (Pur.puurStmts mem pur).Performs (PurReads w) (.update text)) :
    ∃ sets imsi, Updates text sets imsi ∧ Known w imsi := by
  have hwp : (Pur.puurStmts mem pur).wp
      (fun o g Q => PurDemand w o ∧ ∀ r, PurReads w o r → Q r g) () fun _ _ => True := by
    unfold Pur.puurStmts
    dsimp only
    split
    · trivial
    split
    · trivial
    refine ⟨trivial, fun row hrow => ?_⟩
    cases row with
    | none => trivial
    | some row =>
      obtain ⟨db, hdb, hrow⟩ := hrow
      obtain ⟨⟨db', row'⟩, hr, hrow'⟩ := Option.map_eq_some_iff.mp hrow
      obtain rfl : row' = some row := hrow'
      have hknown := known_of_found hw (selects_getMmeIdentityFromImsi _) hdb hr
      refine ⟨trivial, fun identity _ => ?_⟩
      cases identity with
      | none => trivial
      | some identity =>
        show Prog.wp _ ((Pur.purgeUEStmts _).bind _) () _
        rw [Prog.wp_bind]
        unfold Pur.purgeUEStmts
        split
        · trivial
        · exact ⟨⟨_, _, updates_purgeUE _, hknown⟩, fun _ _ => trivial⟩
  exact Prog.performs_demand hwp h

/-- What a call of an NIR has to meet. -/
def NirDemand (w : World) (q : Nir.Query) : Prop :=
  ∀ text, updateOf q = some text → ∃ sets imsi, Updates text sets imsi ∧ Known w imsi

/-- **An NIR** stores nothing, or under subscribers only. -/
theorem nir_known {imsisOfExtId : String → Option (List String)} {nir : Nir.Request}
    {mem : Nir.Memory} (h : nir.requested_validity_time = none ∨
      PlainNir nir ∧ NirKnown imsisOfExtId w mem nir) :
    Nir.Meets (NirDemand w) (NirReads imsisOfExtId w) (Nir.niirUserCalls nir mem)
      fun _ => True := by
  refine Nir.meets_niirUser (fun q hq text ht => ?_) fun imsi hfinds => ?_
  · cases q with
    | updateValidityTime imsi time => exact absurd hq id
    | updateNIRDestination imsi host realm => exact absurd hq id
    | _ => exact absurd ht nofun
  · refine Nir.meets_storeValidity fun time htime => ?_
    rcases h with hnone | ⟨hplain, hknown⟩
    · exact absurd (htime.symm.trans hnone) nofun
    obtain ⟨htarget, hdestination⟩ := hknown imsi hfinds
    constructor
    · intro text ht
      obtain rfl := Option.some.inj ht
      exact ⟨_, imsi, updates_UpdateValidityTime (hplain.time time htime) imsi, htarget.2⟩
    · intro host realm hhost hrealm text ht
      obtain rfl := Option.some.inj ht
      refine ⟨_, mem.imsichar, updates_UpdateNIRDestination (hplain.host host hhost)
        (hplain.realm realm hrealm) mem.imsichar, (hdestination ?_ ?_).2⟩
      · exact Option.isSome_iff_exists.mpr ⟨host, hhost⟩
      · exact Option.isSome_iff_exists.mpr ⟨realm, hrealm⟩

/-! ### Runs -/

section Runs

variable {R : Type} {cipher : BlockCipher R} {kdf : List (BitVec 8) → List (BitVec 8) → Bytes 32}
  {imsisOfExtId : String → Option (List String)}

/-- An `UPDATE` of a message that keeps the subscribers. -/
theorem issues_known {m : Message R} (hw : w.Steady)
    (h : Issues cipher kdf imsisOfExtId w m text) (hk : Keeps imsisOfExtId w m) :
    ∃ sets imsi, Updates text sets imsi ∧ Known w imsi := by
  cases m with
  | ulr json req orig new =>
    obtain ⟨outcomes, s, hreads, hrun, ht⟩ := h
    exact ulr_known hw hreads hk hrun ht
  | air env req sec plmn_id =>
    obtain ⟨s, hrun, ht⟩ := h
    exact air_known hw hrun ht
  | pur mem pur => exact pur_known hw h
  | nir mem nir =>
    obtain ⟨q, hq, ht⟩ := h
    exact Prog.performs_demand (nir_known hk) hq text ht

/-- **One step** keeps the subscribers. -/
theorem steady_step {w' : World} {m : Message R} (hw : w.Steady)
    (h : Issues cipher kdf imsisOfExtId w m text) (hk : Keeps imsisOfExtId w m)
    (hs : step w (m, text) = some w') :
    w'.Steady ∧ subscribers w'.now = subscribers w.now := by
  obtain ⟨r, hr, rfl⟩ := Option.map_eq_some_iff.mp hs
  obtain ⟨sets, imsi, hupdates, hknown⟩ := issues_known hw h hk
  have hnow : subscribers r.1 = subscribers w.now := subscribers_of_known hupdates hknown hr
  refine ⟨fun db hdb => ?_, hnow⟩
  rcases List.mem_cons.mp hdb with rfl | hdb
  · rfl
  · exact (hw db hdb).trans hnow.symm

/-- **In every run** whose messages keep the subscribers, these stay the same. -/
theorem subscribers_kept (cipher : BlockCipher R)
    (kdf : List (BitVec 8) → List (BitVec 8) → Bytes 32)
    (imsisOfExtId : String → Option (List String)) {db : Db} {w : World}
    (h : Reaches (fun w l w' => step w l = some w')
      (fun w (l : Message R × String) => Issues cipher kdf imsisOfExtId w l.1 l.2 ∧
        Keeps imsisOfExtId w l.1) ⟨db, []⟩ w) : subscribers w.now = subscribers db := by
  have hstart : World.Steady ⟨db, []⟩ := by
    intro db' hdb'
    rw [List.mem_singleton.mp hdb']
  have hinv : w.Steady ∧ subscribers w.now = subscribers db := by
    refine h.invariant (I := fun w => w.Steady ∧ subscribers w.now = subscribers db)
      ⟨hstart, rfl⟩ ?_
    rintro w ⟨m, text⟩ w' ⟨hw, hsub⟩ ⟨hi, hk⟩ hs
    obtain ⟨hw', hnow⟩ := steady_step hw hi hk hs
    exact ⟨hw', hnow.trans hsub⟩
  exact hinv.2

/-! ### An NIR by MSISDN -/

/-- An NIR with an MSISDN and Requested-Validity-Time. -/
def timeRequest : Nir.Request where
  user_name := none
  msisdn := some [0x12#8]
  external_identifier := none
  service_selection := none
  requested_validity_time := some "3600"
  origin_host := none
  origin_realm := none

def timeMemory : Nir.Memory := ⟨"", "", fun _ => 0⟩

/-- The tables with an IMSI for the MSISDN. -/
def oneMsisdn : Db := noRows.set (name "msisdn_imsi") [.int 12]
  (some fun c => if c = name "imsi" then some (.text "208930000000001".toList) else none)

def oneSubscriber : Db :=
  oneMsisdn.set (name "users_imsi") [.text "208930000000001".toList] (some fun _ => none)

theorem getImsiFromMsisdn_oneMsisdn :
    getImsiFromMsisdn oneMsisdn "12" = some (some "208930000000001") := by decide +kernel

theorem getImsiFromMsisdn_oneSubscriber :
    getImsiFromMsisdn oneSubscriber "12" = some (some "208930000000001") := by decide +kernel

theorem mem_oneSubscriber : [.text "208930000000001".toList] ∈ subscribers oneSubscriber := by
  rw [oneSubscriber, subscribers, Set.mem_ofPred_eq, Db.set_same]
  rfl

theorem imsiKey?_time : imsiKey? "208930000000001" = some [.text "208930000000001".toList] :=
  imsiKey?_plain (by decide) (by decide)

theorem msisdnBytes_timeRequest : timeRequest.msisdnBytes = some [0x12#8] := by decide

theorem tbcdInto_timeRequest :
    Nir.tbcdInto Nir.msisdnLen timeMemory.msisdnchar [0x12#8] = "12" := by decide

/-- The time is stored for the IMSI that is found, whether or not there is such a subscriber. -/
theorem issues_timeRequest {db : Db} (h : getImsiFromMsisdn db "12" = some (some "208930000000001")) :
    Issues cipher kdf imsisOfExtId ⟨db, []⟩ (.nir timeMemory timeRequest)
      (UpdateValidityTimeText "208930000000001" "3600") := by
  refine ⟨.updateValidityTime "208930000000001" "3600", ?_, rfl⟩
  rw [Nir.niirUserCalls, Nir.Request.userNameBytes_eq, msisdnBytes_timeRequest]
  dsimp only
  rw [tbcdInto_timeRequest]
  refine Or.inr ⟨some "208930000000001", ⟨db, List.mem_singleton_self db, h⟩, ?_⟩
  exact Or.inr ⟨none, trivial, Or.inl rfl⟩

theorem keeps_timeRequest :
    Keeps (R := R) imsisOfExtId ⟨oneSubscriber, []⟩ (.nir timeMemory timeRequest) := by
  refine Or.inr ⟨⟨fun s hs => ?_, nofun, nofun⟩, ?_⟩
  · obtain rfl := Option.mem_some.mp hs
    decide
  · intro imsi hfinds
    rw [Nir.Finds, msisdnBytes_timeRequest] at hfinds
    dsimp only at hfinds
    rw [tbcdInto_timeRequest] at hfinds
    obtain ⟨db, hdb, hread⟩ := hfinds
    obtain rfl := List.mem_singleton.mp hdb
    obtain rfl := Option.some.inj (Option.some.inj (getImsiFromMsisdn_oneSubscriber.symm.trans hread))
    refine ⟨⟨by decide, fun key hkey => ?_⟩, fun hhost => absurd hhost Bool.false_ne_true⟩
    obtain rfl := Option.some.inj (imsiKey?_time.symm.trans hkey)
    exact mem_oneSubscriber

/-- It is run, and its subscriber is there then. -/
theorem step_timeRequest (past : List Db) (db : Db) (m : Message R) :
    ∃ w, step ⟨db, past⟩ (m, UpdateValidityTimeText "208930000000001" "3600") = some w ∧
      subscribers w.now = insert [.text "208930000000001".toList] (subscribers db) := by
  have htime : Plain "3600" := by decide
  have hupdates := updates_UpdateValidityTime htime "208930000000001"
  have hrun : ∃ r, dbExecute db (UpdateValidityTimeText "208930000000001" "3600") = some r := by
    rw [dbExecute_eq, hupdates, whereImsi_plain (by decide)]
    exact ⟨_, rfl⟩
  obtain ⟨r, hr⟩ := hrun
  obtain ⟨key, hkey, hsub⟩ := hupdates.subscribers_eq hr
  obtain rfl := Option.some.inj (imsiKey?_time.symm.trans hkey)
  refine ⟨⟨r.1, db :: past⟩, ?_, hsub⟩
  rw [step, hr]
  rfl

/-- A subscriber whose validity time is stored. -/
theorem subscribers_kept_timeRequest :
    ∃ w, step ⟨oneSubscriber, []⟩ ((.nir timeMemory timeRequest : Message (Bytes 16)),
        UpdateValidityTimeText "208930000000001" "3600") = some w ∧
      subscribers w.now = subscribers oneSubscriber := by
  obtain ⟨w, hw, -⟩ :=
    step_timeRequest [] oneSubscriber (.nir timeMemory timeRequest : Message (Bytes 16))
  refine ⟨w, hw, subscribers_kept Air.xorCipher (fun _ _ _ => 0) (fun _ => none) ?_⟩
  exact (Reaches.refl _).tail
    ⟨issues_timeRequest getImsiFromMsisdn_oneSubscriber, keeps_timeRequest⟩ hw

/-- The IMSI of the MSISDN has no row: the time is stored as well, and there is a subscriber then. -/
theorem not_subscribers_kept :
    ¬ ∀ (db : Db) (w : World), Reaches (fun w l w' => step w l = some w')
      (fun w (l : Message (Bytes 16) × String) =>
        Issues Air.xorCipher (fun _ _ _ => 0) (fun _ => none) w l.1 l.2) ⟨db, []⟩ w →
        subscribers w.now = subscribers db := by
  intro h
  obtain ⟨w, hw, hsub⟩ :=
    step_timeRequest [] oneMsisdn (.nir timeMemory timeRequest : Message (Bytes 16))
  have hkept := h oneMsisdn w
    ((Reaches.refl _).tail (issues_timeRequest getImsiFromMsisdn_oneMsisdn) hw)
  have hmem : [.text "208930000000001".toList] ∈ subscribers oneMsisdn := by
    rw [← hkept, hsub]
    exact Set.mem_insert _ _
  have hnone : oneMsisdn (name "users_imsi") [.text "208930000000001".toList] = none := by
    have hne : name "users_imsi" ≠ name "msisdn_imsi" := by decide
    rw [oneMsisdn, Db.set_of_table_ne hne]
    rfl
  rw [subscribers, Set.mem_ofPred_eq, hnone] at hmem
  exact Bool.false_ne_true hmem

end Runs

end

end OpenairHss.Provisioned
