import OpenairHss.Requests.Provisioned
import OpenairHss.Ulr.ResultCode

/-!
# The row that a ULR writes

The `UPDATE` of a ULR is put together from the flags that `phase2` has set, after the answer has been
decided on.  `imeisv`, the column of the software version, is not a column of `users_imsi`, so that
the `UPDATE` of a ULR with Software-Version is rejected; and an MME that is not known is written as
the id -1.

`located_of_run`: without Software-Version, with texts without quotes and with a known MME, a ULR
that is answered with success leaves the row as the request says; and one that is answered with an
error leaves everything alone.
-/

namespace OpenairHss.Located

open Cql DataAccess Diameter Interact Processor Provisioned Ulr

/-! ### What is demanded -/

/-- The columns that a ULR may write. -/
def locationColumns : List Name :=
  [name "ms_ps_status", name "visited_plmnid", name "imei", name "imei_sv", name "mmehost",
    name "mmerealm", name "mmeidentity_idmmeidentity"]

/-- Initial-Attach is set in ULR-Flags. -/
def initialAttach (req : Ulr.Request) : Bool :=
  req.ulr_flags.any fun u32 => flagIsSet u32 ulrInitialAttachInd

/-- A text of the request, or what was there before. -/
def textOr (o : Option String) (old : Option Value) : Option Value :=
  (o.map fun s => Value.text s.toList) <|> old

/-- The MME of the request is in the row, and its id is that of a row of `mmeidentity`. -/
structure NamesMme (req : Ulr.Request) (db : Cql.Db) (row : Row) : Prop where
  mmehost : row (name "mmehost") = some (.text (req.origin_host.getD "").toList)
  mmerealm : row (name "mmerealm") = some (.text (req.origin_realm.getD "").toList)
  mmeidentity : ∃ id mme, row (name "mmeidentity_idmmeidentity") = some (.int id) ∧
    db (name "mmeidentity") [.int id] = some mme ∧
    mme (name "mmehost") = some (.text (req.origin_host.getD "").toList)

/-- The MME in the row is as before. -/
structure SameMme (row row' : Row) : Prop where
  mmehost : row' (name "mmehost") = row (name "mmehost")
  mmerealm : row' (name "mmerealm") = row (name "mmerealm")
  mmeidentity : row' (name "mmeidentity_idmmeidentity") = row (name "mmeidentity_idmmeidentity")

/-- **The row after a successful ULR.** -/
structure RowLocated (req : Ulr.Request) (db : Cql.Db) (row row' : Row) : Prop where
  ms_ps_status : row' (name "ms_ps_status") = some (.text "ATTACHED".toList)
  visited_plmnid : ∃ plmn, req.visited_plmn_id = some plmn ∧
    row' (name "visited_plmnid") = some (.text (plmnidToHexStr plmn).toList)
  imei : row' (name "imei") = textOr req.imei (row (name "imei"))
  imei_sv : row' (name "imei_sv") = textOr req.software_version (row (name "imei_sv"))
  attach : initialAttach req = true → NamesMme req db row'
  update : initialAttach req = false → SameMme row row'
  others : ∀ c, c ∉ locationColumns → c ≠ name "imsi" → row' c = row c

/-- The subscriber of a successful ULR is located, and nothing else has changed. -/
def SubscriberLocated (req : Ulr.Request) (db db' : Cql.Db) : Prop :=
  ∃ key row row', imsiKey? (req.user_name.getD "") = some key ∧
    db (name "users_imsi") key = some row ∧ db' (name "users_imsi") key = some row' ∧
    RowLocated req db row row' ∧
    ∀ t k, ¬ (t = name "users_imsi" ∧ k = key) → db' t k = db t k

/-- The tables after these statements; one that is not valid is rejected. -/
def runUpdates (db : Cql.Db) (texts : List String) : Cql.Db :=
  texts.foldl (fun db text => ((dbExecute db text).map Prod.fst).getD db) db

/-- The updates that the database has answered. -/
def updateTexts (c : Core kind) : List String :=
  (c.resolved.filter fun p => p.1.1 = .updateImsi).map fun p => p.1.2

/-- A ULR has been answered with success, or with an error. -/
def Succeeded (c : Core kind) : Prop :=
  ∃ a ∈ c.answers, Ula.result a = .resultCode erDiameterSuccess

def Failed (c : Core kind) : Prop :=
  ∃ a ∈ c.answers, Ula.result a ≠ .resultCode erDiameterSuccess

/-! ### When it is so -/

/-- The MME is found, under the id of a row of `mmeidentity` for its host. -/
def KnownMme (req : Ulr.Request) (mme : Option (Option (Option Int))) (db : Cql.Db) : Prop :=
  ∃ id row, mme = some (some (some id)) ∧ CType.int.fits (.int id) = true ∧
    db (name "mmeidentity") [.int id] = some row ∧
    row (name "mmehost") = some (.text (req.origin_host.getD "").toList)

/-- The update can be issued and is valid, and names a known MME. -/
structure Writable (req : Ulr.Request) (outcomes : Ulr.Outcomes) (db : Cql.Db) : Prop where
  plain : PlainRequest req
  software_version : req.software_version = none
  ulr_flags : req.ulr_flags.isSome = true
  issued : outcomes.fails .updateImsi = false
  mme : initialAttach req = true → KnownMme req outcomes.mme db

/-! ### The columns -/

section

variable {info : ImsiInfo} {imei attach : Bool} {id : Int}

/-- What is written without the software version. -/
def locatedSets (info : ImsiInfo) (imei attach : Bool) (id : Int) : List (Name × Value) :=
  (if imei then [(name "imei", .text info.imei.toList)] else [])
    ++ ((if attach then [(name "mmeidentity_idmmeidentity", .int id),
          (name "mmehost", .text info.mmehost.toList), (name "mmerealm", .text info.mmerealm.toList)]
        else [])
      ++ [(name "ms_ps_status", .text "ATTACHED".toList),
        (name "visited_plmnid", .text info.visited_plmnid.toList)])

theorem locationSets_eq {flags : BitVec 32} (himei : flagIsSet flags imeiPresent = imei)
    (hsv : flagIsSet flags svPresent = false) (hattach : flagIsSet flags mmeIdentityPresent = attach) :
    locationSets info flags id = locatedSets info imei attach id := by
  unfold locationSets
  rw [himei, hsv, hattach]
  rfl

theorem mem_locationColumns :
    ∀ c ∈ (locatedSets info imei attach id).map Prod.fst, c ∈ locationColumns := by
  have hcolumns : (locatedSets info imei attach id).map Prod.fst =
      (if imei then [name "imei"] else []) ++ ((if attach then
        [name "mmeidentity_idmmeidentity", name "mmehost", name "mmerealm"] else []) ++
          [name "ms_ps_status", name "visited_plmnid"]) := by
    cases imei <;> cases attach <;> rfl
  rw [hcolumns]
  cases imei <;> cases attach <;> decide

theorem lookup_other {c : Name} (hc : c ∉ locationColumns) :
    (locatedSets info imei attach id).lookup c = none := by
  rw [List.lookup_eq_none_iff]
  intro e he
  refine bne_iff_ne.mpr fun hce => hc ?_
  rw [hce]
  exact mem_locationColumns _ (List.mem_map_of_mem he)

/-- The update is valid then. -/
theorem locatedSets_admitted (hid : attach = true → CType.int.fits (.int id) = true) :
    (usersImsi.admits (locatedSets info imei attach id) &&
      (locatedSets info imei attach id).all fun e => !usersImsi.keys.contains e.1) = true := by
  have hnodup : decide ((locatedSets info imei attach id).map (·.1)).Nodup = true := by
    cases imei <;> cases attach <;> rfl
  have hkeys : ((locatedSets info imei attach id).all fun e => !usersImsi.keys.contains e.1) = true := by
    cases imei <;> cases attach <;> rfl
  have htypes : ∀ e ∈ locatedSets info imei attach id,
      ((usersImsi.columns.lookup e.1).any fun ty => ty.fits e.2) = true := by
    intro e he
    unfold locatedSets at he
    rcases List.mem_append.mp he with he | he
    · split at he
      · obtain rfl := List.mem_singleton.mp he
        rfl
      · exact absurd he List.not_mem_nil
    rcases List.mem_append.mp he with he | he
    · split at he
      case isTrue hattach =>
        simp only [List.mem_cons, List.not_mem_nil, or_false] at he
        rcases he with rfl | rfl | rfl
        · exact hid hattach
        · rfl
        · rfl
      case isFalse => exact absurd he List.not_mem_nil
    · simp only [List.mem_cons, List.not_mem_nil, or_false] at he
      rcases he with rfl | rfl <;> rfl
  rw [hkeys, Bool.and_true]
  exact Bool.and_eq_true_iff.mpr ⟨List.all_eq_true.mpr htypes, hnodup⟩

end

/-! ### The row -/

/-- What the request has put into the new information. -/
structure Names (req : Ulr.Request) (info : ImsiInfo) : Prop where
  visited_plmnid : ∃ plmn, req.visited_plmn_id = some plmn ∧
    info.visited_plmnid = plmnidToHexStr plmn
  imei : ∀ imei ∈ req.imei, info.imei = imei
  mmehost : info.mmehost = req.origin_host.getD ""
  mmerealm : info.mmerealm = req.origin_realm.getD ""

/-- The row that is written, column by column. -/
theorem rowLocated_of_sets {req : Ulr.Request} {db : Cql.Db} {row : Row} {info : ImsiInfo} {id : Int}
    {eqs : List (Name × Value)} (hinfo : Names req info) (hsv : req.software_version = none)
    (heqs : ∀ c, c ≠ name "imsi" → eqs.lookup c = none)
    (hmme : initialAttach req = true → ∃ mme, db (name "mmeidentity") [.int id] = some mme ∧
      mme (name "mmehost") = some (.text (req.origin_host.getD "").toList)) :
    RowLocated req db row fun c =>
      (locatedSets info req.imei.isSome (initialAttach req) id ++ eqs).lookup c <|> row c := by
  have hlookup : ∀ c, c ≠ name "imsi" →
      ((locatedSets info req.imei.isSome (initialAttach req) id ++ eqs).lookup c <|> row c) =
        ((locatedSets info req.imei.isSome (initialAttach req) id).lookup c <|> row c) := by
    intro c hc
    rw [List.lookup_append, heqs c hc, Option.or_none]
  constructor
  case ms_ps_status =>
    rw [hlookup _ (by decide)]
    cases req.imei.isSome <;> cases initialAttach req <;> rfl
  case visited_plmnid =>
    obtain ⟨plmn, hplmn, hvisited⟩ := hinfo.visited_plmnid
    refine ⟨plmn, hplmn, ?_⟩
    rw [hlookup _ (by decide), ← hvisited]
    cases req.imei.isSome <;> cases initialAttach req <;> rfl
  case imei =>
    rw [hlookup _ (by decide)]
    cases himei : req.imei with
    | none => cases initialAttach req <;> rfl
    | some imei =>
      rw [← hinfo.imei imei himei]
      rfl
  case imei_sv =>
    rw [hlookup _ (by decide), hsv]
    cases req.imei.isSome <;> cases initialAttach req <;> rfl
  case attach =>
    intro hattach
    obtain ⟨mme, hrow, hhost⟩ := hmme hattach
    rw [hattach] at hlookup ⊢
    constructor
    case mmehost =>
      rw [hlookup _ (by decide), ← hinfo.mmehost]
      cases req.imei.isSome <;> rfl
    case mmerealm =>
      rw [hlookup _ (by decide), ← hinfo.mmerealm]
      cases req.imei.isSome <;> rfl
    case mmeidentity =>
      refine ⟨id, mme, ?_, hrow, hhost⟩
      rw [hlookup _ (by decide)]
      cases req.imei.isSome <;> rfl
  case update =>
    intro hupdate
    rw [hupdate] at hlookup ⊢
    constructor
    all_goals
      rw [hlookup _ (by decide)]
      cases req.imei.isSome <;> rfl
  case others =>
    intro c hc himsi
    rw [hlookup c himsi, lookup_other hc]
    rfl

/-! ### The update -/

/-- The same valid statement, once or more. -/
theorem runUpdates_upsert {text : String} {key : List Value} {eqs : List (Name × Value)}
    (hrun : ∀ db, dbExecute db text = some (db.upsert (name "users_imsi") key eqs, none))
    {texts : List String} (htexts : ∀ t ∈ texts, t = text) (hne : texts ≠ []) (db : Cql.Db) :
    runUpdates db texts = db.upsert (name "users_imsi") key eqs := by
  induction texts generalizing db with
  | nil => exact absurd rfl hne
  | cons t texts ih =>
    obtain rfl := htexts t List.mem_cons_self
    have hfirst : runUpdates db (t :: texts) =
        runUpdates (db.upsert (name "users_imsi") key eqs) texts := by
      show runUpdates (((dbExecute db t).map Prod.fst).getD db) texts = _
      rw [hrun db]
      rfl
    rw [hfirst]
    by_cases hrest : texts = []
    · rw [hrest]
      rfl
    · rw [ih (fun t' ht' => htexts t' (List.mem_cons_of_mem _ ht')) hrest, Db.upsert_upsert]
      exact Db.upsert_congr (fun c => by rw [List.lookup_append, Option.or_self]) db _ key

/-- The information of an accepted ULR. -/
theorem names_of_accepts {json : String → Bool} {req : Ulr.Request} {orig new : Ulr.Numbers}
    {outcomes : Ulr.Outcomes} {d : Data}
    (hd : Scene.Accepts ⟨json, req, ulrStart orig new, outcomes⟩ d) : Names req d.new_info := by
  obtain ⟨plmn, hplmn, hinfo⟩ := (phase2Checks_accepted hd.checks).info
  rw [hinfo]
  have hgetD : ∀ o : Option String, o.getD (o.getD "") = o.getD "" := fun o => by cases o <;> rfl
  refine ⟨⟨plmn, hplmn, rfl⟩, fun imei himei => ?_, hgetD _, hgetD _⟩
  obtain himei : req.imei = some imei := himei
  rw [acceptedInfo, himei]
  rfl

/-- The flags of an accepted ULR. -/
theorem sets_of_accepts {json : String → Bool} {req : Ulr.Request} {orig new : Ulr.Numbers}
    {outcomes : Ulr.Outcomes} {d : Data}
    (hd : Scene.Accepts ⟨json, req, ulrStart orig new, outcomes⟩ d)
    (hsv : req.software_version = none) (hflags : req.ulr_flags.isSome = true) (id : Int) :
    locationSets d.new_info d.present_flags id =
      locatedSets d.new_info req.imei.isSome (initialAttach req) id := by
  obtain ⟨hattach, himei, hset⟩ := (phase2Checks_accepted hd.checks).flagIsSet rfl
  have hinitial : flagIsSet (ulrFlags req) ulrInitialAttachInd = initialAttach req := by
    obtain ⟨u32, hu32⟩ := Option.isSome_iff_exists.mp hflags
    rw [ulrFlags, initialAttach, hu32]
    rfl
  rw [hsv] at hset
  exact locationSets_eq himei hset (hattach.trans hinitial)

/-- The updates that have been answered are those of an accepted ULR. -/
theorem texts_of_facts {S : Scene} {c : Core kind} (h : Facts S False c) :
    ∀ t ∈ updateTexts c, ∃ d, S.Accepts d ∧ t = S.updateText d := by
  intro t ht
  obtain ⟨q, hq, rfl⟩ := List.mem_map.mp ht
  obtain ⟨hq, hqu⟩ := List.mem_filter.mp hq
  exact (h.resolved q hq (of_decide_eq_true hqu)).2

/-- **A ULR that can be written is located**, once it has been answered with success and has ended;
one that is answered with an error leaves the tables alone. -/
theorem located_of_run {json : String → Bool} {req : Ulr.Request} {orig new : Ulr.Numbers}
    {outcomes : Ulr.Outcomes} {db : Cql.Db} {s : State kind}
    (hreads : outcomes.imsi = (dbExecute db (getImsiInfoText (req.user_name.getD ""))).map
      fun r => r.2.map imsiInfoRow)
    (h : Run (code json req) (fun _ l => outcomes.Agrees l.1)
      (State.init phase1 (ulrStart orig new)) s) :
    (Failed s.core → runUpdates db (updateTexts s.core) = db) ∧
    (Succeeded s.core → s.worker = none → s.core.m_nextphase = phaseFinal →
      Writable req outcomes db →
        SubscriberLocated req db (runUpdates db (updateTexts s.core))) := by
  let S : Scene := ⟨json, req, ulrStart orig new, outcomes⟩
  have hs : False → S.Clean := False.elim
  obtain ⟨hfacts, hstand⟩ := ulr_watched (S := S) hs (fun _ _ _ hC => hC) h
  refine ⟨fun hfailed => ?_, fun hsucc hnone hfinal hw => ?_⟩
  · -- no update without success
    obtain ⟨a, ha, hne⟩ := hfailed
    have hnil : updateTexts s.core = [] := by
      refine List.map_eq_nil_iff.mpr (List.filter_eq_nil_iff.mpr fun p hp hu => hne ?_)
      have hresults := (hfacts.updates (Or.inr ⟨p, hp, of_decide_eq_true hu⟩)).1
      have hmem : Ula.result a ∈ (mineOf s.core).results := List.mem_map_of_mem ha
      rw [hresults] at hmem
      exact List.mem_singleton.mp hmem
    rw [hnil]
    rfl
  · -- the update has been answered
    obtain ⟨a, ha, hres⟩ := hsucc
    have hmem : DiamResult.resultCode erDiameterSuccess ∈ (mineOf s.core).results :=
      hres ▸ List.mem_map_of_mem ha
    have hissued : S.outcomes.issued = true ∧ (s.core.m_dbexecuted.getLsbD 6 = true ∨
        S.outcomes.fails .updateImsi = true) := by
      obtain ⟨m, hm⟩ : ∃ m, m = mineOf s.core := ⟨_, rfl⟩
      have hstand := hstand hnone
      rw [← hm] at hstand hmem
      have hphase : m.phase = phaseFinal := by
        rw [hm]
        exact hfinal
      cases hstand with
      | final _ _ r hr =>
        obtain rfl := List.mem_singleton.mp hmem
        exact hr rfl
      | _ => cases hphase
    obtain ⟨p, hp, hu⟩ : ∃ p ∈ s.core.resolved, p.1.1 = Ulr.Db.updateImsi := by
      rcases hissued.2 with hbit | hfails
      · exact (hfacts.updated hissued.1 hbit).resolve_right (hw.issued ▸ Bool.false_ne_true)
      · exact absurd (hw.issued.symm.trans hfails) Bool.false_ne_true
    obtain ⟨-, d, hd, htext⟩ := hfacts.resolved p hp hu
    have htexts : ∀ t ∈ updateTexts s.core, t = S.updateText d := by
      intro t ht
      obtain ⟨d', hd', htext'⟩ := texts_of_facts hfacts t ht
      obtain rfl := Except.ok.inj (hd.checks.symm.trans hd'.checks)
      exact htext'
    have hne : updateTexts s.core ≠ [] := by
      refine List.ne_nil_of_mem (List.mem_map_of_mem (List.mem_filter.mpr ⟨hp, ?_⟩))
      exact decide_eq_true hu
    -- the row that was found
    obtain ⟨row, hrow⟩ := Outcomes.row_of_found hd.found
    obtain ⟨db', row', hr⟩ := row_of_map (hreads.symm.trans hrow)
    obtain ⟨key, hkey, hmem⟩ := (selects_getImsiInfo _).found hr
    obtain ⟨old, hold⟩ := Option.isSome_iff_exists.mp hmem
    -- and the MME
    have hmme : initialAttach req = true → CType.int.fits (.int S.mme) = true ∧
        ∃ mme, db (name "mmeidentity") [.int S.mme] = some mme ∧
          mme (name "mmehost") = some (.text (req.origin_host.getD "").toList) := by
      intro hattach
      obtain ⟨id, mme, hid, hfits, hmmerow, hhost⟩ := hw.mme hattach
      have hS : S.mme = id := by
        have hmme : S.outcomes.mme = some (some (some id)) := hid
        rw [Scene.mme, hmme]
        rfl
      rw [hS]
      exact ⟨hfits, mme, hmmerow, hhost⟩
    have hinfo := names_of_accepts hd
    have hupdates := updates_updateLocation
      ((phase2Checks_accepted hd.checks).plain hw.plain (plain_start hw.plain new _))
      d.present_flags S.mme
    rw [sets_of_accepts hd hw.software_version hw.ulr_flags] at hupdates
    have hchecked := phase2Checks_checked json req S.data2
    rw [show phase2Checks json req S.data2 = .ok d from hd.checks] at hchecked
    have himsi : d.new_info.imsi = req.user_name.getD "" := hchecked.imsi
    rw [himsi] at hupdates
    obtain ⟨eqs, heqs, hrun⟩ := hupdates.run_key hkey (locatedSets_admitted fun ha => (hmme ha).1)
    rw [runUpdates_upsert hrun htexts hne]
    refine ⟨key, old, _, hkey, hold, Db.set_same _ _ _ _, ?_, fun t k htk => if_neg htk⟩
    have hlocated : RowLocated req db old _ :=
      rowLocated_of_sets hinfo hw.software_version heqs fun ha => (hmme ha).2
    rw [hold]
    exact hlocated

/-! ### A ULR with Software-Version -/

theorem runUpdates_rejected {texts : List String} (h : ∀ t ∈ texts, ∀ db, dbExecute db t = none)
    (db : Cql.Db) : runUpdates db texts = db := by
  induction texts with
  | nil => rfl
  | cons t texts ih =>
    show runUpdates (((dbExecute db t).map Prod.fst).getD db) texts = db
    rw [h t List.mem_cons_self db]
    exact ih fun t' ht' => h t' (List.mem_cons_of_mem _ ht')

/-- `imeisv` is not a column. -/
theorem not_admitted {info : ImsiInfo} {flags : BitVec 32} (id : Int)
    (hsv : flagIsSet flags svPresent = true) :
    usersImsi.admits (locationSets info flags id) = false := by
  have hmem : (name "imeisv", Value.text info.imei_sv.toList) ∈ locationSets info flags id := by
    unfold locationSets
    rw [hsv]
    exact List.mem_append_right _ (List.mem_append_left _ (List.mem_singleton.mpr rfl))
  refine Bool.eq_false_iff.mpr fun hadmits => ?_
  have hcolumn := List.all_eq_true.mp (Bool.and_eq_true_iff.mp hadmits).1 _ hmem
  exact absurd hcolumn (by rw [show usersImsi.columns.lookup (name "imeisv") = none from rfl]; nofun)

/-- **A ULR with Software-Version writes nothing**, whatever it is answered with. -/
theorem unwritten_of_software_version {json : String → Bool} {req : Ulr.Request}
    {orig new : Ulr.Numbers} {outcomes : Ulr.Outcomes} {s : State kind} (hreq : PlainRequest req)
    (hsv : req.software_version.isSome = true)
    (h : Run (code json req) (fun _ l => outcomes.Agrees l.1)
      (State.init phase1 (ulrStart orig new)) s) (db : Cql.Db) :
    runUpdates db (updateTexts s.core) = db := by
  let S : Scene := ⟨json, req, ulrStart orig new, outcomes⟩
  have hs : False → S.Clean := nofun
  obtain ⟨hfacts, -⟩ := ulr_watched (S := S) hs (fun _ _ _ hC => hC) h
  refine runUpdates_rejected (fun t ht db => ?_) db
  obtain ⟨d, hd, rfl⟩ := texts_of_facts hfacts t ht
  have haccepted := phase2Checks_accepted hd.checks
  have hset : flagIsSet d.present_flags svPresent = true :=
    (haccepted.flagIsSet rfl).2.2.trans hsv
  exact (updates_updateLocation (haccepted.plain hreq (plain_start hreq new _)) _ _).rejected
    (not_admitted _ hset) db

/-! ### A subscriber that moves -/

open Requests

def sampleNumbers : Ulr.Numbers := ⟨0, 0, 0⟩

def sampleKey : List Value := [.text "001010000000001".toList]

/-- A subscriber that is not attached, and an MME. -/
def sampleTables : Cql.Db := fun t k =>
  if t = name "users_imsi" ∧ k = sampleKey then
    some fun c => [(name "imsi", Value.text "001010000000001".toList),
      (name "subscription_data", .text []), (name "msisdn", .int 1),
      (name "access_restriction", .int 0)].lookup c
  else if t = name "mmeidentity" ∧ k = [.int 1] then
    some fun c => [(name "mmehost", Value.text "mme.a".toList)].lookup c
  else none

/-- A ULR that may have a Software-Version. -/
def moving (software_version : Option String) : Ulr.Request := { sampleUlr with software_version }

def movingEnd (software_version : Option String) : State kind :=
  greedy (code (fun _ => true) (moving software_version)) (sampleOutcomes (some (some 1))).env
    (fun _ => true) workFirst 150 (State.init phase1 (ulrStart sampleNumbers sampleNumbers))

theorem movingEnd_run (software_version : Option String) :
    Run (code (fun _ => true) (moving software_version))
      (fun _ l => (sampleOutcomes (some (some 1))).Agrees l.1)
      (State.init phase1 (ulrStart sampleNumbers sampleNumbers)) (movingEnd software_version) :=
  greedy_run (fun _ _ _ => Outcomes.env_agrees _) _ _ _

theorem sampleTables_reads (software_version : Option String) :
    (sampleOutcomes (some (some 1))).imsi =
      (dbExecute sampleTables (getImsiInfoText ((moving software_version).user_name.getD ""))).map
        fun r => r.2.map imsiInfoRow := by
  have himsi : (moving software_version).user_name.getD "" = "001010000000001" := rfl
  rw [himsi, (selects_getImsiInfo "001010000000001").run (by decide) (by decide) rfl sampleTables]
  rfl

theorem moving_plain {software_version : Option String}
    (h : ∀ s ∈ software_version, Plain s) : PlainRequest (moving software_version) := by
  refine ⟨nofun, h, fun s hs => ?_, fun s hs => ?_⟩
  · obtain rfl := Option.some.inj hs
    decide
  · obtain rfl := Option.some.inj hs
    decide

theorem succeeded_of_results {c : Core kind}
    (h : c.answers.map Ula.result = [.resultCode erDiameterSuccess]) : Succeeded c := by
  have hmem : DiamResult.resultCode erDiameterSuccess ∈ c.answers.map Ula.result := by
    rw [h]
    exact List.mem_singleton.mpr rfl
  obtain ⟨a, ha, hres⟩ := List.mem_map.mp hmem
  exact ⟨a, ha, hres⟩

/-- The ULR has been answered with success and has ended. -/
structure Done (s : State kind) : Prop where
  succeeded : Succeeded s.core
  worker : s.worker = none
  phase : s.core.m_nextphase = phaseFinal

theorem moving_done : Done (movingEnd none) ∧ Done (movingEnd (some "01")) :=
  ⟨⟨succeeded_of_results rfl, rfl, rfl⟩, ⟨succeeded_of_results rfl, rfl, rfl⟩⟩

theorem located_of_run_sample : SubscriberLocated (moving none) sampleTables
    (runUpdates sampleTables (updateTexts (movingEnd none).core)) := by
  obtain ⟨hdone, -⟩ := moving_done
  exact (located_of_run (sampleTables_reads none) (movingEnd_run none)).2
    hdone.succeeded hdone.worker hdone.phase
    ⟨moving_plain nofun, rfl, rfl, rfl, fun _ => ⟨1, _, rfl, rfl, rfl, rfl⟩⟩

/-- With a Software-Version the subscriber stays where it was. -/
theorem not_located_software_version : ¬ ∀ (json : String → Bool) (req : Ulr.Request)
    (orig new : Ulr.Numbers) (outcomes : Ulr.Outcomes) (db : Cql.Db) (s : State kind),
    outcomes.imsi = (dbExecute db (getImsiInfoText (req.user_name.getD ""))).map
      (fun r => r.2.map imsiInfoRow) →
    Run (code json req) (fun _ l => outcomes.Agrees l.1)
      (State.init phase1 (ulrStart orig new)) s →
    (Failed s.core → runUpdates db (updateTexts s.core) = db) ∧
      (Succeeded s.core → s.worker = none → s.core.m_nextphase = phaseFinal →
        SubscriberLocated req db (runUpdates db (updateTexts s.core))) := by
  intro h
  obtain ⟨-, hdone⟩ := moving_done
  obtain ⟨-, hlocated⟩ := h _ _ _ _ _ _ _ (sampleTables_reads (some "01")) (movingEnd_run (some "01"))
  obtain ⟨key, row, row', hkey, hrow, hrow', hlocated, -⟩ :=
    hlocated hdone.succeeded hdone.worker hdone.phase
  have hplain : PlainRequest (moving (some "01")) := moving_plain fun s hs => by
    obtain rfl := Option.some.inj hs
    decide
  rw [unwritten_of_software_version hplain rfl (movingEnd_run _), hrow] at hrow'
  obtain rfl := Option.some.inj hrow'
  have himsi : imsiKey? "001010000000001" = some sampleKey := imsiKey?_plain (by decide) (by decide)
  obtain rfl := Option.some.inj (himsi.symm.trans hkey)
  obtain rfl := Option.some.inj (hrow.symm.trans (if_pos ⟨rfl, rfl⟩))
  exact absurd hlocated.ms_ps_status nofun

end OpenairHss.Located
