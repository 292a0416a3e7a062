import OpenairHss.Lib.Steps
import OpenairHss.Pur.Request
import OpenairHss.Ulr.Accepted
import OpenairHss.Ulr.Watch

/-!
# Who purges a subscriber

ULRs and PURs in any order, with a log of what each of them did to the tables.  `PUURcmd::process`
writes before it compares: a PUR of another MME purges the subscriber, and is answered with an
error afterwards.

`log_sound`: as long as every PUR that is not rejected before it writes comes from the MME of the
subscriber, only that MME purges, and an error leaves the rows alone.
-/

namespace OpenairHss.Purged

open Cql DataAccess Diameter Processor Steps

/-! ### The log -/

/-- A message with the memory that its handler begins with. -/
inductive Message
  | ulr (json : String → Bool) (req : Ulr.Request) (orig new : Ulr.Numbers)
  | pur (mem : Pur.Memory) (pur : Pur.Request)

/-- The tables before and after a message, and the answer to a PUR. -/
structure Entry where
  before : Db
  message : Message
  after : Db
  answer : Option (List Pur.PuaAvp)

/-- The update that a ULR makes, whatever its queries come to. -/
def UlrUpdates (json : String → Bool) (req : Ulr.Request) (orig new : Ulr.Numbers) (text : String) :
    Prop :=
  ∃ outcomes s, Run (Ulr.code json req) (fun _ l => Ulr.Outcomes.Agrees outcomes l.1)
      (State.init Ulr.phase1 (Ulr.Data.init (Ulr.blankInfo orig) (Ulr.blankInfo new))) s ∧
    s.Performs (.register (.updateImsi, text))

/-- What a message can do. -/
inductive Happens : Entry → Prop
  | ulr {db : Db} {json : String → Bool} {req : Ulr.Request} {orig new : Ulr.Numbers}
      {text : String} {r : Db × Option Row} (h : UlrUpdates json req orig new text)
      (hr : dbExecute db text = some r) : Happens ⟨db, .ulr json req orig new, r.1, none⟩
  | pur {db : Db} {mem : Pur.Memory} {pur : Pur.Request} {r : Db × List Pur.PuaAvp}
      (h : Pur.puurProcess mem db pur = some r) : Happens ⟨db, .pur mem pur, r.1, some r.2⟩

/-- The tables, with what has happened to them. -/
structure Log where
  db : Db
  entries : List Entry

def step (l : Log) (e : Entry) (l' : Log) : Prop :=
  Happens e ∧ e.before = l.db ∧ l' = ⟨e.after, l.entries ++ [e]⟩

/-! ### What is to hold -/

/-- `ms_ps_status` of a subscriber. -/
def status (db : Db) (key : List Value) : Option Value :=
  (db (name "users_imsi") key).bind fun row => row (name "ms_ps_status")

def purged : Value := .text "PURGED".toList

/-- The subscriber is registered at this MME: the row has its host and realm. -/
def RegisteredAt (db : Db) (key : List Value) (host realm : String) : Prop :=
  ∃ row, db (name "users_imsi") key = some row ∧ textColumn row "mmehost" = host ∧
    textColumn row "mmerealm" = realm

/-- A subscriber is purged only by a PUR of the MME at which it is registered, and a PUR that is
answered with an error leaves the rows alone. -/
structure Entry.Sound (e : Entry) : Prop where
  purges : ∀ key, status e.before key ≠ some purged → status e.after key = some purged →
    ∃ mem pur, e.message = .pur mem pur ∧
      RegisteredAt e.before key (Pur.originHost pur) (Pur.originRealm pur)
  error : ∀ ans, e.answer = some ans → Pur.results ans ≠ [.resultCode erDiameterSuccess] →
    e.after (name "users_imsi") = e.before (name "users_imsi")

/-- The MME whose identity is in the row of a subscriber, and whose host and realm are, is the origin
of the PUR. -/
def FromMme (pur : Pur.Request) (row mme : Row) : Prop :=
  (textColumn mme "mmehost" = Pur.originHost pur ∧ textColumn mme "mmerealm" = Pur.originRealm pur) ∧
    textColumn row "mmehost" = Pur.originHost pur ∧ textColumn row "mmerealm" = Pur.originRealm pur

/-- What keeps a message from purging a subscriber of another MME: a PUR is rejected before it
writes, for its User-Name or its flags or because there is no such subscriber or no such MME, or it
comes from the MME of the subscriber. -/
def Keeps (db : Db) : Message → Prop
  | .ulr _ req _ _ => Ulr.PlainRequest req
  | .pur mem pur =>
    (pur.user_name.getD "").length > imsiLength ∨
      (pur.pur_flags.any fun u32 => Ulr.flagIsSet u32 Pur.purUePurgedInSgsn) = true ∨
      ∀ key row mme, imsiKey? (pur.user_name.getD "") = some key →
        db (name "users_imsi") key = some row →
        db (name "mmeidentity") [.int (intColumnOr mem.id row "mmeidentity_idmmeidentity")] =
          some mme → FromMme pur row mme

/-! ### A PUR -/

theorem sound_of_same {e : Entry} (h : e.after = e.before) : e.Sound where
  purges := fun key hne hp => absurd (h ▸ hp) hne
  error := fun _ _ _ => by rw [h]

theorem status_upsert_ne {db : Db} {key k : List Value} (h : k ≠ key) (eqs : List (Name × Value)) :
    status (db.upsert (name "users_imsi") key eqs) k = status db k := by
  rw [status, status, Db.upsert, Db.set_of_key_ne h]

theorem status_upsert {db : Db} {key : List Value} {eqs : List (Name × Value)} {v : Value}
    (h : eqs.lookup (name "ms_ps_status") = some v) :
    status (db.upsert (name "users_imsi") key eqs) key = some v := by
  rw [status, Db.upsert, Db.set_same, Option.bind_some]
  dsimp only
  rw [h]
  rfl

/-- A PUR that purges. -/
theorem sound_of_purge {db : Db} {mem : Pur.Memory} {pur : Pur.Request} {key : List Value}
    {row : Row} {eqs : List (Name × Value)} {ans : List Pur.PuaAvp}
    (hrow : db (name "users_imsi") key = some row)
    (hhost : textColumn row "mmehost" = Pur.originHost pur)
    (hrealm : textColumn row "mmerealm" = Pur.originRealm pur)
    (hans : Pur.results ans = [.resultCode erDiameterSuccess]) :
    Entry.Sound ⟨db, .pur mem pur, db.upsert (name "users_imsi") key eqs, some ans⟩ where
  purges := by
    intro k hne hp
    by_cases hk : k = key
    · subst hk
      exact ⟨mem, pur, rfl, row, hrow, hhost, hrealm⟩
    · rw [status_upsert_ne hk] at hp
      exact absurd hp hne
  error := by
    intro ans' hans' hne
    obtain rfl := Option.some.inj hans'
    exact absurd hans hne

theorem pur_sound {db : Db} {mem : Pur.Memory} {pur : Pur.Request} {r : Db × List Pur.PuaAvp}
    (h : Pur.puurProcess mem db pur = some r) (hk : Keeps db (.pur mem pur)) :
    Entry.Sound ⟨db, .pur mem pur, r.1, some r.2⟩ := by
  obtain ⟨o, ho, rfl⟩ := Option.map_eq_some_iff.mp h
  unfold Pur.puurLoop at ho
  dsimp only at ho
  split at ho
  · obtain rfl := Option.some.inj ho
    exact sound_of_same rfl
  case isFalse hlong =>
  split at ho
  · obtain rfl := Option.some.inj ho
    exact sound_of_same rfl
  case isFalse hflag =>
  have hmme := (hk.resolve_left hlong).resolve_left hflag
  obtain ⟨found, hfound, ho⟩ := Option.bind_eq_some_iff.mp ho
  cases found with
  | none =>
    obtain rfl := Option.some.inj ho
    exact sound_of_same rfl
  | some mme_id =>
    obtain ⟨key, row, mme, hkey, hrow, hdb, hhost, hrealm⟩ := getMmeIdentityFromImsi_some hfound
    obtain ⟨⟨h1, h2⟩, h3, h4⟩ := hmme key row mme hkey hrow hdb
    obtain ⟨⟨db', ok⟩, hpurge, ho⟩ := Option.bind_eq_some_iff.mp ho
    unfold purgeUE at hpurge
    split at hpurge
    · obtain ⟨rfl, rfl⟩ := Prod.mk.inj (Option.some.inj hpurge)
      obtain rfl := Option.some.inj ho
      exact sound_of_same rfl
    · obtain ⟨r, hr, hpurge⟩ := Option.map_eq_some_iff.mp hpurge
      obtain ⟨rfl, rfl⟩ := Prod.mk.inj hpurge
      obtain rfl := Option.some.inj ho
      obtain ⟨key', eqs, hkey', -, -, hupsert⟩ := (updates_purgeUE _).upsert_eq hr
      obtain rfl := Option.some.inj (hkey.symm.trans hkey')
      have hcompare : Pur.compareMme pur mme_id r.1 = ⟨r.1, erDiameterSuccess, false, true⟩ := by
        rw [Pur.compareMme, if_neg]
        rw [hhost, hrealm, h1, h2]
        exact fun hor => hor.elim (absurd rfl) (absurd rfl)
      rw [hcompare, hupsert]
      exact sound_of_purge hrow h3 h4 rfl

/-! ### A ULR -/

theorem lookup_locationSets (location : Ulr.ImsiInfo) (flags : BitVec 32) (id : Int)
    (eqs : List (Name × Value)) :
    (locationSets location flags id ++ eqs).lookup (name "ms_ps_status") =
      some (.text "ATTACHED".toList) := by
  unfold locationSets
  split_ifs <;> rfl

/-- A ULR purges nobody. -/
theorem ulr_sound {db : Db} {json : String → Bool} {req : Ulr.Request} {orig new : Ulr.Numbers}
    {text : String} {r : Db × Option Row} (h : UlrUpdates json req orig new text)
    (hr : dbExecute db text = some r) (hreq : Ulr.PlainRequest req) :
    Entry.Sound ⟨db, .ulr json req orig new, r.1, none⟩ where
  purges := by
    obtain ⟨outcomes, s, hrun, ht⟩ := h
    let S : Ulr.Scene :=
      ⟨json, req, Ulr.Data.init (Ulr.blankInfo orig) (Ulr.blankInfo new), outcomes⟩
    obtain ⟨d, hd, rfl⟩ := Ulr.ulr_updates (S := S) (fun _ _ _ hC => hC) hrun ht
    have hplain := (Ulr.phase2Checks_accepted hd.checks).plain hreq (Ulr.plain_start hreq new _)
    obtain ⟨key, eqs, -, -, -, hupsert⟩ := (updates_updateLocation hplain _ _).upsert_eq hr
    intro k hne hp
    have hp : status r.1 k = some purged := hp
    rw [hupsert] at hp
    by_cases hk : k = key
    · subst hk
      rw [status_upsert (lookup_locationSets _ _ _ eqs)] at hp
      exact absurd (Option.some.inj hp) (by decide)
    · rw [status_upsert_ne hk] at hp
      exact absurd hp hne
  error := fun _ h => absurd h nofun

/-! ### Runs -/

theorem happens_sound {e : Entry} (h : Happens e) (hk : Keeps e.before e.message) : e.Sound := by
  cases h with
  | ulr h hr => exact ulr_sound h hr hk
  | pur h => exact pur_sound h hk

/-- **In every run** whose PURs come from the MMEs of their subscribers, unless they are rejected
before they write, every entry of the log is as it should be. -/
theorem log_sound {db : Db} {l : Log}
    (h : Reaches step (fun l e => Keeps l.db e.message) ⟨db, []⟩ l) : ∀ e ∈ l.entries, e.Sound := by
  refine h.invariant (I := fun l => ∀ e ∈ l.entries, Entry.Sound e)
    (fun _ he => absurd he List.not_mem_nil) ?_
  rintro l e l' hl hk ⟨he, hbefore, rfl⟩ e' he'
  rcases List.mem_append.mp he' with he' | he'
  · exact hl e' he'
  · obtain rfl := List.mem_singleton.mp he'
    refine happens_sound he ?_
    rw [hbefore]
    exact hk

/-! ### A subscriber of one MME -/

/-- The row of an MME. -/
def mmeRow : Row := fun c =>
  if c = name "mmehost" then some (.text "a".toList)
  else if c = name "mmerealm" then some (.text "r".toList)
  else none

/-- The row of a subscriber that is registered at it. -/
def subscriberRow : Row := fun c =>
  if c = name "mmeidentity_idmmeidentity" then some (.int 3) else mmeRow c

def attached : Db :=
  (noRows.set (name "users_imsi") [.text "12".toList] (some subscriberRow)).set
    (name "mmeidentity") [.int 3] (some mmeRow)

/-- A PUR for the subscriber. -/
def purFrom (host : String) : Pur.Request where
  auth_session_state := some 1
  user_name := some "12"
  pur_flags := none
  origin_host := some host
  origin_realm := some "r"

theorem attached_row : attached (name "users_imsi") [.text "12".toList] = some subscriberRow := by
  rw [attached, Db.set_of_table_ne (by decide), Db.set_same]

theorem identity_attached :
    getMmeIdentityFromImsi attached "12" 0 = some (some ⟨"a", "r", ""⟩) := by
  have hselect := (selects_getMmeIdentityFromImsi "12").run (by decide) (by decide) rfl attached
  rw [attached_row] at hselect
  have hmme : dbExecute attached (getMmeIdentityText 3) =
      some (attached, some (selected [name "mmehost", name "mmerealm", name "mmeisdn"] mmeRow)) := by
    rw [dbExecute_getMmeIdentityText]
    rfl
  have hidentity : getMmeIdentity attached 3 = some (some ⟨"a", "r", ""⟩) := by
    rw [getMmeIdentity, hmme]
    rfl
  rw [getMmeIdentityFromImsi, hselect]
  exact hidentity

/-- The tables after it is purged. -/
def purgedDb : Db :=
  attached.upsert (name "users_imsi") [.text "12".toList]
    ([(name "ms_ps_status", purged)] ++ [(name "imsi", .text "12".toList)])

theorem purge_attached : purgeUE attached "12" = some (purgedDb, true) := by
  have hupdate := (updates_purgeUE "12").run (by decide) (by decide) rfl attached
  rw [purgeUE, if_neg (by decide), hupdate]
  rfl

/-- It is purged, whatever MME the PUR comes from. -/
theorem process_purFrom (host : String) :
    Pur.puurProcess ⟨0, 0⟩ attached (purFrom host) = some (purgedDb, Pur.pua ⟨0, 0⟩ (purFrom host)
      (Pur.compareMme (purFrom host) ⟨"a", "r", ""⟩ purgedDb)) := by
  have hloop : Pur.puurLoop ⟨0, 0⟩ attached (purFrom host) =
      some (Pur.compareMme (purFrom host) ⟨"a", "r", ""⟩ purgedDb) := by
    have himsi : (purFrom host).user_name.getD "" = "12" := rfl
    have hflag : ((purFrom host).pur_flags.any fun u32 =>
        Ulr.flagIsSet u32 Pur.purUePurgedInSgsn) = false := rfl
    unfold Pur.puurLoop
    dsimp only
    rw [himsi, if_neg (by decide), hflag, if_neg Bool.false_ne_true, identity_attached]
    dsimp only [bind, Option.bind_some]
    rw [purge_attached]
    rfl
  have hdb : (Pur.compareMme (purFrom host) ⟨"a", "r", ""⟩ purgedDb).db = purgedDb := by
    unfold Pur.compareMme
    split <;> rfl
  rw [Pur.puurProcess, hloop, Option.map_some, hdb]

/-- The MME of the subscriber purges it. -/
theorem log_sound_purFrom :
    Entry.Sound ⟨attached, .pur ⟨0, 0⟩ (purFrom "a"), purgedDb,
      some (Pur.pua ⟨0, 0⟩ (purFrom "a")
        (Pur.compareMme (purFrom "a") ⟨"a", "r", ""⟩ purgedDb))⟩ := by
  refine log_sound (l := ⟨purgedDb, _⟩) ((Reaches.refl _).tail ?_
    ⟨.pur (process_purFrom "a"), rfl, rfl⟩) _ (List.mem_singleton.mpr rfl)
  refine Or.inr (Or.inr ?_)
  rintro key row mme hkey hrow hmme
  have himsi : imsiKey? "12" = some [.text "12".toList] := imsiKey?_plain (by decide) (by decide)
  obtain rfl := Option.some.inj (himsi.symm.trans hkey)
  obtain rfl : subscriberRow = row := Option.some.inj (attached_row.symm.trans hrow)
  obtain rfl : mmeRow = mme := Option.some.inj hmme
  exact ⟨⟨rfl, rfl⟩, rfl, rfl⟩

/-- Another MME purges it as well, and is answered with an error. -/
theorem not_log_sound :
    ¬ ∀ (db : Db) (l : Log), Reaches step (fun _ _ => True) ⟨db, []⟩ l → ∀ e ∈ l.entries, e.Sound := by
  intro h
  have hsound := h attached ⟨purgedDb, _⟩ ((Reaches.refl _).tail trivial
    ⟨.pur (process_purFrom "b"), rfl, rfl⟩) _ (List.mem_singleton.mpr rfl)
  have hsame : purgedDb (name "users_imsi") = attached (name "users_imsi") :=
    hsound.error _ rfl (by decide)
  have hstatus : status purgedDb [.text "12".toList] = some purged := status_upsert rfl
  rw [status, hsame] at hstatus
  exact absurd hstatus (by decide)

end OpenairHss.Purged
