import OpenairHss.DataAccess.Events
import OpenairHss.DataAccess.ImsiSec
import OpenairHss.DataAccess.Users
import OpenairHss.Lib.Quoted

/-!
# The statements with texts of requests

Every statement that `DataAccess` builds with a text in it, beside the statement that is meant.

All but two are read as meant exactly if their texts have no quote and no NUL.  The statement of
`deleteEvent` about `events_extid` and that of `getEvents` are never read as meant: the external
identifier stands without quotes, and a list is compared with `=`.
-/

namespace OpenairHss.DataAccess

open Cql ByteVec

/-! ### Texts -/

def checkExtIdExistsText (extid : String) : String :=
  "SELECT extid FROM extid WHERE extid = '" ++ extid ++ "';"

def getImsiListFromExtIdText (extid : String) : String :=
  "SELECT imsi FROM extid_imsi WHERE extid ='" ++ extid ++ "'"

def getMsisdnFromImsiText (imsi : String) : String :=
  "SELECT msisdn FROM users_imsi where imsi = '" ++ imsi ++ "' ;"

def getEventIdsFromExtIdText (extid : String) : String :=
  "SELECT scef_id, scef_ref_id FROM events_extid WHERE extid = '" ++ extid ++ "'"

def getSubDataFromImsiText (imsi : String) : String :=
  "SELECT subscription_data FROM users_imsi where imsi = '" ++ imsi ++ "' ;"

def UpdateValidityTimeText (imsi validity_time : String) : String :=
  "UPDATE users_imsi SET niddvalidity = '" ++ validity_time ++ "' WHERE imsi= '" ++ imsi ++ "' ;"

def UpdateNIRDestinationText (imsi host realm : String) : String :=
  "UPDATE users_imsi SET nir_dest_host = '" ++ host ++ "' , nir_dest_realm = '" ++ realm
    ++ "' WHERE imsi='" ++ imsi ++ "' ;"

/-! ### Statements -/

/-- A statement of one of the functions of `DataAccess`, with its arguments. -/
inductive Statement
  | addEvent (e : DAEvent)
  | addEventMsisdn (e : DAEvent)
  | addEventExtid (e : DAEvent)
  | getEvent (scef_id : String) (scef_ref_id : Nat)
  | getEvents (scef_id : String) (scef_ref_ids : List Nat)
  | deleteEvent (scef_id : String) (scef_ref_id : Nat)
  | deleteEventMsisdn (msisdn : Int) (scef_id : String) (scef_ref_id : Nat)
  | deleteEventExtid (extid scef_id : String) (scef_ref_id : Nat)
  | checkExtIdExists (extid : String)
  | getImsiListFromExtId (extid : String)
  | getExtIdsFromImsi (imsi : String)
  | getMsisdnFromImsi (imsi : String)
  | getImsiInfo (imsi : String)
  | getEventIdsFromExtId (extid : String)
  | getEventIdsFromExtIds (extids : List String)
  | purgeUE (imsi : String)
  | getMmeIdentityFromImsi (imsi : String)
  | getMmeIdFromHost (host : String)
  | updateLocation (location : Ulr.ImsiInfo) (present_flags : BitVec 32) (idmmeidentity : Int)
  | getImsiSec (imsi : String)
  | updateRandSqn (imsi : String) (rand : Bytes 16) (sqn : Bytes 6) (inc_sqn : Bool)
  | getSubDataFromImsi (imsi : String)
  | UpdateValidityTime (imsi validity_time : String)
  | UpdateNIRDestination (imsi host realm : String)

namespace Statement

/-- The text that is built. -/
def text : Statement → String
  | addEvent e => insertEventText e
  | addEventMsisdn e => insertMsisdnText e
  | addEventExtid e => insertExtidText e
  | getEvent scef_id ref => getEventText scef_id ref
  | getEvents scef_id refs => Ulr.getEventsText scef_id refs
  | deleteEvent scef_id ref => deleteEventText scef_id ref
  | deleteEventMsisdn msisdn scef_id ref => deleteMsisdnText msisdn scef_id ref
  | deleteEventExtid extid scef_id ref => deleteExtidText extid scef_id ref
  | checkExtIdExists extid => checkExtIdExistsText extid
  | getImsiListFromExtId extid => getImsiListFromExtIdText extid
  | getExtIdsFromImsi imsi => Ulr.getExtIdsFromImsiText imsi
  | getMsisdnFromImsi imsi => getMsisdnFromImsiText imsi
  | getImsiInfo imsi => Ulr.getImsiInfoText imsi
  | getEventIdsFromExtId extid => getEventIdsFromExtIdText extid
  | getEventIdsFromExtIds extids =>
    Ulr.getEventIdsFromExtIdsText (",".intercalate (extids.map fun extid => "'" ++ extid ++ "'"))
  | purgeUE imsi => purgeUEText imsi
  | getMmeIdentityFromImsi imsi => getMmeIdentityFromImsiText imsi
  | getMmeIdFromHost host => Ulr.getMmeIdFromHostText host
  | updateLocation location flags id => Ulr.updateLocationText location flags id
  | getImsiSec imsi => getImsiSecText imsi
  | updateRandSqn imsi rand sqn inc_sqn => updateRandSqnText imsi rand sqn inc_sqn
  | getSubDataFromImsi imsi => getSubDataFromImsiText imsi
  | UpdateValidityTime imsi validity_time => UpdateValidityTimeText imsi validity_time
  | UpdateNIRDestination imsi host realm => UpdateNIRDestinationText imsi host realm

/-- Texts in quotes with commas between them, after the first quote. -/
def listed : String → List String → List Part
  | s, [] => [.str s, .lit "')"]
  | s, t :: ts => .str s :: .lit "','" :: listed t ts

/-- Numbers with commas between them. -/
def numbered : List Nat → List Part
  | [] => [.lit ")"]
  | [n] => [.nat n, .lit ")"]
  | n :: ns => .nat n :: .lit "," :: numbered ns

/-- The columns that `updateLocation` writes under a flag. -/
def flagged (flags : BitVec 32) (flag : BitVec 32) (parts : List Part) : List Part :=
  if Ulr.flagIsSet flags flag then parts else []

/-- The parts of `updateLocation`. -/
def updateLocationParts (location : Ulr.ImsiInfo) (flags : BitVec 32) (id : Int) : List Part :=
  .lit "UPDATE vhss.users_imsi SET "
    :: (flagged flags Ulr.imeiPresent [.lit "imei='", .str location.imei, .lit "',"]
      ++ flagged flags Ulr.svPresent [.lit "imeisv='", .str location.imei_sv, .lit "',"]
      ++ flagged flags Ulr.mmeIdentityPresent
          [.lit "mmeidentity_idmmeidentity=", .int id, .lit ",mmehost='", .str location.mmehost,
            .lit "',mmerealm='", .str location.mmerealm, .lit "',"]
      ++ [.lit "ms_ps_status='ATTACHED',visited_plmnid='", .str location.visited_plmnid,
        .lit "' WHERE imsi='", .str location.imsi, .lit "';"])

def meant : Statement → List Part
  | addEvent e =>
    [.lit "INSERT INTO events (scef_id, scef_ref_id, msisdn, extid, monitoring_event_configuration, user_identifier, monitoring_type) VALUES ('",
      .str e.scef_id, .lit "',", .nat e.scef_ref_id, .lit ",", .int e.msisdn, .lit ",'",
      .str e.extid, .lit "','", .str e.mec_json, .lit "','", .str e.ui_json, .lit "',",
      .int e.monitoring_type, .lit ")"]
  | addEventMsisdn e =>
    [.lit "INSERT INTO events_msisdn (msisdn, scef_id, scef_ref_id) VALUES (", .int e.msisdn,
      .lit ",'", .str e.scef_id, .lit "',", .nat e.scef_ref_id, .lit ")"]
  | addEventExtid e =>
    [.lit "INSERT INTO events_extid (extid, scef_id, scef_ref_id) VALUES ('", .str e.extid,
      .lit "','", .str e.scef_id, .lit "',", .nat e.scef_ref_id, .lit ")"]
  | getEvent scef_id ref =>
    [.lit "SELECT * FROM events WHERE scef_id = '", .str scef_id, .lit "' AND scef_ref_id = ",
      .nat ref]
  | getEvents scef_id refs =>
    .lit "SELECT * FROM events WHERE scef_id = '" :: .str scef_id ::
      .lit "' AND scef_ref_id IN (" :: numbered refs
  | deleteEvent scef_id ref =>
    [.lit "DELETE FROM events WHERE scef_id = '", .str scef_id, .lit "' AND scef_ref_id = ",
      .nat ref]
  | deleteEventMsisdn msisdn scef_id ref =>
    [.lit "DELETE FROM events_msisdn WHERE msisdn=", .int msisdn, .lit " AND scef_id='",
      .str scef_id, .lit "' AND scef_ref_id=", .nat ref]
  | deleteEventExtid extid scef_id ref =>
    [.lit "DELETE FROM events_extid WHERE extid='", .str extid, .lit "' AND scef_id='",
      .str scef_id, .lit "' AND scef_ref_id=", .nat ref]
  | checkExtIdExists extid => [.lit "SELECT extid FROM extid WHERE extid = '", .str extid, .lit "';"]
  | getImsiListFromExtId extid =>
    [.lit "SELECT imsi FROM extid_imsi WHERE extid ='", .str extid, .lit "'"]
  | getExtIdsFromImsi imsi =>
    [.lit "SELECT extid FROM extid_imsi_xref WHERE imsi = '", .str imsi, .lit "'"]
  | getMsisdnFromImsi imsi =>
    [.lit "SELECT msisdn FROM users_imsi where imsi = '", .str imsi, .lit "' ;"]
  | getImsiInfo imsi =>
    [.lit "SELECT imsi, mmehost, mmerealm, ms_ps_status, subscription_data, msisdn, visited_plmnid, access_restriction, mmeidentity_idmmeidentity FROM users_imsi where imsi = '",
      .str imsi, .lit "' ;"]
  | getEventIdsFromExtId extid =>
    [.lit "SELECT scef_id, scef_ref_id FROM events_extid WHERE extid = '", .str extid, .lit "'"]
  | getEventIdsFromExtIds [] =>
    [.lit "SELECT scef_id, scef_ref_id FROM events_extid WHERE extid in ()"]
  | getEventIdsFromExtIds (extid :: extids) =>
    .lit "SELECT scef_id, scef_ref_id FROM events_extid WHERE extid in ('" :: listed extid extids
  | purgeUE imsi =>
    [.lit "UPDATE vhss.users_imsi SET ms_ps_status='PURGED' WHERE imsi='", .str imsi, .lit "';"]
  | getMmeIdentityFromImsi imsi =>
    [.lit "SELECT mmeidentity_idmmeidentity FROM vhss.users_imsi WHERE imsi = '", .str imsi,
      .lit "';"]
  | getMmeIdFromHost host =>
    [.lit "SELECT idmmeidentity FROM vhss.mmeidentity_host WHERE mmehost='", .str host, .lit "';"]
  | updateLocation location flags id => updateLocationParts location flags id
  | getImsiSec imsi =>
    [.lit "SELECT key,sqn,rand,OPc FROM vhss.users_imsi WHERE imsi='", .str imsi, .lit "';"]
  | updateRandSqn imsi rand sqn inc_sqn =>
    [.lit "UPDATE vhss.users_imsi SET rand='", .str (bytes2hex rand), .lit "', sqn=",
      .nat (sqnText sqn inc_sqn), .lit " WHERE imsi='", .str imsi, .lit "';"]
  | getSubDataFromImsi imsi =>
    [.lit "SELECT subscription_data FROM users_imsi where imsi = '", .str imsi, .lit "' ;"]
  | UpdateValidityTime imsi validity_time =>
    [.lit "UPDATE users_imsi SET niddvalidity = '", .str validity_time, .lit "' WHERE imsi= '",
      .str imsi, .lit "' ;"]
  | UpdateNIRDestination imsi host realm =>
    [.lit "UPDATE users_imsi SET nir_dest_host = '", .str host, .lit "' , nir_dest_realm = '",
      .str realm, .lit "' WHERE imsi='", .str imsi, .lit "' ;"]

/-- The statement is read as the one that is meant. -/
def Reads (st : Statement) : Prop := tokens st.text = lexParts st.meant

/-- What makes a statement be read as it is meant. -/
def Safe : Statement → Prop
  | getEvents _ _ => False
  | deleteEventExtid _ _ _ => False
  | st => ∀ s, .str s ∈ st.meant → Plain s

/-! ### Templates -/

/-- A statement whose text is that of a template. -/
theorem reads_iff_plain (st : Statement) {ts : List Tok} (t : Template .between st.meant ts)
    (htext : st.text = render st.meant) : st.Reads ↔ ∀ s, .str s ∈ st.meant → Plain s := by
  rw [Reads, htext, t.lexParts_eq]
  exact t.tokens_iff

theorem render_listed (t : String) (ts : List String) :
    "'" ++ render (listed t ts) =
      ",".intercalate ((t :: ts).map fun extid => "'" ++ extid ++ "'") ++ ")" := by
  have hquotes : "','" = "'" ++ ("," ++ "'") := rfl
  have hlast : "')" = "'" ++ ")" := rfl
  induction ts generalizing t with
  | nil =>
    have hrender : render (listed t []) = t ++ "')" := rfl
    rw [hrender, List.map_singleton, String.intercalate_singleton, hlast]
    simp only [String.append_assoc]
  | cons u ts ih =>
    have hrender : render (listed t (u :: ts)) = t ++ ("','" ++ render (listed u ts)) := by
      rw [listed, render_cons, render_cons]
      rfl
    rw [hrender, List.map_cons, List.map_cons, String.intercalate_cons_cons, String.append_assoc,
      hquotes]
    have hrest := ih u
    rw [List.map_cons] at hrest
    rw [← hrest]
    simp only [String.append_assoc]

theorem template_listed (acc : List Char) (t : String) (ts : List String) :
    ∃ toks, Template (.str acc) (listed t ts) toks := by
  induction ts generalizing acc t with
  | nil => exact ⟨_, .str rfl rfl rfl (.nil rfl)⟩
  | cons u ts ih =>
    obtain ⟨toks, htoks⟩ := ih [] u
    exact ⟨_, .str rfl rfl rfl htoks⟩

theorem reads_getEventIdsFromExtIds (extids : List String) :
    (getEventIdsFromExtIds extids).Reads ↔
      ∀ s, .str s ∈ (getEventIdsFromExtIds extids).meant → Plain s := by
  cases extids with
  | nil => exact reads_iff_plain (getEventIdsFromExtIds []) (.lit rfl rfl (.nil rfl)) rfl
  | cons t ts =>
    obtain ⟨toks, htoks⟩ := template_listed [] t ts
    refine reads_iff_plain (getEventIdsFromExtIds (t :: ts)) (.lit rfl rfl htoks) ?_
    have hlit : Ulr.getEventIdsFromExtIdsText
        (",".intercalate ((t :: ts).map fun extid => "'" ++ extid ++ "'")) =
          "SELECT scef_id, scef_ref_id FROM events_extid WHERE extid in (" ++
            (",".intercalate ((t :: ts).map fun extid => "'" ++ extid ++ "'") ++ ")") :=
      String.append_assoc
    refine hlit.trans ?_
    rw [← render_listed, meant, render_cons, ← String.append_assoc]
    rfl

theorem render_flagged (flags flag : BitVec 32) (ps : List Part) :
    render (flagged flags flag ps) = if Ulr.flagIsSet flags flag then render ps else "" := by
  unfold flagged
  split
  · rfl
  · rfl

/-- The text of `updateLocation`, whatever its literals and values are. -/
theorem render_flagged_parts (flags f₁ f₂ f₃ : BitVec 32) (id : Int)
    (s a₁ b₁ c₁ a₂ b₂ c₂ a₃ b₃ c₃ d₃ e₃ g₃ a b c d e : String) :
    render (.lit s :: (flagged flags f₁ [.lit a₁, .str b₁, .lit c₁]
        ++ flagged flags f₂ [.lit a₂, .str b₂, .lit c₂]
        ++ flagged flags f₃ [.lit a₃, .int id, .lit b₃, .str c₃, .lit d₃, .str e₃, .lit g₃]
        ++ [.lit a, .str b, .lit c, .str d, .lit e])) =
      s ++ (if Ulr.flagIsSet flags f₁ then a₁ ++ b₁ ++ c₁ else "")
        ++ (if Ulr.flagIsSet flags f₂ then a₂ ++ b₂ ++ c₂ else "")
        ++ (if Ulr.flagIsSet flags f₃ then a₃ ++ toString id ++ b₃ ++ c₃ ++ d₃ ++ e₃ ++ g₃ else "")
        ++ a ++ b ++ c ++ d ++ e := by
  have hlast : render [.lit a, .str b, .lit c, .str d, .lit e] = a ++ b ++ c ++ d ++ e := rfl
  rw [render_cons, render_append, render_append, render_append, render_flagged, render_flagged,
    render_flagged, hlast]
  simp only [String.append_assoc, Part.text, render, List.foldl_cons, List.foldl_nil]

theorem render_updateLocation (location : Ulr.ImsiInfo) (flags : BitVec 32) (id : Int) :
    Ulr.updateLocationText location flags id = render (updateLocationParts location flags id) := by
  unfold updateLocationParts Ulr.updateLocationText
  exact (render_flagged_parts flags _ _ _ id _ _ _ _ _ _ _ _ _ _ _ _ _ _ _ _ _ _).symm

/-- Columns under a flag, in front of a template. -/
theorem template_flagged {flags flag : BitVec 32} {ps qs : List Part}
    (hqs : ∃ ts, Template .between qs ts) (hps : ∃ ts, Template .between (ps ++ qs) ts) :
    ∃ ts, Template .between (flagged flags flag ps ++ qs) ts := by
  unfold flagged
  split
  · exact hps
  · exact hqs

theorem template_updateLocation (location : Ulr.ImsiInfo) (flags : BitVec 32) (id : Int) :
    ∃ ts, Template .between (updateLocationParts location flags id) ts := by
  let last : List Part := [.lit "ms_ps_status='ATTACHED',visited_plmnid='",
    .str location.visited_plmnid, .lit "' WHERE imsi='", .str location.imsi, .lit "';"]
  obtain ⟨ts₁, hlast⟩ : ∃ ts, Template .between last ts :=
    ⟨_, .lit rfl rfl (.str rfl rfl rfl (.str rfl rfl rfl (.nil rfl)))⟩
  obtain ⟨ts₂, hmme⟩ : ∃ ts, Template .between (flagged flags Ulr.mmeIdentityPresent
      [.lit "mmeidentity_idmmeidentity=", .int id, .lit ",mmehost='", .str location.mmehost,
        .lit "',mmerealm='", .str location.mmerealm, .lit "',"] ++ last) ts :=
    template_flagged ⟨ts₁, hlast⟩
      ⟨_, .lit rfl rfl (.int (.lit rfl rfl (.str rfl rfl rfl (.str rfl rfl rfl hlast))))⟩
  obtain ⟨ts₃, hsv⟩ : ∃ ts, Template .between (flagged flags Ulr.svPresent
      [.lit "imeisv='", .str location.imei_sv, .lit "',"] ++ (_ ++ last)) ts :=
    template_flagged ⟨ts₂, hmme⟩ ⟨_, .lit rfl rfl (.str rfl rfl rfl hmme)⟩
  obtain ⟨ts₄, himei⟩ : ∃ ts, Template .between (flagged flags Ulr.imeiPresent
      [.lit "imei='", .str location.imei, .lit "',"] ++ (_ ++ (_ ++ last))) ts :=
    template_flagged ⟨ts₃, hsv⟩ ⟨_, .lit rfl rfl (.str rfl rfl rfl hsv)⟩
  refine ⟨[kw "update", kw "vhss", .sym '.', kw "users_imsi", kw "set"] ++ ts₄, ?_⟩
  rw [updateLocationParts, List.append_assoc, List.append_assoc]
  exact .lit rfl rfl himei

/-! ### The statements that are never read as meant -/

theorem template_numbered (ns : List Nat) : ∃ toks, Template .between (numbered ns) toks := by
  induction ns with
  | nil => exact ⟨_, .lit rfl rfl (.nil rfl)⟩
  | cons n ns ih =>
    cases ns with
    | nil => exact ⟨_, .nat (.lit rfl rfl (.nil rfl))⟩
    | cons n' ns =>
      obtain ⟨toks, htoks⟩ := ih
      exact ⟨_, .nat (.lit rfl rfl htoks)⟩

theorem not_reads_getEvents (scef_id : String) (refs : List Nat) :
    ¬ (getEvents scef_id refs).Reads := by
  intro h
  obtain ⟨toks, htoks⟩ := template_numbered refs
  have hmeant : Template .between (getEvents scef_id refs).meant
      ([kw "select", .sym '*', kw "from", kw "events", kw "where", kw "scef_id", .sym '='] ++
        ([.str scef_id.toList, kw "and", kw "scef_ref_id", kw "in", .sym '('] ++ toks)) :=
    .lit rfl rfl (.str rfl rfl rfl htoks)
  have htext : (getEvents scef_id refs).text = "SELECT * FROM events WHERE scef_id = '" ++
      (scef_id ++ ("' AND scef_ref_id = (" ++ (",".intercalate (refs.map toString) ++ ")"))) := by
    simp only [← String.append_assoc]
    rfl
  rw [Reads, hmeant.lexParts_eq, htext] at h
  obtain ⟨toks₁, h₁, he₁⟩ :=
    Option.map_eq_some_iff.mp ((Template.lexFrom_lit (m := .between) rfl rfl _).symm.trans h)
  obtain rfl := List.append_cancel_left he₁
  have hblank : (' ' :: ("AND scef_ref_id = (".toList ++
      (",".intercalate (refs.map toString) ++ ")").toList)).head? ≠ some '\'' :=
    fun h => absurd (Option.some.inj h) (by decide)
  have hplain : Plain scef_id := by
    rw [String.toList_append, String.toList_append] at h₁
    exact plain_of_lexFrom hblank h₁
  -- the token after the column is `=`, and `IN` is meant
  rw [Template.lexFrom_str hplain] at h₁
  obtain ⟨toks₂, -, he₂⟩ := Option.map_eq_some_iff.mp ((Template.lexFrom_lit rfl rfl _).symm.trans h₁)
  exact absurd (congrArg (·[3]?) he₂) nofun

theorem not_reads_deleteEventExtid (extid scef_id : String) (ref : Nat) :
    ¬ (deleteEventExtid extid scef_id ref).Reads := by
  intro h
  have hmeant : Template .between (deleteEventExtid extid scef_id ref).meant
      ([kw "delete", kw "from", kw "events_extid", kw "where", kw "extid", .sym '='] ++
        ([.str extid.toList, kw "and", kw "scef_id", .sym '='] ++
          ([.str scef_id.toList, kw "and", kw "scef_ref_id", .sym '='] ++ [.num (signed false ref)]))) :=
    .lit rfl rfl (.str rfl rfl rfl (.str rfl rfl rfl (.nat (.nil rfl))))
  have htext : (deleteEventExtid extid scef_id ref).text = "DELETE FROM events_extid WHERE extid=" ++
      (extid ++ (" AND scef_id='" ++ (scef_id ++ ("' AND scef_ref_id=" ++ toString ref)))) := by
    simp only [← String.append_assoc]
    rfl
  rw [Reads, hmeant.lexParts_eq, htext] at h
  obtain ⟨toks₁, h₁, he₁⟩ :=
    Option.map_eq_some_iff.mp ((Template.lexFrom_lit (m := .between) rfl rfl _).symm.trans h)
  obtain rfl := List.append_cancel_left he₁
  rw [String.toList_append, String.toList_append] at h₁
  exact not_bare (c := 'A') rfl _ h₁

/-! ### All statements -/

set_option maxRecDepth 2000 in
/-- **A statement is read as the one that is meant exactly if it is safe.** -/
theorem reads_iff_safe (st : Statement) : st.Reads ↔ st.Safe := by
  cases st with
  | getEvents scef_id refs => exact iff_false_intro (not_reads_getEvents scef_id refs)
  | deleteEventExtid extid scef_id ref =>
    exact iff_false_intro (not_reads_deleteEventExtid extid scef_id ref)
  | getEventIdsFromExtIds extids => exact reads_getEventIdsFromExtIds extids
  | updateLocation location flags id =>
    obtain ⟨ts, t⟩ := template_updateLocation location flags id
    exact reads_iff_plain (updateLocation location flags id) t (render_updateLocation location flags id)
  | addEvent e =>
    exact reads_iff_plain (addEvent e) (.lit rfl rfl (.str rfl rfl rfl (.nat (.lit rfl rfl (.int (.lit rfl rfl
      (.str rfl rfl rfl (.str rfl rfl rfl (.str rfl rfl rfl (.int (.lit rfl rfl
        (.nil rfl)))))))))))) rfl
  | addEventMsisdn e =>
    exact reads_iff_plain (addEventMsisdn e) (.lit rfl rfl (.int (.lit rfl rfl (.str rfl rfl rfl (.nat (.lit rfl rfl
      (.nil rfl))))))) rfl
  | addEventExtid e =>
    exact reads_iff_plain (addEventExtid e) (.lit rfl rfl (.str rfl rfl rfl (.str rfl rfl rfl (.nat (.lit rfl rfl
      (.nil rfl)))))) rfl
  | getEvent scef_id ref =>
    exact reads_iff_plain (getEvent scef_id ref) (.lit rfl rfl (.str rfl rfl rfl (.nat (.nil rfl)))) rfl
  | deleteEvent scef_id ref =>
    exact reads_iff_plain (deleteEvent scef_id ref) (.lit rfl rfl (.str rfl rfl rfl (.nat (.nil rfl)))) rfl
  | deleteEventMsisdn msisdn scef_id ref =>
    exact reads_iff_plain (deleteEventMsisdn msisdn scef_id ref) (.lit rfl rfl (.int (.lit rfl rfl (.str rfl rfl rfl (.nat (.nil rfl)))))) rfl
  | updateRandSqn imsi rand sqn inc_sqn =>
    exact reads_iff_plain (updateRandSqn imsi rand sqn inc_sqn) (.lit rfl rfl (.str rfl rfl rfl (.nat (.lit rfl rfl (.str rfl rfl rfl
      (.nil rfl)))))) rfl
  | UpdateValidityTime imsi validity_time =>
    exact reads_iff_plain (UpdateValidityTime imsi validity_time) (.lit rfl rfl (.str rfl rfl rfl (.str rfl rfl rfl (.nil rfl)))) rfl
  | UpdateNIRDestination imsi host realm =>
    exact reads_iff_plain (UpdateNIRDestination imsi host realm) (.lit rfl rfl (.str rfl rfl rfl (.str rfl rfl rfl (.str rfl rfl rfl
      (.nil rfl))))) rfl
  | getImsiListFromExtId extid => exact reads_iff_plain (getImsiListFromExtId extid) (.lit rfl rfl .last) rfl
  | getExtIdsFromImsi imsi => exact reads_iff_plain (getExtIdsFromImsi imsi) (.lit rfl rfl .last) rfl
  | getEventIdsFromExtId extid => exact reads_iff_plain (getEventIdsFromExtId extid) (.lit rfl rfl .last) rfl
  -- a text between two literals
  | checkExtIdExists extid => exact reads_iff_plain (checkExtIdExists extid) (.lit rfl rfl (.str rfl rfl rfl (.nil rfl))) rfl
  | getMsisdnFromImsi imsi => exact reads_iff_plain (getMsisdnFromImsi imsi) (.lit rfl rfl (.str rfl rfl rfl (.nil rfl))) rfl
  | getImsiInfo imsi => exact reads_iff_plain (getImsiInfo imsi) (.lit rfl rfl (.str rfl rfl rfl (.nil rfl))) rfl
  | purgeUE imsi => exact reads_iff_plain (purgeUE imsi) (.lit rfl rfl (.str rfl rfl rfl (.nil rfl))) rfl
  | getMmeIdentityFromImsi imsi =>
    exact reads_iff_plain (getMmeIdentityFromImsi imsi) (.lit rfl rfl (.str rfl rfl rfl (.nil rfl))) rfl
  | getMmeIdFromHost host => exact reads_iff_plain (getMmeIdFromHost host) (.lit rfl rfl (.str rfl rfl rfl (.nil rfl))) rfl
  | getImsiSec imsi => exact reads_iff_plain (getImsiSec imsi) (.lit rfl rfl (.str rfl rfl rfl (.nil rfl))) rfl
  | getSubDataFromImsi imsi =>
    exact reads_iff_plain (getSubDataFromImsi imsi) (.lit rfl rfl (.str rfl rfl rfl (.nil rfl))) rfl

end Statement

/-! ### An event that is added and looked up -/

theorem plain_of_safe {e : DAEvent} (h : (Statement.addEvent e).Safe) : e.Plain where
  scef_id := h _ (by simp [Statement.meant])
  extid := h _ (by simp [Statement.meant])
  mec_json := h _ (by simp [Statement.meant])
  ui_json := h _ (by simp [Statement.meant])

/-- The row that `addEvent` writes is read as the event. -/
theorem eventOfRow_addedRow {e : DAEvent} (href : e.scef_ref_id < 2 ^ 32) (db : Db) :
    eventOfRow (addedRow e db) = e := by
  have hnat : (((e.scef_ref_id : Int) % 2 ^ 32).toNat) = e.scef_ref_id := by omega
  have hscef : textColumn (addedRow e db) "scef_id" = e.scef_id := String.ofList_toList
  have hextid : textColumn (addedRow e db) "extid" = e.extid := String.ofList_toList
  have hmec : textColumn (addedRow e db) "monitoring_event_configuration" = e.mec_json :=
    String.ofList_toList
  have hui : textColumn (addedRow e db) "user_identifier" = e.ui_json := String.ofList_toList
  have hrow : eventOfRow (addedRow e db) =
      { scef_id := textColumn (addedRow e db) "scef_id"
        scef_ref_id := ((e.scef_ref_id : Int) % 2 ^ 32).toNat
        msisdn := e.msisdn
        extid := textColumn (addedRow e db) "extid"
        mec_json := textColumn (addedRow e db) "monitoring_event_configuration"
        ui_json := textColumn (addedRow e db) "user_identifier"
        monitoring_type := e.monitoring_type } := rfl
  rw [hrow, hnat, hscef, hextid, hmec, hui]

theorem getEvent_addEvent {e : DAEvent} (h : (Statement.addEvent e).Safe)
    (href : e.scef_ref_id < 2 ^ 32) {db : Db} (hadd : (addEvent e db).2 = true) :
    getEvent (addEvent e db).1 e.scef_id e.scef_ref_id = some (some e) := by
  have hplain := plain_of_safe h
  cases hr : dbExecute db (insertEventText e) with
  | none =>
    rw [addEvent, List.append_assoc, List.singleton_append, dbExecuteAll, hr] at hadd
    exact absurd hadd Bool.false_ne_true
  | some r =>
    obtain ⟨hfits, -⟩ := dbExecute_insertEvent hplain hr
    have hget : dbExecute (added e db) (getEventText e.scef_id e.scef_ref_id) = some (added e db,
        added e db (name "events") (eventKey e.scef_id.toList e.scef_ref_id)) :=
      (dbExecute_getEvent hplain.scef_id).mpr ⟨⟨hfits.scef_id, hfits.scef_ref_id⟩, rfl⟩
    rw [addEvent_accepted hplain hr, getEvent, hget, Option.map_some, added_events, Db.set_same,
      Option.map_some, eventOfRow_addedRow href]

/-- **A statement is read as the one that is meant exactly if it is safe, and an event whose
statement is safe is found as it was added.** -/
theorem reads_iff_getEvent (st : Statement) (e : DAEvent) (db : Db) :
    (st.Reads ↔ st.Safe) ∧
      ((Statement.addEvent e).Safe → e.scef_ref_id < 2 ^ 32 → (addEvent e db).2 = true →
        getEvent (addEvent e db).1 e.scef_id e.scef_ref_id = some (some e)) :=
  ⟨st.reads_iff_safe, fun h href hadd => getEvent_addEvent h href hadd⟩

theorem safe_msisdnEvent : (Statement.addEvent msisdnEvent).Safe := by
  intro s hs
  simp only [Statement.meant, msisdnEvent, List.mem_cons, reduceCtorEq, Part.str.injEq, false_or,
    List.not_mem_nil, or_false] at hs
  rcases hs with rfl | rfl | rfl | rfl <;> decide

theorem reads_iff_getEvent_msisdnEvent :
    (Statement.addEvent msisdnEvent).Reads ∧
      getEvent (addEvent msisdnEvent noRows).1 "scef" 7 = some (some msisdnEvent) := by
  obtain ⟨hreads, hfound⟩ :=
    reads_iff_getEvent (Statement.addEvent msisdnEvent) msisdnEvent noRows
  exact ⟨hreads.mpr safe_msisdnEvent, hfound safe_msisdnEvent (by decide) (by decide +kernel)⟩

/-- A User-Name with a quote: the statement of `getImsiInfo` is not the one that is meant. -/
theorem not_reads_getImsiInfo : ¬ ∀ st : Statement, st.Reads := by
  intro h
  have hplain := (Statement.reads_iff_safe (.getImsiInfo "a'b")).mp (h _) "a'b"
    (by simp [Statement.meant])
  exact absurd hplain (by decide)

end OpenairHss.DataAccess
