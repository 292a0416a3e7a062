import OpenairHss.DataAccess.Statements

/-!
# The rows of the subscribers

`UPDATE` writes a row whether it was there or not.  What counts is the key: it is read from the text
of the IMSI by the `SELECT` that looks the subscriber up and by the `UPDATE` after it, and both read
the same one (`imsiKey?`), whatever the text is.

* `Selects.row_eq`: the row that a `SELECT` finds is that of the key.
* `Updates.subscribers_eq`: an `UPDATE` adds the key to the subscribers.
-/

namespace OpenairHss.DataAccess

open Cql ByteVec

/-- The keys of the rows of `users_imsi`. -/
def subscribers (db : Db) : Set (List Value) := {key | (db (name "users_imsi") key).isSome}

/-- The equations of `WHERE imsi='…';`. -/
def whereImsi (imsi : String) : Option (List (Name × Value)) :=
  (lexFrom (.str []) (cut (imsi ++ "';").toList)).bind fun toks =>
    parseWhere ([kw "where", kw "imsi", .sym '='] ++ toks)

/-- The key that is read from the text of an IMSI. -/
def imsiKey? (imsi : String) : Option (List Value) := (whereImsi imsi).bind usersImsi.whereKey?

/-- A `SELECT` of these columns from `users_imsi` by the IMSI. -/
def Selects (text : String) (cols : List Name) (imsi : String) : Prop :=
  (tokens text).bind (parse keyspace) =
    (whereImsi imsi).bind fun eqs => some (.select (name "users_imsi") (some cols) eqs)

/-- An `UPDATE` of these columns of `users_imsi` by the IMSI. -/
def Updates (text : String) (sets : List (Name × Value)) (imsi : String) : Prop :=
  (tokens text).bind (parse keyspace) =
    (whereImsi imsi).bind fun eqs => some (.update (name "users_imsi") sets eqs)

theorem whereImsi_plain {imsi : String} (h : Plain imsi) :
    whereImsi imsi = some [(name "imsi", .text imsi.toList)] := by
  have hcut : cut "';".toList = ['\'', ';'] := by decide
  rw [whereImsi, Template.lexFrom_str h, hcut]
  rfl

/-- **An IMSI without quotes is its own key.** -/
theorem imsiKey?_plain {imsi : String} (h : Plain imsi) (hne : imsi ≠ "") :
    imsiKey? imsi = some [.text imsi.toList] := by
  rw [imsiKey?, whereImsi_plain h]
  have hlist : imsi.toList ≠ [] := fun hnil => hne (String.toList_eq_nil_iff.mp hnil)
  have hcols : (usersImsi.keys.mapM fun c => [(name "imsi", Value.text imsi.toList)].lookup c) =
      some [.text imsi.toList] := rfl
  have hkey : usersImsi.key? [(name "imsi", .text imsi.toList)] = some [.text imsi.toList] :=
    (key?_text hcols).mpr ⟨hlist, rfl⟩
  exact hkey

/-- The empty text is no key. -/
theorem imsiKey?_empty : imsiKey? "" = none := by decide +kernel

theorem dbExecute_eq (db : Db) (text : String) :
    dbExecute db text = ((tokens text).bind (parse keyspace)).bind (exec schema db) :=
  (Option.bind_assoc _ _ _).symm

/-- The columns of a row that are selected. -/
def selected (cols : List Name) (row : Row) : Row := fun c => if cols.contains c then row c else none

/-- What a `SELECT` by the IMSI yields. -/
theorem Selects.row_eq {text imsi : String} {cols : List Name} (h : Selects text cols imsi)
    {db : Db} {r : Db × Option Row} (hr : dbExecute db text = some r) :
    ∃ key, imsiKey? imsi = some key ∧ r.2 = (db (name "users_imsi") key).map (selected cols) := by
  rw [dbExecute_eq, h] at hr
  obtain ⟨stmt, hstmt, hr⟩ := Option.bind_eq_some_iff.mp hr
  obtain ⟨eqs, heqs, hstmt⟩ := Option.bind_eq_some_iff.mp hstmt
  obtain rfl := Option.some.inj hstmt
  obtain ⟨key, hkey, hr⟩ := Option.bind_eq_some_iff.mp hr
  obtain ⟨-, hr⟩ := Option.ite_none_right_eq_some.mp hr
  obtain rfl := Option.some.inj hr
  exact ⟨key, Option.bind_eq_some_iff.mpr ⟨eqs, heqs, hkey⟩, rfl⟩

theorem Selects.found {text imsi : String} {cols : List Name} (h : Selects text cols imsi)
    {db db' : Db} {row : Row} (hr : dbExecute db text = some (db', some row)) :
    ∃ key, imsiKey? imsi = some key ∧ key ∈ subscribers db := by
  obtain ⟨key, hkey, hrow⟩ := h.row_eq hr
  obtain ⟨row', hrow', -⟩ := Option.map_eq_some_iff.mp hrow.symm
  exact ⟨key, hkey, Option.isSome_iff_exists.mpr ⟨row', hrow'⟩⟩

theorem subscribers_upsert (db : Db) (key : List Value) (eqs : List (Name × Value)) :
    subscribers (db.upsert (name "users_imsi") key eqs) = insert key (subscribers db) := by
  ext k
  by_cases hk : k = key
  · subst hk
    simp [subscribers, Db.upsert]
  · simp [subscribers, Db.upsert, Db.set_of_key_ne hk, hk]

/-- What an `UPDATE` by the IMSI does. -/
theorem Updates.upsert_eq {text imsi : String} {sets : List (Name × Value)}
    (h : Updates text sets imsi) {db : Db} {r : Db × Option Row} (hr : dbExecute db text = some r) :
    ∃ key eqs, imsiKey? imsi = some key ∧ (∀ e ∈ eqs, e.1 = name "imsi") ∧
      usersImsi.admits sets = true ∧ r.1 = db.upsert (name "users_imsi") key (sets ++ eqs) := by
  rw [dbExecute_eq, h] at hr
  obtain ⟨stmt, hstmt, hr⟩ := Option.bind_eq_some_iff.mp hr
  obtain ⟨eqs, heqs, hstmt⟩ := Option.bind_eq_some_iff.mp hstmt
  obtain rfl := Option.some.inj hstmt
  obtain ⟨key, hkey, hr⟩ := Option.bind_eq_some_iff.mp hr
  obtain ⟨hsets, hr⟩ := Option.ite_none_right_eq_some.mp hr
  obtain rfl := Option.some.inj hr
  refine ⟨key, eqs, Option.bind_eq_some_iff.mpr ⟨eqs, heqs, hkey⟩, fun e he => ?_,
    (Bool.and_eq_true_iff.mp hsets).1, rfl⟩
  have hall := (Bool.and_eq_true_iff.mp (Option.ite_none_right_eq_some.mp hkey).1).2
  have hmem := List.all_eq_true.mp hall e he
  exact List.mem_singleton.mp (List.contains_iff_mem.mp hmem)

theorem Updates.subscribers_eq {text imsi : String} {sets : List (Name × Value)}
    (h : Updates text sets imsi) {db : Db} {r : Db × Option Row} (hr : dbExecute db text = some r) :
    ∃ key, imsiKey? imsi = some key ∧ subscribers r.1 = insert key (subscribers db) := by
  obtain ⟨key, eqs, hkey, -, -, hdb⟩ := h.upsert_eq hr
  rw [hdb]
  exact ⟨key, hkey, subscribers_upsert db key _⟩

/-- A `SELECT` by an IMSI without quotes. -/
theorem Selects.run {text imsi : String} {cols : List Name} (h : Selects text cols imsi)
    (himsi : Plain imsi) (hne : imsi ≠ "")
    (hcols : (cols.all fun c => (usersImsi.columns.lookup c).isSome) = true) (db : Db) :
    dbExecute db text = some (db, (db (name "users_imsi") [.text imsi.toList]).map (selected cols)) := by
  have hkey : (whereImsi imsi).bind usersImsi.whereKey? = some [.text imsi.toList] :=
    imsiKey?_plain himsi hne
  rw [whereImsi_plain himsi, Option.bind_some] at hkey
  rw [dbExecute_eq, h, whereImsi_plain himsi, Option.bind_some, Option.bind_some]
  exact Option.bind_eq_some_iff.mpr ⟨_, hkey, if_pos hcols⟩

/-- An `UPDATE` whose `WHERE` is read. -/
theorem Updates.run_eqs {text imsi : String} {sets : List (Name × Value)} (h : Updates text sets imsi)
    {eqs : List (Name × Value)} {key : List Value} (heqs : whereImsi imsi = some eqs)
    (hwhere : usersImsi.whereKey? eqs = some key)
    (hsets : (usersImsi.admits sets && sets.all fun e => !usersImsi.keys.contains e.1) = true)
    (db : Db) :
    dbExecute db text = some (db.upsert (name "users_imsi") key (sets ++ eqs), none) := by
  rw [dbExecute_eq, h, heqs, Option.bind_some, Option.bind_some]
  exact Option.bind_eq_some_iff.mpr ⟨_, hwhere, if_pos hsets⟩

/-- An `UPDATE` by an IMSI without quotes. -/
theorem Updates.run {text imsi : String} {sets : List (Name × Value)} (h : Updates text sets imsi)
    (himsi : Plain imsi) (hne : imsi ≠ "")
    (hsets : (usersImsi.admits sets && sets.all fun e => !usersImsi.keys.contains e.1) = true)
    (db : Db) :
    dbExecute db text = some (db.upsert (name "users_imsi") [.text imsi.toList]
      (sets ++ [(name "imsi", .text imsi.toList)]), none) := by
  have hkey : (whereImsi imsi).bind usersImsi.whereKey? = some [.text imsi.toList] :=
    imsiKey?_plain himsi hne
  rw [whereImsi_plain himsi, Option.bind_some] at hkey
  exact h.run_eqs (whereImsi_plain himsi) hkey hsets db

/-- The equations of a `WHERE` that names the key have no other column. -/
theorem lookup_of_whereKey? {eqs : List (Name × Value)} {key : List Value}
    (hwhere : usersImsi.whereKey? eqs = some key) {c : Name} (hc : c ≠ name "imsi") :
    eqs.lookup c = none := by
  have hall := (Bool.and_eq_true_iff.mp (Option.ite_none_right_eq_some.mp hwhere).1).2
  rw [List.lookup_eq_none_iff]
  intro e he
  have hname := List.mem_singleton.mp (List.contains_iff_mem.mp (List.all_eq_true.mp hall e he))
  rw [hname]
  exact bne_iff_ne.mpr hc

/-- An `UPDATE` under a key: the columns that are named are written, and that of the key. -/
theorem Updates.run_key {text imsi : String} {sets : List (Name × Value)} (h : Updates text sets imsi)
    {key : List Value} (hkey : imsiKey? imsi = some key)
    (hsets : (usersImsi.admits sets && sets.all fun e => !usersImsi.keys.contains e.1) = true) :
    ∃ eqs : List (Name × Value), (∀ c, c ≠ name "imsi" → eqs.lookup c = none) ∧ ∀ db : Db,
      dbExecute db text = some (db.upsert (name "users_imsi") key (sets ++ eqs), none) := by
  obtain ⟨eqs, heqs, hwhere⟩ := Option.bind_eq_some_iff.mp hkey
  exact ⟨eqs, fun c hc => lookup_of_whereKey? hwhere hc, h.run_eqs heqs hwhere hsets⟩

/-- An `UPDATE` of a column that is not there is rejected. -/
theorem Updates.rejected {text imsi : String} {sets : List (Name × Value)} (h : Updates text sets imsi)
    (hsets : usersImsi.admits sets = false) (db : Db) : dbExecute db text = none := by
  cases hr : dbExecute db text with
  | none => rfl
  | some r =>
    obtain ⟨key, eqs, -, -, hadmits, -⟩ := h.upsert_eq hr
    exact absurd (hsets.symm.trans hadmits) Bool.false_ne_true

/-! ### The statements -/

/-- A `SELECT` whose tokens before the IMSI are these. -/
theorem Selects.of_tokens {cols : List Name} {text imsi : String} {ts : List Tok}
    (htokens : tokens text = (lexFrom (.str []) (cut (imsi ++ "';").toList)).map (ts ++ ·))
    (hparse : ∀ toks, parse keyspace (ts ++ toks) =
      (parseWhere ([kw "where", kw "imsi", .sym '='] ++ toks)).bind fun eqs =>
        some (.select (name "users_imsi") (some cols) eqs)) : Selects text cols imsi := by
  rw [Selects, htokens, whereImsi]
  cases lexFrom (.str []) (cut (imsi ++ "';").toList) with
  | none => rfl
  | some toks => exact hparse toks

theorem Updates.of_tokens {sets : List (Name × Value)} {text imsi : String} {ts : List Tok}
    (htokens : tokens text = (lexFrom (.str []) (cut (imsi ++ "';").toList)).map (ts ++ ·))
    (hparse : ∀ toks, parse keyspace (ts ++ toks) =
      (parseWhere ([kw "where", kw "imsi", .sym '='] ++ toks)).bind fun eqs =>
        some (.update (name "users_imsi") sets eqs)) : Updates text sets imsi := by
  rw [Updates, htokens, whereImsi]
  cases lexFrom (.str []) (cut (imsi ++ "';").toList) with
  | none => rfl
  | some toks => exact hparse toks

set_option maxRecDepth 4000 in
theorem selects_getImsiInfo (imsi : String) :
    Selects (Ulr.getImsiInfoText imsi) [name "imsi", name "mmehost", name "mmerealm",
      name "ms_ps_status", name "subscription_data", name "msisdn", name "visited_plmnid",
      name "access_restriction", name "mmeidentity_idmmeidentity"] imsi := by
  have htokens : tokens (Ulr.getImsiInfoText imsi) =
      (lexFrom (.str []) (cut (imsi ++ "';").toList)).map
        ([kw "select", kw "imsi", .sym ',', kw "mmehost", .sym ',', kw "mmerealm", .sym ',',
          kw "ms_ps_status", .sym ',', kw "subscription_data", .sym ',', kw "msisdn", .sym ',',
          kw "visited_plmnid", .sym ',', kw "access_restriction", .sym ',',
          kw "mmeidentity_idmmeidentity", kw "from", kw "users_imsi", kw "where", kw "imsi",
          .sym '='] ++ ·) := by
    unfold Ulr.getImsiInfoText
    rw [String.append_assoc, ← Template.lexFrom_semicolon]
    exact Template.lexFrom_lit rfl rfl _
  exact .of_tokens htokens fun _ => rfl

set_option maxRecDepth 4000 in
theorem selects_getImsiSec (imsi : String) :
    Selects (getImsiSecText imsi) [name "key", name "sqn", name "rand", name "opc"] imsi := by
  have htokens : tokens (getImsiSecText imsi) =
      (lexFrom (.str []) (cut (imsi ++ "';").toList)).map
        ([kw "select", kw "key", .sym ',', kw "sqn", .sym ',', kw "rand", .sym ',', kw "opc",
          kw "from", kw "vhss", .sym '.', kw "users_imsi", kw "where", kw "imsi", .sym '='] ++ ·) := by
    unfold getImsiSecText
    rw [String.append_assoc]
    exact Template.lexFrom_lit rfl rfl _
  exact .of_tokens htokens fun _ => rfl

set_option maxRecDepth 4000 in
theorem selects_getMmeIdentityFromImsi (imsi : String) :
    Selects (getMmeIdentityFromImsiText imsi) [name "mmeidentity_idmmeidentity"] imsi := by
  have htokens : tokens (getMmeIdentityFromImsiText imsi) =
      (lexFrom (.str []) (cut (imsi ++ "';").toList)).map
        ([kw "select", kw "mmeidentity_idmmeidentity", kw "from", kw "vhss", .sym '.',
          kw "users_imsi", kw "where", kw "imsi", .sym '='] ++ ·) := by
    unfold getMmeIdentityFromImsiText
    rw [String.append_assoc]
    exact Template.lexFrom_lit rfl rfl _
  exact .of_tokens htokens fun _ => rfl

set_option maxRecDepth 4000 in
theorem updates_purgeUE (imsi : String) :
    Updates (purgeUEText imsi)
      [(name "ms_ps_status", .text "PURGED".toList)] imsi := by
  have htokens : tokens (purgeUEText imsi) =
      (lexFrom (.str []) (cut (imsi ++ "';").toList)).map
        ([kw "update", kw "vhss", .sym '.', kw "users_imsi", kw "set", kw "ms_ps_status", .sym '=',
          .str "PURGED".toList, kw "where", kw "imsi", .sym '='] ++ ·) := by
    unfold purgeUEText
    rw [String.append_assoc]
    exact Template.lexFrom_lit rfl rfl _
  exact .of_tokens htokens fun _ => rfl

theorem plain_bytes2hex {n : Nat} (b : Bytes n) : Plain (bytes2hex b) := by
  have hdigits : ∀ i : Fin 16, hexl.getD i '0' ≠ '\'' ∧ hexl.getD i '0' ≠ '\x00' := by decide
  have hmask : ∀ x : BitVec 8, (x &&& 0x0f#8).toNat < 16 := fun x => by
    have hle : (x &&& 0x0f#8).toNat ≤ (0x0f#8).toNat := Nat.and_le_right
    exact Nat.lt_succ_of_le hle
  intro c hc
  rw [bytes2hex, String.toList_ofList] at hc
  obtain ⟨x, -, hc⟩ := List.mem_flatMap.mp hc
  simp only [List.mem_cons, List.not_mem_nil, or_false] at hc
  rcases hc with rfl | rfl
  · exact hdigits ⟨_, hmask (x >>> 4)⟩
  · exact hdigits ⟨_, hmask x⟩

set_option maxRecDepth 4000 in
theorem updates_updateRandSqn (imsi : String) (rand : Bytes 16) (sqn : Bytes 6) (inc_sqn : Bool) :
    Updates (updateRandSqnText imsi rand sqn inc_sqn)
      [(name "rand", .text (bytes2hex rand).toList),
        (name "sqn", .int (sqnText sqn inc_sqn))] imsi := by
  have htokens : tokens (updateRandSqnText imsi rand sqn inc_sqn) =
      (lexFrom (.str []) (cut (imsi ++ "';").toList)).map
        ([kw "update", kw "vhss", .sym '.', kw "users_imsi", kw "set", kw "rand", .sym '='] ++
          ([.str (bytes2hex rand).toList, .sym ',', kw "sqn", .sym '='] ++
            ([.num (signed false (sqnText sqn inc_sqn)), kw "where", kw "imsi", .sym '='] ++ [])) ++ ·) := by
    unfold updateRandSqnText
    simp only [String.append_assoc]
    exact Template.Begins.lit rfl rfl (.str (plain_bytes2hex rand) (.lit rfl rfl (.nat (.lit rfl rfl
      .here))))
  exact .of_tokens htokens fun _ => rfl

set_option maxRecDepth 4000 in
theorem updates_UpdateValidityTime {time : String} (htime : Plain time) (imsi : String) :
    Updates (UpdateValidityTimeText imsi time)
      [(name "niddvalidity", .text time.toList)] imsi := by
  have htokens : tokens (UpdateValidityTimeText imsi time) =
      (lexFrom (.str []) (cut (imsi ++ "';").toList)).map
        ([kw "update", kw "users_imsi", kw "set", kw "niddvalidity", .sym '='] ++
          ([.str time.toList, kw "where", kw "imsi", .sym '='] ++ []) ++ ·) := by
    unfold UpdateValidityTimeText
    simp only [String.append_assoc]
    rw [← Template.lexFrom_semicolon]
    exact Template.Begins.lit rfl rfl (.str htime (.lit rfl rfl .here))
  exact .of_tokens htokens fun _ => rfl

set_option maxRecDepth 4000 in
theorem updates_UpdateNIRDestination {host realm : String} (hhost : Plain host)
    (hrealm : Plain realm) (imsi : String) :
    Updates (UpdateNIRDestinationText imsi host realm)
      [(name "nir_dest_host", .text host.toList),
        (name "nir_dest_realm", .text realm.toList)] imsi := by
  have htokens : tokens (UpdateNIRDestinationText imsi host realm) =
      (lexFrom (.str []) (cut (imsi ++ "';").toList)).map
        ([kw "update", kw "users_imsi", kw "set", kw "nir_dest_host", .sym '='] ++
          ([.str host.toList, .sym ',', kw "nir_dest_realm", .sym '='] ++
            ([.str realm.toList, kw "where", kw "imsi", .sym '='] ++ [])) ++ ·) := by
    unfold UpdateNIRDestinationText
    simp only [String.append_assoc]
    rw [← Template.lexFrom_semicolon]
    exact Template.Begins.lit rfl rfl (.str hhost (.lit rfl rfl (.str hrealm (.lit rfl rfl .here))))
  exact .of_tokens htokens fun _ => rfl

/-! ### `updateLocation` -/

/-- Columns under a flag. -/
theorem begins_flagged {c : Prop} [Decidable c] {cols tail : String} {ts ts' : List Tok}
    {rest : Option (List Tok)}
    (hcols : ∀ {tail ts'}, Template.Begins .between tail ts' rest →
      Template.Begins .between (cols ++ tail) (ts ++ ts') rest)
    (htail : Template.Begins .between tail ts' rest) :
    Template.Begins .between ((if c then cols else "") ++ tail) ((if c then ts else []) ++ ts') rest := by
  split
  · exact hcols htail
  · rw [String.empty_append]
    exact htail

/-- What a request puts into the columns of `updateLocation` has no quote and no NUL. -/
structure PlainLocation (location : Ulr.ImsiInfo) : Prop where
  imei : Plain location.imei
  imei_sv : Plain location.imei_sv
  mmehost : Plain location.mmehost
  mmerealm : Plain location.mmerealm
  visited_plmnid : Plain location.visited_plmnid

/-- The columns that `updateLocation` writes. -/
def locationSets (location : Ulr.ImsiInfo) (flags : BitVec 32) (id : Int) : List (Name × Value) :=
  (if Ulr.flagIsSet flags Ulr.imeiPresent then [(name "imei", .text location.imei.toList)] else [])
    ++ ((if Ulr.flagIsSet flags Ulr.svPresent then
        [(name "imeisv", .text location.imei_sv.toList)] else [])
      ++ ((if Ulr.flagIsSet flags Ulr.mmeIdentityPresent then
          [(name "mmeidentity_idmmeidentity", .int id), (name "mmehost", .text location.mmehost.toList),
            (name "mmerealm", .text location.mmerealm.toList)] else [])
        ++ [(name "ms_ps_status", .text "ATTACHED".toList),
          (name "visited_plmnid", .text location.visited_plmnid.toList)]))

set_option maxRecDepth 4000 in
theorem updates_updateLocation {location : Ulr.ImsiInfo} (h : PlainLocation location)
    (flags : BitVec 32) (id : Int) :
    Updates (Ulr.updateLocationText location flags id) (locationSets location flags id)
      location.imsi := by
  have htokens : tokens (Ulr.updateLocationText location flags id) =
      (lexFrom (.str []) (cut (location.imsi ++ "';").toList)).map
        ([kw "update", kw "vhss", .sym '.', kw "users_imsi", kw "set"] ++
          ((if Ulr.flagIsSet flags Ulr.imeiPresent then
              [kw "imei", .sym '='] ++ [.str location.imei.toList, .sym ','] else []) ++
            ((if Ulr.flagIsSet flags Ulr.svPresent then
                [kw "imeisv", .sym '='] ++ [.str location.imei_sv.toList, .sym ','] else []) ++
              ((if Ulr.flagIsSet flags Ulr.mmeIdentityPresent then
                  [kw "mmeidentity_idmmeidentity", .sym '='] ++
                    ([.num (signed (decide (id < 0)) id.natAbs), .sym ',', kw "mmehost", .sym '='] ++
                      ([.str location.mmehost.toList, .sym ',', kw "mmerealm", .sym '='] ++
                        [.str location.mmerealm.toList, .sym ','])) else []) ++
                ([kw "ms_ps_status", .sym '=', .str "ATTACHED".toList, .sym ',',
                  kw "visited_plmnid", .sym '='] ++
                  ([.str location.visited_plmnid.toList, kw "where", kw "imsi", .sym '='] ++
                    []))))) ++ ·) := by
    unfold Ulr.updateLocationText
    simp only [String.append_assoc]
    refine Template.Begins.lit rfl rfl (begins_flagged ?_ (begins_flagged ?_ (begins_flagged ?_
      (.lit rfl rfl (.str h.visited_plmnid (.lit rfl rfl .here))))))
    all_goals
      intro tail ts htail
      simp only [String.append_assoc, List.append_assoc]
    · exact .lit rfl rfl (.str h.imei (.lit rfl rfl htail))
    · exact .lit rfl rfl (.str h.imei_sv (.lit rfl rfl htail))
    · exact .lit rfl rfl (.int (.lit rfl rfl (.str h.mmehost (.lit rfl rfl (.str h.mmerealm
        (.lit rfl rfl htail))))))
  rw [signed_natAbs] at htokens
  refine .of_tokens htokens fun _ => ?_
  unfold locationSets
  split_ifs <;> rfl

/-! ### The MME of a subscriber -/

/-- The parts of the statement of `getMmeIdentity`. -/
def getMmeIdentityParts (id : Int) : List Part :=
  [.lit "SELECT mmehost,mmerealm,mmeisdn FROM vhss.mmeidentity WHERE idmmeidentity=", .int id,
    .lit ";"]

/-- The statement that is meant. -/
theorem dbExecute_getMmeIdentityText (db : Db) (id : Int) :
    dbExecute db (getMmeIdentityText id) = exec schema db
      (.select (name "mmeidentity") (some [name "mmehost", name "mmerealm", name "mmeisdn"])
        [(name "idmmeidentity", .int id)]) := by
  have htext : getMmeIdentityText id = render (getMmeIdentityParts id) := rfl
  have hplain : ∀ p ∈ getMmeIdentityParts id, p.Plain := by
    simp [getMmeIdentityParts, Part.Plain]
  have hexec : dbExecute db (render (getMmeIdentityParts id)) = exec schema db
      (.select (name "mmeidentity") (some [name "mmehost", name "mmerealm", name "mmeisdn"])
        [(name "idmmeidentity", .int (signed (decide (id < 0)) id.natAbs))]) :=
    Template.execute (.lit rfl rfl (.int (.lit rfl rfl (.nil rfl)))) rfl hplain db
  rw [htext, hexec, signed_natAbs]

theorem dbExecute_getMmeIdentity {db : Db} {id : Int} {r : Db × Option Row}
    (hr : dbExecute db (getMmeIdentityText id) = some r) :
    r.2 = (db (name "mmeidentity") [.int id]).map
      (selected [name "mmehost", name "mmerealm", name "mmeisdn"]) := by
  rw [dbExecute_getMmeIdentityText] at hr
  obtain ⟨key, hkey, hr⟩ := Option.bind_eq_some_iff.mp hr
  obtain ⟨-, hr⟩ := Option.ite_none_right_eq_some.mp hr
  obtain rfl := Option.some.inj hr
  obtain ⟨-, hkey⟩ := Option.ite_none_right_eq_some.mp hkey
  have hcols : (mmeidentity.keys.mapM fun c => [(name "idmmeidentity", Value.int id)].lookup c) =
      some [.int id] := rfl
  obtain rfl := (key?_int hcols).mp hkey
  rfl

/-- **The MME of a subscriber** is that of the id in its row; a null id leaves the local variable
alone. -/
theorem getMmeIdentityFromImsi_some {db : Db} {imsi : String} {id : Int} {mme_id : DAMmeIdentity}
    (h : getMmeIdentityFromImsi db imsi id = some (some mme_id)) :
    ∃ key row mme, imsiKey? imsi = some key ∧ db (name "users_imsi") key = some row ∧
      db (name "mmeidentity") [.int (intColumnOr id row "mmeidentity_idmmeidentity")] = some mme ∧
      mme_id.mme_host = textColumn mme "mmehost" ∧ mme_id.mme_realm = textColumn mme "mmerealm" := by
  unfold getMmeIdentityFromImsi at h
  cases hr : dbExecute db (getMmeIdentityFromImsiText imsi) with
  | none =>
    rw [hr] at h
    exact absurd h nofun
  | some r =>
    obtain ⟨key, hkey, hrow⟩ := (selects_getMmeIdentityFromImsi imsi).row_eq hr
    obtain ⟨db', row?⟩ := r
    rw [hr] at h
    cases row? with
    | none => exact absurd h nofun
    | some row₁ =>
      obtain ⟨row, hdb, rfl⟩ := Option.map_eq_some_iff.mp hrow.symm
      obtain ⟨⟨db₂, mme?⟩, hmme, hid⟩ := Option.map_eq_some_iff.mp h
      obtain ⟨mme₁, hmme₁, rfl⟩ := Option.map_eq_some_iff.mp hid
      have hmme₂ := dbExecute_getMmeIdentity hmme
      rw [hmme₁] at hmme₂
      obtain ⟨mme, hdb₂, rfl⟩ := Option.map_eq_some_iff.mp hmme₂.symm
      exact ⟨key, row, mme, hkey, hdb, hdb₂, rfl, rfl⟩

end OpenairHss.DataAccess
