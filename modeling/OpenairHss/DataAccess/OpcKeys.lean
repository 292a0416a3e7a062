import OpenairHss.DataAccess.Subscribers
import OpenairHss.Hsssec.Rijndael
import Mathlib.Algebra.BigOperators.Group.List.Lemmas

/-!
# The OPc keys of the subscribers

`checkOpcKeys` goes through `users_imsi` page by page, and writes the OPc of each row with a
statement of its own.  What it writes is a function of the K of the row, which it never changes; so
a table is brought up to date whatever the order of the rows is, and a second run finds nothing to
change.

The row is named in the statement by its IMSI, between quotes.

* `computeOPc_eq`: `ComputeOPc` is `E_K(OP) xor OP`.
* `hexOf_convert`: what `convert_ascii_to_binary` makes of 32 digits.
* `shorter_of_spelled`: the text of an IMSI that is not plain names a shorter key.
* `checkOpcKeys_iff`: when the table is brought up to date.
-/

namespace OpenairHss.DataAccess

open Cql ByteVec Hsssec

/-! ### The code -/

def updateOpcText (imsi opc : String) : String :=
  "UPDATE vhss.users_imsi SET OPc='" ++ opc ++ "' WHERE imsi='" ++ imsi ++ "';"

def checkOpcKeysText : String := "SELECT imsi,key,OPc from vhss.users_imsi"

/-- The tables, the statements sent so far, and the round keys of `rijndael.c`. -/
structure Migration where
  db : Db
  sent : List String
  roundKeys : Rijndael.RoundKeys

/-- `updateOpc`; `alive n` says whether statement number `n` gets to the database.  An exception is
`none`. -/
def updateOpc (alive : Nat → Bool) (imsi opc : String) (s : Migration) : Option Bool × Migration :=
  let text := updateOpcText imsi opc
  let s' := { s with sent := s.sent ++ [text] }
  match alive s.sent.length, dbExecute s.db text with
  | true, some (db, _) => (some true, { s' with db := db })
  | _, _ => (none, s')

def checkRows (alive : Nat → Bool) (op : Bytes 16) : List Row → Migration → Option Bool × Migration
  | [], s => (some true, s)
  | row :: rows, s =>
    let imsi := textColumn row "imsi"
    let key := textColumn row "key"
    let key_bin := convertAsciiToBinary 16 key
    let (opccalc, roundKeys) := (computeOPc key_bin op).run rijndael.exec s.roundKeys
    let newopc := bytes2hex opccalc
    match updateOpc alive imsi newopc { s with roundKeys := roundKeys } with
    | (some true, s) => checkRows alive op rows s
    | r => r

/-- `checkOpcKeys`, for the pages that the driver delivers.  A page has the keys of its rows, and
the rows are those of the table when the page is asked for. -/
def checkOpcKeys (alive : Nat → Bool) (op : Bytes 16) :
    List (List (List Value)) → Migration → Option Bool × Migration
  | [], s => (some true, s)
  | page :: pages, s =>
    let s' := { s with sent := s.sent ++ [checkOpcKeysText] }
    if alive s.sent.length then
      match checkRows alive op (page.filterMap (s.db (name "users_imsi"))) s' with
      | (some true, s) => checkOpcKeys alive op pages s
      | r => r
    else (none, s')

/-! ### The OPc of a row -/

def Digit (c : Char) (v : Nat) : Prop :=
  "0123456789abcdef".toList[v]? = some c ∨ "0123456789ABCDEF".toList[v]? = some c

/-- A text of 32 hexadecimal digits, and what it says. -/
def HexOf (text : List Char) (bytes : Bytes 16) : Prop :=
  text.length = 32 ∧ ∀ i : Fin 16, ∃ high low c d, text[2 * i.val]? = some c ∧
    text[2 * i.val + 1]? = some d ∧ Digit c high ∧ Digit d low ∧
    bytes i = BitVec.ofNat 8 (16 * high + low)

theorem computeOPc_eq (k op : Bytes 16) (roundKeys : Rijndael.RoundKeys) :
    (computeOPc k op).run rijndael.exec roundKeys =
      (fun i => Aes.cipher k op i ^^^ op i, rijndael.schedule k) := by
  have hcipher : rijndael.encrypt (rijndael.schedule k) op = Aes.cipher k op :=
    Rijndael.rijndaelEncrypt_eq k _ op
  have hxor : ∀ a : Bytes 16, xorBy op a = fun i => a i ^^^ op i := fun a =>
    forLoop_update_id (fun i x => x ^^^ op i) a
  show (xorBy op (rijndael.encrypt (rijndael.schedule k) op), rijndael.schedule k) = _
  rw [hcipher, hxor]

theorem asciiToBinary_digit {c : Char} {v : Nat} (h : Digit c v) :
    asciiToBinary c = BitVec.ofNat 8 v ∧ v < 16 := by
  have hall : ∀ v : Fin 16, asciiToBinary ("0123456789abcdef".toList.getD v '0') = BitVec.ofNat 8 v ∧
      asciiToBinary ("0123456789ABCDEF".toList.getD v '0') = BitVec.ofNat 8 v := by decide
  have hlt : v < 16 := by
    rcases h with h | h
    · exact (List.getElem?_eq_some_iff.mp h).1
    · exact (List.getElem?_eq_some_iff.mp h).1
  refine ⟨?_, hlt⟩
  rcases h with h | h
  · have := (hall ⟨v, hlt⟩).1
    rwa [List.getD_eq_getElem?_getD, h] at this
  · have := (hall ⟨v, hlt⟩).2
    rwa [List.getD_eq_getElem?_getD, h] at this

theorem hexOf_convert {text : String} {bytes : Bytes 16} (h : HexOf text.toList bytes) :
    convertAsciiToBinary 16 text = bytes := by
  funext i
  obtain ⟨high, low, c, d, hc, hd, hhigh, hlow, hi⟩ := h.2 i
  obtain ⟨hch, hlt⟩ := asciiToBinary_digit hhigh
  obtain ⟨hdl, hlt'⟩ := asciiToBinary_digit hlow
  rw [convertAsciiToBinary, List.getD_eq_getElem?_getD, List.getD_eq_getElem?_getD, hc, hd, hi,
    Option.getD_some, Option.getD_some, hch, hdl]
  exact Hex.shift_or_eq_pair ⟨high, hlt⟩ ⟨low, hlt'⟩

/-! ### The statement of a row -/

set_option maxRecDepth 4000 in
theorem updates_updateOpc {opc : String} (hopc : Plain opc) (imsi : String) :
    Updates (updateOpcText imsi opc) [(name "opc", .text opc.toList)] imsi := by
  have htokens : tokens (updateOpcText imsi opc) =
      (lexFrom (.str []) (cut (imsi ++ "';").toList)).map
        ([kw "update", kw "vhss", .sym '.', kw "users_imsi", kw "set", kw "opc", .sym '='] ++
          ([.str opc.toList, kw "where", kw "imsi", .sym '='] ++ []) ++ ·) := by
    unfold updateOpcText
    simp only [String.append_assoc]
    exact Template.Begins.lit rfl rfl (.str hopc (.lit rfl rfl .here))
  exact .of_tokens htokens fun _ => rfl

/-- The key of `users_imsi` that a statement writes. -/
def writtenKey? (text : String) : Option (List Value) :=
  match (tokens text).bind (parse keyspace) with
  | some (.update table _ wheres) => if table = name "users_imsi" then usersImsi.whereKey? wheres else none
  | _ => none

theorem writtenKey?_updateOpc {opc : String} (hopc : Plain opc) (imsi : String) :
    writtenKey? (updateOpcText imsi opc) = imsiKey? imsi := by
  rw [writtenKey?, updates_updateOpc hopc imsi, imsiKey?]
  cases whereImsi imsi with
  | none => rfl
  | some eqs => exact if_pos rfl

theorem writtenKey?_checkOpcKeys : writtenKey? checkOpcKeysText = none := by decide +kernel

/-- The first equation of a list. -/
theorem parseEqs_head {sep : Tok} {w : Name} {toks rest : List Tok} {eqs : List (Name × Value)}
    (h : parseEqs sep (.word w :: .sym '=' :: toks) = some (eqs, rest)) :
    ∃ t ts v eqs', toks = t :: ts ∧ term t = some v ∧ eqs = (w, v) :: eqs' := by
  cases toks with
  | nil => exact absurd h nofun
  | cons t ts =>
    cases ts with
    | nil =>
      obtain ⟨v, hv, he⟩ := Option.map_eq_some_iff.mp h
      exact ⟨t, [], v, [], rfl, hv, (Prod.mk.inj he).1.symm⟩
    | cons s ts =>
      rw [parseEqs] at h
      obtain ⟨v, hv, h⟩ := Option.bind_eq_some_iff.mp h
      refine ⟨t, s :: ts, v, ?_⟩
      by_cases hs : s = sep
      · rw [if_pos hs] at h
        obtain ⟨r, -, he⟩ := Option.bind_eq_some_iff.mp h
        exact ⟨r.1, rfl, hv, (Prod.mk.inj (Option.some.inj he)).1.symm⟩
      · rw [if_neg hs] at h
        exact ⟨[], rfl, hv, (Prod.mk.inj (Option.some.inj h)).1.symm⟩

/-- **The key is a text that was spelled** between the quotes, and the column of the key gets it. -/
theorem imsiKey?_spelled {imsi : String} {eqs : List (Name × Value)} {key : List Value}
    (heqs : whereImsi imsi = some eqs) (h : usersImsi.whereKey? eqs = some key) :
    ∃ k, key = [.text k] ∧ esc k ++ ['\''] <+: cut (imsi ++ "';").toList ∧
      eqs.lookup (name "imsi") = some (.text k) := by
  obtain ⟨toks, htoks, hwhere⟩ := Option.bind_eq_some_iff.mp heqs
  obtain ⟨r, hr, hwhere⟩ := Option.bind_eq_some_iff.mp
    (show ((parseEqs (kw "and") ([kw "imsi", .sym '='] ++ toks)).bind fun r =>
      (expectEnd r.2).bind fun _ => some r.1) = some eqs from hwhere)
  obtain ⟨-, -, he⟩ := Option.bind_eq_some_iff.mp hwhere
  obtain ⟨t, ts, v, eqs', rfl, hv, heqs'⟩ := parseEqs_head hr
  rw [Option.some.inj he] at heqs'
  have hlookup : eqs.lookup (name "imsi") = some v := by
    rw [heqs']
    exact List.lookup_cons_self
  obtain ⟨hadmits, hkey⟩ := Option.ite_none_right_eq_some.mp h
  obtain ⟨ty, hty, hfits⟩ := holds_of_admits (Bool.and_eq_true_iff.mp hadmits).1
    (mem_of_lookup hlookup)
  obtain rfl : CType.text = ty := Option.some.inj hty
  cases v with
  | int n => exact absurd hfits nofun
  | text k =>
    have hmap : (usersImsi.keys.mapM fun c => eqs.lookup c) = some [.text k] := by
      show (do
        let v ← eqs.lookup (name "imsi")
        pure [v]) = _
      rw [hlookup]
      rfl
    obtain ⟨-, hkey⟩ := (key?_text hmap).mp hkey
    have ht : t = .str k := by
      cases t with
      | str s => exact congrArg Tok.str (Value.text.inj (Option.some.inj hv))
      | word w => exact absurd hv nofun
      | num n => exact absurd hv nofun
      | sym c => exact absurd hv nofun
    rw [ht] at htoks
    obtain ⟨body, hbody, hprefix⟩ := prefix_of_str htoks
    rw [List.nil_append] at hbody
    exact ⟨k, hkey.symm, hbody ▸ hprefix, hlookup⟩

theorem length_esc_lt {s : List Char} (h : ¬ ∀ c ∈ s, c ≠ '\'') : s.length < (esc s).length := by
  induction s with
  | nil => exact absurd (fun c hc => absurd hc List.not_mem_nil) h
  | cons c s ih =>
    by_cases hc : c = '\''
    · subst hc
      rw [esc_quote]
      exact Nat.lt_succ_of_le (Nat.succ_le_succ (length_le_esc s))
    · rw [esc_cons hc]
      refine Nat.succ_lt_succ (ih fun hs => h fun d hd => ?_)
      rcases List.mem_cons.mp hd with rfl | hd
      · exact hc
      · exact hs d hd

/-- **The text of an IMSI names a shorter key,** or it is plain. -/
theorem shorter_of_spelled {imsi : String} {k : List Char}
    (h : esc k ++ ['\''] <+: cut (imsi ++ "';").toList) :
    k.length ≤ imsi.toList.length ∧ (k.length = imsi.toList.length → Plain imsi) := by
  have hcut : cut (imsi ++ "';").toList <+: imsi.toList ++ ['\'', ';'] := by
    rw [String.toList_append]
    exact List.takeWhile_prefix _
  have hprefix := h.trans hcut
  have hk := length_le_esc k
  have hle : (esc k).length ≤ imsi.toList.length := by
    have hlen := hprefix.length_le
    simp only [List.length_append, List.length_cons, List.length_nil] at hlen
    by_contra hgt
    have heq : esc k ++ ['\''] = imsi.toList ++ ['\'', ';'] :=
      hprefix.eq_of_length (by simp only [List.length_append, List.length_cons, List.length_nil]; omega)
    have hlast := congrArg List.getLast? heq
    simp at hlast
  refine ⟨by omega, fun heq => ?_⟩
  have hquotes : ∀ c ∈ k, c ≠ '\'' := by
    by_contra hnot
    have := length_esc_lt hnot
    omega
  have hself : k = imsi.toList := by
    rw [esc_eq_self hquotes] at hprefix
    exact (List.prefix_of_prefix_length_le ((List.prefix_append _ _).trans hprefix)
      (List.prefix_append _ _) heq.le).eq_of_length heq
  intro c hc
  rw [← hself] at hc
  refine ⟨hquotes c hc, noNul_of_mem_cut (h.subset ?_)⟩
  rw [esc_eq_self hquotes]
  exact List.mem_append_left _ hc

/-! ### Rows -/

/-- The rows have the same IMSI and the same K. -/
def Like (row row' : Row) : Prop :=
  row (name "imsi") = row' (name "imsi") ∧ row (name "key") = row' (name "key")

/-- A row with another OPc. -/
def withOpc (opc : List Char) (row : Row) : Row := Function.update row (name "opc") (some (.text opc))

/-- What is written for a row. -/
def newOpc (op : Bytes 16) (row : Row) : String :=
  bytes2hex fun i => Aes.cipher (convertAsciiToBinary 16 (textColumn row "key")) op i ^^^ op i

theorem like_withOpc (opc : List Char) (row : Row) : Like (withOpc opc row) row :=
  ⟨Function.update_of_ne (by decide) _ _, Function.update_of_ne (by decide) _ _⟩

theorem Like.imsi_eq {row row' : Row} (h : Like row row') :
    textColumn row "imsi" = textColumn row' "imsi" := by
  rw [textColumn, textColumn, h.1]

theorem Like.newOpc_eq {row row' : Row} (h : Like row row') (op : Bytes 16) :
    newOpc op row = newOpc op row' := by
  rw [newOpc, newOpc, textColumn, textColumn, h.2]

/-- A table of subscribers: each row stands under its IMSI, and its K is spelled by 32 digits. -/
structure Provisioned (db : Db) : Prop where
  imsi : ∀ key row, db (name "users_imsi") key = some row →
    ∃ s, key = [.text s] ∧ row (name "imsi") = some (.text s)
  hex : ∀ key row, db (name "users_imsi") key = some row →
    ∃ k K, row (name "key") = some (.text k) ∧ HexOf k K

/-- The rows of the first tables are there, with the same IMSI and K. -/
def Keeps (db db' : Db) : Prop :=
  ∀ key row, db (name "users_imsi") key = some row →
    ∃ row', db' (name "users_imsi") key = some row' ∧ Like row' row

/-- The tables after the rows with these keys are brought up to date. -/
def migrate (op : Bytes 16) (keys : List (List Value)) (db : Db) : Db := fun table key =>
  if table = name "users_imsi" ∧ key ∈ keys then
    (db table key).map fun row => withOpc (newOpc op row).toList row
  else db table key

theorem keeps_migrate (op : Bytes 16) (keys : List (List Value)) (db : Db) :
    Keeps db (migrate op keys db) := by
  intro key row hrow
  by_cases hkey : key ∈ keys
  · refine ⟨withOpc (newOpc op row).toList row, ?_, like_withOpc _ _⟩
    rw [migrate, if_pos ⟨rfl, hkey⟩, hrow, Option.map_some]
  · refine ⟨row, ?_, rfl, rfl⟩
    rw [migrate, if_neg fun h => hkey h.2, hrow]

/-- The key that the statement for a row names. -/
def namedBy (row : Row) : Option (List Value) := imsiKey? (textColumn row "imsi")

/-! ### One update -/

/-- What an update does that is accepted. -/
structure Wrote (row : Row) (opc : String) (db db' : Db) (k : List Char) : Prop where
  named : namedBy row = some [.text k]
  run : ∃ eqs : List (Name × Value), (∀ c, c ≠ name "imsi" → eqs.lookup c = none) ∧
    eqs.lookup (name "imsi") = some (.text k) ∧
    db' = db.upsert (name "users_imsi") [.text k] ([(name "opc", .text opc.toList)] ++ eqs)

/-- An update is refused, or it writes the OPc of the row that it names. -/
theorem updateOpc_cases (alive : Nat → Bool) (op : Bytes 16) (row : Row) (s : Migration) :
    let r := updateOpc alive (textColumn row "imsi") (newOpc op row) s
    r.2.sent = s.sent ++ [updateOpcText (textColumn row "imsi") (newOpc op row)] ∧
      (r.1 = none ∧ r.2.db = s.db ∧ (alive s.sent.length = false ∨ namedBy row = none) ∨
        r.1 = some true ∧ ∃ k, Wrote row (newOpc op row) s.db r.2.db k) := by
  have hopc : Plain (newOpc op row) := plain_bytes2hex _
  have hupdates := updates_updateOpc hopc (textColumn row "imsi")
  cases halive : alive s.sent.length with
  | false =>
    simp only [updateOpc, halive]
    exact ⟨trivial, Or.inl ⟨trivial, trivial, Or.inl trivial⟩⟩
  | true =>
    cases hnamed : namedBy row with
    | none =>
      have hnone : dbExecute s.db (updateOpcText (textColumn row "imsi") (newOpc op row)) = none := by
        cases hr : dbExecute s.db (updateOpcText (textColumn row "imsi") (newOpc op row)) with
        | none => rfl
        | some r =>
          obtain ⟨key, -, hkey, -⟩ := hupdates.upsert_eq hr
          exact absurd (hnamed.symm.trans hkey) nofun
      simp only [updateOpc, halive, hnone]
      exact ⟨trivial, Or.inl ⟨trivial, trivial, Or.inr trivial⟩⟩
    | some key =>
      obtain ⟨eqs, heqs, hwhere⟩ := Option.bind_eq_some_iff.mp hnamed
      obtain ⟨k, rfl, -, hlookup⟩ := imsiKey?_spelled heqs hwhere
      have hrun := hupdates.run_eqs heqs hwhere rfl s.db
      simp only [updateOpc, halive, hrun]
      exact ⟨trivial, Or.inr ⟨trivial, k, hnamed, eqs, fun c hc => lookup_of_whereKey? hwhere hc,
        hlookup, rfl⟩⟩

variable {db₀ db db' : Db} {row : Row} {opc : String} {k : List Char}

/-- An update leaves the rows where they are. -/
theorem Wrote.keeps (h : Wrote row opc db db' k) (hdb₀ : Provisioned db₀) (hkeeps : Keeps db₀ db) :
    Keeps db₀ db' := by
  obtain ⟨eqs, hother, himsi, rfl⟩ := h.run
  intro key row₀ hrow₀
  obtain ⟨row', hrow', hlike⟩ := hkeeps key row₀ hrow₀
  by_cases hkey : key = [.text k]
  · subst hkey
    refine ⟨_, Db.set_same _ _ _ _, ?_, ?_⟩
    · obtain ⟨s, hs, hcol⟩ := hdb₀.imsi _ _ hrow₀
      have hk : k = s := Value.text.inj (List.cons.inj hs).1
      rw [hcol, ← hk]
      show (([(name "opc", _)] ++ eqs).lookup (name "imsi") <|> _) = _
      rw [List.lookup_append, himsi]
      rfl
    · show (([(name "opc", _)] ++ eqs).lookup (name "key") <|> _) = _
      rw [List.lookup_append, hother (name "key") (by decide), hrow', ← hlike.2]
      rfl
  · exact ⟨row', (Db.set_of_key_ne hkey _ _ _).trans hrow', hlike⟩

/-- An update of the row it was made for. -/
theorem Wrote.migrate {op : Bytes 16} {keys : List (List Value)} {row₀ : Row}
    (h : Wrote row (newOpc op row) (migrate op keys db₀) db' k) (hdb₀ : Provisioned db₀)
    (hrow₀ : db₀ (name "users_imsi") [.text k] = some row₀) (hlike : Like row row₀) :
    db' = migrate op ([.text k] :: keys) db₀ := by
  obtain ⟨eqs, hother, himsi, rfl⟩ := h.run
  obtain ⟨s, hs, hcol⟩ := hdb₀.imsi _ _ hrow₀
  have hk : k = s := Value.text.inj (List.cons.inj hs).1
  have hbefore : ∃ row', DataAccess.migrate op keys db₀ (name "users_imsi") [.text k] = some row' ∧
      ∀ c, c ≠ name "opc" → row' c = row₀ c := by
    unfold DataAccess.migrate
    split
    · exact ⟨_, congrArg (Option.map _) hrow₀, fun c hc => Function.update_of_ne hc _ _⟩
    · exact ⟨row₀, hrow₀, fun _ _ => rfl⟩
  obtain ⟨row', hrow', hcols⟩ := hbefore
  funext table key
  by_cases hkey : table = name "users_imsi" ∧ key = [.text k]
  · obtain ⟨rfl, rfl⟩ := hkey
    have hafter : DataAccess.migrate op ([.text k] :: keys) db₀ (name "users_imsi") [.text k] =
        some (withOpc (newOpc op row₀).toList row₀) := by
      rw [DataAccess.migrate, if_pos ⟨rfl, List.mem_cons_self⟩, hrow₀, Option.map_some]
    rw [hafter, Db.upsert, Db.set_same, hrow']
    refine congrArg some (funext fun c => ?_)
    rw [List.lookup_append, Option.bind_some]
    by_cases hopc : c = name "opc"
    · subst hopc
      rw [withOpc, Function.update_self, hlike.newOpc_eq op]
      rfl
    · rw [withOpc, Function.update_of_ne hopc, List.lookup_cons, beq_false_of_ne hopc, List.lookup_nil]
      by_cases hc : c = name "imsi"
      · subst hc
        rw [himsi, hcol, ← hk]
        rfl
      · rw [hother c hc, ← hcols c hopc]
        rfl
  · have hmem : table = name "users_imsi" ∧ key ∈ [.text k] :: keys ↔
        table = name "users_imsi" ∧ key ∈ keys := by
      constructor
      · rintro ⟨htable, hmem⟩
        exact ⟨htable, (List.mem_cons.mp hmem).resolve_left fun h => hkey ⟨htable, h⟩⟩
      · exact fun h => ⟨h.1, List.mem_cons_of_mem _ h.2⟩
    refine (if_neg hkey).trans ?_
    simp only [DataAccess.migrate, hmem]

/-! ### The loops -/

/-- The keys that the statements sent so far have named. -/
def Migration.written (s : Migration) : List (List Value) := s.sent.filterMap writtenKey?

/-- A row of the table whose statement is rejected, or is none of the part of CQL that is modelled. -/
def Rejected (db : Db) : Prop :=
  ∃ key row, db (name "users_imsi") key = some row ∧ namedBy row = none

/-- What the loops keep: `P` for the rows done so far, the tables and the keys that were named, and
`Q` for the tables if a statement was refused. -/
structure LoopRule (alive : Nat → Bool) (op : Bytes 16) (db₀ : Db)
    (P : List (List Value) → Db → List (List Value) → Prop) (Q : Db → Prop) : Prop where
  keeps : ∀ {done db w}, P done db w → Keeps db₀ db
  step : ∀ {done db w key row₀ row db' k}, P done db w → db₀ (name "users_imsi") key = some row₀ →
    Like row row₀ → Wrote row (newOpc op row) db db' k → P (done ++ [key]) db' (w ++ [[.text k]])
  refused : ∀ {done db w}, P done db w → ((∀ n, alive n = true) → Rejected db₀) → Q db

section Loops

variable {alive : Nat → Bool} {op : Bytes 16}
  {P : List (List Value) → Db → List (List Value) → Prop} {Q : Db → Prop}

theorem LoopRule.rows (h : LoopRule alive op db₀ P Q) {snap : Db} (hsnap : Keeps db₀ snap)
    (page : List (List Value)) (hpage : ∀ key ∈ page, (db₀ (name "users_imsi") key).isSome)
    (done : List (List Value)) (s : Migration) (hs : P done s.db s.written) :
    let r := checkRows alive op (page.filterMap (snap (name "users_imsi"))) s
    (r.1 = some true ∧ P (done ++ page) r.2.db r.2.written) ∨ (r.1 = none ∧ Q r.2.db) := by
  induction page generalizing done s with
  | nil => exact Or.inl ⟨rfl, (List.append_nil done).symm ▸ hs⟩
  | cons key page ih =>
    obtain ⟨row₀, hrow₀⟩ := Option.isSome_iff_exists.mp (hpage key List.mem_cons_self)
    obtain ⟨row, hrow, hlike⟩ := hsnap key row₀ hrow₀
    rw [List.filterMap_cons_some hrow]
    have hcode : checkRows alive op (row :: page.filterMap (snap (name "users_imsi"))) s =
        match updateOpc alive (textColumn row "imsi") (newOpc op row)
          { s with roundKeys := rijndael.schedule (convertAsciiToBinary 16 (textColumn row "key")) } with
        | (some true, s) => checkRows alive op (page.filterMap (snap (name "users_imsi"))) s
        | r => r := by
      rw [checkRows, computeOPc_eq]
      rfl
    rw [hcode]
    obtain ⟨hsent, hr⟩ := updateOpc_cases alive op row
      { s with roundKeys := rijndael.schedule (convertAsciiToBinary 16 (textColumn row "key")) }
    generalize updateOpc alive (textColumn row "imsi") (newOpc op row)
      { s with roundKeys := rijndael.schedule (convertAsciiToBinary 16 (textColumn row "key")) } = r
      at hsent hr
    obtain ⟨result, s'⟩ := r
    rcases hr with ⟨hnone, hdb, hwhy⟩ | ⟨htrue, k, hwrote⟩
    · obtain rfl : result = none := hnone
      refine Or.inr ⟨rfl, ?_⟩
      show Q s'.db
      rw [show s'.db = s.db from hdb]
      refine h.refused hs fun halive => ⟨key, row₀, hrow₀, ?_⟩
      rw [namedBy, ← hlike.imsi_eq]
      exact hwhy.resolve_left fun hdead => absurd (halive _) (by rw [hdead]; exact Bool.false_ne_true)
    · obtain rfl : result = some true := htrue
      have hnames : writtenKey? (updateOpcText (textColumn row "imsi") (newOpc op row)) =
          some [.text k] := (writtenKey?_updateOpc (plain_bytes2hex _) _).trans hwrote.named
      have hwritten : s'.written = s.written ++ [[.text k]] := by
        rw [Migration.written, show s'.sent = _ from hsent, List.filterMap_append]
        refine congrArg (s.written ++ ·) ?_
        rw [List.filterMap_cons_some hnames, List.filterMap_nil]
      have hs' : P (done ++ [key]) s'.db s'.written := by
        rw [hwritten]
        exact h.step hs hrow₀ hlike hwrote
      have hrest := ih (fun key' hkey' => hpage key' (List.mem_cons_of_mem _ hkey')) _ s' hs'
      rw [List.append_assoc] at hrest
      exact hrest

/-- **The rule for the two loops.** -/
theorem LoopRule.pages (h : LoopRule alive op db₀ P Q) (pages : List (List (List Value)))
    (hpages : ∀ key ∈ pages.flatten, (db₀ (name "users_imsi") key).isSome)
    (done : List (List Value)) (s : Migration) (hs : P done s.db s.written) :
    let r := checkOpcKeys alive op pages s
    (r.1 = some true ∧ P (done ++ pages.flatten) r.2.db r.2.written) ∨ (r.1 = none ∧ Q r.2.db) := by
  induction pages generalizing done s with
  | nil => exact Or.inl ⟨rfl, (List.append_nil done).symm ▸ hs⟩
  | cons page pages ih =>
    rw [checkOpcKeys]
    cases halive : alive s.sent.length with
    | false =>
      refine Or.inr ⟨rfl, h.refused hs fun hall => ?_⟩
      exact absurd (hall _) (by rw [halive]; exact Bool.false_ne_true)
    | true =>
      rw [if_pos rfl]
      have hsent : P done s.db
          ({ s with sent := s.sent ++ [checkOpcKeysText] } : Migration).written := by
        rw [Migration.written, List.filterMap_append,
          List.filterMap_cons_none writtenKey?_checkOpcKeys, List.filterMap_nil, List.append_nil]
        exact hs
      have hpage := h.rows (h.keeps hs) page
        (fun key hkey => hpages key (List.mem_flatten_of_mem List.mem_cons_self hkey)) done
        { s with sent := s.sent ++ [checkOpcKeysText] } hsent
      generalize checkRows alive op (page.filterMap (s.db (name "users_imsi")))
        { s with sent := s.sent ++ [checkOpcKeysText] } = r at hpage
      obtain ⟨result, s'⟩ := r
      rcases hpage with ⟨htrue, hs'⟩ | ⟨hnone, hq⟩
      · obtain rfl : result = some true := htrue
        have hrest := ih (fun key hkey => hpages key (by
          rw [List.flatten_cons]
          exact List.mem_append_right _ hkey)) _ s' hs'
        rw [List.append_assoc, ← List.flatten_cons] at hrest
        exact hrest
      · obtain rfl : result = none := hnone
        exact Or.inr ⟨rfl, hq⟩

end Loops

/-! ### Two uses of the rule -/

/-- In any run, the statements name the keys that the rows spell. -/
theorem named_rule (alive : Nat → Bool) (op : Bytes 16) (hdb₀ : Provisioned db₀) :
    LoopRule alive op db₀
      (fun done db w => Keeps db₀ db ∧
        done.map (fun key => (db₀ (name "users_imsi") key).bind namedBy) = w.map some)
      (fun _ => (∀ n, alive n = true) → Rejected db₀) where
  keeps h := h.1
  step := by
    rintro done db w key row₀ row db' k ⟨hkeeps, hnamed⟩ hrow₀ hlike hwrote
    have hkey : (db₀ (name "users_imsi") key).bind namedBy = some [.text k] := by
      rw [hrow₀, Option.bind_some, namedBy, ← hlike.imsi_eq]
      exact hwrote.named
    refine ⟨hwrote.keeps hdb₀ hkeeps, ?_⟩
    rw [List.map_append, List.map_append, hnamed, List.map_singleton, hkey, List.map_singleton]
  refused _ h := h

/-- The IMSIs are without quotes. -/
def PlainImsis (db : Db) : Prop :=
  ∀ key row, db (name "users_imsi") key = some row → Plain (textColumn row "imsi")

theorem namedBy_plain (hdb : Provisioned db) (hplain : PlainImsis db) {key : List Value} {row : Row}
    (hrow : db (name "users_imsi") key = some row) {hit : List Value} (h : namedBy row = some hit) :
    hit = key := by
  obtain ⟨s, rfl, hcol⟩ := hdb.imsi key row hrow
  have himsi : textColumn row "imsi" = String.ofList s := by rw [textColumn, hcol]
  have hplain := hplain _ _ hrow
  by_cases hempty : textColumn row "imsi" = ""
  · rw [namedBy, hempty, imsiKey?_empty] at h
    exact absurd h nofun
  · rw [namedBy, imsiKey?_plain hplain hempty, himsi, String.toList_ofList] at h
    exact (Option.some.inj h).symm

/-- If the IMSIs are without quotes, the rows are brought up to date one after the other. -/
theorem plain_rule (alive : Nat → Bool) (op : Bytes 16) (hdb₀ : Provisioned db₀)
    (hplain : PlainImsis db₀) :
    LoopRule alive op db₀
      (fun done db w => w = done ∧ ∃ keys, db = migrate op keys db₀ ∧ ∀ key ∈ done, key ∈ keys)
      (fun db => ∃ keys, db = migrate op keys db₀) where
  keeps := by
    rintro done db w ⟨-, keys, rfl, -⟩
    exact keeps_migrate op keys db₀
  step := by
    rintro done db w key row₀ row db' k ⟨rfl, keys, rfl, hdone⟩ hrow₀ hlike hwrote
    have hnamed : namedBy row₀ = some [.text k] := by
      rw [namedBy, ← hlike.imsi_eq]
      exact hwrote.named
    obtain rfl := namedBy_plain hdb₀ hplain hrow₀ hnamed
    refine ⟨rfl, [.text k] :: keys, hwrote.migrate hdb₀ hrow₀ hlike, fun key hkey => ?_⟩
    rcases List.mem_append.mp hkey with hkey | hkey
    · exact List.mem_cons_of_mem _ (hdone key hkey)
    · exact List.mem_singleton.mp hkey ▸ List.mem_cons_self
  refused := by
    rintro done db w ⟨-, keys, hdb, -⟩ -
    exact ⟨keys, hdb⟩

/-! ### The table after a run -/

/-- The driver enumerates the rows, each of them once. -/
def Enumerates (pages : List (List (List Value))) (db : Db) : Prop :=
  pages ≠ [] ∧ pages.flatten.Nodup ∧ ∀ key, key ∈ pages.flatten ↔ (db (name "users_imsi") key).isSome

/-- Every row has the OPc of its K, and nothing else is changed. -/
structure Migrated (op : Bytes 16) (db db' : Db) : Prop where
  row : ∀ key row, db (name "users_imsi") key = some row →
    ∃ k K, row (name "key") = some (.text k) ∧ HexOf k K ∧ db' (name "users_imsi") key =
      some (withOpc (bytes2hex fun i => Aes.cipher K op i ^^^ op i).toList row)
  none : ∀ key, db (name "users_imsi") key = none → db' (name "users_imsi") key = none
  others : ∀ table key, table ≠ name "users_imsi" → db' table key = db table key

/-- A run that returns true has brought the table up to date, with one statement for each row, and
another run changes nothing. -/
def Migrates (op : Bytes 16) (pages : List (List (List Value))) (db : Db) : Prop :=
  ∀ alive roundKeys,
    let r := checkOpcKeys alive op pages ⟨db, [], roundKeys⟩
    r.1 = some true → Migrated op db r.2.db ∧ r.2.written.Perm pages.flatten ∧
      ∀ alive' pages' roundKeys', Enumerates pages' r.2.db →
        (checkOpcKeys alive' op pages' ⟨r.2.db, [], roundKeys'⟩).2.db = r.2.db

theorem migrated_migrate {op : Bytes 16} {keys : List (List Value)} (hdb : Provisioned db)
    (hkeys : ∀ key, (db (name "users_imsi") key).isSome → key ∈ keys) :
    Migrated op db (migrate op keys db) where
  row key row hrow := by
    obtain ⟨k, K, hk, hex⟩ := hdb.hex key row hrow
    have htext : textColumn row "key" = String.ofList k := by rw [textColumn, hk]
    refine ⟨k, K, hk, hex, ?_⟩
    rw [migrate, if_pos ⟨rfl, hkeys key (hrow ▸ rfl)⟩, hrow, Option.map_some, newOpc, htext,
      hexOf_convert (by rwa [String.toList_ofList])]
  none key hkey := by
    unfold migrate
    split
    · rw [hkey, Option.map_none]
    · exact hkey
  others table key htable := if_neg fun h => htable h.1

theorem withOpc_withOpc (opc opc' : List Char) (row : Row) :
    withOpc opc (withOpc opc' row) = withOpc opc row := Function.update_idem _ _ _

/-- What is up to date stays as it is. -/
theorem migrate_migrate {op : Bytes 16} {keys keys' : List (List Value)}
    (hkeys : ∀ key, (db (name "users_imsi") key).isSome → key ∈ keys) :
    migrate op keys' (migrate op keys db) = migrate op keys db := by
  funext table key
  by_cases hkey' : table = name "users_imsi" ∧ key ∈ keys'
  · obtain ⟨rfl, hkey'⟩ := hkey'
    rw [migrate, if_pos ⟨rfl, hkey'⟩]
    cases hrow : db (name "users_imsi") key with
    | none =>
      have hnone : migrate op keys db (name "users_imsi") key = none := by
        unfold migrate
        split
        · rw [hrow, Option.map_none]
        · exact hrow
      rw [hnone, Option.map_none]
    | some row =>
      rw [migrate, if_pos ⟨rfl, hkeys key (hrow ▸ rfl)⟩, hrow, Option.map_some, Option.map_some,
        (like_withOpc _ row).newOpc_eq op, withOpc_withOpc]
  · exact if_neg hkey'

theorem isSome_migrate {op : Bytes 16} {keys : List (List Value)} {key : List Value} {row : Row}
    (h : migrate op keys db (name "users_imsi") key = some row) :
    ∃ row', db (name "users_imsi") key = some row' ∧ Like row row' := by
  unfold migrate at h
  split at h
  · obtain ⟨row', hrow', rfl⟩ := Option.map_eq_some_iff.mp h
    exact ⟨row', hrow', like_withOpc _ _⟩
  · exact ⟨row, h, rfl, rfl⟩

theorem Provisioned.migrate {op : Bytes 16} (hdb : Provisioned db) (keys : List (List Value)) :
    Provisioned (migrate op keys db) where
  imsi key row hrow := by
    obtain ⟨row', hrow', hlike⟩ := isSome_migrate hrow
    rw [hlike.1]
    exact hdb.imsi key row' hrow'
  hex key row hrow := by
    obtain ⟨row', hrow', hlike⟩ := isSome_migrate hrow
    rw [hlike.2]
    exact hdb.hex key row' hrow'

theorem PlainImsis.migrate {op : Bytes 16} (hplain : PlainImsis db) (keys : List (List Value)) :
    PlainImsis (migrate op keys db) := by
  intro key row hrow
  obtain ⟨row', hrow', hlike⟩ := isSome_migrate hrow
  rw [hlike.imsi_eq]
  exact hplain key row' hrow'

section Run

variable {op : Bytes 16} {pages : List (List (List Value))}

/-- IMSIs without quotes. -/
theorem migrates_of_plain (hdb : Provisioned db) (hpages : Enumerates pages db)
    (hplain : PlainImsis db) : Migrates op pages db := by
  intro alive roundKeys r htrue
  have hrun := (plain_rule alive op hdb hplain).pages pages (fun key hkey => (hpages.2.2 key).mp hkey) []
    ⟨db, [], roundKeys⟩ ⟨rfl, [], ?_, nofun⟩
  · obtain ⟨hwritten, keys, hafter, hkeys⟩ :=
      (hrun.resolve_right fun h => absurd (htrue.symm.trans h.1) nofun).2
    have hall : ∀ key, (db (name "users_imsi") key).isSome → key ∈ keys := fun key hkey =>
      hkeys key ((hpages.2.2 key).mpr hkey)
    have hafter : r.2.db = migrate op keys db := hafter
    refine ⟨hafter ▸ migrated_migrate hdb hall, List.Perm.of_eq hwritten, ?_⟩
    intro alive' pages' roundKeys' hpages'
    rw [hafter] at hpages' ⊢
    have hagain := (plain_rule alive' op (hdb.migrate keys) (hplain.migrate keys)).pages pages'
      (fun key hkey => (hpages'.2.2 key).mp hkey) [] ⟨migrate op keys db, [], roundKeys'⟩
      ⟨rfl, [], ?_, nofun⟩
    · rcases hagain with ⟨-, -, keys', hsame, -⟩ | ⟨-, keys', hsame⟩
      · exact hsame.trans (migrate_migrate hall)
      · exact hsame.trans (migrate_migrate hall)
    · funext table key
      exact (if_neg fun h => List.not_mem_nil h.2).symm
  · funext table key
    exact (if_neg fun h => List.not_mem_nil h.2).symm

def keyLength : List Value → Nat
  | [.text s] => s.length
  | _ => 0

/-- The key that a row names is not longer than its own, and as long only if the IMSI is plain. -/
theorem keyLength_namedBy (hdb : Provisioned db) {key hit : List Value} {row : Row}
    (hrow : db (name "users_imsi") key = some row) (h : namedBy row = some hit) :
    keyLength hit ≤ keyLength key ∧
      (keyLength hit = keyLength key → Plain (textColumn row "imsi")) := by
  obtain ⟨s, rfl, hcol⟩ := hdb.imsi key row hrow
  have himsi : (textColumn row "imsi").toList = s := by
    rw [textColumn, hcol]
    exact String.toList_ofList
  obtain ⟨eqs, heqs, hwhere⟩ := Option.bind_eq_some_iff.mp h
  obtain ⟨k, rfl, hprefix, -⟩ := imsiKey?_spelled heqs hwhere
  have hshorter := shorter_of_spelled hprefix
  rw [himsi] at hshorter
  exact hshorter

/-- A run in which no statement is refused. -/
theorem returns_of_accepted (op : Bytes 16) (hdb : Provisioned db) (hpages : Enumerates pages db)
    (haccepted : ¬ Rejected db) :
    let r := checkOpcKeys (fun _ => true) op pages ⟨db, [], fun _ _ _ => 0⟩
    r.1 = some true ∧ pages.flatten.map (fun key => (db (name "users_imsi") key).bind namedBy) =
      r.2.written.map some := by
  have hrun := (named_rule (fun _ => true) op hdb).pages pages
    (fun key hkey => (hpages.2.2 key).mp hkey) [] ⟨db, [], fun _ _ _ => 0⟩
    ⟨fun key row hrow => ⟨row, hrow, rfl, rfl⟩, rfl⟩
  obtain ⟨htrue, -, hhits⟩ := hrun.resolve_right fun h => haccepted (h.2 fun _ => rfl)
  exact ⟨htrue, hhits⟩

/-- If every row gets its update, the IMSIs are without quotes. -/
theorem plain_of_migrates (hdb : Provisioned db) (hpages : Enumerates pages db)
    (h : Migrates op pages db) (haccepted : ¬ Rejected db) : PlainImsis db := by
  obtain ⟨htrue, hhits⟩ := returns_of_accepted op hdb hpages haccepted
  obtain ⟨-, hperm, -⟩ := h (fun _ => true) (fun _ _ _ => 0) htrue
  generalize (checkOpcKeys (fun _ => true) op pages ⟨db, [], fun _ _ _ => 0⟩).2.written = written
    at hhits hperm
  have hwritten : written =
      pages.flatten.map fun key => ((db (name "users_imsi") key).bind namedBy).getD [] := by
    have := congrArg (List.map fun o : Option (List Value) => o.getD []) hhits
    rw [List.map_map, List.map_map] at this
    exact (List.map_id'' (fun _ => rfl) written).symm.trans this.symm
  have hhit : ∀ key row, db (name "users_imsi") key = some row → ∃ hit,
      namedBy row = some hit ∧ ((db (name "users_imsi") key).bind namedBy).getD [] = hit := by
    intro key row hrow
    cases hnamed : namedBy row with
    | none => exact absurd ⟨key, row, hrow, hnamed⟩ haccepted
    | some hit => exact ⟨hit, rfl, by rw [hrow, Option.bind_some, hnamed, Option.getD_some]⟩
  by_contra hnot
  obtain ⟨key, hnot⟩ := not_forall.mp hnot
  obtain ⟨row, hnot⟩ := not_forall.mp hnot
  obtain ⟨hrow, hquotes⟩ := Classical.not_imp.mp hnot
  have hlt : ((pages.flatten.map fun key =>
      keyLength (((db (name "users_imsi") key).bind namedBy).getD [])).sum) <
        (pages.flatten.map keyLength).sum := by
    refine List.sum_lt_sum _ _ (fun key hkey => ?_) ⟨key, (hpages.2.2 key).mpr (hrow ▸ rfl), ?_⟩
    · obtain ⟨row, hrow⟩ := Option.isSome_iff_exists.mp ((hpages.2.2 key).mp hkey)
      obtain ⟨hit, hnamed, hget⟩ := hhit key row hrow
      rw [hget]
      exact (keyLength_namedBy hdb hrow hnamed).1
    · obtain ⟨hit, hnamed, hget⟩ := hhit key row hrow
      rw [hget]
      obtain ⟨hle, heq⟩ := keyLength_namedBy hdb hrow hnamed
      exact lt_of_le_of_ne hle fun h => hquotes (heq h)
  have hsum := (hperm.map keyLength).sum_eq
  rw [hwritten, List.map_map] at hsum
  exact absurd hsum hlt.ne

/-- **The table is brought up to date** if the IMSIs are without quotes, and, if no statement is
refused, only then. -/
theorem checkOpcKeys_iff (hdb : Provisioned db) (hpages : Enumerates pages db) :
    (PlainImsis db → Migrates op pages db) ∧
      (¬ Rejected db → (Migrates op pages db ↔ PlainImsis db)) := by
  have hplain : PlainImsis db → Migrates op pages db := migrates_of_plain hdb hpages
  exact ⟨hplain, fun haccepted => ⟨fun h => plain_of_migrates hdb hpages h haccepted, hplain⟩⟩

end Run

/-! ### A table with one row -/

/-- A subscriber whose K is zero. -/
def oneRow (imsi : String) : Db := fun table key =>
  if table = name "users_imsi" ∧ key = [.text imsi.toList] then
    some fun c =>
      if c = name "imsi" then some (.text imsi.toList)
      else if c = name "key" then some (.text (List.replicate 32 '0'))
      else none
  else none

def onePage (imsi : String) : List (List (List Value)) := [[[.text imsi.toList]]]

theorem oneRow_eq {imsi : String} {key : List Value} {row : Row}
    (h : oneRow imsi (name "users_imsi") key = some row) : key = [.text imsi.toList] ∧
      row (name "imsi") = some (.text imsi.toList) ∧
      row (name "key") = some (.text (List.replicate 32 '0')) := by
  obtain ⟨hkey, h⟩ := Option.ite_none_right_eq_some.mp h
  obtain rfl := Option.some.inj h
  exact ⟨hkey.2, if_pos rfl, (if_neg (by decide)).trans (if_pos rfl)⟩

theorem provisioned_oneRow (imsi : String) : Provisioned (oneRow imsi) where
  imsi key row hrow := ⟨imsi.toList, (oneRow_eq hrow).1, (oneRow_eq hrow).2.1⟩
  hex key row hrow := by
    refine ⟨_, fun _ => 0, (oneRow_eq hrow).2.2, List.length_replicate, fun i => ?_⟩
    refine ⟨0, 0, '0', '0', ?_, ?_, Or.inl rfl, Or.inl rfl, rfl⟩
    · exact List.getElem?_replicate_of_lt (by omega)
    · exact List.getElem?_replicate_of_lt (by omega)

theorem enumerates_onePage (imsi : String) : Enumerates (onePage imsi) (oneRow imsi) := by
  refine ⟨List.cons_ne_nil _ _, List.nodup_singleton _, fun key => ?_⟩
  show key ∈ [[Value.text imsi.toList]] ↔ _
  rw [List.mem_singleton, Option.isSome_iff_exists]
  constructor
  · rintro rfl
    exact ⟨_, if_pos ⟨rfl, rfl⟩⟩
  · rintro ⟨row, hrow⟩
    exact (oneRow_eq hrow).1

theorem namedBy_oneRow {imsi : String} {key : List Value} {row : Row}
    (h : oneRow imsi (name "users_imsi") key = some row) : textColumn row "imsi" = imsi := by
  rw [textColumn, (oneRow_eq h).2.1]
  exact String.ofList_toList

theorem checkOpcKeys_iff_oneRow :
    Migrates (fun _ => 0) (onePage "001010000000001") (oneRow "001010000000001") := by
  refine (checkOpcKeys_iff (provisioned_oneRow _) (enumerates_onePage _)).1 ?_
  intro key row hrow
  rw [namedBy_oneRow hrow]
  exact (by decide : Plain "001010000000001")

/-- The statement for the IMSI `1''2` writes another row. -/
theorem not_migrates : ¬ ∀ (op : Bytes 16) (pages : List (List (List Value))) (db : Db),
    Provisioned db → Enumerates pages db → Migrates op pages db := by
  intro h
  have hnamed : (imsiKey? "1''2").isSome = true := by decide +kernel
  have haccepted : ¬ Rejected (oneRow "1''2") := by
    rintro ⟨key, row, hrow, hnone⟩
    rw [namedBy, namedBy_oneRow hrow] at hnone
    rw [hnone] at hnamed
    exact absurd hnamed Bool.false_ne_true
  have hplain := plain_of_migrates (provisioned_oneRow "1''2") (enumerates_onePage _)
    (h (fun _ => 0) _ _ (provisioned_oneRow _) (enumerates_onePage _)) haccepted
  obtain ⟨row, hrow⟩ := Option.isSome_iff_exists.mp
    (((enumerates_onePage "1''2").2.2 [.text "1''2".toList]).mp (List.mem_singleton.mpr rfl))
  have hquote := hplain _ row hrow '\'' (by rw [namedBy_oneRow hrow]; decide)
  exact hquote.1 rfl

end OpenairHss.DataAccess
