import Mathlib.Data.List.Forall2
import Mathlib.Data.List.TakeWhile
import Mathlib.Data.BitVec
import Mathlib.Data.UInt

/-!
# Statements of CQL

The part of CQL in which a statement reads or writes one row, given by its whole primary key: the
text is cut into tokens by an automaton (`scan`), the tokens are read as a statement (`parse`), and
the statement is checked against a schema and run (`exec`).

A statement of this part that is not valid for the schema is rejected (`none`).  So is a text that is
no statement of this part, though it may be one of CQL, with a comment, a condition or a function:
`none` is the answer of a database only to texts that are put together from literals, plain texts and
numbers, or that are no CQL.

* `scan_append`: a text is read piece by piece.
* `scan_plain`: inside quotes, a text without quotes stands for itself.
* `scan_int`: the decimal digits of a number are one token, with that value.
* `scanParts_sound`: a text that a program puts together from literals, plain texts and numbers is
  read as it is meant.
-/

namespace Cql

/-! ### Tokens -/

inductive Tok
  | word (w : List Char)
  | num (n : Int)
  | str (s : List Char)
  | sym (c : Char)
  deriving DecidableEq

/-- What the automaton is inside of, with what has been read of it. -/
inductive Mode
  | between
  | word (acc : List Char)
  | minus
  | num (neg : Bool) (n : Nat)
  | str (acc : List Char)
  /-- After a quote inside a string: its end, or the first half of a doubled quote. -/
  | quote (acc : List Char)
  deriving DecidableEq

def isWordStart (c : Char) : Bool := c.isAlpha

def isWordPart (c : Char) : Bool := c.isAlphanum || c == '_'

def isSym (c : Char) : Bool := ['(', ')', ',', '=', ';', '*', '.'].contains c

/-- The value of a digit. -/
def digit (c : Char) : Nat := c.toNat - '0'.toNat

/-- A number with its sign. -/
def signed (neg : Bool) (n : Nat) : Int := if neg then -(n : Int) else n

/-- A character between tokens. -/
def start (c : Char) : Option (Mode × List Tok) :=
  if c = ' ' then some (.between, [])
  else if c = '\'' then some (.str [], [])
  else if isWordStart c then some (.word [c.toLower], [])
  else if c.isDigit then some (.num false (digit c), [])
  else if c = '-' then some (.minus, [])
  else if isSym c then some (.between, [.sym c])
  else none

/-- The character after a token that it ends. -/
def restart (t : Tok) (c : Char) : Option (Mode × List Tok) :=
  (start c).map fun r => (r.1, t :: r.2)

def step : Mode → Char → Option (Mode × List Tok)
  | .between, c => start c
  | .word acc, c => if isWordPart c then some (.word (acc ++ [c.toLower]), []) else restart (.word acc) c
  | .minus, c => if c.isDigit then some (.num true (digit c), []) else none
  | .num neg n, c =>
    if c.isDigit then some (.num neg (10 * n + digit c), [])
    else if isWordPart c || c == '.' || c == '-' then none
    else restart (.num (signed neg n)) c
  | .str acc, c => if c = '\'' then some (.quote acc, []) else some (.str (acc ++ [c]), [])
  | .quote acc, c => if c = '\'' then some (.str (acc ++ ['\'']), []) else restart (.str acc) c

/-- The characters of a text, one after the other. -/
def scan : Mode → List Char → Option (Mode × List Tok)
  | m, [] => some (m, [])
  | m, c :: cs => (step m c).bind fun r => (scan r.1 cs).map fun r' => (r'.1, r.2 ++ r'.2)

/-- The end of the text. -/
def finish : Mode → Option (List Tok)
  | .between => some []
  | .word acc => some [.word acc]
  | .minus => none
  | .num neg n => some [.num (signed neg n)]
  | .str _ => none
  | .quote acc => some [.str acc]

def lex (cs : List Char) : Option (List Tok) :=
  (scan .between cs).bind fun r => (finish r.1).map (r.2 ++ ·)

/-! ### Statements -/

abbrev Name : Type := List Char

inductive Value
  | int (n : Int)
  | text (s : List Char)
  deriving DecidableEq

inductive Stmt
  | insert (table : Name) (cols : List Name) (vals : List Value)
  | update (table : Name) (sets wheres : List (Name × Value))
  | delete (table : Name) (wheres : List (Name × Value))
  | select (table : Name) (cols : Option (List Name)) (wheres : List (Name × Value))
  deriving DecidableEq

def term : Tok → Option Value
  | .num n => some (.int n)
  | .str s => some (.text s)
  | _ => none

/-- A table, with or without the keyspace in front. -/
def parseTable (keyspace : Name) : List Tok → Option (Name × List Tok)
  | .word k :: .sym '.' :: .word w :: rest => if k = keyspace then some (w, rest) else none
  | .word w :: rest => some (w, rest)
  | _ => none

/-- Names with commas between them. -/
def parseNames : List Tok → Option (List Name × List Tok)
  | .word w :: .sym ',' :: rest => (parseNames rest).map fun r => (w :: r.1, r.2)
  | .word w :: rest => some ([w], rest)
  | _ => none

/-- Constants with commas between them. -/
def parseTerms : List Tok → Option (List Value × List Tok)
  | t :: .sym ',' :: rest => do
    let v ← term t
    let r ← parseTerms rest
    return (v :: r.1, r.2)
  | t :: rest => (term t).map fun v => ([v], rest)
  | [] => none

/-- Equations with a token between them. -/
def parseEqs (sep : Tok) : List Tok → Option (List (Name × Value) × List Tok)
  | .word w :: .sym '=' :: t :: s :: rest => do
    let v ← term t
    if s = sep then
      let r ← parseEqs sep rest
      return ((w, v) :: r.1, r.2)
    else return ([(w, v)], s :: rest)
  | [.word w, .sym '=', t] => (term t).map fun v => ([(w, v)], [])
  | _ => none

def kw (s : String) : Tok := .word s.toList

def expect (t : Tok) : List Tok → Option (List Tok)
  | [] => none
  | s :: rest => if s = t then some rest else none

def expectEnd : List Tok → Option Unit
  | [] => some ()
  | [.sym ';'] => some ()
  | _ => none

/-- `WHERE` and the end. -/
def parseWhere (rest : List Tok) : Option (List (Name × Value)) := do
  let rest ← expect (kw "where") rest
  let (eqs, rest) ← parseEqs (kw "and") rest
  expectEnd rest
  return eqs

def parseInsert (keyspace : Name) (rest : List Tok) : Option Stmt := do
  let rest ← expect (kw "into") rest
  let (table, rest) ← parseTable keyspace rest
  let rest ← expect (.sym '(') rest
  let (cols, rest) ← parseNames rest
  let rest ← expect (.sym ')') rest
  let rest ← expect (kw "values") rest
  let rest ← expect (.sym '(') rest
  let (vals, rest) ← parseTerms rest
  let rest ← expect (.sym ')') rest
  expectEnd rest
  return .insert table cols vals

def parseUpdate (keyspace : Name) (rest : List Tok) : Option Stmt := do
  let (table, rest) ← parseTable keyspace rest
  let rest ← expect (kw "set") rest
  let (sets, rest) ← parseEqs (.sym ',') rest
  let wheres ← parseWhere rest
  return .update table sets wheres

def parseDelete (keyspace : Name) (rest : List Tok) : Option Stmt := do
  let rest ← expect (kw "from") rest
  let (table, rest) ← parseTable keyspace rest
  let wheres ← parseWhere rest
  return .delete table wheres

/-- The columns of a selection. -/
def parseCols : List Tok → Option (Option (List Name) × List Tok)
  | .sym '*' :: rest => some (none, rest)
  | rest => (parseNames rest).map fun r => (some r.1, r.2)

def parseSelect (keyspace : Name) (rest : List Tok) : Option Stmt := do
  let (cols, rest) ← parseCols rest
  let rest ← expect (kw "from") rest
  let (table, rest) ← parseTable keyspace rest
  let wheres ← parseWhere rest
  return .select table cols wheres

def parse (keyspace : Name) : List Tok → Option Stmt
  | [] => none
  | t :: rest =>
    if t = kw "insert" then parseInsert keyspace rest
    else if t = kw "update" then parseUpdate keyspace rest
    else if t = kw "delete" then parseDelete keyspace rest
    else if t = kw "select" then parseSelect keyspace rest
    else none

/-! ### Tables -/

inductive CType
  | text
  | int
  | bigint
  | varint
  deriving DecidableEq

/-- A constant of this type. -/
def CType.fits : CType → Value → Bool
  | .text, .text _ => true
  | .int, .int n => decide (-2 ^ 31 ≤ n) && decide (n < 2 ^ 31)
  | .bigint, .int n => decide (-2 ^ 63 ≤ n) && decide (n < 2 ^ 63)
  | .varint, .int _ => true
  | _, _ => false

/-- A table with one partition column. -/
structure Table where
  columns : List (Name × CType)
  partition : Name
  clustering : List Name

abbrev Schema : Type := List (Name × Table)

abbrev Row : Type := Name → Option Value

/-- The rows of the tables by their primary keys. -/
abbrev Db : Type := Name → List Value → Option Row

namespace Table

variable (t : Table)

def keys : List Name := t.partition :: t.clustering

/-- The columns exist and no column is named twice; the constants have their types. -/
def admits (eqs : List (Name × Value)) : Bool :=
  eqs.all (fun e => (t.columns.lookup e.1).any fun ty => ty.fits e.2)
    && decide (eqs.map (·.1)).Nodup

/-- The primary key in a list of equations.  The partition key must not be empty. -/
def key? (eqs : List (Name × Value)) : Option (List Value) :=
  match t.keys.mapM fun c => eqs.lookup c with
  | some (.text [] :: _) => none
  | some key => some key
  | none => none

/-- The equations of a `WHERE` that gives the whole primary key, and nothing else. -/
def whereKey? (eqs : List (Name × Value)) : Option (List Value) :=
  if t.admits eqs && eqs.all fun e => t.keys.contains e.1 then t.key? eqs else none

end Table

namespace Db

/-- The row of a key is replaced. -/
def set (db : Db) (table : Name) (key : List Value) (row : Option Row) : Db :=
  fun t k => if t = table ∧ k = key then row else db t k

/-- The columns named are written, and the row is there then. -/
def upsert (db : Db) (table : Name) (key : List Value) (eqs : List (Name × Value)) : Db :=
  db.set table key (some fun c => eqs.lookup c <|> (db table key).bind fun row => row c)

@[simp] theorem set_same (db : Db) (table : Name) (key : List Value) (row : Option Row) :
    db.set table key row table key = row := if_pos ⟨rfl, rfl⟩

theorem set_of_table_ne {db : Db} {table t : Name} (h : t ≠ table) (key k : List Value)
    (row : Option Row) : db.set table key row t k = db t k := if_neg fun h' => h h'.1

theorem set_of_key_ne {db : Db} {key k : List Value} (h : k ≠ key) (table t : Name)
    (row : Option Row) : db.set table key row t k = db t k := if_neg fun h' => h h'.2

theorem isSome_set (db : Db) (table : Name) (key k : List Value) (row : Option Row) :
    (db.set table key row table k).isSome =
      if k = key then row.isSome else (db table k).isSome := by
  by_cases hk : k = key
  · rw [hk, set_same, if_pos rfl]
  · rw [set_of_key_ne hk, if_neg hk]

/-- Two writes of one row are one. -/
theorem upsert_upsert (db : Db) (table : Name) (key : List Value) (eqs eqs' : List (Name × Value)) :
    (db.upsert table key eqs).upsert table key eqs' = db.upsert table key (eqs' ++ eqs) := by
  funext t k
  by_cases h : t = table ∧ k = key
  · obtain ⟨rfl, rfl⟩ := h
    rw [upsert, upsert, upsert, set_same, set_same, set_same]
    refine congrArg some (funext fun c => ?_)
    rw [Option.bind_some, List.lookup_append]
    cases eqs'.lookup c with
    | none => rfl
    | some v => rfl
  · exact (if_neg h).trans ((if_neg h).trans (if_neg h).symm)

/-- What counts is which value each column gets. -/
theorem upsert_congr {eqs eqs' : List (Name × Value)} (h : ∀ c, eqs.lookup c = eqs'.lookup c)
    (db : Db) (table : Name) (key : List Value) :
    db.upsert table key eqs = db.upsert table key eqs' := by
  have hrow : (fun c => eqs.lookup c <|> (db table key).bind fun row => row c) =
      fun c => eqs'.lookup c <|> (db table key).bind fun row => row c := funext fun c => by rw [h c]
  rw [upsert, upsert, hrow]

/-- A write under a condition. -/
def upsertIf (c : Prop) [Decidable c] (db : Db) (table : Name) (key : List Value)
    (eqs : List (Name × Value)) : Db :=
  if c then db.upsert table key eqs else db

section UpsertIf

variable {c : Prop} [Decidable c] {db : Db} {table t : Name} {key k : List Value}
  {eqs : List (Name × Value)}

theorem upsertIf_of_table_ne (h : t ≠ table) : db.upsertIf c table key eqs t k = db t k := by
  unfold upsertIf
  split
  case isTrue => exact set_of_table_ne h _ _ _
  case isFalse => rfl

theorem isSome_upsertIf :
    (db.upsertIf c table key eqs table k).isSome ↔ (c ∧ k = key) ∨ (db table k).isSome := by
  unfold upsertIf
  split
  case isTrue hc =>
    rw [and_iff_right hc]
    by_cases hk : k = key
    · simp [hk, upsert]
    · rw [upsert, set_of_key_ne hk]
      exact ⟨Or.inr, fun h => h.resolve_left hk⟩
  case isFalse hc => exact ⟨Or.inr, fun h => h.resolve_left fun h' => hc h'.1⟩

end UpsertIf

end Db

/-- A statement: the tables after it and the row that it yields, or `none` if it is rejected. -/
def exec (S : Schema) (db : Db) : Stmt → Option (Db × Option Row)
  | .insert table cols vals => do
    let t ← S.lookup table
    if cols.length = vals.length ∧ t.admits (cols.zip vals) then
      let key ← t.key? (cols.zip vals)
      return (db.upsert table key (cols.zip vals), none)
    else none
  | .update table sets wheres => do
    let t ← S.lookup table
    let key ← t.whereKey? wheres
    if t.admits sets && sets.all fun e => !t.keys.contains e.1 then
      return (db.upsert table key (sets ++ wheres), none)
    else none
  | .delete table wheres => do
    let t ← S.lookup table
    let key ← t.whereKey? wheres
    return (db.set table key none, none)
  | .select table cols wheres => do
    let t ← S.lookup table
    let key ← t.whereKey? wheres
    match cols with
    | none => return (db, db table key)
    | some cols =>
      if cols.all fun c => (t.columns.lookup c).isSome then
        return (db, (db table key).map fun row c => if cols.contains c then row c else none)
      else none

/-- The text of a statement, up to its first NUL.  Of a text outside of the part, `none` says nothing. -/
def execute (S : Schema) (keyspace : Name) (db : Db) (text : String) : Option (Db × Option Row) := do
  let toks ← lex (text.toList.takeWhile (· ≠ '\x00'))
  let stmt ← parse keyspace toks
  exec S db stmt

/-! ### Statements that are accepted -/

section Exec

variable {S : Schema} {db : Db} {table : Name} {t : Table} {r : Db × Option Row}

/-- The columns exist, and the constants have their types. -/
theorem admits_zip {cols : List Name} {vals : List Value} {tys : List CType}
    (htys : cols.map (fun c => t.columns.lookup c) = tys.map some) (hnodup : cols.Nodup)
    (hlen : cols.length = vals.length) :
    t.admits (cols.zip vals) = true ↔ List.Forall₂ (fun ty v => CType.fits ty v = true) tys vals := by
  have hcols : (cols.zip vals).map (·.1) = cols := List.map_fst_zip (Nat.le_of_eq hlen)
  rw [Table.admits, hcols, decide_eq_true hnodup, Bool.and_true]
  clear hcols hnodup
  induction cols generalizing vals tys with
  | nil =>
    cases vals with
    | nil =>
      cases tys with
      | nil => simp
      | cons => exact absurd htys nofun
    | cons => exact absurd hlen nofun
  | cons c cols ih =>
    cases vals with
    | nil => exact absurd hlen nofun
    | cons v vals =>
      cases tys with
      | nil => exact absurd htys nofun
      | cons ty tys =>
        rw [List.map_cons, List.map_cons, List.cons.injEq] at htys
        rw [List.zip_cons_cons, List.all_cons, Bool.and_eq_true, List.forall₂_cons, htys.1]
        exact and_congr_right fun _ => ih htys.2 (Nat.succ.inj hlen)

/-- A partition key that is a text. -/
theorem key?_text {eqs : List (Name × Value)} {s : List Char} {ks : List Value}
    (h : (t.keys.mapM fun c => eqs.lookup c) = some (.text s :: ks)) {key : List Value} :
    t.key? eqs = some key ↔ s ≠ [] ∧ .text s :: ks = key := by
  rw [Table.key?, h]
  cases s with
  | nil => exact ⟨nofun, fun h => absurd rfl h.1⟩
  | cons c s => exact ⟨fun h => ⟨nofun, Option.some.inj h⟩, fun h => congrArg some h.2⟩

/-- A partition key that is a number. -/
theorem key?_int {eqs : List (Name × Value)} {n : Int} {ks : List Value}
    (h : (t.keys.mapM fun c => eqs.lookup c) = some (.int n :: ks)) {key : List Value} :
    t.key? eqs = some key ↔ .int n :: ks = key := by
  rw [Table.key?, h]
  exact ⟨Option.some.inj, congrArg some⟩

/-- A `WHERE` that names the columns of the primary key. -/
theorem whereKey?_zip {cols : List Name} {vals : List Value} {tys : List CType}
    (htys : cols.map (fun c => t.columns.lookup c) = tys.map some) (hnodup : cols.Nodup)
    (hlen : cols.length = vals.length) (hkeys : ∀ c ∈ cols, t.keys.contains c = true)
    {key : List Value} :
    t.whereKey? (cols.zip vals) = some key ↔
      List.Forall₂ (fun ty v => CType.fits ty v = true) tys vals ∧
        t.key? (cols.zip vals) = some key := by
  have hall : ((cols.zip vals).all fun e => t.keys.contains e.1) = true := by
    refine List.all_eq_true.mpr fun e he => hkeys e.1 (List.of_mem_zip he).1
  rw [Table.whereKey?, hall, Bool.and_true, ← admits_zip htys hnodup hlen]
  split
  case isTrue ha => exact ⟨fun h => ⟨ha, h⟩, fun h => h.2⟩
  case isFalse ha => exact ⟨nofun, fun h => absurd h.1 ha⟩

theorem exec_insert (ht : S.lookup table = some t) {cols : List Name} {vals : List Value}
    (hlen : cols.length = vals.length) :
    exec S db (.insert table cols vals) = some r ↔
      t.admits (cols.zip vals) = true ∧
        ∃ key, t.key? (cols.zip vals) = some key ∧ (db.upsert table key (cols.zip vals), none) = r := by
  simp only [exec, ht, bind, Option.bind_some, hlen, true_and]
  split
  case isTrue ha => simp [ha, pure, Option.bind_eq_some_iff]
  case isFalse ha => simp [ha]

theorem exec_delete (ht : S.lookup table = some t) {wheres : List (Name × Value)} :
    exec S db (.delete table wheres) = some r ↔
      ∃ key, t.whereKey? wheres = some key ∧ (db.set table key none, none) = r := by
  simp [exec, ht, pure, Option.bind_eq_some_iff]

theorem exec_select_all (ht : S.lookup table = some t) {wheres : List (Name × Value)} :
    exec S db (.select table none wheres) = some r ↔
      ∃ key, t.whereKey? wheres = some key ∧ (db, db table key) = r := by
  simp [exec, ht, pure, Option.bind_eq_some_iff]

end Exec

/-! ### Types -/

/-- The columns of a row exist and hold constants of their types. -/
def Table.Holds (t : Table) (row : Row) : Prop :=
  ∀ c v, row c = some v → ∃ ty, t.columns.lookup c = some ty ∧ CType.fits ty v = true

/-- The rows of the tables hold constants of their types. -/
def Typed (S : Schema) (db : Db) : Prop :=
  ∀ table t key row, S.lookup table = some t → db table key = some row → t.Holds row

section Typed

variable {S : Schema} {db db' : Db} {table : Name} {t : Table} {key : List Value}
  {eqs : List (Name × Value)}

theorem mem_of_lookup {c : Name} {v : Value} (h : eqs.lookup c = some v) : (c, v) ∈ eqs := by
  obtain ⟨l₁, l₂, rfl, -⟩ := List.lookup_eq_some_iff.mp h
  exact List.mem_append_right _ List.mem_cons_self

theorem holds_of_admits (h : t.admits eqs = true) {c : Name} {v : Value} (hv : (c, v) ∈ eqs) :
    ∃ ty, t.columns.lookup c = some ty ∧ CType.fits ty v = true := by
  have hfits := List.all_eq_true.mp (Bool.and_eq_true_iff.mp h).1 (c, v) hv
  obtain ⟨ty, hty, hv⟩ := (Option.any_eq_true _ _).mp hfits
  exact ⟨ty, hty, hv⟩

theorem Typed.set (h : Typed S db) {row : Option Row}
    (hrow : ∀ t row', S.lookup table = some t → row = some row' → t.Holds row') :
    Typed S (db.set table key row) := by
  intro table' t' key' row' ht' hrow'
  by_cases hk : table' = table ∧ key' = key
  · rw [Db.set, if_pos hk] at hrow'
    exact hrow t' row' (hk.1 ▸ ht') hrow'
  · rw [Db.set, if_neg hk] at hrow'
    exact h table' t' key' row' ht' hrow'

theorem Typed.upsert (h : Typed S db) (ht : S.lookup table = some t)
    (heqs : ∀ e ∈ eqs, ∃ ty, t.columns.lookup e.1 = some ty ∧ CType.fits ty e.2 = true) :
    Typed S (db.upsert table key eqs) := by
  refine h.set fun t' row' ht' hrow' c v hv => ?_
  obtain rfl : t = t' := Option.some.inj (ht.symm.trans ht')
  obtain rfl := Option.some.inj hrow'
  simp only [Option.orElse_eq_orElse, Option.orElse_eq_or, Option.or_eq_some_iff] at hv
  rcases hv with hv | ⟨-, hv⟩
  · exact heqs (c, v) (mem_of_lookup hv)
  · obtain ⟨row, hrow, hv⟩ := Option.bind_eq_some_iff.mp hv
    exact h table t key row ht hrow c v hv

/-- **A statement keeps the types.** -/
theorem Typed.exec (h : Typed S db) {stmt : Stmt} {r : Db × Option Row}
    (hr : Cql.exec S db stmt = some r) : Typed S r.1 := by
  cases stmt with
  | insert table cols vals =>
    obtain ⟨t, ht, hr⟩ := Option.bind_eq_some_iff.mp hr
    obtain ⟨hc, hr⟩ := Option.ite_none_right_eq_some.mp hr
    obtain ⟨key, -, hr⟩ := Option.bind_eq_some_iff.mp hr
    obtain rfl := Option.some.inj hr
    exact h.upsert ht fun e he => holds_of_admits hc.2 he
  | update table sets wheres =>
    obtain ⟨t, ht, hr⟩ := Option.bind_eq_some_iff.mp hr
    obtain ⟨key, hkey, hr⟩ := Option.bind_eq_some_iff.mp hr
    obtain ⟨hsets, hr⟩ := Option.ite_none_right_eq_some.mp hr
    obtain rfl := Option.some.inj hr
    have hwheres := (Bool.and_eq_true_iff.mp (Option.ite_none_right_eq_some.mp hkey).1).1
    refine h.upsert ht fun e he => ?_
    rcases List.mem_append.mp he with he | he
    · exact holds_of_admits (Bool.and_eq_true_iff.mp hsets).1 he
    · exact holds_of_admits hwheres he
  | delete table wheres =>
    obtain ⟨t, -, hr⟩ := Option.bind_eq_some_iff.mp hr
    obtain ⟨key, -, hr⟩ := Option.bind_eq_some_iff.mp hr
    obtain rfl := Option.some.inj hr
    exact h.set nofun
  | select table cols wheres =>
    obtain ⟨t, -, hr⟩ := Option.bind_eq_some_iff.mp hr
    obtain ⟨key, -, hr⟩ := Option.bind_eq_some_iff.mp hr
    cases cols with
    | none =>
      obtain rfl := Option.some.inj hr
      exact h
    | some cols =>
      obtain ⟨-, hr⟩ := Option.ite_none_right_eq_some.mp hr
      obtain rfl := Option.some.inj hr
      exact h

/-- **A text keeps the types**, whatever it is. -/
theorem Typed.execute (h : Typed S db) {keyspace : Name} {text : String} {r : Db × Option Row}
    (hr : Cql.execute S keyspace db text = some r) : Typed S r.1 := by
  obtain ⟨toks, -, hr⟩ := Option.bind_eq_some_iff.mp hr
  obtain ⟨stmt, -, hr⟩ := Option.bind_eq_some_iff.mp hr
  exact h.exec hr

end Typed

/-! ### Reading a text piece by piece -/

theorem scan_append {m m' : Mode} {ts : List Tok} {a b : List Char}
    (h : scan m a = some (m', ts)) :
    scan m (a ++ b) = (scan m' b).map fun r => (r.1, ts ++ r.2) := by
  induction a generalizing m ts with
  | nil =>
    obtain ⟨rfl, rfl⟩ := Prod.mk.inj (Option.some.inj h)
    simp
  | cons c a ih =>
    rw [scan] at h
    obtain ⟨r, hr, h⟩ := Option.bind_eq_some_iff.mp h
    obtain ⟨r', hr', he⟩ := Option.map_eq_some_iff.mp h
    obtain ⟨rfl, rfl⟩ := Prod.mk.inj he
    rw [List.cons_append, scan, hr, Option.bind_some, ih hr', Option.map_map]
    simp [Function.comp_def]

/-- Two pieces. -/
theorem scan_trans {m m₁ m₂ : Mode} {ts₁ ts₂ : List Tok} {a b : List Char}
    (h₁ : scan m a = some (m₁, ts₁)) (h₂ : scan m₁ b = some (m₂, ts₂)) :
    scan m (a ++ b) = some (m₂, ts₁ ++ ts₂) := by
  rw [scan_append h₁, h₂, Option.map_some]

/-- A text without quotes and without NUL. -/
def Plain (s : String) : Prop := ∀ c ∈ s.toList, c ≠ '\'' ∧ c ≠ '\x00'

-- not the instance for all characters
instance (s : String) : Decidable (Plain s) := List.decidableBAll _ s.toList

/-- **Inside quotes, a plain text stands for itself.** -/
theorem scan_plain {s : List Char} (h : ∀ c ∈ s, c ≠ '\'') (acc : List Char) :
    scan (.str acc) s = some (.str (acc ++ s), []) := by
  induction s generalizing acc with
  | nil => simp [scan]
  | cons c s ih =>
    have hc : c ≠ '\'' := h c List.mem_cons_self
    rw [scan, step, if_neg hc, Option.bind_some, ih fun c hc => h c (List.mem_cons_of_mem _ hc)]
    simp

/-- Digits after a digit. -/
theorem scan_digits {ds : List Char} (h : ∀ c ∈ ds, c.isDigit = true) (neg : Bool) (n : Nat) :
    scan (.num neg n) ds = some (.num neg (Nat.ofDigitChars 10 ds n), []) := by
  induction ds generalizing n with
  | nil => simp [scan]
  | cons c ds ih =>
    have hc : c.isDigit = true := h c List.mem_cons_self
    rw [scan, step, if_pos hc, Option.bind_some, ih fun c hc => h c (List.mem_cons_of_mem _ hc),
      Nat.ofDigitChars_cons]
    rfl

theorem start_digit {c : Char} (h : c.isDigit = true) :
    start c = some (.num false (digit c), []) := by
  have hspace : c ≠ ' ' := by rintro rfl; exact absurd h (by decide)
  have hquote : c ≠ '\'' := by rintro rfl; exact absurd h (by decide)
  have halpha : isWordStart c = false := by
    simp only [Char.isDigit, Bool.and_eq_true, decide_eq_true_eq, UInt32.le_iff_toNat_le] at h
    have hletter : isWordStart c = (decide (c.val ≥ 'A'.val ∧ c.val ≤ 'Z'.val) ||
        (decide (c.val ≥ 'a'.val) && decide (c.val ≤ 'z'.val))) := rfl
    simp only [hletter, Bool.or_eq_false_iff, Bool.and_eq_false_iff, decide_eq_false_iff_not,
      UInt32.le_iff_toNat_le, ge_iff_le]
    have h9 : '9'.val.toNat = 57 := rfl
    have hA : 'A'.val.toNat = 65 := rfl
    have ha : 'a'.val.toNat = 97 := rfl
    omega
  rw [start, if_neg hspace, if_neg hquote, halpha, if_neg Bool.false_ne_true, if_pos h]

/-- A number in front of which stands its sign, or nothing. -/
theorem scan_toDigits {m : Mode} {neg : Bool}
    (hm : ∀ c : Char, c.isDigit = true → step m c = some (.num neg (digit c), [])) (n : Nat) :
    scan m (Nat.toDigits 10 n) = some (.num neg n, []) := by
  have hall : ∀ c ∈ Nat.toDigits 10 n, c.isDigit = true := fun c hc =>
    Nat.isDigit_of_mem_toDigits (by decide) (by decide) hc
  have hval := Nat.ofDigitChars_toDigits (b := 10) (n := n) (by decide) (by decide)
  cases hd : Nat.toDigits 10 n with
  | nil => exact absurd hd Nat.toDigits_ne_nil
  | cons c ds =>
    rw [hd] at hall hval
    rw [Nat.ofDigitChars_cons, Nat.mul_zero, Nat.zero_add] at hval
    rw [scan, hm c (hall c List.mem_cons_self), Option.bind_some,
      scan_digits (fun c hc => hall c (List.mem_cons_of_mem _ hc)), digit, hval]
    rfl

@[simp] theorem signed_natAbs (i : Int) : signed (decide (i < 0)) i.natAbs = i := by
  unfold signed
  split
  case isTrue h =>
    have := of_decide_eq_true h
    omega
  case isFalse h =>
    have : ¬ i < 0 := fun h' => h (decide_eq_true h')
    omega

/-! ### Texts with values put in -/

/-- A part of a text: a literal, a text that is put in, or a number. -/
inductive Part
  | lit (s : String)
  | str (s : String)
  | nat (n : Nat)
  | int (i : Int)

def Part.text : Part → String
  | .lit s => s
  | .str s => s
  | .nat n => toString n
  | .int i => toString i

/-- The parts written one after the other. -/
def render : List Part → String
  | [] => ""
  | p :: ps => ps.foldl (fun s q => s ++ q.text) p.text

/-- A part that is read as it is meant: a literal has no NUL, and a text that is put in is plain. -/
def Part.Sound : Part → Prop
  | .lit s => ∀ c ∈ s.toList, c ≠ '\x00'
  | .str s => Plain s
  | _ => True

theorem Part.sound_lit {s : String} (h : s.toList.all (· ≠ '\x00') = true) : (Part.lit s).Sound := by
  intro c hc
  exact of_decide_eq_true (List.all_eq_true.mp h c hc)

/-- What a part is meant to be read as. -/
def scanPart : Mode → Part → Option (Mode × List Tok)
  | m, .lit s => scan m s.toList
  | .str acc, .str s => some (.str (acc ++ s.toList), [])
  | .between, .nat n => some (.num false n, [])
  | .between, .int i => some (.num (decide (i < 0)) i.natAbs, [])
  | _, _ => none

def scanParts : Mode → List Part → Option (Mode × List Tok)
  | m, [] => some (m, [])
  | m, p :: ps => (scanPart m p).bind fun r => (scanParts r.1 ps).map fun r' => (r'.1, r.2 ++ r'.2)

def lexParts (ps : List Part) : Option (List Tok) :=
  (scanParts .between ps).bind fun r => (finish r.1).map (r.2 ++ ·)

theorem scan_nat (n : Nat) : scan .between (toString n).toList = some (.num false n, []) := by
  rw [Nat.toString_eq_repr, Nat.toList_repr]
  exact scan_toDigits (m := .between) (fun c hc => start_digit hc) n

theorem scan_int (i : Int) :
    scan .between (toString i).toList = some (.num (decide (i < 0)) i.natAbs, []) := by
  cases i with
  | ofNat n => exact scan_nat n
  | negSucc n =>
    have hneg : decide (Int.negSucc n < 0) = true := decide_eq_true (Int.negSucc_lt_zero n)
    have hdigits : scan .minus (Nat.repr (n + 1)).toList = some (.num true (n + 1), []) := by
      rw [Nat.toList_repr]
      exact scan_toDigits (fun c hc => by rw [step, if_pos hc]) (n + 1)
    have hminus : scan .between "-".toList = some (.minus, []) := rfl
    rw [hneg]
    exact (congrArg (scan .between) String.toList_append).trans (scan_trans hminus hdigits)

/-- **A sound part is read as it is meant.** -/
theorem scanPart_sound {p : Part} (h : p.Sound) {m : Mode} {r : Mode × List Tok}
    (hr : scanPart m p = some r) : scan m p.text.toList = some r := by
  cases p with
  | lit s => exact hr
  | str s =>
    cases m with
    | str acc => exact (scan_plain (fun c hc => (h c hc).1) acc).trans hr
    | _ => exact absurd hr nofun
  | nat n =>
    cases m with
    | between => exact (scan_nat n).trans hr
    | _ => exact absurd hr nofun
  | int i =>
    cases m with
    | between => exact (scan_int i).trans hr
    | _ => exact absurd hr nofun

/-- The characters of the digits of a number are not NUL. -/
theorem repr_noNul (n : Nat) : ∀ c ∈ (Nat.repr n).toList, c ≠ '\x00' := by
  intro c hc
  rw [Nat.toList_repr] at hc
  have hdigit := Nat.isDigit_of_mem_toDigits (b := 10) (by decide) (by decide) hc
  rintro rfl
  exact absurd hdigit (by decide)

theorem Part.Sound.noNul {p : Part} (h : p.Sound) : ∀ c ∈ p.text.toList, c ≠ '\x00' := by
  cases p with
  | lit s => exact h
  | str s => exact fun c hc => (h c hc).2
  | nat n => exact repr_noNul n
  | int i =>
    cases i with
    | ofNat n => exact repr_noNul n
    | negSucc n =>
      intro c hc
      have hc' : c ∈ ("-" ++ Nat.repr (n + 1)).toList := hc
      rw [String.toList_append] at hc'
      rcases List.mem_append.mp hc' with hc' | hc'
      · rintro rfl
        exact absurd hc' (by decide)
      · exact repr_noNul (n + 1) c hc'

/-- The characters of a rendered text. -/
theorem render_toList (ps : List Part) :
    (render ps).toList = ps.flatMap fun p => p.text.toList := by
  have hfold : ∀ (ps : List Part) (s : String),
      (ps.foldl (fun s q => s ++ q.text) s).toList = s.toList ++ ps.flatMap fun p => p.text.toList := by
    intro ps
    induction ps with
    | nil => intro s; simp
    | cons p ps ih => intro s; rw [List.foldl_cons, ih, String.toList_append]; simp
  cases ps with
  | nil => rfl
  | cons p ps => exact hfold ps p.text

theorem render_cons (p : Part) (ps : List Part) :
    render (p :: ps) = p.text ++ render ps := by
  refine String.toList_inj.mp ?_
  rw [String.toList_append, render_toList, render_toList, List.flatMap_cons]

theorem render_append (ps qs : List Part) : render (ps ++ qs) = render ps ++ render qs := by
  refine String.toList_inj.mp ?_
  rw [String.toList_append, render_toList, render_toList, render_toList, List.flatMap_append]

theorem scanParts_sound {ps : List Part} (h : ∀ p ∈ ps, p.Sound) {m : Mode}
    {r : Mode × List Tok} (hr : scanParts m ps = some r) :
    scan m (ps.flatMap fun p => p.text.toList) = some r := by
  induction ps generalizing m r with
  | nil => exact hr
  | cons p ps ih =>
    obtain ⟨r₁, h₁, hr⟩ := Option.bind_eq_some_iff.mp hr
    obtain ⟨r₂, h₂, rfl⟩ := Option.map_eq_some_iff.mp hr
    rw [List.flatMap_cons]
    exact scan_trans (scanPart_sound (h p List.mem_cons_self) h₁)
      (ih (fun p hp => h p (List.mem_cons_of_mem _ hp)) h₂)

/-- A text that begins with sound parts. -/
theorem execute_append {S : Schema} {keyspace : Name} (parts : List Part)
    (h : ∀ p ∈ parts, p.Sound) {r : Mode × List Tok} (hr : scanParts .between parts = some r)
    (db : Db) (tail : String) :
    execute S keyspace db (render parts ++ tail) =
      ((scan r.1 (tail.toList.takeWhile (· ≠ '\x00'))).bind fun r' =>
        (finish r'.1).map (r.2 ++ r'.2 ++ ·)).bind fun toks =>
          (parse keyspace toks).bind (exec S db) := by
  have hnul : ∀ c ∈ (render parts).toList, decide (c ≠ '\x00') = true := by
    intro c hc
    rw [render_toList] at hc
    obtain ⟨p, hp, hc⟩ := List.mem_flatMap.mp hc
    exact decide_eq_true ((h p hp).noNul c hc)
  have hscan : scan .between (render parts).toList = some r := by
    rw [render_toList]
    exact scanParts_sound h hr
  rw [execute, String.toList_append, List.takeWhile_append_of_pos hnul, lex, scan_append hscan]
  cases scan r.1 (tail.toList.takeWhile (· ≠ '\x00')) with
  | none => rfl
  | some r' => rfl

end Cql
