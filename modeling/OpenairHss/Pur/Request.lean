import OpenairHss.DataAccess.Users

/-!
# The PUR

`PUURcmd::process`: an MME tells that it has purged a subscriber.  The subscriber is marked in
`users_imsi` before the origin of the request is compared with the MME at which it is registered.
-/

namespace OpenairHss.Pur

open Cql DataAccess Diameter Interact

/-! ### Data -/

structure Request where
  auth_session_state : Option (BitVec 32)
  user_name : Option String
  pur_flags : Option (BitVec 32)
  origin_host : Option String
  origin_realm : Option String

/-- What the uninitialised local variables hold: `u32`, and `id` of `getMmeIdentityFromImsi`. -/
structure Memory where
  u32 : BitVec 32
  id : Int

inductive PuaAvp
  | origin
  | authSessionState (u32 : BitVec 32)
  | puaFlags (u32 : Nat)
  | result (r : DiamResult)

def results (avps : List PuaAvp) : List DiamResult :=
  avps.filterMap fun
    | .result r => some r
    | _ => none

def purUePurgedInSgsn : BitVec 32 := 1#32 <<< 1

/-! ### The request -/

/-- The tables and the local variables when the loop is left. -/
structure Outcome where
  db : Db
  result_code : Nat
  experimental : Bool
  /-- PUA-Flags was added. -/
  flags : Bool

/-- The local variable `s` when Origin-Host and Origin-Realm are compared.  Without Origin-Realm it
still holds the host. -/
def originHost (pur : Request) : String := pur.origin_host.getD ""

def originRealm (pur : Request) : String := pur.origin_realm.getD (originHost pur)

/-- The comparison with the MME, after the subscriber was purged. -/
def compareMme (pur : Request) (mme_id : DAMmeIdentity) (db : Db) : Outcome :=
  if mme_id.mme_host ≠ originHost pur ∨ mme_id.mme_realm ≠ originRealm pur then
    ⟨db, diameterErrorUnknownServingNode, true, true⟩
  else ⟨db, erDiameterSuccess, false, true⟩

/-- The loop that is left at the first error; `none` is an exception. -/
def puurLoop (mem : Memory) (db : Db) (pur : Request) : Option Outcome :=
  let imsi := pur.user_name.getD ""
  if imsi.length > imsiLength then some ⟨db, erDiameterInvalidAvpValue, false, false⟩
  else if pur.pur_flags.any fun u32 => Ulr.flagIsSet u32 purUePurgedInSgsn then
    some ⟨db, erDiameterInvalidAvpValue, false, false⟩
  else do
    match ← getMmeIdentityFromImsi db imsi mem.id with
    | none => return ⟨db, diameterErrorUserUnknown, true, false⟩
    | some mme_id =>
      match ← purgeUE db imsi with
      | (db, false) => return ⟨db, diameterErrorUserUnknown, true, false⟩
      | (db, true) => return compareMme pur mme_id db

def pua (mem : Memory) (pur : Request) (o : Outcome) : List PuaAvp :=
  [.origin, .authSessionState (pur.auth_session_state.getD mem.u32)]
    ++ (if o.flags then [.puaFlags 1] else [])
    ++ [.result (if diameterErrorIsVendor o.result_code && o.experimental then
          .experimental o.result_code
        else .resultCode o.result_code)]

/-- `PUURcmd::process`: the tables after it and the answer, unless the database throws. -/
def puurProcess (mem : Memory) (db : Db) (pur : Request) : Option (Db × List PuaAvp) :=
  (puurLoop mem db pur).map fun o => (o.db, pua mem pur o)

/-- **Every answer to a PUR carries one result.** -/
theorem oneResult_puurProcess {mem : Memory} {db : Db} {pur : Request} {r : Db × List PuaAvp}
    (h : puurProcess mem db pur = some r) : OneResult (results r.2) := by
  obtain ⟨o, -, rfl⟩ := Option.map_eq_some_iff.mp h
  unfold pua
  cases o.flags <;> rfl

/-! ### Statement by statement -/

inductive Sql
  | select (text : String)
  | update (text : String)

def Sql.Res : Sql → Type
  | .select _ => Option Row
  | .update _ => Unit

/-- What a statement does to the tables. -/
def Sql.apply : (o : Sql) → Db → Option (o.Res × Db)
  | .select text, db => (dbExecute db text).map fun r => (r.2, db)
  | .update text, db => (dbExecute db text).map fun r => ((), r.1)

/-- A part of the loop: other requests may write between its statements. -/
abbrev Stmts : Type → Type := Prog Sql Sql.Res

def selectRow (text : String) : Stmts (Option Row) := Prog.perform (Sql.select text)
def runUpdate (text : String) : Stmts Unit := Prog.perform (Sql.update text)

def getMmeIdentityStmts (mme_id : Int) : Stmts (Option DAMmeIdentity) := do
  let row ← selectRow (getMmeIdentityText mme_id)
  return row.map fun row =>
    { mme_host := textColumn row "mmehost"
      mme_realm := textColumn row "mmerealm"
      mme_isdn := textColumn row "mmeisdn" }

def getMmeIdentityFromImsiStmts (imsi : String) (id : Int) : Stmts (Option DAMmeIdentity) := do
  match ← selectRow (getMmeIdentityFromImsiText imsi) with
  | none => return none
  | some row => getMmeIdentityStmts (intColumnOr id row "mmeidentity_idmmeidentity")

def purgeUEStmts (imsi : String) : Stmts Bool :=
  if imsi = "" then return false
  else do
    runUpdate (purgeUEText imsi)
    return true

/-- What the loop is left with, apart from the tables. -/
structure Verdict where
  result_code : Nat
  experimental : Bool
  flags : Bool

def compareMmeStmts (pur : Request) (mme_id : DAMmeIdentity) : Verdict :=
  if mme_id.mme_host ≠ originHost pur ∨ mme_id.mme_realm ≠ originRealm pur then
    ⟨diameterErrorUnknownServingNode, true, true⟩
  else ⟨erDiameterSuccess, false, true⟩

/-- The loop, statement by statement. -/
def puurStmts (mem : Memory) (pur : Request) : Stmts Verdict :=
  let imsi := pur.user_name.getD ""
  if imsi.length > imsiLength then return ⟨erDiameterInvalidAvpValue, false, false⟩
  else if pur.pur_flags.any fun u32 => Ulr.flagIsSet u32 purUePurgedInSgsn then
    return ⟨erDiameterInvalidAvpValue, false, false⟩
  else do
    match ← getMmeIdentityFromImsiStmts imsi mem.id with
    | none => return ⟨diameterErrorUserUnknown, true, false⟩
    | some mme_id =>
      match ← purgeUEStmts imsi with
      | false => return ⟨diameterErrorUserUnknown, true, false⟩
      | true => return compareMmeStmts pur mme_id

theorem exec_selectRow (text : String) (db : Db) :
    (selectRow text).exec Sql.apply db = (dbExecute db text).map fun r => (r.2, db) :=
  Prog.exec_perform _ _ _

theorem exec_runUpdate (text : String) (db : Db) :
    (runUpdate text).exec Sql.apply db = (dbExecute db text).map fun r => ((), r.1) :=
  Prog.exec_perform _ _ _

theorem exec_getMmeIdentityStmts (mme_id : Int) (db : Db) :
    (getMmeIdentityStmts mme_id).exec Sql.apply db = (getMmeIdentity db mme_id).map (·, db) := by
  unfold getMmeIdentityStmts getMmeIdentity
  rw [Prog.bind_eq, Prog.exec_bind, exec_selectRow]
  cases dbExecute db (getMmeIdentityText mme_id) <;> rfl

theorem exec_getMmeIdentityFromImsiStmts (imsi : String) (id : Int) (db : Db) :
    (getMmeIdentityFromImsiStmts imsi id).exec Sql.apply db =
      (getMmeIdentityFromImsi db imsi id).map (·, db) := by
  unfold getMmeIdentityFromImsiStmts getMmeIdentityFromImsi
  rw [Prog.bind_eq, Prog.exec_bind, exec_selectRow]
  cases dbExecute db (getMmeIdentityFromImsiText imsi) with
  | none => rfl
  | some r =>
    obtain ⟨db', row⟩ := r
    cases row with
    | none => rfl
    | some row => exact exec_getMmeIdentityStmts _ db

theorem exec_purgeUEStmts (imsi : String) (db : Db) :
    (purgeUEStmts imsi).exec Sql.apply db = (purgeUE db imsi).map fun r => (r.2, r.1) := by
  unfold purgeUEStmts purgeUE
  split
  · rfl
  · rw [Prog.bind_eq, Prog.exec_bind, exec_runUpdate]
    cases dbExecute db (purgeUEText imsi) <;> rfl

theorem compareMme_eq (pur : Request) (mme_id : DAMmeIdentity) (db : Db) :
    compareMme pur mme_id db =
      ⟨db, (compareMmeStmts pur mme_id).result_code, (compareMmeStmts pur mme_id).experimental,
        (compareMmeStmts pur mme_id).flags⟩ := by
  unfold compareMme compareMmeStmts
  split <;> rfl

/-- **The statements one after the other are the loop.** -/
theorem exec_puurStmts (mem : Memory) (db : Db) (pur : Request) :
    ((puurStmts mem pur).exec Sql.apply db).map (fun r =>
      ⟨r.2, r.1.result_code, r.1.experimental, r.1.flags⟩) = puurLoop mem db pur := by
  unfold puurStmts puurLoop
  dsimp only
  split
  · rfl
  split
  · rfl
  rw [Prog.bind_eq, Prog.exec_bind, exec_getMmeIdentityFromImsiStmts]
  cases getMmeIdentityFromImsi db (pur.user_name.getD "") mem.id with
  | none => rfl
  | some found =>
    cases found with
    | none => rfl
    | some mme_id =>
      simp only [Option.map_some, Option.bind_some, Prog.exec_bind, exec_purgeUEStmts,
        bind]
      cases purgeUE db (pur.user_name.getD "") with
      | none => rfl
      | some r =>
        obtain ⟨db', purged⟩ := r
        cases purged with
        | false => rfl
        | true => exact congrArg some (compareMme_eq pur mme_id db').symm

end OpenairHss.Pur
