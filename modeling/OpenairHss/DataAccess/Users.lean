import OpenairHss.DataAccess.Schema
import OpenairHss.Ulr.Processor

/-!
# Subscribers and MMEs in the tables

The functions of `DataAccess` that look up a subscriber or an MME and wait for the result, and
`purgeUE`.  `none` is an exception: the statement was rejected.
-/

namespace OpenairHss.DataAccess

open Cql

/-! ### Statements -/

def getImsiFromMsisdnText (msisdn : String) : String :=
  "SELECT imsi FROM msisdn_imsi WHERE msisdn = " ++ msisdn

def purgeUEText (imsi : String) : String :=
  "UPDATE vhss.users_imsi SET ms_ps_status='PURGED' WHERE imsi='" ++ imsi ++ "';"

def getMmeIdentityFromImsiText (imsi : String) : String :=
  "SELECT mmeidentity_idmmeidentity FROM vhss.users_imsi WHERE imsi = '" ++ imsi ++ "';"

def getMmeIdentityText (mme_id : Int) : String :=
  "SELECT mmehost,mmerealm,mmeisdn FROM vhss.mmeidentity WHERE idmmeidentity=" ++ toString mme_id
    ++ ";"

/-! ### Functions -/

/-- A number of a column that may be null. -/
def intColumn? (row : Row) (col : String) : Option Int :=
  match row (name col) with
  | some (.int n) => some n
  | _ => none

/-- A text of a column that may be null. -/
def textColumn? (row : Row) (col : String) : Option String :=
  match row (name col) with
  | some (.text s) => some (String.ofList s)
  | _ => none

/-- `getImsiFromMsisdn` with a text, into an empty string. -/
def getImsiFromMsisdn (db : Db) (msisdn : String) : Option (Option String) :=
  (dbExecute db (getImsiFromMsisdnText msisdn)).map fun r => r.2.map fun row => textColumn row "imsi"

/-- The columns that `getImsiInfo` selects. -/
def imsiInfoRow (row : Row) : Ulr.ImsiInfoRow where
  imsi := textColumn? row "imsi"
  mmehost := textColumn? row "mmehost"
  mmerealm := textColumn? row "mmerealm"
  ms_ps_status := textColumn? row "ms_ps_status"
  subscription_data := textColumn? row "subscription_data"
  msisdn := intColumn? row "msisdn"
  visited_plmnid := textColumn? row "visited_plmnid"
  access_restriction := (intColumn? row "access_restriction").map (BitVec.ofInt 32)
  mmeidentity_idmmeidentity := intColumn? row "mmeidentity_idmmeidentity"

/-- `getImsiInfo` without a callback, into `info`. -/
def getImsiInfo (db : Db) (imsi : String) (info : Ulr.ImsiInfo) : Option (Option Ulr.ImsiInfo) :=
  (dbExecute db (Ulr.getImsiInfoText imsi)).map fun r =>
    r.2.map fun row => Ulr.getImsiInfoData (imsiInfoRow row) info

structure DAMmeIdentity where
  mme_host : String
  mme_realm : String
  mme_isdn : String

/-- `getMmeIdentity`, into empty strings. -/
def getMmeIdentity (db : Db) (mme_id : Int) : Option (Option DAMmeIdentity) :=
  (dbExecute db (getMmeIdentityText mme_id)).map fun r => r.2.map fun row =>
    { mme_host := textColumn row "mmehost"
      mme_realm := textColumn row "mmerealm"
      mme_isdn := textColumn row "mmeisdn" }

/-- `getMmeIdentityFromImsi`; `id` is the content of the uninitialised local variable, which a null
column leaves alone. -/
def getMmeIdentityFromImsi (db : Db) (imsi : String) (id : Int) : Option (Option DAMmeIdentity) :=
  match dbExecute db (getMmeIdentityFromImsiText imsi) with
  | none => none
  | some (_, none) => some none
  | some (_, some row) => getMmeIdentity db (intColumnOr id row "mmeidentity_idmmeidentity")

def purgeUE (db : Db) (imsi : String) : Option (Db × Bool) :=
  if imsi = "" then some (db, false)
  else (dbExecute db (purgeUEText imsi)).map fun r => (r.1, true)

end OpenairHss.DataAccess
