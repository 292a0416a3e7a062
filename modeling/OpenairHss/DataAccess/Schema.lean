import OpenairHss.Lib.Cql

/-!
# The tables of the HSS

The tables of `oai_db.cql` that the modelled statements use, in the keyspace `vhss`, to which
`DataAccess::connect` connects.
-/

namespace OpenairHss.DataAccess

open Cql

def name (s : String) : Name := s.toList

def keyspace : Name := name "vhss"

def usersImsi : Table where
  columns := [(name "imsi", .text), (name "access_restriction", .int),
    (name "idmmeidentity", .int), (name "imei", .text), (name "imei_sv", .text),
    (name "key", .text), (name "lipa_permissions", .text), (name "mme_cap", .int),
    (name "mmehost", .text), (name "mmeidentity_idmmeidentity", .int), (name "mmerealm", .text),
    (name "ms_ps_status", .text), (name "msisdn", .bigint), (name "niddvalidity", .text),
    (name "nir_dest_host", .text), (name "nir_dest_realm", .text), (name "opc", .text),
    (name "pgw_id", .int), (name "rand", .text), (name "rfsp_index", .varint),
    (name "sqn", .bigint), (name "subscription_data", .text), (name "ue_reachability", .varint),
    (name "urrp_mme", .varint), (name "user_identifier", .text), (name "visited_plmnid", .text)]
  partition := name "imsi"
  clustering := []

def msisdnImsi : Table where
  columns := [(name "msisdn", .bigint), (name "imsi", .text)]
  partition := name "msisdn"
  clustering := []

def mmeidentityHost : Table where
  columns := [(name "mmehost", .text), (name "idmmeidentity", .int), (name "mmerealm", .text),
    (name "ue_reachability", .varint), (name "mmeisdn", .text)]
  partition := name "mmehost"
  clustering := []

def mmeidentity : Table where
  columns := [(name "idmmeidentity", .int), (name "mmehost", .text), (name "mmerealm", .text),
    (name "ue_reachability", .varint), (name "mmeisdn", .text)]
  partition := name "idmmeidentity"
  clustering := []

def events : Table where
  columns := [(name "scef_id", .text), (name "scef_ref_id", .bigint), (name "extid", .text),
    (name "monitoring_event_configuration", .text), (name "monitoring_type", .int),
    (name "msisdn", .bigint), (name "user_identifier", .text)]
  partition := name "scef_id"
  clustering := [name "scef_ref_id"]

def eventsMsisdn : Table where
  columns := [(name "msisdn", .bigint), (name "scef_id", .text), (name "scef_ref_id", .bigint)]
  partition := name "msisdn"
  clustering := [name "scef_id", name "scef_ref_id"]

def eventsExtid : Table where
  columns := [(name "extid", .text), (name "scef_id", .text), (name "scef_ref_id", .bigint)]
  partition := name "extid"
  clustering := [name "scef_id", name "scef_ref_id"]

def schema : Schema :=
  [(name "users_imsi", usersImsi), (name "msisdn_imsi", msisdnImsi),
    (name "mmeidentity_host", mmeidentityHost), (name "mmeidentity", mmeidentity),
    (name "events", events), (name "events_msisdn", eventsMsisdn),
    (name "events_extid", eventsExtid)]

/-- `m_db.execute`, and the first row of its result.  `none` is an error of the database where the texts
that were put in are plain; with a quote in them a statement may also be one that is not modelled. -/
def dbExecute (db : Db) (text : String) : Option (Db × Option Row) :=
  execute schema keyspace db text

/-- A column of type text; a null column leaves the target, an empty text, alone. -/
def textColumn (row : Row) (col : String) : String :=
  match row (name col) with
  | some (.text s) => String.ofList s
  | _ => ""

/-- A column with a number, for a target that holds `n`. -/
def intColumnOr (n : Int) (row : Row) (col : String) : Int :=
  match row (name col) with
  | some (.int n) => n
  | _ => n

/-- Statements one after the other, until one is rejected: the tables then, and whether all were
accepted. -/
def dbExecuteAll : List String → Db → Db × Bool
  | [], db => (db, true)
  | text :: texts, db => match dbExecute db text with
    | some (db', _) => dbExecuteAll texts db'
    | none => (db, false)

end OpenairHss.DataAccess
