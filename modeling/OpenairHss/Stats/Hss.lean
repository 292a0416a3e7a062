import OpenairHss.Diameter
import OpenairHss.Lib.Csv

/-!
# The statistics of the HSS

`StatsHss` has a `StatCollector` for each command.  A message that registers an attempt or a result
selects the collector by its `StatType`; `getSerializedStat` writes one row for each of them.
-/

namespace OpenairHss.Stats

open Diameter Csv

/-- The vendor and the code of a result. -/
abbrev Code := Nat × Nat

inductive StatType
  | ulr
  | air
  | pur
  | cir
  | nir
  | idr
  | rir
  | srr
  /-- The types of the other programs -/
  | other
deriving DecidableEq

inductive StatAttempType
  | sent
  | sentKo
  | received
  | receivedKo
deriving DecidableEq

structure StatCollector where
  m_attemps_sent : UInt32
  m_sent_ko : UInt32
  m_attemps_recv : UInt32
  m_recv_ko : UInt32
  m_unknownErrors : UInt32
  m_cumulativeCodes : Code → Option UInt32
  m_trackedCodes : List Code

namespace StatCollector

def new : StatCollector where
  m_attemps_sent := 0
  m_sent_ko := 0
  m_attemps_recv := 0
  m_recv_ko := 0
  m_unknownErrors := 0
  m_cumulativeCodes := fun _ => none
  m_trackedCodes := []

def registerCode (s : StatCollector) (aKey : Code) : StatCollector :=
  { s with
    m_trackedCodes := s.m_trackedCodes ++ [aKey]
    m_cumulativeCodes := Function.update s.m_cumulativeCodes aKey (some 0) }

def getNbCodesTracked (s : StatCollector) : Nat := s.m_trackedCodes.length

def addStat (s : StatCollector) (aKey : Code) : StatCollector :=
  match s.m_cumulativeCodes aKey with
  | some n => { s with
      m_cumulativeCodes := Function.update s.m_cumulativeCodes aKey (some (n + 1)) }
  | none => { s with m_unknownErrors := s.m_unknownErrors + 1 }

def addAttempt (s : StatCollector) : StatAttempType → StatCollector
  | .received => { s with m_attemps_recv := s.m_attemps_recv + 1 }
  | .receivedKo => { s with m_recv_ko := s.m_recv_ko + 1 }
  | .sent => { s with m_attemps_sent := s.m_attemps_sent + 1 }
  | .sentKo => { s with m_sent_ko := s.m_sent_ko + 1 }

/-- The count of a tracked code. -/
def getStatValue (s : StatCollector) (key : Code) : UInt32 := (s.m_cumulativeCodes key).getD 0

def serialize (s : StatCollector) (codeColumns : Nat) : String :=
  let res := toString s.m_attemps_sent.toNat ++ ","
  let res := res ++ toString s.m_sent_ko.toNat ++ ","
  let res := res ++ toString s.m_attemps_recv.toNat ++ ","
  let res := res ++ toString s.m_recv_ko.toNat ++ ","
  let res := s.m_trackedCodes.foldl
    (fun res val => res ++ (toString (s.getStatValue val).toNat ++ ",")) res
  let res := res ++ toString s.m_unknownErrors.toNat
  let extraColumns := codeColumns - s.m_trackedCodes.length
  (List.range extraColumns).foldl (fun res _ => res ++ ",") res

end StatCollector

structure StatsHss where
  m_ulr_collector : StatCollector
  m_air_collector : StatCollector
  m_pur_collector : StatCollector
  m_cir_collector : StatCollector
  m_nir_collector : StatCollector
  m_idr_collector : StatCollector
  m_rir_collector : StatCollector
  m_srr_collector : StatCollector
  m_max_codes_tracked : Nat

/-! ### The tracked codes -/

def ulrCodes : List Code :=
  [(0, erDiameterSuccess), (0, erDiameterInvalidAvpValue),
    (vendor3gpp, diameterErrorUserUnknown), (vendor3gpp, diameterErrorRatNotAllowed),
    (vendor3gpp, diameterErrorUnknownServingNode),
    (vendor3gpp, diameterErrorUnknownEpsSubscription)]

def airCodes : List Code :=
  [(0, erDiameterSuccess), (0, erDiameterInvalidAvpValue),
    (vendor3gpp, diameterErrorRatNotAllowed), (vendor3gpp, diameterErrorRoamingNotAllowed),
    (vendor3gpp, diameterAuthenticationDataUnavailable)]

def purCodes : List Code :=
  [(0, erDiameterSuccess), (0, erDiameterInvalidAvpValue),
    (vendor3gpp, diameterErrorUserUnknown), (vendor3gpp, diameterErrorUnknownServingNode)]

def cirCodes : List Code :=
  [(0, erDiameterSuccess), (vendor3gpp, diameterErrorUserUnknown)]

def nirCodes : List Code :=
  [(0, erDiameterSuccess), (vendor3gpp, diameterErrorUserUnknown),
    (vendor3gpp, diameterErrorUserNoApnSubscription)]

def idrCodes : List Code :=
  [(0, erDiameterSuccess), (vendor3gpp, diameterErrorUserUnknown)]

def rirCodes : List Code :=
  [(0, erDiameterSuccess), (0, erDiameterInvalidAvpValue),
    (vendor3gpp, diameterErrorUserUnknown)]

def srrCodes : List Code :=
  [(0, erDiameterSuccess), (0, erDiameterMissingAvp),
    (vendor3gpp, diameterErrorUserUnknown), (vendor3gpp, diameterErrorAbsentUser)]

/-- A collector that tracks the codes of a list. -/
def StatCollector.tracking (codes : List Code) : StatCollector :=
  codes.foldl StatCollector.registerCode StatCollector.new

namespace StatsHss

/-- The constructor.  The test of PUR sets the maximum to the number of AIR. -/
def new : StatsHss :=
  let m_ulr_collector := StatCollector.tracking ulrCodes
  let m_air_collector := StatCollector.tracking airCodes
  let m_pur_collector := StatCollector.tracking purCodes
  let m_cir_collector := StatCollector.tracking cirCodes
  let m_nir_collector := StatCollector.tracking nirCodes
  let m_idr_collector := StatCollector.tracking idrCodes
  let m_rir_collector := StatCollector.tracking rirCodes
  let m_srr_collector := StatCollector.tracking srrCodes
  let raise (m : Nat) (tested taken : StatCollector) : Nat :=
    if tested.getNbCodesTracked > m then taken.getNbCodesTracked else m
  let m := m_ulr_collector.getNbCodesTracked
  let m := raise m m_air_collector m_air_collector
  let m := raise m m_pur_collector m_air_collector
  let m := raise m m_cir_collector m_cir_collector
  let m := raise m m_nir_collector m_nir_collector
  let m := raise m m_idr_collector m_idr_collector
  let m := raise m m_rir_collector m_rir_collector
  { m_ulr_collector, m_air_collector, m_pur_collector, m_cir_collector, m_nir_collector
    m_idr_collector, m_rir_collector, m_srr_collector, m_max_codes_tracked := m }

def processStatAttemp (s : StatsHss) (type : StatType) (attempType : StatAttempType) : StatsHss :=
  match type with
  | .ulr => { s with m_ulr_collector := s.m_ulr_collector.addAttempt attempType }
  | .air => { s with m_air_collector := s.m_air_collector.addAttempt attempType }
  | .pur => { s with m_pur_collector := s.m_pur_collector.addAttempt attempType }
  | .cir => { s with m_cir_collector := s.m_cir_collector.addAttempt attempType }
  | .nir => { s with m_nir_collector := s.m_nir_collector.addAttempt attempType }
  | .idr => { s with m_idr_collector := s.m_idr_collector.addAttempt attempType }
  | .rir => { s with m_rir_collector := s.m_rir_collector.addAttempt attempType }
  | .srr => { s with m_srr_collector := s.m_srr_collector.addAttempt attempType }
  | .other => s

def processStatResult (s : StatsHss) (type : StatType) (code : Code) : StatsHss :=
  match type with
  | .ulr => { s with m_ulr_collector := s.m_ulr_collector.addStat code }
  | .air => { s with m_air_collector := s.m_air_collector.addStat code }
  | .pur => { s with m_pur_collector := s.m_pur_collector.addStat code }
  | .cir => { s with m_cir_collector := s.m_cir_collector.addStat code }
  | .nir => { s with m_nir_collector := s.m_nir_collector.addStat code }
  | .idr => { s with m_idr_collector := s.m_idr_collector.addStat code }
  | .rir => { s with m_rir_collector := s.m_rir_collector.addStat code }
  | .srr => { s with m_srr_collector := s.m_srr_collector.addStat code }
  | .other => s

/-- The lines of `getSerializedStat`; `now_str` is the time. -/
def rows (s : StatsHss) (now_str : String) : List String :=
  [now_str ++ ",S6A,AIR," ++ s.m_air_collector.serialize s.m_max_codes_tracked,
    now_str ++ ",S6A,ULR," ++ s.m_ulr_collector.serialize s.m_max_codes_tracked,
    now_str ++ ",S6A,PUR," ++ s.m_pur_collector.serialize s.m_max_codes_tracked,
    now_str ++ ",S6A,IDR," ++ s.m_idr_collector.serialize s.m_max_codes_tracked,
    now_str ++ ",S6T,CIR," ++ s.m_cir_collector.serialize s.m_max_codes_tracked,
    now_str ++ ",S6T,NIR," ++ s.m_nir_collector.serialize s.m_max_codes_tracked,
    now_str ++ ",S6T,RIR," ++ s.m_rir_collector.serialize s.m_max_codes_tracked,
    now_str ++ ",S6C,SRR," ++ s.m_rir_collector.serialize s.m_max_codes_tracked]

def getSerializedStat (s : StatsHss) (now_str : String) : String := "\n".intercalate (s.rows now_str)

end StatsHss

/-! ### What is registered -/

/-- What the extractor of an answer reads of its result. -/
structure Answer where
  result_code : Option Nat
  vendor_id : Option Nat
  experimental_result_code : Option Nat
deriving DecidableEq

/-- The result of an answer: a field that is missing leaves the variable at zero. -/
def Answer.code (ans : Answer) : Code :=
  match ans.result_code with
  | some code => (0, code)
  | none => (ans.vendor_id.getD 0, ans.experimental_result_code.getD 0)

inductive Event
  | attemp (type : StatType) (attempType : StatAttempType)
  | result (type : StatType) (code : Code)
  /-- `REIRreq::processAnswer` -/
  | ria (ans : Answer)
  /-- `IDRRreq::processAnswer` -/
  | ida (ans : Answer)

def StatsHss.process (s : StatsHss) : Event → StatsHss
  | .attemp type attempType => s.processStatAttemp type attempType
  | .result type code => s.processStatResult type code
  | .ria ans =>
    match ans.result_code with
    | some code => s.processStatResult .rir (0, code)
    | none => s.processStatResult .idr ans.code
  | .ida ans => s.processStatResult .idr ans.code

/-- The statistics after a run. -/
def StatsHss.run (log : List Event) : StatsHss := log.foldl StatsHss.process StatsHss.new

end OpenairHss.Stats
