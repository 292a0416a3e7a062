import OpenairHss.Epc.Names
import OpenairHss.Epc.NodeSelector

/-!
# The selectors of the nodes

`MMENodeSelector`, `PGWNodeSelector` and `SGWNodeSelector`.  A constructor sets the service that is
asked for and the name that is looked up, and the protocols and the usage types that are asked for are
added afterwards.
-/

namespace OpenairHss.Epc

open Dns

inductive PGWAppProtocolEnum
  | gn
  | gp
  | s2aGtp
  | s2aMipv4
  | s2aPmip
  | s2bGtp
  | s2bPmip
  | s2cDsmip
  | s5Gtp
  | s5Pmip
  | s8Gtp
  | s8Pmip

inductive SGWAppProtocolEnum
  | s11
  | s12
  | s1U
  | s2aPmip
  | s2bPmip
  | s4
  | s5Gtp
  | s5Pmip
  | s8Gtp
  | s8Pmip

inductive MMEAppProtocolEnum
  | gn
  | gp
  | nq
  | s10
  | s11
  | s1Mme
  | s3
  | s6a
  | sv

/-- A protocol that one of the three selectors is asked for. -/
inductive NodeProtocol
  | pgw (proto : PGWAppProtocolEnum)
  | sgw (proto : SGWAppProtocolEnum)
  | mme (proto : MMEAppProtocolEnum)

/-- `Utility::getAppProtocol` for the protocols of a PGW. -/
def PGWAppProtocolEnum.getAppProtocol : PGWAppProtocolEnum → AppProtocolEnum
  | gn => .gn
  | gp => .gp
  | s2aGtp => .s2aGtp
  | s2aMipv4 => .s2aMipv4
  | s2aPmip => .s2aPmip
  | s2bGtp => .s2bGtp
  | s2bPmip => .s2bPmip
  | s2cDsmip => .s2cDsmip
  | s5Gtp => .s5Gtp
  | s5Pmip => .s5Pmip
  | s8Gtp => .s8Gtp
  | s8Pmip => .s8Pmip

/-- `Utility::getAppProtocol` for the protocols of an SGW. -/
def SGWAppProtocolEnum.getAppProtocol : SGWAppProtocolEnum → AppProtocolEnum
  | s11 => .s11
  | s12 => .s12
  | s1U => .s1U
  | s2aPmip => .s2aPmip
  | s2bPmip => .s2bPmip
  | s4 => .s4
  | s5Gtp => .s5Gtp
  | s5Pmip => .s5Pmip
  | s8Gtp => .s8Gtp
  | s8Pmip => .s8Pmip

/-- `Utility::getAppProtocol` for the protocols of an MME. -/
def MMEAppProtocolEnum.getAppProtocol : MMEAppProtocolEnum → AppProtocolEnum
  | gn => .gn
  | gp => .gp
  | nq => .nq
  | s10 => .s10
  | s11 => .s11
  | s1Mme => .s1Mme
  | s3 => .s3
  | s6a => .s6a
  | sv => .sv

def NodeProtocol.getAppProtocol : NodeProtocol → AppProtocolEnum
  | pgw proto => proto.getAppProtocol
  | sgw proto => proto.getAppProtocol
  | mme proto => proto.getAppProtocol

/-- A digit of `%x`. -/
def hexDigit (d : UInt8) : UInt8 := if d < 10 then 0x30 + d else 0x57 + d

/-- `sprintf` with `%02x`. -/
def hexOctet (b : UInt8) : Octets := [hexDigit (highNibble b), hexDigit (lowNibble b)]

/-- The constructors of the selectors, with their arguments. -/
inductive Selector
  | mme (mmec mmegi mnc mcc : Octets)
  | mmePlmnid (mmec mmegi : Octets) (plmnid : Plmnid)
  | mmePool (mmegi mnc mcc : Octets)
  | mmePoolPlmnid (mmegi : Octets) (plmnid : Plmnid)
  | pgw (apnoi mnc mcc : Octets)
  | pgwPlmnid (apnoi : Octets) (plmnid : Plmnid)
  | sgwTac (lb hb : UInt8) (mnc mcc : Octets)
  | sgwTacPlmnid (lb hb : UInt8) (plmnid : Plmnid)
  | sgwTai (lb hb mnc mcc : Octets)
  | sgwTaiPlmnid (lb hb : Octets) (plmnid : Plmnid)
  | sgwNode (node mnc mcc : Octets)
  | sgwNodePlmnid (node : Octets) (plmnid : Plmnid)

namespace Selector

/-- The argument of `setAppService`. -/
def service : Selector → AppServiceEnum
  | mme _ _ _ _ | mmePlmnid _ _ _ | mmePool _ _ _ | mmePoolPlmnid _ _ => .mme
  | pgw _ _ _ | pgwPlmnid _ _ => .pgw
  | sgwTac _ _ _ _ | sgwTacPlmnid _ _ _ | sgwTai _ _ _ _ | sgwTaiPlmnid _ _ _
  | sgwNode _ _ _ | sgwNodePlmnid _ _ => .sgw

/-- The name whose text is the argument of `setDomainName`. -/
def name : Selector → Fqdn
  | mme mmec mmegi mnc mcc => .mme mmec mmegi mnc mcc
  | mmePlmnid mmec mmegi plmnid => .withPlmnid plmnid (.mme mmec mmegi [] [])
  | mmePool mmegi mnc mcc => .mmePool mmegi mnc mcc
  | mmePoolPlmnid mmegi plmnid => .withPlmnid plmnid (.mmePool mmegi [] [])
  | pgw apnoi mnc mcc => .apnFqdn apnoi mnc mcc
  | pgwPlmnid apnoi plmnid => .withPlmnid plmnid (.apnFqdn apnoi [] [])
  | sgwTac lb hb mnc mcc => .tai (hexOctet lb) (hexOctet hb) mnc mcc
  | sgwTacPlmnid lb hb plmnid => .withPlmnid plmnid (.tai (hexOctet lb) (hexOctet hb) [] [])
  | sgwTai lb hb mnc mcc => .tai lb hb mnc mcc
  | sgwTaiPlmnid lb hb plmnid => .withPlmnid plmnid (.tai lb hb [] [])
  | sgwNode node mnc mcc => .epcNode node mnc mcc
  | sgwNodePlmnid node plmnid => .withPlmnid plmnid (.epcNode node [] [])

/-- The new selector. -/
def new (c : Selector) : NodeSelector where
  m_domain := c.name.text
  m_desiredService := c.service
  m_desiredProtocols := []
  m_desiredUsageTypes := []
  m_results := []

end Selector

/-- The object that `addDesiredProtocol` makes. -/
def NodeProtocol.desired (proto : NodeProtocol) : AppProtocol :=
  { AppProtocol.new with m_protocol := proto.getAppProtocol }

namespace NodeSelector

def addDesiredProtocol (s : NodeSelector) (proto : NodeProtocol) : NodeSelector :=
  { s with m_desiredProtocols := s.m_desiredProtocols ++ [proto.desired] }

def addDesiredUsageType (s : NodeSelector) (ut : Int) : NodeSelector :=
  { s with m_desiredUsageTypes := s.m_desiredUsageTypes ++ [ut] }

theorem foldl_addDesiredProtocol (protos : List NodeProtocol) (s : NodeSelector) :
    protos.foldl addDesiredProtocol s =
      { s with m_desiredProtocols := s.m_desiredProtocols ++ protos.map NodeProtocol.desired } := by
  induction protos generalizing s with
  | nil => simp
  | cons proto protos ih =>
    rw [List.foldl_cons, ih]
    simp [addDesiredProtocol]

theorem foldl_addDesiredUsageType (uts : List Int) (s : NodeSelector) :
    uts.foldl addDesiredUsageType s =
      { s with m_desiredUsageTypes := s.m_desiredUsageTypes ++ uts } := by
  induction uts generalizing s with
  | nil => simp
  | cons ut uts ih =>
    rw [List.foldl_cons, ih]
    simp [addDesiredUsageType]

end NodeSelector

/-- A selector with what it is asked for. -/
def Selector.request (c : Selector) (protos : List NodeProtocol) (uts : List Int) : NodeSelector :=
  uts.foldl NodeSelector.addDesiredUsageType (protos.foldl NodeSelector.addDesiredProtocol c.new)

section Request

variable (c : Selector) (protos : List NodeProtocol) (uts : List Int)

theorem Selector.request_eq :
    c.request protos uts = {
      m_domain := c.name.text
      m_desiredService := c.service
      m_desiredProtocols := protos.map NodeProtocol.desired
      m_desiredUsageTypes := uts
      m_results := [] } := by
  rw [request, NodeSelector.foldl_addDesiredUsageType, NodeSelector.foldl_addDesiredProtocol]
  rfl

theorem Selector.request_domain : (c.request protos uts).m_domain = c.name.text := by
  rw [request_eq]

theorem Selector.request_service : (c.request protos uts).m_desiredService = c.service := by
  rw [request_eq]

theorem Selector.request_results : (c.request protos uts).m_results = [] := by
  rw [request_eq]

end Request

end OpenairHss.Epc
