import OpenairHss.Epc.Service

/-!
# The domain names of the packet core

The names that `EPC::Utility` of `epc.cpp` builds for the networks, the nodes and the access points.
Each of them has a second form, which takes the codes of the network from a PLMN identity.

`Fqdn` is a name before it is written: which function builds it, and for which arguments.
-/

namespace OpenairHss.Epc

open Dns

/-! ### PLMN identities -/

/-- The three octets of `plmnid`. -/
structure Plmnid where
  octet1 : UInt8
  octet2 : UInt8
  octet3 : UInt8
deriving DecidableEq

def lowNibble (a : UInt8) : UInt8 := a &&& 0x0f

def highNibble (a : UInt8) : UInt8 := (a &&& 0xf0) >>> 4

/-- `PARSE_MNC`: a code of two digits gets a zero in front. -/
def parseMnc (b : Plmnid) : Octets :=
  if highNibble b.octet2 = 0x0f then [0x30, lowNibble b.octet3 + 0x30, highNibble b.octet3 + 0x30]
  else [lowNibble b.octet3 + 0x30, highNibble b.octet3 + 0x30, highNibble b.octet2 + 0x30]

def parseMcc (b : Plmnid) : Octets :=
  [lowNibble b.octet1 + 0x30, highNibble b.octet1 + 0x30, lowNibble b.octet2 + 0x30]

/-! ### The names -/

def appendMnc (s mnc : Octets) : Octets := s ++ octets "mnc" ++ mnc ++ octets "."

def appendMcc (s mcc : Octets) : Octets := s ++ octets "mcc" ++ mcc ++ octets "."

def append3gppNetwork (s : Octets) : Octets := s ++ octets "3gppnetwork.org"

/-- The end that most of the names have. -/
def appendNetwork (s mnc mcc : Octets) : Octets := append3gppNetwork (appendMcc (appendMnc s mnc) mcc)

/-- The end of the public names. -/
def appendPublic (s mnc mcc : Octets) : Octets :=
  append3gppNetwork (appendMcc (appendMnc s mnc) mcc ++ octets "pub.")

/-- The end of the names of a country. -/
def appendVisited (s mcc : Octets) : Octets :=
  append3gppNetwork (appendMcc s mcc ++ octets "visited-country.pub.")

def homeNetwork (mnc mcc : Octets) : Octets := appendNetwork [] mnc mcc

def homeNetworkGprs (mnc mcc : Octets) : Octets := appendMcc (appendMnc [] mnc) mcc ++ octets "gprs"

def taiFqdn (lb hb mnc mcc : Octets) : Octets :=
  appendNetwork (octets "tac-lb" ++ lb ++ octets ".tac-hb" ++ hb ++ octets ".tac.epc.") mnc mcc

def mmeFqdn (mmec mmegi mnc mcc : Octets) : Octets :=
  appendNetwork (octets "mmec" ++ mmec ++ octets ".mmegi" ++ mmegi ++ octets ".mme.epc.") mnc mcc

def mmePoolFqdn (mmegi mnc mcc : Octets) : Octets :=
  appendNetwork (octets "mmegi" ++ mmegi ++ octets ".mme.epc.") mnc mcc

def raiFqdn (rac lac mnc mcc : Octets) : Octets :=
  appendNetwork (octets "rac" ++ rac ++ octets ".lac" ++ lac ++ octets ".rac.epc.") mnc mcc

def rncFqdn (rnc mnc mcc : Octets) : Octets :=
  appendNetwork (octets "rnc" ++ rnc ++ octets ".rnc.epc.") mnc mcc

def sgsnFqdn (nri rac lac mnc mcc : Octets) : Octets :=
  appendNetwork (octets "nri" ++ nri ++ octets ".rac" ++ rac ++ octets ".lac" ++ lac ++
    octets ".rac.epc.") mnc mcc

def epcNodesDomainFqdn (mnc mcc : Octets) : Octets := appendNetwork (octets "node.epc.") mnc mcc

def epcNodeFqdn (node mnc mcc : Octets) : Octets :=
  appendNetwork (node ++ octets ".node.epc.") mnc mcc

def nonemergencyEpdgOiFqdn (mnc mcc : Octets) : Octets := appendPublic (octets "epdg.epc.") mnc mcc

/-- Of the public names this one has not "pub". -/
def nonemergencyEpdgTaiFqdn (lb hb mnc mcc : Octets) : Octets :=
  appendNetwork (octets "tac-lb" ++ lb ++ octets ".tac-hb" ++ hb ++ octets ".tac.epdg.epc.") mnc mcc

def nonemergencyEpdgLacFqdn (lac mnc mcc : Octets) : Octets :=
  appendPublic (octets "lac" ++ lac ++ octets ".epdg.epc.") mnc mcc

def nonemergencyEpdgVisitedcountryFqdn (mcc : Octets) : Octets :=
  appendVisited (octets "epdg.epc.") mcc

def emergencyEpdgOiFqdn (mnc mcc : Octets) : Octets := appendPublic (octets "sos.epdg.epc.") mnc mcc

def emergencyEpdgTaiFqdn (lb hb mnc mcc : Octets) : Octets :=
  appendPublic (octets "tac-lb" ++ lb ++ octets ".tac-hb" ++ hb ++ octets ".tac.sos.epdg.epc.") mnc mcc

def emergencyEpdgLacFqdn (lac mnc mcc : Octets) : Octets :=
  appendPublic (octets "lac" ++ lac ++ octets ".sos.epdg.epc.") mnc mcc

def emergencyEpdgVisitedcountryFqdn (mcc : Octets) : Octets :=
  appendVisited (octets "sos.epdg.epc.") mcc

def globalEnodebIdFqdn (enb mcc : Octets) : Octets :=
  appendVisited (octets "enb" ++ enb ++ octets ".enb.epc.") mcc

def localHomenetworkFqdn (lhn mcc : Octets) : Octets :=
  appendVisited (octets "lhn" ++ lhn ++ octets ".lhn.epc.") mcc

def epc (mnc mcc : Octets) : Octets := appendNetwork (octets "epc.") mnc mcc

def apnFqdn (apnoi mnc mcc : Octets) : Octets := appendNetwork (apnoi ++ octets ".apn.epc.") mnc mcc

def apn (apnoi mnc mcc : Octets) : Octets :=
  appendMcc (appendMnc (apnoi ++ octets ".apn.") mnc) mcc ++ octets "gprs"

def diameterFqdn (mnc mcc : Octets) : Octets := appendNetwork (octets "diameter.epc.") mnc mcc

/-- The names, with the functions that build them. -/
inductive Fqdn
  | homeNetwork (mnc mcc : Octets)
  | homeNetworkGprs (mnc mcc : Octets)
  | tai (lb hb mnc mcc : Octets)
  | mme (mmec mmegi mnc mcc : Octets)
  | mmePool (mmegi mnc mcc : Octets)
  | rai (rac lac mnc mcc : Octets)
  | rnc (rnc mnc mcc : Octets)
  | sgsn (nri rac lac mnc mcc : Octets)
  | epcNodesDomain (mnc mcc : Octets)
  | epcNode (node mnc mcc : Octets)
  | nonemergencyEpdgOi (mnc mcc : Octets)
  | nonemergencyEpdgTai (lb hb mnc mcc : Octets)
  | nonemergencyEpdgLac (lac mnc mcc : Octets)
  | nonemergencyEpdgVisitedcountry (mcc : Octets)
  | emergencyEpdgOi (mnc mcc : Octets)
  | emergencyEpdgTai (lb hb mnc mcc : Octets)
  | emergencyEpdgLac (lac mnc mcc : Octets)
  | emergencyEpdgVisitedcountry (mcc : Octets)
  | globalEnodebId (enb mcc : Octets)
  | localHomenetwork (lhn mcc : Octets)
  | epc (mnc mcc : Octets)
  | apnFqdn (apnoi mnc mcc : Octets)
  | apn (apnoi mnc mcc : Octets)
  | diameter (mnc mcc : Octets)
deriving DecidableEq

namespace Fqdn

/-- What the function returns. -/
def text : Fqdn → Octets
  | homeNetwork mnc mcc => Epc.homeNetwork mnc mcc
  | homeNetworkGprs mnc mcc => Epc.homeNetworkGprs mnc mcc
  | tai lb hb mnc mcc => taiFqdn lb hb mnc mcc
  | mme mmec mmegi mnc mcc => mmeFqdn mmec mmegi mnc mcc
  | mmePool mmegi mnc mcc => mmePoolFqdn mmegi mnc mcc
  | rai rac lac mnc mcc => raiFqdn rac lac mnc mcc
  | rnc id mnc mcc => rncFqdn id mnc mcc
  | sgsn nri rac lac mnc mcc => sgsnFqdn nri rac lac mnc mcc
  | epcNodesDomain mnc mcc => epcNodesDomainFqdn mnc mcc
  | epcNode node mnc mcc => epcNodeFqdn node mnc mcc
  | nonemergencyEpdgOi mnc mcc => nonemergencyEpdgOiFqdn mnc mcc
  | nonemergencyEpdgTai lb hb mnc mcc => nonemergencyEpdgTaiFqdn lb hb mnc mcc
  | nonemergencyEpdgLac lac mnc mcc => nonemergencyEpdgLacFqdn lac mnc mcc
  | nonemergencyEpdgVisitedcountry mcc => nonemergencyEpdgVisitedcountryFqdn mcc
  | emergencyEpdgOi mnc mcc => emergencyEpdgOiFqdn mnc mcc
  | emergencyEpdgTai lb hb mnc mcc => emergencyEpdgTaiFqdn lb hb mnc mcc
  | emergencyEpdgLac lac mnc mcc => emergencyEpdgLacFqdn lac mnc mcc
  | emergencyEpdgVisitedcountry mcc => emergencyEpdgVisitedcountryFqdn mcc
  | globalEnodebId enb mcc => globalEnodebIdFqdn enb mcc
  | localHomenetwork lhn mcc => localHomenetworkFqdn lhn mcc
  | epc mnc mcc => Epc.epc mnc mcc
  | apnFqdn apnoi mnc mcc => Epc.apnFqdn apnoi mnc mcc
  | apn apnoi mnc mcc => Epc.apn apnoi mnc mcc
  | diameter mnc mcc => diameterFqdn mnc mcc

/-- The overload that takes a PLMN identity: the codes are those of `plmnid`. -/
def withPlmnid (b : Plmnid) : Fqdn → Fqdn
  | homeNetwork _ _ => homeNetwork (parseMnc b) (parseMcc b)
  | homeNetworkGprs _ _ => homeNetworkGprs (parseMnc b) (parseMcc b)
  | tai lb hb _ _ => tai lb hb (parseMnc b) (parseMcc b)
  | mme mmec mmegi _ _ => mme mmec mmegi (parseMnc b) (parseMcc b)
  | mmePool mmegi _ _ => mmePool mmegi (parseMnc b) (parseMcc b)
  | rai rac lac _ _ => rai rac lac (parseMnc b) (parseMcc b)
  | rnc id _ _ => rnc id (parseMnc b) (parseMcc b)
  | sgsn nri rac lac _ _ => sgsn nri rac lac (parseMnc b) (parseMcc b)
  | epcNodesDomain _ _ => epcNodesDomain (parseMnc b) (parseMcc b)
  | epcNode node _ _ => epcNode node (parseMnc b) (parseMcc b)
  | nonemergencyEpdgOi _ _ => nonemergencyEpdgOi (parseMnc b) (parseMcc b)
  | nonemergencyEpdgTai lb hb _ _ => nonemergencyEpdgTai lb hb (parseMnc b) (parseMcc b)
  | nonemergencyEpdgLac lac _ _ => nonemergencyEpdgLac lac (parseMnc b) (parseMcc b)
  | nonemergencyEpdgVisitedcountry _ => nonemergencyEpdgVisitedcountry (parseMcc b)
  | emergencyEpdgOi _ _ => emergencyEpdgOi (parseMnc b) (parseMcc b)
  | emergencyEpdgTai lb hb _ _ => emergencyEpdgTai lb hb (parseMnc b) (parseMcc b)
  | emergencyEpdgLac lac _ _ => emergencyEpdgLac lac (parseMnc b) (parseMcc b)
  | emergencyEpdgVisitedcountry _ => emergencyEpdgVisitedcountry (parseMcc b)
  | globalEnodebId enb _ => globalEnodebId enb (parseMcc b)
  | localHomenetwork lhn _ => localHomenetwork lhn (parseMcc b)
  | epc _ _ => epc (parseMnc b) (parseMcc b)
  | apnFqdn apnoi _ _ => apnFqdn apnoi (parseMnc b) (parseMcc b)
  | apn apnoi _ _ => apn apnoi (parseMnc b) (parseMcc b)
  | diameter _ _ => diameter (parseMnc b) (parseMcc b)

end Fqdn

example : (Fqdn.withPlmnid ⟨0x00, 0xf1, 0x10⟩ (.mme (octets "01") (octets "8001") [] [])).text =
    octets "mmec01.mmegi8001.mme.epc.mnc001.mcc001.3gppnetwork.org" := by decide

end OpenairHss.Epc
