import OpenairHss.Epc.Fqdn
import Mathlib.Tactic.Common

/-!
# A name tells what it was built for

* `ofLabels_labels`: from the labels of a name, read from the last one on, the function that has built
  it and its arguments are found.
* `text_eq_iff`: so two names are equal only if they were built for the same thing.
-/

namespace OpenairHss.Epc

open Dns

def dot : UInt8 := 0x2e

/-- The labels of a name. -/
def split (name : Octets) : List Octets := name.splitOn dot

/-- The name with these labels. -/
def join (labels : List Octets) : Octets := [dot].intercalate labels

namespace Fqdn

/-! ### Labels -/

/-- The labels at the end of the names of a network. -/
def networkLabels (mnc mcc : Octets) : List Octets :=
  [octets "mnc" ++ mnc, octets "mcc" ++ mcc, octets "3gppnetwork", octets "org"]

def publicLabels (mnc mcc : Octets) : List Octets :=
  [octets "mnc" ++ mnc, octets "mcc" ++ mcc, octets "pub", octets "3gppnetwork", octets "org"]

def visitedLabels (mcc : Octets) : List Octets :=
  [octets "mcc" ++ mcc, octets "visited-country", octets "pub", octets "3gppnetwork", octets "org"]

def gprsLabels (mnc mcc : Octets) : List Octets :=
  [octets "mnc" ++ mnc, octets "mcc" ++ mcc, octets "gprs"]

/-- The two labels of a tracking area code. -/
def tacLabels (lb hb : Octets) : List Octets := [octets "tac-lb" ++ lb, octets "tac-hb" ++ hb]

/-- The labels in front of which an argument of any form may stand. -/
def fixedLabels : Fqdn → List Octets
  | homeNetwork mnc mcc => networkLabels mnc mcc
  | homeNetworkGprs mnc mcc => gprsLabels mnc mcc
  | tai lb hb mnc mcc => tacLabels lb hb ++ octets "tac" :: octets "epc" :: networkLabels mnc mcc
  | mme mmec mmegi mnc mcc =>
    [octets "mmec" ++ mmec, octets "mmegi" ++ mmegi, octets "mme", octets "epc"] ++
      networkLabels mnc mcc
  | mmePool mmegi mnc mcc =>
    [octets "mmegi" ++ mmegi, octets "mme", octets "epc"] ++ networkLabels mnc mcc
  | rai rac lac mnc mcc =>
    [octets "rac" ++ rac, octets "lac" ++ lac, octets "rac", octets "epc"] ++ networkLabels mnc mcc
  | rnc id mnc mcc => [octets "rnc" ++ id, octets "rnc", octets "epc"] ++ networkLabels mnc mcc
  | sgsn nri rac lac mnc mcc =>
    [octets "nri" ++ nri, octets "rac" ++ rac, octets "lac" ++ lac, octets "rac", octets "epc"] ++
      networkLabels mnc mcc
  | epcNodesDomain mnc mcc | epcNode _ mnc mcc =>
    [octets "node", octets "epc"] ++ networkLabels mnc mcc
  | nonemergencyEpdgOi mnc mcc => [octets "epdg", octets "epc"] ++ publicLabels mnc mcc
  | nonemergencyEpdgTai lb hb mnc mcc =>
    tacLabels lb hb ++ octets "tac" :: octets "epdg" :: octets "epc" :: networkLabels mnc mcc
  | nonemergencyEpdgLac lac mnc mcc =>
    [octets "lac" ++ lac, octets "epdg", octets "epc"] ++ publicLabels mnc mcc
  | nonemergencyEpdgVisitedcountry mcc => [octets "epdg", octets "epc"] ++ visitedLabels mcc
  | emergencyEpdgOi mnc mcc =>
    [octets "sos", octets "epdg", octets "epc"] ++ publicLabels mnc mcc
  | emergencyEpdgTai lb hb mnc mcc =>
    tacLabels lb hb ++
      octets "tac" :: octets "sos" :: octets "epdg" :: octets "epc" :: publicLabels mnc mcc
  | emergencyEpdgLac lac mnc mcc =>
    [octets "lac" ++ lac, octets "sos", octets "epdg", octets "epc"] ++ publicLabels mnc mcc
  | emergencyEpdgVisitedcountry mcc =>
    [octets "sos", octets "epdg", octets "epc"] ++ visitedLabels mcc
  | globalEnodebId enb mcc => [octets "enb" ++ enb, octets "enb", octets "epc"] ++ visitedLabels mcc
  | localHomenetwork _ mcc => [octets "lhn", octets "epc"] ++ visitedLabels mcc
  | epc mnc mcc => octets "epc" :: networkLabels mnc mcc
  | apnFqdn _ mnc mcc => [octets "apn", octets "epc"] ++ networkLabels mnc mcc
  | apn _ mnc mcc => octets "apn" :: gprsLabels mnc mcc
  | diameter mnc mcc => [octets "diameter", octets "epc"] ++ networkLabels mnc mcc

/-- The argument that may have any number of labels. -/
def free : Fqdn → Option Octets
  | epcNode node _ _ => some node
  | localHomenetwork lhn _ => some (octets "lhn" ++ lhn)
  | apnFqdn apnoi _ _ | apn apnoi _ _ => some apnoi
  | _ => none

def labels (n : Fqdn) : List Octets := (n.free.elim [] split) ++ n.fixedLabels

/-- The arguments that are part of one label have no dot. -/
def Plain (n : Fqdn) : Prop := ∀ l ∈ n.fixedLabels, dot ∉ l

instance (n : Fqdn) : Decidable n.Plain := inferInstanceAs (Decidable (∀ l ∈ n.fixedLabels, _))

theorem fixedLabels_ne_nil (n : Fqdn) : n.fixedLabels ≠ [] := by
  cases n <;> exact List.cons_ne_nil _ _

/-- The name is its labels, with dots between. -/
theorem text_eq (n : Fqdn) :
    n.text = n.free.elim (join n.fixedLabels) fun f => f ++ dot :: join n.fixedLabels := by
  cases n <;>
    simp only [text, free, fixedLabels, Option.elim, Epc.homeNetwork, Epc.homeNetworkGprs, taiFqdn,
      mmeFqdn, mmePoolFqdn, raiFqdn, rncFqdn, sgsnFqdn, epcNodesDomainFqdn, epcNodeFqdn,
      nonemergencyEpdgOiFqdn, nonemergencyEpdgTaiFqdn, nonemergencyEpdgLacFqdn,
      nonemergencyEpdgVisitedcountryFqdn, emergencyEpdgOiFqdn, emergencyEpdgTaiFqdn,
      emergencyEpdgLacFqdn, emergencyEpdgVisitedcountryFqdn, globalEnodebIdFqdn,
      localHomenetworkFqdn, Epc.epc, Epc.apnFqdn, Epc.apn, diameterFqdn, appendNetwork, appendPublic,
      appendVisited, append3gppNetwork, appendMcc, appendMnc, networkLabels, publicLabels,
      visitedLabels, gprsLabels, tacLabels, join, List.intercalate_cons_cons,
      List.intercalate_singleton, List.cons_append, List.nil_append, List.append_assoc] <;>
    rfl

theorem split_text {n : Fqdn} (h : n.Plain) : split n.text = n.labels := by
  have hfixed : split (join n.fixedLabels) = n.fixedLabels :=
    List.splitOn_intercalate dot h n.fixedLabels_ne_nil
  rw [text_eq, labels]
  cases n.free with
  | none => exact hfixed
  | some f =>
    show (f ++ dot :: join n.fixedLabels).splitOn dot = split f ++ n.fixedLabels
    rw [List.splitOn_append_cons_self]
    exact congrArg (split f ++ ·) hfixed

/-! ### Reading the labels -/

/-- What stands in front of the labels of a network, from right to left. -/
def ofNetwork (mnc mcc : Octets) : List Octets → Option Fqdn
  | [] => some (homeNetwork mnc mcc)
  | [_] => some (epc mnc mcc)
  | _ :: kind :: rest =>
    if kind = octets "node" then
      some (if rest = [] then epcNodesDomain mnc mcc else epcNode (join rest.reverse) mnc mcc)
    else if kind = octets "apn" then some (apnFqdn (join rest.reverse) mnc mcc)
    else match rest with
      | [] => some (diameter mnc mcc)
      | [l] =>
        some (if kind = octets "mme" then mmePool (l.drop 5) mnc mcc else rnc (l.drop 3) mnc mcc)
      | [l, l'] =>
        if kind = octets "tac" then some (tai (l'.drop 6) (l.drop 6) mnc mcc)
        else if kind = octets "mme" then some (mme (l'.drop 4) (l.drop 5) mnc mcc)
        else some (rai (l'.drop 3) (l.drop 3) mnc mcc)
      | [l, l', l''] =>
        if kind = octets "epdg" then
          some (nonemergencyEpdgTai (l''.drop 6) (l'.drop 6) mnc mcc)
        else some (sgsn (l''.drop 3) (l'.drop 3) (l.drop 3) mnc mcc)
      | _ => none

/-- What stands in front of the labels of a public name. -/
def ofPublic (mnc mcc : Octets) : List Octets → Option Fqdn
  | [_, _] => some (nonemergencyEpdgOi mnc mcc)
  | [_, _, l] =>
    some (if l = octets "sos" then emergencyEpdgOi mnc mcc
      else nonemergencyEpdgLac (l.drop 3) mnc mcc)
  | [_, _, _, l] => some (emergencyEpdgLac (l.drop 3) mnc mcc)
  | [_, _, _, _, l, l'] => some (emergencyEpdgTai (l'.drop 6) (l.drop 6) mnc mcc)
  | _ => none

/-- What stands in front of the labels of a country. -/
def ofVisited (mcc : Octets) : List Octets → Option Fqdn
  | _ :: kind :: rest =>
    if kind = octets "lhn" then some (localHomenetwork ((join rest.reverse).drop 3) mcc)
    else match rest with
      | [] => some (nonemergencyEpdgVisitedcountry mcc)
      | l :: _ =>
        some (if kind = octets "enb" then globalEnodebId (l.drop 3) mcc
          else emergencyEpdgVisitedcountry mcc)
  | _ => none

/-- The name with these labels. -/
def ofLabels (ls : List Octets) : Option Fqdn :=
  match ls.reverse with
  | l :: l' :: l'' :: rest =>
    if l = octets "gprs" then
      some (match rest with
        | [] => homeNetworkGprs (l''.drop 3) (l'.drop 3)
        | _ :: rest => apn (join rest.reverse) (l''.drop 3) (l'.drop 3))
    else if l'' = octets "pub" then
      match rest with
      | mcc :: mnc :: rest =>
        if mcc = octets "visited-country" then ofVisited (mnc.drop 3) rest
        else ofPublic (mnc.drop 3) (mcc.drop 3) rest
      | _ => none
    else match rest with
      | mnc :: rest => ofNetwork (mnc.drop 3) (l''.drop 3) rest
      | [] => none
  | _ => none

theorem join_split (f : Octets) : join (split f).reverse.reverse = f := by
  rw [List.reverse_reverse]
  exact List.intercalate_splitOn dot

theorem reverse_split_ne_nil (f : Octets) : (split f).reverse ≠ [] := by
  intro h
  exact List.splitOn_ne_nil dot f (List.reverse_eq_nil_iff.mp h)

/-- **The labels of a name tell how it was built.** -/
theorem ofLabels_labels (n : Fqdn) : ofLabels n.labels = some n := by
  have hrev : n.labels.reverse = n.fixedLabels.reverse ++ (n.free.elim [] split).reverse :=
    List.reverse_append
  rw [ofLabels, hrev]
  cases n with
  | epcNode node mnc mcc =>
    show some (if (split node).reverse = [] then epcNodesDomain mnc mcc
      else epcNode (join (split node).reverse.reverse) mnc mcc) = _
    rw [if_neg (reverse_split_ne_nil node), join_split]
  | localHomenetwork lhn mcc =>
    show some (localHomenetwork ((join (split (octets "lhn" ++ lhn)).reverse.reverse).drop 3) mcc) = _
    rw [join_split]
    rfl
  | apnFqdn apnoi mnc mcc =>
    show some (apnFqdn (join (split apnoi).reverse.reverse) mnc mcc) = _
    rw [join_split]
  | apn apnoi mnc mcc =>
    show some (apn (join (split apnoi).reverse.reverse) mnc mcc) = _
    rw [join_split]
  | _ => rfl

theorem eq_of_text_eq {n n' : Fqdn} (h : n.Plain) (h' : n'.Plain) (heq : n.text = n'.text) :
    n = n' := by
  have hlabels : n.labels = n'.labels := by rw [← split_text h, ← split_text h', heq]
  have hsome : some n = some n' := by rw [← ofLabels_labels n, ← ofLabels_labels n', hlabels]
  exact Option.some.inj hsome

/-- **Two names are equal only if they were built for the same thing.** -/
theorem text_eq_iff (n n' : Fqdn) (h : n.Plain) (h' : n'.Plain) : n.text = n'.text ↔ n = n' := by
  constructor
  · exact eq_of_text_eq h h'
  · rintro rfl
    rfl

/-- A name of a node and that of an access point, with the same arguments. -/
theorem text_eq_iff_nodes :
    (epcNode (octets "a.apn") (octets "001") (octets "001")).text =
        (apnFqdn (octets "a.apn") (octets "001") (octets "001")).text ↔
      epcNode (octets "a.apn") (octets "001") (octets "001") =
        apnFqdn (octets "a.apn") (octets "001") (octets "001") :=
  text_eq_iff _ _ (by decide) (by decide)

end Fqdn

end OpenairHss.Epc
