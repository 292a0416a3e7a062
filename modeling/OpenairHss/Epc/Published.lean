import OpenairHss.Dns.Decoded
import OpenairHss.Epc.Selectors
import OpenairHss.Epc.ServiceText

/-!
# What a selector finds

From the octets of a DNS response to the list of nodes.  An `Entry` is what an operator publishes for
a node, and a response holds, laid out as in RFC 1035, the entries that have the name that is looked
up; the DNS does not look at the case of letters.

* `lower_eq_iff`: names that are the same to the DNS were built for the same thing.
* `process_published`: a selector finds the entries that were published for what it was made for.
-/

namespace OpenairHss.Epc

open Dns StableSort

/-! ### The case of letters -/

namespace Fqdn

/-- The name with other arguments. -/
def map (f : Octets → Octets) : Fqdn → Fqdn
  | homeNetwork mnc mcc => homeNetwork (f mnc) (f mcc)
  | homeNetworkGprs mnc mcc => homeNetworkGprs (f mnc) (f mcc)
  | tai lb hb mnc mcc => tai (f lb) (f hb) (f mnc) (f mcc)
  | mme mmec mmegi mnc mcc => mme (f mmec) (f mmegi) (f mnc) (f mcc)
  | mmePool mmegi mnc mcc => mmePool (f mmegi) (f mnc) (f mcc)
  | rai rac lac mnc mcc => rai (f rac) (f lac) (f mnc) (f mcc)
  | rnc id mnc mcc => rnc (f id) (f mnc) (f mcc)
  | sgsn nri rac lac mnc mcc => sgsn (f nri) (f rac) (f lac) (f mnc) (f mcc)
  | epcNodesDomain mnc mcc => epcNodesDomain (f mnc) (f mcc)
  | epcNode node mnc mcc => epcNode (f node) (f mnc) (f mcc)
  | nonemergencyEpdgOi mnc mcc => nonemergencyEpdgOi (f mnc) (f mcc)
  | nonemergencyEpdgTai lb hb mnc mcc => nonemergencyEpdgTai (f lb) (f hb) (f mnc) (f mcc)
  | nonemergencyEpdgLac lac mnc mcc => nonemergencyEpdgLac (f lac) (f mnc) (f mcc)
  | nonemergencyEpdgVisitedcountry mcc => nonemergencyEpdgVisitedcountry (f mcc)
  | emergencyEpdgOi mnc mcc => emergencyEpdgOi (f mnc) (f mcc)
  | emergencyEpdgTai lb hb mnc mcc => emergencyEpdgTai (f lb) (f hb) (f mnc) (f mcc)
  | emergencyEpdgLac lac mnc mcc => emergencyEpdgLac (f lac) (f mnc) (f mcc)
  | emergencyEpdgVisitedcountry mcc => emergencyEpdgVisitedcountry (f mcc)
  | globalEnodebId enb mcc => globalEnodebId (f enb) (f mcc)
  | localHomenetwork lhn mcc => localHomenetwork (f lhn) (f mcc)
  | epc mnc mcc => epc (f mnc) (f mcc)
  | apnFqdn apnoi mnc mcc => apnFqdn (f apnoi) (f mnc) (f mcc)
  | apn apnoi mnc mcc => apn (f apnoi) (f mnc) (f mcc)
  | diameter mnc mcc => diameter (f mnc) (f mcc)

/-- The name with its arguments in lower case. -/
def lower (n : Fqdn) : Fqdn := n.map toLower

theorem text_lower (n : Fqdn) : n.lower.text = toLower n.text := by
  cases n <;>
    simp only [lower, map, text, Epc.homeNetwork, Epc.homeNetworkGprs, taiFqdn,
      mmeFqdn, mmePoolFqdn, raiFqdn, rncFqdn, sgsnFqdn, epcNodesDomainFqdn, epcNodeFqdn,
      nonemergencyEpdgOiFqdn, nonemergencyEpdgTaiFqdn, nonemergencyEpdgLacFqdn,
      nonemergencyEpdgVisitedcountryFqdn, emergencyEpdgOiFqdn, emergencyEpdgTaiFqdn,
      emergencyEpdgLacFqdn, emergencyEpdgVisitedcountryFqdn, globalEnodebIdFqdn,
      localHomenetworkFqdn, Epc.epc, Epc.apnFqdn, Epc.apn, diameterFqdn, appendNetwork, appendPublic,
      appendVisited, append3gppNetwork, appendMcc, appendMnc, toLower, List.map_append,
      List.nil_append, List.append_assoc] <;>
    rfl

theorem fixedLabels_lower (n : Fqdn) : n.lower.fixedLabels = n.fixedLabels.map toLower := by
  cases n <;>
    simp only [lower, map, fixedLabels, networkLabels, publicLabels, visitedLabels, gprsLabels,
      tacLabels, List.cons_append, List.nil_append, List.map_cons, List.map_nil, toLower,
      List.map_append] <;>
    rfl

theorem lower_dot {b : UInt8} (h : (if 0x41 ≤ b ∧ b ≤ 0x5a then b + 0x20 else b) = dot) : b = dot := by
  unfold dot at h ⊢
  grind

theorem Plain.lower {n : Fqdn} (h : n.Plain) : n.lower.Plain := by
  intro l hl hdot
  rw [fixedLabels_lower] at hl
  obtain ⟨l', hl', rfl⟩ := List.mem_map.mp hl
  obtain ⟨b, hb, heq⟩ := List.mem_map.mp hdot
  exact h l' hl' (lower_dot heq ▸ hb)

/-- **Names that the DNS does not tell apart** were built for the same thing, but for the case of
letters. -/
theorem lower_eq_iff {n n' : Fqdn} (h : n.Plain) (h' : n'.Plain) :
    toLower n.text = toLower n'.text ↔ n.lower = n'.lower := by
  rw [← text_lower, ← text_lower]
  constructor
  · exact eq_of_text_eq h.lower h'.lower
  · intro heq
    rw [heq]

end Fqdn

/-! ### What is published -/

/-- A NAPTR entry of a node. -/
structure Entry where
  name : Fqdn
  order : Nat
  preference : Nat
  service : AppServiceEnum
  protocols : List Restricted
  host : Octets
  plain : name.Plain
  fits : ∀ r ∈ protocols, r.Fits
  once : (protocols.map Restricted.protocol).Nodup

structure Zone where
  entries : List Entry
  /-- The addresses of a host, the name of which is in lower case. -/
  addresses : Octets → List Address

/-- One of the usage types is served. -/
def Restricted.Serves (uts : List Int) (r : Restricted) : Prop :=
  r.usageTypes = [] ∨ ∃ ut ∈ uts, ut ∈ r.usageTypes.map Int.ofNat

instance (uts : List Int) (r : Restricted) : Decidable (r.Serves uts) :=
  inferInstanceAs (Decidable (_ ∨ _))

namespace Entry

/-- The entry is one for what the selector was made for, and serves one of the protocols. -/
def Wanted (c : Selector) (protos : List NodeProtocol) (uts : List Int) (e : Entry) : Prop :=
  e.name.lower = c.name.lower ∧ e.service = c.service ∧
    ∃ proto ∈ protos, ∃ r ∈ e.protocols, r.protocol = proto.getAppProtocol ∧ r.Serves uts

instance (c : Selector) (protos : List NodeProtocol) (uts : List Int) (e : Entry) :
    Decidable (e.Wanted c protos uts) := inferInstanceAs (Decidable (_ ∧ _ ∧ _))

/-- The protocols that are served, each with the usage types that it is served for. -/
def granted (protos : List NodeProtocol) (uts : List Int) (e : Entry) : List AppProtocol :=
  protos.filterMap fun proto =>
    (e.protocols.find? fun r => r.protocol = proto.getAppProtocol ∧ r.Serves uts).map fun r => {
      AppProtocol.new with
      m_protocol := r.protocol
      m_usageTypes := uts.filter fun ut => ut ∈ r.usageTypes.map Int.ofNat }

/-- The order, the preference, the service and the host. -/
def fields (e : Entry) : Nat × Nat × Octets × Octets :=
  (e.order, e.preference, serviceText e.service e.protocols, toLower e.host)

end Entry

namespace Zone

/-- The entries that the DNS has for a domain. -/
def named (zone : Zone) (domain : Octets) : List Entry :=
  zone.entries.filter fun e => toLower e.name.text = toLower domain

/-- What a selector should find. -/
def result (shuffle : List Octets → List Octets) (protos : List NodeProtocol) (uts : List Int)
    (zone : Zone) (e : Entry) : NodeSelectorResult where
  m_hostname := toLower e.host
  m_order := e.order
  m_preference := e.preference
  m_port := 0
  m_supported_protocols := e.granted protos uts
  m_ipv4_hosts := shuffle ((zone.addresses (toLower e.host)).filterMap Address.ipv4)
  m_ipv6_hosts := shuffle ((zone.addresses (toLower e.host)).filterMap Address.ipv6)

end Zone

/-! ### Responses -/

/-- The fields of a NAPTR record that `process` looks at. -/
def naptrFields : Fields → Option (Nat × Nat × Octets × Octets)
  | .naptr order preference _ service _ replacement => some (order, preference, service, replacement)
  | _ => none

/-- The address that a record has for a host. -/
def addressFor (host : Octets) (r : Record Placed) : Option Address :=
  if host = r.name.meant then
    match r.data with
    | .a address => some (.v4 address)
    | .aaaa address => some (.v6 address)
    | _ => none
  else none

/-- The message is the response to a question for the NAPTR records of a domain. -/
structure Zone.Answers (zone : Zone) (domain : Octets) (msg : Message Placed) : Prop where
  answer : (msg.answer.map fun r => naptrFields (r.data.fields Placed.meant)) =
    (zone.named domain).map fun e => some e.fields
  additional : ∀ e ∈ zone.named domain,
    msg.additional.filterMap (addressFor (toLower e.host)) = zone.addresses (toLower e.host)
  /-- No record of another class has the type of an address. -/
  classes : ∀ r ∈ msg.additional, ∀ cls rdata,
    r.data ≠ .other nsTA cls rdata ∧ r.data ≠ .other nsTAaaa cls rdata
  /-- No name ends in a pointer to the root label. -/
  names : ∀ n ∈ msg.names, n.rootPointer = false

/-! ### The protocols of an entry -/

section Protocols

variable {protos : List NodeProtocol} {uts : List Int} {e : Entry} {c : Selector}

/-- Where each key occurs once, the first element with a key decides. -/
theorem find?_key {α β : Type} [DecidableEq β] {key : α → β} {l : List α} (h : (l.map key).Nodup)
    (b : β) (P : α → Prop) [DecidablePred P] :
    l.find? (fun a => key a = b ∧ P a) = (l.find? fun a => key a = b).filter P := by
  induction l with
  | nil => rfl
  | cons a l ih =>
    obtain ⟨hnot, hnodup⟩ := List.nodup_cons.mp h
    by_cases hkey : key a = b
    · have hfirst : (a :: l).find? (fun a => key a = b) = some a :=
        List.find?_cons_of_pos (decide_eq_true hkey)
      have hnone : l.find? (fun a => key a = b ∧ P a) = none := by
        refine List.find?_eq_none.mpr ?_
        intro a' ha' hp
        obtain ⟨hkey', -⟩ := of_decide_eq_true hp
        exact hnot (hkey.trans hkey'.symm ▸ List.mem_map_of_mem ha')
      rw [hfirst, Option.filter_some]
      by_cases hp : P a
      · rw [List.find?_cons_of_pos (by simp [hkey, hp]), if_pos (decide_eq_true hp)]
      · rw [List.find?_cons_of_neg (by simp [hp]), hnone, if_neg (by simp [hp])]
    · rw [List.find?_cons_of_neg (by simp [hkey]), ih hnodup]
      exact congrArg _ (List.find?_cons_of_neg (by simp [hkey])).symm

theorem findProtocol_serviceText (proto : AppProtocolEnum) :
    (AppService.parse (serviceText e.service e.protocols)).findProtocol proto =
      (e.protocols.find? fun r => r.protocol = proto).map fun r =>
        ⟨protocolText r, r.protocol, r.usageTypes.map Int.ofNat⟩ := by
  rw [AppService.findProtocol, protocols_serviceText _ e.fits, List.find?_map]
  rfl

/-- The protocols that a selector takes from the text of an entry. -/
theorem supported_serviceText : (c.request protos uts).supported
    (AppService.parse (serviceText e.service e.protocols)) = e.granted protos uts := by
  rw [NodeSelector.supported, Selector.request_eq, List.filterMap_map, Entry.granted]
  refine List.filterMap_congr ?_
  intro proto _
  rw [find?_key e.once]
  simp only [Function.comp_apply]
  rw [show AppService.findProtocol _ proto.desired.m_protocol = _ from
    findProtocol_serviceText proto.getAppProtocol]
  cases e.protocols.find? fun r => r.protocol = proto.getAppProtocol with
  | none => rfl
  | some r =>
    have hfind : AppProtocol.findUsageType ⟨protocolText r, r.protocol, r.usageTypes.map Int.ofNat⟩ =
        fun ut => decide (ut ∈ r.usageTypes.map Int.ofNat) := rfl
    simp only [Option.map_some, Option.filter_some, hfind]
    by_cases hall : r.usageTypes = []
    · have hserves : r.Serves uts := .inl hall
      rw [if_pos (decide_eq_true hserves)]
      simp [hall, AppProtocol.new]
    · have hlist : r.usageTypes.map Int.ofNat ≠ [] := fun h => hall (List.map_eq_nil_iff.mp h)
      have hfilter : uts.filter (fun ut => ut ∈ r.usageTypes.map Int.ofNat) = [] ↔ ¬ r.Serves uts := by
        rw [List.filter_eq_nil_iff, Restricted.Serves, or_iff_right hall]
        simp only [decide_eq_true_eq, not_exists, not_and]
      rw [if_neg hlist]
      by_cases hserves : r.Serves uts
      · rw [if_pos (decide_eq_true hserves), if_neg fun h => hfilter.mp h hserves]
        rfl
      · rw [if_pos (hfilter.mpr hserves), decide_eq_false hserves]
        rfl

theorem granted_ne_nil_iff : e.granted protos uts ≠ [] ↔
    ∃ proto ∈ protos, ∃ r ∈ e.protocols, r.protocol = proto.getAppProtocol ∧ r.Serves uts := by
  rw [Ne, Entry.granted, List.filterMap_eq_nil_iff]
  simp [List.find?_eq_none]

end Protocols

/-! ### Reading a response -/

section Responses

variable {msg : Message Placed} {y : Query} {shuffle : List Octets → List Octets} {zone : Zone}
  {protos : List NodeProtocol} {uts : List Int} {c : Selector}

theorem collect_map {α β γ : Type} (f : β → Option (Option γ)) (v : α → β) (l : List α) :
    collect f (l.map v) = collect (fun a => f (v a)) l := by
  induction l with
  | nil => rfl
  | cons a l ih => rw [List.map_cons, collect, collect, ih]

/-- The address of a record, from what it shows. -/
def addressShown (host : Octets) (r : Shown) : Option (Option Address) :=
  if host = r.name then
    match r.fields with
    | .address address => some (some (if r.type = nsTA then .v4 address else .v6 address))
    | .none => if r.type = nsTA ∨ r.type = nsTAaaa then none else some none
    | _ => some none
  else some none

theorem addressShown_shown (host : Octets) (rr : ResourceRecord) :
    addressShown host rr.shown = if host = rr.getName then address rr else some none := by
  cases rr <;> rfl

theorem addressShown_record {r : Record Placed} (host : Octets) (hname : r.name.rootPointer = false)
    (hclass : ∀ cls rdata, r.data ≠ .other nsTA cls rdata ∧ r.data ≠ .other nsTAaaa cls rdata) :
    addressShown host (r.shown Placed.read nsTCname) = some (addressFor host r) := by
  obtain ⟨name, ttl, data⟩ := r
  have hread : name.read = name.meant := (read_eq_meant_iff name).mpr hname
  rw [addressShown, addressFor, Record.shown]
  simp only [hread]
  by_cases hhost : host = name.meant
  · rw [if_pos hhost, if_pos hhost]
    cases data with
    | other type cls rdata =>
      have htype : ¬(type = nsTA ∨ type = nsTAaaa) := by
        rintro (rfl | rfl)
        · exact (hclass cls rdata).1 rfl
        · exact (hclass cls rdata).2 rfl
      exact if_neg htype
    | _ => rfl
  · rw [if_neg hhost, if_neg hhost]

theorem hosts_eq {host : Octets}
    (hshown : y.additional.map ResourceRecord.shown =
      msg.additional.map (Record.shown Placed.read nsTCname))
    (hnames : ∀ r ∈ msg.additional, r.name.rootPointer = false)
    (hclasses : ∀ r ∈ msg.additional, ∀ cls rdata,
      r.data ≠ .other nsTA cls rdata ∧ r.data ≠ .other nsTAaaa cls rdata) :
    hosts host y.additional = some (msg.additional.filterMap (addressFor host)) := by
  have hread : collect (addressShown host) (y.additional.map ResourceRecord.shown) =
      some (msg.additional.filterMap (addressFor host)) := by
    rw [hshown, collect_map]
    exact collect_of_some fun r hr => addressShown_record host (hnames r hr) (hclasses r hr)
  rw [collect_map] at hread
  rw [hosts, ← hread]
  exact congrArg (collect · y.additional) (funext fun rr => (addressShown_shown host rr).symm)

/-- The result of an answer, from what it shows. -/
def evaluateShown (shuffle : List Octets → List Octets) (s : NodeSelector)
    (additional : List ResourceRecord) (v : Option (Nat × Nat × Octets × Octets)) :
    Option (Option NodeSelectorResult) :=
  v.bind fun x => s.evaluate shuffle additional (.naptr [] 0 x.1 x.2.1 [] x.2.2.1 [] x.2.2.2)

theorem evaluateShown_shown (s : NodeSelector) (additional : List ResourceRecord)
    (rr : ResourceRecord) : evaluateShown shuffle s additional (naptrFields rr.shown.fields) =
      s.evaluate shuffle additional rr := by
  cases rr <;> rfl

/-- An entry is evaluated. -/
theorem evaluateShown_entry {e : Entry}
    (hhosts : hosts (toLower e.host) y.additional = some (zone.addresses (toLower e.host))) :
    evaluateShown shuffle (c.request protos uts) y.additional (some e.fields) =
      some (if e.service = c.service ∧ e.granted protos uts ≠ [] then
        some (zone.result shuffle protos uts e) else none) := by
  show (c.request protos uts).evaluate shuffle y.additional (.naptr [] 0 e.order e.preference []
    (serviceText e.service e.protocols) [] (toLower e.host)) = _
  rw [NodeSelector.evaluate]
  simp only [service_serviceText, supported_serviceText, Selector.request_service]
  by_cases h : e.service = c.service ∧ e.granted protos uts ≠ []
  · rw [if_pos h, if_pos h, hhosts]
    rfl
  · rw [if_neg h, if_neg h]

/-- The entries that are found are those that are wanted. -/
theorem filterMap_named (hc : c.name.Plain) :
    ((zone.named c.name.text).filterMap fun e =>
      if e.service = c.service ∧ e.granted protos uts ≠ [] then
        some (zone.result shuffle protos uts e) else none) =
      (zone.entries.filter fun e => e.Wanted c protos uts).map (zone.result shuffle protos uts) := by
  rw [Zone.named, List.filterMap_filter, map_filter_eq]
  refine List.filterMap_congr ?_
  intro e _
  have hwanted : e.Wanted c protos uts ↔ toLower e.name.text = toLower c.name.text ∧
      e.service = c.service ∧ e.granted protos uts ≠ [] := by
    rw [Fqdn.lower_eq_iff e.plain hc, granted_ne_nil_iff]
    exact Iff.rfl
  by_cases hname : toLower e.name.text = toLower c.name.text <;> simp [hwanted, hname]

/-- The answers of a response, one by one. -/
theorem collect_answers (shuffle : List Octets → List Octets) (protos : List NodeProtocol)
    (uts : List Int) (hm : zone.Answers c.name.text msg)
    (hy : y.shown = msg.shown Placed.read nsTCname) :
    collect ((c.request protos uts).evaluate shuffle y.additional) y.answer =
      some ((zone.named c.name.text).filterMap fun e =>
        if e.service = c.service ∧ e.granted protos uts ≠ [] then
          some (zone.result shuffle protos uts e) else none) := by
  simp only [Query.shown, Message.shown, Prod.mk.injEq] at hy
  obtain ⟨-, hanswer, -, hadditional⟩ := hy
  have hnames : ∀ r ∈ msg.records, ∀ n ∈ r.names, n.rootPointer = false := by
    intro r hr n hn
    exact hm.names n (List.mem_append_right _ (List.mem_flatMap.mpr ⟨r, hr, hn⟩))
  have hhosts : ∀ e ∈ zone.named c.name.text,
      hosts (toLower e.host) y.additional = some (zone.addresses (toLower e.host)) := by
    intro e he
    rw [hosts_eq hadditional _ hm.classes, hm.additional e he]
    intro r hr
    exact hnames r (List.mem_append_right _ hr) _ List.mem_cons_self
  have hread : ∀ r ∈ msg.answer, r.data.fields Placed.read = r.data.fields Placed.meant := by
    intro r hr
    refine (fields_iff r.data).mpr ?_
    intro n hn
    exact hnames r (List.mem_append_left _ (List.mem_append_left _ hr)) n (List.mem_cons_of_mem _ hn)
  have hfields : y.answer.map (fun rr => naptrFields rr.shown.fields) =
      (zone.named c.name.text).map fun e => some e.fields := by
    calc y.answer.map (fun rr => naptrFields rr.shown.fields)
        = (y.answer.map ResourceRecord.shown).map fun r => naptrFields r.fields := by
          rw [List.map_map]
          rfl
      _ = msg.answer.map fun r => naptrFields (r.data.fields Placed.read) := by
          rw [hanswer, List.map_map]
          rfl
      _ = msg.answer.map fun r => naptrFields (r.data.fields Placed.meant) :=
          List.map_congr_left fun r hr => congrArg naptrFields (hread r hr)
      _ = _ := hm.answer
  have hshown : (c.request protos uts).evaluate shuffle y.additional = fun rr =>
      evaluateShown shuffle (c.request protos uts) y.additional (naptrFields rr.shown.fields) :=
    funext fun rr => (evaluateShown_shown _ _ rr).symm
  rw [hshown, ← collect_map, hfields, collect_map]
  exact collect_of_some fun e he => evaluateShown_entry (hhosts e he)

theorem process_of_collect {s : NodeSelector} {query : Nat → Octets → Query}
    {found : List NodeSelectorResult} (hquery : query nsTNaptr s.m_domain = y)
    (h : collect (s.evaluate shuffle y.additional) y.answer = some found) :
    s.process shuffle query = some { s with
      m_results := sort NodeSelectorResult.sortCompare (s.m_results ++ found) } := by
  rw [NodeSelector.process]
  simp only [hquery, h]
  rfl

/-- **A selector finds what is published**: from every response, however it is laid out, each entry
that was published for what the selector was made for and that serves one of the protocols, with what
it serves and the addresses of its host, and nothing else, in order. -/
theorem process_published (shuffle : List Octets → List Octets) (zone : Zone) (c : Selector)
    (protos : List NodeProtocol) (uts : List Int) {m : Octets} (hc : c.name.Plain)
    (hm : MessagePlaced m msg) (hanswers : zone.Answers c.name.text msg) :
    ∃ y : Query, Yields (parse m) St.init () ⟨m.length, y⟩ ∧
      ∀ query : Nat → Octets → Query, query nsTNaptr c.name.text = y →
        ∃ s, (c.request protos uts).process shuffle query = some s ∧
          s.m_results.Perm ((zone.entries.filter fun e => e.Wanted c protos uts).map
            (zone.result shuffle protos uts)) ∧
          s.m_results.Pairwise (le NodeSelectorResult.sortCompare) := by
  obtain ⟨y, hyields, hy⟩ := yields_parse hm
  refine ⟨y, hyields, ?_⟩
  intro query hquery
  have hcollect := collect_answers shuffle protos uts hanswers hy
  rw [filterMap_named hc] at hcollect
  rw [← Selector.request_domain c protos uts] at hquery
  refine ⟨_, process_of_collect hquery hcollect, ?_, ?_⟩
  · rw [Selector.request_results]
    exact sort_perm _ _
  · exact sort_sorted NodeSelector.strictWeak_sortCompare _

end Responses

/-! ### A gateway -/

/-- An SGW with the addresses of its host, and the selector of its network. -/
def sampleEntry : Entry where
  name := .epcNode (octets "N") (octets "001") (octets "001")
  order := 1
  preference := 2
  service := .sgw
  protocols := [⟨.s5Gtp, []⟩]
  host := octets "a"
  plain := by decide
  fits := by simp [Restricted.Fits]
  once := by decide

def sampleZone : Zone where
  entries := [sampleEntry]
  addresses _ := [.v4 [192, 0, 2, 1]]

def sampleSelector : Selector := .sgwNode (octets "n") (octets "001") (octets "001")

/-- The entry of the zone, written in capitals, and the address of its host, the name of which is a
pointer. -/
def sampleResponse : Octets :=
  [0, 0, 0x80, 0, 0, 0, 0, 1, 0, 0, 0, 1, 0, 0, 35, 0, 1, 0, 0, 0, 60, 0, 30, 0, 1, 0, 2, 1, 0x61,
    19] ++ octets "X-3GPP-SGW:X-S5-GTP" ++
  [0, 1, 0x61, 0, 0xc0, 50, 0, 1, 0, 1, 0, 0, 0, 60, 0, 4, 192, 0, 2, 1]

def sampleRecords : Message Placed where
  question := []
  answer := [⟨⟨12, [], false⟩, 60,
    .naptr 1 2 (octets "a") (octets "X-3GPP-SGW:X-S5-GTP") [] (nameA 50)⟩]
  authority := []
  additional := [⟨nameA 53, 60, .a [192, 0, 2, 1]⟩]

theorem sampleRecords_placed : MessagePlaced sampleResponse sampleRecords := by
  have ha : Spelled sampleResponse 50 [[0x61]] 53 false := spelled_a (by decide)
  have hroot : Spelled sampleResponse 12 [] 13 false := .root (by decide)
  have hpointer : Spelled sampleResponse 53 [[0x61]] 55 false :=
    .pointer (show 50 < 2 ^ 14 by decide) (by decide) (by decide) (by decide) ha
  refine ⟨by decide, by decide, 12, 53, 53, .nil _, .cons ?_ (.nil _), .nil _, .cons ?_ (.nil _)⟩
  · exact ⟨13, ⟨rfl, hroot⟩, by decide, by decide, by decide, ⟨by decide, by decide⟩, by decide,
      by decide, rfl, ha⟩
  · exact ⟨55, ⟨rfl, hpointer⟩, by decide, by decide, by decide, rfl, by decide, rfl⟩

theorem sampleRecords_answers : sampleZone.Answers sampleSelector.name.text sampleRecords where
  answer := by decide
  additional := by
    intro e he
    obtain rfl : e = sampleEntry := List.mem_singleton.mp (List.mem_of_mem_filter he)
    decide
  classes := by
    intro r hr cls rdata
    obtain rfl := List.mem_singleton.mp hr
    exact ⟨by simp, by simp⟩
  names := by
    simp [sampleRecords, Message.names, Message.records, Record.names, RData.names, nameA]

theorem process_published_sample : ∃ y : Query,
    Yields (parse sampleResponse) St.init () ⟨sampleResponse.length, y⟩ ∧
      ∀ query : Nat → Octets → Query, query nsTNaptr sampleSelector.name.text = y →
        ∃ s, (sampleSelector.request [.sgw .s5Gtp] []).process id query = some s ∧
          s.m_results.Perm [sampleZone.result id [.sgw .s5Gtp] [] sampleEntry] ∧
          s.m_results.Pairwise (le NodeSelectorResult.sortCompare) := by
  have hwanted : (sampleZone.entries.filter fun e => e.Wanted sampleSelector [.sgw .s5Gtp] []) =
      [sampleEntry] := List.filter_cons_of_pos (by decide)
  have hfound := process_published id sampleZone sampleSelector [.sgw .s5Gtp] [] (by decide)
    sampleRecords_placed sampleRecords_answers
  rw [hwanted] at hfound
  exact hfound

end OpenairHss.Epc
