import OpenairHss.Epc.SrvVector

/-!
# The selection of a Diameter peer

`DiameterSelector::process` adds a result for each NAPTR answer with the service of the application
and the protocol to the results that the selector has.  It does not sort them, and `getPreference`
of a result is its order.

* `process_right_iff`: when the results of a new selector are sorted and have the order and the
  preference of their records.
* `process_twice_iff`: a second call gives the same list only if no answer is wanted.
* `selectors_iff`: both selectors.
-/

namespace OpenairHss.Epc

open Dns StableSort

/-! ### The source -/

inductive DiameterApplicationEnum
  | unknown
  | nasreq
  | mobileIpv4
  | baseAccounting
  | creditControl
  | eap
  | sip6
  | mobileIpv6Ike
  | mobileIpv6Auth
  | qos
  | relay
  | sta
  | s6a
  | swm
  | s9
  | wnaaada
  | wnada
  | wm4da
  | wm6da
  | wdda
  | wlaada
  | pccR3P
  | pccR3Ofc
  | pccR3OfcPrime
  | pccR3Oc
deriving DecidableEq

inductive DiameterProtocolEnum
  | unknown
  | tcp
  | sctp
  | tlsTcp
deriving DecidableEq

def getDiameterApplication : DiameterApplicationEnum → Nat
  | .nasreq => 1
  | .mobileIpv4 => 2
  | .baseAccounting => 3
  | .creditControl => 4
  | .eap => 5
  | .sip6 => 6
  | .mobileIpv6Ike => 7
  | .mobileIpv6Auth => 8
  | .qos => 9
  | .relay => 4294967295
  | .sta => 16777250
  | .s6a => 16777251
  | .swm => 16777264
  | .s9 => 16777267
  | .wnaaada => 16777281
  | .wnada => 16777282
  | .wm4da => 16777283
  | .wm6da => 16777284
  | .wdda => 16777285
  | .wlaada => 16777286
  | .pccR3P => 16777287
  | .pccR3Ofc => 16777288
  | .pccR3OfcPrime => 16777289
  | .pccR3Oc => 16777290
  | .unknown => 0

def getDiameterProtocol : DiameterProtocolEnum → String
  | .tcp => "diameter.tcp"
  | .sctp => "diameter.sctp"
  | .tlsTcp => "diameter.tls.tcp"
  | .unknown => "unknown"

def getDiameterService (app : DiameterApplicationEnum) (protocol : DiameterProtocolEnum) : Octets :=
  octets ("aaa+ap" ++ toString (getDiameterApplication app) ++ ":" ++ getDiameterProtocol protocol)

/-- A text that goes through `c_str ()`. -/
def cStr (s : Octets) : Octets := s.takeWhile (· ≠ 0)

/-- `DiameterNaptrA` and `DiameterNaptrS`. -/
inductive DiameterTarget
  | hostname (m_host : DiameterHost)
  | service (m_srv : List DiameterSrv)
deriving DecidableEq

structure DiameterNaptr where
  m_target : DiameterTarget
  m_order : Nat
  m_preference : Nat
  m_service : Octets
  m_replacement : Octets
deriving DecidableEq

def DiameterNaptr.getOrder (n : DiameterNaptr) : Nat := n.m_order

/-- As the source has it. -/
def DiameterNaptr.getPreference (n : DiameterNaptr) : Nat := n.m_order

structure DiameterSelector where
  m_realm : Octets
  m_application : DiameterApplicationEnum
  m_protocol : DiameterProtocolEnum
  m_results : List DiameterNaptr

/-- What the source takes from outside: `std::sort`, the random numbers and the order that
`std::random_shuffle` chooses. -/
structure Chance where
  stdSort : List DiameterSrv → List DiameterSrv
  rand : Nat → Nat
  shuffle : List Octets → List Octets

/-- A host with its addresses. -/
def Chance.host (chance : Chance) (m_name : Octets) (addresses : List Address) : DiameterHost where
  m_name := m_name
  m_ipv4_addrs := chance.shuffle (addresses.filterMap Address.ipv4)
  m_ipv6_addrs := chance.shuffle (addresses.filterMap Address.ipv6)

/-- An additional record, as an SRV record of the name.  Its host has a name if there is a record
about the target. -/
def Chance.srvOf (chance : Chance) (additional : List ResourceRecord) (name : Octets) :
    ResourceRecord → Option (Option DiameterSrv)
  | .srv owner _ priority weight port target =>
    if owner = name then
      (hosts target additional).map fun addresses =>
        let m_name := if additional.any (fun rr => rr.getName = target) then cStr target else []
        some ⟨priority, weight, port, chance.host m_name addresses⟩
    else some none
  | .rr owner type _ _ => if type = nsTSrv ∧ owner = name then none else some none
  | _ => some none

namespace DiameterSelector

variable (chance : Chance) (query : Nat → Octets → Query) (s : DiameterSelector)

/-- The result of one answer. -/
def evaluate (additional : List ResourceRecord) : ResourceRecord → Option (Option DiameterNaptr)
  | .naptr _ _ order preference flags service _ replacement =>
    if service = getDiameterService s.m_application s.m_protocol then
      let n (m_target : DiameterTarget) : DiameterNaptr :=
        ⟨m_target, order, preference, cStr service, cStr replacement⟩
      if flags = octets "a" then
        (hosts (cStr replacement) additional).map fun addresses =>
          some (n (.hostname (chance.host (cStr replacement) addresses)))
      else if flags = octets "s" then
        (collect (chance.srvOf additional (cStr replacement)) additional).map fun srvs =>
          some (n (.service (DiameterSrvVector.sortVector id chance.stdSort chance.rand srvs)))
      else some none
    else some none
  | _ => none

def process : Option DiameterSelector :=
  if s.m_application = .unknown then some s
  else if s.m_protocol = .unknown then some s
  else if s.m_realm = [] then some s
  else
    let m_query := query nsTNaptr s.m_realm
    (collect (s.evaluate chance m_query.additional) m_query.answer).map fun found =>
      { s with m_results := s.m_results ++ found }

/-! ### What is asked for -/

/-- The answers that a call looks at. -/
def answers : List ResourceRecord :=
  if s.m_application = .unknown ∨ s.m_protocol = .unknown ∨ s.m_realm = [] then []
  else (query nsTNaptr s.m_realm).answer

def additionals : List ResourceRecord := (query nsTNaptr s.m_realm).additional

/-- An answer for the application and the protocol that leads to a host or to SRV records. -/
def wanted : ResourceRecord → Bool
  | .naptr _ _ _ _ flags service _ _ =>
    service = getDiameterService s.m_application s.m_protocol ∧
      (flags = octets "a" ∨ flags = octets "s")
  | _ => false

/-- The replacement, the order and the preference of an answer. -/
def answerKey : ResourceRecord → Octets × Nat × Nat
  | .naptr _ _ order preference _ _ _ replacement => (cStr replacement, order, preference)
  | _ => ([], 0, 0)

/-- The replacement, the order and the preference of a result. -/
def resultKey (n : DiameterNaptr) : Octets × Nat × Nat :=
  (n.m_replacement, n.getOrder, n.getPreference)

/-- The additional records that an answer leads to are of the class of their type. -/
def Readable (additional : List ResourceRecord) : ResourceRecord → Prop
  | .naptr _ _ _ _ flags _ _ replacement =>
    if flags = octets "a" then
      ∀ rr ∈ additional, cStr replacement = rr.getName → (address rr).isSome
    else ∀ rr ∈ additional, rr.getName = cStr replacement →
      match rr with
      | .srv _ _ _ _ _ target => ∀ rr' ∈ additional, target = rr'.getName → (address rr').isSome
      | .rr _ type _ _ => type ≠ nsTSrv
      | _ => True
  | _ => True

/-- The results come by order and preference. -/
def byOrder : DiameterNaptr → DiameterNaptr → Bool :=
  byKey DiameterNaptr.getOrder (ltKey DiameterNaptr.getPreference)

/-- The results are the answers that are wanted, once each, sorted by order and preference, and with
both of them. -/
def Right (results : List DiameterNaptr) : Prop :=
  (results.map resultKey).Perm (((s.answers query).filter s.wanted).map answerKey) ∧
    results.Pairwise (le byOrder)

variable {chance query s} {additional : List ResourceRecord} {rr : ResourceRecord}

theorem srvOf_isSome_iff (name : Octets) : (chance.srvOf additional name rr).isSome ↔
    (rr.getName = name → match rr with
      | .srv _ _ _ _ _ target => ∀ rr' ∈ additional, target = rr'.getName → (address rr').isSome
      | .rr _ type _ _ => type ≠ nsTSrv
      | _ => True) := by
  cases rr with
  | srv owner ttl priority weight port target =>
    rw [Chance.srvOf]
    by_cases hname : owner = name
    · rw [if_pos hname, Option.isSome_map, NodeSelector.hosts_isSome_iff]
      simp [ResourceRecord.getName, hname]
    · rw [if_neg hname]
      simp [ResourceRecord.getName, hname]
  | rr owner type cls ttl =>
    rw [Chance.srvOf]
    by_cases hname : owner = name
    · by_cases htype : type = nsTSrv
      · rw [if_pos ⟨htype, hname⟩]
        simp [ResourceRecord.getName, hname, htype]
      · rw [if_neg fun h => htype h.1]
        simp [htype]
    · rw [if_neg fun h => hname h.2]
      simp [ResourceRecord.getName, hname]
  | a | ns | cname | aaaa | naptr => simp [Chance.srvOf]

theorem evaluate_isSome_iff : (s.evaluate chance additional rr).isSome ↔
    NodeSelector.isNaptr rr = true ∧ (s.wanted rr = true → Readable additional rr) := by
  cases rr with
  | naptr name ttl order preference flags service regexp replacement =>
    have hwanted : s.wanted (.naptr name ttl order preference flags service regexp replacement) =
      decide (service = getDiameterService s.m_application s.m_protocol ∧
        (flags = octets "a" ∨ flags = octets "s")) := rfl
    rw [evaluate, hwanted]
    by_cases hservice : service = getDiameterService s.m_application s.m_protocol
    · rw [if_pos hservice]
      by_cases ha : flags = octets "a"
      · rw [if_pos ha, Option.isSome_map, NodeSelector.hosts_isSome_iff]
        simp [NodeSelector.isNaptr, hservice, ha, Readable]
      · rw [if_neg ha]
        by_cases hs : flags = octets "s"
        · rw [if_pos hs, Option.isSome_map, collect_isSome_iff]
          have hne : ¬ octets "s" = octets "a" := by decide
          simp only [NodeSelector.isNaptr, hservice, hs, Readable, hne, if_false, srvOf_isSome_iff]
          simp
        · rw [if_neg hs]
          simp [NodeSelector.isNaptr, ha, hs]
    · rw [if_neg hservice]
      simp [NodeSelector.isNaptr, hservice]
  | rr | a | ns | cname | aaaa | srv => simp [evaluate, NodeSelector.isNaptr]

/-- The result of one answer: its preference is the order. -/
theorem evaluate_key (h : (s.evaluate chance additional rr).isSome) :
    ((s.evaluate chance additional rr).bind id).map resultKey =
      if s.wanted rr then some ((answerKey rr).1, (answerKey rr).2.1, (answerKey rr).2.1) else none := by
  cases rr with
  | naptr name ttl order preference flags service regexp replacement =>
    have hwanted : s.wanted (.naptr name ttl order preference flags service regexp replacement) =
      decide (service = getDiameterService s.m_application s.m_protocol ∧
        (flags = octets "a" ∨ flags = octets "s")) := rfl
    rw [evaluate] at h ⊢
    rw [hwanted]
    by_cases hservice : service = getDiameterService s.m_application s.m_protocol
    · rw [if_pos hservice] at h ⊢
      by_cases ha : flags = octets "a"
      · rw [if_pos ha] at h ⊢
        rw [decide_eq_true ⟨hservice, Or.inl ha⟩]
        cases hhosts : hosts (cStr replacement) additional with
        | none => exact absurd h (by simp [hhosts])
        | some addresses => rfl
      · rw [if_neg ha] at h ⊢
        by_cases hs : flags = octets "s"
        · rw [if_pos hs] at h ⊢
          rw [decide_eq_true ⟨hservice, Or.inr hs⟩]
          cases hsrvs : collect (chance.srvOf additional (cStr replacement)) additional with
          | none => exact absurd h (by simp [hsrvs])
          | some srvs => rfl
        · rw [if_neg hs, decide_eq_false fun hc => hc.2.elim ha hs]
          rfl
    · rw [if_neg hservice, decide_eq_false fun hc => hservice hc.1]
      rfl
  | rr | a | ns | cname | aaaa | srv => exact absurd h (by simp [evaluate])

/-! ### The calls -/

/-- What one call adds to the results. -/
theorem process_eq : s.process chance query =
    (collect (s.evaluate chance (s.additionals query)) (s.answers query)).map fun found =>
      { s with m_results := s.m_results ++ found } := by
  have hnothing : some s = (some []).map fun found : List DiameterNaptr =>
      { s with m_results := s.m_results ++ found } := by
    simp
  rw [process, answers]
  by_cases happ : s.m_application = .unknown
  · rw [if_pos happ, if_pos (Or.inl happ)]
    exact hnothing
  · by_cases hprotocol : s.m_protocol = .unknown
    · rw [if_neg happ, if_pos hprotocol, if_pos (Or.inr (Or.inl hprotocol))]
      exact hnothing
    · by_cases hrealm : s.m_realm = []
      · rw [if_neg happ, if_neg hprotocol, if_pos hrealm, if_pos (Or.inr (Or.inr hrealm))]
        exact hnothing
      · rw [if_neg happ, if_neg hprotocol, if_neg hrealm,
          if_neg fun h => h.elim happ fun h => h.elim hprotocol hrealm]
        rfl

theorem process_isSome_iff : (s.process chance query).isSome ↔ ∀ rr ∈ s.answers query,
    NodeSelector.isNaptr rr = true ∧ (s.wanted rr = true → Readable (s.additionals query) rr) := by
  rw [process_eq, Option.isSome_map, collect_isSome_iff]
  exact forall₂_congr fun rr _ => evaluate_isSome_iff

theorem process_cases {s' : DiameterSelector} (h : s.process chance query = some s') :
    ∃ found, s' = { s with m_results := s.m_results ++ found } ∧
      found.map resultKey = ((s.answers query).filter s.wanted).map fun rr =>
        ((answerKey rr).1, (answerKey rr).2.1, (answerKey rr).2.1) := by
  rw [process_eq] at h
  obtain ⟨found, hfound, rfl⟩ := Option.map_eq_some_iff.mp h
  refine ⟨found, rfl, ?_⟩
  have hsome : (collect (s.evaluate chance (s.additionals query)) (s.answers query)).isSome :=
    Option.isSome_iff_exists.mpr ⟨found, hfound⟩
  rw [← Option.some.inj ((collect_eq hsome).symm.trans hfound), List.map_filterMap, map_filter_eq]
  refine List.filterMap_congr fun rr hrr => ?_
  exact evaluate_key (isSome_of_collect hsome rr hrr)

/-- **A new selector gives what is wanted** exactly if all answers are NAPTR records, the records they
lead to can be read, and the answers that are wanted come with ascending orders and have the same
preference as order. -/
theorem process_right_iff (hnew : s.m_results = []) :
    (∃ s', s.process chance query = some s' ∧ Right query s s'.m_results) ↔
      (∀ rr ∈ s.answers query, NodeSelector.isNaptr rr = true ∧
        (s.wanted rr = true → Readable (s.additionals query) rr)) ∧
      (∀ rr ∈ s.answers query, s.wanted rr = true → (answerKey rr).2.2 = (answerKey rr).2.1) ∧
      ((s.answers query).filter s.wanted).Pairwise fun rr rr' =>
        (answerKey rr).2.1 ≤ (answerKey rr').2.1 := by
  have hsorted : ∀ found : List DiameterNaptr, found.Pairwise (le byOrder) ↔
      (found.map resultKey).Pairwise fun k k' => k.2.1 ≤ k'.2.1 := by
    intro found
    rw [List.pairwise_map]
    refine List.Pairwise.iff fun n n' => ?_
    rw [byOrder, le_byKey_iff, le_ltKey_iff]
    show n.m_order < n'.m_order ∨ n.m_order = n'.m_order ∧ n.m_order ≤ n'.m_order ↔
      n.m_order ≤ n'.m_order
    omega
  constructor
  · rintro ⟨s', h, hperm, hpair⟩
    have hreadable := process_isSome_iff.mp (Option.isSome_iff_exists.mpr ⟨s', h⟩)
    obtain ⟨found, rfl, hkeys⟩ := process_cases h
    have hresults : s.m_results ++ found = found := by rw [hnew, List.nil_append]
    rw [show (({ s with m_results := s.m_results ++ found } : DiameterSelector)).m_results =
      found from hresults] at hperm hpair
    refine ⟨hreadable, fun rr hrr hw => ?_, ?_⟩
    · have hmem : answerKey rr ∈ found.map resultKey :=
        hperm.mem_iff.mpr (List.mem_map_of_mem (List.mem_filter.mpr ⟨hrr, hw⟩))
      obtain ⟨n, _, hn⟩ := List.mem_map.mp hmem
      rw [← hn]
      rfl
    · rw [hsorted, hkeys, List.pairwise_map] at hpair
      exact hpair
  · rintro ⟨hreadable, hpreference, hpair⟩
    have hsome : (s.process chance query).isSome := process_isSome_iff.mpr hreadable
    obtain ⟨s', hs'⟩ := Option.isSome_iff_exists.mp hsome
    refine ⟨s', hs', ?_⟩
    obtain ⟨found, rfl, hkeys⟩ := process_cases hs'
    have hresults : s.m_results ++ found = found := by rw [hnew, List.nil_append]
    rw [show (({ s with m_results := s.m_results ++ found } : DiameterSelector)).m_results =
      found from hresults]
    have hsame : ((s.answers query).filter s.wanted).map (fun rr =>
        ((answerKey rr).1, (answerKey rr).2.1, (answerKey rr).2.1)) =
          ((s.answers query).filter s.wanted).map answerKey := by
      refine List.map_congr_left fun rr hrr => ?_
      obtain ⟨hmem, hw⟩ := List.mem_filter.mp hrr
      exact Prod.ext rfl (Prod.ext rfl (hpreference rr hmem hw).symm)
    refine ⟨?_, ?_⟩
    · rw [hkeys, hsame]
    · rw [hsorted, hkeys, List.pairwise_map]
      exact hpair

/-- **A second call** adds the same results again. -/
theorem process_twice_iff (chance' : Chance) {s' : DiameterSelector}
    (h : s.process chance query = some s') :
    ∃ s'', s'.process chance' query = some s'' ∧
      (s''.m_results = s'.m_results ↔ ∀ rr ∈ s.answers query, s.wanted rr = false) := by
  have hreadable := process_isSome_iff.mp (Option.isSome_iff_exists.mpr ⟨s', h⟩)
  obtain ⟨found, rfl, hkeys⟩ := process_cases h
  have hsome : (process chance' query { s with m_results := s.m_results ++ found }).isSome :=
    process_isSome_iff.mpr hreadable
  obtain ⟨s'', hs''⟩ := Option.isSome_iff_exists.mp hsome
  refine ⟨s'', hs'', ?_⟩
  obtain ⟨found', rfl, hkeys'⟩ := process_cases hs''
  have hlength : found'.length = ((s.answers query).filter s.wanted).length := by
    have hmap := congrArg List.length hkeys'
    rw [List.length_map, List.length_map] at hmap
    exact hmap
  have hnil : found' = [] ↔ ∀ rr ∈ s.answers query, s.wanted rr = false := by
    rw [← List.length_eq_zero_iff, hlength, List.length_eq_zero_iff, List.filter_eq_nil_iff]
    exact forall₂_congr fun rr _ => Bool.eq_false_iff.symm
  rw [← hnil]
  exact List.append_right_eq_self

end DiameterSelector

/-! ### Both selectors -/

section Selectors

variable {shuffle shuffle' : List Octets → List Octets} {chance chance' : Chance}
  {query : Nat → Octets → Query} {s : NodeSelector} {d : DiameterSelector}

/-- The first call of the node selector gives what is wanted, and the second one the same list. -/
def NodeSelector.RightTwice (shuffle shuffle' : List Octets → List Octets)
    (query : Nat → Octets → Query) (s : NodeSelector) : Prop :=
  ∃ s' s'', s.process shuffle query = some s' ∧ NodeSelector.Right query s s'.m_results ∧
    s'.process shuffle' query = some s'' ∧ s''.m_results = s'.m_results

/-- The same of the Diameter selector. -/
def DiameterSelector.RightTwice (chance chance' : Chance) (query : Nat → Octets → Query)
    (d : DiameterSelector) : Prop :=
  ∃ d' d'', d.process chance query = some d' ∧ DiameterSelector.Right query d d'.m_results ∧
    d'.process chance' query = some d'' ∧ d''.m_results = d'.m_results

theorem NodeSelector.rightTwice_iff (hs : s.m_results = []) :
    s.RightTwice shuffle shuffle' query ↔
      ∀ rr ∈ s.answers query, isNaptr rr = true ∧ s.wanted rr = false := by
  constructor
  · rintro ⟨s', s'', h, hright, h', hsame⟩ rr hrr
    have hfirst := (process_right_iff hs).mp ⟨s', h, hright⟩ rr hrr
    obtain ⟨u, hu, hiff⟩ := process_twice_iff shuffle' h
    obtain rfl := Option.some.inj (h'.symm.trans hu)
    refine ⟨hfirst.1, Bool.eq_false_iff.mpr fun hw => ?_⟩
    have hnot := hiff.mp hsame rr hrr
    rw [(hfirst.2 hw).1] at hnot
    exact Bool.noConfusion hnot
  · intro h
    have hfirst : ∃ s', s.process shuffle query = some s' ∧ Right query s s'.m_results := by
      refine (process_right_iff hs).mpr fun rr hrr => ⟨(h rr hrr).1, fun hw => ?_⟩
      rw [(h rr hrr).2] at hw
      exact Bool.noConfusion hw
    obtain ⟨s', hs', hright⟩ := hfirst
    obtain ⟨s'', hs'', hiff⟩ := process_twice_iff shuffle' hs'
    refine ⟨s', s'', hs', hright, hs'', hiff.mpr fun rr hrr => Bool.eq_false_iff.mpr fun ht => ?_⟩
    have hw := wanted_of_taken ht
    rw [(h rr hrr).2] at hw
    exact Bool.noConfusion hw

theorem DiameterSelector.rightTwice_iff (hd : d.m_results = []) :
    d.RightTwice chance chance' query ↔
      ∀ rr ∈ d.answers query, NodeSelector.isNaptr rr = true ∧ d.wanted rr = false := by
  constructor
  · rintro ⟨d', d'', h, hright, h', hsame⟩ rr hrr
    have hfirst := (process_right_iff hd).mp ⟨d', h, hright⟩
    obtain ⟨u, hu, hiff⟩ := process_twice_iff chance' h
    obtain rfl := Option.some.inj (h'.symm.trans hu)
    exact ⟨(hfirst.1 rr hrr).1, hiff.mp hsame rr hrr⟩
  · intro h
    have hnone : (d.answers query).filter d.wanted = [] :=
      List.filter_eq_nil_iff.mpr fun rr hrr => by simp [(h rr hrr).2]
    have hfirst : ∃ d', d.process chance query = some d' ∧ Right query d d'.m_results := by
      refine (process_right_iff hd).mpr
        ⟨fun rr hrr => ⟨(h rr hrr).1, fun hw => ?_⟩, fun rr hrr hw => ?_, ?_⟩
      · rw [(h rr hrr).2] at hw
        exact Bool.noConfusion hw
      · rw [(h rr hrr).2] at hw
        exact Bool.noConfusion hw
      · rw [hnone]
        exact List.Pairwise.nil
    obtain ⟨d', hd', hright⟩ := hfirst
    obtain ⟨d'', hd'', hiff⟩ := process_twice_iff chance' hd'
    exact ⟨d', d'', hd', hright, hd'', hiff.mpr fun rr hrr => (h rr hrr).2⟩

/-- **What the selectors give.**  The node selector is right on its first call exactly if all answers
are NAPTR records, and in each that is wanted the first entry of a protocol decides; the Diameter
selector needs answers that are sorted and have the same preference as order.  A second call gives
the same list only if no answer is wanted. -/
theorem selectors_iff (hs : s.m_results = []) (hd : d.m_results = []) :
    ((∃ s', s.process shuffle query = some s' ∧ NodeSelector.Right query s s'.m_results) ↔
      ∀ rr ∈ s.answers query, NodeSelector.isNaptr rr = true ∧ (s.wanted rr = true →
        s.taken rr = true ∧ NodeSelector.Readable (s.additionals query) rr)) ∧
    ((∃ d', d.process chance query = some d' ∧ DiameterSelector.Right query d d'.m_results) ↔
      (∀ rr ∈ d.answers query, NodeSelector.isNaptr rr = true ∧
        (d.wanted rr = true → DiameterSelector.Readable (d.additionals query) rr)) ∧
      (∀ rr ∈ d.answers query, d.wanted rr = true →
        (DiameterSelector.answerKey rr).2.2 = (DiameterSelector.answerKey rr).2.1) ∧
      ((d.answers query).filter d.wanted).Pairwise fun rr rr' =>
        (DiameterSelector.answerKey rr).2.1 ≤ (DiameterSelector.answerKey rr').2.1) ∧
    (s.RightTwice shuffle shuffle' query ∧ d.RightTwice chance chance' query ↔
      (∀ rr ∈ s.answers query, NodeSelector.isNaptr rr = true ∧ s.wanted rr = false) ∧
      ∀ rr ∈ d.answers query, NodeSelector.isNaptr rr = true ∧ d.wanted rr = false) :=
  ⟨NodeSelector.process_right_iff hs, DiameterSelector.process_right_iff hd,
    and_congr (NodeSelector.rightTwice_iff hs) (DiameterSelector.rightTwice_iff hd)⟩

end Selectors

/-- A gateway that is good for S5, and a peer for S6a. -/
def sampleQuery (_ : Nat) (_ : Octets) : Query where
  question := []
  answer :=
    [.naptr (octets "d") 60 10 20 (octets "a") (octets "x-3gpp-sgw:x-s5-gtp") [] (octets "gw.d"),
      .naptr (octets "d") 60 30 40 (octets "a") (octets "aaa+ap16777251:diameter.tcp") [] (octets "p.d")]
  authority := []
  additional := [.a (octets "gw.d") 60 [10, 0, 0, 1]]

def sampleNode : NodeSelector :=
  ⟨octets "d", .sgw, [{ AppProtocol.new with m_protocol := .s5Gtp }], [], []⟩

def sampleDiameter : DiameterSelector := ⟨octets "d", .s6a, .tcp, []⟩

def sampleChance : Chance := ⟨id, fun _ => 0, id⟩

theorem selectors_iff_sample :
    ((∃ s', sampleNode.process id sampleQuery = some s' ∧
        NodeSelector.Right sampleQuery sampleNode s'.m_results) ↔
      ∀ rr ∈ sampleNode.answers sampleQuery, NodeSelector.isNaptr rr = true ∧
        (sampleNode.wanted rr = true → sampleNode.taken rr = true ∧
          NodeSelector.Readable (sampleNode.additionals sampleQuery) rr)) ∧
    ((∃ d', sampleDiameter.process sampleChance sampleQuery = some d' ∧
        DiameterSelector.Right sampleQuery sampleDiameter d'.m_results) ↔
      (∀ rr ∈ sampleDiameter.answers sampleQuery, NodeSelector.isNaptr rr = true ∧
        (sampleDiameter.wanted rr = true →
          DiameterSelector.Readable (sampleDiameter.additionals sampleQuery) rr)) ∧
      (∀ rr ∈ sampleDiameter.answers sampleQuery, sampleDiameter.wanted rr = true →
        (DiameterSelector.answerKey rr).2.2 = (DiameterSelector.answerKey rr).2.1) ∧
      ((sampleDiameter.answers sampleQuery).filter sampleDiameter.wanted).Pairwise fun rr rr' =>
        (DiameterSelector.answerKey rr).2.1 ≤ (DiameterSelector.answerKey rr').2.1) ∧
    (sampleNode.RightTwice id id sampleQuery ∧
        sampleDiameter.RightTwice sampleChance sampleChance sampleQuery ↔
      (∀ rr ∈ sampleNode.answers sampleQuery, NodeSelector.isNaptr rr = true ∧
        sampleNode.wanted rr = false) ∧
      ∀ rr ∈ sampleDiameter.answers sampleQuery, NodeSelector.isNaptr rr = true ∧
        sampleDiameter.wanted rr = false) :=
  selectors_iff rfl rfl

/-- A second call doubles the gateway, and the preference of the peer is 30. -/
theorem selectors_not_right :
    ¬ ∀ (s : NodeSelector) (d : DiameterSelector) (query : Nat → Octets → Query),
      s.m_results = [] → d.m_results = [] →
        s.RightTwice id id query ∧ d.RightTwice sampleChance sampleChance query := by
  intro h
  obtain ⟨⟨s', s'', hs', _, hs'', hsame⟩, _⟩ := h sampleNode sampleDiameter sampleQuery rfl rfl
  obtain ⟨u, hu, hiff⟩ := NodeSelector.process_twice_iff id hs'
  obtain rfl := Option.some.inj (hs''.symm.trans hu)
  have hnone := hiff.mp hsame
    (.naptr (octets "d") 60 10 20 (octets "a") (octets "x-3gpp-sgw:x-s5-gtp") [] (octets "gw.d"))
    List.mem_cons_self
  exact absurd hnone (by decide)

end OpenairHss.Epc
