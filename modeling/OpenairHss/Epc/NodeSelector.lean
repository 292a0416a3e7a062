import OpenairHss.Epc.Service
import OpenairHss.Lib.StableSort

/-!
# The selection of a node

`NodeSelector::process` adds a result for each NAPTR answer that offers what is asked for to the
results that the selector has, and sorts all of them.  It takes every answer for a NAPTR record;
what happens where one is of another class is `none`, as the language does not say it.

* `process_new`: the results of a new selector.
* `process_right_iff`: when these are the ones that were asked for.
* `process_twice_iff`: a second call gives the same list only if nothing was found.
-/

namespace OpenairHss.Dns

def ResourceRecord.getName : ResourceRecord → Octets
  | .rr name _ _ _ | .a name _ _ | .ns name _ _ | .cname name _ _ | .aaaa name _ _
  | .srv name _ _ _ _ _ | .naptr name _ _ _ _ _ _ _ => name

end OpenairHss.Dns

namespace OpenairHss.Epc

open Dns StableSort

/-! ### A loop over records -/

section Collect

variable {α β : Type}

/-- A loop that adds a value for some of the elements, and that may meet one it must not touch. -/
def collect (f : α → Option (Option β)) : List α → Option (List β)
  | [] => some []
  | a :: l => (f a).bind fun b => (collect f l).map (b.toList ++ ·)

variable {f : α → Option (Option β)} {l : List α}

theorem collect_of_some {g : α → Option β} (h : ∀ a ∈ l, f a = some (g a)) :
    collect f l = some (l.filterMap g) := by
  induction l with
  | nil => rfl
  | cons a l ih =>
    have hl := ih fun a' ha' => h a' (List.mem_cons_of_mem a ha')
    rw [collect, h a List.mem_cons_self, hl, List.filterMap_cons]
    cases g a <;> rfl

theorem isSome_of_collect (h : (collect f l).isSome) : ∀ a ∈ l, (f a).isSome := by
  induction l with
  | nil => exact fun a ha => absurd ha List.not_mem_nil
  | cons a l ih =>
    rw [collect] at h
    cases hfa : f a with
    | none =>
      rw [hfa] at h
      exact absurd h (by simp)
    | some b =>
      rw [hfa] at h
      refine List.forall_mem_cons.mpr ⟨by rw [hfa]; rfl, ih ?_⟩
      simpa using h

theorem collect_isSome_iff : (collect f l).isSome ↔ ∀ a ∈ l, (f a).isSome := by
  refine ⟨isSome_of_collect, fun h => ?_⟩
  have hall : ∀ a ∈ l, f a = some ((f a).bind id) := by
    intro a ha
    obtain ⟨b, hb⟩ := Option.isSome_iff_exists.mp (h a ha)
    rw [hb]
    rfl
  rw [collect_of_some hall]
  rfl

/-- What the loop has collected. -/
theorem collect_eq (h : (collect f l).isSome) :
    collect f l = some (l.filterMap fun a => (f a).bind id) := by
  refine collect_of_some fun a ha => ?_
  obtain ⟨b, hb⟩ := Option.isSome_iff_exists.mp (isSome_of_collect h a ha)
  rw [hb]
  rfl

theorem map_filter_eq (g : α → β) (p : α → Bool) (l : List α) :
    (l.filter p).map g = l.filterMap fun a => if p a then some (g a) else none := by
  induction l with
  | nil => rfl
  | cons a l ih =>
    cases hp : p a with
    | true => rw [List.filter_cons_of_pos hp, List.map_cons, List.filterMap_cons, hp, ih]; rfl
    | false => rw [List.filter_cons_of_neg (by simp [hp]), List.filterMap_cons, hp, ih]; rfl

theorem imp_of_length_filter {p q : α → Bool} {l : List α} (hpq : ∀ a, p a → q a)
    (h : (l.filter p).length = (l.filter q).length) : ∀ a ∈ l, q a → p a := by
  have hfilter : (l.filter q).filter p = l.filter p := by
    rw [List.filter_filter]
    refine List.filter_congr fun a _ => ?_
    by_cases hp : p a = true
    · simp [hp, hpq a hp]
    · simp [hp]
  rw [← hfilter] at h
  intro a ha hq
  exact List.length_filter_eq_length_iff.mp h a (List.mem_filter.mpr ⟨ha, hq⟩)

end Collect

/-! ### The source -/

inductive Address
  | v4 (address : Octets)
  | v6 (address : Octets)
deriving DecidableEq

def Address.ipv4 : Address → Option Octets
  | .v4 address => some address
  | .v6 _ => none

def Address.ipv6 : Address → Option Octets
  | .v4 _ => none
  | .v6 address => some address

/-- The address of a record of type A or AAAA.  A record of another class of the DNS has no class of
its own, whatever its type is. -/
def address : ResourceRecord → Option (Option Address)
  | .a _ _ address => some (some (.v4 address))
  | .aaaa _ _ address => some (some (.v6 address))
  | .rr _ type _ _ => if type = nsTA ∨ type = nsTAaaa then none else some none
  | _ => some none

/-- The addresses of a host among the additional records. -/
def hosts (hostname : Octets) (additional : List ResourceRecord) : Option (List Address) :=
  collect (fun rr => if hostname = rr.getName then address rr else some none) additional

structure NodeSelectorResult where
  m_hostname : Octets
  m_order : Nat
  m_preference : Nat
  m_port : Nat
  m_supported_protocols : List AppProtocol
  m_ipv4_hosts : List Octets
  m_ipv6_hosts : List Octets
deriving DecidableEq

def NodeSelectorResult.sortCompare (first second : NodeSelectorResult) : Bool :=
  if first.m_order < second.m_order then true
  else if first.m_order > second.m_order then false
  else first.m_preference < second.m_preference

structure NodeSelector where
  m_domain : Octets
  m_desiredService : AppServiceEnum
  m_desiredProtocols : List AppProtocol
  m_desiredUsageTypes : List Int
  m_results : List NodeSelectorResult

namespace NodeSelector

/-- The desired protocols that a service supports. -/
def supported (s : NodeSelector) (service : AppService) : List AppProtocol :=
  s.m_desiredProtocols.filterMap fun dp =>
    match service.findProtocol dp.m_protocol with
    | none => none
    | some sp =>
      if sp.m_usageTypes = [] then some { AppProtocol.new with m_protocol := sp.m_protocol }
      else
        let m_usageTypes := s.m_desiredUsageTypes.filter sp.findUsageType
        if m_usageTypes = [] then none
        else some { AppProtocol.new with m_protocol := sp.m_protocol, m_usageTypes }

/-- The result of one answer; `shuffle` is the order that `std::random_shuffle` chooses. -/
def evaluate (shuffle : List Octets → List Octets) (s : NodeSelector)
    (additional : List ResourceRecord) : ResourceRecord → Option (Option NodeSelectorResult)
  | .naptr _ _ order preference _ service _ replacement =>
    let service := AppService.parse service
    if service.m_service = s.m_desiredService ∧ s.supported service ≠ [] then
      (hosts replacement additional).map fun addresses => some {
        m_hostname := replacement
        m_order := order
        m_preference := preference
        m_port := 0
        m_supported_protocols := s.supported service
        m_ipv4_hosts := shuffle (addresses.filterMap Address.ipv4)
        m_ipv6_hosts := shuffle (addresses.filterMap Address.ipv6) }
    else some none
  | _ => none

/-- `process`; `query` is the answer of the DNS cache for a type and a domain. -/
def process (shuffle : List Octets → List Octets) (query : Nat → Octets → Query)
    (s : NodeSelector) : Option NodeSelector :=
  let m_query := query nsTNaptr s.m_domain
  (collect (s.evaluate shuffle m_query.additional) m_query.answer).map fun found =>
    { s with m_results := sort NodeSelectorResult.sortCompare (s.m_results ++ found) }

/-! ### What is asked for -/

def isNaptr : ResourceRecord → Bool
  | .naptr .. => true
  | _ => false

/-- A protocol of a service is good for a request: it is not restricted, or not to other usage
types. -/
def good (s : NodeSelector) (sp : AppProtocol) : Bool :=
  sp.m_usageTypes = [] ∨ ∃ ut ∈ s.m_desiredUsageTypes, ut ∈ sp.m_usageTypes

/-- The service supports one of the desired protocols. -/
def offers (s : NodeSelector) (service : AppService) : Bool :=
  ∃ dp ∈ s.m_desiredProtocols, ∃ sp ∈ service.m_protocols,
    sp.m_protocol = dp.m_protocol ∧ s.good sp

/-- An answer that offers the desired service with one of the desired protocols. -/
def wanted (s : NodeSelector) : ResourceRecord → Bool
  | .naptr _ _ _ _ _ service _ _ =>
    (AppService.parse service).m_service = s.m_desiredService ∧ s.offers (AppService.parse service)
  | _ => false

/-- An answer that the selector takes: of the entries of a protocol only the first one counts. -/
def taken (s : NodeSelector) : ResourceRecord → Bool
  | .naptr _ _ _ _ _ service _ _ =>
    (AppService.parse service).m_service = s.m_desiredService ∧
      s.supported (AppService.parse service) ≠ []
  | _ => false

/-- The host, the order and the preference of an answer. -/
def answerKey : ResourceRecord → Octets × Nat × Nat
  | .naptr _ _ order preference _ _ _ replacement => (replacement, order, preference)
  | _ => ([], 0, 0)

/-- The host, the order and the preference of a result. -/
def resultKey (r : NodeSelectorResult) : Octets × Nat × Nat :=
  (r.m_hostname, r.m_order, r.m_preference)

/-- The additional records about the host of an answer are of the class of their type. -/
def Readable (additional : List ResourceRecord) (rr : ResourceRecord) : Prop :=
  ∀ rr' ∈ additional, (answerKey rr).1 = rr'.getName → (address rr').isSome

variable {shuffle : List Octets → List Octets} {query : Nat → Octets → Query} {s : NodeSelector}
  {additional : List ResourceRecord} {rr : ResourceRecord}

theorem supported_ne_nil_iff (s : NodeSelector) (service : AppService) :
    s.supported service ≠ [] ↔ ∃ dp ∈ s.m_desiredProtocols, ∃ sp,
      service.findProtocol dp.m_protocol = some sp ∧ s.good sp := by
  rw [Ne, supported, List.filterMap_eq_nil_iff]
  push Not
  refine exists_congr fun dp => and_congr_right fun _ => ?_
  cases hfind : service.findProtocol dp.m_protocol with
  | none => simp
  | some sp =>
    by_cases hall : sp.m_usageTypes = []
    · simp [hall, good]
    · have hfilter : s.m_desiredUsageTypes.filter sp.findUsageType = [] ↔
          ¬ ∃ ut ∈ s.m_desiredUsageTypes, ut ∈ sp.m_usageTypes := by
        rw [List.filter_eq_nil_iff]
        simp [AppProtocol.findUsageType]
      by_cases hut : ∃ ut ∈ s.m_desiredUsageTypes, ut ∈ sp.m_usageTypes
      · simp [hall, good, hut, hfilter]
      · simp [hall, good, hut, hfilter]

/-- The first entry of a protocol is one of its entries. -/
theorem wanted_of_taken (h : s.taken rr = true) : s.wanted rr = true := by
  cases rr with
  | naptr name ttl order preference flags service regexp replacement =>
    obtain ⟨hservice, hsupported⟩ := of_decide_eq_true h
    obtain ⟨dp, hdp, sp, hfind, hgood⟩ := (supported_ne_nil_iff s _).mp hsupported
    have hprotocol := List.find?_some hfind
    exact decide_eq_true ⟨hservice, decide_eq_true
      ⟨dp, hdp, sp, List.mem_of_find?_eq_some hfind, of_decide_eq_true hprotocol, hgood⟩⟩
  | rr | a | ns | cname | aaaa | srv => exact absurd h Bool.false_ne_true

theorem hosts_isSome_iff (hostname : Octets) (additional : List ResourceRecord) :
    (hosts hostname additional).isSome ↔
      ∀ rr' ∈ additional, hostname = rr'.getName → (address rr').isSome := by
  rw [hosts, collect_isSome_iff]
  refine forall₂_congr fun rr' _ => ?_
  split
  case isTrue h => simp [h]
  case isFalse h => simp [h]

/-- One answer can be evaluated. -/
theorem evaluate_isSome_iff : (s.evaluate shuffle additional rr).isSome ↔
    isNaptr rr = true ∧ (s.taken rr = true → Readable additional rr) := by
  cases rr with
  | naptr name ttl order preference flags service regexp replacement =>
    rw [evaluate]
    have htaken : s.taken (.naptr name ttl order preference flags service regexp replacement) =
      decide ((AppService.parse service).m_service = s.m_desiredService ∧
        s.supported (AppService.parse service) ≠ []) := rfl
    split
    case isTrue h =>
      rw [Option.isSome_map, hosts_isSome_iff, htaken, decide_eq_true h]
      simp [isNaptr, Readable, answerKey]
    case isFalse h =>
      rw [htaken, decide_eq_false h]
      simp [isNaptr]
  | rr | a | ns | cname | aaaa | srv => simp [evaluate, isNaptr]

/-- The result of one answer. -/
theorem evaluate_key (h : (s.evaluate shuffle additional rr).isSome) :
    ((s.evaluate shuffle additional rr).bind id).map resultKey =
      if s.taken rr then some (answerKey rr) else none := by
  cases rr with
  | naptr name ttl order preference flags service regexp replacement =>
    rw [evaluate] at h ⊢
    have htaken : s.taken (.naptr name ttl order preference flags service regexp replacement) =
      decide ((AppService.parse service).m_service = s.m_desiredService ∧
        s.supported (AppService.parse service) ≠ []) := rfl
    by_cases hc : (AppService.parse service).m_service = s.m_desiredService ∧
        s.supported (AppService.parse service) ≠ []
    · rw [if_pos hc] at h ⊢
      rw [htaken, decide_eq_true hc]
      cases hhosts : hosts replacement additional with
      | none => exact absurd h (by simp [hhosts])
      | some addresses => rfl
    · rw [if_neg hc, htaken, decide_eq_false hc]
      rfl
  | rr | a | ns | cname | aaaa | srv => exact absurd h (by simp [evaluate])

/-! ### The calls -/

theorem strictWeak_sortCompare : StrictWeak NodeSelectorResult.sortCompare :=
  strictWeak_byKey NodeSelectorResult.m_order (strictWeak_ltKey NodeSelectorResult.m_preference)

/-- The answers that `process` evaluates. -/
def answers (query : Nat → Octets → Query) (s : NodeSelector) : List ResourceRecord :=
  (query nsTNaptr s.m_domain).answer

/-- The additional records of the query. -/
def additionals (query : Nat → Octets → Query) (s : NodeSelector) : List ResourceRecord :=
  (query nsTNaptr s.m_domain).additional

theorem process_isSome_iff : (s.process shuffle query).isSome ↔
    ∀ rr ∈ s.answers query, isNaptr rr = true ∧
      (s.taken rr = true → Readable (s.additionals query) rr) := by
  rw [process, Option.isSome_map, collect_isSome_iff]
  exact forall₂_congr fun rr _ => evaluate_isSome_iff

/-- What one call adds to the results. -/
theorem process_cases {s' : NodeSelector} (h : s.process shuffle query = some s') :
    ∃ found, s' = { s with m_results := sort NodeSelectorResult.sortCompare (s.m_results ++ found) } ∧
      found.map resultKey = ((s.answers query).filter s.taken).map answerKey := by
  obtain ⟨found, hfound, rfl⟩ := Option.map_eq_some_iff.mp h
  refine ⟨found, rfl, ?_⟩
  have hsome : (collect (s.evaluate shuffle (s.additionals query)) (s.answers query)).isSome :=
    Option.isSome_iff_exists.mpr ⟨found, hfound⟩
  rw [← Option.some.inj ((collect_eq hsome).symm.trans hfound), List.map_filterMap, map_filter_eq]
  refine List.filterMap_congr fun rr hrr => ?_
  exact evaluate_key (isSome_of_collect hsome rr hrr)

/-- **The results of a new selector**: one for each answer that it takes, in order. -/
theorem process_new {s' : NodeSelector} (hnew : s.m_results = [])
    (h : s.process shuffle query = some s') :
    (s'.m_results.map resultKey).Perm (((s.answers query).filter s.taken).map answerKey) ∧
      s'.m_results.Pairwise (le NodeSelectorResult.sortCompare) := by
  obtain ⟨found, rfl, hkeys⟩ := process_cases h
  rw [← hkeys, hnew, List.nil_append]
  exact ⟨(sort_perm _ found).map resultKey, sort_sorted strictWeak_sortCompare found⟩

/-- The results are the answers that are wanted, once each, sorted by order and preference. -/
def Right (query : Nat → Octets → Query) (s : NodeSelector)
    (results : List NodeSelectorResult) : Prop :=
  (results.map resultKey).Perm (((s.answers query).filter s.wanted).map answerKey) ∧
    results.Pairwise (le NodeSelectorResult.sortCompare)

/-- **A new selector finds what is wanted** exactly if all answers are NAPTR records, the first entry
of a protocol decides in every answer that is wanted, and its host can be looked up. -/
theorem process_right_iff (hnew : s.m_results = []) :
    (∃ s', s.process shuffle query = some s' ∧ Right query s s'.m_results) ↔
      ∀ rr ∈ s.answers query, isNaptr rr = true ∧
        (s.wanted rr = true → s.taken rr = true ∧ Readable (s.additionals query) rr) := by
  constructor
  · rintro ⟨s', h, hperm, _⟩ rr hrr
    have hreadable := process_isSome_iff.mp (Option.isSome_iff_exists.mpr ⟨s', h⟩) rr hrr
    refine ⟨hreadable.1, fun hwanted => ?_⟩
    have hlength := ((process_new hnew h).1.symm.trans hperm).length_eq
    rw [List.length_map, List.length_map] at hlength
    have htaken := imp_of_length_filter (fun _ => wanted_of_taken) hlength rr hrr hwanted
    exact ⟨htaken, hreadable.2 htaken⟩
  · intro h
    have hsome : (s.process shuffle query).isSome := process_isSome_iff.mpr fun rr hrr =>
      ⟨(h rr hrr).1, fun htaken => ((h rr hrr).2 (wanted_of_taken htaken)).2⟩
    obtain ⟨s', hs'⟩ := Option.isSome_iff_exists.mp hsome
    have hsame : (s.answers query).filter s.taken = (s.answers query).filter s.wanted := by
      refine List.filter_congr fun rr hrr => Bool.eq_iff_iff.mpr ⟨wanted_of_taken, fun hw => ?_⟩
      exact ((h rr hrr).2 hw).1
    refine ⟨s', hs', ?_⟩
    rw [Right, ← hsame]
    exact process_new hnew hs'

/-- **A second call** adds the same results again. -/
theorem process_twice_iff (shuffle' : List Octets → List Octets) {s' : NodeSelector}
    (h : s.process shuffle query = some s') :
    ∃ s'', s'.process shuffle' query = some s'' ∧
      (s''.m_results = s'.m_results ↔ ∀ rr ∈ s.answers query, s.taken rr = false) := by
  have hreadable := process_isSome_iff.mp (Option.isSome_iff_exists.mpr ⟨s', h⟩)
  obtain ⟨found, rfl, hkeys⟩ := process_cases h
  have hsome : (process shuffle' query { s with
      m_results := sort NodeSelectorResult.sortCompare (s.m_results ++ found) }).isSome :=
    process_isSome_iff.mpr hreadable
  obtain ⟨s'', hs''⟩ := Option.isSome_iff_exists.mp hsome
  refine ⟨s'', hs'', ?_⟩
  obtain ⟨found', rfl, hkeys'⟩ := process_cases hs''
  have hlength : found'.length = ((s.answers query).filter s.taken).length := by
    have hmap := congrArg List.length hkeys'
    rw [List.length_map, List.length_map] at hmap
    exact hmap
  have hsorted := sort_perm NodeSelectorResult.sortCompare
    (sort NodeSelectorResult.sortCompare (s.m_results ++ found) ++ found')
  constructor
  · intro heq rr hrr
    have hlen : _ = (sort NodeSelectorResult.sortCompare (s.m_results ++ found) ++ found').length :=
      (congrArg List.length heq).symm.trans hsorted.length_eq
    rw [List.length_append] at hlen
    have hnil : (s.answers query).filter s.taken = [] :=
      List.length_eq_zero_iff.mp (hlength ▸ Nat.left_eq_add.mp hlen)
    exact Bool.eq_false_iff.mpr (List.filter_eq_nil_iff.mp hnil rr hrr)
  · intro hnone
    have hnil : found' = [] := by
      refine List.length_eq_zero_iff.mp ?_
      rw [hlength, List.filter_eq_nil_iff.mpr fun rr hrr => by simp [hnone rr hrr]]
      rfl
    rw [hnil]
    show sort _ (sort _ _ ++ []) = _
    rw [List.append_nil]
    exact sort_eq_self (sort_sorted strictWeak_sortCompare _)

end NodeSelector

end OpenairHss.Epc
