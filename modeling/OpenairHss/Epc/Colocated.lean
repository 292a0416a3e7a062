import OpenairHss.Epc.NodeSelector
import Mathlib.Order.Bounds.Defs

/-!
# Candidates at one place

`ColocatedCandidateList` pairs two lists of results.  A pair is of one node if its names have the same
canonical name, else its two names are compared label by label if both ask for that (`topon`).

* `isGreatest_topologicalCompare`: the labels that two names share at their ends.
* `candidates_perm`: every pair is in the list once.
* `candidates_ordered_iff`: `sort_compare` does not look at the number of labels; when the pairs that
  share more of them still come first.
-/

namespace OpenairHss.Epc

open Dns Getline StableSort

/-! ### Canonical names -/

structure CanonicalNodeName where
  m_topon : Bool
  m_name : Octets
  /-- The elements of the list that the class is. -/
  labels : List Octets
deriving DecidableEq

def CanonicalNodeName.setName (n : Octets) : CanonicalNodeName :=
  -- an empty name leaves the first label empty
  let arg := ((getline 0x2e n).map (·.1)).getD []
  let ss := ((getline 0x2e n).map (·.2)).getD []
  let m_topon := decide (arg = octets "topon")
  if m_topon = false ∧ arg ≠ octets "topoff" then ⟨m_topon, n, []⟩
  else
    -- the interface
    let ss := ((getline 0x2e ss).map (·.2)).getD []
    match getline 0x0a ss with
    | none => ⟨m_topon, [], []⟩
    | some (m_name, _) =>
      ⟨m_topon, m_name, if m_topon then (getlines 0x2e m_name).reverse else []⟩

/-- The number of labels at the heads of two lists that are the same. -/
def matchingLabels : List Octets → List Octets → Nat
  | l :: ls, r :: rs => if l ≠ r then 0 else matchingLabels ls rs + 1
  | _, _ => 0

def CanonicalNodeName.topologicalCompare (left right : CanonicalNodeName) : Nat :=
  matchingLabels left.labels right.labels

theorem matchingLabels_comm (ls rs : List Octets) : matchingLabels ls rs = matchingLabels rs ls := by
  induction ls generalizing rs with
  | nil => cases rs <;> rfl
  | cons l ls ih =>
    cases rs with
    | nil => rfl
    | cons r rs =>
      rw [matchingLabels, matchingLabels, ih rs]
      by_cases h : l = r
      · simp [h]
      · simp [h, Ne.symm h]

theorem prefix_matchingLabels (ls rs : List Octets) :
    ls.take (matchingLabels ls rs) <+: rs := by
  induction ls generalizing rs with
  | nil => exact List.nil_prefix
  | cons l ls ih =>
    cases rs with
    | nil => exact List.nil_prefix
    | cons r rs =>
      rw [matchingLabels]
      by_cases h : l = r
      · subst h
        simpa using ih rs
      · simp [h]

theorem matchingLabels_le (ls rs : List Octets) : matchingLabels ls rs ≤ ls.length := by
  induction ls generalizing rs with
  | nil => exact Nat.le_refl 0
  | cons l ls ih =>
    cases rs with
    | nil => exact Nat.zero_le _
    | cons r rs =>
      rw [matchingLabels]
      split
      case isTrue h => exact Nat.zero_le _
      case isFalse h => exact Nat.succ_le_succ (ih rs)

theorem length_le_matchingLabels {ps ls rs : List Octets} (hl : ps <+: ls) (hr : ps <+: rs) :
    ps.length ≤ matchingLabels ls rs := by
  induction ps generalizing ls rs with
  | nil => exact Nat.zero_le _
  | cons p ps ih =>
    obtain ⟨ls', rfl, hl'⟩ := List.cons_prefix_iff.mp hl
    obtain ⟨rs', rfl, hr'⟩ := List.cons_prefix_iff.mp hr
    rw [matchingLabels, if_neg (not_not.mpr rfl)]
    exact Nat.succ_le_succ (ih hl' hr')

/-- The labels of a name that is to be compared are those of its canonical name, from the end. -/
theorem labels_setName {n : Octets} (h : (CanonicalNodeName.setName n).m_topon = true) :
    (CanonicalNodeName.setName n).labels =
      (getlines 0x2e (CanonicalNodeName.setName n).m_name).reverse := by
  unfold CanonicalNodeName.setName at h ⊢
  dsimp only at h ⊢
  split
  case isTrue hc =>
    rw [if_pos hc] at h
    exact absurd (hc.1.symm.trans h) Bool.false_ne_true
  case isFalse hc =>
    rw [if_neg hc] at h
    split at h
    case h_1 hnone => rfl
    case h_2 m_name rest hsome => exact if_pos h

/-- **The longest common end of two names**, in labels. -/
theorem isGreatest_topologicalCompare {n n' : Octets}
    (h : (CanonicalNodeName.setName n).m_topon = true)
    (h' : (CanonicalNodeName.setName n').m_topon = true) :
    IsGreatest {k | ∃ ls, ls <:+ getlines 0x2e (CanonicalNodeName.setName n).m_name ∧
        ls <:+ getlines 0x2e (CanonicalNodeName.setName n').m_name ∧ ls.length = k}
      ((CanonicalNodeName.setName n).topologicalCompare (CanonicalNodeName.setName n')) := by
  rw [CanonicalNodeName.topologicalCompare, labels_setName h, labels_setName h']
  generalize getlines 0x2e (CanonicalNodeName.setName n).m_name = ls
  generalize getlines 0x2e (CanonicalNodeName.setName n').m_name = ls'
  constructor
  · refine ⟨(ls.reverse.take (matchingLabels ls.reverse ls'.reverse)).reverse, ?_, ?_, ?_⟩
    · rw [← List.reverse_prefix, List.reverse_reverse]
      exact List.take_prefix _ _
    · rw [← List.reverse_prefix, List.reverse_reverse]
      exact prefix_matchingLabels _ _
    · rw [List.length_reverse, List.length_take]
      exact Nat.min_eq_left (matchingLabels_le _ _)
  · rintro k ⟨es, hls, hls', rfl⟩
    rw [← List.length_reverse]
    exact length_le_matchingLabels (List.reverse_prefix.mpr hls) (List.reverse_prefix.mpr hls')

theorem topologicalCompare_comm (a b : CanonicalNodeName) :
    a.topologicalCompare b = b.topologicalCompare a :=
  matchingLabels_comm a.labels b.labels

/-! ### Pairs of candidates -/

inductive PairType
  | colocated
  | topologicalDistance
  | dnsPriority
deriving DecidableEq

def PairType.toNat : PairType → Nat
  | .colocated => 1
  | .topologicalDistance => 2
  | .dnsPriority => 3

structure ColocatedCandidate where
  m_candidate1 : NodeSelectorResult
  m_candidate2 : NodeSelectorResult
  m_cnn1 : CanonicalNodeName
  m_cnn2 : CanonicalNodeName
  m_pairtype : PairType
  m_topologicalMatches : Nat
deriving DecidableEq

namespace ColocatedCandidate

def new (m_candidate1 m_candidate2 : NodeSelectorResult) : ColocatedCandidate :=
  let m_cnn1 := CanonicalNodeName.setName m_candidate1.m_hostname
  let m_cnn2 := CanonicalNodeName.setName m_candidate2.m_hostname
  let m_pairtype :=
    if m_cnn1.m_name = m_cnn2.m_name then PairType.colocated
    else if m_cnn1.m_topon ∧ m_cnn2.m_topon then .topologicalDistance
    else .dnsPriority
  let m_topologicalMatches :=
    if m_pairtype = .topologicalDistance then m_cnn1.topologicalCompare m_cnn2 else 0
  { m_candidate1, m_candidate2, m_cnn1, m_cnn2, m_pairtype, m_topologicalMatches }

def sortCompare (first second : ColocatedCandidate) : Bool :=
  if first.m_pairtype.toNat < second.m_pairtype.toNat then true
  else if first.m_pairtype.toNat > second.m_pairtype.toNat then false
  else if first.m_candidate1.m_order < second.m_candidate1.m_order then true
  else if first.m_candidate1.m_order > second.m_candidate1.m_order then false
  else first.m_candidate1.m_preference < second.m_candidate1.m_preference

end ColocatedCandidate

/-- All pairs, in the order of the two loops. -/
def pairs (nodelist1 nodelist2 : List NodeSelectorResult) : List ColocatedCandidate :=
  nodelist1.flatMap fun c1 => nodelist2.map fun c2 => ColocatedCandidate.new c1 c2

/-- `ColocatedCandidateList`: `std::list::sort` is stable. -/
def candidates (nodelist1 nodelist2 : List NodeSelectorResult) : List ColocatedCandidate :=
  sort ColocatedCandidate.sortCompare (pairs nodelist1 nodelist2)

namespace ColocatedCandidate

/-- The comparison of the first candidates by order and preference. -/
def dnsCompare : ColocatedCandidate → ColocatedCandidate → Bool :=
  byKey (fun c => c.m_candidate1.m_order) (ltKey fun c => c.m_candidate1.m_preference)

theorem strictWeak_sortCompare : StrictWeak sortCompare :=
  strictWeak_byKey (fun c : ColocatedCandidate => c.m_pairtype.toNat)
    (strictWeak_byKey (fun c : ColocatedCandidate => c.m_candidate1.m_order)
      (strictWeak_ltKey fun c : ColocatedCandidate => c.m_candidate1.m_preference))

theorem le_sortCompare_iff {a b : ColocatedCandidate} : le sortCompare a b ↔
    a.m_pairtype.toNat < b.m_pairtype.toNat ∨
      a.m_pairtype.toNat = b.m_pairtype.toNat ∧ le dnsCompare a b :=
  le_byKey_iff (f := fun c : ColocatedCandidate => c.m_pairtype.toNat)

/-- The order that is meant: pairs of one node, then pairs that share more labels, and among equals by
order and preference. -/
def Ordered (a b : ColocatedCandidate) : Prop :=
  a.m_pairtype.toNat < b.m_pairtype.toNat ∨
    a.m_pairtype = b.m_pairtype ∧ (b.m_topologicalMatches < a.m_topologicalMatches ∨
      b.m_topologicalMatches = a.m_topologicalMatches ∧ le dnsCompare a b)

/-- Of two pairs whose names are compared, `a` before `b`, the one that comes first by order and
preference shares at least as many labels. -/
def Agree (a b : ColocatedCandidate) : Prop :=
  a.m_pairtype = .topologicalDistance → b.m_pairtype = .topologicalDistance →
    if dnsCompare b a then a.m_topologicalMatches ≤ b.m_topologicalMatches
    else b.m_topologicalMatches ≤ a.m_topologicalMatches

theorem toNat_inj {t t' : PairType} : t.toNat = t'.toNat ↔ t = t' := by
  cases t <;> cases t' <;> decide

/-- Only names that are compared have a number of labels. -/
theorem matches_of_ne {c1 c2 : NodeSelectorResult}
    (h : (new c1 c2).m_pairtype ≠ .topologicalDistance) : (new c1 c2).m_topologicalMatches = 0 :=
  if_neg h

theorem ordered_of_le {a b : ColocatedCandidate}
    (h : le sortCompare a b) : Ordered a b ↔
      (a.m_pairtype = b.m_pairtype → b.m_topologicalMatches ≤ a.m_topologicalMatches) := by
  rw [Ordered]
  rcases le_sortCompare_iff.mp h with hlt | ⟨heq, hle⟩
  · refine ⟨fun _ he => ?_, fun _ => Or.inl hlt⟩
    rw [he] at hlt
    omega
  · have htype := toNat_inj.mp heq
    constructor
    · rintro (hlt | ⟨_, hmatches⟩) _
      · omega
      · omega
    · intro hm
      have hmatches := hm htype
      refine Or.inr ⟨htype, ?_⟩
      rcases Nat.lt_or_eq_of_le hmatches with hlt | heq'
      · exact Or.inl hlt
      · exact Or.inr ⟨heq', hle⟩

/-- Where two pairs of one kind are put in their order, only the labels can be wrong. -/
theorem agree_iff {a b : ColocatedCandidate} (ha : ∃ c1 c2, a = new c1 c2)
    (hb : ∃ c1 c2, b = new c1 c2) :
    (if sortCompare b a then Ordered b a else Ordered a b) ↔ Agree a b := by
  have hzero : ∀ c : ColocatedCandidate, (∃ c1 c2, c = new c1 c2) →
      c.m_pairtype ≠ .topologicalDistance → c.m_topologicalMatches = 0 := by
    rintro c ⟨c1, c2, rfl⟩ hne
    exact matches_of_ne hne
  have hle := strictWeak_sortCompare.asymm b a
  by_cases htype : a.m_pairtype = .topologicalDistance ∧ b.m_pairtype = .topologicalDistance
  · obtain ⟨hta, htb⟩ := htype
    have hsame : sortCompare b a = dnsCompare b a := by
      simp [sortCompare, dnsCompare, byKey, ltKey, hta, htb]
    rw [Agree, hsame]
    cases hdns : dnsCompare b a with
    | true =>
      have hba : le sortCompare b a := hle (hsame.trans hdns)
      simp [ordered_of_le hba, hta, htb]
    | false =>
      have hab : le sortCompare a b := hsame.trans hdns
      simp [ordered_of_le hab, hta, htb]
  · have hmatches : a.m_pairtype = b.m_pairtype →
        a.m_topologicalMatches = 0 ∧ b.m_topologicalMatches = 0 := by
      intro he
      have hnot : a.m_pairtype ≠ .topologicalDistance := fun hta => htype ⟨hta, he ▸ hta⟩
      exact ⟨hzero a ha hnot, hzero b hb (he ▸ hnot)⟩
    have hagree : Agree a b := fun hta htb => absurd ⟨hta, htb⟩ htype
    refine ⟨fun _ => hagree, fun _ => ?_⟩
    cases hcompare : sortCompare b a with
    | true =>
      rw [if_pos rfl, ordered_of_le (hle hcompare)]
      intro he
      have hm := hmatches he.symm
      omega
    | false =>
      rw [if_neg Bool.false_ne_true, ordered_of_le hcompare]
      intro he
      have hm := hmatches he
      omega

end ColocatedCandidate

variable (nodelist1 nodelist2 : List NodeSelectorResult)

/-- The pairs of two results. -/
theorem pairs_eq : pairs nodelist1 nodelist2 =
    (nodelist1.product nodelist2).map fun p => ColocatedCandidate.new p.1 p.2 := by
  rw [pairs, List.product, List.map_flatMap]
  simp only [List.map_map]
  rfl

/-- Every pair is in the list exactly once. -/
theorem candidates_perm : ((candidates nodelist1 nodelist2).map fun c =>
    (c.m_candidate1, c.m_candidate2)).Perm (nodelist1.product nodelist2) := by
  refine ((sort_perm _ (pairs nodelist1 nodelist2)).map _).trans ?_
  rw [pairs_eq, List.map_map]
  exact List.Perm.of_eq (List.map_id _)

/-- **The list is in the order that is meant** exactly if, of the pairs whose names are compared, those
that come first by order and preference (or, where these are the same, by the two lists) share at
least as many labels. -/
theorem candidates_ordered_iff :
    (candidates nodelist1 nodelist2).Pairwise ColocatedCandidate.Ordered ↔
      (nodelist1.product nodelist2).Pairwise fun p q =>
        ColocatedCandidate.Agree (ColocatedCandidate.new p.1 p.2) (ColocatedCandidate.new q.1 q.2) := by
  rw [candidates, pairwise_sort_iff ColocatedCandidate.strictWeak_sortCompare, pairs_eq,
    List.pairwise_map]
  refine List.Pairwise.iff ?_
  intro p q
  exact ColocatedCandidate.agree_iff ⟨p.1, p.2, rfl⟩ ⟨q.1, q.2, rfl⟩

/-- **The pairs of two lists**: each of them once; `topologicalCompare` is the length of the longest
common end in labels, and symmetric; and the list is in the order that is meant under the condition of
`candidates_ordered_iff`. -/
theorem candidates_iff :
    ((candidates nodelist1 nodelist2).map fun c =>
      (c.m_candidate1, c.m_candidate2)).Perm (nodelist1.product nodelist2) ∧
    (∀ n n', (CanonicalNodeName.setName n).m_topon = true →
      (CanonicalNodeName.setName n').m_topon = true →
      IsGreatest {k | ∃ ls, ls <:+ getlines 0x2e (CanonicalNodeName.setName n).m_name ∧
        ls <:+ getlines 0x2e (CanonicalNodeName.setName n').m_name ∧ ls.length = k}
        ((CanonicalNodeName.setName n).topologicalCompare (CanonicalNodeName.setName n'))) ∧
    (∀ a b : CanonicalNodeName, a.topologicalCompare b = b.topologicalCompare a) ∧
    ((candidates nodelist1 nodelist2).Pairwise ColocatedCandidate.Ordered ↔
      (nodelist1.product nodelist2).Pairwise fun p q =>
        ColocatedCandidate.Agree (ColocatedCandidate.new p.1 p.2)
          (ColocatedCandidate.new q.1 q.2)) :=
  ⟨candidates_perm nodelist1 nodelist2, fun _ _ => isGreatest_topologicalCompare,
    topologicalCompare_comm, candidates_ordered_iff nodelist1 nodelist2⟩

def named (hostname : String) : NodeSelectorResult := ⟨octets hostname, 10, 10, 0, [], [], []⟩

/-- The gateway in the east comes before the one that shares the site. -/
theorem labels_ignored :
    ¬ ∀ nodelist1 nodelist2 : List NodeSelectorResult,
      (candidates nodelist1 nodelist2).Pairwise ColocatedCandidate.Ordered := by
  intro h
  have hpair := h [named "topon.s11.mme.west.nodes"]
    [named "topon.s5.gw1.east.nodes", named "topon.s5.gw2.west.nodes"]
  have hlist : candidates [named "topon.s11.mme.west.nodes"]
      [named "topon.s5.gw1.east.nodes", named "topon.s5.gw2.west.nodes"] =
      [ColocatedCandidate.new (named "topon.s11.mme.west.nodes") (named "topon.s5.gw1.east.nodes"),
        ColocatedCandidate.new (named "topon.s11.mme.west.nodes")
          (named "topon.s5.gw2.west.nodes")] := by
    decide
  rw [hlist] at hpair
  have hordered := (List.pairwise_cons.mp hpair).1 _ List.mem_cons_self
  rcases hordered with hlt | ⟨_, hlt | ⟨heq, _⟩⟩
  · exact absurd hlt (by decide)
  · exact absurd hlt (by decide)
  · exact absurd heq (by decide)

end OpenairHss.Epc
