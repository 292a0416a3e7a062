import OpenairHss.Epc.NodeSelector

/-!
# The order of SRV records

`DiameterSrvVector::sort_vector` sorts the records by priority and weight with `std::sort`, and then
means to choose among the records of each priority by their weights and random numbers.  The loop
starts with no priority, and only its branch for the end of a priority, which asks for a priority,
would set one: `sortVector_eq`, nothing is chosen.

So the result is in order (`sortVector_perm`, `sortVector_sorted`), but the first record of a
priority is always one with the least weight (`reachable_iff`).
-/

namespace OpenairHss.Epc

open Dns StableSort

structure DiameterHost where
  m_name : Octets
  m_ipv4_addrs : List Octets
  m_ipv6_addrs : List Octets
deriving DecidableEq

structure DiameterSrv where
  m_priority : Nat
  m_weight : Nat
  m_port : Nat
  m_host : DiameterHost
deriving DecidableEq

namespace DiameterSrvVector

section

-- The records stand behind pointers, which are the elements of the vector.
variable {α : Type} (srv : α → DiameterSrv)

def sortCompare (first second : α) : Bool :=
  if (srv first).m_priority < (srv second).m_priority then true
  else if (srv first).m_priority > (srv second).m_priority then false
  else (srv first).m_weight < (srv second).m_weight

/-! ### The source -/

/-- The running totals of the entries from `first` to `last` that are not in `sorted`, with the
entries. -/
def runningTotals (v : List α) (sorted : List Nat) (first last : Nat) : List (Nat × Nat) :=
  ((List.range' first (last + 1 - first)).foldl
    (fun (acc : List (Nat × Nat) × Nat) k =>
      if k ∈ sorted then acc
      else
        let runningTotal := acc.2 + ((v[k]?.map fun a => (srv a).m_weight).getD 0)
        (acc.1 ++ [(k, runningTotal)], runningTotal))
    ([], 0)).1

/-- One entry is chosen; `n` is the next random number. -/
def choose (v : List α) (first last : Nat) (sorted : List Nat) (n : Nat) : List Nat :=
  let totals := runningTotals srv v sorted first last
  let runningTotal := (totals.getLast?.map (·.2)).getD 0
  let val := n &&& runningTotal
  match totals.find? fun e => e.2 ≥ val with
  | some e => sorted ++ [e.1]
  | none => sorted

/-- The state of the loop; `calls` is the number of calls of `rand`. -/
structure State (α : Type) where
  v : List α
  priority : Int
  first : Int
  last : Int
  calls : Nat

/-- The records from `first` to `last`, in the order that is chosen. -/
def selectGroup (rand : Nat → Nat) (st : State α) : State α :=
  let count := (st.last - st.first + 1).toNat
  let sorted := (List.range count).foldl
    (fun sorted j => choose srv st.v st.first.toNat st.last.toNat sorted (rand (st.calls + j))) []
  let newsorted := sorted.filterMap fun k => st.v[k]?
  let v := (List.range count).foldl
    (fun v j => match newsorted[j]? with
      | some a => v.set (st.first.toNat + j) a
      | none => v) st.v
  { st with v, calls := st.calls + count }

/-- One pass of the loop. -/
def pass (rand : Nat → Nat) (st : State α) (i : Nat) : State α :=
  let current := st.v[i]?.map fun a => ((srv a).m_priority : Int)
  if (i = st.v.length ∨ current ≠ some st.priority) ∧ st.priority ≠ -1 then
    let st := selectGroup srv rand st
    match current with
    | some priority => { st with priority, first := i, last := i }
    | none => st
  else { st with last := i }

/-- `sort_vector`; `stdSort` is `std::sort` with `sort_compare`, and `rand` is the stream of random
numbers. -/
def sortVector (stdSort : List α → List α) (rand : Nat → Nat) (srvs : List α) : List α :=
  let v := stdSort srvs
  ((List.range (v.length + 1)).foldl (pass srv rand) ⟨v, -1, -1, -1, 0⟩).v

/-! ### Nothing is chosen -/

variable {srv} {stdSort : List α → List α} {rand : Nat → Nat} {srvs : List α}

theorem pass_eq {st : State α} (h : st.priority = -1) (i : Nat) :
    pass srv rand st i = { st with last := i } := by
  rw [pass, if_neg fun hc => hc.2 h]

theorem passes_eq (is : List Nat) (st : State α) (h : st.priority = -1) :
    (is.foldl (pass srv rand) st).v = st.v := by
  induction is generalizing st with
  | nil => rfl
  | cons i is ih =>
    rw [List.foldl_cons, pass_eq h]
    exact ih { st with last := i } h

/-- **The records stay as `std::sort` has put them.** -/
theorem sortVector_eq : sortVector srv stdSort rand srvs = stdSort srvs :=
  passes_eq _ _ rfl

/-- What `std::sort` promises for `sort_compare`. -/
structure Sorts (srv : α → DiameterSrv) (stdSort : List α → List α) : Prop where
  perm : ∀ v, (stdSort v).Perm v
  sorted : ∀ v, (stdSort v).Pairwise (le (sortCompare srv))

/-- What is not greater has no greater priority, and within a priority no greater weight. -/
theorem le_sortCompare_iff {a b : α} : le (sortCompare srv) a b ↔
    (srv a).m_priority < (srv b).m_priority ∨
      (srv a).m_priority = (srv b).m_priority ∧ (srv a).m_weight ≤ (srv b).m_weight :=
  le_byKey_iff.trans (or_congr_right (and_congr_right fun _ => le_ltKey_iff))

theorem strictWeak_sortCompare : StrictWeak (sortCompare srv) :=
  strictWeak_byKey (fun a => (srv a).m_priority) (strictWeak_ltKey fun a => (srv a).m_weight)

theorem sortVector_perm (h : Sorts srv stdSort) : (sortVector srv stdSort rand srvs).Perm srvs := by
  rw [sortVector_eq]
  exact h.perm srvs

theorem sortVector_sorted (h : Sorts srv stdSort) :
    (sortVector srv stdSort rand srvs).Pairwise fun a b =>
      (srv a).m_priority ≤ (srv b).m_priority := by
  rw [sortVector_eq]
  refine (h.sorted srvs).imp fun hab => ?_
  have hle := le_sortCompare_iff.mp hab
  omega

/-! ### Who can be the first -/

theorem find_before {R : α → α → Prop} {p : α → Bool} {l : List α} {a b : α} (hl : l.Pairwise R)
    (ha : l.find? p = some a) (hb : b ∈ l) (hpb : p b = true) : b = a ∨ R a b := by
  obtain ⟨_, as, bs, rfl, has⟩ := List.find?_eq_some_iff_append.mp ha
  rcases List.mem_append.mp hb with hb | hb
  · exact absurd hpb (by simpa using has b hb)
  · rcases List.mem_cons.mp hb with rfl | hb
    · exact Or.inl rfl
    · exact Or.inr ((List.pairwise_cons.mp (List.pairwise_append.mp hl).2.1).1 b hb)

/-- Some stream of random numbers places the record first among its priority. -/
def Reachable (srv : α → DiameterSrv) (stdSort : List α → List α) (srvs : List α) (a : α) : Prop :=
  ∃ rand, (sortVector srv stdSort rand srvs).find?
    (fun b => (srv b).m_priority = (srv a).m_priority) = some a

/-- A record that is placed first among its priority has the least weight there. -/
theorem Reachable.weight_le (h : Sorts srv stdSort) {a b : α} (ha : Reachable srv stdSort srvs a)
    (hb : b ∈ srvs) (hpriority : (srv b).m_priority = (srv a).m_priority) :
    b = a ∨ (srv a).m_weight ≤ (srv b).m_weight := by
  obtain ⟨rand, hfind⟩ := ha
  rw [sortVector_eq] at hfind
  have hmem : b ∈ stdSort srvs := (h.perm srvs).mem_iff.mpr hb
  rcases find_before (h.sorted srvs) hfind hmem (by simpa using hpriority) with he | hle
  · exact Or.inl he
  · have hle' := le_sortCompare_iff.mp hle
    exact Or.inr (by omega)

/-- Two records of a priority are not both placed first. -/
theorem Reachable.unique {a b : α} (ha : Reachable srv stdSort srvs a)
    (hb : Reachable srv stdSort srvs b) (hpriority : (srv b).m_priority = (srv a).m_priority) :
    b = a := by
  obtain ⟨rand, hfind⟩ := ha
  obtain ⟨rand', hfind'⟩ := hb
  rw [sortVector_eq] at hfind hfind'
  rw [hpriority, hfind] at hfind'
  exact (Option.some.inj hfind').symm

theorem reachable_iff (h : Sorts srv stdSort) :
    (∀ a ∈ srvs, (srv a).m_weight ≠ 0 → Reachable srv stdSort srvs a) ↔
      ∀ a ∈ srvs, (srv a).m_weight ≠ 0 → ∀ b ∈ srvs,
        (srv b).m_priority = (srv a).m_priority → b = a := by
  constructor
  · intro hall a ha hweight b hb hpriority
    have hreach := hall a ha hweight
    rcases hreach.weight_le h hb hpriority with he | hle
    · exact he
    · -- the other one has a weight as well, and would be the first for some stream, too
      exact hreach.unique (hall b hb (by omega)) hpriority
  · intro halone a ha hweight
    refine ⟨fun _ => 0, ?_⟩
    rw [sortVector_eq]
    have hmem : a ∈ stdSort srvs := (h.perm srvs).mem_iff.mpr ha
    cases hfind : (stdSort srvs).find? fun b => (srv b).m_priority = (srv a).m_priority with
    | none => exact absurd (List.find?_eq_none.mp hfind a hmem) (by simp)
    | some b =>
      have hb : b ∈ srvs := (h.perm srvs).mem_iff.mp (List.mem_of_find?_eq_some hfind)
      have hpriority := List.find?_some hfind
      rw [halone a ha hweight b hb (by simpa using hpriority)]

/-- **What `sort_vector` does**: the records are permuted, with ascending priorities, for every stream
of random numbers.  Each record with a weight can be the first of its priority if and only if each of
them is alone in its priority. -/
theorem sortVector_weighted (h : Sorts srv stdSort) (srvs : List α) :
    (∀ rand, (sortVector srv stdSort rand srvs).Perm srvs ∧
      (sortVector srv stdSort rand srvs).Pairwise fun a b =>
        (srv a).m_priority ≤ (srv b).m_priority) ∧
    ((∀ a ∈ srvs, (srv a).m_weight ≠ 0 → Reachable srv stdSort srvs a) ↔
      ∀ a ∈ srvs, (srv a).m_weight ≠ 0 → ∀ b ∈ srvs,
        (srv b).m_priority = (srv a).m_priority → b = a) :=
  ⟨fun _ => ⟨sortVector_perm h, sortVector_sorted h⟩, reachable_iff h⟩

/-- A stable sort is one that `std::sort` may be. -/
theorem sorts_sort : Sorts srv (sort (sortCompare srv)) where
  perm := sort_perm _
  sorted := sort_sorted strictWeak_sortCompare

end

/-- Two records of one priority, with the weights 1 and 2. -/
def twoWeights : List DiameterSrv :=
  [⟨10, 1, 3868, ⟨[], [], []⟩⟩, ⟨10, 2, 3869, ⟨[], [], []⟩⟩]

theorem sortVector_weighted_twoWeights :
    (∀ rand, (sortVector id (sort (sortCompare id)) rand twoWeights).Perm twoWeights ∧
      (sortVector id (sort (sortCompare id)) rand twoWeights).Pairwise fun a b =>
        a.m_priority ≤ b.m_priority) ∧
    ((∀ a ∈ twoWeights, a.m_weight ≠ 0 → Reachable id (sort (sortCompare id)) twoWeights a) ↔
      ∀ a ∈ twoWeights, a.m_weight ≠ 0 → ∀ b ∈ twoWeights, b.m_priority = a.m_priority → b = a) :=
  sortVector_weighted sorts_sort twoWeights

theorem second_never_first :
    ¬ ∀ (stdSort : List DiameterSrv → List DiameterSrv), Sorts id stdSort → ∀ srvs : List DiameterSrv,
      (∀ rand, (sortVector id stdSort rand srvs).Perm srvs ∧
        (sortVector id stdSort rand srvs).Pairwise fun a b => a.m_priority ≤ b.m_priority) ∧
      ∀ a ∈ srvs, a.m_weight ≠ 0 → Reachable id stdSort srvs a := by
  intro h
  have hreach := (h (sort (sortCompare id)) sorts_sort twoWeights).2
    ⟨10, 2, 3869, ⟨[], [], []⟩⟩ (by decide) (by decide)
  obtain ⟨rand, hfind⟩ := hreach
  rw [sortVector_eq] at hfind
  exact absurd hfind (by decide)

end DiameterSrvVector

end OpenairHss.Epc
