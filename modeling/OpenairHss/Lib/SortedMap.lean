import Mathlib.Order.Basic
import Mathlib.Order.Defs.LinearOrder
import Mathlib.Data.List.Perm.Basic
import Mathlib.Data.List.Pairwise
import Mathlib.Data.BitVec
import Mathlib.Data.UInt

/-!
# Maps in key order

`SortedMap κ β` is a finite map with its entries in the order of their keys, as `std::map` iterates
over them; that the keys are strictly increasing is part of the type.

* `alter`: the one operation that changes a map, at one key.  `insert` (which keeps an entry that
  is there) and `push` (which appends to the list at a key) are instances of it.
* `keys_nodup`: no key occurs twice.
* `find?_alter`, `find?_insert`: the value at a key afterwards.
* `flat_push`: the pairs of a map of lists after a `push`, up to order.
-/

variable {κ β γ : Type} [LinearOrder κ]

/-- A list of entries with strictly increasing keys. -/
structure SortedMap (κ β : Type) [LinearOrder κ] where
  entries : List (κ × β)
  sorted : entries.Pairwise fun a b => a.1 < b.1

namespace SortedMap

/-- The entries after changing the value at `k`. -/
def alterList (k : κ) (f : Option β → β) : List (κ × β) → List (κ × β)
  | [] => [(k, f none)]
  | (k', v) :: l =>
    if k < k' then (k, f none) :: (k', v) :: l
    else if k = k' then (k', f (some v)) :: l
    else (k', v) :: alterList k f l

theorem mem_alterList {k : κ} {f : Option β → β} : ∀ {l : List (κ × β)} {e : κ × β},
    e ∈ alterList k f l → e.1 = k ∨ e ∈ l := by
  intro l
  induction l with
  | nil =>
    intro e h
    rw [alterList, List.mem_singleton] at h
    exact .inl (congrArg Prod.fst h)
  | cons a l ih =>
    intro e h
    rw [alterList] at h
    split at h
    · rcases List.mem_cons.mp h with rfl | h
      · exact .inl rfl
      · exact .inr h
    · split at h
      case isTrue hk =>
        rcases List.mem_cons.mp h with rfl | h
        · exact .inl hk.symm
        · exact .inr (List.mem_cons_of_mem _ h)
      case isFalse =>
        rcases List.mem_cons.mp h with rfl | h
        · exact .inr List.mem_cons_self
        · rcases ih h with h | h
          · exact .inl h
          · exact .inr (List.mem_cons_of_mem _ h)

theorem sorted_alterList (k : κ) (f : Option β → β) : ∀ {l : List (κ × β)},
    l.Pairwise (fun a b => a.1 < b.1) → (alterList k f l).Pairwise fun a b => a.1 < b.1 := by
  intro l
  induction l with
  | nil => exact fun _ => List.pairwise_singleton _ _
  | cons a l ih =>
    intro h
    obtain ⟨hhead, htail⟩ := List.pairwise_cons.mp h
    rw [alterList]
    split
    case isTrue hlt =>
      refine List.pairwise_cons.mpr ⟨?_, h⟩
      intro e he
      rcases List.mem_cons.mp he with rfl | he
      · exact hlt
      · exact lt_trans hlt (hhead e he)
    case isFalse hlt =>
      split
      · exact List.pairwise_cons.mpr ⟨hhead, htail⟩
      case isFalse hne =>
        refine List.pairwise_cons.mpr ⟨?_, ih htail⟩
        intro e he
        rcases mem_alterList he with hk | he
        · rw [hk]
          exact lt_of_le_of_ne (not_lt.mp hlt) (Ne.symm hne)
        · exact hhead e he

def empty : SortedMap κ β := ⟨[], List.Pairwise.nil⟩

instance : Inhabited (SortedMap κ β) := ⟨empty⟩

/-- Change the value at `k`, or put one there. -/
def alter (m : SortedMap κ β) (k : κ) (f : Option β → β) : SortedMap κ β :=
  ⟨alterList k f m.entries, sorted_alterList k f m.sorted⟩

/-- `m.insert (k, v)` of `std::map`: an entry that is there stays. -/
def insert (m : SortedMap κ β) (k : κ) (v : β) : SortedMap κ β := m.alter k fun o => o.getD v

/-- Append to the list at `k`, or start one. -/
def push (m : SortedMap κ (List γ)) (k : κ) (x : γ) : SortedMap κ (List γ) :=
  m.alter k fun o => o.getD [] ++ [x]

def find? (m : SortedMap κ β) (k : κ) : Option β := (m.entries.find? (·.1 = k)).map (·.2)

def keys (m : SortedMap κ β) : List κ := m.entries.map (·.1)

theorem keys_nodup (m : SortedMap κ β) : m.keys.Nodup :=
  List.Pairwise.map _ (fun _ _ h => ne_of_lt h) m.sorted

/-! ### Looking up -/

/-- The value at a key of a list of entries. -/
def lookup (k : κ) (l : List (κ × β)) : Option β := (l.find? (·.1 = k)).map (·.2)

theorem lookup_cons (k : κ) (e : κ × β) (l : List (κ × β)) :
    lookup k (e :: l) = if e.1 = k then some e.2 else lookup k l := by
  rw [lookup, List.find?_cons]
  by_cases h : e.1 = k
  · rw [if_pos h, decide_eq_true h]
    rfl
  · rw [if_neg h, decide_eq_false h]
    rfl

theorem lookup_eq_none {k : κ} {l : List (κ × β)} (h : ∀ e ∈ l, k < e.1) : lookup k l = none := by
  rw [lookup, Option.map_eq_none_iff, List.find?_eq_none]
  intro e he hk
  exact absurd (of_decide_eq_true hk) (ne_of_gt (h e he))

theorem lookup_alterList (k k' : κ) (f : Option β → β) : ∀ {l : List (κ × β)},
    l.Pairwise (fun a b => a.1 < b.1) →
    lookup k' (alterList k f l) = if k = k' then some (f (lookup k l)) else lookup k' l := by
  intro l
  induction l with
  | nil => exact fun _ => lookup_cons k' _ []
  | cons a l ih =>
    intro h
    obtain ⟨hhead, htail⟩ := List.pairwise_cons.mp h
    rw [alterList]
    split
    case isTrue hlt =>
      have hnone : lookup k (a :: l) = none := lookup_eq_none fun e he => by
        rcases List.mem_cons.mp he with rfl | he
        · exact hlt
        · exact lt_trans hlt (hhead e he)
      rw [lookup_cons, hnone]
    case isFalse hlt =>
      split
      case isTrue heq =>
        subst heq
        rw [lookup_cons, lookup_cons, lookup_cons, if_pos rfl]
        split <;> rfl
      case isFalse hne =>
        rw [lookup_cons, lookup_cons, lookup_cons, ih htail, if_neg (Ne.symm hne)]
        by_cases hk : a.1 = k'
        · rw [if_pos hk, if_pos hk, if_neg fun h => hne (h.trans hk.symm)]
        · rw [if_neg hk, if_neg hk]

theorem find?_alter (m : SortedMap κ β) (k k' : κ) (f : Option β → β) :
    (m.alter k f).find? k' = if k = k' then some (f (m.find? k)) else m.find? k' :=
  lookup_alterList k k' f m.sorted

/-- `insert` leaves the entry that is there. -/
theorem find?_insert (m : SortedMap κ β) (k k' : κ) (v : β) :
    (m.insert k v).find? k' = if k = k' then some ((m.find? k).getD v) else m.find? k' :=
  m.find?_alter k k' _

theorem find?_eq_some_iff {m : SortedMap κ β} {k : κ} {v : β} :
    m.find? k = some v ↔ (k, v) ∈ m.entries := by
  have hlist : ∀ {l : List (κ × β)}, l.Pairwise (fun a b => a.1 < b.1) →
      (lookup k l = some v ↔ (k, v) ∈ l) := by
    intro l
    induction l with
    | nil => exact fun _ => ⟨nofun, nofun⟩
    | cons e l ih =>
      intro h
      obtain ⟨hhead, htail⟩ := List.pairwise_cons.mp h
      rw [lookup_cons, List.mem_cons, ← ih htail]
      by_cases hk : e.1 = k
      · have hnone : lookup k l = none := lookup_eq_none fun e' he' => hk ▸ hhead e' he'
        rw [if_pos hk, hnone]
        constructor
        · intro hv
          exact Or.inl (Prod.ext hk.symm (Option.some.inj hv).symm)
        · rintro (hv | hv)
          · rw [← hv]
          · exact absurd hv nofun
      · rw [if_neg hk, or_iff_right fun hv => hk (congrArg Prod.fst hv).symm]
  exact hlist m.sorted

theorem mem_keys_iff {m : SortedMap κ β} {k : κ} : k ∈ m.keys ↔ ∃ v, m.find? k = some v := by
  rw [keys, List.mem_map]
  constructor
  · rintro ⟨e, he, rfl⟩
    exact ⟨e.2, find?_eq_some_iff.mpr he⟩
  · rintro ⟨v, hv⟩
    exact ⟨(k, v), find?_eq_some_iff.mp hv, rfl⟩

/-- What holds of the entries of a map and of an inserted one. -/
theorem forall_insert {P : κ → β → Prop} {m : SortedMap κ β} {k : κ} {v : β}
    (h : ∀ k v, m.find? k = some v → P k v) (hv : P k v) :
    ∀ k' v', (m.insert k v).find? k' = some v' → P k' v' := by
  intro k' v' hfind
  rw [find?_insert] at hfind
  by_cases hk : k = k'
  · subst hk
    rw [if_pos rfl] at hfind
    obtain rfl := Option.some.inj hfind
    cases hm : m.find? k with
    | none => exact hv
    | some w => exact h k w hm
  · rw [if_neg hk] at hfind
    exact h k' v' hfind

/-- All pairs of a key and a member of the list at it. -/
def flat (m : SortedMap κ (List γ)) : List (κ × γ) :=
  m.entries.flatMap fun e => e.2.map fun x => (e.1, x)

theorem flat_empty : (empty : SortedMap κ (List γ)).flat = [] := rfl

theorem flat_alterList (k : κ) (x : γ) : ∀ l : List (κ × List γ),
    ((alterList k (fun o => o.getD [] ++ [x]) l).flatMap fun e => e.2.map fun x => (e.1, x)).Perm
      ((k, x) :: l.flatMap fun e => e.2.map fun x => (e.1, x)) := by
  intro l
  induction l with
  | nil => exact List.Perm.refl _
  | cons a l ih =>
    rw [alterList]
    split
    · exact List.Perm.refl _
    · split
      case isTrue hk =>
        subst hk
        simp only [Option.getD_some, List.flatMap_cons, List.map_append, List.map_cons,
          List.map_nil, List.append_assoc, List.cons_append, List.nil_append]
        exact List.perm_middle
      case isFalse =>
        simp only [List.flatMap_cons]
        exact (ih.append_left _).trans List.perm_middle

/-- The pairs after a `push`. -/
theorem flat_push (m : SortedMap κ (List γ)) (k : κ) (x : γ) :
    (m.push k x).flat.Perm ((k, x) :: m.flat) :=
  flat_alterList k x m.entries

end SortedMap
