import Mathlib.Data.List.Sort
import Mathlib.Data.BitVec
import Mathlib.Data.UInt

/-!
# Stable sorting

`sort lt` is the sorting of a list by a comparison "less than" that leaves elements of which none is
less than the other in their order.

* `sort_perm`, `sort_sorted`: the result has the same elements, and none is less than an earlier one.
* `pairwise_sort_iff`: a relation holds along the result if it holds of each two elements of the list,
  in the order they are put in.
* `sort_eq_self`: a list that is in order stays as it is.
* `byKey`: a comparison by a number first.
-/

namespace StableSort

variable {α : Type}

/-- `lt` is a strict weak order. -/
structure StrictWeak (lt : α → α → Bool) : Prop where
  asymm : ∀ a b, lt a b = true → lt b a = false
  trans : ∀ a b c, lt b a = false → lt c b = false → lt c a = false

/-- Not greater. -/
def le (lt : α → α → Bool) (a b : α) : Prop := lt b a = false

instance (lt : α → α → Bool) : DecidableRel (le lt) := fun a b =>
  inferInstanceAs (Decidable (lt b a = false))

def sort (lt : α → α → Bool) (l : List α) : List α := l.insertionSort (le lt)

variable {lt : α → α → Bool} {R : α → α → Prop}

theorem sort_perm (lt : α → α → Bool) (l : List α) : (sort lt l).Perm l :=
  List.perm_insertionSort (le lt) l

theorem sort_cons (a : α) (l : List α) : sort lt (a :: l) = (sort lt l).orderedInsert (le lt) a := rfl

theorem mem_sort {a : α} {l : List α} : a ∈ sort lt l ↔ a ∈ l := (sort_perm lt l).mem_iff

/-- A new element is put before the first one that is not less than it. -/
theorem pairwise_orderedInsert_iff (hlt : StrictWeak lt) (a : α) (l : List α)
    (hl : l.Pairwise (le lt)) :
    (l.orderedInsert (le lt) a).Pairwise R ↔
      (∀ b ∈ l, if lt b a then R b a else R a b) ∧ l.Pairwise R := by
  induction l with
  | nil => simp
  | cons b l ih =>
    obtain ⟨hb, hl⟩ := List.pairwise_cons.mp hl
    by_cases hab : le lt a b
    · have hall : ∀ c ∈ b :: l, lt c a = false := by
        intro c hc
        rcases List.mem_cons.mp hc with rfl | hc
        · exact hab
        · exact hlt.trans a b c hab (hb c hc)
      rw [List.orderedInsert_cons, if_pos hab, List.pairwise_cons]
      refine and_congr_left fun _ => forall₂_congr fun c hc => ?_
      rw [hall c hc]
      simp
    · have hba : lt b a = true := by
        rw [le, Bool.not_eq_false] at hab
        exact hab
      rw [List.orderedInsert_cons, if_neg hab, List.pairwise_cons, List.pairwise_cons, ih hl,
        List.forall_mem_cons, hba, if_pos rfl]
      have hmem : (∀ c ∈ l.orderedInsert (le lt) a, R b c) ↔ R b a ∧ ∀ c ∈ l, R b c := by
        simp [List.mem_orderedInsert]
      rw [hmem]
      tauto

theorem sort_sorted (hlt : StrictWeak lt) (l : List α) : (sort lt l).Pairwise (le lt) := by
  induction l with
  | nil => exact List.Pairwise.nil
  | cons a l ih =>
    rw [sort_cons, pairwise_orderedInsert_iff hlt a _ ih]
    refine ⟨fun b _ => ?_, ih⟩
    cases hba : lt b a with
    | true => exact hlt.asymm b a hba
    | false => exact hba

/-- **A relation along the result**: each two elements are put in the order of the comparison, or
stay in the order they have. -/
theorem pairwise_sort_iff (hlt : StrictWeak lt) (l : List α) :
    (sort lt l).Pairwise R ↔ l.Pairwise fun a b => if lt b a then R b a else R a b := by
  induction l with
  | nil => exact ⟨fun _ => List.Pairwise.nil, fun _ => List.Pairwise.nil⟩
  | cons a l ih =>
    rw [sort_cons, pairwise_orderedInsert_iff hlt a _ (sort_sorted hlt l), List.pairwise_cons, ih]
    refine and_congr_left fun _ => forall_congr' fun b => ?_
    rw [mem_sort]

theorem sort_eq_self {l : List α} (h : l.Pairwise (le lt)) : sort lt l = l :=
  h.insertionSort_eq

/-! ### Comparisons by numbers -/

/-- Less by the number `f`. -/
def ltKey (f : α → Nat) (a b : α) : Bool := f a < f b

/-- Less by the number `f`, or equal there and less by `lt`. -/
def byKey (f : α → Nat) (lt : α → α → Bool) (a b : α) : Bool :=
  if f a < f b then true else if f a > f b then false else lt a b

variable {f : α → Nat} {a b : α}

theorem le_ltKey_iff : le (ltKey f) a b ↔ f a ≤ f b := by
  rw [le, ltKey, decide_eq_false_iff_not, Nat.not_lt]

theorem le_byKey_iff : le (byKey f lt) a b ↔ f a < f b ∨ f a = f b ∧ le lt a b := by
  rw [le, byKey]
  split
  case isTrue h =>
    refine ⟨fun hf => Bool.noConfusion hf, ?_⟩
    rintro (hlt | ⟨heq, _⟩) <;> omega
  case isFalse h =>
    split
    case isTrue h' => exact ⟨fun _ => Or.inl h', fun _ => rfl⟩
    case isFalse h' =>
      refine ⟨fun hle => Or.inr ⟨by omega, hle⟩, ?_⟩
      rintro (hlt | ⟨_, hle⟩)
      · omega
      · exact hle

/-- A comparison is a strict weak order if "not greater" is total and transitive. -/
theorem StrictWeak.of_le (htotal : ∀ a b, le lt a b ∨ le lt b a)
    (htrans : ∀ a b c, le lt a b → le lt b c → le lt a c) : StrictWeak lt where
  asymm a b h := by
    rcases htotal a b with hab | hba
    · exact hab
    · rw [le, h] at hba
      exact Bool.noConfusion hba
  trans := htrans

theorem StrictWeak.le_total (h : StrictWeak lt) (a b : α) : le lt a b ∨ le lt b a := by
  cases hba : lt b a with
  | false => exact Or.inl hba
  | true => exact Or.inr (h.asymm b a hba)

theorem strictWeak_ltKey (f : α → Nat) : StrictWeak (ltKey f) := by
  refine StrictWeak.of_le (fun a b => ?_) fun a b c hab hbc => ?_
  · rw [le_ltKey_iff, le_ltKey_iff]
    omega
  · rw [le_ltKey_iff] at hab hbc ⊢
    omega

theorem strictWeak_byKey (f : α → Nat) (h : StrictWeak lt) : StrictWeak (byKey f lt) := by
  refine StrictWeak.of_le (fun a b => ?_) fun a b c hab hbc => ?_
  · rw [le_byKey_iff, le_byKey_iff]
    have hle := h.le_total a b
    rcases Nat.lt_trichotomy (f a) (f b) with hlt | heq | hgt
    · exact Or.inl (Or.inl hlt)
    · exact hle.imp (fun hab => Or.inr ⟨heq, hab⟩) fun hba => Or.inr ⟨heq.symm, hba⟩
    · exact Or.inr (Or.inl hgt)
  · rw [le_byKey_iff] at hab hbc ⊢
    rcases hab with hab | ⟨hab, hle⟩
    · exact Or.inl (by omega)
    · rcases hbc with hbc | ⟨hbc, hle'⟩
      · exact Or.inl (by omega)
      · exact Or.inr ⟨by omega, h.trans a b c hle hle'⟩

end StableSort
