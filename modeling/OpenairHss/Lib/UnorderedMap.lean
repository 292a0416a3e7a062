import Mathlib.Data.List.Nodup
import Mathlib.Data.BitVec
import Mathlib.Data.UInt

/-!
# Maps without an order

A map is the list of its entries, in the order in which they came.  `emplace` keeps an entry that is
there already, so what a map has for a key is the first that was given for it (`first_emplaceAll`).
A walk over a map takes the entries in any order (`Walks`).
-/

namespace UnorderedMap

variable {K V : Type} [DecidableEq K]

/-- What is given first for a key. -/
def first (m : List (K × V)) (k : K) : Option V := m.lookup k

/-- A new entry, unless the key has one. -/
def emplace (m : List (K × V)) (k : K) (v : V) : List (K × V) :=
  if (first m k).isSome then m else m ++ [(k, v)]

/-- One entry after the other. -/
def emplaceAll (m l : List (K × V)) : List (K × V) := l.foldl (fun m e => emplace m e.1 e.2) m

@[simp] theorem emplaceAll_nil (m : List (K × V)) : emplaceAll m [] = m := rfl

theorem emplaceAll_append (m l l' : List (K × V)) :
    emplaceAll m (l ++ l') = emplaceAll (emplaceAll m l) l' := List.foldl_append

@[simp] theorem first_nil (k : K) : first ([] : List (K × V)) k = none := rfl

@[simp] theorem first_cons_self (k : K) (v : V) (m : List (K × V)) :
    first ((k, v) :: m) k = some v := by
  simp [first]

theorem first_cons_of_ne {k k' : K} (h : k' ≠ k) (v : V) (m : List (K × V)) :
    first ((k, v) :: m) k' = first m k' := by
  rw [first, List.lookup_cons, beq_eq_false_iff_ne.mpr h, first]

theorem first_append (m m' : List (K × V)) (k : K) :
    first (m ++ m') k = (first m k).or (first m' k) := List.lookup_append

theorem first_emplace (m : List (K × V)) (k : K) (v : V) (k' : K) :
    first (emplace m k v) k' = first (m ++ [(k, v)]) k' := by
  unfold emplace
  split
  · rename_i hk
    rw [first_append]
    by_cases heq : k' = k
    · obtain ⟨w, hw⟩ := Option.isSome_iff_exists.mp (heq ▸ hk)
      rw [hw, Option.some_or]
    · rw [first_cons_of_ne heq, first_nil, Option.or_none]
  · rfl

/-- **The first entry for a key stays.** -/
theorem first_emplaceAll (m l : List (K × V)) (k : K) :
    first (emplaceAll m l) k = first (m ++ l) k := by
  induction l generalizing m with
  | nil => rw [emplaceAll_nil, List.append_nil]
  | cons e l ih =>
    have hstep : emplaceAll m (e :: l) = emplaceAll (emplace m e.1 e.2) l := rfl
    rw [hstep, ih, first_append, first_emplace, ← first_append, List.append_assoc]
    rfl

/-- Every key has one entry. -/
def Keyed (m : List (K × V)) : Prop := (m.map Prod.fst).Nodup

theorem first_isSome_iff {m : List (K × V)} {k : K} :
    (first m k).isSome ↔ k ∈ m.map Prod.fst := by
  induction m with
  | nil => simp
  | cons e m ih =>
    obtain ⟨k', v⟩ := e
    by_cases heq : k = k'
    · simp [heq]
    · rw [first_cons_of_ne heq, ih]
      simp [heq]

theorem keyed_emplace {m : List (K × V)} (h : Keyed m) (k : K) (v : V) : Keyed (emplace m k v) := by
  unfold emplace
  split
  · exact h
  · rename_i hk
    rw [first_isSome_iff] at hk
    rw [Keyed, List.map_append]
    exact h.append (by simp) (by simpa using hk)

theorem keyed_emplaceAll {m : List (K × V)} (h : Keyed m) (l : List (K × V)) :
    Keyed (emplaceAll m l) := by
  induction l generalizing m with
  | nil => exact h
  | cons e l ih => exact ih (keyed_emplace h e.1 e.2)

theorem Keyed.mem_iff {m : List (K × V)} (h : Keyed m) {k : K} {v : V} :
    (k, v) ∈ m ↔ first m k = some v := by
  induction m with
  | nil => simp
  | cons e m ih =>
    obtain ⟨k', v'⟩ := e
    obtain ⟨hk', hm⟩ := List.nodup_cons.mp h
    by_cases heq : k = k'
    · subst heq
      have hout : (k, v) ∉ m := fun hmem => hk' (List.mem_map.mpr ⟨_, hmem, rfl⟩)
      simp [hout, eq_comm]
    · rw [first_cons_of_ne heq, ← ih hm]
      simp [heq]

/-! ### Walks -/

/-- An order of the entries, for every map. -/
def Walks (order : List (K × V) → List (K × V)) : Prop := ∀ m, (order m).Perm m

variable [DecidableEq V]

/-- The order that begins with one entry. -/
def beginWith (e : K × V) (m : List (K × V)) : List (K × V) := if e ∈ m then e :: m.erase e else m

theorem walks_beginWith (e : K × V) : Walks (beginWith e) := by
  intro m
  unfold beginWith
  split
  · rename_i he
    exact (List.perm_cons_erase he).symm
  · exact List.Perm.refl m

/-- **What is the same in all orders**: the first entry of a kind. -/
theorem forall_walks_find?_iff {m : List (K × V)} {p : K × V → Bool} {P : Option (K × V) → Prop} :
    (∀ order, Walks order → P ((order m).find? p)) ↔
      ((∀ e ∈ m, p e = false) → P none) ∧ ∀ e ∈ m, p e = true → P (some e) := by
  constructor
  · intro h
    refine ⟨fun hnone => ?_, fun e he hp => ?_⟩
    · have hid := h id fun m => List.Perm.refl m
      rwa [id, List.find?_eq_none.mpr fun e he => by simp [hnone e he]] at hid
    · have hfirst := h (beginWith e) (walks_beginWith e)
      rwa [beginWith, if_pos he, List.find?_cons_of_pos hp] at hfirst
  · rintro ⟨hnone, hsome⟩ order horder
    cases hfind : (order m).find? p with
    | none =>
      refine hnone fun e he => ?_
      have := List.find?_eq_none.mp hfind e ((horder m).mem_iff.mpr he)
      simpa using this
    | some e =>
      exact hsome e ((horder m).mem_iff.mp (List.mem_of_find?_eq_some hfind))
        (List.find?_some hfind)

end UnorderedMap
