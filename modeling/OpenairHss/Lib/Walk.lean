import Mathlib.Data.Set.Finite.Basic
import Mathlib.Data.Fintype.Pigeonhole
import Mathlib.Data.BitVec
import Mathlib.Data.UInt

/-!
# Walks of a partial function

`walk next n a` is the point that is reached from `a` after `n` moves of the partial function
`next`, if there are that many.

* `ends_iff_simple`: a walk that stays in a finite set comes to an end exactly if it meets no point
  twice.
-/

namespace Walk

variable {α : Type} {next : α → Option α} {a : α}

/-- The point after `n` moves. -/
def walk (next : α → Option α) : Nat → α → Option α
  | 0, a => some a
  | n + 1, a => (next a).bind (walk next n)

/-- The walk from `a` comes to an end. -/
def Ends (next : α → Option α) (a : α) : Prop := ∃ n, walk next n a = none

/-- The walk from `a` meets no point twice. -/
def Simple (next : α → Option α) (a : α) : Prop :=
  ∀ i j p, walk next i a = some p → walk next j a = some p → i = j

theorem walk_add (i j : Nat) (a : α) :
    walk next (i + j) a = (walk next i a).bind (walk next j) := by
  induction i generalizing a with
  | zero => simp [walk]
  | succ i ih =>
    rw [Nat.add_right_comm, walk, walk, Option.bind_assoc]
    exact congrArg _ (funext fun b => ih b)

theorem walk_none_of_le {i j : Nat} (h : walk next i a = none) (hij : i ≤ j) :
    walk next j a = none := by
  obtain ⟨k, rfl⟩ := Nat.exists_eq_add_of_le hij
  rw [walk_add, h, Option.bind_none]

/-- A walk that comes back to a point goes round for ever. -/
theorem not_ends_of_return {i k : Nat} {p : α} (hi : walk next i a = some p)
    (hk : walk next (i + (k + 1)) a = some p) : ¬ Ends next a := by
  have hround : walk next (k + 1) p = some p := by
    rw [walk_add, hi] at hk
    exact hk
  have hrounds : ∀ n, walk next (i + n * (k + 1)) a = some p := by
    intro n
    induction n with
    | zero => rw [Nat.zero_mul, Nat.add_zero, hi]
    | succ n ih => rw [Nat.succ_mul, ← Nat.add_assoc, walk_add, ih, Option.bind_some, hround]
  rintro ⟨n, hn⟩
  have hle : n ≤ i + n * (k + 1) :=
    le_trans (Nat.le_mul_of_pos_right n (Nat.succ_pos k)) (Nat.le_add_left _ i)
  exact Option.some_ne_none p ((hrounds n).symm.trans (walk_none_of_le hn hle))

/-- **A walk in a finite set comes to an end exactly if it meets no point twice.** -/
theorem ends_iff_simple {S : Set α} (hfin : S.Finite)
    (hS : ∀ n p, walk next n a = some p → p ∈ S) : Ends next a ↔ Simple next a := by
  constructor
  · intro hends i j p hi hj
    rcases Nat.lt_trichotomy i j with hlt | heq | hlt
    · obtain ⟨k, rfl⟩ := Nat.exists_eq_add_of_lt hlt
      exact absurd hends (not_ends_of_return hi hj)
    · exact heq
    · obtain ⟨k, rfl⟩ := Nat.exists_eq_add_of_lt hlt
      exact absurd hends (not_ends_of_return hj hi)
  · intro hsimple
    by_contra hnot
    have hsome : ∀ n, ∃ p, walk next n a = some p := fun n =>
      Option.ne_none_iff_exists'.mp fun h => hnot ⟨n, h⟩
    choose point hpoint using hsome
    have := hfin.to_subtype
    obtain ⟨i, j, hne, heq⟩ := Finite.exists_ne_map_eq_of_infinite
      fun n => (⟨point n, hS n _ (hpoint n)⟩ : S)
    have hp : point i = point j := congrArg Subtype.val heq
    exact hne (hsimple i j (point i) (hpoint i) (hp ▸ hpoint j))

end Walk
