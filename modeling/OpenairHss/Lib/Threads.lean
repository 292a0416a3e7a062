import Mathlib.Algebra.BigOperators.Group.List.Basic
import Mathlib.Data.BitVec
import Mathlib.Data.UInt

/-!
# A pool of threads

The threads of a program are the list of their places, `ts`; a step of thread `i` sets its place.
`tally w ts` adds up what each thread accounts for, so that a counter that the threads share can be
compared with the places they are in.
-/

namespace Threads

variable {π : Type} {w : π → Nat} {ts : List π} {i j : Nat} {p q r : π}

/-- The sum of a weight over the threads. -/
def tally (w : π → Nat) (ts : List π) : Nat := (ts.map w).sum

theorem tally_append (us : List π) : tally w (ts ++ us) = tally w ts + tally w us := by
  rw [tally, List.map_append, List.sum_append]
  rfl

theorem tally_replicate (n : Nat) : tally w (List.replicate n p) = n * w p := by
  rw [tally, List.map_replicate, List.sum_replicate, Nat.nsmul_eq_mul]

/-- A step of one thread changes the sum by what this thread accounts for. -/
theorem tally_set (h : ts[i]? = some p) : tally w (ts.set i q) + w p = tally w ts + w q := by
  induction ts generalizing i with
  | nil => exact absurd h (by simp)
  | cons t ts ih =>
    cases i with
    | zero =>
      rw [List.getElem?_cons_zero, Option.some.injEq] at h
      subst h
      show w q + tally w ts + w t = w t + tally w ts + w q
      omega
    | succ i =>
      have htail := ih (i := i) h
      show w t + tally w (ts.set i q) + w p = w t + tally w ts + w q
      omega

theorem le_tally (h : ts[i]? = some p) : w p ≤ tally w ts := by
  induction ts generalizing i with
  | nil => exact absurd h (by simp)
  | cons t ts ih =>
    cases i with
    | zero =>
      rw [List.getElem?_cons_zero, Option.some.injEq] at h
      subst h
      exact Nat.le_add_right (w t) (tally w ts)
    | succ i => exact Nat.le_trans (ih (i := i) h) (Nat.le_add_left (tally w ts) (w t))

theorem tally_mono {v : π → Nat} (h : ∀ p, v p ≤ w p) : tally v ts ≤ tally w ts := by
  induction ts with
  | nil => exact Nat.le_refl 0
  | cons t ts ih => exact Nat.add_le_add (h t) ih

/-- Where no thread accounts for more than one, a thread that accounts for nothing is missing in the
sum. -/
theorem tally_lt_length (hw : ∀ p, w p ≤ 1) (h : p ∈ ts) (hp : w p = 0) : tally w ts < ts.length := by
  have hle : ∀ us : List π, tally w us ≤ us.length := by
    intro us
    induction us with
    | nil => exact Nat.le_refl 0
    | cons u us ih =>
      have hu := hw u
      show w u + tally w us ≤ us.length + 1
      omega
  induction ts with
  | nil => exact absurd h List.not_mem_nil
  | cons t ts ih =>
    have ht := hw t
    have hts := hle ts
    show w t + tally w ts < ts.length + 1
    rcases List.mem_cons.mp h with rfl | h
    · omega
    · have hlt := ih h
      omega

theorem getElem?_set_self (h : ts[i]? = some p) : (ts.set i q)[i]? = some q := by
  have hlt : i < ts.length := (List.getElem?_eq_some_iff.mp h).1
  rw [List.getElem?_set_self hlt]

/-- After a step of thread `i`, a thread is `i` at its new place, or another one, where it was. -/
theorem getElem?_set_cases (h : (ts.set i q)[j]? = some r) :
    (j = i ∧ r = q) ∨ (j ≠ i ∧ ts[j]? = some r) := by
  rw [List.getElem?_set] at h
  split at h
  case isTrue hij =>
    split at h
    case isTrue hlt => exact Or.inl ⟨hij.symm, (Option.some.inj h).symm⟩
    case isFalse hlt => exact absurd h (by simp)
  case isFalse hij => exact Or.inr ⟨fun hji => hij hji.symm, h⟩

end Threads
