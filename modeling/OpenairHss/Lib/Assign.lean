import Mathlib.Logic.Function.Basic
import Mathlib.Data.List.Basic
import Mathlib.Data.BitVec
import Mathlib.Data.UInt

/-!
# Variables that are assigned one after the other

The variables have types of their own, and an assignment names its variable.  What counts for a
variable is the last assignment to it, so the assignments to the others may be left out or moved.

* `foldl_apply`: the value of a variable after a sequence of assignments.
* `last_append`: two sequences, one after the other.
* `last_filter`: the assignments to some of the variables only.
* `last_isSome`: whether a variable is assigned at all.
-/

namespace Assign

/-- A value for one of the variables. -/
structure Assignment {ι : Type} (β : ι → Type) where
  target : ι
  value : β target

variable {ι : Type} [DecidableEq ι] {β : ι → Type}

namespace Assignment

def apply (f : (x : ι) → β x) (a : Assignment β) : (x : ι) → β x :=
  Function.update f a.target a.value

/-- The value that the assignment has for `x`. -/
def at? (x : ι) (a : Assignment β) : Option (β x) :=
  if h : a.target = x then some (h ▸ a.value) else none

theorem at?_self (a : Assignment β) : a.at? a.target = some a.value := dif_pos rfl

theorem at?_of_ne {a : Assignment β} {x : ι} (h : a.target ≠ x) : a.at? x = none := dif_neg h

theorem isSome_at? {a : Assignment β} {x : ι} : (a.at? x).isSome ↔ a.target = x := by
  by_cases h : a.target = x
  · subst h
    simp [at?_self]
  · simp [at?_of_ne h, h]

theorem apply_eq (f : (x : ι) → β x) (a : Assignment β) (x : ι) :
    apply f a x = (a.at? x).getD (f x) := by
  by_cases h : a.target = x
  · subst h
    rw [at?_self, Option.getD_some]
    exact Function.update_self _ _ _
  · rw [at?_of_ne h, Option.getD_none]
    exact Function.update_of_ne (Ne.symm h) _ _

end Assignment

/-- The value of the last assignment to `x`. -/
def last (as : List (Assignment β)) (x : ι) : Option (β x) := as.reverse.findSome? (·.at? x)

@[simp] theorem last_nil (x : ι) : last ([] : List (Assignment β)) x = none := rfl

theorem last_append (as bs : List (Assignment β)) (x : ι) :
    last (as ++ bs) x = (last bs x).or (last as x) := by
  rw [last, List.reverse_append, List.findSome?_append]
  rfl

theorem last_cons (a : Assignment β) (as : List (Assignment β)) (x : ι) :
    last (a :: as) x = (last as x).or (a.at? x) := by
  rw [← List.singleton_append, last_append]
  simp [last]

theorem last_toList (a : Option (Assignment β)) (x : ι) : last a.toList x = a.bind (·.at? x) := by
  cases a with
  | none => rfl
  | some a => exact last_cons a [] x

theorem foldl_apply (as : List (Assignment β)) (f : (x : ι) → β x) (x : ι) :
    as.foldl Assignment.apply f x = (last as x).getD (f x) := by
  induction as generalizing f with
  | nil => rfl
  | cons a as ih =>
    rw [List.foldl_cons, ih, last_cons]
    cases last as x with
    | none => exact Assignment.apply_eq f a x
    | some b => rfl

/-- Only the assignments to some of the variables are kept. -/
theorem last_filter (q : ι → Bool) (as : List (Assignment β)) (x : ι) :
    last (as.filter fun a => q a.target) x = if q x then last as x else none := by
  induction as with
  | nil => exact (ite_self _).symm
  | cons a as ih =>
    rw [List.filter_cons, last_cons]
    by_cases hx : a.target = x
    · subst hx
      cases hq : q a.target <;> simp [last_cons, ih, hq]
    · have hrest : (last as x).or (a.at? x) = last as x := by
        rw [Assignment.at?_of_ne hx, Option.or_none]
      rw [hrest, ← ih]
      cases q a.target <;> simp [last_cons, Assignment.at?_of_ne hx]

theorem last_isSome {as : List (Assignment β)} {x : ι} :
    (last as x).isSome ↔ ∃ a ∈ as, a.target = x := by
  simp only [last, List.isSome_findSome?, List.any_eq_true, List.mem_reverse, Assignment.isSome_at?]

end Assign
