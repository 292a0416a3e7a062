import Mathlib.Data.List.Basic
import Mathlib.Data.BitVec
import Mathlib.Data.UInt

/-!
# Lines of cells with commas between them

* `line_injective`: a line of cells without commas shows all of its cells.
* `commas_line`: the number of its columns.
* `line_terminated`, `line_padded`: how such a line is written piece by piece.
-/

namespace Csv

/-! ### Numbers -/

theorem toString_injective {n m : Nat} (h : toString n = toString m) : n = m := by
  have hdigits : Nat.toDigits 10 n = Nat.toDigits 10 m := by
    rw [← Nat.toList_repr, ← Nat.toList_repr]
    exact congrArg String.toList h
  rw [← Nat.ofDigitChars_toDigits (b := 10) (n := n) (by decide) (by decide), hdigits,
    Nat.ofDigitChars_toDigits (by decide) (by decide)]

theorem not_mem_toString {c : Char} (hc : c.isDigit = false) (n : Nat) : c ∉ (toString n).toList := by
  intro h
  rw [show (toString n).toList = Nat.toDigits 10 n from Nat.toList_repr] at h
  exact absurd (Nat.isDigit_of_mem_toDigits (by decide) (by decide) h) (by simp [hc])

theorem toString_ne_empty (n : Nat) : toString n ≠ "" := by
  intro h
  have hchars := congrArg String.toList h
  rw [show (toString n).toList = Nat.toDigits 10 n from Nat.toList_repr] at hchars
  exact Nat.toDigits_ne_nil hchars

/-! ### Lines -/

/-- The cell has no comma. -/
def Plain (cell : String) : Prop := ',' ∉ cell.toList

def line (cells : List String) : String := ",".intercalate cells

theorem plain_toString (n : Nat) : Plain (toString n) := not_mem_toString (by decide) n

theorem plain_empty : Plain "" := by simp [Plain]

theorem toList_line (cells : List String) :
    (line cells).toList = [','].intercalate (cells.map String.toList) := by
  rw [line, String.toList_intercalate]
  rfl

/-- A line of plain cells is split at its commas into its cells. -/
theorem splitOn_line {cells : List String} (hne : cells ≠ []) (hplain : ∀ x ∈ cells, Plain x) :
    (line cells).toList.splitOn ',' = cells.map String.toList := by
  rw [toList_line]
  refine List.splitOn_intercalate ',' (fun l hl => ?_) (by simpa using hne)
  obtain ⟨x, hx, rfl⟩ := List.mem_map.mp hl
  exact hplain x hx

theorem line_injective {xs ys : List String} (hx : xs ≠ []) (hy : ys ≠ [])
    (hxs : ∀ x ∈ xs, Plain x) (hys : ∀ y ∈ ys, Plain y) (h : line xs = line ys) : xs = ys := by
  have hcells : xs.map String.toList = ys.map String.toList := by
    rw [← splitOn_line hx hxs, ← splitOn_line hy hys, h]
  exact List.map_injective_iff.mpr (fun _ _ => String.toList_injective) hcells

/-- The cells at the head of a line, each with the comma after it. -/
theorem intercalate_terminated (xs : List (List Char)) (y : List Char) (ys : List (List Char)) :
    [','].intercalate (xs ++ y :: ys) =
      (xs.flatMap fun x => x ++ [',']) ++ [','].intercalate (y :: ys) := by
  induction xs with
  | nil => rfl
  | cons x xs ih =>
    obtain ⟨z, zs, hz⟩ : ∃ z zs, xs ++ y :: ys = z :: zs := by
      cases xs with
      | nil => exact ⟨y, ys, rfl⟩
      | cons x' xs => exact ⟨x', xs ++ y :: ys, rfl⟩
    rw [List.cons_append, hz, List.intercalate_cons_cons, ← hz, ih, List.flatMap_cons]
    simp only [List.append_assoc]

/-- Empty cells at the end of a line. -/
theorem intercalate_padded (y : List Char) (n : Nat) :
    [','].intercalate (y :: List.replicate n []) = y ++ List.replicate n ',' := by
  induction n generalizing y with
  | zero =>
    rw [List.replicate_zero, List.intercalate_singleton]
    exact (List.append_nil y).symm
  | succ n ih =>
    rw [List.replicate_succ, List.intercalate_cons_cons, ih]
    simp [List.replicate_succ]

theorem count_intercalate (y : List Char) (ys : List (List Char)) (hplain : ∀ x ∈ y :: ys, ',' ∉ x) :
    ([','].intercalate (y :: ys)).count ',' = ys.length := by
  induction ys generalizing y with
  | nil =>
    rw [List.intercalate_singleton]
    exact List.count_eq_zero.mpr (hplain y List.mem_cons_self)
  | cons z zs ih =>
    have hy := List.count_eq_zero.mpr (hplain y List.mem_cons_self)
    have hzs := ih z fun x hx => hplain x (List.mem_cons_of_mem y hx)
    rw [List.intercalate_cons_cons, List.count_append, List.count_append, hy, hzs]
    simp
    omega

/-- The commas of a line. -/
theorem commas_line {cells : List String} (hne : cells ≠ []) (hplain : ∀ x ∈ cells, Plain x) :
    (line cells).toList.count ',' + 1 = cells.length := by
  cases cells with
  | nil => exact absurd rfl hne
  | cons x xs =>
    rw [toList_line, List.map_cons, count_intercalate, List.length_map, List.length_cons]
    intro l hl
    obtain ⟨z, hz, rfl⟩ := List.mem_map.mp (by rwa [← List.map_cons] at hl)
    exact hplain z hz

end Csv
