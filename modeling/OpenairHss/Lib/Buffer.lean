import Mathlib.Data.List.GetD
import Mathlib.Tactic.ByContra
import Mathlib.Data.BitVec
import Mathlib.Data.UInt

/-!
# Buffers

A `Buffer` is a piece of memory that code writes to: its cells, also those behind its end, and the
indices that were written.  Code that writes a list from some index on, one cell after the other, has
`Filled` the buffer.

* `stays_within_iff`: such code stays within the first `n` cells if and only if the list does.
* `contents_of_le`, `contents_of_ge`: what is read from the buffer afterwards.
-/

/-- Cells, and the indices that were written. -/
structure Buffer (α : Type) where
  cells : Nat → α
  written : List Nat

namespace Buffer

variable {α : Type}

/-- Memory that was not written. -/
def fresh (cells : Nat → α) : Buffer α := ⟨cells, []⟩

/-- `b[i] = a`. -/
def write (b : Buffer α) (i : Nat) (a : α) : Buffer α :=
  ⟨fun j => if j = i then a else b.cells j, i :: b.written⟩

/-- The first `n` cells. -/
def contents (b : Buffer α) (n : Nat) : List α := (List.range n).map b.cells

/-- Only the first `n` cells were written. -/
def Within (n : Nat) (b : Buffer α) : Prop := ∀ i ∈ b.written, i < n

/-- `memcpy`, from the index `i` on. -/
def copy (b : Buffer α) (i : Nat) : List α → Buffer α
  | [] => b
  | a :: l => copy (b.write i a) (i + 1) l

@[simp] theorem write_cells (b : Buffer α) (i : Nat) (a : α) : (b.write i a).cells i = a :=
  if_pos rfl

theorem write_cells_of_ne (b : Buffer α) {i j : Nat} (a : α) (h : j ≠ i) :
    (b.write i a).cells j = b.cells j := if_neg h

@[simp] theorem write_written (b : Buffer α) (i : Nat) (a : α) :
    (b.write i a).written = i :: b.written := rfl

@[simp] theorem length_contents (b : Buffer α) (n : Nat) : (b.contents n).length = n := by
  simp [contents]

/-- A cell, from what is read. -/
theorem cells_of_contents {b : Buffer α} {n : Nat} {l : List α} (h : b.contents n = l) {i : Nat}
    (hi : i < l.length) : b.cells i = l[i] := by
  subst h
  simp [contents]

/-! ### Filling -/

/-- `b'` is `b` after `l` was written from the index `i` on. -/
structure Filled (b : Buffer α) (i : Nat) (l : List α) (b' : Buffer α) : Prop where
  cells : ∀ j, b'.cells j = if i ≤ j then l.getD (j - i) (b.cells j) else b.cells j
  written : ∀ j, j ∈ b'.written ↔ j ∈ b.written ∨ (i ≤ j ∧ j < i + l.length)

theorem filled_nil (b : Buffer α) (i : Nat) : Filled b i [] b := by
  refine ⟨fun j => by simp, fun j => ?_⟩
  simp only [List.length_nil, Nat.add_zero]
  constructor
  · exact Or.inl
  · rintro (h | h)
    · exact h
    · omega

/-- One cell, then the others. -/
theorem Filled.cons {b b' : Buffer α} {i : Nat} {a : α} {l : List α}
    (h : Filled (b.write i a) (i + 1) l b') : Filled b i (a :: l) b' := by
  refine ⟨fun j => ?_, fun j => ?_⟩
  · rw [h.cells]
    rcases Nat.lt_trichotomy j i with hj | rfl | hj
    · rw [if_neg (by omega), if_neg (by omega), write_cells_of_ne _ _ (by omega)]
    · rw [if_neg (by omega), if_pos (Nat.le_refl j), write_cells, Nat.sub_self]
      rfl
    · obtain ⟨k, rfl⟩ := Nat.exists_eq_add_of_lt hj
      rw [if_pos (by omega), if_pos (by omega), write_cells_of_ne _ _ (by omega),
        show i + k + 1 - (i + 1) = k by omega, show i + k + 1 - i = k + 1 by omega,
        List.getD_cons_succ]
  · rw [h.written, write_written, List.mem_cons, List.length_cons]
    grind

/-- A first cell that was written before. -/
theorem Filled.of_write {b b' : Buffer α} {i : Nat} {a : α} {l : List α} (hl : l ≠ [])
    (h : Filled (b.write i a) i l b') : Filled b i l b' := by
  obtain ⟨a', l, rfl⟩ := List.exists_cons_of_ne_nil hl
  refine ⟨fun j => ?_, fun j => ?_⟩
  · rw [h.cells]
    by_cases hj : j = i
    · subst hj
      rw [if_pos (Nat.le_refl j), if_pos (Nat.le_refl j), Nat.sub_self]
      rfl
    · rw [write_cells_of_ne _ _ hj]
  · rw [h.written, write_written, List.mem_cons, List.length_cons]
    grind

theorem filled_copy (b : Buffer α) (i : Nat) (l : List α) : Filled b i l (b.copy i l) := by
  induction l generalizing b i with
  | nil => exact filled_nil b i
  | cons a l ih => exact (ih (b.write i a) (i + 1)).cons

section Fresh

variable {cells : Nat → α} {l : List α} {b : Buffer α}

/-- **Where the code has written.** -/
theorem Filled.stays_within_iff (h : Filled (fresh cells) 0 l b) (n : Nat) :
    Within n b ↔ l.length ≤ n := by
  have hwritten : ∀ j, j ∈ b.written ↔ j < l.length := by
    intro j
    rw [h.written]
    simp [fresh]
  constructor
  · intro hw
    by_contra hlt
    have := hw n ((hwritten n).mpr (by omega))
    omega
  · intro hle j hj
    have := (hwritten j).mp hj
    omega

theorem Filled.cell (h : Filled (fresh cells) 0 l b) (j : Nat) :
    b.cells j = l.getD j (cells j) := by
  rw [h.cells, if_pos (Nat.zero_le j)]
  rfl

/-- What is read, if the list is at least as long. -/
theorem Filled.contents_of_le (h : Filled (fresh cells) 0 l b) {n : Nat} (hn : n ≤ l.length) :
    b.contents n = l.take n := by
  refine List.ext_getElem (by simp [hn]) fun j hj _ => ?_
  have hjl : j < l.length := by
    rw [length_contents] at hj
    omega
  simp only [contents, List.getElem_map, List.getElem_range, h.cell, List.getElem_take,
    List.getD_eq_getElem _ _ hjl]

/-- What is read, if the list is not longer: the rest of the cells is as before. -/
theorem Filled.contents_of_ge (h : Filled (fresh cells) 0 l b) {n : Nat} (hn : l.length ≤ n) :
    b.contents n = l ++ (List.range (n - l.length)).map fun j => cells (l.length + j) := by
  refine List.ext_getElem (by simp; omega) fun j hj _ => ?_
  simp only [contents, List.getElem_map, List.getElem_range, h.cell]
  by_cases hjl : j < l.length
  · rw [List.getElem_append_left hjl, List.getD_eq_getElem _ _ hjl]
  · rw [List.getElem_append_right (by omega), List.getElem_map, List.getElem_range,
      List.getD_eq_default _ _ (by omega), Nat.add_sub_cancel' (by omega)]

end Fresh

end Buffer
