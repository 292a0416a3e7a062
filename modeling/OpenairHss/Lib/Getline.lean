import Mathlib.Data.List.Basic
import Mathlib.Data.BitVec
import Mathlib.Data.UInt

/-!
# Reading a text piece by piece

`getline d cs` is `std::getline` with the delimiter `d` on a stream that has `cs` left: it fails on a
stream that has nothing left, else it takes everything up to the next `d`, and that `d`.
`getlines d cs` are the pieces that it takes until it fails.

* `getlines_intercalate`: what has been put together with delimiters is taken apart again.
-/

namespace Getline

theorem not_mem_intercalate {α : Type} {c d : α} (hcd : c ≠ d) {pieces : List (List α)}
    (h : ∀ p ∈ pieces, c ∉ p) : c ∉ [d].intercalate pieces := by
  induction pieces with
  | nil => exact List.not_mem_nil
  | cons piece pieces ih =>
    have hpiece : c ∉ piece := h piece List.mem_cons_self
    have hrest := ih fun p hp => h p (List.mem_cons_of_mem _ hp)
    cases pieces with
    | nil => rwa [List.intercalate_singleton]
    | cons next pieces =>
      rw [List.intercalate_cons_cons, List.mem_append, List.mem_append, List.mem_singleton]
      rintro ((hc | hc) | hc)
      · exact hpiece hc
      · exact hcd hc
      · exact hrest hc

variable {α : Type} [DecidableEq α]

/-- The piece and what is left of the stream. -/
def getline (d : α) : List α → Option (List α × List α)
  | [] => none
  | c :: cs => some ((c :: cs).takeWhile (· ≠ d), ((c :: cs).dropWhile (· ≠ d)).drop 1)

/-- The pieces, while `cur` has been taken of the first one. -/
def piecesFrom (d : α) : List α → List α → List (List α)
  | cur, [] => if cur = [] then [] else [cur]
  | cur, c :: cs => if c = d then cur :: piecesFrom d [] cs else piecesFrom d (cur ++ [c]) cs

def getlines (d : α) (cs : List α) : List (List α) := piecesFrom d [] cs

theorem piecesFrom_eq (d : α) (cur cs : List α) (h : cur ++ cs ≠ []) :
    piecesFrom d cur cs = (cur ++ cs.takeWhile (· ≠ d)) ::
      getlines d ((cs.dropWhile (· ≠ d)).drop 1) := by
  induction cs generalizing cur with
  | nil =>
    rw [List.append_nil] at h
    rw [piecesFrom, if_neg h]
    simp [getlines, piecesFrom]
  | cons c cs ih =>
    by_cases hc : c = d
    · subst hc
      simp [piecesFrom, getlines]
    · rw [piecesFrom, if_neg hc, ih (cur ++ [c]) (by simp)]
      simp [hc]

/-- The loop `while (std::getline(ss, arg, d))`. -/
theorem getlines_eq (d : α) (cs : List α) : getlines d cs =
    match getline d cs with
    | none => []
    | some (piece, rest) => piece :: getlines d rest := by
  cases cs with
  | nil => rfl
  | cons c cs =>
    rw [getline, getlines, piecesFrom_eq d [] (c :: cs) (by simp)]
    rfl

theorem takeWhile_plain {d : α} {piece : List α} (h : d ∉ piece) (rest : List α) :
    (piece ++ rest).takeWhile (· ≠ d) = piece ++ rest.takeWhile (· ≠ d) := by
  refine List.takeWhile_append_of_pos fun c hc => decide_eq_true ?_
  rintro rfl
  exact h hc

theorem dropWhile_plain {d : α} {piece : List α} (h : d ∉ piece) (rest : List α) :
    (piece ++ rest).dropWhile (· ≠ d) = rest.dropWhile (· ≠ d) := by
  refine List.dropWhile_append_of_pos fun c hc => decide_eq_true ?_
  rintro rfl
  exact h hc

theorem getline_eq_some {d : α} {cs : List α} (h : cs ≠ []) :
    getline d cs = some (cs.takeWhile (· ≠ d), (cs.dropWhile (· ≠ d)).drop 1) := by
  cases cs with
  | nil => exact absurd rfl h
  | cons => rfl

/-- A piece with its delimiter. -/
theorem getline_delimited {d : α} {piece : List α} (h : d ∉ piece) (rest : List α) :
    getline d (piece ++ d :: rest) = some (piece, rest) := by
  rw [getline_eq_some (List.append_ne_nil_of_right_ne_nil _ (List.cons_ne_nil d rest)),
    takeWhile_plain h, dropWhile_plain h]
  simp

/-- The last piece, which has no delimiter. -/
theorem getline_last {d : α} {piece : List α} (h : d ∉ piece) (hne : piece ≠ []) :
    getline d piece = some (piece, []) := by
  have htake := takeWhile_plain h []
  have hdrop := dropWhile_plain h []
  rw [List.append_nil] at htake hdrop
  rw [getline_eq_some hne, htake, hdrop]
  simp

/-- Pieces without a delimiter are read one by one, if the last one is not empty. -/
theorem getlines_intercalate (d : α) (pieces : List (List α)) (hplain : ∀ p ∈ pieces, d ∉ p)
    (hlast : pieces.getLast? ≠ some []) : getlines d ([d].intercalate pieces) = pieces := by
  induction pieces with
  | nil => rfl
  | cons piece pieces ih =>
    have hpiece : d ∉ piece := hplain piece List.mem_cons_self
    cases pieces with
    | nil =>
      have hne : piece ≠ [] := fun h => hlast (by rw [h]; rfl)
      rw [List.intercalate_singleton, getlines_eq, getline_last hpiece hne]
      rfl
    | cons next pieces =>
      have hrest := ih (fun p hp => hplain p (List.mem_cons_of_mem _ hp)) hlast
      rw [List.intercalate_cons_cons, List.append_assoc, List.singleton_append, getlines_eq,
        getline_delimited hpiece]
      exact congrArg (piece :: ·) hrest

end Getline
