import OpenairHss.Lib.SortedMap
import Mathlib.Data.List.Basic

/-!
# Operations on a state whose results are kept by key

An operation has a key, changes the state and has a result, which is inserted into a map at its key;
`insert` leaves what is there.  So the map ends with the first result at each key.  Where each
operation leaves what a view shows at the other keys, the view ends with what the last operation at
each key has made of it.

* `find?_run`: the map has the first results.
* `last_result`: what an operation makes true of its result and of the view at its key is true in the
  end of the last operation at each key.
-/

namespace KeyedOps

variable {κ β σ ρ : Type} [LinearOrder κ]

/-- An operation at a key: its result, and the state after it. -/
structure Op (κ β σ : Type) where
  key : κ
  exec : σ → β × σ

/-- The map and the state after an operation. -/
def Op.apply (op : Op κ β σ) (s : SortedMap κ β × σ) : SortedMap κ β × σ :=
  (s.1.insert op.key (op.exec s.2).1, (op.exec s.2).2)

def run (ops : List (Op κ β σ)) (s : SortedMap κ β × σ) : SortedMap κ β × σ :=
  ops.foldl (fun s op => op.apply s) s

/-- The results of the operations at a key. -/
def results (k : κ) : σ → List (Op κ β σ) → List β
  | _, [] => []
  | s, op :: ops =>
    if op.key = k then (op.exec s).1 :: results k (op.exec s).2 ops
    else results k (op.exec s).2 ops

/-- **The map has the first result at each key.** -/
theorem find?_run (k : κ) (ops : List (Op κ β σ)) (m : SortedMap κ β) (s : σ) :
    (run ops (m, s)).1.find? k = (m.find? k).or (results k s ops).head? := by
  induction ops generalizing m s with
  | nil => exact Option.or_none.symm
  | cons op ops ih =>
    refine (ih _ _).trans ?_
    rw [results, SortedMap.find?_insert]
    by_cases hk : op.key = k
    · subst hk
      rw [if_pos rfl, if_pos rfl, List.head?_cons]
      cases m.find? op.key <;> rfl
    · rw [if_neg hk, if_neg hk]

theorem results_eq_nil_iff {k : κ} {s : σ} {ops : List (Op κ β σ)} :
    results k s ops = [] ↔ ∀ op ∈ ops, op.key ≠ k := by
  induction ops generalizing s with
  | nil => exact iff_of_true rfl (by simp)
  | cons op ops ih =>
    rw [results, List.forall_mem_cons]
    by_cases hk : op.key = k
    · rw [if_pos hk]
      exact iff_of_false nofun fun h => h.1 hk
    · rw [if_neg hk, ih, and_iff_right hk]

section View

variable {view : σ → κ → ρ} {k : κ}

/-- Without an operation at the key, the view stays there. -/
theorem view_run {ops : List (Op κ β σ)}
    (hlocal : ∀ op ∈ ops, ∀ s, op.key ≠ k → view (op.exec s).2 k = view s k)
    (h : ∀ op ∈ ops, op.key ≠ k) (m : SortedMap κ β) (s : σ) :
    view (run ops (m, s)).2 k = view s k := by
  induction ops generalizing m s with
  | nil => rfl
  | cons op ops ih =>
    obtain ⟨hop, hops⟩ := List.forall_mem_cons.mp hlocal
    obtain ⟨hk, hks⟩ := List.forall_mem_cons.mp h
    exact (ih hops hks _ _).trans (hop s hk)

/-- **What each operation establishes, the last one has established in the end.** -/
theorem last_result {P : β → ρ → Prop} {ops : List (Op κ β σ)}
    (hlocal : ∀ op ∈ ops, ∀ s, op.key ≠ k → view (op.exec s).2 k = view s k)
    (h : ∀ op ∈ ops, ∀ s, P (op.exec s).1 (view (op.exec s).2 op.key)) (m : SortedMap κ β) {s : σ}
    {b : β} (hlast : (results k s ops).getLast? = some b) : P b (view (run ops (m, s)).2 k) := by
  induction ops generalizing m s with
  | nil => cases hlast
  | cons op ops ih =>
    obtain ⟨hop, hops⟩ := List.forall_mem_cons.mp h
    obtain ⟨-, hlocals⟩ := List.forall_mem_cons.mp hlocal
    rw [results] at hlast
    by_cases hk : op.key = k
    · rw [if_pos hk] at hlast
      cases hrest : results k (op.exec s).2 ops with
      | nil =>
        -- this is the last operation at the key
        rw [hrest] at hlast
        obtain rfl : (op.exec s).1 = b := Option.some.inj hlast
        have hstays := view_run hlocals (results_eq_nil_iff.mp hrest)
          (m.insert op.key (op.exec s).1) (op.exec s).2
        exact hstays ▸ hk ▸ hop s
      | cons b' bs =>
        rw [hrest, List.getLast?_cons_cons, ← hrest] at hlast
        exact ih hlocals hops _ hlast
    · rw [if_neg hk] at hlast
      exact ih hlocals hops _ hlast

end View

end KeyedOps
