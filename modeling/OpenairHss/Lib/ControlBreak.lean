import Mathlib.Data.List.Count
import Mathlib.Order.Basic
import Mathlib.Data.BitVec
import Mathlib.Data.UInt

/-!
# A loop with a control break

Rows of a key and a value come sorted by key.  The loop carries a key and the values it has
collected, and puts out a group when the key changes and when the rows are over.  It does not look
at the key while it has collected nothing, so the first group has the key that the loop was begun
with.

* `rows_groups`, `rows_groups_nil`: the rows of the groups.
* `keys_increase`: no two groups have one key.
-/

namespace ControlBreak

variable {κ β : Type}

/-- The groups that are put out, for a key and the values collected for it. -/
def groups [DecidableEq κ] : List (κ × β) → κ → List β → List (κ × List β)
  | [], k, vs => if vs.length > 0 then [(k, vs)] else []
  | (k', v) :: rest, k, vs =>
    if k ≠ k' ∧ vs.length > 0 then (k, vs) :: groups rest k' [v]
    else groups rest k (vs ++ [v])

def rows (gs : List (κ × List β)) : List (κ × β) := gs.flatMap fun g => g.2.map (g.1, ·)

section Groups

variable [DecidableEq κ]

/-- The loop goes through the rows in their order, and loses none. -/
theorem rows_groups (l : List (κ × β)) (k : κ) {vs : List β} (h : vs ≠ []) :
    rows (groups l k vs) = vs.map (k, ·) ++ l := by
  induction l generalizing k vs with
  | nil =>
    rw [groups, if_pos (List.length_pos_iff.mpr h)]
    rfl
  | cons row rest ih =>
    obtain ⟨k', v⟩ := row
    by_cases hk : k = k'
    · rw [groups, if_neg (fun hc => hc.1 hk), ih k (List.append_ne_nil_of_right_ne_nil _ (by simp)), hk]
      simp
    · rw [groups, if_pos ⟨hk, List.length_pos_iff.mpr h⟩]
      have htail := ih k' (List.cons_ne_nil v [])
      show vs.map (k, ·) ++ rows (groups rest k' [v]) = _
      rw [htail]
      rfl

/-- What is lost is the key of the first row. -/
theorem rows_groups_nil (l : List (κ × β)) (k k' : κ) (v : β) :
    rows (groups ((k', v) :: l) k []) = (k, v) :: l := by
  rw [groups, if_neg (fun hc => absurd hc.2 (Nat.lt_irrefl 0))]
  exact rows_groups l k (List.cons_ne_nil v [])

theorem values_ne_nil (l : List (κ × β)) (k : κ) (vs : List β) :
    ∀ g ∈ groups l k vs, g.2 ≠ [] := by
  induction l generalizing k vs with
  | nil =>
    intro g hg
    by_cases hvs : vs.length > 0
    · rw [groups, if_pos hvs, List.mem_singleton] at hg
      rw [hg]
      exact List.length_pos_iff.mp hvs
    · rw [groups, if_neg hvs] at hg
      exact absurd hg List.not_mem_nil
  | cons row rest ih =>
    intro g hg
    by_cases hc : k ≠ row.1 ∧ vs.length > 0
    · rw [groups, if_pos hc] at hg
      rcases List.mem_cons.mp hg with rfl | hg
      · exact List.length_pos_iff.mp hc.2
      · exact ih row.1 [row.2] g hg
    · rw [groups, if_neg hc] at hg
      exact ih k _ g hg

end Groups

/-! ### Keys -/

/-- The values of a group are all the rows with its key, if no other group has it. -/
theorem count_rows [DecidableEq κ] [DecidableEq β] {gs : List (κ × List β)}
    (hnodup : (gs.map Prod.fst).Nodup) {g : κ × List β} (hg : g ∈ gs) (v : β) :
    (rows gs).count (g.1, v) = g.2.count v := by
  have hother : ∀ h : κ × List β, h.1 ≠ g.1 → (h.2.map (h.1, ·)).count (g.1, v) = 0 := by
    intro h hne
    refine List.count_eq_zero_of_not_mem fun hmem => ?_
    obtain ⟨w, -, hw⟩ := List.mem_map.mp hmem
    exact hne (Prod.mk.inj hw).1
  have hothers : ∀ hs : List (κ × List β), g.1 ∉ hs.map Prod.fst → (rows hs).count (g.1, v) = 0 := by
    intro hs hnot
    refine List.count_eq_zero_of_not_mem fun hmem => ?_
    obtain ⟨h, hh, hmem⟩ := List.mem_flatMap.mp hmem
    have hne : h.1 ≠ g.1 := fun heq => hnot (heq ▸ List.mem_map_of_mem hh)
    exact absurd (hother h hne) (Nat.ne_of_gt (List.count_pos_iff.mpr hmem))
  induction gs with
  | nil => exact absurd hg List.not_mem_nil
  | cons h hs ih =>
    rw [List.map_cons, List.nodup_cons] at hnodup
    show (h.2.map (h.1, ·) ++ rows hs).count (g.1, v) = _
    rw [List.count_append]
    rcases List.mem_cons.mp hg with rfl | hg
    · rw [hothers hs hnodup.1, Nat.add_zero]
      exact List.count_map_of_injective _ _ (fun _ _ h => (Prod.mk.inj h).2) v
    · have hne : h.1 ≠ g.1 := fun heq => hnodup.1 (heq ▸ List.mem_map_of_mem hg)
      rw [hother h hne, Nat.zero_add, ih hnodup.2 hg]

theorem mem_keys_iff {gs : List (κ × List β)} (hne : ∀ g ∈ gs, g.2 ≠ []) {k : κ} :
    k ∈ gs.map Prod.fst ↔ k ∈ (rows gs).map Prod.fst := by
  constructor
  · intro h
    obtain ⟨g, hg, rfl⟩ := List.mem_map.mp h
    obtain ⟨v, hv⟩ := List.exists_mem_of_ne_nil g.2 (hne g hg)
    exact List.mem_map.mpr ⟨(g.1, v),
      List.mem_flatMap.mpr ⟨g, hg, List.mem_map_of_mem hv⟩, rfl⟩
  · intro h
    obtain ⟨r, hr, rfl⟩ := List.mem_map.mp h
    obtain ⟨g, hg, hr⟩ := List.mem_flatMap.mp hr
    obtain ⟨v, -, rfl⟩ := List.mem_map.mp hr
    exact List.mem_map_of_mem hg

/-- Rows in the order of their keys are put out in groups whose keys increase. -/
theorem keys_increase [LinearOrder κ] {l : List (κ × β)} {k : κ} (vs : List β)
    (hle : ∀ r ∈ l, k ≤ r.1) (hsorted : l.Pairwise fun a b => a.1 ≤ b.1) :
    ((groups l k vs).map Prod.fst).Pairwise (· < ·) := by
  induction l generalizing k vs with
  | nil =>
    rw [groups]
    by_cases hvs : vs.length > 0 <;> simp [hvs]
  | cons row rest ih =>
    rw [List.pairwise_cons] at hsorted
    have hrest := fun vs => ih (k := row.1) vs hsorted.1 hsorted.2
    by_cases hc : k ≠ row.1 ∧ vs.length > 0
    · rw [groups, if_pos hc, List.map_cons, List.pairwise_cons]
      refine ⟨fun k' hk' => ?_, hrest [row.2]⟩
      have hlt : k < row.1 := lt_of_le_of_ne (hle row List.mem_cons_self) hc.1
      rw [mem_keys_iff (values_ne_nil _ _ _), rows_groups _ _ (List.cons_ne_nil _ _)] at hk'
      obtain ⟨r, hr, rfl⟩ := List.mem_map.mp hk'
      rcases List.mem_append.mp hr with hr | hr
      · obtain ⟨v, -, rfl⟩ := List.mem_map.mp hr
        exact hlt
      · exact lt_of_lt_of_le hlt (hsorted.1 r hr)
    · rw [groups, if_neg hc]
      exact ih _ (fun r hr => hle r (List.mem_cons_of_mem _ hr)) hsorted.2

end ControlBreak
