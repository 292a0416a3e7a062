import Mathlib.Logic.Basic
import Mathlib.Data.List.Basic
import Mathlib.Data.List.Forall2
import Mathlib.Data.BitVec
import Mathlib.Data.UInt

/-!
# Steps one after the other, without a transaction

A state has places, and each step reads and writes one of them, or is refused.  The steps are run
until one is refused; those before it are not undone.

`runAll_eq_iff`: if the places are different, a run that is refused leaves the state exactly if the
steps before the first refused one change nothing, all of which can be told from the state before the
run.
-/

namespace Locality

variable {ι α : Type}

abbrev Step (ι α : Type) : Type := (ι → α) → Option (ι → α)

/-- The state when the steps end, and whether none was refused. -/
def runAll : List (Step ι α) → (ι → α) → (ι → α) × Bool
  | [], s => (s, true)
  | f :: fs, s => match f s with
    | some t => runAll fs t
    | none => (s, false)

/-- The step reads and writes at one place. -/
structure At (p : ι) (f : Step ι α) : Prop where
  frame : ∀ {s t i}, f s = some t → i ≠ p → t i = s i
  congr : ∀ {s s' t}, s p = s' p → f s = some t → ∃ t', f s' = some t' ∧ t' p = t p

/-- The steps are at places of a list, one after the other. -/
abbrev AtAll (ps : List ι) (fs : List (Step ι α)) : Prop := List.Forall₂ At ps fs

/-- The steps before the first that is refused change nothing. -/
def Undisturbed (s : ι → α) : List (Step ι α) → Prop
  | [] => True
  | f :: fs => f s = none ∨ (∀ g ∈ fs, g s ≠ none) ∨ (f s = some s ∧ Undisturbed s fs)

theorem At.refused_iff {p : ι} {f : Step ι α} (h : At p f) {s s' : ι → α} (hs : s p = s' p) :
    f s = none ↔ f s' = none := by
  constructor
  · intro hn
    refine Option.eq_none_iff_forall_ne_some.mpr fun t ht => ?_
    obtain ⟨t', ht', -⟩ := h.congr hs.symm ht
    exact absurd (hn.symm.trans ht') nofun
  · intro hn
    refine Option.eq_none_iff_forall_ne_some.mpr fun t ht => ?_
    obtain ⟨t', ht', -⟩ := h.congr hs ht
    exact absurd (hn.symm.trans ht') nofun

/-- The other places stay. -/
theorem runAll_frame {ps : List ι} {fs : List (Step ι α)} (h : AtAll ps fs) {i : ι} (hi : i ∉ ps)
    (s : ι → α) : (runAll fs s).1 i = s i := by
  induction h generalizing s with
  | nil => rfl
  | @cons p f ps fs hf hfs ih =>
    rw [List.mem_cons, not_or] at hi
    rw [runAll]
    cases hr : f s with
    | none => rfl
    | some t => exact (ih hi.2 t).trans (hf.frame hr hi.1)

/-- The place of the first step is as that step has left it. -/
theorem runAll_head {p : ι} {ps : List ι} {f : Step ι α} {fs : List (Step ι α)}
    (h : AtAll (p :: ps) (f :: fs)) (hnodup : (p :: ps).Nodup) {s t : ι → α} (ht : f s = some t) :
    (runAll (f :: fs) s).1 p = t p := by
  rw [runAll, ht]
  exact runAll_frame (List.forall₂_cons.mp h).2 (List.nodup_cons.mp hnodup).1 t

/-- No step is refused in a state that differs at other places alone. -/
theorem runAll_accepted_iff {ps : List ι} {fs : List (Step ι α)} (h : AtAll ps fs)
    (hnodup : ps.Nodup) {s s' : ι → α} (hs : ∀ p ∈ ps, s p = s' p) :
    (runAll fs s).2 = true ↔ ∀ g ∈ fs, g s' ≠ none := by
  induction h generalizing s with
  | nil => exact iff_of_true rfl nofun
  | @cons p f ps fs hf hfs ih =>
    obtain ⟨hp, hnodup⟩ := List.nodup_cons.mp hnodup
    obtain ⟨hsp, hsps⟩ := List.forall_mem_cons.mp hs
    rw [runAll, List.forall_mem_cons]
    cases hr : f s with
    | none => exact iff_of_false Bool.false_ne_true fun h' => h'.1 ((hf.refused_iff hsp).mp hr)
    | some t =>
      have ht : ∀ q ∈ ps, t q = s' q := fun q hq =>
        (hf.frame hr fun hqp => hp (hqp ▸ hq)).trans (hsps q hq)
      have hs' : f s' ≠ none := fun hn => absurd (hr.symm.trans ((hf.refused_iff hsp).mpr hn)) nofun
      exact (ih hnodup ht).trans (and_iff_right hs').symm

/-- **When a refused run leaves the state.** -/
theorem runAll_eq_iff {ps : List ι} {fs : List (Step ι α)} (h : AtAll ps fs) (hnodup : ps.Nodup)
    (s : ι → α) : ((runAll fs s).2 = false → (runAll fs s).1 = s) ↔ Undisturbed s fs := by
  induction h with
  | nil => exact iff_of_true (fun h => rfl) trivial
  | @cons p f ps fs hf hfs ih =>
    obtain ⟨hp, hnodup⟩ := List.nodup_cons.mp hnodup
    rw [runAll, Undisturbed]
    cases hr : f s with
    | none => exact iff_of_true (fun _ => rfl) (Or.inl rfl)
    | some t =>
      dsimp only
      by_cases ht : t = s
      · subst ht
        rw [ih hnodup]
        constructor
        · exact fun h => Or.inr (Or.inr ⟨rfl, h⟩)
        · rintro (h | h | h)
          · exact absurd h nofun
          · refine (ih hnodup).mp fun hrefused => ?_
            rw [(runAll_accepted_iff hfs hnodup fun _ _ => rfl).mpr h] at hrefused
            exact absurd hrefused nofun
          · exact h.2
      · -- the place of the first step is changed, and the others do not change it back
        have hplace : t p ≠ s p := by
          intro heq
          refine ht (funext fun i => ?_)
          by_cases hi : i = p
          · exact hi ▸ heq
          · exact hf.frame hr hi
        have hchanged : (runAll fs t).1 ≠ s := fun heq =>
          hplace ((runAll_frame hfs hp t).symm.trans (congrFun heq p))
        have hagree : ∀ q ∈ ps, t q = s q := fun q hq => hf.frame hr fun hqp => hp (hqp ▸ hq)
        have haccepted := runAll_accepted_iff hfs hnodup hagree
        constructor
        · intro h
          refine Or.inr (Or.inl (haccepted.mp ?_))
          cases hrun : (runAll fs t).2 with
          | true => rfl
          | false => exact absurd (h hrun) hchanged
        · rintro (h | h | h) hrefused
          · exact absurd h nofun
          · rw [haccepted.mpr h] at hrefused
            exact absurd hrefused nofun
          · exact absurd (Option.some.inj h.1) ht

end Locality
