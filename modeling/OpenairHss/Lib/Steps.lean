import Mathlib.Logic.Relation
import Mathlib.Data.BitVec
import Mathlib.Data.UInt

/-!
# Runs of a labelled step relation

`Reaches step C s t` says that a run from `s` ends in `t`, every step of which is taken in a state
and with a label that meet the condition `C`.

* `Reaches.invariant`: the induction over a run.
* `Reaches.until`: a run up to the first step of some kind.
* `Reaches.of_runList`, `Reaches.of_runAll`: a run of a step function, given by the list of its
  steps.
* `runAll_invariant`: the induction over such a run, for what also depends on the steps taken.
-/

namespace Steps

variable {σ L : Type} {step : σ → L → σ → Prop} {C : σ → L → Prop} {s t u : σ}

/-- The runs whose steps all meet `C`. -/
def Reaches (step : σ → L → σ → Prop) (C : σ → L → Prop) : σ → σ → Prop :=
  Relation.ReflTransGen fun s t => ∃ l, C s l ∧ step s l t

theorem Reaches.refl (s : σ) : Reaches step C s s := Relation.ReflTransGen.refl

theorem Reaches.tail {l : L} (h : Reaches step C s t) (hc : C t l) (hs : step t l u) :
    Reaches step C s u :=
  Relation.ReflTransGen.tail h ⟨l, hc, hs⟩

/-- **An invariant holds in every state of a run**: it holds at the start, and every step that
meets the condition keeps it. -/
theorem Reaches.invariant {I : σ → Prop} (h : Reaches step C s t) (h0 : I s)
    (hstep : ∀ s l t, I s → C s l → step s l t → I t) : I t := by
  induction h with
  | refl => exact h0
  | tail _ hl ih =>
    obtain ⟨l, hc, hs⟩ := hl
    exact hstep _ l _ ih hc hs

theorem Reaches.trans (h₁ : Reaches step C s t) (h₂ : Reaches step C t u) : Reaches step C s u :=
  Relation.ReflTransGen.trans h₁ h₂

/-- A condition that the steps of a run meet. -/
theorem Reaches.strengthen {C' : σ → L → Prop} (h : Reaches step C s t)
    (hC : ∀ u l v, Reaches step C s u → C u l → step u l v → C' u l) : Reaches step C' s t := by
  induction h with
  | refl => exact Reaches.refl s
  | @tail u v hu hl ih =>
    obtain ⟨l, hc, hs⟩ := hl
    exact ih.tail (hC u l v hu hc hs) hs

/-- A run makes no step that meets `P`, or there is a first such step. -/
theorem Reaches.until (P : σ → L → Prop) (h : Reaches step C s t) :
    Reaches step (fun s l => C s l ∧ ¬ P s l) s t ∨
      ∃ u l v, Reaches step (fun s l => C s l ∧ ¬ P s l) s u ∧ C u l ∧ P u l ∧ step u l v ∧
        Reaches step C v t := by
  induction h with
  | refl => exact Or.inl (Reaches.refl s)
  | @tail t w ht hl ih =>
    obtain ⟨l, hc, hs⟩ := hl
    rcases ih with ih | ⟨u, l', v, hu, hc', hP, hs', hv⟩
    · by_cases hP : P t l
      · exact Or.inr ⟨t, l, w, ih, hc, hP, hs, Reaches.refl w⟩
      · exact Or.inl (ih.tail ⟨hc, hP⟩ hs)
    · exact Or.inr ⟨u, l', v, hu, hc', hP, hs', hv.tail hc hs⟩

/-! ### Runs of a step function -/

section Exec

variable (f : σ → L → Option σ) (C : σ → L → Prop) [∀ s l, Decidable (C s l)]

/-- The state after the steps of a list, if all of them can be taken and meet `C`. -/
def runList : List L → σ → Option σ
  | [], s => some s
  | l :: ls, s => if C s l then (f s l).bind (runList ls) else none

theorem Reaches.of_runList : ∀ (ls : List L) {s t : σ}, runList f C ls s = some t →
    Reaches (fun s l t => f s l = some t) C s t
  | [], s, t, h => by
    rw [runList, Option.some.injEq] at h
    subst h
    exact Reaches.refl s
  | l :: ls, s, t, h => by
    rw [runList] at h
    split at h
    case isTrue hc =>
      obtain ⟨u, hu, ht⟩ := Option.bind_eq_some_iff.mp h
      exact Relation.ReflTransGen.head ⟨l, hc, hu⟩ (Reaches.of_runList ls ht)
    case isFalse hc => exact absurd h (by simp)

omit [∀ s l, Decidable (C s l)]

/-- The state after the steps of a list, if all of them can be taken. -/
def runAll : List L → σ → Option σ
  | [], s => some s
  | l :: ls, s => (f s l).bind (runAll ls)

theorem Reaches.of_runAll : ∀ {ls : List L} {s t : σ}, (∀ l ∈ ls, ∀ s, C s l) →
    runAll f ls s = some t → Reaches (fun s l t => f s l = some t) C s t
  | [], s, t, _, h => by
    rw [runAll, Option.some.injEq] at h
    subst h
    exact Reaches.refl s
  | l :: ls, s, t, hC, h => by
    obtain ⟨u, hu, ht⟩ := Option.bind_eq_some_iff.mp h
    exact Relation.ReflTransGen.head ⟨l, hC l List.mem_cons_self s, hu⟩
      (Reaches.of_runAll (fun l hl => hC l (List.mem_cons_of_mem _ hl)) ht)

variable {f}

/-- An invariant of the state and the steps before it. -/
theorem runAll_invariant {I : List L → σ → Prop} {ls : List L} {s t : σ} (h : runAll f ls s = some t)
    (h0 : I [] s) (hstep : ∀ ls l u v, I ls u → f u l = some v → I (ls ++ [l]) v) : I ls t := by
  suffices hpre : ∀ (ls pre : List L) (s : σ), runAll f ls s = some t → I pre s → I (pre ++ ls) t from
    hpre ls [] s h h0
  intro ls
  induction ls with
  | nil =>
    intro pre s h hs
    rw [runAll, Option.some.injEq] at h
    rw [List.append_nil, ← h]
    exact hs
  | cons l ls ih =>
    intro pre s h hs
    obtain ⟨u, hu, ht⟩ := Option.bind_eq_some_iff.mp h
    have htail := ih (pre ++ [l]) u ht (hstep pre l s u hs hu)
    rwa [List.append_assoc, List.singleton_append] at htail

end Exec

end Steps
