import Mathlib.Logic.Basic
import Mathlib.Data.BitVec
import Mathlib.Data.UInt

/-!
# A table and an index of it

A table has at most one row for a key.  An index lists, for the attribute of a row, the keys of the
rows with this attribute; a row may have none.

* `Indexes.put`: writing a row and its entry keeps the index, if the row that was there had no
  other attribute.
* `Indexes.remove`: removing a row and its entry keeps the index.
-/

namespace Index

variable {K V X : Type}

/-- The entries are those of the rows. -/
def Indexes (rows : K → Option V) (attr : V → Option X) (entries : X → K → Prop) : Prop :=
  ∀ x k, entries x k ↔ ∃ v, rows k = some v ∧ attr v = some x

variable {rows rows' : K → Option V} {attr : V → Option X} {entries entries' : X → K → Prop}
  {k : K} {v : V}

/-- **A row is written, and its entry.** -/
theorem Indexes.put (h : Indexes rows attr entries)
    (hold : ∀ v₀ x, rows k = some v₀ → attr v₀ = some x → attr v = some x)
    (hsame : rows' k = some v) (hother : ∀ k', k' ≠ k → rows' k' = rows k')
    (hentries : ∀ x k', entries' x k' ↔ (k' = k ∧ attr v = some x) ∨ entries x k') :
    Indexes rows' attr entries' := by
  intro x k'
  rw [hentries, h x k']
  by_cases hk : k' = k
  · subst hk
    constructor
    · rintro (⟨-, hx⟩ | ⟨v₀, hv₀, hx⟩)
      · exact ⟨v, hsame, hx⟩
      · exact ⟨v, hsame, hold v₀ x hv₀ hx⟩
    · rintro ⟨v', hv', hx⟩
      rw [hsame, Option.some.injEq] at hv'
      exact Or.inl ⟨rfl, hv' ▸ hx⟩
  · rw [hother k' hk]
    constructor
    · rintro (⟨hk', -⟩ | hrow)
      · exact absurd hk' hk
      · exact hrow
    · exact Or.inr

/-- **A row is removed, and its entry.** -/
theorem Indexes.remove (h : Indexes rows attr entries) (hrow : rows k = some v)
    (hsame : rows' k = none) (hother : ∀ k', k' ≠ k → rows' k' = rows k')
    (hentries : ∀ x k', entries' x k' ↔ entries x k' ∧ ¬ (k' = k ∧ attr v = some x)) :
    Indexes rows' attr entries' := by
  intro x k'
  rw [hentries, h x k']
  by_cases hk : k' = k
  · subst hk
    constructor
    · rintro ⟨⟨v', hv', hx⟩, hne⟩
      rw [hrow, Option.some.injEq] at hv'
      exact absurd ⟨rfl, hv' ▸ hx⟩ hne
    · rintro ⟨v', hv', -⟩
      rw [hsame] at hv'
      exact absurd hv' nofun
  · rw [hother k' hk]
    exact and_iff_left fun h' => hk h'.1

end Index
