import Mathlib.Data.List.Basic
import Mathlib.Data.BitVec
import Mathlib.Data.UInt

/-!
# Code with effects and exceptions of several kinds

`Traced ε E α` is the outcome of code that performs effects of type `E` one after the other and ends
with a value, or with an exception of type `ε`.  An exception does not undo the effects before it.

* `within_bind`, `within_handle`: all effects have a property, and so has the exception.
* `seq_eq_iff`, `handle_seq_eq_iff`: two pieces of code that are run one after the other, and leave
  different kinds of effects, are compared piece by piece.
-/

/-- The effects performed, and how the code ended. -/
structure Traced (ε E α : Type) where
  effects : List E
  result : Except ε α

namespace Traced

variable {ε E α β : Type}

@[ext]
theorem ext {x y : Traced ε E α} (he : x.effects = y.effects) (hr : x.result = y.result) : x = y := by
  cases x
  cases y
  simp only at he hr
  rw [he, hr]

/-- Sequencing: after an exception the rest is not run. -/
def bind (x : Traced ε E α) (f : α → Traced ε E β) : Traced ε E β :=
  match x.result with
  | .ok a => ⟨x.effects ++ (f a).effects, (f a).result⟩
  | .error e => ⟨x.effects, .error e⟩

instance : Monad (Traced ε E) where
  pure a := ⟨[], .ok a⟩
  bind := bind

def emit (e : E) : Traced ε E Unit := ⟨[e], .ok ()⟩

/-- `throw e`. -/
def raise (e : ε) : Traced ε E α := ⟨[], .error e⟩

/-- `try { x } catch (e) { h e }`. -/
def handle (x : Traced ε E α) (h : ε → Traced ε E α) : Traced ε E α :=
  match x.result with
  | .ok a => ⟨x.effects, .ok a⟩
  | .error e => ⟨x.effects ++ (h e).effects, (h e).result⟩

@[simp] theorem pure_eq (a : α) : (pure a : Traced ε E α) = ⟨[], .ok a⟩ := rfl

@[simp] theorem bind_eq (x : Traced ε E α) (f : α → Traced ε E β) : x >>= f = x.bind f := rfl

@[simp] theorem bind_ok (l : List E) (a : α) (f : α → Traced ε E β) :
    (⟨l, .ok a⟩ : Traced ε E α).bind f = ⟨l ++ (f a).effects, (f a).result⟩ := rfl

@[simp] theorem bind_error (l : List E) (e : ε) (f : α → Traced ε E β) :
    (⟨l, .error e⟩ : Traced ε E α).bind f = ⟨l, .error e⟩ := rfl

@[simp] theorem handle_ok (l : List E) (a : α) (h : ε → Traced ε E α) :
    handle ⟨l, .ok a⟩ h = ⟨l, .ok a⟩ := rfl

@[simp] theorem handle_error (l : List E) (e : ε) (h : ε → Traced ε E α) :
    handle ⟨l, .error e⟩ h = ⟨l ++ (h e).effects, (h e).result⟩ := rfl

/-! ### A property of all effects and of the exception -/

/-- All effects have one property, and an exception has the other. -/
def Within (P : E → Prop) (R : ε → Prop) (x : Traced ε E α) : Prop :=
  (∀ e ∈ x.effects, P e) ∧ ∀ s, x.result = .error s → R s

section Within

variable {P P' : E → Prop} {R R' : ε → Prop}

theorem Within.mono {x : Traced ε E α} (h : Within P R x) (hP : ∀ e, P e → P' e)
    (hR : ∀ s, R s → R' s) : Within P' R' x :=
  ⟨fun e he => hP e (h.1 e he), fun s hs => hR s (h.2 s hs)⟩

theorem within_pure (a : α) : Within P R (⟨[], .ok a⟩ : Traced ε E α) := ⟨nofun, nofun⟩

theorem within_raise {s : ε} (h : R s) : Within P R (raise s : Traced ε E α) := by
  refine ⟨nofun, fun s' hs => ?_⟩
  cases hs
  exact h

theorem within_emit {e : E} (h : P e) : Within P R (emit e : Traced ε E Unit) := by
  refine ⟨fun e' he' => ?_, nofun⟩
  obtain rfl := List.mem_singleton.mp he'
  exact h

theorem within_bind {x : Traced ε E α} {f : α → Traced ε E β} (hx : Within P R x)
    (hf : ∀ a, Within P R (f a)) : Within P R (x.bind f) := by
  obtain ⟨l, r⟩ := x
  cases r with
  | error s => exact ⟨hx.1, fun s' hs => hx.2 s' (by simpa using hs)⟩
  | ok a =>
    refine ⟨fun e he => ?_, (hf a).2⟩
    rcases List.mem_append.mp he with he | he
    · exact hx.1 e he
    · exact (hf a).1 e he

theorem within_handle {x : Traced ε E α} {h : ε → Traced ε E α} (hx : Within P R x)
    (hh : ∀ s, R s → Within P R' (h s)) : Within P R' (x.handle h) := by
  obtain ⟨l, r⟩ := x
  cases r with
  | ok a => exact ⟨hx.1, nofun⟩
  | error s =>
    have hs := hh s (hx.2 s rfl)
    refine ⟨fun e he => ?_, hs.2⟩
    rcases List.mem_append.mp he with he | he
    · exact hx.1 e he
    · exact hs.1 e he

end Within

/-! ### Pieces with different effects -/

section Pieces

variable {P : E → Prop}

/-- Lists whose elements are told apart by a property. -/
theorem append_eq_append_of_disjoint {l l' m m' : List E} (hl : ∀ e ∈ l, P e) (hl' : ∀ e ∈ l', P e)
    (hm : ∀ e ∈ m, ¬ P e) (hm' : ∀ e ∈ m', ¬ P e) : l ++ m = l' ++ m' ↔ l = l' ∧ m = m' := by
  constructor
  · intro h
    rcases List.append_eq_append_iff.mp h with ⟨as, rfl, rfl⟩ | ⟨bs, rfl, rfl⟩
    · cases as with
      | nil => exact ⟨(List.append_nil l).symm, rfl⟩
      | cons a as => exact absurd (hl' a (by simp)) (hm a (by simp))
    · cases bs with
      | nil => exact ⟨List.append_nil l', rfl⟩
      | cons b bs => exact absurd (hl b (by simp)) (hm' b (by simp))
  · rintro ⟨rfl, rfl⟩
    rfl

variable {R R' : ε → Prop} {x y : Traced ε E Unit} {l m : List E}

/-- **Code that is run piece by piece** is compared piece by piece. -/
theorem seq_eq_iff (hx : Within P R x) (hy : Within (¬ P ·) R' y) (hl : ∀ e ∈ l, P e)
    (hm : ∀ e ∈ m, ¬ P e) :
    (x.bind fun _ => y) = ⟨l ++ m, .ok ()⟩ ↔ x = ⟨l, .ok ()⟩ ∧ y = ⟨m, .ok ()⟩ := by
  obtain ⟨l', r⟩ := x
  cases r with
  | error s => simp
  | ok u =>
    obtain ⟨m', r'⟩ := y
    simp only [bind_ok, mk.injEq, append_eq_append_of_disjoint hx.1 hl hy.1 hm, and_true]
    exact and_assoc

/-- **An exception handler around two pieces**: either the first piece is as expected and the
handler works for the second, or the second piece is left out, and nothing was expected of it. -/
theorem handle_seq_eq_iff {h : ε → Traced ε E Unit} (hx : Within P R (x.handle h))
    (hy : Within (¬ P ·) R' (y.handle h)) (hl : ∀ e ∈ l, P e) (hm : ∀ e ∈ m, ¬ P e) :
    (x.bind fun _ => y).handle h = ⟨l ++ m, .ok ()⟩ ↔
      (x = ⟨l, .ok ()⟩ ∧ y.handle h = ⟨m, .ok ()⟩) ∨
        (x ≠ ⟨l, .ok ()⟩ ∧ x.handle h = ⟨l, .ok ()⟩ ∧ m = []) := by
  obtain ⟨l', r⟩ := x
  cases r with
  | error s =>
    rw [bind_error]
    generalize handle ⟨l', .error s⟩ h = z at hx
    obtain ⟨l'', r''⟩ := z
    have hsplit : l'' = l ++ m ↔ l'' = l ∧ m = [] := by
      have := append_eq_append_of_disjoint (m := []) hx.1 hl nofun hm
      rwa [List.append_nil, @eq_comm _ [] m] at this
    simp only [mk.injEq, hsplit]
    constructor
    · rintro ⟨⟨hl'', hm'⟩, hr⟩
      exact Or.inr ⟨by simp, ⟨hl'', hr⟩, hm'⟩
    · rintro (⟨⟨_, habs⟩, _⟩ | ⟨_, ⟨hl'', hr⟩, hm'⟩)
      · exact absurd habs nofun
      · exact ⟨⟨hl'', hm'⟩, hr⟩
  | ok u =>
    have hbind : ((⟨l', .ok u⟩ : Traced ε E Unit).bind fun _ => y).handle h
        = (⟨l', .ok u⟩ : Traced ε E Unit).bind fun _ => y.handle h := by
      obtain ⟨m', r'⟩ := y
      cases r' with
      | error s => simp
      | ok u' => simp
    rw [handle_ok] at hx
    rw [hbind, seq_eq_iff hx hy hl hm, handle_ok]
    constructor
    · exact fun h => Or.inl h
    · rintro (h | ⟨hne, heq, -⟩)
      · exact h
      · exact absurd heq hne

end Pieces

end Traced
