import Mathlib.Data.List.Basic
import Mathlib.Data.BitVec
import Mathlib.Data.UInt

/-!
# Code with effects and exceptions

`Emit E α` is the outcome of code that performs effects of type `E` one after the other and then
ends with a value of type `α`, with an exception, or with its process.  What has been done before is
not undone.  `catching` goes on after an exception, but nothing goes on after the end of the process.
`All P` says that all effects have a property.
-/

/-- How code is left other than with a value. -/
inductive Stop
  | thrown
  | exited
  deriving DecidableEq

/-- The effects performed, and the value, if there is one. -/
structure Emit (E α : Type) where
  effects : List E
  result : Except Stop α

namespace Emit

variable {E α β : Type}

/-- Sequencing: after an exception, and after the end, the rest is not run. -/
def bind (x : Emit E α) (f : α → Emit E β) : Emit E β :=
  match x.result with
  | .ok a => ⟨x.effects ++ (f a).effects, (f a).result⟩
  | .error s => ⟨x.effects, .error s⟩

instance : Monad (Emit E) where
  pure a := ⟨[], .ok a⟩
  bind := bind

def emit (e : E) : Emit E Unit := ⟨[e], .ok ()⟩

/-- The outcome of a call: its value, or an exception. -/
def ask (o : Option α) : Emit E α := ⟨[], o.elim (.error .thrown) .ok⟩

/-- The outcome of a call that may end the process. -/
def call (r : Except Stop α) : Emit E α := ⟨[], r⟩

/-- `try { x } catch (...) { y }`. -/
def catching (x y : Emit E α) : Emit E α :=
  match x.result with
  | .error .thrown => ⟨x.effects ++ y.effects, y.result⟩
  | .error .exited | .ok _ => x

@[simp] theorem pure_eq (a : α) : (pure a : Emit E α) = ⟨[], .ok a⟩ := rfl

@[simp] theorem bind_eq (x : Emit E α) (f : α → Emit E β) : x >>= f = x.bind f := rfl

@[simp] theorem bind_ok (l : List E) (a : α) (f : α → Emit E β) :
    (⟨l, .ok a⟩ : Emit E α).bind f = ⟨l ++ (f a).effects, (f a).result⟩ := rfl

@[simp] theorem bind_error (l : List E) (s : Stop) (f : α → Emit E β) :
    (⟨l, .error s⟩ : Emit E α).bind f = ⟨l, .error s⟩ := rfl

@[simp] theorem ask_some (a : α) : (ask (some a) : Emit E α) = ⟨[], .ok a⟩ := rfl

@[simp] theorem ask_none : (ask none : Emit E α) = ⟨[], .error .thrown⟩ := rfl

@[simp] theorem catching_ok (l : List E) (a : α) (y : Emit E α) :
    catching ⟨l, .ok a⟩ y = ⟨l, .ok a⟩ := rfl

@[simp] theorem catching_thrown (l : List E) (y : Emit E α) :
    catching ⟨l, .error .thrown⟩ y = ⟨l ++ y.effects, y.result⟩ := rfl

/-! ### A property of all effects -/

/-- All effects have the property. -/
def All (P : E → Prop) (x : Emit E α) : Prop := ∀ e ∈ x.effects, P e

section All

variable {P : E → Prop}

theorem all_pure (a : α) : All P (pure a : Emit E α) := nofun

theorem all_ask (o : Option α) : All P (ask o : Emit E α) := nofun

theorem all_call (r : Except Stop α) : All P (call r : Emit E α) := nofun

theorem all_emit {e : E} (h : P e) : All P (emit e) := by
  intro e' he'
  obtain rfl := List.mem_singleton.mp he'
  exact h

theorem all_bind {x : Emit E α} {f : α → Emit E β} (hx : All P x) (hf : ∀ a, All P (f a)) :
    All P (x >>= f) := by
  intro e he
  rw [bind_eq, bind] at he
  cases hr : x.result with
  | error s =>
    rw [hr] at he
    exact hx e he
  | ok a =>
    rw [hr] at he
    exact (List.mem_append.mp he).elim (hx e) (hf a e)

theorem all_catching {x y : Emit E α} (hx : All P x) (hy : All P y) : All P (catching x y) := by
  intro e he
  unfold catching at he
  split at he
  · exact (List.mem_append.mp he).elim (hx e) (hy e)
  · exact hx e he
  · exact hx e he

end All

end Emit
