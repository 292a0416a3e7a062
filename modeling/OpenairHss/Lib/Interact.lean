import Mathlib.Logic.Function.Basic
import Mathlib.Data.BitVec
import Mathlib.Data.UInt

/-!
# Interaction programs

A program of type `Prog Op Res α` performs operations `o : Op`, receives a reply of type
`Res o` after each of them, and ends with a value of type `α`.  What an operation does is not
part of the program: `run` interprets it by a state transformer, and `wp` by a specification
`OpSpec` that says, from a ghost state, which replies and which next ghost states the rest of
the program has to cope with.

* `wp_bind`: the rule for sequencing.
* `wp_mono`: a weaker postcondition, for a monotone specification.
* `run_bind`: sequencing for the deterministic interpretation.
* `exec_bind`, `eval_bind`: sequencing when an operation may fail.
* `play_bind`: sequencing when the state at the failure counts; `play_eq_eval` for the parts that do
  not touch it.
* `performs_demand`: a program that is proved against a specification performs only what it allows.
* `play_sim`: two interpretations go in step, if they do at the operations that it performs.
* `handle`: the operations of a program carried out by programs over other operations.
-/

namespace Interact

variable {Op : Type} {Res : Op → Type} {α β γ : Type}

/-- A program: either it has ended, or it performs an operation and goes on with the reply. -/
inductive Prog (Op : Type) (Res : Op → Type) (α : Type) : Type
  | ret (a : α)
  | op (o : Op) (k : Res o → Prog Op Res α)

namespace Prog

def bind : Prog Op Res α → (α → Prog Op Res β) → Prog Op Res β
  | .ret a, f => f a
  | .op o k, f => .op o (fun r => (k r).bind f)

instance : Monad (Prog Op Res) where
  pure := .ret
  bind := bind

/-- The program that performs one operation and returns its reply. -/
def perform (o : Op) : Prog Op Res (Res o) := .op o .ret

@[simp] theorem ret_bind (a : α) (f : α → Prog Op Res β) : (Prog.ret a).bind f = f a := rfl

@[simp] theorem op_bind (o : Op) (k : Res o → Prog Op Res α) (f : α → Prog Op Res β) :
    (Prog.op o k).bind f = .op o (fun r => (k r).bind f) := rfl

@[simp] theorem bind_eq (p : Prog Op Res α) (f : α → Prog Op Res β) : p >>= f = p.bind f := rfl

@[simp] theorem pure_eq (a : α) : (pure a : Prog Op Res α) = .ret a := rfl

@[simp] theorem perform_bind (o : Op) (f : Res o → Prog Op Res β) :
    (perform o).bind f = .op o f := rfl

theorem bind_assoc (p : Prog Op Res α) (f : α → Prog Op Res β) (g : β → Prog Op Res γ) :
    (p.bind f).bind g = p.bind (fun a => (f a).bind g) := by
  induction p with
  | ret a => rfl
  | op o k ih => simp only [op_bind, ih]

@[simp] theorem bind_ret (p : Prog Op Res α) : p.bind .ret = p := by
  induction p with
  | ret a => rfl
  | op o k ih => simp only [op_bind, ih]

/-! ### Deterministic interpretation -/

/-- Interpret every operation by a state transformer. -/
def run {S : Type} (h : (o : Op) → S → Res o × S) : Prog Op Res α → S → α × S
  | .ret a, s => (a, s)
  | .op o k, s => (k (h o s).1).run h (h o s).2

@[simp] theorem run_ret {S : Type} (h : (o : Op) → S → Res o × S) (a : α) (s : S) :
    (Prog.ret a).run h s = (a, s) := rfl

@[simp] theorem run_op {S : Type} (h : (o : Op) → S → Res o × S) (o : Op)
    (k : Res o → Prog Op Res α) (s : S) :
    (Prog.op o k).run h s = (k (h o s).1).run h (h o s).2 := rfl

@[simp] theorem run_bind {S : Type} (h : (o : Op) → S → Res o × S) (p : Prog Op Res α)
    (f : α → Prog Op Res β) (s : S) :
    (p.bind f).run h s = (f (p.run h s).1).run h (p.run h s).2 := by
  induction p generalizing s with
  | ret a => rfl
  | op o k ih => exact ih _ _

/-- Interpret every operation by a state transformer that may fail, and the program fails then. -/
def exec {S : Type} (h : (o : Op) → S → Option (Res o × S)) : Prog Op Res α → S → Option (α × S)
  | .ret a, s => some (a, s)
  | .op o k, s => (h o s).bind fun r => (k r.1).exec h r.2

@[simp] theorem exec_ret {S : Type} (h : (o : Op) → S → Option (Res o × S)) (a : α) (s : S) :
    (Prog.ret a).exec h s = some (a, s) := rfl

@[simp] theorem exec_op {S : Type} (h : (o : Op) → S → Option (Res o × S)) (o : Op)
    (k : Res o → Prog Op Res α) (s : S) :
    (Prog.op o k).exec h s = (h o s).bind fun r => (k r.1).exec h r.2 := rfl

@[simp] theorem exec_bind {S : Type} (h : (o : Op) → S → Option (Res o × S)) (p : Prog Op Res α)
    (f : α → Prog Op Res β) (s : S) :
    (p.bind f).exec h s = (p.exec h s).bind fun r => (f r.1).exec h r.2 := by
  induction p generalizing s with
  | ret a => rfl
  | op o k ih =>
    rw [op_bind, exec_op, exec_op, Option.bind_assoc]
    exact congrArg _ (funext fun r => ih r.1 r.2)

@[simp] theorem exec_perform {S : Type} (h : (o : Op) → S → Option (Res o × S)) (o : Op) (s : S) :
    (perform o).exec h s = h o s := Option.bind_fun_some (h o s)

/-- Interpret every operation by a reply, if there is one, and the program fails otherwise. -/
def eval (h : (o : Op) → Option (Res o)) : Prog Op Res α → Option α
  | .ret a => some a
  | .op o k => (h o).bind fun r => (k r).eval h

@[simp] theorem eval_ret (h : (o : Op) → Option (Res o)) (a : α) :
    (Prog.ret a).eval h = some a := rfl

@[simp] theorem eval_op (h : (o : Op) → Option (Res o)) (o : Op) (k : Res o → Prog Op Res α) :
    (Prog.op o k).eval h = (h o).bind fun r => (k r).eval h := rfl

@[simp] theorem eval_bind (h : (o : Op) → Option (Res o)) (p : Prog Op Res α)
    (f : α → Prog Op Res β) : (p.bind f).eval h = (p.eval h).bind fun a => (f a).eval h := by
  induction p with
  | ret a => rfl
  | op o k ih =>
    rw [op_bind, eval_op, eval_op, Option.bind_assoc]
    exact congrArg _ (funext ih)

@[simp] theorem eval_perform (h : (o : Op) → Option (Res o)) (o : Op) :
    (perform o).eval h = h o := Option.bind_fun_some (h o)

/-- Interpret every operation by a state transformer that may fail; the state is kept then. -/
def play {S : Type} (h : (o : Op) → S → Option (Res o) × S) : Prog Op Res α → S → Option α × S
  | .ret a, s => (some a, s)
  | .op o k, s => match (h o s).1 with
    | some r => (k r).play h (h o s).2
    | none => (none, (h o s).2)

@[simp] theorem play_ret {S : Type} (h : (o : Op) → S → Option (Res o) × S) (a : α) (s : S) :
    (Prog.ret a).play h s = (some a, s) := rfl

theorem play_bind {S : Type} (h : (o : Op) → S → Option (Res o) × S) (p : Prog Op Res α)
    (f : α → Prog Op Res β) (s : S) :
    (p.bind f).play h s = match (p.play h s).1 with
      | some a => (f a).play h (p.play h s).2
      | none => (none, (p.play h s).2) := by
  induction p generalizing s with
  | ret a => rfl
  | op o k ih =>
    rw [op_bind, play, play]
    cases (h o s).1 with
    | none => rfl
    | some r => exact ih r (h o s).2

theorem play_bind_some {S : Type} {h : (o : Op) → S → Option (Res o) × S} {p : Prog Op Res α}
    {s s' : S} {a : α} (hp : p.play h s = (some a, s')) (f : α → Prog Op Res β) :
    (p.bind f).play h s = (f a).play h s' := by
  rw [play_bind, hp]

theorem play_bind_none {S : Type} {h : (o : Op) → S → Option (Res o) × S} {p : Prog Op Res α}
    {s s' : S} (hp : p.play h s = (none, s')) (f : α → Prog Op Res β) :
    (p.bind f).play h s = (none, s') := by
  rw [play_bind, hp]

theorem play_perform {S : Type} (h : (o : Op) → S → Option (Res o) × S) (o : Op) (s : S) :
    (perform o).play h s = h o s := by
  rw [perform, play]
  cases hr : h o s with
  | mk r s' => cases r <;> rfl

/-- Whatever the replies, the program performs such operations only. -/
def Only (P : Op → Prop) : Prog Op Res α → Prop
  | .ret _ => True
  | .op o k => P o ∧ ∀ r, (k r).Only P

theorem only_bind {P : Op → Prop} {p : Prog Op Res α} {f : α → Prog Op Res β} (hp : p.Only P)
    (hf : ∀ a, (f a).Only P) : (p.bind f).Only P := by
  induction p with
  | ret a => exact hf a
  | op o k ih => exact ⟨hp.1, fun r => ih r (hp.2 r)⟩

/-- Operations that leave the state alone. -/
theorem play_eq_eval {S : Type} {h : (o : Op) → S → Option (Res o) × S}
    {reply : (o : Op) → Option (Res o)} {P : Op → Prop} (hP : ∀ o s, P o → h o s = (reply o, s))
    {p : Prog Op Res α} (hp : p.Only P) (s : S) : p.play h s = (p.eval reply, s) := by
  induction p with
  | ret a => rfl
  | op o k ih =>
    rw [play, eval_op, hP o s hp.1]
    cases reply o with
    | none => rfl
    | some r => exact ih r (hp.2 r)

/-! ### Operations carried out by programs -/

/-- Carry out every operation by a program over other operations. -/
def handle {Op' : Type} {Res' : Op' → Type} (f : (o : Op) → Prog Op' Res' (Res o)) :
    Prog Op Res α → Prog Op' Res' α
  | .ret a => .ret a
  | .op o k => (f o).bind fun r => (k r).handle f

/-! ### Preconditions -/

/-- What the rest of a program has to be proved for after an operation. -/
abbrev OpSpec (Op : Type) (Res : Op → Type) (G : Type) : Type :=
  (o : Op) → G → (Res o → G → Prop) → Prop

/-- A specification is monotone when a weaker continuation is easier to reach. -/
def OpSpec.Monotone {G : Type} (spec : OpSpec Op Res G) : Prop :=
  ∀ o g (Q Q' : Res o → G → Prop), (∀ r g', Q r g' → Q' r g') → spec o g Q → spec o g Q'

/-- The weakest precondition of a program for a specification of its operations. -/
def wp {G : Type} (spec : OpSpec Op Res G) : Prog Op Res α → G → (α → G → Prop) → Prop
  | .ret a, g, Q => Q a g
  | .op o k, g, Q => spec o g (fun r g' => (k r).wp spec g' Q)

@[simp] theorem wp_ret {G : Type} (spec : OpSpec Op Res G) (a : α) (g : G)
    (Q : α → G → Prop) : (Prog.ret a).wp spec g Q ↔ Q a g := Iff.rfl

@[simp] theorem wp_op {G : Type} (spec : OpSpec Op Res G) (o : Op)
    (k : Res o → Prog Op Res α) (g : G) (Q : α → G → Prop) :
    (Prog.op o k).wp spec g Q ↔ spec o g (fun r g' => (k r).wp spec g' Q) := Iff.rfl

theorem wp_bind {G : Type} (spec : OpSpec Op Res G) (p : Prog Op Res α)
    (f : α → Prog Op Res β) (g : G) (Q : β → G → Prop) :
    (p.bind f).wp spec g Q ↔ p.wp spec g (fun a g' => (f a).wp spec g' Q) := by
  induction p generalizing g with
  | ret a => exact Iff.rfl
  | op o k ih =>
    simp only [op_bind, wp_op]
    have e : (fun r g' => ((k r).bind f).wp spec g' Q)
        = fun r g' => (k r).wp spec g' (fun a g'' => (f a).wp spec g'' Q) := by
      funext r g'
      exact propext (ih r g')
    rw [e]

theorem wp_mono {G : Type} {spec : OpSpec Op Res G} (hs : spec.Monotone) {p : Prog Op Res α}
    {Q Q' : α → G → Prop} (hQ : ∀ a g, Q a g → Q' a g) :
    ∀ {g : G}, p.wp spec g Q → p.wp spec g Q' := by
  induction p with
  | ret a => exact fun h => hQ _ _ h
  | op o k ih =>
    intro g h
    exact hs o g _ _ (fun r g' => ih r) h

/-! ### The operations that are performed -/

/-- The program comes to the operation, when the replies before it are allowed. -/
def Performs (allow : (o : Op) → Res o → Prop) : Prog Op Res α → Op → Prop
  | .ret _, _ => False
  | .op o k, o' => o' = o ∨ ∃ r, allow o r ∧ (k r).Performs allow o'

/-- **What a program performs meets the demands that it is proved for.** -/
theorem performs_demand {allow : (o : Op) → Res o → Prop} {demand : Op → Prop} {p : Prog Op Res α}
    {Q : α → Unit → Prop}
    (h : p.wp (fun o g Q => demand o ∧ ∀ r, allow o r → Q r g) () Q) {o : Op}
    (ho : p.Performs allow o) : demand o := by
  induction p with
  | ret a => exact absurd ho id
  | op o' k ih =>
    rcases ho with rfl | ⟨r, hr, ho⟩
    · exact h.1
    · exact ih r (h.2 r hr) ho

/-- **Two interpretations go in step**: the relation of their states is kept by every operation that
meets the demands. -/
theorem play_sim {S T : Type} {h : (o : Op) → S → Option (Res o) × S}
    {h' : (o : Op) → T → Option (Res o) × T} {R : S → T → Prop}
    {allow : (o : Op) → Res o → Prop} {demand : Op → Prop}
    (hstep : ∀ o s t, demand o → R s t → (h o s).1 = (h' o t).1 ∧ R (h o s).2 (h' o t).2 ∧
      ∀ r, (h o s).1 = some r → allow o r)
    {p : Prog Op Res α} {Q : α → Unit → Prop}
    (hp : p.wp (fun o g Q => demand o ∧ ∀ r, allow o r → Q r g) () Q) {s : S} {t : T}
    (hst : R s t) :
    (p.play h s).1 = (p.play h' t).1 ∧ R (p.play h s).2 (p.play h' t).2 := by
  induction p generalizing s t with
  | ret a => exact ⟨rfl, hst⟩
  | op o k ih =>
    obtain ⟨hresult, hnext, hallow⟩ := hstep o s t hp.1 hst
    rw [play, play, ← hresult]
    cases hr : (h o s).1 with
    | none => exact ⟨rfl, hnext⟩
    | some r => exact ih r (hp.2 r (hallow r hr)) hnext

end Prog

end Interact
