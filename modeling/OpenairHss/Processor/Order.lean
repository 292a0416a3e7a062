import OpenairHss.Processor.Ghost
import Mathlib.Data.List.Range

/-!
# The order of the phases

Only the worker sets `m_nextphase` and sends answers, so both, and the list of the phases begun, are
the ghost value of the worker.  `InOrder` says where a processor stands between two phases: it has
run the phases from the first one on, one by one, and has answered iff it is past the phase that
answers or at an end.

`phases_in_order`: then in every reachable state, whatever messages and callbacks have arrived, the
phases that were begun increase and at most one answer was sent.
-/

namespace OpenairHss.Processor

open Interact Steps

variable {K : Kind}

/-- What the worker alone writes. -/
structure Progress (K : Kind) where
  phase : Nat
  answers : List K.Ans
  ran : List Nat

def Core.progress (c : Core K) : Progress K := ⟨c.m_nextphase, c.answers, c.ran⟩

/-- The effect of an operation on it. -/
def Progress.after (p : Progress K) : Op K → Progress K
  | .setPhase phase => { p with phase := phase }
  | .answer ans => { p with answers := p.answers ++ [ans] }
  | _ => p

/-- The operations that only a worker may perform. -/
def Op.ofWorker : Op K → Bool
  | .setPhase _ | .answer _ => true
  | _ => false

/-- Nothing may be answered twice. -/
def Progress.permits (p : Progress K) : Op K → Prop
  | .answer _ => p.answers = []
  | _ => True

/-- The ghost values: `none` for a callback. -/
def progressGhost (K : Kind) : Ghost K (Option (Progress K)) where
  demand o g := match g with
    | none => o.ofWorker = false
    | some p => p.permits o
  allow _ _ _ := True
  next o g _ := g.map fun p => p.after o

/-- Where a processor can stand between two phases. -/
def InOrder (first answering : Nat) (finals : List Nat) (p : Progress K) : Prop :=
  p.ran = List.range' first p.ran.length ∧
    (p.phase = first + p.ran.length ∧
        p.answers.length = (if answering < first + p.ran.length then 1 else 0) ∨
      p.phase ∈ finals ∧ p.answers.length = 1 ∧ p.ran ≠ [])

/-- What holds at every moment. -/
structure Ordered (first answering : Nat) (finals : List Nat) (c : Core K)
    (gw : Option (Option (Progress K))) (gs : List (Option (Progress K))) : Prop where
  outside : ∀ g ∈ gs, g = none
  inside : ∀ g ∈ gw, g = some c.progress
  between : gw = none → InOrder first answering finals c.progress
  ran : c.ran.Pairwise (· < ·)
  answers : c.answers.length ≤ 1

/-- A piece of code that a worker and a callback may both run: it leaves the progress alone. -/
def Quiet {α : Type} (p : Proc K α) : Prop :=
  ∀ g (Q : α → Option (Progress K) → Prop), (∀ a, Q a g) → p.wp (progressGhost K).spec g Q

theorem quiet_ret {α : Type} (a : α) : Quiet (.ret a : Proc K α) := fun _ _ h => h a

theorem quiet_bind {α β : Type} {p : Proc K α} {f : α → Proc K β} (hp : Quiet p)
    (hf : ∀ a, Quiet (f a)) : Quiet (p >>= f) := by
  intro g Q h
  rw [Prog.bind_eq, Prog.wp_bind]
  exact hp g _ fun a => hf a g Q h

theorem Quiet.then {α β : Type} {p : Proc K α} {f : α → Proc K β} {g : Option (Progress K)}
    {Q : β → Option (Progress K) → Prop} (hp : Quiet p)
    (h : ∀ a, (f a).wp (progressGhost K).spec g Q) :
    (p >>= f).wp (progressGhost K).spec g Q :=
  Ghost.wp_bind (hp g _ h)

theorem quiet_op {α : Type} {o : Op K} {k : o.Res → Proc K α} (ho : o.ofWorker = false)
    (hk : ∀ r, Quiet (k r)) : Quiet (.op o k) := by
  intro g Q h
  have hnext : ∀ r, (progressGhost K).next o g r = g := by
    intro r
    cases g with
    | none => rfl
    | some p => cases o <;> first | rfl | cases ho
  refine ⟨?_, fun r _ => ?_⟩
  · cases g with
    | none => exact ho
    | some p => cases o <;> trivial
  · rw [hnext]
    exact hk r g Q h

theorem quiet_call {o : Op K} (ho : o.ofWorker = false) : Quiet (call o) :=
  quiet_op ho fun r => quiet_ret r

section Rules

variable {β : Type} {p : Progress K} {Q : β → Option (Progress K) → Prop}

theorem wp_setPhase_then {phase : Nat} {f : Unit → Proc K β}
    (h : (f ()).wp (progressGhost K).spec (some { p with phase := phase }) Q) :
    (call (.setPhase phase) >>= f).wp (progressGhost K).spec (some p) Q := ⟨trivial, fun _ _ => h⟩

theorem wp_setPhase {phase : Nat} {Q : Unit → Option (Progress K) → Prop}
    (h : Q () (some { p with phase := phase })) :
    (call (.setPhase phase) : Proc K Unit).wp (progressGhost K).spec (some p) Q :=
  ⟨trivial, fun _ _ => h⟩

theorem wp_answer_then {ans : K.Ans} {f : Unit → Proc K β} (ha : p.answers = [])
    (h : (f ()).wp (progressGhost K).spec (some { p with answers := [ans] }) Q) :
    (call (.answer ans) >>= f).wp (progressGhost K).spec (some p) Q := by
  refine ⟨ha, fun _ _ => ?_⟩
  show (f ()).wp (progressGhost K).spec (some { p with answers := p.answers ++ [ans] }) Q
  rw [ha]
  exact h

end Rules

theorem quiet_dbOpComplete (item : BitVec 32) (success : Bool) :
    Quiet (dbOpComplete item success : Proc K Unit) :=
  quiet_bind (quiet_call rfl) fun _ => quiet_call rfl

theorem quiet_issue {act : K.Act} {handler : K.Fut act → Proc K Unit}
    (h : ∀ fut, Quiet (handler fut)) : Quiet (issue act handler) := by
  refine quiet_bind (quiet_call rfl) fun r => ?_
  cases r with
  | failed => exact quiet_ret _
  | registered => exact quiet_ret _
  | immediate fut =>
    exact quiet_bind (h fut) fun _ => quiet_bind (quiet_call rfl) fun _ => quiet_ret _

theorem quiet_failAll : ∀ items, Quiet (failAll items : Proc K Unit)
  | [] => quiet_ret _
  | _ :: rest => quiet_bind (quiet_dbOpComplete _ _) fun _ => quiet_failAll rest

theorem quiet_issueCounted {act : K.Act} {handler : K.Fut act → Proc K Unit}
    {items : List (BitVec 32)} (h : ∀ fut, Quiet (handler fut)) :
    Quiet (issueCounted act handler items) := by
  refine quiet_bind (quiet_call rfl) fun _ => quiet_bind (quiet_issue h) fun success => ?_
  cases success with
  | true => exact quiet_ret _
  | false =>
    exact quiet_bind (quiet_failAll items) fun _ => quiet_bind (quiet_call rfl) fun _ => quiet_ret _

theorem effect_progress (c : Core K) (o : Op K) (r : o.Res) :
    (c.effect o r).progress = c.progress.after o := by
  cases o with
  | register act => cases r <;> rfl
  | _ => rfl

theorem after_eq_self {p : Progress K} {o : Op K} (ho : o.ofWorker = false) : p.after o = p := by
  cases o <;> first | rfl | cases ho

section

variable {M : Code K} {C : State K → Env K × Move → Prop} {first answering : Nat}
  {finals : List Nat}

/-- The phases that were begun, and the next one, are in order. -/
theorem InOrder.next_range {p : Progress K} (h : InOrder first answering finals p)
    (hp : p.phase ∉ finals) :
    p.phase = first + p.ran.length ∧ p.ran ++ [p.phase] = List.range' first (p.ran.length + 1) ∧
      p.answers.length = if answering < p.phase then 1 else 0 := by
  obtain ⟨hran, ⟨hphase, hans⟩ | ⟨hfin, _⟩⟩ := h
  · refine ⟨hphase, ?_, by rw [hphase]; exact hans⟩
    rw [List.range'_concat, ← hran, hphase, one_mul]
  · exact absurd hfin hp

/-- Code whose phases go forward is in order. -/
theorem ordered_sound (hfinals : ∀ p ∈ finals, p = M.final ∨ ∀ x d, M.ready p x d = false)
    (hbody : ∀ (p : Progress K) x d, InOrder first answering finals p → p.phase ≠ M.final →
      M.ready p.phase x d = true → (M.body p.phase).wp (progressGhost K).spec
        (some { p with ran := p.ran ++ [p.phase] })
        (fun _ g => ∃ q, g = some q ∧ InOrder first answering finals q))
    (hhandler : ∀ act fut, Quiet (M.handler act fut)) :
    (progressGhost K).Sound M C (Ordered first answering finals)
      (fun g => ∃ q, g = some q ∧ InOrder first answering finals q) (fun _ => True) where
  take := by
    intro c gs n h _
    exact ⟨_, ⟨_, rfl, h.between rfl⟩, h.outside, fun g hg => (Option.some.inj hg).symm, nofun,
      h.ran, h.answers⟩
  delete := by
    intro s g gs e h hg _ _ _ _
    obtain ⟨q, rfl, hq⟩ := hg
    obtain rfl := Option.some.inj (h.inside _ rfl)
    exact ⟨h.outside, nofun, fun _ => hq, h.ran, h.answers⟩
  body := by
    intro s g gs e h hg _ _ hr hf
    obtain ⟨q, rfl, hq⟩ := hg
    obtain rfl := Option.some.inj (h.inside _ rfl)
    have hready : M.ready s.core.m_nextphase s.core.m_dbexecuted s.core.data = true := by
      unfold Core.phaseReady at hr
      rwa [if_neg hf] at hr
    have hnot : s.core.progress.phase ∉ finals := by
      intro hm
      rcases hfinals _ hm with he | hn
      · exact hf he
      · exact absurd hready (by rw [show s.core.m_nextphase = s.core.progress.phase from rfl, hn]; decide)
    obtain ⟨_, hrange, _⟩ := hq.next_range hnot
    refine ⟨_, hbody s.core.progress _ _ hq hf hready, h.outside, fun g hg => (Option.some.inj hg).symm,
      nofun, ?_, h.answers⟩
    have : s.core.ran ++ [s.core.m_nextphase] = _ := hrange
    simp only [this]
    exact List.pairwise_lt_range'
  leave := by
    intro c g gs h hg _
    obtain ⟨q, rfl, hq⟩ := hg
    obtain rfl := Option.some.inj (h.inside _ rfl)
    exact ⟨h.outside, nofun, fun _ => hq, h.ran, h.answers⟩
  work := by
    intro s e g gs o r h hd _ _ _
    obtain rfl := h.inside _ rfl
    have hp := effect_progress s.core o r
    have hran : (s.core.effect o r).ran = s.core.ran := by
      have := congrArg Progress.ran hp
      cases o <;> exact this
    refine ⟨trivial, h.outside, fun g hg => ?_, nofun, by rw [hran]; exact h.ran, ?_⟩
    · obtain rfl := Option.some.inj hg
      rw [hp]
      rfl
    · have ha := congrArg Progress.answers hp
      have hans := h.answers
      cases o with
      | answer a =>
        have he : s.core.answers = [] := hd
        have ha' : (s.core.effect (.answer a) r).answers = s.core.answers ++ [a] := ha
        rw [ha', he]
        simp
      | register act =>
        cases r <;> exact hans
      | _ => exact hans
  callback := by
    intro s e i g gw gs₁ gs₂ o r h hd _ _ _
    obtain rfl : g = none := h.outside g (by simp)
    have hp : (s.core.effect o r).progress = s.core.progress := by
      rw [effect_progress, after_eq_self hd]
    have hran : (s.core.effect o r).ran = s.core.ran := congrArg Progress.ran hp
    have hans : (s.core.effect o r).answers = s.core.answers := congrArg Progress.answers hp
    exact ⟨trivial, h.outside, by rw [hp]; exact h.inside, by rw [hp]; exact h.between,
      by rw [hran]; exact h.ran, by rw [hans]; exact h.answers⟩
  throw := by
    intro s e m gw gs o g h _ _ _ _ _
    exact ⟨h.outside, h.inside, h.between, h.ran, h.answers⟩
  deliver := by
    intro s e i gw gs act l₁ l₂ h _ _
    refine ⟨none, hhandler _ _ none _ fun _ => trivial, ?_, h.inside, h.between, h.ran, h.answers⟩
    intro g hg
    rcases List.mem_append.mp hg with hm | hm
    · exact h.outside g hm
    · exact List.mem_singleton.mp hm
  finish := by
    intro c g gs₁ gs₂ h _
    refine ⟨fun g' hg' => h.outside g' ?_, nofun, fun _ => h.between rfl, h.ran, h.answers⟩
    rcases List.mem_append.mp hg' with hm | hm
    · exact List.mem_append_left _ hm
    · exact List.mem_append_right _ (List.mem_cons_of_mem _ hm)

/-- A phase that was begun stays in the list. -/
theorem mem_ran {M : Code K} {s t : State K} {l : Env K × Move} (h : exec M s l = some t) {p : Nat}
    (hp : p ∈ s.core.ran) : p ∈ t.core.ran := by
  obtain ⟨_, hst⟩ := exec_cases h
  cases hst with
  | body => exact List.mem_append_left _ hp
  | work e o k r => cases o with
    | register act => cases r <;> exact hp
    | _ => exact hp
  | callback e i o k r => cases o with
    | register act => cases r <;> exact hp
    | _ => exact hp
  | _ => exact hp

/-- **Phases run once and in order, and at most one answer is sent**, in every reachable state. -/
theorem phases_in_order (hfinals : ∀ p ∈ finals, p = M.final ∨ ∀ x d, M.ready p x d = false)
    (hbody : ∀ (p : Progress K) x d, InOrder first answering finals p → p.phase ≠ M.final →
      M.ready p.phase x d = true → (M.body p.phase).wp (progressGhost K).spec
        (some { p with ran := p.ran ++ [p.phase] })
        (fun _ g => ∃ q, g = some q ∧ InOrder first answering finals q))
    (hhandler : ∀ act fut, Quiet (M.handler act fut)) (h0 : first ≤ answering) {d : K.Data}
    {s : State K} (h : Run M C (State.init first d) s) :
    s.core.ran.Pairwise (· < ·) ∧ s.core.answers.length ≤ 1 ∧
      (s.worker = none → InOrder first answering finals s.core.progress) := by
  have hinit : InOrder first answering finals (State.init first d).core.progress := by
    refine ⟨rfl, Or.inl ⟨rfl, ?_⟩⟩
    simp [Core.progress, State.init, h0]
  obtain ⟨gw, gs, hi, hT⟩ := (ordered_sound hfinals hbody hhandler).invariant h rfl rfl
    ⟨nofun, nofun, fun _ => hinit, List.Pairwise.nil, Nat.zero_le _⟩
  exact ⟨hi.ran, hi.answers, fun hw => hi.between (hT.eq_none hw)⟩

end

end OpenairHss.Processor
