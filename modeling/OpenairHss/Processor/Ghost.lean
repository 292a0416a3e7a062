import OpenairHss.Processor.Machine
import Mathlib.Data.List.Forall2

/-!
# Invariants of a processor, thread by thread

`Stepped` lists what one step can do, with the lists split at the thread that moves.

An invariant over all interleavings is proved with a ghost value for every thread.  `Ghost` says how
an operation changes the value of its thread, what it demands of that value, and which replies the
value leaves possible; a phase body or a handler is then checked alone, by `Prog.wp`.  `Sound` is
what the invariant has to satisfy under each kind of step, and `Sound.invariant` gives it in every
reachable state.
-/

namespace OpenairHss.Processor

open Interact Steps

variable {K : Kind}

/-! ### What a step can do -/

inductive Stepped (M : Code K) (s : State K) : Env K × Move → State K → Prop
  | take (e : Env K) (n : Nat) (hw : s.worker = none) (hm : s.core.messages = n + 1) :
    Stepped M s (e, .take) { s with
      core := { s.core with messages := n, m_msgissued := s.core.m_msgissued - 1 }
      worker := some (.ret ()) }
  | delete (e : Env K) (hw : s.worker = some (.ret ())) (hr : s.core.phaseReady M = true)
    (hf : s.core.m_nextphase = M.final) :
    Stepped M s (e, .loop) { s with core := { s.core with status := .deleted }, worker := none }
  | body (e : Env K) (hw : s.worker = some (.ret ())) (hr : s.core.phaseReady M = true)
    (hf : s.core.m_nextphase ≠ M.final) :
    Stepped M s (e, .loop) { s with
      core := { s.core with ran := s.core.ran ++ [s.core.m_nextphase] }
      worker := some (M.body s.core.m_nextphase) }
  | leave (e : Env K) (hw : s.worker = some (.ret ())) (hr : s.core.phaseReady M = false) :
    Stepped M s (e, .loop) { s with worker := none }
  | work (e : Env K) (o : Op K) (k : o.Res → Proc K Unit) (r : o.Res)
    (hw : s.worker = some (.op o k)) (hb : s.core.blocked false o = false)
    (hr : e.reply s.core o = some r) :
    Stepped M s (e, .work) { s with core := s.core.effect o r, worker := some (k r) }
  | workThrow (e : Env K) (o : Op K) (k : o.Res → Proc K Unit)
    (hw : s.worker = some (.op o k)) (hr : e.reply s.core o = none) :
    Stepped M s (e, .work) { s with
      core := { s.core with status := .aborted }, worker := some (.ret ()) }
  | deliver (e : Env K) (i : Nat) (act : K.Act) (l₁ l₂ : List K.Act)
    (hp : s.core.pending = l₁ ++ act :: l₂) :
    Stepped M s (e, .deliver i) { s with
      core := { s.core with
        pending := l₁ ++ l₂, resolved := s.core.resolved ++ [⟨act, e.db act⟩] }
      callbacks := s.callbacks ++ [M.handler act (e.db act)] }
  | callback (e : Env K) (i : Nat) (o : Op K) (k : o.Res → Proc K Unit) (r : o.Res)
    (l₁ l₂ : List (Proc K Unit)) (hc : s.callbacks = l₁ ++ .op o k :: l₂)
    (hb : s.core.blocked s.worker.isSome o = false) (hr : e.reply s.core o = some r) :
    Stepped M s (e, .callback i) { s with
      core := s.core.effect o r, callbacks := l₁ ++ k r :: l₂ }
  | callbackThrow (e : Env K) (i : Nat) (o : Op K) (k : o.Res → Proc K Unit)
    (l₁ l₂ : List (Proc K Unit)) (hc : s.callbacks = l₁ ++ .op o k :: l₂)
    (hr : e.reply s.core o = none) :
    Stepped M s (e, .callback i) { s with
      core := { s.core with status := .aborted }, callbacks := l₁ ++ .ret () :: l₂ }
  | finish (e : Env K) (i : Nat) (l₁ l₂ : List (Proc K Unit)) (hw : s.worker = none)
    (hc : s.callbacks = l₁ ++ .ret () :: l₂) :
    Stepped M s (e, .finish i) { s with core := s.core.signal, callbacks := l₁ ++ l₂ }

theorem split_at {α : Type} {l : List α} {i : Nat} {a : α} (h : l[i]? = some a) :
    ∃ l₁ l₂, l = l₁ ++ a :: l₂ ∧ l.eraseIdx i = l₁ ++ l₂ ∧ ∀ b, l.set i b = l₁ ++ b :: l₂ := by
  obtain ⟨hi, rfl⟩ := List.getElem?_eq_some_iff.mp h
  refine ⟨l.take i, l.drop (i + 1), ?_, ?_, fun b => ?_⟩
  · rw [List.getElem_cons_drop, List.take_append_drop]
  · exact List.eraseIdx_eq_take_drop_succ l i
  · exact List.set_eq_take_cons_drop b hi

theorem exec_cases {M : Code K} {s t : State K} {l : Env K × Move} (h : exec M s l = some t) :
    s.core.status = .running ∧ Stepped M s l t := by
  obtain ⟨e, m⟩ := l
  unfold exec at h
  split at h
  case isFalse => exact absurd h (by simp)
  case isTrue hrun =>
  refine ⟨hrun, ?_⟩
  cases m with
  | take =>
    simp only at h
    split at h
    case h_1 n hw hm =>
      obtain rfl := Option.some.inj h
      exact .take e n hw hm
    case h_2 => exact absurd h (by simp)
  | loop =>
    simp only at h
    split at h
    case h_1 u hw =>
      split at h
      case isTrue hr =>
        split at h
        case isTrue hf =>
          obtain rfl := Option.some.inj h
          exact .delete e hw hr hf
        case isFalse hf =>
          obtain rfl := Option.some.inj h
          exact .body e hw hr hf
      case isFalse hr =>
        obtain rfl := Option.some.inj h
        exact .leave e hw (by simpa using hr)
    case h_2 => exact absurd h (by simp)
  | work =>
    simp only at h
    split at h
    case h_1 o k hw =>
      split at h
      case isTrue => exact absurd h (by simp)
      case isFalse hb =>
        obtain rfl := Option.some.inj h
        unfold Core.perform
        cases hr : e.reply s.core o with
        | none => exact .workThrow e o k hw hr
        | some r => exact .work e o k r hw (by simpa using hb) hr
    case h_2 => exact absurd h (by simp)
  | deliver i =>
    simp only at h
    split at h
    case h_1 act hi =>
      obtain ⟨l₁, l₂, hp, he, -⟩ := split_at hi
      obtain rfl := Option.some.inj h
      rw [he]
      exact .deliver e i act l₁ l₂ hp
    case h_2 => exact absurd h (by simp)
  | callback i =>
    simp only at h
    split at h
    case h_1 o k hi =>
      obtain ⟨l₁, l₂, hc, -, hset⟩ := split_at hi
      split at h
      case isTrue => exact absurd h (by simp)
      case isFalse hb =>
        obtain rfl := Option.some.inj h
        unfold Core.perform
        rw [hset]
        cases hr : e.reply s.core o with
        | none => exact .callbackThrow e i o k l₁ l₂ hc hr
        | some r => exact .callback e i o k r l₁ l₂ hc (by simpa using hb) hr
    case h_2 => exact absurd h (by simp)
  | finish i =>
    simp only at h
    split at h
    case h_1 u hw hi =>
      obtain ⟨l₁, l₂, hc, he, -⟩ := split_at hi
      obtain rfl := Option.some.inj h
      rw [he]
      exact .finish e i l₁ l₂ hw hc
    case h_2 => exact absurd h (by simp)

/-- The lowest bit of the result is set by nothing but a success of its own operation. -/
theorem resultMask_cleared {item result : BitVec 32} {success : Bool}
    (hs : item.getLsbD 0 = true → success = true → False) (hb : result.getLsbD 0 = false) :
    (resultMask item success result).getLsbD 0 = false := by
  cases success with
  | false => simp only [resultMask, Bool.false_eq_true, if_false, BitVec.getLsbD_and, hb,
      Bool.false_and]
  | true =>
    have hi : item.getLsbD 0 = false := Bool.eq_false_iff.mpr fun h => hs h rfl
    simp only [resultMask, if_true, BitVec.getLsbD_or, hb, hi, Bool.or_false]

/-- The runs of a processor whose steps all meet a condition. -/
abbrev Run (M : Code K) (C : State K → Env K × Move → Prop) : State K → State K → Prop :=
  Reaches (fun s l t => exec M s l = some t) C

@[simp] theorem effect_status (c : Core K) (o : Op K) (r : o.Res) :
    (c.effect o r).status = c.status := by
  cases o with
  | register act => cases r <;> rfl
  | _ => rfl

/-- A processor that is deleted was deleted by the last step of the run, in a state in which the
final phase was ready. -/
theorem deleted_last {M : Code K} {C : State K → Env K × Move → Prop} {s₀ t : State K}
    (h : Run M C s₀ t) (h0 : s₀.core.status = .running) (ht : t.core.status = .deleted) :
    ∃ s e, Run M C s₀ s ∧ C s (e, .loop) ∧ s.core.status = .running ∧
      s.worker = some (.ret ()) ∧ s.core.phaseReady M = true ∧ s.core.m_nextphase = M.final ∧
      t = { s with core := { s.core with status := .deleted }, worker := none } := by
  cases h with
  | refl =>
    rw [h0] at ht
    cases ht
  | @tail s _ hr hl =>
    obtain ⟨l, hC, hx⟩ := hl
    obtain ⟨hrun, hst⟩ := exec_cases hx
    cases hst with
    | delete e hw hr' hf => exact ⟨s, e, hr, hC, hrun, hw, hr', hf, rfl⟩
    | workThrow => cases ht
    | callbackThrow => cases ht
    | work => simp [hrun] at ht
    | callback => simp [hrun] at ht
    | finish => simp [Core.signal, hrun] at ht
    | _ =>
      rw [show _ = Status.running from hrun] at ht
      cases ht

/-! ### Ghost values -/

/-- A ghost value for each thread. -/
structure Ghost (K : Kind) (G : Type) where
  /-- What an operation demands of the value of its thread. -/
  demand : Op K → G → Prop
  /-- The replies that are possible for a thread with this value. -/
  allow : (o : Op K) → G → o.Res → Prop
  /-- The value after the operation. -/
  next : (o : Op K) → G → o.Res → G

/-- What the code after an operation has to be checked for. -/
def Ghost.spec {G : Type} (γ : Ghost K G) : Prog.OpSpec (Op K) Op.Res G :=
  fun o g Q => γ.demand o g ∧ ∀ r, γ.allow o g r → Q r (γ.next o g r)

theorem Ghost.spec_monotone {G : Type} (γ : Ghost K G) : γ.spec.Monotone :=
  fun _ _ _ _ h hs => ⟨hs.1, fun r hr => h _ _ (hs.2 r hr)⟩

/-! ### Rules for code -/

section Rules

variable {G α β : Type} {γ : Ghost K G} {g : G}

theorem Ghost.wp_call {o : Op K} {Q : o.Res → G → Prop} (hd : γ.demand o g)
    (h : ∀ r, γ.allow o g r → Q r (γ.next o g r)) : (call o).wp γ.spec g Q := ⟨hd, h⟩

theorem Ghost.wp_bind {p : Proc K α} {f : α → Proc K β} {Q : β → G → Prop}
    (h : p.wp γ.spec g fun a g' => (f a).wp γ.spec g' Q) : (p >>= f).wp γ.spec g Q := by
  rw [Prog.bind_eq, Prog.wp_bind]
  exact h

theorem Ghost.wp_then {o : Op K} {f : o.Res → Proc K β} {Q : β → G → Prop} (hd : γ.demand o g)
    (h : ∀ r, γ.allow o g r → (f r).wp γ.spec (γ.next o g r) Q) :
    (call o >>= f).wp γ.spec g Q := ⟨hd, h⟩

theorem Ghost.wp_weaken {p : Proc K α} {Q Q' : α → G → Prop} (h : p.wp γ.spec g Q)
    (hQ : ∀ a g, Q a g → Q' a g) : p.wp γ.spec g Q' :=
  Prog.wp_mono γ.spec_monotone hQ h

/-- From any value code ends in one that is so related to it. -/
def Ghost.Does (γ : Ghost K G) (R : G → G → Prop) (p : Proc K α) : Prop :=
  ∀ g (Q : α → G → Prop), (∀ a g', R g g' → Q a g') → p.wp γ.spec g Q

theorem Ghost.does_ret {R : G → G → Prop} (hrefl : ∀ g, R g g) (a : α) : γ.Does R (.ret a) :=
  fun g _ h => h a g (hrefl g)

theorem Ghost.does_bind {R₁ R₂ R : G → G → Prop} {p : Proc K α} {f : α → Proc K β}
    (ht : ∀ g g' g'', R₁ g g' → R₂ g' g'' → R g g'') (hp : γ.Does R₁ p)
    (hf : ∀ a, γ.Does R₂ (f a)) : γ.Does R (p >>= f) :=
  fun g _ h => Ghost.wp_bind (hp g _ fun a g' hg => hf a g' _ fun b g'' hg' =>
    h b g'' (ht g g' g'' hg hg'))

theorem Ghost.Does.mono {R R' : G → G → Prop} {p : Proc K α} (h : γ.Does R p)
    (hR : ∀ g g', R g g' → R' g g') : γ.Does R' p :=
  fun g Q hQ => h g Q fun a g' hg => hQ a g' (hR g g' hg)

end Rules

/-! ### The rule for processors -/

/-- A thread is about to perform the operation. -/
def State.Performs (s : State K) (o : Op K) : Prop :=
  s.core.status = .running ∧ ∃ k, s.worker = some (.op o k) ∨ .op o k ∈ s.callbacks

/-- The invariant `I`, of the core and of the ghost values of the worker and the callbacks, is kept
by every step that meets `C`.  `W` and `B` are what the worker and a callback end with. -/
structure Ghost.Sound {G : Type} (γ : Ghost K G) (M : Code K)
    (C : State K → Env K × Move → Prop) (I : Core K → Option G → List G → Prop)
    (W B : G → Prop) : Prop where
  take : ∀ {c gs n}, I c none gs → c.messages = n + 1 →
    ∃ g, W g ∧ I { c with messages := n, m_msgissued := c.m_msgissued - 1 } (some g) gs
  delete : ∀ {s g gs e}, I s.core (some g) gs → W g → gs.length = s.callbacks.length →
    C s (e, .loop) → s.core.phaseReady M = true → s.core.m_nextphase = M.final →
    I { s.core with status := .deleted } none gs
  body : ∀ {s g gs e}, I s.core (some g) gs → W g → gs.length = s.callbacks.length →
    C s (e, .loop) → s.core.phaseReady M = true → s.core.m_nextphase ≠ M.final →
    ∃ g', (M.body s.core.m_nextphase).wp γ.spec g' (fun _ => W) ∧
      I { s.core with ran := s.core.ran ++ [s.core.m_nextphase] } (some g') gs
  leave : ∀ {c g gs}, I c (some g) gs → W g → c.phaseReady M = false → I c none gs
  work : ∀ {s e g gs o r}, I s.core (some g) gs → γ.demand o g → C s (e, .work) →
    s.core.blocked false o = false → e.reply s.core o = some r →
    γ.allow o g r ∧ I (s.core.effect o r) (some (γ.next o g r)) gs
  callback : ∀ {s e i g gw gs₁ gs₂ o r}, I s.core gw (gs₁ ++ g :: gs₂) → γ.demand o g →
    C s (e, .callback i) → s.core.blocked gw.isSome o = false → e.reply s.core o = some r →
    γ.allow o g r ∧ I (s.core.effect o r) gw (gs₁ ++ γ.next o g r :: gs₂)
  throw : ∀ {s e m gw gs o g}, I s.core gw gs → g ∈ gs ∨ gw = some g → γ.demand o g →
    C s (e, m) → s.Performs o → e.reply s.core o = none →
    I { s.core with status := .aborted } gw gs
  deliver : ∀ {s e i gw gs act l₁ l₂}, I s.core gw gs → C s (e, .deliver i) →
    s.core.pending = l₁ ++ act :: l₂ →
    ∃ g, (M.handler act (e.db act)).wp γ.spec g (fun _ => B) ∧
      I { s.core with pending := l₁ ++ l₂, resolved := s.core.resolved ++ [⟨act, e.db act⟩] } gw
        (gs ++ [g])
  finish : ∀ {c g gs₁ gs₂}, I c none (gs₁ ++ g :: gs₂) → B g → I c.signal none (gs₁ ++ gs₂)

/-- The threads of a state agree with ghost values. -/
structure Ghost.Threads {G : Type} (γ : Ghost K G) (W B : G → Prop) (s : State K)
    (gw : Option G) (gs : List G) : Prop where
  length : gs.length = s.callbacks.length
  isSome : gw.isSome = s.worker.isSome
  worker : s.core.status = .running →
    ∀ p ∈ s.worker, ∃ g ∈ gw, Prog.wp γ.spec p g (fun _ => W)
  callbacks : s.core.status = .running →
    List.Forall₂ (fun p g => Prog.wp γ.spec p g (fun _ => B)) s.callbacks gs

theorem Ghost.Threads.eq_none {G : Type} {γ : Ghost K G} {W B : G → Prop} {s : State K}
    {gw : Option G} {gs : List G} (h : γ.Threads W B s gw gs) (hw : s.worker = none) :
    gw = none := by
  have hs := h.isSome
  rw [hw] at hs
  exact Option.not_isSome_iff_eq_none.mp (by rw [hs]; exact Bool.false_ne_true)

theorem Ghost.Threads.eq_nil {G : Type} {γ : Ghost K G} {W B : G → Prop} {s : State K}
    {gw : Option G} {gs : List G} (h : γ.Threads W B s gw gs) (hc : s.callbacks = []) :
    gs = [] := by
  have hl := h.length
  rw [hc] at hl
  exact List.length_eq_zero_iff.mp hl

/-- The ghost values of a list of threads that is split at one of them. -/
theorem forall₂_split {α β : Type} {R : α → β → Prop} {l₁ l₂ : List α} {a : α} {gs : List β}
    (h : List.Forall₂ R (l₁ ++ a :: l₂) gs) :
    ∃ gs₁ g gs₂, gs = gs₁ ++ g :: gs₂ ∧ List.Forall₂ R l₁ gs₁ ∧ R a g ∧ List.Forall₂ R l₂ gs₂ := by
  induction l₁ generalizing gs with
  | nil =>
    cases h with
    | cons hg htl => exact ⟨[], _, _, rfl, .nil, hg, htl⟩
  | cons b l₁ ih =>
    cases h with
    | cons hb htl =>
      obtain ⟨gs₁, g, gs₂, rfl, h1, hg, h2⟩ := ih htl
      exact ⟨_ :: gs₁, g, gs₂, rfl, .cons hb h1, hg, h2⟩

/-- One step keeps the invariant and the agreement. -/
theorem Ghost.Sound.step {G : Type} {γ : Ghost K G} {M : Code K}
    {C : State K → Env K × Move → Prop} {I : Core K → Option G → List G → Prop} {W B : G → Prop}
    (hs : γ.Sound M C I W B) {s t : State K} {l : Env K × Move} (hC : C s l)
    (hx : exec M s l = some t) {gw : Option G} {gs : List G} (hI : I s.core gw gs)
    (hT : γ.Threads W B s gw gs) : ∃ gw' gs', I t.core gw' gs' ∧ γ.Threads W B t gw' gs' := by
  obtain ⟨hrun, hst⟩ := exec_cases hx
  have hcs := hT.callbacks hrun
  have hsome : ∀ p, s.worker = some p →
      ∃ g, gw = some g ∧ Prog.wp γ.spec p g (fun _ => W) := by
    intro p hp
    obtain ⟨g, hg, hwp⟩ := hT.worker hrun p hp
    exact ⟨g, hg, hwp⟩
  cases hst with
  | take e n hw hm =>
    obtain rfl := hT.eq_none hw
    obtain ⟨g, hg, hI'⟩ := hs.take hI hm
    refine ⟨some g, gs, hI', hT.length, rfl, fun _ p hp => ⟨g, rfl, ?_⟩, fun _ => hcs⟩
    obtain rfl := Option.some.inj hp
    exact hg
  | delete e hw hr hf =>
    obtain ⟨g, rfl, hg⟩ := hsome _ hw
    exact ⟨none, gs, hs.delete hI hg hT.length hC hr hf, hT.length, rfl, nofun, nofun⟩
  | body e hw hr hf =>
    obtain ⟨g, rfl, hg⟩ := hsome _ hw
    obtain ⟨g', hwp, hI'⟩ := hs.body hI hg hT.length hC hr hf
    refine ⟨some g', gs, hI', hT.length, rfl, fun _ p hp => ⟨g', rfl, ?_⟩, fun _ => hcs⟩
    obtain rfl := Option.some.inj hp
    exact hwp
  | leave e hw hr =>
    obtain ⟨g, rfl, hg⟩ := hsome _ hw
    exact ⟨none, gs, hs.leave hI hg hr, hT.length, rfl, fun _ p hp => absurd hp nofun, fun _ => hcs⟩
  | work e o k r hw hb hr =>
    obtain ⟨g, rfl, hd, hk⟩ := hsome _ hw
    obtain ⟨ha, hI'⟩ := hs.work hI hd hC hb hr
    refine ⟨_, gs, hI', hT.length, rfl, fun _ p hp => ⟨_, rfl, ?_⟩, fun _ => hcs⟩
    obtain rfl := Option.some.inj hp
    exact hk r ha
  | workThrow e o k hw hr =>
    obtain ⟨g, rfl, hd, hk⟩ := hsome _ hw
    exact ⟨_, gs, hs.throw hI (Or.inr rfl) hd hC ⟨hrun, k, Or.inl hw⟩ hr, hT.length, rfl, nofun, nofun⟩
  | deliver e i act l₁ l₂ hp =>
    obtain ⟨g, hwp, hI'⟩ := hs.deliver hI hC hp
    refine ⟨gw, gs ++ [g], hI', by simp [hT.length], hT.isSome, hT.worker, fun _ => ?_⟩
    exact List.rel_append hcs (.cons hwp .nil)
  | callback e i o k r l₁ l₂ hc hb hr =>
    rw [hc] at hcs
    obtain ⟨gs₁, g, gs₂, rfl, h1, ⟨hd, hk⟩, h2⟩ := forall₂_split hcs
    rw [← hT.isSome] at hb
    obtain ⟨ha, hI'⟩ := hs.callback hI hd hC hb hr
    refine ⟨gw, _, hI', ?_, hT.isSome, ?_, fun _ => List.rel_append h1 (.cons (hk r ha) h2)⟩
    · have := hT.length
      simpa [hc] using this
    · simpa [hrun] using hT.worker
  | callbackThrow e i o k l₁ l₂ hc hr =>
    rw [hc] at hcs
    obtain ⟨gs₁, g, gs₂, rfl, h1, ⟨hd, hk⟩, h2⟩ := forall₂_split hcs
    have hperforms : s.Performs o := ⟨hrun, k, Or.inr (by simp [hc])⟩
    refine ⟨gw, _, hs.throw hI (Or.inl (by simp)) hd hC hperforms hr, ?_, hT.isSome, nofun, nofun⟩
    have := hT.length
    simpa [hc] using this
  | finish e i l₁ l₂ hw hc =>
    obtain rfl := hT.eq_none hw
    rw [hc] at hcs
    obtain ⟨gs₁, g, gs₂, rfl, h1, hg, h2⟩ := forall₂_split hcs
    refine ⟨none, gs₁ ++ gs₂, hs.finish hI hg, ?_, hT.isSome, hT.worker, fun _ =>
      List.rel_append h1 h2⟩
    have := hT.length
    rw [hc] at this
    simp only [List.length_append, List.length_cons] at this ⊢
    omega

/-- **The rule**: in every state of a run the invariant holds for some ghost values that agree with
the threads, if it does at the start. -/
theorem Ghost.Sound.invariant_of {G : Type} {γ : Ghost K G} {M : Code K}
    {C : State K → Env K × Move → Prop} {I : Core K → Option G → List G → Prop} {W B : G → Prop}
    (hs : γ.Sound M C I W B) {s t : State K} (h : Run M C s t) {gw : Option G} {gs : List G}
    (hI : I s.core gw gs) (hT : γ.Threads W B s gw gs) :
    ∃ gw gs, I t.core gw gs ∧ γ.Threads W B t gw gs := by
  refine h.invariant (I := fun t => ∃ gw gs, I t.core gw gs ∧ γ.Threads W B t gw gs)
    ⟨gw, gs, hI, hT⟩ ?_
  rintro s l t ⟨gw, gs, hI, hT⟩ hC hx
  exact hs.step hC hx hI hT

/-- For a processor that no thread is in. -/
theorem Ghost.Sound.invariant {G : Type} {γ : Ghost K G} {M : Code K}
    {C : State K → Env K × Move → Prop} {I : Core K → Option G → List G → Prop} {W B : G → Prop}
    (hs : γ.Sound M C I W B) {s t : State K} (h : Run M C s t) (hw : s.worker = none)
    (hc : s.callbacks = []) (h0 : I s.core none []) :
    ∃ gw gs, I t.core gw gs ∧ γ.Threads W B t gw gs :=
  hs.invariant_of h h0 ⟨by simp [hc], by simp [hw], by simp [hw], by simp [hc]⟩

theorem exists_mem_of_forall₂ {α β : Type} {R : α → β → Prop} {as : List α} {bs : List β}
    (h : List.Forall₂ R as bs) {a : α} (ha : a ∈ as) : ∃ b ∈ bs, R a b := by
  induction h with
  | nil => exact absurd ha nofun
  | cons hab _ ih =>
    rcases List.mem_cons.mp ha with rfl | ha
    · exact ⟨_, List.mem_cons_self, hab⟩
    · obtain ⟨b, hb, hr⟩ := ih ha
      exact ⟨b, List.mem_cons_of_mem _ hb, hr⟩

/-- **What a thread is about to perform meets its demand.** -/
theorem Ghost.Threads.demand {G : Type} {γ : Ghost K G} {W B : G → Prop} {s : State K}
    {gw : Option G} {gs : List G} (h : γ.Threads W B s gw gs) {o : Op K} (ho : s.Performs o) :
    ∃ g, (gw = some g ∨ g ∈ gs) ∧ γ.demand o g := by
  obtain ⟨hrun, k, hw | hc⟩ := ho
  · obtain ⟨g, hg, hd, -⟩ := h.worker hrun _ hw
    exact ⟨g, Or.inl hg, hd⟩
  · obtain ⟨g, hg, hd, -⟩ := exists_mem_of_forall₂ (h.callbacks hrun) hc
    exact ⟨g, Or.inr hg, hd⟩

/-! ### Runs in a fixed environment -/

/-- The first of a list of moves that can be made. -/
def firstMove (M : Code K) (e : Env K) (s : State K) : List Move → Option (State K)
  | [] => none
  | m :: ms => match exec M s (e, m) with
    | some t => some t
    | none => firstMove M e s ms

/-- The run that makes the first possible move of a list, again and again, while `D` holds. -/
def greedy (M : Code K) (e : Env K) (D : State K → Bool) (ms : List Move) :
    Nat → State K → State K
  | 0, s => s
  | n + 1, s => match firstMove M e s ms with
    | some t => if D s then greedy M e D ms n t else s
    | none => s

theorem firstMove_exec {M : Code K} {e : Env K} {s t : State K} :
    ∀ {ms : List Move}, firstMove M e s ms = some t → ∃ m, exec M s (e, m) = some t
  | m :: ms, h => by
    rw [firstMove] at h
    split at h
    case h_1 u hu => exact ⟨m, hu.trans h⟩
    case h_2 => exact firstMove_exec h

theorem greedy_run {M : Code K} {C : State K → Env K × Move → Prop} {e : Env K}
    {D : State K → Bool} (hC : ∀ s m, D s = true → C s (e, m)) (ms : List Move) :
    ∀ (n : Nat) (s : State K), Run M C s (greedy M e D ms n s)
  | 0, s => Reaches.refl s
  | n + 1, s => by
    rw [greedy]
    split
    case h_1 t ht =>
      split
      case isTrue hD =>
        obtain ⟨m, hm⟩ := firstMove_exec ht
        exact Relation.ReflTransGen.head ⟨(e, m), hC s m hD, hm⟩ (greedy_run hC ms n t)
      case isFalse => exact Reaches.refl s
    case h_2 => exact Reaches.refl s

end OpenairHss.Processor
