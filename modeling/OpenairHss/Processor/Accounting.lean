import OpenairHss.Processor.Ghost
import Mathlib.Algebra.Order.BigOperators.Group.List
import Mathlib.Tactic.Ring

/-!
# The counters

`m_dbissued` against the callbacks that are registered or running, and `m_msgissued` against the
messages.  The ghost value of a thread is what it has counted and not issued yet (`debt`); a
callback stands for one itself.  `counters_exact` is the balance

    m_dbissued = registered + running + debts

for code that leaves no debt behind; with `strict` it also says that no counter ever goes below
zero, and that nothing refers to a processor that is deleted.
-/

namespace OpenairHss.Processor

open Interact Steps

variable {K : Kind}

/-- The ghost value: a worker or a callback, what it has counted and not issued, and the callbacks
it has registered. -/
structure Credit where
  inLoop : Bool
  debt : Int
  regs : Nat

/-- A value from which the counter cannot be below zero.  What a worker has registered is still
there as long as it holds the mutex. -/
def Credit.Fine (g : Credit) : Prop := if g.inLoop then 0 ≤ g.debt + g.regs else 0 ≤ g.debt

/-- A worker that owes nothing. -/
theorem Credit.fine_of_debt {g : Credit} (hd : g.debt = 0) (hl : g.inLoop = true) : g.Fine := by
  unfold Credit.Fine
  rw [hl, hd, if_pos rfl]
  omega

/-- A worker that owed nothing before it registered a callback. -/
theorem Credit.fine_of_registered {g : Credit} (hd : g.debt = 0) (hl : g.inLoop = true) :
    Credit.Fine { g with debt := g.debt - 1, regs := g.regs + 1 } := by
  unfold Credit.Fine
  simp only [hl, hd, if_true]
  push_cast
  omega

/-- What an operation does to the debt. -/
def Credit.after (g : Credit) : (o : Op K) → o.Res → Credit
  | .incDb, _ => { g with debt := g.debt + 1 }
  | .decDb, _ => { g with debt := g.debt - 1 }
  | .register _, .registered => { g with debt := g.debt - 1, regs := g.regs + 1 }
  | .signal, _ => { g with debt := g.debt - 1 }
  | _, _ => g

/-- The replies to registrations are restricted by `ok`. -/
def allowReg (ok : (act : K.Act) → Reg (K.Fut act) → Prop) : (o : Op K) → o.Res → Prop
  | .register act, r => ok act r
  | _, _ => True

/-- The ghost values of the balance. -/
def credit (strict : Bool) (ok : (act : K.Act) → Reg (K.Fut act) → Prop) : Ghost K Credit where
  demand o g := strict → ∀ r, allowReg ok o r → (g.after o r).Fine
  allow o _ r := allowReg ok o r
  next o g r := g.after o r

/-- The replies that a condition leaves possible. -/
def RepliesOk (C : State K → Env K × Move → Prop)
    (ok : (act : K.Act) → Reg (K.Fut act) → Prop) : Prop :=
  ∀ s e m o (r : o.Res), C s (e, m) → e.reply s.core o = some r → allowReg ok o r

structure Balance (strict : Bool) (c : Core K) (gw : Option Credit) (gs : List Credit) : Prop where
  msg : c.m_msgissued = c.messages
  db : c.m_dbissued = c.pending.length + gs.length + (gs.map Credit.debt).sum +
    (gw.map Credit.debt).getD 0
  outside : ∀ g ∈ gs, g.inLoop = false
  inside : ∀ g ∈ gw, g.inLoop = true
  debts : strict → ∀ g ∈ gs, 0 ≤ g.debt
  regs : strict → ∀ g ∈ gw, g.regs ≤ c.pending.length + gs.length ∧ 0 ≤ g.debt + g.regs

theorem sum_nonneg {gs : List Credit} (h : ∀ g ∈ gs, 0 ≤ g.debt) :
    0 ≤ (gs.map Credit.debt).sum := by
  refine List.sum_nonneg fun x hx => ?_
  obtain ⟨g, hg, rfl⟩ := List.mem_map.mp hx
  exact h g hg

theorem sum_split (gs₁ gs₂ : List Credit) (g : Credit) :
    ((gs₁ ++ g :: gs₂).map Credit.debt).sum
      = (gs₁.map Credit.debt).sum + g.debt + (gs₂.map Credit.debt).sum := by
  simp only [List.map_append, List.map_cons, List.sum_append, List.sum_cons]
  ring

@[simp] theorem after_inLoop (g : Credit) (o : Op K) (r : o.Res) :
    (g.after o r).inLoop = g.inLoop := by
  cases o with
  | register act => cases r <;> rfl
  | _ => rfl

/-- What an operation does to the counters, against what it does to the debt of its thread. -/
theorem effect_counters (c : Core K) (o : Op K) (r : o.Res) (g : Credit) :
    (c.effect o r).m_dbissued - (c.effect o r).pending.length - (g.after o r).debt
        = c.m_dbissued - c.pending.length - g.debt ∧
      (c.effect o r).m_msgissued - (c.effect o r).messages = c.m_msgissued - c.messages ∧
      (c.effect o r).pending.length + g.regs = c.pending.length + (g.after o r).regs := by
  cases o with
  | register act =>
    cases r with
    | registered =>
      refine ⟨?_, by simp [Core.effect], ?_⟩
      · simp only [Core.effect, Credit.after, List.length_append, List.length_cons,
          List.length_nil]
        push_cast
        ring
      · simp only [Core.effect, Credit.after, List.length_append, List.length_cons,
          List.length_nil]
        ring
    | _ => exact ⟨by simp [Core.effect, Credit.after], by simp [Core.effect],
        by simp [Core.effect, Credit.after]⟩
  | signal =>
    refine ⟨?_, ?_, by simp [Core.effect, Core.signal, Credit.after]⟩
    · simp only [Core.effect, Core.signal, Credit.after]
      ring
    · simp only [Core.effect, Core.signal]
      push_cast
      ring
  | incDb =>
    refine ⟨?_, by simp [Core.effect], by simp [Core.effect, Credit.after]⟩
    simp only [Core.effect, Credit.after]
    ring
  | decDb =>
    refine ⟨?_, by simp [Core.effect], by simp [Core.effect, Credit.after]⟩
    simp only [Core.effect, Credit.after]
    ring
  | _ => exact ⟨by simp [Core.effect, Credit.after], by simp [Core.effect],
        by simp [Core.effect, Credit.after]⟩

/-! ### Code that keeps its debt -/

section Keeps

variable {α β : Type} {strict : Bool} {ok : (act : K.Act) → Reg (K.Fut act) → Prop} {g : Credit}

/-- The same debt, and at least the same registrations. -/
def Credit.Same (g g' : Credit) : Prop :=
  g'.debt = g.debt ∧ g'.inLoop = g.inLoop ∧ g.regs ≤ g'.regs

theorem Credit.Same.refl (g : Credit) : g.Same g := ⟨rfl, rfl, le_refl _⟩

theorem Credit.Same.trans {g₁ g₂ g₃ : Credit} (h : g₁.Same g₂) (h' : g₂.Same g₃) : g₁.Same g₃ :=
  ⟨h'.1.trans h.1, h'.2.1.trans h.2.1, h.2.2.trans h'.2.2⟩

theorem Credit.Same.fine {g g' : Credit} (h : g.Same g') (hg : g.Fine) : g'.Fine := by
  obtain ⟨h1, h2, h3⟩ := h
  unfold Credit.Fine at hg ⊢
  rw [h1, h2]
  split
  · rw [if_pos ‹_›] at hg
    omega
  · rwa [if_neg ‹_›] at hg

/-- A piece of code that ends with the debt it began with. -/
def Keeps (strict : Bool) (ok : (act : K.Act) → Reg (K.Fut act) → Prop) (p : Proc K α) : Prop :=
  ∀ g (Q : α → Credit → Prop), (strict → g.Fine) → (∀ a g', g.Same g' → Q a g') →
    p.wp (credit strict ok).spec g Q

theorem keeps_ret (a : α) : Keeps strict ok (.ret a : Proc K α) :=
  fun g _ _ h => h a g (.refl g)

theorem keeps_bind {p : Proc K α} {f : α → Proc K β} (hp : Keeps strict ok p)
    (hf : ∀ a, Keeps strict ok (f a)) : Keeps strict ok (p >>= f) := by
  intro g Q hg h
  refine Ghost.wp_bind (hp g _ hg fun a g' hs => hf a g' Q (fun hst => hs.fine (hg hst)) ?_)
  exact fun b g'' hs' => h b g'' (hs.trans hs')

/-- The operations that do not count anything. -/
def Op.counts : Op K → Bool
  | .incDb | .decDb | .register _ | .signal => true
  | _ => false

theorem keeps_op {o : Op K} {k : o.Res → Proc K α} (ho : o.counts = false)
    (hk : ∀ r, Keeps strict ok (k r)) : Keeps strict ok (.op o k) := by
  intro g Q hg h
  have hafter : ∀ r, g.after o r = g := by
    intro r
    cases o <;> first | rfl | cases ho
  refine ⟨fun hst r _ => by rw [hafter]; exact hg hst, fun r _ => ?_⟩
  have hnext : (credit strict ok).next o g r = g := hafter r
  rw [hnext]
  exact hk r g Q hg h

theorem keeps_call {o : Op K} (ho : o.counts = false) : Keeps strict ok (call o) :=
  keeps_op ho fun r => keeps_ret r

theorem keeps_dbOpComplete (item : BitVec 32) (success : Bool) :
    Keeps strict ok (dbOpComplete item success : Proc K Unit) :=
  keeps_bind (keeps_call rfl) fun _ => keeps_call rfl

theorem keeps_failAll : ∀ items, Keeps strict ok (failAll items : Proc K Unit)
  | [] => keeps_ret _
  | _ :: rest => keeps_bind (keeps_dbOpComplete _ _) fun _ => keeps_failAll rest

theorem Keeps.then {p : Proc K α} {f : α → Proc K β} {Q : β → Credit → Prop}
    (hp : Keeps strict ok p) (hg : strict → g.Fine)
    (h : ∀ a g', g.Same g' → (f a).wp (credit strict ok).spec g' Q) :
    (p >>= f).wp (credit strict ok).spec g Q :=
  Ghost.wp_bind (hp g _ hg h)

/-- A call of the database lowers the debt by one, whether its callback waits or runs at once,
unless it fails. -/
theorem wp_issue {act : K.Act} {handler : K.Fut act → Proc K Unit} {Q : Bool → Credit → Prop}
    (hh : ∀ fut, ok act (.immediate fut) → Keeps strict ok (handler fut)) (hg : strict → g.Fine)
    (hreg : ok act .registered → strict → Credit.Fine { g with debt := g.debt - 1, regs := g.regs + 1 })
    (himm : ∀ fut, ok act (.immediate fut) → strict → Credit.Fine { g with debt := g.debt - 1 })
    (hfail : ok act .failed → Q false g)
    (hdone : ∀ g' : Credit, g'.debt = g.debt - 1 → g'.inLoop = g.inLoop → g.regs ≤ g'.regs →
      (strict → g'.Fine) → Q true g') :
    (issue act handler).wp (credit strict ok).spec g Q := by
  refine Ghost.wp_bind (Ghost.wp_call ?_ fun r hr => ?_)
  · intro hst r hr
    cases r with
    | failed => exact hg hst
    | registered => exact hreg hr hst
    | immediate fut => exact hg hst
  · cases r with
    | failed => exact hfail hr
    | registered => exact hdone _ rfl rfl (Nat.le_succ _) (hreg hr)
    | immediate fut =>
      refine Keeps.then (hh fut hr) hg fun _ g' hs => ?_
      have hd : g'.debt - 1 = g.debt - 1 := congrArg (· - 1) hs.1
      have hfine : strict → Credit.Fine { g' with debt := g'.debt - 1 } := fun hst =>
        Credit.Same.fine (g := { g with debt := g.debt - 1 }) ⟨hd, hs.2.1, hs.2.2⟩ (himm fut hr hst)
      exact ⟨fun hst _ _ => hfine hst, fun _ _ => hdone _ hd hs.2.1 hs.2.2 hfine⟩

theorem fine_inc (hg : g.Fine) : Credit.Fine { g with debt := g.debt + 1 } := by
  unfold Credit.Fine at hg ⊢
  split
  · rw [if_pos ‹_›] at hg
    simp only
    omega
  · rw [if_neg ‹_›] at hg
    simp only
    omega

/-- A counted call keeps the debt; it returns true when it cannot fail. -/
theorem wp_issueCounted {act : K.Act} {handler : K.Fut act → Proc K Unit}
    {items : List (BitVec 32)} {Q : Bool → Credit → Prop}
    (hh : ∀ fut, ok act (.immediate fut) → Keeps strict ok (handler fut)) (hg : strict → g.Fine)
    (h : ∀ b g', g.Same g' → (b = false → ok act .failed) → Q b g') :
    (issueCounted act handler items).wp (credit strict ok).spec g Q := by
  have hinc : strict → Credit.Fine { g with debt := g.debt + 1 } := fun hst => fine_inc (hg hst)
  refine Ghost.wp_bind (Ghost.wp_call (fun hst _ _ => hinc hst) fun _ _ => Ghost.wp_bind ?_)
  refine wp_issue (g := { g with debt := g.debt + 1 }) hh hinc ?_ ?_ ?_ ?_
  · intro _ hst
    refine Credit.Same.fine (g := g) ⟨?_, rfl, Nat.le_succ _⟩ (hg hst)
    show g.debt + 1 - 1 = g.debt
    omega
  · intro _ _ hst
    refine Credit.Same.fine (g := g) ⟨?_, rfl, le_refl _⟩ (hg hst)
    show g.debt + 1 - 1 = g.debt
    omega
  · intro hf
    refine Keeps.then (keeps_failAll items) hinc fun _ g' hs => ?_
    have hd : g'.debt = g.debt + 1 := hs.1
    have hsame : g.Same { g' with debt := g'.debt - 1 } := by
      refine ⟨?_, hs.2.1, hs.2.2⟩
      show g'.debt - 1 = g.debt
      omega
    exact Ghost.wp_bind (Ghost.wp_call (fun hst _ _ => hsame.fine (hg hst))
      fun _ _ => h false _ hsame fun _ => hf)
  · intro g' hd hl hr _
    have hd' : g'.debt = g.debt + 1 - 1 := hd
    exact h true g' ⟨by omega, hl, hr⟩ nofun

theorem keeps_issueCounted {act : K.Act} {handler : K.Fut act → Proc K Unit}
    {items : List (BitVec 32)}
    (hh : ∀ fut, ok act (.immediate fut) → Keeps strict ok (handler fut)) :
    Keeps strict ok (issueCounted act handler items) :=
  fun _ _ hg h => wp_issueCounted hh hg fun b g' hs _ => h b g' hs

end Keeps

/-! ### The balance is kept -/

section

variable {M : Code K} {C : State K → Env K × Move → Prop} {strict : Bool}
  {ok : (act : K.Act) → Reg (K.Fut act) → Prop}

/-- An operation of the worker keeps the balance. -/
theorem Balance.work {c : Core K} {g : Credit} {gs : List Credit} {o : Op K} {r : o.Res}
    (h : Balance strict c (some g) gs) (hd : strict → (g.after o r).Fine) :
    Balance strict (c.effect o r) (some (g.after o r)) gs := by
  obtain ⟨h1, h2, h3⟩ := effect_counters c o r g
  have hdb := h.db
  have hmsg := h.msg
  simp only [Option.map_some, Option.getD_some] at hdb
  refine ⟨by omega, ?_, h.outside, ?_, h.debts, ?_⟩
  · simp only [Option.map_some, Option.getD_some]
    omega
  · intro g' hg'
    obtain rfl := Option.some.inj hg'
    rw [after_inLoop]
    exact h.inside g rfl
  · intro hs g' hg'
    obtain rfl := Option.some.inj hg'
    have hf := hd hs
    obtain ⟨hr, _⟩ := h.regs hs g rfl
    unfold Credit.Fine at hf
    rw [after_inLoop, h.inside g rfl, if_pos rfl] at hf
    exact ⟨by omega, hf⟩

/-- An operation of a callback keeps the balance. -/
theorem Balance.callback {c : Core K} {g : Credit} {gw : Option Credit} {gs₁ gs₂ : List Credit}
    {o : Op K} {r : o.Res} (h : Balance strict c gw (gs₁ ++ g :: gs₂))
    (hd : strict → (g.after o r).Fine) (hp : c.pending.length ≤ (c.effect o r).pending.length) :
    Balance strict (c.effect o r) gw (gs₁ ++ g.after o r :: gs₂) := by
  obtain ⟨h1, h2, h3⟩ := effect_counters c o r g
  have hdb := h.db
  have hmsg := h.msg
  rw [sum_split] at hdb
  have hin : g.inLoop = false := h.outside g (by simp)
  refine ⟨by omega, ?_, ?_, h.inside, ?_, ?_⟩
  · rw [sum_split]
    simp only [List.length_append, List.length_cons] at hdb ⊢
    omega
  · intro g' hg'
    rcases List.mem_append.mp hg' with hm | hm
    · exact h.outside g' (List.mem_append_left _ hm)
    · rcases List.mem_cons.mp hm with rfl | hm
      · rw [after_inLoop, hin]
      · exact h.outside g' (List.mem_append_right _ (List.mem_cons_of_mem _ hm))
  · intro hs g' hg'
    rcases List.mem_append.mp hg' with hm | hm
    · exact h.debts hs g' (List.mem_append_left _ hm)
    · rcases List.mem_cons.mp hm with rfl | hm
      · have hf := hd hs
        unfold Credit.Fine at hf
        rwa [after_inLoop, hin, if_neg (by decide)] at hf
      · exact h.debts hs g' (List.mem_append_right _ (List.mem_cons_of_mem _ hm))
  · intro hs g' hg'
    obtain ⟨hr, hf⟩ := h.regs hs g' hg'
    refine ⟨?_, hf⟩
    simp only [List.length_append, List.length_cons] at hr ⊢
    omega

theorem effect_pending_le (c : Core K) (o : Op K) (r : o.Res) :
    c.pending.length ≤ (c.effect o r).pending.length := by
  cases o with
  | register act => cases r <;> simp [Core.effect]
  | _ => exact le_refl _

/-- Code that leaves no debt behind keeps the balance. -/
theorem balance_sound (hC : RepliesOk C ok)
    (hbody : ∀ p, (M.body p).wp (credit strict ok).spec ⟨true, 0, 0⟩ (fun _ g => g.debt = 0))
    (hhandler : ∀ act fut, (M.handler act fut).wp (credit strict ok).spec ⟨false, 0, 0⟩
      (fun _ g => g.debt = 0)) :
    (credit strict ok).Sound M C (Balance strict) (fun g => g.debt = 0) (fun g => g.debt = 0) where
  take := by
    intro c gs n h hm
    have hmsg := h.msg
    refine ⟨⟨true, 0, 0⟩, rfl, ?_, ?_, h.outside, ?_, h.debts, ?_⟩
    · rw [hm] at hmsg
      push_cast at hmsg
      simp only
      omega
    · simpa using h.db
    · intro g hg
      obtain rfl := Option.some.inj hg
      rfl
    · intro _ g hg
      obtain rfl := Option.some.inj hg
      exact ⟨Nat.zero_le _, le_refl _⟩
  delete := by
    intro s g gs e h hg _ _ _ _
    have hdb := h.db
    simp only [Option.map_some, Option.getD_some, hg, add_zero] at hdb
    exact ⟨h.msg, by simpa using hdb, h.outside, nofun, h.debts, fun _ => nofun⟩
  body := by
    intro s g gs e h hg _ _ _ _
    have hdb := h.db
    simp only [Option.map_some, Option.getD_some, hg, add_zero] at hdb
    refine ⟨⟨true, 0, 0⟩, hbody _, h.msg, by simpa using hdb, h.outside, ?_, h.debts, ?_⟩
    · intro g' hg'
      obtain rfl := Option.some.inj hg'
      rfl
    · intro _ g' hg'
      obtain rfl := Option.some.inj hg'
      exact ⟨Nat.zero_le _, le_refl _⟩
  leave := by
    intro c g gs h hg _
    have hdb := h.db
    simp only [Option.map_some, Option.getD_some, hg, add_zero] at hdb
    exact ⟨h.msg, by simpa using hdb, h.outside, nofun, h.debts, fun _ => nofun⟩
  work := by
    intro s e g gs o r h hd hc _ hr
    have ha := hC s e _ o r hc hr
    exact ⟨ha, h.work fun hs => hd hs r ha⟩
  callback := by
    intro s e i g gw gs₁ gs₂ o r h hd hc _ hr
    have ha := hC s e _ o r hc hr
    exact ⟨ha, h.callback (fun hs => hd hs r ha) (effect_pending_le _ _ _)⟩
  throw := by
    intro s e m gw gs o g h _ _ _ _ _
    exact ⟨h.msg, h.db, h.outside, h.inside, h.debts, h.regs⟩
  deliver := by
    intro s e i gw gs act l₁ l₂ h _ hp
    have hlen : s.core.pending.length = (l₁ ++ l₂).length + 1 := by
      rw [hp]
      simp only [List.length_append, List.length_cons]
      omega
    have hdb := h.db
    refine ⟨⟨false, 0, 0⟩, hhandler _ _, h.msg, ?_, ?_, h.inside, ?_, ?_⟩
    · simp only [List.map_append, List.map_cons, List.map_nil, List.sum_append, List.sum_cons,
        List.sum_nil, List.length_append, List.length_cons, List.length_nil] at hlen ⊢
      omega
    · intro g hg
      rcases List.mem_append.mp hg with hm | hm
      · exact h.outside g hm
      · rw [List.mem_singleton.mp hm]
    · intro hs g hg
      rcases List.mem_append.mp hg with hm | hm
      · exact h.debts hs g hm
      · rw [List.mem_singleton.mp hm]
    · intro hs g hg
      obtain ⟨hr, hf⟩ := h.regs hs g hg
      refine ⟨?_, hf⟩
      simp only [List.length_append, List.length_cons, List.length_nil] at hr hlen ⊢
      omega
  finish := by
    intro c g gs₁ gs₂ h hg
    have hdb := h.db
    have hmsg := h.msg
    rw [sum_split, hg] at hdb
    refine ⟨?_, ?_, ?_, nofun, ?_, fun _ => nofun⟩
    · simp only [Core.signal]
      push_cast
      omega
    · simp only [Core.signal, List.map_append, List.sum_append, List.length_append,
        List.length_cons, Option.map_none, Option.getD_none] at hdb ⊢
      omega
    · intro g' hg'
      exact h.outside g' (by
        rcases List.mem_append.mp hg' with hm | hm
        · exact List.mem_append_left _ hm
        · exact List.mem_append_right _ (List.mem_cons_of_mem _ hm))
    · intro hs g' hg'
      exact h.debts hs g' (by
        rcases List.mem_append.mp hg' with hm | hm
        · exact List.mem_append_left _ hm
        · exact List.mem_append_right _ (List.mem_cons_of_mem _ hm))

/-- **The counters count what is in flight.** -/
theorem counters_exact (hC : RepliesOk C ok)
    (hbody : ∀ p, (M.body p).wp (credit strict ok).spec ⟨true, 0, 0⟩ (fun _ g => g.debt = 0))
    (hhandler : ∀ act fut, (M.handler act fut).wp (credit strict ok).spec ⟨false, 0, 0⟩
      (fun _ g => g.debt = 0)) {p : Nat} {d : K.Data} {s : State K}
    (h : Run M C (State.init p d) s) :
    s.core.m_msgissued = s.core.messages ∧
      (s.worker = none → s.callbacks = [] → s.core.m_dbissued = s.core.pending.length) := by
  obtain ⟨gw, gs, hb, hT⟩ := (balance_sound hC hbody hhandler).invariant h rfl rfl
    ⟨rfl, rfl, nofun, nofun, fun _ => nofun, fun _ => nofun⟩
  refine ⟨hb.msg, fun hw hc => ?_⟩
  simpa [hT.eq_nil hc, hT.eq_none hw] using hb.db

/-- The counters are never below zero; outside a phase body they count the callbacks that are
registered or running and the messages (`held` is what running callbacks have counted and not
issued yet); and nothing refers to a processor that is deleted. -/
structure ExactCounts (s : State K) : Prop where
  db_nonneg : 0 ≤ s.core.m_dbissued
  msg_nonneg : 0 ≤ s.core.m_msgissued
  exact : s.worker = none → ∃ held : Nat, (s.callbacks = [] → held = 0) ∧
    s.core.m_dbissued = s.core.pending.length + s.callbacks.length + held ∧
    s.core.m_msgissued = s.core.messages
  deleted : s.core.status = .deleted →
    s.core.pending = [] ∧ s.callbacks = [] ∧ s.core.messages = 0

/-- **The counters are exact**, as long as they do not wrap around. -/
theorem counters_strict (hC : RepliesOk C ok)
    (hbound : ∀ s e, C s (e, .loop) → s.core.m_dbissued < 2 ^ 32 ∧ s.core.m_msgissued < 2 ^ 32)
    (hbody : ∀ p, (M.body p).wp (credit true ok).spec ⟨true, 0, 0⟩ (fun _ g => g.debt = 0))
    (hhandler : ∀ act fut, (M.handler act fut).wp (credit true ok).spec ⟨false, 0, 0⟩
      (fun _ g => g.debt = 0)) {p : Nat} {d : K.Data} {s : State K}
    (h : Run M C (State.init p d) s) : ExactCounts s := by
  have hinv : ∀ {t}, Run M C (State.init p d) t → ∃ gw gs, Balance true t.core gw gs ∧
      (credit true ok).Threads (fun g => g.debt = 0) (fun g => g.debt = 0) t gw gs := fun ht =>
    (balance_sound hC hbody hhandler).invariant ht rfl rfl
      ⟨rfl, rfl, nofun, nofun, fun _ => nofun, fun _ => nofun⟩
  obtain ⟨gw, gs, hb, hT⟩ := hinv h
  have hsum := sum_nonneg (hb.debts rfl)
  have hdb := hb.db
  have hmsg := hb.msg
  have hlen := hT.length
  refine ⟨?_, by omega, fun hw => ?_, fun hdel => ?_⟩
  · cases gw with
    | none =>
      simp only [Option.map_none, Option.getD_none] at hdb
      omega
    | some g =>
      obtain ⟨hr, hf⟩ := hb.regs rfl g rfl
      simp only [Option.map_some, Option.getD_some] at hdb
      omega
  · refine ⟨((gs.map Credit.debt).sum).toNat, fun hc => ?_, ?_, hmsg⟩
    · rw [hT.eq_nil hc]
      rfl
    · rw [hT.eq_none hw] at hdb
      simp only [Option.map_none, Option.getD_none] at hdb
      omega
  · obtain ⟨s', e, hr, hC', hrun', hw', hready, hfin, rfl⟩ := deleted_last h rfl hdel
    obtain ⟨gw', gs', hb', hT'⟩ := hinv hr
    obtain ⟨b1, b2⟩ := hbound s' e hC'
    unfold Core.phaseReady at hready
    rw [if_pos hfin] at hready
    obtain ⟨z1, z2⟩ := of_decide_eq_true hready
    obtain ⟨g, hg, hdebt⟩ := hT'.worker hrun' _ hw'
    obtain rfl : gw' = some g := hg
    have hsum' := sum_nonneg (hb'.debts rfl)
    have hdb' := hb'.db
    have hmsg' := hb'.msg
    have hlen' := hT'.length
    simp only [Option.map_some, Option.getD_some] at hdb'
    have hdebt' : g.debt = 0 := hdebt
    refine ⟨List.length_eq_zero_iff.mp ?_, List.length_eq_zero_iff.mp ?_, ?_⟩
    · simp only
      omega
    · simp only
      omega
    · simp only
      omega

end

end OpenairHss.Processor
