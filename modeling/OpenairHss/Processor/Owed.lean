import OpenairHss.Processor.Promise

/-!
# What a thread owes

The callback of a call owes the bits of `m_dbexecuted` that it is to set (`promise`), and a thread
that has set one of the bits `first` owes those of `second`.  From then on the data and `m_dbresult`
may show that bits are set already; a thread that has read them no longer owes these.  And a call may
have to wait until bits are known to be set (`before`).

Code that pays what it owes (`Debt.owe` is 0 in the end) leaves nothing behind: when no thread is
running, the bits of every call that was answered are set (`Paid`).
-/

namespace OpenairHss.Processor

open Interact Steps

variable {K : Kind}

/-- What is owed, and what is assumed of the replies. -/
structure Dues (K : Kind) where
  /-- The bits that the callback of a call sets. -/
  promise : K.Act → BitVec 32
  /-- The bits that are set before a call is made. -/
  before : K.Act → BitVec 32
  /-- Who sets one of the first sets the second, too. -/
  first : BitVec 32
  second : BitVec 32
  /-- The bits that data and results show to be set. -/
  byData : K.Data → BitVec 32
  byResult : BitVec 32 → BitVec 32

/-- What an item brings with it. -/
def Dues.follow (D : Dues K) (item : BitVec 32) : BitVec 32 :=
  if item &&& D.first = 0 then 0 else D.second

/-- The ghost value: what a thread owes, and the bits that it knows to be set. -/
structure Debt where
  owe : BitVec 32
  sure : BitVec 32

def Debt.learn (g : Debt) (bits : BitVec 32) : Debt := ⟨g.owe &&& ~~~bits, g.sure ||| bits⟩

/-- Data and results show something to those who know that one of the first bits is set. -/
def Dues.shown (D : Dues K) (g : Debt) (bits : BitVec 32) : BitVec 32 :=
  if g.sure &&& D.first = 0 then 0 else bits

/-- The effect of an operation on it. -/
def Debt.after (D : Dues K) (g : Debt) : (o : Op K) → o.Res → Debt
  | .executed item, _ => ⟨(g.owe ||| D.follow item) &&& ~~~item, g.sure ||| item⟩
  | .register act, .immediate _ => { g with owe := g.owe ||| D.promise act }
  | .get, d => g.learn (D.shown g (D.byData d))
  | .getResult, r => g.learn (D.shown g (D.byResult r))
  | _, _ => g

/-- The operations that are allowed. -/
def Debt.permits (D : Dues K) (g : Debt) : Op K → Prop
  | .register act => ∀ b, (D.before act).getLsbD b = true → g.sure.getLsbD b = true
  | .events item _ _ => item &&& D.first = 0
  | _ => True

/-- The replies that are possible. -/
def Debt.expects (g : Debt) : (o : Op K) → o.Res → Prop
  | .getExecuted, r => ∀ b, g.sure.getLsbD b = true → BitVec.getLsbD r b = true
  | _, _ => True

def debtGhost (D : Dues K) : Ghost K Debt where
  demand o g := g.permits D o
  allow o g r := g.expects o r
  next o g r := g.after D o r

/-- What the data and the result show to be set is set. -/
def Dues.Shows (D : Dues K) (c : Core K) : Prop :=
  c.m_dbexecuted &&& D.first ≠ 0 → ∀ b,
    ((D.byData c.data).getLsbD b = true ∨ (D.byResult c.m_dbresult).getLsbD b = true) →
      c.m_dbexecuted.getLsbD b = true

def Dues.Assumed (D : Dues K) (C : State K → Env K × Move → Prop) : Prop :=
  ∀ s l, C s l → D.Shows s.core

/-! ### Bits -/

section Bits

variable {x y z : BitVec 32} {b : Nat}

theorem getLsbD_and_not (h : (x &&& ~~~y).getLsbD b = true) :
    x.getLsbD b = true ∧ y.getLsbD b = false := by
  rw [BitVec.getLsbD_and, BitVec.getLsbD_not] at h
  obtain ⟨hx, hy⟩ := Bool.and_eq_true_iff.mp h
  exact ⟨hx, by simpa using (Bool.and_eq_true_iff.mp hy).2⟩

theorem getLsbD_and_not_of (hx : x.getLsbD b = true) (hy : y.getLsbD b = false) :
    (x &&& ~~~y).getLsbD b = true := by
  rw [BitVec.getLsbD_and, BitVec.getLsbD_not, hx, hy]
  simp [BitVec.lt_of_getLsbD hx]

theorem getLsbD_or_iff : (x ||| y).getLsbD b = true ↔ x.getLsbD b = true ∨ y.getLsbD b = true := by
  rw [BitVec.getLsbD_or, Bool.or_eq_true]

theorem not_getLsbD_zero : ¬ (0 : BitVec 32).getLsbD b = true := by simp

/-- Two masks with a common bit. -/
theorem and_ne_zero (hx : x.getLsbD b = true) (hy : y.getLsbD b = true) : x &&& y ≠ 0 := by
  intro h
  have hbit : (x &&& y).getLsbD b = true := by rw [BitVec.getLsbD_and, hx, hy]; rfl
  rw [h] at hbit
  exact not_getLsbD_zero hbit

end Bits

/-! ### The invariant -/

/-- A bit is set, or one of these threads owes it. -/
def Covered (c : Core K) (P : Debt → Prop) (b : Nat) : Prop :=
  c.m_dbexecuted.getLsbD b = true ∨ ∃ g, P g ∧ g.owe.getLsbD b = true

/-- Threads whose debts are known. -/
structure Owing (D : Dues K) (c : Core K) (P : Debt → Prop) : Prop where
  sure : ∀ g, P g → ∀ b, g.sure.getLsbD b = true → c.m_dbexecuted.getLsbD b = true
  resolved : ∀ p ∈ c.resolved, ∀ b, (D.promise p.1).getLsbD b = true → Covered c P b
  made : ∀ act, act ∈ c.pending ∨ (∃ p ∈ c.resolved, p.1 = act) →
    ∀ b, (D.before act).getLsbD b = true → c.m_dbexecuted.getLsbD b = true
  follow : c.m_dbexecuted &&& D.first ≠ 0 → ∀ b, D.second.getLsbD b = true → Covered c P b

/-- One thread has another value now. -/
structure Moves (P P' : Debt → Prop) (g g' : Debt) : Prop where
  old : ∀ x, P x → x = g ∨ P' x
  new : P' g'
  only : ∀ x, P' x → x = g' ∨ P x

theorem Covered.mono {c c' : Core K} {P P' : Debt → Prop} {b : Nat} (h : Covered c P b)
    (hx : c.m_dbexecuted.getLsbD b = true → c'.m_dbexecuted.getLsbD b = true)
    (hP : ∀ g, P g → g.owe.getLsbD b = true → Covered c' P' b) : Covered c' P' b := by
  rcases h with h | ⟨g, hg, hb⟩
  · exact Or.inl (hx h)
  · exact hP g hg hb

section Step

variable {D : Dues K} {c : Core K} {P P' : Debt → Prop} {g : Debt} {o : Op K} {r : o.Res}

theorem learn_owe {bits : BitVec 32} {b : Nat} (h : g.owe.getLsbD b = true) :
    (g.learn bits).owe.getLsbD b = true ∨ bits.getLsbD b = true := by
  cases hb : bits.getLsbD b with
  | true => exact Or.inr rfl
  | false => exact Or.inl (getLsbD_and_not_of h hb)

theorem exists_bit {x : BitVec 32} (h : x ≠ 0) : ∃ b, x.getLsbD b = true := by
  by_contra hno
  refine h (BitVec.eq_of_getLsbD_eq fun b _ => ?_)
  rw [Bool.eq_false_iff.mpr fun hb => hno ⟨b, hb⟩]
  simp

/-- What is shown to a thread that is right. -/
theorem of_shown (hs : ∀ b, g.sure.getLsbD b = true → c.m_dbexecuted.getLsbD b = true)
    {bits : BitVec 32} {b : Nat} (hb : (D.shown g bits).getLsbD b = true) :
    c.m_dbexecuted &&& D.first ≠ 0 ∧ bits.getLsbD b = true := by
  unfold Dues.shown at hb
  split at hb
  case isTrue => exact absurd hb not_getLsbD_zero
  case isFalse hne =>
    obtain ⟨i, hi⟩ := exists_bit hne
    rw [BitVec.getLsbD_and, Bool.and_eq_true] at hi
    exact ⟨and_ne_zero (hs i hi.1) hi.2, hb⟩

/-- What a thread owes it owes still, or has paid. -/
theorem owe_after (hshow : D.Shows c)
    (hs : ∀ b, g.sure.getLsbD b = true → c.m_dbexecuted.getLsbD b = true) {e : Env K} (hr : e.reply c o = some r) {b : Nat} (h : g.owe.getLsbD b = true) :
    (g.after D o r).owe.getLsbD b = true ∨ (c.effect o r).m_dbexecuted.getLsbD b = true := by
  cases o with
  | executed item =>
    cases hb : item.getLsbD b with
    | true => exact Or.inr (getLsbD_or_iff.mpr (Or.inr hb))
    | false => exact Or.inl (getLsbD_and_not_of (getLsbD_or_iff.mpr (Or.inl h)) hb)
  | register act =>
    cases r with
    | immediate fut => exact Or.inl (getLsbD_or_iff.mpr (Or.inl h))
    | _ => exact Or.inl h
  | get =>
    obtain rfl := Option.some.inj hr
    exact (learn_owe h).imp_right fun hb => hshow (of_shown hs hb).1 b (Or.inl (of_shown hs hb).2)
  | getResult =>
    obtain rfl := Option.some.inj hr
    exact (learn_owe h).imp_right fun hb => hshow (of_shown hs hb).1 b (Or.inr (of_shown hs hb).2)
  | _ => exact Or.inl h

/-- A bit that is covered stays so. -/
theorem Covered.step (hshow : D.Shows c)
    (hs : ∀ b, g.sure.getLsbD b = true → c.m_dbexecuted.getLsbD b = true) {e : Env K} (hr : e.reply c o = some r) (hm : Moves P P' g (g.after D o r)) {b : Nat}
    (h : Covered c P b) : Covered (c.effect o r) P' b := by
  refine h.mono (effect_executed c o r b) fun x hx hb => ?_
  rcases hm.old x hx with rfl | hx
  · rcases owe_after hshow hs hr hb with hb | hb
    · exact Or.inr ⟨_, hm.new, hb⟩
    · exact Or.inl hb
  · exact Or.inr ⟨x, hx, hb⟩

/-- What a thread knows after an operation is true. -/
theorem sure_after (hshow : D.Shows c) {e : Env K} (hr : e.reply c o = some r)
    (h : ∀ b, g.sure.getLsbD b = true → c.m_dbexecuted.getLsbD b = true) {b : Nat}
    (hb : (g.after D o r).sure.getLsbD b = true) :
    (c.effect o r).m_dbexecuted.getLsbD b = true := by
  cases o with
  | executed item => exact getLsbD_or_iff.mpr ((getLsbD_or_iff.mp hb).imp_left (h b))
  | register act => cases r <;> exact h b hb
  | get =>
    obtain rfl := Option.some.inj hr
    exact (getLsbD_or_iff.mp hb).elim (h b) fun hb =>
      hshow (of_shown h hb).1 b (Or.inl (of_shown h hb).2)
  | getResult =>
    obtain rfl := Option.some.inj hr
    exact (getLsbD_or_iff.mp hb).elim (h b) fun hb =>
      hshow (of_shown h hb).1 b (Or.inr (of_shown h hb).2)
  | _ => exact effect_executed c _ r b (h b hb)

/-- The calls that are pending or answered after an operation. -/
theorem made_after {act : K.Act} (h : act ∈ (c.effect o r).pending ∨
      ∃ p ∈ (c.effect o r).resolved, p.1 = act) :
    (act ∈ c.pending ∨ ∃ p ∈ c.resolved, p.1 = act) ∨ o = .register act := by
  cases o with
  | register act' =>
    cases r with
    | failed => exact Or.inl h
    | registered =>
      rcases h with h | h
      · rcases List.mem_append.mp h with h | h
        · exact Or.inl (Or.inl h)
        · exact Or.inr (by rw [List.mem_singleton.mp h])
      · exact Or.inl (Or.inr h)
    | immediate fut =>
      rcases h with h | ⟨p, hp, rfl⟩
      · exact Or.inl (Or.inl h)
      · rcases List.mem_append.mp hp with hp | hp
        · exact Or.inl (Or.inr ⟨p, hp, rfl⟩)
        · exact Or.inr (by rw [List.mem_singleton.mp hp])
  | _ => exact Or.inl h

/-- The bits that are set first by an operation. -/
theorem first_after (hd : g.permits D o) (h : (c.effect o r).m_dbexecuted &&& D.first ≠ 0) :
    c.m_dbexecuted &&& D.first ≠ 0 ∨ ∃ item, o = .executed item ∧ item &&& D.first ≠ 0 := by
  have hor : ∀ {x y : BitVec 32}, (x ||| y) &&& D.first ≠ 0 →
      x &&& D.first ≠ 0 ∨ y &&& D.first ≠ 0 := by
    intro x y hxy
    by_contra hnot
    obtain ⟨hx, hy⟩ := not_or.mp hnot
    refine hxy ?_
    rw [BitVec.and_or_distrib_right, not_not.mp hx, not_not.mp hy]
    exact BitVec.or_zero
  cases o with
  | executed item => exact (hor h).imp_right fun hi => ⟨item, rfl, hi⟩
  | events item success f =>
    left
    change (if (c.m_dbevtissued - 1) % 2 ^ 32 = 0 then c.m_dbexecuted ||| item
      else c.m_dbexecuted) &&& D.first ≠ 0 at h
    split at h
    · exact (hor h).resolve_right fun hi => hi hd
    · exact h
  | register act => cases r <;> exact Or.inl h
  | _ => exact Or.inl h

/-- **One operation of one thread.** -/
theorem Owing.step (h : Owing D c P) (hg : P g) (hd : g.permits D o)
    (hshow : D.Shows c) {e : Env K} (hr : e.reply c o = some r) (hm : Moves P P' g (g.after D o r)) :
    Owing D (c.effect o r) P' where
  sure x hx b hb := by
    rcases hm.only x hx with rfl | hx
    · exact sure_after hshow hr (h.sure g hg) hb
    · exact effect_executed c o r b (h.sure x hx b hb)
  resolved p hp b hb := by
    have hold : p ∈ c.resolved → Covered (c.effect o r) P' b := fun hp =>
      (h.resolved p hp b hb).step hshow (h.sure g hg) hr hm
    cases o with
    | register act =>
      cases r with
      | immediate fut =>
        rcases List.mem_append.mp hp with hp | hp
        · exact hold hp
        · obtain rfl := List.mem_singleton.mp hp
          exact Or.inr ⟨_, hm.new, getLsbD_or_iff.mpr (Or.inr hb)⟩
      | _ => exact hold hp
    | _ => exact hold hp
  made act hact b hb := by
    rcases made_after hact with hact | rfl
    · exact effect_executed c o r b (h.made act hact b hb)
    · exact effect_executed c _ r b (h.sure g hg b (hd b hb))
  follow hf b hb := by
    rcases first_after hd hf with hf | ⟨item, rfl, hi⟩
    · exact (h.follow hf b hb).step hshow (h.sure g hg) hr hm
    · cases hib : item.getLsbD b with
      | true => exact Or.inl (getLsbD_or_iff.mpr (Or.inr hib))
      | false =>
        refine Or.inr ⟨_, hm.new, getLsbD_and_not_of (getLsbD_or_iff.mpr (Or.inr ?_)) hib⟩
        rw [Dues.follow, if_neg hi]
        exact hb

end Step

/-! ### Runs -/

section

variable {D : Dues K} {M : Code K} {C : State K → Env K × Move → Prop}

/-- A thread that owes nothing need not be counted. -/
theorem Owing.drop {c c' : Core K} {P P' : Debt → Prop} (h : Owing D c P)
    (hx : c'.m_dbexecuted = c.m_dbexecuted) (hp : c'.pending = c.pending)
    (hr : c'.resolved = c.resolved) (hold : ∀ g, P g → g.owe = 0 ∨ P' g)
    (hnew : ∀ g, P' g → g.sure = 0 ∨ P g) : Owing D c' P' := by
  have hcovered : ∀ {b}, Covered c P b → Covered c' P' b := by
    intro b hb
    refine hb.mono (fun hb => hx ▸ hb) fun g hg hb => ?_
    rcases hold g hg with h0 | hg
    · rw [h0] at hb
      exact absurd hb not_getLsbD_zero
    · exact Or.inr ⟨g, hg, hb⟩
  refine ⟨fun g hg b hb => ?_, fun p hp b hb => ?_, fun act hact b hb => ?_, fun hf b hb => ?_⟩
  · rcases hnew g hg with h0 | hg
    · rw [h0] at hb
      exact absurd hb not_getLsbD_zero
    · rw [hx]
      exact h.sure g hg b hb
  · rw [hr] at hp
    exact hcovered (h.resolved p hp b hb)
  · rw [hp, hr] at hact
    rw [hx]
    exact h.made act hact b hb
  · rw [hx] at hf
    exact hcovered (h.follow hf b hb)

/-- The debts of the worker and the callbacks. -/
def threads (gw : Option Debt) (gs : List Debt) (g : Debt) : Prop := gw = some g ∨ g ∈ gs

theorem moves_worker (g g' : Debt) (gs : List Debt) :
    Moves (threads (some g) gs) (threads (some g') gs) g g' where
  old _ hx := hx.imp (fun h => (Option.some.inj h).symm) Or.inr
  new := Or.inl rfl
  only _ hx := hx.imp (fun h => (Option.some.inj h).symm) Or.inr

theorem moves_callback (gw : Option Debt) (gs₁ gs₂ : List Debt) (g g' : Debt) :
    Moves (threads gw (gs₁ ++ g :: gs₂)) (threads gw (gs₁ ++ g' :: gs₂)) g g' := by
  have hswap : ∀ x y z : Debt, threads gw (gs₁ ++ y :: gs₂) x →
      x = y ∨ threads gw (gs₁ ++ z :: gs₂) x := by
    rintro x y z (hx | hx)
    · exact Or.inr (Or.inl hx)
    rcases List.mem_append.mp hx with hx | hx
    · exact Or.inr (Or.inr (List.mem_append_left _ hx))
    rcases List.mem_cons.mp hx with rfl | hx
    · exact Or.inl rfl
    · exact Or.inr (Or.inr (List.mem_append_right _ (List.mem_cons_of_mem _ hx)))
  exact ⟨fun x => hswap x g g', Or.inr (by simp), fun x => hswap x g' g⟩

theorem owing_sound (hC : D.Assumed C)
    (hbody : ∀ phase, (M.body phase).wp (debtGhost D).spec ⟨0, 0⟩ (fun _ g => g.owe = 0))
    (hhandler : ∀ act fut, (M.handler act fut).wp (debtGhost D).spec ⟨D.promise act, 0⟩
      (fun _ g => g.owe = 0)) :
    (debtGhost D).Sound M C (fun c gw gs => Owing D c (threads gw gs)) (fun g => g.owe = 0)
      (fun g => g.owe = 0) where
  take := by
    intro c gs n h _
    refine ⟨⟨0, 0⟩, rfl, h.drop rfl rfl rfl (fun g hg => ?_) fun g hg => ?_⟩
    · exact Or.inr (hg.imp (fun h => absurd h nofun) id)
    · rcases hg with hg | hg
      · exact Or.inl (Option.some.inj hg ▸ rfl)
      · exact Or.inr (Or.inr hg)
  delete := by
    intro s g gs e h hg _ _ _ _
    refine h.drop rfl rfl rfl (fun x hx => ?_) fun x hx => ?_
    · rcases hx with hx | hx
      · exact Or.inl (Option.some.inj hx ▸ hg)
      · exact Or.inr (Or.inr hx)
    · exact Or.inr (hx.imp (fun h => absurd h nofun) id)
  body := by
    intro s g gs e h hg _ _ _ _
    refine ⟨_, hbody _, h.drop rfl rfl rfl (fun x hx => ?_) fun x hx => ?_⟩
    · rcases hx with hx | hx
      · exact Or.inl (Option.some.inj hx ▸ hg)
      · exact Or.inr (Or.inr hx)
    · rcases hx with hx | hx
      · exact Or.inl (Option.some.inj hx ▸ rfl)
      · exact Or.inr (Or.inr hx)
  leave := by
    intro c g gs h hg _
    refine h.drop rfl rfl rfl (fun x hx => ?_) fun x hx => ?_
    · rcases hx with hx | hx
      · exact Or.inl (Option.some.inj hx ▸ hg)
      · exact Or.inr (Or.inr hx)
    · exact Or.inr (hx.imp (fun h => absurd h nofun) id)
  work := by
    intro s e g gs o r h hd hc _ hr
    refine ⟨?_, h.step (Or.inl rfl) hd (hC s _ hc) hr (moves_worker _ _ _)⟩
    cases o with
    | getExecuted =>
      obtain rfl := Option.some.inj hr
      exact h.sure g (Or.inl rfl)
    | _ => trivial
  callback := by
    intro s e i g gw gs₁ gs₂ o r h hd hc _ hr
    have hg : threads gw (gs₁ ++ g :: gs₂) g := Or.inr (by simp)
    refine ⟨?_, h.step hg hd (hC s _ hc) hr (moves_callback _ _ _ _ _)⟩
    cases o with
    | getExecuted =>
      obtain rfl := Option.some.inj hr
      exact h.sure g hg
    | _ => trivial
  throw := by
    intro s e m gw gs o g h _ _ _ _ _
    exact h.drop rfl rfl rfl (fun _ hx => Or.inr hx) fun _ hx => Or.inr hx
  deliver := by
    intro s e i gw gs act l₁ l₂ h _ hp
    refine ⟨_, hhandler act _, ?_⟩
    have hcovered : ∀ {b}, Covered s.core (threads gw gs) b →
        Covered { s.core with
          pending := l₁ ++ l₂, resolved := s.core.resolved ++ [⟨act, e.db act⟩] }
          (threads gw (gs ++ [⟨D.promise act, 0⟩])) b := fun hb =>
      hb.mono id fun g hg hb => Or.inr ⟨g, hg.imp_right (List.mem_append_left _), hb⟩
    refine ⟨?_, ?_, ?_, fun hf b hb => hcovered (h.follow hf b hb)⟩
    · intro g hg b hb
      rcases hg with hg | hg
      · exact h.sure g (Or.inl hg) b hb
      rcases List.mem_append.mp hg with hg | hg
      · exact h.sure g (Or.inr hg) b hb
      · rw [List.mem_singleton.mp hg] at hb
        exact absurd hb not_getLsbD_zero
    · intro p hp b hb
      rcases List.mem_append.mp hp with hp | hp
      · exact hcovered (h.resolved p hp b hb)
      · obtain rfl := List.mem_singleton.mp hp
        exact Or.inr ⟨_, Or.inr (List.mem_append_right _ (List.mem_singleton.mpr rfl)), hb⟩
    · rintro a ha b hb
      refine h.made a ?_ b hb
      rw [hp]
      rcases ha with ha | ⟨p, hp, rfl⟩
      · rcases List.mem_append.mp ha with ha | ha
        · exact Or.inl (List.mem_append_left _ ha)
        · exact Or.inl (List.mem_append_right _ (List.mem_cons_of_mem _ ha))
      · rcases List.mem_append.mp hp with hp | hp
        · exact Or.inr ⟨p, hp, rfl⟩
        · rw [List.mem_singleton.mp hp]
          exact Or.inl (by simp)
  finish := by
    intro c g gs₁ gs₂ h hg
    refine h.drop rfl rfl rfl (fun x hx => ?_) fun x hx => ?_
    · rcases hx with hx | hx
      · exact absurd hx nofun
      rcases List.mem_append.mp hx with hx | hx
      · exact Or.inr (Or.inr (List.mem_append_left _ hx))
      rcases List.mem_cons.mp hx with rfl | hx
      · exact Or.inl hg
      · exact Or.inr (Or.inr (List.mem_append_right _ hx))
    · rcases hx with hx | hx
      · exact absurd hx nofun
      rcases List.mem_append.mp hx with hx | hx
      · exact Or.inr (Or.inr (List.mem_append_left _ hx))
      · exact Or.inr (Or.inr (List.mem_append_right _ (List.mem_cons_of_mem _ hx)))

/-- Nothing is owed. -/
structure Paid (D : Dues K) (c : Core K) : Prop where
  resolved : ∀ p ∈ c.resolved, ∀ b, (D.promise p.1).getLsbD b = true →
    c.m_dbexecuted.getLsbD b = true
  made : ∀ p ∈ c.resolved, ∀ b, (D.before p.1).getLsbD b = true → c.m_dbexecuted.getLsbD b = true
  follow : c.m_dbexecuted &&& D.first ≠ 0 → ∀ b, D.second.getLsbD b = true →
    c.m_dbexecuted.getLsbD b = true

/-- **When no thread is running, nothing is owed.** -/
theorem paid_of_idle (hC : D.Assumed C)
    (hbody : ∀ phase, (M.body phase).wp (debtGhost D).spec ⟨0, 0⟩ (fun _ g => g.owe = 0))
    (hhandler : ∀ act fut, (M.handler act fut).wp (debtGhost D).spec ⟨D.promise act, 0⟩
      (fun _ g => g.owe = 0)) {p : Nat} {d : K.Data} {s : State K}
    (h : Run M C (State.init p d) s) (hw : s.worker = none) (hc : s.callbacks = []) :
    Paid D s.core := by
  have h0 : Owing D (State.init p d : State K).core (threads none []) := by
    refine ⟨?_, nofun, ?_, fun hf => absurd ?_ hf⟩
    · rintro g (hg | hg)
      · exact absurd hg nofun
      · exact absurd hg List.not_mem_nil
    · rintro act (ha | ⟨p, hp, -⟩)
      · exact absurd ha List.not_mem_nil
      · exact absurd hp List.not_mem_nil
    · exact BitVec.zero_and
  obtain ⟨gw, gs, ho, hT⟩ := (owing_sound hC hbody hhandler).invariant h rfl rfl h0
  have hnone : ∀ b, Covered s.core (threads gw gs) b → s.core.m_dbexecuted.getLsbD b = true := by
    rintro b (hb | ⟨g, hg | hg, -⟩)
    · exact hb
    · rw [hT.eq_none hw] at hg
      cases hg
    · rw [hT.eq_nil hc] at hg
      cases hg
  exact ⟨fun p hp b hb => hnone b (ho.resolved p hp b hb),
    fun p hp b hb => ho.made p.1 (Or.inr ⟨p, hp, rfl⟩) b hb,
    fun hf b hb => hnone b (ho.follow hf b hb)⟩

end

/-! ### Code -/

/-- What is owed afterwards was owed before and is none of these bits; what is known stays so. -/
structure Debt.Less (bits : BitVec 32) (g g' : Debt) : Prop where
  owe : ∀ b, g'.owe.getLsbD b = true → g.owe.getLsbD b = true ∧ bits.getLsbD b = false
  sure : ∀ b, g.sure.getLsbD b = true → g'.sure.getLsbD b = true

/-- A piece of code that pays these bits and incurs nothing. -/
def Pays (D : Dues K) (bits : BitVec 32) {α : Type} (p : Proc K α) : Prop :=
  (debtGhost D).Does (Debt.Less bits) p

section Pays

variable {D : Dues K} {bits : BitVec 32} {α β : Type} {g g' g'' : Debt}

theorem Debt.Less.refl (g : Debt) : g.Less 0 g := ⟨fun _ h => ⟨h, by simp⟩, fun _ => id⟩

theorem Debt.Less.trans_left (h : g.Less bits g') (h' : g'.Less 0 g'') : g.Less bits g'' :=
  ⟨fun b hb => h.owe b (h'.owe b hb).1, fun b hb => h'.sure b (h.sure b hb)⟩

theorem Debt.Less.trans_right (h : g.Less 0 g') (h' : g'.Less bits g'') : g.Less bits g'' :=
  ⟨fun b hb => ⟨(h.owe b (h'.owe b hb).1).1, (h'.owe b hb).2⟩, fun b hb => h'.sure b (h.sure b hb)⟩

/-- Nothing is owed by a thread that has paid all it owed. -/
theorem Debt.Less.eq_zero {sure : BitVec 32} (h : Debt.Less bits ⟨bits, sure⟩ g) : g.owe = 0 := by
  refine BitVec.eq_of_getLsbD_eq fun b _ => ?_
  cases hb : g.owe.getLsbD b with
  | false => simp
  | true =>
    obtain ⟨h1, h2⟩ := h.owe b hb
    exact absurd (h1.symm.trans h2) nofun

theorem less_learn (g : Debt) (bits : BitVec 32) : g.Less bits (g.learn bits) :=
  ⟨fun _ hb => getLsbD_and_not hb, fun _ hb => getLsbD_or_iff.mpr (Or.inl hb)⟩

theorem Debt.Less.weaken (h : g.Less bits g') : g.Less 0 g' :=
  ⟨fun b hb => ⟨(h.owe b hb).1, by simp⟩, h.sure⟩

theorem pays_ret (a : α) : Pays D 0 (.ret a) := Ghost.does_ret Debt.Less.refl a

theorem pays_left {p : Proc K α} {f : α → Proc K β} (hp : Pays D bits p)
    (hf : ∀ a, Pays D 0 (f a)) : Pays D bits (p >>= f) :=
  Ghost.does_bind (fun g g' g'' (h : g.Less bits g') (h' : g'.Less 0 g'') => h.trans_left h') hp hf

theorem pays_right {p : Proc K α} {f : α → Proc K β} (hp : Pays D 0 p)
    (hf : ∀ a, Pays D bits (f a)) : Pays D bits (p >>= f) :=
  Ghost.does_bind (fun g g' g'' (h : g.Less 0 g') (h' : g'.Less bits g'') => h.trans_right h') hp hf

/-- The operations by which nothing is owed. -/
def Op.idle (D : Dues K) : Op K → Prop
  | .executed item => D.follow item = 0
  | .register _ => False
  | .events item _ _ => item &&& D.first = 0
  | _ => True

theorem pays_call {o : Op K} (ho : o.idle D) : Pays D 0 (call o) := by
  intro g Q h
  refine Ghost.wp_call ?_ fun r _ => h r _ ?_
  · cases o with
    | events => exact ho
    | register => exact absurd ho id
    | _ => trivial
  · cases o with
    | executed item =>
      refine ⟨fun b hb => ⟨?_, by simp⟩, fun b hb => getLsbD_or_iff.mpr (Or.inl hb)⟩
      have hor := (getLsbD_and_not hb).1
      rw [show D.follow item = 0 from ho] at hor
      exact (getLsbD_or_iff.mp hor).resolve_right not_getLsbD_zero
    | register => exact absurd ho id
    | get => exact (less_learn g _).weaken
    | getResult => exact (less_learn g _).weaken
    | _ => exact .refl g

theorem pays_executed {item : BitVec 32} (hi : D.follow item = 0) :
    Pays D item (completeExecuted item : Proc K Unit) := by
  intro g Q h
  refine Ghost.wp_call trivial fun r _ => h r _ ⟨fun b hb => ?_, fun b hb =>
    getLsbD_or_iff.mpr (Or.inl hb)⟩
  obtain ⟨hor, hb⟩ := getLsbD_and_not hb
  rw [hi] at hor
  exact ⟨(getLsbD_or_iff.mp hor).resolve_right not_getLsbD_zero, hb⟩

theorem pays_dbOpComplete {item : BitVec 32} (hi : D.follow item = 0) (success : Bool) :
    Pays D item (dbOpComplete item success : Proc K Unit) :=
  pays_right (pays_call trivial) fun _ => pays_executed hi

theorem Pays.weaken {p : Proc K α} (h : Pays D bits p) : Pays D 0 p :=
  h.mono fun _ _ => Debt.Less.weaken

/-- A call, after which nothing more is owed than before. -/
theorem wp_issueOwed {act : K.Act} {handler : K.Fut act → Proc K Unit} {Q : Bool → Debt → Prop}
    (hb : ∀ b, (D.before act).getLsbD b = true → g.sure.getLsbD b = true)
    (hh : ∀ fut, Pays D (D.promise act) (handler fut)) (hQ : ∀ a g', g.Less 0 g' → Q a g') :
    (issue act handler).wp (debtGhost D).spec g Q := by
  refine Ghost.wp_bind (Ghost.wp_call hb fun r _ => ?_)
  cases r with
  | failed => exact hQ _ _ (.refl g)
  | registered => exact hQ _ _ (.refl g)
  | immediate fut =>
    refine Ghost.wp_bind (hh fut _ _ fun _ g' hg' => Ghost.wp_then trivial fun _ _ => hQ _ _ ?_)
    refine ⟨fun b hb => ⟨?_, by simp⟩, hg'.sure⟩
    obtain ⟨hor, hnot⟩ := hg'.owe b hb
    exact (getLsbD_or_iff.mp hor).resolve_right fun hp => absurd (hp.symm.trans hnot) nofun

theorem pays_issue {act : K.Act} {handler : K.Fut act → Proc K Unit} (hb : D.before act = 0)
    (hh : ∀ fut, Pays D (D.promise act) (handler fut)) : Pays D 0 (issue act handler) := by
  intro g Q hQ
  refine wp_issueOwed (fun b hbit => ?_) hh hQ
  rw [hb] at hbit
  exact absurd hbit not_getLsbD_zero

/-- The completion of the items of a call that cannot be issued. -/
theorem pays_counted {act : K.Act} {handler : K.Fut act → Proc K Unit} {items : List (BitVec 32)}
    (hb : D.before act = 0) (hh : ∀ fut, Pays D (D.promise act) (handler fut))
    (hi : Pays D 0 (failAll items : Proc K Unit)) : Pays D 0 (issueCounted act handler items) := by
  refine pays_right (pays_call trivial) fun _ => pays_right (pays_issue hb hh) fun success => ?_
  cases success with
  | true => exact pays_ret _
  | false => exact pays_right hi fun _ => pays_right (pays_call trivial) fun _ => pays_ret _

theorem pays_failAll : ∀ {items : List (BitVec 32)}, (∀ item ∈ items, D.follow item = 0) →
    Pays D 0 (failAll items : Proc K Unit)
  | [], _ => pays_ret _
  | item :: _, h =>
    pays_right (pays_dbOpComplete (h item List.mem_cons_self) false).weaken fun _ =>
      pays_failAll fun i hi => h i (List.mem_cons_of_mem _ hi)

end Pays

/-! ### What was answered -/

section Answered

variable {M : Code K} {C : State K → Env K × Move → Prop}

/-- An operation is answered at once, or nothing is. -/
theorem effect_resolved {e : Env K} {c : Core K} {o : Op K} {r : o.Res} (hr : e.reply c o = some r)
    (q : (act : K.Act) × K.Fut act) (hq : q ∈ (c.effect o r).resolved) :
    q ∈ c.resolved ∨ ∃ act, e.reg act = .inline ∧ q = ⟨act, e.db act⟩ := by
  cases o with
  | register act =>
    obtain rfl := Option.some.inj hr
    cases he : e.reg act with
    | inline =>
      rw [he] at hq
      rcases List.mem_append.mp hq with hq | hq
      · exact Or.inl hq
      · exact Or.inr ⟨act, he, List.mem_singleton.mp hq⟩
    | failed =>
      rw [he] at hq
      exact Or.inl hq
    | async =>
      rw [he] at hq
      exact Or.inl hq
  | _ => exact Or.inl hq

/-- What holds of every answer that arrives holds of all answers. -/
theorem resolved_of_arriving {P : (act : K.Act) → K.Fut act → Prop}
    (hC : ∀ s e m, C s (e, m) → ∀ act, act ∈ s.core.pending ∨ e.reg act = .inline → P act (e.db act))
    {p : Nat} {d : K.Data} {s : State K} (h : Run M C (State.init p d) s) :
    ∀ q ∈ s.core.resolved, P q.1 q.2 := by
  refine h.invariant (I := fun s => ∀ q ∈ s.core.resolved, P q.1 q.2) nofun ?_
  rintro s ⟨e, m⟩ t hs hc hx q hq
  have heffect : ∀ {o : Op K} {r : o.Res}, e.reply s.core o = some r →
      q ∈ (s.core.effect o r).resolved → P q.1 q.2 := by
    intro o r hr hq
    rcases effect_resolved hr q hq with hq | ⟨act, he, rfl⟩
    · exact hs q hq
    · exact hC s e m hc act (Or.inr he)
  obtain ⟨-, hst⟩ := exec_cases hx
  cases hst with
  | work _ o k r hw hb hr => exact heffect hr hq
  | callback _ i o k r l₁ l₂ hb hl hr => exact heffect hr hq
  | deliver _ i act l₁ l₂ hp =>
    rcases List.mem_append.mp hq with hq | hq
    · exact hs q hq
    · obtain rfl := List.mem_singleton.mp hq
      refine hC s e _ hc act (Or.inl ?_)
      rw [hp]
      exact List.mem_append_right _ List.mem_cons_self
  | _ => exact hs q hq

end Answered

end OpenairHss.Processor
