import OpenairHss.Processor.Accounting
import OpenairHss.Processor.Wake

/-!
# The bits a phase waits for

A phase waits for bits of `m_dbexecuted`.  A bit is due (`Due`) when it is set, or when a callback
that sets it is registered or running; once due it stays so.  `Terms` says which bits the callback
of a call sets, which bits are due when a phase is the next one, and what is assumed of the
database.  Code that keeps these terms is never aborted, and when nothing refers to the processor
any more the bits its next phase waits for are set (`bits_set`).

Before the first phase nothing is registered, so the worker that runs it knows the data; the ghost
value carries them as long as that lasts.
-/

namespace OpenairHss.Processor

open Interact Steps

variable {K : Kind}

/-- What is promised and what is assumed. -/
structure Terms (K : Kind) where
  /-- The bits that the callback of a call sets. -/
  promise : K.Act → BitVec 32
  /-- The bits that are due when a phase is the next one. -/
  need : Nat → BitVec 32
  /-- The phases that may be the next one. -/
  phaseOk : Nat → Prop
  regOk : (act : K.Act) → Reg (K.Fut act) → Prop
  futOk : (act : K.Act) → K.Fut act → Prop
  /-- The first phase, and the data it begins with. -/
  first : Nat
  data : K.Data

/-- The ghost value: what a callback still has to set; what a worker knows to be due, its next
phase, and the data as long as nothing is registered. -/
structure Oath (K : Kind) where
  inLoop : Bool
  promise : BitVec 32
  due : BitVec 32
  phase : Nat
  fresh : Option K.Data

/-- The effect of an operation on it. -/
def Oath.after (T : Terms K) (g : Oath K) : (o : Op K) → o.Res → Oath K
  | .executed item, _ => { g with promise := g.promise &&& ~~~item, due := g.due ||| item }
  | .register act, .registered => { g with due := g.due ||| T.promise act, fresh := none }
  | .setPhase phase, _ => { g with phase := phase }
  | .modify f, _ => { g with fresh := g.fresh.map f }
  | .events _ _ _, _ => { g with fresh := none }
  | _, _ => g

/-- The operations that are allowed. -/
def Oath.permits (T : Terms K) (g : Oath K) : Op K → Prop
  | .setPhase phase => g.inLoop = true ∧ T.phaseOk phase
  | .throw => False
  | _ => True

/-- The replies that are possible. -/
def Oath.expects (T : Terms K) (g : Oath K) : (o : Op K) → o.Res → Prop
  | .register act, r => T.regOk act r
  | .get, r => ∀ d, g.fresh = some d → r = d
  | _, _ => True

def oathGhost (T : Terms K) : Ghost K (Oath K) where
  demand o g := g.permits T o
  allow o g r := g.expects T o r
  next o g r := g.after T o r

/-- A bit is set, or a callback that sets it is registered or running. -/
def Due (T : Terms K) (c : Core K) (gs : List (Oath K)) (b : Nat) : Prop :=
  c.m_dbexecuted.getLsbD b = true ∨ (∃ act ∈ c.pending, (T.promise act).getLsbD b = true) ∨
    ∃ g ∈ gs, g.promise.getLsbD b = true

/-- Nothing has happened yet. -/
def Fresh (c : Core K) (gs : List (Oath K)) : Prop := gs = [] ∧ c.pending = []

structure Kept (T : Terms K) (c : Core K) (gw : Option (Oath K)) (gs : List (Oath K)) : Prop where
  alive : c.status ≠ .aborted
  phaseOk : T.phaseOk c.m_nextphase
  outside : ∀ g ∈ gs, g.inLoop = false ∧ g.fresh = none
  between : gw = none → (∀ b, (T.need c.m_nextphase).getLsbD b = true → Due T c gs b) ∧
    (c.m_nextphase = T.first → c.data = T.data ∧ Fresh c gs)
  inside : ∀ g ∈ gw, g.inLoop = true ∧ g.phase = c.m_nextphase ∧
    (∀ b, g.due.getLsbD b = true → Due T c gs b) ∧
    ∀ d, g.fresh = some d → c.data = d ∧ Fresh c gs

/-- What a phase body ends with. -/
def Oath.AtEnd (T : Terms K) (g : Oath K) : Prop :=
  (∀ b, (T.need g.phase).getLsbD b = true → g.due.getLsbD b = true) ∧
    (g.phase = T.first → g.fresh = some T.data)

/-- What a worker knows when it is about to run a phase. -/
def Terms.begin (T : Terms K) (phase : Nat) : Oath K where
  inLoop := true
  promise := 0
  due := T.need phase
  phase := phase
  fresh := if phase = T.first then some T.data else none

/-- What a callback has to do. -/
def Terms.task (T : Terms K) (act : K.Act) : Oath K where
  inLoop := false
  promise := T.promise act
  due := 0
  phase := 0
  fresh := none

/-- The environments that are assumed. -/
def Terms.Assumed (T : Terms K) (C : State K → Env K × Move → Prop) : Prop :=
  ∀ s e m, C s (e, m) → (∀ act, T.futOk act (e.db act)) ∧
    (∀ q, s.Performs (.ask q) → e.ask q ≠ none) ∧ ∀ o (r : o.Res), e.reply s.core o = some r → allowReg T.regOk o r

theorem due_mono {T : Terms K} {c c' : Core K} {gs gs' : List (Oath K)} {b : Nat}
    (h : Due T c gs b) (hx : c.m_dbexecuted.getLsbD b = true → c'.m_dbexecuted.getLsbD b = true)
    (hp : ∀ act ∈ c.pending, (T.promise act).getLsbD b = true → Due T c' gs' b)
    (hg : ∀ g ∈ gs, g.promise.getLsbD b = true → Due T c' gs' b) : Due T c' gs' b := by
  rcases h with h | ⟨act, ha, h⟩ | ⟨g, hm, h⟩
  · exact Or.inl (hx h)
  · exact hp act ha h
  · exact hg g hm h

theorem effect_executed (c : Core K) (o : Op K) (r : o.Res) (b : Nat)
    (h : c.m_dbexecuted.getLsbD b = true) : (c.effect o r).m_dbexecuted.getLsbD b = true := by
  cases o with
  | executed item => simp [Core.effect, h]
  | events item success f =>
    simp only [Core.effect]
    split
    · simp [h]
    · exact h
  | register act => cases r <;> exact h
  | _ => exact h

theorem effect_pending (c : Core K) (o : Op K) (r : o.Res) (act : K.Act) (h : act ∈ c.pending) :
    act ∈ (c.effect o r).pending := by
  cases o with
  | register a =>
    cases r with
    | registered => exact List.mem_append_left _ h
    | _ => exact h
  | _ => exact h

/-- An operation of a thread outside `gs` leaves what is due due. -/
theorem due_effect {T : Terms K} {c : Core K} {gs : List (Oath K)} {b : Nat} (h : Due T c gs b)
    (o : Op K) (r : o.Res) : Due T (c.effect o r) gs b :=
  due_mono h (effect_executed c o r b)
    (fun act ha hb => Or.inr (Or.inl ⟨act, effect_pending c o r act ha, hb⟩))
    (fun g hg hb => Or.inr (Or.inr ⟨g, hg, hb⟩))

/-- What an operation of the worker adds to what it knows to be due is due. -/
theorem due_after {T : Terms K} {c : Core K} {gs : List (Oath K)} {g : Oath K} {b : Nat} {o : Op K}
    {r : o.Res} (h : ∀ b, g.due.getLsbD b = true → Due T c gs b)
    (hb : (g.after T o r).due.getLsbD b = true) : Due T (c.effect o r) gs b := by
  cases o with
  | executed item =>
    have hor : (g.due ||| item).getLsbD b = true := hb
    rw [BitVec.getLsbD_or, Bool.or_eq_true] at hor
    rcases hor with hor | hor
    · exact due_effect (h b hor) _ r
    · refine Or.inl ?_
      simp [Core.effect, hor]
  | register act =>
    cases r with
    | registered =>
      have hor : (g.due ||| T.promise act).getLsbD b = true := hb
      rw [BitVec.getLsbD_or, Bool.or_eq_true] at hor
      rcases hor with hor | hor
      · exact due_effect (h b hor) (.register act) .registered
      · exact Or.inr (Or.inl ⟨act, List.mem_append_right _ (List.mem_singleton.mpr rfl), hor⟩)
    | _ => exact h b hb
  | _ => exact due_effect (h b hb) _ r

/-- A callback that performs an operation keeps what is due. -/
theorem due_callback {T : Terms K} {c : Core K} {gs₁ gs₂ : List (Oath K)} {g : Oath K} {b : Nat}
    {o : Op K} {r : o.Res} (h : Due T c (gs₁ ++ g :: gs₂) b) :
    Due T (c.effect o r) (gs₁ ++ g.after T o r :: gs₂) b := by
  refine due_mono h (effect_executed c o r b)
    (fun act ha hb => Or.inr (Or.inl ⟨act, effect_pending c o r act ha, hb⟩)) ?_
  intro g' hg' hb
  have keep : g' ∈ gs₁ ++ gs₂ → Due T (c.effect o r) (gs₁ ++ g.after T o r :: gs₂) b := by
    intro hm
    refine Or.inr (Or.inr ⟨g', ?_, hb⟩)
    rcases List.mem_append.mp hm with hm | hm
    · exact List.mem_append_left _ hm
    · exact List.mem_append_right _ (List.mem_cons_of_mem _ hm)
  rcases List.mem_append.mp hg' with hm | hm
  · exact keep (List.mem_append_left _ hm)
  rcases List.mem_cons.mp hm with rfl | hm
  · have self : g'.after T o r ∈ gs₁ ++ g'.after T o r :: gs₂ := by simp
    cases o with
    | executed item =>
      by_cases hi : item.getLsbD b = true
      · refine Or.inl ?_
        simp [Core.effect, hi]
      · refine Or.inr (Or.inr ⟨_, self, ?_⟩)
        have hlt : b < 32 := BitVec.lt_of_getLsbD hb
        show (g'.promise &&& ~~~item).getLsbD b = true
        rw [BitVec.getLsbD_and, BitVec.getLsbD_not, hb, Bool.eq_false_iff.mpr hi]
        simp [hlt]
    | register act => cases r <;> exact Or.inr (Or.inr ⟨_, self, hb⟩)
    | _ => exact Or.inr (Or.inr ⟨_, self, hb⟩)
  · exact keep (List.mem_append_right _ hm)

@[simp] theorem after_inLoop_eq (T : Terms K) (g : Oath K) (o : Op K) (r : o.Res) :
    (g.after T o r).inLoop = g.inLoop := by
  cases o with
  | register act => cases r <;> rfl
  | _ => rfl

theorem begin_atEnd (T : Terms K) (phase : Nat) : (T.begin phase).AtEnd T :=
  ⟨fun _ hb => hb, fun hf => if_pos hf⟩

section

variable {T : Terms K} {M : Code K} {C : State K → Env K × Move → Prop}

/-- A worker that enters the loop, or goes on to the next phase. -/
theorem Kept.begin {c c' : Core K} {gs : List (Oath K)} (h : Kept T c none gs)
    (hs : c'.status = c.status) (hp : c'.m_nextphase = c.m_nextphase) (hd : c'.data = c.data)
    (hx : c'.m_dbexecuted = c.m_dbexecuted) (hq : c'.pending = c.pending) :
    Kept T c' (some (T.begin c.m_nextphase)) gs := by
  obtain ⟨hdue, hfresh⟩ := h.between rfl
  have due : ∀ b, Due T c gs b → Due T c' gs b := by
    intro b hb
    unfold Due at hb ⊢
    rwa [hx, hq]
  refine ⟨by rw [hs]; exact h.alive, by rw [hp]; exact h.phaseOk, h.outside, nofun, ?_⟩
  intro g hg
  obtain rfl := Option.some.inj hg
  refine ⟨rfl, hp.symm, fun b hb => due b (hdue b hb), fun d hfr => ?_⟩
  have hfr' : (if c.m_nextphase = T.first then some T.data else none) = some d := hfr
  split at hfr'
  · obtain rfl := Option.some.inj hfr'
    obtain ⟨h1, h2, h3⟩ := hfresh ‹_›
    exact ⟨hd.trans h1, h2, hq.trans h3⟩
  · cases hfr'

/-- A worker that leaves the loop. -/
theorem Kept.leave {c : Core K} {g : Oath K} {gs : List (Oath K)} (h : Kept T c (some g) gs)
    (hg : g.AtEnd T) : Kept T c none gs := by
  obtain ⟨_, hphase, hdue, hfresh⟩ := h.inside g rfl
  refine ⟨h.alive, h.phaseOk, h.outside, fun _ => ⟨fun b hb => ?_, fun hf => ?_⟩, nofun⟩
  · rw [← hphase] at hb
    exact hdue b (hg.1 b hb)
  · rw [← hphase] at hf
    exact hfresh _ (hg.2 hf)

/-- The data a worker knows are those of the core, and stay so. -/
theorem fresh_after {c : Core K} {g : Oath K} {gs : List (Oath K)} {o : Op K} {r : o.Res}
    (h : ∀ d, g.fresh = some d → c.data = d ∧ Fresh c gs) {d : K.Data}
    (hd : (g.after T o r).fresh = some d) :
    (c.effect o r).data = d ∧ Fresh (c.effect o r) gs := by
  cases o with
  | register act =>
    cases r with
    | registered => cases hd
    | _ => exact h d hd
  | modify f =>
    obtain ⟨d', hd', rfl⟩ := Option.map_eq_some_iff.mp hd
    obtain ⟨h1, h2, h3⟩ := h d' hd'
    exact ⟨congrArg f h1, h2, h3⟩
  | events => cases hd
  | _ => exact ⟨(h d hd).1, (h d hd).2.1, (h d hd).2.2⟩

theorem Kept.work {c : Core K} {g : Oath K} {gs : List (Oath K)} {o : Op K} {r : o.Res}
    (h : Kept T c (some g) gs) (hd : g.permits T o) :
    Kept T (c.effect o r) (some (g.after T o r)) gs := by
  obtain ⟨hloop, hphase, hdue, hfresh⟩ := h.inside g rfl
  have hphases : T.phaseOk (c.effect o r).m_nextphase ∧
      (g.after T o r).phase = (c.effect o r).m_nextphase := by
    cases o with
    | setPhase phase => exact ⟨hd.2, rfl⟩
    | register act => cases r <;> exact ⟨h.phaseOk, hphase⟩
    | _ => exact ⟨h.phaseOk, hphase⟩
  refine ⟨by rw [effect_status]; exact h.alive, hphases.1, h.outside, nofun, ?_⟩
  intro g' hg'
  obtain rfl := Option.some.inj hg'
  exact ⟨by rw [after_inLoop_eq, hloop], hphases.2, fun b hb => due_after hdue hb,
    fun d hd => fresh_after hfresh hd⟩

theorem Kept.callback {c : Core K} {g : Oath K} {gw : Option (Oath K)} {gs₁ gs₂ : List (Oath K)}
    {o : Op K} {r : o.Res} (h : Kept T c gw (gs₁ ++ g :: gs₂)) (hd : g.permits T o) :
    Kept T (c.effect o r) gw (gs₁ ++ g.after T o r :: gs₂) := by
  obtain ⟨hloop, hnone⟩ := h.outside g (by simp)
  have hphase : (c.effect o r).m_nextphase = c.m_nextphase := by
    cases o with
    | setPhase phase =>
      have := hd.1
      rw [hloop] at this
      cases this
    | register act => cases r <;> rfl
    | _ => rfl
  have hbusy : ¬ Fresh c (gs₁ ++ g :: gs₂) := fun hf => absurd hf.1 (by simp)
  refine ⟨by rw [effect_status]; exact h.alive, by rw [hphase]; exact h.phaseOk, ?_, ?_, ?_⟩
  · intro g' hg'
    rcases List.mem_append.mp hg' with hm | hm
    · exact h.outside g' (List.mem_append_left _ hm)
    rcases List.mem_cons.mp hm with rfl | hm
    · refine ⟨by rw [after_inLoop_eq, hloop], ?_⟩
      cases o with
      | register act => cases r <;> first | exact hnone | rfl
      | modify f =>
        show g.fresh.map f = none
        rw [hnone]
        rfl
      | events => rfl
      | _ => exact hnone
    · exact h.outside g' (List.mem_append_right _ (List.mem_cons_of_mem _ hm))
  · intro hw
    obtain ⟨hdue, hfresh⟩ := h.between hw
    rw [hphase]
    exact ⟨fun b hb => due_callback (hdue b hb), fun hf => absurd (hfresh hf).2 hbusy⟩
  · intro g' hg'
    obtain ⟨h1, h2, h3, h4⟩ := h.inside g' hg'
    exact ⟨h1, h2.trans hphase.symm, fun b hb => due_callback (h3 b hb),
      fun d hfr => absurd (h4 d hfr).2 hbusy⟩

/-- The operations that can be performed under the assumptions do not throw. -/
theorem reply_ne_none (hC : T.Assumed C) {s : State K} {e : Env K} {m : Move} {o : Op K}
    {g : Oath K} (hc : C s (e, m)) (hd : g.permits T o) (ho : s.Performs o) :
    e.reply s.core o ≠ none := by
  cases o with
  | ask q => exact (hC s e m hc).2.1 q ho
  | throw => exact absurd hd id
  | _ => exact nofun

/-- Code that keeps its promises keeps the invariant. -/
theorem kept_sound (hC : T.Assumed C)
    (hbody : ∀ phase x d, T.phaseOk phase → phase ≠ M.final → M.ready phase x d = true →
      (M.body phase).wp (oathGhost T).spec (T.begin phase) (fun _ g => g.AtEnd T))
    (hhandler : ∀ act fut, T.futOk act fut →
      (M.handler act fut).wp (oathGhost T).spec (T.task act) (fun _ g => g.promise = 0)) :
    (oathGhost T).Sound M C (Kept T) (fun g => g.AtEnd T) (fun g => g.promise = 0) where
  take := by
    intro c gs n h _
    exact ⟨_, begin_atEnd T _, h.begin rfl rfl rfl rfl rfl⟩
  delete := by
    intro s g gs e h hg _ _ _ _
    have hk := h.leave hg
    exact ⟨nofun, hk.phaseOk, hk.outside, hk.between, nofun⟩
  body := by
    intro s g gs e h hg _ _ hr hf
    unfold Core.phaseReady at hr
    rw [if_neg hf] at hr
    exact ⟨_, hbody _ _ _ h.phaseOk hf hr, (h.leave hg).begin rfl rfl rfl rfl rfl⟩
  leave := by
    intro c g gs h hg _
    exact h.leave hg
  work := by
    intro s e g gs o r h hd hc _ hr
    refine ⟨?_, h.work hd⟩
    have ha := (hC s e _ hc).2.2 o r hr
    cases o with
    | register act => exact ha
    | get =>
      intro d hfr
      obtain ⟨_, _, _, hfresh⟩ := h.inside g rfl
      obtain rfl := Option.some.inj hr
      exact (hfresh d hfr).1
    | _ => trivial
  callback := by
    intro s e i g gw gs₁ gs₂ o r h hd hc _ hr
    refine ⟨?_, h.callback hd⟩
    have ha := (hC s e _ hc).2.2 o r hr
    cases o with
    | register act => exact ha
    | get =>
      intro d hfr
      rw [(h.outside g (by simp)).2] at hfr
      cases hfr
    | _ => trivial
  throw := by
    intro s e m gw gs o g h _ hd hc ho hr
    exact absurd hr (reply_ne_none hC hc hd ho)
  deliver := by
    intro s e i gw gs act l₁ l₂ h hc hp
    refine ⟨T.task act, hhandler _ _ ((hC s e _ hc).1 act), h.alive, h.phaseOk, ?_, ?_, ?_⟩
    · intro g hg
      rcases List.mem_append.mp hg with hm | hm
      · exact h.outside g hm
      · rw [List.mem_singleton.mp hm]
        exact ⟨rfl, rfl⟩
    all_goals
      have due : ∀ b, Due T s.core gs b →
          Due T { s.core with
            pending := l₁ ++ l₂, resolved := s.core.resolved ++ [⟨act, e.db act⟩] }
            (gs ++ [T.task act]) b := by
        intro b hb
        refine due_mono hb id (fun a ha hab => ?_) fun g hg hgb =>
          Or.inr (Or.inr ⟨g, List.mem_append_left _ hg, hgb⟩)
        rw [hp] at ha
        rcases List.mem_append.mp ha with ha | ha
        · exact Or.inr (Or.inl ⟨a, List.mem_append_left _ ha, hab⟩)
        rcases List.mem_cons.mp ha with rfl | ha
        · exact Or.inr (Or.inr ⟨T.task a, by simp, hab⟩)
        · exact Or.inr (Or.inl ⟨a, List.mem_append_right _ ha, hab⟩)
      have hbusy : ¬ Fresh s.core gs := by
        intro hf
        have := hf.2
        rw [hp] at this
        simp at this
    · intro hw
      obtain ⟨hdue, hfresh⟩ := h.between hw
      exact ⟨fun b hb => due b (hdue b hb), fun hf => absurd (hfresh hf).2 hbusy⟩
    · intro g hg
      obtain ⟨h1, h2, h3, h4⟩ := h.inside g hg
      exact ⟨h1, h2, fun b hb => due b (h3 b hb), fun d hfr => absurd (h4 d hfr).2 hbusy⟩
  finish := by
    intro c g gs₁ gs₂ h hg
    obtain ⟨hdue, hfresh⟩ := h.between rfl
    refine ⟨h.alive, h.phaseOk, fun g' hg' => h.outside g' ?_, fun _ => ⟨fun b hb => ?_, fun hf =>
      absurd (hfresh hf).2.1 (by simp)⟩, nofun⟩
    · rcases List.mem_append.mp hg' with hm | hm
      · exact List.mem_append_left _ hm
      · exact List.mem_append_right _ (List.mem_cons_of_mem _ hm)
    · refine due_mono (hdue b hb) id (fun a ha hab => Or.inr (Or.inl ⟨a, ha, hab⟩)) ?_
      intro g' hg' hgb
      rcases List.mem_append.mp hg' with hm | hm
      · exact Or.inr (Or.inr ⟨g', List.mem_append_left _ hm, hgb⟩)
      rcases List.mem_cons.mp hm with rfl | hm
      · rw [hg] at hgb
        simp at hgb
      · exact Or.inr (Or.inr ⟨g', List.mem_append_right _ hm, hgb⟩)

/-- **When nothing refers to a processor any more, the bits that its next phase waits for are
set.** -/
theorem bits_set (hC : T.Assumed C)
    (hbody : ∀ phase x d, T.phaseOk phase → phase ≠ M.final → M.ready phase x d = true →
      (M.body phase).wp (oathGhost T).spec (T.begin phase) (fun _ g => g.AtEnd T))
    (hhandler : ∀ act fut, T.futOk act fut →
      (M.handler act fut).wp (oathGhost T).spec (T.task act) (fun _ g => g.promise = 0))
    (hfirst : T.phaseOk T.first) (hneed : T.need T.first = 0) {s : State K}
    (h : Run M C (State.init T.first T.data) s) :
    s.core.status ≠ .aborted ∧ T.phaseOk s.core.m_nextphase ∧
      (s.Quiescent → ∀ b, (T.need s.core.m_nextphase).getLsbD b = true →
        s.core.m_dbexecuted.getLsbD b = true) := by
  have h0 : Kept T (State.init T.first T.data : State K).core none [] := by
    refine ⟨nofun, hfirst, nofun, fun _ => ⟨fun b hb => ?_, fun _ => ⟨rfl, rfl, rfl⟩⟩, nofun⟩
    have hb' : (T.need T.first).getLsbD b = true := hb
    rw [hneed] at hb'
    simp at hb'
  obtain ⟨gw, gs, hk, hT⟩ := (kept_sound hC hbody hhandler).invariant h rfl rfl h0
  refine ⟨hk.alive, hk.phaseOk, fun hq b hb => ?_⟩
  obtain ⟨hpend, hcall, _, hw⟩ := hq
  rcases (hk.between (hT.eq_none hw)).1 b hb with hx | ⟨a, ha, _⟩ | ⟨g, hg, _⟩
  · exact hx
  · rw [hpend] at ha
    cases ha
  · rw [hT.eq_nil hcall] at hg
    cases hg

/-- With counters that are exact, a processor to which nothing refers does not stay in its final
phase. -/
theorem not_final_of_quiescent {p : Nat} {d : K.Data} {s : State K}
    (h : Run M C (State.init p d) s) (hq : s.Quiescent) (hrun : s.core.status = .running)
    (hcount : s.core.m_msgissued = s.core.messages ∧
      (s.worker = none → s.callbacks = [] → s.core.m_dbissued = s.core.pending.length)) :
    s.core.m_nextphase ≠ M.final := by
  intro hf
  have hnot := not_ready_of_quiescent h hq hrun
  obtain ⟨hpend, hcall, hmsg, hw⟩ := hq
  have hdb := hcount.2 hw hcall
  have hm := hcount.1
  rw [hpend] at hdb
  rw [hmsg] at hm
  unfold Core.phaseReady at hnot
  rw [if_pos hf, hdb, hm] at hnot
  simp at hnot

end

end OpenairHss.Processor
