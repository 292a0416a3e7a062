import OpenairHss.Processor.Ghost

/-!
# Data that only the worker writes

While no callback writes a part of the data, what the worker knows of that part stays true until the
worker writes it.  The rule is for a processor from a state on in which no callback runs.

* `Owns`: pre- and postconditions of a phase body, on that part.
* `Calm`: code of a callback, which leaves that part alone.
* `OwnRule.invariant`: what holds in every state of a run.
-/

namespace OpenairHss.Processor

open Interact

variable {K : Kind} {V α β : Type}

/-- The part of the data (`view`), what always holds of it, and what holds of the answers, of the
calls that take a callback and of what the waiting calls yield. -/
structure OwnRule (K : Kind) (V : Type) where
  view : K.Data → V
  good : V → Prop
  ans : K.Ans → Prop
  act : K.Act → Prop
  rep : (q : K.Qry) → K.Rep q → Prop

variable {R : OwnRule K V}

/-- The rule, operation by operation.  The worker remembers what it knows of the view; a callback
remembers nothing. -/
def OwnRule.ghost (R : OwnRule K V) : Ghost K (Option (V → Prop)) where
  demand o g := match o, g with
    | .modify f, some P => ∀ d, P (R.view d) → R.good (R.view (f d))
    | .modify f, none => ∀ d, R.view (f d) = R.view d
    | .events _ _ f, _ => ∀ d, R.view (f d) = R.view d
    | .answer a, _ => R.ans a
    | .register act, _ => R.act act
    | _, _ => True
  allow o g r := match o, g, r with
    | .get, some P, d => P (R.view d)
    | .ask q, _, rep => R.rep q rep
    | _, _, _ => True
  next o g r := match o, g, r with
    | .modify f, some P, _ => some fun v => ∃ d, P (R.view d) ∧ v = R.view (f d)
    | .get, some _, d => some fun v => v = R.view d
    | _, g, _ => g

/-! ### The worker -/

/-- From a view with `P` the code ends, if at all, with a view with `Q`. -/
def Owns (R : OwnRule K V) (P : V → Prop) (p : Proc K α) (Q : α → V → Prop) : Prop :=
  ∀ P' : V → Prop, (∀ v, P' v → P v) →
    p.wp R.ghost.spec (some P') fun a g => ∃ T, g = some T ∧ ∀ v, T v → Q a v

section Worker

variable {P : V → Prop}

theorem owns_ret {a : α} {Q : α → V → Prop} (h : ∀ v, P v → Q a v) : Owns R P (.ret a) Q :=
  fun P' hP => ⟨P', rfl, fun v hv => h v (hP v hv)⟩

theorem owns_bind {p : Proc K α} {f : α → Proc K β} {Q : α → V → Prop} {T : β → V → Prop}
    (hp : Owns R P p Q) (hf : ∀ a, Owns R (Q a) (f a) T) : Owns R P (p >>= f) T := by
  intro P' hP
  refine Ghost.wp_bind (Ghost.wp_weaken (hp P' hP) ?_)
  rintro a _ ⟨P'', rfl, hP''⟩
  exact hf a P'' hP''

/-- An operation that neither reads nor writes the data. -/
theorem owns_call {o : Op K} (hd : ∀ P : V → Prop, R.ghost.demand o (some P))
    (hn : ∀ (P : V → Prop) r, R.ghost.next o (some P) r = some P) :
    Owns R P (call o) fun _ => P :=
  fun P' hP => Ghost.wp_call (hd P') fun r _ => ⟨P', hn P' r, hP⟩

theorem owns_setNextphase (phase : Nat) : Owns R P (setNextphase (K := K) phase) fun _ => P :=
  owns_call (fun _ => trivial) fun _ _ => rfl

/-- Nothing is claimed of the view at the end. -/
theorem Owns.top {p : Proc K α} {Q : α → V → Prop} (h : Owns R P p Q) :
    Owns R P p fun _ _ => True := by
  refine fun P' hP => Ghost.wp_weaken (h P' hP) ?_
  rintro a _ ⟨T, rfl, -⟩
  exact ⟨T, rfl, fun _ _ => trivial⟩

theorem owns_update {f : K.Data → K.Data} {Q : Unit → V → Prop}
    (h : ∀ d, P (R.view d) → R.good (R.view (f d)) ∧ Q () (R.view (f d))) :
    Owns R P (updateData f) Q := by
  intro P' hP
  refine Ghost.wp_call (fun d hd => (h d (hP _ hd)).1) fun _ _ => ⟨_, rfl, ?_⟩
  rintro v ⟨d, hd, rfl⟩
  exact (h d (hP _ hd)).2

theorem owns_read {k : K.Data → Proc K α} {Q : α → V → Prop}
    (h : ∀ d, P (R.view d) → Owns R (fun v => v = R.view d) (k d) Q) :
    Owns R P (readData >>= k) Q :=
  fun _ hP => Ghost.wp_then trivial fun d hd => h d (hP _ hd) _ fun _ hv => hv

theorem owns_query {q : K.Qry} {k : K.Rep q → Proc K α} {Q : α → V → Prop}
    (h : ∀ r, R.rep q r → Owns R P (k r) Q) : Owns R P (query q >>= k) Q :=
  fun P' hP => Ghost.wp_then trivial fun r hr => h r hr P' hP

theorem owns_answer {a : K.Ans} (h : R.ans a) : Owns R P (sendAnswer a) fun _ => P :=
  owns_call (fun _ => h) fun _ _ => rfl

theorem owns_dbOpComplete (item : BitVec 32) (success : Bool) :
    Owns R P (dbOpComplete (K := K) item success) fun _ => P :=
  owns_bind (owns_call (fun _ => trivial) fun _ _ => rfl) fun _ =>
    owns_call (fun _ => trivial) fun _ _ => rfl

theorem owns_failAll : ∀ items : List (BitVec 32), Owns R P (failAll (K := K) items) fun _ => P
  | [] => owns_ret fun _ hv => hv
  | _ :: rest => owns_bind (owns_dbOpComplete _ _) fun _ => owns_failAll rest

theorem owns_issueCounted {act : K.Act} {handler : K.Fut act → Proc K Unit} (hact : R.act act)
    (h : ∀ fut, Owns R P (handler fut) fun _ => P) (items : List (BitVec 32)) :
    Owns R P (issueCounted act handler items) fun _ => P := by
  refine owns_bind (owns_call (fun _ => trivial) fun _ _ => rfl) fun _ =>
    owns_bind (Q := fun _ => P) ?_ fun success => ?_
  · refine owns_bind (Q := fun _ => P) (owns_call (fun _ => hact) fun _ _ => rfl) fun r => ?_
    cases r with
    | failed => exact owns_ret fun _ hv => hv
    | registered => exact owns_ret fun _ hv => hv
    | immediate fut =>
      exact owns_bind (h fut) fun _ => owns_bind (owns_call (fun _ => trivial) fun _ _ => rfl)
        fun _ => owns_ret fun _ hv => hv
  · cases success with
    | true => exact owns_ret fun _ hv => hv
    | false =>
      exact owns_bind (owns_failAll items) fun _ =>
        owns_bind (owns_call (fun _ => trivial) fun _ _ => rfl) fun _ => owns_ret fun _ hv => hv

end Worker

/-! ### Callbacks -/

/-- Code that leaves the view alone. -/
def Calm (R : OwnRule K V) (p : Proc K α) : Prop :=
  p.wp R.ghost.spec none fun _ g => g = none

theorem calm_bind {p : Proc K α} {f : α → Proc K β} (hp : Calm R p) (hf : ∀ a, Calm R (f a)) :
    Calm R (p >>= f) := by
  refine Ghost.wp_bind (Ghost.wp_weaken hp ?_)
  rintro a _ rfl
  exact hf a

theorem calm_update {f : K.Data → K.Data} (h : ∀ d, R.view (f d) = R.view d) :
    Calm R (updateData f) := Ghost.wp_call h fun _ _ => rfl

theorem calm_dbOpComplete (item : BitVec 32) (success : Bool) :
    Calm R (dbOpComplete (K := K) item success) :=
  calm_bind (Ghost.wp_call trivial fun _ _ => rfl) fun _ => Ghost.wp_call trivial fun _ _ => rfl

/-! ### Runs -/

/-- What the rule says of the state of a processor. -/
structure OwnRule.Holds (R : OwnRule K V) (c : Core K) : Prop where
  good : R.good (R.view c.data)
  answers : ∀ a ∈ c.answers, R.ans a
  pending : ∀ act ∈ c.pending, R.act act

/-- The invariant with the ghost values. -/
structure OwnRule.Inv (R : OwnRule K V) (c : Core K) (gw : Option (Option (V → Prop)))
    (gs : List (Option (V → Prop))) : Prop where
  holds : R.Holds c
  worker : ∀ g ∈ gw, ∃ P, g = some P ∧ P (R.view c.data)
  callbacks : ∀ g ∈ gs, g = none

/-- What an operation does to the view: the worker may write it. -/
theorem OwnRule.Holds.effect {c : Core K} (h : R.Holds c) {o : Op K} {g : Option (V → Prop)}
    (hg : ∀ P, g = some P → P (R.view c.data)) (hd : R.ghost.demand o g) (r : o.Res) :
    R.Holds (c.effect o r) := by
  cases o with
  | modify f =>
    cases g with
    | none =>
      have hv : R.view (f c.data) = R.view c.data := hd c.data
      refine ⟨?_, h.answers, h.pending⟩
      rw [show (c.effect (.modify f) r).data = f c.data from rfl, hv]
      exact h.good
    | some P => exact ⟨hd _ (hg P rfl), h.answers, h.pending⟩
  | events item success f =>
    have hv : R.view (f c.data) = R.view c.data := hd c.data
    refine ⟨?_, h.answers, h.pending⟩
    rw [show (c.effect (.events item success f) r).data = f c.data from rfl, hv]
    exact h.good
  | answer a =>
    refine ⟨h.good, fun a' ha' => ?_, h.pending⟩
    rcases List.mem_append.mp ha' with ha' | ha'
    · exact h.answers a' ha'
    · obtain rfl := List.mem_singleton.mp ha'
      exact hd
  | register act =>
    cases r with
    | registered =>
      refine ⟨h.good, h.answers, fun act' hact' => ?_⟩
      rcases List.mem_append.mp hact' with hact' | hact'
      · exact h.pending act' hact'
      · obtain rfl := List.mem_singleton.mp hact'
        exact hd
    | _ => exact ⟨h.good, h.answers, h.pending⟩
  | _ => exact ⟨h.good, h.answers, h.pending⟩

/-- What the worker knows is true after each of its operations. -/
theorem OwnRule.Inv.work {c : Core K} {g : Option (V → Prop)} {gs : List (Option (V → Prop))}
    (h : R.Inv c (some g) gs) {o : Op K} (hd : R.ghost.demand o g) {e : Env K} {r : o.Res}
    (hr : e.reply c o = some r) : R.Inv (c.effect o r) (some (R.ghost.next o g r)) gs := by
  obtain ⟨P, rfl, hP⟩ := h.worker g rfl
  refine ⟨h.holds.effect (fun P' hP' => ?_) hd r, fun g hg => ?_, h.callbacks⟩
  · obtain rfl := Option.some.inj hP'
    exact hP
  obtain rfl := Option.some.inj hg
  cases o with
  | modify f => exact ⟨_, rfl, c.data, hP, rfl⟩
  | events item success f =>
    refine ⟨P, rfl, ?_⟩
    have hv : R.view (f c.data) = R.view c.data := hd c.data
    rw [show (c.effect (.events item success f) r).data = f c.data from rfl, hv]
    exact hP
  | get =>
    obtain rfl := Option.some.inj hr
    exact ⟨_, rfl, rfl⟩
  | register act => cases r <;> exact ⟨P, rfl, hP⟩
  | _ => exact ⟨P, rfl, hP⟩

/-- And it stays true when a callback goes on. -/
theorem OwnRule.Inv.callback {c : Core K} {g : Option (V → Prop)}
    {gs₁ gs₂ : List (Option (V → Prop))} {gw : Option (Option (V → Prop))}
    (h : R.Inv c gw (gs₁ ++ g :: gs₂)) {o : Op K} (hd : R.ghost.demand o g) (r : o.Res) :
    R.Inv (c.effect o r) gw (gs₁ ++ R.ghost.next o g r :: gs₂) := by
  obtain rfl : g = none := h.callbacks g (by simp)
  have hview : R.view (c.effect o r).data = R.view c.data := by
    cases o with
    | modify f => exact hd c.data
    | events item success f => exact hd c.data
    | register act => cases r <;> rfl
    | _ => rfl
  have hnext : R.ghost.next o none r = none := by cases o <;> rfl
  refine ⟨h.holds.effect (fun _ hP => by cases hP) hd r, fun g hg => ?_, ?_⟩
  · obtain ⟨P, hP, hv⟩ := h.worker g hg
    exact ⟨P, hP, by rw [hview]; exact hv⟩
  · rw [hnext]
    exact h.callbacks

/-- The replies of an environment that keeps to the rule. -/
theorem OwnRule.allow_reply {c : Core K} {g : Option (V → Prop)}
    (hg : ∀ P, g = some P → P (R.view c.data)) {e : Env K}
    (hrep : ∀ q r, e.ask q = some r → R.rep q r) {o : Op K} {r : o.Res}
    (hr : e.reply c o = some r) : R.ghost.allow o g r := by
  cases o with
  | get =>
    obtain rfl := Option.some.inj hr
    cases g with
    | none => trivial
    | some P => exact hg P rfl
  | ask q => exact hrep q r hr
  | _ => cases g <;> trivial

/-- **The rule**: a processor whose worker has begun code that keeps it, and that has no callback
running, keeps it if its phases and handlers do. -/
theorem OwnRule.invariant {M : Code K} {C : State K → Env K × Move → Prop}
    (hbody : ∀ s e, C s (e, .loop) → s.core.phaseReady M = true → s.core.m_nextphase ≠ M.final →
      Owns R R.good (M.body s.core.m_nextphase) fun _ _ => True)
    (hhandler : ∀ act fut, R.act act → Calm R (M.handler act fut))
    (hrep : ∀ s l, C s l → ∀ q r, l.1.ask q = some r → R.rep q r)
    {s t : State K} (h : Run M C s t) {p : Proc K Unit} (hw : s.worker = some p) {P : V → Prop}
    (hp : Owns R P p fun _ _ => True) (hP : P (R.view s.core.data)) (hc : s.callbacks = [])
    (h0 : R.Holds s.core) : R.Holds t.core := by
  have hs : R.ghost.Sound M C R.Inv (fun g => ∃ P, g = some P) (fun g => g = none) :=
    { take := fun h _ => ⟨some R.good, ⟨_, rfl⟩, ⟨h.holds.good, h.holds.answers, h.holds.pending⟩,
        fun g hg => ⟨_, (Option.some.inj hg).symm, h.holds.good⟩, h.callbacks⟩
      delete := fun h _ _ _ _ _ => ⟨⟨h.holds.good, h.holds.answers, h.holds.pending⟩, nofun,
        h.callbacks⟩
      body := by
        intro s g gs e h _ _ hC hr hf
        refine ⟨some R.good, Ghost.wp_weaken (hbody s e hC hr hf _ fun _ hv => hv) ?_,
          ⟨h.holds.good, h.holds.answers, h.holds.pending⟩, fun g hg => ?_, h.callbacks⟩
        · rintro _ _ ⟨T, rfl, -⟩
          exact ⟨T, rfl⟩
        · exact ⟨_, (Option.some.inj hg).symm, h.holds.good⟩
      leave := fun h _ _ => ⟨h.holds, nofun, h.callbacks⟩
      work := by
        intro s e g gs o r h hd hC _ hr
        refine ⟨OwnRule.allow_reply (fun P hP => ?_) (hrep _ _ hC) hr, h.work hd hr⟩
        obtain ⟨P', hg, hP'⟩ := h.worker g rfl
        rw [hP] at hg
        obtain rfl := Option.some.inj hg
        exact hP'
      callback := by
        intro s e i g gw gs₁ gs₂ o r h hd hC _ hr
        refine ⟨OwnRule.allow_reply (fun P hP => ?_) (hrep _ _ hC) hr, h.callback hd r⟩
        rw [h.callbacks g (by simp)] at hP
        cases hP
      throw := fun h _ _ _ _ _ => ⟨⟨h.holds.good, h.holds.answers, h.holds.pending⟩, h.worker,
        h.callbacks⟩
      deliver := by
        intro s e i gw gs act l₁ l₂ h hC hp
        have hact : ∀ act' ∈ l₁ ++ act :: l₂, R.act act' := by
          rw [← hp]
          exact h.holds.pending
        refine ⟨none, hhandler act _ (hact act (by simp)), ⟨h.holds.good, h.holds.answers, ?_⟩,
          h.worker, ?_⟩
        · intro act' hact'
          refine hact act' ?_
          rcases List.mem_append.mp hact' with hm | hm
          · exact List.mem_append_left _ hm
          · exact List.mem_append_right _ (List.mem_cons_of_mem _ hm)
        · intro g hg
          rcases List.mem_append.mp hg with hg | hg
          · exact h.callbacks g hg
          · exact List.mem_singleton.mp hg
      finish := by
        intro c g gs₁ gs₂ h _
        refine ⟨⟨h.holds.good, h.holds.answers, h.holds.pending⟩, nofun, fun g' hg' => ?_⟩
        refine h.callbacks g' ?_
        rcases List.mem_append.mp hg' with hm | hm
        · exact List.mem_append_left _ hm
        · exact List.mem_append_right _ (List.mem_cons_of_mem _ hm) }
  have hT : R.ghost.Threads (fun g => ∃ P, g = some P) (fun g => g = none) s (some (some P)) [] := by
    refine ⟨by rw [hc]; rfl, by rw [hw]; rfl, fun _ p' hp' => ?_, fun _ => by rw [hc]; exact .nil⟩
    rw [hw] at hp'
    obtain rfl := Option.some.inj hp'
    refine ⟨some P, rfl, Ghost.wp_weaken (hp P fun _ hv => hv) ?_⟩
    rintro _ _ ⟨T, rfl, -⟩
    exact ⟨T, rfl⟩
  have hI : R.Inv s.core (some (some P)) [] :=
    ⟨h0, fun g hg => ⟨P, (Option.some.inj hg).symm, hP⟩, nofun⟩
  obtain ⟨_, _, hI', _⟩ := hs.invariant_of h hI hT
  exact hI'.holds

end OpenairHss.Processor
