import OpenairHss.Processor.Ghost

/-!
# Invariants of the data and of the answers

The rule for a property of the data that every thread keeps, whatever the others do, and for a
property that every answer has when it is sent.

* `Obeys`: code that keeps a `DataRule`.
* `DataRule.invariant`: if all phases and handlers keep it, it holds in every state of a run.
-/

namespace OpenairHss.Processor

open Interact

variable {K : Kind} {α β : Type}

/-- What holds of the data, of the answers, of the calls that take a callback and of what the
database yields. -/
structure DataRule (K : Kind) where
  data : K.Data → Prop
  ans : K.Ans → Prop
  act : K.Act → Prop
  fut : (act : K.Act) → K.Fut act → Prop
  rep : (q : K.Qry) → K.Rep q → Prop

variable {R : DataRule K}

/-- The rule, operation by operation; there is nothing to remember. -/
def DataRule.ghost (R : DataRule K) : Ghost K Unit where
  demand o _ := match o with
    | .modify f => ∀ d, R.data d → R.data (f d)
    | .events _ _ f => ∀ d, R.data d → R.data (f d)
    | .answer a => R.ans a
    | .register act => R.act act
    | _ => True
  allow o _ r := match o, r with
    | .get, d => R.data d
    | .register act, .immediate fut => R.fut act fut
    | .ask q, rep => R.rep q rep
    | _, _ => True
  next _ g _ := g

/-- Code that keeps the rule. -/
def Obeys (R : DataRule K) (p : Proc K α) : Prop := p.wp R.ghost.spec () fun _ _ => True

/-! ### Code -/

theorem obeys_ret (a : α) : Obeys R (.ret a) := trivial

theorem obeys_bind {p : Proc K α} {f : α → Proc K β} (hp : Obeys R p)
    (hf : ∀ a, Obeys R (f a)) : Obeys R (p >>= f) :=
  Ghost.wp_bind (Ghost.wp_weaken hp fun a _ _ => hf a)

/-- An operation that neither writes the data nor sends an answer. -/
theorem obeys_call {o : Op K} (h : R.ghost.demand o ()) : Obeys R (call o) :=
  Ghost.wp_call h fun _ _ => trivial

theorem obeys_update {f : K.Data → K.Data} (h : ∀ d, R.data d → R.data (f d)) :
    Obeys R (updateData f) := obeys_call h

theorem obeys_answer {a : K.Ans} (h : R.ans a) : Obeys R (sendAnswer a) := obeys_call h

/-- After the data has been read. -/
theorem obeys_read {k : K.Data → Proc K α} (h : ∀ d, R.data d → Obeys R (k d)) :
    Obeys R (readData >>= k) := Ghost.wp_then trivial h

/-- After a query has been answered. -/
theorem obeys_query {q : K.Qry} {k : K.Rep q → Proc K α}
    (h : ∀ r, R.rep q r → Obeys R (k r)) : Obeys R (query q >>= k) := Ghost.wp_then trivial h

theorem obeys_throw : Obeys R (throwException (K := K)) := ⟨trivial, nofun⟩

theorem obeys_dbOpComplete (item : BitVec 32) (success : Bool) :
    Obeys R (dbOpComplete (K := K) item success) :=
  obeys_bind (obeys_call trivial) fun _ => obeys_call trivial

theorem obeys_failAll : ∀ items : List (BitVec 32), Obeys R (failAll (K := K) items)
  | [] => obeys_ret _
  | _ :: rest => obeys_bind (obeys_dbOpComplete _ _) fun _ => obeys_failAll rest

theorem obeys_issue {act : K.Act} {handler : K.Fut act → Proc K Unit} (hact : R.act act)
    (h : ∀ fut, R.fut act fut → Obeys R (handler fut)) : Obeys R (issue act handler) := by
  refine Ghost.wp_then hact fun r hr => ?_
  cases r with
  | failed => exact obeys_ret _
  | registered => exact obeys_ret _
  | immediate fut =>
    exact obeys_bind (h fut hr) fun _ => obeys_bind (obeys_call trivial) fun _ => obeys_ret _

theorem obeys_issueCounted {act : K.Act} {handler : K.Fut act → Proc K Unit} (hact : R.act act)
    (h : ∀ fut, R.fut act fut → Obeys R (handler fut)) (items : List (BitVec 32)) :
    Obeys R (issueCounted act handler items) := by
  refine obeys_bind (obeys_call trivial) fun _ => obeys_bind (obeys_issue hact h) fun success => ?_
  cases success with
  | true => exact obeys_ret _
  | false =>
    exact obeys_bind (obeys_failAll items) fun _ => obeys_bind (obeys_call trivial) fun _ =>
      obeys_ret _

/-- A rule that asks nothing of data, answers and calls. -/
theorem obeys_free (hdata : ∀ d, R.data d) (hans : ∀ a, R.ans a) (hact : ∀ act, R.act act)
    (p : Proc K α) : Obeys R p := by
  induction p with
  | ret a => trivial
  | op o k ih =>
    refine ⟨?_, fun r _ => ih r⟩
    cases o with
    | modify f => exact fun d _ => hdata (f d)
    | events item success f => exact fun d _ => hdata (f d)
    | answer a => exact hans a
    | register act => exact hact act
    | _ => trivial

/-! ### Runs -/

/-- What the rule says of the state of a processor. -/
structure DataRule.Holds (R : DataRule K) (c : Core K) : Prop where
  data : R.data c.data
  answers : ∀ a ∈ c.answers, R.ans a
  pending : ∀ act ∈ c.pending, R.act act

/-- What an operation does to it. -/
theorem DataRule.Holds.effect {c : Core K} (h : R.Holds c) {o : Op K}
    (hd : R.ghost.demand o ()) (r : o.Res) : R.Holds (c.effect o r) := by
  cases o with
  | modify f => exact ⟨hd _ h.data, h.answers, h.pending⟩
  | events item success f => exact ⟨hd _ h.data, h.answers, h.pending⟩
  | answer a =>
    refine ⟨h.data, fun a' ha' => ?_, h.pending⟩
    rcases List.mem_append.mp ha' with ha' | ha'
    · exact h.answers a' ha'
    · obtain rfl := List.mem_singleton.mp ha'
      exact hd
  | register act =>
    cases r with
    | registered =>
      refine ⟨h.data, h.answers, fun act' hact' => ?_⟩
      rcases List.mem_append.mp hact' with hact' | hact'
      · exact h.pending act' hact'
      · obtain rfl := List.mem_singleton.mp hact'
        exact hd
    | _ => exact ⟨h.data, h.answers, h.pending⟩
  | _ => exact ⟨h.data, h.answers, h.pending⟩

/-- The replies of an environment that keeps to the rule. -/
theorem DataRule.Holds.allow {c : Core K} (h : R.Holds c) {e : Env K}
    (hfut : ∀ act, R.fut act (e.db act)) (hrep : ∀ q r, e.ask q = some r → R.rep q r) {o : Op K}
    {r : o.Res} (hr : e.reply c o = some r) : R.ghost.allow o () r := by
  cases o with
  | get =>
    obtain rfl := Option.some.inj hr
    exact h.data
  | ask q => exact hrep q r hr
  | register act =>
    obtain rfl := Option.some.inj hr
    cases e.reg act with
    | failed => trivial
    | async => trivial
    | inline => exact hfut act
  | _ => trivial

/-- **The rule**: if every phase and every handler keeps it, it holds in every state of a run in
which the database keeps to it. -/
theorem DataRule.invariant {M : Code K} {C : State K → Env K × Move → Prop}
    (hbody : ∀ s e, C s (e, .loop) → s.core.phaseReady M = true →
      Obeys R (M.body s.core.m_nextphase))
    (hhandler : ∀ act fut, R.act act → R.fut act fut → Obeys R (M.handler act fut))
    (hfut : ∀ s l, C s l → ∀ act, R.fut act (l.1.db act))
    (hrep : ∀ s l, C s l → ∀ q r, l.1.ask q = some r → R.rep q r)
    {s t : State K} (h : Run M C s t) (hw : s.worker = none) (hc : s.callbacks = [])
    (h0 : R.Holds s.core) : R.Holds t.core := by
  have hs : R.ghost.Sound M C (fun c _ _ => R.Holds c) (fun _ => True) (fun _ => True) :=
    { take := fun h _ => ⟨(), trivial, ⟨h.data, h.answers, h.pending⟩⟩
      delete := fun h _ _ _ _ _ => ⟨h.data, h.answers, h.pending⟩
      body := fun h _ _ hC hr _ => ⟨(), hbody _ _ hC hr, ⟨h.data, h.answers, h.pending⟩⟩
      leave := fun h _ _ => h
      work := fun h hd hC _ hr =>
        ⟨h.allow (hfut _ _ hC) (hrep _ _ hC) hr, h.effect hd _⟩
      callback := fun h hd hC _ hr =>
        ⟨h.allow (hfut _ _ hC) (hrep _ _ hC) hr, h.effect hd _⟩
      throw := fun h _ _ _ _ _ => ⟨h.data, h.answers, h.pending⟩
      deliver := by
        intro s e i gw gs act l₁ l₂ h hC hp
        refine ⟨(), hhandler act _ (h.pending act ?_) (hfut _ _ hC act), h.data, h.answers,
          fun act' hact' => h.pending act' ?_⟩
        · rw [hp]
          exact List.mem_append_right _ List.mem_cons_self
        · rw [hp]
          rcases List.mem_append.mp hact' with hact' | hact'
          · exact List.mem_append_left _ hact'
          · exact List.mem_append_right _ (List.mem_cons_of_mem _ hact')
      finish := fun h _ => ⟨h.data, h.answers, h.pending⟩ }
  obtain ⟨_, _, hI, _⟩ := hs.invariant h hw hc h0
  exact hI

end OpenairHss.Processor
