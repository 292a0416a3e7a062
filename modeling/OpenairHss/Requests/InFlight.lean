import OpenairHss.Processor.Accounting
import OpenairHss.Requests.Order

/-!
# Nothing in flight at the end

The handlers of both processors leave no debt behind, and neither do the phases, with one
exception: `ULRProcessor::phase1` counts its first query last, and leaves it uncounted when a later
one cannot be issued.  Queries that are counted after they are issued let the counter drop below
zero when the callback runs inside the call.

`nothing_in_flight`: without these two, the counters are exact and never below zero, and a processor
that is deleted is referred to by nobody.  `deleted_in_flight` is the run in which the second query
of a ULR cannot be issued.
-/

namespace OpenairHss.Ulr

open Interact Processor

/-! ### The ULR processor -/

section Handlers

variable {strict : Bool} {ok : (act : kind.Act) → Reg (kind.Fut act) → Prop}

theorem keeps_onImsiInfo (fut : Option (Option ImsiInfoRow)) :
    Keeps strict ok (onImsiInfo fut) := by
  match fut with
  | none => exact keeps_op rfl nofun
  | some none => exact keeps_dbOpComplete _ _
  | some (some row) => exact keeps_bind (keeps_call rfl) fun _ => keeps_dbOpComplete _ _

theorem keeps_onEvents (fut : Option (List Event)) : Keeps strict ok (onEvents fut) :=
  keeps_call rfl

theorem keeps_eventsLoop : ∀ ids scef_id refs, Keeps strict ok (eventsLoop ids scef_id refs)
  | [], scef_id, refs => by
    unfold eventsLoop
    split
    · exact keeps_bind (keeps_issueCounted fun fut _ => keeps_onEvents fut) fun _ => keeps_ret _
    · exact keeps_ret _
  | ei :: rest, scef_id, refs => by
    unfold eventsLoop
    split
    · refine keeps_bind (keeps_issueCounted fun fut _ => keeps_onEvents fut) fun success => ?_
      cases success with
      | true => exact keeps_eventsLoop rest _ _
      | false => exact keeps_ret _
    · exact keeps_eventsLoop rest _ _

theorem keeps_getEvents : Keeps strict ok getEvents := by
  refine keeps_bind (keeps_call rfl) fun d => ?_
  split
  · exact keeps_dbOpComplete _ _
  · exact keeps_bind (keeps_call rfl) fun _ => keeps_bind (keeps_call rfl) fun d =>
      keeps_eventsLoop _ _ _

theorem keeps_onEventIds (item : BitVec 32) (fut : Option (List EventId)) :
    Keeps strict ok (onEventIds item fut) := by
  refine keeps_bind (keeps_call rfl) fun _ => keeps_bind (keeps_call rfl) fun _ =>
    keeps_bind (keeps_dbOpComplete _ _) fun _ => keeps_bind (keeps_call rfl) fun _ =>
    keeps_bind (keeps_call rfl) fun _ => keeps_bind (keeps_call rfl) fun _ => ?_
  split
  · exact keeps_getEvents
  · exact keeps_ret _

theorem keeps_onExternalIds (fut : Option (List String)) :
    Keeps strict ok (onExternalIds fut) := by
  refine keeps_bind (keeps_call rfl) fun _ => keeps_bind (keeps_dbOpComplete _ _) fun _ => ?_
  split
  · exact keeps_bind (keeps_call rfl) fun _ =>
      keeps_bind (keeps_issueCounted fun fut _ => keeps_onEventIds _ fut) fun _ => keeps_ret _
  · exact keeps_dbOpComplete _ _

theorem keeps_onMmeIdentity (fut : Option (Option (Option Int))) :
    Keeps strict ok (onMmeIdentity fut) := by
  match fut with
  | none => exact keeps_dbOpComplete _ _
  | some none => exact keeps_dbOpComplete _ _
  | some (some id) => exact keeps_bind (keeps_call rfl) fun _ => keeps_dbOpComplete _ _

theorem keeps_handler (act : Db × String) (fut : act.1.Fut) :
    Keeps strict ok (handler act fut) := by
  match act, fut with
  | (.getImsiInfo, _), fut => exact keeps_onImsiInfo fut
  | (.getExtIds, _), fut => exact keeps_onExternalIds fut
  | (.getEvntidsMsisdn, _), fut => exact keeps_onEventIds _ fut
  | (.getEvntidsExtids, _), fut => exact keeps_onEventIds _ fut
  | (.getEvntsEvntids, _), fut => exact keeps_onEvents fut
  | (.getMmeidHost, _), fut => exact keeps_onMmeIdentity fut
  | (.updateImsi, _), fut => exact keeps_dbOpComplete _ _

theorem keeps_reject (r : Rejection) : Keeps strict ok (reject r) :=
  keeps_bind (keeps_call rfl) fun _ => keeps_call rfl

theorem keeps_askEventIds : ∀ extids, Keeps strict ok (askEventIds extids)
  | [] => keeps_ret _
  | _ :: rest => keeps_bind (keeps_call rfl) fun _ => keeps_bind (keeps_call rfl) fun _ =>
      keeps_askEventIds rest

theorem keeps_askEvents : ∀ ids, Keeps strict ok (askEvents ids)
  | [] => keeps_ret _
  | _ :: rest => keeps_bind (keeps_call rfl) fun _ => keeps_bind (keeps_call rfl) fun _ =>
      keeps_askEvents rest

theorem keeps_addEvents : ∀ events, Keeps strict ok (addEvents events)
  | [] => keeps_ret _
  | _ :: rest => keeps_bind (keeps_call rfl) fun _ => keeps_bind (keeps_call rfl) fun _ =>
      keeps_addEvents rest

theorem keeps_callAddAvps (r : Except Rejection Data) : Keeps strict ok (callAddAvps r) := by
  unfold callAddAvps
  split
  · split
    · exact keeps_bind (keeps_call rfl) fun _ => keeps_ret _
    · exact keeps_ret _
  · exact keeps_ret _

theorem keeps_phase2Body (json : String → Bool) (req : Request) :
    Keeps strict ok (phase2Body json req) := by
  refine keeps_bind (keeps_call rfl) fun result => keeps_bind (keeps_call rfl) fun d => ?_
  split
  · exact keeps_reject _
  refine keeps_bind (keeps_callAddAvps _) fun _ => ?_
  split
  · exact keeps_reject _
  · exact keeps_bind (keeps_call rfl) fun _ => keeps_call rfl

theorem keeps_phase3Body : Keeps strict ok phase3Body := by
  refine keeps_bind (keeps_call rfl) fun d => keeps_bind ?_ fun _ => keeps_bind (keeps_call rfl)
    fun d => keeps_bind (keeps_call rfl) fun _ => keeps_bind ?_ fun _ => keeps_call rfl
  · unfold collectEvents
    split
    · exact keeps_bind (keeps_askEventIds _) fun _ => keeps_bind (keeps_call rfl) fun _ =>
        keeps_bind (keeps_askEvents _) fun _ => keeps_bind (keeps_call rfl) fun _ =>
        keeps_addEvents _
    · exact keeps_ret _
  · unfold reportRoaming
    split
    · exact keeps_call rfl
    · exact keeps_ret _

theorem keeps_phase4Body : Keeps strict ok phase4Body := by
  refine keeps_bind (keeps_call rfl) fun _ => keeps_bind (keeps_call rfl) fun _ =>
    keeps_bind (keeps_call rfl) fun d =>
    keeps_bind (keeps_issueCounted fun fut _ => keeps_dbOpComplete _ _) fun success => ?_
  cases success with
  | true => exact keeps_ret _
  | false => exact keeps_call rfl

end Handlers

/-- The registrations after which the first query of `phase1` is counted.  A callback inside the
call is allowed unless the balance is to be strict. -/
def regOk (strict : Bool) : (act : Db × String) → Reg act.1.Fut → Prop
  | (.getImsiInfo, _), .immediate _ => strict = false
  | (.getExtIds, _), .failed => False
  | (.getEvntidsMsisdn, _), .failed => False
  | (.getMmeidHost, _), .failed => False
  | _, _ => True

theorem phase1Body_balanced (strict : Bool) (req : Request) :
    (phase1Body req).wp (credit (K := kind) strict (regOk strict)).spec ⟨true, 0, 0⟩
      (fun _ g => g.debt = 0) := by
  have h0 : ∀ g : Credit, g.debt = 0 → g.inLoop = true → strict → g.Fine :=
    fun _ hd hl _ => Credit.fine_of_debt hd hl
  refine Keeps.then (keeps_call rfl) (h0 _ rfl rfl) fun _ g₁ s₁ =>
    Keeps.then (keeps_call rfl) (h0 _ s₁.1 s₁.2.1) fun d g₂ s₂ => ?_
  have e₂ := s₁.trans s₂
  split
  · exact keeps_reject _ _ _ (h0 _ e₂.1 e₂.2.1) fun _ g s => (e₂.trans s).1
  refine Keeps.then (keeps_call rfl) (h0 _ e₂.1 e₂.2.1) fun _ g₃ s₃ =>
    Keeps.then (keeps_call rfl) (h0 _ (e₂.trans s₃).1 (e₂.trans s₃).2.1) fun d g₄ s₄ => ?_
  have e₄ := (e₂.trans s₃).trans s₄
  refine Keeps.then (keeps_call rfl) (h0 _ e₄.1 e₄.2.1) fun _ g₅ s₅ => Ghost.wp_bind ?_
  have e₅ := e₄.trans s₅
  have hd₅ : g₅.debt = 0 := e₅.1
  have hl₅ : g₅.inLoop = true := e₅.2.1
  refine wp_issue (fun fut _ => keeps_onImsiInfo fut) (h0 _ hd₅ hl₅) ?_ ?_ ?_ ?_
  · exact fun _ _ => Credit.fine_of_registered hd₅ hl₅
  · intro fut hf hst
    have : strict = false := hf
    rw [this] at hst
    cases hst
  · -- the first query cannot be issued: nothing was counted
    intro _
    refine Ghost.wp_bind (Keeps.then (keeps_dbOpComplete _ _) (h0 _ hd₅ hl₅) fun _ g₆ s₆ => ?_)
    have e₆ := e₅.trans s₆
    exact Ghost.wp_bind (Ghost.wp_bind (keeps_reject _ _ _ (h0 _ e₆.1 e₆.2.1) fun _ g s =>
      (e₆.trans s).1))
  · -- it is issued: the debt of -1 is made up for at the end
    intro g₆ hd hl _ hfine
    have hcast : ∀ {b : Bool}, (b = false → False) → b = true := by
      intro b hb
      cases b with
      | true => rfl
      | false => exact (hb rfl).elim
    refine Ghost.wp_bind (wp_issueCounted (fun fut _ => keeps_onExternalIds fut) hfine
      fun b g₇ s₇ hb => ?_)
    obtain rfl := hcast hb
    have f₇ : strict → g₇.Fine := fun hst => s₇.fine (hfine hst)
    refine Ghost.wp_bind (wp_issueCounted (fun fut _ => keeps_onEventIds _ fut) f₇
      fun b g₈ s₈ hb => ?_)
    obtain rfl := hcast hb
    have f₈ : strict → g₈.Fine := fun hst => s₈.fine (f₇ hst)
    refine Ghost.wp_bind (wp_issueCounted (fun fut _ => keeps_onMmeIdentity fut) f₈
      fun b g₉ s₉ hb => ?_)
    obtain rfl := hcast hb
    have hd₉ : g₉.debt + 1 = 0 := by
      rw [s₉.1, s₈.1, s₇.1, hd, hd₅]
      omega
    have hl₉ : g₉.inLoop = true := by
      rw [s₉.2.1, s₈.2.1, s₇.2.1, hl, hl₅]
    exact Ghost.wp_call (fun hst _ _ => h0 _ hd₉ hl₉ hst) fun _ _ => hd₉

theorem body_balanced (strict : Bool) (json : String → Bool) (req : Request) (phase : Nat) :
    (body json req phase).wp (credit (K := kind) strict (regOk strict)).spec ⟨true, 0, 0⟩
      (fun _ g => g.debt = 0) := by
  have keeps : ∀ {p : Proc kind Unit}, Keeps strict (regOk strict) p →
      p.wp (credit (K := kind) strict (regOk strict)).spec ⟨true, 0, 0⟩ (fun _ g => g.debt = 0) :=
    fun h => h _ _ (fun _ => le_refl (0 : Int)) fun _ g s => s.1
  unfold body
  split
  · exact phase1Body_balanced strict req
  split
  · exact keeps (keeps_phase2Body json req)
  split
  · exact keeps keeps_phase3Body
  split
  · exact keeps keeps_phase4Body
  split
  · exact keeps (keeps_call rfl)
  · exact keeps (keeps_ret _)

theorem handler_balanced {strict : Bool} {ok : (act : kind.Act) → Reg (kind.Fut act) → Prop}
    (act : Db × String) (fut : act.1.Fut) :
    (handler act fut).wp (credit strict ok).spec ⟨false, 0, 0⟩ (fun _ g => g.debt = 0) :=
  keeps_handler act fut _ _ (fun _ => le_refl (0 : Int)) fun _ _ s => s.1

/-- The condition on the registrations: no query of `phase1` other than the first fails to be
issued. -/
def Issued (e : Env kind) : Prop :=
  ∀ stmt, e.reg (.getExtIds, stmt) ≠ .failed ∧ e.reg (.getEvntidsMsisdn, stmt) ≠ .failed ∧
    e.reg (.getMmeidHost, stmt) ≠ .failed

/-- The first query is not answered inside its own call. -/
def NotInline (e : Env kind) : Prop := ∀ stmt, e.reg (.getImsiInfo, stmt) ≠ .inline

theorem repliesOk {strict : Bool} {C : State kind → Env kind × Move → Prop}
    (hC : ∀ s e m, C s (e, m) → Issued e ∧ (strict → NotInline e)) :
    RepliesOk C (regOk strict) := by
  intro s e m o r hc hr
  obtain ⟨h1, h2⟩ := hC s e m hc
  cases o with
  | register act =>
    obtain ⟨db, stmt⟩ := act
    obtain ⟨ha, hb, hm⟩ := h1 stmt
    obtain rfl := Option.some.inj hr
    show regOk strict (db, stmt) _
    cases hk : e.reg (db, stmt) with
    | failed =>
      cases db with
      | getExtIds => exact ha hk
      | getEvntidsMsisdn => exact hb hk
      | getMmeidHost => exact hm hk
      | _ => trivial
    | async => cases db <;> trivial
    | inline =>
      cases db with
      | getImsiInfo =>
        cases strict with
        | true => exact absurd hk (h2 rfl stmt)
        | false => rfl
      | _ => trivial
  | _ => trivial

end OpenairHss.Ulr

namespace OpenairHss.AirProcessor

open ByteVec Interact OpenairHss.Processor Hsssec

/-! ### The AIR processor -/

/-- Both queries are counted after they are issued. -/
def regOk (strict : Bool) : (act : Db × String) → Reg act.1.Fut → Prop
  | _, .immediate _ => strict = false
  | _, _ => True

/-- No query is answered inside its own call. -/
def NotInline (e : Env kind) : Prop := ∀ act, e.reg act ≠ .inline

section

variable {R : Type} (cipher : BlockCipher R)
  (kdf : List (BitVec 8) → List (BitVec 8) → Bytes 32) (env : Surroundings R) {strict : Bool}
  {ok : (act : kind.Act) → Reg (kind.Fut act) → Prop}

theorem keeps_onImsiSec (fut : Option (Option DataAccess.SecRow)) :
    Keeps strict ok (onImsiSec env fut) := by
  match fut with
  | none => exact keeps_op rfl nofun
  | some none => exact keeps_dbOpComplete _ _
  | some (some row) => exact keeps_bind (keeps_call rfl) fun _ => keeps_dbOpComplete _ _

theorem keeps_handler (act : Db × String) (fut : act.1.Fut) :
    Keeps strict ok (handler env act fut) := by
  match act, fut with
  | (.getImsiSec, _), fut => exact keeps_onImsiSec env fut
  | (.updateImsi, _), fut => exact keeps_dbOpComplete _ _

theorem keeps_reject (final : Nat) (r : Rejection) : Keeps strict ok (reject final r) :=
  keeps_bind (keeps_call rfl) fun _ => keeps_call rfl

/-- A call that is counted when it has succeeded, inside the loop. -/
theorem wp_issueThen {act : Db × String} {handler : act.1.Fut → Proc kind Unit}
    {rest : Proc kind Unit} (hh : ∀ fut, Keeps strict (regOk strict) (handler fut))
    (hrest : Keeps strict (regOk strict) rest) {g : Credit} (hd : g.debt = 0)
    (hl : g.inLoop = true) :
    (do
      let success ← issue (K := kind) act handler
      if success then incDbissued else rest).wp (credit (K := kind) strict (regOk strict)).spec g
      (fun _ g => g.debt = 0) := by
  have h0 : ∀ g : Credit, g.debt = 0 → g.inLoop = true → strict → g.Fine :=
    fun _ hd hl _ => Credit.fine_of_debt hd hl
  refine Ghost.wp_bind (wp_issue (fun fut _ => hh fut) (h0 g hd hl) ?_ ?_ ?_ ?_)
  · exact fun _ _ => Credit.fine_of_registered hd hl
  · intro fut hf hst
    have : strict = false := by
      obtain ⟨db, stmt⟩ := act
      exact hf
    rw [this] at hst
    cases hst
  · intro _
    exact hrest _ _ (h0 g hd hl) fun _ g' s => s.1.trans hd
  · intro g' hd' hl' _ _
    have hz : g'.debt + 1 = 0 := by omega
    exact Ghost.wp_call (fun hst _ _ => h0 _ hz (hl'.trans hl) hst) fun _ _ => hz

theorem body_balanced (req : Request) (phase : Nat) :
    (body cipher kdf env req phase).wp (credit (K := kind) strict (regOk strict)).spec ⟨true, 0, 0⟩
      (fun _ g => g.debt = 0) := by
  have h0 : ∀ g : Credit, g.debt = 0 → g.inLoop = true → strict → g.Fine :=
    fun _ hd hl _ => Credit.fine_of_debt hd hl
  have keeps : ∀ {p : Proc kind Unit} {g : Credit}, Keeps strict (regOk strict) p → g.debt = 0 →
      g.inLoop = true → p.wp (credit (K := kind) strict (regOk strict)).spec g
        (fun _ g => g.debt = 0) :=
    fun h hd hl => h _ _ (h0 _ hd hl) fun _ g s => s.1.trans hd
  unfold body
  split
  · refine Keeps.then (keeps_call rfl) (h0 _ rfl rfl) fun d g₁ s₁ => ?_
    split
    · exact keeps (keeps_reject _ _) s₁.1 s₁.2.1
    refine Keeps.then (keeps_call rfl) (h0 _ s₁.1 s₁.2.1) fun _ g₂ s₂ => ?_
    have e₂ := s₁.trans s₂
    refine Keeps.then (keeps_call rfl) (h0 _ e₂.1 e₂.2.1) fun _ g₃ s₃ => ?_
    have e₃ := e₂.trans s₃
    refine wp_issueThen ?_ (keeps_reject _ _) e₃.1 e₃.2.1
    exact fun fut => keeps_onImsiSec env fut
  split
  · refine Keeps.then (keeps_call rfl) (h0 _ rfl rfl) fun result g₁ s₁ =>
      Keeps.then (keeps_call rfl) (h0 _ s₁.1 s₁.2.1) fun d g₂ s₂ => ?_
    have e₂ := s₁.trans s₂
    split
    · exact keeps (keeps_reject _ _) e₂.1 e₂.2.1
    refine Keeps.then (keeps_call rfl) (h0 _ e₂.1 e₂.2.1) fun _ g₃ s₃ => ?_
    have e₃ := e₂.trans s₃
    refine Keeps.then (keeps_call rfl) (h0 _ e₃.1 e₃.2.1) fun _ g₄ s₄ => ?_
    have e₄ := e₃.trans s₄
    refine Keeps.then (keeps_call rfl) (h0 _ e₄.1 e₄.2.1) fun _ g₅ s₅ => ?_
    have e₅ := e₄.trans s₅
    exact wp_issueThen (fun fut => keeps_dbOpComplete _ _) (keeps_call rfl) e₅.1 e₅.2.1
  split
  · exact keeps (keeps_call rfl) rfl rfl
  · exact keeps (keeps_ret _) rfl rfl

theorem handler_balanced (act : Db × String) (fut : act.1.Fut) :
    (handler env act fut).wp (credit strict ok).spec ⟨false, 0, 0⟩ (fun _ g => g.debt = 0) :=
  keeps_handler env act fut _ _ (fun _ => le_refl (0 : Int)) fun _ _ s => s.1

theorem repliesOk {C : State kind → Env kind × Move → Prop}
    (hC : ∀ s e m, C s (e, m) → strict → NotInline e) : RepliesOk C (regOk strict) := by
  intro s e m o r hc hr
  cases o with
  | register act =>
    obtain rfl := Option.some.inj hr
    show regOk strict act _
    cases hk : e.reg act with
    | failed => trivial
    | async => trivial
    | inline =>
      cases strict with
      | true => exact absurd hk (hC s e m hc rfl act)
      | false => rfl
  | _ => trivial

end

end OpenairHss.AirProcessor

namespace OpenairHss.Requests

open ByteVec OpenairHss.Processor Hsssec Steps

/-- A step before which the counters have not wrapped around. -/
def InRange {K : Kind} (s : State K) : Prop :=
  s.core.m_dbissued < 2 ^ 32 ∧ s.core.m_msgissued < 2 ^ 32

/-- **At the end of a ULR or AIR processor nothing refers to it, and its counters are exact**, when
the later queries of the ULR's `phase1` can be issued and the queries that are counted late are
not answered inside their own call. -/
theorem nothing_in_flight {R : Type} (cipher : BlockCipher R)
    (kdf : List (BitVec 8) → List (BitVec 8) → Bytes 32) (env : AirProcessor.Surroundings R) :
    (∀ json req d s, Run (Ulr.code json req)
        (fun s l => InRange s ∧ Ulr.Issued l.1 ∧ Ulr.NotInline l.1) (State.init Ulr.phase1 d) s →
      ExactCounts s) ∧
    (∀ req d s, Run (AirProcessor.code cipher kdf env req)
        (fun s l => InRange s ∧ AirProcessor.NotInline l.1) (State.init AirProcessor.phase1 d) s →
      ExactCounts s) := by
  refine ⟨fun json req d s h => ?_, fun req d s h => ?_⟩
  · exact counters_strict (Ulr.repliesOk fun s e m hc => ⟨hc.2.1, fun _ => hc.2.2⟩)
      (fun s e hc => hc.1) (Ulr.body_balanced true json req) Ulr.handler_balanced h
  · exact counters_strict (AirProcessor.repliesOk fun s e m hc _ => hc.2)
      (fun s e hc => hc.1) (AirProcessor.body_balanced cipher kdf env req)
      (AirProcessor.handler_balanced env) h

/-- `InRange`, as a test. -/
def inRange {K : Kind} (s : State K) : Bool :=
  decide (s.core.m_dbissued < 2 ^ 32) && decide (s.core.m_msgissued < 2 ^ 32)

theorem inRange_iff {K : Kind} {s : State K} (h : inRange s = true) : InRange s := by
  obtain ⟨h1, h2⟩ := (Bool.and_eq_true_iff).mp h
  exact ⟨of_decide_eq_true h1, of_decide_eq_true h2⟩

theorem nothing_in_flight_samples :
    (∃ s, s.core.status = .deleted ∧ s.core.ran = [201, 202, 203, 204, 205] ∧
      ExactCounts (K := Ulr.kind) s) ∧
    (∃ s, s.core.status = .deleted ∧ s.core.ran = [301, 302, 303] ∧
      ExactCounts (K := AirProcessor.kind) s) := by
  obtain ⟨hu, ha⟩ := nothing_in_flight Air.xorCipher (fun _ _ _ => 0) sampleSurroundings
  refine ⟨⟨greedy (Ulr.code (fun _ => true) sampleUlr) sampleUlrEnv inRange workFirst 100
      (State.init Ulr.phase1 sampleUlrData), rfl, rfl, ?_⟩,
    ⟨greedy (AirProcessor.code Air.xorCipher (fun _ _ _ => 0) sampleSurroundings sampleAir)
      sampleAirEnv inRange workFirst 50 (State.init AirProcessor.phase1 sampleAirData), rfl, rfl,
      ?_⟩⟩
  · exact hu (fun _ => true) sampleUlr sampleUlrData _ (greedy_run (fun s m h =>
      ⟨inRange_iff h, fun _ => ⟨nofun, nofun, nofun⟩, fun _ => nofun⟩) _ _ _)
  · exact ha sampleAir sampleAirData _ (greedy_run (fun s m h =>
      ⟨inRange_iff h, fun _ => nofun⟩) _ _ _)

/-- The second query of a ULR cannot be issued. -/
def noExtIds : Env Ulr.kind :=
  { sampleUlrEnv with reg := fun act => if act.1 = .getExtIds then .failed else .async }

/-- The ULR is answered and its processor deleted while the callback of its first query is still
registered. -/
theorem deleted_in_flight :
    ∃ s, Run (Ulr.code (fun _ => true) sampleUlr) (fun _ _ => True)
        (State.init Ulr.phase1 sampleUlrData) s ∧
      s.core.status = .deleted ∧ s.core.pending.map (·.1) = [.getImsiInfo] ∧ ¬ ExactCounts s := by
  refine ⟨greedy (Ulr.code (fun _ => true) sampleUlr) noExtIds (fun _ => true) [.work, .loop, .take]
    50 (State.init Ulr.phase1 sampleUlrData), greedy_run (fun _ _ _ => trivial) _ _ _, rfl, rfl,
    fun h => ?_⟩
  exact absurd (h.deleted rfl).1 (List.cons_ne_nil _ _)

end OpenairHss.Requests
