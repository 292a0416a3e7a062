import OpenairHss.Processor.Owed
import OpenairHss.Processor.Slots
import OpenairHss.Requests.InFlight
import OpenairHss.Ulr.Watch

/-!
# The end of a ULR

Two things let a ULR end: the bits that its next phase waits for are set when nothing is running any
more (`ulr_bits`, for all bits but that of the events), and the bit of the events is set, which only
the callbacks of the event ids do, and only while no event id has arrived (`ulr_paid`).

`completed`: a ULR that has reached `phase2` and to which nothing refers any more has been answered
once and is deleted, if no callback throws and events are either not needed, or no event id arrives
and one of the two queries for event ids succeeds.
-/

namespace OpenairHss.Ulr

open Interact Processor Diameter

/-! ### What the callbacks set -/

/-- The bits that the callback of a call sets.  That of the event ids of external identifiers sets
the bit of the other query for event ids, and that of events sets none. -/
def settles : Db → BitVec 32
  | .getEvntidsExtids => Db.getEvntidsMsisdn.item
  | .getEvntsEvntids => 0
  | db => db.item

/-- The query for the subscriber does not end in an error. -/
def Readable : (act : Db × String) → act.1.Fut → Prop
  | (.getImsiInfo, _), fut => fut ≠ (none : Option (Option ImsiInfoRow))
  | _, _ => True

/-- A callback that runs inside its call has such a future. -/
def ReadableReg : (act : Db × String) → Reg act.1.Fut → Prop
  | act, .immediate fut => Readable act fut
  | _, _ => True

/-- The bits that are due when a phase is the next one; `phase3` waits for another bit, too. -/
def need (phase : Nat) : BitVec 32 :=
  if phase = phase2 then
    Db.getImsiInfo.item ||| Db.getEvntidsMsisdn.item ||| Db.getMmeidHost.item
  else if phase = phase3 then Db.getEvntidsMsisdn.item ||| Db.getMmeidHost.item
  else if phase = phase4 then Db.getMmeidHost.item
  else if phase = phase5 then Db.updateImsi.item
  else 0

/-- The promises of a ULR processor. -/
def terms (d : Data) : Terms kind where
  promise act := settles act.1
  need := need
  phaseOk _ := True
  regOk := ReadableReg
  futOk := Readable
  first := phase1
  data := d

section Oaths

variable {d : Data} {g g' g'' : Oath kind} {x u v : BitVec 32} {α β : Type}

/-- A thread has set the bits `x`, and knows that the bits `u` are due. -/
structure After (x u : BitVec 32) (g g' : Oath kind) : Prop where
  inLoop : g'.inLoop = g.inLoop
  phase : g'.phase = g.phase
  promise : ∀ b, g'.promise.getLsbD b = true → g.promise.getLsbD b = true ∧ x.getLsbD b = false
  due : ∀ b, g.due.getLsbD b = true ∨ u.getLsbD b = true → g'.due.getLsbD b = true

theorem After.refl (g : Oath kind) : After 0 0 g g :=
  ⟨rfl, rfl, fun _ h => ⟨h, by simp⟩, fun _ h => h.resolve_right not_getLsbD_zero⟩

theorem After.left (h : After x u g g') (h' : After 0 0 g' g'') : After x u g g'' :=
  ⟨h'.inLoop.trans h.inLoop, h'.phase.trans h.phase, fun b hb => h.promise b (h'.promise b hb).1,
    fun b hb => h'.due b (Or.inl (h.due b hb))⟩

theorem After.right (h : After 0 0 g g') (h' : After x u g' g'') : After x u g g'' :=
  ⟨h'.inLoop.trans h.inLoop, h'.phase.trans h.phase,
    fun b hb => ⟨(h.promise b (h'.promise b hb).1).1, (h'.promise b hb).2⟩,
    fun b hb => h'.due b (hb.imp_left fun hb => h.due b (Or.inl hb))⟩

theorem After.weaken (h : After x u g g') : After 0 0 g g' :=
  ⟨h.inLoop, h.phase, fun b hb => ⟨(h.promise b hb).1, by simp⟩,
    fun b hb => h.due b (Or.inl (hb.resolve_right not_getLsbD_zero))⟩

/-- A piece of code that sets these bits. -/
def Sets (d : Data) (x : BitVec 32) (p : Proc kind α) : Prop :=
  (oathGhost (terms d)).Does (After x x) p

theorem sets_ret (a : α) : Sets d 0 (.ret a) := Ghost.does_ret After.refl a

theorem sets_left {p : Proc kind α} {f : α → Proc kind β} (hp : Sets d x p)
    (hf : ∀ a, Sets d 0 (f a)) : Sets d x (p >>= f) :=
  Ghost.does_bind (fun g g' g'' (h : After x x g g') (h' : After 0 0 g' g'') => h.left h') hp hf

theorem sets_right {p : Proc kind α} {f : α → Proc kind β} (hp : Sets d 0 p)
    (hf : ∀ a, Sets d x (f a)) : Sets d x (p >>= f) :=
  Ghost.does_bind (fun g g' g'' (h : After 0 0 g g') (h' : After x x g' g'') => h.right h') hp hf

theorem Sets.weaken {p : Proc kind α} (h : Sets d x p) : Sets d 0 p :=
  h.mono fun _ _ => After.weaken

/-- The operations that set no bit. -/
def Op.still : Op kind → Bool
  | .executed _ | .register _ | .setPhase _ | .throw => false
  | _ => true

theorem sets_call {o : Op kind} (ho : Op.still o = true) : Sets d 0 (call o) := by
  intro g Q h
  refine Ghost.wp_call ?_ fun r _ => h r _ ?_
  · cases o <;> first | exact trivial | cases ho
  · cases o <;> first
      | exact ⟨rfl, rfl, fun _ h => ⟨h, by simp⟩, fun _ h => h.resolve_right not_getLsbD_zero⟩
      | cases ho

theorem sets_executed (item : BitVec 32) : Sets d item (completeExecuted item : Proc kind Unit) := by
  intro g Q h
  refine Ghost.wp_call trivial fun r _ => h r _ ⟨rfl, rfl, fun b hb => getLsbD_and_not hb, fun b hb => ?_⟩
  exact getLsbD_or_iff.mpr hb

theorem sets_dbOpComplete (item : BitVec 32) (success : Bool) :
    Sets d item (dbOpComplete item success : Proc kind Unit) :=
  sets_right (sets_call rfl) fun _ => sets_executed item

theorem sets_failAll : ∀ items : List (BitVec 32), Sets d 0 (failAll items : Proc kind Unit)
  | [] => sets_ret _
  | item :: items => sets_right (sets_dbOpComplete item false).weaken fun _ => sets_failAll items

/-- A call: if it succeeds the bits that its callback sets are due. -/
theorem wp_issueOath {act : Db × String} {handler : act.1.Fut → Proc kind Unit}
    {Q : Bool → Oath kind → Prop}
    (hh : ∀ fut, Readable act fut → Sets d (settles act.1) (handler fut))
    (hQ : ∀ b g', After 0 (if b then settles act.1 else 0) g g' → Q b g') :
    (issue (K := kind) act handler).wp (oathGhost (terms d)).spec g Q := by
  refine Ghost.wp_bind (Ghost.wp_call trivial fun r hr => ?_)
  cases r with
  | failed => exact hQ _ _ (.refl g)
  | registered =>
    exact hQ _ _ ⟨rfl, rfl, fun _ h => ⟨h, by simp⟩, fun _ h => getLsbD_or_iff.mpr h⟩
  | immediate fut =>
    refine Ghost.wp_bind (hh fut hr _ _ fun _ g' hg' => Ghost.wp_then trivial fun _ _ => hQ _ _ ?_)
    exact ⟨hg'.inLoop, hg'.phase, fun b hb => ⟨(hg'.promise b hb).1, by simp⟩, hg'.due⟩

theorem wp_issueCountedOath {act : Db × String} {handler : act.1.Fut → Proc kind Unit}
    {items : List (BitVec 32)} {Q : Bool → Oath kind → Prop}
    (hh : ∀ fut, Readable act fut → Sets d (settles act.1) (handler fut))
    (hQ : ∀ b g', After 0 (if b then settles act.1 else 0) g g' → Q b g') :
    (issueCounted (K := kind) act handler items).wp (oathGhost (terms d)).spec g Q := by
  refine Ghost.wp_bind (sets_call rfl _ _ fun _ g₁ h₁ => Ghost.wp_bind (wp_issueOath hh ?_))
  intro b g₂ h₂
  cases b with
  | true => exact hQ true g₂ (h₁.right h₂)
  | false =>
    refine Ghost.wp_bind (sets_failAll items _ _ fun _ g₃ h₃ =>
      Ghost.wp_then trivial fun _ _ => hQ false _ ?_)
    exact (h₁.right h₂).left h₃

theorem sets_issueCounted {act : Db × String} {handler : act.1.Fut → Proc kind Unit}
    {items : List (BitVec 32)}
    (hh : ∀ fut, Readable act fut → Sets d (settles act.1) (handler fut)) :
    Sets d 0 (issueCounted (K := kind) act handler items) :=
  fun _ _ hQ => wp_issueCountedOath hh fun b _ h => hQ b _ h.weaken

end Oaths

/-! ### Result handlers -/

section Handlers

variable {d : Data}

theorem sets_onImsiInfo {fut : Option (Option ImsiInfoRow)} (hf : fut ≠ none) :
    Sets d Db.getImsiInfo.item (onImsiInfo fut) := by
  match fut, hf with
  | some none, _ => exact sets_dbOpComplete _ _
  | some (some row), _ => exact sets_right (sets_call rfl) fun _ => sets_dbOpComplete _ _

theorem sets_eventsLoop : ∀ ids scef_id refs, Sets d 0 (eventsLoop ids scef_id refs) := by
  have hevents : ∀ fut : Option (List Event), Sets d 0 (onEvents fut) := fun _ => sets_call rfl
  intro ids
  induction ids with
  | nil =>
    intro scef_id refs
    unfold eventsLoop
    split
    · exact sets_right (sets_issueCounted fun fut _ => hevents fut) fun _ => sets_ret _
    · exact sets_ret _
  | cons ei rest ih =>
    intro scef_id refs
    unfold eventsLoop
    split
    · refine sets_right (sets_issueCounted fun fut _ => hevents fut) fun success => ?_
      split
      · exact ih _ _
      · exact sets_ret _
    · exact ih _ _

theorem sets_getEvents : Sets d 0 getEvents := by
  refine sets_right (sets_call rfl) fun d₁ => ?_
  split
  · exact (sets_dbOpComplete _ _).weaken
  · exact sets_right (sets_call rfl) fun _ => sets_right (sets_call rfl) fun _ =>
      sets_eventsLoop _ _ _

theorem sets_onEventIds (item : BitVec 32) (fut : Option (List EventId)) :
    Sets d item (onEventIds item fut) := by
  refine sets_right (sets_call rfl) fun _ => sets_right (sets_call rfl) fun _ =>
    sets_left (sets_dbOpComplete item _) fun _ => sets_right (sets_call rfl) fun x =>
    sets_right (sets_call rfl) fun r => sets_right (sets_call rfl) fun _ => ?_
  split
  · exact sets_getEvents
  · exact sets_ret _

theorem sets_onExternalIds (fut : Option (List String)) :
    Sets d Db.getExtIds.item (onExternalIds fut) := by
  refine sets_right (sets_call rfl) fun _ => sets_left (sets_dbOpComplete _ _) fun _ => ?_
  split
  · exact sets_right (sets_call rfl) fun d₁ => sets_right
      (sets_issueCounted fun fut _ => sets_onEventIds _ fut) fun _ => sets_ret _
  · exact (sets_dbOpComplete _ _).weaken

theorem sets_onMmeIdentity (fut : Option (Option (Option Int))) :
    Sets d Db.getMmeidHost.item (onMmeIdentity fut) := by
  match fut with
  | none => exact sets_dbOpComplete _ _
  | some none => exact sets_dbOpComplete _ _
  | some (some id) => exact sets_right (sets_call rfl) fun _ => sets_dbOpComplete _ _

/-- **Every callback sets its bits**, if it can read its future. -/
theorem sets_handler (act : Db × String) (fut : act.1.Fut) (hf : Readable act fut) :
    Sets d (settles act.1) (handler act fut) := by
  obtain ⟨db, text⟩ := act
  cases db with
  | getImsiInfo => exact sets_onImsiInfo hf
  | getExtIds => exact sets_onExternalIds fut
  | getEvntidsMsisdn => exact sets_onEventIds _ fut
  | getEvntidsExtids => exact sets_onEventIds _ fut
  | getEvntsEvntids => exact sets_call rfl
  | getMmeidHost => exact sets_onMmeIdentity fut
  | updateImsi => exact sets_dbOpComplete _ _

theorem handler_kept (act : Db × String) (fut : act.1.Fut) (hf : Readable act fut) :
    (handler act fut).wp (oathGhost (terms d)).spec ((terms d).task act)
      (fun _ g => g.promise = 0) := by
  refine sets_handler act fut hf _ _ fun _ g hg => BitVec.eq_of_getLsbD_eq fun b _ => ?_
  cases hb : g.promise.getLsbD b with
  | false => simp
  | true =>
    obtain ⟨h1, h2⟩ := hg.promise b hb
    exact absurd (h1.symm.trans h2) nofun

end Handlers

/-! ### Phases -/

section Phases

variable {d : Data} {g : Oath kind}

/-- A phase that ends with what the next one needs. -/
theorem atEnd_of_due (hp : g.phase ≠ phase1)
    (hd : ∀ b, (need g.phase).getLsbD b = true → g.due.getLsbD b = true) : g.AtEnd (terms d) :=
  ⟨hd, fun h => absurd h hp⟩

theorem atEnd_final (hp : g.phase = phaseFinal) : g.AtEnd (terms d) := by
  refine atEnd_of_due (by rw [hp]; decide) fun b hb => ?_
  rw [hp] at hb
  exact absurd hb not_getLsbD_zero

theorem wp_rejectOath {r : Rejection} (hl : g.inLoop = true) :
    (reject r).wp (oathGhost (terms d)).spec g (fun _ g => g.AtEnd (terms d)) :=
  Ghost.wp_then trivial fun _ _ => Ghost.wp_call ⟨hl, trivial⟩ fun _ _ => atEnd_final rfl

/-- What is left of `phase1` when its first query has been made. -/
theorem phase1_rest (d₁ : Data) (hl : g.inLoop = true) (hp : g.phase = phase2) (result : Bool)
    (hdue : result = true → ∀ b, Db.getImsiInfo.item.getLsbD b = true → g.due.getLsbD b = true) :
    (do
      let result ← phase1ExtIds d₁ result
      let result ← phase1EventIds d₁ result
      let result ← phase1MmeId d₁ result
      if result then incDbissued
      else reject (d₁.ans, .experimental diameterErrorUserUnknown)).wp
        (oathGhost (terms d)).spec g (fun _ g => g.AtEnd (terms d)) := by
  have hreject : ∀ {g' : Oath kind}, After 0 0 g g' →
      (reject (d₁.ans, .experimental diameterErrorUserUnknown)).wp (oathGhost (terms d)).spec g'
        (fun _ g => g.AtEnd (terms d)) := fun h => wp_rejectOath (h.inLoop.trans hl)
  cases result with
  | false =>
    refine Ghost.wp_bind (Ghost.wp_bind (sets_dbOpComplete _ _ _ _ fun _ g₁ h₁ => ?_))
    exact Ghost.wp_bind (Ghost.wp_bind (hreject h₁.weaken))
  | true =>
    refine Ghost.wp_bind (wp_issueCountedOath (fun fut _ => sets_onExternalIds fut) fun b g₁ h₁ => ?_)
    cases b with
    | false => exact Ghost.wp_bind (Ghost.wp_bind (hreject h₁.weaken))
    | true =>
      refine Ghost.wp_bind (wp_issueCountedOath (fun fut _ => sets_onEventIds _ fut) fun b g₂ h₂ => ?_)
      have e₂ := h₁.weaken.right h₂
      cases b with
      | false => exact Ghost.wp_bind (hreject e₂.weaken)
      | true =>
        refine Ghost.wp_bind (wp_issueCountedOath (fun fut _ => sets_onMmeIdentity fut)
          fun b g₃ h₃ => ?_)
        cases b with
        | false => exact hreject (e₂.weaken.right h₃).weaken
        | true =>
          have hphase : g₃.phase = phase2 := h₃.phase.trans (e₂.phase.trans hp)
          have hend : g₃.AtEnd (terms d) := by
            refine atEnd_of_due (by rw [hphase]; decide) fun b hb => ?_
            rw [hphase] at hb
            have hb : (Db.getImsiInfo.item ||| Db.getEvntidsMsisdn.item |||
              Db.getMmeidHost.item).getLsbD b = true := hb
            rcases getLsbD_or_iff.mp hb with hb | hb
            · refine h₃.due b (Or.inl ?_)
              rcases getLsbD_or_iff.mp hb with hb | hb
              · exact e₂.due b (Or.inl (hdue rfl b hb))
              · exact e₂.due b (Or.inr hb)
            · exact h₃.due b (Or.inr hb)
          exact Ghost.wp_call trivial fun _ _ => hend

theorem phase1Body_kept (req : Request) :
    (phase1Body req).wp (oathGhost (terms d)).spec ((terms d).begin phase1)
      (fun _ g => g.AtEnd (terms d)) := by
  refine Ghost.wp_then trivial fun _ _ => Ghost.wp_then trivial fun d₁ _ => ?_
  split
  · exact wp_rejectOath rfl
  refine Ghost.wp_then trivial fun _ _ => Ghost.wp_then trivial fun d₂ _ =>
    Ghost.wp_then ⟨rfl, trivial⟩ fun _ _ =>
    Ghost.wp_bind (wp_issueOath (fun fut hf => sets_onImsiInfo hf) fun b g₁ h₁ => ?_)
  refine phase1_rest d₂ h₁.inLoop h₁.phase b fun hb c hc => h₁.due c (Or.inr ?_)
  rw [hb]
  exact hc

theorem sets_callAddAvps (r : Except Rejection Data) : Sets d 0 (callAddAvps r) := by
  unfold callAddAvps
  split
  · split
    · exact sets_right (sets_call rfl) fun _ => sets_ret _
    · exact sets_ret _
  · exact sets_ret _

theorem phase2Body_kept (json : String → Bool) (req : Request) :
    (phase2Body json req).wp (oathGhost (terms d)).spec ((terms d).begin phase2)
      (fun _ g => g.AtEnd (terms d)) := by
  refine Ghost.wp_then trivial fun result _ => Ghost.wp_then trivial fun d₁ _ => ?_
  split
  · exact wp_rejectOath rfl
  refine Ghost.wp_bind (sets_callAddAvps _ _ _ fun _ g₁ h₁ => ?_)
  split
  · exact wp_rejectOath h₁.inLoop
  · refine Ghost.wp_then trivial fun _ _ => Ghost.wp_call ⟨h₁.inLoop, trivial⟩ fun _ _ => ?_
    refine atEnd_of_due (by decide : phase3 ≠ phase1) fun b hb => ?_
    have hb : (Db.getEvntidsMsisdn.item ||| Db.getMmeidHost.item).getLsbD b = true := hb
    refine h₁.due b (Or.inl ?_)
    show (Db.getImsiInfo.item ||| Db.getEvntidsMsisdn.item ||| Db.getMmeidHost.item).getLsbD b = true
    rw [BitVec.or_assoc]
    exact getLsbD_or_iff.mpr (Or.inr hb)

theorem sets_askEventIds : ∀ extids, Sets d 0 (askEventIds extids)
  | [] => sets_ret _
  | _ :: rest => sets_right (sets_call rfl) fun _ => sets_right (sets_call rfl) fun _ =>
      sets_askEventIds rest

theorem sets_askEvents : ∀ ids, Sets d 0 (askEvents ids)
  | [] => sets_ret _
  | _ :: rest => sets_right (sets_call rfl) fun _ => sets_right (sets_call rfl) fun _ =>
      sets_askEvents rest

theorem sets_addEvents : ∀ events, Sets d 0 (addEvents events)
  | [] => sets_ret _
  | _ :: rest => sets_right (sets_call rfl) fun _ => sets_right (sets_call rfl) fun _ =>
      sets_addEvents rest

theorem sets_collectEvents (d₁ : Data) : Sets d 0 (collectEvents d₁) := by
  unfold collectEvents
  split
  · exact sets_right (sets_askEventIds _) fun _ => sets_right (sets_call rfl) fun _ =>
      sets_right (sets_askEvents _) fun _ => sets_right (sets_call rfl) fun _ => sets_addEvents _
  · exact sets_ret _

theorem sets_reportRoaming (d₁ : Data) : Sets d 0 (reportRoaming d₁) := by
  unfold reportRoaming
  split
  · exact sets_call rfl
  · exact sets_ret _

theorem phase3Body_kept :
    phase3Body.wp (oathGhost (terms d)).spec ((terms d).begin phase3)
      (fun _ g => g.AtEnd (terms d)) := by
  refine Ghost.wp_then trivial fun d₁ _ => Ghost.wp_bind (sets_collectEvents d₁ _ _ fun _ g₁ h₁ => ?_)
  refine Ghost.wp_then trivial fun d₂ _ => Ghost.wp_then trivial fun _ _ =>
    Ghost.wp_bind (sets_reportRoaming d₂ _ _ fun _ g₂ h₂ => ?_)
  refine Ghost.wp_call ⟨h₂.inLoop.trans h₁.inLoop, trivial⟩ fun _ _ => ?_
  refine atEnd_of_due (by decide : phase4 ≠ phase1) fun b hb => ?_
  refine h₂.due b (Or.inl (h₁.due b (Or.inl ?_)))
  exact getLsbD_or_iff.mpr (Or.inr hb)

theorem phase4Body_kept :
    phase4Body.wp (oathGhost (terms d)).spec ((terms d).begin phase4)
      (fun _ g => g.AtEnd (terms d)) := by
  refine Ghost.wp_then ⟨rfl, trivial⟩ fun _ _ => Ghost.wp_then trivial fun _ _ =>
    Ghost.wp_then trivial fun d₁ _ =>
    Ghost.wp_bind (wp_issueCountedOath (fun fut _ => sets_dbOpComplete _ _) fun b g₁ h₁ => ?_)
  cases b with
  | false => exact Ghost.wp_call ⟨h₁.inLoop, trivial⟩ fun _ _ => atEnd_final rfl
  | true =>
    have hphase : g₁.phase = phase5 := h₁.phase
    refine atEnd_of_due (by rw [hphase]; decide) fun b hb => h₁.due b (Or.inr ?_)
    rw [hphase] at hb
    exact hb

theorem body_kept (json : String → Bool) (req : Request) (phase : Nat) (x : BitVec 32) (d₁ : Data)
    (hr : ready phase x d₁ = true) :
    (body json req phase).wp (oathGhost (terms d)).spec ((terms d).begin phase)
      (fun _ g => g.AtEnd (terms d)) := by
  rcases ready_phase hr with rfl | rfl | rfl | rfl | rfl
  · exact phase1Body_kept req
  · exact phase2Body_kept json req
  · exact phase3Body_kept
  · exact phase4Body_kept
  · exact Ghost.wp_call ⟨rfl, trivial⟩ fun _ _ => atEnd_final rfl

end Phases

/-! ### What the threads owe -/

/-- The bits of the two queries for event ids, which the callbacks of both test. -/
def bothIds : BitVec 32 := Db.getEvntidsMsisdn.item ||| Db.getEvntidsExtids.item

/-- The bit of the event ids is set and that of the events is not. -/
def Between (c : Core kind) : Prop :=
  flagIsSet c.m_dbexecuted Db.getEvntidsMsisdn.item = true ∧
    flagIsSet c.m_dbexecuted Db.getEvntsEvntids.item = false

/-- In between no event id has arrived. -/
def NoIds (c : Core kind) : Prop := Between c → Data.evtIdLst c.data = []

/-- And no query has failed. -/
def Unspoilt (c : Core kind) : Prop := Between c → c.m_dbresult &&& bothIds ≠ 0

/-- The bit of the events, if it is waited for. -/
def eventsBit (strict : Bool) : BitVec 32 := if strict then Db.getEvntsEvntids.item else 0

/-- The callback of the event ids owes the bit of the events, unless an event id or a query that has
failed shows that it is set.  And nothing is asked about events before it is set. -/
def dues (strict : Bool) : Dues kind where
  promise act := settles act.1
  before act := if act.1 = .getEvntsEvntids then Db.getEvntsEvntids.item else 0
  first := Db.getEvntidsMsisdn.item
  second := eventsBit strict
  byData d := if Data.evtIdLst d = [] then 0 else Db.getEvntsEvntids.item
  byResult r := if r &&& bothIds = 0 then eventsBit strict else 0

section Debts

variable {strict : Bool} {g : Debt}

theorem dues_assumed {C : State kind → Env kind × Move → Prop}
    (hC : ∀ s l, C s l → NoIds s.core ∧ (strict = true → Unspoilt s.core)) :
    (dues strict).Assumed C := by
  intro s l hc hfirst b hb
  obtain ⟨hids, hbits⟩ := hC s l hc
  have hset : flagIsSet s.core.m_dbexecuted Db.getEvntsEvntids.item = true →
      Db.getEvntsEvntids.item.getLsbD b = true → s.core.m_dbexecuted.getLsbD b = true := by
    intro hflag hb
    have h4 : b = 4 := by
      rw [show Db.getEvntsEvntids.item = BitVec.twoPow 32 4 from rfl, BitVec.getLsbD_twoPow] at hb
      exact (of_decide_eq_true (Bool.and_eq_true_iff.mp hb).2).symm
    rw [h4]
    exact getLsbD_of_flagIsSet hflag
  have hbetween : ¬ Between s.core → flagIsSet s.core.m_dbexecuted Db.getEvntsEvntids.item = true :=
    fun hno => Bool.eq_true_of_not_eq_false fun hf => hno ⟨bne_iff_ne.mpr hfirst, hf⟩
  rcases hb with hb | hb
  · change (if Data.evtIdLst s.core.data = [] then 0 else Db.getEvntsEvntids.item).getLsbD b = true
      at hb
    split at hb
    case isTrue => exact absurd hb not_getLsbD_zero
    case isFalse hne => exact hset (hbetween fun hbt => hne (hids hbt)) hb
  · change (if s.core.m_dbresult &&& bothIds = 0 then eventsBit strict else 0).getLsbD b = true at hb
    split at hb
    case isFalse => exact absurd hb not_getLsbD_zero
    case isTrue hz =>
      cases strict with
      | false => exact absurd hb not_getLsbD_zero
      | true => exact hset (hbetween fun hbt => hbits rfl hbt hz) hb

theorem follow_item {db : Db} (h : db ≠ .getEvntidsMsisdn) : (dues strict).follow db.item = 0 := by
  have hand : ∀ db : Db, db ≠ .getEvntidsMsisdn → db.item &&& Db.getEvntidsMsisdn.item = 0 := by
    intro db h
    cases db <;> first | decide | exact absurd rfl h
  exact if_pos (hand db h)

theorem pays_item (db : Db) (success : Bool) (h : db ≠ .getEvntidsMsisdn) :
    Pays (dues strict) db.item (dbOpComplete db.item success) :=
  pays_dbOpComplete (follow_item h) success

/-- The bit of the event ids, and then that of the events. -/
theorem wp_first {rest : Proc kind Unit} {success : Bool} {Q : Unit → Debt → Prop}
    (hrest : ∀ g', (∀ b, Db.getEvntidsMsisdn.item.getLsbD b = true → g'.sure.getLsbD b = true) →
      ∀ Q' : Unit → Debt → Prop, (∀ a g'', g'.Less (eventsBit strict) g'' → Q' a g'') →
        rest.wp (debtGhost (dues strict)).spec g' Q')
    (hQ : ∀ a g', g.Less Db.getEvntidsMsisdn.item g' → Q a g') :
    (dbOpComplete (K := kind) Db.getEvntidsMsisdn.item success >>= fun _ => rest).wp
      (debtGhost (dues strict)).spec g Q := by
  have hself : Db.getEvntidsMsisdn.item &&& Db.getEvntidsMsisdn.item ≠ 0 := by decide
  have hfollow : (dues strict).follow Db.getEvntidsMsisdn.item = eventsBit strict := if_neg hself
  refine Ghost.wp_bind (Ghost.wp_then trivial fun _ _ => Ghost.wp_call trivial fun _ _ => ?_)
  refine hrest _ (fun b hb => getLsbD_or_iff.mpr (Or.inr hb)) _ fun a g' hg' => hQ a g' ⟨?_, ?_⟩
  · intro b hb
    obtain ⟨hand, hnot⟩ := hg'.owe b hb
    obtain ⟨hor, hb'⟩ := getLsbD_and_not hand
    rw [hfollow] at hor
    refine ⟨(getLsbD_or_iff.mp hor).resolve_right fun h => ?_, hb'⟩
    exact absurd (h.symm.trans hnot) nofun
  · intro b hb
    exact hg'.sure b (getLsbD_or_iff.mpr (Or.inl hb))

/-! ### Result handlers -/

theorem owed_eventsLoop : ∀ ids scef_id refs g (Q : Unit → Debt → Prop),
    (∀ b, Db.getEvntsEvntids.item.getLsbD b = true → g.sure.getLsbD b = true) →
    (∀ a g', g.Less 0 g' → Q a g') →
    (eventsLoop ids scef_id refs).wp (debtGhost (dues strict)).spec g Q := by
  have hissue : ∀ scef_id refs (g : Debt) (Q : Bool → Debt → Prop),
      (∀ b, Db.getEvntsEvntids.item.getLsbD b = true → g.sure.getLsbD b = true) →
      (∀ a g', g.Less 0 g' → Q a g') →
      (issueEvents scef_id refs).wp (debtGhost (dues strict)).spec g Q := by
    intro scef_id refs g Q hsure hQ
    have hh : ∀ fut, Pays (dues strict) 0 (onEvents fut) := fun fut => pays_call (show
      Db.getEvntsEvntids.item &&& Db.getEvntidsMsisdn.item = 0 by decide)
    refine Ghost.wp_bind (Ghost.wp_call trivial fun _ _ => Ghost.wp_bind
      (wp_issueOwed hsure hh fun success g₁ h₁ => ?_))
    cases success with
    | true => exact hQ true g₁ h₁
    | false =>
      refine Ghost.wp_bind (pays_failAll (fun item hi => ?_) _ _ fun _ g₂ h₂ =>
        Ghost.wp_then trivial fun _ _ => hQ false _ (h₁.trans_left h₂))
      rw [List.mem_singleton.mp hi]
      exact follow_item (by decide)
  intro ids
  induction ids with
  | nil =>
    intro scef_id refs g Q hsure hQ
    unfold eventsLoop
    split
    · exact Ghost.wp_bind (hissue _ _ _ _ hsure fun _ g₁ h₁ => hQ _ g₁ h₁)
    · exact hQ _ _ (.refl g)
  | cons ei rest ih =>
    intro scef_id refs g Q hsure hQ
    unfold eventsLoop
    split
    · refine Ghost.wp_bind (hissue _ _ _ _ hsure fun success g₁ h₁ => ?_)
      split
      · exact ih _ _ _ _ (fun b hb => h₁.sure b (hsure b hb)) fun a g₂ h₂ =>
          hQ a g₂ (h₁.trans_left h₂)
      · exact hQ _ _ h₁
    · exact ih _ _ _ _ hsure hQ

theorem shown_of_sure (hsure : g.sure.getLsbD 2 = true) (bits : BitVec 32) :
    (dues strict).shown g bits = bits := by
  have h2 : Db.getEvntidsMsisdn.item.getLsbD 2 = true := by decide
  exact if_neg (and_ne_zero hsure h2)

/-- If there are no event ids the bit of the events is set, and otherwise it is set already. -/
theorem owed_getEvents {Q : Unit → Debt → Prop} (hsure : g.sure.getLsbD 2 = true)
    (hQ : ∀ a g', g.Less Db.getEvntsEvntids.item g' → Q a g') :
    getEvents.wp (debtGhost (dues strict)).spec g Q := by
  refine Ghost.wp_then trivial fun d _ => ?_
  split
  case isTrue hnil =>
    refine pays_item .getEvntsEvntids true (by decide) _ _ fun a g₁ h₁ => hQ a g₁ ?_
    exact (less_learn g _).weaken.trans_right h₁
  case isFalse hne =>
    have hbits : (dues strict).byData d = Db.getEvntsEvntids.item :=
      if_neg fun hnil => hne (by rw [hnil]; rfl)
    have hlearn : g.Less Db.getEvntsEvntids.item (g.learn Db.getEvntsEvntids.item) := less_learn g _
    show (_ >>= _ : Proc kind Unit).wp _
      (g.learn ((dues strict).shown g ((dues strict).byData d))) Q
    rw [shown_of_sure hsure, hbits]
    refine Ghost.wp_then trivial fun _ _ => Ghost.wp_then trivial fun d₁ _ =>
      owed_eventsLoop _ _ _ _ _ (fun b hb => ?_) fun a g₁ h₁ => hQ a g₁ ?_
    · exact getLsbD_or_iff.mpr (Or.inl (getLsbD_or_iff.mpr (Or.inr hb)))
    · exact (hlearn.trans_left (less_learn _ _).weaken).trans_left h₁

theorem less_eventsBit {g g' : Debt} (h : g.Less Db.getEvntsEvntids.item g') :
    g.Less (eventsBit strict) g' := by
  cases strict with
  | true => exact h
  | false => exact h.weaken

theorem pays_onEventIds (fut : Option (List EventId)) :
    Pays (dues strict) Db.getEvntidsMsisdn.item (onEventIds Db.getEvntidsMsisdn.item fut) := by
  intro g Q hQ
  refine Ghost.wp_then trivial fun _ _ => Ghost.wp_then trivial fun _ _ =>
    wp_first (fun g' hsure Q' hQ' => ?_) hQ
  refine Ghost.wp_then trivial fun (x : BitVec 32) hx => Ghost.wp_then trivial
    fun (r : BitVec 32) _ => Ghost.wp_then trivial fun _ _ => ?_
  have hx : x &&& bothIds ≠ 0 := and_ne_zero (b := 2) (hx 2 (hsure 2 rfl)) rfl
  show (if ((x &&& bothIds) != 0 && (r &&& bothIds) != 0) = true then getEvents else .ret ()).wp
    _ (g'.learn ((dues strict).shown g' ((dues strict).byResult r))) Q'
  rw [shown_of_sure (hsure 2 rfl)]
  by_cases hr : r &&& bothIds = 0
  · -- a query has failed, so the bit of the events is set
    have hbits : (dues strict).byResult r = eventsBit strict := if_pos hr
    have hfalse : ((x &&& bothIds) != 0 && (r &&& bothIds) != 0) = false := by simp [hr]
    rw [hfalse, hbits]
    exact hQ' _ _ (less_learn g' _)
  · have htrue : ((x &&& bothIds) != 0 && (r &&& bothIds) != 0) = true :=
      Bool.and_eq_true_iff.mpr ⟨bne_iff_ne.mpr hx, bne_iff_ne.mpr hr⟩
    rw [if_pos htrue]
    exact owed_getEvents (getLsbD_or_iff.mpr (Or.inl (hsure 2 rfl))) fun a g₁ h₁ =>
      hQ' a g₁ ((less_learn g' _).weaken.trans_right (less_eventsBit h₁))

theorem pays_onImsiInfo (fut : Option (Option ImsiInfoRow)) :
    Pays (dues strict) Db.getImsiInfo.item (onImsiInfo fut) := by
  match fut with
  | none => exact fun g Q _ => ⟨trivial, nofun⟩
  | some none => exact pays_item .getImsiInfo _ (by decide)
  | some (some row) =>
    exact pays_right (pays_call trivial) fun _ => pays_item .getImsiInfo _ (by decide)

theorem pays_failed (dbs : List Db) (h : Db.getEvntidsMsisdn ∉ dbs) :
    Pays (dues strict) 0 (failAll (K := kind) (dbs.map Db.item)) := by
  refine pays_failAll fun item hi => ?_
  obtain ⟨db, hdb, rfl⟩ := List.mem_map.mp hi
  exact follow_item fun heq => h (heq ▸ hdb)

theorem pays_onExternalIds (fut : Option (List String)) :
    Pays (dues strict) Db.getExtIds.item (onExternalIds fut) := by
  refine pays_right (pays_call trivial) fun _ => pays_left (pays_item .getExtIds _ (by decide)) fun _ => ?_
  split
  · exact pays_right (pays_call trivial) fun d => pays_right
      (pays_counted rfl (fun fut => pays_onEventIds fut)
        (pays_failed [.getEvntidsExtids, .getEvntsEvntids] (by decide)))
      fun _ => pays_ret _
  · exact (pays_item .getEvntidsExtids _ (by decide)).weaken

theorem pays_onMmeIdentity (fut : Option (Option (Option Int))) :
    Pays (dues strict) Db.getMmeidHost.item (onMmeIdentity fut) := by
  match fut with
  | none => exact pays_item .getMmeidHost _ (by decide)
  | some none => exact pays_item .getMmeidHost _ (by decide)
  | some (some id) =>
    exact pays_right (pays_call trivial) fun _ => pays_item .getMmeidHost _ (by decide)

/-- **Every callback pays what it owes.** -/
theorem pays_handler (act : Db × String) (fut : act.1.Fut) :
    Pays (dues strict) (settles act.1) (handler act fut) := by
  obtain ⟨db, text⟩ := act
  cases db with
  | getImsiInfo => exact pays_onImsiInfo fut
  | getExtIds => exact pays_onExternalIds fut
  | getEvntidsMsisdn => exact pays_onEventIds fut
  | getEvntidsExtids => exact pays_onEventIds fut
  | getEvntsEvntids => exact pays_call (show
      Db.getEvntsEvntids.item &&& Db.getEvntidsMsisdn.item = 0 by decide)
  | getMmeidHost => exact pays_onMmeIdentity fut
  | updateImsi => exact pays_item .updateImsi _ (by decide)

/-! ### Phases -/

theorem pays_reject (r : Rejection) : Pays (dues strict) 0 (reject r) :=
  pays_right (pays_call trivial) fun _ => pays_call trivial

/-- The query for the event ids: if it cannot be issued the bits of both are set. -/
theorem pays_phase1EventIds (d : Data) (result : Bool) :
    Pays (dues strict) 0 (phase1EventIds d result) := by
  cases result with
  | false => exact pays_ret _
  | true =>
    refine pays_counted rfl (fun fut => pays_onEventIds fut) fun g Q hQ => ?_
    refine wp_first (fun g' _ Q' hQ' => ?_) fun a g' hg' => hQ a g' hg'.weaken
    refine pays_left (pays_item .getEvntsEvntids false (by decide))
      (fun _ => pays_ret ()) _ _ fun a g'' hg'' => hQ' a g'' (less_eventsBit hg'')

theorem pays_phase1Body (req : Request) : Pays (dues strict) 0 (phase1Body req) := by
  refine pays_right (pays_call trivial) fun _ => pays_right (pays_call trivial) fun d => ?_
  split
  · exact pays_reject _
  refine pays_right (pays_call trivial) fun _ => pays_right (pays_call trivial) fun d =>
    pays_right (pays_call trivial) fun _ =>
    pays_right (pays_issue rfl fun fut => pays_onImsiInfo fut) fun result =>
    pays_right ?_ fun result => pays_right (pays_phase1EventIds d result) fun result =>
    pays_right ?_ fun result => ?_
  · cases result with
    | false => exact pays_right (pays_item .getImsiInfo _ (by decide)).weaken fun _ => pays_ret _
    | true =>
      exact pays_counted rfl (fun fut => pays_onExternalIds fut)
        (pays_failed [.getExtIds, .getEvntidsExtids, .getEvntsEvntids] (by decide))
  · cases result with
    | false => exact pays_ret _
    | true =>
      exact pays_counted rfl (fun fut => pays_onMmeIdentity fut)
        (pays_failed [.getMmeidHost] (by decide))
  · split
    · exact pays_call trivial
    · exact pays_reject _

theorem pays_callAddAvps (r : Except Rejection Data) : Pays (dues strict) 0 (callAddAvps r) := by
  unfold callAddAvps
  split
  · split
    · exact pays_right (pays_call trivial) fun _ => pays_ret _
    · exact pays_ret _
  · exact pays_ret _

theorem pays_phase2Body (json : String → Bool) (req : Request) :
    Pays (dues strict) 0 (phase2Body json req) := by
  refine pays_right (pays_call trivial) fun _ => pays_right (pays_call trivial) fun d => ?_
  split
  · exact pays_reject _
  refine pays_right (pays_callAddAvps _) fun _ => ?_
  split
  · exact pays_reject _
  · exact pays_right (pays_call trivial) fun _ => pays_call trivial

theorem pays_askEventIds : ∀ extids, Pays (dues strict) 0 (askEventIds extids)
  | [] => pays_ret _
  | _ :: rest => pays_right (pays_call trivial) fun _ => pays_right (pays_call trivial) fun _ =>
      pays_askEventIds rest

theorem pays_askEvents : ∀ ids, Pays (dues strict) 0 (askEvents ids)
  | [] => pays_ret _
  | _ :: rest => pays_right (pays_call trivial) fun _ => pays_right (pays_call trivial) fun _ =>
      pays_askEvents rest

theorem pays_addEvents : ∀ events, Pays (dues strict) 0 (addEvents events)
  | [] => pays_ret _
  | _ :: rest => pays_right (pays_call trivial) fun _ => pays_right (pays_call trivial) fun _ =>
      pays_addEvents rest

theorem pays_phase3Body : Pays (dues strict) 0 phase3Body := by
  refine pays_right (pays_call trivial) fun d => pays_right ?_ fun _ =>
    pays_right (pays_call trivial) fun d => pays_right (pays_call trivial) fun _ =>
    pays_right ?_ fun _ => pays_call trivial
  · unfold collectEvents
    split
    · exact pays_right (pays_askEventIds _) fun _ => pays_right (pays_call trivial) fun _ =>
        pays_right (pays_askEvents _) fun _ => pays_right (pays_call trivial) fun _ =>
        pays_addEvents _
    · exact pays_ret _
  · unfold reportRoaming
    split
    · exact pays_call trivial
    · exact pays_ret _

theorem pays_phase4Body : Pays (dues strict) 0 phase4Body := by
  refine pays_right (pays_call trivial) fun _ => pays_right (pays_call trivial) fun _ =>
    pays_right (pays_call trivial) fun d => pays_right (pays_counted rfl (fun fut =>
      pays_item .updateImsi _ (by decide)) (pays_failed [.updateImsi] (by decide))) fun success => ?_
  split
  · exact pays_ret _
  · exact pays_call trivial

theorem pays_body (json : String → Bool) (req : Request) (phase : Nat) :
    Pays (dues strict) 0 (body json req phase) := by
  unfold body
  split
  · exact pays_phase1Body req
  split
  · exact pays_phase2Body json req
  split
  · exact pays_phase3Body
  split
  · exact pays_phase4Body
  split
  · exact pays_call trivial
  · exact pays_ret _

/-- **What is set when no thread of a ULR is running.** -/
theorem ulr_paid {json : String → Bool} {req : Request} {d : Data}
    {C : State kind → Env kind × Move → Prop}
    (hC : ∀ s l, C s l → NoIds s.core ∧ (strict = true → Unspoilt s.core)) {s : State kind}
    (h : Run (code json req) C (State.init phase1 d) s) (hw : s.worker = none)
    (hc : s.callbacks = []) : Paid (dues strict) s.core :=
  paid_of_idle (dues_assumed hC) (fun phase => pays_body json req phase _ _ fun _ _ hg => hg.eq_zero)
    (fun act fut => pays_handler act fut _ _ fun _ _ hg => hg.eq_zero) h hw hc

end Debts

/-! ### The end -/

section Runs

variable {S : Scene} {C : State kind → Env kind × Move → Prop} {s : State kind}

/-- Where a ULR stands when the worker tests the loop condition. -/
theorem standing_of_loop (hC : ∀ s e m, C s (e, m) → S.outcomes.Agrees e)
    (h : Run (code S.json S.req) C (State.init phase1 S.start) s) (hrun : s.core.status = .running)
    (hw : s.worker = some (.ret ())) : Standing S (mineOf s.core) s.core.m_dbexecuted := by
  have hs : False → S.Clean := nofun
  obtain ⟨gw, gs, hwatched, hT⟩ := (watched_sound (M := code S.json S.req) hC
    (fun m x d hstand _ hr => body_seen hs hstand hr) (handler_seen hs)).invariant h rfl rfl
    ⟨facts_init S False, nofun, nofun, fun _ => .phase1 _⟩
  obtain ⟨g, hg, hend⟩ := hT.worker hrun _ hw
  obtain rfl : gw = some g := hg
  exact (hwatched.leave hend).between rfl

theorem effect_ran (c : Core kind) (o : Op kind) (r : o.Res) : (c.effect o r).ran = c.ran := by
  cases o with
  | register act => cases r <;> rfl
  | _ => rfl

/-- **A ULR that reaches `phase2`** is not rejected by `phase1`. -/
theorem issued_of_reached (hC : ∀ s e m, C s (e, m) → S.outcomes.Agrees e)
    (h : Run (code S.json S.req) C (State.init phase1 S.start) s) (h2 : phase2 ∈ s.core.ran) :
    S.outcomes.issued = true := by
  have hstrong := h.strengthen fun u l _ hu (hCu : C u l) _ => (fun hrun hw =>
    standing_of_loop hC hu hrun hw : u.core.status = .running → u.worker = some (.ret ()) →
      Standing S (mineOf u.core) u.core.m_dbexecuted)
  refine hstrong.invariant (I := fun s => phase2 ∈ s.core.ran → S.outcomes.issued = true) nofun ?_ h2
  intro u l t hu hstand hx h2
  obtain ⟨hrun, hst⟩ := exec_cases hx
  cases hst with
  | body e hw hr hf =>
    rcases List.mem_append.mp h2 with h2 | h2
    · exact hu h2
    have hphase : phase2 = (mineOf u.core).phase := List.mem_singleton.mp h2
    have hstand := hstand hrun hw
    generalize mineOf u.core = m at hphase hstand
    cases hstand with
    | phase2 _ ht hi => exact hi
    | _ => exact absurd hphase nofun
  | work e o k r =>
    rw [effect_ran] at h2
    exact hu h2
  | callback e i o k r =>
    rw [effect_ran] at h2
    exact hu h2
  | _ => exact hu h2

/-- No event is needed: the ULR is not accepted, or it is with Skip-Subscriber-Data. -/
def Scene.Unneeded (S : Scene) : Prop :=
  ∀ d, S.Accepts d → flagIsSet d.ulrflags ulrSkipSubscriberData = true

/-- No callback throws, and neither does the query that a thread is about to make. -/
structure Scene.Quiets (S : Scene) (s : State kind) (e : Env kind) : Prop where
  agrees : S.outcomes.Agrees e
  readable : S.outcomes.imsi ≠ none
  ask : ∀ q, s.Performs (.ask q) → e.ask q ≠ none

theorem terms_assumed (hC : ∀ s e m, C s (e, m) → S.Quiets s e) : (terms S.start).Assumed C := by
  have hread : ∀ {s : State kind} {e : Env kind}, S.Quiets s e → ∀ act, Readable act (e.db act) := by
    intro s e he act
    obtain ⟨db, text⟩ := act
    cases db with
    | getImsiInfo =>
      rw [he.agrees.1]
      exact he.readable
    | _ => exact trivial
  intro s e m hc
  refine ⟨hread (hC s e m hc), (hC s e m hc).ask, fun o r hr => ?_⟩
  cases o with
  | register act =>
    obtain rfl := Option.some.inj hr
    show ReadableReg act _
    cases e.reg act with
    | inline => exact hread (hC s e m hc) act
    | _ => trivial
  | _ => trivial

/-- What the callbacks leave behind: no abort, and the bits that the next phase waits for. -/
theorem ulr_bits (hC : ∀ s e m, C s (e, m) → S.Quiets s e)
    (h : Run (code S.json S.req) C (State.init phase1 S.start) s) :
    s.core.status ≠ .aborted ∧ (s.Quiescent → ∀ b, (need s.core.m_nextphase).getLsbD b = true →
      s.core.m_dbexecuted.getLsbD b = true) := by
  obtain ⟨halive, -, hset⟩ := bits_set (T := terms S.start) (M := code S.json S.req)
    (terms_assumed hC) (fun phase x d _ _ hr => body_kept S.json S.req phase x d hr) handler_kept
    trivial rfl h
  exact ⟨halive, hset⟩

theorem flagIsSet_of_bit {x item : BitVec 32} {b : Nat} (hi : item.getLsbD b = true)
    (hx : x.getLsbD b = true) : flagIsSet x item = true := bne_iff_ne.mpr (and_ne_zero hx hi)

/-- When nothing refers to a ULR any more it is at its end and has been answered once, if the bit of
the events is set or not needed. -/
theorem final_of_quiescent (hC : ∀ s e m, C s (e, m) → S.Quiets s e)
    (hevents : S.Unneeded ∨ (s.core.m_dbexecuted.getLsbD 2 = true →
      flagIsSet s.core.m_dbexecuted Db.getEvntsEvntids.item = true))
    (h : Run (code S.json S.req) C (State.init phase1 S.start) s) (hq : s.Quiescent) :
    s.core.m_nextphase = phaseFinal ∧ ∃ a, s.core.answers = [a] := by
  have hagrees : ∀ s e m, C s (e, m) → S.outcomes.Agrees e := fun s e m hc => (hC s e m hc).agrees
  obtain ⟨halive, hset⟩ := ulr_bits hC h
  have hstrict : False → S.Clean := nofun
  obtain ⟨-, hstand⟩ := ulr_watched hstrict hagrees h
  have hstand := hstand hq.2.2.2
  have hbits : ∀ b, (need (mineOf s.core).phase).getLsbD b = true →
    s.core.m_dbexecuted.getLsbD b = true := hset hq
  -- a processor that is not at its end would be ready for its next phase
  have hnot : (mineOf s.core).phase = phaseFinal ∨
      ready (mineOf s.core).phase s.core.m_dbexecuted s.core.data = false := by
    cases hst : s.core.status with
    | aborted => exact absurd hst halive
    | deleted =>
      obtain ⟨t, e, -, -, -, -, -, hf, rfl⟩ := deleted_last h rfl hst
      exact Or.inl hf
    | running =>
      have hnot := not_ready_of_quiescent h hq hst
      unfold Core.phaseReady at hnot
      split at hnot
      case isTrue hf => exact Or.inl hf
      case isFalse => exact Or.inr hnot
  have hview : (mineOf s.core).view = Data.view s.core.data := rfl
  have hphase : (mineOf s.core).phase = s.core.m_nextphase := rfl
  have hresults : (mineOf s.core).results = s.core.answers.map Ula.result := rfl
  generalize mineOf s.core = m at hstand hnot hbits hview hphase hresults
  -- the phases whose bits are set
  have hready : ∀ {item : BitVec 32} (b : Nat), item.getLsbD b = true →
      (need m.phase).getLsbD b = true → flagIsSet s.core.m_dbexecuted item = true :=
    fun b hi hb => flagIsSet_of_bit hi (hbits b hb)
  cases hstand with
  | phase1 => exact hnot.elim nofun nofun
  | phase2 =>
    have hb : (need phase2).getLsbD 0 = true := by decide
    have hr : ready phase2 s.core.m_dbexecuted s.core.data = true := hready 0 rfl hb
    exact hnot.elim nofun fun hn => absurd (hr.symm.trans hn) nofun
  | phase3 _ hacc =>
    rename_i d
    have hflags : d.ulrflags = Data.ulrflags s.core.data := congrArg View.ulrflags hview
    have hr : ready phase3 s.core.m_dbexecuted s.core.data = true := by
      refine Bool.or_eq_true_iff.mpr (hevents.imp (fun hun => ?_) fun hev => ?_)
      · rw [← hflags]
        exact hun d hacc
      · exact hev (hbits 2 (by decide : (need phase3).getLsbD 2 = true))
    exact hnot.elim nofun fun hn => absurd (hr.symm.trans hn) nofun
  | phase4 =>
    have hb : (need phase4).getLsbD 5 = true := by decide
    have hr : ready phase4 s.core.m_dbexecuted s.core.data = true := hready 5 rfl hb
    exact hnot.elim nofun fun hn => absurd (hr.symm.trans hn) nofun
  | phase5 =>
    have hb : (need phase5).getLsbD 6 = true := by decide
    have hr : ready phase5 s.core.m_dbexecuted s.core.data = true := hready 6 rfl hb
    exact hnot.elim nofun fun hn => absurd (hr.symm.trans hn) nofun
  | final =>
    refine ⟨hphase.symm, List.length_eq_one_iff.mp ?_⟩
    rw [← List.length_map (f := Ula.result), ← hresults]
    rfl

/-- A ULR at its end that has reached `phase2` is deleted when nothing refers to it any more. -/
theorem deleted_of_reached (hC : ∀ s e m, C s (e, m) → S.Quiets s e)
    (h : Run (code S.json S.req) C (State.init phase1 S.start) s) (h2 : phase2 ∈ s.core.ran)
    (hf : s.core.m_nextphase = phaseFinal) (hq : s.Quiescent) : s.core.status = .deleted := by
  have hagrees : ∀ s e m, C s (e, m) → S.outcomes.Agrees e := fun s e m hc => (hC s e m hc).agrees
  cases hst : s.core.status with
  | deleted => rfl
  | aborted => exact absurd hst (ulr_bits hC h).1
  | running =>
    -- its queries could be issued, so its counters are exact
    have hfails : ∀ db ∈ Outcomes.phase1Dbs, S.outcomes.fails db = false := fun db hdb =>
      Bool.not_eq_true' _ ▸ List.all_eq_true.mp (issued_of_reached hagrees h h2) db hdb
    have hreplies : RepliesOk C (regOk false) := by
      refine repliesOk fun s e m hc => ⟨fun text => ?_, nofun⟩
      have hreg : ∀ db ∈ Outcomes.phase1Dbs, db ≠ .getEvntsEvntids → e.reg (db, text) ≠ .failed := by
        intro db hdb hne hfailed
        have hf := ((hagrees s e m hc).2 (db, text)).mp hfailed
        have hf' : S.outcomes.failed (db, text) = S.outcomes.fails db := by
          cases db <;> first | rfl | exact absurd rfl hne
        exact absurd ((hfails db hdb).symm.trans (hf'.symm.trans hf)) Bool.false_ne_true
      exact ⟨hreg _ (by decide) (by decide), hreg _ (by decide) (by decide),
        hreg _ (by decide) (by decide)⟩
    exact absurd hf (not_final_of_quiescent h hq hst (counters_exact hreplies
      (body_balanced false S.json S.req) handler_balanced h))

/-- What the steps of a ULR meet that is to end. -/
def Scene.Settling (S : Scene) (s : State kind) (l : Env kind × Move) : Prop :=
  S.Quiets s l.1 ∧ (S.Unneeded ∨ NoIds s.core ∧ Unspoilt s.core)

/-- The bit of the event ids brings that of the events with it, or events are not needed. -/
theorem events_settled (h : Run (code S.json S.req) S.Settling (State.init phase1 S.start) s)
    (hq : s.Quiescent) : S.Unneeded ∨ (s.core.m_dbexecuted.getLsbD 2 = true →
      flagIsSet s.core.m_dbexecuted Db.getEvntsEvntids.item = true) := by
  by_cases hun : S.Unneeded
  · exact Or.inl hun
  refine Or.inr fun h2 => ?_
  have hC : ∀ s l, S.Settling s l → NoIds s.core ∧ (true = true → Unspoilt s.core) :=
    fun s l hl => (hl.2.resolve_left hun).imp_right fun h _ => h
  have hpaid := ulr_paid hC h hq.2.2.2 hq.2.1
  have hfirst : s.core.m_dbexecuted &&& (dues true).first ≠ 0 := and_ne_zero h2 (by decide)
  have h4 : ((dues true).second).getLsbD 4 = true := by decide
  exact flagIsSet_of_bit (b := 4) rfl (hpaid.follow hfirst 4 h4)

/-- **A ULR that reaches `phase2` is answered once and deleted.** -/
theorem completed (h : Run (code S.json S.req) S.Settling (State.init phase1 S.start) s)
    (h2 : phase2 ∈ s.core.ran) (hq : s.Quiescent) :
    s.core.status = .deleted ∧ s.core.m_nextphase = phaseFinal ∧ ∃ a, s.core.answers = [a] := by
  have hC : ∀ s e m, S.Settling s (e, m) → S.Quiets s e := fun s e m hc => hc.1
  obtain ⟨hfinal, hone⟩ := final_of_quiescent hC (events_settled h hq) h hq
  exact ⟨deleted_of_reached hC h h2 hfinal hq, hfinal, hone⟩

end Runs

end OpenairHss.Ulr
