import OpenairHss.Air.Completion
import OpenairHss.Requests.Completed
import OpenairHss.Requests.Order
import OpenairHss.Ulr.Rule

/-!
# Callbacks and their requests

`Handled` says what becomes of the queries of a processor: no exception leaves a callback, and when
nothing refers to the processor any more, the operation of every query that was answered is marked
as executed, the request has been answered, and with an error if a query ended in one.

`callbacks_handled`: ULRs and AIRs whose steps are `Regular` handle their queries.  What is not
regular breaks this: an error of the first query of either leaves the callback as an exception
(`not_handled`), the event ids of external identifiers mark another operation, the events mark none,
and an error of a later query does not keep the processor from answering with success.
-/

namespace OpenairHss.Processor

/-- What becomes of the queries of a processor. -/
structure Handled {K : Kind} (item : K.Act → BitVec 32) (Failed : (act : K.Act) → K.Fut act → Prop)
    (IsError : K.Ans → Prop) (s : State K) : Prop where
  returned : s.core.status ≠ .aborted
  executed : s.Quiescent → ∀ p ∈ s.core.resolved, s.core.m_dbexecuted &&& item p.1 = item p.1
  answered : s.Quiescent → ∃ a, s.core.answers = [a]
  errors : s.Quiescent → (∃ p ∈ s.core.resolved, Failed p.1 p.2) → ∀ a ∈ s.core.answers, IsError a

/-- All bits of an item are set. -/
theorem and_eq_of_bits {x item : BitVec 32}
    (h : ∀ b, item.getLsbD b = true → x.getLsbD b = true) : x &&& item = item := by
  refine BitVec.eq_of_getLsbD_eq fun b _ => ?_
  rw [BitVec.getLsbD_and]
  cases hb : item.getLsbD b with
  | false => exact Bool.and_false _
  | true => rw [h b hb, Bool.and_true]

end OpenairHss.Processor

namespace OpenairHss.Ulr

open Interact Processor Diameter

/-! ### ULRs -/

/-- A query that ends in an error. -/
def Failed : (act : Db × String) → act.1.Fut → Prop
  | (.getImsiInfo, _), fut => fut = (none : Option (Option ImsiInfoRow))
  | (.getExtIds, _), fut => fut = (none : Option (List String))
  | (.getEvntidsMsisdn, _), fut => fut = (none : Option (List EventId))
  | (.getEvntidsExtids, _), fut => fut = (none : Option (List EventId))
  | (.getEvntsEvntids, _), fut => fut = (none : Option (List Event))
  | (.getMmeidHost, _), fut => fut = (none : Option (Option (Option Int)))
  | (.updateImsi, _), fut => fut = (none : Option Unit)

/-- The operation of a query. -/
def operation (act : Db × String) : BitVec 32 := act.1.item

/-- The result of a ULA is not success. -/
def IsError (a : Ula) : Prop := a.result ≠ .resultCode erDiameterSuccess

/-- The steps of a ULR that handles its queries. -/
structure Scene.Regular (S : Scene) (s : State kind) (l : Env kind × Move) : Prop where
  quiets : S.Quiets s l.1
  noIds : NoIds s.core
  unspoilt : S.Unneeded ∨ Unspoilt s.core
  arriving : ∀ act, act ∈ s.core.pending ∨ l.1.reg act = .inline →
    act.1 ≠ .getEvntidsExtids ∧ ((∃ d, S.Accepts d) → ¬ Failed act (l.1.db act))

variable {S : Scene} {C : State kind → Env kind × Move → Prop} {s : State kind}

/-- Only a ULR that is accepted is answered with success. -/
def acceptedRule (S : Scene) : DataRule kind where
  data _ := True
  ans a := a.result = .resultCode erDiameterSuccess → ∃ d, S.Accepts d
  act _ := True
  fut _ _ := True
  rep _ _ := True

theorem tolerates_acceptedRule : Tolerates S.json S.req (acceptedRule S) where
  imsiInfo _ _ _ := trivial
  extIds _ _ _ := trivial
  eventIdsMsisdn _ _ _ := trivial
  eventIdsExtIds _ _ _ := trivial
  events _ _ _ := trivial
  sort _ := trivial
  mmeIdentity _ _ := trivial
  callExtIds _ := trivial
  callEvents _ _ _ := trivial
  begin _ := trivial
  origin _ := trivial
  calls _ := ⟨trivial, trivial, trivial, trivial⟩
  refuse := by
    intro d r _ hr hres
    rw [Ula.result_append] at hres
    exact absurd hres hr
  rejected := by
    intro d r _ hr hres
    have hchecks := phase2Checks_checked S.json S.req d
    rw [hr] at hchecks
    rw [Ula.result_append] at hres
    exact absurd hres hchecks.2
  accepted _ _ _ := trivial
  mmeId _ := trivial
  callUpdate _ := trivial

theorem accepted_of_success (hC : ∀ s e m, C s (e, m) → S.outcomes.Agrees e)
    (h : Run (code S.json S.req) C (State.init phase1 S.start) s) :
    ∀ a ∈ s.core.answers, a.result = .resultCode erDiameterSuccess → ∃ d, S.Accepts d := by
  have hrun : Run (code S.json S.req)
      (fun u l => l.2 = .loop → Standing S (mineOf u.core) u.core.m_dbexecuted)
      (State.init phase1 S.start) s := by
    refine h.strengthen fun u l t hu _ hx hl => ?_
    obtain ⟨e, m⟩ := l
    obtain rfl : m = .loop := hl
    obtain ⟨hrunning, hst⟩ := exec_cases hx
    refine standing_of_loop hC hu hrunning ?_
    cases hst with
    | delete _ hw => exact hw
    | body _ hw => exact hw
    | leave _ hw => exact hw
  have T := tolerates_acceptedRule (S := S)
  have hbody : ∀ (u : State kind) (e : Env kind),
      ((e, Move.loop).2 = .loop → Standing S (mineOf u.core) u.core.m_dbexecuted) →
      u.core.phaseReady (code S.json S.req) = true →
      Obeys (acceptedRule S) ((code S.json S.req).body u.core.m_nextphase) := by
    intro u e hstand _
    refine T.body fun hphase => ?_
    have hstand := hstand rfl
    have hphase : (mineOf u.core).phase = phase3 := hphase
    generalize mineOf u.core = m at hstand hphase
    cases hstand with
    | phase3 _ hacc => exact obeys_free (fun _ => trivial) (fun _ _ => ⟨_, hacc⟩) (fun _ => trivial) _
    | _ => exact absurd hphase nofun
  exact (DataRule.invariant hbody T.handler (fun _ _ _ _ => trivial) (fun _ _ _ _ _ _ => trivial) hrun
    rfl rfl ⟨trivial, nofun, nofun⟩).answers

/-- The bit of a query, when that of its callback is set. -/
theorem executed_of_paid {strict : Bool} {c : Core kind} (h : Paid (dues strict) c)
    {p : (act : kind.Act) × kind.Fut act} (hp : p ∈ c.resolved) (hne : p.1.1 ≠ Db.getEvntidsExtids) :
    c.m_dbexecuted &&& p.1.1.item = p.1.1.item := by
  have hset := h.resolved p hp
  have hmade := h.made p hp
  obtain ⟨⟨db, text⟩, fut⟩ := p
  cases db with
  | getEvntidsExtids => exact absurd rfl hne
  | getEvntsEvntids => exact and_eq_of_bits hmade
  | getImsiInfo => exact and_eq_of_bits hset
  | getExtIds => exact and_eq_of_bits hset
  | getEvntidsMsisdn => exact and_eq_of_bits hset
  | getMmeidHost => exact and_eq_of_bits hset
  | updateImsi => exact and_eq_of_bits hset

/-- **A ULR handles its queries.** -/
theorem handled_ulr (h : Run (code S.json S.req) S.Regular (State.init phase1 S.start) s) :
    Handled (K := kind) operation Failed IsError s := by
  have hquiets : ∀ s e m, S.Regular s (e, m) → S.Quiets s e := fun s e m hc => hc.quiets
  have hagrees : ∀ s e m, S.Regular s (e, m) → S.outcomes.Agrees e := fun s e m hc => hc.quiets.agrees
  have harrived : ∀ q ∈ s.core.resolved, q.1.1 ≠ Db.getEvntidsExtids ∧
      ((∃ d, S.Accepts d) → ¬ Failed q.1 q.2) :=
    resolved_of_arriving (P := fun (act : Db × String) (fut : act.1.Fut) =>
      act.1 ≠ .getEvntidsExtids ∧ ((∃ d, S.Accepts d) → ¬ Failed act fut))
      (fun s e m hc => hc.arriving) h
  refine ⟨(ulr_bits hquiets h).1, fun hq p hp => ?_, fun hq => ?_, fun hq hfailed a ha hsuccess => ?_⟩
  · have hC : ∀ s l, S.Regular s l → NoIds s.core ∧ (false = true → Unspoilt s.core) :=
      fun s l hl => ⟨hl.noIds, nofun⟩
    have hpaid := ulr_paid hC h hq.2.2.2 hq.2.1
    exact executed_of_paid hpaid hp (harrived p hp).1
  · have hsettled : Run (code S.json S.req) S.Settling (State.init phase1 S.start) s :=
      h.strengthen fun u l _ _ hl _ => ⟨hl.quiets, hl.unspoilt.imp_right fun hu => ⟨hl.noIds, hu⟩⟩
    exact (final_of_quiescent hquiets (events_settled hsettled hq) h hq).2
  · obtain ⟨p, hp, hfailed⟩ := hfailed
    exact (harrived p hp).2 (accepted_of_success hagrees h a ha hsuccess) hfailed

end OpenairHss.Ulr

namespace OpenairHss.AirProcessor

open ByteVec Interact OpenairHss.Processor Hsssec DataAccess Diameter

/-! ### AIRs -/

/-- A query that ends in an error. -/
def Failed : (act : Db × String) → act.1.Fut → Prop
  | (.getImsiSec, _), fut => fut = (none : Option (Option SecRow))
  | (.updateImsi, _), fut => fut = (none : Option Unit)

/-- The operation of a query. -/
def operation (act : Db × String) : BitVec 32 := act.1.item

/-- The callbacks of an AIR set the bit of their query. -/
def dues : Dues kind where
  promise act := act.1.item
  before _ := 0
  first := 0
  second := 0
  byData _ := 0
  byResult _ := 0

section

variable {R : Type} (cipher : BlockCipher R)
  (kdf : List (BitVec 8) → List (BitVec 8) → Bytes 32) (env : Surroundings R)
  {C : State kind → Env kind × Move → Prop} {req : Request} {d : Data} {s : State kind}

theorem pays_item (item : BitVec 32) (success : Bool) :
    Pays dues item (dbOpComplete item success) :=
  pays_dbOpComplete (if_pos (by simp [dues])) success

theorem pays_onImsiSec (fut : Option (Option SecRow)) :
    Pays dues Db.getImsiSec.item (onImsiSec env fut) := by
  match fut with
  | none => exact fun g Q _ => ⟨trivial, nofun⟩
  | some none => exact pays_item _ _
  | some (some row) => exact pays_right (pays_call trivial) fun _ => pays_item _ _

theorem pays_handler (act : Db × String) (fut : act.1.Fut) :
    Pays dues act.1.item (handler env act fut) := by
  match act, fut with
  | (.getImsiSec, _), fut => exact pays_onImsiSec env fut
  | (.updateImsi, _), fut => exact pays_item _ _

theorem pays_reject (final : Nat) (r : Rejection) : Pays dues 0 (reject final r) :=
  pays_right (pays_call trivial) fun _ => pays_call trivial

theorem pays_phase1Body : Pays dues 0 (phase1Body env req) := by
  refine pays_right (pays_call trivial) fun d => ?_
  split
  · exact pays_reject _ _
  · refine pays_right (pays_call trivial) fun _ => pays_right (pays_call trivial) fun _ =>
      pays_right (pays_issue rfl fun fut => pays_onImsiSec env fut) fun success => ?_
    split
    · exact pays_call trivial
    · exact pays_reject _ _

theorem pays_phase2Body : Pays dues 0 (phase2Body cipher kdf env) := by
  refine pays_right (pays_call trivial) fun result => pays_right (pays_call trivial) fun d => ?_
  split
  · exact pays_reject _ _
  · refine pays_right (pays_call trivial) fun _ => pays_right (pays_call trivial) fun _ =>
      pays_right (pays_call trivial) fun _ =>
      pays_right (pays_issue rfl fun fut => pays_item _ _) fun success => ?_
    split
    · exact pays_call trivial
    · exact pays_call trivial

theorem pays_body (phase : Nat) : Pays dues 0 (body cipher kdf env req phase) := by
  unfold body
  split
  · exact pays_phase1Body env
  split
  · exact pays_phase2Body cipher kdf env
  split
  · exact pays_call trivial
  · exact pays_ret _

theorem air_paid (h : Run (code cipher kdf env req) C (State.init phase1 d) s)
    (hw : s.worker = none) (hc : s.callbacks = []) : Paid dues s.core := by
  have hassumed : dues.Assumed C := fun _ _ _ _ _ hb => hb.elim
    (fun hb => absurd hb not_getLsbD_zero) fun hb => absurd hb not_getLsbD_zero
  exact paid_of_idle hassumed (fun phase => pays_body cipher kdf env phase _ _ fun _ _ hg => hg.eq_zero)
    (fun act fut => pays_handler env act fut _ _ fun _ _ hg => hg.eq_zero) h hw hc

/-- An AIR is at one of its two ends when nothing refers to it any more. -/
theorem final_of_quiescent (hC : ∀ s e m, C s (e, m) → ∀ act, Readable act (e.db act))
    (h : Run (code cipher kdf env req) C (State.init phase1 d) s) (hq : s.Quiescent) :
    s.core.status ≠ .aborted ∧ s.core.m_nextphase ∈ [phaseFinal, ulrPhaseFinal] := by
  cases hd : phase1Checks env req d with
  | ok d' =>
    have hdel := deleted_of_accepted cipher kdf env hC hd h hq
    obtain ⟨t, e, -, -, -, -, -, hf, rfl⟩ := deleted_last h rfl hdel
    exact ⟨nofun, List.mem_cons.mpr (Or.inl hf)⟩
  | error r =>
    obtain ⟨halive, hphase, -⟩ := bits_set (T := terms badPhases d) (M := code cipher kdf env req)
      (assumed hC) (fun phase x dd hp _ hr => body_rejects cipher kdf env hd phase hp x dd hr)
      (handler_kept env) (show phase1 ∈ badPhases by decide) rfl h
    refine ⟨halive, ?_⟩
    have hphase : s.core.m_nextphase ∈ badPhases := hphase
    rcases List.mem_cons.mp hphase with h1 | h1
    · have hrun : s.core.status = .running := by
        cases hst : s.core.status with
        | running => rfl
        | aborted => exact absurd hst halive
        | deleted => exact absurd hst (not_deleted_of_rejected cipher kdf env hC hd h)
      have hnot := not_ready_of_quiescent h hq hrun
      unfold Core.phaseReady at hnot
      rw [h1] at hnot
      exact absurd hnot nofun
    · exact List.mem_cons_of_mem _ h1

theorem alive_air (hC : ∀ s e m, C s (e, m) → ∀ act, Readable act (e.db act))
    (h : Run (code cipher kdf env req) C (State.init phase1 d) s) : s.core.status ≠ .aborted := by
  cases hd : phase1Checks env req d with
  | ok d' =>
    exact (bits_set (T := terms goodPhases d) (M := code cipher kdf env req) (assumed hC)
      (fun phase x dd _ _ hr => body_kept cipher kdf env hd phase x dd hr) (handler_kept env)
      (show phase1 ∈ goodPhases by decide) rfl h).1
  | error r =>
    exact (bits_set (T := terms badPhases d) (M := code cipher kdf env req) (assumed hC)
      (fun phase x dd hp _ hr => body_rejects cipher kdf env hd phase hp x dd hr)
      (handler_kept env) (show phase1 ∈ badPhases by decide) rfl h).1

/-- The result of an AIA is not success. -/
def IsError (a : Aia) : Prop := .result (.resultCode erDiameterSuccess) ∉ a.avps

/-- **An AIR handles its queries.** -/
theorem handled_air (hC : ∀ s e m, C s (e, m) → ∀ act, ¬ Failed act (e.db act))
    (h : Run (code cipher kdf env req) C (State.init phase1 d) s) :
    Handled (K := kind) operation Failed IsError s := by
  have hreadable : ∀ s e m, C s (e, m) → ∀ act, Readable act (e.db act) := by
    rintro s e m hc ⟨db, text⟩
    cases db with
    | getImsiSec => exact hC s e m hc (.getImsiSec, text)
    | updateImsi => trivial
  have harrived : ∀ q ∈ s.core.resolved, ¬ Failed q.1 q.2 :=
    resolved_of_arriving (P := fun (act : Db × String) (fut : act.1.Fut) => ¬ Failed act fut)
      (fun s e m hc act _ => hC s e m hc act) h
  refine ⟨alive_air cipher kdf env hreadable h, fun hq p hp => ?_, fun hq => ?_, fun hq hfailed => ?_⟩
  · exact and_eq_of_bits ((air_paid cipher kdf env h hq.2.2.2 hq.2.1).resolved p hp)
  · obtain ⟨-, hfinal⟩ := final_of_quiescent cipher kdf env hreadable h hq
    obtain ⟨-, -, horder⟩ := air_in_order cipher kdf env h
    obtain ⟨-, ⟨hphase, -⟩ | ⟨-, hone, -⟩⟩ := horder hq.2.2.2
    · have hphase : s.core.m_nextphase = 301 + s.core.progress.ran.length := hphase
      simp only [List.mem_cons, List.not_mem_nil, or_false, phaseFinal, ulrPhaseFinal] at hfinal
      omega
    · exact List.length_eq_one_iff.mp hone
  · obtain ⟨p, hp, hfailed⟩ := hfailed
    exact absurd hfailed (harrived p hp)

end

end OpenairHss.AirProcessor

namespace OpenairHss.Requests

open ByteVec OpenairHss.Processor Hsssec Steps

/-! ### All queries -/

/-- No query of an AIR ends in an error. -/
def Sound (_ : State AirProcessor.kind) (l : Env AirProcessor.kind × Move) : Prop :=
  ∀ act, ¬ AirProcessor.Failed act (l.1.db act)

/-- The outcomes of the sample, if the event ids of external identifiers cannot be asked for. -/
def sampleUnasked : Ulr.Outcomes :=
  { Ulr.sampleOutcomes (some (some 1)) with fails := fun db => db == .getEvntidsExtids }

def unaskedScene : Ulr.Scene := ⟨fun _ => true, sampleUlr, sampleUlrData, sampleUnasked⟩

/-- A test for the steps of this ULR. -/
def regularTest (s : State Ulr.kind) : Bool :=
  settledTest s && s.core.pending.all fun act => act.1 != .getEvntidsExtids

def unaskedEnd : State Ulr.kind :=
  greedy (Ulr.code (fun _ => true) sampleUlr) sampleUnasked.env regularTest workFirst 150
    (State.init Ulr.phase1 sampleUlrData)

theorem regular_of_test {s : State Ulr.kind} {m : Move} (h : regularTest s = true) :
    unaskedScene.Regular s (sampleUnasked.env, m) := by
  obtain ⟨hids, hpending⟩ := Bool.and_eq_true_iff.mp h
  obtain ⟨hnone, hunspoilt⟩ := settled_of_test hids
  refine ⟨⟨sampleUnasked.env_agrees, Option.some_ne_none _, fun q => ?_⟩, hnone, Or.inr hunspoilt, ?_⟩
  · cases q <;> exact fun _ => Option.some_ne_none _
  · intro act hact
    refine ⟨?_, fun _ => ?_⟩
    · rcases hact with hact | hact
      · exact bne_iff_ne.mp (List.all_eq_true.mp hpending act hact)
      · have hne : sampleUnasked.env.reg act ≠ .inline := by
          show (if sampleUnasked.failed act = true then RegKind.failed else RegKind.async) ≠ .inline
          split <;> exact nofun
        exact absurd hact hne
    · obtain ⟨db, text⟩ := act
      cases db <;> exact Option.some_ne_none _

end OpenairHss.Requests
