import OpenairHss.Air.Freshness
import OpenairHss.Air.Processor
import OpenairHss.Processor.Order
import OpenairHss.Ulr.Processor

/-!
# Each phase once, one answer

The handlers of both processors leave `m_nextphase` and the answer alone, and every phase body goes
to the next phase or to an end, with an answer at exactly the right places.  So `phases_in_order`
applies to both.
-/

namespace OpenairHss.Ulr

open Interact Processor

/-! ### The ULR processor -/

theorem quiet_onImsiInfo (fut : Option (Option ImsiInfoRow)) : Quiet (onImsiInfo fut) := by
  match fut with
  | none => exact quiet_bind (quiet_call rfl) nofun
  | some none => exact quiet_dbOpComplete _ _
  | some (some row) => exact quiet_bind (quiet_call rfl) fun _ => quiet_dbOpComplete _ _

theorem quiet_onEvents (fut : Option (List Event)) : Quiet (onEvents fut) := quiet_call rfl

theorem quiet_eventsLoop : ∀ ids scef_id refs, Quiet (eventsLoop ids scef_id refs)
  | [], scef_id, refs => by
    unfold eventsLoop
    split
    · exact quiet_bind (quiet_issueCounted quiet_onEvents) fun _ => quiet_ret _
    · exact quiet_ret _
  | ei :: rest, scef_id, refs => by
    unfold eventsLoop
    split
    · refine quiet_bind (quiet_issueCounted quiet_onEvents) fun success => ?_
      cases success with
      | true => exact quiet_eventsLoop rest _ _
      | false => exact quiet_ret _
    · exact quiet_eventsLoop rest _ _

theorem quiet_getEvents : Quiet getEvents := by
  refine quiet_bind (quiet_call rfl) fun d => ?_
  split
  · exact quiet_dbOpComplete _ _
  · exact quiet_bind (quiet_call rfl) fun _ => quiet_bind (quiet_call rfl) fun d =>
      quiet_eventsLoop _ _ _

theorem quiet_onEventIds (item : BitVec 32) (fut : Option (List EventId)) :
    Quiet (onEventIds item fut) := by
  refine quiet_bind (quiet_call rfl) fun _ => quiet_bind (quiet_call rfl) fun _ =>
    quiet_bind (quiet_dbOpComplete _ _) fun _ => quiet_bind (quiet_call rfl) fun _ =>
    quiet_bind (quiet_call rfl) fun _ => quiet_bind (quiet_call rfl) fun _ => ?_
  split
  · exact quiet_getEvents
  · exact quiet_ret _

theorem quiet_onExternalIds (fut : Option (List String)) : Quiet (onExternalIds fut) := by
  refine quiet_bind (quiet_call rfl) fun _ => quiet_bind (quiet_dbOpComplete _ _) fun _ => ?_
  split
  · exact quiet_bind (quiet_call rfl) fun _ =>
      quiet_bind (quiet_issueCounted (quiet_onEventIds _)) fun _ => quiet_ret _
  · exact quiet_dbOpComplete _ _

theorem quiet_onMmeIdentity (fut : Option (Option (Option Int))) : Quiet (onMmeIdentity fut) := by
  match fut with
  | none => exact quiet_dbOpComplete _ _
  | some none => exact quiet_dbOpComplete _ _
  | some (some id) => exact quiet_bind (quiet_call rfl) fun _ => quiet_dbOpComplete _ _

theorem quiet_handler (act : Db × String) (fut : act.1.Fut) : Quiet (handler act fut) := by
  match act, fut with
  | (.getImsiInfo, _), fut => exact quiet_onImsiInfo fut
  | (.getExtIds, _), fut => exact quiet_onExternalIds fut
  | (.getEvntidsMsisdn, _), fut => exact quiet_onEventIds _ fut
  | (.getEvntidsExtids, _), fut => exact quiet_onEventIds _ fut
  | (.getEvntsEvntids, _), fut => exact quiet_onEvents fut
  | (.getMmeidHost, _), fut => exact quiet_onMmeIdentity fut
  | (.updateImsi, _), fut => exact quiet_dbOpComplete _ _

/-- Where a ULR processor can stand between two phases. -/
abbrev UlrInOrder (p : Progress kind) : Prop := InOrder phase1 phase3 [phaseFinal] p

/-- A rejection in a phase before the answer. -/
theorem wp_reject {p : Progress kind} {r : Rejection} {Q : Unit → Option (Progress kind) → Prop}
    (ha : p.answers = []) (hQ : Q () (some ⟨phaseFinal, [⟨r.1 ++ [.result r.2]⟩], p.ran⟩)) :
    (reject r).wp (progressGhost kind).spec (some p) Q := by
  unfold reject
  exact wp_answer_then ha (wp_setPhase hQ)

/-- A phase body that is at an end with one answer. -/
theorem inOrder_end {p : Progress kind} {a : Ula} (hran : p.ran = List.range' phase1 p.ran.length)
    (hne : p.ran ≠ []) : UlrInOrder ⟨phaseFinal, [a], p.ran⟩ :=
  ⟨hran, Or.inr ⟨by simp, rfl, hne⟩⟩

theorem quiet_phase1ExtIds (d : Data) : ∀ result, Quiet (phase1ExtIds d result)
  | true => quiet_issueCounted quiet_onExternalIds
  | false => quiet_bind (quiet_dbOpComplete _ _) fun _ => quiet_ret _

theorem quiet_phase1EventIds (d : Data) : ∀ result, Quiet (phase1EventIds d result)
  | true => quiet_issueCounted (quiet_onEventIds _)
  | false => quiet_ret _

theorem quiet_phase1MmeId (d : Data) : ∀ result, Quiet (phase1MmeId d result)
  | true => quiet_issueCounted quiet_onMmeIdentity
  | false => quiet_ret _

theorem phase1Body_order (req : Request) :
    (phase1Body req).wp (progressGhost kind).spec (some ⟨phase1, [], [phase1]⟩)
      (fun _ g => ∃ q, g = some q ∧ UlrInOrder q) := by
  refine Quiet.then (quiet_call rfl) fun _ => Quiet.then (quiet_call rfl) fun d => ?_
  split
  · exact wp_reject rfl ⟨_, rfl, inOrder_end rfl (by simp)⟩
  refine Quiet.then (quiet_call rfl) fun _ => Quiet.then (quiet_call rfl) fun d =>
    wp_setPhase_then <| Quiet.then (quiet_issue quiet_onImsiInfo) fun result => ?_
  refine Quiet.then (quiet_phase1ExtIds d result) fun result =>
    Quiet.then (quiet_phase1EventIds d result) fun result =>
    Quiet.then (quiet_phase1MmeId d result) fun result => ?_
  cases result with
  | true => exact quiet_call rfl _ _ fun _ => ⟨_, rfl, rfl, Or.inl ⟨rfl, rfl⟩⟩
  | false => exact wp_reject rfl ⟨_, rfl, inOrder_end rfl (by simp)⟩

theorem quiet_callAddAvps (r : Except Rejection Data) : Quiet (callAddAvps r) := by
  unfold callAddAvps
  split
  · split
    · exact quiet_bind (quiet_call rfl) fun _ => quiet_ret _
    · exact quiet_ret _
  · exact quiet_ret _

theorem phase2Body_order (json : String → Bool) (req : Request) :
    (phase2Body json req).wp (progressGhost kind).spec (some ⟨phase2, [], [phase1, phase2]⟩)
      (fun _ g => ∃ q, g = some q ∧ UlrInOrder q) := by
  refine Quiet.then (quiet_call rfl) fun result => Quiet.then (quiet_call rfl) fun d => ?_
  split
  · exact wp_reject rfl ⟨_, rfl, inOrder_end rfl (by simp)⟩
  refine Quiet.then (quiet_callAddAvps _) fun _ => ?_
  split
  · exact wp_reject rfl ⟨_, rfl, inOrder_end rfl (by simp)⟩
  · exact Quiet.then (quiet_call rfl) fun _ => wp_setPhase ⟨_, rfl, rfl, Or.inl ⟨rfl, rfl⟩⟩

theorem quiet_askEventIds : ∀ extids, Quiet (askEventIds extids)
  | [] => quiet_ret _
  | _ :: rest => quiet_bind (quiet_call rfl) fun _ => quiet_bind (quiet_call rfl) fun _ =>
      quiet_askEventIds rest

theorem quiet_askEvents : ∀ ids, Quiet (askEvents ids)
  | [] => quiet_ret _
  | _ :: rest => quiet_bind (quiet_call rfl) fun _ => quiet_bind (quiet_call rfl) fun _ =>
      quiet_askEvents rest

theorem quiet_addEvents : ∀ events, Quiet (addEvents events)
  | [] => quiet_ret _
  | _ :: rest => quiet_bind (quiet_call rfl) fun _ => quiet_bind (quiet_call rfl) fun _ =>
      quiet_addEvents rest

theorem quiet_collectEvents (d : Data) : Quiet (collectEvents d) := by
  unfold collectEvents
  split
  · exact quiet_bind (quiet_askEventIds _) fun _ => quiet_bind (quiet_call rfl) fun _ =>
      quiet_bind (quiet_askEvents _) fun _ => quiet_bind (quiet_call rfl) fun _ =>
      quiet_addEvents _
  · exact quiet_ret _

theorem quiet_reportRoaming (d : Data) : Quiet (reportRoaming d) := by
  unfold reportRoaming
  split
  · exact quiet_call rfl
  · exact quiet_ret _

theorem phase3Body_order :
    phase3Body.wp (progressGhost kind).spec (some ⟨phase3, [], [phase1, phase2, phase3]⟩)
      (fun _ g => ∃ q, g = some q ∧ UlrInOrder q) :=
  Quiet.then (quiet_call rfl) fun d => Quiet.then (quiet_collectEvents d) fun _ =>
    Quiet.then (quiet_call rfl) fun d => wp_answer_then rfl <|
    Quiet.then (quiet_reportRoaming d) fun _ => wp_setPhase ⟨_, rfl, rfl, Or.inl ⟨rfl, rfl⟩⟩

theorem phase4Body_order (a : Ula) :
    phase4Body.wp (progressGhost kind).spec
      (some ⟨phase4, [a], [phase1, phase2, phase3, phase4]⟩)
      (fun _ g => ∃ q, g = some q ∧ UlrInOrder q) := by
  refine wp_setPhase_then <| Quiet.then (quiet_call rfl) fun _ =>
    Quiet.then (quiet_call rfl) fun d =>
    Quiet.then (quiet_issueCounted fun fut => quiet_dbOpComplete _ _) fun success => ?_
  cases success with
  | true => exact ⟨_, rfl, rfl, Or.inl ⟨rfl, rfl⟩⟩
  | false => exact wp_setPhase ⟨_, rfl, inOrder_end rfl (by simp)⟩

theorem phase5Body_order (a : Ula) :
    phase5Body.wp (progressGhost kind).spec
      (some ⟨phase5, [a], [phase1, phase2, phase3, phase4, phase5]⟩)
      (fun _ g => ∃ q, g = some q ∧ UlrInOrder q) :=
  wp_setPhase ⟨_, rfl, inOrder_end rfl (by simp)⟩

/-- The phases that can be ready. -/
theorem ready_phase {phase : Nat} {x : BitVec 32} {d : Data} (h : ready phase x d = true) :
    phase = phase1 ∨ phase = phase2 ∨ phase = phase3 ∨ phase = phase4 ∨ phase = phase5 := by
  unfold ready at h
  split at h
  · exact Or.inl ‹_›
  split at h
  · exact Or.inr (Or.inl ‹_›)
  split at h
  · exact Or.inr (Or.inr (Or.inl ‹_›))
  split at h
  · exact Or.inr (Or.inr (Or.inr (Or.inl ‹_›)))
  split at h
  · exact Or.inr (Or.inr (Or.inr (Or.inr ‹_›)))
  · cases h

theorem body_order (json : String → Bool) (req : Request) (p : Progress kind) (x : BitVec 32)
    (d : Data) (h : UlrInOrder p) (hf : p.phase ≠ phaseFinal) (hr : ready p.phase x d = true) :
    (body json req p.phase).wp (progressGhost kind).spec (some { p with ran := p.ran ++ [p.phase] })
      (fun _ g => ∃ q, g = some q ∧ UlrInOrder q) := by
  obtain ⟨hphase, hran, hans⟩ := h.next_range (by simpa using hf)
  rw [hran]
  obtain ⟨phase, answers, ran⟩ := p
  simp only at hphase hans hr ⊢
  rcases ready_phase hr with rfl | rfl | rfl | rfl | rfl
  · obtain rfl : answers = [] := List.length_eq_zero_iff.mp hans
    rw [show ran.length = 0 by omega]
    exact phase1Body_order req
  · obtain rfl : answers = [] := List.length_eq_zero_iff.mp hans
    rw [show ran.length = 1 by simp only [phase1, phase2] at hphase; omega]
    exact phase2Body_order json req
  · obtain rfl : answers = [] := List.length_eq_zero_iff.mp hans
    rw [show ran.length = 2 by simp only [phase1, phase3] at hphase; omega]
    exact phase3Body_order
  · obtain ⟨a, rfl⟩ : ∃ a, answers = [a] := List.length_eq_one_iff.mp hans
    rw [show ran.length = 3 by simp only [phase1, phase4] at hphase; omega]
    exact phase4Body_order a
  · obtain ⟨a, rfl⟩ : ∃ a, answers = [a] := List.length_eq_one_iff.mp hans
    rw [show ran.length = 4 by simp only [phase1, phase5] at hphase; omega]
    exact phase5Body_order a

/-- The order of the phases of a ULR. -/
theorem ulr_in_order {json : String → Bool} {req : Request} {d : Data}
    {C : State kind → Env kind × Move → Prop} {s : State kind}
    (h : Run (code json req) C (State.init phase1 d) s) :
    s.core.ran.Pairwise (· < ·) ∧ s.core.answers.length ≤ 1 ∧
      (s.worker = none → UlrInOrder s.core.progress) :=
  phases_in_order (fun p hp => Or.inl (List.mem_singleton.mp hp)) (body_order json req)
    quiet_handler (by decide) h

end OpenairHss.Ulr

namespace OpenairHss.AirProcessor

open ByteVec Interact OpenairHss.Processor Hsssec

/-! ### The AIR processor -/

section

variable {R : Type} (cipher : BlockCipher R)
  (kdf : List (BitVec 8) → List (BitVec 8) → Bytes 32) (env : Surroundings R)

theorem quiet_onImsiSec (fut : Option (Option DataAccess.SecRow)) :
    Quiet (onImsiSec env fut) := by
  match fut with
  | none => exact quiet_op rfl nofun
  | some none => exact quiet_dbOpComplete _ _
  | some (some row) => exact quiet_bind (quiet_call rfl) fun _ => quiet_dbOpComplete _ _

theorem quiet_handler (act : Db × String) (fut : act.1.Fut) : Quiet (handler env act fut) := by
  match act, fut with
  | (.getImsiSec, _), fut => exact quiet_onImsiSec env fut
  | (.updateImsi, _), fut => exact quiet_dbOpComplete _ _

/-- Where an AIR processor can stand between two phases; the final state of the other machine is
one of its ends. -/
abbrev AirInOrder (p : Progress kind) : Prop :=
  InOrder phase1 phase2 [phaseFinal, ulrPhaseFinal] p

theorem wp_reject {final : Nat} {p : Progress kind} {r : Rejection}
    {Q : Unit → Option (Progress kind) → Prop} (ha : p.answers = [])
    (hQ : Q () (some ⟨final, [⟨r.1 ++ [.result r.2]⟩], p.ran⟩)) :
    (reject final r).wp (progressGhost kind).spec (some p) Q := by
  unfold reject
  exact wp_answer_then ha (wp_setPhase hQ)

theorem phase1Body_order (req : Request) :
    (phase1Body env req).wp (progressGhost kind).spec (some ⟨phase1, [], [phase1]⟩)
      (fun _ g => ∃ q, g = some q ∧ AirInOrder q) := by
  refine Quiet.then (quiet_call rfl) fun d => ?_
  split
  · exact wp_reject rfl ⟨_, rfl, rfl, Or.inr ⟨by simp, rfl, by simp⟩⟩
  refine Quiet.then (quiet_call rfl) fun _ => wp_setPhase_then <|
    Quiet.then (quiet_issue (quiet_onImsiSec env)) fun success => ?_
  cases success with
  | true => exact quiet_call rfl _ _ fun _ => ⟨_, rfl, rfl, Or.inl ⟨rfl, rfl⟩⟩
  | false => exact wp_reject rfl ⟨_, rfl, rfl, Or.inr ⟨by simp, rfl, by simp⟩⟩

theorem phase2Body_order :
    (phase2Body cipher kdf env).wp (progressGhost kind).spec (some ⟨phase2, [], [phase1, phase2]⟩)
      (fun _ g => ∃ q, g = some q ∧ AirInOrder q) := by
  refine Quiet.then (quiet_call rfl) fun result => Quiet.then (quiet_call rfl) fun d => ?_
  split
  · exact wp_reject rfl ⟨_, rfl, rfl, Or.inr ⟨by simp, rfl, by simp⟩⟩
  refine wp_answer_then rfl <| Quiet.then (quiet_call rfl) fun _ => wp_setPhase_then <|
    Quiet.then (quiet_issue fun fut => quiet_dbOpComplete _ _) fun success => ?_
  cases success with
  | true => exact quiet_call rfl _ _ fun _ => ⟨_, rfl, rfl, Or.inl ⟨rfl, rfl⟩⟩
  | false => exact wp_setPhase ⟨_, rfl, rfl, Or.inr ⟨by simp, rfl, by simp⟩⟩

theorem phase3Body_order (a : Aia) :
    phase3Body.wp (progressGhost kind).spec (some ⟨phase3, [a], [phase1, phase2, phase3]⟩)
      (fun _ g => ∃ q, g = some q ∧ AirInOrder q) :=
  wp_setPhase ⟨_, rfl, rfl, Or.inr ⟨by simp, rfl, by simp⟩⟩

theorem ready_phase {phase : Nat} {x : BitVec 32} {d : Data} (h : ready phase x d = true) :
    phase = phase1 ∨ phase = phase2 ∨ phase = phase3 := by
  unfold ready at h
  split at h
  · exact Or.inl ‹_›
  split at h
  · exact Or.inr (Or.inl ‹_›)
  split at h
  · exact Or.inr (Or.inr ‹_›)
  · cases h

theorem body_order (req : Request) (p : Progress kind) (x : BitVec 32) (d : Data)
    (h : AirInOrder p) (hf : p.phase ≠ phaseFinal) (hr : ready p.phase x d = true) :
    (body cipher kdf env req p.phase).wp (progressGhost kind).spec
      (some { p with ran := p.ran ++ [p.phase] }) (fun _ g => ∃ q, g = some q ∧ AirInOrder q) := by
  have hnot : p.phase ∉ [phaseFinal, ulrPhaseFinal] := by
    rcases ready_phase hr with e | e | e <;> rw [e] <;> decide
  obtain ⟨hphase, hran, hans⟩ := h.next_range hnot
  rw [hran]
  obtain ⟨phase, answers, ran⟩ := p
  simp only at hphase hans hr ⊢
  rcases ready_phase hr with rfl | rfl | rfl
  · obtain rfl : answers = [] := List.length_eq_zero_iff.mp hans
    rw [show ran.length = 0 by omega]
    exact phase1Body_order env req
  · obtain rfl : answers = [] := List.length_eq_zero_iff.mp hans
    rw [show ran.length = 1 by simp only [phase1, phase2] at hphase; omega]
    exact phase2Body_order cipher kdf env
  · obtain ⟨a, rfl⟩ : ∃ a, answers = [a] := List.length_eq_one_iff.mp hans
    rw [show ran.length = 2 by simp only [phase1, phase3] at hphase; omega]
    exact phase3Body_order a

/-- The order of the phases of an AIR. -/
theorem air_in_order {req : Request} {d : Data} {C : State kind → Env kind × Move → Prop}
    {s : State kind} (h : Run (code cipher kdf env req) C (State.init phase1 d) s) :
    s.core.ran.Pairwise (· < ·) ∧ s.core.answers.length ≤ 1 ∧
      (s.worker = none → AirInOrder s.core.progress) := by
  refine phases_in_order (fun p hp => ?_) (body_order cipher kdf env req) (quiet_handler env)
    (by decide) h
  rcases List.mem_cons.mp hp with rfl | hp
  · exact Or.inl rfl
  · rw [List.mem_singleton.mp hp]
    exact Or.inr fun _ _ => rfl

end

end OpenairHss.AirProcessor

namespace OpenairHss.Requests

open ByteVec OpenairHss.Processor Hsssec

/-- **Each phase of a ULR and of an AIR is run at most once, in increasing order, and at most one
answer is sent**, whatever the order of callbacks and messages. -/
theorem phases_once {R : Type} (cipher : BlockCipher R)
    (kdf : List (BitVec 8) → List (BitVec 8) → Bytes 32) (env : AirProcessor.Surroundings R) :
    (∀ json req d s, Run (Ulr.code json req) (fun _ _ => True) (State.init Ulr.phase1 d) s →
      s.core.ran.Pairwise (· < ·) ∧ s.core.answers.length ≤ 1) ∧
    (∀ req d s, Run (AirProcessor.code cipher kdf env req) (fun _ _ => True)
        (State.init AirProcessor.phase1 d) s →
      s.core.ran.Pairwise (· < ·) ∧ s.core.answers.length ≤ 1) := by
  refine ⟨fun json req d s h => ?_, fun req d s h => ?_⟩
  · obtain ⟨h1, h2, _⟩ := Ulr.ulr_in_order h
    exact ⟨h1, h2⟩
  · obtain ⟨h1, h2, _⟩ := AirProcessor.air_in_order cipher kdf env h
    exact ⟨h1, h2⟩

/-! ### A ULR and an AIR -/

/-- A ULR with Initial-Attach. -/
def sampleUlr : Ulr.Request where
  auth_session_state := some 1
  user_name := some "001010000000001"
  origin_host := some "mme.a"
  origin_realm := some "a"
  rat_type := some 1004
  ulr_flags := some 0x22
  visited_plmn_id := some [0x00, 0xf1, 0x10]
  imei := none
  software_version := none
  tgpp2_meid := none
  ue_srvcc_capability := none
  supported_features := []
  u32 := 0

def sampleRow : Ulr.ImsiInfoRow :=
  ⟨some "001010000000001", none, none, none, some "", some 1, none, some 0, none⟩

/-- A database that knows the subscriber and the MME and has no events. -/
def sampleDb : (act : Ulr.Db × String) → act.1.Fut
  | (.getImsiInfo, _) => some (some sampleRow)
  | (.getExtIds, _) => some []
  | (.getEvntidsMsisdn, _) => some []
  | (.getEvntidsExtids, _) => some []
  | (.getEvntsEvntids, _) => some []
  | (.getMmeidHost, _) => some (some (some 1))
  | (.updateImsi, _) => some ()

def sampleAsk : (q : Ulr.Qry) → Option q.Rep
  | .getEventIdsFromExtId _ => some []
  | .getEvent _ _ => some none
  | .fdJsonAddAvps _ => some ()
  | .addJson _ => some ()

def sampleUlrEnv : Env Ulr.kind := ⟨sampleDb, fun _ => .async, sampleAsk⟩

def sampleUlrData : Ulr.Data :=
  Ulr.Data.init ⟨"", "", "", "", "", 0, "", 0, "", "", 0⟩ ⟨"", "", "", "", "", 0, "", 0, "", "", 0⟩

def sampleAir : AirProcessor.Request where
  auth_session_state := some 1
  user_name := some "001010000000001"
  eutran_vectors := some 1
  eutran_resync := none
  utran_vectors := none
  utran_resync := none
  visited_plmn_id := some [0x00, 0xf1, 0x10]

def sampleSurroundings : AirProcessor.Surroundings (Bytes 16) where
  roamallow := true
  u32 := 0
  imsi_hex := fun _ => 0
  m_auts := fun _ => 0
  sqn_nb := 0
  rands := fun _ _ => 0
  m_vector := fun _ => ⟨fun _ => 0, 0, fun _ => 0, fun _ => 0, fun _ => 0⟩
  table := fun _ => 0

def sampleSec : (act : AirProcessor.Db × String) → act.1.Fut
  | (.getImsiSec, _) => some (some ⟨some "", some 32, some "", some ""⟩)
  | (.updateImsi, _) => some ()

def sampleAirEnv : Env AirProcessor.kind := ⟨sampleSec, fun _ => .async, nofun⟩

def sampleAirData : AirProcessor.Data :=
  AirProcessor.Data.init ⟨fun _ => 0, fun _ => 0, fun _ => 0, fun _ => 0⟩ fun _ => 0

/-- The worker first, then callbacks, messages and the database. -/
def workFirst : List Move := [.work, .loop, .callback 0, .finish 0, .take, .deliver 0]

def sampleUlrEnd : State Ulr.kind :=
  greedy (Ulr.code (fun _ => true) sampleUlr) sampleUlrEnv (fun _ => true) workFirst 100
    (State.init Ulr.phase1 sampleUlrData)

def sampleAirEnd : State AirProcessor.kind :=
  greedy (AirProcessor.code Air.xorCipher (fun _ _ _ => 0) sampleSurroundings sampleAir)
    sampleAirEnv (fun _ => true) workFirst 50 (State.init AirProcessor.phase1 sampleAirData)

theorem phases_once_samples :
    sampleUlrEnd.core.ran = [201, 202, 203, 204, 205] ∧ sampleAirEnd.core.ran = [301, 302, 303] ∧
      sampleUlrEnd.core.answers.length ≤ 1 ∧ sampleAirEnd.core.answers.length ≤ 1 := by
  obtain ⟨hu, ha⟩ := phases_once Air.xorCipher (fun _ _ _ => 0) sampleSurroundings
  exact ⟨rfl, rfl,
    (hu (fun _ => true) sampleUlr sampleUlrData _ (greedy_run (fun _ _ _ => trivial) _ _ _)).2,
    (ha sampleAir sampleAirData _ (greedy_run (fun _ _ _ => trivial) _ _ _)).2⟩

end OpenairHss.Requests
