import OpenairHss.Air.Processor
import OpenairHss.Cir.Answers
import OpenairHss.Nir.Request
import OpenairHss.Pur.Request
import OpenairHss.Srr.Request
import OpenairHss.Ulr.Rule

/-!
# The results of the answers

Every answer of the HSS is to carry one Result-Code or one Experimental-Result.

* A CIA, a PUA and an AIA do.
* A ULA does, unless the subscription data of the subscriber puts a result into it.
* An SRA does, unless there is no subscriber with the MSISDN of the SRR: then it carries none.
* An NIA carries two.

`oneResult_answers` collects the six.
-/

namespace OpenairHss

open Interact Processor Diameter

/-! ### CIR -/

namespace Cir

/-- The results among the AVPs of a CIA. -/
def results (avps : List CiaAvp) : List DiamResult :=
  avps.filterMap fun
    | .result r => some r
    | _ => none

@[simp] theorem results_append (l l' : List CiaAvp) : results (l ++ l') = results l ++ results l' :=
  List.filterMap_append

/-- A CIA with one result. -/
def Effect.OneResult : Effect → Prop
  | .cia avps => Diameter.OneResult (results avps)
  | _ => True

theorem results_statuses {α : Type} (l : List α) (f : α → ConfigStatus) :
    results (l.map fun e => .monitoringEventConfigStatus (f e)) = [] := by
  induction l with
  | nil => rfl
  | cons e l ih => exact ih

theorem results_oneShotStatuses (sts : List IdaStatus) (m : EvenStatusMap) :
    results (oneShotStatuses sts m) = [] := by
  induction sts generalizing m with
  | nil => rfl
  | cons st sts ih =>
    unfold oneShotStatuses
    split
    · exact ih m
    · split
      · exact ih m
      · exact ih _

theorem oneResult_notSentCia (ret : Int) (m : EvenStatusMap) :
    Diameter.OneResult (results (notSentCia ret m)) := by
  have hcause : results (if ret = imsiNotActive then [.s6tHssCause absentSubscriber] else []) = [] := by
    split <;> rfl
  unfold notSentCia
  rw [results_append, results_append, results_statuses, hcause]
  rfl

theorem oneResult_singleCia (m : EvenStatusMap) (ida : Ida) :
    Diameter.OneResult (results (singleCia m ida)) := by
  simp only [singleCia, results_append, results_statuses]
  split
  · rw [results_oneShotStatuses]
    rfl
  · rw [results_append, results_statuses]
    rfl

/-- `sendINSDRreq` sends no CIA. -/
theorem all_sendINSDRreq (o : IdrOutcome) (cir : Request) (imsi : String) (m : EvenStatusMap)
    (group : Bool) : (sendINSDRreq o cir imsi m group).All Effect.OneResult := by
  have hpost : ∀ (e : Effect) (r : Except Stop Int), e.isCia = false →
      (⟨[e], r⟩ : Code Int).All Effect.OneResult := by
    intro e r he e' he'
    obtain rfl := List.mem_singleton.mp he'
    cases e' with
    | cia avps => exact absurd he nofun
    | _ => trivial
  cases group with
  | false =>
    rw [sendINSDRreq_single]
    cases o.fate with
    | sent info => exact hpost _ _ rfl
    | _ => exact nofun
  | true =>
    rw [sendINSDRreq_group]
    cases o.fate with
    | notActive => exact hpost _ _ rfl
    | down => exact hpost _ _ rfl
    | sent info => exact hpost _ _ rfl
    | _ => exact nofun

theorem all_sendAll (out : Outcomes) (cir : Request) (m : EvenStatusMap) (imsis : List String)
    (k : Nat) : (sendAll out cir m k imsis).All Effect.OneResult := by
  induction imsis generalizing k with
  | nil => exact Emit.all_pure _
  | cons imsi imsis ih => exact Emit.all_bind (all_sendINSDRreq _ _ _ _ _) fun _ => ih (k + 1)

theorem all_processSimpleImsi (out : Outcomes) (cir : Request) (imsi : String) (msisdn : Int) :
    (processSimpleImsi out cir imsi msisdn).All Effect.OneResult := by
  refine Emit.all_bind (all_sendINSDRreq _ _ _ _ _) fun ret => ?_
  split
  · exact Emit.all_emit (oneResult_notSentCia ret _)
  · exact Emit.all_pure _

theorem all_processMultiImsi (out : Outcomes) (cir : Request) (imsis : List String) :
    (processMultiImsi out cir imsis).All Effect.OneResult := by
  refine Emit.all_bind (Emit.all_emit trivial) fun _ => ?_
  refine Emit.all_bind (all_sendAll _ _ _ _ _) fun _ => ?_
  exact Emit.all_bind (Emit.all_emit rfl) fun _ => Emit.all_emit trivial

theorem all_coirUser (out : Outcomes) (cir : Request) :
    (coirUser out cir).All Effect.OneResult := by
  unfold coirUser
  split
  · refine Emit.all_bind (Emit.all_ask _) fun msisdn64 => ?_
    refine Emit.all_bind (Emit.all_ask _) fun found => ?_
    cases found with
    | none => exact Emit.all_pure _
    | some imsi => exact Emit.all_bind (all_processSimpleImsi _ _ _ _) fun _ => Emit.all_pure _
  · split
    · refine Emit.all_bind (Emit.all_ask _) fun known => ?_
      cases known with
      | false => exact Emit.all_pure _
      | true =>
        refine Emit.all_bind (Emit.all_ask _) fun imsis => ?_
        exact Emit.all_bind (all_processMultiImsi _ _ _) fun _ => Emit.all_pure _
    · exact Emit.all_pure _

/-- **Every CIA carries one result**, also that of the handler of the IDA. -/
theorem all_coirProcess (out : Outcomes) (cir : Request) :
    (coirProcess out cir).All Effect.OneResult := by
  refine Emit.all_bind (Emit.all_catching (all_coirUser out cir) (Emit.all_pure _)) fun left => ?_
  cases left with
  | none => exact Emit.all_pure _
  | some code => exact Emit.all_emit rfl

theorem all_processAnswer (idr : Idr) (ida : Ida) (deleted : Bool) :
    (processAnswer idr ida deleted).All Effect.OneResult := by
  refine Emit.all_bind (Emit.all_call _) fun _ => ?_
  split
  · exact Emit.all_emit (oneResult_singleCia _ _)
  · split
    · exact Emit.all_emit trivial
    · exact Emit.all_emit trivial

end Cir

/-! ### AIR -/

namespace AirProcessor

open ByteVec Hsssec

/-- The results among the AVPs of an AIA. -/
def results (avps : List AiaAvp) : List DiamResult :=
  avps.filterMap fun
    | .result r => some r
    | _ => none

@[simp] theorem results_append (l l' : List AiaAvp) : results (l ++ l') = results l ++ results l' :=
  List.filterMap_append

theorem results_vectors (l : List AucVector) : results (l.map .authenticationInfo) = [] := by
  induction l with
  | nil => rfl
  | cons v l ih => exact ih

/-- No result is put into the answer before it is sent. -/
def resultRule : DataRule kind where
  data d := results d.ans = []
  ans a := OneResult (results a.avps)
  act _ := True
  fut _ _ := True
  rep _ _ := True

theorem oneResult_add {ans : List AiaAvp} (h : results ans = []) (r : DiamResult) :
    OneResult (results (ans ++ [.result r])) := by
  rw [results_append, h]
  rfl

/-- What checks leave in the answer. -/
def NoResult : Except Rejection Data → Prop
  | .error r => results r.1 = []
  | .ok d => results d.ans = []

theorem noResult_phase1Checks {R : Type} (env : Surroundings R) (req : Request) {d : Data}
    (h : results d.ans = []) : NoResult (phase1Checks env req d) := by
  have hans : results (d.ans ++ [.origin, .authSessionState (req.auth_session_state.getD env.u32)]) =
      [] := by
    rw [results_append, h]
    rfl
  unfold phase1Checks
  dsimp only
  split
  · exact hans
  split
  · exact hans
  split
  · exact hans
  split
  · exact hans
  split
  · split
    · exact hans
    · exact hans
  · exact hans

section

variable {R : Type} {cipher : BlockCipher R}
  {kdf : List (BitVec 8) → List (BitVec 8) → Bytes 32} {env : Surroundings R}

theorem obeys_reject {final : Nat} {r : Rejection} (h : results r.1 = []) :
    Obeys resultRule (reject final r) :=
  obeys_bind (obeys_answer (oneResult_add h r.2)) fun _ => obeys_call trivial

theorem obeys_onImsiSec (fut : Option (Option DataAccess.SecRow)) :
    Obeys resultRule (onImsiSec env fut) := by
  unfold onImsiSec
  split
  · exact obeys_throw
  split
  · exact obeys_dbOpComplete _ _
  · exact obeys_bind (obeys_update fun _ h => h) fun _ => obeys_dbOpComplete _ _

theorem obeys_phase1Body (req : Request) : Obeys resultRule (phase1Body env req) := by
  refine obeys_read fun d hd => ?_
  have hchecks := noResult_phase1Checks env req hd
  cases hc : phase1Checks env req d with
  | error r =>
    rw [hc] at hchecks
    exact obeys_reject hchecks
  | ok d' =>
    rw [hc] at hchecks
    refine obeys_bind (obeys_update fun _ _ => hchecks) fun _ => obeys_bind (obeys_call trivial)
      fun _ => obeys_bind (obeys_issue trivial fun fut _ => obeys_onImsiSec fut) fun success => ?_
    cases success with
    | true => exact obeys_call trivial
    | false => exact obeys_reject hchecks

theorem obeys_phase2Body : Obeys resultRule (phase2Body cipher kdf env) := by
  refine obeys_bind (obeys_call trivial) fun result => obeys_read fun d hd => ?_
  split
  · exact obeys_reject hd
  · refine obeys_bind (obeys_answer (oneResult_add ?_ _)) fun _ =>
      obeys_bind (obeys_update fun _ h => h) fun _ => obeys_bind (obeys_call trivial) fun _ =>
      obeys_bind (obeys_issue trivial fun fut _ => obeys_dbOpComplete _ _) fun success => ?_
    · rw [results_append, hd, results_vectors]
      rfl
    · cases success with
      | true => exact obeys_call trivial
      | false => exact obeys_call trivial

/-- **Every AIA carries one result.** -/
theorem oneResult_aia {C : State kind → Env kind × Move → Prop} {req : Request}
    {sec : DataAccess.ImsiSec} {plmn_id : Bytes 3} {s : State kind}
    (h : Run (code cipher kdf env req) C (State.init phase1 (Data.init sec plmn_id)) s) :
    ∀ a ∈ s.core.answers, OneResult (results a.avps) := by
  have hbody : ∀ phase, Obeys resultRule ((code cipher kdf env req).body phase) := by
    intro phase
    change Obeys resultRule (body cipher kdf env req phase)
    unfold body
    split
    · exact obeys_phase1Body req
    split
    · exact obeys_phase2Body
    split
    · exact obeys_call trivial
    · exact obeys_ret _
  have hhandler : ∀ act fut, resultRule.act act → resultRule.fut act fut →
      Obeys resultRule ((code cipher kdf env req).handler act fut) := by
    intro act fut _ _
    match act, fut with
    | (.getImsiSec, _), fut => exact obeys_onImsiSec fut
    | (.updateImsi, _), fut => exact obeys_dbOpComplete _ _
  have hinv := DataRule.invariant (fun _ _ _ _ => hbody _) hhandler (fun _ _ _ _ => trivial) (fun _ _ _ _ _ _ => trivial)
    h rfl rfl ⟨rfl, nofun, nofun⟩
  exact hinv.answers

end

end AirProcessor

/-! ### ULR -/

namespace Ulr

section

variable {added : String → List DiamResult}

/-- The results among the AVPs of a ULA; `added` is what `fdJsonAddAvps` adds for a text. -/
def results (added : String → List DiamResult) (avps : List UlaAvp) : List DiamResult :=
  avps.flatMap fun
    | .result r => [r]
    | .subscriptionData text => added text
    | _ => []

@[simp] theorem results_append (l l' : List UlaAvp) :
    results added (l ++ l') = results added l ++ results added l' := List.flatMap_append

theorem oneResult_add {ans : List UlaAvp} (h : results added ans = []) (r : DiamResult) :
    OneResult (results added (ans ++ [.result r])) := by
  rw [results_append, h]
  rfl

/-- There is no result in the answer, and none in the subscription data. -/
def Free (added : String → List DiamResult) (d : Data) : Prop :=
  results added d.ans = [] ∧ added d.orig_info.subscription_data = []

/-- The checks add no result. -/
theorem results_of_addedTo {d : Data} (h : Free added d) {ans : List UlaAvp}
    (ha : AddedTo d ans) : results added ans = [] := by
  obtain ⟨l, hl, rfl⟩ := ha
  have hnone : ∀ a ∈ l, results added [a] = [] := by
    intro a ha
    cases hl a ha with
    | supportedFeatures => rfl
    | ulaFlags => rfl
    | subscriptionData => exact (List.append_nil _).trans h.2
  rw [results_append, h.1, List.nil_append]
  refine List.flatMap_eq_nil_iff.mpr fun a ha => ?_
  exact (List.append_nil _).symm.trans (hnone a ha)

/-- What the rows of subscribers put into an answer. -/
def Harmless (added : String → List DiamResult) : (act : Db × String) → act.1.Fut → Prop
  | (.getImsiInfo, _), fut => ∀ row, fut = some (some row) → ∀ text ∈ row.subscription_data,
      added text = []
  | _, _ => True

/-- No result is put into the answer before it is sent. -/
def resultRule (added : String → List DiamResult) : DataRule kind where
  data := Free added
  ans a := OneResult (results added a.avps)
  act _ := True
  fut := Harmless added
  rep _ _ := True

/-- The writes of the handlers and phases keep the rule. -/
theorem tolerates_resultRule (json : String → Bool) (req : Request) :
    Tolerates json req (resultRule added) where
  imsiInfo := by
    intro text row d _ h hd
    refine ⟨hd.1, ?_⟩
    change added (row.subscription_data.getD d.orig_info.subscription_data) = []
    cases hrow : row.subscription_data with
    | none => exact hd.2
    | some text => exact h row rfl text hrow
  extIds _ _ hd := hd
  eventIdsMsisdn _ _ hd := hd
  eventIdsExtIds _ _ hd := hd
  events _ _ hd := hd
  sort hd := hd
  mmeIdentity _ hd := hd
  callExtIds _ := trivial
  callEvents _ _ _ := trivial
  begin := by
    intro d hd
    refine ⟨?_, hd.2⟩
    rw [results_append, hd.1]
    rfl
  origin hd := hd
  calls _ := ⟨trivial, trivial, trivial, trivial⟩
  refuse hd _ := oneResult_add hd.1 _
  rejected := by
    intro d r hd hr
    have hchecks := phase2Checks_checked json req d
    rw [hr] at hchecks
    exact oneResult_add (results_of_addedTo hd hchecks.1) r.2
  accepted := by
    intro d d' d₀ hd hd' hd₀
    have hchecks := phase2Checks_checked json req d
    rw [hd'] at hchecks
    exact ⟨results_of_addedTo hd hchecks.ans, hd₀.2⟩
  mmeId hd := hd
  callUpdate _ := trivial

/-- An update that does not touch the answer and the subscription data. -/
theorem obeys_aside {f : Data → Data} (h : ∀ d, (f d).ans = d.ans ∧ (f d).orig_info = d.orig_info) :
    Obeys (resultRule added) (updateData (K := kind) f) := by
  refine obeys_update fun d hd => ?_
  obtain ⟨hans, horig⟩ := h d
  exact ⟨by rw [hans]; exact hd.1, by rw [horig]; exact hd.2⟩

theorem obeys_askEventIds (extids : List String) :
    Obeys (resultRule added) (askEventIds extids) := by
  induction extids with
  | nil => exact obeys_ret _
  | cons extid rest ih =>
    exact obeys_query fun _ _ => obeys_bind (obeys_aside fun _ => ⟨rfl, rfl⟩) fun _ => ih

theorem obeys_askEvents (ids : List EventId) : Obeys (resultRule added) (askEvents ids) := by
  induction ids with
  | nil => exact obeys_ret _
  | cons ei rest ih =>
    exact obeys_query fun _ _ => obeys_bind (obeys_aside fun _ => ⟨rfl, rfl⟩) fun _ => ih

theorem obeys_addEvents (events : List Event) : Obeys (resultRule added) (addEvents events) := by
  induction events with
  | nil => exact obeys_ret _
  | cons e rest ih =>
    refine obeys_query fun _ _ => obeys_bind (obeys_update fun d hd => ⟨?_, hd.2⟩) fun _ => ih
    rw [results_append, hd.1]
    rfl

theorem obeys_phase3Body : Obeys (resultRule added) phase3Body := by
  refine obeys_read fun d _ => obeys_bind ?_ fun _ => obeys_read fun d hd =>
    obeys_bind (obeys_answer (oneResult_add hd.1 _)) fun _ => obeys_bind ?_ fun _ =>
    obeys_call trivial
  · unfold collectEvents
    split
    · refine obeys_bind (obeys_askEventIds _) fun _ => obeys_read fun d _ =>
        obeys_bind (obeys_askEvents _) fun _ => obeys_read fun d _ => obeys_addEvents _
    · exact obeys_ret _
  · unfold reportRoaming
    split
    · exact obeys_aside fun _ => ⟨rfl, rfl⟩
    · exact obeys_ret _

/-- **Every ULA carries one result**, if the subscription data of the subscribers puts none into
it. -/
theorem oneResult_ula {json : String → Bool} {req : Request} {orig new : ImsiInfo}
    (hstart : added orig.subscription_data = []) {s : State kind}
    (h : Run (code json req) (fun _ l => ∀ act, Harmless added act (l.1.db act))
      (State.init phase1 (Data.init orig new)) s) :
    ∀ a ∈ s.core.answers, OneResult (results added a.avps) := by
  have T : Tolerates json req (resultRule added) := tolerates_resultRule json req
  have h0 : (resultRule added).Holds (State.init phase1 (Data.init orig new)).core :=
    ⟨⟨rfl, hstart⟩, nofun, nofun⟩
  have hinv := DataRule.invariant (fun _ _ _ _ => T.body fun _ => obeys_phase3Body) T.handler
    (fun _ _ hC act => hC act) (fun _ _ _ _ _ _ => trivial) h rfl rfl h0
  exact hinv.answers

end

end Ulr

/-! ### All requests -/

/-- **Which answers carry one result**: every AIA, PUA and CIA; the ULAs of runs in which no
subscription data puts a result into the message; the SRAs to requests that do not give a MSISDN
that nobody has; and no NIA. -/
theorem oneResult_answers (added : String → List DiamResult) (hempty : added "" = []) :
    (∀ (json : String → Bool) (req : Ulr.Request) (orig new : Ulr.ImsiInfo) (s : State Ulr.kind),
        orig.subscription_data = "" →
      Run (Ulr.code json req) (fun _ l => ∀ act, Ulr.Harmless added act (l.1.db act))
        (State.init Ulr.phase1 (Ulr.Data.init orig new)) s →
      ∀ a ∈ s.core.answers, OneResult (Ulr.results added a.avps)) ∧
    (∀ (R : Type) (cipher : Hsssec.BlockCipher R)
        (kdf : List (BitVec 8) → List (BitVec 8) → ByteVec.Bytes 32)
        (env : AirProcessor.Surroundings R) (req : AirProcessor.Request)
        (sec : DataAccess.ImsiSec) (plmn_id : ByteVec.Bytes 3) (s : State AirProcessor.kind),
      Run (AirProcessor.code cipher kdf env req) (fun _ _ => True)
        (State.init AirProcessor.phase1 (AirProcessor.Data.init sec plmn_id)) s →
      ∀ a ∈ s.core.answers, OneResult (AirProcessor.results a.avps)) ∧
    (∀ mem db pur db' ans, Pur.puurProcess mem db pur = some (db', ans) →
      OneResult (Pur.results ans)) ∧
    (∀ out cir avps, Cir.Effect.cia avps ∈ (Cir.coirProcess out cir).effects →
      OneResult (Cir.results avps)) ∧
    (∀ idr ida deleted avps, Cir.Effect.cia avps ∈ (Cir.processAnswer idr ida deleted).effects →
      OneResult (Cir.results avps)) ∧
    (∀ out nir mem ans, Nir.niirProcess out nir mem = some ans → ¬ OneResult (Nir.results ans)) ∧
    (∀ mem db srr ans, Srr.serifsrProcess mem db srr = some ans →
      (OneResult (Srr.results ans) ↔ ¬ Srr.UnknownMsisdn mem db srr)) := by
  refine ⟨?_, ?_, ?_, ?_, ?_, ?_, ?_⟩
  · intro json req orig new s horig h
    exact Ulr.oneResult_ula (by rw [horig]; exact hempty) h
  · intro R cipher kdf env req sec plmn_id s h
    exact AirProcessor.oneResult_aia h
  · intro mem db pur db' ans h
    exact Pur.oneResult_puurProcess h
  · intro out cir avps h
    exact Cir.all_coirProcess out cir _ h
  · intro idr ida deleted avps h
    exact Cir.all_processAnswer idr ida deleted _ h
  · intro out nir mem ans h
    obtain ⟨r, hr⟩ := Nir.results_niirProcess h
    rw [hr]
    exact nofun
  · intro mem db srr ans h
    exact Srr.oneResult_iff h

/-! ### An unknown MSISDN, and a request without a user -/

/-- Fields of `DAImsiInfo` that nobody has written. -/
def Ulr.ImsiInfo.blank : Ulr.ImsiInfo := ⟨"", "", "", "", "", 0, "", 0, "", "", 0⟩

def Srr.sampleMemory : Srr.Memory := ⟨[], Ulr.ImsiInfo.blank⟩

/-- An SRR for the MSISDN 33612345678. -/
def Srr.sampleSrr : Srr.Request := ⟨some 1, some [0x33, 0x61, 0x23, 0x45, 0x67, 0x8f], none, none⟩

def Nir.sampleMemory : Nir.Memory := ⟨"", "", fun _ => 0⟩

/-- A database that finds nothing. -/
def Nir.noOutcomes : Nir.Outcomes where
  getSubDataFromImsi _ := some none
  getMsisdnFromImsi _ := some none
  getExtIdsFromImsi _ := some none
  getImsiFromMsisdn _ := some none
  getImsiListFromExtId _ := some []
  updateValidityTime _ _ := some ()
  updateNIRDestination _ _ _ := some ()
  apnValue _ := some none

def Nir.sampleNir : Nir.Request := ⟨none, none, none, none, none, none, none⟩

/-- No subscriber has the MSISDN of an SRR: the answer carries no result.  An NIR without a user is
answered with two. -/
theorem not_oneResult :
    ¬ (∀ mem db srr ans, Srr.serifsrProcess mem db srr = some ans → OneResult (Srr.results ans)) ∧
      ¬ ∀ out nir mem ans, Nir.niirProcess out nir mem = some ans →
        OneResult (Nir.results ans) := by
  have hsrr : (Srr.serifsrProcess Srr.sampleMemory DataAccess.noRows Srr.sampleSrr).map Srr.results =
      some [] := by decide +kernel
  have hnir : (Nir.niirProcess Nir.noOutcomes Nir.sampleNir Nir.sampleMemory).map Nir.results =
      some [.resultCode 2001, .experimental 5001] := by decide +kernel
  constructor
  · intro h
    obtain ⟨ans, hans, hres⟩ := Option.map_eq_some_iff.mp hsrr
    have hone := h _ _ _ ans hans
    rw [hres] at hone
    exact absurd hone (by decide)
  · intro h
    obtain ⟨ans, hans, hres⟩ := Option.map_eq_some_iff.mp hnir
    have hone := h _ _ _ ans hans
    rw [hres] at hone
    exact absurd hone (by decide)

/-- An SRR for an IMSI that nobody has carries one result. -/
theorem oneResult_answers_sample :
    ∃ ans, Srr.serifsrProcess Srr.sampleMemory DataAccess.noRows
        ⟨some 1, none, some "208930000000001", none⟩ = some ans ∧ OneResult (Srr.results ans) := by
  have hsome : (Srr.serifsrProcess Srr.sampleMemory DataAccess.noRows
      ⟨some 1, none, some "208930000000001", none⟩).isSome = true := by decide +kernel
  obtain ⟨ans, hans⟩ := Option.isSome_iff_exists.mp hsome
  refine ⟨ans, hans, ((oneResult_answers (fun _ => []) rfl).2.2.2.2.2.2 _ _ _ ans hans).mpr ?_⟩
  rintro ⟨msisdn, imsi, hu, hne, -⟩
  obtain ⟨rfl, rfl⟩ := Prod.mk.inj (Option.some.inj hu)
  exact hne rfl

end OpenairHss
