import OpenairHss.DataAccess.Identities
import OpenairHss.Lib.Emit
import OpenairHss.Ulr.Accepted
import OpenairHss.Ulr.Events

/-!
# The RIRs of a ULR

After its answer a ULR reports a change of the visited PLMN to the SCEFs of the events of type
`ROAMING_STATUS_EVT` (`reportPlmnChange`): one RIR after the other, each put together field by field.
An `FDException` of `send` is caught for one RIR; any other exception leaves the loop.

`add (avpScefReferenceId (), scef_id)` gives a text to an AVP of type Unsigned32: what is set is a
part of the address of that text.

* `roamingScefs_eq`: with every RIR sent, these are the RIRs of `reportRoaming`.
* `phase2Checks_plmn_id`: the PLMN of the request is in `m_plmn_id`.
* `reported_iff`: when every event is reported to its SCEF with its own SCEF-Reference-ID.
-/

namespace OpenairHss.Ulr

open DataAccess Diameter

/-! ### Putting together and sending -/

/-- The RIR that `phase3` puts together. -/
structure RoamingRir where
  destination_host : String
  destination_realm : Option String
  scef_id : String
  scef_reference_id : BitVec 32
  monitoring_type : Int
  visited_plmn_id : List (BitVec 8)

/-- What becomes of a RIR. -/
inductive Fate
  | sent
  /-- `send` throws an `FDException`. -/
  | notSent
  /-- Another exception, or one while the RIR is put together. -/
  | thrown
  deriving DecidableEq

/-- An event, the low half of the address of its `scef_id`, and what becomes of its RIR. -/
structure Attempt where
  event : DAEvent
  address : BitVec 32
  fate : Fate

def roamingRir (plmn_id : List (BitVec 8)) (x : Attempt) : RoamingRir where
  destination_host := x.event.scef_id
  destination_realm := realmOf x.event.scef_id
  scef_id := x.event.scef_id
  scef_reference_id := x.address
  monitoring_type := roamingStatusEvt
  visited_plmn_id := plmn_id

/-- The loop over `m_evtLst`. -/
def sendRirs (plmn_id : List (BitVec 8)) : List Attempt → Emit RoamingRir Unit
  | [] => pure ()
  | x :: rest => do
    if x.event.monitoring_type = roamingStatusEvt then
      match x.fate with
      | .sent => Emit.emit (roamingRir plmn_id x)
      | .notSent => pure ()
      | .thrown => Emit.ask none
    sendRirs plmn_id rest

/-- The end of `phase3`. -/
def reportPlmnChange (d : Data) (events : List Attempt) : Emit RoamingRir Unit :=
  Emit.catching
    (if d.orig_info.ms_ps_status = "ATTACHED" ∧
        d.orig_info.visited_plmnid ≠ d.new_info.visited_plmnid then sendRirs d.plmn_id events
      else pure ())
    (pure ())

/-- The event as `m_evtLst` of the processor has it. -/
def eventOf (e : DAEvent) : Event := ⟨e.scef_id, e.monitoring_type, e.mec_json⟩

/-! ### The loop -/

/-- The RIR is sent, if nothing throws before it. -/
def Sends (x : Attempt) : Prop := x.event.monitoring_type = roamingStatusEvt ∧ x.fate = .sent

/-- The RIR leaves the loop. -/
def Throws (x : Attempt) : Prop := x.event.monitoring_type = roamingStatusEvt ∧ x.fate = .thrown

instance (x : Attempt) : Decidable (Sends x) := inferInstanceAs (Decidable (_ ∧ _))

/-- The turn of an event of another type. -/
theorem sendRirs_other {x : Attempt} (h : x.event.monitoring_type ≠ roamingStatusEvt)
    (plmn_id : List (BitVec 8)) (rest : List Attempt) :
    (sendRirs plmn_id (x :: rest)).effects = (sendRirs plmn_id rest).effects := by
  rw [sendRirs, if_neg h]

/-- The turn of an event that is to be reported. -/
theorem sendRirs_roaming {x : Attempt} (h : x.event.monitoring_type = roamingStatusEvt)
    (plmn_id : List (BitVec 8)) (rest : List Attempt) :
    (sendRirs plmn_id (x :: rest)).effects = match x.fate with
      | .sent => roamingRir plmn_id x :: (sendRirs plmn_id rest).effects
      | .notSent => (sendRirs plmn_id rest).effects
      | .thrown => [] := by
  rw [sendRirs, if_pos h]
  cases x.fate <;> rfl

/-- With every RIR sent, the SCEFs are those of `reportRoaming`. -/
theorem roamingScefs_eq (plmn_id : List (BitVec 8)) {events : List Attempt}
    (h : ∀ x ∈ events, x.fate = .sent) :
    (sendRirs plmn_id events).effects.map (·.destination_host) =
      roamingScefs (events.map fun x => eventOf x.event) := by
  induction events with
  | nil => rfl
  | cons x rest ih =>
    have hrest := ih fun y hy => h y (List.mem_cons_of_mem _ hy)
    unfold roamingScefs at hrest ⊢
    rw [List.map_cons, List.filter_cons]
    by_cases htype : x.event.monitoring_type = roamingStatusEvt
    · have hevent : decide ((eventOf x.event).monitoring_type = roamingStatusEvt) = true :=
        decide_eq_true htype
      rw [sendRirs_roaming htype, h x List.mem_cons_self, hevent, if_pos rfl]
      exact congrArg (x.event.scef_id :: ·) hrest
    · have hevent : decide ((eventOf x.event).monitoring_type = roamingStatusEvt) = false :=
        decide_eq_false htype
      rw [sendRirs_other htype, hevent, if_neg Bool.false_ne_true]
      exact hrest

/-! ### What is to be reported -/

/-- A RIR for an event. -/
structure Reports (plmn_id : List (BitVec 8)) (x : Attempt) (r : RoamingRir) : Prop where
  destination_host : r.destination_host = x.event.scef_id
  scef_id : r.scef_id = x.event.scef_id
  scef_reference_id : r.scef_reference_id.toNat = x.event.scef_ref_id
  visited_plmn_id : r.visited_plmn_id = plmn_id

/-- A RIR is sent for every event of type `ROAMING_STATUS_EVT` whose own RIR can be. -/
def AllReported (plmn_id : List (BitVec 8)) (events : List Attempt) (rirs : List RoamingRir) : Prop :=
  List.Forall₂ (Reports plmn_id) (events.filter fun x => decide (Sends x)) rirs

/-- The address happens to be the SCEF-Reference-ID of every event that is reported, and no RIR
leaves the loop before one that is sent. -/
def Faultless (events : List Attempt) : Prop :=
  (∀ x ∈ events, Sends x → x.address.toNat = x.event.scef_ref_id) ∧
    events.Pairwise fun x y => Throws x → ¬ Sends y

theorem faultless_cons {x : Attempt} {rest : List Attempt} :
    Faultless (x :: rest) ↔ (Sends x → x.address.toNat = x.event.scef_ref_id) ∧
      (Throws x → ∀ y ∈ rest, ¬ Sends y) ∧ Faultless rest := by
  rw [Faultless, Faultless, List.forall_mem_cons, List.pairwise_cons]
  constructor
  · rintro ⟨⟨hx, hrest⟩, hthrows, hpairs⟩
    exact ⟨hx, fun hx y hy => hthrows y hy hx, hrest, hpairs⟩
  · rintro ⟨hx, hthrows, hrest, hpairs⟩
    exact ⟨⟨hx, hrest⟩, fun y hy hx => hthrows hx y hy, hpairs⟩

/-- **What the loop sends.** -/
theorem allReported_iff (plmn_id : List (BitVec 8)) (events : List Attempt) :
    AllReported plmn_id events (sendRirs plmn_id events).effects ↔ Faultless events := by
  induction events with
  | nil => exact iff_of_true .nil ⟨fun x hx => absurd hx List.not_mem_nil, .nil⟩
  | cons x rest ih =>
    rw [faultless_cons, ← ih, AllReported, AllReported, List.filter_cons]
    by_cases htype : x.event.monitoring_type = roamingStatusEvt
    · rw [sendRirs_roaming htype]
      cases hfate : x.fate with
      | sent =>
        have hsends : Sends x := ⟨htype, hfate⟩
        have hthrows : ¬ Throws x := fun h => absurd (hfate.symm.trans h.2) nofun
        rw [if_pos (decide_eq_true hsends)]
        constructor
        · rintro (_ | ⟨hx, hrest⟩)
          exact ⟨fun _ => hx.scef_reference_id, fun h => absurd h hthrows, hrest⟩
        · rintro ⟨hx, -, hrest⟩
          exact .cons ⟨rfl, rfl, hx hsends, rfl⟩ hrest
      | notSent =>
        have hsends : ¬ Sends x := fun h => absurd (hfate.symm.trans h.2) nofun
        have hthrows : ¬ Throws x := fun h => absurd (hfate.symm.trans h.2) nofun
        rw [if_neg (by simpa using hsends)]
        exact ⟨fun h => ⟨fun h => absurd h hsends, fun h => absurd h hthrows, h⟩, fun h => h.2.2⟩
      | thrown =>
        have hsends : ¬ Sends x := fun h => absurd (hfate.symm.trans h.2) nofun
        have hthrows : Throws x := ⟨htype, hfate⟩
        rw [if_neg (by simpa using hsends), List.forall₂_nil_right_iff, List.filter_eq_nil_iff]
        constructor
        · intro hnone
          have hrest : ∀ y ∈ rest, ¬ Sends y := fun y hy => by simpa using hnone y hy
          refine ⟨fun h => absurd h hsends, fun _ => hrest, ih.mpr ⟨?_, ?_⟩⟩
          · exact fun y hy h => absurd h (hrest y hy)
          · exact List.pairwise_of_forall_mem_list fun _ _ z hz _ => hrest z hz
        · rintro ⟨-, hrest, -⟩ y hy
          simpa using hrest hthrows y hy
    · have hsends : ¬ Sends x := fun h => htype h.1
      have hthrows : ¬ Throws x := fun h => htype h.1
      rw [sendRirs_other htype, if_neg (by simpa using hsends)]
      exact ⟨fun h => ⟨fun h => absurd h hsends, fun h => absurd h hthrows, h⟩, fun h => h.2.2⟩

/-! ### After the checks of `phase2` -/

section

variable {json : String → Bool} {req : Request} {d d' : Data}

theorem supportedFeatures_plmn_id (fs : List SupportedFeatures) (u32 : BitVec 32) (d : Data) :
    (supportedFeatures fs u32 d).2.plmn_id = d.plmn_id := by
  induction fs generalizing u32 d with
  | nil => rfl
  | cons f fs ih =>
    unfold supportedFeatures
    dsimp only
    split
    · split
      · exact ih _ _
      · exact ih _ _
    · exact ih _ _

theorem addFeatures_plmn_id (req : Request) (u32 : BitVec 32) (d : Data) :
    (addFeatures req u32 d).plmn_id = d.plmn_id := by
  refine (supportedFeatures_plmn_id _ _ _).trans ?_
  split <;> rfl

theorem addSubscriptionData_plmn_id (h : addSubscriptionData json d = .ok d') :
    d'.plmn_id = d.plmn_id := by
  unfold addSubscriptionData at h
  split at h
  · split at h
    · exact absurd h nofun
    · obtain rfl := Except.ok.inj h
      rfl
  · obtain rfl := Except.ok.inj h
    rfl

/-- The PLMN of an accepted request is in `m_plmn_id`. -/
theorem phase2Checks_plmn_id (h : phase2Checks json req d = .ok d') :
    req.visited_plmn_id = some d'.plmn_id := by
  obtain ⟨d₆, h, hsub⟩ := ok_of_bind h
  unfold phase2Before at h
  dsimp only at h
  split at h
  · exact absurd h nofun
  obtain ⟨d₁, h₁, h⟩ := ok_of_bind h
  split at h
  · exact absurd h nofun
  obtain ⟨d₂, h₂, h⟩ := ok_of_bind h
  obtain ⟨plmn, hplmn, rfl⟩ := checkPlmn_ok h₂
  obtain ⟨d₃, h₃, h⟩ := ok_of_bind h
  obtain ⟨d₄, h₄, h₃⟩ := ok_of_bind h₃
  obtain rfl := checkImei_ok h₄
  obtain ⟨d₅, h₅, h₃⟩ := ok_of_bind h₃
  obtain rfl := checkSoftwareVersion_ok h₅
  split at h₃
  · exact absurd h₃ nofun
  obtain rfl := Except.ok.inj h₃
  obtain rfl := Except.ok.inj h
  rw [hplmn, addSubscriptionData_plmn_id hsub, addFeatures_plmn_id]

/-- The subscriber was attached, and the PLMN of the request has another text than the stored one. -/
def Moved (req : Request) (d : Data) : Prop :=
  d.orig_info.ms_ps_status = "ATTACHED" ∧
    ∀ plmn_id ∈ req.visited_plmn_id, d.orig_info.visited_plmnid ≠ plmnidToHexStr plmn_id

/-- **What is demanded of the RIRs of a ULR**: if the subscriber has moved, there is one for every
event of type `ROAMING_STATUS_EVT`, and otherwise there is none. -/
structure Demanded (req : Request) (d : Data) (events : List Attempt) (rirs : List RoamingRir) :
    Prop where
  moved : Moved req d → ∀ plmn_id ∈ req.visited_plmn_id, AllReported plmn_id events rirs
  stayed : ¬ Moved req d → rirs = []

/-- The RIRs of an accepted ULR. -/
theorem effects_reportPlmnChange (h : phase2Checks json req d = .ok d') (events : List Attempt) :
    (Moved req d → (reportPlmnChange d' events).effects = (sendRirs d'.plmn_id events).effects) ∧
      (¬ Moved req d → (reportPlmnChange d' events).effects = []) := by
  have hchecked := phase2Checks_checked json req d
  rw [h] at hchecked
  have horig : d'.orig_info = d.orig_info := hchecked.orig_info
  obtain ⟨plmn, hplmn, hinfo⟩ := (phase2Checks_accepted h).info
  have htext : d'.new_info.visited_plmnid = plmnidToHexStr plmn := by
    rw [hinfo]
    rfl
  have hmoved : Moved req d ↔ d'.orig_info.ms_ps_status = "ATTACHED" ∧
      d'.orig_info.visited_plmnid ≠ d'.new_info.visited_plmnid := by
    rw [Moved, hplmn, horig, htext]
    exact and_congr_right' ⟨fun h => h plmn rfl, fun h p hp => Option.some.inj hp ▸ h⟩
  unfold reportPlmnChange Emit.catching
  constructor
  · intro hm
    rw [if_pos (hmoved.mp hm)]
    split
    · exact List.append_nil _
    · rfl
    · rfl
  · intro hm
    rw [if_neg fun hc => hm (hmoved.mpr hc)]
    rfl

/-- **When the RIRs of a ULR are right.** -/
theorem reported_iff (h : phase2Checks json req d = .ok d') (events : List Attempt) :
    Demanded req d events (reportPlmnChange d' events).effects ↔ (Moved req d → Faultless events) := by
  obtain ⟨hmoved, hstayed⟩ := effects_reportPlmnChange h events
  have hplmn := phase2Checks_plmn_id h
  constructor
  · intro hd hm
    have hall := hd.moved hm _ (Option.mem_def.mpr hplmn)
    rw [hmoved hm] at hall
    exact (allReported_iff _ _).mp hall
  · intro hfaultless
    refine ⟨fun hm plmn_id hmem => ?_, hstayed⟩
    obtain rfl := Option.some.inj (hplmn.symm.trans hmem)
    rw [hmoved hm]
    exact (allReported_iff _ _).mpr (hfaultless hm)

end

open Requests

/-- A subscriber that was attached in no PLMN. -/
def sampleAttached : Data :=
  Data.init { sampleMemory with ms_ps_status := "ATTACHED" } sampleMemory

/-- The event 7 of a SCEF, whose `scef_id` lies at this address. -/
def sampleAttempt (address : BitVec 32) : Attempt :=
  ⟨⟨"scef.a", 7, 0, "", "x", "", roamingStatusEvt⟩, address, .sent⟩

theorem accepted_sample : ∃ d', phase2Checks (fun _ => true) sampleUlr sampleAttached = .ok d' :=
  ⟨_, rfl⟩

theorem moved_sample : Moved sampleUlr sampleAttached := by
  refine ⟨rfl, fun plmn_id hmem => ?_⟩
  obtain rfl := Option.some.inj hmem
  decide

theorem reported_iff_sample : ∃ d', phase2Checks (fun _ => true) sampleUlr sampleAttached = .ok d' ∧
    Demanded sampleUlr sampleAttached [sampleAttempt 7]
      (reportPlmnChange d' [sampleAttempt 7]).effects := by
  obtain ⟨d', h⟩ := accepted_sample
  refine ⟨d', h, (reported_iff h _).mpr fun _ => ⟨fun x hx _ => ?_, List.pairwise_singleton _ _⟩⟩
  obtain rfl := List.mem_singleton.mp hx
  rfl

/-- The `scef_id` lies elsewhere. -/
theorem not_reported_roaming : ¬ ∀ json req (d d' : Data) events, phase2Checks json req d = .ok d' →
    Demanded req d events (reportPlmnChange d' events).effects := by
  intro h
  obtain ⟨d', hd'⟩ := accepted_sample
  have hall := (h _ _ _ _ [sampleAttempt 0] hd').moved moved_sample _ rfl
  rw [(effects_reportPlmnChange hd' _).1 moved_sample] at hall
  have hone : (sendRirs d'.plmn_id [sampleAttempt 0]).effects =
      [roamingRir d'.plmn_id (sampleAttempt 0)] := rfl
  rw [hone] at hall
  rcases hall with _ | ⟨hreports, -⟩
  have href : (0 : BitVec 32).toNat = 7 := hreports.scef_reference_id
  exact absurd href (by decide)

end OpenairHss.Ulr
