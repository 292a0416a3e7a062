import OpenairHss.Processor.Data
import OpenairHss.Ulr.Checks
import OpenairHss.Ulr.Processor

/-!
# Rules for the data of a ULR processor

`Tolerates` lists what a `DataRule` must allow for the handlers and for the phases 1, 2, 4 and 5 to
keep it: one item for each of their writes, answers and calls.  `phase3` is left to the rule's
owner.

* `Tolerates.handler`: the handlers keep the rule.
* `Tolerates.body`: the phases keep it, if `phase3` does.
-/

namespace OpenairHss.Ulr

open Interact Processor Diameter

/-- The list in the statement of `getEventIdsFromExtIds`. -/
def quoted (extIds : List String) : String :=
  ",".intercalate (extIds.map fun extid => "'" ++ extid ++ "'")

/-- What a rule must allow. -/
structure Tolerates (json : String → Bool) (req : Request) (R : DataRule kind) : Prop where
  imsiInfo : ∀ {text row d}, R.act (.getImsiInfo, text) →
    R.fut (.getImsiInfo, text) (some (some row)) → R.data d →
    R.data { d with orig_info := getImsiInfoData row d.orig_info }
  extIds : ∀ {text l d}, R.act (.getExtIds, text) → R.fut (.getExtIds, text) (some l) → R.data d →
    R.data { d with extIdLst := d.extIdLst ++ l }
  eventIdsMsisdn : ∀ {text l d}, R.act (.getEvntidsMsisdn, text) →
    R.fut (.getEvntidsMsisdn, text) (some l) → R.data d →
    R.data { d with evtIdLst := d.evtIdLst ++ l }
  eventIdsExtIds : ∀ {text l d}, R.act (.getEvntidsExtids, text) →
    R.fut (.getEvntidsExtids, text) (some l) → R.data d →
    R.data { d with evtIdLst := d.evtIdLst ++ l }
  events : ∀ {text l d}, R.act (.getEvntsEvntids, text) →
    R.fut (.getEvntsEvntids, text) (some l) → R.data d → R.data { d with evtLst := d.evtLst ++ l }
  sort : ∀ {d}, R.data d → R.data { d with evtIdLst := d.evtIdLst.insertionSort EventId.le }
  mmeIdentity : ∀ {d} (id : Int), R.data d → R.data { d with mmeidentity := id }
  /-- The calls of the handlers. -/
  callExtIds : ∀ {d}, R.data d →
    R.act (.getEvntidsExtids, getEventIdsFromExtIdsText (quoted d.extIdLst))
  callEvents : ∀ {d scef_id}, R.data d → scef_id = "" ∨ scef_id ∈ d.evtIdLst.map (·.scef_id) →
    ∀ refs, R.act (.getEvntsEvntids, getEventsText scef_id refs)
  /-- The writes and calls of `phase1`. -/
  begin : ∀ {d}, R.data d → R.data { d with
    ans := d.ans ++ [.origin, .authSessionState (req.auth_session_state.getD req.u32)]
    new_info := { d.new_info with imsi := req.user_name.getD d.new_info.imsi } }
  origin : ∀ {d}, R.data d → R.data { d with new_info := { d.new_info with
    mmehost := req.origin_host.getD d.new_info.mmehost
    mmerealm := req.origin_realm.getD d.new_info.mmerealm } }
  calls : ∀ {d}, R.data d → R.act (.getImsiInfo, getImsiInfoText d.new_info.imsi) ∧
    R.act (.getExtIds, getExtIdsFromImsiText d.new_info.imsi) ∧
    R.act (.getEvntidsMsisdn, getEventIdsFromMsisdnText d.new_info.msisdn) ∧
    R.act (.getMmeidHost, getMmeIdFromHostText d.new_info.mmehost)
  refuse : ∀ {d r}, R.data d → r ≠ .resultCode erDiameterSuccess → R.ans ⟨d.ans ++ [.result r]⟩
  /-- The checks of `phase2`. -/
  rejected : ∀ {d r}, R.data d → phase2Checks json req d = .error r →
    R.ans ⟨r.1 ++ [.result r.2]⟩
  accepted : ∀ {d d' d₀}, R.data d → phase2Checks json req d = .ok d' → R.data d₀ →
    R.data { d₀ with
      ans := d'.ans, new_info := d'.new_info, present_flags := d'.present_flags
      plmn_id := d'.plmn_id, ulrflags := d'.ulrflags }
  /-- The write and the call of `phase4`. -/
  mmeId : ∀ {d}, R.data d → R.data { d with new_info := { d.new_info with mme_id := d.mmeidentity } }
  callUpdate : ∀ text, R.act (.updateImsi, text)

theorem obeys_callAddAvps {R : DataRule kind} (r : Except Rejection Data) :
    Obeys R (callAddAvps r) := by
  unfold callAddAvps
  split
  · split
    · exact obeys_query fun _ _ => obeys_ret _
    · exact obeys_ret _
  · exact obeys_ret _

namespace Tolerates

variable {json : String → Bool} {req : Request} {R : DataRule kind}

/-- Nothing is appended. -/
theorem data_append_none {α : Type} {P : Data → Prop} {g : Data → List α} {f : Data → List α → Data}
    (hf : ∀ d, f d (g d) = d) {d : Data} (h : P d) : P (f d (g d ++ [])) := by
  rw [List.append_nil, hf]
  exact h

section Handlers

variable (T : Tolerates json req R)
include T

theorem onImsiInfo {text : String} (hact : R.act (.getImsiInfo, text))
    (fut : Option (Option ImsiInfoRow)) (h : R.fut (.getImsiInfo, text) fut) :
    Obeys R (Ulr.onImsiInfo fut) := by
  match fut with
  | none => exact obeys_throw
  | some none => exact obeys_dbOpComplete _ _
  | some (some row) =>
    exact obeys_bind (obeys_update fun d hd => T.imsiInfo hact h hd) fun _ => obeys_dbOpComplete _ _

theorem onEvents {text : String} (hact : R.act (.getEvntsEvntids, text))
    (fut : Option (List Event)) (h : R.fut (.getEvntsEvntids, text) fut) :
    Obeys R (Ulr.onEvents fut) := by
  refine obeys_call fun d hd => ?_
  cases fut with
  | none => exact data_append_none (f := fun d l => { d with evtLst := l }) (fun _ => rfl) hd
  | some l => exact T.events hact h hd

theorem eventsLoop (ids : List EventId) (scef_id : String) (refs : List Nat)
    (hcall : ∀ scef, scef = scef_id ∨ scef ∈ ids.map (·.scef_id) →
      ∀ refs, R.act (.getEvntsEvntids, getEventsText scef refs)) :
    Obeys R (Ulr.eventsLoop ids scef_id refs) := by
  have hact := hcall scef_id (Or.inl rfl) refs
  have hissue : Obeys R (issueEvents scef_id refs) :=
    obeys_issueCounted hact (fun fut h => T.onEvents hact fut h) _
  induction ids generalizing scef_id refs with
  | nil =>
    unfold Ulr.eventsLoop
    split
    · exact obeys_bind hissue fun _ => obeys_ret _
    · exact obeys_ret _
  | cons ei rest ih =>
    have hgo : ∀ scef refs, (∀ scef', scef' = scef ∨ scef' ∈ rest.map (·.scef_id) →
        scef' = scef_id ∨ scef' ∈ (ei :: rest).map (·.scef_id)) →
        Obeys R (Ulr.eventsLoop rest scef refs) := by
      intro scef refs hsub
      have hact := hcall scef (hsub scef (Or.inl rfl)) refs
      exact ih scef refs (fun scef' h => hcall scef' (hsub scef' h)) hact
        (obeys_issueCounted hact (fun fut h => T.onEvents hact fut h) _)
    unfold Ulr.eventsLoop
    split
    · refine obeys_bind hissue fun success => ?_
      cases success with
      | true => exact hgo _ _ fun scef h => Or.inr (List.mem_cons.mpr h)
      | false => exact obeys_ret _
    · exact hgo _ _ fun scef h => h.imp_right (List.mem_cons_of_mem _)

theorem onEventIds {item : BitVec 32} {fut : Option (List EventId)}
    (h : ∀ l, fut = some l → ∀ d, R.data d → R.data { d with evtIdLst := d.evtIdLst ++ l }) :
    Obeys R (Ulr.onEventIds item fut) := by
  refine obeys_bind (obeys_call trivial) fun _ => obeys_bind (obeys_update fun d hd => ?_)
    fun _ => obeys_bind (obeys_dbOpComplete _ _) fun _ => obeys_bind (obeys_call trivial) fun _ =>
    obeys_bind (obeys_call trivial) fun _ => obeys_bind (obeys_call trivial) fun _ => ?_
  · cases fut with
    | none => exact data_append_none (f := fun d l => { d with evtIdLst := l }) (fun _ => rfl) hd
    | some l => exact h l rfl d hd
  · split
    · refine obeys_read fun d _ => ?_
      split
      · exact obeys_dbOpComplete _ _
      · exact obeys_bind (obeys_update fun d hd => T.sort hd) fun _ => obeys_read fun d hd =>
          T.eventsLoop _ _ _ fun _ h => T.callEvents hd h
    · exact obeys_ret _

theorem onExternalIds {text : String} (hact : R.act (.getExtIds, text)) (fut : Option (List String))
    (h : R.fut (.getExtIds, text) fut) : Obeys R (Ulr.onExternalIds fut) := by
  refine obeys_bind (obeys_update fun d hd => ?_) fun _ => obeys_bind (obeys_dbOpComplete _ _)
    fun _ => ?_
  · cases fut with
    | none => exact data_append_none (f := fun d l => { d with extIdLst := l }) (fun _ => rfl) hd
    | some l => exact T.extIds hact h hd
  · split
    · refine obeys_read fun d hd => obeys_bind (obeys_issueCounted (T.callExtIds hd) ?_ _) fun _ =>
        obeys_ret _
      intro fut h
      refine T.onEventIds fun l hl d' hd' => ?_
      subst hl
      exact T.eventIdsExtIds (T.callExtIds hd) h hd'
    · exact obeys_dbOpComplete _ _

theorem onMmeIdentity (fut : Option (Option (Option Int))) : Obeys R (Ulr.onMmeIdentity fut) := by
  match fut with
  | none => exact obeys_dbOpComplete _ _
  | some none => exact obeys_dbOpComplete _ _
  | some (some id) =>
    exact obeys_bind (obeys_update fun d hd => T.mmeIdentity _ hd) fun _ => obeys_dbOpComplete _ _

/-- **The handlers keep the rule.** -/
theorem handler (act : Db × String) (fut : act.1.Fut) (hact : R.act act) (h : R.fut act fut) :
    Obeys R (Ulr.handler act fut) := by
  match act, fut with
  | (.getImsiInfo, _), fut => exact T.onImsiInfo hact fut h
  | (.getExtIds, _), fut => exact T.onExternalIds hact fut h
  | (.getEvntidsMsisdn, _), fut =>
    refine T.onEventIds fun l hl d hd => ?_
    subst hl
    exact T.eventIdsMsisdn hact h hd
  | (.getEvntidsExtids, _), fut =>
    refine T.onEventIds fun l hl d hd => ?_
    subst hl
    exact T.eventIdsExtIds hact h hd
  | (.getEvntsEvntids, _), fut => exact T.onEvents hact fut h
  | (.getMmeidHost, _), fut => exact T.onMmeIdentity fut
  | (.updateImsi, _), fut => exact obeys_dbOpComplete _ _

end Handlers

section Phases

variable (T : Tolerates json req R)
include T

theorem reject {d : Data} {r : DiamResult} (hd : R.data d) (hr : r ≠ .resultCode erDiameterSuccess) :
    Obeys R (Ulr.reject (d.ans, r)) :=
  obeys_bind (obeys_answer (T.refuse hd hr)) fun _ => obeys_call trivial

theorem phase1Body : Obeys R (Ulr.phase1Body req) := by
  refine obeys_bind (obeys_update fun d hd => T.begin hd) fun _ => obeys_read fun d hd => ?_
  split
  · exact T.reject hd (by decide)
  refine obeys_bind (obeys_update fun d hd => T.origin hd) fun _ => obeys_read fun d hd => ?_
  obtain ⟨hinfo, hext, hmsisdn, hmme⟩ := T.calls hd
  refine obeys_bind (obeys_call trivial) fun _ =>
    obeys_bind (obeys_issue hinfo fun fut h => T.onImsiInfo hinfo fut h) fun issued =>
    obeys_bind ?_ fun issued => obeys_bind ?_ fun issued => obeys_bind ?_ fun issued => ?_
  · cases issued with
    | true => exact obeys_issueCounted hext (fun fut h => T.onExternalIds hext fut h) _
    | false => exact obeys_bind (obeys_dbOpComplete _ _) fun _ => obeys_ret _
  · cases issued with
    | true =>
      refine obeys_issueCounted hmsisdn (fun fut h => T.onEventIds fun l hl d hd => ?_) _
      subst hl
      exact T.eventIdsMsisdn hmsisdn h hd
    | false => exact obeys_ret _
  · cases issued with
    | true => exact obeys_issueCounted hmme (fun fut _ => T.onMmeIdentity fut) _
    | false => exact obeys_ret _
  · cases issued with
    | true => exact obeys_call trivial
    | false => exact T.reject hd (by decide)

theorem phase2Body : Obeys R (Ulr.phase2Body json req) := by
  refine obeys_bind (obeys_call trivial) fun result => obeys_read fun d hd => ?_
  split
  · exact T.reject hd (by decide)
  refine obeys_bind (obeys_callAddAvps _) fun _ => ?_
  split
  case h_1 r hr =>
    exact obeys_bind (obeys_answer (T.rejected hd hr)) fun _ => obeys_call trivial
  case h_2 d' hd' =>
    exact obeys_bind (obeys_update fun d₀ hd₀ => T.accepted hd hd' hd₀) fun _ => obeys_call trivial

theorem phase4Body : Obeys R Ulr.phase4Body := by
  refine obeys_bind (obeys_call trivial) fun _ => obeys_bind (obeys_update fun d hd => T.mmeId hd)
    fun _ => obeys_read fun d _ =>
    obeys_bind (obeys_issueCounted (T.callUpdate _) (fun fut _ => obeys_dbOpComplete _ _) _)
    fun success => ?_
  cases success with
  | true => exact obeys_ret _
  | false => exact obeys_call trivial

/-- **The phases keep the rule**, if `phase3` does. -/
theorem body {phase : Nat} (h3 : phase = phase3 → Obeys R phase3Body) :
    Obeys R (Ulr.body json req phase) := by
  unfold Ulr.body
  split
  · exact T.phase1Body
  split
  · exact T.phase2Body
  split
  · exact h3 ‹_›
  split
  · exact T.phase4Body
  split
  · exact obeys_call trivial
  · exact obeys_ret _

end Phases

end Tolerates

end OpenairHss.Ulr
