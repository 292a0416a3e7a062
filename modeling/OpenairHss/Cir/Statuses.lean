import OpenairHss.Cir.Answers
import Mathlib.Data.List.Nodup

/-!
# The statuses in the CIA of a single IMSI

A CIA that is sent because the MME is not reachable has one Monitoring-Event-Config-Status for each
event of the status map.  The CIA that is made of an IDA reports the long term events from the map,
but the one-shot events as they stand in the list of the MME: one for each time.

`statuses_once_iff`: each event of the map is reported once, and no other, exactly if a successful
IDA lists each one-shot event once.  It may list others, and long term events, as often as it likes.
-/

namespace OpenairHss.Cir

open Diameter

/-! ### The status map -/

/-- What holds of every status that `processHssDb` makes holds of the map. -/
theorem processHssDb_forall {P : EventKey → MonitoringConfEventStatus → Prop}
    (hdeletion : ∀ scef_id ref found deleted,
      P (toLex (scef_id, ref)) (deletionStatus scef_id ref found deleted))
    (hconfiguration : ∀ c ref added,
      P (toLex (c.scef_id.getD "", ref)) (configured (configurationStatus c ref) added))
    (out : Outcomes) (cir : Request) (msisdn : Int) {k : EventKey} {s : MonitoringConfEventStatus}
    (h : (processHssDb out cir msisdn).find? k = some s) : P k s := by
  have hdeletions : ∀ (scef_id : String) (i : Nat) (ds : List (Nat × Nat)) (m : EvenStatusMap),
      (∀ k s, m.find? k = some s → P k s) →
      ∀ k s, (ds.foldl (fun m d => m.insert (toLex (scef_id, d.1))
        (deletionStatus scef_id d.1 (out.getEvent i d.2) (out.deleteEvent i d.2))) m).find? k =
          some s → P k s := by
    intro scef_id i ds
    induction ds with
    | nil => exact fun m hm => hm
    | cons d ds ih => exact fun m hm => ih _ (SortedMap.forall_insert hm (hdeletion ..))
  have hconfigurations : ∀ (cs : List (EventConfiguration × Nat)) (m : EvenStatusMap),
      (∀ k s, m.find? k = some s → P k s) →
      ∀ k s, (cs.foldl (fun m c => processConfiguration out cir msisdn m c.1 c.2) m).find? k =
        some s → P k s := by
    intro cs
    induction cs with
    | nil => exact fun m hm => hm
    | cons c cs ih =>
      intro m hm
      refine ih _ ?_
      dsimp only [processConfiguration]
      cases c.1.scef_reference_id with
      | none => exact hdeletions (c.1.scef_id.getD "") c.2 _ m hm
      | some ref =>
        exact SortedMap.forall_insert (hdeletions (c.1.scef_id.getD "") c.2 _ m hm) (hconfiguration ..)
  exact hconfigurations _ SortedMap.empty (fun k s h => absurd h nofun) k s h

/-- The events stand at their keys. -/
def Keyed (m : EvenStatusMap) : Prop :=
  ∀ k s, m.find? k = some s → k = toLex (s.scef_id, s.scef_ref_id)

theorem configured_eq (s : MonitoringConfEventStatus) (added : Option Bool) :
    ∃ result, configured s added = { s with result := result } := by
  unfold configured
  split
  · exact ⟨_, rfl⟩
  · exact ⟨s.result, rfl⟩

theorem keyed_processHssDb (out : Outcomes) (cir : Request) (msisdn : Int) :
    Keyed (processHssDb out cir msisdn) := by
  intro k s h
  refine processHssDb_forall (P := fun k s => k = toLex (s.scef_id, s.scef_ref_id))
    (fun _ _ _ _ => rfl) (fun c ref added => ?_) out cir msisdn h
  obtain ⟨result, hs⟩ := configured_eq (configurationStatus c ref) added
  rw [hs]
  rfl

/-- A one-shot event of the map. -/
def isOneShot (m : EvenStatusMap) (k : EventKey) : Bool :=
  (m.find? k).any fun s => !s.isLongTermEvt

theorem isOneShot_of_find? {m : EvenStatusMap} {k : EventKey} {s : MonitoringConfEventStatus}
    (h : m.find? k = some s) : isOneShot m k = !s.isLongTermEvt := by
  rw [isOneShot, h, Option.any_some]

/-- The result of an event does not make it another event. -/
theorem isOneShot_alter {m : EvenStatusMap} {k : EventKey} {s s' : MonitoringConfEventStatus}
    (h : m.find? k = some s) (hs : s'.isLongTermEvt = s.isLongTermEvt) :
    isOneShot (m.alter k fun _ => s') = isOneShot m := by
  funext k'
  rw [isOneShot, isOneShot, SortedMap.find?_alter]
  by_cases hk : k = k'
  · subst hk
    rw [if_pos rfl, h, Option.any_some, Option.any_some, hs]
  · rw [if_neg hk]

theorem Keyed.alter {m : EvenStatusMap} (h : Keyed m) {k : EventKey}
    {s' : MonitoringConfEventStatus} (hs : k = toLex (s'.scef_id, s'.scef_ref_id)) :
    Keyed (m.alter k fun _ => s') := by
  intro k' s hfind
  rw [SortedMap.find?_alter] at hfind
  by_cases hk : k = k'
  · subst hk
    rw [if_pos rfl] at hfind
    rw [← Option.some.inj hfind]
    exact hs
  · rw [if_neg hk] at hfind
    exact h k' s hfind

/-! ### The statuses of a CIA -/

/-- SCEF-ID and SCEF-Reference-ID of a status. -/
def ConfigStatus.key (s : ConfigStatus) : EventKey := toLex (s.scef_id, s.scef_ref_id)

/-- SCEF-ID and SCEF-Reference-ID of a status of an IDA.  An AVP that is missing leaves the local
variable as it was. -/
def IdaStatus.key (s : IdaStatus) : EventKey := toLex (s.scef_id, s.scef_ref_id)

/-- The events that the statuses of a CIA are about. -/
def statusIds (cia : List CiaAvp) : List EventKey :=
  cia.filterMap fun
    | .monitoringEventConfigStatus s => some s.key
    | _ => none

theorem statusIds_append (l l' : List CiaAvp) : statusIds (l ++ l') = statusIds l ++ statusIds l' :=
  List.filterMap_append

/-- Statuses that are made of entries of a map. -/
theorem statusIds_map {l : List (EventKey × MonitoringConfEventStatus)}
    {f : EventKey × MonitoringConfEventStatus → MonitoringConfEventStatus}
    (h : ∀ e ∈ l, e.1 = (buildCfgStatusAvp (f e)).key) :
    statusIds (l.map fun e => .monitoringEventConfigStatus (buildCfgStatusAvp (f e))) =
      l.map (·.1) := by
  induction l with
  | nil => rfl
  | cons e l ih =>
    obtain ⟨he, hl⟩ := List.forall_mem_cons.mp h
    rw [List.map_cons, List.map_cons, ← ih hl, he]
    rfl

/-- The walk through the list of the MME. -/
theorem statusIds_oneShotStatuses : ∀ (sts : List IdaStatus) {m : EvenStatusMap}, Keyed m →
    statusIds (oneShotStatuses sts m) = (sts.map IdaStatus.key).filter (isOneShot m) := by
  intro sts
  induction sts with
  | nil => exact fun _ => rfl
  | cons st sts ih =>
    intro m hm
    rw [oneShotStatuses, List.map_cons]
    change _ = List.filter (isOneShot m) (toLex (st.scef_id, st.scef_ref_id) :: _)
    cases hfind : m.find? (toLex (st.scef_id, st.scef_ref_id)) with
    | none =>
      have hno : ¬ isOneShot m (toLex (st.scef_id, st.scef_ref_id)) = true := by
        rw [isOneShot, hfind]
        exact Bool.false_ne_true
      rw [List.filter_cons_of_neg hno]
      exact ih hm
    | some s =>
      have hone := isOneShot_of_find? hfind
      dsimp only
      by_cases hl : s.isLongTermEvt = true
      · rw [if_pos hl, List.filter_cons_of_neg (by rw [hone, hl]; decide)]
        exact ih hm
      · have hkey := hm _ _ hfind
        rw [if_neg hl, List.filter_cons_of_pos (by rw [hone]; simpa using hl)]
        obtain ⟨s', hs'⟩ : ∃ s', s' =
            { s with result := st.service_result_code.getD s.result } := ⟨_, rfl⟩
        have hkey' : toLex (st.scef_id, st.scef_ref_id) = toLex (s'.scef_id, s'.scef_ref_id) := by
          rw [hs']
          exact hkey
        have hlong' : s'.isLongTermEvt = s.isLongTermEvt := by
          rw [hs']
          rfl
        have htail := ih (hm.alter hkey')
        rw [isOneShot_alter hfind hlong'] at htail
        rw [← hs', ← htail, hkey']
        rfl

section Single

variable {m : EvenStatusMap}

theorem map_filter_oneShot (m : EvenStatusMap) :
    (m.entries.filter (!·.2.isLongTermEvt)).map (·.1) = m.keys.filter (isOneShot m) ∧
      (m.entries.filter (·.2.isLongTermEvt)).map (·.1) = m.keys.filter (!isOneShot m ·) := by
  have hone : ∀ e ∈ m.entries, isOneShot m e.1 = !e.2.isLongTermEvt := fun e he =>
    isOneShot_of_find? (SortedMap.find?_eq_some_iff.mpr he)
  refine ⟨?_, ?_⟩
  · rw [SortedMap.keys, List.filter_map]
    exact congrArg _ (List.filter_congr fun e he => (hone e he).symm)
  · rw [SortedMap.keys, List.filter_map]
    refine congrArg _ (List.filter_congr fun e he => ?_)
    rw [Function.comp_apply, hone e he, Bool.not_not]

/-- The events in the CIA that is made of an IDA. -/
theorem statusIds_singleCia (hm : Keyed m) (ida : Ida) :
    statusIds (singleCia m ida) = m.keys.filter (!isOneShot m ·) ++
      (if ida.code = erDiameterSuccess then
        (ida.monitoring_event_config_status.map IdaStatus.key).filter (isOneShot m)
      else m.keys.filter (isOneShot m)) := by
  obtain ⟨hone, hlong⟩ := map_filter_oneShot m
  have hkeyed : ∀ e ∈ m.entries, e.1 = toLex (e.2.scef_id, e.2.scef_ref_id) := fun e he =>
    hm _ _ (SortedMap.find?_eq_some_iff.mpr he)
  have hhead : statusIds [.authSessionState 1, .origin, .result (.resultCode erDiameterSuccess)] =
      [] := rfl
  rw [singleCia, statusIds_append, statusIds_append, hhead, List.nil_append,
    statusIds_map fun e he => hkeyed e (List.mem_filter.mp he).1, hlong]
  congr 1
  split
  · exact statusIds_oneShotStatuses _ hm
  · rw [statusIds_append, statusIds_map (f := fun e => { e.2 with result := diameterErrorUserUnknown })
      fun e he => hkeyed e (List.mem_filter.mp he).1, hone]
    exact List.append_nil _

/-- The events in the CIA for an MME that is not reachable. -/
theorem statusIds_notSentCia (hm : Keyed m) (ret : Int) : statusIds (notSentCia ret m) = m.keys := by
  have hhead : statusIds [.origin, .authSessionState 1, .result (.resultCode erDiameterSuccess)] =
      [] := rfl
  have hcause : statusIds (if ret = imsiNotActive then [.s6tHssCause absentSubscriber] else []) =
      [] := by
    split <;> rfl
  rw [notSentCia, statusIds_append, statusIds_append, hhead, List.nil_append, hcause,
    List.append_nil, statusIds_map fun e he => ?_, SortedMap.keys]
  have hkey := hm _ _ (SortedMap.find?_eq_some_iff.mpr he)
  split
  · exact hkey
  · exact hkey

/-- A list of which the part that counts is that of the keys. -/
theorem filter_perm_iff {l keys : List EventKey} {p : EventKey → Bool} (hnodup : keys.Nodup)
    (hp : ∀ k, p k = true → k ∈ keys) :
    (keys.filter (!p ·) ++ l.filter p).Perm keys ↔ ∀ k, p k = true → l.count k = 1 := by
  have hsplit : (keys.filter (!p ·) ++ keys.filter p).Perm keys :=
    List.perm_append_comm.trans (List.filter_append_perm p keys)
  have hcount : ∀ k, p k = true → keys.count k = 1 := fun k hk =>
    List.nodup_iff_count_eq_one.mp hnodup k (hp k hk)
  constructor
  · intro h k hk
    have hparts := (List.perm_append_left_iff _).mp (h.trans hsplit.symm)
    have := hparts.count_eq k
    rwa [List.count_filter hk, List.count_filter hk, hcount k hk] at this
  · intro h
    refine List.Perm.trans (List.Perm.append_left _ (List.perm_iff_count.mpr fun k => ?_)) hsplit
    by_cases hk : p k = true
    · rw [List.count_filter hk, List.count_filter hk, h k hk, hcount k hk]
    · rw [List.count_eq_zero.mpr fun h => hk (List.mem_filter.mp h).2,
        List.count_eq_zero.mpr fun h => hk (List.mem_filter.mp h).2]

end Single

/-- The answer to the IDR of a single IMSI is a CIA with these statuses. -/
def ReportsEachOnce (idr : Idr) (ida : Ida) : Prop :=
  ∃ cia, (processAnswer idr ida false).effects = [.cia cia] ∧ (statusIds cia).Perm idr.evt_map.keys

/-- **When the CIA has one status for each event**: a failed IDA, or one that lists each one-shot
event of the map exactly once.  For an MME that is not reachable it always has. -/
theorem statuses_once_iff (out : Outcomes) (cir : Request) (msisdn : Int) (info : ImsiInfo)
    (imsi : String) (ida : Ida) :
    (ReportsEachOnce (createINSDRreq info cir imsi (processHssDb out cir msisdn) false) ida ↔
      (ida.code = erDiameterSuccess → ∀ k, isOneShot (processHssDb out cir msisdn) k = true →
        (ida.monitoring_event_config_status.map IdaStatus.key).count k = 1)) ∧
    ∀ ret, (statusIds (notSentCia ret (processHssDb out cir msisdn))).Perm
      (processHssDb out cir msisdn).keys := by
  have hkeyed := keyed_processHssDb out cir msisdn
  set m := processHssDb out cir msisdn
  refine ⟨?_, fun ret => by rw [statusIds_notSentCia hkeyed]⟩
  have hmem : ∀ k, isOneShot m k = true → k ∈ m.keys := by
    intro k hk
    obtain ⟨s, hs, -⟩ := (Option.any_eq_true _ _).mp hk
    exact SortedMap.mem_keys_iff.mpr ⟨s, hs⟩
  have hcia : ReportsEachOnce (createINSDRreq info cir imsi m false) ida ↔
      (statusIds (singleCia m ida)).Perm m.keys := by
    constructor
    · rintro ⟨cia, heffects, hperm⟩
      obtain rfl : singleCia m ida = cia := Effect.cia.inj (List.singleton_inj.mp heffects)
      exact hperm
    · exact fun h => ⟨_, rfl, h⟩
  rw [hcia, statusIds_singleCia hkeyed]
  by_cases hcode : ida.code = erDiameterSuccess
  · rw [if_pos hcode, filter_perm_iff m.keys_nodup hmem]
    exact (imp_iff_right hcode).symm
  · rw [if_neg hcode]
    refine iff_of_true ?_ fun h => absurd h hcode
    exact List.perm_append_comm.trans (List.filter_append_perm _ _)

/-- A CIR for one report of one event. -/
def oneShotCir : Request :=
  { sampleCir with monitoring_event_configuration := [⟨some "scef", [], some 1, some 1, none, some 2, ""⟩] }

/-- The IDA is a success without a list: the event is not reported. -/
theorem not_statuses_once :
    ¬ ∀ (out : Outcomes) (cir : Request) (msisdn : Int) (info : ImsiInfo) (imsi : String) (ida : Ida),
      ReportsEachOnce (createINSDRreq info cir imsi (processHssDb out cir msisdn) false) ida := by
  intro h
  obtain ⟨cia, heffects, hperm⟩ :=
    h (sampleOutcomes [] fun _ => true) oneShotCir 0 sampleInfo "" sampleIda
  obtain rfl : singleCia _ sampleIda = cia := Effect.cia.inj (List.singleton_inj.mp heffects)
  have hkeyed := keyed_processHssDb (sampleOutcomes [] fun _ => true) oneShotCir 0
  rw [createINSDRreq, statusIds_singleCia hkeyed] at hperm
  have hlen := hperm.length_eq
  revert hlen
  decide +kernel

end OpenairHss.Cir
