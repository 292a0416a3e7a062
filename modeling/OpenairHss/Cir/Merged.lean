import OpenairHss.Cir.Statuses

/-!
# What the RIR builder records

For each IMSI of a group the builder is told what its MME has answered, or that it has not, and
records an item for each event of the status map.

`recorded_iff`: the items carry the results that they should, and none of them the 0 of a result
that was never set, exactly if every MME that answers gives a result for every one-shot event.  What
is recorded never depends on the order of the answers.
-/

namespace OpenairHss.Cir

open Diameter RirBuilder

/-! ### Answers -/

/-- What is posted for an IMSI of the group: the list of its IDA, or `none` if the MME was not
reachable, the IMSI not active, or the IDA not a success. -/
structure Answer where
  m_imsi : String
  statuses : Option (List IdaStatus)
  m_imsi_reachable : Int
  m_msisdn : String

def Answer.response (a : Answer) : MmeResponse :=
  ⟨a.statuses.map mmeResponseMap, a.m_imsi, a.m_imsi_reachable, a.m_msisdn⟩

/-- The messages of the builder of a group. -/
inductive Input
  | guardTimeout
  | answer (a : Answer)
  | ciaSent

def Input.msg : Input → Msg
  | .guardTimeout => .guardTimeout
  | .answer a => .mmeResponse a.response
  | .ciaSent => .ciaSent

def answers (inputs : List Input) : List Answer :=
  inputs.filterMap fun
    | .answer a => some a
    | _ => none

/-- The first status about an event decides. -/
theorem find?_mmeResponseMap (sts : List IdaStatus) (k : EventKey) :
    ((mmeResponseMap sts).find? k).map (·.result) =
      (sts.find? fun st => st.key = k).map fun st => st.service_result_code.getD 0 := by
  have hfold : ∀ (sts : List IdaStatus) (m : EvenStatusMap),
      ((sts.foldl (fun m st => m.insert (toLex (st.scef_id, st.scef_ref_id))
        { scef_id := st.scef_id, scef_ref_id := st.scef_ref_id, is_remove := false,
          result := st.service_result_code.getD 0 }) m).find? k).map (·.result) =
        ((m.find? k).map (·.result)).or
          ((sts.find? fun st => st.key = k).map fun st => st.service_result_code.getD 0) := by
    intro sts
    induction sts with
    | nil => exact fun m => Option.or_none.symm
    | cons st sts ih =>
      intro m
      rw [List.foldl_cons, ih, SortedMap.find?_insert, List.find?_cons]
      by_cases hk : st.key = k
      · have hk' : toLex (st.scef_id, st.scef_ref_id) = k := hk
        rw [if_pos hk', hk', decide_eq_true hk]
        cases m.find? k <;> rfl
      · have hk' : ¬ toLex (st.scef_id, st.scef_ref_id) = k := hk
        rw [if_neg hk', decide_eq_false hk]
  exact hfold sts SortedMap.empty

/-- The result of the item for an event. -/
def Answer.result (a : Answer) (k : EventKey) (s : MonitoringConfEventStatus) : Nat :=
  (mixedCfg a.response k s).result

theorem Answer.result_eq (a : Answer) (k : EventKey) (s : MonitoringConfEventStatus) :
    a.result k s =
      if s.isLongTermEvt then s.result
      else match a.statuses with
        | none => diameterUnableToComply
        | some sts => match sts.find? fun st => st.key = k with
          | none => s.result
          | some st => st.service_result_code.getD 0 := by
  rw [result, mixedCfg, response]
  by_cases hl : s.isLongTermEvt = true
  · rw [if_pos hl, if_pos hl]
  · rw [if_neg hl, if_neg hl]
    cases a.statuses with
    | none => rfl
    | some sts =>
      have hfind := find?_mmeResponseMap sts k
      dsimp only [Option.map_some]
      cases hst : sts.find? fun st => st.key = k with
      | none =>
        rw [hst, Option.map_none, Option.map_eq_none_iff] at hfind
        rw [hfind]
      | some st =>
        rw [hst, Option.map_some] at hfind
        obtain ⟨s', hs', hresult⟩ := Option.map_eq_some_iff.mp hfind
        rw [hs']
        exact hresult

/-! ### What is recorded -/

/-- The items that are recorded for an answer. -/
def items (hss : EvenStatusMap) (a : Answer) : List (EventKey × ImsiStatus) :=
  hss.entries.map fun e =>
    (e.1, ⟨a.m_imsi, mixedCfg a.response e.1 e.2, a.m_imsi_reachable, a.m_msisdn⟩)

theorem flat_collect (r : MmeResponse) : ∀ (hss : List (EventKey × MonitoringConfEventStatus))
    (m : EventImsiStatus), (collect r hss m).flat.Perm (hss.map (fun e =>
      (e.1, (⟨r.m_imsi, mixedCfg r e.1 e.2, r.m_imsi_reachable, r.m_msisdn⟩ : ImsiStatus))) ++
        m.flat) := by
  intro hss
  induction hss with
  | nil => exact fun m => List.Perm.refl _
  | cons e hss ih =>
    intro m
    refine (ih _).trans ?_
    refine ((SortedMap.flat_push m e.1 _).append_left _).trans ?_
    exact List.perm_middle

/-- **Everything that is recorded**, up to order. -/
theorem run_flat {hss : EvenStatusMap} : ∀ (inputs : List Input) {b b' : RirBuilder},
    (∀ hss', b.m_hss_insert_status = some hss' → hss' = hss) →
    b.run (inputs.map Input.msg) = some b' →
    b'.imsi_status_map.flat.Perm
      ((answers inputs).flatMap (items hss) ++ b.imsi_status_map.flat) := by
  intro inputs
  induction inputs with
  | nil =>
    intro b b' _ hrun
    obtain rfl := Option.some.inj hrun
    exact List.Perm.refl _
  | cons i inputs ih =>
    intro b b' hb hrun
    rw [List.map_cons, run, List.foldlM_cons] at hrun
    obtain ⟨c, hstep, hrun⟩ := Option.bind_eq_some_iff.mp hrun
    cases i with
    | guardTimeout =>
      obtain rfl := Option.some.inj hstep
      exact ih (b := b.sendRIR) hb hrun
    | ciaSent =>
      obtain rfl := Option.some.inj hstep
      refine (ih (fun hss' h => ?_) hrun).trans (List.Perm.of_eq ?_)
      · split at h
        · cases h
        · exact hb hss' h
      · split <;> rfl
    | answer a =>
      rw [Input.msg, dispatch] at hstep
      cases hstatus : b.m_hss_insert_status with
      | none =>
        rw [hstatus] at hstep
        cases hstep
      | some hss' =>
        obtain rfl := hb hss' hstatus
        rw [hstatus] at hstep
        obtain rfl := Option.some.inj hstep
        refine (ih (fun hss'' h => ?_) hrun).trans ?_
        · split at h
          · cases h
          · exact (Option.some.inj h).symm
        · have hflat : ∀ c : RirBuilder, (if c.m_nb_ida_proc = 0 ∧ c.m_ciasent = true then c.finish
              else c).imsi_status_map = c.imsi_status_map := by
            intro c
            split <;> rfl
          rw [hflat]
          refine ((flat_collect a.response hss'.entries b.imsi_status_map).append_left _).trans ?_
          have hanswers : answers (.answer a :: inputs) = a :: answers inputs := rfl
          rw [hanswers, List.flatMap_cons, ← List.append_assoc]
          exact List.perm_append_comm.append_right _

/-- While fewer IMSIs have answered than the group has, the builder runs. -/
theorem run_waits {hss : EvenStatusMap} (host realm : String) (inputs : List Input) :
    ∃ b, (new ((answers inputs).length + 1) hss host realm).run (inputs.map Input.msg) = some b := by
  have hrun : ∀ (inputs : List Input) (b : RirBuilder), b.m_hss_insert_status = some hss →
      ((answers inputs).length : Int) < b.m_nb_ida_proc →
      ∃ b', b.run (inputs.map Input.msg) = some b' := by
    intro inputs
    induction inputs with
    | nil => exact fun b _ _ => ⟨b, rfl⟩
    | cons i inputs ih =>
      intro b hstatus hcount
      have hpos : 0 < b.m_nb_ida_proc := lt_of_le_of_lt (Int.natCast_nonneg _) hcount
      cases i with
      | guardTimeout => exact ih b.sendRIR hstatus hcount
      | ciaSent =>
        obtain ⟨b', hb'⟩ := ih { b with m_ciasent := true } hstatus hcount
        refine ⟨b', ?_⟩
        rw [List.map_cons, run, List.foldlM_cons, Input.msg, dispatch]
        dsimp only
        rw [if_neg (ne_of_gt hpos)]
        exact hb'
      | answer a =>
        have hanswers : (answers (.answer a :: inputs)).length = (answers inputs).length + 1 := rfl
        rw [hanswers] at hcount
        push_cast at hcount
        obtain ⟨b', hb'⟩ := ih { b with
          m_nb_ida_proc := b.m_nb_ida_proc - 1
          m_hss_insert_status := some hss
          imsi_status_map := collect a.response hss.entries b.imsi_status_map } rfl
          (by dsimp only; omega)
        refine ⟨b', ?_⟩
        rw [List.map_cons, run, List.foldlM_cons, Input.msg, dispatch, hstatus]
        dsimp only
        rw [if_neg fun h => by omega]
        exact hb'
  exact hrun inputs _ rfl (by rw [new]; push_cast; omega)

/-! ### When the results are right -/

/-- The results that the list of an IDA gives for an event. -/
def codes (sts : List IdaStatus) (k : EventKey) : List Nat :=
  sts.filterMap fun st => if st.key = k then st.service_result_code else none

/-- What the item for the event `k`, with the status `s` in the map, must carry. -/
structure RightResult (a : Answer) (k : EventKey) (s : MonitoringConfEventStatus) (result : Nat) :
    Prop where
  longTerm : s.isLongTermEvt = true → result = s.result
  given : s.isLongTermEvt = false → ∀ sts, a.statuses = some sts → codes sts k ≠ [] →
    result ∈ codes sts k
  unreachable : s.isLongTermEvt = false → a.statuses = none → result = diameterUnableToComply
  set : result ≠ 0

/-- The builder of a group records what it should, in whatever order the answers come. -/
def Recorded (hss : EvenStatusMap) (inputs : List Input) : Prop :=
  ∀ n host realm b, (new n hss host realm).run (inputs.map Input.msg) = some b →
    (∀ p ∈ b.imsi_status_map.flat, ∃ a ∈ answers inputs, ∃ s, hss.find? p.1 = some s ∧
      p.2.m_imsi = a.m_imsi ∧ RightResult a p.1 s p.2.m_status.result) ∧
    ∀ inputs' n' host' realm' b', (answers inputs').Perm (answers inputs) →
      (new n' hss host' realm').run (inputs'.map Input.msg) = some b' →
      b'.imsi_status_map.flat.Perm b.imsi_status_map.flat

/-- The list of an IDA gives a result for an event: the first status about it has a result that is
not 0.  An event that could not be deleted need not be listed. -/
def Gives (sts : List IdaStatus) (k : EventKey) (s : MonitoringConfEventStatus) : Prop :=
  match sts.find? fun st => st.key = k with
  | some st => ∃ c, st.service_result_code = some c ∧ c ≠ 0
  | none => s.is_remove = true

/-- The results in the map: a long term event has that of the database, and of the others those that
could not be deleted have one. -/
theorem result_processHssDb {out : Outcomes} {cir : Request} {msisdn : Int} {k : EventKey}
    {s : MonitoringConfEventStatus} (h : (processHssDb out cir msisdn).find? k = some s) :
    (s.isLongTermEvt = true → s.result ≠ 0) ∧
      (s.isLongTermEvt = false → (s.result ≠ 0 ↔ s.is_remove = true)) := by
  refine processHssDb_forall (P := fun _ s => (s.isLongTermEvt = true → s.result ≠ 0) ∧
    (s.isLongTermEvt = false → (s.result ≠ 0 ↔ s.is_remove = true))) ?_ ?_ out cir msisdn h
  · intro scef_id ref found deleted
    have hne : ∀ ok : Bool, (if ok then erDiameterSuccess
        else diameterErrorConfigurationEventNonExistant) ≠ 0 := by decide
    have hset : (deletionStatus scef_id ref found deleted).result ≠ 0 := hne _
    exact ⟨fun _ => hset, fun _ => iff_of_true hset rfl⟩
  · intro c ref added
    unfold configured
    split
    case isTrue hl =>
      refine ⟨fun _ => ?_, fun h => absurd (hl.symm.trans h) nofun⟩
      dsimp only
      split <;> decide
    case isFalse hl => exact ⟨fun h => absurd h hl, fun _ => iff_of_false (fun h => h rfl) nofun⟩

theorem codes_head {sts : List IdaStatus} {k : EventKey} {st : IdaStatus} {c : Nat}
    (hst : (sts.find? fun st => st.key = k) = some st) (hc : st.service_result_code = some c) :
    c ∈ codes sts k :=
  List.mem_filterMap.mpr ⟨st, List.mem_of_find?_eq_some hst,
    (if_pos (of_decide_eq_true (List.find?_some (p := fun st : IdaStatus => st.key = k) hst))).trans hc⟩

/-- The item for one event is right exactly if the answer gives a result. -/
theorem rightResult_iff {out : Outcomes} {cir : Request} {msisdn : Int} {k : EventKey}
    {s : MonitoringConfEventStatus} (h : (processHssDb out cir msisdn).find? k = some s)
    (a : Answer) :
    (RightResult a k s (a.result k s) ↔ a.result k s ≠ 0) ∧
      (a.result k s ≠ 0 ↔
        ∀ sts, a.statuses = some sts → s.isLongTermEvt = false → Gives sts k s) := by
  obtain ⟨hlong, hshort⟩ := result_processHssDb h
  have hresult := a.result_eq k s
  by_cases hl : s.isLongTermEvt = true
  · rw [if_pos hl] at hresult
    have hset : a.result k s ≠ 0 := hresult ▸ hlong hl
    have hnot : ¬ s.isLongTermEvt = false := by rw [hl]; decide
    exact ⟨iff_of_true ⟨fun _ => hresult, fun h => absurd h hnot, fun h => absurd h hnot, hset⟩ hset,
      iff_of_true hset fun _ _ h => absurd h hnot⟩
  · have hf : s.isLongTermEvt = false := by simpa using hl
    rw [if_neg hl] at hresult
    cases hstatuses : a.statuses with
    | none =>
      rw [hstatuses] at hresult
      dsimp only at hresult
      have hset : a.result k s ≠ 0 := by rw [hresult]; decide
      refine ⟨iff_of_true ⟨fun h => absurd h hl, fun _ sts h => ?_, fun _ _ => hresult, hset⟩ hset,
        iff_of_true hset nofun⟩
      rw [hstatuses] at h
      exact absurd h nofun
    | some sts =>
      rw [hstatuses] at hresult
      dsimp only at hresult
      have hgives : a.result k s ≠ 0 ↔ Gives sts k s := by
        rw [Gives]
        cases hst : sts.find? fun st => st.key = k with
        | none =>
          rw [hst] at hresult
          rw [hresult]
          exact hshort hf
        | some st =>
          rw [hst] at hresult
          rw [hresult]
          dsimp only
          cases st.service_result_code with
          | none => exact iff_of_false (fun h => h rfl) fun ⟨_, h, _⟩ => absurd h nofun
          | some c => exact ⟨fun h => ⟨c, rfl, h⟩, fun ⟨c', h, hc'⟩ => Option.some.inj h ▸ hc'⟩
      refine ⟨⟨fun h => h.set, fun h => ⟨fun h' => absurd h' hl, fun _ sts' hsts' hne => ?_,
        fun _ h' => absurd (hstatuses.symm.trans h') nofun, h⟩⟩, ?_⟩
      · obtain rfl : sts = sts' := Option.some.inj (hstatuses.symm.trans hsts')
        have hg := hgives.mp h
        rw [Gives] at hg
        cases hst : sts.find? fun st => st.key = k with
        | none =>
          -- nothing about this event is listed
          refine absurd (List.filterMap_eq_nil_iff.mpr fun st hmem => ?_) hne
          exact if_neg fun hk => List.find?_eq_none.mp hst st hmem (decide_eq_true hk)
        | some st =>
          rw [hst] at hg hresult
          obtain ⟨c, hc, -⟩ := hg
          rw [hresult]
          dsimp only
          rw [hc, Option.getD_some]
          exact codes_head hst hc
      · rw [hgives]
        exact ⟨fun h sts' hsts' _ => Option.some.inj hsts' ▸ h, fun h => h sts rfl hf⟩

/-- **When the builder records what it should**: every list of an MME gives a result for every
one-shot event of the map. -/
theorem recorded_iff (out : Outcomes) (cir : Request) (msisdn : Int) (inputs : List Input) :
    Recorded (processHssDb out cir msisdn) inputs ↔
      ∀ a ∈ answers inputs, ∀ sts, a.statuses = some sts →
        ∀ k s, (processHssDb out cir msisdn).find? k = some s → s.isLongTermEvt = false →
          Gives sts k s := by
  have hresults := @rightResult_iff out cir msisdn
  set hss := processHssDb out cir msisdn
  have hflat : ∀ {inputs : List Input} {n : Nat} {host realm : String} {b : RirBuilder},
      (new n hss host realm).run (inputs.map Input.msg) = some b →
      b.imsi_status_map.flat.Perm ((answers inputs).flatMap (items hss)) := by
    intro inputs n host realm b hrun
    have hperm := run_flat inputs (fun _ h => (Option.some.inj h).symm) hrun
    rwa [new, SortedMap.flat_empty, List.append_nil] at hperm
  constructor
  · intro h a ha sts hsts k s hs hl
    obtain ⟨b, hrun⟩ : ∃ b, (new ((answers inputs).length + 1) hss "" "").run
        (inputs.map Input.msg) = some b := run_waits "" "" inputs
    have hmem : (k, (⟨a.m_imsi, mixedCfg a.response k s, a.m_imsi_reachable, a.m_msisdn⟩ :
        ImsiStatus)) ∈ b.imsi_status_map.flat := by
      refine (hflat hrun).mem_iff.mpr (List.mem_flatMap.mpr ⟨a, ha, ?_⟩)
      exact List.mem_map.mpr ⟨(k, s), SortedMap.find?_eq_some_iff.mp hs, rfl⟩
    obtain ⟨_, -, _, -, -, hright⟩ := (h _ _ _ b hrun).1 _ hmem
    exact (hresults hs a).2.mp hright.set sts hsts hl
  · intro h n host realm b hrun
    refine ⟨fun p hp => ?_, fun inputs' n' host' realm' b' hperm hrun' => ?_⟩
    · obtain ⟨a, ha, hitem⟩ := List.mem_flatMap.mp ((hflat hrun).mem_iff.mp hp)
      obtain ⟨⟨k, s⟩, he, rfl⟩ := List.mem_map.mp hitem
      have hs := SortedMap.find?_eq_some_iff.mpr he
      obtain ⟨hright, hset⟩ := hresults hs a
      exact ⟨a, ha, s, hs, rfl, hright.mpr (hset.mpr fun sts hsts hl => h a ha sts hsts k s hs hl)⟩
    · exact (hflat hrun').trans ((hperm.flatMap_right _).trans (hflat hrun).symm)

/-- An MME that answers with an empty list. -/
def emptyAnswer : Answer := ⟨"001010000000001", some [], 0, "33600000001"⟩

/-- A one-shot event is not in the list of the MME: its item has the result 0. -/
theorem not_recorded :
    ¬ ∀ (out : Outcomes) (cir : Request) (msisdn : Int) (inputs : List Input),
      Recorded (processHssDb out cir msisdn) inputs := by
  intro h
  obtain ⟨hitems, -⟩ := h (sampleOutcomes [] fun _ => true) oneShotCir 0 [.answer emptyAnswer] 2 "" ""
    _ rfl
  have hzero : ∃ p ∈ (collect emptyAnswer.response
      (processHssDb (sampleOutcomes [] fun _ => true) oneShotCir 0).entries SortedMap.empty).flat,
      p.2.m_status.result = 0 := by
    decide +kernel
  obtain ⟨p, hp, hzero⟩ := hzero
  obtain ⟨_, -, _, -, -, hright⟩ := hitems p hp
  exact hright.set hzero

end OpenairHss.Cir
