import OpenairHss.Lib.SortedMap
import OpenairHss.Diameter
import Mathlib.Data.Prod.Lex
import Mathlib.Data.String.Basic
import Mathlib.Data.List.ProdSigma

/-!
# The RIR builder of a group CIR

`RIRBuilder` collects one MME response for each IMSI of a group, joins it with the result of the
database operations, and reports to the SCEF with a RIR.  It is a thread that handles one message at
a time (`dispatch`); `run` is a whole sequence of messages.

The guard timer sends whatever has been collected, whether the CIA has been sent or not, and nothing
is ever taken out of `imsi_status_map`: what the timer has sent is sent again by the final RIR.
`reported_perm` counts this exactly, for every sequence of messages: the reports sent are the
final ones, and those of every expiry of the timer once more.  So a group is reported as it should
be exactly when every expiry comes after the CIA and finds nothing collected
(`reported_once_iff`).
-/

namespace OpenairHss.Cir

open Diameter

/-! ### Data -/

def diameterUnableToComply : Nat := 5012

/-- `MME_DOWN` and `IMSI_NOT_ACTIVE`. -/
def mmeDown : Int := 100
def imsiNotActive : Int := 101

structure MonitoringConfEventStatus where
  scef_id : String := ""
  scef_ref_id : Nat := 0
  max_nb_reports : Nat := 0
  max_nb_reports_set : Bool := false
  mon_duration_set : Bool := false
  result : Nat := 0
  is_remove : Bool
  type_set : Bool := false
  is_long_term : Bool := false

namespace MonitoringConfEventStatus

def isLongTermEvt (s : MonitoringConfEventStatus) : Bool :=
  if s.type_set then s.is_long_term
  else if (s.max_nb_reports_set && s.max_nb_reports < 2) ||
      (!s.max_nb_reports_set && !s.mon_duration_set) then false
  else true

def forceLongTerm (s : MonitoringConfEventStatus) (is_long_term : Bool) :
    MonitoringConfEventStatus :=
  { s with is_long_term := is_long_term, type_set := true }

end MonitoringConfEventStatus

/-- `std::pair<std::string, uint32_t>`: SCEF-ID and SCEF-Reference-ID. -/
abbrev EventKey : Type := String ×ₗ Nat

abbrev EvenStatusMap : Type := SortedMap EventKey MonitoringConfEventStatus

structure ImsiStatus where
  m_imsi : String
  m_status : MonitoringConfEventStatus
  m_reachability : Int
  m_msisdn : String

abbrev EventImsiStatus : Type := SortedMap EventKey (List ImsiStatus)

/-- `HandleMmeResponseEvtMsg`; a null `m_mme_response` is `none`. -/
structure MmeResponse where
  m_mme_response : Option EvenStatusMap
  m_imsi : String
  m_imsi_reachable : Int
  m_msisdn : String

/-- The messages of the builder. -/
inductive Msg
  | guardTimeout
  /-- `HANDLE_MME_RESPONSE`. -/
  | mmeResponse (r : MmeResponse)
  /-- `HANDLE_CIA_SENT`. -/
  | ciaSent

/-- `VENDOR_3GPP` and `ABSENT_SUBSCRIBER`. -/
def vendor3gpp : Nat := 10415
def absentSubscriber : Nat := 1

/-- A RIR that was sent, with the content of `imsi_status_map` that its reports are built from. -/
structure Rir where
  destination_host : String
  destination_realm : String
  status : EventImsiStatus

/-- The pairs of event and IMSI that a RIR reports. -/
def Rir.pairs (r : Rir) : List (EventKey × String) :=
  r.status.flat.map fun p => (p.1, p.2.m_imsi)

/-- `RIRBuilder`, with the RIRs it has sent.  `m_nb_ida_proc` is an `int`, and no group has
`2 ^ 31` members. -/
structure RirBuilder where
  m_nb_ida_proc : Int
  m_destination_host : String
  m_destination_realm : String
  m_hss_insert_status : Option EvenStatusMap
  imsi_status_map : EventImsiStatus := SortedMap.empty
  m_ciasent : Bool := false
  rirs : List Rir := []
  /-- `quit ()` has been called. -/
  quitted : Bool := false

namespace RirBuilder

/-! ### The source -/

def new (nb_ida_proc : Nat) (hss_insert_status : EvenStatusMap) (host realm : String) :
    RirBuilder :=
  ⟨nb_ida_proc, host, realm, some hss_insert_status, SortedMap.empty, false, [], false⟩

def sendRIR (b : RirBuilder) : RirBuilder :=
  { b with rirs := b.rirs ++ [⟨b.m_destination_host, b.m_destination_realm, b.imsi_status_map⟩] }

/-- `mixed_cfg`: the status of an event for one IMSI. -/
def mixedCfg (r : MmeResponse) (key : EventKey) (s : MonitoringConfEventStatus) :
    MonitoringConfEventStatus :=
  if s.isLongTermEvt then s
  else match r.m_mme_response with
    | some mme => match mme.find? key with
      | some m => { s with result := m.result }
      | none => s
    -- a simulated response, because the MME was down or the UE unreachable
    | none => { s with result := diameterUnableToComply }

/-- The loop over `m_hss_insert_status`. -/
def collect (r : MmeResponse) (hss : List (EventKey × MonitoringConfEventStatus))
    (m : EventImsiStatus) : EventImsiStatus :=
  hss.foldl (fun m e => m.push e.1
    ⟨r.m_imsi, mixedCfg r e.1 e.2, r.m_imsi_reachable, r.m_msisdn⟩) m

/-- The final RIR. -/
def finish (b : RirBuilder) : RirBuilder :=
  { b.sendRIR with m_hss_insert_status := none, quitted := true }

/-- `RIRBuilder::dispatch`; `none` is the dereference of a null `m_hss_insert_status`. -/
def dispatch (b : RirBuilder) : Msg → Option RirBuilder
  | .guardTimeout => some b.sendRIR
  | .mmeResponse r =>
    match b.m_hss_insert_status with
    | none => none
    | some hss =>
      let b := { b with
        m_nb_ida_proc := b.m_nb_ida_proc - 1
        imsi_status_map := collect r hss.entries b.imsi_status_map }
      some (if b.m_nb_ida_proc = 0 ∧ b.m_ciasent then b.finish else b)
  | .ciaSent =>
    let b := { b with m_ciasent := true }
    some (if b.m_nb_ida_proc = 0 then b.finish else b)

/-- A sequence of messages, one after the other. -/
def run (b : RirBuilder) (msgs : List Msg) : Option RirBuilder := msgs.foldlM dispatch b

/-- All pairs reported so far. -/
def reported (b : RirBuilder) : List (EventKey × String) := b.rirs.flatMap Rir.pairs

/-! ### Sequences of messages -/

/-- The IMSIs that the MME responses among the messages are about. -/
def answered (msgs : List Msg) : List String :=
  msgs.filterMap fun
    | .mmeResponse r => some r.m_imsi
    | _ => none

/-- The number of `HANDLE_CIA_SENT` among the messages. -/
def ciaSents (msgs : List Msg) : Nat :=
  msgs.countP fun
    | .ciaSent => true
    | _ => false

@[simp] theorem answered_guardTimeout (ms : List Msg) :
    answered (.guardTimeout :: ms) = answered ms := rfl
@[simp] theorem answered_ciaSent (ms : List Msg) : answered (.ciaSent :: ms) = answered ms := rfl
@[simp] theorem answered_mmeResponse (r : MmeResponse) (ms : List Msg) :
    answered (.mmeResponse r :: ms) = r.m_imsi :: answered ms := rfl

@[simp] theorem ciaSents_guardTimeout (ms : List Msg) :
    ciaSents (.guardTimeout :: ms) = ciaSents ms := rfl
@[simp] theorem ciaSents_mmeResponse (r : MmeResponse) (ms : List Msg) :
    ciaSents (.mmeResponse r :: ms) = ciaSents ms := rfl
@[simp] theorem ciaSents_ciaSent (ms : List Msg) :
    ciaSents (.ciaSent :: ms) = ciaSents ms + 1 := by
  simp [ciaSents]

/-- What the builder of a group is sent: one MME response for each IMSI, one `HANDLE_CIA_SENT`,
and any number of expiries of the guard timer, in any order. -/
structure Complete (imsis : List String) (msgs : List Msg) : Prop where
  answered : (answered msgs).Perm imsis
  ciaSents : ciaSents msgs = 1

/-- The pairs that the expiries among the messages report, when the IMSIs in `done` have been
answered before. -/
def guardPairs (keys : List EventKey) : List String → List Msg → List (EventKey × String)
  | _, [] => []
  | done, .guardTimeout :: ms => keys ×ˢ done ++ guardPairs keys done ms
  | done, .mmeResponse r :: ms => guardPairs keys (done ++ [r.m_imsi]) ms
  | done, .ciaSent :: ms => guardPairs keys done ms

/-! ### What a sequence of messages reports -/

/-- The pairs collected so far. -/
def collected (b : RirBuilder) : List (EventKey × String) :=
  b.imsi_status_map.flat.map fun p => (p.1, p.2.m_imsi)

theorem collect_pairs (r : MmeResponse) : ∀ (hss : List (EventKey × MonitoringConfEventStatus))
    (m : EventImsiStatus),
    ((collect r hss m).flat.map fun p => (p.1, p.2.m_imsi)).Perm
      (hss.map (fun e => (e.1, r.m_imsi)) ++ m.flat.map fun p => (p.1, p.2.m_imsi)) := by
  intro hss
  induction hss with
  | nil => exact fun m => List.Perm.refl _
  | cons e hss ih =>
    intro m
    refine (ih _).trans ?_
    refine (((SortedMap.flat_push m e.1 _).map _).append_left _).trans ?_
    exact List.perm_middle

theorem product_snoc (keys : List EventKey) (done : List String) (i : String) :
    (keys.map (fun k => (k, i)) ++ keys ×ˢ done).Perm (keys ×ˢ (done ++ [i])) := by
  induction keys with
  | nil => exact List.Perm.refl _
  | cons k keys ih =>
    simp only [List.map_cons, List.product_cons, List.map_append, List.map_nil, List.cons_append]
    refine List.Perm.trans ?_ (ih.append_left _)
    simp only [List.append_assoc, List.cons_append, List.nil_append]
    refine List.Perm.trans ?_ List.perm_middle.symm
    refine List.Perm.cons _ ?_
    rw [← List.append_assoc, ← List.append_assoc]
    exact List.perm_append_comm.append_right _

/-- The final RIR has been sent. -/
def Final (b : RirBuilder) : Prop := b.m_nb_ida_proc = 0 ∧ b.m_ciasent = true

instance (b : RirBuilder) : Decidable b.Final := inferInstanceAs (Decidable (_ ∧ _))

/-- What is known of the builder of a group of `n` when the IMSIs in `done` are answered. -/
structure Inv (hss : EvenStatusMap) (n : Nat) (done : List String) (b : RirBuilder) : Prop where
  count : b.m_nb_ida_proc = n - done.length
  pairs : b.collected.Perm (hss.keys ×ˢ done)
  status : b.m_hss_insert_status = if b.Final then none else some hss
  quitted : b.quitted = true ↔ b.Final

theorem Inv.new (hss : EvenStatusMap) (n : Nat) (host realm : String) :
    Inv hss n [] (new n hss host realm) where
  count := by simp [RirBuilder.new]
  pairs := by
    rw [List.product_nil]
    exact List.Perm.refl _
  status := by simp [RirBuilder.new, Final]
  quitted := by simp [RirBuilder.new, Final]

theorem reported_sendRIR (b : RirBuilder) : b.sendRIR.reported = b.reported ++ b.collected := by
  simp only [reported, sendRIR, List.flatMap_append, List.flatMap_cons, List.flatMap_nil,
    List.append_nil]
  rfl

section Step

variable {hss : EvenStatusMap} {n : Nat} {done : List String} {b : RirBuilder}

theorem Inv.not_final_of_lt (h : Inv hss n done b) (hlt : done.length < n) : ¬ b.Final := by
  intro hf
  have := hf.1
  rw [h.count] at this
  omega

/-- The builder right after a change of its counters: it sends the final RIR if that is due. -/
theorem Inv.finish_if {c : RirBuilder} (hcount : c.m_nb_ida_proc = n - done.length)
    (hpairs : c.collected.Perm (hss.keys ×ˢ done)) (hstatus : c.m_hss_insert_status = some hss)
    (hquit : c.quitted = false) :
    Inv hss n done (if c.Final then c.finish else c) ∧
      ((if c.Final then c.finish else c).Final ↔ c.Final) ∧
      (if c.Final then c.finish else c).reported.Perm
        (c.reported ++ if c.Final then hss.keys ×ˢ done else []) := by
  by_cases hf : c.Final
  · rw [if_pos hf, if_pos hf]
    have hff : c.finish.Final := hf
    refine ⟨⟨hcount, hpairs, ?_, ⟨fun _ => hff, fun _ => rfl⟩⟩, Iff.rfl, ?_⟩
    · rw [if_pos hff]
      rfl
    · have e : c.finish.reported = c.reported ++ c.collected := reported_sendRIR c
      rw [e]
      exact hpairs.append_left _
  · rw [if_neg hf, if_neg hf, List.append_nil]
    refine ⟨⟨hcount, hpairs, ?_, ?_⟩, Iff.rfl, List.Perm.refl _⟩
    · rw [if_neg hf, hstatus]
    · rw [hquit]
      exact ⟨fun h => absurd h (by decide), fun h => absurd h hf⟩

theorem Inv.not_quitted (h : Inv hss n done b) (hf : ¬ b.Final) : b.quitted = false := by
  cases hq : b.quitted with
  | false => rfl
  | true => exact absurd (h.quitted.mp hq) hf

/-- One MME response. -/
theorem Inv.mmeResponse (h : Inv hss n done b) (hlt : done.length < n) (r : MmeResponse) :
    ∃ b', b.dispatch (.mmeResponse r) = some b' ∧ Inv hss n (done ++ [r.m_imsi]) b' ∧
      b'.m_ciasent = b.m_ciasent ∧
      b'.reported.Perm (b.reported ++ if b'.Final then hss.keys ×ˢ (done ++ [r.m_imsi]) else []) := by
  have hstatus : b.m_hss_insert_status = some hss := by
    rw [h.status, if_neg (h.not_final_of_lt hlt)]
  set c : RirBuilder := { b with
    m_nb_ida_proc := b.m_nb_ida_proc - 1
    imsi_status_map := collect r hss.entries b.imsi_status_map } with hc
  have hcount : c.m_nb_ida_proc = n - (done ++ [r.m_imsi]).length := by
    rw [hc, h.count, List.length_append, List.length_singleton]
    push_cast
    omega
  have hpairs : c.collected.Perm (hss.keys ×ˢ (done ++ [r.m_imsi])) := by
    refine (collect_pairs r hss.entries b.imsi_status_map).trans ?_
    refine List.Perm.trans ?_ (product_snoc hss.keys done r.m_imsi)
    rw [SortedMap.keys, List.map_map]
    exact h.pairs.append_left _
  obtain ⟨hinv, hfinal, hrep⟩ := Inv.finish_if hcount hpairs hstatus
    (h.not_quitted (h.not_final_of_lt hlt))
  refine ⟨if c.Final then c.finish else c, ?_, hinv, ?_, ?_⟩
  · rw [dispatch]
    split
    case h_1 hn => rw [hstatus] at hn; cases hn
    case h_2 hss' hs =>
      obtain rfl : hss = hss' := Option.some.inj (hstatus.symm.trans hs)
      rfl
  · split <;> rfl
  · simp only [hfinal]
    exact hrep

/-- The message that the CIA has been sent. -/
theorem Inv.ciaSent (h : Inv hss n done b) (hcia : b.m_ciasent = false) :
    ∃ b', b.dispatch .ciaSent = some b' ∧ Inv hss n done b' ∧ b'.m_ciasent = true ∧
      b'.reported.Perm (b.reported ++ if b'.Final then hss.keys ×ˢ done else []) := by
  have hnf : ¬ b.Final := fun hf => absurd hf.2 (by rw [hcia]; decide)
  have hstatus : b.m_hss_insert_status = some hss := by rw [h.status, if_neg hnf]
  set c : RirBuilder := { b with m_ciasent := true } with hc
  obtain ⟨hinv, hfinal, hrep⟩ := Inv.finish_if (c := c) h.count h.pairs hstatus
    (h.not_quitted hnf)
  refine ⟨if c.Final then c.finish else c, ?_, hinv, ?_, ?_⟩
  · have e : (if c.Final then c.finish else c) = if c.m_nb_ida_proc = 0 then c.finish else c := by
      by_cases h0 : c.m_nb_ida_proc = 0
      · rw [if_pos h0, if_pos ⟨h0, rfl⟩]
      · rw [if_neg h0, if_neg fun hf => h0 hf.1]
    rw [e]
    rfl
  · split <;> rfl
  · simp only [hfinal]
    exact hrep

/-- An expiry of the guard timer. -/
theorem Inv.guardTimeout (h : Inv hss n done b) : Inv hss n done b.sendRIR :=
  ⟨h.count, h.pairs, h.status, h.quitted⟩

end Step

/-- The reports of one message followed by those of the rest.  `c` is the builder in between; if
it has sent the final RIR, nothing is left to be answered and the builder stays as it is. -/
theorem reported_step {hss : EvenStatusMap} {b c b' : RirBuilder} {mid fin fin' : List String}
    {rest : List (EventKey × String)} (hb : ¬ b.Final)
    (hlast : c.Final → fin = mid ∧ b'.Final) (hfin : fin = fin')
    (hc : c.reported.Perm (b.reported ++ if c.Final then hss.keys ×ˢ mid else [])) :
    (c.reported ++ rest ++ if ¬ c.Final ∧ b'.Final then hss.keys ×ˢ fin else []).Perm
      (b.reported ++ rest ++ if ¬ b.Final ∧ b'.Final then hss.keys ×ˢ fin' else []) := by
  subst hfin
  by_cases hf : c.Final
  · obtain ⟨rfl, hb'⟩ := hlast hf
    rw [if_pos hf] at hc
    rw [if_neg (fun h => h.1 hf), if_pos ⟨hb, hb'⟩, List.append_nil]
    refine (hc.append_right _).trans ?_
    rw [List.append_assoc, List.append_assoc]
    exact (List.perm_append_comm).append_left _
  · rw [if_neg hf, List.append_nil] at hc
    simp only [hf, hb, not_false_eq_true, true_and]
    exact (hc.append_right _).append_right _

/-- **What a sequence of messages does**: the builder ends as `Inv` says, and has reported one
more time the pairs of every expiry of the timer and, if it has sent the final RIR, all pairs. -/
theorem run_spec {hss : EvenStatusMap} {n : Nat} : ∀ (msgs : List Msg) {b : RirBuilder}
    {done : List String}, Inv hss n done b → done.length + (answered msgs).length ≤ n →
    b.m_ciasent.toNat + ciaSents msgs ≤ 1 →
    ∃ b', b.run msgs = some b' ∧ Inv hss n (done ++ answered msgs) b' ∧
      b'.m_ciasent.toNat = b.m_ciasent.toNat + ciaSents msgs ∧
      b'.reported.Perm (b.reported ++ guardPairs hss.keys done msgs
        ++ if ¬ b.Final ∧ b'.Final then hss.keys ×ˢ (done ++ answered msgs) else []) := by
  intro msgs
  induction msgs with
  | nil =>
    intro b done h _ _
    refine ⟨b, rfl, ?_, rfl, ?_⟩
    · simpa [answered] using h
    · rw [if_neg (by simp), guardPairs, List.append_nil, List.append_nil]
  | cons m ms ih =>
    intro b done h hlen hcia
    cases m with
    | guardTimeout =>
      obtain ⟨b', hrun, hinv, hsent, hrep⟩ := ih h.guardTimeout hlen hcia
      refine ⟨b', hrun, hinv, hsent, hrep.trans ?_⟩
      rw [reported_sendRIR, guardPairs, ← List.append_assoc]
      exact ((h.pairs.append_left _).append_right _).append_right _
    | mmeResponse r =>
      rw [answered_mmeResponse, List.length_cons] at hlen
      obtain ⟨c, hstep, hc, hsent, hcrep⟩ := h.mmeResponse (by omega) r
      obtain ⟨b', hrun, hinv, hsent', hrep⟩ := ih hc
        (by rw [List.length_append, List.length_singleton]; omega) (by rw [hsent]; exact hcia)
      refine ⟨b', ?_, ?_, ?_, hrep.trans ?_⟩
      · rw [run, List.foldlM_cons, hstep]
        exact hrun
      · rwa [List.append_assoc, List.singleton_append] at hinv
      · rw [hsent', hsent, ciaSents_mmeResponse]
      · rw [guardPairs, answered_mmeResponse]
        refine reported_step (h.not_final_of_lt (by omega)) ?_ (by simp) hcrep
        intro hf
        have hf0 := hf.1
        rw [hc.count, List.length_append, List.length_singleton] at hf0
        have hnil : answered ms = [] := List.length_eq_zero_iff.mp (by omega)
        have hn := hinv.count
        rw [hnil, List.append_nil, List.length_append, List.length_singleton] at hn
        refine ⟨by rw [hnil, List.append_nil], by omega, Bool.toNat_eq_one.mp ?_⟩
        rw [hf.2, Bool.toNat_true] at hsent'
        have := Bool.toNat_le b'.m_ciasent
        omega
    | ciaSent =>
      have hsent : b.m_ciasent = false := by
        cases hb : b.m_ciasent with
        | false => rfl
        | true => simp [hb] at hcia
      have hnf : ¬ b.Final := fun hf => absurd hf.2 (by rw [hsent]; decide)
      obtain ⟨c, hstep, hc, hcsent, hcrep⟩ := h.ciaSent hsent
      rw [hsent, ciaSents_ciaSent] at hcia
      have hms : ciaSents ms = 0 := by simpa using hcia
      obtain ⟨b', hrun, hinv, hsent', hrep⟩ := ih hc hlen (by rw [hcsent, hms]; decide)
      refine ⟨b', ?_, hinv, ?_, hrep.trans ?_⟩
      · rw [run, List.foldlM_cons, hstep]
        exact hrun
      · rw [hsent', hcsent, hsent, ciaSents_ciaSent, Bool.toNat_true, Bool.toNat_false]
        omega
      · rw [guardPairs, answered_ciaSent]
        refine reported_step hnf ?_ rfl hcrep
        intro hf
        have hf0 := hf.1
        rw [hc.count] at hf0
        rw [answered_ciaSent] at hlen
        have hnil : answered ms = [] := List.length_eq_zero_iff.mp (by omega)
        have hn := hinv.count
        rw [hnil, List.append_nil] at hn
        refine ⟨by rw [hnil, List.append_nil], by omega, Bool.toNat_eq_one.mp ?_⟩
        rw [hsent', hcsent, hms, Bool.toNat_true]

/-! ### When a group is reported as it should be -/

/-- Nothing is reported before the CIA has been sent. -/
def NotEarly (b : RirBuilder) (msgs : List Msg) : Prop :=
  ∀ pre post, msgs = pre ++ post → ciaSents pre = 0 → ∀ c, b.run pre = some c → c.rirs = []

/-- Each pair of an event and a member of the group is reported exactly once. -/
def ReportedOnce (hss : EvenStatusMap) (imsis : List String) (b : RirBuilder) (msgs : List Msg) :
    Prop :=
  ∃ c, b.run msgs = some c ∧ c.reported.Perm (hss.keys ×ˢ imsis)

/-- Every expiry of the guard timer comes after `HANDLE_CIA_SENT`, and either there are no
events or no MME response comes before it. -/
def GuardLate (hss : EvenStatusMap) (msgs : List Msg) : Prop :=
  ∀ pre post, msgs = pre ++ .guardTimeout :: post →
    ciaSents pre ≠ 0 ∧ (hss.keys = [] ∨ answered pre = [])

theorem product_eq_nil {α β : Type} {l : List α} {l' : List β} : l ×ˢ l' = [] ↔ l = [] ∨ l' = [] := by
  constructor
  · intro h
    have := congrArg List.length h
    rw [List.length_product, List.length_nil, Nat.mul_eq_zero] at this
    exact this.imp List.length_eq_zero_iff.mp List.length_eq_zero_iff.mp
  · rintro (rfl | rfl)
    · rfl
    · exact List.product_nil _

/-- The expiries report nothing exactly when each of them finds nothing collected. -/
theorem guardPairs_eq_nil {keys : List EventKey} : ∀ {msgs : List Msg} {done : List String},
    guardPairs keys done msgs = [] ↔ ∀ pre post, msgs = pre ++ .guardTimeout :: post →
      keys = [] ∨ done ++ answered pre = [] := by
  intro msgs
  induction msgs with
  | nil => exact fun {_} => ⟨fun _ pre post h => by simp at h, fun _ => rfl⟩
  | cons m ms ih =>
    intro done
    constructor
    · intro h pre post e
      cases pre with
      | nil =>
        obtain ⟨rfl, rfl⟩ := List.cons.inj e
        rw [guardPairs, List.append_eq_nil_iff, product_eq_nil] at h
        simpa [answered] using h.1
      | cons p pre =>
        obtain ⟨rfl, rfl⟩ := List.cons.inj e
        cases m with
        | guardTimeout =>
          rw [guardPairs, List.append_eq_nil_iff] at h
          exact ih.mp h.2 pre post rfl
        | mmeResponse r =>
          have := ih.mp h pre post rfl
          rwa [answered_mmeResponse, ← List.singleton_append, ← List.append_assoc]
        | ciaSent => exact ih.mp h pre post rfl
    · intro h
      cases m with
      | guardTimeout =>
        rw [guardPairs, List.append_eq_nil_iff, product_eq_nil]
        refine ⟨by simpa [answered] using h [] ms rfl, ih.mpr fun pre post e => ?_⟩
        exact h (.guardTimeout :: pre) post (by rw [e]; rfl)
      | mmeResponse r =>
        refine ih.mpr fun pre post e => ?_
        have := h (.mmeResponse r :: pre) post (by rw [e]; rfl)
        rwa [answered_mmeResponse, ← List.singleton_append, ← List.append_assoc] at this
      | ciaSent => exact ih.mpr fun pre post e => h (.ciaSent :: pre) post (by rw [e]; rfl)

/-- Before the CIA is sent, only the guard timer sends a RIR. -/
theorem rirs_before_cia : ∀ {msgs : List Msg} {b c : RirBuilder}, b.m_ciasent = false →
    ciaSents msgs = 0 → b.run msgs = some c →
    (c.rirs = [] ↔ b.rirs = [] ∧ ∀ pre post, msgs ≠ pre ++ .guardTimeout :: post) := by
  intro msgs
  induction msgs with
  | nil =>
    intro b c _ _ h
    obtain rfl : b = c := Option.some.inj h
    exact ⟨fun h => ⟨h, fun pre post e => by simp at e⟩, And.left⟩
  | cons m ms ih =>
    intro b c hb hcia h
    rw [run, List.foldlM_cons] at h
    obtain ⟨d, hd, hrun⟩ := Option.bind_eq_some_iff.mp h
    cases m with
    | ciaSent => simp at hcia
    | guardTimeout =>
      obtain rfl : b.sendRIR = d := Option.some.inj hd
      refine (ih (b := b.sendRIR) hb hcia hrun).trans ⟨fun h => ?_, fun h => absurd rfl (h.2 [] ms)⟩
      exact absurd h.1 (by simp [sendRIR])
    | mmeResponse r =>
      have hd' : d.m_ciasent = false ∧ d.rirs = b.rirs := by
        rw [dispatch] at hd
        split at hd
        · cases hd
        · obtain rfl := Option.some.inj hd
          simp [hb]
      refine (ih hd'.1 hcia hrun).trans ?_
      rw [hd'.2]
      refine and_congr_right fun _ => ⟨fun h pre post e => ?_, fun h pre post e => ?_⟩
      · cases pre with
        | nil => cases (List.cons.inj e).1
        | cons p pre => exact h pre post (List.cons.inj e).2
      · exact h (.mmeResponse r :: pre) post (by rw [e]; rfl)

/-- All pairs reported over a complete sequence of messages, up to order. -/
theorem reported_perm {imsis : List String} {msgs : List Msg} (h : Complete imsis msgs)
    (hss : EvenStatusMap) (host realm : String) :
    ∃ c, (new imsis.length hss host realm).run msgs = some c ∧
      c.reported.Perm (guardPairs hss.keys [] msgs ++ hss.keys ×ˢ imsis) := by
  obtain ⟨c, hrun, hinv, hsent, hrep⟩ := run_spec msgs (Inv.new hss imsis.length host realm)
    (by rw [List.length_nil, Nat.zero_add, h.answered.length_eq]) (by rw [h.ciaSents]; rfl)
  have hnf : ¬ (new imsis.length hss host realm).Final := fun hf => absurd hf.2 (by simp [new])
  have hf : c.Final := by
    refine ⟨?_, ?_⟩
    · rw [hinv.count, List.nil_append, h.answered.length_eq]
      omega
    · exact Bool.toNat_eq_one.mp (by rw [hsent, h.ciaSents]; rfl)
  rw [if_pos ⟨hnf, hf⟩] at hrep
  exact ⟨c, hrun, hrep.trans ((h.answered.product_left _).append_left _)⟩

theorem ciaSents_append (ms ms' : List Msg) : ciaSents (ms ++ ms') = ciaSents ms + ciaSents ms' :=
  List.countP_append

/-- The state after a first part of a sequence of messages that does not crash. -/
theorem run_prefix {b c : RirBuilder} {pre post : List Msg} (h : b.run (pre ++ post) = some c) :
    ∃ d, b.run pre = some d := by
  rw [run, List.foldlM_append] at h
  obtain ⟨d, hd, -⟩ := Option.bind_eq_some_iff.mp h
  exact ⟨d, hd⟩

/-- **A group is reported as it should be exactly when the guard timer is late**: nothing before
the CIA, and each pair of event and IMSI once, if and only if every expiry comes after the CIA and
finds nothing collected. -/
theorem reported_once_iff (hss : EvenStatusMap) (imsis : List String) (host realm : String)
    (msgs : List Msg) (h : Complete imsis msgs) :
    (NotEarly (new imsis.length hss host realm) msgs ∧
      ReportedOnce hss imsis (new imsis.length hss host realm) msgs) ↔ GuardLate hss msgs := by
  obtain ⟨c, hrun, hrep⟩ := reported_perm h hss host realm
  constructor
  · rintro ⟨hearly, c', hrun', hrep'⟩ pre post e
    obtain rfl : c = c' := Option.some.inj (hrun.symm.trans hrun')
    refine ⟨fun h0 => ?_, ?_⟩
    · have e' : msgs = (pre ++ [.guardTimeout]) ++ post := by rw [e]; simp
      have h0' : ciaSents (pre ++ [.guardTimeout]) = 0 := by rw [ciaSents_append, h0]; rfl
      obtain ⟨d, hd⟩ := run_prefix (e' ▸ hrun)
      have hnil := hearly _ _ e' h0' d hd
      exact ((rirs_before_cia rfl h0' hd).mp hnil).2 pre [] rfl
    · have hlen := (hrep.symm.trans hrep').length_eq
      rw [List.length_append] at hlen
      have hnil : guardPairs hss.keys [] msgs = [] := List.length_eq_zero_iff.mp (by omega)
      simpa using guardPairs_eq_nil.mp hnil pre post e
  · intro hlate
    refine ⟨fun pre post e h0 d hd => ?_, c, hrun, ?_⟩
    · refine (rirs_before_cia rfl h0 hd).mpr ⟨rfl, fun p q e' => ?_⟩
      have h1 := (hlate p (q ++ post) (by rw [e, e']; simp)).1
      rw [e', ciaSents_append] at h0
      omega
    · have hnil : guardPairs hss.keys [] msgs = [] :=
        guardPairs_eq_nil.mpr fun pre post e => by simpa using (hlate pre post e).2
      rwa [hnil, List.nil_append] at hrep

/-! ### A group of one -/

/-- One short term event. -/
def sampleStatus : EvenStatusMap :=
  SortedMap.empty.insert (toLex ("scef", 1)) { scef_id := "scef", scef_ref_id := 1, is_remove := false }

def sampleResponse : MmeResponse := ⟨none, "001010000000001", mmeDown, "33600000001"⟩

theorem reported_once_sample :
    Complete ["001010000000001"] [.ciaSent, .mmeResponse sampleResponse] ∧
    NotEarly (new 1 sampleStatus "scef" "realm") [.ciaSent, .mmeResponse sampleResponse] ∧
    ReportedOnce sampleStatus ["001010000000001"] (new 1 sampleStatus "scef" "realm")
      [.ciaSent, .mmeResponse sampleResponse] := by
  have hc : Complete ["001010000000001"] [.ciaSent, .mmeResponse sampleResponse] :=
    ⟨List.Perm.refl _, rfl⟩
  refine ⟨hc, (reported_once_iff sampleStatus ["001010000000001"] "scef" "realm" _ hc).mpr ?_⟩
  intro pre post e
  match pre, e with
  | [], e => cases (List.cons.inj e).1
  | [_], e => cases (List.cons.inj (List.cons.inj e).2).1
  | _ :: _ :: _, e => simp at e

/-- The guard timer expires after the MME response and before the CIA has been sent: a RIR is sent
too early, and its report is sent again by the final RIR. -/
theorem reported_early_and_twice :
    Complete ["001010000000001"] [.mmeResponse sampleResponse, .guardTimeout, .ciaSent] ∧
    ¬ NotEarly (new 1 sampleStatus "scef" "realm")
      [.mmeResponse sampleResponse, .guardTimeout, .ciaSent] ∧
    ¬ ReportedOnce sampleStatus ["001010000000001"] (new 1 sampleStatus "scef" "realm")
      [.mmeResponse sampleResponse, .guardTimeout, .ciaSent] := by
  refine ⟨⟨List.Perm.refl _, rfl⟩, fun h => ?_, ?_⟩
  · have := h [.mmeResponse sampleResponse, .guardTimeout] [.ciaSent] rfl rfl _ rfl
    cases this
  · rintro ⟨c, hrun, hrep⟩
    have hlen : ((new 1 sampleStatus "scef" "realm").run
        [.mmeResponse sampleResponse, .guardTimeout, .ciaSent]).map (·.reported.length) = some 2 :=
      rfl
    rw [hrun] at hlen
    rw [Option.map_some, Option.some.injEq, hrep.length_eq] at hlen
    cases hlen

end RirBuilder

end OpenairHss.Cir
