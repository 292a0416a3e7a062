import OpenairHss.Stats.Rows
import OpenairHss.Lib.Json

/-!
# The live statistics

`StatsHss::processStatGetLive` answers with a JSON document that has one object for each collector.

* `live_shows_iff`: the object of a command shows its counters exactly if no result was misfiled, also
  that of SRR, whose row never does.
* `run_perm`: the statistics do not depend on the order in which the events are registered.
-/

namespace OpenairHss.Stats

/-! ### The document -/

def text (s : String) : Json := .string (s.toList.map fun c => UInt8.ofNat c.toNat)

def number (n : Nat) : Json := .number (.int n)

/-- An element of "values". -/
def valueObject (val : Code) (nbHits : Nat) : Json :=
  .object [("vendor", number val.1), ("code", number val.2), ("nb", number nbHits)]

/-- The members of an object of the document. -/
def members (name : String) (sent sentKo received receivedKo unknown : Nat) (values : List Json) :
    List (String × Json) :=
  [("type", text name), ("sent_att", number sent), ("sent_ko", number sentKo),
    ("recv_att", number received), ("recv_ko", number receivedKo), ("unknown", number unknown),
    ("values", .array values)]

/-- `SStats::appendStatObject`; the name is the one that the collector was constructed with. -/
def appendStatObject (arrayObjects : List Json) (name : String) (collector : StatCollector) :
    List Json :=
  arrayObjects ++ [.object (members name collector.m_attemps_sent.toNat collector.m_sent_ko.toNat
    collector.m_attemps_recv.toNat collector.m_recv_ko.toNat collector.m_unknownErrors.toNat
    (collector.m_trackedCodes.map fun val => valueObject val (collector.getStatValue val).toNat))]

def StatsHss.liveObjects (s : StatsHss) : List Json :=
  let arrayObjects := appendStatObject [] "ulr" s.m_ulr_collector
  let arrayObjects := appendStatObject arrayObjects "air" s.m_air_collector
  let arrayObjects := appendStatObject arrayObjects "pur" s.m_pur_collector
  let arrayObjects := appendStatObject arrayObjects "cir" s.m_cir_collector
  let arrayObjects := appendStatObject arrayObjects "nir" s.m_nir_collector
  let arrayObjects := appendStatObject arrayObjects "idr" s.m_idr_collector
  let arrayObjects := appendStatObject arrayObjects "rir" s.m_rir_collector
  appendStatObject arrayObjects "srr" s.m_srr_collector

def StatsHss.processStatGetLive (s : StatsHss) : Json :=
  .object [("stats", .array s.liveObjects)]

namespace Command

def name : Command → String
  | ulr => "ulr"
  | air => "air"
  | pur => "pur"
  | cir => "cir"
  | nir => "nir"
  | idr => "idr"
  | rir => "rir"
  | srr => "srr"

/-- The place of the object of a command. -/
def place : Command → Nat
  | ulr => 0
  | air => 1
  | pur => 2
  | cir => 3
  | nir => 4
  | idr => 5
  | rir => 6
  | srr => 7

end Command

/-! ### What the objects show -/

/-- The object that shows what a collector was given. -/
def shownObject (name : String) (codes : List Code) (ops : List Op) : Json :=
  .object (members name (ops.count (.attempt .sent)) (ops.count (.attempt .sentKo))
    (ops.count (.attempt .received)) (ops.count (.attempt .receivedKo))
    (ops.countP (Op.unknown codes))
    (codes.map fun val => valueObject val (ops.count (.stat val))))

variable {c : Command} {log log' : List Event} {codes : List Code} {ops ops' : List Op}
  {s s' : StatCollector}

theorem number_inj {n m : Nat} : number n = number m ↔ n = m := by
  simp only [number, Json.number.injEq, JsonNumber.int.injEq, Int.ofNat_inj]

theorem valueObject_inj {val : Code} {n m : Nat} : valueObject val n = valueObject val m ↔ n = m := by
  simp only [valueObject, Json.object.injEq, List.cons.injEq, Prod.mk.injEq, number_inj, true_and,
    and_true]

theorem Counted.object_eq (h : Counted codes ops s) (hlen : ops.length < 2 ^ 32) (name : String) :
    Json.object (members name s.m_attemps_sent.toNat s.m_sent_ko.toNat s.m_attemps_recv.toNat
      s.m_recv_ko.toNat s.m_unknownErrors.toNat
      (s.m_trackedCodes.map fun val => valueObject val (s.getStatValue val).toNat)) =
      shownObject name codes ops := by
  have hvalues : s.m_trackedCodes.map (fun val => valueObject val (s.getStatValue val).toNat) =
      codes.map fun val => valueObject val (ops.count (.stat val)) := by
    rw [h.tracked]
    exact List.map_congr_left fun k hk => congrArg (valueObject k) (h.toNat_hits hlen hk)
  rw [hvalues, h.toNat_unknown hlen, h.sent, h.sentKo, h.received, h.receivedKo]
  simp only [toNat_count hlen]
  rfl

theorem shownObject_injective {name : String}
    (h : shownObject name codes ops = shownObject name codes ops') :
    (∀ k ∈ codes, ops.count (.stat k) = ops'.count (.stat k)) ∧
      ops.countP (Op.unknown codes) = ops'.countP (Op.unknown codes) := by
  simp only [shownObject, members, Json.object.injEq, List.cons.injEq, Prod.mk.injEq, number_inj,
    Json.array.injEq, true_and, and_true] at h
  obtain ⟨-, -, -, -, hunknown, hvalues⟩ := h
  exact ⟨fun k hk => valueObject_inj.mp (List.map_inj_left.mp hvalues k hk), hunknown⟩

/-- The object of the command shows the counters of the command. -/
def LiveShows (log : List Event) (c : Command) : Prop :=
  (StatsHss.run log).liveObjects[c.place]? = some (shownObject c.name c.codes (own c log))

theorem liveObjects_get (hlen : log.length < 2 ^ 32) (c : Command) :
    (StatsHss.run log).liveObjects[c.place]? =
      some (shownObject c.name c.codes (given c log)) := by
  have hgiven := Nat.lt_of_le_of_lt (length_given c log) hlen
  rw [← (collector_run c log).object_eq hgiven]
  cases c <;> rfl

/-- **The live statistics of a command are right** exactly if, for RIR and IDR, no result was
misfiled. -/
theorem live_shows_iff (log : List Event) (hlen : log.length < 2 ^ 32) (c : Command) :
    LiveShows log c ↔ Filed log c := by
  rw [LiveShows, liveObjects_get hlen, Option.some.injEq]
  constructor
  · intro h hc
    obtain ⟨hhits, hunknown⟩ := shownObject_injective h
    exact misfiled_eq_nil hc hhits hunknown
  · intro h
    rw [given_eq_own h]

theorem live_shows_iff_sample : LiveShows sampleLog .srr ↔ Filed sampleLog .srr :=
  live_shows_iff sampleLog (by decide) .srr

/-! ### The order of the events -/

theorem Counted.eq_of_perm (h : Counted codes ops s) (h' : Counted codes ops' s')
    (hperm : ops.Perm ops') : s = s' := by
  have hhits : s.m_cumulativeCodes = s'.m_cumulativeCodes := by
    funext k
    rw [h.hits k, h'.hits k, hperm.count_eq]
  have hsent := h.sent.trans (hperm.count_eq _ ▸ h'.sent.symm)
  have hsentKo := h.sentKo.trans (hperm.count_eq _ ▸ h'.sentKo.symm)
  have hreceived := h.received.trans (hperm.count_eq _ ▸ h'.received.symm)
  have hreceivedKo := h.receivedKo.trans (hperm.count_eq _ ▸ h'.receivedKo.symm)
  have hunknown := h.unknown.trans (hperm.countP_eq _ ▸ h'.unknown.symm)
  have htracked := h.tracked.trans h'.tracked.symm
  cases s
  cases s'
  simp only at hhits hsent hsentKo hreceived hreceivedKo hunknown htracked
  subst hhits hsent hsentKo hreceived hreceivedKo hunknown htracked
  rfl

theorem collectors_ext {s s' : StatsHss} (h : ∀ c, s.collector c = s'.collector c)
    (hmax : s.m_max_codes_tracked = s'.m_max_codes_tracked) : s = s' := by
  have hulr := h .ulr
  have hair := h .air
  have hpur := h .pur
  have hcir := h .cir
  have hnir := h .nir
  have hidr := h .idr
  have hrir := h .rir
  have hsrr := h .srr
  cases s
  cases s'
  simp only [StatsHss.collector] at hulr hair hpur hcir hnir hidr hrir hsrr hmax
  subst hulr hair hpur hcir hnir hidr hrir hsrr hmax
  rfl

/-- **The order in which the events are registered does not matter.** -/
theorem run_perm (h : log.Perm log') : StatsHss.run log = StatsHss.run log' := by
  refine collectors_ext (fun c => ?_) ?_
  · exact (collector_run c log).eq_of_perm (collector_run c log') (h.filterMap _)
  · rw [max_run, max_run]

end OpenairHss.Stats
