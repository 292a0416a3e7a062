import OpenairHss.Stats.Counted

/-!
# The rows of the statistics

Each collector is given what is registered with its type (`collector_run`).  For a command that is
what belongs to it (`ownOp`), except for an RIA without a Result-Code, which `REIRreq::processAnswer`
registers as a result of IDR.

* `srr_row`: the row of SRR never shows the counters of SRR.
* `shows_iff`, `adds_iff`: when the other rows and the sums are right.
* `serialized_stats`: the claim of the statistics holds of no run, and what holds instead.
-/

namespace OpenairHss.Stats

open Csv

/-- The commands, in the order of their rows. -/
inductive Command
  | air
  | ulr
  | pur
  | idr
  | cir
  | nir
  | rir
  | srr
deriving DecidableEq

namespace Command

def type : Command → StatType
  | air => .air
  | ulr => .ulr
  | pur => .pur
  | idr => .idr
  | cir => .cir
  | nir => .nir
  | rir => .rir
  | srr => .srr

def codes : Command → List Code
  | air => airCodes
  | ulr => ulrCodes
  | pur => purCodes
  | idr => idrCodes
  | cir => cirCodes
  | nir => nirCodes
  | rir => rirCodes
  | srr => srrCodes

/-- What follows the time in the row. -/
def header : Command → String
  | air => ",S6A,AIR,"
  | ulr => ",S6A,ULR,"
  | pur => ",S6A,PUR,"
  | idr => ",S6A,IDR,"
  | cir => ",S6T,CIR,"
  | nir => ",S6T,NIR,"
  | rir => ",S6T,RIR,"
  | srr => ",S6C,SRR,"

def row : Command → Nat
  | air => 0
  | ulr => 1
  | pur => 2
  | idr => 3
  | cir => 4
  | nir => 5
  | rir => 6
  | srr => 7

/-- The command whose collector the row is written from. -/
def source : Command → Command
  | srr => rir
  | c => c

end Command

def StatsHss.collector (s : StatsHss) : Command → StatCollector
  | .air => s.m_air_collector
  | .ulr => s.m_ulr_collector
  | .pur => s.m_pur_collector
  | .idr => s.m_idr_collector
  | .cir => s.m_cir_collector
  | .nir => s.m_nir_collector
  | .rir => s.m_rir_collector
  | .srr => s.m_srr_collector

/-! ### What a collector is given -/

/-- What an event is for a command: an RIA is a result of RIR, and an IDA is one of IDR. -/
def ownOp (c : Command) : Event → Option Op
  | .attemp type attempType => if type = c.type then some (.attempt attempType) else none
  | .result type code => if type = c.type then some (.stat code) else none
  | .ria ans => if c = .rir then some (.stat ans.code) else none
  | .ida ans => if c = .idr then some (.stat ans.code) else none

/-- What an event gives to the collector of a command. -/
def givenOp (c : Command) : Event → Option Op
  | .ria ans =>
    if c = (if ans.result_code.isSome then .rir else .idr) then some (.stat ans.code) else none
  | e => ownOp c e

def own (c : Command) (log : List Event) : List Op := log.filterMap (ownOp c)
def given (c : Command) (log : List Event) : List Op := log.filterMap (givenOp c)

/-- The result of an RIA without a Result-Code. -/
def misfiledOp : Event → Option Op
  | .ria ans => if ans.result_code.isSome then none else some (.stat ans.code)
  | _ => none

def misfiled (log : List Event) : List Op := log.filterMap misfiledOp

variable {c : Command} {log : List Event} {now : String}

theorem processStatAttemp_collector (s : StatsHss) (type : StatType) (a : StatAttempType) :
    (s.processStatAttemp type a).collector c =
      if type = c.type then (s.collector c).addAttempt a else s.collector c := by
  cases c <;> cases type <;> rfl

theorem processStatResult_collector (s : StatsHss) (type : StatType) (code : Code) :
    (s.processStatResult type code).collector c =
      if type = c.type then (s.collector c).addStat code else s.collector c := by
  cases c <;> cases type <;> rfl

theorem processStatAttemp_max (s : StatsHss) (type : StatType) (a : StatAttempType) :
    (s.processStatAttemp type a).m_max_codes_tracked = s.m_max_codes_tracked := by
  cases type <;> rfl

theorem processStatResult_max (s : StatsHss) (type : StatType) (code : Code) :
    (s.processStatResult type code).m_max_codes_tracked = s.m_max_codes_tracked := by
  cases type <;> rfl

theorem rir_type : StatType.rir = c.type ↔ c = .rir := by cases c <;> decide
theorem idr_type : StatType.idr = c.type ↔ c = .idr := by cases c <;> decide

/-- An event gives a collector at most one operation. -/
theorem process_collector (s : StatsHss) (e : Event) :
    (s.process e).collector c = (givenOp c e).elim (s.collector c) (s.collector c).apply := by
  cases e with
  | attemp type a =>
    rw [StatsHss.process, processStatAttemp_collector, givenOp, ownOp]
    · split <;> rfl
    · simp
  | result type code =>
    rw [StatsHss.process, processStatResult_collector, givenOp, ownOp]
    · split <;> rfl
    · simp
  | ria ans =>
    cases hrc : ans.result_code with
    | some code =>
      simp only [StatsHss.process, hrc, processStatResult_collector, givenOp, rir_type,
        Option.isSome_some, if_true, Answer.code]
      split <;> rfl
    | none =>
      simp only [StatsHss.process, hrc, processStatResult_collector, givenOp, idr_type,
        Option.isSome_none]
      split <;> simp_all [StatCollector.apply]
  | ida ans =>
    rw [StatsHss.process, processStatResult_collector, givenOp, ownOp]
    · simp only [idr_type]
      split <;> rfl
    · simp

theorem new_collector (c : Command) : StatsHss.new.collector c = StatCollector.tracking c.codes := by
  cases c <;> rfl

/-- **A collector counts what it is given.** -/
theorem collector_run (c : Command) (log : List Event) :
    Counted c.codes (given c log) ((StatsHss.run log).collector c) := by
  induction log using List.reverseRecOn with
  | nil =>
    rw [StatsHss.run, List.foldl_nil, new_collector]
    exact counted_tracking c.codes
  | append_singleton log e ih =>
    rw [StatsHss.run, List.foldl_append, List.foldl_cons, List.foldl_nil, process_collector, given,
      List.filterMap_append]
    cases hop : givenOp c e with
    | none =>
      simp only [List.filterMap_cons, hop, List.filterMap_nil, List.append_nil]
      exact ih
    | some op =>
      simp only [List.filterMap_cons, hop, List.filterMap_nil]
      exact ih.apply op

theorem max_run (log : List Event) : (StatsHss.run log).m_max_codes_tracked = 6 := by
  induction log using List.reverseRecOn with
  | nil => rfl
  | append_singleton log e ih =>
    rw [StatsHss.run, List.foldl_append, List.foldl_cons, List.foldl_nil]
    refine Eq.trans ?_ ih
    cases e with
    | attemp type a => exact processStatAttemp_max _ type a
    | result type code => exact processStatResult_max _ type code
    | ria ans =>
      cases hrc : ans.result_code with
      | some code =>
        rw [StatsHss.process, hrc]
        exact processStatResult_max _ _ _
      | none =>
        rw [StatsHss.process, hrc]
        exact processStatResult_max _ _ _
    | ida ans => exact processStatResult_max _ _ _

/-- The row of a command is written from the collector of its source. -/
theorem rows_get (s : StatsHss) (now : String) (c : Command) :
    (s.rows now)[c.row]? = some (now ++ c.header ++
      (s.collector c.source).serialize s.m_max_codes_tracked) := by
  cases c <;> rfl

/-! ### What the claim asks for -/

/-- The row of the command shows the counters of the command. -/
def Shows (now : String) (log : List Event) (c : Command) : Prop :=
  ((StatsHss.run log).rows now)[c.row]? =
    some (now ++ c.header ++ line (shown c.codes (own c log) 6))

/-- The counters of the results of the command add up to the number of its results. -/
def Adds (log : List Event) (c : Command) : Prop :=
  (c.codes.map fun k => (((StatsHss.run log).collector c).getStatValue k).toNat).sum +
    ((StatsHss.run log).collector c).m_unknownErrors.toNat = (own c log).countP Op.isStat

/-- All rows have as many columns. -/
def Aligned (now : String) (log : List Event) : Prop :=
  ∀ r ∈ (StatsHss.run log).rows now, ∀ r' ∈ (StatsHss.run log).rows now,
    r.toList.count ',' = r'.toList.count ','

/-- No RIA without a Result-Code is in the way. -/
def Filed (log : List Event) (c : Command) : Prop := c = .rir ∨ c = .idr → misfiled log = []

theorem shows_iff_line : Shows now log c ↔
    ((StatsHss.run log).collector c.source).cells 6 = shown c.codes (own c log) 6 := by
  rw [Shows, rows_get, max_run, serialize_eq, Option.some.injEq]
  constructor
  · intro h
    have hchars := congrArg String.toList h
    rw [String.toList_append, String.toList_append (t := line _)] at hchars
    exact line_injective (cells_ne_nil _ 6) (shown_ne_nil _ _ 6) (plain_cells _ 6)
      (plain_shown _ _ 6) (String.toList_injective (List.append_cancel_left hchars))
  · intro h
    rw [h]

theorem codes_length (c : Command) : c.codes.length ≤ 6 := by cases c <;> decide

theorem codes_nodup (c : Command) : c.codes.Nodup := by cases c <;> decide

/-- **The row of SRR never shows the counters of SRR**: it has one number less. -/
theorem srr_row : ¬ Shows now log .srr := by
  intro h
  have hcells := shows_iff_line.mp h
  have htracked : ((StatsHss.run log).collector .rir).m_trackedCodes = rirCodes :=
    (collector_run .rir log).tracked
  have hempty : (((StatsHss.run log).collector .rir).cells 6)[8]? = some "" := by
    rw [StatCollector.cells, htracked]
    rfl
  have hfull : (shown srrCodes (own .srr log) 6)[8]? =
      some (toString ((own .srr log).countP (Op.unknown srrCodes))) := rfl
  rw [show Command.source .srr = .rir from rfl, show Command.codes .srr = srrCodes from rfl] at hcells
  rw [hcells, hfull, Option.some.injEq] at hempty
  exact toString_ne_empty _ hempty

theorem aligned (now : String) (log : List Event) : Aligned now log := by
  have hrow : ∀ r ∈ (StatsHss.run log).rows now, r.toList.count ',' = now.toList.count ',' + 13 := by
    intro r hr
    obtain ⟨c, hc⟩ : ∃ c : Command, r = now ++ c.header ++
        ((StatsHss.run log).collector c.source).serialize (StatsHss.run log).m_max_codes_tracked := by
      obtain ⟨i, hi, hget⟩ := List.mem_iff_getElem.mp hr
      obtain ⟨c, rfl⟩ : ∃ c : Command, i = c.row := by
        have hlt : i < 8 := hi
        match i, hlt with
        | 0, _ => exact ⟨.air, rfl⟩
        | 1, _ => exact ⟨.ulr, rfl⟩
        | 2, _ => exact ⟨.pur, rfl⟩
        | 3, _ => exact ⟨.idr, rfl⟩
        | 4, _ => exact ⟨.cir, rfl⟩
        | 5, _ => exact ⟨.nir, rfl⟩
        | 6, _ => exact ⟨.rir, rfl⟩
        | 7, _ => exact ⟨.srr, rfl⟩
      refine ⟨c, Option.some.inj ?_⟩
      rw [← hget, ← List.getElem?_eq_getElem hi, rows_get]
    have htracked := (collector_run c.source log).tracked
    have hcommas := commas_line (cells_ne_nil ((StatsHss.run log).collector c.source) 6)
      (plain_cells _ 6)
    rw [length_cells _ (htracked ▸ codes_length c.source)] at hcommas
    have hheader : c.header.toList.count ',' = 3 := by cases c <;> decide
    rw [hc, max_run, serialize_eq, String.toList_append, String.toList_append, List.count_append,
      List.count_append, hheader]
    omega
  intro r hr r' hr'
  rw [hrow r hr, hrow r' hr']

/-! ### Exactly when a row and a sum are right -/

theorem given_eq_own (h : Filed log c) : given c log = own c log := by
  refine List.filterMap_congr fun e he => ?_
  cases e with
  | attemp | result | ida => rfl
  | ria ans =>
    by_cases hc : c = .rir ∨ c = .idr
    · have hsome : ans.result_code.isSome = true := by
        by_contra hnone
        have hmem : Op.stat ans.code ∈ misfiled log :=
          List.mem_filterMap.mpr ⟨.ria ans, he, if_neg hnone⟩
        rw [h hc] at hmem
        exact absurd hmem List.not_mem_nil
      rw [givenOp, hsome, if_pos rfl, ownOp]
    · obtain ⟨hrir, hidr⟩ := not_or.mp hc
      rw [givenOp, ownOp, if_neg hrir]
      cases ans.result_code.isSome with
      | true => exact if_neg hrir
      | false => exact if_neg hidr

/-- Counting what is taken from the events of either of two kinds. -/
theorem countP_filterMap_add {f g h : Event → Option Op}
    (he : ∀ e, f e = g e ∧ h e = none ∨ f e = h e ∧ g e = none) (p : Op → Bool) (log : List Event) :
    (log.filterMap f).countP p = (log.filterMap g).countP p + (log.filterMap h).countP p := by
  have hcons : ∀ (k : Event → Option Op) (e : Event) (log : List Event),
      ((e :: log).filterMap k).countP p =
        (k e).elim 0 (fun op => if p op then 1 else 0) + (log.filterMap k).countP p := by
    intro k e log
    rw [List.filterMap_cons]
    cases k e with
    | none => simp
    | some op => simp [List.countP_cons, Nat.add_comm]
  induction log with
  | nil => rfl
  | cons e log ih =>
    rw [hcons f, hcons g, hcons h, ih]
    rcases he e with ⟨hf, hn⟩ | ⟨hf, hn⟩
    · rw [hf, hn, Option.elim_none]
      omega
    · rw [hf, hn, Option.elim_none]
      omega

/-- A misfiled result is missing for RIR. -/
theorem countP_own_rir (p : Op → Bool) (log : List Event) :
    (own .rir log).countP p = (given .rir log).countP p + (misfiled log).countP p := by
  refine countP_filterMap_add (fun e => ?_) p log
  cases e with
  | attemp | result | ida => exact Or.inl ⟨rfl, rfl⟩
  | ria ans =>
    cases hsome : ans.result_code.isSome with
    | true =>
      refine Or.inl ⟨?_, ?_⟩
      · rw [givenOp, hsome]; rfl
      · rw [misfiledOp, hsome]; rfl
    | false =>
      refine Or.inr ⟨?_, ?_⟩
      · rw [misfiledOp, hsome]; rfl
      · rw [givenOp, hsome]; rfl

/-- A misfiled result is one too many for IDR. -/
theorem countP_given_idr (p : Op → Bool) (log : List Event) :
    (given .idr log).countP p = (own .idr log).countP p + (misfiled log).countP p := by
  refine countP_filterMap_add (fun e => ?_) p log
  cases e with
  | attemp | result | ida => exact Or.inl ⟨rfl, rfl⟩
  | ria ans =>
    cases hsome : ans.result_code.isSome with
    | true =>
      refine Or.inl ⟨?_, ?_⟩
      · rw [givenOp, hsome]; rfl
      · rw [misfiledOp, hsome]; rfl
    | false =>
      refine Or.inr ⟨?_, rfl⟩
      rw [givenOp, hsome, misfiledOp, hsome]
      rfl

theorem isStat_misfiled : ∀ op ∈ misfiled log, op.isStat = true := by
  intro op hop
  obtain ⟨e, _, he⟩ := List.mem_filterMap.mp hop
  cases e with
  | attemp | result | ida => exact absurd he nofun
  | ria ans =>
    rw [misfiledOp] at he
    split at he
    case isTrue => exact absurd he nofun
    case isFalse =>
      obtain rfl := Option.some.inj he
      rfl

/-- Every way of counting that takes as many from the one list as from the other leaves no misfiled
result. -/
theorem misfiled_eq_nil (hc : c = .rir ∨ c = .idr)
    (hhits : ∀ k ∈ c.codes, (given c log).count (.stat k) = (own c log).count (.stat k))
    (hunknown : (given c log).countP (Op.unknown c.codes) = (own c log).countP (Op.unknown c.codes)) :
    misfiled log = [] := by
  have hzero : ∀ p : Op → Bool, (given c log).countP p = (own c log).countP p →
      (misfiled log).countP p = 0 := by
    intro p hp
    rcases hc with rfl | rfl
    · have hrir := countP_own_rir p log
      omega
    · have hidr := countP_given_idr p log
      omega
  refine List.eq_nil_iff_forall_not_mem.mpr fun op hop => ?_
  have hstat := isStat_misfiled op hop
  cases op with
  | attempt a => exact absurd hstat Bool.false_ne_true
  | stat k =>
    by_cases hk : k ∈ c.codes
    · have hcount := hzero (· == .stat k) (hhits k hk)
      exact absurd (List.countP_eq_zero.mp hcount _ hop) (by simp)
    · have hcount := hzero _ hunknown
      exact absurd (List.countP_eq_zero.mp hcount _ hop) (by simp [Op.unknown, hk])

theorem length_given (c : Command) (log : List Event) : (given c log).length ≤ log.length :=
  List.length_filterMap_le _ _

/-- **A row shows the counters of its command** exactly if it is not the one of SRR and, for RIR and
IDR, no result was misfiled. -/
theorem shows_iff (hlen : log.length < 2 ^ 32) : Shows now log c ↔ c ≠ .srr ∧ Filed log c := by
  by_cases hsrr : c = .srr
  · subst hsrr
    exact ⟨fun h => absurd h srr_row, fun h => absurd rfl h.1⟩
  · have hsource : c.source = c := by cases c <;> first | rfl | exact absurd rfl hsrr
    have hgiven := Nat.lt_of_le_of_lt (length_given c log) hlen
    rw [shows_iff_line, hsource, (collector_run c log).cells_eq hgiven]
    constructor
    · intro h
      obtain ⟨hhits, hunknown⟩ := shown_injective h
      exact ⟨hsrr, fun hc => misfiled_eq_nil hc hhits hunknown⟩
    · rintro ⟨_, hfiled⟩
      rw [given_eq_own hfiled]

/-- **The counters of a command add up** exactly if, for RIR and IDR, no result was misfiled. -/
theorem adds_iff (hlen : log.length < 2 ^ 32) : Adds log c ↔ Filed log c := by
  have hgiven := Nat.lt_of_le_of_lt (length_given c log) hlen
  have hcounted := collector_run c log
  have hsum : (c.codes.map fun k => (((StatsHss.run log).collector c).getStatValue k).toNat).sum +
      ((StatsHss.run log).collector c).m_unknownErrors.toNat = (given c log).countP Op.isStat := by
    rw [← sum_counts (codes_nodup c), hcounted.toNat_unknown hgiven]
    refine congrArg (· + _) (congrArg List.sum (List.map_congr_left fun k hk => ?_))
    exact hcounted.toNat_hits hgiven hk
  rw [Adds, hsum]
  constructor
  · intro h hc
    have hzero : (misfiled log).countP Op.isStat = 0 := by
      rcases hc with rfl | rfl
      · have hrir := countP_own_rir Op.isStat log
        omega
      · have hidr := countP_given_idr Op.isStat log
        omega
    refine List.eq_nil_iff_forall_not_mem.mpr fun op hop => ?_
    exact List.countP_eq_zero.mp hzero op hop (isStat_misfiled op hop)
  · intro h
    rw [given_eq_own h]

/-- **The statistics of a run**: the rows never show the counters of all commands.  They are always
aligned, and as long as no counter can have wrapped around, the row of every command but SRR and all
sums are right if and only if no RIA came without a Result-Code. -/
theorem serialized_stats (now : String) (log : List Event) :
    ¬ ((∀ c, Shows now log c) ∧ (∀ c, Adds log c) ∧ Aligned now log) ∧
      Aligned now log ∧
      (log.length < 2 ^ 32 → ∀ c,
        (Shows now log c ↔ c ≠ .srr ∧ Filed log c) ∧ (Adds log c ↔ Filed log c)) :=
  ⟨fun h => srr_row (h.1 .srr), aligned now log, fun hlen _ => ⟨shows_iff hlen, adds_iff hlen⟩⟩

/-- One Send-Routing-Info was answered with success, and one RIA has an Experimental-Result. -/
def sampleLog : List Event :=
  [.attemp .srr .received, .result .srr (0, 2001), .ria ⟨none, some 10415, some 5001⟩]

theorem srr_row_sample :
    ¬ ∀ (now : String) (log : List Event),
      (∀ c, Shows now log c) ∧ (∀ c, Adds log c) ∧ Aligned now log := by
  intro h
  have hrow := (h "0" sampleLog).1 .srr
  have htext : ((StatsHss.run sampleLog).rows "0")[7]? = some "0,S6C,SRR,0,0,0,0,0,0,0,0,,," := by
    decide
  have hown : "0" ++ Command.header .srr ++ line (shown srrCodes (own .srr sampleLog) 6) =
      "0,S6C,SRR,0,0,1,0,1,0,0,0,0,," := by
    decide
  have heq := htext.symm.trans (hrow.trans (congrArg some hown))
  exact absurd heq (by decide)

end OpenairHss.Stats
