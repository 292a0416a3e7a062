import OpenairHss.Stats.Hss
import Mathlib.Algebra.BigOperators.Group.List.Basic
import Mathlib.Data.List.Induction

/-!
# What the rows of the statistics show

A collector counts what it is given (`counted_run`), and `serialize` writes its counters as a line of
cells (`serialize_eq`).  So a row shows what the collector behind it was given: the row of SRR is
written from the collector of RIR, and an RIA without a Result-Code is given to the collector of IDR
(`serialized_stats`).
-/

namespace OpenairHss.Stats

open Csv

/-- What a collector is given. -/
inductive Op
  | attempt (attempType : StatAttempType)
  | stat (code : Code)
deriving DecidableEq

/-- A result with a code that is not tracked. -/
def Op.unknown (codes : List Code) : Op → Bool
  | .attempt _ => false
  | .stat k => k ∉ codes

def Op.isStat : Op → Bool
  | .attempt _ => false
  | .stat _ => true

def StatCollector.apply (s : StatCollector) : Op → StatCollector
  | .attempt a => s.addAttempt a
  | .stat k => s.addStat k

/-! ### One collector -/

/-- The counters of `s` are those of `ops`. -/
structure Counted (codes : List Code) (ops : List Op) (s : StatCollector) : Prop where
  sent : s.m_attemps_sent = UInt32.ofNat (ops.count (.attempt .sent))
  sentKo : s.m_sent_ko = UInt32.ofNat (ops.count (.attempt .sentKo))
  received : s.m_attemps_recv = UInt32.ofNat (ops.count (.attempt .received))
  receivedKo : s.m_recv_ko = UInt32.ofNat (ops.count (.attempt .receivedKo))
  tracked : s.m_trackedCodes = codes
  hits : ∀ k, s.m_cumulativeCodes k =
    if k ∈ codes then some (UInt32.ofNat (ops.count (.stat k))) else none
  unknown : s.m_unknownErrors = UInt32.ofNat (ops.countP (Op.unknown codes))

variable {codes : List Code} {ops : List Op} {s : StatCollector}

theorem counted_tracking (codes : List Code) : Counted codes [] (StatCollector.tracking codes) := by
  induction codes using List.reverseRecOn with
  | nil => exact ⟨rfl, rfl, rfl, rfl, rfl, fun k => by simp [StatCollector.tracking, StatCollector.new], rfl⟩
  | append_singleton codes aKey ih =>
    have hstep : StatCollector.tracking (codes ++ [aKey]) =
        (StatCollector.tracking codes).registerCode aKey := by
      rw [StatCollector.tracking, List.foldl_append]
      rfl
    rw [hstep]
    refine ⟨ih.sent, ih.sentKo, ih.received, ih.receivedKo, ?_, fun k => ?_, ih.unknown⟩
    · show (StatCollector.tracking codes).m_trackedCodes ++ [aKey] = _
      rw [ih.tracked]
    · show Function.update (StatCollector.tracking codes).m_cumulativeCodes aKey (some 0) k = _
      by_cases hk : k = aKey
      · subst hk
        rw [Function.update_self, if_pos (List.mem_append_right codes List.mem_cons_self)]
        rfl
      · have hmem : k ∈ codes ++ [aKey] ↔ k ∈ codes := by simp [hk]
        rw [Function.update_of_ne hk, ih.hits k]
        simp only [hmem]

theorem count_snoc (ops : List Op) (op op' : Op) :
    UInt32.ofNat ((ops ++ [op]).count op') =
      if op = op' then UInt32.ofNat (ops.count op') + 1 else UInt32.ofNat (ops.count op') := by
  rw [List.count_append, List.count_singleton]
  by_cases h : op = op'
  · simp [h]
  · simp [h]

theorem countP_snoc (ops : List Op) (op : Op) :
    UInt32.ofNat ((ops ++ [op]).countP (Op.unknown codes)) =
      if Op.unknown codes op then UInt32.ofNat (ops.countP (Op.unknown codes)) + 1
      else UInt32.ofNat (ops.countP (Op.unknown codes)) := by
  rw [List.countP_append, List.countP_singleton]
  cases Op.unknown codes op <;> simp

theorem Counted.addAttempt (h : Counted codes ops s) (a : StatAttempType) :
    Counted codes (ops ++ [Op.attempt a]) (s.addAttempt a) := by
  have hhits : ∀ k, s.m_cumulativeCodes k =
      if k ∈ codes then some (UInt32.ofNat ((ops ++ [Op.attempt a]).count (Op.stat k))) else none := by
    intro k
    rw [count_snoc, if_neg (c := Op.attempt a = Op.stat k) (by simp)]
    exact h.hits k
  have hunknown : s.m_unknownErrors =
      UInt32.ofNat ((ops ++ [Op.attempt a]).countP (Op.unknown codes)) := by
    rw [countP_snoc]
    exact h.unknown
  cases a with
  | sent | sentKo | received | receivedKo =>
    refine ⟨?_, ?_, ?_, ?_, h.tracked, hhits, hunknown⟩
    · rw [count_snoc, ← h.sent]; rfl
    · rw [count_snoc, ← h.sentKo]; rfl
    · rw [count_snoc, ← h.received]; rfl
    · rw [count_snoc, ← h.receivedKo]; rfl

/-- A result leaves the attempts as they are. -/
theorem Counted.stat (h : Counted codes ops s) (code : Code)
    {hits : Code → Option UInt32} {unknown : UInt32}
    (hhits : ∀ k, hits k =
      if k ∈ codes then some (UInt32.ofNat ((ops ++ [Op.stat code]).count (Op.stat k))) else none)
    (hunknown : unknown = UInt32.ofNat ((ops ++ [Op.stat code]).countP (Op.unknown codes))) :
    Counted codes (ops ++ [Op.stat code])
      { s with m_cumulativeCodes := hits, m_unknownErrors := unknown } := by
  refine ⟨?_, ?_, ?_, ?_, h.tracked, hhits, hunknown⟩
  · rw [count_snoc, ← h.sent]; rfl
  · rw [count_snoc, ← h.sentKo]; rfl
  · rw [count_snoc, ← h.received]; rfl
  · rw [count_snoc, ← h.receivedKo]; rfl

theorem Counted.addStat (h : Counted codes ops s) (code : Code) :
    Counted codes (ops ++ [Op.stat code]) (s.addStat code) := by
  rw [StatCollector.addStat, h.hits code]
  by_cases hmem : code ∈ codes
  · rw [if_pos hmem]
    refine h.stat code (fun k => ?_) ?_
    · rw [count_snoc]
      by_cases hk : k = code
      · subst hk
        rw [Function.update_self, if_pos hmem, if_pos rfl]
      · rw [Function.update_of_ne hk, h.hits k, if_neg fun he => hk (Op.stat.inj he).symm]
    · rw [countP_snoc, h.unknown]
      simp [Op.unknown, hmem]
  · rw [if_neg hmem]
    refine h.stat code (fun k => ?_) ?_
    · rw [count_snoc]
      by_cases hk : k = code
      · subst hk
        rw [if_neg hmem]
        exact (h.hits k).trans (if_neg hmem)
      · rw [if_neg fun he => hk (Op.stat.inj he).symm]
        exact h.hits k
    · rw [countP_snoc, h.unknown]
      simp [Op.unknown, hmem]

theorem Counted.apply (h : Counted codes ops s) (op : Op) :
    Counted codes (ops ++ [op]) (s.apply op) := by
  cases op with
  | attempt a => exact h.addAttempt a
  | stat code => exact h.addStat code

/-- **A collector counts what it is given.** -/
theorem counted_run (codes : List Code) (ops : List Op) :
    Counted codes ops (ops.foldl StatCollector.apply (StatCollector.tracking codes)) := by
  induction ops using List.reverseRecOn with
  | nil => exact counted_tracking codes
  | append_singleton ops op ih =>
    rw [List.foldl_append]
    exact ih.apply op

/-! ### The text of a collector -/

/-- The cells of a collector. -/
def StatCollector.cells (s : StatCollector) (codeColumns : Nat) : List String :=
  [toString s.m_attemps_sent.toNat, toString s.m_sent_ko.toNat, toString s.m_attemps_recv.toNat,
      toString s.m_recv_ko.toNat] ++
    s.m_trackedCodes.map (fun k => toString (s.getStatValue k).toNat) ++
    toString s.m_unknownErrors.toNat ::
      List.replicate (codeColumns - s.m_trackedCodes.length) ""

theorem toList_foldl (xs : List Code) (f : Code → String) (res : String) :
    (xs.foldl (fun res x => res ++ (f x ++ ",")) res).toList =
      res.toList ++ (xs.map fun x => (f x).toList).flatMap fun l => l ++ [','] := by
  induction xs generalizing res with
  | nil => exact (List.append_nil _).symm
  | cons x xs ih =>
    rw [List.foldl_cons, ih, String.toList_append, String.toList_append, List.map_cons,
      List.flatMap_cons, List.append_assoc]
    rfl

theorem toList_commas (n : Nat) (res : String) :
    ((List.range n).foldl (fun res _ => res ++ ",") res).toList =
      res.toList ++ List.replicate n ',' := by
  induction n with
  | zero => exact (List.append_nil _).symm
  | succ n ih =>
    rw [List.range_succ, List.foldl_append, List.foldl_cons, List.foldl_nil, String.toList_append, ih,
      List.replicate_succ', List.append_assoc]
    rfl

theorem serialize_eq (s : StatCollector) (n : Nat) : s.serialize n = line (s.cells n) := by
  refine String.toList_injective ?_
  rw [toList_line, StatCollector.cells, List.map_append, List.map_cons, intercalate_terminated,
    List.map_replicate, show "".toList = [] from rfl, intercalate_padded]
  unfold StatCollector.serialize
  rw [toList_commas, String.toList_append, toList_foldl]
  simp [List.append_assoc, Function.comp_def]

theorem plain_cells (s : StatCollector) (n : Nat) : ∀ x ∈ s.cells n, Plain x := by
  intro x hx
  simp only [StatCollector.cells, List.mem_append, List.mem_cons, List.mem_map, List.not_mem_nil,
    or_false, List.mem_replicate] at hx
  rcases hx with ((rfl | rfl | rfl | rfl) | ⟨k, -, rfl⟩) | rfl | ⟨-, rfl⟩
  all_goals first | exact plain_toString _ | exact plain_empty

theorem cells_ne_nil (s : StatCollector) (n : Nat) : s.cells n ≠ [] := by
  simp [StatCollector.cells]

theorem length_cells (s : StatCollector) {n : Nat} (h : s.m_trackedCodes.length ≤ n) :
    (s.cells n).length = n + 5 := by
  simp [StatCollector.cells]
  omega

/-- The cells that show what a collector was given. -/
def shown (codes : List Code) (ops : List Op) (columns : Nat) : List String :=
  [toString (ops.count (.attempt .sent)), toString (ops.count (.attempt .sentKo)),
      toString (ops.count (.attempt .received)), toString (ops.count (.attempt .receivedKo))] ++
    codes.map (fun k => toString (ops.count (.stat k))) ++
    toString (ops.countP (Op.unknown codes)) :: List.replicate (columns - codes.length) ""

theorem plain_shown (codes : List Code) (ops : List Op) (n : Nat) :
    ∀ x ∈ shown codes ops n, Plain x := by
  intro x hx
  simp only [shown, List.mem_append, List.mem_cons, List.mem_map, List.not_mem_nil,
    or_false, List.mem_replicate] at hx
  rcases hx with ((rfl | rfl | rfl | rfl) | ⟨k, -, rfl⟩) | rfl | ⟨-, rfl⟩
  all_goals first | exact plain_toString _ | exact plain_empty

theorem shown_ne_nil (codes : List Code) (ops : List Op) (n : Nat) : shown codes ops n ≠ [] := by
  simp [shown]

/-- Below `2 ^ 32` operations no counter has wrapped around. -/
theorem toNat_count (hlen : ops.length < 2 ^ 32) (op : Op) :
    (UInt32.ofNat (ops.count op)).toNat = ops.count op :=
  UInt32.toNat_ofNat_of_lt (Nat.lt_of_le_of_lt List.count_le_length hlen)

theorem Counted.toNat_unknown (h : Counted codes ops s) (hlen : ops.length < 2 ^ 32) :
    s.m_unknownErrors.toNat = ops.countP (Op.unknown codes) := by
  rw [h.unknown]
  exact UInt32.toNat_ofNat_of_lt (Nat.lt_of_le_of_lt List.countP_le_length hlen)

theorem Counted.toNat_hits (h : Counted codes ops s) (hlen : ops.length < 2 ^ 32) {k : Code}
    (hk : k ∈ codes) : (s.getStatValue k).toNat = ops.count (.stat k) := by
  rw [StatCollector.getStatValue, h.hits k, if_pos hk, Option.getD_some, toNat_count hlen]

theorem Counted.cells_eq (h : Counted codes ops s) (hlen : ops.length < 2 ^ 32) (n : Nat) :
    s.cells n = shown codes ops n := by
  have hhits : codes.map (fun k => toString (s.getStatValue k).toNat) =
      codes.map fun k => toString (ops.count (.stat k)) :=
    List.map_congr_left fun k hk => congrArg toString (h.toNat_hits hlen hk)
  rw [StatCollector.cells, shown, h.tracked, h.toNat_unknown hlen, hhits, h.sent, h.sentKo,
    h.received, h.receivedKo]
  simp only [toNat_count hlen]

/-- What `shown` shows of two lists is the same if all of their counts are. -/
theorem shown_injective {ops' : List Op} {n : Nat} (h : shown codes ops n = shown codes ops' n) :
    (∀ k ∈ codes, ops.count (.stat k) = ops'.count (.stat k)) ∧
      ops.countP (Op.unknown codes) = ops'.countP (Op.unknown codes) := by
  obtain ⟨hhead, htail⟩ := List.append_inj h (by simp)
  obtain ⟨_, hcodes⟩ := List.append_inj hhead rfl
  refine ⟨fun k hk => ?_, toString_injective (List.cons.inj htail).1⟩
  exact toString_injective (List.map_inj_left.mp hcodes k hk)

theorem sum_indicator (codes : List Code) (k : Code) (hnodup : codes.Nodup) :
    (codes.map fun k' => if k = k' then 1 else 0).sum = if k ∈ codes then 1 else 0 := by
  induction codes with
  | nil => rfl
  | cons c codes ih =>
    obtain ⟨hc, hcodes⟩ := List.nodup_cons.mp hnodup
    rw [List.map_cons, List.sum_cons, ih hcodes]
    by_cases hk : k = c
    · subst hk
      simp [hc]
    · simp [hk]

/-- Every result is counted once. -/
theorem sum_counts (hnodup : codes.Nodup) (ops : List Op) :
    (codes.map fun k => ops.count (.stat k)).sum + ops.countP (Op.unknown codes) =
      ops.countP Op.isStat := by
  induction ops with
  | nil => simp
  | cons op ops ih =>
    cases op with
    | attempt a =>
      have hunknown : (Op.attempt a :: ops).countP (Op.unknown codes) =
          ops.countP (Op.unknown codes) := List.countP_cons_of_neg Bool.false_ne_true
      have hstat : (Op.attempt a :: ops).countP Op.isStat = ops.countP Op.isStat :=
        List.countP_cons_of_neg Bool.false_ne_true
      rw [hunknown, hstat, ← ih]
      simp
    | stat k =>
      have hsum : (codes.map fun k' => (Op.stat k :: ops).count (.stat k')).sum =
          (codes.map fun k' => ops.count (.stat k')).sum + if k ∈ codes then 1 else 0 := by
        rw [← sum_indicator codes k hnodup, ← List.sum_map_add]
        refine congrArg List.sum (List.map_congr_left fun k' _ => ?_)
        rw [List.count_cons]
        simp
      have hstat : (Op.stat k :: ops).countP Op.isStat = ops.countP Op.isStat + 1 :=
        List.countP_cons_of_pos rfl
      rw [hstat, hsum, ← ih, List.countP_cons]
      by_cases hk : k ∈ codes
      · simp [hk, Op.unknown]
        omega
      · simp [hk, Op.unknown]
        omega

end OpenairHss.Stats
