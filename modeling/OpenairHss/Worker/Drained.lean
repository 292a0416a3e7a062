import OpenairHss.Worker.Shutdown

/-!
# The work before a shutdown

The messages of `addWork` and those of `waitForShutdown` go through one queue, and a worker that has
taken a `WORKER_SHUTDOWN` message takes nothing more.  So the event that `waitForShutdown` waits for
comes after all the work in front of the last of these messages, and what is put behind it stays in the
queue.

* `Ledger.Inv`: where each message is.
* `drained`: the messages that were processed when the event is set.
-/

namespace OpenairHss.Worker

open Steps Threads

/-- The workers, and what has become of the messages, which are named by their places in `added`. -/
structure Ledger where
  mgr : WorkerManager
  /-- All messages, in the order they were put into the queue. -/
  added : List WorkerMessage
  taken : Nat
  /-- The message that a worker is processing. -/
  held : Nat → Option Nat
  processed : List Nat

namespace Ledger

def init (N : Nat) : Ledger := ⟨.init N, [], 0, fun _ => none, []⟩

/-- The worker takes the next message; `WORKER_SHUTDOWN` is not processed. -/
def take (s : Ledger) (j : Nat) : Ledger :=
  let work := s.mgr.m_queue.head?.any fun msg => !isShutdown msg
  { s with taken := s.taken + 1, held := Function.update s.held j (if work then some s.taken else none) }

def finish (s : Ledger) (j : Nat) : Ledger :=
  { s with held := Function.update s.held j none, processed := s.processed ++ (s.held j).toList }

def exec (s : Ledger) (a : Event) : Option Ledger :=
  (s.mgr.exec a).map fun mgr => match a with
    | .push => { s with mgr := mgr, added := s.added ++ [⟨WORKER_SHUTDOWN⟩] }
    | .addWork msg => { s with mgr := mgr, added := s.added ++ [msg] }
    | .getWork j => { s.take j with mgr := mgr }
    | .processed j => { s.finish j with mgr := mgr }
    | _ => { s with mgr := mgr }

abbrev Runs (s t : Ledger) : Prop := Reaches (fun s a t => s.exec a = some t) (fun _ _ => True) s t

def Work (s : Ledger) (i : Nat) : Prop := ∃ msg, s.added[i]? = some msg ∧ isShutdown msg = false

/-! ### The invariant -/

/-- A message that was taken is processed, or in the hands of one worker; and it was taken while some
worker had no `WORKER_SHUTDOWN` message yet. -/
structure Inv (N : Nat) (s : Ledger) : Prop where
  mgr : s.mgr.Inv N
  event : s.mgr.m_shutdown = true → s.mgr.m_numWorkers ≤ 0
  bound : s.taken ≤ s.added.length
  queue : s.mgr.m_queue = s.added.drop s.taken
  shutdowns : (s.added.take s.taken).countP isShutdown = tally WorkerPc.taken s.mgr.workers
  needed : ∀ k < s.taken, (s.added.take k).countP isShutdown < N
  busy : ∀ j i, s.held j = some i → ∃ msg, s.mgr.workers[j]? = some (.process msg)
  once : ∀ j k i, s.held j = some i → s.held k = some i → j = k
  fresh : ∀ j i, s.held j = some i → i ∉ s.processed
  nodup : s.processed.Nodup
  account : ∀ i, i ∈ s.processed ∨ (∃ j, s.held j = some i) ↔ i < s.taken ∧ s.Work i

variable {N : Nat} {s t : Ledger}

theorem inv_init (N : Nat) : (init N).Inv N where
  mgr := WorkerManager.inv_init
  event h := absurd h (by simp [init, WorkerManager.init])
  bound := Nat.le_refl 0
  queue := rfl
  shutdowns := by
    show 0 = tally WorkerPc.taken (List.replicate N .getWork)
    rw [tally_replicate]
    rfl
  needed k hk := absurd hk (Nat.not_lt_zero k)
  busy j i h := absurd h (by simp [init])
  once j k i h := absurd h (by simp [init])
  fresh j i h := absurd h (by simp [init])
  nodup := List.nodup_nil
  account i := by simp [init]

theorem Inv.work_lt (h : s.Inv N) {i : Nat} (hi : i ∈ s.processed ∨ ∃ j, s.held j = some i) :
    i < s.taken := ((h.account i).mp hi).1

/-- A step that moves no message. -/
theorem Inv.same (h : s.Inv N) {mgr : WorkerManager} (hmgr : mgr.Inv N)
    (hevent : mgr.m_shutdown = true → mgr.m_numWorkers ≤ 0) (hqueue : mgr.m_queue = s.mgr.m_queue)
    (htally : tally WorkerPc.taken mgr.workers = tally WorkerPc.taken s.mgr.workers)
    (hbusy : ∀ (j : Nat) msg, s.mgr.workers[j]? = some (.process msg) →
      mgr.workers[j]? = some (.process msg)) : Inv N { s with mgr := mgr } :=
  { h with
    mgr := hmgr
    event := hevent
    queue := hqueue.trans h.queue
    shutdowns := h.shutdowns.trans htally.symm
    busy := by
      intro j i hi
      obtain ⟨msg, hmsg⟩ := h.busy j i hi
      exact ⟨msg, hbusy j msg hmsg⟩ }

/-- A message is put into the queue. -/
theorem Inv.add (h : s.Inv N) {mgr : WorkerManager} {msg : WorkerMessage} (hmgr : mgr.Inv N)
    (hevent : mgr.m_shutdown = true → mgr.m_numWorkers ≤ 0)
    (hqueue : mgr.m_queue = s.mgr.m_queue ++ [msg]) (hworkers : mgr.workers = s.mgr.workers) :
    Inv N { s with mgr := mgr, added := s.added ++ [msg] } where
  mgr := hmgr
  event := hevent
  bound := by
    rw [List.length_append]
    exact Nat.le_add_right_of_le h.bound
  queue := by
    rw [hqueue, h.queue, List.drop_append_of_le_length h.bound]
  shutdowns := by
    rw [List.take_append_of_le_length h.bound, hworkers]
    exact h.shutdowns
  needed k hk := by
    rw [List.take_append_of_le_length (Nat.le_trans (Nat.le_of_lt hk) h.bound)]
    exact h.needed k hk
  busy := by
    rw [hworkers]
    exact h.busy
  once := h.once
  fresh := h.fresh
  nodup := h.nodup
  account i := by
    rw [h.account i]
    refine and_congr_right fun hi => ?_
    rw [Work, Work, List.getElem?_append_left (Nat.lt_of_lt_of_le hi h.bound)]

/-- A worker at `getWork` has nothing in hand. -/
theorem Inv.held_eq_none (h : s.Inv N) {j : Nat} (hj : s.mgr.workers[j]? = some .getWork) :
    s.held j = none := by
  cases hheld : s.held j with
  | none => rfl
  | some i =>
    obtain ⟨msg, hmsg⟩ := h.busy j i hheld
    rw [hj] at hmsg
    cases hmsg

/-- The front of the queue goes to worker `j`. -/
theorem Inv.take (h : s.Inv N) {mgr : WorkerManager} {j : Nat} {msg : WorkerMessage}
    {rest : List WorkerMessage} (hmgr : mgr.Inv N)
    (hevent : mgr.m_shutdown = true → mgr.m_numWorkers ≤ 0)
    (hj : s.mgr.workers[j]? = some .getWork) (hfront : s.mgr.m_queue = msg :: rest)
    (hqueue : mgr.m_queue = rest) (hworkers : mgr.workers = s.mgr.workers.set j
      (if msg.m_id = WORKER_SHUTDOWN then .threadShutdown else .process msg)) :
    Inv N { s.take j with mgr := mgr } := by
  have hdrop : s.added.drop s.taken = msg :: rest := h.queue.symm.trans hfront
  have hmsg : s.added[s.taken]? = some msg := by
    rw [← List.head?_drop, hdrop]
    rfl
  have hlt : s.taken < s.added.length := (List.getElem?_eq_some_iff.mp hmsg).1
  have hnone := h.held_eq_none hj
  have hheld : (s.take j).held =
      Function.update s.held j (if isShutdown msg then none else some s.taken) := by
    show Function.update s.held j _ = _
    rw [hfront]
    cases hmsg : isShutdown msg <;> simp [hmsg]
  have hother : ∀ k, k ≠ j → (s.take j).held k = s.held k := fun k hk => by
    rw [hheld, Function.update_of_ne hk]
  have hself : ∀ i, (s.take j).held j = some i ↔ isShutdown msg = false ∧ s.taken = i := by
    intro i
    rw [hheld, Function.update_self]
    cases isShutdown msg <;> simp
  have hnot : ∀ i, i ∈ s.processed ∨ (∃ k, s.held k = some i) → s.taken ≠ i := fun i hi =>
    (Nat.ne_of_lt (h.work_lt hi)).symm
  refine {
    mgr := hmgr, event := hevent, bound := hlt, queue := ?_, shutdowns := ?_, needed := ?_
    busy := ?_, once := ?_, fresh := ?_, nodup := h.nodup, account := ?_ }
  · show mgr.m_queue = s.added.drop (s.taken + 1)
    rw [hqueue, ← List.tail_drop, hdrop]
    rfl
  · show (s.added.take (s.taken + 1)).countP isShutdown = tally WorkerPc.taken mgr.workers
    rw [List.take_add_one, hmsg, List.countP_append, h.shutdowns, hworkers]
    have htally := tally_set (w := WorkerPc.taken)
      (q := if msg.m_id = WORKER_SHUTDOWN then .threadShutdown else .process msg) hj
    by_cases hid : msg.m_id = WORKER_SHUTDOWN
    · simp only [hid, if_true, WorkerPc.taken] at htally ⊢
      simp [isShutdown, hid]
      omega
    · simp only [hid, if_false, WorkerPc.taken] at htally ⊢
      simp [isShutdown, hid]
      omega
  · intro k hk
    rcases Nat.lt_succ_iff_lt_or_eq.mp hk with hk | rfl
    · exact h.needed k hk
    · -- the worker itself has no `WORKER_SHUTDOWN` message yet
      show (s.added.take s.taken).countP isShutdown < N
      rw [h.shutdowns, ← h.mgr.workers]
      exact tally_lt_length (fun p => by cases p <;> simp [WorkerPc.taken])
        (List.mem_of_getElem? hj) rfl
  · intro k i hk
    show ∃ msg, mgr.workers[k]? = some (.process msg)
    rw [hworkers]
    by_cases hkj : k = j
    · subst hkj
      obtain ⟨hwork, -⟩ := (hself i).mp hk
      have hid : msg.m_id ≠ WORKER_SHUTDOWN := of_decide_eq_false hwork
      rw [if_neg hid]
      exact ⟨msg, getElem?_set_self hj⟩
    · rw [List.getElem?_set_ne (Ne.symm hkj)]
      exact h.busy k i ((hother k hkj).symm.trans hk)
  · intro k l i hk hl
    by_cases hkj : k = j
    · by_cases hlj : l = j
      · rw [hkj, hlj]
      · rw [hkj] at hk
        rw [hother l hlj] at hl
        exact absurd ((hself i).mp hk).2 (hnot i (Or.inr ⟨l, hl⟩))
    · rw [hother k hkj] at hk
      by_cases hlj : l = j
      · rw [hlj] at hl
        exact absurd ((hself i).mp hl).2 (hnot i (Or.inr ⟨k, hk⟩))
      · rw [hother l hlj] at hl
        exact h.once k l i hk hl
  · intro k i hk hi
    by_cases hkj : k = j
    · rw [hkj] at hk
      exact hnot i (Or.inl hi) ((hself i).mp hk).2
    · rw [hother k hkj] at hk
      exact h.fresh k i hk hi
  · intro i
    have hwork : s.Work s.taken ↔ isShutdown msg = false := by
      rw [Work, hmsg]
      simp
    have hheld' : (∃ k, (s.take j).held k = some i) ↔
        (∃ k, s.held k = some i) ∨ (isShutdown msg = false ∧ s.taken = i) := by
      constructor
      · rintro ⟨k, hk⟩
        by_cases hkj : k = j
        · rw [hkj] at hk
          exact Or.inr ((hself i).mp hk)
        · exact Or.inl ⟨k, (hother k hkj).symm.trans hk⟩
      · rintro (⟨k, hk⟩ | hi)
        · refine ⟨k, (hother k ?_).trans hk⟩
          rintro rfl
          rw [hnone] at hk
          cases hk
        · exact ⟨j, (hself i).mpr hi⟩
    show (i ∈ s.processed ∨ ∃ k, (s.take j).held k = some i) ↔ i < s.taken + 1 ∧ s.Work i
    rw [hheld', ← or_assoc, h.account i]
    constructor
    · rintro (⟨hi, hw⟩ | ⟨hw, rfl⟩)
      · exact ⟨Nat.lt_succ_of_lt hi, hw⟩
      · exact ⟨Nat.lt_succ_self _, hwork.mpr hw⟩
    · rintro ⟨hi, hw⟩
      rcases Nat.lt_succ_iff_lt_or_eq.mp hi with hi | rfl
      · exact Or.inl ⟨hi, hw⟩
      · exact Or.inr ⟨hwork.mp hw, rfl⟩

/-- Worker `j` has processed what it has in hand. -/
theorem Inv.finish (h : s.Inv N) {mgr : WorkerManager} {j : Nat} {msg : WorkerMessage}
    (hmgr : mgr.Inv N) (hevent : mgr.m_shutdown = true → mgr.m_numWorkers ≤ 0)
    (hj : s.mgr.workers[j]? = some (.process msg)) (hqueue : mgr.m_queue = s.mgr.m_queue)
    (hworkers : mgr.workers = s.mgr.workers.set j .getWork) :
    Inv N { s.finish j with mgr := mgr } := by
  have hother : ∀ k, k ≠ j → (s.finish j).held k = s.held k := fun k hk =>
    Function.update_of_ne hk _ _
  have hself : (s.finish j).held j = none := Function.update_self _ _ _
  have hkept : ∀ k i, (s.finish j).held k = some i → k ≠ j ∧ s.held k = some i := by
    intro k i hk
    by_cases hkj : k = j
    · rw [hkj, hself] at hk
      cases hk
    · exact ⟨hkj, (hother k hkj).symm.trans hk⟩
  have hmem : ∀ i, i ∈ (s.finish j).processed ↔ i ∈ s.processed ∨ s.held j = some i := by
    intro i
    show i ∈ s.processed ++ (s.held j).toList ↔ _
    rw [List.mem_append, Option.mem_toList]
  have hsame : tally WorkerPc.taken mgr.workers = tally WorkerPc.taken s.mgr.workers := by
    have htally := tally_set (w := WorkerPc.taken) (q := .getWork) hj
    rw [hworkers]
    exact htally
  refine {
    mgr := hmgr, event := hevent, bound := h.bound, queue := hqueue.trans h.queue
    shutdowns := h.shutdowns.trans hsame.symm, needed := h.needed, busy := ?_, once := ?_
    fresh := ?_, nodup := ?_, account := ?_ }
  · intro k i hk
    obtain ⟨hkj, hk⟩ := hkept k i hk
    show ∃ msg, mgr.workers[k]? = some (.process msg)
    rw [hworkers, List.getElem?_set_ne (Ne.symm hkj)]
    exact h.busy k i hk
  · intro k l i hk hl
    exact h.once k l i (hkept k i hk).2 (hkept l i hl).2
  · intro k i hk hi
    obtain ⟨hkj, hk⟩ := hkept k i hk
    rcases (hmem i).mp hi with hi | hi
    · exact h.fresh k i hk hi
    · exact hkj (h.once k j i hk hi)
  · show (s.processed ++ (s.held j).toList).Nodup
    cases hheld : s.held j with
    | none =>
      rw [Option.toList_none, List.append_nil]
      exact h.nodup
    | some i =>
      rw [Option.toList_some, List.nodup_append]
      refine ⟨h.nodup, List.nodup_singleton i, fun a ha b hb hab => h.fresh j i hheld ?_⟩
      rw [← List.mem_singleton.mp hb, ← hab]
      exact ha
  · intro i
    show (i ∈ (s.finish j).processed ∨ ∃ k, (s.finish j).held k = some i) ↔ i < s.taken ∧ s.Work i
    rw [hmem, ← h.account i, or_assoc]
    refine or_congr_right ?_
    constructor
    · rintro (hi | ⟨k, hk⟩)
      · exact ⟨j, hi⟩
      · exact ⟨k, (hkept k i hk).2⟩
    · rintro ⟨k, hk⟩
      by_cases hkj : k = j
      · exact Or.inl (hkj ▸ hk)
      · exact Or.inr ⟨k, (hother k hkj).trans hk⟩

/-! ### Runs -/

/-- The event is set when the last worker has gone. -/
theorem event_exec {m m' : WorkerManager} {a : Event} (hm : m.exec a = some m')
    (h : m.m_shutdown = true → m.m_numWorkers ≤ 0) : m'.m_shutdown = true → m'.m_numWorkers ≤ 0 := by
  cases a with
  | waitForShutdown =>
    obtain ⟨-, hm⟩ := Option.ite_none_right_eq_some.mp hm
    split at hm
    · rename_i hzero
      cases hm
      exact fun _ => Int.le_of_eq hzero
    · cases hm
      exact h
  | wait =>
    obtain ⟨-, hm⟩ := Option.ite_none_right_eq_some.mp hm
    cases hm
    exact h
  | addWork msg =>
    obtain ⟨-, hm⟩ := Option.ite_none_left_eq_some.mp hm
    cases hm
    exact h
  | threadShutdown j =>
    rw [WorkerManager.exec] at hm
    split at hm
    · cases hm
      intro hset
      show m.m_numWorkers - 1 ≤ 0
      by_cases hlast : m.m_numWorkers - 1 ≤ 0
      · exact hlast
      · have hold := h ((if_neg hlast).symm.trans hset)
        omega
    · cases hm
  | test | push | getWork j | processed j =>
    rw [WorkerManager.exec] at hm
    split at hm
    · cases hm
      exact h
    · cases hm

theorem Inv.exec (h : s.Inv N) {a : Event} (ht : s.exec a = some t) : t.Inv N := by
  obtain ⟨mgr, hm, ht⟩ := Option.map_eq_some_iff.mp ht
  have hmgr := h.mgr.exec hm
  have hevent := event_exec hm h.event
  cases a with
  | waitForShutdown =>
    obtain ⟨-, hm⟩ := Option.ite_none_right_eq_some.mp hm
    split at hm
    · cases hm
      cases ht
      exact h.same hmgr hevent rfl rfl fun j msg hj => hj
    · cases hm
      cases ht
      exact h.same hmgr hevent rfl rfl fun j msg hj => hj
  | wait =>
    obtain ⟨-, hm⟩ := Option.ite_none_right_eq_some.mp hm
    cases hm
    cases ht
    exact h.same hmgr hevent rfl rfl fun j msg hj => hj
  | test =>
    rw [WorkerManager.exec] at hm
    split at hm
    · cases hm
      cases ht
      exact h.same hmgr hevent rfl rfl fun j msg hj => hj
    · cases hm
  | push =>
    rw [WorkerManager.exec] at hm
    split at hm
    · cases hm
      cases ht
      exact h.add hmgr hevent rfl rfl
    · cases hm
  | addWork msg =>
    obtain ⟨-, hm⟩ := Option.ite_none_left_eq_some.mp hm
    cases hm
    cases ht
    exact h.add hmgr hevent rfl rfl
  | getWork j =>
    rw [WorkerManager.exec] at hm
    split at hm
    · rename_i msg rest hj hfront
      cases hm
      cases ht
      exact h.take hmgr hevent hj hfront rfl rfl
    · cases hm
  | processed j =>
    rw [WorkerManager.exec] at hm
    split at hm
    · rename_i msg hj
      cases hm
      cases ht
      exact h.finish hmgr hevent hj rfl rfl
    · cases hm
  | threadShutdown j =>
    rw [WorkerManager.exec] at hm
    split at hm
    · rename_i hj
      cases hm
      cases ht
      have htally := tally_set (w := WorkerPc.taken) (q := .ended) hj
      refine h.same hmgr hevent rfl (Nat.add_right_cancel htally) fun k msg hk => ?_
      have hkj : k ≠ j := by
        rintro rfl
        rw [hj] at hk
        cases hk
      show (s.mgr.workers.set j _)[k]? = _
      rw [List.getElem?_set_ne (Ne.symm hkj)]
      exact hk
    · cases hm

theorem reaches_inv (h : Runs (init N) s) : s.Inv N :=
  h.invariant (inv_init N) fun _ _ _ hs _ ht => hs.exec ht

/-- When the event is set every worker has ended. -/
theorem Inv.ended (h : s.Inv N) (hset : s.mgr.m_shutdown = true) :
    ∀ p ∈ s.mgr.workers, p = .ended := by
  intro p hp
  by_contra hne
  have hzero : p.gone = 0 := by
    cases p with
    | ended => exact absurd rfl hne
    | getWork | process msg | threadShutdown => rfl
  have hlt := tally_lt_length (w := WorkerPc.gone) (fun p => by cases p <;> simp [WorkerPc.gone]) hp
    hzero
  have hbound := h.mgr.bound
  have hworkers := h.mgr.workers
  have hevent := h.event hset
  omega

/-- Then all of them have their `WORKER_SHUTDOWN` messages, and none of these is left. -/
theorem Inv.shutdowns_eq (h : s.Inv N) (hset : s.mgr.m_shutdown = true) :
    (s.added.take s.taken).countP isShutdown = N ∧ s.mgr.m_queue.countP isShutdown = 0 := by
  have hall : s.mgr.workers = List.replicate N .ended :=
    List.eq_replicate_iff.mpr ⟨h.mgr.workers, h.ended hset⟩
  have htally : tally WorkerPc.taken s.mgr.workers = N := by
    rw [hall, tally_replicate]
    exact Nat.mul_one N
  have hmessages := h.mgr.messages
  have hpushed : s.mgr.pushed ≤ N := by
    have hloop := h.mgr.loop
    unfold WorkerManager.Progress at hloop
    split at hloop <;> omega
  exact ⟨h.shutdowns.trans htally, by omega⟩

/-- **The work that was there before the last `WORKER_SHUTDOWN` message** is processed when the event
is set, each message once, and what is put behind it is never taken. -/
theorem drained (hN : 0 < N) (h : Runs (init N) s) (hset : s.mgr.m_shutdown = true) :
    ∃ before after, s.added = before ++ ⟨WORKER_SHUTDOWN⟩ :: after ∧
      (∀ msg ∈ after, isShutdown msg = false) ∧ s.mgr.m_queue = after ∧ s.processed.Nodup ∧
      ∀ i, i ∈ s.processed ↔ ∃ msg, before[i]? = some msg ∧ isShutdown msg = false := by
  have hinv := reaches_inv h
  obtain ⟨htaken, hqueue⟩ := hinv.shutdowns_eq hset
  have hneeded := hinv.needed
  have haccount := hinv.account
  have hbehind := hinv.queue
  cases hk : s.taken with
  | zero =>
    rw [hk] at htaken
    exact absurd htaken (Nat.ne_of_lt hN)
  | succ k =>
    rw [hk] at htaken hneeded haccount hbehind
    -- the message that was taken last is the `N`-th of them
    obtain ⟨msg, hmsg, hlast⟩ : ∃ msg, s.added[k]? = some msg ∧ isShutdown msg = true := by
      have hfew := hneeded k (Nat.lt_succ_self k)
      rw [List.take_add_one, List.countP_append] at htaken
      cases hmsg : s.added[k]? with
      | none =>
        rw [hmsg] at htaken
        exact absurd htaken (Nat.ne_of_lt hfew)
      | some msg =>
        refine ⟨msg, rfl, ?_⟩
        by_contra hwork
        rw [hmsg, Option.toList_some, List.countP_singleton, if_neg hwork] at htaken
        exact absurd htaken (Nat.ne_of_lt hfew)
    have hid : msg = ⟨WORKER_SHUTDOWN⟩ := congrArg WorkerMessage.mk (of_decide_eq_true hlast)
    have hsplit : s.added = s.added.take k ++ msg :: s.added.drop (k + 1) := by
      conv_lhs => rw [← List.take_append_drop (k + 1) s.added, List.take_add_one, hmsg]
      rw [Option.toList_some, List.append_assoc, List.singleton_append]
    refine ⟨s.added.take k, s.added.drop (k + 1), hid ▸ hsplit, ?_, hbehind, hinv.nodup, ?_⟩
    · rw [hbehind, List.countP_eq_zero] at hqueue
      intro m hm
      exact Bool.eq_false_iff.mpr (hqueue m hm)
    · intro i
      have hidle : ¬ ∃ j, s.held j = some i := by
        rintro ⟨j, hj⟩
        obtain ⟨m, hm⟩ := hinv.busy j i hj
        have hgone := hinv.ended hset _ (List.mem_of_getElem? hm)
        cases hgone
      refine ((or_iff_left hidle).symm.trans (haccount i)).trans ?_
      rw [List.getElem?_take, Work]
      constructor
      · rintro ⟨hi, m, hm, hwork⟩
        have hne : i ≠ k := by
          rintro rfl
          rw [hmsg] at hm
          cases hm
          rw [hlast] at hwork
          cases hwork
        rw [if_pos (by omega)]
        exact ⟨m, hm, hwork⟩
      · rintro ⟨m, hm, hwork⟩
        split at hm
        · rename_i hi
          exact ⟨Nat.lt_succ_of_lt hi, m, hm, hwork⟩
        · cases hm

/-- Two workers; a message is put between the two that end them, and another one behind. -/
def twoEnded : List Event :=
  [.addWork ⟨WORKER_EVENT⟩, .waitForShutdown, .test, .push, .getWork 0, .getWork 1, .test,
    .addWork ⟨WORKER_EVENT⟩, .push, .addWork ⟨WORKER_EVENT⟩, .processed 0, .threadShutdown 1,
    .getWork 0, .processed 0, .getWork 0, .threadShutdown 0]

theorem drained_two : ∃ s, runAll exec twoEnded (init 2) = some s ∧ s.processed = [0, 2] ∧
    ∃ before after, s.added = before ++ ⟨WORKER_SHUTDOWN⟩ :: after ∧
      (∀ msg ∈ after, isShutdown msg = false) ∧ s.mgr.m_queue = after ∧ s.processed.Nodup ∧
      ∀ i, i ∈ s.processed ↔ ∃ msg, before[i]? = some msg ∧ isShutdown msg = false :=
  ⟨_, rfl, rfl, drained (by decide) (Reaches.of_runAll exec _ (fun _ _ _ => trivial)
    (rfl : runAll exec twoEnded (init 2) = some _)) rfl⟩

end Ledger

end OpenairHss.Worker
