import OpenairHss.Lib.Steps
import OpenairHss.Lib.Threads

/-!
# The shutdown of the workers

`WorkerManager::waitForShutdown` pushes a `WORKER_SHUTDOWN` message for each worker, and the workers
that have taken one decrement `m_numWorkers`, which is the bound of that loop.  The queue is the
sequence of its messages; that a call of `getWork` takes its front is what `SQueue` does.

A test of the loop is early if it ends the loop before every worker has its message.  A run without an
early test pushes exactly `N` messages and lets no worker wait (`shutdown_in_time`), and every run that
pushes `N` messages is one.
-/

namespace OpenairHss.Worker

open Steps Threads

def WORKER_SHUTDOWN : UInt16 := 99
def WORKER_EVENT : UInt16 := 100

structure WorkerMessage where
  m_id : UInt16
deriving DecidableEq

/-- Where the caller of `waitForShutdown` is. -/
inductive ManagerPc
  | start
  /-- `i < m_numWorkers` -/
  | test (i : Nat)
  | push (i : Nat)
  | wait
  | returned
deriving DecidableEq

/-- Where a worker is in `threadProc`. -/
inductive WorkerPc
  | getWork
  | process (msg : WorkerMessage)
  | threadShutdown
  | ended
deriving DecidableEq

/-- The worker has taken its `WORKER_SHUTDOWN` message. -/
def WorkerPc.taken : WorkerPc → Nat
  | .threadShutdown | .ended => 1
  | _ => 0

def WorkerPc.gone : WorkerPc → Nat
  | .ended => 1
  | _ => 0

def isShutdown (msg : WorkerMessage) : Bool := msg.m_id = WORKER_SHUTDOWN

structure WorkerManager where
  m_numWorkers : Int
  m_queue : List WorkerMessage
  m_shutdown : Bool
  manager : ManagerPc
  workers : List WorkerPc
  /-- The number of `WORKER_SHUTDOWN` messages that were pushed. -/
  pushed : Nat
deriving DecidableEq

inductive Event
  | waitForShutdown
  | test
  | push
  | wait
  /-- Some thread gives the workers something to do. -/
  | addWork (msg : WorkerMessage)
  | getWork (j : Nat)
  /-- The end of `process`, or of the warning about a message that is not known -/
  | processed (j : Nat)
  | threadShutdown (j : Nat)

namespace WorkerManager

/-- After `init(N)`. -/
def init (N : Nat) : WorkerManager where
  m_numWorkers := N
  m_queue := []
  m_shutdown := false
  manager := .start
  workers := List.replicate N .getWork
  pushed := 0

def goto (s : WorkerManager) (j : Nat) (p : WorkerPc) : WorkerManager :=
  { s with workers := s.workers.set j p }

def exec (s : WorkerManager) : Event → Option WorkerManager
  | .waitForShutdown =>
    if s.manager = .start then
      if s.m_numWorkers = 0 then some { s with m_shutdown := true, manager := .returned }
      else some { s with manager := .test 0 }
    else none
  | .test =>
    match s.manager with
    | .test i => some { s with manager := if i < s.m_numWorkers then .push i else .wait }
    | _ => none
  | .push =>
    match s.manager with
    | .push i => some { s with
        m_queue := s.m_queue ++ [⟨WORKER_SHUTDOWN⟩], manager := .test (i + 1), pushed := s.pushed + 1 }
    | _ => none
  | .wait => if s.manager = .wait ∧ s.m_shutdown then some { s with manager := .returned } else none
  | .addWork msg =>
    -- only `WORKER_EVENT` messages are made elsewhere
    if msg.m_id = WORKER_SHUTDOWN then none else some { s with m_queue := s.m_queue ++ [msg] }
  | .getWork j =>
    match s.workers[j]?, s.m_queue with
    | some .getWork, msg :: rest =>
      some { s.goto j (if msg.m_id = WORKER_SHUTDOWN then .threadShutdown else .process msg) with
        m_queue := rest }
    | _, _ => none
  | .processed j =>
    match s.workers[j]? with
    | some (.process _) => some (s.goto j .getWork)
    | _ => none
  | .threadShutdown j =>
    match s.workers[j]? with
    | some .threadShutdown => some { s.goto j .ended with
        m_numWorkers := s.m_numWorkers - 1
        m_shutdown := if s.m_numWorkers - 1 ≤ 0 then true else s.m_shutdown }
    | _ => none

/-- The runs whose steps meet `C`. -/
abbrev Runs (C : WorkerManager → Event → Prop) : WorkerManager → WorkerManager → Prop :=
  Reaches (fun s a t => s.exec a = some t) C

/-- The loop has ended. -/
def Finished (s : WorkerManager) : Prop := s.manager = .wait ∨ s.manager = .returned

/-- A test of the loop that is made before every worker has its message is made while the bound is
still above `i`. -/
def InTime (s : WorkerManager) (a : Event) : Prop :=
  ∀ i, a = .test → s.manager = .test i → i < s.workers.length → (i : Int) < s.m_numWorkers

/-! ### The invariant -/

/-- What is known of the loop at each of its points. -/
def Progress (N pushed : Nat) : ManagerPc → Prop
  | .start => pushed = 0
  | .test i => pushed = i ∧ i ≤ N
  | .push i => pushed = i ∧ i < N
  | .wait | .returned => pushed ≤ N

structure Inv (N : Nat) (s : WorkerManager) : Prop where
  workers : s.workers.length = N
  /-- A `WORKER_SHUTDOWN` message is in the queue, or a worker has taken it. -/
  messages : s.pushed = tally WorkerPc.taken s.workers + s.m_queue.countP isShutdown
  bound : s.m_numWorkers + tally WorkerPc.gone s.workers = N
  loop : Progress N s.pushed s.manager

variable {N : Nat} {s t : WorkerManager} {j : Nat} {p q : WorkerPc}

theorem inv_init : (init N).Inv N where
  workers := List.length_replicate
  messages := by
    show 0 = tally WorkerPc.taken (List.replicate N .getWork) + 0
    rw [tally_replicate]
    rfl
  bound := by
    show (N : Int) + tally WorkerPc.gone (List.replicate N .getWork) = N
    rw [tally_replicate]
    exact Int.add_zero _
  loop := rfl

/-- A step of a worker: what it takes off the queue, and what it takes off the bound. -/
theorem Inv.worker (h : s.Inv N) (hj : s.workers[j]? = some p) {queue : List WorkerMessage}
    (hqueue : q.taken + queue.countP isShutdown = p.taken + s.m_queue.countP isShutdown)
    {bound : Int} (hbound : bound + q.gone = s.m_numWorkers + p.gone) {event : Bool} :
    Inv N { s.goto j q with m_queue := queue, m_numWorkers := bound, m_shutdown := event } := by
  refine { h with workers := ?_, messages := ?_, bound := ?_ }
  · show (s.workers.set j q).length = N
    rw [List.length_set]
    exact h.workers
  · have htally := tally_set (w := WorkerPc.taken) (q := q) hj
    have hold := h.messages
    show s.pushed = tally WorkerPc.taken (s.workers.set j q) + queue.countP isShutdown
    omega
  · have htally := tally_set (w := WorkerPc.gone) (q := q) hj
    have hold := h.bound
    show bound + tally WorkerPc.gone (s.workers.set j q) = N
    omega

theorem Inv.exec (h : s.Inv N) {a : Event} (ht : s.exec a = some t) : t.Inv N := by
  cases a with
  | waitForShutdown =>
    obtain ⟨hm, he⟩ := Option.ite_none_right_eq_some.mp ht
    have hloop := h.loop
    rw [hm] at hloop
    have hzero : s.pushed = 0 := hloop
    split at he
    case isTrue hn =>
      obtain rfl := Option.some.inj he
      exact { h with loop := Nat.le_trans (Nat.le_of_eq hzero) (Nat.zero_le N) }
    case isFalse hn =>
      obtain rfl := Option.some.inj he
      exact { h with loop := ⟨hzero, Nat.zero_le N⟩ }
  | test =>
    rw [WorkerManager.exec] at ht
    split at ht
    case h_1 i hm =>
      have hloop := h.loop
      rw [hm] at hloop
      obtain ⟨hi, hle⟩ := hloop
      obtain rfl := Option.some.inj ht
      refine { h with loop := ?_ }
      show Progress N s.pushed (if (i : Int) < s.m_numWorkers then .push i else .wait)
      split
      case isTrue hlt =>
        -- the bound never exceeds the number of workers
        have hbound := h.bound
        exact ⟨hi, by omega⟩
      case isFalse hlt => exact Nat.le_trans (Nat.le_of_eq hi) hle
    case h_2 => exact absurd ht (by simp)
  | push =>
    rw [WorkerManager.exec] at ht
    split at ht
    case h_1 i hm =>
      have hloop := h.loop
      rw [hm] at hloop
      obtain ⟨hi, hlt⟩ := hloop
      obtain rfl := Option.some.inj ht
      refine { h with messages := ?_, loop := ⟨congrArg (· + 1) hi, hlt⟩ }
      have hold := h.messages
      show s.pushed + 1 = _ + (s.m_queue ++ [(⟨WORKER_SHUTDOWN⟩ : WorkerMessage)]).countP isShutdown
      rw [List.countP_append, hold]
      rfl
    case h_2 => exact absurd ht (by simp)
  | wait =>
    obtain ⟨⟨hm, _⟩, he⟩ := Option.ite_none_right_eq_some.mp ht
    have hloop := h.loop
    rw [hm] at hloop
    obtain rfl := Option.some.inj he
    exact { h with loop := hloop }
  | addWork msg =>
    obtain ⟨hid, he⟩ := Option.ite_none_left_eq_some.mp ht
    obtain rfl := Option.some.inj he
    refine { h with messages := ?_ }
    have hold := h.messages
    show s.pushed = _ + (s.m_queue ++ [msg]).countP isShutdown
    rw [List.countP_append, List.countP_singleton, isShutdown, decide_eq_false hid]
    exact hold
  | getWork j =>
    rw [WorkerManager.exec] at ht
    split at ht
    case h_1 msg rest hj hq =>
      obtain rfl := Option.some.inj ht
      refine h.worker hj ?_ ?_
      · rw [hq, List.countP_cons, isShutdown]
        split
        case isTrue hid => simp only [hid, WorkerPc.taken, decide_true, if_true]; omega
        case isFalse hid => simp only [hid, WorkerPc.taken, decide_false]; rfl
      · split <;> rfl
    case h_2 => exact absurd ht (by simp)
  | processed j =>
    rw [WorkerManager.exec] at ht
    split at ht
    case h_1 msg hj =>
      obtain rfl := Option.some.inj ht
      exact h.worker (p := .process msg) (q := .getWork) hj rfl rfl
    case h_2 => exact absurd ht (by simp)
  | threadShutdown j =>
    rw [WorkerManager.exec] at ht
    split at ht
    case h_1 hj =>
      obtain rfl := Option.some.inj ht
      refine h.worker (p := .threadShutdown) (q := .ended) hj rfl ?_
      show s.m_numWorkers - 1 + 1 = s.m_numWorkers + 0
      omega
    case h_2 => exact absurd ht (by simp)

theorem reaches_inv {C : WorkerManager → Event → Prop} (h : Runs C (init N) s) : s.Inv N :=
  h.invariant inv_init fun _ _ _ hs _ ht => hs.exec ht

/-! ### The loop -/

/-- What one step does to the caller of `waitForShutdown`. -/
theorem manager_cases {a : Event} (ht : s.exec a = some t) :
    (t.manager = s.manager ∧ t.pushed = s.pushed ∧ a ≠ .test) ∨
    (s.manager = .start ∧ t.pushed = s.pushed ∧
      (s.m_numWorkers = 0 ∧ t.manager = .returned ∨ t.manager = .test 0)) ∨
    (∃ i : Nat, a = .test ∧ s.manager = .test i ∧ t.pushed = s.pushed ∧
      (i < s.m_numWorkers ∧ t.manager = .push i ∨ ¬ i < s.m_numWorkers ∧ t.manager = .wait)) ∨
    (∃ i, s.manager = .push i ∧ t.pushed = s.pushed + 1 ∧ t.manager = .test (i + 1)) ∨
    (s.manager = .wait ∧ t.pushed = s.pushed ∧ t.manager = .returned) := by
  cases a with
  | waitForShutdown =>
    obtain ⟨hm, he⟩ := Option.ite_none_right_eq_some.mp ht
    refine Or.inr (Or.inl ⟨hm, ?_⟩)
    split at he
    case isTrue hn =>
      obtain rfl := Option.some.inj he
      exact ⟨rfl, Or.inl ⟨hn, rfl⟩⟩
    case isFalse hn =>
      obtain rfl := Option.some.inj he
      exact ⟨rfl, Or.inr rfl⟩
  | test =>
    rw [WorkerManager.exec] at ht
    split at ht
    case h_1 i hm =>
      obtain rfl := Option.some.inj ht
      refine Or.inr (Or.inr (Or.inl ⟨i, rfl, hm, rfl, ?_⟩))
      by_cases hlt : (i : Int) < s.m_numWorkers
      · exact Or.inl ⟨hlt, if_pos hlt⟩
      · exact Or.inr ⟨hlt, if_neg hlt⟩
    case h_2 => exact absurd ht (by simp)
  | push =>
    rw [WorkerManager.exec] at ht
    split at ht
    case h_1 i hm =>
      obtain rfl := Option.some.inj ht
      exact Or.inr (Or.inr (Or.inr (Or.inl ⟨i, hm, rfl, rfl⟩)))
    case h_2 => exact absurd ht (by simp)
  | wait =>
    obtain ⟨⟨hm, _⟩, he⟩ := Option.ite_none_right_eq_some.mp ht
    obtain rfl := Option.some.inj he
    exact Or.inr (Or.inr (Or.inr (Or.inr ⟨hm, rfl, rfl⟩)))
  | addWork msg =>
    obtain ⟨hid, he⟩ := Option.ite_none_left_eq_some.mp ht
    obtain rfl := Option.some.inj he
    exact Or.inl ⟨rfl, rfl, by simp⟩
  | getWork j | processed j | threadShutdown j =>
    rw [WorkerManager.exec] at ht
    split at ht
    case h_1 =>
      obtain rfl := Option.some.inj ht
      exact Or.inl ⟨rfl, rfl, by simp⟩
    case h_2 => exact absurd ht (by simp)

/-- The loop does not start again. -/
theorem finished_step {a : Event} (ht : s.exec a = some t) (hf : s.Finished) :
    t.Finished ∧ t.pushed = s.pushed := by
  rcases manager_cases ht with ⟨hm, hp, _⟩ | ⟨hs, _⟩ | ⟨i, _, hs, _⟩ | ⟨i, hs, _⟩ | ⟨hs, hp, hm⟩
  · rw [Finished, hm]
    exact ⟨hf, hp⟩
  · rcases hf with hf | hf <;> exact absurd (hs.symm.trans hf) (by simp)
  · rcases hf with hf | hf <;> exact absurd (hs.symm.trans hf) (by simp)
  · rcases hf with hf | hf <;> exact absurd (hs.symm.trans hf) (by simp)
  · exact ⟨Or.inr hm, hp⟩

/-- A worker that has ended had taken a message. -/
theorem Inv.bound_ge (h : s.Inv N) : (N : Int) ≤ s.m_numWorkers + s.pushed := by
  have hmono : tally WorkerPc.gone s.workers ≤ tally WorkerPc.taken s.workers :=
    tally_mono fun p => by cases p <;> simp [WorkerPc.gone, WorkerPc.taken]
  have hmessages := h.messages
  have hbound := h.bound
  omega

/-- `waitForShutdown` returns at once only if there is no worker. -/
theorem Inv.no_worker (h : s.Inv N) (hs : s.manager = .start) (hn : s.m_numWorkers = 0) : N = 0 := by
  have hloop := h.loop
  rw [hs] at hloop
  have hzero : s.pushed = 0 := hloop
  have hbound := h.bound_ge
  omega

/-- A step that is not an early test ends the loop only after the last message. -/
theorem Inv.finished_step (h : s.Inv N) {a : Event} (hin : s.InTime a) (ht : s.exec a = some t)
    (hold : s.Finished → s.pushed = N) (hf : t.Finished) : t.pushed = N := by
  rcases manager_cases ht with ⟨hm, hp, _⟩ | ⟨hs, hp, hm⟩ | ⟨i, ha, hs, hp, hm⟩ | ⟨i, hs, hp, hm⟩ |
    ⟨hs, hp, hm⟩
  · rw [Finished, hm] at hf
    rw [hp]
    exact hold hf
  · rcases hm with ⟨hn, hm⟩ | hm
    · have hloop := h.loop
      rw [hs] at hloop
      rw [hp, h.no_worker hs hn]
      exact hloop
    · rcases hf with hf | hf <;> exact absurd (hm.symm.trans hf) (by simp)
  · rcases hm with ⟨_, hm⟩ | ⟨hlt, hm⟩
    · rcases hf with hf | hf <;> exact absurd (hm.symm.trans hf) (by simp)
    · have hloop := h.loop
      rw [hs] at hloop
      obtain ⟨hi, hle⟩ := hloop
      have hall : ¬ i < s.workers.length := fun hi' => hlt (hin i ha hs hi')
      rw [h.workers] at hall
      omega
  · rcases hf with hf | hf <;> exact absurd (hm.symm.trans hf) (by simp)
  · rw [hp]
    exact hold (Or.inl hs)

theorem pushed_of_finished (h : Runs InTime (init N) s) (hf : s.Finished) : s.pushed = N := by
  have hrun : s.Inv N ∧ (s.Finished → s.pushed = N) := by
    refine h.invariant (I := fun s => s.Inv N ∧ (s.Finished → s.pushed = N)) ⟨inv_init, fun hf => ?_⟩ ?_
    · rcases hf with hf | hf <;> exact absurd hf (by simp [init])
    · intro u a v hu ha hv
      exact ⟨hu.1.exec hv, hu.1.finished_step ha hv hu.2⟩
  exact hrun.2 hf

/-- An early test leaves a worker without its message, whatever happens after it. -/
theorem pushed_of_early (h : Runs (fun _ _ => True) (init N) s) {a : Event} (ha : ¬ s.InTime a)
    (ht : s.exec a = some t) {u : WorkerManager} (hu : Runs (fun _ _ => True) t u) :
    u.Finished ∧ u.pushed < N := by
  have hinv := reaches_inv h
  have hlost : t.Finished ∧ t.pushed < N := by
    rw [InTime] at ha
    push Not at ha
    obtain ⟨i, rfl, hs, hi, hge⟩ := ha
    have hloop := hinv.loop
    rw [hs] at hloop
    obtain ⟨hpushed, _⟩ := hloop
    rw [hinv.workers] at hi
    rcases manager_cases ht with ⟨_, _, hne⟩ | ⟨hs', _⟩ | ⟨k, _, hs', hp, hm⟩ | ⟨k, hs', _⟩ | ⟨hs', _⟩
    · exact absurd rfl hne
    · exact absurd (hs.symm.trans hs') (by simp)
    · obtain rfl := ManagerPc.test.inj (hs.symm.trans hs')
      rcases hm with ⟨hlt, _⟩ | ⟨_, hm⟩
      · omega
      · exact ⟨Or.inl hm, by omega⟩
    · exact absurd (hs.symm.trans hs') (by simp)
    · exact absurd (hs.symm.trans hs') (by simp)
  refine hu.invariant (I := fun v => v.Finished ∧ v.pushed < N) hlost fun v b w hv _ hw => ?_
  obtain ⟨hf, hp⟩ := WorkerManager.finished_step hw hv.1
  exact ⟨hf, hp ▸ hv.2⟩

/-- Once all messages are taken, no worker waits for work. -/
theorem Inv.no_waiter (h : s.Inv N) (hp : s.pushed = N) (hq : s.m_queue = []) :
    WorkerPc.getWork ∉ s.workers := by
  intro hmem
  have hlt := tally_lt_length (w := WorkerPc.taken) (fun p => by cases p <;> simp [WorkerPc.taken]) hmem rfl
  have hmessages := h.messages
  rw [hq, List.countP_nil, hp] at hmessages
  rw [h.workers] at hlt
  omega

/-- **The shutdown of `N` workers**: a run whose loop has ended has pushed exactly `N` messages if
and only if none of its tests was early, and without an early test no worker is left waiting for
work. -/
theorem shutdown_in_time (h : Runs (fun _ _ => True) (init N) s) :
    (s.Finished → (s.pushed = N ↔ Runs InTime (init N) s)) ∧
      (Runs InTime (init N) s →
        ¬ (s.Finished ∧ s.m_queue = [] ∧ WorkerPc.getWork ∈ s.workers)) := by
  refine ⟨fun hf => ⟨fun hp => ?_, fun hin => pushed_of_finished hin hf⟩, ?_⟩
  · rcases h.until (fun u a => ¬ u.InTime a) with hin | ⟨u, a, v, hu, _, ha, hv, hs⟩
    · exact hin.strengthen fun u a v _ hc _ => not_not.mp hc.2
    · have hpre : Runs (fun _ _ => True) (init N) u :=
        hu.strengthen fun _ _ _ _ _ _ => trivial
      have hlost := (pushed_of_early hpre ha hv hs).2
      omega
  · rintro hin ⟨hf, hq, hmem⟩
    exact (reaches_inv hin).no_waiter (pushed_of_finished hin hf) hq hmem

/-- Two workers: both messages are pushed before one is taken, and the caller returns. -/
def bothWorkers : List Event :=
  [.waitForShutdown, .test, .push, .test, .push, .test, .addWork ⟨WORKER_EVENT⟩, .getWork 1,
    .threadShutdown 1, .getWork 0, .threadShutdown 0, .wait]

theorem shutdown_in_time_two :
    ∃ s, runAll exec bothWorkers (init 2) = some s ∧ s.manager = .returned ∧ s.pushed = 2 ∧
      Runs InTime (init 2) s ∧ (s.Finished → (s.pushed = 2 ↔ Runs InTime (init 2) s)) ∧
      (Runs InTime (init 2) s →
        ¬ (s.Finished ∧ s.m_queue = [] ∧ WorkerPc.getWork ∈ s.workers)) := by
  have hrun := shutdown_in_time (Reaches.of_runAll exec _ (fun _ _ _ => trivial)
    (rfl : runAll exec bothWorkers (init 2) = some _))
  exact ⟨_, rfl, rfl, rfl, (hrun.1 (Or.inr rfl)).mp rfl, hrun⟩

/-- Two workers: the first one has ended before the loop tests its bound a second time. -/
def twoWorkers : List Event :=
  [.waitForShutdown, .test, .push, .getWork 0, .threadShutdown 0, .test]

theorem second_worker_waits :
    ¬ ∀ (N : Nat) (s : WorkerManager), Runs (fun _ _ => True) (init N) s →
      (s.Finished → s.pushed = N) ∧
        ¬ (s.Finished ∧ s.m_queue = [] ∧ WorkerPc.getWork ∈ s.workers) := by
  intro h
  have hrun : Runs (fun _ _ => True) (init 2)
      ⟨1, [], false, .wait, [.ended, .getWork], 1⟩ :=
    Reaches.of_runAll exec _ (fun _ _ _ => trivial)
      (rfl : runAll exec twoWorkers (init 2) = some _)
  exact (h 2 _ hrun).2 ⟨Or.inl rfl, rfl, by decide⟩

/-- With one worker every run is in time. -/
theorem in_time_of_one (h : Runs (fun _ _ => True) (init 1) s) : Runs InTime (init 1) s := by
  refine h.strengthen fun u a v hu _ _ i _ hs hi => ?_
  have hinv := reaches_inv hu
  have hloop := hinv.loop
  rw [hs] at hloop
  obtain ⟨hpushed, _⟩ := hloop
  rw [hinv.workers] at hi
  have hbound := hinv.bound_ge
  omega

end WorkerManager

end OpenairHss.Worker
