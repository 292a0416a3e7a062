import OpenairHss.Processor.Slots

/-!
# Admission to the worker queue

`QueueManager` under any interleaving of its callers: a thread that has called `addEntry` or
`finishMessage` calls `startMessage` next, and other threads may call in between.

`Served` is what the three operations keep: there are at least as many calls of `startMessage` to
come as entries that could be started.  So no entry waits beside a free slot once no call is to come
(`admission`), and this holds of the pool of processors as well (`pool_served`).  A limit below zero,
which the option `concurrent` allows, is as good as none: nothing is ever started then.
-/

namespace OpenairHss.Processor

open Steps

section

variable {ι τ : Type}

/-! ### The operations -/

/-- What holds of the queue while `n` calls of `startMessage` are to come. -/
structure QueueManager.Served (m : QueueManager ι) (n : Nat) : Prop where
  pending : m.m_pending = m.m_queue.length
  nonneg : 0 ≤ m.m_active
  bounded : m.m_active ≤ max 0 m.m_concurrent
  /-- As many calls are to come as there are entries that wait, or as there are free slots. -/
  calls : (m.m_queue.length : Int) ≤ n ∨ max 0 m.m_concurrent - m.m_active ≤ n

variable {m : QueueManager ι} {n : Nat}

theorem QueueManager.Served.addEntry (h : m.Served n) (i : ι) : (m.addEntry i).Served (n + 1) := by
  have hlen : (m.addEntry i).m_queue.length = m.m_queue.length + 1 := List.length_append
  have hp := h.pending
  have hc := h.calls
  refine ⟨?_, h.nonneg, h.bounded, ?_⟩
  · rw [hlen]
    show m.m_pending + 1 = _
    omega
  · rw [hlen]
    show _ ∨ max 0 m.m_concurrent - m.m_active ≤ _
    omega

/-- A call of `startMessage` that starts nothing found no entry or no slot. -/
theorem QueueManager.Served.start (h : m.Served (n + 1)) :
    (m.startMessage = (none, m) ∧ m.Served n) ∨ ∃ i rest, m.m_queue = i :: rest ∧
      m.startMessage = (some i, { m with
        m_queue := rest, m_pending := m.m_pending - 1, m_active := m.m_active + 1 }) ∧
      QueueManager.Served { m with
        m_queue := rest, m_pending := m.m_pending - 1, m_active := m.m_active + 1 } n := by
  have hp := h.pending
  have h0 := h.nonneg
  have hb := h.bounded
  have hc := h.calls
  by_cases hfree : m.m_active < m.m_concurrent ∧ m.m_pending > 0
  · cases hq : m.m_queue with
    | nil =>
      rw [hq, List.length_nil] at hp
      omega
    | cons i rest =>
      rw [hq, List.length_cons] at hp hc
      refine Or.inr ⟨i, rest, rfl, ?_, ?_, ?_, ?_, ?_⟩
      · rw [QueueManager.startMessage, if_pos hfree, hq]
        rfl
      · show m.m_pending - 1 = (rest.length : Int)
        omega
      · show 0 ≤ m.m_active + 1
        omega
      · show m.m_active + 1 ≤ max 0 m.m_concurrent
        omega
      · show (rest.length : Int) ≤ _ ∨ max 0 m.m_concurrent - (m.m_active + 1) ≤ _
        omega
  · refine Or.inl ⟨if_neg hfree, hp, h0, hb, ?_⟩
    omega

theorem QueueManager.Served.finishMessage (h : m.Served n) (hpos : 0 < m.m_active) :
    m.finishMessage.Served (n + 1) := by
  have hb := h.bounded
  have hc := h.calls
  refine ⟨h.pending, ?_, ?_, ?_⟩
  · show 0 ≤ m.m_active - 1
    omega
  · show m.m_active - 1 ≤ max 0 m.m_concurrent
    omega
  · show (m.m_queue.length : Int) ≤ _ ∨ max 0 m.m_concurrent - (m.m_active - 1) ≤ _
    omega

/-- Nothing waits beside a free slot once no call is to come. -/
theorem QueueManager.Served.no_stall (h : m.Served 0) :
    m.m_queue = [] ∨ m.m_active = max 0 m.m_concurrent := by
  have hb := h.bounded
  rcases h.calls with hc | hc
  · exact Or.inl (List.length_eq_zero_iff.mp (by omega))
  · exact Or.inr (by omega)

/-! ### The threads -/

/-- The queue with the threads that use it. -/
structure Admission (ι τ : Type) where
  queue : QueueManager ι
  /-- The threads that are between their two calls. -/
  callers : List τ
  /-- The entries that were added, and those that were started, in order. -/
  added : List ι
  started : List ι
  /-- The entries that are started and not finished. -/
  running : List ι

inductive Call (ι τ : Type)
  | addEntry (t : τ) (i : ι)
  | startMessage (t : τ)
  /-- Called once for an entry that was started. -/
  | finishMessage (t : τ) (i : ι)

variable [DecidableEq ι] [DecidableEq τ]

def Admission.exec (s : Admission ι τ) : Call ι τ → Option (Admission ι τ)
  | .addEntry t i =>
    if t ∈ s.callers then none
    else some { s with
      queue := s.queue.addEntry i, callers := t :: s.callers, added := s.added ++ [i] }
  | .startMessage t =>
    if t ∈ s.callers then
      match s.queue.startMessage with
      | (none, q) => some { s with queue := q, callers := s.callers.erase t }
      | (some i, q) => some { s with
          queue := q, callers := s.callers.erase t
          started := s.started ++ [i], running := i :: s.running }
    else none
  | .finishMessage t i =>
    if t ∉ s.callers ∧ i ∈ s.running then
      some { s with
        queue := s.queue.finishMessage, callers := t :: s.callers, running := s.running.erase i }
    else none

/-- Nothing has been added; the limit is `m_concurrent`. -/
def Admission.init (m_concurrent : Int) : Admission ι τ where
  queue := ⟨[], m_concurrent, 0, 0⟩
  callers := []
  added := []
  started := []
  running := []

/-- All interleavings. -/
abbrev Admission.Runs : Admission ι τ → Admission ι τ → Prop :=
  Reaches (fun s l t => s.exec l = some t) fun _ _ => True

structure Admission.Inv (m_concurrent : Int) (s : Admission ι τ) : Prop where
  limit : s.queue.m_concurrent = m_concurrent
  served : s.queue.Served s.callers.length
  fifo : s.added = s.started ++ s.queue.m_queue
  slots : s.queue.m_active = s.running.length

omit [DecidableEq ι] [DecidableEq τ] in
theorem Admission.Inv.init (m_concurrent : Int) :
    Admission.Inv m_concurrent (Admission.init m_concurrent : Admission ι τ) where
  limit := rfl
  served := ⟨rfl, le_refl _, le_max_left _ _, Or.inl (le_refl _)⟩
  fifo := rfl
  slots := rfl

/-- One call keeps the invariant. -/
theorem Admission.Inv.step {m_concurrent : Int} {s t : Admission ι τ} (h : s.Inv m_concurrent)
    {l : Call ι τ} (hx : s.exec l = some t) : t.Inv m_concurrent := by
  cases l with
  | addEntry c i =>
    rw [Admission.exec] at hx
    split at hx
    case isTrue => cases hx
    case isFalse =>
      obtain rfl := Option.some.inj hx
      refine ⟨h.limit, h.served.addEntry i, ?_, h.slots⟩
      show s.added ++ [i] = s.started ++ (s.queue.m_queue ++ [i])
      rw [h.fifo, List.append_assoc]
  | startMessage c =>
    rw [Admission.exec] at hx
    split at hx
    case isFalse => cases hx
    case isTrue hc =>
      have hlen : s.callers.length = (s.callers.erase c).length + 1 := by
        have hpos := List.length_pos_of_mem hc
        rw [List.length_erase_of_mem hc]
        omega
      have hserved := h.served
      rw [hlen] at hserved
      rcases hserved.start with ⟨hs, hserved⟩ | ⟨i, rest, hq, hs, hserved⟩
      · rw [hs] at hx
        obtain rfl := Option.some.inj hx
        exact ⟨h.limit, hserved, h.fifo, h.slots⟩
      · rw [hs] at hx
        obtain rfl := Option.some.inj hx
        refine ⟨h.limit, hserved, ?_, ?_⟩
        · show s.added = s.started ++ [i] ++ rest
          rw [h.fifo, hq, List.append_assoc]
          rfl
        · show s.queue.m_active + 1 = ((i :: s.running).length : Int)
          rw [h.slots, List.length_cons]
          push_cast
          rfl
  | finishMessage c i =>
    rw [Admission.exec] at hx
    split at hx
    case isFalse => cases hx
    case isTrue hc =>
      have hpos := List.length_pos_of_mem hc.2
      have hslots := h.slots
      obtain rfl := Option.some.inj hx
      refine ⟨h.limit, h.served.finishMessage (by omega), h.fifo, ?_⟩
      show s.queue.m_active - 1 = ((s.running.erase i).length : Int)
      rw [List.length_erase_of_mem hc.2]
      omega

theorem Admission.Runs.inv {m_concurrent : Int} {s : Admission ι τ}
    (h : Admission.Runs (Admission.init m_concurrent) s) : s.Inv m_concurrent :=
  h.invariant (I := fun s => s.Inv m_concurrent) (Admission.Inv.init m_concurrent)
    fun _ _ _ hs _ hx => hs.step hx

/-- **Admission.**  In every state of every interleaving, the slots in use are those of the entries
that are started and not finished, and no more than the limit; `m_pending` is the length of the
queue; the entries are started in the order in which they were added, each once; and when no call of
`startMessage` is to come, no entry waits beside a free slot. -/
theorem admission (m_concurrent : Int) (s : Admission ι τ)
    (h : Admission.Runs (Admission.init m_concurrent) s) :
    (0 ≤ s.queue.m_active ∧ s.queue.m_active ≤ max 0 m_concurrent ∧
        s.queue.m_active = s.running.length) ∧
      s.queue.m_pending = s.queue.m_queue.length ∧
      s.added = s.started ++ s.queue.m_queue ∧
      (s.callers = [] → s.queue.m_queue = [] ∨ s.queue.m_active = max 0 m_concurrent) := by
  have hinv := h.inv
  have hserved := hinv.served
  have hb := hserved.bounded
  rw [hinv.limit] at hb
  refine ⟨⟨hserved.nonneg, hb, hinv.slots⟩, hserved.pending, hinv.fifo, fun hnone => ?_⟩
  rw [hnone] at hserved
  have hstall := hserved.no_stall
  rwa [hinv.limit] at hstall

/-- Two entries and one slot: the second waits until the first is finished. -/
theorem admission_two :
    ∃ s : Admission Nat Nat, Admission.Runs (Admission.init 1) s ∧
      (s.callers = [] → s.queue.m_queue = [] ∨ s.queue.m_active = max 0 1) ∧
      s.callers = [] ∧ s.queue.m_queue = [1] := by
  have hsteps : runAll Admission.exec [.addEntry 7 0, .addEntry 8 1, .startMessage 8, .startMessage 7]
      (Admission.init 1) = some (⟨⟨[1], 1, 1, 1⟩, [], [0, 1], [0], [0]⟩ : Admission Nat Nat) := rfl
  have hrun := Reaches.of_runAll Admission.exec (fun _ _ => True) (fun _ _ _ => trivial) hsteps
  exact ⟨_, hrun, (admission 1 _ hrun).2.2.2, rfl, rfl⟩

/-- A limit below zero: no slot is in use, which is one more than the limit allows. -/
theorem not_bounded_negative :
    ∃ s : Admission Nat Nat, Admission.Runs (Admission.init (-1)) s ∧
      ¬ (0 ≤ s.queue.m_active ∧ s.queue.m_active ≤ s.queue.m_concurrent) ∧
      ¬ (s.callers = [] → s.queue.m_queue = [] ∨ s.queue.m_active = s.queue.m_concurrent) := by
  have hsteps : runAll Admission.exec [.addEntry 7 0, .startMessage 7] (Admission.init (-1)) =
      some (⟨⟨[0], -1, 0, 1⟩, [], [0], [], []⟩ : Admission Nat Nat) := rfl
  have hrun := Reaches.of_runAll Admission.exec (fun _ _ => True) (fun _ _ _ => trivial) hsteps
  exact ⟨_, hrun, by decide, by decide⟩

end

/-! ### The pool of processors -/

section Pool

variable {ι : Type} {K : ι → Kind} [DecidableEq ι] {M : (i : ι) → Code (K i)}
  {first : (i : ι) → State (K i)} {C : (i : ι) → State (K i) → Env (K i) × Move → Prop}
  {p q : Pool K}

theorem Pool.served_step {l : PoolMove K} (hs : p.Sane M first C) (h : p.queue.Served p.callers)
    (hx : p.exec M first l = some q) : q.queue.Served q.callers := by
  cases l with
  | add i =>
    simp only [Pool.exec] at hx
    split at hx
    case isTrue => cases hx
    case isFalse =>
      obtain rfl := Option.some.inj hx
      exact h.addEntry i
  | start =>
    cases hc : p.callers with
    | zero => simp only [Pool.exec, hc] at hx; cases hx
    | succ n =>
      rw [hc] at h
      rcases h.start with ⟨hstart, hserved⟩ | ⟨i, rest, -, hstart, hserved⟩
      · simp only [Pool.exec, hc, hstart] at hx
        obtain rfl := Option.some.inj hx
        exact hserved
      · simp only [Pool.exec, hc, hstart] at hx
        obtain rfl := Option.some.inj hx
        exact hserved
  | run i l =>
    simp only [Pool.exec] at hx
    split at hx
    case isFalse => cases hx
    case isTrue hi =>
      split at hx
      case h_1 => cases hx
      case h_2 t ht =>
        split at hx
        case isFalse =>
          obtain rfl := Option.some.inj hx
          exact h
        case isTrue =>
          obtain rfl := Option.some.inj hx
          have hmem : i ∈ p.active := List.mem_filter.mpr ⟨hi, by simp [(exec_cases ht).1]⟩
          have hpos := List.length_pos_of_mem hmem
          have hslots := hs.slots
          exact h.finishMessage (by omega)

/-- **No processor waits beside a free slot** when no thread is about to call `startProcessor`. -/
theorem pool_served {procs : (i : ι) → State (K i)} (hf : ∀ i, (first i).core.status ≠ .deleted)
    (h : PoolRun M first C (Pool.init procs) p) :
    p.queue.Served p.callers ∧
      (p.callers = 0 → p.queue.m_queue = [] ∨ p.queue.m_active = max 0 p.queue.m_concurrent) := by
  have hinv : p.Sane M first C ∧ p.queue.Served p.callers :=
    h.invariant (I := fun p => p.Sane M first C ∧ p.queue.Served p.callers)
      ⟨⟨rfl, List.nodup_nil, rfl, nofun⟩, ⟨rfl, le_refl _, le_max_left _ _, Or.inl (le_refl _)⟩⟩
      fun _ _ _ hs hC hx => ⟨hs.1.step hf hC hx, Pool.served_step hs.1 hs.2 hx⟩
  refine ⟨hinv.2, fun h0 => ?_⟩
  have hserved := hinv.2
  rw [h0] at hserved
  exact hserved.no_stall

end Pool

end OpenairHss.Processor
