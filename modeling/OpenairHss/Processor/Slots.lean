import OpenairHss.Processor.Ghost
import Mathlib.Data.List.Nodup

/-!
# The slots of the worker queue

`HSSWorkerQueue` bounds the number of processors that are active at the same time: a processor that
arrives is queued, `startProcessor` starts the first of the queue if there is a slot, and a worker
that has deleted a processor gives its slot back and calls `startProcessor` again.

`slots_held`: in every reachable state the slots in use are those of the processors that were
started and are not deleted, and each of these has made a run of its own.
-/

namespace OpenairHss.Processor

open Steps

section

variable {ι : Type}

structure QueueManager (ι : Type) where
  m_queue : List ι
  m_concurrent : Int
  m_active : Int
  m_pending : Int

def QueueManager.addEntry (q : QueueManager ι) (i : ι) : QueueManager ι :=
  { q with m_queue := q.m_queue ++ [i], m_pending := q.m_pending + 1 }

def QueueManager.startMessage (q : QueueManager ι) : Option ι × QueueManager ι :=
  if q.m_active < q.m_concurrent ∧ q.m_pending > 0 then
    (q.m_queue.head?, { q with
      m_queue := q.m_queue.tail, m_pending := q.m_pending - 1, m_active := q.m_active + 1 })
  else (none, q)

def QueueManager.finishMessage (q : QueueManager ι) : QueueManager ι :=
  { q with m_active := q.m_active - 1 }

/-- What `startMessage` can do. -/
theorem startMessage_cases (m : QueueManager ι) (hp : m.m_pending = m.m_queue.length) :
    m.startMessage = (none, m) ∨ ∃ i rest, m.m_queue = i :: rest ∧ m.startMessage =
      (some i, { m with m_queue := rest, m_pending := m.m_pending - 1, m_active := m.m_active + 1 })
    := by
  unfold QueueManager.startMessage
  split
  case isTrue h =>
    cases hq : m.m_queue with
    | nil =>
      rw [hq] at hp
      exact absurd h.2 (by simp [hp])
    | cons i rest => exact Or.inr ⟨i, rest, rfl, rfl⟩
  case isFalse => exact Or.inl rfl

/-- The processors with their queue. -/
structure Pool (K : ι → Kind) where
  queue : QueueManager ι
  /-- The threads that are about to call `startProcessor`. -/
  callers : Nat
  /-- The processors that were started, in order. -/
  started : List ι
  procs : (i : ι) → State (K i)

inductive PoolMove (K : ι → Kind)
  /-- A request arrives: `addProcessor`. -/
  | add (i : ι)
  /-- `startProcessor`. -/
  | start
  /-- A step of a processor; a worker that deletes it calls `finishProcessor`. -/
  | run (i : ι) (l : Env (K i) × Move)

/-- Changing a test at one member of a list. -/
theorem filter_change {l : List ι} {i : ι} {p q : ι → Bool} (hn : l.Nodup) (hi : i ∈ l)
    (h : ∀ j, j ≠ i → q j = p j) :
    (l.filter q).length + (if p i then 1 else 0) = (l.filter p).length + if q i then 1 else 0 := by
  obtain ⟨l₁, l₂, rfl⟩ := List.append_of_mem hi
  have hnot := (List.nodup_middle.mp hn).notMem
  have h₁ : l₁.filter q = l₁.filter p := List.filter_congr fun j hj => h j fun e =>
    hnot (List.mem_append_left _ (e ▸ hj))
  have h₂ : l₂.filter q = l₂.filter p := List.filter_congr fun j hj => h j fun e =>
    hnot (List.mem_append_right _ (e ▸ hj))
  simp only [List.filter_append, List.filter_cons, h₁, h₂, List.length_append]
  cases p i <;> cases q i <;> simp <;> omega

variable {K : ι → Kind} [DecidableEq ι]

/-- One step of the pool; `first` is the state in which a processor is started. -/
def Pool.exec (M : (i : ι) → Code (K i)) (first : (i : ι) → State (K i)) (p : Pool K) :
    PoolMove K → Option (Pool K)
  | .add i =>
    if i ∈ p.queue.m_queue ∨ i ∈ p.started then none
    else some { p with queue := p.queue.addEntry i, callers := p.callers + 1 }
  | .start => match p.callers, p.queue.startMessage with
    | 0, _ => none
    | n + 1, (none, q) => some { p with queue := q, callers := n }
    | n + 1, (some i, q) => some
        { queue := q, callers := n, started := p.started ++ [i]
          procs := Function.update p.procs i (first i) }
  | .run i l =>
    if i ∈ p.started then match Processor.exec (M i) (p.procs i) l with
      | none => none
      | some t =>
        let procs := Function.update p.procs i t
        if t.core.status = .deleted then
          some { p with queue := p.queue.finishMessage, callers := p.callers + 1, procs := procs }
        else some { p with procs := procs }
    else none

/-- A pool in which nothing has arrived. -/
def Pool.init (procs : (i : ι) → State (K i)) : Pool K where
  queue := ⟨[], 10, 0, 0⟩
  callers := 0
  started := []
  procs := procs

/-- The processors that hold a slot. -/
def Pool.active (p : Pool K) : List ι :=
  p.started.filter fun i => (p.procs i).core.status ≠ .deleted

/-- A condition on the steps of the processors. -/
def PoolMove.Meets (C : (i : ι) → State (K i) → Env (K i) × Move → Prop) (p : Pool K) :
    PoolMove K → Prop
  | .run i l => C i (p.procs i) l
  | _ => True

/-- The runs of a pool in which the steps of the processors meet a condition. -/
abbrev PoolRun (M : (i : ι) → Code (K i)) (first : (i : ι) → State (K i))
    (C : (i : ι) → State (K i) → Env (K i) × Move → Prop) : Pool K → Pool K → Prop :=
  Reaches (fun p l q => p.exec M first l = some q) fun p l => l.Meets C p

structure Pool.Sane (M : (i : ι) → Code (K i)) (first : (i : ι) → State (K i))
    (C : (i : ι) → State (K i) → Env (K i) × Move → Prop) (p : Pool K) : Prop where
  pending : p.queue.m_pending = p.queue.m_queue.length
  nodup : (p.queue.m_queue ++ p.started).Nodup
  slots : p.queue.m_active = p.active.length
  run : ∀ i ∈ p.started, Run (M i) (C i) (first i) (p.procs i)

section Step

variable {M : (i : ι) → Code (K i)} {first : (i : ι) → State (K i)}
  {C : (i : ι) → State (K i) → Env (K i) × Move → Prop} {p q : Pool K}

omit [DecidableEq ι] in
theorem Pool.Sane.add {i : ι} (h : p.Sane M first C) (hi : i ∉ p.queue.m_queue ∧ i ∉ p.started) :
    Pool.Sane M first C { p with queue := p.queue.addEntry i, callers := p.callers + 1 } := by
  refine ⟨?_, ?_, h.slots, h.run⟩
  · simp [QueueManager.addEntry, h.pending]
  · have : (i :: (p.queue.m_queue ++ p.started)).Nodup :=
      List.nodup_cons.mpr ⟨by simp [hi.1, hi.2], h.nodup⟩
    show (p.queue.m_queue ++ [i] ++ p.started).Nodup
    rw [List.append_assoc]
    exact List.nodup_middle.mpr this

theorem Pool.Sane.start {i : ι} {rest : List ι} {n : Nat} (h : p.Sane M first C)
    (hq : p.queue.m_queue = i :: rest) (hf : (first i).core.status ≠ .deleted) :
    Pool.Sane M first C
      { queue := { p.queue with
          m_queue := rest, m_pending := p.queue.m_pending - 1, m_active := p.queue.m_active + 1 }
        callers := n, started := p.started ++ [i]
        procs := Function.update p.procs i (first i) } := by
  have hp := h.pending
  have hn := h.nodup
  rw [hq] at hp hn
  have hnot : i ∉ rest ++ p.started := (List.nodup_cons.mp hn).1
  have hstarted : i ∉ p.started := fun hi => hnot (List.mem_append_right _ hi)
  refine ⟨?_, ?_, ?_, ?_⟩
  · simp only [List.length_cons] at hp
    push_cast at hp
    simp only
    omega
  · show (rest ++ (p.started ++ [i])).Nodup
    rw [← List.append_assoc]
    exact List.nodup_append.mpr ⟨(List.nodup_cons.mp hn).2, List.nodup_singleton i, fun a ha b hb e =>
      hnot (by rw [← List.mem_singleton.mp hb, ← e]; exact ha)⟩
  · have hold : p.started.filter (fun j => (Function.update p.procs i (first i) j).core.status ≠
        .deleted) = p.active := List.filter_congr fun j hj => by
      have hne : j ≠ i := fun e => hstarted (e ▸ hj)
      rw [Function.update_of_ne hne]
    have hs := h.slots
    simp only [Pool.active, List.filter_append, List.length_append] at hs hold ⊢
    rw [hold, hs]
    simp [hf, Function.update_self]
  · intro j hj
    by_cases hji : j = i
    · subst hji
      simp only [Function.update_self]
      exact Reaches.refl _
    · simp only [Function.update_of_ne hji]
      refine h.run j ?_
      rcases List.mem_append.mp hj with hj | hj
      · exact hj
      · exact absurd (List.mem_singleton.mp hj) hji

/-- A step of a processor. -/
theorem Pool.Sane.proc {i : ι} {l : Env (K i) × Move} {t : State (K i)} {m : QueueManager ι}
    {n : Nat} (h : p.Sane M first C) (hi : i ∈ p.started) (hC : C i (p.procs i) l)
    (hx : Processor.exec (M i) (p.procs i) l = some t)
    (hm : m = if t.core.status = .deleted then p.queue.finishMessage else p.queue) :
    Pool.Sane M first C
      { p with queue := m, callers := n, procs := Function.update p.procs i t } := by
  have hq : m.m_queue = p.queue.m_queue ∧ m.m_pending = p.queue.m_pending := by
    rw [hm]
    split <;> exact ⟨rfl, rfl⟩
  refine ⟨?_, ?_, ?_, ?_⟩
  · show m.m_pending = m.m_queue.length
    rw [hq.1, hq.2]
    exact h.pending
  · show (m.m_queue ++ p.started).Nodup
    rw [hq.1]
    exact h.nodup
  · have hrun : (p.procs i).core.status = .running := (exec_cases hx).1
    have hc := filter_change (p := fun j => (p.procs j).core.status ≠ .deleted)
      (q := fun j => (Function.update p.procs i t j).core.status ≠ .deleted)
      (List.nodup_append.mp h.nodup).2.1 hi fun j hj => by rw [Function.update_of_ne hj]
    have hs := h.slots
    rw [if_pos (by simp [hrun])] at hc
    simp only [Function.update_self] at hc
    simp only [Pool.active] at hs ⊢
    rw [hm]
    split
    case isTrue hd =>
      rw [if_neg (by simp [hd])] at hc
      simp only [QueueManager.finishMessage]
      omega
    case isFalse hd =>
      rw [if_pos (by simp [hd])] at hc
      omega
  · intro j hj
    by_cases hji : j = i
    · subst hji
      simp only [Function.update_self]
      exact (h.run j hj).tail hC hx
    · simp only [Function.update_of_ne hji]
      exact h.run j hj

theorem Pool.Sane.step {l : PoolMove K} (h : p.Sane M first C)
    (hf : ∀ i, (first i).core.status ≠ .deleted)
    (hC : l.Meets C p) (hx : p.exec M first l = some q) : q.Sane M first C := by
  cases l with
  | add i =>
    simp only [Pool.exec] at hx
    split at hx
    case isTrue => cases hx
    case isFalse hi =>
      obtain rfl := Option.some.inj hx
      exact h.add (not_or.mp hi)
  | start =>
    simp only [Pool.exec] at hx
    rcases startMessage_cases p.queue h.pending with hs | ⟨i, rest, hq, hs⟩
    · rw [hs] at hx
      split at hx
      case h_1 => cases hx
      case h_2 he =>
        obtain rfl := Option.some.inj hx
        obtain ⟨_, rfl⟩ := Prod.mk.inj he
        exact ⟨h.pending, h.nodup, h.slots, h.run⟩
      case h_3 he => cases he
    · rw [hs] at hx
      split at hx
      case h_1 => cases hx
      case h_2 he => cases he
      case h_3 he =>
        obtain rfl := Option.some.inj hx
        obtain ⟨hi, rfl⟩ := Prod.mk.inj he
        obtain rfl := Option.some.inj hi
        exact h.start hq (hf i)
  | run i l =>
    simp only [Pool.exec] at hx
    split at hx
    case isFalse => cases hx
    case isTrue hi =>
      split at hx
      case h_1 => cases hx
      case h_2 t ht =>
        split at hx
        case isTrue hd =>
          obtain rfl := Option.some.inj hx
          exact h.proc hi hC ht (if_pos hd).symm
        case isFalse hd =>
          obtain rfl := Option.some.inj hx
          exact h.proc hi hC ht (if_neg hd).symm

/-- **The slots in use are those of the processors that are started and not deleted.** -/
theorem slots_held {procs : (i : ι) → State (K i)} (hf : ∀ i, (first i).core.status ≠ .deleted)
    (h : PoolRun M first C (Pool.init procs) p) :
    p.queue.m_active = p.active.length ∧
      ∀ i ∈ p.started, Run (M i) (C i) (first i) (p.procs i) := by
  have hs : p.Sane M first C := h.invariant (I := fun p => p.Sane M first C)
    ⟨rfl, List.nodup_nil, rfl, nofun⟩ fun _ _ _ hs hC hx => hs.step hf hC hx
  exact ⟨hs.slots, hs.run⟩

/-- A run of a processor that is started is one of the pool. -/
theorem poolRun_of_run {i : ι} {t : State (K i)} (hi : i ∈ p.started)
    (h : Run (M i) (C i) (p.procs i) t) :
    ∃ q, PoolRun M first C p q ∧ i ∈ q.started ∧ q.procs i = t := by
  refine h.invariant (I := fun t => ∃ q, PoolRun M first C p q ∧ i ∈ q.started ∧ q.procs i = t)
    ⟨p, Reaches.refl p, hi, rfl⟩ ?_
  rintro _ l t ⟨q, hq, hi, rfl⟩ hc hx
  have hproc : Function.update q.procs i t i = t := Function.update_self i t q.procs
  have hexec : q.exec M first (.run i l) = some
      (if t.core.status = .deleted then { q with
        queue := q.queue.finishMessage, callers := q.callers + 1
        procs := Function.update q.procs i t }
      else { q with procs := Function.update q.procs i t }) := by
    simp only [Pool.exec, if_pos hi, hx]
    split <;> rfl
  refine ⟨_, hq.tail (l := .run i l) hc hexec, ?_, ?_⟩
  · split <;> exact hi
  · split <;> exact hproc

variable (M first C) in
/-- The first request to arrive is started at once. -/
theorem arrives (procs : (i : ι) → State (K i)) (i : ι) :
    ∃ q, PoolRun M first C (Pool.init procs) q ∧ i ∈ q.started ∧ q.procs i = first i := by
  let p₁ : Pool K := { Pool.init procs with queue := ⟨[i], 10, 0, 1⟩, callers := 1 }
  let p₂ : Pool K :=
    ⟨⟨[], 10, 1, 0⟩, 0, [i], Function.update procs i (first i)⟩
  have h₁ : (Pool.init procs).exec M first (.add i) = some p₁ := by
    simp [Pool.exec, Pool.init, QueueManager.addEntry, p₁]
  have h₂ : p₁.exec M first .start = some p₂ := rfl
  exact ⟨p₂, ((Reaches.refl _).tail (l := .add i) trivial h₁).tail (l := .start) trivial h₂,
    List.mem_singleton_self i, Function.update_self i _ _⟩

end Step

end

end OpenairHss.Processor
