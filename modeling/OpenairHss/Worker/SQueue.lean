import OpenairHss.Lib.Steps
import OpenairHss.Lib.Threads

/-!
# The message queue of the threads

`SQueue::push` and `SQueue::pop` under any interleaving of any number of threads, where every
operation on the semaphore, on the mutex and on the `std::queue` is a step of its own, and where the
operations of the system may fail.

* `SQueue.Inv`: who holds the mutex, what the count of the semaphore and the threads account for, and
  where each message that was pushed is.
* `SQueue.exec_cases`: what one step does.
* `SQueue.reaches_inv`: the invariant along every run.
-/

namespace OpenairHss.Worker

open Steps Threads

/-- Where a thread is in a call of `push` or `pop`.  A call that ends or throws leaves it `idle`. -/
inductive Pc (μ : Type)
  | idle
  /-- `l.acquire(wait)` of `push` -/
  | pushAcquire (msg : μ) (wait : Bool)
  /-- `m_queue.push(msg)` -/
  | pushQueue (msg : μ)
  /-- `m_sem.increment()`; the message is the `k`-th that was pushed. -/
  | pushIncrement (k : Nat)
  /-- The destructor of the lock; `none` while an exception is thrown. -/
  | pushLeave (result : Option Nat)
  /-- `sem_getvalue` of `m_sem.decrement(false)` -/
  | popGetvalue
  /-- `sem_wait` of `m_sem.decrement(wait)` -/
  | popWait (wait : Bool)
  /-- `l.acquire(wait)` of `pop` -/
  | popAcquire (wait : Bool)
  /-- `m_queue.front()` -/
  | popFront
  /-- `m_queue.pop()` -/
  | popPop (msg : μ)
  /-- The destructor of the lock, and `return msg` -/
  | popLeave (msg : μ)
  /-- `m_sem.increment()` where the queue could not be locked -/
  | popGiveBack
deriving DecidableEq

def Pc.inside {μ : Type} : Pc μ → Bool
  | .pushQueue _ | .pushIncrement _ | .pushLeave _ | .popFront | .popPop _ | .popLeave _ => true
  | _ => false

/-- The messages of the queue that the thread accounts for: the count was taken and the message was
not, or the message is there and is not counted yet. -/
def Pc.claims {μ : Type} : Pc μ → Nat
  | .pushIncrement _ | .popAcquire _ | .popFront | .popPop _ | .popGiveBack => 1
  | _ => 0

structure SQueue (μ : Type) where
  m_mutex : Option Nat
  m_sem : Nat
  m_queue : List μ
  threads : List (Pc μ)
  /-- The front of the empty queue was taken. -/
  undefined : Bool
  /-- All messages, in the order they were put into the queue. -/
  pushed : List μ
  /-- The messages whose `push` returned true, as places in `pushed`, in the order of the returns. -/
  accepted : List Nat
  /-- The results of `pop` other than NULL, in the order of the returns. -/
  delivered : List μ
  /-- The messages whose count a failed operation has lost. -/
  lost : Nat
deriving DecidableEq

/-- What can happen: a thread starts, or calls `push` or `pop`; the next operation of a call is done,
or it fails. -/
inductive Act (μ : Type)
  | spawn
  | push (i : Nat) (msg : μ) (wait : Bool)
  | pop (i : Nat) (wait : Bool)
  | step (i : Nat)
  | fail (i : Nat)

namespace SQueue

variable {μ : Type}

def init : SQueue μ where
  m_mutex := none
  m_sem := 0
  m_queue := []
  threads := []
  undefined := false
  pushed := []
  accepted := []
  delivered := []
  lost := 0

def goto (s : SQueue μ) (i : Nat) (p : Pc μ) : SQueue μ := { s with threads := s.threads.set i p }

/-- The next operation of thread `i`, done.  `none`: there is none, or it blocks. -/
def advance (s : SQueue μ) (i : Nat) : Pc μ → Option (SQueue μ)
  | .idle => none
  | .pushAcquire msg _ =>
    if s.m_mutex = none then some { s.goto i (.pushQueue msg) with m_mutex := some i } else none
  | .pushQueue msg =>
    some { s.goto i (.pushIncrement s.pushed.length) with
      m_queue := s.m_queue ++ [msg], pushed := s.pushed ++ [msg] }
  | .pushIncrement k => some { s.goto i (.pushLeave (some k)) with m_sem := s.m_sem + 1 }
  | .pushLeave result =>
    some { s.goto i .idle with m_mutex := none, accepted := s.accepted ++ result.toList }
  | .popGetvalue => some (s.goto i (if s.m_sem = 0 then .idle else .popWait false))
  | .popWait wait =>
    if s.m_sem = 0 then none else some { s.goto i (.popAcquire wait) with m_sem := s.m_sem - 1 }
  | .popAcquire _ =>
    if s.m_mutex = none then some { s.goto i .popFront with m_mutex := some i } else none
  | .popFront =>
    match s.m_queue with
    | [] => some { s with undefined := true }
    | msg :: _ => some (s.goto i (.popPop msg))
  | .popPop msg => some { s.goto i (.popLeave msg) with m_queue := s.m_queue.tail }
  | .popLeave msg =>
    some { s.goto i .idle with m_mutex := none, delivered := s.delivered ++ [msg] }
  | .popGiveBack => some { s.goto i .idle with m_sem := s.m_sem + 1 }

/-- The next operation of thread `i`, failed.  With `wait` a mutex that cannot be locked is an
exception; the other operations always throw. -/
def failure (s : SQueue μ) (i : Nat) : Pc μ → Option (SQueue μ)
  | .pushAcquire _ _ => some (s.goto i .idle)
  | .pushIncrement _ => some { s.goto i (.pushLeave none) with lost := s.lost + 1 }
  | .popGetvalue | .popWait _ => some (s.goto i .idle)
  | .popAcquire true => some { s.goto i .idle with lost := s.lost + 1 }
  | .popAcquire false => some (s.goto i .popGiveBack)
  | .popGiveBack => some { s.goto i .idle with lost := s.lost + 1 }
  | _ => none

def exec (s : SQueue μ) : Act μ → Option (SQueue μ)
  | .spawn => some { s with threads := s.threads ++ [.idle] }
  | .push i msg wait =>
    match s.threads[i]? with
    | some .idle => some (s.goto i (.pushAcquire msg wait))
    | _ => none
  | .pop i wait =>
    match s.threads[i]? with
    | some .idle => some (s.goto i (if wait then .popWait true else .popGetvalue))
    | _ => none
  | .step i => s.threads[i]?.bind (s.advance i)
  | .fail i => s.threads[i]?.bind (s.failure i)

/-- All interleavings. -/
abbrev Runs : SQueue μ → SQueue μ → Prop := Reaches (fun s a t => s.exec a = some t) fun _ _ => True

/-! ### The invariant -/

/-- What is known while thread `i` is at `p`. -/
structure Fits (s : SQueue μ) (i : Nat) (p : Pc μ) : Prop where
  mutex : p.inside = true ↔ s.m_mutex = some i
  /-- The front that was read is still the front. -/
  front : ∀ msg, p = .popPop msg → s.m_queue.head? = some msg
  /-- The message that was pushed is still the last one. -/
  last : ∀ k, p = .pushIncrement k ∨ p = .pushLeave (some k) →
    k + 1 = s.pushed.length ∧ ∀ a ∈ s.accepted, a < k

/-- The message that the holder of the mutex has taken and not returned yet. -/
def carried (s : SQueue μ) : List μ :=
  match s.m_mutex.bind (s.threads[·]?) with
  | some (.popLeave msg) => [msg]
  | _ => []

structure Inv (s : SQueue μ) : Prop where
  fits : ∀ i p, s.threads[i]? = some p → s.Fits i p
  holder : ∀ i, s.m_mutex = some i → i < s.threads.length
  count : s.m_sem + tally Pc.claims s.threads + s.lost = s.m_queue.length
  order : s.pushed = s.delivered ++ (s.carried ++ s.m_queue)
  sorted : s.accepted.Pairwise (· < ·)
  placed : ∀ k ∈ s.accepted, k < s.pushed.length
  defined : s.undefined = false

theorem inv_init : (init : SQueue μ).Inv where
  fits i p h := absurd h (by simp [init])
  holder i h := absurd h (by simp [init])
  count := rfl
  order := rfl
  sorted := List.Pairwise.nil
  placed k h := absurd h List.not_mem_nil
  defined := rfl

variable {s t : SQueue μ} {i : Nat} {p q : Pc μ}

/-! ### Steps inside and outside of the mutex -/

/-- A step of a thread that neither has the mutex nor takes it. -/
theorem Inv.outside (h : s.Inv) (hi : s.threads[i]? = some p) (hp : p.inside = false)
    (hq : q.inside = false) {sem lost : Nat}
    (hcount : sem + q.claims + lost = s.m_sem + p.claims + s.lost) :
    Inv { s.goto i q with m_sem := sem, lost := lost } := by
  have howner : s.m_mutex ≠ some i := by
    intro ho
    rw [(h.fits i p hi).mutex.mpr ho] at hp
    exact absurd hp (by decide)
  refine { h with fits := ?_, holder := ?_, count := ?_, order := ?_ }
  · intro j r hj
    rcases getElem?_set_cases hj with ⟨rfl, rfl⟩ | ⟨hji, hj'⟩
    · refine ⟨?_, ?_, ?_⟩
      · rw [hq]
        exact ⟨fun hf => absurd hf (by decide), fun ho => absurd ho howner⟩
      · rintro msg rfl
        exact Bool.noConfusion hq
      · rintro k (rfl | rfl) <;> exact Bool.noConfusion hq
    · exact ⟨(h.fits j r hj').mutex, (h.fits j r hj').front, (h.fits j r hj').last⟩
  · intro j hj
    show j < (s.threads.set i q).length
    rw [List.length_set]
    exact h.holder j hj
  · have htally := tally_set (w := Pc.claims) (q := q) hi
    have hold := h.count
    show sem + tally Pc.claims (s.threads.set i q) + lost = s.m_queue.length
    omega
  · have hcarried : carried { s.goto i q with m_sem := sem, lost := lost } = s.carried := by
      cases hm : s.m_mutex with
      | none => simp only [carried, goto, hm, Option.bind_none]
      | some j =>
        have hji : i ≠ j := by
          rintro rfl
          exact howner hm
        simp only [carried, goto, hm, Option.bind_some, List.getElem?_set_ne hji]
    rw [hcarried]
    exact h.order

/-- A step after which only thread `i` can hold the mutex, and before which only it could. -/
theorem Inv.held (h : s.Inv) (hi : s.threads[i]? = some p)
    (hbefore : s.m_mutex = none ∨ s.m_mutex = some i)
    (hthreads : t.threads = s.threads.set i q) (hafter : t.m_mutex = none ∨ t.m_mutex = some i)
    (hfits : t.Fits i q)
    (hcount : t.m_sem + q.claims + t.lost + s.m_queue.length =
      s.m_sem + p.claims + s.lost + t.m_queue.length)
    {c : List μ} (hcarried : t.carried = c) (horder : t.pushed = t.delivered ++ (c ++ t.m_queue))
    (hsorted : t.accepted.Pairwise (· < ·)) (hplaced : ∀ k ∈ t.accepted, k < t.pushed.length)
    (hdefined : t.undefined = s.undefined) : t.Inv where
  fits := by
    intro j r hj
    rw [hthreads] at hj
    rcases getElem?_set_cases hj with ⟨rfl, rfl⟩ | ⟨hji, hj'⟩
    · exact hfits
    · have hout : r.inside = false := by
        cases hr : r.inside with
        | false => rfl
        | true =>
          have ho := (h.fits j r hj').mutex.mp hr
          rcases hbefore with hb | hb
          · rw [hb] at ho
            exact absurd ho (by simp)
          · rw [hb, Option.some.injEq] at ho
            exact absurd ho.symm hji
      refine ⟨?_, ?_, ?_⟩
      · rw [hout]
        refine ⟨fun hf => absurd hf (by decide), fun ho => ?_⟩
        rcases hafter with ha | ha
        · rw [ha] at ho
          exact absurd ho (by simp)
        · rw [ha, Option.some.injEq] at ho
          exact absurd ho.symm hji
      · rintro msg rfl
        exact Bool.noConfusion hout
      · rintro k (rfl | rfl) <;> exact Bool.noConfusion hout
  holder := by
    intro j hj
    rw [hthreads, List.length_set]
    rcases hafter with ha | ha
    · rw [ha] at hj
      exact absurd hj (by simp)
    · rw [ha, Option.some.injEq] at hj
      subst hj
      exact (List.getElem?_eq_some_iff.mp hi).1
  count := by
    have htally := tally_set (w := Pc.claims) (q := q) hi
    have hold := h.count
    rw [hthreads]
    omega
  order := by
    rw [hcarried]
    exact horder
  sorted := hsorted
  placed := hplaced
  defined := hdefined.trans h.defined

theorem carried_of_none (hm : s.m_mutex = none) : s.carried = [] := by
  rw [carried, hm]
  rfl

/-- What the holder of the mutex carries. -/
theorem carried_of_owner (hm : s.m_mutex = some i) (hi : s.threads[i]? = some p)
    (hp : ∀ msg, p ≠ .popLeave msg) : s.carried = [] := by
  rw [carried, hm, Option.bind_some, hi]
  cases p <;> first | rfl | exact absurd rfl (hp _)

theorem carried_of_set (hm : t.m_mutex = some i) (ht : t.threads = s.threads.set i q)
    (hi : s.threads[i]? = some p) (hq : ∀ msg, q ≠ .popLeave msg) : t.carried = [] := by
  refine carried_of_owner hm ?_ hq
  rw [ht]
  exact getElem?_set_self hi

/-! ### The steps of a call -/

theorem Inv.owner (h : s.Inv) (hi : s.threads[i]? = some p) (hp : p.inside = true) :
    s.m_mutex = some i :=
  (h.fits i p hi).mutex.mp hp

/-- The holder of the mutex has taken no message that it has not returned. -/
theorem Inv.order_of_owner (h : s.Inv) (hi : s.threads[i]? = some p) (hp : p.inside = true)
    (hne : ∀ msg, p ≠ .popLeave msg) : s.pushed = s.delivered ++ s.m_queue := by
  have hold := h.order
  rw [carried_of_owner (h.owner hi hp) hi hne] at hold
  exact hold

theorem Inv.nonempty (h : s.Inv) (hi : s.threads[i]? = some p) (hp : p.claims = 1) :
    s.m_queue ≠ [] := by
  intro hq
  have hclaim : p.claims ≤ tally Pc.claims s.threads := le_tally hi
  have hcount := h.count
  rw [hq, List.length_nil] at hcount
  omega

/-- The mutex is taken. -/
theorem Inv.acquire (h : s.Inv) (hi : s.threads[i]? = some p) (hm : s.m_mutex = none)
    (hclaims : q.claims = p.claims)
    (hq : q.inside = true ∧ (∀ msg, q ≠ .popPop msg) ∧ (∀ k, q ≠ .pushIncrement k) ∧
      (∀ result, q ≠ .pushLeave result) ∧ ∀ msg, q ≠ .popLeave msg) :
    Inv { s.goto i q with m_mutex := some i } := by
  obtain ⟨hinside, hpop, hinc, hleave, hcarry⟩ := hq
  refine h.held hi (Or.inl hm) rfl (Or.inr rfl) ⟨?_, ?_, ?_⟩ ?_ (carried_of_set rfl rfl hi hcarry) ?_
    h.sorted h.placed rfl
  · rw [hinside]
    exact ⟨fun _ => rfl, fun _ => rfl⟩
  · intro msg he
    exact absurd he (hpop msg)
  · rintro k (he | he)
    · exact absurd he (hinc k)
    · exact absurd he (hleave (some k))
  · rw [hclaims]
    rfl
  · have hold := h.order
    rw [carried_of_none hm] at hold
    exact hold

theorem Inv.pushQueue (h : s.Inv) {msg : μ} (hi : s.threads[i]? = some (.pushQueue msg)) :
    Inv { s.goto i (.pushIncrement s.pushed.length) with
      m_queue := s.m_queue ++ [msg], pushed := s.pushed ++ [msg] } := by
  have ho := h.owner hi rfl
  refine h.held hi (Or.inr ho) rfl (Or.inr ho) ⟨?_, ?_, ?_⟩ ?_
    (carried_of_set ho rfl hi (by simp)) ?_ h.sorted ?_ rfl
  · exact ⟨fun _ => ho, fun _ => rfl⟩
  · intro m he
    exact absurd he (by simp)
  · rintro k (he | he)
    · obtain rfl := Pc.pushIncrement.inj he
      refine ⟨?_, h.placed⟩
      show s.pushed.length + 1 = (s.pushed ++ [msg]).length
      rw [List.length_append, List.length_singleton]
    · exact absurd he (by simp)
  · show s.m_sem + 1 + s.lost + s.m_queue.length = s.m_sem + 0 + s.lost + (s.m_queue ++ [msg]).length
    rw [List.length_append, List.length_singleton]
    omega
  · have hold := h.order_of_owner hi rfl (by simp)
    show s.pushed ++ [msg] = s.delivered ++ (s.m_queue ++ [msg])
    rw [hold, List.append_assoc]
  · intro k hk
    show k < (s.pushed ++ [msg]).length
    have hlt := h.placed k hk
    rw [List.length_append]
    omega

/-- `m_sem.increment()` of `push`, done (`sem` is one more) or failed. -/
theorem Inv.pushIncrement (h : s.Inv) {k : Nat} (hi : s.threads[i]? = some (.pushIncrement k))
    {result : Option Nat} (hresult : result = some k ∨ result = none) {sem lost : Nat}
    (hcount : sem + lost = s.m_sem + 1 + s.lost) :
    Inv { s.goto i (.pushLeave result) with m_sem := sem, lost := lost } := by
  have ho := h.owner hi rfl
  refine h.held hi (Or.inr ho) rfl (Or.inr ho) ⟨?_, ?_, ?_⟩ ?_
    (carried_of_set ho rfl hi (by simp)) ?_ h.sorted h.placed rfl
  · exact ⟨fun _ => ho, fun _ => rfl⟩
  · intro m he
    exact absurd he (by simp)
  · rintro k' (he | he)
    · exact absurd he (by simp)
    · obtain rfl := Pc.pushLeave.inj he
      rcases hresult with hr | hr
      · obtain rfl := Option.some.inj hr
        exact (h.fits i _ hi).last k' (Or.inl rfl)
      · exact absurd hr (by simp)
  · show sem + 0 + lost + s.m_queue.length = s.m_sem + 1 + s.lost + s.m_queue.length
    omega
  · exact h.order_of_owner hi rfl (by simp)

theorem Inv.pushLeave (h : s.Inv) {result : Option Nat}
    (hi : s.threads[i]? = some (.pushLeave result)) :
    Inv { s.goto i .idle with m_mutex := none, accepted := s.accepted ++ result.toList } := by
  have ho := h.owner hi rfl
  have hlast : ∀ k ∈ result.toList, k + 1 = s.pushed.length ∧ ∀ a ∈ s.accepted, a < k := by
    intro k hk
    obtain rfl := Option.mem_toList.mp hk
    exact (h.fits i _ hi).last k (Or.inr rfl)
  refine h.held hi (Or.inr ho) rfl (Or.inl rfl) ⟨?_, ?_, ?_⟩ rfl (carried_of_none rfl)
    ?_ ?_ ?_ rfl
  · exact ⟨fun hf => Bool.noConfusion hf, fun hf => absurd hf (by simp)⟩
  · intro m he
    exact absurd he (by simp)
  · rintro k' (he | he) <;> exact absurd he (by simp)
  · exact h.order_of_owner hi rfl (by simp)
  · refine List.pairwise_append.mpr ⟨h.sorted, ?_, fun a ha k hk => (hlast k hk).2 a ha⟩
    cases result with
    | none => exact List.Pairwise.nil
    | some k => exact List.pairwise_singleton _ k
  · intro k hk
    show k < s.pushed.length
    rcases List.mem_append.mp hk with hk | hk
    · exact h.placed k hk
    · have hl := (hlast k hk).1
      omega

theorem Inv.popFront (h : s.Inv) (hi : s.threads[i]? = some .popFront) {msg : μ} {rest : List μ}
    (hq : s.m_queue = msg :: rest) : Inv (s.goto i (.popPop msg)) := by
  have ho := h.owner hi rfl
  refine h.held hi (Or.inr ho) rfl (Or.inr ho) ⟨?_, ?_, ?_⟩ rfl
    (carried_of_set ho rfl hi (by simp)) ?_ h.sorted h.placed rfl
  · exact ⟨fun _ => ho, fun _ => rfl⟩
  · intro m he
    obtain rfl := Pc.popPop.inj he
    show s.m_queue.head? = _
    rw [hq]
    rfl
  · rintro k' (he | he) <;> exact absurd he (by simp)
  · exact h.order_of_owner hi rfl (by simp)

theorem Inv.popPop (h : s.Inv) {msg : μ} (hi : s.threads[i]? = some (.popPop msg)) :
    Inv { s.goto i (.popLeave msg) with m_queue := s.m_queue.tail } := by
  have ho := h.owner hi rfl
  obtain ⟨rest, hq⟩ := List.head?_eq_some_iff.mp ((h.fits i _ hi).front msg rfl)
  have hcarried : carried { s.goto i (.popLeave msg) with m_queue := s.m_queue.tail } = [msg] := by
    show (match s.m_mutex.bind ((s.threads.set i (.popLeave msg))[·]?) with
      | some (.popLeave m) => [m]
      | _ => []) = _
    rw [ho, Option.bind_some, getElem?_set_self hi]
  refine h.held hi (Or.inr ho) rfl (Or.inr ho) ⟨?_, ?_, ?_⟩ ?_ hcarried ?_ h.sorted h.placed rfl
  · exact ⟨fun _ => ho, fun _ => rfl⟩
  · intro m he
    exact absurd he (by simp)
  · rintro k' (he | he) <;> exact absurd he (by simp)
  · show s.m_sem + 0 + s.lost + s.m_queue.length = s.m_sem + 1 + s.lost + s.m_queue.tail.length
    rw [hq, List.tail_cons, List.length_cons]
    omega
  · have hold := h.order_of_owner hi rfl (by simp)
    show s.pushed = s.delivered ++ ([msg] ++ s.m_queue.tail)
    rw [hold, hq]
    rfl

theorem Inv.popLeave (h : s.Inv) {msg : μ} (hi : s.threads[i]? = some (.popLeave msg)) :
    Inv { s.goto i .idle with m_mutex := none, delivered := s.delivered ++ [msg] } := by
  have ho := h.owner hi rfl
  have hcarried : s.carried = [msg] := by
    rw [carried, ho, Option.bind_some, hi]
  refine h.held hi (Or.inr ho) rfl (Or.inl rfl) ⟨?_, ?_, ?_⟩ rfl (carried_of_none rfl) ?_
    h.sorted h.placed rfl
  · exact ⟨fun hf => Bool.noConfusion hf, fun hf => absurd hf (by simp)⟩
  · intro m he
    exact absurd he (by simp)
  · rintro k' (he | he) <;> exact absurd he (by simp)
  · have hold := h.order
    rw [hcarried] at hold
    show s.pushed = (s.delivered ++ [msg]) ++ s.m_queue
    rw [hold, List.append_assoc]

theorem Inv.advance (h : s.Inv) (hi : s.threads[i]? = some p) (ht : s.advance i p = some t) :
    t.Inv := by
  cases p with
  | idle => exact absurd ht (by simp [SQueue.advance])
  | pushAcquire msg wait =>
    obtain ⟨hm, he⟩ := Option.ite_none_right_eq_some.mp ht
    obtain rfl := Option.some.inj he
    exact h.acquire hi hm rfl ⟨rfl, by simp, by simp, by simp, by simp⟩
  | pushQueue msg =>
    obtain rfl := Option.some.inj ht
    exact h.pushQueue hi
  | pushIncrement k =>
    obtain rfl := Option.some.inj ht
    exact h.pushIncrement hi (Or.inl rfl) rfl
  | pushLeave result =>
    obtain rfl := Option.some.inj ht
    exact h.pushLeave hi
  | popGetvalue =>
    obtain rfl := Option.some.inj ht
    split
    case isTrue => exact h.outside hi rfl rfl rfl
    case isFalse => exact h.outside hi rfl rfl rfl
  | popWait wait =>
    obtain ⟨hm, he⟩ := Option.ite_none_left_eq_some.mp ht
    obtain rfl := Option.some.inj he
    refine h.outside hi rfl rfl ?_
    show s.m_sem - 1 + 1 + s.lost = s.m_sem + 0 + s.lost
    omega
  | popAcquire wait =>
    obtain ⟨hm, he⟩ := Option.ite_none_right_eq_some.mp ht
    obtain rfl := Option.some.inj he
    exact h.acquire hi hm rfl ⟨rfl, by simp, by simp, by simp, by simp⟩
  | popFront =>
    -- the count that was taken is the one of a message that is still there
    cases hq : s.m_queue with
    | nil => exact absurd hq (h.nonempty hi rfl)
    | cons msg rest =>
      rw [SQueue.advance, hq] at ht
      obtain rfl := Option.some.inj ht
      exact h.popFront hi hq
  | popPop msg =>
    obtain rfl := Option.some.inj ht
    exact h.popPop hi
  | popLeave msg =>
    obtain rfl := Option.some.inj ht
    exact h.popLeave hi
  | popGiveBack =>
    obtain rfl := Option.some.inj ht
    exact h.outside hi rfl rfl rfl

theorem Inv.failure (h : s.Inv) (hi : s.threads[i]? = some p) (ht : s.failure i p = some t) :
    t.Inv := by
  cases p with
  | pushAcquire msg wait | popGetvalue | popWait wait =>
    obtain rfl := Option.some.inj ht
    exact h.outside hi rfl rfl rfl
  | pushIncrement k =>
    obtain rfl := Option.some.inj ht
    refine h.pushIncrement hi (Or.inr rfl) ?_
    show s.m_sem + (s.lost + 1) = s.m_sem + 1 + s.lost
    omega
  | popAcquire wait =>
    cases wait with
    | false =>
      obtain rfl := Option.some.inj ht
      exact h.outside hi rfl rfl rfl
    | true =>
      obtain rfl := Option.some.inj ht
      refine h.outside hi rfl rfl ?_
      show s.m_sem + 0 + (s.lost + 1) = s.m_sem + 1 + s.lost
      omega
  | popGiveBack =>
    obtain rfl := Option.some.inj ht
    refine h.outside hi rfl rfl ?_
    show s.m_sem + 0 + (s.lost + 1) = s.m_sem + 1 + s.lost
    omega
  | idle | pushQueue | pushLeave | popFront | popPop | popLeave =>
    exact absurd ht (by simp [SQueue.failure])

theorem Inv.spawn (h : s.Inv) : Inv { s with threads := s.threads ++ [.idle] } := by
  refine { h with fits := ?_, holder := ?_, count := ?_, order := ?_ }
  · intro j r hj
    by_cases hlt : j < s.threads.length
    · have hold := h.fits j r ((List.getElem?_append_left hlt).symm.trans hj)
      exact ⟨hold.mutex, hold.front, hold.last⟩
    · have hnew := (List.getElem?_append_right (Nat.le_of_not_lt hlt)).symm.trans hj
      obtain rfl := List.mem_singleton.mp (List.mem_of_getElem? hnew)
      refine ⟨⟨fun hf => Bool.noConfusion hf, fun ho => absurd (h.holder j ho) hlt⟩, ?_, ?_⟩
      · intro m he
        exact absurd he (by simp)
      · rintro k (he | he) <;> exact absurd he (by simp)
  · intro j hj
    show j < (s.threads ++ [Pc.idle]).length
    rw [List.length_append]
    exact Nat.lt_add_right _ (h.holder j hj)
  · have hold := h.count
    show s.m_sem + tally Pc.claims (s.threads ++ [Pc.idle]) + s.lost = s.m_queue.length
    rw [tally_append]
    exact hold
  · have hcarried : carried { s with threads := s.threads ++ [.idle] } = s.carried := by
      cases hm : s.m_mutex with
      | none => simp only [carried, hm, Option.bind_none]
      | some j =>
        simp only [carried, hm, Option.bind_some, List.getElem?_append_left (h.holder j hm)]
    rw [hcarried]
    exact h.order

theorem Inv.exec (h : s.Inv) {a : Act μ} (ht : s.exec a = some t) : t.Inv := by
  cases a with
  | spawn =>
    obtain rfl := Option.some.inj ht
    exact h.spawn
  | push i msg wait =>
    rw [SQueue.exec] at ht
    split at ht
    case h_1 hi =>
      obtain rfl := Option.some.inj ht
      exact h.outside hi rfl rfl rfl
    case h_2 => exact absurd ht (by simp)
  | pop i wait =>
    rw [SQueue.exec] at ht
    split at ht
    case h_1 hi =>
      obtain rfl := Option.some.inj ht
      cases wait with
      | true => exact h.outside hi rfl rfl rfl
      | false => exact h.outside hi rfl rfl rfl
    case h_2 => exact absurd ht (by simp)
  | step i =>
    obtain ⟨p, hi, hp⟩ := Option.bind_eq_some_iff.mp ht
    exact h.advance hi hp
  | fail i =>
    obtain ⟨p, hi, hp⟩ := Option.bind_eq_some_iff.mp ht
    exact h.failure hi hp

theorem reaches_inv (h : Runs (init : SQueue μ) s) : s.Inv :=
  h.invariant inv_init fun _ _ _ hs _ ht => hs.exec ht

/-! ### What the queue does -/

/-- **Every message is delivered at most once, in the order of the pushes**: `pop` never takes the
front of the empty queue, the `k`-th message that `pop` returns is the `k`-th that was pushed, the
calls of `push` return true in the order of their messages, and the count of the semaphore never
exceeds the number of messages. -/
theorem push_pop_fifo (h : Runs (init : SQueue μ) s) :
    s.undefined = false ∧ s.delivered <+: s.pushed ∧
      s.accepted.Pairwise (· < ·) ∧ (∀ k ∈ s.accepted, k < s.pushed.length) ∧
      s.m_sem ≤ s.m_queue.length := by
  have hinv := reaches_inv h
  have hcount := hinv.count
  exact ⟨hinv.defined, ⟨_, hinv.order.symm⟩, hinv.sorted, hinv.placed, by omega⟩

/-- A thread pushes two messages, another one takes the first, and its call of `pop(false)` finds the
mutex broken. -/
def sampleActs : List (Act Nat) :=
  [.spawn, .spawn, .push 0 7 true, .step 0, .pop 1 true, .step 0, .step 0, .step 1, .step 0, .step 1,
    .push 0 8 false, .step 1, .step 1, .step 1, .step 0, .step 0, .step 0, .step 0, .pop 1 false,
    .step 1, .step 1, .fail 1]

theorem push_pop_fifo_sample :
    ∃ s : SQueue Nat, runAll exec sampleActs init = some s ∧
      s.delivered = [7] ∧ s.pushed = [7, 8] ∧ s.accepted = [0, 1] ∧ s.m_sem = 0 ∧
      (s.undefined = false ∧ s.delivered <+: s.pushed ∧
        s.accepted.Pairwise (· < ·) ∧ (∀ k ∈ s.accepted, k < s.pushed.length) ∧
        s.m_sem ≤ s.m_queue.length) :=
  ⟨_, rfl, by decide, by decide, by decide, by decide,
    push_pop_fifo (Reaches.of_runAll exec _ (fun _ _ _ => trivial)
      (rfl : runAll exec sampleActs init = some _))⟩

/-- Only one thread at a time is between `acquire` and the destructor of the lock. -/
theorem exclusive (h : Runs (init : SQueue μ) s) {j : Nat} (hi : s.threads[i]? = some p)
    (hj : s.threads[j]? = some q) (hp : p.inside = true) (hq : q.inside = true) : i = j := by
  have hinv := reaches_inv h
  have howner := (hinv.owner hi hp).symm.trans (hinv.owner hj hq)
  exact Option.some.inj howner

/-- No message waits uncounted once the calls have ended: as long as no operation failed, a message
that is left in the queue is one that the next `pop` gets. -/
theorem counted_at_rest (h : Runs (init : SQueue μ) s) (hlost : s.lost = 0)
    (hrest : ∀ p ∈ s.threads, p.claims = 0) : s.m_sem = s.m_queue.length := by
  have hzero : tally Pc.claims s.threads = 0 := by
    refine List.sum_eq_zero fun n hn => ?_
    obtain ⟨p, hp, rfl⟩ := List.mem_map.mp hn
    exact hrest p hp
  have hcount := (reaches_inv h).count
  omega

end SQueue

end OpenairHss.Worker
