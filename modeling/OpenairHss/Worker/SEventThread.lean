import OpenairHss.Lib.Steps

/-!
# How an event thread is suspended

`SThread` counts in `mSuspendCnt` how often it has been suspended, and has two semaphores: the thread
tells with `mSuspended` that it stops, and waits on `mSuspendSem`.  `SEventThread::suspend` posts a
message on which the thread stops.  One other thread makes the calls, and everybody posts messages.

* `Inv`: what the two semaphores account for.
* `suspended_stopped`: a thread that was suspended has stopped.
* `resumed_iff`: when a thread that was resumed goes on.
-/

namespace OpenairHss.Worker.SEventThread

open Steps

inductive Message
  | suspend
  | quit
  /-- Every other message -/
  | other
deriving DecidableEq

inductive ThreadPc
  /-- Before `pthread_create` -/
  | none
  /-- `mSuspendSem.decrement()` of `_threadProc` -/
  | start
  /-- `mState = rsRunning`, with the mutex -/
  | setRunning
  | pop
  | handle
  /-- `mSuspended.increment()` of `_suspend` -/
  | tell
  /-- `mSuspendSem.decrement()` of `_suspend` -/
  | wait
  /-- `mState = rsDoneRunning` -/
  | setDone
  | ended
deriving DecidableEq

/-- Where the thread that makes the calls is. -/
inductive OwnerPc
  | idle
  /-- `mSuspendCnt--` of `resume`; `true` in `init`, which has the mutex. -/
  | count (inInit : Bool)
  | increment (inInit : Bool)
  /-- The loop at the end of `SThread::init` -/
  | initWait
  /-- `postMessage(ETM_INIT)` -/
  | initPost
  /-- `postMessage(ETM_SUSPEND)` -/
  | suspendPost
  /-- `mSuspendCnt++` of `suspend` -/
  | suspendCount
  /-- `mSuspended.decrement()` of `suspend` -/
  | suspendWait
deriving DecidableEq

inductive RunState
  | waitingToRun
  | running
  | doneRunning
deriving DecidableEq

structure SThread where
  mState : RunState
  mInitialized : Bool
  mSuspendCnt : Nat
  mSuspended : Nat
  mSuspendSem : Nat
  m_events : List Message
  thread : ThreadPc
  owner : OwnerPc
  /-- The calls of `suspend` that found the thread suspended. -/
  nested : Nat
deriving DecidableEq

/-- A call of the owner, its next operation, a message of another thread, and the next operation of
the thread. -/
inductive Act
  | init (suspended : Bool)
  | resume
  | suspend
  | owner
  | post (m : Message)
  | thread

namespace SThread

def new : SThread where
  mState := .waitingToRun
  mInitialized := false
  mSuspendCnt := 1
  mSuspended := 0
  mSuspendSem := 0
  m_events := []
  thread := .none
  owner := .idle
  nested := 0

/-- The owner has the mutex for more than one step. -/
def locked (s : SThread) : Bool := s.owner = .count true ∨ s.owner = .increment true

/-- The end of `resume` -/
def afterResume (inInit : Bool) : OwnerPc := if inInit then .initWait else .idle

/-- The next operation of the owner.  `none`: there is none, or it blocks. -/
def ownerStep (s : SThread) : Option SThread :=
  match s.owner with
  | .idle => none
  | .count inInit =>
    if 0 < s.mSuspendCnt then
      some { s with
        mSuspendCnt := s.mSuspendCnt - 1
        owner := if s.mSuspendCnt - 1 = 0 then .increment inInit else afterResume inInit }
    else some { s with owner := afterResume inInit }
  | .increment inInit =>
    some { s with mSuspendSem := s.mSuspendSem + 1, owner := afterResume inInit }
  | .initWait =>
    -- it yields as long as the thread is about to run
    if s.mSuspendCnt = 0 ∧ s.mState = .waitingToRun then none else some { s with owner := .initPost }
  | .initPost => some { s with m_events := s.m_events ++ [.other], owner := .idle }
  | .suspendPost => some { s with m_events := s.m_events ++ [.suspend], owner := .suspendCount }
  | .suspendCount =>
    if s.mSuspendCnt = 0 then some { s with mSuspendCnt := 1, owner := .suspendWait }
    else some { s with mSuspendCnt := s.mSuspendCnt + 1, owner := .idle, nested := s.nested + 1 }
  | .suspendWait =>
    if s.mSuspended = 0 then none
    else some { s with mSuspended := s.mSuspended - 1, owner := .idle }

/-- The next operation of the thread. -/
def threadStep (s : SThread) : Option SThread :=
  match s.thread with
  | .none | .ended => none
  | .start =>
    if s.mSuspendSem = 0 then none
    else some { s with mSuspendSem := s.mSuspendSem - 1, thread := .setRunning }
  | .setRunning => if s.locked then none else some { s with mState := .running, thread := .pop }
  | .pop =>
    match s.m_events with
    | [] => none
    | .suspend :: rest => some { s with m_events := rest, thread := .tell }
    | .quit :: rest => some { s with m_events := rest, thread := .setDone }
    | .other :: rest => some { s with m_events := rest, thread := .handle }
  | .handle => some { s with thread := .pop }
  | .tell => some { s with mSuspended := s.mSuspended + 1, thread := .wait }
  | .wait =>
    if s.mSuspendSem = 0 then none
    else some { s with mSuspendSem := s.mSuspendSem - 1, thread := .pop }
  | .setDone => if s.locked then none else some { s with mState := .doneRunning, thread := .ended }

/-- A call that throws leaves everything as it is. -/
def exec (s : SThread) : Act → Option SThread
  | .init suspended =>
    if s.owner = .idle then
      if s.mInitialized then some s
      else some { s with
        mInitialized := true
        thread := .start
        mSuspendCnt := if suspended then s.mSuspendCnt + 1 else s.mSuspendCnt
        owner := .count true }
    else none
  | .resume =>
    if s.owner = .idle then
      if s.mInitialized then some { s with owner := .count false } else some s
    else none
  | .suspend => if s.owner = .idle then some { s with owner := .suspendPost } else none
  | .owner => s.ownerStep
  | .post m => if m = .suspend then none else some { s with m_events := s.m_events ++ [m] }
  | .thread => s.threadStep

/-- All interleavings. -/
abbrev Runs : SThread → SThread → Prop := Reaches (fun s a t => s.exec a = some t) fun _ _ => True

/-! ### What the semaphores account for -/

end SThread

/-- The thread needs a wake-up to go on. -/
def ThreadPc.asleep : ThreadPc → Nat
  | .none | .start | .tell | .wait => 1
  | _ => 0

def ThreadPc.telling : ThreadPc → Nat
  | .tell => 1
  | _ => 0

def OwnerPc.posted : OwnerPc → Nat
  | .suspendCount => 1
  | _ => 0

def OwnerPc.waking : OwnerPc → Nat
  | .increment _ => 1
  | _ => 0

def OwnerPc.waiting : OwnerPc → Nat
  | .suspendWait => 1
  | _ => 0

namespace SThread

/-- The suspensions that the thread has still ahead. -/
def ahead (s : SThread) : Nat := s.m_events.count .suspend

/-- The thread is not suspended. -/
def awake (s : SThread) : Nat := if s.mSuspendCnt = 0 then 1 else 0

structure Inv (s : SThread) : Prop where
  wakes : s.nested + s.owner.posted + s.mSuspendSem + s.owner.waking + 1 =
    s.ahead + s.thread.asleep + s.awake
  tells : s.mSuspended + s.ahead + s.thread.telling = s.nested + s.owner.posted + s.owner.waiting
  fresh : s.mInitialized = false →
    0 < s.mSuspendCnt ∧ s.thread = .none ∧ ∀ inInit, s.owner ≠ .count inInit
  created : s.mInitialized = true → s.thread ≠ .none

theorem inv_new : new.Inv where
  wakes := rfl
  tells := rfl
  fresh _ := ⟨Nat.one_pos, rfl, by simp [new]⟩
  created h := absurd h (by simp [new])

variable {s t : SThread}

theorem posted_afterResume (b : Bool) : (afterResume b).posted = 0 := by cases b <;> rfl
theorem waking_afterResume (b : Bool) : (afterResume b).waking = 0 := by cases b <;> rfl
theorem waiting_afterResume (b : Bool) : (afterResume b).waiting = 0 := by cases b <;> rfl

theorem afterResume_ne (b b' : Bool) : afterResume b ≠ .count b' := by
  cases b <;> exact fun h => OwnerPc.noConfusion h

/-- A step of the owner outside of `resume` and `suspend` changes nothing that is accounted for. -/
theorem Inv.goto (h : s.Inv) {p : OwnerPc} (hposted : p.posted = s.owner.posted)
    (hwaking : p.waking = s.owner.waking) (hwaiting : p.waiting = s.owner.waiting)
    (hfresh : s.mInitialized = false → ∀ inInit, p ≠ .count inInit) :
    Inv { s with owner := p } where
  wakes := by
    show s.nested + p.posted + s.mSuspendSem + p.waking + 1 = _
    rw [hposted, hwaking]
    exact h.wakes
  tells := by
    show _ = s.nested + p.posted + p.waiting
    rw [hposted, hwaiting]
    exact h.tells
  fresh hf := ⟨(h.fresh hf).1, (h.fresh hf).2.1, hfresh hf⟩
  created := h.created

/-- `mSuspendCnt--` -/
theorem Inv.count (h : s.Inv) {inInit : Bool} (howner : s.owner = .count inInit)
    (hpos : 0 < s.mSuspendCnt) : Inv { s with
      mSuspendCnt := s.mSuspendCnt - 1
      owner := if s.mSuspendCnt - 1 = 0 then .increment inInit else afterResume inInit } := by
  have hwakes := h.wakes
  have htells := h.tells
  have hawake : s.awake = 0 := if_neg (Nat.pos_iff_ne_zero.mp hpos)
  rw [howner] at hwakes htells
  refine ⟨?_, ?_, fun hf => absurd howner ((h.fresh hf).2.2 inInit), h.created⟩
  · by_cases hlast : s.mSuspendCnt - 1 = 0
    · show s.nested + OwnerPc.posted (if _ then _ else _) + s.mSuspendSem +
        OwnerPc.waking (if _ then _ else _) + 1 = s.ahead + s.thread.asleep + (if _ then _ else _)
      rw [if_pos hlast, if_pos hlast]
      simp only [OwnerPc.posted, OwnerPc.waking] at hwakes ⊢
      omega
    · show s.nested + OwnerPc.posted (if _ then _ else _) + s.mSuspendSem +
        OwnerPc.waking (if _ then _ else _) + 1 = s.ahead + s.thread.asleep + (if _ then _ else _)
      rw [if_neg hlast, if_neg hlast, posted_afterResume, waking_afterResume]
      simp only [OwnerPc.posted, OwnerPc.waking] at hwakes ⊢
      omega
  · show s.mSuspended + s.ahead + s.thread.telling = s.nested + OwnerPc.posted (if _ then _ else _) +
      OwnerPc.waiting (if _ then _ else _)
    split
    · exact htells
    · rw [posted_afterResume, waiting_afterResume]
      exact htells

theorem Inv.ownerStep (h : s.Inv) (ht : s.ownerStep = some t) : t.Inv := by
  have hwakes := h.wakes
  have htells := h.tells
  have hfresh := h.fresh
  unfold SThread.ownerStep at ht
  split at ht
  case h_1 => exact absurd ht (by simp)
  case h_2 inInit howner =>
    split at ht
    case isTrue hpos =>
      obtain rfl := Option.some.inj ht
      exact h.count howner hpos
    case isFalse hpos =>
      obtain rfl := Option.some.inj ht
      refine h.goto ?_ ?_ ?_ fun hf => absurd howner ((hfresh hf).2.2 inInit)
      · rw [howner, posted_afterResume]; rfl
      · rw [howner, waking_afterResume]; rfl
      · rw [howner, waiting_afterResume]; rfl
  case h_3 inInit howner =>
    obtain rfl := Option.some.inj ht
    rw [howner] at hwakes htells
    refine ⟨?_, ?_, fun hf => ⟨(hfresh hf).1, (hfresh hf).2.1, afterResume_ne inInit⟩, h.created⟩
    · show s.nested + (afterResume inInit).posted + (s.mSuspendSem + 1) +
        (afterResume inInit).waking + 1 = s.ahead + s.thread.asleep + s.awake
      rw [posted_afterResume, waking_afterResume, ← hwakes]
      simp only [OwnerPc.posted, OwnerPc.waking]
      omega
    · show _ = s.nested + (afterResume inInit).posted + (afterResume inInit).waiting
      rw [posted_afterResume, waiting_afterResume]
      exact htells
  case h_4 howner =>
    obtain ⟨-, hs⟩ := Option.ite_none_left_eq_some.mp ht
    obtain rfl := Option.some.inj hs
    exact h.goto (by rw [howner]; rfl) (by rw [howner]; rfl) (by rw [howner]; rfl) (by simp)
  case h_5 howner =>
    obtain rfl := Option.some.inj ht
    rw [howner] at hwakes htells
    have hahead : (s.m_events ++ [Message.other]).count .suspend = s.ahead := by
      rw [List.count_append]; rfl
    refine ⟨?_, ?_, fun hf => ⟨(hfresh hf).1, (hfresh hf).2.1, by simp⟩, h.created⟩
    · show _ = (s.m_events ++ [Message.other]).count .suspend + s.thread.asleep + s.awake
      rw [hahead]
      exact hwakes
    · show s.mSuspended + (s.m_events ++ [Message.other]).count .suspend + s.thread.telling = _
      rw [hahead]
      exact htells
  case h_6 howner =>
    obtain rfl := Option.some.inj ht
    rw [howner] at hwakes htells
    have hahead : (s.m_events ++ [Message.suspend]).count .suspend = s.ahead + 1 := by
      rw [List.count_append]; rfl
    refine ⟨?_, ?_, fun hf => ⟨(hfresh hf).1, (hfresh hf).2.1, by simp⟩, h.created⟩
    · show s.nested + 1 + s.mSuspendSem + 0 + 1 =
        (s.m_events ++ [Message.suspend]).count .suspend + s.thread.asleep + s.awake
      simp only [OwnerPc.posted, OwnerPc.waking] at hwakes
      omega
    · show s.mSuspended + (s.m_events ++ [Message.suspend]).count .suspend + s.thread.telling =
        s.nested + 1 + 0
      simp only [OwnerPc.posted, OwnerPc.waiting] at htells
      omega
  case h_7 howner =>
    rw [howner] at hwakes htells
    simp only [OwnerPc.posted, OwnerPc.waking, OwnerPc.waiting] at hwakes htells
    split at ht
    case isTrue hzero =>
      obtain rfl := Option.some.inj ht
      have hawake : s.awake = 1 := if_pos hzero
      refine ⟨?_, ?_, fun hf => absurd (hfresh hf).1 (by omega), h.created⟩
      · show s.nested + 0 + s.mSuspendSem + 0 + 1 = s.ahead + s.thread.asleep + 0
        omega
      · show s.mSuspended + s.ahead + s.thread.telling = s.nested + 0 + 1
        omega
    case isFalse hpos =>
      obtain rfl := Option.some.inj ht
      have hawake : s.awake = 0 := if_neg hpos
      refine ⟨?_, ?_, fun hf => ⟨Nat.succ_pos _, (hfresh hf).2.1, by simp⟩, h.created⟩
      · show s.nested + 1 + 0 + s.mSuspendSem + 0 + 1 = s.ahead + s.thread.asleep + 0
        omega
      · show s.mSuspended + s.ahead + s.thread.telling = s.nested + 1 + 0 + 0
        omega
  case h_8 howner =>
    obtain ⟨hpos, hs⟩ := Option.ite_none_left_eq_some.mp ht
    obtain rfl := Option.some.inj hs
    rw [howner] at hwakes htells
    refine ⟨hwakes, ?_, fun hf => ⟨(hfresh hf).1, (hfresh hf).2.1, by simp⟩, h.created⟩
    show s.mSuspended - 1 + s.ahead + s.thread.telling = s.nested + 0 + 0
    simp only [OwnerPc.posted, OwnerPc.waiting] at htells
    omega

/-- A step of the thread: what the semaphores and the queue lose and get. -/
theorem Inv.thread (h : s.Inv) (hinit : s.mInitialized = true) {p : ThreadPc} (hp : p ≠ .none)
    {state : RunState} {suspended sem : Nat} {events : List Message}
    (hwakes : sem + s.ahead + s.thread.asleep = s.mSuspendSem + events.count .suspend + p.asleep)
    (htells : suspended + events.count .suspend + p.telling =
      s.mSuspended + s.ahead + s.thread.telling) :
    Inv { s with mState := state, mSuspended := suspended, mSuspendSem := sem
                 m_events := events, thread := p } where
  wakes := by
    have hold := h.wakes
    show s.nested + s.owner.posted + sem + s.owner.waking + 1 =
      events.count .suspend + p.asleep + s.awake
    omega
  tells := by
    have hold := h.tells
    show suspended + events.count .suspend + p.telling = s.nested + s.owner.posted + s.owner.waiting
    omega
  fresh hf := absurd hf (by simp [hinit])
  created _ := hp

theorem Inv.threadStep (h : s.Inv) (ht : s.threadStep = some t) : t.Inv := by
  have hinit : s.thread ≠ .none → s.mInitialized = true := by
    intro hthread
    cases hi : s.mInitialized with
    | true => rfl
    | false => exact absurd (h.fresh hi).2.1 hthread
  unfold SThread.threadStep at ht
  split at ht
  case h_1 => exact absurd ht (by simp)
  case h_2 => exact absurd ht (by simp)
  case h_3 hthread =>
    obtain ⟨hpos, hs⟩ := Option.ite_none_left_eq_some.mp ht
    obtain rfl := Option.some.inj hs
    refine h.thread (hinit (by simp [hthread])) (by simp) ?_ ?_
    · rw [hthread]
      simp only [ThreadPc.asleep, ahead]
      omega
    · rw [hthread]; rfl
  case h_4 hthread =>
    obtain ⟨-, hs⟩ := Option.ite_none_left_eq_some.mp ht
    obtain rfl := Option.some.inj hs
    exact h.thread (hinit (by simp [hthread])) (by simp) (by rw [hthread]; rfl) (by rw [hthread]; rfl)
  case h_5 hthread =>
    have hi := hinit (by simp [hthread])
    split at ht
    case h_1 => exact absurd ht (by simp)
    case h_2 rest hevents =>
      obtain rfl := Option.some.inj ht
      refine h.thread hi (by simp) ?_ ?_
      · rw [hthread, ahead, hevents]
        simp [ThreadPc.asleep]
        omega
      · rw [hthread, ahead, hevents]
        simp [ThreadPc.telling]
        omega
    case h_3 rest hevents =>
      obtain rfl := Option.some.inj ht
      exact h.thread hi (by simp) (by rw [hthread, ahead, hevents]; rfl) (by rw [hthread, ahead, hevents]; rfl)
    case h_4 rest hevents =>
      obtain rfl := Option.some.inj ht
      exact h.thread hi (by simp) (by rw [hthread, ahead, hevents]; rfl) (by rw [hthread, ahead, hevents]; rfl)
  case h_6 hthread =>
    obtain rfl := Option.some.inj ht
    exact h.thread (hinit (by simp [hthread])) (by simp) (by rw [hthread]; rfl) (by rw [hthread]; rfl)
  case h_7 hthread =>
    obtain rfl := Option.some.inj ht
    refine h.thread (hinit (by simp [hthread])) (by simp) (by rw [hthread]; rfl) ?_
    rw [hthread]
    simp only [ThreadPc.telling, ahead]
    omega
  case h_8 hthread =>
    obtain ⟨hpos, hs⟩ := Option.ite_none_left_eq_some.mp ht
    obtain rfl := Option.some.inj hs
    refine h.thread (hinit (by simp [hthread])) (by simp) ?_ ?_
    · rw [hthread]
      simp only [ThreadPc.asleep, ahead]
      omega
    · rw [hthread]; rfl
  case h_9 hthread =>
    obtain ⟨-, hs⟩ := Option.ite_none_left_eq_some.mp ht
    obtain rfl := Option.some.inj hs
    exact h.thread (hinit (by simp [hthread])) (by simp) (by rw [hthread]; rfl) (by rw [hthread]; rfl)

theorem Inv.exec (h : s.Inv) {a : Act} (ht : s.exec a = some t) : t.Inv := by
  have hidle : ∀ p : OwnerPc, s.owner = .idle → p.posted = 0 → p.waking = 0 → p.waiting = 0 →
      (∀ inInit, p ≠ .count inInit) → Inv { s with owner := p } := by
    intro p howner hposted hwaking hwaiting hp
    refine h.goto ?_ ?_ ?_ fun _ => hp
    · rw [howner, hposted]; rfl
    · rw [howner, hwaking]; rfl
    · rw [howner, hwaiting]; rfl
  cases a with
  | init suspended =>
    obtain ⟨howner, ht⟩ := Option.ite_none_right_eq_some.mp ht
    split at ht
    case isTrue =>
      obtain rfl := Option.some.inj ht
      exact h
    case isFalse hinit =>
      obtain rfl := Option.some.inj ht
      obtain ⟨hpos, hnone, -⟩ := h.fresh (Bool.eq_false_iff.mpr hinit)
      have hwakes := h.wakes
      have htells := h.tells
      have hawake : s.awake = 0 := if_neg (Nat.pos_iff_ne_zero.mp hpos)
      rw [howner, hnone] at hwakes htells
      refine ⟨?_, htells, fun hf => absurd hf (by simp), fun _ => by simp⟩
      have hcnt : (if suspended = true then s.mSuspendCnt + 1 else s.mSuspendCnt) ≠ 0 := by
        split <;> omega
      show s.nested + 0 + s.mSuspendSem + 0 + 1 = s.ahead + 1 +
        if (if suspended = true then s.mSuspendCnt + 1 else s.mSuspendCnt) = 0 then 1 else 0
      rw [if_neg hcnt]
      simp only [OwnerPc.posted, OwnerPc.waking, ThreadPc.asleep] at hwakes
      omega
  | resume =>
    obtain ⟨howner, ht⟩ := Option.ite_none_right_eq_some.mp ht
    split at ht
    case isTrue hinit =>
      obtain rfl := Option.some.inj ht
      refine h.goto ?_ ?_ ?_ fun hf => absurd hinit (by simp [hf])
      · rw [howner]; rfl
      · rw [howner]; rfl
      · rw [howner]; rfl
    case isFalse =>
      obtain rfl := Option.some.inj ht
      exact h
  | suspend =>
    obtain ⟨howner, ht⟩ := Option.ite_none_right_eq_some.mp ht
    obtain rfl := Option.some.inj ht
    exact hidle .suspendPost howner rfl rfl rfl (by simp)
  | owner => exact h.ownerStep ht
  | post m =>
    obtain ⟨hm, ht⟩ := Option.ite_none_left_eq_some.mp ht
    obtain rfl := Option.some.inj ht
    have hahead : (s.m_events ++ [m]).count .suspend = s.ahead := by
      rw [List.count_append, List.count_singleton, beq_false_of_ne hm]
      rfl
    refine ⟨?_, ?_, h.fresh, h.created⟩
    · show _ = (s.m_events ++ [m]).count .suspend + s.thread.asleep + s.awake
      rw [hahead]
      exact h.wakes
    · show s.mSuspended + (s.m_events ++ [m]).count .suspend + s.thread.telling = _
      rw [hahead]
      exact h.tells
  | thread => exact h.threadStep ht

theorem reaches_inv (h : Runs new s) : s.Inv :=
  h.invariant inv_new fun _ _ _ hs _ ht => hs.exec ht

/-! ### What the calls do -/

/-- **A thread that was suspended has stopped**: once `suspend` has returned, and until `resume` is
called, the thread waits, if no suspension found it suspended already. -/
theorem suspended_stopped (h : Runs new s) (howner : s.owner = .idle) (hnested : s.nested = 0)
    (hcnt : 0 < s.mSuspendCnt) :
    s.thread ∈ [ThreadPc.none, .start, .wait] ∧ s.ahead = 0 ∧ s.threadStep = none := by
  have hinv := reaches_inv h
  have hwakes := hinv.wakes
  have htells := hinv.tells
  have hawake : s.awake = 0 := if_neg (Nat.pos_iff_ne_zero.mp hcnt)
  rw [howner, hnested] at hwakes htells
  simp only [OwnerPc.posted, OwnerPc.waking, OwnerPc.waiting] at hwakes htells
  have hsem : s.mSuspendSem = 0 := by
    cases hthread : s.thread <;> simp only [hthread, ThreadPc.asleep] at hwakes <;> omega
  refine ⟨?_, by omega, ?_⟩
  · cases hthread : s.thread <;> rw [hthread] at hwakes htells <;>
      simp only [ThreadPc.asleep, ThreadPc.telling] at hwakes htells <;> simp <;> omega
  · cases hthread : s.thread <;> rw [hthread] at hwakes htells <;>
      simp only [ThreadPc.asleep, ThreadPc.telling] at hwakes htells <;>
      first | omega | simp [SThread.threadStep, hthread, hsem]

/-- The thread goes on alone. -/
abbrev Alone : SThread → SThread → Prop :=
  Reaches (fun s a t => s.exec a = some t) fun _ a => a = .thread

theorem threadStep_frame (ht : s.threadStep = some t) :
    t.owner = s.owner ∧ t.mSuspendCnt = s.mSuspendCnt ∧ t.nested = s.nested := by
  unfold SThread.threadStep at ht
  repeat' split at ht
  all_goals cases ht <;> exact ⟨rfl, rfl, rfl⟩

theorem alone_frame (h : Alone s t) :
    t.owner = s.owner ∧ t.mSuspendCnt = s.mSuspendCnt ∧ t.nested = s.nested := by
  refine h.invariant (I := fun t => t.owner = s.owner ∧ t.mSuspendCnt = s.mSuspendCnt ∧
    t.nested = s.nested) ⟨rfl, rfl, rfl⟩ ?_
  rintro u a v ⟨howner, hcnt, hnested⟩ rfl hv
  obtain ⟨h₁, h₂, h₃⟩ := threadStep_frame hv
  exact ⟨h₁.trans howner, h₂.trans hcnt, h₃.trans hnested⟩

/-- **A thread that was resumed goes on**, past all its suspensions, exactly if none of them found it
suspended already. -/
theorem resumed_iff (h : Runs new s) (howner : s.owner = .idle) (hcnt : s.mSuspendCnt = 0) :
    s.nested = 0 ↔ ∃ t, Alone s t ∧ t.ahead = 0 ∧ t.thread.asleep = 0 := by
  constructor
  · intro hnested
    have hinv := reaches_inv h
    have hwakes := hinv.wakes
    have htells := hinv.tells
    have hawake : s.awake = 1 := if_pos hcnt
    rw [howner, hnested] at hwakes htells
    simp only [OwnerPc.posted, OwnerPc.waking, OwnerPc.waiting] at hwakes htells
    have hahead : s.ahead = 0 := by omega
    have hinit : s.mInitialized = true := by
      cases hi : s.mInitialized with
      | true => rfl
      | false =>
        have := (hinv.fresh hi).1
        omega
    have hnone := hinv.created hinit
    -- a thread that sleeps has its wake-up, and is awake after one step
    cases hthread : s.thread with
    | none => exact absurd hthread hnone
    | tell =>
      rw [hthread] at htells
      simp only [ThreadPc.telling] at htells
      omega
    | start =>
      rw [hthread] at hwakes
      simp only [ThreadPc.asleep] at hwakes
      refine ⟨{ s with mSuspendSem := s.mSuspendSem - 1, thread := .setRunning },
        (Reaches.refl s).tail rfl ?_, hahead, rfl⟩
      show s.threadStep = _
      rw [SThread.threadStep, hthread]
      exact if_neg (by omega)
    | wait =>
      rw [hthread] at hwakes
      simp only [ThreadPc.asleep] at hwakes
      refine ⟨{ s with mSuspendSem := s.mSuspendSem - 1, thread := .pop },
        (Reaches.refl s).tail rfl ?_, hahead, rfl⟩
      show s.threadStep = _
      rw [SThread.threadStep, hthread]
      exact if_neg (by omega)
    | setRunning | pop | handle | setDone | ended =>
      exact ⟨s, Reaches.refl s, hahead, by rw [hthread]; rfl⟩
  · rintro ⟨t, ht, hahead, hasleep⟩
    obtain ⟨howner', hcnt', hnested'⟩ := alone_frame ht
    have hrun : Runs new t := h.trans (ht.strengthen fun _ _ _ _ _ _ => trivial)
    have hwakes := (reaches_inv hrun).wakes
    have hawake : t.awake = 1 := if_pos (hcnt'.trans hcnt)
    rw [howner', howner] at hwakes
    simp only [OwnerPc.posted, OwnerPc.waking] at hwakes
    omega

/-- The thread is started, suspended and stopped. -/
def once : List Act :=
  [.init false, .owner, .owner, .thread, .thread, .owner, .owner, .thread, .thread, .suspend, .owner,
    .owner, .thread, .thread, .owner]

theorem suspended_stopped_once :
    ∃ s : SThread, runAll exec once new = some s ∧ s.thread = .wait ∧
      (s.thread ∈ [ThreadPc.none, .start, .wait] ∧ s.ahead = 0 ∧ s.threadStep = none) :=
  ⟨_, rfl, rfl, suspended_stopped
    (Reaches.of_runAll exec _ (fun _ _ _ => trivial) (rfl : runAll exec once new = some _))
    rfl rfl (by decide)⟩

/-- It is suspended once more before it is resumed twice. -/
def twice : List Act :=
  once ++ [.suspend, .owner, .owner, .resume, .owner, .resume, .owner, .owner, .thread, .thread]

theorem resumed_iff_twice :
    ∃ s : SThread, runAll exec twice new = some s ∧ s.thread = .tell ∧ s.nested = 1 ∧
      (s.nested = 0 ↔ ∃ t, Alone s t ∧ t.ahead = 0 ∧ t.thread.asleep = 0) :=
  ⟨_, rfl, rfl, rfl, resumed_iff
    (Reaches.of_runAll exec _ (fun _ _ _ => trivial) (rfl : runAll exec twice new = some _)) rfl rfl⟩

end SThread

end OpenairHss.Worker.SEventThread
