import OpenairHss.Lib.EventLoop
import OpenairHss.Stats.Live

/-!
# The thread of the statistics

`SStats` is an `SEventThread`: what the other threads register, ask for or set is a message to it, and
so is the expiry of its timer.  A message is handled with the time of that moment, as text.

* `lines_run`: every line of the log and every live answer is made of exactly the events
  that were posted before the message that has led to it.
* `drained_perm`: with an empty queue, the order in which the threads have posted does not matter.
* `terminated_iff`: when the thread ends with an exception.
-/

namespace OpenairHss.Stats

open EventLoop Steps

/-- The messages of the thread. -/
inductive Message
  /-- `ETM_INIT`; `timer_create`, which its handling calls, may fail. -/
  | init (created : Bool)
  | quit
  /-- `ETM_TIMER`, of `m_idletimer` -/
  | timer
  /-- `STAT_CONSOLIDATE_EVENT` -/
  | consolidate
  /-- `STAT_UPDATE_INTERVAL` -/
  | updateInterval (interval : Int)
  /-- `STAT_GET_LIVE`, of the request with this number -/
  | getLive (request : Nat)
  /-- `STAT_ATTEMPT_MSG` or `STAT_RSLT_MSG` -/
  | register (e : Event)

/-- Whether the thread still takes messages. -/
inductive RunState
  | running
  | done
  /-- An exception has left `threadProc`. -/
  | thrown
deriving DecidableEq

structure SStats where
  m_stats : StatsHss
  m_interval : Int
  /-- `m_idletimer`, with the interval that it is armed with; `none` before `timer_create`. -/
  m_idletimer : Option Int
  /-- What was given to `m_statlogger`. -/
  lines : List String
  /-- The requests that got their live statistics. -/
  answers : List (Nat × Json)
  state : RunState

namespace SStats

/-- The thread with the interval of the options. -/
def new (interval : Int) : SStats where
  m_stats := StatsHss.new
  m_interval := interval
  m_idletimer := none
  lines := []
  answers := []
  state := .running

/-- `Timer::start`, which throws without a timer, and where `timer_settime` fails. -/
def start (s : SStats) (m_timer : Option Int) : SStats :=
  match m_timer with
  | none => { s with state := .thrown }
  | some interval =>
    if interval < 0 then { s with m_idletimer := some 0, state := .thrown }
    else { s with m_idletimer := some interval }

/-- `Timer::init`, which throws where `timer_create` fails, and `Timer::start`. -/
def onInit (s : SStats) (created : Bool) : SStats :=
  if created then s.start (some s.m_interval)
  else { s with m_idletimer := none, state := .thrown }

/-- The branches of `dispatch`; `onTimer` posts a message only. -/
def handle (s : SStats) (now_str : String) : Message → SStats
  | .init created => s.onInit created
  | .quit => { s with state := .done }
  | .timer => s
  | .consolidate => { s with lines := s.lines ++ [s.m_stats.getSerializedStat now_str] }
  | .updateInterval interval =>
    { s with m_interval := interval }.start (s.m_idletimer.map fun _ => interval)
  | .getLive request => { s with answers := s.answers ++ [(request, s.m_stats.processStatGetLive)] }
  | .register e => { s with m_stats := s.m_stats.process e }

/-- `onTimer` -/
def posts : Message → List Message
  | .timer => [.consolidate]
  | _ => []

/-- What the other threads, and the handler of the timer, can post. -/
def admits (s : SStats) : Message → Bool
  | .timer => s.state ≠ .thrown ∧ 0 < s.m_idletimer.getD 0
  | .consolidate => false
  | _ => s.state ≠ .thrown

def loop : Loop SStats Message String where
  handle := handle
  posts _ _ m := posts m
  running s := s.state = .running
  admits := admits

/-! ### What is seen in the log -/

/-- The events among the messages. -/
def registered (hs : List (String × Message)) : List Event :=
  hs.filterMap fun h => match h.2 with
    | .register e => some e
    | _ => none

/-- The line that a message adds, after `hs`. -/
def line (hs : List (String × Message)) (h : String × Message) : Option String :=
  match h.2 with
  | .consolidate => some ((StatsHss.run (registered hs)).getSerializedStat h.1)
  | _ => none

/-- The answer that a message gets, after `hs`. -/
def answer (hs : List (String × Message)) (h : String × Message) : Option (Nat × Json) :=
  match h.2 with
  | .getLive request => some (request, (StatsHss.run (registered hs)).processStatGetLive)
  | _ => none

variable {interval : Int} {hs : List (String × Message)}

theorem registered_snoc (hs : List (String × Message)) (h : String × Message) :
    registered (hs ++ [h]) = registered hs ++ registered [h] := List.filterMap_append

theorem start_frame (s : SStats) (m_timer : Option Int) :
    (s.start m_timer).m_stats = s.m_stats ∧ (s.start m_timer).lines = s.lines ∧
      (s.start m_timer).answers = s.answers := by
  cases m_timer with
  | none => exact ⟨rfl, rfl, rfl⟩
  | some interval =>
    rw [start]
    split
    · exact ⟨rfl, rfl, rfl⟩
    · exact ⟨rfl, rfl, rfl⟩

theorem onInit_frame (s : SStats) (created : Bool) :
    (s.onInit created).m_stats = s.m_stats ∧ (s.onInit created).lines = s.lines ∧
      (s.onInit created).answers = s.answers := by
  cases created with
  | false => exact ⟨rfl, rfl, rfl⟩
  | true => exact start_frame s (some s.m_interval)

/-- What has been handled is all that the thread has seen. -/
theorem after_spec (interval : Int) (hs : List (String × Message)) :
    (loop.after (new interval) hs).m_stats = StatsHss.run (registered hs) ∧
      (loop.after (new interval) hs).lines = observed line hs ∧
      (loop.after (new interval) hs).answers = observed answer hs := by
  induction hs using List.reverseRecOn with
  | nil => exact ⟨rfl, rfl, rfl⟩
  | append_singleton hs h ih =>
    obtain ⟨hstats, hlines, hanswers⟩ := ih
    obtain ⟨now_str, m⟩ := h
    rw [Loop.after_snoc, observed_snoc, observed_snoc, registered_snoc]
    show (handle (loop.after (new interval) hs) now_str m).m_stats = _ ∧
      (handle (loop.after (new interval) hs) now_str m).lines = _ ∧
      (handle (loop.after (new interval) hs) now_str m).answers = _
    cases m with
    | init created =>
      obtain ⟨h₁, h₂, h₃⟩ := onInit_frame (loop.after (new interval) hs) created
      rw [handle, h₁, h₂, h₃, hstats, hlines, hanswers]
      simp [registered, line, answer]
    | updateInterval i =>
      obtain ⟨h₁, h₂, h₃⟩ := start_frame { loop.after (new interval) hs with m_interval := i }
        ((loop.after (new interval) hs).m_idletimer.map fun _ => i)
      rw [handle, h₁, h₂, h₃, hstats, hlines, hanswers]
      simp [registered, line, answer]
    | quit | timer => simp [handle, registered, line, answer, hstats, hlines, hanswers]
    | consolidate => simp [handle, registered, line, answer, hstats, hlines, hanswers]
    | getLive => simp [handle, registered, line, answer, hstats, hlines, hanswers]
    | register e =>
      simp [handle, registered, line, answer, hstats, hlines, hanswers, StatsHss.run]

variable {s t : Mailbox SStats Message String}

/-- The runs of the thread, with every interleaving of what the others post. -/
abbrev Runs (interval : Int) (s : Mailbox SStats Message String) : Prop :=
  loop.Runs (.new (new interval)) s

/-- **A line of the log and a live answer show exactly the events that were posted before their
message**, and what was posted once keeps its place from then on. -/
theorem lines_run (interval : Int) (hs : Runs interval s) (ht : loop.Runs s t) :
    t.owner.lines = observed line t.handled ∧ t.owner.answers = observed answer t.handled ∧
      s.posted <+: t.handled.map (·.2) ++ t.queue := by
  have hrun : Runs interval t := hs.trans ht
  obtain ⟨-, hlines, hanswers⟩ := after_spec interval t.handled
  rw [Loop.owner_run hrun]
  exact ⟨hlines, hanswers, Loop.posted_prefix ht⟩

/-- The timer expires after the first of two events, and a live request comes after both. -/
def sampleRun : List (Act Message String) :=
  [.post (.init true), .dispatch "0", .post (.register (.attemp .ulr .received)), .post .timer,
    .dispatch "1", .dispatch "1", .post (.register (.result .ulr (0, 2001))), .post (.getLive 7),
    .dispatch "2", .dispatch "2", .dispatch "2"]

theorem lines_run_sample :
    ∃ t : Mailbox SStats Message String, runAll loop.exec sampleRun (.new (new 60000)) = some t ∧
      t.owner.lines.length = 1 ∧ t.owner.answers.length = 1 ∧
      (t.owner.lines = observed line t.handled ∧ t.owner.answers = observed answer t.handled ∧
        (Mailbox.new (new 60000) : Mailbox SStats Message String).posted <+: t.handled.map (·.2) ++ t.queue) :=
  ⟨_, rfl, rfl, rfl, lines_run 60000 (Reaches.refl _)
    (Reaches.of_runAll loop.exec _ (fun _ _ _ => trivial)
      (rfl : runAll loop.exec sampleRun (.new (new 60000)) = some _))⟩

/-- The events that were posted. -/
def postedEvents (s : Mailbox SStats Message String) : List Event :=
  s.posted.filterMap fun m => match m with
    | .register e => some e
    | _ => none

theorem registered_drained (hq : s.queue = []) : registered s.handled = postedEvents s := by
  rw [postedEvents, Mailbox.posted, hq, List.append_nil, List.filterMap_map]
  rfl

/-- **Once the queue is empty, the order in which the threads have posted their events does not
matter.** -/
theorem drained_perm (interval interval' : Int) (hs : Runs interval s) (ht : Runs interval' t)
    (hqs : s.queue = []) (hqt : t.queue = []) (hperm : (postedEvents s).Perm (postedEvents t)) :
    s.owner.m_stats = t.owner.m_stats := by
  have hstats := (after_spec interval s.handled).1
  have hstatt := (after_spec interval' t.handled).1
  rw [← Loop.owner_run hs, registered_drained hqs] at hstats
  rw [← Loop.owner_run ht, registered_drained hqt] at hstatt
  rw [hstats, hstatt, run_perm hperm]

/-- Two threads, whose events come in either order. -/
def ulrFirst : List (Act Message String) :=
  [.post (.register (.attemp .ulr .received)), .post (.register (.attemp .air .received)),
    .dispatch "1", .dispatch "1"]

def airFirst : List (Act Message String) :=
  [.post (.register (.attemp .air .received)), .dispatch "1",
    .post (.register (.attemp .ulr .received)), .dispatch "1"]

theorem drained_perm_two :
    ∃ s t : Mailbox SStats Message String, runAll loop.exec ulrFirst (.new (new 0)) = some s ∧
      runAll loop.exec airFirst (.new (new 0)) = some t ∧ s.owner.m_stats = t.owner.m_stats :=
  ⟨_, _, rfl, rfl, drained_perm 0 0
    (Reaches.of_runAll loop.exec _ (fun _ _ _ => trivial)
      (rfl : runAll loop.exec ulrFirst (.new (new 0)) = some _))
    (Reaches.of_runAll loop.exec _ (fun _ _ _ => trivial)
      (rfl : runAll loop.exec airFirst (.new (new 0)) = some _))
    rfl rfl (List.Perm.swap _ _ _)⟩

/-! ### Exceptions -/

/-- An interval that is negative, or that is set before the timer is created, or a timer that cannot
be created. -/
def Harmful (hs : List (String × Message)) (h : String × Message) : Prop :=
  (∃ interval, h.2 = .updateInterval interval ∧ (interval < 0 ∨ .init true ∉ hs.map (·.2))) ∨
    h.2 = .init false

/-- What is known of the timer while the thread is running. -/
structure Timed (hs : List (String × Message)) (s : SStats) : Prop where
  timer : s.m_idletimer.isSome = true ↔ .init true ∈ hs.map (·.2)
  interval : 0 ≤ s.m_interval

theorem start_state (s : SStats) (m_timer : Option Int) (hrun : s.state = .running) :
    (s.start m_timer).state = .thrown ↔ m_timer = none ∨ ∃ i ∈ m_timer, i < 0 := by
  cases m_timer with
  | none => simp [start]
  | some i =>
    rw [start]
    split
    · simp_all
    · simp_all

/-- A step throws exactly if its message is harmful. -/
theorem Timed.thrown_iff {s : SStats} (h : Timed hs s) (hrun : s.state = .running)
    (now_str : String) (m : Message) :
    (s.handle now_str m).state = .thrown ↔ Harmful hs (now_str, m) := by
  cases m with
  | init created =>
    cases created with
    | false => simp [handle, onInit, Harmful]
    | true =>
      rw [handle, onInit, if_pos rfl, start_state s _ hrun]
      have := h.interval
      simp [Harmful, this]
  | updateInterval i =>
    rw [handle, start_state { s with m_interval := i } _ hrun]
    have htimer := h.timer
    cases hm : s.m_idletimer with
    | none => simp_all [Harmful]
    | some j => simp_all [Harmful]
  | quit => simp [handle, Harmful]
  | timer => simp [handle, Harmful, hrun]
  | consolidate => simp [handle, Harmful, hrun]
  | getLive => simp [handle, Harmful, hrun]
  | register => simp [handle, Harmful, hrun]

theorem running_of_handle {s : SStats} {now_str : String} {m : Message}
    (h : (s.handle now_str m).state = .running) : s.state = .running := by
  have hstart : ∀ (s : SStats) (m_timer : Option Int), (s.start m_timer).state = .running →
      s.state = .running := by
    intro s m_timer h
    cases m_timer with
    | none => exact absurd h (by simp [start])
    | some i =>
      rw [start] at h
      split at h
      · exact absurd h (by simp)
      · exact h
  cases m with
  | init created =>
    cases created with
    | false => exact absurd h (by simp [handle, onInit])
    | true =>
      rw [handle, onInit, if_pos rfl] at h
      exact hstart _ _ h
  | updateInterval i => exact hstart { s with m_interval := i } _ h
  | quit => exact absurd h (by simp [handle])
  | timer | consolidate | getLive | register => exact h

theorem start_running {s : SStats} {m_timer : Option Int}
    (h : (s.start m_timer).state = .running) :
    ∃ i, m_timer = some i ∧ 0 ≤ i ∧ s.start m_timer = { s with m_idletimer := some i } := by
  cases m_timer with
  | none => exact absurd h (by simp [start])
  | some i =>
    rw [start] at h ⊢
    split at h
    · exact absurd h (by simp)
    · next hi => exact ⟨i, rfl, Int.not_lt.mp hi, if_neg hi⟩

theorem Timed.step {s : SStats} (h : Timed hs s) (now_str : String) (m : Message)
    (hrun : (s.handle now_str m).state = .running) :
    Timed (hs ++ [(now_str, m)]) (s.handle now_str m) := by
  have hkeep : ∀ s', s'.m_idletimer = s.m_idletimer → s'.m_interval = s.m_interval → m ≠ .init true →
      Timed (hs ++ [(now_str, m)]) s' := by
    intro s' htimer hinterval hm
    refine ⟨?_, hinterval ▸ h.interval⟩
    rw [htimer, h.timer]
    simp [Ne.symm hm]
  cases m with
  | init created =>
    cases created with
    | false => exact absurd hrun (by simp [handle, onInit])
    | true =>
      rw [handle, onInit, if_pos rfl] at hrun ⊢
      obtain ⟨i, hi, hpos, hstart⟩ := start_running hrun
      rw [hstart]
      exact ⟨by simp, h.interval⟩
  | updateInterval i =>
    obtain ⟨j, hj, hpos, hstart⟩ := start_running hrun
    obtain ⟨k, hk, rfl⟩ := Option.map_eq_some_iff.mp hj
    rw [handle, hstart]
    have hinit := h.timer.mp (by rw [hk]; rfl)
    exact ⟨by simpa [hk] using hinit, hpos⟩
  | quit => exact absurd hrun (by simp [handle])
  | timer | consolidate | getLive | register => exact hkeep _ rfl rfl (by simp)

theorem timed_after (h0 : 0 ≤ interval) (hs : List (String × Message))
    (hrun : (loop.after (new interval) hs).state = .running) :
    Timed hs (loop.after (new interval) hs) := by
  induction hs using List.reverseRecOn with
  | nil => exact ⟨by simp [Loop.after, new], h0⟩
  | append_singleton hs h ih =>
    rw [Loop.after_snoc] at hrun ⊢
    exact (ih (running_of_handle hrun)).step h.1 h.2 hrun

/-- **The thread ends with an exception exactly if it handles a negative interval, an interval that was
set ahead of `ETM_INIT`, or an `ETM_INIT` whose timer cannot be created.** -/
theorem terminated_iff (interval : Int) (h0 : 0 ≤ interval) (h : Runs interval s) :
    s.owner.state = .thrown ↔ ∃ hs x, hs ++ [x] <+: s.handled ∧ Harmful hs x := by
  have hstep : ∀ hs x, hs ++ [x] <+: s.handled →
      ((loop.after (new interval) (hs ++ [x])).state = .thrown ↔ Harmful hs x) := by
    intro hs x hx
    have hrun : (loop.after (new interval) hs).state = .running :=
      of_decide_eq_true (Loop.running_before h hx)
    rw [Loop.after_snoc]
    exact (timed_after h0 hs hrun).thrown_iff hrun x.1 x.2
  rw [Loop.owner_run h]
  constructor
  · intro hthrown
    rcases List.eq_nil_or_concat s.handled with hnil | ⟨hs, x, hx⟩
    · rw [hnil] at hthrown
      exact absurd hthrown (by simp [Loop.after, new])
    · have hprefix : hs ++ [x] <+: s.handled := by rw [hx, List.concat_eq_append]
      refine ⟨hs, x, hprefix, (hstep hs x hprefix).mp ?_⟩
      rwa [hx, List.concat_eq_append] at hthrown
  · rintro ⟨hs, x, ⟨rest, hrest⟩, hharm⟩
    have hthrown := (hstep hs x ⟨rest, hrest⟩).mpr hharm
    cases rest with
    | nil =>
      rw [List.append_nil] at hrest
      rwa [← hrest]
    | cons y rest =>
      -- the thread would have been running when it handled `y`
      have hprefix : (hs ++ [x]) ++ [y] <+: s.handled :=
        ⟨rest, by rw [List.append_assoc, List.singleton_append]; exact hrest⟩
      have hrun := Loop.running_before h hprefix
      have hrunning : (loop.after (new interval) (hs ++ [x])).state = .running :=
        of_decide_eq_true hrun
      rw [hrunning] at hthrown
      exact absurd hthrown (by simp)

/-- An interval is set while the thread is not initialised yet. -/
def earlyUpdate : List (Act Message String) :=
  [.post (.updateInterval 60000), .post (.init true), .dispatch "0"]

theorem terminated_iff_early :
    ∃ s : Mailbox SStats Message String, runAll loop.exec earlyUpdate (.new (new 60000)) = some s ∧
      s.owner.state = .thrown ∧
      (s.owner.state = .thrown ↔ ∃ hs x, hs ++ [x] <+: s.handled ∧ Harmful hs x) :=
  ⟨_, rfl, rfl, terminated_iff 60000 (by decide)
    (Reaches.of_runAll loop.exec _ (fun _ _ _ => trivial)
      (rfl : runAll loop.exec earlyUpdate (.new (new 60000)) = some _))⟩

end SStats

end OpenairHss.Stats
