import OpenairHss.Processor.Ghost

/-!
# A processor is not forgotten

A phase that is ready is run: when nothing refers to a processor any more, its next phase is not
ready.  A callback that completes an operation posts a message after it, and the worker leaves the
loop only when the next phase is not ready.
-/

namespace OpenairHss.Processor

open Interact Steps

variable {K : Kind}

/-- If a phase is ready, somebody is there who will find out. -/
def Awake (M : Code K) (s : State K) : Prop :=
  s.core.status = .running → s.worker = none → s.callbacks = [] → s.core.messages = 0 →
    s.core.phaseReady M = false

theorem awake_step {M : Code K} {s t : State K} {l : Env K × Move} (h : exec M s l = some t) :
    Awake M t := by
  intro hrun hw hc hm
  obtain ⟨_, hst⟩ := exec_cases h
  cases hst with
  | take => cases hw
  | delete => cases hrun
  | body => cases hw
  | leave e hw' hr => exact hr
  | work => cases hw
  | workThrow => cases hw
  | deliver => exact absurd hc (by simp)
  | callback => exact absurd hc (by simp)
  | callbackThrow => cases hrun
  | finish => exact absurd hm (by simp [Core.signal])

/-- **In a quiescent state the next phase is not ready.** -/
theorem not_ready_of_quiescent {M : Code K} {C : State K → Env K × Move → Prop} {p : Nat}
    {d : K.Data} {s : State K} (h : Run M C (State.init p d) s) (hq : s.Quiescent)
    (hrun : s.core.status = .running) : s.core.phaseReady M = false := by
  have hs : Awake M s := by
    refine h.invariant (I := Awake M) ?_ fun _ _ _ _ _ hx => awake_step hx
    intro _ _ _ hm
    cases hm
  exact hs hrun hq.2.2.2 hq.2.1 hq.2.2.1

end OpenairHss.Processor
