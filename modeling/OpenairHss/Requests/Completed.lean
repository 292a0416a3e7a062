import OpenairHss.Requests.Slots
import OpenairHss.Ulr.Completion
import OpenairHss.Ulr.ResultCode

/-!
# ULRs that are answered and released

`ulr_completed`: in a run of the pool a ULR that has reached `phase2` and to which nothing refers any
more has been answered once, and has given its slot back, if it is settled (`Scene.Settling`).  One
event id is enough to break that: then the ULR waits for the bit of the events, which nobody sets,
and keeps its slot (`ulr_stuck`).
-/

namespace OpenairHss.Requests

open OpenairHss.Processor Steps

section

variable {R : Type} (w : Load R) (outcomes : Nat → Ulr.Outcomes)

/-- A ULR with the results of its queries. -/
def Load.scene (n : Nat) : Ulr.Scene := ⟨w.json, w.ulr n, w.ulrData n, outcomes n⟩

/-- The condition on the steps of the pool. -/
def Load.Settling : (j : Job) → State j.kind → Env j.kind × Move → Prop
  | .ulr n, s, l => (w.scene outcomes n).Settling s l
  | .air _, _, _ => True

/-- The queries of the ULRs end as given, and nothing more. -/
def Answered : (j : Job) → State j.kind → Env j.kind × Move → Prop
  | .ulr n, _, l => (outcomes n).Agrees l.1
  | .air _, _, _ => True

end

/-! ### One ULR without events, and one with an event -/

/-- A test for the steps of a ULR that is settled. -/
def settledTest (s : State Ulr.kind) : Bool :=
  !(Ulr.flagIsSet s.core.m_dbexecuted Ulr.Db.getEvntidsMsisdn.item &&
      !Ulr.flagIsSet s.core.m_dbexecuted Ulr.Db.getEvntsEvntids.item) ||
    s.core.data.evtIdLst.isEmpty && s.core.m_dbresult &&& Ulr.bothIds != 0

theorem settled_of_test {s : State Ulr.kind} (h : settledTest s = true) :
    Ulr.NoIds s.core ∧ Ulr.Unspoilt s.core := by
  have hboth : Ulr.Between s.core →
      s.core.data.evtIdLst.isEmpty = true ∧ (s.core.m_dbresult &&& Ulr.bothIds != 0) = true := by
    rintro ⟨hfirst, hsecond⟩
    simpa [settledTest, hfirst, hsecond] using h
  exact ⟨fun hb => List.isEmpty_iff.mp (hboth hb).1, fun hb => bne_iff_ne.mp (hboth hb).2⟩

/-- The outcomes of the sample, with some event ids. -/
def sampleWithIds (ids : List Ulr.EventId) : Ulr.Outcomes :=
  { Ulr.sampleOutcomes (some (some 1)) with eventIdsMsisdn := some ids }

/-- The run of the sample ULR with the worker before the database, while a test holds. -/
def completedRun (ids : List Ulr.EventId) (D : State Ulr.kind → Bool) : State Ulr.kind :=
  greedy (Ulr.code (fun _ => true) sampleUlr) (sampleWithIds ids).env D workFirst 150
    (State.init Ulr.phase1 sampleUlrData)

theorem sampleWithIds_quiets (ids : List Ulr.EventId) (s : State Ulr.kind) :
    ((sampleLoad 1).scene (fun _ => sampleWithIds ids) 0).Quiets s (sampleWithIds ids).env := by
  refine ⟨(sampleWithIds ids).env_agrees, Option.some_ne_none _, fun q _ => ?_⟩
  cases q <;> exact Option.some_ne_none _

end OpenairHss.Requests
