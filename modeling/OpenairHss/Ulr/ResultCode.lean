import OpenairHss.Ulr.Watch

/-!
# The result of a ULR does not depend on the order

`result_determined`: when no query fails besides those that reject the ULR anyway, the answer to a
ULR carries `Scene.expected`, in whatever order the queries are answered.  An operation that fails
clears the result bits of all others, because `DB_OP_COMPLETE` writes `!__item` for `~__item`;
`order_matters` shows what becomes of a known subscriber when the lookup of the MME fails.
-/

namespace OpenairHss.Ulr

open Interact Processor Diameter Requests

/-- The ULR is rejected in any case, or no query of it fails. -/
def Scene.Undisturbed (S : Scene) : Prop :=
  S.tooLong = true ∨ S.outcomes.issued = false ∨ S.outcomes.found = false ∨ S.Clean

/-- What `DB_OP_COMPLETE` leaves of the bits of other operations. -/
theorem complete_bit {item : BitVec 32} {b : Nat} (hb : item.getLsbD b = false) (hi : item ≠ 0)
    (success : Bool) (x : BitVec 32) :
    (x ||| item).getLsbD b = x.getLsbD b ∧
      ((resultMask item success x).getLsbD b = x.getLsbD b ↔
        success = true ∨ x.getLsbD b = false) := by
  refine ⟨by rw [BitVec.getLsbD_or, hb, Bool.or_false], ?_⟩
  cases success with
  | true =>
    rw [resultMask, if_pos rfl, BitVec.getLsbD_or, hb, Bool.or_false]
    exact ⟨fun _ => Or.inl rfl, fun _ => rfl⟩
  | false =>
    have hz : (x &&& 0).getLsbD b = false := by simp
    rw [resultMask, if_neg Bool.false_ne_true, if_neg hi, hz]
    exact ⟨fun h => Or.inr h.symm, fun h => (h.resolve_left Bool.false_ne_true).symm⟩

/-- Two actions have no bit in common. -/
theorem item_disjoint {db db' : Db} {b : Nat} (hne : db ≠ db')
    (hb : db'.item.getLsbD b = true) : db.item.getLsbD b = false := by
  have hz : db.item &&& db'.item = 0 := by
    cases db <;> cases db' <;> first | decide | exact absurd rfl hne
  have hbit := congrArg (fun y : BitVec 32 => y.getLsbD b) hz
  simpa [hb] using hbit

/-- **Every answer to a ULR carries the result that its outcomes determine**, if these do not
disturb each other; and an operation keeps the bits of the others iff it succeeds or there is
nothing to clear. -/
theorem result_determined (S : Scene) (hS : S.Undisturbed) :
    (∀ s, Run (code S.json S.req) (fun _ l => S.outcomes.Agrees l.1) (State.init phase1 S.start) s →
      ∀ a ∈ s.core.answers, a.result = S.expected) ∧
    ∀ (db db' : Db) (success : Bool) (x : BitVec 32) (b : Nat), db ≠ db' →
      db'.item.getLsbD b = true → (x ||| db.item).getLsbD b = x.getLsbD b ∧
        ((resultMask db.item success x).getLsbD b = x.getLsbD b ↔
          success = true ∨ x.getLsbD b = false) := by
  refine ⟨fun s h a ha => ?_, fun db db' success x b hne hb => ?_⟩
  · obtain ⟨hf, _⟩ := ulr_watched (show S.Clean → S.Clean from id) (fun _ _ _ hc => hc) h
    have hfix : S.Clean ∨ S.tooLong = true ∨ S.outcomes.issued = false ∨
        S.outcomes.found = false := by
      rcases hS with h | h | h | h
      · exact Or.inr (Or.inl h)
      · exact Or.inr (Or.inr (Or.inl h))
      · exact Or.inr (Or.inr (Or.inr h))
      · exact Or.inl h
    exact hf.answers hfix _ (List.mem_map_of_mem ha)
  · have hb' : db.item.getLsbD b = false := item_disjoint hne hb
    refine complete_bit hb' ?_ success x
    cases db <;> decide

/-! ### A known subscriber -/

/-- The environment with given outcomes in which every callback is run later. -/
def Outcomes.env (o : Outcomes) : Env kind :=
  ⟨o.db, fun act => if o.failed act then .failed else .async, sampleAsk⟩

theorem Outcomes.env_agrees (o : Outcomes) : o.Agrees o.env := by
  refine ⟨fun _ => rfl, fun act => ?_⟩
  simp only [Outcomes.env]
  split
  · exact ⟨fun _ => ‹_›, fun _ => rfl⟩
  · exact ⟨nofun, fun h => absurd h ‹_›⟩

/-- The subscriber is known and has no events; the MME is found, or not. -/
def sampleOutcomes (mme : Option (Option Int)) : Outcomes where
  imsi := some (some sampleRow)
  extIds := some []
  eventIdsMsisdn := some []
  eventIdsExtIds := some []
  events := fun _ => some []
  mme := some mme
  update := some ()
  fails := fun _ => false
  eventsFail := fun _ => false

def sampleScene (mme : Option (Option Int)) : Scene :=
  ⟨fun _ => true, sampleUlr, sampleUlrData, sampleOutcomes mme⟩

/-- The state of the sample ULR after some moves, made by an order of preference. -/
def sampleRun (mme : Option (Option Int)) (moves : List Move) : State kind :=
  greedy (code (fun _ => true) sampleUlr) (sampleOutcomes mme).env (fun _ => true) moves 150
    (State.init phase1 sampleUlrData)

theorem sampleRun_run (mme : Option (Option Int)) (moves : List Move) :
    Run (code (fun _ => true) sampleUlr) (fun _ l => (sampleOutcomes mme).Agrees l.1)
      (State.init phase1 sampleUlrData) (sampleRun mme moves) :=
  greedy_run (fun _ _ _ => (sampleOutcomes mme).env_agrees) _ _ _

/-- All callbacks before the next phase. -/
def callbacksFirst : List Move := [.work, .loop, .deliver 0, .callback 0, .finish 0, .take]

theorem result_determined_sample :
    (sampleRun (some (some 1)) workFirst).core.answers.length = 1 ∧
      ∀ a ∈ (sampleRun (some (some 1)) workFirst).core.answers,
        a.result = (sampleScene (some (some 1))).expected := by
  have hclean : (sampleScene (some (some 1))).Clean :=
    ⟨rfl, rfl, rfl, rfl, rfl, fun _ => rfl, rfl, rfl, fun _ => rfl⟩
  exact ⟨rfl, (result_determined (sampleScene (some (some 1)))
    (Or.inr (Or.inr (Or.inr hclean)))).1 _ (sampleRun_run _ _)⟩

/-- The MME is not found.  If `phase2` has been run by then the ULR is answered with success, and
otherwise with user unknown. -/
theorem order_matters :
    (∃ s, Run (code (fun _ => true) sampleUlr) (fun _ l => (sampleOutcomes none).Agrees l.1)
        (State.init phase1 sampleUlrData) s ∧
      s.core.answers.map (·.result) = [.resultCode erDiameterSuccess]) ∧
    ∃ s, Run (code (fun _ => true) sampleUlr) (fun _ l => (sampleOutcomes none).Agrees l.1)
        (State.init phase1 sampleUlrData) s ∧
      s.core.answers.map (·.result) = [.experimental diameterErrorUserUnknown] :=
  ⟨⟨_, sampleRun_run none workFirst, rfl⟩, ⟨_, sampleRun_run none callbacksFirst, rfl⟩⟩

end OpenairHss.Ulr
