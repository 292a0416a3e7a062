import OpenairHss.Processor.Promise
import OpenairHss.Processor.Slots
import OpenairHss.Requests.InFlight

/-!
# The end of an AIR

An AIR that `phase1` does not reject comes to its end: the query that the next phase waits for is
registered, its callback sets the bit, and when nothing refers to the processor any more it has been
deleted.  An AIR that `phase1` rejects stays in `ULRSTATE_PHASEFINAL`, which its own `phaseReady`
does not know, and is never deleted: its slot is lost.
-/

namespace OpenairHss.AirProcessor

open ByteVec Interact OpenairHss.Processor Hsssec DataAccess

/-- The query for the security data does not end in an error. -/
def Readable : (act : Db × String) → act.1.Fut → Prop
  | (.getImsiSec, _), fut => fut ≠ (none : Option (Option SecRow))
  | _, _ => True

/-- A callback that runs inside its call has such a future. -/
def ReadableReg : (act : Db × String) → Reg act.1.Fut → Prop
  | act, .immediate fut => Readable act fut
  | _, _ => True

/-- The bit that the next phase waits for. -/
def need (phase : Nat) : BitVec 32 :=
  if phase = phase2 then Db.getImsiSec.item else if phase = phase3 then Db.updateImsi.item else 0

/-- The promises of an AIR processor whose phases stay within a list. -/
def terms (phases : List Nat) (d : Data) : Terms kind where
  promise act := act.1.item
  need := need
  phaseOk phase := phase ∈ phases
  regOk := ReadableReg
  futOk := Readable
  first := phase1
  data := d

section

variable {R : Type} (cipher : BlockCipher R)
  (kdf : List (BitVec 8) → List (BitVec 8) → Bytes 32) (env : Surroundings R)
  {phases : List Nat} {d : Data} {g : Oath kind}

/-- The value after the completion of an item. -/
def done (g : Oath kind) (item : BitVec 32) (fresh : Option Data) : Oath kind :=
  { g with promise := g.promise &&& ~~~item, due := g.due ||| item, fresh := fresh }

theorem wp_complete {item : BitVec 32} {success : Bool} {Q : Unit → Oath kind → Prop}
    (h : Q () (done g item g.fresh)) :
    (dbOpComplete item success : Proc kind Unit).wp (oathGhost (terms phases d)).spec g Q :=
  Ghost.wp_then trivial fun _ _ => Ghost.wp_call trivial fun _ _ => h

theorem wp_onImsiSec {fut : Option (Option SecRow)} {Q : Unit → Oath kind → Prop}
    (hf : fut ≠ none) (h : ∀ fresh, Q () (done g Db.getImsiSec.item fresh)) :
    (onImsiSec env fut).wp (oathGhost (terms phases d)).spec g Q := by
  match fut, hf with
  | some none, _ => exact wp_complete (h _)
  | some (some row), _ => exact Ghost.wp_then trivial fun _ _ => wp_complete (h _)

theorem handler_kept (act : Db × String) (fut : act.1.Fut) (hf : Readable act fut) :
    (handler env act fut).wp (oathGhost (terms phases d)).spec ((terms phases d).task act)
      (fun _ g => g.promise = 0) := by
  match act, fut, hf with
  | (.getImsiSec, _), fut, hf =>
    refine wp_onImsiSec env hf fun _ => ?_
    show Db.getImsiSec.item &&& ~~~Db.getImsiSec.item = 0
    decide
  | (.updateImsi, _), fut, _ =>
    refine wp_complete ?_
    show Db.updateImsi.item &&& ~~~Db.updateImsi.item = 0
    decide

/-- A call that is counted when it has succeeded: afterwards its bit is due. -/
theorem wp_issueDue {act : Db × String} {handler : act.1.Fut → Proc kind Unit}
    {rest : Proc kind Unit} {Q : Unit → Oath kind → Prop}
    (hh : ∀ fut, Readable act fut → ∀ Q : Unit → Oath kind → Prop,
      (∀ fresh, Q () (done g act.1.item fresh)) →
      (handler fut).wp (oathGhost (terms phases d)).spec g Q)
    (hrest : rest.wp (oathGhost (terms phases d)).spec g Q)
    (hQ : ∀ g' : Oath kind, g'.due = g.due ||| act.1.item → g'.phase = g.phase → Q () g') :
    (do
      let success ← issue (K := kind) act handler
      if success then incDbissued else rest).wp (oathGhost (terms phases d)).spec g Q := by
  refine Ghost.wp_bind (Ghost.wp_bind (Ghost.wp_call trivial fun r hr => ?_))
  cases r with
  | failed => exact hrest
  | registered => exact ⟨trivial, fun _ _ => hQ _ rfl rfl⟩
  | immediate fut =>
    exact Ghost.wp_bind (hh fut hr _ fun fresh =>
      ⟨trivial, fun _ _ => ⟨trivial, fun _ _ => hQ _ rfl rfl⟩⟩)

theorem wp_rejectOath {final : Nat} {r : Rejection} {Q : Unit → Oath kind → Prop}
    (hl : g.inLoop = true) (hp : final ∈ phases) (h : Q () { g with phase := final }) :
    (reject final r).wp (oathGhost (terms phases d)).spec g Q :=
  Ghost.wp_then trivial fun _ _ => Ghost.wp_call ⟨hl, hp⟩ fun _ _ => h

/-- The phases of an AIR that is not rejected. -/
def goodPhases : List Nat := [phaseFinal, phase1, phase2, phase3]

theorem phase2_mem : phase2 ∈ goodPhases := by decide
theorem phase3_mem : phase3 ∈ goodPhases := by decide
theorem phaseFinal_mem : phaseFinal ∈ goodPhases := by decide

theorem atEnd_of_due {g : Oath kind} (hp : g.phase ≠ phase1)
    (hd : ∀ b, (need g.phase).getLsbD b = true → g.due.getLsbD b = true) :
    g.AtEnd (terms phases d) := ⟨hd, fun h => absurd h hp⟩

theorem atEnd_free {g : Oath kind} (hp : g.phase ≠ phase1) (hn : need g.phase = 0) :
    g.AtEnd (terms phases d) := by
  refine atEnd_of_due hp fun b hb => ?_
  rw [hn] at hb
  simp at hb

theorem atEnd_final {g : Oath kind} (hp : g.phase = phaseFinal) : g.AtEnd (terms phases d) :=
  atEnd_free (by rw [hp]; decide) (by rw [hp]; rfl)

theorem phase1Body_kept {req : Request} {d' : Data} (hd : phase1Checks env req d = .ok d') :
    (phase1Body env req).wp (oathGhost (terms goodPhases d)).spec
      ((terms goodPhases d).begin phase1) (fun _ g => g.AtEnd (terms goodPhases d)) := by
  refine Ghost.wp_then trivial fun r hr => ?_
  obtain rfl : r = d := hr d rfl
  rw [hd]
  refine Ghost.wp_then trivial fun _ _ => Ghost.wp_then ⟨rfl, phase2_mem⟩ fun _ _ => ?_
  refine wp_issueDue ?_ ?_ ?_
  · intro fut hf Q h
    exact wp_onImsiSec env hf h
  · exact wp_rejectOath rfl (by decide) (atEnd_final rfl)
  · intro g' hdue hphase
    have hphase' : g'.phase = phase2 := hphase
    refine atEnd_of_due (by rw [hphase']; decide) fun b hb => ?_
    rw [hphase'] at hb
    rw [hdue, BitVec.getLsbD_or, show Db.getImsiSec.item.getLsbD b = true from hb, Bool.or_true]

theorem phase2Body_kept :
    (phase2Body cipher kdf env).wp (oathGhost (terms goodPhases d)).spec
      ((terms goodPhases d).begin phase2) (fun _ g => g.AtEnd (terms goodPhases d)) := by
  refine Ghost.wp_then trivial fun result _ => Ghost.wp_then trivial fun r _ => ?_
  split
  · exact wp_rejectOath rfl (by decide) (atEnd_final rfl)
  refine Ghost.wp_then trivial fun _ _ => Ghost.wp_then trivial fun _ _ =>
    Ghost.wp_then ⟨rfl, phase3_mem⟩ fun _ _ => ?_
  refine wp_issueDue ?_ ?_ ?_
  · intro fut _ Q h
    exact wp_complete (h _)
  · exact Ghost.wp_call ⟨rfl, phaseFinal_mem⟩ fun _ _ => atEnd_final rfl
  · intro g' hdue hphase
    have hphase' : g'.phase = phase3 := hphase
    refine atEnd_of_due (by rw [hphase']; decide) fun b hb => ?_
    rw [hphase'] at hb
    rw [hdue, BitVec.getLsbD_or, show Db.updateImsi.item.getLsbD b = true from hb, Bool.or_true]

theorem body_kept {req : Request} {d' : Data} (hd : phase1Checks env req d = .ok d') (phase : Nat)
    (x : BitVec 32) (dd : Data) (hr : ready phase x dd = true) :
    (body cipher kdf env req phase).wp (oathGhost (terms goodPhases d)).spec
      ((terms goodPhases d).begin phase) (fun _ g => g.AtEnd (terms goodPhases d)) := by
  rcases ready_phase hr with rfl | rfl | rfl
  · exact phase1Body_kept env hd
  · exact phase2Body_kept cipher kdf env
  · exact Ghost.wp_call ⟨rfl, phaseFinal_mem⟩ fun _ _ => atEnd_final rfl

/-- The phases of an AIR that is rejected. -/
def badPhases : List Nat := [phase1, ulrPhaseFinal]

theorem phase1Body_rejects {req : Request} {r : Rejection}
    (hd : phase1Checks env req d = .error r) :
    (phase1Body env req).wp (oathGhost (terms badPhases d)).spec
      ((terms badPhases d).begin phase1) (fun _ g => g.AtEnd (terms badPhases d)) := by
  refine Ghost.wp_then trivial fun r hr => ?_
  obtain rfl : r = d := hr d rfl
  rw [hd]
  exact wp_rejectOath rfl (by decide) (atEnd_free (by decide : ulrPhaseFinal ≠ phase1) rfl)

theorem body_rejects {req : Request} {r : Rejection} (hd : phase1Checks env req d = .error r)
    (phase : Nat) (hp : phase ∈ badPhases) (x : BitVec 32) (dd : Data)
    (hr : ready phase x dd = true) :
    (body cipher kdf env req phase).wp (oathGhost (terms badPhases d)).spec
      ((terms badPhases d).begin phase) (fun _ g => g.AtEnd (terms badPhases d)) := by
  rcases List.mem_cons.mp hp with rfl | hp
  · exact phase1Body_rejects env hd
  · rw [List.mem_singleton.mp hp] at hr
    cases (show false = true from hr)

theorem assumed {C : State kind → Env kind × Move → Prop} {phases : List Nat} {d : Data}
    (hC : ∀ s e m, C s (e, m) → ∀ act, Readable act (e.db act)) :
    (terms phases d).Assumed C := by
  intro s e m hc
  refine ⟨hC s e m hc, fun q _ => q.elim, fun o r hr => ?_⟩
  cases o with
  | register act =>
    obtain rfl := Option.some.inj hr
    show ReadableReg act _
    cases e.reg act with
    | inline => exact hC s e m hc act
    | _ => trivial
  | _ => trivial

/-- With the bits it waits for a phase is ready. -/
theorem ready_of_bits {phase : Nat} {x : BitVec 32} {d : Data} (hp : phase ∈ goodPhases)
    (hx : ∀ b, (need phase).getLsbD b = true → x.getLsbD b = true) :
    phase = phaseFinal ∨ ready phase x d = true := by
  have hand : ∀ {item : BitVec 32} {b : Nat}, item.getLsbD b = true → x.getLsbD b = true →
      (x &&& item != 0) = true := by
    intro item b hi hb
    rw [bne_iff_ne]
    intro he
    have := congrArg (fun y => y.getLsbD b) he
    simp [hi, hb] at this
  simp only [goodPhases, List.mem_cons, List.not_mem_nil, or_false] at hp
  rcases hp with rfl | rfl | rfl | rfl
  · exact Or.inl rfl
  · exact Or.inr rfl
  · exact Or.inr (hand (b := 0) rfl (hx 0 rfl))
  · exact Or.inr (hand (b := 1) rfl (hx 1 rfl))

section

variable {C : State kind → Env kind × Move → Prop} {req : Request} {s : State kind}

/-- An AIR that `phase1` accepts is deleted in the end. -/
theorem deleted_of_accepted {d' : Data}
    (hC : ∀ s e m, C s (e, m) → ∀ act, Readable act (e.db act))
    (hd : phase1Checks env req d = .ok d')
    (h : Run (code cipher kdf env req) C (State.init phase1 d) s) (hq : s.Quiescent) :
    s.core.status = .deleted := by
  obtain ⟨halive, hphase, hset⟩ := bits_set (T := terms goodPhases d)
    (M := code cipher kdf env req) (assumed hC)
    (fun phase x dd _ _ hr => body_kept cipher kdf env hd phase x dd hr)
    (handler_kept env) (show phase1 ∈ goodPhases by decide) rfl h
  cases hst : s.core.status with
  | deleted => rfl
  | aborted => exact absurd hst halive
  | running =>
    have hreplies : RepliesOk C (regOk false) := repliesOk fun _ _ _ _ hf => absurd hf Bool.false_ne_true
    have hfinal := not_final_of_quiescent h hq hst (counters_exact hreplies
      (body_balanced cipher kdf env req) (handler_balanced env) h)
    have hnot := not_ready_of_quiescent h hq hst
    unfold Core.phaseReady at hnot
    rw [if_neg hfinal] at hnot
    have hnot' : ready s.core.m_nextphase s.core.m_dbexecuted s.core.data = false := hnot
    have hbits : ∀ b, (need s.core.m_nextphase).getLsbD b = true →
      s.core.m_dbexecuted.getLsbD b = true := hset hq
    have hphase' : s.core.m_nextphase ∈ goodPhases := hphase
    rcases ready_of_bits hphase' hbits with hf | hr
    · exact absurd hf hfinal
    · rw [hr] at hnot'
      cases hnot'

/-- An AIR that `phase1` rejects is never deleted. -/
theorem not_deleted_of_rejected {r : Rejection}
    (hC : ∀ s e m, C s (e, m) → ∀ act, Readable act (e.db act))
    (hd : phase1Checks env req d = .error r)
    (h : Run (code cipher kdf env req) C (State.init phase1 d) s) : s.core.status ≠ .deleted := by
  intro hdel
  obtain ⟨t, e, ht, -, -, -, -, hf, rfl⟩ := deleted_last h rfl hdel
  obtain ⟨-, hphase, -⟩ := bits_set (T := terms badPhases d) (M := code cipher kdf env req)
    (assumed hC) (fun phase x dd hp _ hr => body_rejects cipher kdf env hd phase hp x dd hr)
    (handler_kept env) (show phase1 ∈ badPhases by decide) rfl ht
  have hphase' : t.core.m_nextphase ∈ badPhases := hphase
  rw [show t.core.m_nextphase = phaseFinal from hf] at hphase'
  exact absurd hphase' (by decide)

end

end

end OpenairHss.AirProcessor
