import OpenairHss.Processor.Promise
import OpenairHss.Ulr.Scene

/-!
# What the threads of a ULR know

The worker knows the members that it alone writes (`Mine`), up to a predicate.  A callback knows
what it has written itself, and this stays true: `m_orig_info` is written only with the row of the
subscriber and `m_mmeidentity` only with the id of the MME, so a second write changes nothing.  Bits
of `m_dbexecuted` stay set, and with them the facts that they stand for (`Facts`).

The result bit of the subscriber is different: any operation that fails clears it.  `strict` says
that none fails before `phase2` has read it.

`Standing` says where the processor is between two phases, and `watched` that this holds in every
reachable state.
-/

namespace OpenairHss.Ulr

open Interact Processor Diameter

/-! ### Knowledge -/

/-- What only the worker writes. -/
structure Mine where
  phase : Nat
  results : List DiamResult
  view : View

def mineOf (c : Core kind) : Mine :=
  ⟨c.m_nextphase, c.answers.map Ula.result, Data.view c.data⟩

/-- `phase2` has not been run yet. -/
def Early (phase : Nat) : Prop := phase = phase1 ∨ phase = phase2

instance (phase : Nat) : Decidable (Early phase) :=
  inferInstanceAs (Decidable (phase = phase1 ∨ phase = phase2))

/-- The ghost value of a thread: what it knows. -/
structure Seen where
  inLoop : Bool
  mine : Mine → Prop
  /-- Bits of `m_dbexecuted` that are set. -/
  bits : BitVec 32
  /-- The row of the subscriber is in `m_orig_info`. -/
  orig : Prop
  /-- Its result bit is as it should be. -/
  judged : Prop
  /-- The id of the MME is in `m_mmeidentity`. -/
  mme : Prop
  /-- `phase2` has been run. -/
  late : Prop
  /-- The update has been answered. -/
  upd : Prop

def Seen.Late (g : Seen) : Prop := g.late ∨ g.inLoop = true ∧ ∀ m, g.mine m → ¬ Early m.phase

section

variable (S : Scene) (strict : Prop)

/-- The values `m_orig_info` can have, and those of `m_mmeidentity`. -/
def OrigIn (d : Data) : Prop := d.orig_info = S.start.orig_info ∨ d.orig_info = S.orig
def MmeIn (d : Data) : Prop := d.mmeidentity = S.start.mmeidentity ∨ d.mmeidentity = S.mme

/-- A change of the data that a thread may make. -/
structure Allowed (f : Data → Data) : Prop where
  orig : ∀ d, OrigIn S d → (f d).orig_info = d.orig_info ∨ (f d).orig_info = S.orig
  mme : ∀ d, MmeIn S d → (f d).mmeidentity = d.mmeidentity ∨ (f d).mmeidentity = S.mme

/-- The effect of an operation on what its thread knows. -/
def Seen.after (g : Seen) : (o : Op kind) → o.Res → Seen
  | .result item success, _ =>
    { g with judged := g.judged ∨ item.getLsbD 0 = true ∧ success = S.outcomes.found }
  | .executed item, _ => { g with bits := g.bits ||| item }
  | .setPhase phase, _ => { g with mine := fun m' => ∃ m, g.mine m ∧ m' = { m with phase := phase } }
  | .answer ans, _ =>
    { g with mine := fun m' => ∃ m, g.mine m ∧ m' = { m with results := m.results ++ [ans.result] } }
  | .modify f, _ =>
    { g with
      mine := fun m' => ∃ m d, g.mine m ∧ (g.inLoop = true → m.view = Data.view d) ∧
        m' = { m with view := if g.inLoop then Data.view (f d) else m.view }
      orig := g.orig ∨ ∀ d : Data, OrigIn S d → Data.orig_info (f d) = S.orig
      mme := g.mme ∨ ∀ d : Data, MmeIn S d → Data.mmeidentity (f d) = S.mme }
  | .register act, .immediate _ => { g with upd := g.upd ∨ act.1 = .updateImsi }
  | _, _ => g

/-- What an operation demands. -/
def Seen.permits (g : Seen) : Op kind → Prop
  | .result item success =>
    (item.getLsbD 0 = true → success = true → S.outcomes.found = true) ∧
      (success = false → strict → g.Late)
  | .executed item => S.outcomes.issued = true →
    (item.getLsbD 0 = true → (g.orig ∨ S.orig = S.start.orig_info) ∧ g.judged) ∧
    (item.getLsbD 5 = true → g.mme ∨ S.mme = S.start.mmeidentity) ∧
    (item.getLsbD 6 = true → g.upd ∨ S.outcomes.fails .updateImsi = true)
  | .setPhase phase => g.inLoop = true ∧ (Early phase → ∀ m, g.mine m → Early m.phase)
  | .answer ans => g.inLoop = true ∧ (∀ m, g.mine m → m.results = []) ∧
    ((strict ∨ S.tooLong = true ∨ S.outcomes.issued = false ∨ S.outcomes.found = false) →
      ans.result = S.expected)
  | .modify f => Allowed S f ∧ (g.inLoop = true ∨ ∀ d : Data, Data.view (f d) = d.view)
  | .events item success f => Allowed S f ∧ (∀ d : Data, Data.view (f d) = d.view) ∧
    (success = false → strict → g.Late) ∧
    item.getLsbD 0 = false ∧ item.getLsbD 5 = false ∧ item.getLsbD 6 = false
  | .register act => act.1 = .updateImsi → g.inLoop = true ∧
    (∃ d, S.Accepts d ∧ act.2 = S.updateText d) ∧
    ∀ m, g.mine m → m.results = [.resultCode erDiameterSuccess] ∧ ¬ Early m.phase
  | _ => True

/-- The replies that are possible. -/
def Seen.expects (g : Seen) : (o : Op kind) → o.Res → Prop
  | .get, d => (g.inLoop = true → ∃ m, g.mine m ∧ m.view = Data.view d) ∧
    (g.orig ∨ S.outcomes.issued = true ∧ g.bits.getLsbD 0 = true →
      Data.orig_info d = S.orig) ∧
    (g.mme ∨ S.outcomes.issued = true ∧ g.bits.getLsbD 5 = true → Data.mmeidentity d = S.mme)
  | .getResult, r => g.inLoop = true → S.outcomes.issued = true → g.bits.getLsbD 0 = true →
    (BitVec.getLsbD r 0 = true → S.outcomes.found = true) ∧
    (strict → (∀ m, g.mine m → Early m.phase) → S.outcomes.found = true →
      BitVec.getLsbD r 0 = true)
  | .register act, r =>
    (r = .failed ∧ S.outcomes.failed act = true) ∨
      (r = .registered ∧ S.outcomes.failed act = false) ∨
      r = .immediate (S.outcomes.db act) ∧ S.outcomes.failed act = false
  | _, _ => True

def seenGhost : Ghost kind Seen where
  demand o g := g.permits S strict o
  allow o g r := g.expects S strict o r
  next o g r := g.after S o r

/-! ### What holds of the core -/

/-- An update that is pending or answered. -/
def Updates (c : Core kind) : Prop :=
  (∃ act ∈ c.pending, act.1 = Db.updateImsi) ∨ ∃ p ∈ c.resolved, p.1.1 = Db.updateImsi

/-- What the bits of `m_dbexecuted` stand for, and what is known of the updates. -/
structure Facts (c : Core kind) : Prop where
  orig : OrigIn S c.data
  mme : MmeIn S c.data
  imsi : S.outcomes.issued = true → c.m_dbexecuted.getLsbD 0 = true →
    Data.orig_info c.data = S.orig ∧ (S.outcomes.found = false → c.m_dbresult.getLsbD 0 = false)
  kept : strict → S.outcomes.issued = true → Early c.m_nextphase →
    c.m_dbexecuted.getLsbD 0 = true → S.outcomes.found = true → c.m_dbresult.getLsbD 0 = true
  mmeid : S.outcomes.issued = true → c.m_dbexecuted.getLsbD 5 = true →
    Data.mmeidentity c.data = S.mme
  pending : ∀ act ∈ c.pending, act.1 = Db.updateImsi → ∃ d, S.Accepts d ∧ act.2 = S.updateText d
  resolved : ∀ p ∈ c.resolved, p.1.1 = Db.updateImsi →
    p.2 = S.outcomes.db p.1 ∧ ∃ d, S.Accepts d ∧ p.1.2 = S.updateText d
  updates : Updates c →
    (mineOf c).results = [.resultCode erDiameterSuccess] ∧ ¬ Early c.m_nextphase
  updated : S.outcomes.issued = true → c.m_dbexecuted.getLsbD 6 = true →
    (∃ p ∈ c.resolved, p.1.1 = Db.updateImsi) ∨ S.outcomes.fails .updateImsi = true
  answers : (strict ∨ S.tooLong = true ∨ S.outcomes.issued = false ∨ S.outcomes.found = false) →
    ∀ r ∈ (mineOf c).results, r = S.expected

/-- What a thread knows is true. -/
structure Known (c : Core kind) (g : Seen) : Prop where
  orig : g.orig → Data.orig_info c.data = S.orig
  mme : g.mme → Data.mmeidentity c.data = S.mme
  late : g.late → ¬ Early c.m_nextphase
  kept : g.judged → S.outcomes.found = true → strict → Early c.m_nextphase →
    c.m_dbresult.getLsbD 0 = true
  cleared : g.judged → S.outcomes.found = false → c.m_dbresult.getLsbD 0 = false
  upd : g.upd → ∃ p ∈ c.resolved, p.1.1 = Db.updateImsi
  bits : ∀ b, g.bits.getLsbD b = true → c.m_dbexecuted.getLsbD b = true

/-- What a step of another thread leaves true. -/
structure Rely (c c' : Core kind) : Prop where
  orig : Data.orig_info c.data = S.orig → Data.orig_info c'.data = S.orig
  mme : Data.mmeidentity c.data = S.mme → Data.mmeidentity c'.data = S.mme
  early : Early c'.m_nextphase → Early c.m_nextphase
  kept : strict → Early c'.m_nextphase → c.m_dbresult.getLsbD 0 = true →
    c'.m_dbresult.getLsbD 0 = true
  cleared : S.outcomes.found = false → c.m_dbresult.getLsbD 0 = false →
    c'.m_dbresult.getLsbD 0 = false
  upd : (∃ p ∈ c.resolved, p.1.1 = Db.updateImsi) → ∃ p ∈ c'.resolved, p.1.1 = Db.updateImsi
  bits : ∀ b, c.m_dbexecuted.getLsbD b = true → c'.m_dbexecuted.getLsbD b = true

/-- Where the processor is between two phases. -/
inductive Standing : Mine → BitVec 32 → Prop
  | phase1 (x : BitVec 32) : Standing ⟨phase1, [], S.start.view⟩ x
  | phase2 (x : BitVec 32) (ht : S.tooLong = false) (hi : S.outcomes.issued = true) :
    Standing ⟨phase2, [], S.data1.view⟩ x
  | phase3 (x : BitVec 32) {d : Data} (h : S.Accepts d) : Standing ⟨phase3, [], d.view⟩ x
  | phase4 (x : BitVec 32) {d : Data} (h : S.Accepts d) :
    Standing ⟨phase4, [.resultCode erDiameterSuccess], d.view⟩ x
  | phase5 (x : BitVec 32) (v : View) (hi : S.outcomes.issued = true) :
    Standing ⟨phase5, [.resultCode erDiameterSuccess], v⟩ x
  | final (x : BitVec 32) (v : View) (r : DiamResult)
    (h : r = .resultCode erDiameterSuccess → S.outcomes.issued = true ∧
      (x.getLsbD 6 = true ∨ S.outcomes.fails .updateImsi = true)) :
    Standing ⟨phaseFinal, [r], v⟩ x

end

section Stability

variable {S : Scene} {strict : Prop} {c c' : Core kind} {g : Seen} {o : Op kind} {r : o.Res}

theorem Known.rely (h : Known S strict c g) (hr : Rely S strict c c') : Known S strict c' g where
  orig ho := hr.orig (h.orig ho)
  mme hm := hr.mme (h.mme hm)
  late hl he := h.late hl (hr.early he)
  kept hj hf hs he := hr.kept hs he (h.kept hj hf hs (hr.early he))
  cleared hj hf := hr.cleared hf (h.cleared hj hf)
  upd hu := hr.upd (h.upd hu)
  bits b hb := hr.bits b (h.bits b hb)

theorem Standing.mono {m : Mine} {x y : BitVec 32} (h : Standing S m x)
    (hxy : ∀ b, x.getLsbD b = true → y.getLsbD b = true) : Standing S m y := by
  cases h with
  | phase1 => exact .phase1 y
  | phase2 _ ht hi => exact .phase2 y ht hi
  | phase3 _ h => exact .phase3 y h
  | phase4 _ h => exact .phase4 y h
  | phase5 _ v hi => exact .phase5 y v hi
  | final _ v r h =>
    exact .final y v r fun hr => ⟨(h hr).1, (h hr).2.imp_left (hxy 6)⟩

/-- A thread that knows that `phase2` has been run is right. -/
theorem Known.not_early (h : Known S strict c g) (hm : g.inLoop = true → g.mine (mineOf c))
    (hl : g.Late) : ¬ Early c.m_nextphase := by
  rcases hl with hl | ⟨hi, hl⟩
  · exact h.late hl
  · exact hl _ (hm hi)

/-- An operation that fails clears the bit of the subscriber only if that does not matter. -/
theorem resultMask_kept {item result : BitVec 32} {success : Bool}
    (hs : success = false → ¬ Early c.m_nextphase) (he : Early c.m_nextphase)
    (hb : result.getLsbD 0 = true) : (resultMask item success result).getLsbD 0 = true := by
  cases success with
  | false => exact absurd he (hs rfl)
  | true => simp [resultMask, hb]

theorem effect_rely (hf : Facts S strict c) (h : Known S strict c g)
    (hm : g.inLoop = true → g.mine (mineOf c)) (hd : g.permits S strict o) :
    Rely S strict c (c.effect o r) := by
  have bits := effect_executed c o r
  cases o with
  | result item success =>
    refine ⟨id, id, id, fun hs he hb => ?_, fun hfound hb => ?_, id, bits⟩
    · exact resultMask_kept (fun hsucc => h.not_early hm (hd.2 hsucc hs)) he hb
    · exact resultMask_cleared (fun hi hs => absurd (hfound.symm.trans (hd.1 hi hs)) Bool.false_ne_true) hb
  | setPhase phase =>
    exact ⟨id, id, fun he => hd.2 he _ (hm hd.1), fun _ _ hb => hb, fun _ hb => hb, id, bits⟩
  | modify f =>
    refine ⟨fun ho => ?_, fun hmme => ?_, id, fun _ _ hb => hb, fun _ hb => hb, id, bits⟩
    · rcases hd.1.orig c.data hf.orig with he | he
      · exact he.trans ho
      · exact he
    · rcases hd.1.mme c.data hf.mme with he | he
      · exact he.trans hmme
      · exact he
  | events item success f =>
    refine ⟨fun ho => ?_, fun hmme => ?_, id, fun hs he hb => ?_, fun _ hb => ?_, id, bits⟩
    · rcases hd.1.orig c.data hf.orig with he | he
      · exact he.trans ho
      · exact he
    · rcases hd.1.mme c.data hf.mme with he | he
      · exact he.trans hmme
      · exact he
    · cases success with
      | false => exact absurd he (h.not_early hm (hd.2.2.1 rfl hs))
      | true => exact hb
    · cases success with
      | false =>
        show (resultMask item false c.m_dbresult).getLsbD 0 = false
        exact resultMask_cleared (fun _ h => absurd h Bool.false_ne_true) hb
      | true => exact hb
  | register act =>
    cases r with
    | immediate fut =>
      refine ⟨id, id, id, fun _ _ hb => hb, fun _ hb => hb, ?_, bits⟩
      rintro ⟨p, hp, hu⟩
      exact ⟨p, List.mem_append_left _ hp, hu⟩
    | _ => exact ⟨id, id, id, fun _ _ hb => hb, fun _ hb => hb, id, bits⟩
  | _ => exact ⟨id, id, id, fun _ _ hb => hb, fun _ hb => hb, id, bits⟩

/-- What a thread learns from its own operation. -/
theorem effect_known (hf : Facts S strict c) (h : Known S strict c g)
    (hm : g.inLoop = true → g.mine (mineOf c)) (hd : g.permits S strict o) :
    Known S strict (c.effect o r) (g.after S o r) := by
  have h' := h.rely (effect_rely (r := r) hf h hm hd)
  cases o with
  | result item success =>
    refine ⟨h'.orig, h'.mme, h'.late, fun hj hfound hs he => ?_, fun hj hfound => ?_, h'.upd,
      h'.bits⟩
    · rcases hj with hg | ⟨hi, hsucc⟩
      · exact h'.kept hg hfound hs he
      · show (resultMask item success c.m_dbresult).getLsbD 0 = true
        simp [resultMask, hi, hsucc, hfound]
    · rcases hj with hg | ⟨hi, hsucc⟩
      · exact h'.cleared hg hfound
      · show (resultMask item success c.m_dbresult).getLsbD 0 = false
        have hne : item ≠ 0 := by
          rintro rfl
          exact absurd hi (by decide)
        rw [hsucc, hfound, resultMask, if_neg Bool.false_ne_true, if_neg hne]
        simp
  | executed item =>
    refine ⟨h'.orig, h'.mme, h'.late, h'.kept, h'.cleared, h'.upd, fun b hb => ?_⟩
    have hor : (g.bits ||| item).getLsbD b = true := hb
    show (c.m_dbexecuted ||| item).getLsbD b = true
    rw [BitVec.getLsbD_or, Bool.or_eq_true] at hor ⊢
    exact hor.imp_left (h.bits b)
  | modify f =>
    refine ⟨fun ho => ?_, fun hmme => ?_, h'.late, h'.kept, h'.cleared, h'.upd, h'.bits⟩
    · rcases ho with hg | hset
      · exact h'.orig hg
      · exact hset _ hf.orig
    · rcases hmme with hg | hset
      · exact h'.mme hg
      · exact hset _ hf.mme
  | register act =>
    cases r with
    | immediate fut =>
      refine ⟨h'.orig, h'.mme, h'.late, h'.kept, h'.cleared, fun hu => ?_, h'.bits⟩
      rcases hu with hg | hact
      · exact h'.upd hg
      · exact ⟨⟨act, fut⟩, List.mem_append_right _ (List.mem_singleton.mpr rfl), hact⟩
    | _ => exact ⟨h'.orig, h'.mme, h'.late, h'.kept, h'.cleared, h'.upd, h'.bits⟩
  | _ => exact ⟨h'.orig, h'.mme, h'.late, h'.kept, h'.cleared, h'.upd, h'.bits⟩

/-- The worker keeps track of what it writes. -/
theorem effect_mine (hi : g.inLoop = true) (hm : g.mine (mineOf c)) (hd : g.permits S strict o) :
    (g.after S o r).mine (mineOf (c.effect o r)) := by
  cases o with
  | setPhase phase => exact ⟨_, hm, rfl⟩
  | answer ans => exact ⟨_, hm, by simp [mineOf, Core.effect]⟩
  | modify f => exact ⟨_, c.data, hm, fun _ => rfl, by simp [mineOf, Core.effect, hi]⟩
  | events item success f =>
    have he : mineOf (c.effect (.events item success f) r) = mineOf c := by
      simp only [mineOf, Core.effect]
      rw [hd.2.1 c.data]
    rw [he]
    exact hm
  | register act => cases r <;> exact hm
  | _ => exact hm

/-- A callback writes nothing of that. -/
theorem effect_mine_eq (hi : g.inLoop = false) (hd : g.permits S strict o) :
    mineOf (c.effect o r) = mineOf c := by
  cases o with
  | setPhase phase => exact absurd (hi.symm.trans hd.1) Bool.false_ne_true
  | answer ans => exact absurd (hi.symm.trans hd.1) Bool.false_ne_true
  | modify f =>
    have hv : ∀ d : Data, Data.view (f d) = d.view := hd.2.resolve_left (by rw [hi]; exact Bool.false_ne_true)
    simp only [mineOf, Core.effect]
    rw [hv c.data]
  | events item success f =>
    simp only [mineOf, Core.effect]
    rw [hd.2.1 c.data]
  | register act => cases r <;> rfl
  | _ => rfl

theorem Allowed.origIn {f : Data → Data} (h : Allowed S f) {d : Data} (ho : OrigIn S d) :
    OrigIn S (f d) := by
  rcases h.orig d ho with he | he
  · exact ho.imp he.trans he.trans
  · exact Or.inr he

theorem Allowed.mmeIn {f : Data → Data} (h : Allowed S f) {d : Data} (hm : MmeIn S d) :
    MmeIn S (f d) := by
  rcases h.mme d hm with he | he
  · exact hm.imp he.trans he.trans
  · exact Or.inr he

/-- The bits that a callback for events does not set. -/
theorem events_executed {item : BitVec 32} {success : Bool} {f : Data → Data} {b : Nat}
    {u : (Op.events item success f : Op kind).Res} (hi : item.getLsbD b = false) :
    (c.effect (.events item success f) u).m_dbexecuted.getLsbD b = c.m_dbexecuted.getLsbD b := by
  simp only [Core.effect]
  split
  · rw [BitVec.getLsbD_or, hi, Bool.or_false]
  · rfl

theorem executed_cases {x item : BitVec 32} {b : Nat} (h : (x ||| item).getLsbD b = true) :
    x.getLsbD b = true ∨ item.getLsbD b = true := by
  rwa [BitVec.getLsbD_or, Bool.or_eq_true] at h

/-- The facts that only one operation can change. -/
theorem facts_executed {item : BitVec 32} {u : (Op.executed item : Op kind).Res}
    (hf : Facts S strict c) (h : Known S strict c g) (hd : g.permits S strict (.executed item)) :
    Facts S strict (c.effect (.executed item) u) := by
  refine ⟨hf.orig, hf.mme, fun hi hx => ?_, fun hs hi he hx hfound => ?_, fun hi hx => ?_,
    hf.pending, hf.resolved, hf.updates, fun hi hx => ?_, hf.answers⟩
  · rcases executed_cases hx with hx | hx
    · exact hf.imsi hi hx
    · obtain ⟨ho, hj⟩ := (hd hi).1 hx
      refine ⟨?_, h.cleared hj⟩
      rcases ho with ho | ho
      · exact h.orig ho
      · exact hf.orig.elim (fun e => e.trans ho.symm) id
  · rcases executed_cases hx with hx | hx
    · exact hf.kept hs hi he hx hfound
    · exact h.kept ((hd hi).1 hx).2 hfound hs he
  · rcases executed_cases hx with hx | hx
    · exact hf.mmeid hi hx
    · rcases (hd hi).2.1 hx with hm | hm
      · exact h.mme hm
      · exact hf.mme.elim (fun e => e.trans hm.symm) id
  · rcases executed_cases hx with hx | hx
    · exact hf.updated hi hx
    · exact ((hd hi).2.2 hx).imp_left h.upd

theorem facts_register {act : Db × String} {r : (Op.register act : Op kind).Res}
    (hf : Facts S strict c) (hm : g.inLoop = true → g.mine (mineOf c))
    (hd : g.permits S strict (.register act)) (hx : g.expects S strict (.register act) r) :
    Facts S strict (c.effect (.register act) r) := by
  have hold : ∀ {c'}, mineOf c' = mineOf c → c'.m_nextphase = c.m_nextphase →
      (Updates c' → Updates c ∨ act.1 = .updateImsi) → Updates c' →
      (mineOf c').results = [.resultCode erDiameterSuccess] ∧ ¬ Early c'.m_nextphase := by
    intro c' he hp hu hc'
    rw [he, hp]
    rcases hu hc' with hu | hu
    · exact hf.updates hu
    · obtain ⟨hi, _, hmine⟩ := hd hu
      exact hmine _ (hm hi)
  rcases hx with ⟨rfl, _⟩ | ⟨rfl, _⟩ | ⟨rfl, _⟩
  · exact hf
  · refine ⟨hf.orig, hf.mme, hf.imsi, hf.kept, hf.mmeid, fun a ha hu => ?_, hf.resolved,
      hold rfl rfl ?_, hf.updated, hf.answers⟩
    · rcases List.mem_append.mp ha with ha | ha
      · exact hf.pending a ha hu
      · obtain rfl := List.mem_singleton.mp ha
        exact (hd hu).2.1
    · rintro (⟨a, ha, hu⟩ | hu)
      · rcases List.mem_append.mp ha with ha | ha
        · exact Or.inl (Or.inl ⟨a, ha, hu⟩)
        · obtain rfl := List.mem_singleton.mp ha
          exact Or.inr hu
      · exact Or.inl (Or.inr hu)
  · refine ⟨hf.orig, hf.mme, hf.imsi, hf.kept, hf.mmeid, hf.pending, fun p hp hu => ?_,
      hold rfl rfl ?_, fun hi hb => ?_, hf.answers⟩
    · rcases List.mem_append.mp hp with hp | hp
      · exact hf.resolved p hp hu
      · obtain rfl := List.mem_singleton.mp hp
        exact ⟨rfl, (hd hu).2.1⟩
    · rintro (hu | ⟨p, hp, hu⟩)
      · exact Or.inl (Or.inl hu)
      · rcases List.mem_append.mp hp with hp | hp
        · exact Or.inl (Or.inr ⟨p, hp, hu⟩)
        · obtain rfl := List.mem_singleton.mp hp
          exact Or.inr hu
    · exact (hf.updated hi hb).imp_left fun ⟨p, hp, hu⟩ => ⟨p, List.mem_append_left _ hp, hu⟩

theorem effect_facts (hf : Facts S strict c) (h : Known S strict c g)
    (hm : g.inLoop = true → g.mine (mineOf c)) (hd : g.permits S strict o)
    (hx : g.expects S strict o r) : Facts S strict (c.effect o r) := by
  have hr := effect_rely (r := r) hf h hm hd
  cases o with
  | executed item => exact facts_executed hf h hd
  | register act => exact facts_register hf hm hd hx
  | result item success =>
    exact ⟨hf.orig, hf.mme,
      fun hi hb => ⟨(hf.imsi hi hb).1, fun hfound => hr.cleared hfound ((hf.imsi hi hb).2 hfound)⟩,
      fun hs hi he hb hfound => hr.kept hs he (hf.kept hs hi he hb hfound), hf.mmeid, hf.pending,
      hf.resolved, hf.updates, hf.updated, hf.answers⟩
  | setPhase phase =>
    refine ⟨hf.orig, hf.mme, hf.imsi, fun hs hi he => hf.kept hs hi (hr.early he), hf.mmeid,
      hf.pending, hf.resolved, fun hu => ?_, hf.updated, hf.answers⟩
    exact ⟨(hf.updates hu).1, fun he => (hf.updates hu).2 (hr.early he)⟩
  | answer ans =>
    have hnone : (mineOf c).results = [] := hd.2.1 _ (hm hd.1)
    have hresults : (mineOf (c.effect (.answer ans) r)).results = [ans.result] := by
      have : (mineOf (c.effect (.answer ans) r)).results = (mineOf c).results ++ [ans.result] := by
        simp [mineOf, Core.effect]
      rw [this, hnone, List.nil_append]
    refine ⟨hf.orig, hf.mme, hf.imsi, hf.kept, hf.mmeid, hf.pending, hf.resolved, fun hu => ?_,
      hf.updated, fun hfix a ha => ?_⟩
    · have := (hf.updates hu).1
      rw [hnone] at this
      cases this
    · rw [hresults] at ha
      rw [List.mem_singleton.mp ha]
      exact hd.2.2 hfix
  | modify f =>
    exact ⟨hd.1.origIn hf.orig, hd.1.mmeIn hf.mme,
      fun hi hb => ⟨hr.orig (hf.imsi hi hb).1, (hf.imsi hi hb).2⟩, hf.kept,
      fun hi hb => hr.mme (hf.mmeid hi hb), hf.pending, hf.resolved, hf.updates, hf.updated,
      hf.answers⟩
  | events item success f =>
    obtain ⟨hallow, hview, _, h0, h5, h6⟩ := hd
    refine ⟨hallow.origIn hf.orig, hallow.mmeIn hf.mme, fun hi hb => ?_, fun hs hi he hb hfound => ?_,
      fun hi hb => ?_, hf.pending, hf.resolved, hf.updates, fun hi hb => ?_, hf.answers⟩
    · rw [events_executed h0] at hb
      exact ⟨hr.orig (hf.imsi hi hb).1, fun hfound => hr.cleared hfound ((hf.imsi hi hb).2 hfound)⟩
    · rw [events_executed h0] at hb
      exact hr.kept hs he (hf.kept hs hi he hb hfound)
    · rw [events_executed h5] at hb
      exact hr.mme (hf.mmeid hi hb)
    · rw [events_executed h6] at hb
      exact hf.updated hi hb
  | _ => exact ⟨hf.orig, hf.mme, hf.imsi, hf.kept, hf.mmeid, hf.pending, hf.resolved, hf.updates,
      hf.updated, hf.answers⟩

theorem reply_expected {e : Env kind} (ha : S.outcomes.Agrees e) (hf : Facts S strict c)
    (h : Known S strict c g) (hm : g.inLoop = true → g.mine (mineOf c))
    (hr : e.reply c o = some r) : g.expects S strict o r := by
  cases o with
  | get =>
    obtain rfl := Option.some.inj hr
    refine ⟨fun hi => ⟨_, hm hi, rfl⟩, ?_, ?_⟩
    · rintro (ho | ⟨hi, hb⟩)
      · exact h.orig ho
      · exact (hf.imsi hi (h.bits 0 hb)).1
    · rintro (hmme | ⟨hi, hb⟩)
      · exact h.mme hmme
      · exact hf.mmeid hi (h.bits 5 hb)
  | getResult =>
    obtain rfl := Option.some.inj hr
    intro hl hi hb
    have hx := h.bits 0 hb
    refine ⟨fun hres => ?_, fun hs he hfound => hf.kept hs hi (he _ (hm hl)) hx hfound⟩
    cases hfound : S.outcomes.found with
    | true => rfl
    | false => exact absurd hres (by rw [(hf.imsi hi hx).2 hfound]; exact Bool.false_ne_true)
  | register act => exact Outcomes.reg_cases ha hr
  | _ => trivial

end Stability

/-! ### The invariant -/

section

variable (S : Scene) (strict : Prop)

structure Watched (c : Core kind) (gw : Option Seen) (gs : List Seen) : Prop where
  facts : Facts S strict c
  outside : ∀ g ∈ gs, g.inLoop = false ∧ Known S strict c g
  inside : ∀ g ∈ gw, g.inLoop = true ∧ Known S strict c g ∧ g.mine (mineOf c)
  between : gw = none → Standing S (mineOf c) c.m_dbexecuted

/-- What a worker knows when it is about to run a phase. -/
def Seen.begin (m : Mine) (x : BitVec 32) : Seen where
  inLoop := true
  mine := fun m' => m' = m
  bits := x
  orig := False
  judged := False
  mme := False
  late := False
  upd := False

/-- What a callback knows at its beginning. -/
def Seen.task (act : Db × String) : Seen where
  inLoop := false
  mine := fun _ => True
  bits := 0
  orig := False
  judged := False
  mme := False
  late := act.1 = .updateImsi
  upd := act.1 = .updateImsi

/-- What a phase body ends with. -/
def Seen.AtEnd (g : Seen) : Prop := ∀ m, g.mine m → Standing S m g.bits

end

section

variable {S : Scene} {strict : Prop} {c c' : Core kind} {g : Seen} {gs : List Seen}

@[simp] theorem seen_inLoop (o : Op kind) (r : o.Res) : (g.after S o r).inLoop = g.inLoop := by
  cases o with
  | register act => cases r <;> rfl
  | _ => rfl

theorem known_begin : Known S strict c (Seen.begin (mineOf c) c.m_dbexecuted) :=
  ⟨nofun, nofun, nofun, nofun, nofun, nofun, fun _ h => h⟩

/-- A worker that enters the loop, or goes on to the next phase. -/
theorem Watched.begin (h : Watched S strict c none gs) :
    Watched S strict c (some (Seen.begin (mineOf c) c.m_dbexecuted)) gs := by
  refine ⟨h.facts, h.outside, fun g hg => ?_, nofun⟩
  obtain rfl := Option.some.inj hg
  exact ⟨rfl, known_begin, rfl⟩

/-- A worker that leaves the loop. -/
theorem Watched.leave (h : Watched S strict c (some g) gs) (hg : g.AtEnd S) :
    Watched S strict c none gs := by
  obtain ⟨_, hk, hm⟩ := h.inside g rfl
  exact ⟨h.facts, h.outside, nofun, fun _ => (hg _ hm).mono hk.bits⟩

/-- Steps that change nothing of this. -/
theorem Watched.congr {gw : Option Seen} (h : Watched S strict c gw gs)
    (h1 : c'.m_nextphase = c.m_nextphase) (h2 : c'.answers = c.answers) (h3 : c'.data = c.data)
    (h4 : c'.m_dbexecuted = c.m_dbexecuted) (h5 : c'.m_dbresult = c.m_dbresult)
    (h6 : c'.pending = c.pending) (h7 : c'.resolved = c.resolved) : Watched S strict c' gw gs := by
  have hm : mineOf c' = mineOf c := by simp only [mineOf, h1, h2, h3]
  have hu : Updates c' ↔ Updates c := by simp only [Updates, h6, h7]
  have hknown : ∀ g, Known S strict c g → Known S strict c' g := by
    intro g hk
    constructor
    · rw [h3]; exact hk.orig
    · rw [h3]; exact hk.mme
    · rw [h1]; exact hk.late
    · rw [h1, h5]; exact hk.kept
    · rw [h5]; exact hk.cleared
    · rw [h7]; exact hk.upd
    · rw [h4]; exact hk.bits
  have hf := h.facts
  refine ⟨?_, fun g hg => ⟨(h.outside g hg).1, hknown g (h.outside g hg).2⟩, fun g hg => ?_, ?_⟩
  · constructor
    · rw [h3]; exact hf.orig
    · rw [h3]; exact hf.mme
    · rw [h3, h4, h5]; exact hf.imsi
    · rw [h1, h4, h5]; exact hf.kept
    · rw [h3, h4]; exact hf.mmeid
    · rw [h6]; exact hf.pending
    · rw [h7]; exact hf.resolved
    · rw [hu, hm, h1]; exact hf.updates
    · rw [h4, h7]; exact hf.updated
    · rw [hm]; exact hf.answers
  · obtain ⟨h1, h2, h3⟩ := h.inside g hg
    rw [hm]
    exact ⟨h1, hknown g h2, h3⟩
  · rw [hm, h4]
    exact h.between

/-- A call that is answered. -/
theorem Watched.deliver {gw : Option Seen} {act : Db × String} {l₁ l₂ : List (Db × String)}
    (h : Watched S strict c gw gs) (hp : c.pending = l₁ ++ act :: l₂) :
    Watched S strict { c with
      pending := l₁ ++ l₂, resolved := c.resolved ++ [⟨act, S.outcomes.db act⟩] } gw
      (gs ++ [Seen.task act]) := by
  have hf := h.facts
  have hact : act ∈ c.pending := by simp [hp]
  have hsub : ∀ a ∈ l₁ ++ l₂, a ∈ c.pending := by
    intro a ha
    rw [hp]
    rcases List.mem_append.mp ha with ha | ha
    · exact List.mem_append_left _ ha
    · exact List.mem_append_right _ (List.mem_cons_of_mem _ ha)
  have hmem : ∀ p ∈ c.resolved, p ∈ c.resolved ++ [⟨act, S.outcomes.db act⟩] := fun p hp =>
    List.mem_append_left _ hp
  have hrely : Rely S strict c { c with
      pending := l₁ ++ l₂, resolved := c.resolved ++ [⟨act, S.outcomes.db act⟩] } :=
    ⟨id, id, id, fun _ _ hb => hb, fun _ hb => hb, fun ⟨p, hp, hu⟩ => ⟨p, hmem p hp, hu⟩,
      fun _ hb => hb⟩
  refine ⟨⟨hf.orig, hf.mme, hf.imsi, hf.kept, hf.mmeid, fun a ha => hf.pending a (hsub a ha), ?_,
    ?_, fun hi hb => ?_, hf.answers⟩, ?_, ?_, h.between⟩
  · intro p hp hu
    rcases List.mem_append.mp hp with hp | hp
    · exact hf.resolved p hp hu
    · obtain rfl := List.mem_singleton.mp hp
      exact ⟨rfl, hf.pending act hact hu⟩
  · rintro (⟨a, ha, hu⟩ | ⟨p, hp, hu⟩)
    · exact hf.updates (Or.inl ⟨a, hsub a ha, hu⟩)
    · rcases List.mem_append.mp hp with hp | hp
      · exact hf.updates (Or.inr ⟨p, hp, hu⟩)
      · obtain rfl := List.mem_singleton.mp hp
        exact hf.updates (Or.inl ⟨act, hact, hu⟩)
  · exact (hf.updated hi hb).imp_left fun ⟨p, hp, hu⟩ => ⟨p, hmem p hp, hu⟩
  · intro g hg
    rcases List.mem_append.mp hg with hg | hg
    · exact ⟨(h.outside g hg).1, (h.outside g hg).2.rely hrely⟩
    · obtain rfl := List.mem_singleton.mp hg
      refine ⟨rfl, nofun, nofun, fun hu => (hf.updates (Or.inl ⟨act, hact, hu⟩)).2, nofun, nofun,
        fun hu => ⟨⟨act, _⟩, List.mem_append_right _ (List.mem_singleton.mpr rfl), hu⟩,
        fun b hb => ?_⟩
      simp [Seen.task] at hb
  · intro g hg
    obtain ⟨h1, h2, h3⟩ := h.inside g hg
    exact ⟨h1, h2.rely hrely, h3⟩

variable {M : Code kind} {C : State kind → Env kind × Move → Prop}

theorem watched_sound (hC : ∀ s e m, C s (e, m) → S.outcomes.Agrees e)
    (hbody : ∀ m x d, Standing S m x → m.phase ≠ M.final → M.ready m.phase x d = true →
      (M.body m.phase).wp (seenGhost S strict).spec (Seen.begin m x) (fun _ g => g.AtEnd S))
    (hhandler : ∀ act, (M.handler act (S.outcomes.db act)).wp (seenGhost S strict).spec
      (Seen.task act) (fun _ _ => True)) :
    (seenGhost S strict).Sound M C (Watched S strict) (fun g => g.AtEnd S) (fun _ => True) where
  take := by
    intro c gs n h _
    have hb := h.begin
    refine ⟨_, ?_, hb.congr rfl rfl rfl rfl rfl rfl rfl⟩
    intro m hm
    obtain rfl := hm
    exact h.between rfl
  delete := by
    intro s g gs e h hg _ _ _ _
    exact (h.leave hg).congr rfl rfl rfl rfl rfl rfl rfl
  body := by
    intro s g gs e h hg _ _ hr hf
    have hl := h.leave hg
    unfold Core.phaseReady at hr
    rw [if_neg hf] at hr
    exact ⟨_, hbody _ _ _ (hl.between rfl) hf hr, hl.begin.congr rfl rfl rfl rfl rfl rfl rfl⟩
  leave := by
    intro c g gs h hg _
    exact h.leave hg
  work := by
    intro s e g gs o r h hd hc _ hr
    obtain ⟨hi, hk, hm⟩ := h.inside g rfl
    have hx := reply_expected (hC s e _ hc) h.facts hk (fun _ => hm) hr
    have hrely := effect_rely (r := r) h.facts hk (fun _ => hm) hd
    refine ⟨hx, effect_facts h.facts hk (fun _ => hm) hd hx, fun g' hg' => ?_, fun g' hg' => ?_,
      fun h' => by cases h'⟩
    · exact ⟨(h.outside g' hg').1, (h.outside g' hg').2.rely hrely⟩
    · obtain rfl := Option.some.inj hg'
      exact ⟨(seen_inLoop o r).trans hi, effect_known h.facts hk (fun _ => hm) hd,
        effect_mine hi hm hd⟩
  callback := by
    intro s e i g gw gs₁ gs₂ o r h hd hc _ hr
    obtain ⟨hi, hk⟩ := h.outside g (by simp)
    have hm : g.inLoop = true → g.mine (mineOf s.core) := fun hl =>
      absurd (hi.symm.trans hl) Bool.false_ne_true
    have hx := reply_expected (hC s e _ hc) h.facts hk hm hr
    have hrely := effect_rely (r := r) h.facts hk hm hd
    have hmine := effect_mine_eq (c := s.core) (r := r) hi hd
    refine ⟨hx, effect_facts h.facts hk hm hd hx, fun g' hg' => ?_, fun g' hg' => ?_, fun hw => ?_⟩
    · rcases List.mem_append.mp hg' with hg' | hg'
      · exact ⟨(h.outside g' (List.mem_append_left _ hg')).1,
          (h.outside g' (List.mem_append_left _ hg')).2.rely hrely⟩
      rcases List.mem_cons.mp hg' with rfl | hg'
      · exact ⟨(seen_inLoop o r).trans hi, effect_known h.facts hk hm hd⟩
      · have hg'' := h.outside g' (List.mem_append_right _ (List.mem_cons_of_mem _ hg'))
        exact ⟨hg''.1, hg''.2.rely hrely⟩
    · obtain ⟨h1, h2, h3⟩ := h.inside g' hg'
      rw [hmine]
      exact ⟨h1, h2.rely hrely, h3⟩
    · rw [hmine]
      exact (h.between hw).mono hrely.bits
  throw := by
    intro s e m gw gs o g h _ _ _ _ _
    exact h.congr rfl rfl rfl rfl rfl rfl rfl
  deliver := by
    intro s e i gw gs act l₁ l₂ h hc hp
    have he : e.db act = S.outcomes.db act := (hC s e _ hc).1 act
    rw [he]
    exact ⟨_, hhandler act, h.deliver hp⟩
  finish := by
    intro c g gs₁ gs₂ h _
    have hs : Watched S strict c none (gs₁ ++ gs₂) := by
      refine ⟨h.facts, fun g' hg' => h.outside g' ?_, fun _ hnone => (by cases hnone), h.between⟩
      rcases List.mem_append.mp hg' with hg' | hg'
      · exact List.mem_append_left _ hg'
      · exact List.mem_append_right _ (List.mem_cons_of_mem _ hg')
    exact hs.congr rfl rfl rfl rfl rfl rfl rfl

end

end OpenairHss.Ulr
