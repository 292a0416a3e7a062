import OpenairHss.Air.Processor
import OpenairHss.Processor.Ghost

/-!
# The update of an AIR

The SQN is written under the IMSI of the request, and only if the subscriber was found under it
(`air_updates`): `m_dbresult` begins with all bits set, so `phase2` is told of a subscriber that is
unknown by a bit that is cleared, and a thread has cleared it before the bit of the query is set
in `m_dbexecuted`.
-/

namespace OpenairHss.AirProcessor

open ByteVec Interact OpenairHss.Processor Hsssec DataAccess

section

variable (imsi : String) (found : Prop)

/-- `m_imsi` before `phase1` and after it. -/
def ImsiIn (d : Data) : Prop := d.imsi = "" ∨ d.imsi = imsi

/-- The bit of the query is cleared if the subscriber is unknown. -/
def Judged (result : BitVec 32) : Prop := ¬ found → result.getLsbD 0 = false

/-- The ghost value says whether the thread knows that the result is judged. -/
def updateGhost : Ghost kind Prop where
  demand o g := match o with
    | .result item success => item.getLsbD 0 = true → success = true → found
    | .executed item => item.getLsbD 0 = true → g
    | .modify f => ∀ d, ImsiIn imsi d → ImsiIn imsi (f d)
    | .register (.getImsiSec, text) => text = getImsiSecText imsi
    | .register (.updateImsi, text) => found ∧ ∃ i rand sqn, (i = "" ∨ i = imsi) ∧
      text = updateRandSqnText i rand sqn true
    | .events _ _ _ => False
    | _ => True
  allow o g := match o with
    | .get => fun d : Data => ImsiIn imsi d
    | .getResult => fun result : BitVec 32 => g → Judged found result
    | .register (.getImsiSec, _) => fun r : Reg (Option (Option SecRow)) =>
      ∀ row, r = .immediate (some (some row)) → found
    | _ => fun _ => True
  next o g _ := match o with
    | .result item _ => g ∨ item.getLsbD 0 = true
    | _ => g

/-- What holds of the core, and what the threads know of it. -/
structure Watched (c : Core kind) (gw : Option Prop) (gs : List Prop) : Prop where
  data : ImsiIn imsi c.data
  pending : ∀ act ∈ c.pending, act.1 = Db.getImsiSec → act.2 = getImsiSecText imsi
  executed : c.m_dbexecuted.getLsbD 0 = true → Judged found c.m_dbresult
  known : ∀ g, gw = some g ∨ g ∈ gs → g → Judged found c.m_dbresult

/-- The row that the database yields for the IMSI is that of a subscriber. -/
def Finds (e : Env kind) : Prop :=
  ∀ row, e.db (.getImsiSec, getImsiSecText imsi) = (some (some row) : Option (Option SecRow)) → found

end

section

variable {imsi : String} {found : Prop} {c : Core kind} {gw : Option Prop} {gs : List Prop}

theorem Judged.resultMask {item result : BitVec 32} {success : Bool} (h : Judged found result)
    (hd : item.getLsbD 0 = true → success = true → found) :
    Judged found (Processor.resultMask item success result) :=
  fun hf => resultMask_cleared (fun hi hs => hf (hd hi hs)) (h hf)

/-- After a result with the bit of the query. -/
theorem judged_of_bit {item result : BitVec 32} {success : Bool} (hi : item.getLsbD 0 = true)
    (hd : success = true → found) : Judged found (resultMask item success result) := by
  intro hf
  cases success with
  | true => exact absurd (hd rfl) hf
  | false =>
    have hne : item ≠ 0 := by
      rintro rfl
      exact absurd hi (by decide)
    rw [resultMask, if_neg Bool.false_ne_true, if_neg hne]
    exact (congrArg (BitVec.getLsbD · 0) BitVec.and_zero).trans BitVec.getLsbD_zero

/-- The reply that the database gives is one of those that are possible. -/
theorem reply_allowed (h : Watched imsi found c gw gs) {g : Prop} (hg : gw = some g ∨ g ∈ gs)
    {e : Env kind} (he : Finds imsi found e) {o : Op kind}
    (hd : (updateGhost imsi found).demand o g) {r : o.Res} (hr : e.reply c o = some r) :
    (updateGhost imsi found).allow o g r := by
  cases o with
  | get =>
    obtain rfl := Option.some.inj hr
    exact h.data
  | getResult =>
    obtain rfl := Option.some.inj hr
    exact h.known g hg
  | register act =>
    obtain ⟨db, text⟩ := act
    cases db with
    | getImsiSec =>
      intro row hrow
      obtain rfl : text = getImsiSecText imsi := hd
      refine he row ?_
      obtain rfl := Option.some.inj hr
      cases hk : e.reg (.getImsiSec, getImsiSecText imsi) with
      | inline =>
        rw [hk] at hrow
        exact Reg.immediate.inj hrow
      | failed =>
        rw [hk] at hrow
        exact absurd hrow nofun
      | async =>
        rw [hk] at hrow
        exact absurd hrow nofun
    | updateImsi => trivial
  | _ => trivial

/-- What an operation leaves true, and what its thread knows then. -/
theorem effect_watched (h : Watched imsi found c gw gs) {g : Prop} (hg : gw = some g ∨ g ∈ gs)
    {o : Op kind} (hd : (updateGhost imsi found).demand o g) (r : o.Res) :
    Watched imsi found (c.effect o r) gw gs ∧
      ((updateGhost imsi found).next o g r → Judged found (c.effect o r).m_dbresult) := by
  cases o with
  | result item success =>
    refine ⟨⟨h.data, h.pending, fun hx => (h.executed hx).resultMask hd,
      fun g' hg' hk => (h.known g' hg' hk).resultMask hd⟩, fun hnext => ?_⟩
    rcases hnext with hk | hi
    · exact (h.known g hg hk).resultMask hd
    · exact judged_of_bit hi (hd hi)
  | executed item =>
    refine ⟨⟨h.data, h.pending, fun hx => ?_, h.known⟩, h.known g hg⟩
    rcases (Bool.or_eq_true _ _).mp (BitVec.getLsbD_or.symm.trans hx) with hx | hi
    · exact h.executed hx
    · exact h.known g hg (hd hi)
  | modify f => exact ⟨⟨hd c.data h.data, h.pending, h.executed, h.known⟩, h.known g hg⟩
  | register act =>
    cases r with
    | registered =>
      refine ⟨⟨h.data, fun act' ha hget => ?_, h.executed, h.known⟩, ?_⟩
      · rcases List.mem_append.mp ha with ha | ha
        · exact h.pending act' ha hget
        · obtain rfl := List.mem_singleton.mp ha
          obtain ⟨db, text⟩ := act'
          obtain rfl : db = Db.getImsiSec := hget
          exact hd
      · exact h.known g hg
    | failed => exact ⟨⟨h.data, h.pending, h.executed, h.known⟩, h.known g hg⟩
    | immediate fut => exact ⟨⟨h.data, h.pending, h.executed, h.known⟩, h.known g hg⟩
  | events => exact absurd hd id
  | _ => exact ⟨⟨h.data, h.pending, h.executed, h.known⟩, h.known g hg⟩

end

/-! ### The code -/

section

variable {R : Type} (cipher : BlockCipher R)
  (kdf : List (BitVec 8) → List (BitVec 8) → Bytes 32) (env : Surroundings R) {imsi : String}
  {found : Prop} {g : Prop}

theorem wp_completeUpdate {item : BitVec 32} {success : Bool} {Q : Unit → Prop → Prop}
    (hd : item.getLsbD 0 = true → success = true → found) (hQ : ∀ g, Q () g) :
    (dbOpComplete item success : Proc kind Unit).wp (updateGhost imsi found).spec g Q :=
  Ghost.wp_then hd fun _ _ => Ghost.wp_call (fun hi => Or.inr hi) fun _ _ => hQ _

theorem wp_onImsiSecUpdate {fut : Option (Option SecRow)} {Q : Unit → Prop → Prop}
    (hf : ∀ row, fut = some (some row) → found) (hQ : ∀ g, Q () g) :
    (onImsiSec env fut).wp (updateGhost imsi found).spec g Q := by
  match fut with
  | none => exact ⟨trivial, nofun⟩
  | some none => exact wp_completeUpdate nofun hQ
  | some (some row) =>
    exact Ghost.wp_then (fun _ h => h) fun _ _ =>
      wp_completeUpdate (fun _ _ => hf row rfl) hQ

theorem wp_rejectUpdate {final : Nat} {r : Rejection} {Q : Unit → Prop → Prop} (hQ : ∀ g, Q () g) :
    (reject final r).wp (updateGhost imsi found).spec g Q :=
  Ghost.wp_then trivial fun _ _ => Ghost.wp_call trivial fun _ _ => hQ _

/-- A call that is counted when it has succeeded. -/
theorem wp_issueUpdate {act : Db × String} {handler : act.1.Fut → Proc kind Unit}
    {rest : Proc kind Unit} {Q : Unit → Prop → Prop}
    (hd : (updateGhost imsi found).demand (.register act) g)
    (hh : ∀ fut, (updateGhost imsi found).allow (.register act) g (.immediate fut) →
      ∀ Q : Unit → Prop → Prop, (∀ g, Q () g) →
        (handler fut).wp (updateGhost imsi found).spec g Q)
    (hrest : ∀ g', rest.wp (updateGhost imsi found).spec g' Q) (hQ : ∀ g, Q () g) :
    (do
      let success ← issue (K := kind) act handler
      if success then incDbissued else rest).wp (updateGhost imsi found).spec g Q := by
  refine Ghost.wp_bind (Ghost.wp_bind (Ghost.wp_call hd fun r hr => ?_))
  cases r with
  | failed => exact hrest _
  | registered => exact ⟨trivial, fun _ _ => hQ _⟩
  | immediate fut =>
    exact Ghost.wp_bind (hh fut hr _ fun g =>
      ⟨trivial, fun _ _ => ⟨trivial, fun _ _ => hQ _⟩⟩)

/-- The checks leave the IMSI of the request. -/
theorem phase1Checks_imsi {req : Request} {d d' : Data} (h : phase1Checks env req d = .ok d') :
    d'.imsi = req.user_name.getD d.imsi := by
  unfold phase1Checks at h
  dsimp only at h
  split at h
  · exact absurd h nofun
  split at h
  · exact absurd h nofun
  split at h
  · exact absurd h nofun
  split at h
  · exact absurd h nofun
  split at h
  · split at h
    · exact absurd h nofun
    · obtain rfl := Except.ok.inj h
      rfl
  · exact absurd h nofun

theorem phase1Body_updates (req : Request) :
    (phase1Body env req).wp (updateGhost (req.user_name.getD "") found).spec g fun _ _ => True := by
  refine Ghost.wp_then trivial fun d hd => ?_
  cases hchecks : phase1Checks env req d with
  | error r => exact wp_rejectUpdate fun _ => trivial
  | ok d' =>
    have himsi : d'.imsi = req.user_name.getD "" := by
      rw [phase1Checks_imsi env hchecks]
      cases hreq : req.user_name with
      | some u => rfl
      | none =>
        rcases (hd : ImsiIn _ _) with h | h
        · exact h
        · rw [hreq] at h
          exact h
    refine Ghost.wp_then (fun _ _ => Or.inr himsi) fun _ _ => Ghost.wp_then trivial fun _ _ =>
      wp_issueUpdate ?_ ?_ ?_ fun _ => trivial
    · exact congrArg getImsiSecText himsi
    · intro fut hfut Q hQ
      exact wp_onImsiSecUpdate env (fun row hrow => hfut row (congrArg Reg.immediate hrow)) hQ
    · exact fun _ => wp_rejectUpdate fun _ => trivial

theorem and_item_eq_zero {x : BitVec 32} (h : x.getLsbD 0 = false) :
    x &&& Db.getImsiSec.item = 0 := by
  refine BitVec.eq_of_getLsbD_eq fun i hi => ?_
  rw [BitVec.getLsbD_and]
  cases i with
  | zero => rw [h]; rfl
  | succ i => simp [Db.item]

/-- `phase2` writes only if the subscriber was found. -/
theorem phase2Body_updates (hg : g) :
    (phase2Body cipher kdf env).wp (updateGhost imsi found).spec g fun _ _ => True := by
  refine Ghost.wp_then trivial fun result hresult => Ghost.wp_then trivial fun d hd => ?_
  split
  · exact wp_rejectUpdate fun _ => trivial
  case isFalse hbit =>
    have hfound : found := by
      by_contra hf
      exact hbit (and_item_eq_zero (hresult hg hf))
    refine Ghost.wp_then trivial fun _ _ => Ghost.wp_then (fun _ h => h) fun _ _ =>
      Ghost.wp_then trivial fun _ _ => wp_issueUpdate ?_ ?_ ?_ fun _ => trivial
    · exact ⟨hfound, d.imsi, _, _, hd, rfl⟩
    · exact fun fut _ Q hQ => wp_completeUpdate nofun hQ
    · exact fun _ => Ghost.wp_call trivial fun _ _ => trivial

/-- A future with a row is that of a subscriber. -/
def FutFinds (found : Prop) : (act : Db × String) → act.1.Fut → Prop
  | (.getImsiSec, _), fut => ∀ row, fut = (some (some row) : Option (Option SecRow)) → found
  | (.updateImsi, _), _ => True

theorem handler_updates (act : Db × String) (fut : act.1.Fut) (hf : FutFinds found act fut) :
    (handler env act fut).wp (updateGhost imsi found).spec g fun _ _ => True := by
  match act, fut, hf with
  | (.getImsiSec, _), fut, hf => exact wp_onImsiSecUpdate env hf fun _ => trivial
  | (.updateImsi, _), fut, _ => exact wp_completeUpdate nofun fun _ => trivial

theorem body_updates (req : Request) (phase : Nat) (x : BitVec 32) (d : Data)
    (hr : ready phase x d = true) :
    (body cipher kdf env req phase).wp (updateGhost (req.user_name.getD "") found).spec
      (x.getLsbD 0 = true) fun _ _ => True := by
  by_cases h1 : phase = phase1
  · subst h1
    exact phase1Body_updates env req
  · by_cases h2 : phase = phase2
    · subst h2
      refine phase2Body_updates cipher kdf env ?_
      have hx : (x &&& Db.getImsiSec.item != 0) = true := hr
      by_contra hbit
      rw [and_item_eq_zero (Bool.eq_false_iff.mpr hbit)] at hx
      exact absurd hx (by decide)
    · by_cases h3 : phase = phase3
      · subst h3
        exact Ghost.wp_call trivial fun _ _ => trivial
      · rw [body, if_neg h1, if_neg h2, if_neg h3]
        trivial

/-! ### The rule -/

theorem updates_sound (req : Request) {C : State kind → Env kind × Move → Prop}
    (hC : ∀ s e m, C s (e, m) → Finds (req.user_name.getD "") found e) :
    (updateGhost (req.user_name.getD "") found).Sound (code cipher kdf env req) C
      (Watched (req.user_name.getD "") found) (fun _ => True) (fun _ => True) where
  take {c gs n} h _ := by
    refine ⟨False, trivial, h.data, h.pending, h.executed, ?_⟩
    rintro g (hg | hg)
    · obtain rfl := Option.some.inj hg
      exact False.elim
    · exact h.known g (Or.inr hg)
  delete h _ _ _ _ _ :=
    ⟨h.data, h.pending, h.executed, fun g hg => h.known g (Or.inr (hg.resolve_left nofun))⟩
  body {s g gs e} h _ _ _ hr hf := by
    unfold Core.phaseReady at hr
    rw [if_neg hf] at hr
    refine ⟨_, body_updates cipher kdf env req _ _ s.core.data hr, h.data, h.pending, h.executed, ?_⟩
    rintro g' (hg | hg)
    · obtain rfl := Option.some.inj hg
      exact h.executed
    · exact h.known g' (Or.inr hg)
  leave h _ _ :=
    ⟨h.data, h.pending, h.executed, fun g hg => h.known g (Or.inr (hg.resolve_left nofun))⟩
  work {s e g gs o r} h hd hc _ hr := by
    refine ⟨reply_allowed h (Or.inl rfl) (hC _ _ _ hc) hd hr, ?_⟩
    obtain ⟨h', hnext⟩ := effect_watched h (Or.inl rfl) hd r
    refine ⟨h'.data, h'.pending, h'.executed, ?_⟩
    rintro g' (hg | hg)
    · obtain rfl := Option.some.inj hg
      exact hnext
    · exact h'.known g' (Or.inr hg)
  callback {s e i g gw gs₁ gs₂ o r} h hd hc _ hr := by
    have hmem : g ∈ gs₁ ++ g :: gs₂ := by simp
    refine ⟨reply_allowed h (Or.inr hmem) (hC _ _ _ hc) hd hr, ?_⟩
    obtain ⟨h', hnext⟩ := effect_watched h (Or.inr hmem) hd r
    refine ⟨h'.data, h'.pending, h'.executed, ?_⟩
    rintro g' (hg | hg)
    · exact h'.known g' (Or.inl hg)
    · rcases List.mem_append.mp hg with hg | hg
      · exact h'.known g' (Or.inr (List.mem_append_left _ hg))
      · rcases List.mem_cons.mp hg with rfl | hg
        · exact hnext
        · exact h'.known g' (Or.inr (List.mem_append_right _ (List.mem_cons_of_mem _ hg)))
  throw h _ _ _ _ _ := ⟨h.data, h.pending, h.executed, h.known⟩
  deliver {s e i gw gs act l₁ l₂} h hc hp := by
    have hact : act ∈ s.core.pending := by simp [hp]
    have hpending : ∀ a ∈ l₁ ++ l₂, a ∈ s.core.pending := by
      intro a ha
      rw [hp]
      exact (List.mem_append.mp ha).elim (List.mem_append_left _)
        fun ha => List.mem_append_right _ (List.mem_cons_of_mem _ ha)
    refine ⟨False, handler_updates env act (e.db act) ?_, h.data,
      fun a ha => h.pending a (hpending a ha), h.executed, ?_⟩
    · obtain ⟨db, text⟩ := act
      cases db with
      | getImsiSec =>
        obtain rfl : text = _ := h.pending _ hact rfl
        exact hC _ _ _ hc
      | updateImsi => trivial
    · rintro g (hg | hg)
      · exact h.known g (Or.inl hg)
      · rcases List.mem_append.mp hg with hg | hg
        · exact h.known g (Or.inr hg)
        · obtain rfl := List.mem_singleton.mp hg
          exact False.elim
  finish {c g gs₁ gs₂} h _ := by
    refine ⟨h.data, h.pending, h.executed, ?_⟩
    rintro g' (hg | hg)
    · exact h.known g' (Or.inl hg)
    · refine h.known g' (Or.inr ?_)
      exact (List.mem_append.mp hg).elim (List.mem_append_left _)
        fun hg => List.mem_append_right _ (List.mem_cons_of_mem _ hg)

/-- **The update that an AIR makes** is that of a subscriber who was found, unless the IMSI is
empty. -/
theorem air_updates {req : Request} {sec : ImsiSec} {plmn_id : Bytes 3}
    {C : State kind → Env kind × Move → Prop} {s : State kind}
    (hC : ∀ s e m, C s (e, m) → Finds (req.user_name.getD "") found e)
    (h : Run (code cipher kdf env req) C (State.init phase1 (Data.init sec plmn_id)) s)
    {text : String} (ht : s.Performs (.register (.updateImsi, text))) :
    found ∧ ∃ imsi rand sqn, (imsi = "" ∨ imsi = req.user_name.getD "") ∧
      text = updateRandSqnText imsi rand sqn true := by
  obtain ⟨gw, gs, -, hT⟩ := (updates_sound cipher kdf env req hC).invariant h rfl rfl
    ⟨Or.inl rfl, nofun, fun hx => absurd hx (by simp [State.init]), nofun⟩
  obtain ⟨g, -, hd⟩ := hT.demand ht
  exact hd

end

end OpenairHss.AirProcessor
