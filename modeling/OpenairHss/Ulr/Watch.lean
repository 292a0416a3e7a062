import OpenairHss.Requests.Order
import OpenairHss.Ulr.View

/-!
# The code of a ULR against what its threads know

The handlers are calm: they leave alone what the worker knows, and when `strict` is assumed none of
their operations fails (`Scene.Clean`).  Each phase body takes the processor from one `Standing` to
the next.  `ulr_watched` puts both together.
-/

namespace OpenairHss.Ulr

open Interact Processor Diameter

/-- No query of the ULR fails, and the subscriber and the MME are known. -/
structure Scene.Clean (S : Scene) : Prop where
  issued : S.outcomes.issued = true
  found : S.outcomes.found = true
  extIds : S.outcomes.extIds.isSome = true
  eventIdsMsisdn : S.outcomes.eventIdsMsisdn.isSome = true
  eventIdsExtIds : S.outcomes.eventIdsExtIds.isSome = true
  events : ∀ stmt, (S.outcomes.events stmt).isSome = true
  mme : (S.outcomes.mme.getD none).isSome = true
  followUp : S.outcomes.fails .getEvntidsExtids = false
  eventsIssued : ∀ stmt, S.outcomes.eventsFail stmt = false

/-! ### Calm code -/

/-- A thread that knows at least as much. -/
structure Seen.Le (g g' : Seen) : Prop where
  inLoop : g'.inLoop = g.inLoop
  mine : ∀ m, g'.mine m → g.mine m
  bits : ∀ b, g.bits.getLsbD b = true → g'.bits.getLsbD b = true
  orig : g.orig → g'.orig
  judged : g.judged → g'.judged
  mme : g.mme → g'.mme
  late : g.late → g'.late
  upd : g.upd → g'.upd

theorem Seen.Le.refl (g : Seen) : g.Le g := ⟨rfl, fun _ => id, fun _ => id, id, id, id, id, id⟩

theorem Seen.Le.trans {g₁ g₂ g₃ : Seen} (h : g₁.Le g₂) (h' : g₂.Le g₃) : g₁.Le g₃ :=
  ⟨h'.inLoop.trans h.inLoop, fun m hm => h.mine m (h'.mine m hm), fun b hb => h'.bits b (h.bits b hb),
    h'.orig ∘ h.orig, h'.judged ∘ h.judged, h'.mme ∘ h.mme, h'.late ∘ h.late, h'.upd ∘ h.upd⟩

theorem Seen.Le.isLate {g g' : Seen} (h : g.Le g') (hl : g.Late) : g'.Late := by
  rcases hl with hl | ⟨hi, hl⟩
  · exact Or.inl (h.late hl)
  · exact Or.inr ⟨h.inLoop.trans hi, fun m hm => hl m (h.mine m hm)⟩

/-- A piece of code after which its thread knows at least as much. -/
def Calm {α : Type} (S : Scene) (strict : Prop) (p : Proc kind α) : Prop :=
  ∀ g (Q : α → Seen → Prop), (∀ a g', g.Le g' → Q a g') → p.wp (seenGhost S strict).spec g Q

section

variable {α β : Type} {S : Scene} {strict : Prop} {g : Seen}

theorem calm_ret (a : α) : Calm S strict (.ret a : Proc kind α) := fun g _ h => h a g (.refl g)

theorem calm_bind {p : Proc kind α} {f : α → Proc kind β} (hp : Calm S strict p)
    (hf : ∀ a, Calm S strict (f a)) : Calm S strict (p >>= f) := by
  intro g Q h
  refine Ghost.wp_bind (hp g _ fun a g' hle => hf a g' Q fun b g'' hle' => ?_)
  exact h b g'' (hle.trans hle')

theorem Calm.then {p : Proc kind α} {f : α → Proc kind β} {Q : β → Seen → Prop}
    (hp : Calm S strict p)
    (h : ∀ a g', g.Le g' → (f a).wp (seenGhost S strict).spec g' Q) :
    (p >>= f).wp (seenGhost S strict).spec g Q :=
  Ghost.wp_bind (hp g _ h)

/-- The operations that nothing is demanded of and that teach nothing. -/
def Op.plain : Op kind → Bool
  | .incDb | .decDb | .getResult | .getExecuted | .get | .ask _ | .lockLst | .unlockLst | .signal
  | .throw => true
  | _ => false

theorem calm_op {o : Op kind} {k : o.Res → Proc kind α} (ho : Op.plain o = true)
    (hk : ∀ r, Calm S strict (k r)) : Calm S strict (.op o k) := by
  intro g Q h
  have hafter : ∀ r, g.after S o r = g := by
    intro r
    cases o <;> first | rfl | cases ho
  refine ⟨?_, fun r _ => ?_⟩
  · cases o <;> first | exact trivial | cases ho
  · have hnext : (seenGhost S strict).next o g r = g := hafter r
    rw [hnext]
    exact hk r g Q h

theorem calm_call {o : Op kind} (ho : Op.plain o = true) : Calm S strict (call o) :=
  calm_op ho fun r => calm_ret r

/-- A change of the data that leaves alone what the worker knows. -/
structure Aside (S : Scene) (f : Data → Data) : Prop where
  allowed : Allowed S f
  view : ∀ d, (f d).view = d.view

theorem aside_of_same {f : Data → Data} (ho : ∀ d, (f d).orig_info = d.orig_info)
    (hm : ∀ d, (f d).mmeidentity = d.mmeidentity) (hv : ∀ d, (f d).view = d.view) : Aside S f :=
  ⟨⟨fun d _ => Or.inl (ho d), fun d _ => Or.inl (hm d)⟩, hv⟩

theorem Aside.le {f : Data → Data} (h : Aside S f) (r : (Op.modify f : Op kind).Res) :
    g.Le ((seenGhost S strict).next (.modify f) g r) := by
  refine ⟨rfl, fun m hm => ?_, fun _ => id, Or.inl, id, Or.inl, id, id⟩
  obtain ⟨m', d, hm', hview, rfl⟩ := hm
  cases hi : g.inLoop with
  | false => exact hm'
  | true =>
    have hv : Data.view (f d) = m'.view := (h.view d).trans (hview hi).symm
    simp only [if_true, hv]
    exact hm'

theorem calm_modify {f : Data → Data} (h : Aside S f) :
    Calm S strict (call (.modify f) : Proc kind Unit) :=
  fun _ _ hQ => ⟨⟨h.allowed, Or.inr h.view⟩, fun r _ => hQ _ _ (h.le r)⟩

/-- An item that is none of the three that stand for facts. -/
def Plain (item : BitVec 32) : Prop :=
  item.getLsbD 0 = false ∧ item.getLsbD 5 = false ∧ item.getLsbD 6 = false

theorem bits_le {item : BitVec 32} (r : (Op.executed item : Op kind).Res) :
    g.Le ((seenGhost S strict).next (.executed item) g r) := by
  refine ⟨rfl, fun _ => id, fun b hb => ?_, id, id, id, id, id⟩
  show (g.bits ||| item).getLsbD b = true
  rw [BitVec.getLsbD_or, hb, Bool.true_or]

theorem calm_executed {item : BitVec 32} (hp : S.outcomes.issued = true → Plain item) :
    Calm S strict (completeExecuted item : Proc kind Unit) := by
  intro g Q hQ
  refine ⟨fun hi => ?_, fun r _ => hQ _ _ (bits_le r)⟩
  obtain ⟨h0, h5, h6⟩ := hp hi
  rw [h0, h5, h6]
  exact ⟨Bool.noConfusion, Bool.noConfusion, Bool.noConfusion⟩

theorem result_le {item : BitVec 32} {success : Bool}
    (r : (Op.result item success : Op kind).Res) :
    g.Le ((seenGhost S strict).next (.result item success) g r) :=
  ⟨rfl, fun _ => id, fun _ => id, id, Or.inl, id, id, id⟩

theorem calm_complete {item : BitVec 32} {success : Bool}
    (hp : S.outcomes.issued = true → Plain item)
    (h0 : item.getLsbD 0 = true → success = false) (hs : strict → success = true) :
    Calm S strict (dbOpComplete item success : Proc kind Unit) := by
  refine calm_bind ?_ fun _ => calm_executed hp
  intro g Q hQ
  refine ⟨⟨fun hb hsucc => ?_, fun hsucc hst => ?_⟩, fun r _ => hQ _ _ (result_le r)⟩
  · rw [h0 hb] at hsucc
    cases hsucc
  · rw [hs hst] at hsucc
    cases hsucc

theorem calm_failAll (hs : ¬ strict) : ∀ {items : List (BitVec 32)},
    (S.outcomes.issued = true → ∀ item ∈ items, Plain item) →
    Calm S strict (failAll items : Proc kind Unit)
  | [], _ => calm_ret _
  | item :: _, h =>
    calm_bind (calm_complete (fun hi => h hi item List.mem_cons_self) (fun _ => rfl)
      fun hst => absurd hst hs) fun _ =>
    calm_failAll hs fun hi i hm => h hi i (List.mem_cons_of_mem _ hm)

theorem register_le {act : Db × String} (r : (Op.register act : Op kind).Res) :
    g.Le ((seenGhost S strict).next (.register act) g r) := by
  cases r with
  | immediate fut => exact ⟨rfl, fun _ => id, fun _ => id, id, id, id, id, Or.inl⟩
  | _ => exact .refl g

/-- A call of the database other than the update; it fails only if that is its outcome. -/
theorem wp_issueSeen {act : Db × String} {handler : act.1.Fut → Proc kind Unit}
    {Q : Bool → Seen → Prop} (ha : act.1 ≠ .updateImsi)
    (hh : Calm S strict (handler (S.outcomes.db act)))
    (h : ∀ b g', g.Le g' → S.outcomes.failed act = !b → Q b g') :
    (issue (K := kind) act handler).wp (seenGhost S strict).spec g Q := by
  refine Ghost.wp_bind (Ghost.wp_call (fun hu => absurd hu ha) fun r hr => ?_)
  rcases hr with ⟨rfl, hf⟩ | ⟨rfl, hf⟩ | ⟨rfl, hf⟩
  · exact h false _ (register_le _) hf
  · exact h true _ (register_le _) hf
  · refine Calm.then hh fun _ g' hle => Calm.then (calm_call rfl) fun _ g'' hle' => ?_
    exact h true _ ((register_le _).trans (hle.trans hle')) hf

theorem wp_issueCountedSeen {act : Db × String} {handler : act.1.Fut → Proc kind Unit}
    {items : List (BitVec 32)} {Q : Bool → Seen → Prop} (ha : act.1 ≠ .updateImsi)
    (hh : Calm S strict (handler (S.outcomes.db act)))
    (hs : strict → S.outcomes.failed act = false)
    (hi : S.outcomes.failed act = true → S.outcomes.issued = true → ∀ item ∈ items, Plain item)
    (h : ∀ b g', g.Le g' → S.outcomes.failed act = !b → Q b g') :
    (issueCounted (K := kind) act handler items).wp (seenGhost S strict).spec g Q := by
  refine Calm.then (calm_call rfl) fun _ g₁ h₁ => Ghost.wp_bind (wp_issueSeen ha hh ?_)
  intro b g₂ h₂ hf
  cases b with
  | true => exact h true _ (h₁.trans h₂) hf
  | false =>
    have hst : ¬ strict := fun hst => absurd (hs hst) (by rw [hf]; decide)
    refine Calm.then (calm_failAll hst (hi hf)) fun _ g₃ h₃ =>
      Calm.then (calm_call rfl) fun _ g₄ h₄ => ?_
    exact h false _ ((h₁.trans h₂).trans (h₃.trans h₄)) hf

theorem calm_issueCounted {act : Db × String} {handler : act.1.Fut → Proc kind Unit}
    {items : List (BitVec 32)} (ha : act.1 ≠ .updateImsi)
    (hh : Calm S strict (handler (S.outcomes.db act)))
    (hs : strict → S.outcomes.failed act = false) (hi : ∀ item ∈ items, Plain item) :
    Calm S strict (issueCounted (K := kind) act handler items) :=
  fun _ _ hQ => wp_issueCountedSeen ha hh hs (fun _ _ => hi) fun b g' hle _ => hQ b g' hle

end

/-! ### The handlers -/

section Handlers

variable {S : Scene} {strict : Prop} {g : Seen}

theorem getImsiInfoData_idem (row : ImsiInfoRow) (info : ImsiInfo) :
    getImsiInfoData row (getImsiInfoData row info) = getImsiInfoData row info := by
  have hget : ∀ {α : Type} (o : Option α) (x : α), o.getD (o.getD x) = o.getD x := by
    rintro _ (_ | _) _ <;> rfl
  simp only [getImsiInfoData, hget]

theorem calm_onImsiInfo (hs : strict → S.Clean) :
    Calm S strict (onImsiInfo S.outcomes.imsi) := by
  cases himsi : S.outcomes.imsi with
  | none => exact calm_op rfl fun r => by cases r
  | some found =>
    cases found with
    | none =>
      have hfound : S.outcomes.found = false := by simp [Outcomes.found, himsi]
      have horig : S.orig = S.start.orig_info := by simp only [Scene.orig, himsi]
      intro g Q hQ
      refine Ghost.wp_then ⟨fun _ h => absurd h (by decide), fun _ hst => ?_⟩ fun r₁ _ =>
        Ghost.wp_call (fun _ => ⟨fun _ => ?_, fun h => absurd h (by decide), fun h => absurd h (by decide)⟩) fun r₂ _ => ?_
      · exact absurd (hs hst).found (by rw [hfound]; exact Bool.false_ne_true)
      · exact ⟨Or.inr horig, Or.inr ⟨rfl, hfound.symm⟩⟩
      · exact hQ _ _ ((result_le r₁).trans (bits_le r₂))
    | some row =>
      have hfound : S.outcomes.found = true := by simp [Outcomes.found, himsi]
      have horig : S.orig = getImsiInfoData row S.start.orig_info := by simp only [Scene.orig, himsi]
      have hset : ∀ d, OrigIn S d → getImsiInfoData row d.orig_info = S.orig := by
        intro d hd
        rcases hd with hd | hd
        · rw [hd, horig]
        · rw [hd, horig, getImsiInfoData_idem]
      have haside : Aside S fun d => { d with orig_info := getImsiInfoData row d.orig_info } :=
        ⟨⟨fun d hd => Or.inr (hset d hd), fun _ _ => Or.inl rfl⟩, fun _ => rfl⟩
      intro g Q hQ
      refine Ghost.wp_then ⟨haside.allowed, Or.inr haside.view⟩ fun r₀ _ =>
        Ghost.wp_then ⟨fun _ _ => hfound, fun h => absurd h (by decide)⟩ fun r₁ _ =>
        Ghost.wp_call (fun _ => ⟨fun _ => ?_, fun h => absurd h (by decide), fun h => absurd h (by decide)⟩) fun r₂ _ => ?_
      · exact ⟨Or.inl (Or.inr hset), Or.inr ⟨rfl, hfound.symm⟩⟩
      · exact hQ _ _ ((haside.le r₀).trans ((result_le r₁).trans (bits_le r₂)))

theorem calm_onMmeIdentity (hs : strict → S.Clean) :
    Calm S strict (onMmeIdentity S.outcomes.mme) := by
  have hfail : (S.outcomes.mme.getD none).isSome = false → S.mme = S.start.mmeidentity →
      Calm S strict (dbOpComplete Db.getMmeidHost.item false : Proc kind Unit) := by
    intro hnone hmme g Q hQ
    refine Ghost.wp_then ⟨(nomatch ·), fun _ hst => ?_⟩ fun r₁ _ =>
      Ghost.wp_call (fun _ => ⟨(nomatch ·), fun _ => Or.inr hmme, (nomatch ·)⟩) fun r₂ _ => ?_
    · exact absurd (hs hst).mme (by rw [hnone]; exact Bool.false_ne_true)
    · exact hQ _ _ ((result_le r₁).trans (bits_le r₂))
  cases hmme : S.outcomes.mme with
  | none => exact hfail (by rw [hmme]; rfl) (by simp only [Scene.mme, hmme])
  | some found =>
    cases found with
    | none => exact hfail (by rw [hmme]; rfl) (by simp only [Scene.mme, hmme])
    | some id =>
      have hS : S.mme = id.getD S.start.mmeidentity := by simp only [Scene.mme, hmme]
      have hset : ∀ d, MmeIn S d → id.getD d.mmeidentity = S.mme := by
        intro d hd
        cases id with
        | none => exact hd.elim (fun h => h.trans hS.symm) fun h => h
        | some i => exact hS.symm
      have haside : Aside S fun d => { d with mmeidentity := id.getD d.mmeidentity } :=
        ⟨⟨fun _ _ => Or.inl rfl, fun d hd => Or.inr (hset d hd)⟩, fun _ => rfl⟩
      intro g Q hQ
      refine Ghost.wp_then ⟨haside.allowed, Or.inr haside.view⟩ fun r₀ _ =>
        Ghost.wp_then ⟨(nomatch ·), fun h => (nomatch h)⟩ fun r₁ _ =>
        Ghost.wp_call (fun _ => ⟨(nomatch ·), fun _ => Or.inl (Or.inr hset), (nomatch ·)⟩)
          fun r₂ _ => ?_
      exact hQ _ _ ((haside.le r₀).trans ((result_le r₁).trans (bits_le r₂)))

theorem plain_item {db : Db} (h : db ≠ .getImsiInfo ∧ db ≠ .getMmeidHost ∧ db ≠ .updateImsi) :
    Plain db.item := by
  cases db <;> first | exact ⟨rfl, rfl, rfl⟩ | exact absurd rfl h.1 | exact absurd rfl h.2.1 |
    exact absurd rfl h.2.2

theorem plain_events : Plain Db.getEvntsEvntids.item := plain_item (by decide)

theorem calm_onEvents (hs : strict → S.Clean) (stmt : String) :
    Calm S strict (onEvents (S.outcomes.events stmt)) := by
  intro g Q hQ
  have haside : Aside S fun d : Data =>
      { d with evtLst := d.evtLst ++ (S.outcomes.events stmt).getD [] } :=
    aside_of_same (fun _ => rfl) (fun _ => rfl) fun _ => rfl
  refine Ghost.wp_call ⟨haside.allowed, haside.view, fun hf hst => ?_, plain_events⟩ fun _ _ =>
    hQ _ _ (.refl g)
  exact absurd ((hs hst).events stmt) (by rw [hf]; exact Bool.false_ne_true)

theorem calm_issueEvents (hs : strict → S.Clean) (scef_id : String) (refs : List Nat) :
    Calm S strict (issueEvents scef_id refs) :=
  calm_issueCounted nofun (calm_onEvents hs _) (fun hst => (hs hst).eventsIssued _) (by
    intro item hi
    rw [List.mem_singleton.mp hi]
    exact plain_events)

theorem calm_eventsLoop (hs : strict → S.Clean) :
    ∀ ids scef_id refs, Calm S strict (eventsLoop ids scef_id refs)
  | [], scef_id, refs => by
    unfold eventsLoop
    split
    · exact calm_bind (calm_issueEvents hs _ _) fun _ => calm_ret _
    · exact calm_ret _
  | ei :: rest, scef_id, refs => by
    unfold eventsLoop
    split
    · refine calm_bind (calm_issueEvents hs _ _) fun success => ?_
      cases success with
      | true => exact calm_eventsLoop hs rest _ _
      | false => exact calm_ret _
    · exact calm_eventsLoop hs rest _ _

theorem calm_getEvents (hs : strict → S.Clean) : Calm S strict getEvents := by
  refine calm_bind (calm_call rfl) fun d => ?_
  split
  · exact calm_complete (fun _ => plain_events) (nomatch ·) fun _ => rfl
  · exact calm_bind (calm_modify (aside_of_same (fun _ => rfl) (fun _ => rfl) fun _ => rfl))
      fun _ => calm_bind (calm_call rfl) fun d => calm_eventsLoop hs _ _ _

/-- Both completions of lists of event ids. -/
theorem calm_onEventIds (hs : strict → S.Clean) {fut : Option (List EventId)}
    (hf : strict → fut.isSome = true) :
    Calm S strict (onEventIds Db.getEvntidsMsisdn.item fut) := by
  refine calm_bind (calm_call rfl) fun _ =>
    calm_bind (calm_modify (aside_of_same (fun _ => rfl) (fun _ => rfl) fun _ => rfl)) fun _ =>
    calm_bind (calm_complete (fun _ => plain_item (by decide)) (nomatch ·) hf) fun _ =>
    calm_bind (calm_call rfl) fun _ => calm_bind (calm_call rfl) fun _ =>
    calm_bind (calm_call rfl) fun _ => ?_
  split
  · exact calm_getEvents hs
  · exact calm_ret _

theorem calm_onExternalIds (hs : strict → S.Clean) :
    Calm S strict (onExternalIds S.outcomes.extIds) := by
  refine calm_bind (calm_modify (aside_of_same (fun _ => rfl) (fun _ => rfl) fun _ => rfl))
    fun _ => calm_bind (calm_complete (fun _ => plain_item (by decide)) (nomatch ·)
      fun hst => (hs hst).extIds) fun _ => ?_
  split
  · refine calm_bind (calm_call rfl) fun d => calm_bind (calm_issueCounted nofun ?_
      (fun hst => (hs hst).followUp) ?_) fun _ => calm_ret _
    · exact calm_onEventIds hs fun hst => (hs hst).eventIdsExtIds
    · intro item hi
      rcases List.mem_cons.mp hi with rfl | hi
      · exact plain_item (by decide)
      · rw [List.mem_singleton.mp hi]
        exact plain_events
  · exact calm_complete (fun _ => plain_item (by decide)) (fun _ => rfl) fun hst =>
      absurd (hs hst).extIds ‹_›

/-- The completion of the update, by a thread that knows that it comes late. -/
theorem wp_onUpdate {Q : Unit → Seen → Prop} (hl : g.Late) (hu : g.upd)
    (hQ : ∀ g', g.Le g' → g'.bits.getLsbD 6 = true → Q () g') :
    (onUpdate S.outcomes.update).wp (seenGhost S strict).spec g Q := by
  refine Ghost.wp_then ⟨(nomatch ·), fun _ _ => hl⟩ fun r₁ _ =>
    Ghost.wp_call (fun _ => ⟨(nomatch ·), (nomatch ·), fun _ => Or.inl hu⟩) fun r₂ _ =>
      hQ _ ((result_le r₁).trans (bits_le r₂)) ?_
  show (g.bits ||| Db.updateImsi.item).getLsbD 6 = true
  rw [BitVec.getLsbD_or, show Db.updateImsi.item.getLsbD 6 = true from rfl, Bool.or_true]

theorem handler_seen (hs : strict → S.Clean) (act : Db × String) :
    (handler act (S.outcomes.db act)).wp (seenGhost S strict).spec (Seen.task act)
      (fun _ _ => True) := by
  obtain ⟨db, stmt⟩ := act
  cases db with
  | getImsiInfo => exact calm_onImsiInfo hs _ _ fun _ _ _ => trivial
  | getExtIds => exact calm_onExternalIds hs _ _ fun _ _ _ => trivial
  | getEvntidsMsisdn =>
    exact calm_onEventIds hs (fun hst => (hs hst).eventIdsMsisdn) _ _ fun _ _ _ => trivial
  | getEvntidsExtids =>
    exact calm_onEventIds hs (fun hst => (hs hst).eventIdsExtIds) _ _ fun _ _ _ => trivial
  | getEvntsEvntids => exact calm_onEvents hs stmt _ _ fun _ _ _ => trivial
  | getMmeidHost => exact calm_onMmeIdentity hs _ _ fun _ _ _ => trivial
  | updateImsi => exact wp_onUpdate (Or.inl rfl) rfl fun _ _ _ => trivial

end Handlers

/-! ### The phases -/

/-- A worker that knows exactly what it has written, and these bits. -/
structure Seen.At (g : Seen) (m : Mine) (x : BitVec 32) : Prop where
  inLoop : g.inLoop = true
  mine : ∀ m', g.mine m' → m' = m
  bits : ∀ b, x.getLsbD b = true → g.bits.getLsbD b = true

section Phases

variable {β : Type} {S : Scene} {strict : Prop} {g g' : Seen} {m : Mine} {x : BitVec 32}
  {Q : β → Seen → Prop}

theorem at_begin (m : Mine) (x : BitVec 32) : (Seen.begin m x).At m x :=
  ⟨rfl, fun _ h => h, fun _ h => h⟩

theorem Seen.At.le (h : g.At m x) (hle : g.Le g') : g'.At m x :=
  ⟨hle.inLoop.trans h.inLoop, fun m' hm => h.mine m' (hle.mine m' hm),
    fun b hb => hle.bits b (h.bits b hb)⟩

theorem Seen.At.atEnd (h : g.At m x) (hs : Standing S m x) : g.AtEnd S := by
  intro m' hm'
  rw [h.mine m' hm']
  exact hs.mono h.bits

theorem Calm.at {α : Type} {p : Proc kind α} {f : α → Proc kind β} (hp : Calm S strict p)
    (hg : g.At m x) (h : ∀ a g', g'.At m x → (f a).wp (seenGhost S strict).spec g' Q) :
    (p >>= f).wp (seenGhost S strict).spec g Q :=
  hp.then fun a g' hle => h a g' (hg.le hle)

theorem wp_getAt {f : Data → Proc kind β} (hg : g.At m x)
    (h : ∀ d : Data, d.view = m.view →
      (S.outcomes.issued = true → x.getLsbD 0 = true → d.orig_info = S.orig) →
      (S.outcomes.issued = true → x.getLsbD 5 = true → d.mmeidentity = S.mme) →
      (f d).wp (seenGhost S strict).spec g Q) :
    (readData (K := kind) >>= f).wp (seenGhost S strict).spec g Q := by
  refine Ghost.wp_then trivial fun d hd => ?_
  obtain ⟨hmine, horig, hmme⟩ := hd
  obtain ⟨m', hm', hv⟩ := hmine hg.inLoop
  refine h d ?_ (fun hi hb => horig (Or.inr ⟨hi, hg.bits 0 hb⟩)) fun hi hb =>
    hmme (Or.inr ⟨hi, hg.bits 5 hb⟩)
  rw [← hv, hg.mine m' hm']

theorem wp_modifyAt {f : Data → Data} {k : Unit → Proc kind β} {v : View} (hg : g.At m x)
    (hf : Allowed S f) (hv : ∀ d, d.view = m.view → (f d).view = v)
    (h : ∀ g', g'.At { m with view := v } x → (k ()).wp (seenGhost S strict).spec g' Q) :
    (updateData (K := kind) f >>= k).wp (seenGhost S strict).spec g Q := by
  refine Ghost.wp_then ⟨hf, Or.inl hg.inLoop⟩ fun _ _ => h _ ⟨hg.inLoop, fun m' hm' => ?_, hg.bits⟩
  obtain ⟨m₁, d, hm₁, hd, rfl⟩ := hm'
  obtain rfl := hg.mine m₁ hm₁
  simp only [hg.inLoop, if_true]
  rw [hv d (hd hg.inLoop).symm]

theorem wp_setPhaseAt {phase : Nat} {k : Unit → Proc kind β} (hg : g.At m x)
    (he : Early phase → Early m.phase)
    (h : ∀ g', g'.At { m with phase := phase } x → (k ()).wp (seenGhost S strict).spec g' Q) :
    (setNextphase (K := kind) phase >>= k).wp (seenGhost S strict).spec g Q := by
  refine Ghost.wp_then ⟨hg.inLoop, fun hp m' hm' => ?_⟩ fun _ _ =>
    h _ ⟨hg.inLoop, fun m' hm' => ?_, hg.bits⟩
  · rw [hg.mine m' hm']
    exact he hp
  · obtain ⟨m₁, hm₁, rfl⟩ := hm'
    rw [hg.mine m₁ hm₁]

theorem wp_setPhaseEnd {phase : Nat} (hg : g.At m x) (he : Early phase → Early m.phase)
    (hs : Standing S { m with phase := phase } x) :
    (setNextphase (K := kind) phase).wp (seenGhost S strict).spec g (fun _ g => g.AtEnd S) := by
  refine Ghost.wp_call ⟨hg.inLoop, fun hp m' hm' => ?_⟩ fun _ _ m' hm' => ?_
  · rw [hg.mine m' hm']
    exact he hp
  · obtain ⟨m₁, hm₁, rfl⟩ := hm'
    rw [hg.mine m₁ hm₁]
    exact hs.mono hg.bits

theorem wp_answerAt {avps : List UlaAvp} {r : DiamResult} {k : Unit → Proc kind β}
    (hg : g.At m x) (hr : m.results = [])
    (ha : (strict ∨ S.tooLong = true ∨ S.outcomes.issued = false ∨ S.outcomes.found = false) →
      r = S.expected)
    (h : ∀ g', g'.At { m with results := [r] } x → (k ()).wp (seenGhost S strict).spec g' Q) :
    (sendAnswer (K := kind) ⟨avps ++ [.result r]⟩ >>= k).wp (seenGhost S strict).spec g Q := by
  have hres : (Ula.mk (avps ++ [.result r])).result = r := Ula.result_append avps r
  refine Ghost.wp_then ⟨hg.inLoop, fun m' hm' => ?_, fun hs => hres.trans (ha hs)⟩ fun _ _ =>
    h _ ⟨hg.inLoop, fun m' hm' => ?_, hg.bits⟩
  · rw [hg.mine m' hm', hr]
  · obtain ⟨m₁, hm₁, rfl⟩ := hm'
    rw [hg.mine m₁ hm₁, hr, List.nil_append, hres]

theorem wp_rejectAt {r : Rejection} (hg : g.At m x) (hr : m.results = [])
    (hne : r.2 ≠ .resultCode erDiameterSuccess)
    (ha : (strict ∨ S.tooLong = true ∨ S.outcomes.issued = false ∨ S.outcomes.found = false) →
      r.2 = S.expected) :
    (reject r).wp (seenGhost S strict).spec g (fun _ g => g.AtEnd S) :=
  wp_answerAt hg hr ha fun _ hg' =>
    wp_setPhaseEnd hg' (fun h => absurd h (by decide)) (.final x _ _ fun h => absurd h hne)

theorem issued_false {db : Db} (hdb : db ∈ Outcomes.phase1Dbs) (h : S.outcomes.fails db = true) :
    S.outcomes.issued = false := by
  rw [Outcomes.issued, List.all_eq_false]
  exact ⟨db, hdb, by rw [h]; decide⟩

theorem not_failed {db : Db} (hi : S.outcomes.issued = true) (hdb : db ∈ Outcomes.phase1Dbs) :
    S.outcomes.fails db = false := by
  rw [Outcomes.issued, List.all_eq_true] at hi
  exact Bool.eq_false_iff.mpr fun h => absurd (hi db hdb) (by rw [h]; decide)

theorem expected_unknown (ht : S.tooLong = false)
    (h : S.outcomes.issued = false ∨ S.outcomes.found = false) :
    S.expected = .experimental diameterErrorUserUnknown := by
  have hand : (S.outcomes.issued && S.outcomes.found) = false := by
    rcases h with h | h
    · rw [h, Bool.false_and]
    · rw [h, Bool.and_false]
  simp [Scene.expected, ht, hand]

/-- The queries of `phase1`, one after the other: all of them are issued, or one of them cannot
be. -/
theorem phase1_queries (hs : strict → S.Clean) (d : Data) (hg : g.At m x)
    (ht : S.tooLong = false) (hm : m.results = []) (hsucc : S.outcomes.issued = true →
      Standing S m x) :
    (do
      let result ← issue (K := kind) (.getImsiInfo, getImsiInfoText d.new_info.imsi) onImsiInfo
      let result ← phase1ExtIds d result
      let result ← phase1EventIds d result
      let result ← phase1MmeId d result
      if result then incDbissued
      else reject (d.ans, .experimental diameterErrorUserUnknown)).wp
      (seenGhost S strict).spec g (fun _ g => g.AtEnd S) := by
  have hreject : ∀ {g'}, g'.At m x → S.outcomes.issued = false →
      (reject (d.ans, .experimental diameterErrorUserUnknown)).wp (seenGhost S strict).spec g'
        (fun _ g => g.AtEnd S) := by
    intro g' hg' hi
    exact wp_rejectAt hg' hm (by simp) fun _ => (expected_unknown ht (Or.inl hi)).symm
  refine Ghost.wp_bind (wp_issueSeen (by simp) (calm_onImsiInfo hs) fun b₁ g₁ h₁ f₁ => ?_)
  cases b₁ with
  | false =>
    have hi := issued_false (by decide) f₁
    have hst : ¬ strict := fun hst => absurd (hs hst).issued (by rw [hi]; exact Bool.false_ne_true)
    refine Ghost.wp_bind (Calm.then (calm_complete (fun h => ?_) (fun _ => rfl)
      fun h => absurd h hst) fun _ g₂ h₂ => ?_)
    · rw [hi] at h
      cases h
    · exact Ghost.wp_bind (Ghost.wp_bind (hreject (hg.le (h₁.trans h₂)) hi))
  | true =>
  refine Ghost.wp_bind (wp_issueCountedSeen (by simp) (calm_onExternalIds hs)
    (fun hst => not_failed (hs hst).issued (by decide))
    (fun hf hi => absurd ((issued_false (by decide) hf).symm.trans hi) Bool.false_ne_true) fun b₂ g₂ h₂ f₂ => ?_)
  have hg₂ := hg.le (h₁.trans h₂)
  cases b₂ with
  | false =>
    exact Ghost.wp_bind (Ghost.wp_bind (hreject hg₂ (issued_false (by decide) f₂)))
  | true =>
  refine Ghost.wp_bind (wp_issueCountedSeen (by simp)
    (calm_onEventIds hs fun hst => (hs hst).eventIdsMsisdn)
    (fun hst => not_failed (hs hst).issued (by decide))
    (fun hf hi => absurd ((issued_false (by decide) hf).symm.trans hi) Bool.false_ne_true) fun b₃ g₃ h₃ f₃ => ?_)
  have hg₃ := hg₂.le h₃
  cases b₃ with
  | false => exact Ghost.wp_bind (hreject hg₃ (issued_false (by decide) f₃))
  | true =>
  refine Ghost.wp_bind (wp_issueCountedSeen (by simp) (calm_onMmeIdentity hs)
    (fun hst => not_failed (hs hst).issued (by decide))
    (fun hf hi => absurd ((issued_false (by decide) hf).symm.trans hi) Bool.false_ne_true) fun b₄ g₄ h₄ f₄ => ?_)
  have hg₄ := hg₃.le h₄
  cases b₄ with
  | false => exact hreject hg₄ (issued_false (by decide) f₄)
  | true =>
    have hi : S.outcomes.issued = true := by
      rw [Outcomes.issued, List.all_eq_true]
      intro db hdb
      simp only [Outcomes.phase1Dbs, List.mem_cons, List.not_mem_nil, or_false] at hdb
      rcases hdb with rfl | rfl | rfl | rfl
      · rw [show S.outcomes.fails .getImsiInfo = false from f₁]; rfl
      · rw [show S.outcomes.fails .getExtIds = false from f₂]; rfl
      · rw [show S.outcomes.fails .getEvntidsMsisdn = false from f₃]; rfl
      · rw [show S.outcomes.fails .getMmeidHost = false from f₄]; rfl
    exact calm_call rfl _ _ fun _ g₅ h₅ => (hg₄.le h₅).atEnd (hsucc hi)

/-- A bit that a phase waits for is set when the phase is ready. -/
theorem getLsbD_of_flagIsSet {x : BitVec 32} {b : Nat} (h : flagIsSet x (BitVec.twoPow 32 b) = true) :
    x.getLsbD b = true := by
  unfold flagIsSet at h
  rw [BitVec.and_twoPow] at h
  cases hb : x.getLsbD b with
  | true => rfl
  | false =>
    rw [hb] at h
    cases h

theorem phase1Body_seen (hs : strict → S.Clean) :
    (phase1Body S.req).wp (seenGhost S strict).spec
      (Seen.begin ⟨phase1, [], S.start.view⟩ x) (fun _ g => g.AtEnd S) := by
  have hkeep : ∀ {f : Data → Data}, (∀ d, (f d).orig_info = d.orig_info) →
      (∀ d, (f d).mmeidentity = d.mmeidentity) → Allowed S f := fun ho hm =>
    ⟨fun d _ => Or.inl (ho d), fun d _ => Or.inl (hm d)⟩
  refine wp_modifyAt (v := { S.start.view with new_info := { S.start.new_info with
      imsi := S.req.user_name.getD S.start.new_info.imsi } }) (at_begin _ x)
    (hkeep (fun _ => rfl) fun _ => rfl) ?_ fun g₁ hg₁ => wp_getAt hg₁ fun d hd _ _ => ?_
  · intro d hd
    obtain ⟨h1, h2, h3, h4⟩ := View.mk.inj hd
    simp only [Data.view, h1, h2, h3, h4]
  have hnew : d.new_info = { S.start.new_info with
      imsi := S.req.user_name.getD S.start.new_info.imsi } := congrArg View.new_info hd
  have hlong : d.new_info.imsi.length > imsiLength ↔ S.tooLong = true := by
    rw [hnew]
    exact decide_eq_true_iff.symm
  split
  · have ht := hlong.mp ‹_›
    exact wp_rejectAt hg₁ rfl (fun h => by cases h) fun _ => by simp [Scene.expected, ht, invalidAvp]
  have ht : S.tooLong = false := Bool.eq_false_iff.mpr fun h => absurd (hlong.mpr h) ‹_›
  refine wp_modifyAt (v := S.data1.view) hg₁ (hkeep (fun _ => rfl) fun _ => rfl) ?_ fun g₂ hg₂ =>
    wp_getAt hg₂ fun d hd _ _ => wp_setPhaseAt hg₂ (fun _ => Or.inl rfl) fun g₃ hg₃ => ?_
  · intro d hd
    obtain ⟨h1, h2, h3, h4⟩ := View.mk.inj hd
    simp only [Data.view, Scene.data1, h1, h2, h3, h4]
  · exact phase1_queries hs d hg₃ ht rfl fun hi => .phase2 x ht hi

theorem calm_callAddAvps (r : Except Rejection Data) : Calm S strict (callAddAvps r) := by
  unfold callAddAvps
  split
  · split
    · exact calm_bind (calm_call rfl) fun _ => calm_ret _
    · exact calm_ret _
  · exact calm_ret _

theorem phase2Body_seen (hx : x.getLsbD 0 = true) (hst : strict → S.outcomes.found = true)
    (ht : S.tooLong = false) (hi : S.outcomes.issued = true) :
    (phase2Body S.json S.req).wp (seenGhost S strict).spec
      (Seen.begin ⟨phase2, [], S.data1.view⟩ x) (fun _ g => g.AtEnd S) := by
  refine Ghost.wp_then trivial fun result hres => wp_getAt (at_begin _ x) fun d hd horig _ => ?_
  obtain ⟨hfound, hkept⟩ := hres rfl hi hx
  have hbit : ∀ y : BitVec 32, (y &&& Db.getImsiInfo.item) = 0 ↔ y.getLsbD 0 = false := by
    intro y
    rw [show Db.getImsiInfo.item = BitVec.twoPow 32 0 from rfl, BitVec.and_twoPow]
    cases y.getLsbD 0 <;> decide
  split
  case isTrue hz =>
    refine wp_rejectAt (at_begin _ x) rfl nofun fun hfix => ?_
    have hclear := (hbit _).mp hz
    have hnot : ¬ strict := fun h => absurd (hkept h (fun m hm => by rw [hm]; exact Or.inr rfl)
      (hst h)) (by rw [hclear]; exact Bool.false_ne_true)
    refine (expected_unknown ht ?_).symm
    rcases hfix with h | h | h
    · exact absurd h hnot
    · rw [ht] at h
      cases h
    · exact h
  case isFalse hnz =>
    have hf : S.outcomes.found = true := hfound (by
      cases hr : BitVec.getLsbD result 0 with
      | true => rfl
      | false => exact absurd ((hbit _).mpr hr) hnz)
    have hdata : Same d S.data2 := ⟨horig hi hx, hd⟩
    have hsame := phase2Checks_same S.json S.req hdata
    refine Calm.at (calm_callAddAvps _) (at_begin _ x) fun _ g₁ hg₁ => ?_
    cases h1 : phase2Checks S.json S.req d with
    | error r =>
      rw [h1] at hsame
      cases h2 : phase2Checks S.json S.req S.data2 with
      | ok d' =>
        rw [h2] at hsame
        cases hsame
      | error r' =>
        rw [h2] at hsame
        have hr : r.2 = r'.2 := by
          cases hsame
          assumption
        refine wp_rejectAt hg₁ rfl (phase2Checks_noFalseSuccess _ _ _ r h1) fun _ => ?_
        simp [Scene.expected, ht, hi, hf, h2, hr]
    | ok d' =>
      rw [h1] at hsame
      cases h2 : phase2Checks S.json S.req S.data2 with
      | error r =>
        rw [h2] at hsame
        cases hsame
      | ok d'' =>
        rw [h2] at hsame
        have hr : Same d' d'' := by
          cases hsame
          assumption
        have hacc : S.Accepts d'' := ⟨ht, hi, hf, h2⟩
        refine wp_modifyAt (v := d''.view) hg₁ ⟨fun _ _ => Or.inl rfl, fun _ _ =>
          Or.inl rfl⟩ (fun _ _ => hr.2) fun g₂ hg₂ => ?_
        exact wp_setPhaseEnd hg₂ (fun h => absurd h (by decide)) (.phase3 x hacc)

theorem calm_askEventIds : ∀ extids, Calm S strict (askEventIds extids)
  | [] => calm_ret _
  | _ :: rest => calm_bind (calm_call rfl) fun _ =>
      calm_bind (calm_modify (aside_of_same (fun _ => rfl) (fun _ => rfl) fun _ => rfl)) fun _ =>
      calm_askEventIds rest

theorem calm_askEvents : ∀ ids, Calm S strict (askEvents ids)
  | [] => calm_ret _
  | _ :: rest => calm_bind (calm_call rfl) fun _ =>
      calm_bind (calm_modify (aside_of_same (fun _ => rfl) (fun _ => rfl) fun _ => rfl)) fun _ =>
      calm_askEvents rest

theorem calm_addEvents : ∀ events, Calm S strict (addEvents events)
  | [] => calm_ret _
  | _ :: rest => calm_bind (calm_call rfl) fun _ =>
      calm_bind (calm_modify (aside_of_same (fun _ => rfl) (fun _ => rfl) fun _ => rfl)) fun _ =>
      calm_addEvents rest

theorem calm_collectEvents (d : Data) : Calm S strict (collectEvents d) := by
  unfold collectEvents
  split
  · exact calm_bind (calm_askEventIds _) fun _ => calm_bind (calm_call rfl) fun _ =>
      calm_bind (calm_askEvents _) fun _ => calm_bind (calm_call rfl) fun _ => calm_addEvents _
  · exact calm_ret _

theorem calm_reportRoaming (d : Data) : Calm S strict (reportRoaming d) := by
  unfold reportRoaming
  split
  · exact calm_modify (aside_of_same (fun _ => rfl) (fun _ => rfl) fun _ => rfl)
  · exact calm_ret _

theorem phase3Body_seen {d : Data} (h : S.Accepts d) :
    phase3Body.wp (seenGhost S strict).spec (Seen.begin ⟨phase3, [], d.view⟩ x)
      (fun _ g => g.AtEnd S) := by
  refine wp_getAt (at_begin _ x) fun d₁ _ _ _ => Calm.at (calm_collectEvents d₁) (at_begin _ x)
    fun _ g₁ hg₁ => wp_getAt hg₁ fun d₂ _ _ _ => ?_
  refine wp_answerAt hg₁ rfl (fun _ => h.expected.symm) fun g₂ hg₂ =>
    Calm.at (calm_reportRoaming d₂) hg₂ fun _ g₃ hg₃ => ?_
  exact wp_setPhaseEnd hg₃ (fun he => absurd he (by decide)) (.phase4 x h)

/-- What is left of `phase4` when the update has been put together. -/
theorem phase4_update {d : Data} {stmt : String} (h : S.Accepts d) (hstmt : stmt = S.updateText d)
    (hi : g.inLoop = true) (hm : ∀ m, g.mine m → m.phase = phase5 ∧
      m.results = [.resultCode erDiameterSuccess]) :
    (do
      let success ← issueCounted (K := kind) (.updateImsi, stmt) onUpdate [Db.updateImsi.item]
      if success then return () else setNextphase phaseFinal).wp (seenGhost S strict).spec g
      (fun _ g => g.AtEnd S) := by
  have hlate : ∀ {g'}, g.Le g' → g'.Late := fun hle =>
    hle.isLate (Or.inr ⟨hi, fun m hm' => by rw [(hm m hm').1]; decide⟩)
  have hend : ∀ {g'}, g.Le g' → g'.AtEnd S := by
    intro g' hle m hm'
    obtain ⟨phase, results, view⟩ := m
    obtain ⟨h1, h2⟩ := hm _ (hle.mine _ hm')
    simp only at h1 h2
    subst h1 h2
    exact .phase5 _ view h.issued
  refine Ghost.wp_bind (Calm.then (calm_call rfl) fun _ g₁ h₁ => Ghost.wp_bind (Ghost.wp_bind ?_))
  refine Ghost.wp_call (fun _ => ⟨h₁.inLoop.trans hi, ⟨d, h, hstmt⟩, fun m hm' => ?_⟩)
    fun r hr => ?_
  · obtain ⟨hp, hres⟩ := hm m (h₁.mine m hm')
    exact ⟨hres, by rw [hp]; decide⟩
  have h₂ : g.Le ((seenGhost S strict).next (.register (.updateImsi, stmt)) g₁ r) :=
    h₁.trans (register_le r)
  rcases hr with ⟨rfl, hf⟩ | ⟨rfl, hf⟩ | ⟨rfl, hf⟩
  · -- the update cannot be issued
    refine Ghost.wp_bind (Ghost.wp_bind (Ghost.wp_then ⟨(nomatch ·), fun _ _ => hlate h₂⟩
      fun r₃ _ => Ghost.wp_call (fun _ => ⟨(nomatch ·), (nomatch ·), fun _ => Or.inr hf⟩)
        fun r₄ _ => ?_))
    refine Calm.then (calm_call rfl) fun _ g₅ h₅ => ?_
    have hle : g.Le g₅ := h₂.trans ((result_le r₃).trans ((bits_le r₄).trans h₅))
    refine Ghost.wp_call ⟨hle.inLoop.trans hi, fun he => absurd he (by decide)⟩ fun _ _ m hm' => ?_
    obtain ⟨⟨phase, results, view⟩, hm₁, rfl⟩ := hm'
    obtain ⟨_, h2⟩ := hm _ (hle.mine _ hm₁)
    simp only at h2
    subst h2
    exact .final _ view _ fun _ => ⟨h.issued, Or.inr hf⟩
  · exact hend h₂
  · refine Ghost.wp_bind (wp_onUpdate (hlate h₂) (Or.inr rfl) fun g₃ h₃ hb => ?_)
    exact Calm.then (calm_call rfl) fun _ g₄ h₄ => hend (h₂.trans (h₃.trans h₄))

theorem phase4Body_seen {d : Data} (hx : x.getLsbD 5 = true) (h : S.Accepts d) :
    phase4Body.wp (seenGhost S strict).spec
      (Seen.begin ⟨phase4, [.resultCode erDiameterSuccess], d.view⟩ x) (fun _ g => g.AtEnd S) := by
  refine wp_setPhaseAt (at_begin _ x) (fun he => absurd he (by decide)) fun g₁ hg₁ => ?_
  refine Ghost.wp_then ⟨⟨fun _ _ => Or.inl rfl, fun _ _ => Or.inl rfl⟩, Or.inl hg₁.inLoop⟩
    fun _ _ => Ghost.wp_then trivial fun d₂ hd₂ => ?_
  -- only `mme_id` has changed, which the statement does not use
  have hmine : ∀ m, (∃ m' d' : _, g₁.mine m' ∧ (g₁.inLoop = true → m'.view = Data.view d') ∧
      m = { m' with view := if g₁.inLoop then Data.view { d' with new_info :=
        { d'.new_info with mme_id := d'.mmeidentity } } else m'.view }) →
      m.phase = phase5 ∧ m.results = [.resultCode erDiameterSuccess] ∧
      ∃ i, m.view = { d.view with new_info := { d.new_info with mme_id := i } } := by
    rintro m ⟨m', d', hm', hv, rfl⟩
    obtain rfl := hg₁.mine m' hm'
    obtain ⟨h1, h2, h3, h4⟩ := View.mk.inj (hv hg₁.inLoop)
    refine ⟨rfl, rfl, d'.mmeidentity, ?_⟩
    simp only [hg₁.inLoop, if_true, Data.view, ← h1, ← h2, ← h3, ← h4]
  obtain ⟨hv, _, hmme⟩ := hd₂
  obtain ⟨m, hm, hview⟩ := hv hg₁.inLoop
  obtain ⟨_, _, i, hi⟩ := hmine m hm
  rw [hi] at hview
  have hid : Data.mmeidentity d₂ = S.mme := hmme (Or.inr ⟨h.issued, hg₁.bits 5 hx⟩)
  refine phase4_update h ?_ hg₁.inLoop fun m hm => ⟨(hmine m hm).1, (hmine m hm).2.1⟩
  obtain ⟨h1, h2, _, _⟩ := View.mk.inj hview
  rw [Scene.updateText, hid, ← h1, ← h2]
  rfl

theorem body_seen (hs : strict → S.Clean) {m : Mine} {d : Data} (h : Standing S m x)
    (hr : ready m.phase x d = true) :
    (body S.json S.req m.phase).wp (seenGhost S strict).spec (Seen.begin m x)
      (fun _ g => g.AtEnd S) := by
  cases h with
  | phase1 => exact phase1Body_seen hs
  | phase2 _ ht hi =>
    exact phase2Body_seen (getLsbD_of_flagIsSet hr) (fun hst => (hs hst).found) ht hi
  | phase3 _ h => exact phase3Body_seen h
  | phase4 _ h => exact phase4Body_seen (getLsbD_of_flagIsSet hr) h
  | phase5 _ v hi =>
    exact wp_setPhaseEnd (at_begin _ x) (fun he => absurd he (by decide))
      (.final x v _ fun _ => ⟨hi, Or.inl (getLsbD_of_flagIsSet hr)⟩)
  | final => cases (show false = true from hr)

end Phases

theorem init_clear {d : Data} (b : Nat) :
    ¬ (State.init phase1 d : State kind).core.m_dbexecuted.getLsbD b = true := by
  simp [State.init]

theorem facts_init (S : Scene) (strict : Prop) :
    Facts S strict (State.init phase1 S.start : State kind).core where
  orig := Or.inl rfl
  mme := Or.inl rfl
  imsi := fun _ h => absurd h (init_clear _)
  kept := fun _ _ _ h => absurd h (init_clear _)
  mmeid := fun _ h => absurd h (init_clear _)
  pending := fun _ h => absurd h List.not_mem_nil
  resolved := fun _ h => absurd h List.not_mem_nil
  updates := by
    rintro (⟨_, h, _⟩ | ⟨_, h, _⟩)
    · cases h
    · cases h
  updated := fun _ h => absurd h (init_clear _)
  answers := fun _ => nofun

/-- **What holds in every reachable state of a ULR** with given outcomes. -/
theorem ulr_watched {S : Scene} {strict : Prop} {s : State kind} (hs : strict → S.Clean)
    {C : State kind → Env kind × Move → Prop} (hC : ∀ s e m, C s (e, m) → S.outcomes.Agrees e)
    (h : Run (code S.json S.req) C (State.init phase1 S.start) s) :
    Facts S strict s.core ∧ (s.worker = none → Standing S (mineOf s.core) s.core.m_dbexecuted) := by
  obtain ⟨gw, gs, hw, hT⟩ := (watched_sound (M := code S.json S.req) hC
    (fun m x d hstand _ hr => body_seen hs hstand hr) (handler_seen hs)).invariant h rfl rfl
    ⟨facts_init S strict, nofun, nofun, fun _ => .phase1 _⟩
  exact ⟨hw.facts, fun hnone => hw.between (hT.eq_none hnone)⟩

/-- **The update that a ULR makes** is that of an accepted ULR. -/
theorem ulr_updates {S : Scene} {s : State kind} {C : State kind → Env kind × Move → Prop}
    (hC : ∀ s e m, C s (e, m) → S.outcomes.Agrees e)
    (h : Run (code S.json S.req) C (State.init phase1 S.start) s) {text : String}
    (ht : s.Performs (.register (.updateImsi, text))) :
    ∃ d, S.Accepts d ∧ text = S.updateText d := by
  have hs : False → S.Clean := nofun
  obtain ⟨gw, gs, -, hT⟩ := (watched_sound (M := code S.json S.req) hC
    (fun m x d hstand _ hr => body_seen hs hstand hr) (handler_seen hs)).invariant h rfl rfl
    ⟨facts_init S False, nofun, nofun, fun _ => .phase1 _⟩
  obtain ⟨g, -, hd⟩ := hT.demand ht
  exact (hd rfl).2.1

end OpenairHss.Ulr
