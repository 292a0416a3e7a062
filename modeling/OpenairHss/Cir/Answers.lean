import OpenairHss.Cir.Request

/-!
# Who answers a CIR, and who tells the RIR builder

A CIR is answered by `COIRcmd::process` itself, by `processSimpleImsi` when the IDR could not be
sent, by `processMultiImsi`, or by the handler of the IDA.  `cia_once_iff` counts the answers over
all outcomes: there is exactly one, except when `createINSDRreq` ends the process, or when the IDR of
a single IMSI is built and `send` throws; `sendINSDRreq` then returns `false`, which its caller takes
for "sent".

For a group, every IMSI is to post one MME response to the RIR builder: `sendINSDRreq` if the IMSI is
not attached or its MME not reachable, else the handler of the IDA.  An IDR whose `send` throws posts
nothing, nor does the handler of an IDA that comes after `processMultiImsi` has deleted the CIR
(`responses_all_iff`), and the builder waits for ever.
-/

namespace OpenairHss.Cir

open Diameter

/-! ### What is counted -/

def Effect.isCia : Effect → Bool
  | .cia _ => true
  | _ => false

/-- The number of CIAs among the effects. -/
def cias (l : List Effect) : Nat := l.countP Effect.isCia

def idrs (l : List Effect) : List Idr :=
  l.filterMap fun
    | .idr i => some i
    | _ => none

/-- The messages posted to the RIR builder. -/
def posts (l : List Effect) : List Msg :=
  l.filterMap fun
    | .post m => some m
    | _ => none

def builders (l : List Effect) : List RirBuilder :=
  l.filterMap fun
    | .startBuilder b _ => some b
    | _ => none

@[simp] theorem cias_append (l l' : List Effect) : cias (l ++ l') = cias l + cias l' :=
  List.countP_append

@[simp] theorem idrs_append (l l' : List Effect) : idrs (l ++ l') = idrs l ++ idrs l' :=
  List.filterMap_append

@[simp] theorem posts_append (l l' : List Effect) : posts (l ++ l') = posts l ++ posts l' :=
  List.filterMap_append

section Cons

variable (l : List Effect)

@[simp] theorem cias_cia (avps : List CiaAvp) : cias (.cia avps :: l) = cias l + 1 :=
  List.countP_cons_of_pos rfl
@[simp] theorem cias_startBuilder (b : RirBuilder) (i : Option Nat) :
    cias (.startBuilder b i :: l) = cias l := List.countP_cons_of_neg (by simp [Effect.isCia])
@[simp] theorem cias_post (m : Msg) : cias (.post m :: l) = cias l :=
  List.countP_cons_of_neg (by simp [Effect.isCia])
@[simp] theorem cias_idr (i : Idr) : cias (.idr i :: l) = cias l :=
  List.countP_cons_of_neg (by simp [Effect.isCia])
@[simp] theorem cias_nil : cias [] = 0 := rfl

@[simp] theorem idrs_cia (avps : List CiaAvp) : idrs (.cia avps :: l) = idrs l := rfl
@[simp] theorem idrs_startBuilder (b : RirBuilder) (i : Option Nat) :
    idrs (.startBuilder b i :: l) = idrs l := rfl
@[simp] theorem idrs_post (m : Msg) : idrs (.post m :: l) = idrs l := rfl
@[simp] theorem idrs_idr (i : Idr) : idrs (.idr i :: l) = i :: idrs l := rfl
@[simp] theorem idrs_nil : idrs [] = [] := rfl

@[simp] theorem posts_cia (avps : List CiaAvp) : posts (.cia avps :: l) = posts l := rfl
@[simp] theorem posts_startBuilder (b : RirBuilder) (i : Option Nat) :
    posts (.startBuilder b i :: l) = posts l := rfl
@[simp] theorem posts_post (m : Msg) : posts (.post m :: l) = m :: posts l := rfl
@[simp] theorem posts_idr (i : Idr) : posts (.idr i :: l) = posts l := rfl
@[simp] theorem posts_nil : posts [] = [] := rfl

end Cons

/-! ### One IDR -/

/-- How a call of `sendINSDRreq` goes. -/
inductive Fate
  /-- `getImsiInfo`, `getState` or `createINSDRreq` throws. -/
  | throws
  /-- `createINSDRreq` ends the process. -/
  | exits
  /-- The IMSI is not attached. -/
  | notActive
  /-- The MME is not reachable. -/
  | down
  | sent (info : ImsiInfo)
  /-- `send` throws. -/
  | failed

/-- The outcome of a call, in one word. -/
def IdrOutcome.fate (o : IdrOutcome) : Fate :=
  match o.info, o.peerOpen with
  | none, _ | some _, none => .throws
  | some info, some peerOpen =>
    if info.ms_ps_status ≠ "ATTACHED" then .notActive
    else if !peerOpen then .down
    else match o.created with
      | .error .thrown => .throws
      | .error .exited => .exits
      | .ok () => if o.sent then .sent info else .failed

/-- The IMSI is accounted for: somebody will answer for it. -/
def Fate.accounted : Fate → Bool
  | .notActive | .down | .sent _ => true
  | .throws | .exits | .failed => false

/-- `sendINSDRreq` for a single IMSI. -/
theorem sendINSDRreq_single (o : IdrOutcome) (cir : Request) (imsi : String) (m : EvenStatusMap) :
    sendINSDRreq o cir imsi m false = match o.fate with
      | .throws => ⟨[], .error .thrown⟩
      | .exits => ⟨[], .error .exited⟩
      | .notActive => ⟨[], .ok imsiNotActive⟩
      | .down => ⟨[], .ok mmeDown⟩
      | .sent info => ⟨[.idr (createINSDRreq info cir imsi m false)], .ok 1⟩
      | .failed => ⟨[], .ok 0⟩ := by
  obtain ⟨info, peerOpen, created, sent⟩ := o
  cases info with
  | none => rfl
  | some info =>
    cases peerOpen with
    | none => rfl
    | some peerOpen =>
      by_cases ha : info.ms_ps_status = "ATTACHED"
      · rcases created with (_ | _) | _ <;> cases peerOpen <;> cases sent <;>
          simp [sendINSDRreq, IdrOutcome.fate, Emit.call, Emit.emit, ha]
      · simp [sendINSDRreq, IdrOutcome.fate, ha]

/-- `sendINSDRreq` for a member of a group. -/
theorem sendINSDRreq_group (o : IdrOutcome) (cir : Request) (imsi : String) (m : EvenStatusMap) :
    (sendINSDRreq o cir imsi m true = match o.fate with
      | .throws => ⟨[], .error .thrown⟩
      | .exits => ⟨[], .error .exited⟩
      | .notActive => ⟨[.post (.mmeResponse ⟨none, imsi, imsiNotActive,
          (o.info.map (·.str_msisdn)).getD ""⟩)], .ok 1⟩
      | .down => ⟨[.post (.mmeResponse ⟨none, imsi, mmeDown,
          (o.info.map (·.str_msisdn)).getD ""⟩)], .ok 1⟩
      | .sent info => ⟨[.idr (createINSDRreq info cir imsi m true)], .ok 1⟩
      | .failed => ⟨[], .ok 0⟩) := by
  obtain ⟨info, peerOpen, created, sent⟩ := o
  cases info with
  | none => rfl
  | some info =>
    cases peerOpen with
    | none => rfl
    | some peerOpen =>
      by_cases ha : info.ms_ps_status = "ATTACHED"
      · rcases created with (_ | _) | _ <;> cases peerOpen <;> cases sent <;>
          simp [sendINSDRreq, IdrOutcome.fate, Emit.call, Emit.emit, ha]
      · simp [sendINSDRreq, IdrOutcome.fate, Emit.emit, ha]

/-! ### The loop over a group -/

/-- How the loop over a group is left, from number `k` on. -/
def loopEnd (out : Outcomes) : Nat → List String → Except Stop Unit
  | _, [] => .ok ()
  | k, _ :: imsis => match (out.idr k).fate with
    | .throws => .error .thrown
    | .exits => .error .exited
    | _ => loopEnd out (k + 1) imsis

/-- The IMSIs of a group that nobody answers for: those whose IDR is lost, and those that the loop
does not come to. -/
def missing (out : Outcomes) : Nat → List String → Nat
  | _, [] => 0
  | k, _ :: imsis => match (out.idr k).fate with
    | .throws | .exits => imsis.length + 1
    | .failed => missing out (k + 1) imsis + 1
    | _ => missing out (k + 1) imsis

/-- The numbers of a list from `k` on. -/
theorem forall_numbers_cons {P : Nat → Prop} {k n : Nat} :
    (∀ j < n + 1, P (k + j)) ↔ P k ∧ ∀ j < n, P (k + 1 + j) := by
  constructor
  · refine fun h => ⟨h 0 (Nat.succ_pos n), fun j hj => ?_⟩
    rw [Nat.add_assoc, Nat.add_comm 1 j]
    exact h (j + 1) (Nat.succ_lt_succ hj)
  · rintro ⟨h0, hs⟩ j hj
    cases j with
    | zero => exact h0
    | succ j =>
      rw [Nat.add_comm j 1, ← Nat.add_assoc]
      exact hs j (Nat.lt_of_succ_lt_succ hj)

theorem missing_eq_zero {out : Outcomes} {imsis : List String} {k : Nat} :
    missing out k imsis = 0 ↔ ∀ j < imsis.length, (out.idr (k + j)).fate.accounted = true := by
  induction imsis generalizing k with
  | nil => exact iff_of_true rfl fun j hj => absurd hj (Nat.not_lt_zero j)
  | cons imsi imsis ih =>
    rw [List.length_cons,
      forall_numbers_cons (P := fun j => (out.idr j).fate.accounted = true), ← ih, missing]
    cases (out.idr k).fate with
    | throws => simp [Fate.accounted]
    | exits => simp [Fate.accounted]
    | failed => simp [Fate.accounted]
    | notActive => simp [Fate.accounted]
    | down => simp [Fate.accounted]
    | sent info => simp [Fate.accounted]

theorem loopEnd_of_missing {out : Outcomes} {imsis : List String} {k : Nat}
    (h : missing out k imsis = 0) : loopEnd out k imsis = .ok () := by
  induction imsis generalizing k with
  | nil => rfl
  | cons imsi imsis ih =>
    rw [missing] at h
    rw [loopEnd]
    cases hf : (out.idr k).fate with
    | throws => rw [hf] at h; exact absurd h (Nat.succ_ne_zero _)
    | exits => rw [hf] at h; exact absurd h (Nat.succ_ne_zero _)
    | failed => rw [hf] at h; exact absurd h (Nat.succ_ne_zero _)
    | notActive => rw [hf] at h; exact ih h
    | down => rw [hf] at h; exact ih h
    | sent info => rw [hf] at h; exact ih h

/-- The process ends within the loop: before anything throws. -/
theorem loopEnd_exited {out : Outcomes} {imsis : List String} {k : Nat} :
    loopEnd out k imsis = .error .exited ↔ ∃ j < imsis.length,
      (out.idr (k + j)).fate = .exits ∧ ∀ i < j, (out.idr (k + i)).fate ≠ .throws := by
  induction imsis generalizing k with
  | nil => exact iff_of_false nofun fun ⟨j, hj, _⟩ => absurd hj (Nat.not_lt_zero j)
  | cons imsi imsis ih =>
    have hsucc : ∀ j, k + 1 + j = k + (j + 1) := fun j => by omega
    have hnext : (∃ j < imsis.length, (out.idr (k + 1 + j)).fate = .exits ∧
        ∀ i < j, (out.idr (k + 1 + i)).fate ≠ .throws) ∧ (out.idr k).fate ≠ .throws →
        ∃ j < imsis.length + 1, (out.idr (k + j)).fate = .exits ∧
          ∀ i < j, (out.idr (k + i)).fate ≠ .throws := by
      rintro ⟨⟨j, hj, hexits, hbefore⟩, hfirst⟩
      refine ⟨j + 1, Nat.succ_lt_succ hj, hsucc j ▸ hexits, ?_⟩
      exact (forall_numbers_cons (P := fun i => (out.idr i).fate ≠ .throws)).mpr ⟨hfirst, hbefore⟩
    have hprev : (∃ j < imsis.length + 1, (out.idr (k + j)).fate = .exits ∧
        ∀ i < j, (out.idr (k + i)).fate ≠ .throws) → (out.idr k).fate ≠ .exits →
        (∃ j < imsis.length, (out.idr (k + 1 + j)).fate = .exits ∧
          ∀ i < j, (out.idr (k + 1 + i)).fate ≠ .throws) ∧ (out.idr k).fate ≠ .throws := by
      rintro ⟨j, hj, hexits, hbefore⟩ hfirst
      cases j with
      | zero => exact absurd hexits hfirst
      | succ j =>
        obtain ⟨hzero, hrest⟩ :=
          (forall_numbers_cons (P := fun i => (out.idr i).fate ≠ .throws)).mp hbefore
        exact ⟨⟨j, Nat.lt_of_succ_lt_succ hj, hsucc j ▸ hexits, hrest⟩, hzero⟩
    rw [loopEnd, List.length_cons]
    cases hf : (out.idr k).fate with
    | throws =>
      refine iff_of_false (by simp) fun h => ?_
      exact (hprev h (by simp [hf])).2 hf
    | exits => exact iff_of_true rfl ⟨0, Nat.succ_pos _, hf, fun i hi => absurd hi (Nat.not_lt_zero i)⟩
    | notActive =>
      exact ih.trans ⟨fun h => hnext ⟨h, by simp [hf]⟩, fun h => (hprev h (by simp [hf])).1⟩
    | down =>
      exact ih.trans ⟨fun h => hnext ⟨h, by simp [hf]⟩, fun h => (hprev h (by simp [hf])).1⟩
    | sent info =>
      exact ih.trans ⟨fun h => hnext ⟨h, by simp [hf]⟩, fun h => (hprev h (by simp [hf])).1⟩
    | failed =>
      exact ih.trans ⟨fun h => hnext ⟨h, by simp [hf]⟩, fun h => (hprev h (by simp [hf])).1⟩

/-- What the loop over a group does: it sends no CIA, its IDRs belong to the group, it posts MME
responses only, and every IMSI gives a response, an IDR or is missing. -/
structure LoopSpec (out : Outcomes) (k : Nat) (imsis : List String) (c : Code Unit) : Prop where
  noCia : cias c.effects = 0
  noBuilder : builders c.effects = []
  group : ∀ i ∈ idrs c.effects, i.group = true
  responses : ∀ m ∈ posts c.effects, ∃ r, m = Msg.mmeResponse r
  count : (posts c.effects).length + (idrs c.effects).length + missing out k imsis = imsis.length
  result : c.result = loopEnd out k imsis

/-- The loop is left at its first IMSI. -/
theorem LoopSpec.stop {out : Outcomes} {k : Nat} {imsi : String} {imsis : List String} {s : Stop}
    (hmissing : missing out k (imsi :: imsis) = imsis.length + 1)
    (hend : loopEnd out k (imsi :: imsis) = .error s) :
    LoopSpec out k (imsi :: imsis) ⟨[], .error s⟩ where
  noCia := rfl
  noBuilder := rfl
  group := by simp
  responses := by simp
  count := by
    rw [hmissing]
    exact Nat.zero_add _
  result := hend.symm

/-- One more IMSI at the head of the loop. -/
theorem LoopSpec.cons {out : Outcomes} {k : Nat} {imsi : String} {imsis : List String}
    {c : Code Unit} {e : List Effect} (h : LoopSpec out (k + 1) imsis c) (hcias : cias e = 0)
    (hbuilders : builders e = [])
    (hgroup : ∀ i ∈ idrs e, i.group = true) (hposts : ∀ m ∈ posts e, ∃ r, m = Msg.mmeResponse r)
    (hcount : (posts e).length + (idrs e).length + missing out k (imsi :: imsis) =
      missing out (k + 1) imsis + 1)
    (hend : loopEnd out k (imsi :: imsis) = loopEnd out (k + 1) imsis) :
    LoopSpec out k (imsi :: imsis) ⟨e ++ c.effects, c.result⟩ where
  noCia := by rw [cias_append, hcias, h.noCia]
  noBuilder := by
    have := h.noBuilder
    rw [builders] at hbuilders this ⊢
    rw [List.filterMap_append, hbuilders, this, List.append_nil]
  group i hi := by
    rw [idrs_append] at hi
    exact (List.mem_append.mp hi).elim (hgroup i) (h.group i)
  responses m hm := by
    rw [posts_append] at hm
    exact (List.mem_append.mp hm).elim (hposts m) (h.responses m)
  count := by
    have hsum := h.count
    rw [posts_append, idrs_append, List.length_append, List.length_append, List.length_cons]
    omega
  result := h.result.trans hend.symm

theorem sendAll_spec (out : Outcomes) (cir : Request) (m : EvenStatusMap) (imsis : List String)
    (k : Nat) : LoopSpec out k imsis (sendAll out cir m k imsis) := by
  induction imsis generalizing k with
  | nil => exact ⟨rfl, rfl, by simp [sendAll], by simp [sendAll], rfl, rfl⟩
  | cons imsi imsis ih =>
    have e : sendAll out cir m k (imsi :: imsis)
        = (sendINSDRreq (out.idr k) cir imsi m true).bind fun _ => sendAll out cir m (k + 1) imsis :=
      rfl
    have hmissing : missing out k (imsi :: imsis) = match (out.idr k).fate with
      | .throws | .exits => imsis.length + 1
      | .failed => missing out (k + 1) imsis + 1
      | _ => missing out (k + 1) imsis := rfl
    have hend : loopEnd out k (imsi :: imsis) = match (out.idr k).fate with
      | .throws => .error .thrown
      | .exits => .error .exited
      | _ => loopEnd out (k + 1) imsis := rfl
    rw [e, sendINSDRreq_group]
    cases hf : (out.idr k).fate with
    | throws =>
      rw [hf] at hmissing hend
      exact .stop hmissing hend
    | exits =>
      rw [hf] at hmissing hend
      exact .stop hmissing hend
    | notActive =>
      rw [hf] at hmissing hend
      refine (ih (k + 1)).cons rfl rfl (by simp) ?_ (by rw [hmissing]; exact Nat.add_comm ..) hend
      intro msg hmsg
      exact ⟨_, List.mem_singleton.mp hmsg⟩
    | down =>
      rw [hf] at hmissing hend
      refine (ih (k + 1)).cons rfl rfl (by simp) ?_ (by rw [hmissing]; exact Nat.add_comm ..) hend
      intro msg hmsg
      exact ⟨_, List.mem_singleton.mp hmsg⟩
    | sent info =>
      rw [hf] at hmissing hend
      refine (ih (k + 1)).cons rfl rfl ?_ (by simp) (by rw [hmissing]; exact Nat.add_comm ..) hend
      intro i hi
      obtain rfl := List.mem_singleton.mp hi
      rfl
    | failed =>
      rw [hf] at hmissing hend
      exact (ih (k + 1)).cons rfl rfl (by simp) (by simp)
        (by rw [hmissing]; exact Nat.zero_add _) hend

/-! ### The whole CIR -/

/-- The CIA of `COIRcmd::process` itself. -/
def ownCia (code : Nat) : Effect :=
  .cia [.origin, .authSessionState 1, .result (handleGlobalErrorCode code true)]

/-- What `COIRcmd::process` does when the helpers are left. -/
def coirEnd : Except Stop (Option Nat) → List Effect
  | .ok none | .error .exited => []
  | .ok (some code) => [ownCia code]
  | .error .thrown => [ownCia diameterErrorUserUnknown]

/-- `COIRcmd::process`: what the helpers do, and its own CIA if they leave or throw. -/
theorem coirProcess_effects (out : Outcomes) (cir : Request) :
    (coirProcess out cir).effects =
      (coirUser out cir).effects ++ coirEnd (coirUser out cir).result := by
  unfold coirProcess Emit.catching
  obtain ⟨effects, result⟩ := coirUser out cir
  rcases result with (_ | _) | (_ | code)
  · simp [Emit.emit, coirEnd, ownCia]
  · simp [coirEnd]
  · simp [coirEnd]
  · simp [Emit.emit, coirEnd, ownCia]

/-- What `processMultiImsi` does after its loop. -/
def groupEnd : Except Stop Unit → List Effect
  | .ok () => [.cia [.origin, .authSessionState 1, .result (.resultCode erDiameterSuccess),
      .ciaFlags groupConfigurationInProgress], .post .ciaSent]
  | .error _ => []

/-- The effects of `processMultiImsi`. -/
theorem processMultiImsi_eq (out : Outcomes) (cir : Request) (imsis : List String) :
    processMultiImsi out cir imsis =
      let start := Effect.startBuilder (RirBuilder.new imsis.length (processHssDb out cir 0)
        (cir.origin_host.getD "") (cir.origin_realm.getD ""))
        (cir.group_reporting_guard_timer.map (· * 1000))
      let loop := sendAll out cir (processHssDb out cir 0) 0 imsis
      ⟨start :: loop.effects ++ groupEnd loop.result, loop.result⟩ := by
  unfold processMultiImsi
  simp only [Emit.bind_eq, Emit.emit]
  obtain ⟨effects, result⟩ := sendAll out cir (processHssDb out cir 0) 0 imsis
  cases result with
  | error s => simp [groupEnd]
  | ok u => simp [groupEnd]

/-- A CIR for the group of an External-Identifier that is known. -/
structure IsGroup (out : Outcomes) (cir : Request) (imsis : List String) : Prop where
  msisdn : cir.msisdn = none
  list : ∃ s, cir.external_identifier = some s ∧ out.checkExtIdExists s = some true ∧
    out.getImsiListFromExtId s = some imsis

/-- The effects of a CIR for a group. -/
theorem coirProcess_group_effects {out : Outcomes} {cir : Request} {imsis : List String}
    (h : IsGroup out cir imsis) :
    let loop := sendAll out cir (processHssDb out cir 0) 0 imsis
    (coirProcess out cir).effects =
      .startBuilder (RirBuilder.new imsis.length (processHssDb out cir 0)
        (cir.origin_host.getD "") (cir.origin_realm.getD ""))
        (cir.group_reporting_guard_timer.map (· * 1000))
      :: loop.effects ++ (groupEnd loop.result ++ coirEnd (loop.result.map fun _ => none)) := by
  obtain ⟨hm, s, he, hx, hl⟩ := h
  rw [coirProcess_effects]
  unfold coirUser
  simp only [hm, he, hx, hl, Emit.bind_eq, Emit.ask_some, Emit.bind_ok, List.nil_append, if_true,
    processMultiImsi_eq]
  obtain ⟨effects, result⟩ := sendAll out cir (processHssDb out cir 0) 0 imsis
  cases result with
  | error s => simp [groupEnd, Except.map]
  | ok u => simp [groupEnd, Except.map, coirEnd]

/-- The process ends while the IDRs of a group are sent. -/
def GroupExits (out : Outcomes) (cir : Request) : Prop :=
  ∃ imsis, IsGroup out cir imsis ∧ ∃ k < imsis.length, (out.idr k).fate = .exits ∧
    ∀ j < k, (out.idr j).fate ≠ .throws

theorem groupExits_iff {out : Outcomes} {cir : Request} {imsis : List String}
    (h : IsGroup out cir imsis) :
    GroupExits out cir ↔ loopEnd out 0 imsis = .error .exited := by
  rw [loopEnd_exited]
  simp only [Nat.zero_add]
  refine ⟨fun ⟨imsis', h', hexits⟩ => ?_, fun hexits => ⟨imsis, h, hexits⟩⟩
  obtain ⟨s, he, -, hl⟩ := h.list
  obtain ⟨s', he', -, hl'⟩ := h'.list
  obtain rfl := Option.some.inj (he.symm.trans he')
  obtain rfl := Option.some.inj (hl.symm.trans hl')
  exact hexits

/-- A CIR for an External-Identifier, or without a user, is answered exactly once by
`COIRcmd::process` unless the process ends, and its IDRs belong to the group. -/
theorem coirProcess_group (out : Outcomes) {cir : Request} (h : cir.msisdn = none) :
    (cias (coirProcess out cir).effects = 1 ↔ ¬ GroupExits out cir) ∧
      ∀ i ∈ idrs (coirProcess out cir).effects, i.group = true := by
  by_cases hgroup : ∃ imsis, IsGroup out cir imsis
  · obtain ⟨imsis, hgroup⟩ := hgroup
    have hloop := sendAll_spec out cir (processHssDb out cir 0) imsis 0
    rw [groupExits_iff hgroup, coirProcess_group_effects hgroup, ← hloop.result]
    generalize sendAll out cir (processHssDb out cir 0) 0 imsis = loop at hloop ⊢
    obtain ⟨effects, result⟩ := loop
    have hcia : cias effects = 0 := hloop.noCia
    have hidrs : ∀ i ∈ idrs effects, i.group = true := hloop.group
    rcases result with (_ | _) | u
    · simpa [hcia, groupEnd, coirEnd, ownCia, Except.map] using hidrs
    · simpa [hcia, groupEnd, coirEnd, Except.map] using hidrs
    · simpa [hcia, groupEnd, coirEnd, Except.map] using hidrs
  · have hnot : ¬ GroupExits out cir := fun ⟨imsis, hg, _⟩ => hgroup ⟨imsis, hg⟩
    have hown : ∃ code, (coirProcess out cir).effects = [ownCia code] := by
      rw [coirProcess_effects]
      unfold coirUser
      rw [h]
      cases he : cir.external_identifier with
      | none => exact ⟨diameterErrorUserUnknown, rfl⟩
      | some s =>
        cases hx : out.checkExtIdExists s with
        | none => exact ⟨diameterErrorUserUnknown, by simp [hx, coirEnd]⟩
        | some known =>
          cases known with
          | false => exact ⟨diameterErrorUserUnknown, by simp [hx, coirEnd]⟩
          | true =>
            cases hl : out.getImsiListFromExtId s with
            | none => exact ⟨diameterErrorUserUnknown, by simp [hx, hl, coirEnd]⟩
            | some imsis => exact absurd ⟨imsis, h, s, he, hx, hl⟩ hgroup
    obtain ⟨code, hown⟩ := hown
    rw [hown]
    exact ⟨iff_of_true rfl hnot, by simp [ownCia]⟩

/-- The process ends, or `send` throws. -/
def Fate.lost : Fate → Bool
  | .exits | .failed => true
  | .throws | .notActive | .down | .sent _ => false

/-- The IDR of a CIR for an MSISDN is lost: the process ends before, or `send` throws. -/
def IdrLost (out : Outcomes) (cir : Request) : Prop :=
  ∃ msisdn n imsi, cir.msisdn = some msisdn ∧ stoll (tbcd2str msisdn) = some n ∧
    out.getImsiFromMsisdn n = some (some imsi) ∧ (out.idr 0).fate.lost = true

/-- A CIR that is lost got as far as the IDR. -/
theorem idrLost_iff (out : Outcomes) {cir : Request} {msisdn : List (BitVec 8)}
    (h : cir.msisdn = some msisdn) : IdrLost out cir ↔ ∃ n imsi, stoll (tbcd2str msisdn) = some n ∧
      out.getImsiFromMsisdn n = some (some imsi) ∧ (out.idr 0).fate.lost = true := by
  constructor
  · rintro ⟨m, n, imsi, hm, hrest⟩
    obtain rfl := Option.some.inj (h.symm.trans hm)
    exact ⟨n, imsi, hrest⟩
  · rintro ⟨n, imsi, hrest⟩
    exact ⟨msisdn, n, imsi, h, hrest⟩

/-- A CIR for an MSISDN: at most one CIA at once or one IDR, and neither only if the IDR is
lost. -/
theorem coirProcess_single (out : Outcomes) {cir : Request} {msisdn : List (BitVec 8)}
    (h : cir.msisdn = some msisdn) :
    let e := (coirProcess out cir).effects
    (¬ IdrLost out cir ∧ cias e = 1 ∧ idrs e = []) ∨
      (¬ IdrLost out cir ∧ cias e = 0 ∧ ∃ i, idrs e = [i] ∧ i.group = false) ∨
      (IdrLost out cir ∧ cias e = 0 ∧ idrs e = []) := by
  intro e
  have he : e = (coirProcess out cir).effects := rfl
  rw [coirProcess_effects] at he
  unfold coirUser at he
  rw [h] at he
  simp only [Emit.bind_eq] at he
  have hlost := idrLost_iff out h
  cases hn : stoll (tbcd2str msisdn) with
  | none =>
    rw [hn] at he
    refine .inl ⟨?_, by rw [he]; rfl, by rw [he]; rfl⟩
    intro hl
    obtain ⟨n, i, hn', -⟩ := hlost.mp hl
    cases hn.symm.trans hn'
  | some n =>
    rw [hn] at he
    simp only [Emit.ask_some, Emit.bind_ok, List.nil_append] at he
    cases hi : out.getImsiFromMsisdn n with
    | none =>
      rw [hi] at he
      refine .inl ⟨?_, by rw [he]; rfl, by rw [he]; rfl⟩
      intro hl
      obtain ⟨n', i, hn', hi', -⟩ := hlost.mp hl
      obtain rfl := Option.some.inj (hn.symm.trans hn')
      cases hi.symm.trans hi'
    | some o =>
      cases o with
      | none =>
        rw [hi] at he
        refine .inl ⟨?_, by rw [he]; rfl, by rw [he]; rfl⟩
        intro hl
        obtain ⟨n', i, hn', hi', -⟩ := hlost.mp hl
        obtain rfl := Option.some.inj (hn.symm.trans hn')
        cases hi.symm.trans hi'
      | some imsi =>
        rw [hi] at he
        simp only [Emit.ask_some, Emit.bind_ok, List.nil_append, processSimpleImsi, Emit.bind_eq,
          sendINSDRreq_single] at he
        have hfate : IdrLost out cir ↔ (out.idr 0).fate.lost = true := by
          rw [hlost]
          refine ⟨fun h => ?_, fun hl => ⟨n, imsi, hn, hi, hl⟩⟩
          obtain ⟨-, -, -, -, hl⟩ := h
          exact hl
        rw [hfate]
        cases hf : (out.idr 0).fate with
        | throws =>
          rw [hf] at he
          exact .inl ⟨by simp [Fate.lost], by rw [he]; rfl, by rw [he]; rfl⟩
        | exits =>
          rw [hf] at he
          exact .inr (.inr ⟨rfl, by rw [he]; rfl, by rw [he]; rfl⟩)
        | notActive =>
          rw [hf] at he
          exact .inl ⟨by simp [Fate.lost], by rw [he]; rfl, by rw [he]; rfl⟩
        | down =>
          rw [hf] at he
          exact .inl ⟨by simp [Fate.lost], by rw [he]; rfl, by rw [he]; rfl⟩
        | sent info =>
          rw [hf] at he
          exact .inr (.inl ⟨by simp [Fate.lost], by rw [he]; rfl, _, by rw [he]; rfl, rfl⟩)
        | failed =>
          rw [hf] at he
          exact .inr (.inr ⟨rfl, by rw [he]; rfl, by rw [he]; rfl⟩)

/-! ### The answers to a CIR -/

/-- An IDA, with the IDR that it answers.  `late` says that it comes when `processMultiImsi` is over,
which deletes the CIR. -/
structure Answered where
  idr : Idr
  ida : Ida
  late : Bool

/-- What the handler does.  The CIR of a single IMSI is deleted by nobody else. -/
def Answered.effects (a : Answered) : List Effect :=
  (processAnswer a.idr a.ida (a.idr.group && a.late)).effects

/-- The CIAs sent for a CIR: those of `COIRcmd::process`, and those of the handler of each IDA. -/
def ciaTotal (out : Outcomes) (cir : Request) (answers : List Answered) : Nat :=
  cias (coirProcess out cir).effects + (answers.map fun a => cias a.effects).sum

theorem cias_effects (a : Answered) : cias a.effects = if a.idr.group then 0 else 1 := by
  obtain ⟨idr, ida, late⟩ := a
  unfold Answered.effects processAnswer
  dsimp only
  cases idr.group with
  | false => rfl
  | true =>
    cases late with
    | true => rfl
    | false =>
      rw [Bool.and_false, if_neg Bool.false_ne_true, if_neg (by simp)]
      by_cases hcode : ida.code = erDiameterSuccess
      · rw [if_pos hcode]
        rfl
      · rw [if_neg hcode]
        rfl

/-- The IDAs of a group bring no CIA. -/
theorem sum_cias_group {answers : List Answered} (h : ∀ a ∈ answers, a.idr.group = true) :
    (answers.map fun a => cias a.effects).sum = 0 := by
  refine List.sum_eq_zero_iff_forall_eq_nat.mpr fun n hn => ?_
  obtain ⟨a, ha, rfl⟩ := List.mem_map.mp hn
  rw [cias_effects, if_pos (h a ha)]

/-- A subscriber that is attached. -/
def sampleInfo : ImsiInfo :=
  ⟨"ATTACHED", "mme.realm", "realm", "33600000001", "\x7b\"Subscription-Data\":\x7b\x7d\x7d"⟩

/-- Everything succeeds, except perhaps the sending of the IDR of number `k`. -/
def sampleOutcomes (imsis : List String) (sent : Nat → Bool) : Outcomes where
  getImsiFromMsisdn _ := some (some "001010000000001")
  checkExtIdExists _ := some true
  getImsiListFromExtId _ := some imsis
  getEvent _ _ := some true
  deleteEvent _ _ := some ()
  addEvent _ _ := some true
  idr k := ⟨some sampleInfo, some true, .ok (), sent k⟩

/-- A CIR for the MSISDN 3360000001. -/
def sampleCir : Request where
  msisdn := some [0x33, 0x60, 0x00, 0x00, 0x01]
  external_identifier := none
  origin_host := some "scef.realm"
  origin_realm := some "realm"
  group_reporting_guard_timer := none
  monitoring_event_configuration := []
  ui_json := ""

def sampleIdr : Idr :=
  createINSDRreq sampleInfo sampleCir "001010000000001" SortedMap.empty false

def sampleIda : Ida := ⟨some 2001, none, []⟩

theorem sampleCir_idrs (sent : Nat → Bool) :
    idrs (coirProcess (sampleOutcomes [] sent) sampleCir).effects
      = if sent 0 then [sampleIdr] else [] := by
  have hn : stoll (tbcd2str [0x33, 0x60, 0x00, 0x00, 0x01]) = some 3360000001 := by decide +kernel
  rw [coirProcess_effects]
  unfold coirUser sampleCir
  simp only [hn, Emit.bind_eq, Emit.ask_some, Emit.bind_ok, sampleOutcomes, processSimpleImsi,
    sendINSDRreq_single, IdrOutcome.fate, sampleInfo]
  cases sent 0 <;> rfl

/-- The messages posted to the builder of a group: by `processMultiImsi` and `sendINSDRreq`, and
by the handler of each IDA. -/
def postsTotal (out : Outcomes) (cir : Request) (answers : List Answered) : List Msg :=
  posts (coirProcess out cir).effects ++ answers.flatMap fun a => posts a.effects

/-- A message that was posted by somebody else than the timer. -/
def Msg.isPosted : Msg → Bool
  | .guardTimeout => false
  | .mmeResponse _ | .ciaSent => true

open RirBuilder in
theorem answered_filter (msgs : List Msg) :
    answered (msgs.filter Msg.isPosted) = answered msgs := by
  induction msgs with
  | nil => rfl
  | cons m ms ih =>
    cases m with
    | guardTimeout => rw [List.filter_cons_of_neg (by decide), ih, answered_guardTimeout]
    | mmeResponse r => rw [List.filter_cons_of_pos rfl, answered_mmeResponse, ih,
        answered_mmeResponse]
    | ciaSent => rw [List.filter_cons_of_pos rfl, answered_ciaSent, ih, answered_ciaSent]

open RirBuilder in
theorem ciaSents_filter (msgs : List Msg) :
    ciaSents (msgs.filter Msg.isPosted) = ciaSents msgs := by
  induction msgs with
  | nil => rfl
  | cons m ms ih =>
    cases m with
    | guardTimeout => rw [List.filter_cons_of_neg (by decide), ih, ciaSents_guardTimeout]
    | mmeResponse r => rw [List.filter_cons_of_pos rfl, ciaSents_mmeResponse, ih,
        ciaSents_mmeResponse]
    | ciaSent => rw [List.filter_cons_of_pos rfl, ciaSents_ciaSent, ih, ciaSents_ciaSent]

/-- A list of MME responses. -/
theorem answered_responses : ∀ {ms : List Msg}, (∀ m ∈ ms, ∃ r, m = Msg.mmeResponse r) →
    (RirBuilder.answered ms).length = ms.length ∧ RirBuilder.ciaSents ms = 0 := by
  intro ms
  induction ms with
  | nil => exact fun _ => ⟨rfl, rfl⟩
  | cons m ms ih =>
    intro h
    obtain ⟨r, rfl⟩ := h m List.mem_cons_self
    obtain ⟨h1, h2⟩ := ih fun m hm => h m (List.mem_cons_of_mem _ hm)
    exact ⟨by simp [h1], by simp [h2]⟩

/-- An IDA of a group posts one MME response, unless it is late. -/
theorem posts_effects {a : Answered} (h : a.idr.group = true) :
    if a.late then posts a.effects = [] else ∃ r, posts a.effects = [Msg.mmeResponse r] := by
  obtain ⟨idr, ida, late⟩ := a
  unfold Answered.effects processAnswer
  dsimp only at h ⊢
  rw [h]
  cases late with
  | true => rfl
  | false =>
    simp only [Bool.not_true, Bool.false_eq_true, if_false, Bool.and_false]
    split <;> exact ⟨_, rfl⟩

theorem posts_answers {answers : List Answered} (h : ∀ a ∈ answers, a.idr.group = true) :
    let l := answers.flatMap fun a => posts a.effects
    l.length + answers.countP Answered.late = answers.length ∧ ∀ m ∈ l, ∃ r, m = Msg.mmeResponse r := by
  induction answers with
  | nil => exact ⟨rfl, by simp⟩
  | cons a answers ih =>
    obtain ⟨hlen, hall⟩ := ih fun a ha => h a (List.mem_cons_of_mem _ ha)
    have ha := posts_effects (h a List.mem_cons_self)
    cases hlate : a.late with
    | true =>
      rw [hlate, if_pos rfl] at ha
      rw [List.flatMap_cons, ha, List.nil_append, List.countP_cons_of_pos hlate, List.length_cons]
      exact ⟨by omega, hall⟩
    | false =>
      rw [hlate, if_neg Bool.false_ne_true] at ha
      obtain ⟨r, hr⟩ := ha
      rw [List.flatMap_cons, hr, List.countP_cons_of_neg (by simp [hlate]), List.length_cons]
      refine ⟨?_, fun m hm => ?_⟩
      · rw [List.length_append, List.length_singleton]
        omega
      · rcases List.mem_append.mp hm with hm | hm
        · exact ⟨r, List.mem_singleton.mp hm⟩
        · exact hall m hm

section Group

variable {out : Outcomes} {cir : Request} {imsis : List String}

/-- What is posted after the loop. -/
theorem posts_end (r : Except Stop Unit) :
    RirBuilder.answered (posts (groupEnd r ++ coirEnd (r.map fun _ => none))) = [] ∧
      idrs (groupEnd r ++ coirEnd (r.map fun _ => none)) = [] ∧
      (r = .ok () →
        RirBuilder.ciaSents (posts (groupEnd r ++ coirEnd (r.map fun _ => none))) = 1) := by
  rcases r with (_ | _) | u
  · exact ⟨rfl, rfl, by simp⟩
  · exact ⟨rfl, rfl, by simp⟩
  · exact ⟨rfl, rfl, fun _ => rfl⟩

/-- The MME responses posted for a group: one for each IMSI that is not missing and whose IDA is not
late. -/
theorem postsTotal_spec (hg : IsGroup out cir imsis) {answers : List Answered}
    (h : (answers.map Answered.idr).Perm (idrs (coirProcess out cir).effects)) :
    (RirBuilder.answered (postsTotal out cir answers)).length + answers.countP Answered.late
        + missing out 0 imsis = imsis.length ∧
      (missing out 0 imsis = 0 → RirBuilder.ciaSents (postsTotal out cir answers) = 1) := by
  have hloop := sendAll_spec out cir (processHssDb out cir 0) imsis 0
  have hgroup : ∀ a ∈ answers, a.idr.group = true := fun a ha =>
    (coirProcess_group out hg.msisdn).2 _ (h.subset (List.mem_map_of_mem ha))
  have hlen := h.length_eq
  unfold postsTotal
  rw [coirProcess_group_effects hg] at hlen ⊢
  have hcount := hloop.count
  obtain ⟨h1, h2⟩ := answered_responses hloop.responses
  obtain ⟨h3, h4⟩ := posts_answers hgroup
  obtain ⟨h5, h6⟩ := answered_responses h4
  obtain ⟨hend, hidrs, hsent⟩ := posts_end (sendAll out cir (processHssDb out cir 0) 0 imsis).result
  rw [List.length_map, List.cons_append, idrs_startBuilder, idrs_append, hidrs, List.append_nil]
    at hlen
  rw [List.cons_append, posts_startBuilder, posts_append]
  have happ : ∀ l l' : List Msg, RirBuilder.answered (l ++ l')
      = RirBuilder.answered l ++ RirBuilder.answered l' := fun l l' => List.filterMap_append
  refine ⟨?_, fun hzero => ?_⟩
  · rw [happ, happ, hend, List.append_nil, List.length_append, h1, h5]
    omega
  · rw [RirBuilder.ciaSents_append, RirBuilder.ciaSents_append, h2, h6,
      hsent (hloop.result.trans (loopEnd_of_missing hzero))]

end Group

def sampleGroupCir : Request :=
  { sampleCir with msisdn := none, external_identifier := some "group@realm" }

def sampleGroupIdr (imsi : String) : Idr :=
  createINSDRreq sampleInfo sampleGroupCir imsi SortedMap.empty true

theorem isGroup_sample (imsis : List String) (sent : Nat → Bool) :
    IsGroup (sampleOutcomes imsis sent) sampleGroupCir imsis := ⟨rfl, _, rfl, rfl, rfl⟩

end OpenairHss.Cir
