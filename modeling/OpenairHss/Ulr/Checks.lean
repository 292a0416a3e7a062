import OpenairHss.Ulr.Request

/-!
# What the checks of a ULR write

The checks of `phase2` only append to the answer, and a rejection never carries success
(`phase2Checks_checked`).
-/

namespace OpenairHss.Ulr

open Diameter

/-- The AVPs that the checks add. -/
inductive OfChecks (orig : ImsiInfo) : UlaAvp → Prop
  | supportedFeatures (featureList : BitVec 32) : OfChecks orig (.supportedFeatures featureList)
  | ulaFlags (u32 : BitVec 32) : OfChecks orig (.ulaFlags u32)
  | subscriptionData : OfChecks orig (.subscriptionData orig.subscription_data)

/-- The answer with AVPs of the checks behind it. -/
def AddedTo (d : Data) (ans : List UlaAvp) : Prop :=
  ∃ l, (∀ a ∈ l, OfChecks d.orig_info a) ∧ ans = d.ans ++ l

/-- What is left of the data. -/
structure Extends (req : Request) (d d' : Data) : Prop where
  ans : AddedTo d d'.ans
  orig_info : d'.orig_info = d.orig_info
  imsi : d'.new_info.imsi = d.new_info.imsi
  msisdn : d'.new_info.msisdn = d.new_info.msisdn
  ulrflags : d'.ulrflags = d.ulrflags ∨ d'.ulrflags = req.ulr_flags.getD d.ulrflags

/-- What a check does. -/
def Checked (req : Request) (d : Data) : Except Rejection Data → Prop
  | .error r => AddedTo d r.1 ∧ r.2 ≠ .resultCode erDiameterSuccess
  | .ok d' => Extends req d d'

variable {req : Request} {d d' : Data}

theorem AddedTo.refl (d : Data) : AddedTo d d.ans := ⟨[], nofun, (List.append_nil _).symm⟩

theorem AddedTo.add {a : UlaAvp} (h : OfChecks d.orig_info a) : AddedTo d (d.ans ++ [a]) := by
  refine ⟨[a], fun a' ha' => ?_, rfl⟩
  obtain rfl := List.mem_singleton.mp ha'
  exact h

theorem Extends.addedTo (h : Extends req d d') {ans : List UlaAvp} (h' : AddedTo d' ans) :
    AddedTo d ans := by
  obtain ⟨l, hl, hd'⟩ := h.ans
  obtain ⟨l', hl', rfl⟩ := h'
  refine ⟨l ++ l', fun a ha => ?_, by rw [hd', List.append_assoc]⟩
  rcases List.mem_append.mp ha with ha | ha
  · exact hl a ha
  · rw [← h.orig_info]
    exact hl' a ha

theorem Extends.refl (d : Data) : Extends req d d := ⟨AddedTo.refl d, rfl, rfl, rfl, Or.inl rfl⟩

theorem Extends.trans {d'' : Data} (h : Extends req d d') (h' : Extends req d' d'') :
    Extends req d d'' where
  ans := h.addedTo h'.ans
  orig_info := h'.orig_info.trans h.orig_info
  imsi := h'.imsi.trans h.imsi
  msisdn := h'.msisdn.trans h.msisdn
  ulrflags := by
    rcases h'.ulrflags with h1 | h1
    · rw [h1]
      exact h.ulrflags
    · right
      rw [h1]
      cases hreq : req.ulr_flags with
      | some u32 => rfl
      | none =>
        rcases h.ulrflags with h2 | h2
        · exact h2
        · rw [hreq] at h2
          exact h2

/-! ### The checks, one after the other -/

theorem Checked.bind {x : Except Rejection Data} {f : Data → Except Rejection Data}
    (hx : Checked req d x) (hf : ∀ d', Checked req d' (f d')) : Checked req d (x >>= f) := by
  cases x with
  | error r => exact hx
  | ok d' =>
    change Checked req d (f d')
    have h := hf d'
    cases hf' : f d' with
    | error r =>
      rw [hf'] at h
      exact ⟨Extends.addedTo hx h.1, h.2⟩
    | ok d'' =>
      rw [hf'] at h
      exact Extends.trans hx h

/-- A check that begins with a write. -/
theorem Checked.of_extends {x : Except Rejection Data} (h : Extends req d d')
    (hx : Checked req d' x) : Checked req d x := by
  cases x with
  | error r => exact ⟨h.addedTo hx.1, hx.2⟩
  | ok d'' => exact h.trans hx

theorem checked_ok : Checked req d (.ok d) := Extends.refl d

theorem checked_invalidAvp : Checked req d (.error (invalidAvp d)) := by
  have hne : DiamResult.resultCode erDiameterInvalidAvpValue ≠ .resultCode erDiameterSuccess := by
    decide
  exact ⟨AddedTo.refl d, hne⟩

theorem checked_unknownServingNode : Checked req d (.error (unknownServingNode d)) :=
  ⟨AddedTo.refl d, nofun⟩

theorem checked_checkFlags (u32 : BitVec 32) (d : Data) : Checked req d (checkFlags u32 d) := by
  unfold checkFlags
  split
  · exact checked_invalidAvp
  split
  · exact checked_invalidAvp
  split
  · exact checked_invalidAvp
  split
  · exact ⟨AddedTo.refl d, rfl, rfl, rfl, Or.inl rfl⟩
  split
  · split
    · exact checked_unknownServingNode
    split
    · exact checked_unknownServingNode
    · exact checked_ok
  · exact checked_unknownServingNode

theorem checked_checkPlmn (req : Request) (d : Data) : Checked req d (checkPlmn req d) := by
  unfold checkPlmn
  split
  · exact checked_invalidAvp
  split
  · exact checked_invalidAvp
  split
  · exact checked_invalidAvp
  · exact ⟨AddedTo.refl d, rfl, rfl, rfl, Or.inl rfl⟩

theorem checked_checkTerminal (req : Request) (d : Data) :
    Checked req d (checkTerminal req d) := by
  refine Checked.bind ?_ fun d => Checked.bind ?_ fun d => ?_
  · unfold checkImei
    split
    · exact checked_ok
    split
    · exact checked_invalidAvp
    · exact ⟨AddedTo.refl d, rfl, rfl, rfl, Or.inl rfl⟩
  · unfold checkSoftwareVersion
    split
    · exact checked_ok
    split
    · exact checked_invalidAvp
    · exact ⟨AddedTo.refl d, rfl, rfl, rfl, Or.inl rfl⟩
  · split
    · exact checked_invalidAvp
    · exact checked_ok

theorem extends_supportedFeatures (fs : List SupportedFeatures) (u32 : BitVec 32) (d : Data) :
    Extends req d (supportedFeatures fs u32 d).2 := by
  induction fs generalizing u32 d with
  | nil => exact Extends.refl d
  | cons f fs ih =>
    unfold supportedFeatures
    dsimp only
    split
    · split
      · refine Extends.trans ?_ (ih _ _)
        exact ⟨AddedTo.add (.supportedFeatures _), rfl, rfl, rfl, Or.inl rfl⟩
      · refine Extends.trans ?_ (ih _ _)
        exact ⟨AddedTo.refl d, rfl, rfl, rfl, Or.inl rfl⟩
    · exact ih _ _

theorem extends_addFeatures (req : Request) (u32 : BitVec 32) (d : Data) :
    Extends req d (addFeatures req u32 d) := by
  have hsrvcc : Extends req d (if req.ue_srvcc_capability.isSome then
      { d with present_flags := d.present_flags ||| ueSrvccPresent } else d) := by
    split
    · exact ⟨AddedTo.refl d, rfl, rfl, rfl, Or.inl rfl⟩
    · exact Extends.refl d
  have hlist := hsrvcc.trans (extends_supportedFeatures req.supported_features
    (req.ue_srvcc_capability.getD u32) _)
  exact hlist.trans ⟨AddedTo.add (.ulaFlags 1), rfl, rfl, rfl, Or.inr rfl⟩

theorem checked_addSubscriptionData (json : String → Bool) (d : Data) :
    Checked req d (addSubscriptionData json d) := by
  unfold addSubscriptionData
  split
  · split
    · exact ⟨AddedTo.add .subscriptionData, nofun⟩
    · exact ⟨AddedTo.add .subscriptionData, rfl, rfl, rfl, Or.inl rfl⟩
  · exact checked_ok

theorem phase2Before_checked (req : Request) (d : Data) : Checked req d (phase2Before req d) := by
  unfold phase2Before
  dsimp only
  have hne : DiamResult.resultCode diameterErrorRatNotAllowed ≠ .resultCode erDiameterSuccess := by
    decide
  split
  · exact ⟨AddedTo.refl d, hne⟩
  refine Checked.of_extends ?_ (Checked.bind (checked_checkFlags _ _) fun d => ?_)
  · exact ⟨AddedTo.refl d, rfl, rfl, rfl, Or.inl rfl⟩
  split
  · exact checked_invalidAvp
  refine Checked.bind (checked_checkPlmn req d) fun d => ?_
  refine Checked.bind (checked_checkTerminal req d) fun d => ?_
  exact extends_addFeatures req _ d

/-- **The checks of `phase2`** append to the answer, keep the IMSI and the MSISDN, and reject with
something other than success. -/
theorem phase2Checks_checked (json : String → Bool) (req : Request) (d : Data) :
    Checked req d (phase2Checks json req d) :=
  Checked.bind (phase2Before_checked req d) fun d => checked_addSubscriptionData json d

end OpenairHss.Ulr
