import OpenairHss.Hsssec.Milenage

/-!
# The resynchronisation of `sequence_number.c`

`sqn_ms_derive` reads `RAND ‖ AUTS` with `AUTS = (SQN_MS ⊕ AK*) ‖ MAC-S`, takes the anonymity key
of `f5star` off, and accepts the result when `f1star` gives the MAC-S of the field.  The RAND it
uses is the one of its argument, not the one at the head of the field.

* `sqnMsDerive_eq_some_iff`: when it returns which SQN.
* `sqn_ms_recovered`: it undoes what a USIM does (`usimAuts`).
-/

namespace OpenairHss.Hsssec

open ByteVec Interact

/-- `sqn_ms_derive`; `none` is the null pointer. -/
def sqnMsDerive (opc key : Bytes 16) (auts : Bytes 31) (rand : Bytes 16) :
    Cipher (Option (Bytes 6)) := do
  let conc_sqn_ms : Bytes 6 := fun i => auts ⟨16 + i, by omega⟩
  let mac_s : Bytes 8 := fun i => auts ⟨6 + 16 + i, by omega⟩
  let ak ← f5star opc key rand
  let sqn_ms : Bytes 6 := forLoop 6 (fun i s => Function.update s i (ak i ^^^ conc_sqn_ms i))
    (fun _ => 0)
  let mac_s_computed ← f1star opc key rand sqn_ms (fun _ => 0)
  if mac_s_computed ≠ mac_s then return none else return some sqn_ms

/-! ### What it returns -/

/-- `SQN_MS ⊕ AK*` in the field, and `MAC-S`. -/
def concSqnMs (auts : Bytes 31) : Bytes 6 := fun i => auts ⟨16 + i, by omega⟩

def macS (auts : Bytes 31) : Bytes 8 := fun i => auts ⟨6 + 16 + i, by omega⟩

/-- `AUTS` of a USIM: `(SQN_MS ⊕ f5*(RAND)) ‖ f1*(SQN_MS, RAND, AMF = 0)`. -/
def usimAuts (E : BitVec 128 → BitVec 128 → BitVec 128) (k opc rand : BitVec 128)
    (sqn_ms : Bytes 6) : Bytes 14 :=
  Fin.append (ofWord (n := 6) (word sqn_ms ^^^ Ts35206.f5star E k opc rand))
    (ofWord (n := 8) (Ts35206.f1star E k opc rand (word sqn_ms) 0))

/-- `RAND ‖ AUTS` in a buffer of 31 bytes. -/
def resyncInfo (rand : Bytes 16) (auts : Bytes 14) (behind : BitVec 8) : Bytes 31 :=
  Fin.append (Fin.append rand auts) fun _ : Fin 1 => behind

theorem concSqnMs_resyncInfo (rand : Bytes 16) (auts : Bytes 14) (behind : BitVec 8) :
    concSqnMs (resyncInfo rand auts behind) = fun i : Fin 6 => auts ⟨i, by omega⟩ := by
  funext i
  have e : (⟨16 + i, by omega⟩ : Fin 31) =
      Fin.castAdd 1 (Fin.natAdd 16 (⟨i, by omega⟩ : Fin 14)) := rfl
  rw [concSqnMs, resyncInfo, e, Fin.append_left, Fin.append_right]

theorem macS_resyncInfo (rand : Bytes 16) (auts : Bytes 14) (behind : BitVec 8) :
    macS (resyncInfo rand auts behind) = fun i : Fin 8 => auts ⟨6 + i, by omega⟩ := by
  funext i
  have e : (⟨6 + 16 + i, by omega⟩ : Fin 31) =
      Fin.castAdd 1 (Fin.natAdd 16 (⟨6 + i, by omega⟩ : Fin 14)) := by
    apply Fin.ext
    simp only [Fin.val_castAdd, Fin.val_natAdd]
    omega
  rw [macS, resyncInfo, e, Fin.append_left, Fin.append_right]

/-- What a network reads of a USIM's answer: `SQN_MS ⊕ AK*`, and `MAC-S`. -/
theorem word_concSqnMs_usimAuts (E : BitVec 128 → BitVec 128 → BitVec 128) (k opc rand : BitVec 128)
    (sqn_ms : Bytes 6) (head : Bytes 16) (behind : BitVec 8) :
    word (concSqnMs (resyncInfo head (usimAuts E k opc rand sqn_ms) behind)) =
      word sqn_ms ^^^ Ts35206.f5star E k opc rand := by
  have h : (fun i : Fin 6 => usimAuts E k opc rand sqn_ms ⟨i, by omega⟩) =
      ofWord (n := 6) (word sqn_ms ^^^ Ts35206.f5star E k opc rand) := by
    funext i
    exact Fin.append_left _ _ i
  rw [concSqnMs_resyncInfo, h, word_ofWord]

theorem word_macS_usimAuts (E : BitVec 128 → BitVec 128 → BitVec 128) (k opc rand : BitVec 128)
    (sqn_ms : Bytes 6) (head : Bytes 16) (behind : BitVec 8) :
    word (macS (resyncInfo head (usimAuts E k opc rand sqn_ms) behind)) =
      Ts35206.f1star E k opc rand (word sqn_ms) 0 := by
  have h : (fun i : Fin 8 => usimAuts E k opc rand sqn_ms ⟨6 + i, by omega⟩) =
      ofWord (n := 8) (Ts35206.f1star E k opc rand (word sqn_ms) 0) := by
    funext i
    exact Fin.append_right _ _ i
  rw [macS_resyncInfo, h, word_ofWord]

section

variable {R : Type} (cipher : BlockCipher R) (opc key rand : Bytes 16) (auts : Bytes 31) (table : R)

/-- The SQN that the field gives: `AK*` taken off. -/
def derivedSqn : Bytes 6 :=
  ofWord (n := 6) (word (concSqnMs auts) ^^^
    Ts35206.f5star cipher.onWords (word key) (word opc) (word rand))

theorem word_derivedSqn : word (derivedSqn cipher opc key rand auts) =
    word (concSqnMs auts) ^^^ Ts35206.f5star cipher.onWords (word key) (word opc) (word rand) :=
  word_ofWord _

/-- What `sqn_ms_derive` returns. -/
theorem alone_sqnMsDerive :
    cipher.alone (sqnMsDerive opc key auts rand) table =
      if Ts35206.f1star cipher.onWords (word key) (word opc) (word rand)
          (word (derivedSqn cipher opc key rand auts)) 0 = word (macS auts)
      then some (derivedSqn cipher opc key rand auts) else none := by
  obtain ⟨t₁, t₂, t₃, h⟩ : ∃ t₁ t₂ t₃, cipher.alone (sqnMsDerive opc key auts rand) table =
      let ak := cipher.alone (f5star opc key rand) t₁
      let sqn_ms : Bytes 6 := forLoop 6 (fun i s => Function.update s i (ak i ^^^ concSqnMs auts i))
        (fun _ => 0)
      cipher.alone (if cipher.alone (f1star opc key rand sqn_ms fun _ => 0) t₂ ≠ macS auts
        then Prog.ret none else Prog.ret (some sqn_ms)) t₃ := ⟨_, _, _, rfl⟩
  have hsqn : (forLoop 6 (fun i s => Function.update s i
      (cipher.alone (f5star opc key rand) t₁ i ^^^ concSqnMs auts i)) fun _ => 0) =
        derivedSqn cipher opc key rand auts := by
    rw [forLoop_update_id fun i _ => cipher.alone (f5star opc key rand) t₁ i ^^^ concSqnMs auts i]
    refine word_injective ?_
    rw [word_xor, word_f5star, word_derivedSqn, BitVec.xor_comm]
  rw [h]
  simp only [hsqn]
  have hmac := word_f1star cipher opc key rand t₂ (derivedSqn cipher opc key rand auts) fun _ => 0
  rw [show word (fun _ : Fin 2 => (0 : BitVec 8)) = 0 by decide] at hmac
  by_cases hm : cipher.alone (f1star opc key rand (derivedSqn cipher opc key rand auts) fun _ => 0) t₂
      = macS auts
  · rw [if_neg (not_not.mpr hm), ← hmac, hm, if_pos rfl]
    rfl
  · rw [if_pos hm, ← hmac, if_neg fun hw => hm (word_injective hw)]
    rfl

/-- It returns an SQN that the field spells under `f5*` and whose MAC-S the field has. -/
theorem sqnMsDerive_eq_some_iff (s : Bytes 6) :
    cipher.alone (sqnMsDerive opc key auts rand) table = some s ↔
      word s = word (concSqnMs auts) ^^^
        Ts35206.f5star cipher.onWords (word key) (word opc) (word rand) ∧
      word (macS auts) =
        Ts35206.f1star cipher.onWords (word key) (word opc) (word rand) (word s) 0 := by
  rw [alone_sqnMsDerive, ← word_derivedSqn]
  constructor
  · intro h
    split at h
    case isTrue hmac =>
      obtain rfl := Option.some.inj h
      exact ⟨rfl, hmac.symm⟩
    case isFalse => cases h
  · rintro ⟨hs, hmac⟩
    obtain rfl := word_injective hs
    rw [if_pos hmac.symm]

end

/-- **`sqn_ms_derive` is the inverse of the USIM.**  It returns the SQN that the field spells if the
field has its MAC-S, and the null pointer otherwise; from what a USIM with the same keys makes of an
SQN it returns that SQN. -/
theorem sqn_ms_recovered {R : Type} (cipher : BlockCipher R) (opc key rand : Bytes 16) (table : R) :
    (∀ (auts : Bytes 31) (s : Bytes 6),
      cipher.alone (sqnMsDerive opc key auts rand) table = some s ↔
        word s = word (concSqnMs auts) ^^^
          Ts35206.f5star cipher.onWords (word key) (word opc) (word rand) ∧
        word (macS auts) =
          Ts35206.f1star cipher.onWords (word key) (word opc) (word rand) (word s) 0) ∧
    (∀ auts : Bytes 31, cipher.alone (sqnMsDerive opc key auts rand) table = none ↔
      ¬ ∃ s : Bytes 6, word s = word (concSqnMs auts) ^^^
          Ts35206.f5star cipher.onWords (word key) (word opc) (word rand) ∧
        word (macS auts) =
          Ts35206.f1star cipher.onWords (word key) (word opc) (word rand) (word s) 0) ∧
    ∀ (sqn_ms : Bytes 6) (head : Bytes 16) (behind : BitVec 8),
      cipher.alone (sqnMsDerive opc key (resyncInfo head
        (usimAuts cipher.onWords (word key) (word opc) (word rand) sqn_ms) behind) rand) table =
          some sqn_ms := by
  refine ⟨fun auts s => sqnMsDerive_eq_some_iff cipher opc key rand auts table s, fun auts => ?_,
    fun sqn_ms head behind => ?_⟩
  · rw [Option.eq_none_iff_forall_ne_some, not_exists]
    exact forall_congr' fun s => not_congr (sqnMsDerive_eq_some_iff cipher opc key rand auts table s)
  · rw [sqnMsDerive_eq_some_iff, word_concSqnMs_usimAuts, word_macS_usimAuts, BitVec.xor_assoc,
      BitVec.xor_self, BitVec.xor_zero]
    exact ⟨rfl, rfl⟩

end OpenairHss.Hsssec
