import Mathlib.Data.Fintype.Basic
import Mathlib.Data.List.FinRange
import Mathlib.Data.Fin.Tuple.Basic
import Mathlib.Data.Fin.VecNotation
import Mathlib.Data.BitVec
import Mathlib.Data.UInt

/-!
# Byte arrays and the words they spell

`Bytes n` is an array of `n` bytes.  `forLoop` is the counting loop over such an array, and
`word` reads an array as a big-endian word: bit `j` of the word is bit `j % 8` of byte
`n - 1 - j / 8`.

* `forLoop_induction`: the invariant rule for a loop.
* `forLoop_update_apply`: a loop whose body rewrites the entry `σ i` has, for an injective `σ`, done
  exactly that to every entry `σ i`.
* `word_xor`, `word_rotate`, `word_ofWord`, `ofWord_word`: words and arrays correspond, bytewise
  exclusive or is exclusive or of words, and moving every byte `k` places towards the front
  (cyclically) is a left rotation by `8 * k`.
* `mask_ushiftRight`, `mask_sshiftRight`: a byte cut out of a word with a mask and a shift.
-/

namespace ByteVec

/-- An array of `n` bytes. -/
abbrev Bytes (n : Nat) : Type := Fin n → BitVec 8

/-! ### Loops -/

/-- `for (i = 0; i < n; i++) a = body i a`. -/
def forLoop {A : Type} (n : Nat) (body : Fin n → A → A) (a : A) : A :=
  (List.finRange n).foldl (fun a i => body i a) a

theorem forLoop_succ {A : Type} {n : Nat} (body : Fin (n + 1) → A → A) (a : A) :
    forLoop (n + 1) body a
      = body (Fin.last n) (forLoop n (fun i => body i.castSucc) a) := by
  simp only [forLoop, List.finRange_succ_last, List.foldl_append, List.foldl_map, List.foldl_cons,
    List.foldl_nil]

/-- **The rule for a loop**: what holds at the start and is kept by every pass holds at the
end.  The property may speak about the number of passes made. -/
theorem forLoop_induction {A : Type} {n : Nat} {body : Fin n → A → A} {a : A}
    (P : Nat → A → Prop) (h0 : P 0 a) (hs : ∀ (i : Fin n) a, P i a → P (i + 1) (body i a)) :
    P n (forLoop n body a) := by
  induction n with
  | zero => exact h0
  | succ n ih =>
    rw [forLoop_succ]
    exact hs (Fin.last n) _ (ih (fun i a => hs i.castSucc a))

section Update

variable {ι κ B : Type} [DecidableEq κ]

theorem foldl_update_of_notMem (σ : ι → κ) (g : ι → B → B) (j : κ) :
    ∀ (l : List ι) (a : κ → B), (∀ i ∈ l, σ i ≠ j) →
      l.foldl (fun a i => Function.update a (σ i) (g i (a (σ i)))) a j = a j := by
  intro l
  induction l with
  | nil => intro a _; rfl
  | cons i l ih =>
    intro a h
    rw [List.foldl_cons, ih _ (fun i' hi' => h i' (List.mem_cons_of_mem _ hi')),
      Function.update_of_ne (Ne.symm (h i List.mem_cons_self))]

theorem foldl_update_of_mem {σ : ι → κ} (hσ : Function.Injective σ) (g : ι → B → B) {i : ι} :
    ∀ (l : List ι) (a : κ → B), l.Nodup → i ∈ l →
      l.foldl (fun a i => Function.update a (σ i) (g i (a (σ i)))) a (σ i) = g i (a (σ i)) := by
  intro l
  induction l with
  | nil => intro a _ h; simp at h
  | cons i' l ih =>
    intro a hn h
    rw [List.nodup_cons] at hn
    rw [List.foldl_cons]
    rcases List.mem_cons.mp h with rfl | h
    · rw [foldl_update_of_notMem σ g _ l _ (fun i' hi' e => hn.1 (by rw [← hσ e]; exact hi')),
        Function.update_self]
    · have hne : σ i ≠ σ i' := fun e => hn.1 (hσ e ▸ h)
      rw [ih _ hn.2 h, Function.update_of_ne hne]

end Update

/-- **A loop over an injective index map** rewrites every entry it names, once. -/
theorem forLoop_update_apply {κ B : Type} [DecidableEq κ] {n : Nat} {σ : Fin n → κ}
    (hσ : Function.Injective σ) (g : Fin n → B → B) (a : κ → B) (i : Fin n) :
    forLoop n (fun i a => Function.update a (σ i) (g i (a (σ i)))) a (σ i) = g i (a (σ i)) :=
  foldl_update_of_mem hσ g _ a (List.nodup_finRange n) (List.mem_finRange i)

/-- A loop over all the indices of an array computes it entry by entry. -/
theorem forLoop_update_id {B : Type} {n : Nat} (g : Fin n → B → B) (a : Fin n → B) :
    forLoop n (fun i a => Function.update a i (g i (a i))) a = fun i => g i (a i) := by
  funext i
  exact forLoop_update_apply (σ := id) Function.injective_id g a i

/-! ### Words -/

/-- The big-endian word spelled by an array. -/
def word {n : Nat} (b : Bytes n) : BitVec (8 * n) :=
  (BitVec.ofBoolListLE (List.ofFn fun j : Fin (8 * n) =>
    (b ⟨n - 1 - j / 8, by omega⟩).getLsbD (j % 8))).cast (List.length_ofFn)

/-- The array that spells a word. -/
def ofWord {n : Nat} (w : BitVec (8 * n)) : Bytes n :=
  fun i => w.extractLsb' (8 * (n - 1 - i)) 8

theorem getLsbD_word {n : Nat} (b : Bytes n) {j : Nat} (hj : j < 8 * n) :
    (word b).getLsbD j = (b ⟨n - 1 - j / 8, by omega⟩).getLsbD (j % 8) := by
  rw [word, BitVec.getLsbD_cast, BitVec.getLsbD_ofBoolListLE, List.getD_eq_getElem?_getD,
    List.getElem?_ofFn, dif_pos hj, Option.getD_some]

@[simp] theorem word_ofWord {n : Nat} (w : BitVec (8 * n)) : word (ofWord w) = w := by
  apply BitVec.eq_of_getLsbD_eq
  intro j hj
  rw [getLsbD_word _ hj, ofWord, BitVec.getLsbD_extractLsb']
  have e : 8 * (n - 1 - (n - 1 - j / 8)) + j % 8 = j := by omega
  simp only [e, Nat.mod_lt j (by decide : 0 < 8), decide_true, Bool.true_and]

@[simp] theorem ofWord_word {n : Nat} (b : Bytes n) : ofWord (word b) = b := by
  funext i
  apply BitVec.eq_of_getLsbD_eq
  intro j hj
  have hi := i.isLt
  rw [ofWord, BitVec.getLsbD_extractLsb', getLsbD_word _ (by omega)]
  have e : n - 1 - (8 * (n - 1 - i) + j) / 8 = i := by omega
  have e' : (8 * (n - 1 - i) + j) % 8 = j := by omega
  simp only [e, e', hj, decide_true, Bool.true_and]

theorem word_injective {n : Nat} : Function.Injective (word (n := n)) :=
  Function.LeftInverse.injective ofWord_word

theorem word_zero {n : Nat} : word (fun _ : Fin n => 0) = 0 := by
  apply BitVec.eq_of_getLsbD_eq
  intro j hj
  rw [getLsbD_word _ hj, BitVec.ofNat_eq_ofNat, BitVec.getLsbD_zero, BitVec.ofNat_eq_ofNat,
    BitVec.getLsbD_zero]

theorem word_xor {n : Nat} (a b : Bytes n) : word (fun i => a i ^^^ b i) = word a ^^^ word b := by
  apply BitVec.eq_of_getLsbD_eq
  intro j hj
  rw [BitVec.getLsbD_xor, getLsbD_word _ hj, getLsbD_word _ hj, getLsbD_word _ hj,
    BitVec.getLsbD_xor]

/-- **Moving every byte `k` places towards the front** rotates the word left by `8 * k`. -/
theorem word_rotate {n : Nat} {a b : Bytes n} {k : Nat} (hk : k < n)
    (h : ∀ i : Fin n, b i = a ⟨(i + k) % n, Nat.mod_lt _ (by omega)⟩) :
    word b = (word a).rotateLeft (8 * k) := by
  apply BitVec.eq_of_getLsbD_eq
  intro j hj
  have hr : 8 * k % (8 * n) = 8 * k := Nat.mod_eq_of_lt (by omega)
  rw [getLsbD_word _ hj, h, BitVec.getLsbD_rotateLeft, hr]
  by_cases hlt : j < 8 * k
  · have e : (n - 1 - j / 8 + k) % n = n - 1 - (8 * n - 8 * k + j) / 8 := by
      rw [show n - 1 - j / 8 + k = n + (k - 1 - j / 8) by omega, Nat.add_mod_left,
        Nat.mod_eq_of_lt (by omega)]
      omega
    have e' : (8 * n - 8 * k + j) % 8 = j % 8 := by omega
    rw [decide_eq_true hlt, cond_true, getLsbD_word _ (by omega)]
    simp only [e, e']
  · have e : (n - 1 - j / 8 + k) % n = n - 1 - (j - 8 * k) / 8 := by
      rw [Nat.mod_eq_of_lt (by omega)]
      omega
    have e' : (j - 8 * k) % 8 = j % 8 := by omega
    rw [decide_eq_false hlt, cond_false, decide_eq_true hj, Bool.true_and,
      getLsbD_word _ (by omega)]
    simp only [e, e']

/-- The word of an array cut at byte `s`, `m` bytes long. -/
theorem word_slice {n m s : Nat} (hs : s + m ≤ n) (a : Bytes n) :
    word (fun i : Fin m => a ⟨s + i, by omega⟩)
      = (word a).extractLsb' (8 * (n - s - m)) (8 * m) := by
  apply BitVec.eq_of_getLsbD_eq
  intro j hj
  rw [getLsbD_word _ hj, BitVec.getLsbD_extractLsb', decide_eq_true hj, Bool.true_and,
    getLsbD_word _ (by omega)]
  have e : n - 1 - (8 * (n - s - m) + j) / 8 = s + (m - 1 - j / 8) := by omega
  have e' : (8 * (n - s - m) + j) % 8 = j % 8 := by omega
  simp only [e, e']

/-- The word of two arrays end to end. -/
theorem getLsbD_word_append {m n : Nat} (a : Bytes m) (b : Bytes n) (j : Nat) :
    (word (Fin.append a b)).getLsbD j = (word a ++ word b).getLsbD j := by
  rw [BitVec.getLsbD_append]
  by_cases hj : j < 8 * (m + n)
  · rw [getLsbD_word _ hj]
    by_cases hlow : j < 8 * n
    · have e : (⟨m + n - 1 - j / 8, by omega⟩ : Fin (m + n))
          = Fin.natAdd m ⟨n - 1 - j / 8, by omega⟩ := by
        apply Fin.ext
        simp only [Fin.natAdd_mk]
        omega
      rw [e, Fin.append_right, if_pos hlow, getLsbD_word _ hlow]
    · have e : (⟨m + n - 1 - j / 8, by omega⟩ : Fin (m + n))
          = Fin.castAdd n ⟨m - 1 - (j - 8 * n) / 8, by omega⟩ := by
        apply Fin.ext
        simp only [Fin.castAdd_mk]
        omega
      have e' : (j - 8 * n) % 8 = j % 8 := by omega
      rw [e, Fin.append_left, if_neg hlow, getLsbD_word _ (by omega), e']
  · rw [BitVec.getLsbD_of_ge _ _ (by omega), if_neg (by omega),
      BitVec.getLsbD_of_ge _ _ (by omega)]

/-! ### Bytes of a word -/

/-- A byte cut out of a word with a mask. -/
theorem mask_ushiftRight {w : Nat} (x : BitVec w) {s : Nat} (hs : s + 8 ≤ w) :
    ((x &&& (0xff#w <<< s)) >>> s).setWidth 8 = x.extractLsb' s 8 := by
  apply BitVec.eq_of_getLsbD_eq
  intro j hj
  have hmask : (0xff#w).getLsbD j = true := by
    rw [BitVec.getLsbD_ofNat, show 0xff = 2 ^ 8 - 1 from rfl, Nat.testBit_two_pow_sub_one,
      decide_eq_true hj, decide_eq_true (show j < w by omega)]
    rfl
  simp only [BitVec.getLsbD_setWidth, BitVec.getLsbD_ushiftRight, BitVec.getLsbD_and,
    BitVec.getLsbD_shiftLeft, BitVec.getLsbD_extractLsb', hj, decide_true, Bool.true_and]
  rw [Nat.add_sub_cancel_left, hmask, decide_eq_true (show s + j < w by omega),
    decide_eq_false (show ¬s + j < s by omega)]
  simp

/-- Shifting a sign in does not matter for it. -/
theorem mask_sshiftRight {w : Nat} (x : BitVec w) {s : Nat} (hs : s + 8 ≤ w) :
    ((x &&& (0xff#w <<< s)).sshiftRight s).setWidth 8 = x.extractLsb' s 8 := by
  rw [← mask_ushiftRight x hs]
  apply BitVec.eq_of_getLsbD_eq
  intro j hj
  rw [BitVec.getLsbD_setWidth, BitVec.getLsbD_setWidth, BitVec.getLsbD_sshiftRight,
    BitVec.getLsbD_ushiftRight, if_pos (show s + j < w by omega),
    decide_eq_false (show ¬w ≤ j by omega)]
  rfl

end ByteVec
