import OpenairHss.DataAccess.ImsiSec
import OpenairHss.Hsssec.Milenage
import OpenairHss.Hsssec.SequenceNumber

/-!
# The vectors of an AIR

`AIRProcessor::phase2` from the security data it has read: the resynchronisation, the loop that
builds the requested vectors, and what it hands to `updateRandSqn`.

The loop gives every vector the same `m_sec.sqn` (`carriedSqn_vectors`), and only `updateRandSqn`
adds 32, after the answer.
-/

namespace OpenairHss.Air

open ByteVec Interact Hsssec DataAccess

def authMaxEutranVectors : Nat := 6

section Phase2

variable (kdf : List (BitVec 8) → List (BitVec 8) → Bytes 32)

/-- The branch `if (m_auts_set)`: SQN_MS, plus 32, becomes the SQN if AUTS verifies. -/
def resync (sec : ImsiSec) : Option (Bytes 31) → Cipher ImsiSec
  | none => return sec
  | some m_auts => do
    let sqn ← sqnMsDerive sec.opc sec.key m_auts sec.rand
    match sqn with
    | some sqn => return { sec with sqn := u64ToSqn (sqnToU64 sqn + 32) }
    | none => return sec

/-- The loop over `m_vector`, from index `i`, with `todo` rounds to go.  `rands` are the results of
`generate_random`. -/
def vectorLoop (sec : ImsiSec) (plmn : Bytes 3) (rands : Nat → Bytes 16) :
    (todo i : Nat) → (Nat → AucVector) → Cipher (Nat → AucVector)
  | 0, _, m_vector => return m_vector
  | todo + 1, i, m_vector => do
    let v ← generateVector kdf sec.opc sec.key plmn sec.sqn { m_vector i with rand := rands i }
    vectorLoop sec plmn rands todo (i + 1) (Function.update m_vector i v)

/-- What `phase2` puts into the answer and hands to `updateRandSqn`. -/
structure Phase2Out where
  vectors : List AucVector
  sec : ImsiSec
  rand : Bytes 16

/-- `AIRProcessor::phase2` after the security data was found.  `m_vector` is the memory at that
member before the loop; the index `m_num_vectors - 1` is computed on 32 bits. -/
def phase2 (sec : ImsiSec) (m_auts : Option (Bytes 31)) (plmn : Bytes 3) (m_num_vectors : Nat)
    (rands : Nat → Bytes 16) (m_vector : Nat → AucVector) : Cipher Phase2Out := do
  let sec ← resync sec m_auts
  let m_vector ← vectorLoop kdf sec plmn rands m_num_vectors 0 m_vector
  return {
    vectors := (List.range m_num_vectors).map m_vector
    sec := { sec with rand := (m_vector 0).rand }
    rand := (m_vector ((m_num_vectors + 2 ^ 32 - 1) % 2 ^ 32)).rand }

end Phase2

/-! ### The SQN of the vectors -/

section Sqn

variable {R : Type} (cipher : BlockCipher R)
  (kdf : List (BitVec 8) → List (BitVec 8) → Bytes 32)

/-- The SQN, as a number, that a USIM with `sec`'s keys reads out of a vector. -/
def carriedSqn (sec : ImsiSec) (v : AucVector) : Nat := sqnVal (usimSqn cipher sec.opc sec.key v)

theorem alone_bind {α β : Type} (p : Cipher α) (f : α → Cipher β) (table : R) :
    cipher.alone (p.bind f) table
      = cipher.alone (f (cipher.alone p table)) (p.run cipher.exec table).2 := by
  unfold BlockCipher.alone
  rw [Prog.run_bind]

/-- The loop writes, at each of its indices, what `generate_vector` makes of the random number of
that index. -/
theorem vectorLoop_at (sec : ImsiSec) (plmn : Bytes 3) (rands : Nat → Bytes 16) :
    ∀ (todo i : Nat) (m_vector : Nat → AucVector) (table : R),
      let m := cipher.alone (vectorLoop kdf sec plmn rands todo i m_vector) table
      (∀ j, i ≤ j → j < i + todo → ∃ (old : AucVector) (t : R),
        m j = cipher.alone (generateVector kdf sec.opc sec.key plmn sec.sqn
          { old with rand := rands j }) t) ∧
        ∀ j, j < i → m j = m_vector j := by
  intro todo
  induction todo with
  | zero =>
    intro i m_vector table
    exact ⟨fun j h1 h2 => absurd h2 (by omega), fun j _ => rfl⟩
  | succ todo ih =>
    intro i m_vector table
    simp only [vectorLoop, Prog.bind_eq]
    rw [alone_bind]
    set v := cipher.alone (generateVector kdf sec.opc sec.key plmn sec.sqn
      { m_vector i with rand := rands i }) table with hv
    obtain ⟨hin, hout⟩ := ih (i + 1) (Function.update m_vector i v) _
    refine ⟨fun j h1 h2 => ?_, fun j hj => ?_⟩
    · by_cases hji : j = i
      · subst hji
        rw [hout j (by omega), Function.update_self]
        exact ⟨m_vector j, table, hv⟩
      · exact hin j (by omega) (by omega)
    · rw [hout j (by omega), Function.update_of_ne (by omega)]

/-- The loop writes, at each of its indices, a vector that carries `sec.sqn`. -/
theorem vectorLoop_spec (sec : ImsiSec) (plmn : Bytes 3) (rands : Nat → Bytes 16) (todo i : Nat)
    (m_vector : Nat → AucVector) (table : R) {j : Nat} (h1 : i ≤ j) (h2 : j < i + todo) :
    carriedSqn cipher sec
      (cipher.alone (vectorLoop kdf sec plmn rands todo i m_vector) table j) = sqnVal sec.sqn := by
  obtain ⟨old, t, hj⟩ := (vectorLoop_at cipher kdf sec plmn rands todo i m_vector table).1 j h1 h2
  rw [hj, carriedSqn, usimSqn_generateVector]

/-- The loop writes, at each of its indices, a vector with the random number of that index. -/
theorem vectorLoop_rand (sec : ImsiSec) (plmn : Bytes 3) (rands : Nat → Bytes 16) (todo i : Nat)
    (m_vector : Nat → AucVector) (table : R) {j : Nat} (h1 : i ≤ j) (h2 : j < i + todo) :
    (cipher.alone (vectorLoop kdf sec plmn rands todo i m_vector) table j).rand = rands j := by
  obtain ⟨old, t, hj⟩ := (vectorLoop_at cipher kdf sec plmn rands todo i m_vector table).1 j h1 h2
  obtain ⟨t₁, t₂, hv⟩ := alone_generateVector cipher kdf sec.opc sec.key plmn sec.sqn
    { old with rand := rands j } t
  rw [hj, hv]

/-- **Every vector of one AIR carries the same SQN**, the one `phase2` starts from. -/
theorem carriedSqn_vectors (sec : ImsiSec) (plmn : Bytes 3) (n : Nat) (rands : Nat → Bytes 16)
    (m_vector : Nat → AucVector) (table : R) :
    let out := cipher.alone (phase2 kdf sec none plmn n rands m_vector) table
    out.vectors.map (carriedSqn cipher sec) = List.replicate n (sqnVal sec.sqn) ∧
      out.sec.sqn = sec.sqn := by
  have h : cipher.alone (phase2 kdf sec none plmn n rands m_vector) table
      = let m := cipher.alone (vectorLoop kdf sec plmn rands n 0 m_vector) table
        { vectors := (List.range n).map m
          sec := { sec with rand := (m 0).rand }
          rand := (m ((n + 2 ^ 32 - 1) % 2 ^ 32)).rand } := by
    simp only [phase2, resync, Prog.bind_eq, Prog.pure_eq, Prog.ret_bind]
    rw [alone_bind]
    rfl
  rw [h]
  refine ⟨?_, rfl⟩
  rw [List.map_map]
  refine List.eq_replicate_iff.mpr ⟨by simp, fun x hx => ?_⟩
  obtain ⟨j, hj, rfl⟩ := List.mem_map.mp hx
  exact vectorLoop_spec cipher kdf sec plmn rands n 0 m_vector table (Nat.zero_le _) (by simpa using hj)

end Sqn

end OpenairHss.Air
