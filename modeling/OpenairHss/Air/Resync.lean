import OpenairHss.Air.Vectors
import OpenairHss.Hsssec.Rijndael

/-!
# A synchronisation failure and the AIR after it

Two AIRs for one subscriber with a USIM between them.  The first is answered with vectors; the USIM
rejects one of them and makes its AUTS over the RAND of that vector; the second AIR carries that
RAND and the AUTS.

`phase2` opens the AUTS with the RAND in the row, whatever the field says, and the row holds the
RAND of the last vector.  `resynchronised_iff` says for which vectors that is good enough.
-/

namespace OpenairHss.Air

open ByteVec Interact Hsssec DataAccess

/-- What `phase2` of an AIR works on, apart from the row: the AVPs, and what the machine adds. -/
structure Attempt (R : Type) where
  sqn_nb : Int
  m_auts : Option (Bytes 31)
  plmn : Bytes 3
  numVectors : Nat
  rands : Nat → Bytes 16
  m_vector : Nat → AucVector
  table : R

section

variable {R : Type} (cipher : BlockCipher R)
  (kdf : List (BitVec 8) → List (BitVec 8) → Bytes 32)

/-- The security data that an AIR reads from a row. -/
def Attempt.sec (a : Attempt R) (row : SecRow) : Option ImsiSec := getImsiSecData a.sqn_nb (some row)

/-- What `phase2` makes of it. -/
def Attempt.out (a : Attempt R) (sec : ImsiSec) : Phase2Out :=
  cipher.alone (phase2 kdf sec a.m_auts a.plmn a.numVectors a.rands a.m_vector) a.table

/-- The row after the update that follows the answer, if the database stores it. -/
def rowAfter (stored : Bool) (out : Phase2Out) (row : SecRow) : SecRow :=
  if stored then updateRandSqn out.rand out.sec.sqn true row else row

/-! ### One AIR -/

theorem carriedSqn_congr {sec sec' : ImsiSec} (hkey : sec'.key = sec.key) (hopc : sec'.opc = sec.opc)
    (v : AucVector) : carriedSqn cipher sec' v = carriedSqn cipher sec v := by
  rw [carriedSqn, carriedSqn, hkey, hopc]

/-- The security data after the branch `if (m_auts_set)`. -/
def resynced (a : Attempt R) (sec : ImsiSec) : ImsiSec :=
  cipher.alone (resync sec a.m_auts) a.table

/-- It is the data of the row, but for the SQN if there is a field that verifies. -/
theorem resynced_eq (a : Attempt R) (sec : ImsiSec) :
    resynced cipher a sec = match a.m_auts with
      | none => sec
      | some auts =>
        if Ts35206.f1star cipher.onWords (word sec.key) (word sec.opc) (word sec.rand)
            (word (derivedSqn cipher sec.opc sec.key sec.rand auts)) 0 = word (macS auts)
        then { sec with sqn := u64ToSqn (sqnToU64 (derivedSqn cipher sec.opc sec.key sec.rand auts)
          + 32) }
        else sec := by
  unfold resynced
  cases h : a.m_auts with
  | none => rfl
  | some auts =>
    have hderive := alone_sqnMsDerive cipher sec.opc sec.key sec.rand auts a.table
    simp only [resync, Prog.bind_eq, alone_bind]
    rw [hderive]
    by_cases hmac : Ts35206.f1star cipher.onWords (word sec.key) (word sec.opc) (word sec.rand)
        (word (derivedSqn cipher sec.opc sec.key sec.rand auts)) 0 = word (macS auts)
    · rw [if_pos hmac, if_pos hmac]
      rfl
    · rw [if_neg hmac, if_neg hmac]
      rfl

/-- It leaves the keys as they are. -/
theorem resynced_keys (a : Attempt R) (sec : ImsiSec) :
    (resynced cipher a sec).key = sec.key ∧ (resynced cipher a sec).opc = sec.opc := by
  rw [resynced_eq]
  split
  case h_1 => exact ⟨rfl, rfl⟩
  case h_2 =>
    split
    · exact ⟨rfl, rfl⟩
    · exact ⟨rfl, rfl⟩

/-- All vectors carry the SQN that the branch `if (m_auts_set)` has left, and that is what
`updateRandSqn` is given. -/
theorem out_sqn (a : Attempt R) (sec : ImsiSec) :
    (a.out cipher kdf sec).vectors.map (carriedSqn cipher sec) =
        List.replicate a.numVectors (sqnVal (resynced cipher a sec).sqn) ∧
      (a.out cipher kdf sec).sec.sqn = (resynced cipher a sec).sqn := by
  obtain ⟨hkey, hopc⟩ := resynced_keys cipher a sec
  have hout : (a.out cipher kdf sec).vectors = (List.range a.numVectors).map
        (cipher.alone (vectorLoop kdf (resynced cipher a sec) a.plmn a.rands a.numVectors 0
          a.m_vector) ((resync sec a.m_auts).run cipher.exec a.table).2) ∧
      (a.out cipher kdf sec).sec.sqn = (resynced cipher a sec).sqn := by
    simp only [Attempt.out, phase2, Prog.bind_eq, Prog.pure_eq, alone_bind]
    exact ⟨rfl, rfl⟩
  refine ⟨?_, hout.2⟩
  rw [hout.1, List.map_map]
  refine List.eq_replicate_iff.mpr ⟨by simp, fun x hx => ?_⟩
  obtain ⟨j, hj, rfl⟩ := List.mem_map.mp hx
  have hloop := vectorLoop_spec cipher kdf (resynced cipher a sec) a.plmn a.rands a.numVectors 0
    a.m_vector ((resync sec a.m_auts).run cipher.exec a.table).2 (Nat.zero_le j)
    (by simpa using hj)
  rwa [carriedSqn_congr cipher hkey hopc] at hloop

/-- The first vector carries the SQN that the branch has left. -/
theorem head_vectors (a : Attempt R) (sec : ImsiSec) :
    (a.out cipher kdf sec).vectors.head?.map (carriedSqn cipher sec) =
      if 1 ≤ a.numVectors then some (sqnVal (resynced cipher a sec).sqn) else none := by
  rw [← List.head?_map, (out_sqn cipher kdf a sec).1, List.head?_replicate]
  by_cases hn : a.numVectors = 0
  · rw [if_pos hn, if_neg (by omega)]
  · rw [if_neg hn, if_pos (by omega)]

/-! ### Two AIRs -/

/-- The second AIR carries the RAND of a vector and the AUTS that a USIM with the keys of `sec`
makes over it. -/
def Attempt.Carries (a : Attempt R) (sec : ImsiSec) (rand : Bytes 16) (sqn_ms : Bytes 6) : Prop :=
  ∃ behind, a.m_auts = some (resyncInfo rand
    (usimAuts cipher.onWords (word sec.key) (word sec.opc) (word rand) sqn_ms) behind)

/-- The SQN that the AUTS spells under the RAND of the row. -/
def spelled (sec : ImsiSec) (rand : Bytes 16) (sqn_ms : Bytes 6) : BitVec 48 :=
  word sqn_ms ^^^ Ts35206.f5star cipher.onWords (word sec.key) (word sec.opc) (word rand) ^^^
    Ts35206.f5star cipher.onWords (word sec.key) (word sec.opc) (word sec.rand)

/-- The AUTS verifies under the RAND of the row. -/
def Verifies (sec : ImsiSec) (rand : Bytes 16) (sqn_ms : Bytes 6) : Prop :=
  Ts35206.f1star cipher.onWords (word sec.key) (word sec.opc) (word sec.rand)
      (spelled cipher sec rand sqn_ms) 0 =
    Ts35206.f1star cipher.onWords (word sec.key) (word sec.opc) (word rand) (word sqn_ms) 0

/-- The two RANDs have the same anonymity key, and the same MAC-S over an SQN. -/
def SameStar (sec : ImsiSec) (rand : Bytes 16) (sqn_ms : Bytes 6) : Prop :=
  Ts35206.f5star cipher.onWords (word sec.key) (word sec.opc) (word rand) =
      Ts35206.f5star cipher.onWords (word sec.key) (word sec.opc) (word sec.rand) ∧
    Ts35206.f1star cipher.onWords (word sec.key) (word sec.opc) (word rand) (word sqn_ms) 0 =
      Ts35206.f1star cipher.onWords (word sec.key) (word sec.opc) (word sec.rand) (word sqn_ms) 0

/-- The first vector carries SQN_MS + 32. -/
def Attempt.Resynchronises (a : Attempt R) (sec : ImsiSec) (sqn_ms : Bytes 6) : Prop :=
  (a.out cipher kdf sec).vectors.head?.map (carriedSqn cipher sec) =
    some ((sqnVal sqn_ms + 32) % 2 ^ 48)

theorem spelled_eq_iff (sec : ImsiSec) (rand : Bytes 16) (sqn_ms : Bytes 6) :
    spelled cipher sec rand sqn_ms = word sqn_ms ↔
      Ts35206.f5star cipher.onWords (word sec.key) (word sec.opc) (word rand) =
        Ts35206.f5star cipher.onWords (word sec.key) (word sec.opc) (word sec.rand) := by
  rw [spelled, BitVec.xor_assoc]
  constructor
  · intro h
    have h0 := congrArg (word sqn_ms ^^^ ·) h
    simp only [← BitVec.xor_assoc, BitVec.xor_self, BitVec.zero_xor] at h0
    exact BitVec.xor_eq_zero_iff.mp h0
  · intro h
    rw [h, BitVec.xor_self, BitVec.xor_zero]

/-- What the second AIR makes of the AUTS. -/
theorem resynced_carries {a : Attempt R} {sec : ImsiSec} {rand : Bytes 16} {sqn_ms : Bytes 6}
    (h : a.Carries cipher sec rand sqn_ms) :
    (Verifies cipher sec rand sqn_ms →
      sqnVal (resynced cipher a sec).sqn = ((spelled cipher sec rand sqn_ms).toNat + 32) % 2 ^ 48) ∧
    (¬ Verifies cipher sec rand sqn_ms → resynced cipher a sec = sec) := by
  obtain ⟨behind, hauts⟩ := h
  have hword : word (derivedSqn cipher sec.opc sec.key sec.rand (resyncInfo rand
      (usimAuts cipher.onWords (word sec.key) (word sec.opc) (word rand) sqn_ms) behind)) =
        spelled cipher sec rand sqn_ms := by
    rw [word_derivedSqn, word_concSqnMs_usimAuts, spelled]
  rw [resynced_eq, hauts]
  simp only [hword, word_macS_usimAuts]
  refine ⟨fun hv => ?_, fun hv => if_neg hv⟩
  unfold Verifies at hv
  rw [if_pos hv, sqnVal_incremented, sqnVal, hword]

/-- The keys that the second AIR reads are those of the first. -/
theorem sec_rowAfter {first second : Attempt R} {row : SecRow} {stored : Bool} {out : Phase2Out}
    {sec₁ sec₂ : ImsiSec} (h₁ : first.sec row = some sec₁)
    (h₂ : second.sec (rowAfter stored out row) = some sec₂) :
    sec₂.key = sec₁.key ∧ sec₂.opc = sec₁.opc ∧ (stored = true → sec₂.rand = out.rand) := by
  obtain rfl := Option.some.inj h₁
  obtain rfl := Option.some.inj h₂
  cases stored with
  | false => exact ⟨rfl, rfl, nofun⟩
  | true => exact ⟨rfl, rfl, fun _ => convertAsciiToBinary_bytes2hex out.rand⟩

/-- When an AIR that carries the AUTS of a USIM resynchronises. -/
theorem resynchronises_iff {a : Attempt R} {sec : ImsiSec} {rand : Bytes 16} {sqn_ms : Bytes 6}
    (h : a.Carries cipher sec rand sqn_ms) :
    a.Resynchronises cipher kdf sec sqn_ms ↔ 1 ≤ a.numVectors ∧
      (SameStar cipher sec rand sqn_ms ∨
        ¬ Verifies cipher sec rand sqn_ms ∧ sqnVal sec.sqn = (sqnVal sqn_ms + 32) % 2 ^ 48) := by
  obtain ⟨hopens, hcloses⟩ := resynced_carries cipher h
  have hsame : SameStar cipher sec rand sqn_ms ↔
      Verifies cipher sec rand sqn_ms ∧ spelled cipher sec rand sqn_ms = word sqn_ms := by
    rw [spelled_eq_iff, SameStar, Verifies]
    constructor
    · rintro ⟨h5, h1⟩
      rw [(spelled_eq_iff cipher sec rand sqn_ms).mpr h5]
      exact ⟨h1.symm, h5⟩
    · rintro ⟨h1, h5⟩
      rw [(spelled_eq_iff cipher sec rand sqn_ms).mpr h5] at h1
      exact ⟨h5, h1.symm⟩
  rw [Attempt.Resynchronises, head_vectors, hsame]
  by_cases hn : 1 ≤ a.numVectors
  · rw [if_pos hn, Option.some.injEq, and_iff_right hn]
    by_cases hv : Verifies cipher sec rand sqn_ms
    · rw [hopens hv]
      have hlt := sqnVal_lt sqn_ms
      have hlt' : (spelled cipher sec rand sqn_ms).toNat < 2 ^ 48 := BitVec.isLt _
      constructor
      · intro h
        refine .inl ⟨hv, BitVec.eq_of_toNat_eq ?_⟩
        change _ = sqnVal sqn_ms
        omega
      · rintro (⟨-, h⟩ | ⟨h, -⟩)
        · rw [h]
          rfl
        · exact absurd hv h
    · rw [hcloses hv]
      simp only [hv, false_and, not_false_eq_true, true_and, false_or]
  · rw [if_neg hn]
    simp [hn]

/-- The second AIR reports a synchronisation failure on a vector of the first. -/
structure Attempt.Reports (second : Attempt R) (out : Phase2Out) (sec : ImsiSec) (v : AucVector)
    (sqn_ms : Bytes 6) : Prop where
  handed : v ∈ out.vectors
  carries : second.Carries cipher sec v.rand sqn_ms

/-- The USIM's keys are those that the second AIR reads. -/
theorem Attempt.Reports.carries_after {first second : Attempt R} {row : SecRow} {stored : Bool}
    {out : Phase2Out} {sec₁ sec₂ : ImsiSec} {v : AucVector} {sqn_ms : Bytes 6}
    (hreports : second.Reports cipher out sec₁ v sqn_ms) (h₁ : first.sec row = some sec₁)
    (h₂ : second.sec (rowAfter stored out row) = some sec₂) :
    second.Carries cipher sec₂ v.rand sqn_ms := by
  obtain ⟨hkey, hopc, -⟩ := sec_rowAfter h₁ h₂
  have h := hreports.carries
  rwa [Attempt.Carries, ← hkey, ← hopc] at h

/-- **When an AIR that reports a synchronisation failure resynchronises.**  It has to ask for a
vector; and the AUTS, which is made over the RAND of the rejected vector and opened with the RAND of
the row, has to mean the same under both, unless it does not verify and the row happens to hold
SQN_MS + 32. -/
theorem resynchronised_iff {first second : Attempt R} {row : SecRow} {stored : Bool}
    {sec₁ sec₂ : ImsiSec} {v : AucVector} {sqn_ms : Bytes 6} (h₁ : first.sec row = some sec₁)
    (hreports : second.Reports cipher (first.out cipher kdf sec₁) sec₁ v sqn_ms)
    (h₂ : second.sec (rowAfter stored (first.out cipher kdf sec₁) row) = some sec₂) :
    second.Resynchronises cipher kdf sec₂ sqn_ms ↔ 1 ≤ second.numVectors ∧
      (SameStar cipher sec₂ v.rand sqn_ms ∨
        ¬ Verifies cipher sec₂ v.rand sqn_ms ∧ sqnVal sec₂.sqn = (sqnVal sqn_ms + 32) % 2 ^ 48) :=
  resynchronises_iff cipher kdf (hreports.carries_after cipher h₁ h₂)

/-- It resynchronises on the last vector, if the update after the first answer was stored. -/
theorem resynchronises_last {first second : Attempt R} {row : SecRow} {sec₁ sec₂ : ImsiSec}
    {v : AucVector} {sqn_ms : Bytes 6} (h₁ : first.sec row = some sec₁)
    (hreports : second.Reports cipher (first.out cipher kdf sec₁) sec₁ v sqn_ms)
    (hlast : v.rand = (first.out cipher kdf sec₁).rand) (hn : 1 ≤ second.numVectors)
    (h₂ : second.sec (rowAfter true (first.out cipher kdf sec₁) row) = some sec₂) :
    second.Resynchronises cipher kdf sec₂ sqn_ms := by
  obtain ⟨-, -, hrand⟩ := sec_rowAfter h₁ h₂
  have heq : v.rand = sec₂.rand := hlast.trans (hrand rfl).symm
  refine (resynchronises_iff cipher kdf (hreports.carries_after cipher h₁ h₂)).mpr ⟨hn, .inl ?_⟩
  rw [SameStar, heq]
  exact ⟨rfl, rfl⟩

/-- The RANDs of the answer and of the update are the random numbers that were drawn. -/
theorem out_rands (a : Attempt R) (sec : ImsiSec) :
    (a.out cipher kdf sec).vectors.map (·.rand) = (List.range a.numVectors).map a.rands ∧
      (0 < a.numVectors → a.numVectors < 2 ^ 32 →
        (a.out cipher kdf sec).rand = a.rands (a.numVectors - 1)) := by
  have hout : (a.out cipher kdf sec).vectors = (List.range a.numVectors).map
      (cipher.alone (vectorLoop kdf (resynced cipher a sec) a.plmn a.rands a.numVectors 0 a.m_vector)
        ((resync sec a.m_auts).run cipher.exec a.table).2) ∧
      (a.out cipher kdf sec).rand =
        (cipher.alone (vectorLoop kdf (resynced cipher a sec) a.plmn a.rands a.numVectors 0
          a.m_vector) ((resync sec a.m_auts).run cipher.exec a.table).2
            ((a.numVectors + 2 ^ 32 - 1) % 2 ^ 32)).rand := by
    simp only [Attempt.out, phase2, Prog.bind_eq, Prog.pure_eq, alone_bind]
    exact ⟨rfl, rfl⟩
  obtain ⟨hvectors, hrand⟩ := hout
  have hloop : ∀ j < a.numVectors, (cipher.alone (vectorLoop kdf (resynced cipher a sec) a.plmn
      a.rands a.numVectors 0 a.m_vector) ((resync sec a.m_auts).run cipher.exec a.table).2 j).rand =
        a.rands j := fun j hj => vectorLoop_rand cipher kdf (resynced cipher a sec) a.plmn a.rands
    a.numVectors 0 a.m_vector _ (Nat.zero_le j) (by omega)
  refine ⟨?_, fun hpos hlt => ?_⟩
  · rw [hvectors, List.map_map]
    exact List.map_congr_left fun j hj => hloop j (List.mem_range.mp hj)
  · have hlast : (a.numVectors + 2 ^ 32 - 1) % 2 ^ 32 = a.numVectors - 1 := by omega
    rw [hrand, hlast]
    exact hloop _ (by omega)

end

/-! ### Two vectors -/

/-- A subscriber whose K and OPc are zeroes, with the SQN 0. -/
def zeroRow : SecRow where
  key := some "00000000000000000000000000000000"
  sqn := some 0
  rand := some "00000000000000000000000000000000"
  opc := some "00000000000000000000000000000000"

/-- SQN_MS of the USIM: 100. -/
def usimSqnMs : Bytes 6 := ![0, 0, 0, 0, 0, 100]

/-- An AIR for two vectors; the random numbers are 0 and 1. -/
def twoVectors (m_auts : Option (Bytes 31)) : Attempt Rijndael.RoundKeys where
  sqn_nb := 0
  m_auts := m_auts
  plmn := ![0x02, 0xf8, 0x39]
  numVectors := 2
  rands := fun n => ofWord (n := 16) (BitVec.ofNat 128 n)
  m_vector := fun _ => ⟨fun _ => 0, 0, fun _ => 0, fun _ => 0, fun _ => 0⟩
  table := fun _ _ _ => 0

/-- The AUTS over the random number `n`. -/
def autsOver (n : Nat) : Bytes 31 :=
  resyncInfo (ofWord (n := 16) (BitVec.ofNat 128 n))
    (usimAuts rijndael.onWords 0 0 (BitVec.ofNat 128 n) usimSqnMs) 0

/-- What an AIR reads of the row with a RAND and an SQN in it. -/
def zeroKeys (rand : Bytes 16) (sqn : Nat) : ImsiSec where
  key := fun _ => 0
  sqn := sqnOfNb (BitVec.ofInt 64 sqn)
  rand := rand
  opc := fun _ => 0

theorem zeroText_bytes :
    convertAsciiToBinary 16 "00000000000000000000000000000000" = fun _ => 0 := by
  funext i
  rw [convertAsciiToBinary_of_decode
    (show Hex.decode Hex.ofChar _ = some (List.replicate 16 0) from rfl)]
  exact List.getD_replicate _ i.isLt

theorem sec_zeroRow (m_auts : Option (Bytes 31)) :
    (twoVectors m_auts).sec zeroRow = some (zeroKeys (fun _ => 0) 0) := by
  simp only [Attempt.sec, getImsiSecData, zeroRow, Option.getD_some, zeroText_bytes, zeroKeys]
  rfl

/-- The first answer has a vector with each of the two random numbers. -/
theorem exists_vector (kdf : List (BitVec 8) → List (BitVec 8) → Bytes 32) {n : Nat} (hn : n < 2) :
    ∃ v ∈ ((twoVectors none).out rijndael kdf (zeroKeys (fun _ => 0) 0)).vectors,
      v.rand = ofWord (n := 16) (BitVec.ofNat 128 n) := by
  have hrands := (out_rands rijndael kdf (twoVectors none) (zeroKeys (fun _ => 0) 0)).1
  have hmem : (twoVectors none).rands n ∈ (List.range (twoVectors none).numVectors).map
      (twoVectors none).rands := List.mem_map.mpr ⟨n, List.mem_range.mpr hn, rfl⟩
  rw [← hrands, List.mem_map] at hmem
  exact hmem

/-- What the second AIR reads of the row. -/
theorem sec_zeroRow_after (kdf : List (BitVec 8) → List (BitVec 8) → Bytes 32)
    (m_auts : Option (Bytes 31)) :
    (twoVectors m_auts).sec
        (rowAfter true ((twoVectors none).out rijndael kdf (zeroKeys (fun _ => 0) 0)) zeroRow) =
      some (zeroKeys (ofWord (n := 16) 1) 32) := by
  set out := (twoVectors none).out rijndael kdf (zeroKeys (fun _ => 0) 0) with hout
  have hrand : out.rand = ofWord (n := 16) 1 :=
    (out_rands rijndael kdf (twoVectors none) (zeroKeys (fun _ => 0) 0)).2 (by decide) (by decide)
  have hsqn : out.sec.sqn = sqnOfNb (BitVec.ofInt 64 (0 : Nat)) :=
    (carriedSqn_vectors rijndael kdf (zeroKeys (fun _ => 0) 0) (twoVectors none).plmn 2
      (twoVectors none).rands (twoVectors none).m_vector (twoVectors none).table).2
  have htext : sqnText out.sec.sqn true = 32 := by
    rw [sqnText_eq, hsqn, sqnVal_sqnOfNb]
    rfl
  simp only [Attempt.sec, getImsiSecData, rowAfter, updateRandSqn, zeroRow, if_true,
    Option.getD_some, zeroText_bytes, convertAsciiToBinary_bytes2hex, hrand, htext, zeroKeys]

/-- The second AIR reports a failure on the vector with the random number `n`. -/
theorem reports_two (kdf : List (BitVec 8) → List (BitVec 8) → Bytes 32) {n : Nat} {v : AucVector}
    (hv : v ∈ ((twoVectors none).out rijndael kdf (zeroKeys (fun _ => 0) 0)).vectors)
    (hrand : v.rand = ofWord (n := 16) (BitVec.ofNat 128 n)) :
    (twoVectors (some (autsOver n))).Reports rijndael
      ((twoVectors none).out rijndael kdf (zeroKeys (fun _ => 0) 0)) (zeroKeys (fun _ => 0) 0) v
      usimSqnMs := by
  refine ⟨hv, 0, ?_⟩
  rw [hrand, word_ofWord]
  simp only [twoVectors, zeroKeys, word_zero]
  rfl

/-- The key derivation does not matter here. -/
def noKdf : List (BitVec 8) → List (BitVec 8) → Bytes 32 := fun _ _ _ => 0

theorem resynchronised_iff_two :
    ∃ v ∈ ((twoVectors none).out rijndael noKdf (zeroKeys (fun _ => 0) 0)).vectors,
      ((twoVectors (some (autsOver 1))).Resynchronises rijndael noKdf
          (zeroKeys (ofWord (n := 16) 1) 32) usimSqnMs ↔
        1 ≤ (twoVectors (some (autsOver 1))).numVectors ∧
          (SameStar rijndael (zeroKeys (ofWord (n := 16) 1) 32) v.rand usimSqnMs ∨
            ¬ Verifies rijndael (zeroKeys (ofWord (n := 16) 1) 32) v.rand usimSqnMs ∧
              sqnVal (zeroKeys (ofWord (n := 16) 1) 32).sqn = (sqnVal usimSqnMs + 32) % 2 ^ 48)) := by
  obtain ⟨v, hv, hrand⟩ := exists_vector noKdf (n := 1) (by decide)
  exact ⟨v, hv, resynchronised_iff rijndael noKdf (sec_zeroRow none) (reports_two noKdf hv hrand)
    (sec_zeroRow_after noKdf _)⟩

/-- The first of two vectors is rejected: the AUTS is opened with the RAND of the second. -/
theorem not_resynchronised :
    ∃ (first second : Attempt Rijndael.RoundKeys) (row : SecRow) (sec₁ sec₂ : ImsiSec)
      (v : AucVector) (sqn_ms : Bytes 6),
      first.sec row = some sec₁ ∧ 1 ≤ first.numVectors ∧ first.numVectors ≤ authMaxEutranVectors ∧
      second.Reports rijndael (first.out rijndael noKdf sec₁) sec₁ v sqn_ms ∧
      second.sec (rowAfter true (first.out rijndael noKdf sec₁) row) = some sec₂ ∧
      1 ≤ second.numVectors ∧ ¬ second.Resynchronises rijndael noKdf sec₂ sqn_ms := by
  obtain ⟨v, hv, hrand⟩ := exists_vector noKdf (n := 0) (by decide)
  have hreports := reports_two noKdf hv hrand
  have hafter := sec_zeroRow_after noKdf (some (autsOver 0))
  refine ⟨twoVectors none, twoVectors (some (autsOver 0)), zeroRow, _, _, v, usimSqnMs,
    sec_zeroRow none, by decide, by decide, hreports, hafter, by decide, fun h => ?_⟩
  rw [resynchronises_iff rijndael noKdf (hreports.carries_after rijndael (sec_zeroRow none) hafter),
    SameStar, hrand, word_ofWord] at h
  have hf5 : Ts35206.f5star rijndael.onWords 0 0 0 ≠ Ts35206.f5star rijndael.onWords 0 0 1 := by
    decide +kernel
  simp only [zeroKeys, word_zero, word_ofWord] at h
  rcases h.2 with ⟨h5, -⟩ | ⟨-, hsqn⟩
  · exact hf5 h5
  · rw [sqnVal_sqnOfNb] at hsqn
    revert hsqn
    decide +kernel

end OpenairHss.Air
