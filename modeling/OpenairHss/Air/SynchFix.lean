import OpenairHss.Air.Processor
import OpenairHss.Air.Resync

/-!
# Resynchronisation from the command line

`FDHss::synchFix` opens the AUTS that stands on the command line and stores SQN_MS + 32 without a
further increment; an AIR that carries the AUTS starts from SQN_MS + 32, hands it out and stores it
with an increment.

`resync_paths_agree`: the AIR after `synchFix` hands out the same SQN as the AIR with the AUTS, and
the AIRs after these two hand out the same SQN again, for all SQNs, the last ones before `2 ^ 48`
included.
-/

namespace OpenairHss.Air

open ByteVec Interact Hsssec DataAccess

/-! ### The command line -/

def validHex (c : Char) : Bool :=
  ('0' ≤ c && c ≤ '9') || ('A' ≤ c && c ≤ 'F') || ('a' ≤ c && c ≤ 'f')

def toHex (c : Char) : BitVec 8 :=
  if '0' ≤ c ∧ c ≤ '9' then BitVec.ofNat 8 (c.toNat - '0'.toNat)
  else BitVec.ofNat 8 (c.toNat - (if 'A' ≤ c ∧ c ≤ 'F' then 'A' else 'a').toNat + 10)

/-- The loop of `parsehex`: the bytes that it writes, if it does not return `false`. -/
def parsehexLoop : List Char → Option (List (BitVec 8))
  | [] => some []
  | [_] => none
  | c :: d :: src =>
    if validHex c && validHex d then
      (parsehexLoop src).map ((toHex c <<< 4 ||| toHex d) :: ·)
    else none

def parsehex (src : String) (len : Int) : Option (List (BitVec 8)) :=
  if len ≠ -1 ∧ (src.toList.length : Int) ≠ len then none
  else if src.toList.length % 2 ≠ 0 then none
  else parsehexLoop src.toList

/-- The buffer `auts` with the bytes of `parsehex`.  More than 31 of them are written beyond it. -/
def autsBuffer (bytes : List (BitVec 8)) : Bytes 31 := fun i => bytes.getD i 0

/-- `FDHss::synchFix`: what it returns, and the row after it.  `row` is what `getImsiSec` finds, and
`rand` the result of `generate_random`. -/
def synchFix (sqn_nb : Int) (rand : Bytes 16) (synchauts : String) (row : Option SecRow) :
    Cipher (Bool × Option SecRow) :=
  match parsehex synchauts (-1), getImsiSecData sqn_nb row with
  | none, _ => return (false, row)
  | some _, none => return (false, row)
  | some bytes, some imsisec => do
    let sqn ← sqnMsDerive imsisec.opc imsisec.key (autsBuffer bytes) imsisec.rand
    match sqn with
    | some sqn =>
      let sqn := u64ToSqn (sqnToU64 sqn + 32)
      return (true, row.map (updateRandSqn rand sqn false))
    | none => return (false, row)

theorem validHex_eq (c : Char) : validHex c = (Hex.ofChar c).isSome := by
  rw [Bool.eq_iff_iff, validHex, Hex.ofChar, Hex.ofAscii_isSome_iff]
  simp only [Bool.or_eq_true, Bool.and_eq_true, decide_eq_true_eq, Hex.decimal_iff, Hex.upper_iff,
    Hex.lower_iff, or_assoc]

theorem toHex_of_some {c : Char} {v : Fin 16} (h : Hex.ofChar c = some v) :
    toHex c = BitVec.ofNat 8 v := by
  unfold toHex
  simp only [Hex.decimal_iff, Hex.upper_iff]
  rcases Hex.ofAscii_eq_some h with ⟨hge, hle, hv⟩ | ⟨hge, hle, hv⟩ | ⟨hge, hle, hv⟩
  · rw [if_pos ⟨hge, hle⟩, hv]
    exact congrArg (BitVec.ofNat 8) (Nat.add_sub_cancel_left 48 v)
  · rw [if_neg (by omega), if_pos ⟨hge, hle⟩, hv]
    exact congrArg (BitVec.ofNat 8) (show 55 + (v : Nat) - 65 + 10 = v by omega)
  · rw [if_neg (by omega), if_neg (by omega), hv]
    exact congrArg (BitVec.ofNat 8) (show 87 + (v : Nat) - 97 + 10 = v by omega)

/-- `parsehex` reads hexadecimal digits. -/
theorem parsehexLoop_eq (src : List Char) : parsehexLoop src = Hex.decode Hex.ofChar src := by
  induction src using Hex.induction_on_pairs Hex.ofChar with
  | nil => rfl
  | single c => rfl
  | digits c d v w src hc hd ih =>
    have hvalid : (validHex c && validHex d) = true := by
      rw [validHex_eq, validHex_eq, hc, hd]
      rfl
    rw [parsehexLoop, if_pos hvalid, ih, Hex.decode_pair hc hd, toHex_of_some hc, toHex_of_some hd,
      Hex.shift_or_eq_pair]
  | stop c d src hno =>
    have hinvalid : ¬(validHex c && validHex d) = true := by
      rw [validHex_eq, validHex_eq, Bool.and_eq_true]
      exact hno
    rw [parsehexLoop, if_neg hinvalid, (Hex.decode_stop hno src).1]

/-- Whatever is written in hexadecimal is parsed. -/
theorem parsehex_bytes2hex {n : Nat} (b : Bytes n) :
    parsehex (bytes2hex b) (-1) = some (List.ofFn b) := by
  have heven : (bytes2hex b).toList.length % 2 = 0 := by
    rw [toList_bytes2hex, Hex.length_encode]
    exact Nat.mul_mod_right 2 _
  rw [parsehex, if_neg fun h => h.1 rfl, heven, if_neg fun h => h rfl, parsehexLoop_eq,
    toList_bytes2hex]
  exact Hex.decode_encode hexChar ofChar_hexChar (List.ofFn b)

/-! ### One AIR -/

section

variable {R : Type} (cipher : BlockCipher R)
  (kdf : List (BitVec 8) → List (BitVec 8) → Bytes 32)

/-- The SQNs that an AIR hands out. -/
def Attempt.handed (a : Attempt R) (row : SecRow) : List Nat :=
  match a.sec row with
  | none => []
  | some sec => (a.out cipher kdf sec).vectors.map (carriedSqn cipher sec)

/-- The row after the AIR. -/
def Attempt.after (a : Attempt R) (row : SecRow) : SecRow :=
  match a.sec row with
  | none => row
  | some sec => rowAfter true (a.out cipher kdf sec) row

/-- What an AIR hands out and stores, in numbers. -/
theorem handed_after {a : Attempt R} {row : SecRow} {sec : ImsiSec} {n : Nat}
    (hsec : a.sec row = some sec) (hn : sqnVal (resynced cipher a sec).sqn = n) :
    a.handed cipher kdf row = List.replicate a.numVectors n ∧
      (a.after cipher kdf row).sqn = some ((n + 32 : Nat) : Int) ∧
      (a.after cipher kdf row).key = row.key ∧ (a.after cipher kdf row).opc = row.opc := by
  obtain ⟨hvectors, hsqn⟩ := out_sqn cipher kdf a sec
  have hafter : a.after cipher kdf row =
      updateRandSqn (a.out cipher kdf sec).rand (a.out cipher kdf sec).sec.sqn true row := by
    rw [Attempt.after, hsec]
    rfl
  have htext := sqnText_eq (a.out cipher kdf sec).sec.sqn true
  rw [hsqn, hn, if_pos rfl] at htext
  refine ⟨?_, ?_, ?_, ?_⟩
  · rw [Attempt.handed, hsec]
    dsimp only
    rw [hvectors, hn]
  · rw [hafter, updateRandSqn, hsqn, htext]
  · rw [hafter, updateRandSqn]
  · rw [hafter, updateRandSqn]

/-- An AIR without an AUTS hands out the SQN of the row, modulo `2 ^ 48`. -/
theorem handed_plain {a : Attempt R} {row : SecRow} {n : Nat} (ha : a.m_auts = none)
    (hrow : row.sqn = some (n : Int)) :
    a.handed cipher kdf row = List.replicate a.numVectors (n % 2 ^ 48) ∧
      (a.after cipher kdf row).sqn = some ((n % 2 ^ 48 + 32 : Nat) : Int) := by
  obtain ⟨sec, hsec⟩ : ∃ sec, a.sec row = some sec := ⟨_, rfl⟩
  have hsqn : sqnVal (resynced cipher a sec).sqn = n % 2 ^ 48 := by
    rw [resynced_eq, ha]
    obtain rfl := Option.some.inj hsec
    dsimp only
    rw [hrow, Option.getD_some]
    exact sqnVal_sqnOfNb n
  obtain ⟨h₁, h₂, -⟩ := handed_after cipher kdf hsec hsqn
  exact ⟨h₁, h₂⟩

/-! ### The two paths -/

/-- The AUTS in a buffer verifies against the K, OPc and RAND of a row, and spells `sqn_ms`. -/
def Spells (row : SecRow) (auts : Bytes 31) (sqn_ms : Bytes 6) : Prop :=
  let key := word (convertAsciiToBinary 16 (row.key.getD ""))
  let opc := word (convertAsciiToBinary 16 (row.opc.getD ""))
  let rand := word (convertAsciiToBinary 16 (row.rand.getD ""))
  word sqn_ms = word (concSqnMs auts) ^^^ Ts35206.f5star cipher.onWords key opc rand ∧
    word (macS auts) = Ts35206.f1star cipher.onWords key opc rand (word sqn_ms) 0

/-- The bytes behind the RAND and the AUTS of a field do not matter. -/
theorem spells_congr {row : SecRow} {auts auts' : Bytes 31} {sqn_ms : Bytes 6}
    (h : ∀ i : Fin 31, (i : Nat) < 30 → auts i = auts' i) :
    Spells cipher row auts sqn_ms ↔ Spells cipher row auts' sqn_ms := by
  have hconc : concSqnMs auts = concSqnMs auts' := by
    funext i
    refine h _ ?_
    show 16 + (i : Nat) < 30
    omega
  have hmac : macS auts = macS auts' := by
    funext i
    refine h _ ?_
    show 6 + 16 + (i : Nat) < 30
    omega
  rw [Spells, Spells, hconc, hmac]

/-- `synchFix` stores SQN_MS + 32. -/
theorem synchFix_spells {row : SecRow} {synchauts : String} {bytes : List (BitVec 8)}
    {sqn_ms : Bytes 6} (htext : parsehex synchauts (-1) = some bytes)
    (h : Spells cipher row (autsBuffer bytes) sqn_ms) (sqn_nb : Int) (rand : Bytes 16) (table : R) :
    ∃ row', cipher.alone (synchFix sqn_nb rand synchauts (some row)) table = (true, some row') ∧
      row'.sqn = some (((sqnVal sqn_ms + 32) % 2 ^ 48 : Nat) : Int) := by
  obtain ⟨sec, hsec⟩ : ∃ sec, getImsiSecData sqn_nb (some row) = some sec := ⟨_, rfl⟩
  have hderive : cipher.alone (sqnMsDerive sec.opc sec.key (autsBuffer bytes) sec.rand) table =
      some sqn_ms := by
    rw [sqnMsDerive_eq_some_iff]
    obtain rfl := Option.some.inj hsec
    exact h
  have hrun : cipher.alone (synchFix sqn_nb rand synchauts (some row)) table =
      (true, some (updateRandSqn rand (u64ToSqn (sqnToU64 sqn_ms + 32)) false row)) := by
    rw [synchFix, htext, hsec]
    simp only [Prog.bind_eq, alone_bind]
    rw [hderive]
    rfl
  refine ⟨_, hrun, ?_⟩
  have htext' := sqnText_eq (u64ToSqn (sqnToU64 sqn_ms + 32)) false
  rw [if_neg Bool.false_ne_true, sqnVal_incremented, Nat.add_zero] at htext'
  rw [updateRandSqn, htext']

/-- An AIR with the AUTS hands out SQN_MS + 32. -/
theorem resynced_spells {a : Attempt R} {row : SecRow} {sec : ImsiSec} {auts : Bytes 31}
    {sqn_ms : Bytes 6} (hsec : a.sec row = some sec) (ha : a.m_auts = some auts)
    (h : Spells cipher row auts sqn_ms) :
    sqnVal (resynced cipher a sec).sqn = (sqnVal sqn_ms + 32) % 2 ^ 48 := by
  have hderive : cipher.alone (sqnMsDerive sec.opc sec.key auts sec.rand) a.table = some sqn_ms := by
    rw [sqnMsDerive_eq_some_iff]
    obtain rfl := Option.some.inj hsec
    exact h
  have hrun : resynced cipher a sec = { sec with sqn := u64ToSqn (sqnToU64 sqn_ms + 32) } := by
    rw [resynced, ha]
    simp only [resync, Prog.bind_eq, alone_bind]
    rw [hderive]
    rfl
  rw [hrun]
  exact sqnVal_incremented sqn_ms

/-- **The two paths agree.**  For every row and every RAND ‖ AUTS of 30 bytes that verifies against
it, with or without a byte behind it: `synchFix` on its hexadecimal text succeeds, and the next AIR,
for one vector, hands out SQN_MS + 32, as an AIR for one vector does that carries the field; and the
AIR after either hands out SQN_MS + 64, all modulo `2 ^ 48`. -/
theorem resync_paths_agree (row : SecRow) (bytes : List (BitVec 8)) (synchauts : String)
    (sqn_ms : Bytes 6) (hlen : bytes.length = 30 ∨ bytes.length = 31)
    (htext : parsehex synchauts (-1) = some bytes)
    (hverifies : Spells cipher row (autsBuffer bytes) sqn_ms) (sqn_nb : Int) (rand : Bytes 16)
    (table : R) (first next first' next' : Attempt R) (m_auts : Bytes 31)
    (hfirst : first.m_auts = none ∧ first.numVectors = 1) (hnext : next.m_auts = none)
    (hfirst' : first'.m_auts = AirProcessor.getAuts m_auts (some bytes) ∧ first'.numVectors = 1)
    (hnext' : next'.m_auts = none) :
    (∃ row', cipher.alone (synchFix sqn_nb rand synchauts (some row)) table = (true, some row') ∧
      first.handed cipher kdf row' = [(sqnVal sqn_ms + 32) % 2 ^ 48] ∧
      next.handed cipher kdf (first.after cipher kdf row') =
        List.replicate next.numVectors ((sqnVal sqn_ms + 64) % 2 ^ 48)) ∧
    first'.handed cipher kdf row = [(sqnVal sqn_ms + 32) % 2 ^ 48] ∧
    next'.handed cipher kdf (first'.after cipher kdf row) =
      List.replicate next'.numVectors ((sqnVal sqn_ms + 64) % 2 ^ 48) := by
  have hlast : ((sqnVal sqn_ms + 32) % 2 ^ 48 + 32) % 2 ^ 48 = (sqnVal sqn_ms + 64) % 2 ^ 48 := by
    omega
  refine ⟨?_, ?_⟩
  · obtain ⟨row', hrun, hrow'⟩ := synchFix_spells cipher htext hverifies sqn_nb rand table
    obtain ⟨hhanded, hafter⟩ := handed_plain cipher kdf hfirst.1 hrow'
    obtain ⟨hhanded', -⟩ := handed_plain cipher kdf hnext hafter
    rw [Nat.mod_mod] at hhanded hhanded'
    refine ⟨row', hrun, ?_, ?_⟩
    · rw [hhanded, hfirst.2]
      rfl
    · rw [hhanded', hlast]
  · have hauts : first'.m_auts = some fun i : Fin 31 => bytes.getD i (m_auts i) := by
      rw [hfirst'.1, AirProcessor.getAuts, if_neg (by omega)]
    have hspells : Spells cipher row (fun i : Fin 31 => bytes.getD i (m_auts i)) sqn_ms := by
      refine (spells_congr cipher fun i hi => ?_).mp hverifies
      have hin : (i : Nat) < bytes.length := by omega
      simp only [autsBuffer, List.getD_eq_getElem?_getD, List.getElem?_eq_getElem hin,
        Option.getD_some]
    obtain ⟨sec, hsec⟩ : ∃ sec, first'.sec row = some sec := ⟨_, rfl⟩
    obtain ⟨hhanded, hafter, -⟩ := handed_after cipher kdf hsec
      (resynced_spells cipher hsec hauts hspells)
    obtain ⟨hhanded', -⟩ := handed_plain cipher kdf hnext' hafter
    refine ⟨?_, ?_⟩
    · rw [hhanded, hfirst'.2]
      rfl
    · rw [hhanded', hlast]

end

/-! ### The last SQN before the wrap -/

/-- An AIR for one vector, with the zero row. -/
def oneVector (m_auts : Option (Bytes 31)) : Attempt Rijndael.RoundKeys :=
  { twoVectors m_auts with numVectors := 1 }

/-- SQN_MS of the USIM: `2 ^ 48 - 1`. -/
def lastSqnMs : Bytes 6 := fun _ => 0xff

/-- RAND ‖ AUTS of the USIM, under the RAND 0. -/
def lastAuts : Bytes 30 :=
  Fin.append (ofWord (n := 16) 0) (usimAuts rijndael.onWords 0 0 0 lastSqnMs)

theorem spells_lastAuts : Spells rijndael zeroRow (autsBuffer (List.ofFn lastAuts)) lastSqnMs := by
  have hbuffer : autsBuffer (List.ofFn lastAuts) =
      resyncInfo (ofWord (n := 16) 0) (usimAuts rijndael.onWords 0 0 0 lastSqnMs) 0 := by
    funext i
    rw [autsBuffer, List.getD_eq_getElem?_getD]
    refine Fin.addCases (m := 30) (n := 1) (fun i => ?_) (fun i => ?_) i
    · rw [resyncInfo, Fin.append_left, List.getElem?_ofFn, dif_pos (show (Fin.castAdd 1 i : Nat) < 30 from i.isLt)]
      rfl
    · rw [resyncInfo, Fin.append_right, List.getElem?_ofFn, dif_neg (by simp), Option.getD_none]
  rw [Spells, hbuffer, word_concSqnMs_usimAuts, word_macS_usimAuts]
  simp only [zeroRow, Option.getD_some, zeroText_bytes, word_zero]
  refine ⟨?_, trivial⟩
  rw [BitVec.xor_assoc, BitVec.xor_self, BitVec.xor_zero]

theorem getAuts_lastAuts :
    AirProcessor.getAuts (fun _ => 0) (some (List.ofFn lastAuts)) =
      some (autsBuffer (List.ofFn lastAuts)) := by
  rw [AirProcessor.getAuts, if_neg (by rw [List.length_ofFn]; decide)]
  rfl

/-- From the last SQN the paths wrap to 31, and then hand out 63. -/
theorem resync_paths_agree_last :
    (∃ row', rijndael.alone (synchFix 0 (fun _ => 7) (bytes2hex lastAuts) (some zeroRow))
          (fun _ _ _ => 0) = (true, some row') ∧
      (oneVector none).handed rijndael noKdf row' = [(sqnVal lastSqnMs + 32) % 2 ^ 48] ∧
      (oneVector none).handed rijndael noKdf ((oneVector none).after rijndael noKdf row') =
        List.replicate 1 ((sqnVal lastSqnMs + 64) % 2 ^ 48)) ∧
    (oneVector (some (autsBuffer (List.ofFn lastAuts)))).handed rijndael noKdf zeroRow =
      [(sqnVal lastSqnMs + 32) % 2 ^ 48] ∧
    (oneVector none).handed rijndael noKdf
        ((oneVector (some (autsBuffer (List.ofFn lastAuts)))).after rijndael noKdf zeroRow) =
      List.replicate 1 ((sqnVal lastSqnMs + 64) % 2 ^ 48) :=
  resync_paths_agree rijndael noKdf zeroRow (List.ofFn lastAuts) (bytes2hex lastAuts) lastSqnMs
    (.inl List.length_ofFn) (parsehex_bytes2hex lastAuts) spells_lastAuts 0 (fun _ => 7)
    (fun _ _ _ => 0) (oneVector none) (oneVector none)
    (oneVector (some (autsBuffer (List.ofFn lastAuts)))) (oneVector none) (fun _ => 0)
    ⟨rfl, rfl⟩ rfl
    ⟨getAuts_lastAuts.symm, rfl⟩ rfl

end OpenairHss.Air
