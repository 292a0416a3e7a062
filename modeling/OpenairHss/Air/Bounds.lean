import OpenairHss.Air.Processor

/-!
# The member arrays of an AIR

`AIRProcessor::phase2` once more, with every access to the arrays `m_auts` and `m_vector` as an
operation of its own: `phase2_run` says that it computes what `Air.phase2` computes, and
`phase2_log` which elements it touches.

`sqn_ms_derive` reads 30 bytes, and the last index is `m_num_vectors - 1` on 32 bits.  `phase1` asks
for neither, so `phase2_confined_iff` needs a vector count above zero and a field that is long enough.
-/

namespace OpenairHss.Air

open ByteVec Interact Hsssec DataAccess

/-! ### Accesses as operations -/

/-- An access to an element of a member array. -/
inductive Access
  | m_auts (i : Nat)
  | m_vector (i : Nat)

/-- The calls of the cipher, and the accesses to the member arrays. -/
inductive MemberOp
  | cipher (o : CipherOp)
  | readAuts (i : Nat)
  | readVector (i : Nat)
  | writeVector (i : Nat) (v : AucVector)

def MemberRes : MemberOp → Type
  | .cipher o => CipherRes o
  | .readAuts _ => BitVec 8
  | .readVector _ => AucVector
  | .writeVector _ _ => Unit

/-- Code that touches the member arrays only through its operations. -/
abbrev Members : Type → Type := Prog MemberOp MemberRes

/-- The round keys, the memory at `m_vector`, and the accesses so far. -/
structure Memory (R : Type) where
  table : R
  m_vector : Nat → AucVector
  log : List Access

/-- The byte that is read at an index of `m_auts`; behind the array there are zeroes. -/
def autsAt (m_auts : Bytes 31) (i : Nat) : BitVec 8 := if h : i < 31 then m_auts ⟨i, h⟩ else 0

def exec {R : Type} (c : BlockCipher R) (m_auts : Bytes 31) :
    (o : MemberOp) → Memory R → MemberRes o × Memory R
  | .cipher o, m => ((c.exec o m.table).1, { m with table := (c.exec o m.table).2 })
  | .readAuts i, m => (autsAt m_auts i, { m with log := m.log ++ [.m_auts i] })
  | .readVector i, m => (m.m_vector i, { m with log := m.log ++ [.m_vector i] })
  | .writeVector i v, m =>
    ((), { m with m_vector := Function.update m.m_vector i v, log := m.log ++ [.m_vector i] })

namespace Members

/-- Code that touches no member array. -/
def calls {α : Type} (p : Cipher α) : Members α := p.handle fun o => Prog.perform (MemberOp.cipher o)

def readVector (i : Nat) : Members AucVector := Prog.perform (MemberOp.readVector i)

def writeVector (i : Nat) (v : AucVector) : Members Unit := Prog.perform (MemberOp.writeVector i v)

def autsByte (i : Nat) : Members (BitVec 8) := Prog.perform (MemberOp.readAuts i)

/-- The bytes of `m_auts` from `start`, one after the other. -/
def readAuts (start : Nat) : (n : Nat) → Members (Bytes n)
  | 0 => return fun i => i.elim0
  | n + 1 => do
    let bytes ← readAuts start n
    let b ← autsByte (start + n)
    return fun i => if h : i < n then bytes ⟨i, h⟩ else b

/-! ### Phase 2 -/

section

variable (kdf : List (BitVec 8) → List (BitVec 8) → Bytes 32)

/-- `sqn_ms_derive` of `&auts[0]`; `print_buffer` reads what it prints. -/
def sqnMsDerive (opc key rand : Bytes 16) : Members (Option (Bytes 6)) := do
  let ak ← calls (f5star opc key rand)
  let conc_sqn_ms ← readAuts 16 6
  let sqn_ms : Bytes 6 := forLoop 6 (fun i s => Function.update s i (ak i ^^^ conc_sqn_ms i))
    (fun _ => 0)
  -- print_buffer (auts, 14 + 16); print_buffer (mac_s, 8)
  let _ ← readAuts 0 (14 + 16)
  let _ ← readAuts (6 + 16) 8
  let mac_s_computed ← calls (f1star opc key rand sqn_ms (fun _ => 0))
  -- memcmp (mac_s_computed, mac_s, 8)
  let mac_s ← readAuts (6 + 16) 8
  if mac_s_computed ≠ mac_s then return none else return some sqn_ms

/-- The branch `if (m_auts_set)`. -/
def resync (sec : ImsiSec) (m_auts_set : Bool) : Members ImsiSec := do
  if m_auts_set then
    let sqn ← sqnMsDerive sec.opc sec.key sec.rand
    match sqn with
    | some sqn => return { sec with sqn := u64ToSqn (sqnToU64 sqn + 32) }
    | none => return sec
  else return sec

/-- The loop that generates the vectors, from index `i`, with `todo` rounds to go. -/
def vectorLoop (sec : ImsiSec) (plmn : Bytes 3) (rands : Nat → Bytes 16) :
    (todo i : Nat) → Members Unit
  | 0, _ => return ()
  | todo + 1, i => do
    let v ← readVector i
    let v ← calls (generateVector kdf sec.opc sec.key plmn sec.sqn { v with rand := rands i })
    writeVector i v
    vectorLoop sec plmn rands todo (i + 1)

/-- The loop that adds the vectors to the answer. -/
def answerLoop : (todo i : Nat) → Members (List AucVector)
  | 0, _ => return []
  | todo + 1, i => do
    let v ← readVector i
    let vectors ← answerLoop todo (i + 1)
    return v :: vectors

/-- `AIRProcessor::phase2` after the security data was found. -/
def phase2 (sec : ImsiSec) (m_auts_set : Bool) (plmn : Bytes 3) (m_num_vectors : Nat)
    (rands : Nat → Bytes 16) : Members Phase2Out := do
  let sec ← resync sec m_auts_set
  vectorLoop kdf sec plmn rands m_num_vectors 0
  let first ← readVector 0
  let vectors ← answerLoop m_num_vectors 0
  let last ← readVector ((m_num_vectors + 2 ^ 32 - 1) % 2 ^ 32)
  return { vectors, sec := { sec with rand := first.rand }, rand := last.rand }

end

/-! ### What it computes, and what it touches -/

section

variable {R : Type} (cipher : BlockCipher R)
  (kdf : List (BitVec 8) → List (BitVec 8) → Bytes 32) (m_auts : Bytes 31)

theorem run_readVector (i : Nat) (m : Memory R) : (readVector i).run (exec cipher m_auts) m =
    (m.m_vector i, { m with log := m.log ++ [.m_vector i] }) := rfl

/-- `p` leaves `m_vector` as it is, makes the accesses `l`, and does for the rest what `q` does. -/
def Mirrors {α : Type} (p : Members α) (q : Cipher α) (l : List Access) : Prop :=
  ∀ m : Memory R, p.run (exec cipher m_auts) m =
    (cipher.alone q m.table,
      { m with table := (q.run cipher.exec m.table).2, log := m.log ++ l })

variable {cipher m_auts} in
theorem Mirrors.bind {α β : Type} {p : Members α} {q : Cipher α} {f : α → Members β}
    {g : α → Cipher β} {l l' : List Access} (hp : Mirrors cipher m_auts p q l)
    (hf : ∀ a, Mirrors cipher m_auts (f a) (g a) l') :
    Mirrors cipher m_auts (p.bind f) (q.bind g) (l ++ l') := by
  intro m
  rw [Prog.run_bind, hp m, hf, alone_bind, Prog.run_bind, List.append_assoc]
  rfl

theorem mirrors_ret {α : Type} (a : α) : Mirrors cipher m_auts (.ret a) (.ret a) [] := by
  intro m
  rw [List.append_nil]
  rfl

theorem mirrors_calls {α : Type} (p : Cipher α) : Mirrors cipher m_auts (calls p) p [] := by
  intro m
  rw [List.append_nil]
  induction p generalizing m with
  | ret a => rfl
  | op o k ih => exact ih _ _

/-- The accesses to `n` bytes of `m_auts` from `start`. -/
def autsAccesses (start n : Nat) : List Access := (List.range n).map fun i => .m_auts (start + i)

theorem mirrors_autsByte (i : Nat) :
    Mirrors cipher m_auts (autsByte i) (.ret (autsAt m_auts i)) [.m_auts i] := fun _ => rfl

theorem mirrors_readAuts (start n : Nat) (hn : start + n ≤ 31) :
    Mirrors cipher m_auts (readAuts start n)
      (.ret fun i : Fin n => m_auts ⟨start + i, by omega⟩) (autsAccesses start n) := by
  induction n with
  | zero =>
    have hv : (fun i : Fin 0 => m_auts ⟨start + i, by omega⟩) = fun i : Fin 0 => i.elim0 :=
      funext fun i : Fin 0 => i.elim0
    rw [hv]
    exact mirrors_ret cipher m_auts fun i : Fin 0 => i.elim0
  | succ n ih =>
    have h := (ih (by omega)).bind fun bytes =>
      (mirrors_autsByte cipher m_auts (start + n)).bind fun b =>
        mirrors_ret cipher m_auts fun i : Fin (n + 1) => if h : i < n then bytes ⟨i, h⟩ else b
    have hl : autsAccesses start (n + 1) = autsAccesses start n ++ ([.m_auts (start + n)] ++ []) := by
      simp only [autsAccesses, List.range_succ, List.map_append, List.map_cons, List.map_nil,
        List.append_nil]
    have hv : (fun i : Fin (n + 1) => m_auts ⟨start + i, by omega⟩) = fun i : Fin (n + 1) =>
        if _h : i < n then m_auts ⟨start + i, by omega⟩ else autsAt m_auts (start + n) := by
      funext i
      by_cases hi : (i : Nat) < n
      · rw [dif_pos hi]
      · have hin : (i : Nat) = n := by omega
        rw [dif_neg hi, autsAt, dif_pos (by omega)]
        simp only [hin]
    rw [hl, hv]
    exact h

variable {cipher m_auts} in
/-- Reading bytes of the array, and going on with them. -/
theorem Mirrors.readAuts_bind {β : Type} {start n : Nat} (hn : start + n ≤ 31)
    {f : Bytes n → Members β} {q : Cipher β} {l : List Access}
    (hf : Mirrors cipher m_auts (f fun i : Fin n => m_auts ⟨start + i, by omega⟩) q l) :
    Mirrors cipher m_auts ((readAuts start n).bind f) q (autsAccesses start n ++ l) := by
  intro m
  rw [Prog.run_bind, mirrors_readAuts cipher m_auts start n hn m, ← List.append_assoc]
  exact hf _

variable {cipher m_auts} in
/-- A call, and going on with its result. -/
theorem Mirrors.calls_bind {α β : Type} {p : Cipher α} {f : α → Members β} {g : α → Cipher β}
    {l : List Access} (hf : ∀ a, Mirrors cipher m_auts (f a) (g a) l) :
    Mirrors cipher m_auts ((calls p).bind f) (p.bind g) l :=
  (mirrors_calls cipher m_auts p).bind hf

/-- The accesses of `sqn_ms_derive`. -/
def deriveAccesses : List Access :=
  autsAccesses 16 6 ++ (autsAccesses 0 30 ++ (autsAccesses 22 8 ++ (autsAccesses 22 8 ++ [])))

theorem mirrors_sqnMsDerive (opc key rand : Bytes 16) :
    Mirrors cipher m_auts (sqnMsDerive opc key rand) (Hsssec.sqnMsDerive opc key m_auts rand)
      deriveAccesses := by
  refine Mirrors.calls_bind fun ak => Mirrors.readAuts_bind (by decide) ?_
  refine Mirrors.readAuts_bind (by decide) (Mirrors.readAuts_bind (by decide) ?_)
  refine Mirrors.calls_bind fun mac_s_computed => Mirrors.readAuts_bind (by decide) ?_
  split
  · exact mirrors_ret cipher m_auts none
  · exact mirrors_ret cipher m_auts (some _)

/-- The accesses of the branch `if (m_auts_set)`. -/
def resyncAccesses (m_auts_set : Bool) : List Access := if m_auts_set then deriveAccesses else []

theorem mirrors_resync (sec : ImsiSec) (m_auts_set : Bool) :
    Mirrors cipher m_auts (resync sec m_auts_set)
      (Air.resync sec (if m_auts_set then some m_auts else none)) (resyncAccesses m_auts_set) := by
  cases m_auts_set with
  | false => exact mirrors_ret cipher m_auts sec
  | true =>
    have h : resyncAccesses true = deriveAccesses ++ [] := by
      rw [List.append_nil, resyncAccesses, if_pos rfl]
    rw [h]
    refine (mirrors_sqnMsDerive cipher m_auts sec.opc sec.key sec.rand).bind fun sqn => ?_
    cases sqn with
    | none => exact mirrors_ret cipher m_auts sec
    | some sqn => exact mirrors_ret cipher m_auts _

/-- The accesses of the loop that generates the vectors. -/
def loopAccesses (i todo : Nat) : List Access :=
  (List.range' i todo).flatMap fun j => [.m_vector j, .m_vector j]

theorem run_vectorLoop (sec : ImsiSec) (plmn : Bytes 3) (rands : Nat → Bytes 16) (todo i : Nat)
    (m : Memory R) :
    (vectorLoop kdf sec plmn rands todo i).run (exec cipher m_auts) m = ((), {
      table := ((Air.vectorLoop kdf sec plmn rands todo i m.m_vector).run cipher.exec m.table).2
      m_vector := cipher.alone (Air.vectorLoop kdf sec plmn rands todo i m.m_vector) m.table
      log := m.log ++ loopAccesses i todo }) := by
  induction todo generalizing i m with
  | zero =>
    rw [loopAccesses, List.range'_zero, List.flatMap_nil, List.append_nil]
    rfl
  | succ todo ih =>
    have hround : (vectorLoop kdf sec plmn rands (todo + 1) i).run (exec cipher m_auts) m =
        (vectorLoop kdf sec plmn rands todo (i + 1)).run (exec cipher m_auts) {
          table := ((generateVector kdf sec.opc sec.key plmn sec.sqn
            { m.m_vector i with rand := rands i }).run cipher.exec m.table).2
          m_vector := Function.update m.m_vector i (cipher.alone (generateVector kdf sec.opc sec.key
            plmn sec.sqn { m.m_vector i with rand := rands i }) m.table)
          log := m.log ++ [.m_vector i, .m_vector i] } := by
      have hlog : m.log ++ [Access.m_vector i, .m_vector i] =
          m.log ++ [.m_vector i] ++ [] ++ [.m_vector i] := by simp
      rw [vectorLoop, Prog.bind_eq, Prog.run_bind, Prog.bind_eq, Prog.run_bind,
        mirrors_calls cipher m_auts _ _, hlog]
      rfl
    rw [hround, ih, loopAccesses, loopAccesses, List.range'_succ, List.flatMap_cons,
      ← List.append_assoc]
    simp only [Air.vectorLoop, Prog.bind_eq, Prog.run_bind, alone_bind]
    rfl

theorem run_answerLoop (todo i : Nat) (m : Memory R) :
    (answerLoop todo i).run (exec cipher m_auts) m = ((List.range' i todo).map m.m_vector,
      { m with log := m.log ++ (List.range' i todo).map .m_vector }) := by
  induction todo generalizing i m with
  | zero =>
    rw [List.range'_zero, List.map_nil, List.map_nil, List.append_nil]
    rfl
  | succ todo ih =>
    have hround : (answerLoop (todo + 1) i).run (exec cipher m_auts) m =
        (m.m_vector i :: ((answerLoop todo (i + 1)).run (exec cipher m_auts)
          { m with log := m.log ++ [.m_vector i] }).1,
        ((answerLoop todo (i + 1)).run (exec cipher m_auts)
          { m with log := m.log ++ [.m_vector i] }).2) := by
      rw [answerLoop, Prog.bind_eq, Prog.run_bind, Prog.bind_eq, Prog.run_bind]
      rfl
    rw [hround, ih, List.range'_succ, List.map_cons, List.map_cons, List.append_assoc,
      List.singleton_append]

/-- The accesses of `phase2`. -/
def accesses (m_auts_set : Bool) (m_num_vectors : Nat) : List Access :=
  resyncAccesses m_auts_set ++ loopAccesses 0 m_num_vectors ++ [.m_vector 0] ++
    (List.range' 0 m_num_vectors).map .m_vector ++ [.m_vector ((m_num_vectors + 2 ^ 32 - 1) % 2 ^ 32)]

/-- **It computes what `Air.phase2` computes**, and makes its accesses. -/
theorem phase2_run (sec : ImsiSec) (m_auts_set : Bool) (plmn : Bytes 3) (m_num_vectors : Nat)
    (rands : Nat → Bytes 16) (m : Memory R) :
    let r := (phase2 kdf sec m_auts_set plmn m_num_vectors rands).run (exec cipher m_auts) m
    r.1 = cipher.alone (Air.phase2 kdf sec (if m_auts_set then some m_auts else none) plmn
        m_num_vectors rands m.m_vector) m.table ∧
      r.2.log = m.log ++ accesses m_auts_set m_num_vectors := by
  have h := mirrors_resync cipher m_auts sec m_auts_set m
  simp only [phase2, Air.phase2, Prog.bind_eq, Prog.pure_eq, Prog.run_bind, Prog.run_ret, h,
    run_vectorLoop, run_readVector, run_answerLoop, alone_bind]
  refine ⟨?_, ?_⟩
  · rw [List.range_eq_range']
    rfl
  · simp only [accesses, List.append_assoc]

end

end Members

/-! ### When the accesses are confined -/

theorem mem_autsAccesses {start k : Nat} {a : Access} :
    a ∈ Members.autsAccesses start k ↔ ∃ i, start ≤ i ∧ i < start + k ∧ a = .m_auts i := by
  simp only [Members.autsAccesses, List.mem_map, List.mem_range]
  constructor
  · rintro ⟨j, hj, rfl⟩
    exact ⟨start + j, by omega, by omega, rfl⟩
  · rintro ⟨i, hle, hlt, rfl⟩
    exact ⟨i - start, by omega, congrArg Access.m_auts (by omega)⟩

theorem mem_resyncAccesses {m_auts_set : Bool} {a : Access} :
    a ∈ Members.resyncAccesses m_auts_set ↔ m_auts_set = true ∧ ∃ i < 30, a = .m_auts i := by
  cases m_auts_set with
  | false => simp [Members.resyncAccesses]
  | true =>
    simp only [Members.resyncAccesses, if_pos, Members.deriveAccesses, List.mem_append,
      mem_autsAccesses, List.not_mem_nil, or_false, true_and]
    constructor
    · rintro (⟨i, -, hi, rfl⟩ | ⟨i, -, hi, rfl⟩ | ⟨i, -, hi, rfl⟩ | ⟨i, -, hi, rfl⟩)
      all_goals exact ⟨i, by omega, rfl⟩
    · rintro ⟨i, hi, rfl⟩
      exact .inr (.inl ⟨i, Nat.zero_le i, by omega, rfl⟩)

theorem mem_loopAccesses {n : Nat} {a : Access} :
    a ∈ Members.loopAccesses 0 n ↔ ∃ i < n, a = .m_vector i := by
  simp only [Members.loopAccesses, List.mem_flatMap, List.mem_range'_1, List.mem_cons,
    List.not_mem_nil, or_false, or_self, Nat.zero_le, true_and, Nat.zero_add]

/-- The accesses of `phase2`, one by one. -/
theorem mem_accesses {m_auts_set : Bool} {n : Nat} {a : Access} :
    a ∈ Members.accesses m_auts_set n ↔ (m_auts_set = true ∧ ∃ i < 30, a = .m_auts i) ∨
      (∃ i < n, a = .m_vector i) ∨ a = .m_vector 0 ∨
        a = .m_vector ((n + 2 ^ 32 - 1) % 2 ^ 32) := by
  have hanswer : a ∈ (List.range' 0 n).map Access.m_vector ↔ ∃ i < n, a = .m_vector i := by
    simp only [List.mem_map, List.mem_range'_1, Nat.zero_le, true_and, Nat.zero_add, eq_comm]
  unfold Members.accesses
  generalize (n + 2 ^ 32 - 1) % 2 ^ 32 = last
  simp only [List.mem_append, mem_resyncAccesses, mem_loopAccesses, hanswer, List.mem_singleton]
  grind

/-- The accesses of a run stay in `m_vector` and in what the AVP gave, and the RAND that is stored
was handed out. -/
structure Confined (req : AirProcessor.Request) (log : List Access) (out : Phase2Out) : Prop where
  m_vector : ∀ i, .m_vector i ∈ log → i < authMaxEutranVectors
  m_auts : ∀ i, .m_auts i ∈ log → ∃ bytes, req.eutran_resync = some bytes ∧ i < bytes.length
  rand : ∃ v ∈ out.vectors, v.rand = out.rand

/-- A vector count above zero, and a Re-Synchronization-Info of full length if there is one. -/
structure CountAndField (req : AirProcessor.Request) : Prop where
  count : ∃ n, req.eutran_vectors = some n ∧ n ≠ 0
  field : ∀ bytes, req.eutran_resync = some bytes → 30 ≤ bytes.length

section

variable {R : Type} (cipher : BlockCipher R)
  (kdf : List (BitVec 8) → List (BitVec 8) → Bytes 32)

/-- The answer has the vectors of the first indices, and the stored RAND is that of one index. -/
theorem phase2_vectors (sec : ImsiSec) (m_auts : Option (Bytes 31)) (plmn : Bytes 3) (n : Nat)
    (rands : Nat → Bytes 16) (m_vector : Nat → AucVector) (table : R) :
    ∃ m : Nat → AucVector,
      (cipher.alone (phase2 kdf sec m_auts plmn n rands m_vector) table).vectors =
        (List.range n).map m ∧
      (cipher.alone (phase2 kdf sec m_auts plmn n rands m_vector) table).rand =
        (m ((n + 2 ^ 32 - 1) % 2 ^ 32)).rand := by
  simp only [phase2, Prog.bind_eq, Prog.pure_eq, alone_bind]
  exact ⟨_, rfl, rfl⟩

/-- What `phase1` has checked, and not checked, when it goes on. -/
theorem phase1Checks_ok {env : AirProcessor.Surroundings R} {req : AirProcessor.Request}
    {sec : ImsiSec} {plmn : Bytes 3} {d : AirProcessor.Data}
    (h : AirProcessor.phase1Checks env req (.init sec plmn) = .ok d) :
    d.num_vectors = req.eutran_vectors.getD 0 ∧ d.num_vectors.toNat ≤ authMaxEutranVectors ∧
      d.auts = AirProcessor.getAuts env.m_auts req.eutran_resync := by
  unfold AirProcessor.phase1Checks at h
  simp only [ite_eq_iff, reduceCtorEq, and_false, false_or] at h
  obtain ⟨-, hcount, -, -, h⟩ := h
  split at h
  case h_2 => cases h
  simp only [ite_eq_iff, reduceCtorEq, and_false, false_or] at h
  obtain rfl := Except.ok.inj h.2
  refine ⟨rfl, ?_, rfl⟩
  -- a count that is absent leaves the 0 of the constructor
  cases hreq : req.eutran_vectors with
  | none => exact Nat.zero_le _
  | some n =>
    rw [hreq] at hcount
    have hle : ¬ n > BitVec.ofNat 32 authMaxEutranVectors := fun hgt => hcount ⟨rfl, hgt⟩
    exact BitVec.le_def.mp (BitVec.not_lt.mp hle)

/-- The run of `phase2` on the data that `phase1` leaves and the security data of a row. -/
def phase2Run (env : AirProcessor.Surroundings R) (d : AirProcessor.Data) (sec : ImsiSec)
    (table : R) : Phase2Out × Memory R :=
  (Members.phase2 kdf sec d.auts.isSome d.plmn_id d.num_vectors.toNat env.rands).run
    (exec cipher (d.auts.getD env.m_auts)) ⟨table, env.m_vector, []⟩

/-- It is the run of `AIRProcessor`, with its accesses. -/
theorem phase2Run_spec (env : AirProcessor.Surroundings R) (d : AirProcessor.Data) (sec : ImsiSec)
    (table : R) :
    (phase2Run cipher kdf env d sec table).1 = cipher.alone (phase2 kdf sec d.auts d.plmn_id
        d.num_vectors.toNat env.rands env.m_vector) table ∧
      (phase2Run cipher kdf env d sec table).2.log =
        Members.accesses d.auts.isSome d.num_vectors.toNat := by
  have h := Members.phase2_run cipher kdf (d.auts.getD env.m_auts) sec d.auts.isSome d.plmn_id
    d.num_vectors.toNat env.rands ⟨table, env.m_vector, []⟩
  have hauts : (if d.auts.isSome then some (d.auts.getD env.m_auts) else none) = d.auts := by
    cases d.auts <;> rfl
  rw [hauts] at h
  exact h

/-- **The accesses are confined exactly if the count is above zero and the field is long enough.**
`phase1` lets an AIR through that gives no count, the count 0 or a shorter field. -/
theorem phase2_confined_iff {env : AirProcessor.Surroundings R} {req : AirProcessor.Request}
    {sec₀ : ImsiSec} {plmn₀ : Bytes 3} {d : AirProcessor.Data}
    (h : AirProcessor.phase1Checks env req (.init sec₀ plmn₀) = .ok d) (sec : ImsiSec) (table : R) :
    Confined req (phase2Run cipher kdf env d sec table).2.log
        (phase2Run cipher kdf env d sec table).1 ↔ CountAndField req := by
  obtain ⟨hn, hmax, hauts⟩ := phase1Checks_ok h
  obtain ⟨hout, hlog⟩ := phase2Run_spec cipher kdf env d sec table
  obtain ⟨m, hvec, hrand⟩ := phase2_vectors cipher kdf sec d.auts d.plmn_id d.num_vectors.toNat
    env.rands env.m_vector table
  have hset : d.auts.isSome = true ↔ ∃ bytes, req.eutran_resync = some bytes ∧ bytes.length ≤ 31 := by
    rw [hauts]
    cases req.eutran_resync with
    | none => simp [AirProcessor.getAuts]
    | some bytes =>
      by_cases hb : bytes.length > 31
      · simp [AirProcessor.getAuts, hb]
      · simpa [AirProcessor.getAuts, hb] using not_lt.mp hb
  rw [hout, hlog]
  constructor
  · intro hc
    refine ⟨?_, fun bytes hbytes => ?_⟩
    · -- without a count, or with the count 0, no vector is handed out
      obtain ⟨v, hv, -⟩ := hc.rand
      rw [hvec, List.mem_map] at hv
      obtain ⟨j, hj, -⟩ := hv
      have hpos : d.num_vectors ≠ 0 := by
        intro h0
        rw [h0] at hj
        exact absurd (List.mem_range.mp hj) (Nat.not_lt_zero j)
      cases hreq : req.eutran_vectors with
      | none => exact absurd (by rw [hn, hreq]; rfl) hpos
      | some n => exact ⟨n, rfl, fun h0 => hpos (by rw [hn, hreq, h0]; rfl)⟩
    · by_contra hshort
      have hread := hc.m_auts 29 (mem_accesses.mpr
        (.inl ⟨hset.mpr ⟨bytes, hbytes, by omega⟩, 29, by decide, rfl⟩))
      obtain ⟨bytes', hbytes', hlt⟩ := hread
      rw [hbytes, Option.some.injEq] at hbytes'
      subst hbytes'
      omega
  · rintro ⟨⟨n, hsome, hpos⟩, hfield⟩
    have hnpos : 0 < d.num_vectors.toNat := by
      rw [hn, hsome, Option.getD_some]
      exact Nat.pos_of_ne_zero fun h0 => hpos (BitVec.eq_of_toNat_eq h0)
    have hlast : (d.num_vectors.toNat + 2 ^ 32 - 1) % 2 ^ 32 = d.num_vectors.toNat - 1 := by
      have := d.num_vectors.isLt
      omega
    unfold authMaxEutranVectors at hmax
    refine ⟨fun i hi => ?_, fun i hi => ?_, m (d.num_vectors.toNat - 1), ?_, ?_⟩
    · rcases mem_accesses.mp hi with ⟨-, j, -, he⟩ | ⟨j, hj, he⟩ | he | he
      · cases he
      · obtain rfl := Access.m_vector.inj he
        unfold authMaxEutranVectors
        omega
      · obtain rfl := Access.m_vector.inj he
        decide
      · rw [hlast] at he
        obtain rfl := Access.m_vector.inj he
        unfold authMaxEutranVectors
        omega
    · rcases mem_accesses.mp hi with ⟨hs, j, hj, he⟩ | ⟨j, hj, he⟩ | he | he
      · obtain rfl := Access.m_auts.inj he
        obtain ⟨bytes, hbytes, -⟩ := hset.mp hs
        exact ⟨bytes, hbytes, lt_of_lt_of_le hj (hfield bytes hbytes)⟩
      all_goals cases he
    · rw [hvec]
      exact List.mem_map.mpr ⟨_, List.mem_range.mpr (by omega), rfl⟩
    · rw [hrand, hlast]

end

/-! ### Two AIRs -/

/-- A machine whose memory holds zeroes, with roaming allowed. -/
def zeroSurroundings : AirProcessor.Surroundings Unit where
  roamallow := true
  u32 := 0
  imsi_hex := fun _ => 0
  m_auts := fun _ => 0
  sqn_nb := 0
  rands := fun _ _ => 0
  m_vector := fun _ => ⟨fun _ => 0, 0, fun _ => 0, fun _ => 0, fun _ => 0⟩
  table := ()

/-- An AIR from the home network, with a vector count and no other AVP. -/
def countedAir (count : Option (BitVec 32)) : AirProcessor.Request where
  auth_session_state := some 1
  user_name := some "208930000000001"
  eutran_vectors := count
  eutran_resync := none
  utran_vectors := none
  utran_resync := none
  visited_plmn_id := some [0x02, 0xf8, 0x39]

def zeroSec : ImsiSec := ⟨fun _ => 0, fun _ => 0, fun _ => 0, fun _ => 0⟩

/-- The block cipher that changes nothing. -/
def plainCipher : BlockCipher Unit := ⟨fun _ => (), fun _ input => input⟩

/-- The data that `phase1` leaves of `countedAir`. -/
def countedData (count : Option (BitVec 32)) : AirProcessor.Data where
  ans := [.origin, .authSessionState 1]
  imsi := "208930000000001"
  num_vectors := count.getD 0
  plmn_id := ![0x02, 0xf8, 0x39]
  auts := none
  sec := zeroSec

theorem phase1Checks_counted_one : AirProcessor.phase1Checks zeroSurroundings (countedAir (some 1))
    (.init zeroSec fun _ => 0) = .ok (countedData (some 1)) := by
  rfl

theorem phase1Checks_counted_none : AirProcessor.phase1Checks zeroSurroundings (countedAir none)
    (.init zeroSec fun _ => 0) = .ok (countedData none) := by
  rfl

theorem confined_iff_one :
    Confined (countedAir (some 1))
        (phase2Run plainCipher (fun _ _ _ => 0) zeroSurroundings (countedData (some 1)) zeroSec
          ()).2.log
        (phase2Run plainCipher (fun _ _ _ => 0) zeroSurroundings (countedData (some 1)) zeroSec
          ()).1 ↔ CountAndField (countedAir (some 1)) :=
  phase2_confined_iff plainCipher (fun _ _ _ => 0) phase1Checks_counted_one zeroSec ()

/-- An AIR without a count is let through, and the last index is `2 ^ 32 - 1`. -/
theorem not_confined :
    ∃ (env : AirProcessor.Surroundings Unit) (req : AirProcessor.Request) (d : AirProcessor.Data)
      (sec : ImsiSec),
      AirProcessor.phase1Checks env req (.init sec fun _ => 0) = .ok d ∧
      ¬ Confined req (phase2Run plainCipher (fun _ _ _ => 0) env d sec ()).2.log
        (phase2Run plainCipher (fun _ _ _ => 0) env d sec ()).1 := by
  refine ⟨_, _, _, _, phase1Checks_counted_none, fun hc => ?_⟩
  have hlog := (phase2Run_spec plainCipher (fun _ _ _ => 0) zeroSurroundings (countedData none)
    zeroSec ()).2
  have hmem := hc.m_vector (2 ^ 32 - 1)
  rw [hlog, mem_accesses] at hmem
  exact absurd (hmem (.inr (.inr (.inr rfl)))) (by decide)

end OpenairHss.Air
