import OpenairHss.Air.Vectors
import Mathlib.Data.List.Pairwise

/-!
# AIRs one after another

A run of AIRs for one subscriber, each finished before the next is read.  `serve` is what one of
them does to the subscriber's row and to the list of SQNs handed out; the database may fail to
give the row, or lose the update that follows the answer.

`Fresh` is what the SQNs are for: they increase strictly, and the stored one is above all of them.
The run keeps it exactly when every AIR that hands out vectors hands out one and has its update
stored (`fresh_iff`): the vector loop never changes the SQN.
-/

namespace OpenairHss.Air

open ByteVec Hsssec DataAccess

/-- How the database deals with an AIR. -/
inductive DbOutcome
  /-- `getImsiSec` fails or finds nothing: the AIR is answered with an error. -/
  | noData
  /-- The row is read; the update after the answer is stored or lost. -/
  | data (stored : Bool)
  deriving DecidableEq

/-- An AIR without Re-Synchronization-Info, with what the machine adds to it. -/
structure Request (R : Type) where
  numVectors : Nat
  plmn : Bytes 3
  rands : Nat → Bytes 16
  m_vector : Nat → AucVector
  table : R
  sqn_nb : Int
  outcome : DbOutcome

structure Served where
  row : SecRow
  handed : List Nat

section

variable {R : Type} (cipher : BlockCipher R)
  (kdf : List (BitVec 8) → List (BitVec 8) → Bytes 32)

/-- One AIR, from its first query to its last. -/
def serve (s : Served) (r : Request R) : Served :=
  match r.outcome, getImsiSecData r.sqn_nb (some s.row) with
  | .data stored, some sec =>
    let out := cipher.alone (phase2 kdf sec none r.plmn r.numVectors r.rands r.m_vector) r.table
    { row := if stored then updateRandSqn out.rand out.sec.sqn true s.row else s.row
      handed := s.handed ++ out.vectors.map (carriedSqn cipher sec) }
  | _, _ => s

/-- The SQNs handed out increase strictly and the stored SQN is above them. -/
def Fresh (s : Served) : Prop :=
  s.handed.Pairwise (· < ·) ∧ ∀ v ∈ s.handed, ∃ m : Nat, s.row.sqn = some (m : Int) ∧ v < m

/-- The condition on one AIR. -/
def Request.SingleAndStored (r : Request R) : Prop :=
  r.outcome = .noData ∨ r.numVectors = 1 ∧ r.outcome = .data true

/-- What an AIR that is answered with vectors does, in numbers. -/
theorem serve_data {s : Served} {r : Request R} {stored : Bool} {m : Nat}
    (hr : r.outcome = .data stored) (hm : s.row.sqn = some (m : Int)) (hlt : m < 2 ^ 48) :
    (serve cipher kdf s r).handed = s.handed ++ List.replicate r.numVectors m ∧
      (serve cipher kdf s r).row.sqn = some ((if stored then m + 32 else m : Nat) : Int) := by
  have hv : sqnVal (sqnOfNb (BitVec.ofInt 64 (m : Int))) = m := by
    rw [sqnVal_sqnOfNb, Nat.mod_eq_of_lt hlt]
  obtain ⟨sec, hsec, hsqn⟩ : ∃ sec, getImsiSecData r.sqn_nb (some s.row) = some sec ∧
      sqnVal sec.sqn = m := by
    refine ⟨_, rfl, ?_⟩
    simp only [hm, Option.getD_some]
    exact hv
  obtain ⟨hvec, hout⟩ := carriedSqn_vectors cipher kdf sec r.plmn r.numVectors r.rands r.m_vector
    r.table
  unfold serve
  rw [hr, hsec]
  simp only [hvec, hsqn, true_and]
  cases stored with
  | false => simpa using hm
  | true =>
    have h := sqnText_eq sec.sqn true
    rw [if_pos rfl, hsqn] at h
    simp only [if_true, updateRandSqn, hout, h]

theorem serve_noData {s : Served} {r : Request R} (hr : r.outcome = .noData) :
    serve cipher kdf s r = s := by
  unfold serve
  rw [hr]

/-- A request that meets the condition keeps `Fresh` and moves the stored SQN by at most 32. -/
theorem fresh_serve {s : Served} {r : Request R} {m : Nat} (hf : Fresh s)
    (hm : s.row.sqn = some (m : Int)) (hlt : m < 2 ^ 48) (hr : r.SingleAndStored) :
    Fresh (serve cipher kdf s r) := by
  rcases hr with hr | ⟨hn, hr⟩
  · rwa [serve_noData cipher kdf hr]
  · obtain ⟨hh, hrow⟩ := serve_data cipher kdf hr hm hlt
    rw [hn, List.replicate_one] at hh
    have hall : ∀ v ∈ s.handed, v < m := by
      intro v hv
      obtain ⟨m', hm', hlt'⟩ := hf.2 v hv
      rw [hm, Option.some.injEq, Int.natCast_inj] at hm'
      omega
    refine ⟨?_, fun v hv => ⟨m + 32, by simpa using hrow, ?_⟩⟩
    · rw [hh, List.pairwise_append]
      exact ⟨hf.1, List.pairwise_singleton _ _, fun a ha b hb => by
        rw [List.mem_singleton.mp hb]; exact hall a ha⟩
    · rw [hh] at hv
      rcases List.mem_append.mp hv with hv | hv
      · have := hall v hv
        omega
      · have := List.mem_singleton.mp hv
        omega

/-- A request that breaks the condition breaks `Fresh`. -/
theorem not_fresh_serve {s : Served} {r : Request R} {m : Nat}
    (hm : s.row.sqn = some (m : Int)) (hlt : m < 2 ^ 48) (hpos : 1 ≤ r.numVectors)
    (hr : ¬ r.SingleAndStored) : ¬ Fresh (serve cipher kdf s r) := by
  intro hf
  cases ho : r.outcome with
  | noData => exact hr (Or.inl ho)
  | data stored =>
    obtain ⟨hh, hrow⟩ := serve_data cipher kdf ho hm hlt
    have hmem : m ∈ (serve cipher kdf s r).handed := by
      rw [hh]
      exact List.mem_append_right _ (List.mem_replicate.mpr ⟨by omega, rfl⟩)
    have hone : r.numVectors = 1 := by
      have hp := (List.pairwise_append.mp (hh ▸ hf.1)).2.1
      by_contra hne
      obtain ⟨k, hk⟩ : ∃ k, r.numVectors = k + 2 := ⟨r.numVectors - 2, by omega⟩
      rw [hk, List.replicate_succ, List.replicate_succ, List.pairwise_cons] at hp
      exact absurd (hp.1 m List.mem_cons_self) (lt_irrefl m)
    have hst : stored = true := by
      obtain ⟨m', hm', hlt'⟩ := hf.2 m hmem
      rw [hrow, Option.some.injEq, Int.natCast_inj] at hm'
      cases stored with
      | false => rw [if_neg (by decide)] at hm'; omega
      | true => rfl
    exact hr (Or.inr ⟨hone, by rw [ho, hst]⟩)

/-- The stored SQN after a run is at most 32 higher for every AIR of it. -/
theorem stored_le (rs : List (Request R)) :
    ∀ (s : Served) (m : Nat), s.row.sqn = some (m : Int) → m + 32 * rs.length < 2 ^ 48 →
      ∃ m' : Nat, (rs.foldl (serve cipher kdf) s).row.sqn = some (m' : Int) ∧
        m' ≤ m + 32 * rs.length := by
  induction rs with
  | nil => intro s m hm _; exact ⟨m, hm, by simp⟩
  | cons r rs ih =>
    intro s m hm hlt
    rw [List.length_cons] at hlt ⊢
    rw [List.foldl_cons]
    cases ho : r.outcome with
    | noData =>
      rw [serve_noData cipher kdf ho]
      obtain ⟨m', h1, h2⟩ := ih s m hm (by omega)
      exact ⟨m', h1, by omega⟩
    | data stored =>
      obtain ⟨_, hrow⟩ := serve_data cipher kdf ho hm (by omega)
      obtain ⟨m', h1, h2⟩ := ih _ _ hrow (by split <;> omega)
      exact ⟨m', h1, by split at h2 <;> omega⟩

/-- **AIRs one after another hand out fresh SQNs exactly when** each of them that hands out
vectors asks for one vector and has its update stored. -/
theorem fresh_iff (rs : List (Request R)) (row : SecRow) (m : Nat)
    (hm : row.sqn = some (m : Int)) (hlt : m + 32 * rs.length < 2 ^ 48)
    (hn : ∀ r ∈ rs, 1 ≤ r.numVectors ∧ r.numVectors ≤ authMaxEutranVectors) :
    (∀ k ≤ rs.length, Fresh ((rs.take k).foldl (serve cipher kdf) ⟨row, []⟩)) ↔
      ∀ r ∈ rs, r.SingleAndStored := by
  have hstate : ∀ k ≤ rs.length, ∃ m' : Nat,
      ((rs.take k).foldl (serve cipher kdf) ⟨row, []⟩).row.sqn = some (m' : Int) ∧
        m' < 2 ^ 48 := by
    intro k hk
    have hl : (rs.take k).length = k := by simp [hk]
    obtain ⟨m', h1, h2⟩ := stored_le cipher kdf (rs.take k) ⟨row, []⟩ m hm (by omega)
    exact ⟨m', h1, by omega⟩
  have hsucc : ∀ (k : Nat) (h : k < rs.length),
      (rs.take (k + 1)).foldl (serve cipher kdf) ⟨row, []⟩
        = serve cipher kdf ((rs.take k).foldl (serve cipher kdf) ⟨row, []⟩) rs[k] := by
    intro k h
    rw [List.take_succ_eq_append_getElem h, List.foldl_append]
    rfl
  constructor
  · intro hf r hr
    obtain ⟨k, hk, rfl⟩ := List.mem_iff_getElem.mp hr
    obtain ⟨m', h1, h2⟩ := hstate k (by omega)
    by_contra hbad
    have := hf (k + 1) (by omega)
    rw [hsucc k hk] at this
    exact not_fresh_serve cipher kdf h1 h2 (hn _ hr).1 hbad this
  · intro hall k
    induction k with
    | zero => intro _; exact ⟨List.Pairwise.nil, by simp⟩
    | succ k ih =>
      intro hk
      obtain ⟨m', h1, h2⟩ := hstate k (by omega)
      rw [hsucc k (by omega)]
      exact fresh_serve cipher kdf (ih (by omega)) h1 h2 (hall _ (List.getElem_mem _))

end

/-! ### Two AIRs on a fixed cipher -/

/-- The cipher that adds the key. -/
def xorCipher : BlockCipher (Bytes 16) where
  schedule := id
  encrypt key input := fun i => key i ^^^ input i

/-- An AIR for `n` vectors that reads the row and stores its update. -/
def plainRequest (n : Nat) : Request (Bytes 16) where
  numVectors := n
  plmn := fun _ => 0
  rands := fun _ _ => 0
  m_vector := fun _ => ⟨fun _ => 0, 0, fun _ => 0, fun _ => 0, fun _ => 0⟩
  table := fun _ => 0
  sqn_nb := 0
  outcome := .data true

/-- A row whose stored SQN is 32. -/
def plainRow : SecRow := ⟨some "", some 32, some "", some ""⟩

theorem fresh_two_single :
    plainRow.sqn = some 32 ∧ ∀ k ≤ 2, Fresh (([plainRequest 1, plainRequest 1].take k).foldl
      (serve xorCipher fun _ _ _ => 0) ⟨plainRow, []⟩) := by
  refine ⟨rfl, (fresh_iff xorCipher (fun _ _ _ => 0) [plainRequest 1, plainRequest 1] plainRow 32
    rfl (by decide) (by decide)).mpr ?_⟩
  intro r hr
  have hplain : r = plainRequest 1 := by simpa using hr
  exact Or.inr ⟨by rw [hplain]; rfl, by rw [hplain]; rfl⟩

/-- One AIR for two vectors: both carry 32. -/
theorem not_fresh_pair :
    ¬ ∀ (rs : List (Request (Bytes 16))) (row : SecRow) (m : Nat), row.sqn = some (m : Int) →
      m + 32 * rs.length < 2 ^ 48 →
      (∀ r ∈ rs, 1 ≤ r.numVectors ∧ r.numVectors ≤ authMaxEutranVectors) →
      ∀ k ≤ rs.length, Fresh ((rs.take k).foldl (serve xorCipher fun _ _ _ => 0) ⟨row, []⟩) := by
  intro h
  have hf := h [plainRequest 2] plainRow 32 rfl (by decide) (by decide) 1 (by decide)
  have ho : (plainRequest 2).outcome = .data true := rfl
  obtain ⟨hh, _⟩ := serve_data xorCipher (fun _ _ _ => 0) (s := ⟨plainRow, []⟩)
    (r := plainRequest 2) (m := 32) ho rfl (by decide)
  have hp : ((serve xorCipher (fun _ _ _ => 0) ⟨plainRow, []⟩ (plainRequest 2)).handed).Pairwise
      (· < ·) := hf.1
  rw [hh] at hp
  revert hp
  decide

end OpenairHss.Air
