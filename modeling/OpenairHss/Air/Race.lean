import OpenairHss.Air.Freshness
import OpenairHss.Lib.Steps
import Mathlib.Data.Fintype.Card

/-!
# AIRs at the same time

`n` processors serve the same subscriber, each for one vector and without resynchronisation.
A processor reads the row, runs `phase2`, which answers, and then writes the row; the steps of
different processors interleave in any order.  `getImsiSec` and `updateRandSqn` are one step each.

Nothing ties the write to the read: a second processor that reads in between hands out the same
SQN, and both writes store the same value (`lost_update`).  Runs in which no processor reads while
another is between its read and its write, and in which no write is lost, hand out distinct SQNs
and store the sum (`delivered_nodup`).
-/

namespace OpenairHss.Air

open ByteVec Hsssec DataAccess Steps

inductive Stage
  | start
  /-- `getImsiSec` has put the row into `m_sec`. -/
  | read (sec : ImsiSec)
  /-- `phase2` has answered; `updateRandSqn` is on its way. -/
  | answered (rand : Bytes 16) (sqn : Bytes 6)
  | finished

/-- The steps of processor `i`. -/
inductive RaceStep (n : Nat)
  | read (i : Fin n)
  /-- The query gives no row: the AIR is answered with an error. -/
  | readFail (i : Fin n)
  | phase2 (i : Fin n)
  | write (i : Fin n)
  | writeLost (i : Fin n)

/-- What a processor takes from its request and its machine. -/
structure RaceInput (R : Type) where
  plmn : Bytes 3
  rands : Nat → Bytes 16
  m_vector : Nat → AucVector
  table : R
  sqn_nb : Int

structure Race (n : Nat) where
  row : SecRow
  stage : Fin n → Stage
  delivered : List Nat

/-- A state in which no processor has begun. -/
def Race.init (n : Nat) (row : SecRow) : Race n := ⟨row, fun _ => .start, []⟩

section

variable {R : Type} (cipher : BlockCipher R)
  (kdf : List (BitVec 8) → List (BitVec 8) → Bytes 32) {n : Nat} (input : Fin n → RaceInput R)

def Race.exec (s : Race n) : RaceStep n → Option (Race n)
  | .read i => match s.stage i, getImsiSecData (input i).sqn_nb (some s.row) with
    | .start, some sec => some { s with stage := Function.update s.stage i (.read sec) }
    | _, _ => none
  | .readFail i => match s.stage i with
    | .start => some { s with stage := Function.update s.stage i .finished }
    | _ => none
  | .phase2 i => match s.stage i with
    | .read sec =>
      let out := cipher.alone (phase2 kdf sec none (input i).plmn 1 (input i).rands
        (input i).m_vector) (input i).table
      some { s with
        stage := Function.update s.stage i (.answered out.rand out.sec.sqn)
        delivered := s.delivered ++ out.vectors.map (carriedSqn cipher sec) }
    | _ => none
  | .write i => match s.stage i with
    | .answered rand sqn => some { s with
        row := updateRandSqn rand sqn true s.row
        stage := Function.update s.stage i .finished }
    | _ => none
  | .writeLost i => match s.stage i with
    | .answered _ _ => some { s with stage := Function.update s.stage i .finished }
    | _ => none

/-- A processor that is not between its read and its write. -/
def Stage.Idle : Stage → Prop
  | .start | .finished => True
  | .read _ | .answered _ _ => False

/-- A processor whose `phase2` or whose error answer is behind it. -/
def Stage.past : Stage → Bool
  | .start | .read _ => false
  | .answered _ _ | .finished => true

/-- A read is taken only when every processor is idle, and no write is lost. -/
def Exclusive (s : Race n) : RaceStep n → Prop
  | .read _ => ∀ j, (s.stage j).Idle
  | .writeLost _ => False
  | _ => True

/-! ### What a step does -/

/-- The SQNs handed out by the first `k` deliveries, from a stored `n0`. -/
def sqnsFrom (n0 k : Nat) : List Nat := (List.range k).map fun j => (n0 + 32 * j) % 2 ^ 48

theorem sqnsFrom_succ (n0 k : Nat) :
    sqnsFrom n0 (k + 1) = sqnsFrom n0 k ++ [(n0 + 32 * k) % 2 ^ 48] := by
  unfold sqnsFrom
  rw [List.range_succ, List.map_append]
  rfl

theorem sqnsFrom_nodup {n0 k : Nat} (hk : k ≤ 2 ^ 43) : (sqnsFrom n0 k).Nodup := by
  refine (List.nodup_map_iff_inj_on List.nodup_range).mpr ?_
  intro a ha b hb h
  rw [List.mem_range] at ha hb
  omega

/-- The number of processors whose answer is behind them. -/
def Race.pastCount (s : Race n) : Nat := (Finset.univ.filter fun i => (s.stage i).past).card

theorem pastCount_mono {s t : Race n} {i : Fin n} {x : Stage}
    (ht : t.stage = Function.update s.stage i x) (hx : (s.stage i).past → x.past) :
    s.pastCount ≤ t.pastCount := by
  refine Finset.card_le_card fun j hj => ?_
  simp only [Finset.mem_filter, Finset.mem_univ, true_and] at hj ⊢
  rw [ht]
  by_cases hji : j = i
  · subst hji
    rw [Function.update_self]
    exact hx hj
  · rwa [Function.update_of_ne hji]

theorem pastCount_succ {s t : Race n} {i : Fin n} {x : Stage}
    (ht : t.stage = Function.update s.stage i x) (hs : (s.stage i).past = false)
    (hx : x.past = true) : s.pastCount + 1 ≤ t.pastCount := by
  refine Finset.card_lt_card ⟨fun j hj => ?_, fun h => ?_⟩
  · simp only [Finset.mem_filter, Finset.mem_univ, true_and] at hj ⊢
    rw [ht]
    by_cases hji : j = i
    · subst hji
      rw [hs] at hj
      exact absurd hj (by decide)
    · rwa [Function.update_of_ne hji]
  · have : i ∈ Finset.univ.filter fun j => (t.stage j).past := by
      simp only [Finset.mem_filter, Finset.mem_univ, true_and]
      rw [ht, Function.update_self, hx]
    have := h this
    simp only [Finset.mem_filter, Finset.mem_univ, true_and, hs] at this
    exact absurd this (by decide)

/-- Where the one processor that is not idle stands, against the SQN `v` that comes next. -/
inductive Turn (v : Nat → Nat) (s : Race n) (k : Nat) : Prop
  | free (m : Nat) (idle : ∀ j, (s.stage j).Idle) (stored : s.row.sqn = some (m : Int))
      (next : m % 2 ^ 48 = v k)
  | reading (i : Fin n) (sec : ImsiSec) (here : s.stage i = .read sec)
      (idle : ∀ j, j ≠ i → (s.stage j).Idle) (next : sqnVal sec.sqn = v k)
  | writing (i : Fin n) (rand : Bytes 16) (sqn : Bytes 6) (here : s.stage i = .answered rand sqn)
      (idle : ∀ j, j ≠ i → (s.stage j).Idle) (j : Nat) (hj : k = j + 1)
      (last : sqnVal sqn = v j)

/-- The invariant of exclusive runs. -/
structure RaceInv (n0 : Nat) (s : Race n) : Prop where
  delivered : s.delivered = sqnsFrom n0 s.delivered.length
  count : s.delivered.length ≤ s.pastCount
  turn : Turn (fun k => (n0 + 32 * k) % 2 ^ 48) s s.delivered.length

theorem idle_update {s : Race n} {i : Fin n} {x : Stage} {p : Fin n → Prop}
    (h : ∀ j, j ≠ i → p j → (s.stage j).Idle) (hx : p i → x.Idle) (j : Fin n) (hj : p j) :
    (Function.update s.stage i x j).Idle := by
  by_cases hji : j = i
  · subst hji
    rw [Function.update_self]
    exact hx hj
  · rw [Function.update_of_ne hji]
    exact h j hji hj

/-- The only processor that is not idle is the one whose stage is not idle. -/
theorem eq_of_not_idle {s : Race n} {i j : Fin n} (h : ∀ j, j ≠ i → (s.stage j).Idle)
    (hj : ¬ (s.stage j).Idle) : j = i := by
  by_contra hne
  exact hj (h j hne)

/-- What one step can do. -/
theorem exec_cases {s t : Race n} {l : RaceStep n} (h : s.exec cipher kdf input l = some t) :
    (∃ i sec, l = .read i ∧ s.stage i = .start ∧
      getImsiSecData (input i).sqn_nb (some s.row) = some sec ∧
      t = { s with stage := Function.update s.stage i (.read sec) }) ∨
    (∃ i, l = .readFail i ∧ s.stage i = .start ∧
      t = { s with stage := Function.update s.stage i .finished }) ∨
    (∃ i sec rand, l = .phase2 i ∧ s.stage i = .read sec ∧
      t = { s with
        stage := Function.update s.stage i (.answered rand sec.sqn)
        delivered := s.delivered ++ [sqnVal sec.sqn] }) ∨
    (∃ i rand sqn, l = .write i ∧ s.stage i = .answered rand sqn ∧
      t = { s with
        row := updateRandSqn rand sqn true s.row
        stage := Function.update s.stage i .finished }) ∨
    (∃ i rand sqn, l = .writeLost i ∧ s.stage i = .answered rand sqn ∧
      t = { s with stage := Function.update s.stage i .finished }) := by
  cases l with
  | read i =>
    simp only [Race.exec] at h
    split at h
    · rename_i sec hst hsec
      exact Or.inl ⟨i, sec, rfl, hst, hsec, (Option.some.inj h).symm⟩
    · exact absurd h (by simp)
  | readFail i =>
    simp only [Race.exec] at h
    split at h
    · rename_i hst
      exact Or.inr (Or.inl ⟨i, rfl, hst, (Option.some.inj h).symm⟩)
    · exact absurd h (by simp)
  | phase2 i =>
    simp only [Race.exec] at h
    split at h
    · rename_i sec hst
      obtain ⟨hv, hs⟩ := carriedSqn_vectors cipher kdf sec (input i).plmn 1 (input i).rands
        (input i).m_vector (input i).table
      rw [hv, hs] at h
      exact Or.inr (Or.inr (Or.inl ⟨i, sec, _, rfl, hst, (Option.some.inj h).symm⟩))
    · exact absurd h (by simp)
  | write i =>
    simp only [Race.exec] at h
    split at h
    · rename_i rand sqn hst
      exact Or.inr (Or.inr (Or.inr (Or.inl ⟨i, rand, sqn, rfl, hst, (Option.some.inj h).symm⟩)))
    · exact absurd h (by simp)
  | writeLost i =>
    simp only [Race.exec] at h
    split at h
    · rename_i rand sqn hst
      exact Or.inr (Or.inr (Or.inr (Or.inr ⟨i, rand, sqn, rfl, hst, (Option.some.inj h).symm⟩)))
    · exact absurd h (by simp)

/-- A step that meets the condition keeps the invariant. -/
theorem raceInv_step {n0 : Nat} {s t : Race n} {l : RaceStep n} (hs : RaceInv n0 s)
    (hl : Exclusive s l) (h : s.exec cipher kdf input l = some t) : RaceInv n0 t := by
  rcases exec_cases cipher kdf input h with ⟨i, sec, rfl, hst, hsec, rfl⟩ | ⟨i, rfl, hst, rfl⟩ |
    ⟨i, sec, rand, rfl, hst, rfl⟩ | ⟨i, rand, sqn, rfl, hst, rfl⟩ | ⟨i, rand, sqn, rfl, hst, rfl⟩
  · refine ⟨hs.delivered, hs.count.trans (pastCount_mono rfl (by rw [hst]; simp [Stage.past])), ?_⟩
    rcases hs.turn with ⟨m, hidle, hm, hnext⟩ | ⟨j, _, hj, _⟩ | ⟨j, _, _, hj, _⟩
    · refine .reading i sec (Function.update_self ..)
        (idle_update (fun j _ _ => hidle j) (fun h => absurd rfl h)) ?_
      simp only [getImsiSecData, hm, Option.getD_some, Option.some.injEq] at hsec
      rw [← hsec, sqnVal_sqnOfNb, hnext]
    · exact absurd (hl j) (by rw [hj]; exact id)
    · exact absurd (hl j) (by rw [hj]; exact id)
  · refine ⟨hs.delivered, hs.count.trans (pastCount_mono rfl (by rw [hst]; simp [Stage.past])), ?_⟩
    rcases hs.turn with ⟨m, hidle, hm, hnext⟩ | ⟨j, sec, hj, hidle, hnext⟩ |
      ⟨j, rand, sqn, hj, hidle, k, hk, hlast⟩
    · exact .free m (fun j => idle_update (x := .finished) (p := fun _ => True)
        (fun j _ _ => hidle j) (fun _ => trivial) j trivial) hm hnext
    · have hne : j ≠ i := by rintro rfl; rw [hst] at hj; cases hj
      exact .reading j sec ((Function.update_of_ne hne ..).trans hj)
        (idle_update (fun j' _ hj' => hidle j' hj') (fun _ => trivial)) hnext
    · have hne : j ≠ i := by rintro rfl; rw [hst] at hj; cases hj
      exact .writing j rand sqn ((Function.update_of_ne hne ..).trans hj)
        (idle_update (fun j' _ hj' => hidle j' hj') (fun _ => trivial)) k hk hlast
  · have hbusy : ¬ (s.stage i).Idle := by rw [hst]; exact id
    rcases hs.turn with ⟨m, hidle, _⟩ | ⟨j, sec', hj, hidle, hnext⟩ | ⟨j, _, _, hj, hidle, _⟩
    · exact absurd (hidle i) hbusy
    · obtain rfl := eq_of_not_idle hidle hbusy
      rw [hst, Stage.read.injEq] at hj
      subst hj
      have hlen : (s.delivered ++ [sqnVal sec.sqn]).length = s.delivered.length + 1 := by simp
      refine ⟨?_, ?_, ?_⟩
      · rw [hlen, sqnsFrom_succ, ← hs.delivered, hnext]
      · rw [hlen]
        exact (Nat.succ_le_succ hs.count).trans
          (pastCount_succ rfl (by rw [hst]; rfl) rfl)
      · rw [hlen]
        exact .writing i rand sec.sqn (Function.update_self ..)
          (idle_update (fun j hj _ => hidle j hj) (fun h => absurd rfl h)) _ rfl hnext
    · obtain rfl := eq_of_not_idle hidle hbusy
      rw [hst] at hj
      cases hj
  · have hbusy : ¬ (s.stage i).Idle := by rw [hst]; exact id
    refine ⟨hs.delivered, hs.count.trans (pastCount_mono rfl (fun _ => rfl)), ?_⟩
    rcases hs.turn with ⟨m, hidle, _⟩ | ⟨j, sec', hj, hidle, _⟩ |
      ⟨j, rand', sqn', hj, hidle, k, hk, hlast⟩
    · exact absurd (hidle i) hbusy
    · obtain rfl := eq_of_not_idle hidle hbusy
      rw [hst] at hj
      cases hj
    · obtain rfl := eq_of_not_idle hidle hbusy
      rw [hst, Stage.answered.injEq] at hj
      obtain ⟨rfl, rfl⟩ := hj
      refine .free _ (fun j => idle_update (x := .finished) (p := fun _ => True)
        (fun j hj _ => hidle j hj) (fun _ => trivial) j trivial) rfl ?_
      have h32 := sqnText_eq sqn true
      rw [if_pos rfl, hlast] at h32
      rw [h32, hk]
      omega
  · exact absurd hl id

/-- **Processors that take turns hand out distinct SQNs, and what is stored in the end is the sum.** -/
theorem delivered_nodup (n0 : Nat) (row : SecRow) (hrow : row.sqn = some (n0 : Int))
    (hn : n ≤ 2 ^ 43) (s : Race n)
    (h : Reaches (fun s l t => Race.exec cipher kdf input s l = some t) Exclusive
      (Race.init n row) s) :
    s.delivered.Nodup ∧ ((∀ i, s.stage i = .finished) →
      ∃ m : Nat, s.row.sqn = some (m : Int) ∧
        m % 2 ^ 48 = (n0 + 32 * s.delivered.length) % 2 ^ 48) := by
  have hinv : RaceInv n0 s := by
    refine h.invariant ⟨rfl, Nat.zero_le _, ?_⟩ (fun s l t => raceInv_step cipher kdf input)
    exact .free n0 (fun _ => trivial) hrow (by simp [Race.init])
  refine ⟨?_, fun hfin => ?_⟩
  · rw [hinv.delivered]
    refine sqnsFrom_nodup (hinv.count.trans (le_trans ?_ hn))
    calc s.pastCount ≤ (Finset.univ : Finset (Fin n)).card := Finset.card_filter_le _ _
      _ = n := by simp
  · rcases hinv.turn with ⟨m, _, hm, hnext⟩ | ⟨j, sec, hj, _⟩ | ⟨j, _, _, hj, _⟩
    · exact ⟨m, hm, hnext⟩
    · rw [hfin j] at hj
      cases hj
    · rw [hfin j] at hj
      cases hj

end

/-! ### Two processors -/

instance : DecidablePred Stage.Idle
  | .start => isTrue trivial
  | .finished => isTrue trivial
  | .read _ => isFalse id
  | .answered _ _ => isFalse id

instance {n : Nat} (s : Race n) : DecidablePred (Exclusive s)
  | .read _ => inferInstanceAs (Decidable (∀ j, (s.stage j).Idle))
  | .writeLost _ => isFalse id
  | .readFail _ => isTrue trivial
  | .phase2 _ => isTrue trivial
  | .write _ => isTrue trivial

def plainInput : RaceInput (Bytes 16) where
  plmn := fun _ => 0
  rands := fun _ _ => 0
  m_vector := fun _ => ⟨fun _ => 0, 0, fun _ => 0, fun _ => 0, fun _ => 0⟩
  table := fun _ => 0
  sqn_nb := 0

/-- A step of two processors on the fixed cipher. -/
def pairStep (s : Race 2) (l : RaceStep 2) : Option (Race 2) :=
  Race.exec xorCipher (fun _ _ _ => 0) (fun _ => plainInput) s l

theorem delivered_in_turn :
    ∃ s : Race 2, Reaches (fun s l t => pairStep s l = some t) Exclusive (Race.init 2 plainRow) s ∧
      s.delivered.length = 2 ∧ s.delivered.Nodup ∧
      ∃ m : Nat, s.row.sqn = some (m : Int) ∧ m % 2 ^ 48 = 96 := by
  obtain ⟨s, hs⟩ : ∃ s, runList pairStep Exclusive
      [.read 0, .phase2 0, .write 0, .read 1, .phase2 1, .write 1] (Race.init 2 plainRow) = some s ∧
      s.delivered.length = 2 ∧ s.stage 0 = .finished ∧ s.stage 1 = .finished :=
    ⟨_, rfl, rfl, rfl, rfl⟩
  have hr := Reaches.of_runList pairStep Exclusive _ hs.1
  obtain ⟨h1, h2⟩ := delivered_nodup xorCipher (fun _ _ _ => 0) (fun _ => plainInput) 32 plainRow rfl
    (by decide) s hr
  obtain ⟨m, hm, hmod⟩ := h2 (Fin.forall_fin_two.mpr hs.2.2)
  rw [hs.2.1] at hmod
  exact ⟨s, hr, hs.2.1, h1, m, hm, hmod⟩

/-- Both processors read 32 before either writes: both vectors carry 32, and 64 is stored where
two AIRs should have left 96. -/
theorem lost_update :
    ∃ s : Race 2, Reaches (fun s l t => pairStep s l = some t) (fun _ _ => True)
        (Race.init 2 plainRow) s ∧ (∀ i, s.stage i = .finished) ∧
      ¬ s.delivered.Nodup ∧
      ¬ ∃ m : Nat, s.row.sqn = some (m : Int) ∧
        m % 2 ^ 48 = (32 + 32 * s.delivered.length) % 2 ^ 48 := by
  obtain ⟨s, hs, hd, hrow, h0, h1⟩ : ∃ s, runList pairStep (fun _ _ => True)
      [.read 0, .read 1, .phase2 0, .phase2 1, .write 0, .write 1] (Race.init 2 plainRow) = some s ∧
      s.delivered = [32, 32] ∧ s.row.sqn = some 64 ∧ s.stage 0 = .finished ∧
      s.stage 1 = .finished :=
    ⟨_, rfl, by decide +kernel, by decide +kernel, rfl, rfl⟩
  refine ⟨s, Reaches.of_runList _ _ _ hs, Fin.forall_fin_two.mpr ⟨h0, h1⟩, ?_, ?_⟩
  · rw [hd]
    decide
  · rintro ⟨m, hm, hmod⟩
    rw [hrow, Option.some.injEq] at hm
    rw [hd] at hmod
    simp only [List.length_cons, List.length_nil] at hmod
    omega

end OpenairHss.Air
