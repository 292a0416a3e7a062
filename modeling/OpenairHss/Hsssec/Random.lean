import OpenairHss.Lib.Bytes

/-!
# Random numbers

`generate_random` of `random.c`.  In the random mode it first draws a number with GMP, writes it to
`random_p`, and then writes over all of it: each draw of `rand()` gives four bytes, the lowest
first.

A draw is at most `RAND_MAX`, that is `2 ^ 31 - 1`, so that its last byte is below 128, and so is
every fourth byte that is generated.  Other numbers cannot be generated, and all that are like this
can (`generated_iff`).
-/

namespace OpenairHss.Hsssec

open ByteVec

/-! ### The code -/

/-- A result of `rand()`. -/
abbrev Draw : Type := Fin (2 ^ 31)

/-- The loop of the random mode: the draws that are left, `r`, and `random_p`. -/
structure Drawing (length : Nat) where
  rand : Nat → Draw
  r : BitVec 32
  random_p : Bytes length

/-- `r = rand()`. -/
def Drawing.draw {length : Nat} (d : Drawing length) : Drawing length :=
  { d with r := BitVec.ofNat 32 (d.rand 0), rand := fun k => d.rand (k + 1) }

/-- A pass of the loop; `sizeof(i)` is 4.  The mask is an `int`, so that `>>` shifts its sign in. -/
def drawPass {length : Nat} (i : Fin length) (d : Drawing length) : Drawing length :=
  let d := if (i : Nat) % 4 = 0 then d.draw else d
  let shift := 8 * ((i : Nat) % 4)
  let mask := 0xff#32 <<< shift
  { d with
    random_p := Function.update d.random_p i (((d.r &&& mask).sshiftRight shift).setWidth 8) }

/-- What `generate_random` reads and writes besides `random_p`: `hss_config.random_bool`, and
`no_random_delta`. -/
structure RandomState where
  random_bool : Int
  no_random_delta : BitVec 8

/-- `generate_random`; `exported` is what `mpz_export` leaves in `random_p`, and `rand` the results
of `rand()` from now on. -/
def generateRandom {length : Nat} (exported : Bytes length) (rand : Nat → Draw) (s : RandomState)
    (random_p : Bytes length) : Bytes length × RandomState :=
  if s.random_bool > 0 then
    ((forLoop length drawPass { rand := rand, r := 0, random_p := exported }).random_p, s)
  else
    (forLoop length (fun i random_p =>
        Function.update random_p i (BitVec.ofNat 8 i + s.no_random_delta)) random_p,
      { s with no_random_delta := s.no_random_delta + 1 })

/-! ### What is drawn -/

/-- After `k` passes: the draws of which some byte was used are gone, `r` is the last of them unless
all of it was used, and the bytes are those of the draws. -/
structure Drawn {length : Nat} (rand : Nat → Draw) (k : Nat) (d : Drawing length) : Prop where
  left : d.rand = fun j => rand (j + (k + 3) / 4)
  last : k % 4 ≠ 0 → d.r = BitVec.ofNat 32 (rand (k / 4))
  bytes : ∀ i : Fin length, (i : Nat) < k →
    d.random_p i = (BitVec.ofNat 32 (rand (i / 4))).extractLsb' (8 * (i % 4)) 8

/-- The first statement of a pass. -/
theorem Drawn.next {length : Nat} {rand : Nat → Draw} {i : Nat} {d : Drawing length}
    (h : Drawn rand i d) :
    let d' := if i % 4 = 0 then d.draw else d
    d'.rand = (fun j => rand (j + (i + 1 + 3) / 4)) ∧ d'.r = BitVec.ofNat 32 (rand (i / 4)) ∧
      d'.random_p = d.random_p := by
  intro d'
  by_cases hi : i % 4 = 0
  · have hd' : d' = d.draw := if_pos hi
    rw [hd', Drawing.draw, h.left]
    refine ⟨?_, ?_, rfl⟩
    · funext j
      dsimp only
      congr 1
      omega
    · dsimp only
      rw [show 0 + (i + 3) / 4 = i / 4 by omega]
  · have hd' : d' = d := if_neg hi
    rw [hd', h.left, h.last hi]
    refine ⟨?_, rfl, rfl⟩
    funext j
    congr 1
    omega

/-- **One pass** cuts the next byte out of a draw. -/
theorem Drawn.pass {length : Nat} {rand : Nat → Draw} (i : Fin length) {d : Drawing length}
    (h : Drawn rand i d) : Drawn rand (i + 1) (drawPass i d) := by
  obtain ⟨hleft, hr, hbytes⟩ := h.next
  refine ⟨hleft, ?_, ?_⟩
  · intro hnext
    refine hr.trans ?_
    rw [show ((i : Nat) + 1) / 4 = i / 4 by omega]
  · intro j hj
    show Function.update _ i _ j = _
    by_cases hij : j = i
    · subst hij
      rw [Function.update_self, hr]
      exact mask_sshiftRight _ (by omega)
    · have hlt : (j : Nat) < i := by
        have hne : (j : Nat) ≠ i := fun heq => hij (Fin.ext heq)
        omega
      rw [Function.update_of_ne hij, hbytes]
      exact h.bytes j hlt

/-- **What the random mode generates**, whatever GMP has drawn: byte `i` is byte `i % 4` of the draw
`i / 4`. -/
theorem generateRandom_apply {length : Nat} (exported : Bytes length) (rand : Nat → Draw)
    {s : RandomState} (hmode : s.random_bool > 0) (random_p : Bytes length) (i : Fin length) :
    (generateRandom exported rand s random_p).1 i =
      (BitVec.ofNat 32 (rand (i / 4))).extractLsb' (8 * (i % 4)) 8 := by
  have hstart : Drawn rand 0 (⟨rand, 0, exported⟩ : Drawing length) :=
    ⟨rfl, fun h => absurd rfl h, fun i hi => absurd hi (Nat.not_lt_zero i)⟩
  have hdrawn : Drawn rand length (forLoop length drawPass ⟨rand, 0, exported⟩) :=
    forLoop_induction (Drawn rand) hstart fun i d h => h.pass i
  rw [generateRandom, if_pos hmode]
  exact hdrawn.bytes i i.isLt

theorem toNat_generateRandom {length : Nat} (exported : Bytes length) (rand : Nat → Draw)
    {s : RandomState} (hmode : s.random_bool > 0) (random_p : Bytes length) (i : Fin length) :
    ((generateRandom exported rand s random_p).1 i).toNat =
      (rand (i / 4) : Nat) / 2 ^ (8 * ((i : Nat) % 4)) % 256 := by
  have hlt : (rand (i / 4) : Nat) < 2 ^ 32 := by omega
  rw [generateRandom_apply exported rand hmode, BitVec.extractLsb'_toNat, BitVec.toNat_ofNat,
    Nat.mod_eq_of_lt hlt, Nat.shiftRight_eq_div_pow]

/-! ### What can be generated -/

/-- A byte of a number, and 0 behind it. -/
def byteAt {length : Nat} (v : Bytes length) (i : Nat) : Nat :=
  if h : i < length then (v ⟨i, h⟩).toNat else 0

/-- The draws for a number: four bytes each. -/
def drawsFor {length : Nat} (v : Bytes length) (k : Nat) : Draw :=
  Fin.ofNat (2 ^ 31) (byteAt v (4 * k) + 2 ^ 8 * byteAt v (4 * k + 1) +
    2 ^ 16 * byteAt v (4 * k + 2) + 2 ^ 24 * byteAt v (4 * k + 3))

theorem byteAt_lt {length : Nat} (v : Bytes length) (i : Nat) : byteAt v i < 256 := by
  unfold byteAt
  split
  · exact (v _).isLt
  · decide

theorem byteAt_val {length : Nat} (v : Bytes length) (i : Fin length) : byteAt v i = (v i).toNat :=
  dif_pos i.isLt

/-- **A number that the draws can give is given by its own draws.** -/
theorem generateRandom_drawsFor {length : Nat} {v : Bytes length}
    (hv : ∀ i : Fin length, (i : Nat) % 4 = 3 → (v i).toNat < 128) (exported : Bytes length)
    {s : RandomState} (hmode : s.random_bool > 0) (random_p : Bytes length) :
    (generateRandom exported (drawsFor v) s random_p).1 = v := by
  have hlast : ∀ k, byteAt v (4 * k + 3) < 128 := by
    intro k
    unfold byteAt
    split
    · exact hv _ (show (4 * k + 3) % 4 = 3 by omega)
    · decide
  funext i
  apply BitVec.eq_of_toNat_eq
  rw [toNat_generateRandom exported (drawsFor v) hmode, ← byteAt_val v i]
  have h0 := byteAt_lt v (4 * (i / 4))
  have h1 := byteAt_lt v (4 * (i / 4) + 1)
  have h2 := byteAt_lt v (4 * (i / 4) + 2)
  have h3 := hlast (i / 4)
  have hdraw : (drawsFor v (i / 4) : Nat) =
      byteAt v (4 * (i / 4)) + 2 ^ 8 * byteAt v (4 * (i / 4) + 1) +
        2 ^ 16 * byteAt v (4 * (i / 4) + 2) + 2 ^ 24 * byteAt v (4 * (i / 4) + 3) :=
    Nat.mod_eq_of_lt (by omega)
  have hi : (i : Nat) = 4 * (i / 4) + i % 4 := by omega
  have hmod : (i : Nat) % 4 < 4 := Nat.mod_lt _ (by decide)
  rw [hdraw]
  generalize (i : Nat) % 4 = r at hi hmod ⊢
  generalize (i : Nat) / 4 = k at *
  rw [hi]
  match r, hmod with
  | 0, _ =>
    show _ = byteAt v (4 * k)
    omega
  | 1, _ => omega
  | 2, _ => omega
  | 3, _ => omega

/-- The last byte of a draw has no sign. -/
theorem generateRandom_lt {length : Nat} (exported : Bytes length) (rand : Nat → Draw)
    {s : RandomState} (hmode : s.random_bool > 0) (random_p : Bytes length) {i : Fin length}
    (hi : (i : Nat) % 4 = 3) : ((generateRandom exported rand s random_p).1 i).toNat < 128 := by
  have hdraw := (rand (i / 4)).isLt
  rw [toNat_generateRandom exported rand hmode, hi]
  omega

/-- **The numbers that can be generated** in the random mode are those in which every fourth byte is
below 128. -/
theorem generated_iff (exported random_p : Bytes 16) (s : RandomState) (hmode : s.random_bool > 0)
    (v : Bytes 16) :
    (∃ rand : Nat → Draw, (generateRandom exported rand s random_p).1 = v) ↔
      ∀ i : Fin 16, (i : Nat) % 4 = 3 → (v i).toNat < 128 := by
  constructor
  · rintro ⟨rand, rfl⟩ i hi
    exact generateRandom_lt exported rand hmode random_p hi
  · intro hv
    exact ⟨drawsFor v, generateRandom_drawsFor hv exported hmode random_p⟩

/-- The state in the random mode, at the start. -/
def randomMode : RandomState := { random_bool := 1, no_random_delta := 0 }

theorem generated_iff_largest :
    (∃ rand : Nat → Draw,
      (generateRandom (fun _ => 0) rand randomMode fun _ => 0).1 = fun _ : Fin 16 => 0x7f) ↔
      ∀ i : Fin 16, (i : Nat) % 4 = 3 → ((fun _ : Fin 16 => 0x7f#8) i).toNat < 128 :=
  generated_iff (fun _ => 0) (fun _ => 0) randomMode (by decide) fun _ => 0x7f

/-- `2 ^ 128 - 1` is not generated. -/
theorem not_generated : ¬∃ rand : Nat → Draw,
    (generateRandom (fun _ => 0) rand randomMode fun _ => 0).1 = fun _ : Fin 16 => 0xff := by
  rintro ⟨rand, h⟩
  have hlt := generateRandom_lt (fun _ : Fin 16 => 0) rand (s := randomMode) (by decide)
    (fun _ => 0) (i := 3) rfl
  rw [h] at hlt
  exact absurd hlt (by decide)

end OpenairHss.Hsssec
