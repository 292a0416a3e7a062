import OpenairHss.Diameter
import OpenairHss.Lib.Buffer
import OpenairHss.Lib.Hex

/-!
# TBCD in buffers

`FDUtility::str2tbcd` and `FDUtility::tbcd2str` of `fd.cpp`, with the buffers that they write to.
`Diameter.str2tbcd` and `Diameter.tbcd2str` are the lists that are meant:

* `filled_str2tbcd`, `filled_tbcd2str`: the code writes them; `tbcd2str` if there is room.
* `tbcd2str_str2tbcd`, `str2tbcd_tbcd2str`: they are inverse to each other.
* `within_str2tbcd`, `within_tbcd2str`, `within_tbcd2strString`: when the code stays within the
  buffer.

`str2tbcd` does not look at `dstlen`; `tbcd2str` compares with `>`, so that it writes behind the end.
-/

namespace OpenairHss.Tbcd

open Diameter (char2tbcd)

abbrev Byte : Type := BitVec 8

def nul : Char := '\x00'

/-- A C string, up to its end. -/
def cString (s : List Char) : List Char := s.takeWhile (· ≠ nul)

/-! ### The code -/

def str2tbcdLoop : List Char → Nat → Nat → Buffer Byte → Buffer Byte × Nat × Nat
  | [], len, idx, dst => (dst, len, idx)
  | c :: src, len, idx, dst =>
    if len % 2 = 1 then
      str2tbcdLoop src (len + 1) (idx + 1)
        (dst.write idx (dst.cells idx ||| BitVec.ofNat 8 (char2tbcd c)))
    else str2tbcdLoop src (len + 1) idx (dst.write idx (BitVec.ofNat 8 (char2tbcd c) <<< 4))

/-- In case of an odd number of characters, a filler. -/
def pad : Buffer Byte × Nat × Nat → Buffer Byte × Nat
  | (dst, len, idx) =>
    if len % 2 = 1 then
      (dst.write idx (dst.cells idx ||| BitVec.ofNat 8 (char2tbcd nul)), idx + 1)
    else (dst, idx)

def str2tbcd (src : List Char) (dst : Buffer Byte) (_dstlen : Nat) : Buffer Byte × Nat :=
  pad (str2tbcdLoop src 0 0 dst)

/-- `str2tbcd` of a C string. -/
def str2tbcdCString (src : List Char) (dst : Buffer Byte) (dstlen : Nat) : Buffer Byte × Nat :=
  str2tbcd (cString src) dst dstlen

/-- `str2tbcd` of a `std::string`. -/
def str2tbcdString (src : List Char) (dst : Buffer Byte) (dstlen : Nat) : Buffer Byte × Nat :=
  str2tbcd src dst dstlen

/-- `__TBCD__`: its end stands for the filler. -/
def tbcdTable (n : Nat) : Char :=
  ['0', '1', '2', '3', '4', '5', '6', '7', '8', '9', '*', '#', 'a', 'b', 'c'].getD n nul

/-- The loop of `tbcd2str`: `none` is a return in the middle. -/
def tbcd2strLoop (dstlen : Nat) : List Byte → Nat → Buffer Char → Buffer Char × Option Nat
  | [], len, dst => (dst, some len)
  | b :: src, len, dst =>
    if len > dstlen then (dst, none)
    else
      let dst := dst.write len (tbcdTable (b.toNat / 16))
      if dst.cells len = nul then tbcd2strLoop dstlen src len dst
      else if len + 1 > dstlen then (dst, none)
      else
        let dst := dst.write (len + 1) (tbcdTable (b.toNat % 16))
        if dst.cells (len + 1) = nul then tbcd2strLoop dstlen src (len + 1) dst
        else tbcd2strLoop dstlen src (len + 2) dst

/-- The end of the text. -/
def terminate : Buffer Char × Option Nat → Buffer Char × Nat
  | (dst, none) => (dst, 0)
  | (dst, some len) => (dst.write len nul, len)

def tbcd2str (src : List Byte) (dst : Buffer Char) (dstlen : Nat) : Buffer Char × Nat :=
  terminate (tbcd2strLoop dstlen src 0 dst)

/-- What is taken from a buffer, by the length that was returned. -/
def taken {α : Type} (r : Buffer α × Nat) : List α := r.1.contents r.2

/-- `tbcd2str` into a `std::string`: the buffer, and the string. -/
def tbcd2strString (src : List Byte) (buffer : Buffer Char) : Buffer Char × List Char :=
  let r := tbcd2str src buffer (src.length * 2)
  (r.1, taken r)

/-! ### Writing TBCD -/

theorem pack_nibbles {c d : Nat} (hc : c < 16) (hd : d < 16) :
    (BitVec.ofNat 8 c <<< 4) ||| BitVec.ofNat 8 d = BitVec.ofNat 8 (16 * c + d) :=
  Hex.shift_or_eq_pair ⟨c, hc⟩ ⟨d, hd⟩

theorem char2tbcd_lt (c : Char) : char2tbcd c < 16 := by
  unfold char2tbcd
  split
  · rename_i h
    have h9 : c.toNat ≤ '9'.toNat := h.2
    have : '9'.toNat = 57 := rfl
    have : '0'.toNat = 48 := rfl
    omega
  · grind

/-- The loop goes over pairs of characters. -/
theorem filled_str2tbcdLoop (src : List Char) (len idx : Nat) (dst : Buffer Byte)
    (heven : len % 2 = 0) :
    ∃ dst', pad (str2tbcdLoop src len idx dst)
        = (dst', idx + (Diameter.str2tbcd src).length) ∧
      Buffer.Filled dst idx (Diameter.str2tbcd src) dst' := by
  match src with
  | [] =>
    refine ⟨dst, ?_, Buffer.filled_nil dst idx⟩
    simp [str2tbcdLoop, pad, heven, Diameter.str2tbcd]
  | [c] =>
    have hfilled : Buffer.Filled (dst.write idx (BitVec.ofNat 8 (char2tbcd c) <<< 4)) idx
        (Diameter.str2tbcd [c]) _ := (Buffer.filled_nil _ _).cons
    refine ⟨_, ?_, hfilled.of_write (List.cons_ne_nil _ _)⟩
    have hpack := pack_nibbles (char2tbcd_lt c) (char2tbcd_lt nul)
    rw [str2tbcdLoop, if_neg (by omega), str2tbcdLoop, pad, if_pos (by omega), Buffer.write_cells,
      hpack]
    rfl
  | c :: c' :: rest =>
    have hpack := pack_nibbles (char2tbcd_lt c) (char2tbcd_lt c')
    rw [str2tbcdLoop, if_neg (by omega), str2tbcdLoop, if_pos (by omega), Buffer.write_cells, hpack,
      Diameter.str2tbcd]
    obtain ⟨dst', hrun, hfilled⟩ := filled_str2tbcdLoop rest (len + 1 + 1) (idx + 1)
      ((dst.write idx (BitVec.ofNat 8 (char2tbcd c) <<< 4)).write idx
        (BitVec.ofNat 8 (16 * char2tbcd c + char2tbcd c'))) (by omega)
    refine ⟨dst', ?_, hfilled.cons.of_write (List.cons_ne_nil _ _)⟩
    rw [hrun, List.length_cons]
    congr 1
    omega

/-- **`str2tbcd` writes what is meant**, and returns its length. -/
theorem filled_str2tbcd (src : List Char) (dst : Buffer Byte) (dstlen : Nat) :
    Buffer.Filled dst 0 (Diameter.str2tbcd src) (str2tbcd src dst dstlen).1 ∧
      (str2tbcd src dst dstlen).2 = (Diameter.str2tbcd src).length := by
  obtain ⟨dst', hrun, hfilled⟩ := filled_str2tbcdLoop src 0 0 dst rfl
  rw [str2tbcd, hrun]
  exact ⟨hfilled, Nat.zero_add _⟩

theorem length_str2tbcd (src : List Char) :
    (Diameter.str2tbcd src).length = (src.length + 1) / 2 := by
  match src with
  | [] => rfl
  | [c] => simp [Diameter.str2tbcd]
  | c :: c' :: rest =>
    rw [Diameter.str2tbcd, List.length_cons, length_str2tbcd rest, List.length_cons,
      List.length_cons]
    omega

/-! ### Reading TBCD -/

def nibbles (b : Byte) : List Char :=
  if tbcdTable (b.toNat / 16) = nul then []
  else if tbcdTable (b.toNat % 16) = nul then [tbcdTable (b.toNat / 16)]
  else [tbcdTable (b.toNat / 16), tbcdTable (b.toNat % 16)]

theorem tbcd2str_singleton : ∀ b : Byte, Diameter.tbcd2str [b] = nibbles b := by decide

theorem tbcd2str_append (bytes bytes' : List Byte) :
    Diameter.tbcd2str (bytes ++ bytes') = Diameter.tbcd2str bytes ++ Diameter.tbcd2str bytes' :=
  List.flatMap_append

theorem tbcd2str_cons (b : Byte) (bytes : List Byte) :
    Diameter.tbcd2str (b :: bytes) = nibbles b ++ Diameter.tbcd2str bytes := by
  rw [← tbcd2str_singleton, ← tbcd2str_append]
  rfl

/-- One byte. -/
theorem tbcd2strLoop_cons (dstlen : Nat) (b : Byte) (src : List Byte) (len : Nat)
    (dst : Buffer Char) :
    tbcd2strLoop dstlen (b :: src) len dst =
      let hi := tbcdTable (b.toNat / 16)
      let lo := tbcdTable (b.toNat % 16)
      if len > dstlen then (dst, none)
      else if hi = nul then tbcd2strLoop dstlen src len (dst.write len hi)
      else if len + 1 > dstlen then (dst.write len hi, none)
      else tbcd2strLoop dstlen src (if lo = nul then len + 1 else len + 2)
        ((dst.write len hi).write (len + 1) lo) := by
  rw [tbcd2strLoop]
  simp only [Buffer.write_cells]
  congr 3
  split <;> rfl

theorem tbcd2strLoop_written (dstlen : Nat) (src : List Byte) (len : Nat) (dst : Buffer Char)
    {i : Nat} (h : i ∈ dst.written) : i ∈ (tbcd2strLoop dstlen src len dst).1.written := by
  induction src generalizing len dst with
  | nil => exact h
  | cons b src ih =>
    rw [tbcd2strLoop_cons]
    dsimp only
    split
    · exact h
    split
    · exact ih _ _ (List.mem_cons_of_mem _ h)
    split
    · exact List.mem_cons_of_mem _ h
    · exact ih _ _ (List.mem_cons_of_mem _ (List.mem_cons_of_mem _ h))

theorem terminate_written (r : Buffer Char × Option Nat) {i : Nat} (h : i ∈ r.1.written) :
    i ∈ (terminate r).1.written := by
  obtain ⟨dst, _ | len⟩ := r
  · exact h
  · exact List.mem_cons_of_mem _ h

/-- If there is room, all characters and the end are written. -/
theorem filled_tbcd2strLoop (dstlen : Nat) (src : List Byte) (len : Nat) (dst : Buffer Char)
    (hroom : len + (Diameter.tbcd2str src).length ≤ dstlen) :
    ∃ dst', terminate (tbcd2strLoop dstlen src len dst)
        = (dst', len + (Diameter.tbcd2str src).length) ∧
      Buffer.Filled dst len (Diameter.tbcd2str src ++ [nul]) dst' := by
  induction src generalizing len dst with
  | nil => exact ⟨_, rfl, (Buffer.filled_nil _ _).cons⟩
  | cons b src ih =>
    rw [tbcd2str_cons, List.length_append] at hroom ⊢
    rw [tbcd2strLoop_cons]
    dsimp only
    rw [if_neg (by omega)]
    unfold nibbles at hroom ⊢
    by_cases hhi : tbcdTable (b.toNat / 16) = nul
    · rw [if_pos hhi] at hroom ⊢
      rw [if_pos hhi]
      obtain ⟨dst', hrun, hfilled⟩ := ih len
        (dst.write len (tbcdTable (b.toNat / 16))) (by simpa using hroom)
      refine ⟨dst', ?_, hfilled.of_write (by simp)⟩
      rw [hrun, List.length_nil, Nat.zero_add]
    · rw [if_neg hhi] at hroom ⊢
      rw [if_neg hhi]
      by_cases hlo : tbcdTable (b.toNat % 16) = nul
      · simp only [if_pos hlo, List.length_singleton] at hroom ⊢
        rw [if_neg (by omega)]
        obtain ⟨dst', hrun, hfilled⟩ := ih (len + 1)
          ((dst.write len (tbcdTable (b.toNat / 16))).write (len + 1)
          (tbcdTable (b.toNat % 16))) (by omega)
        refine ⟨dst', ?_, (hfilled.of_write (by simp)).cons⟩
        rw [hrun, Nat.add_assoc]
      · simp only [if_neg hlo, List.length_cons, List.length_nil] at hroom ⊢
        rw [if_neg (by omega)]
        obtain ⟨dst', hrun, hfilled⟩ := ih (len + 2)
          ((dst.write len (tbcdTable (b.toNat / 16))).write (len + 1)
          (tbcdTable (b.toNat % 16))) (by omega)
        refine ⟨dst', ?_, hfilled.cons.cons⟩
        rw [hrun, Nat.add_assoc]

/-- **`tbcd2str` writes what is meant**, if there is room. -/
theorem filled_tbcd2str {src : List Byte} (dst : Buffer Char) {dstlen : Nat}
    (hroom : (Diameter.tbcd2str src).length ≤ dstlen) :
    Buffer.Filled dst 0 (Diameter.tbcd2str src ++ [nul]) (tbcd2str src dst dstlen).1 ∧
      (tbcd2str src dst dstlen).2 = (Diameter.tbcd2str src).length := by
  obtain ⟨dst', hrun, hfilled⟩ := filled_tbcd2strLoop dstlen src 0 dst (by omega)
  rw [tbcd2str, hrun]
  exact ⟨hfilled, Nat.zero_add _⟩

/-- If there is not, the cell behind the end is written. -/
theorem tbcd2strLoop_overrun (dstlen : Nat) (src : List Byte) (len : Nat) (dst : Buffer Char)
    (hlen : len ≤ dstlen) (hroom : dstlen < len + (Diameter.tbcd2str src).length) :
    dstlen ∈ (tbcd2strLoop dstlen src len dst).1.written := by
  induction src generalizing len dst with
  | nil =>
    have : (Diameter.tbcd2str []).length = 0 := rfl
    omega
  | cons b src ih =>
    rw [tbcd2str_cons, List.length_append] at hroom
    rw [tbcd2strLoop_cons]
    dsimp only
    rw [if_neg (by omega)]
    unfold nibbles at hroom
    by_cases hhi : tbcdTable (b.toNat / 16) = nul
    · rw [if_pos hhi] at hroom ⊢
      exact ih len _ hlen (by simpa using hroom)
    · rw [if_neg hhi] at hroom ⊢
      -- the first character of the byte is written at `len`, the second behind it
      by_cases hend : len + 1 > dstlen
      · rw [if_pos hend]
        have heq : dstlen = len := by omega
        simp [heq]
      · rw [if_neg hend]
        by_cases hlo : tbcdTable (b.toNat % 16) = nul
        · rw [if_pos hlo] at hroom ⊢
          rw [List.length_singleton] at hroom
          exact ih (len + 1) _ (by omega) (by omega)
        · rw [if_neg hlo] at hroom ⊢
          simp only [List.length_cons, List.length_nil] at hroom
          by_cases hlast : dstlen = len + 1
          · refine tbcd2strLoop_written dstlen src (len + 2) _ ?_
            simp [hlast]
          · exact ih (len + 2) _ (by omega) (by omega)

/-! ### Bounds -/

theorem within_str2tbcd (src : List Char) (mem : Nat → Byte) (dstlen n : Nat) :
    Buffer.Within n (str2tbcd src (Buffer.fresh mem) dstlen).1 ↔ (src.length + 1) / 2 ≤ n := by
  rw [(filled_str2tbcd src _ dstlen).1.stays_within_iff, length_str2tbcd]

/-- **`tbcd2str` stays within the buffer** if and only if the text and its end fit. -/
theorem within_tbcd2str (src : List Byte) (mem : Nat → Char) (dstlen : Nat) :
    Buffer.Within dstlen (tbcd2str src (Buffer.fresh mem) dstlen).1 ↔
      (Diameter.tbcd2str src).length < dstlen := by
  by_cases hroom : (Diameter.tbcd2str src).length ≤ dstlen
  · rw [(filled_tbcd2str _ hroom).1.stays_within_iff, List.length_append, List.length_singleton]
    omega
  · refine iff_of_false (fun h => ?_) (by omega)
    have hover := tbcd2strLoop_overrun dstlen src 0 (Buffer.fresh mem) (by omega) (by omega)
    have := h dstlen (terminate_written _ hover)
    omega

theorem length_nibbles (b : Byte) : (nibbles b).length ≤ 2 := by
  unfold nibbles
  split
  · simp
  · split <;> simp

theorem length_tbcd2str_le (src : List Byte) : (Diameter.tbcd2str src).length ≤ src.length * 2 := by
  induction src with
  | nil => exact Nat.le_refl 0
  | cons b src ih =>
    have := length_nibbles b
    rw [tbcd2str_cons, List.length_append, List.length_cons]
    omega

/-- The string is right, though its end is written behind the buffer if no nibble is a filler. -/
theorem tbcd2strString_eq (src : List Byte) (mem : Nat → Char) :
    (tbcd2strString src (Buffer.fresh mem)).2 = Diameter.tbcd2str src := by
  obtain ⟨hfilled, hlen⟩ := filled_tbcd2str (Buffer.fresh mem) (length_tbcd2str_le src)
  rw [tbcd2strString, taken, hlen, hfilled.contents_of_le (by simp)]
  simp

/-! ### Round trips -/

def alphabet : List Char :=
  ['0', '1', '2', '3', '4', '5', '6', '7', '8', '9', '*', '#', 'a', 'b', 'c']

/-- The filler occurs only in the low nibble of the last byte. -/
def Packed (bytes : List Byte) : Prop :=
  (∀ b ∈ bytes, b.toNat / 16 ≠ 15) ∧ ∀ b ∈ bytes.dropLast, b.toNat % 16 ≠ 15

theorem nibbles_pack : ∀ c ∈ alphabet, ∀ c' ∈ alphabet,
    nibbles (BitVec.ofNat 8 (16 * char2tbcd c + char2tbcd c')) = [c, c'] := by
  have hall : (alphabet.all fun c => alphabet.all fun c' =>
      nibbles (BitVec.ofNat 8 (16 * char2tbcd c + char2tbcd c')) = [c, c']) = true := by
    decide
  intro c hc c' hc'
  exact of_decide_eq_true (List.all_eq_true.mp (List.all_eq_true.mp hall c hc) c' hc')

theorem nibbles_pad : ∀ c ∈ alphabet, nibbles (BitVec.ofNat 8 (16 * char2tbcd c + 15)) = [c] := by
  have hall : (alphabet.all fun c =>
      nibbles (BitVec.ofNat 8 (16 * char2tbcd c + 15)) = [c]) = true := by
    decide
  intro c hc
  exact of_decide_eq_true (List.all_eq_true.mp hall c hc)

/-- **What was written is read.** -/
theorem tbcd2str_str2tbcd (s : List Char) (hs : ∀ c ∈ s, c ∈ alphabet) :
    Diameter.tbcd2str (Diameter.str2tbcd s) = s := by
  match s with
  | [] => rfl
  | [c] =>
    rw [Diameter.str2tbcd, tbcd2str_cons, nibbles_pad c (hs c (by simp))]
    rfl
  | c :: c' :: rest =>
    have ih := tbcd2str_str2tbcd rest fun d hd => hs d (by simp [hd])
    rw [Diameter.str2tbcd, tbcd2str_cons, ih,
      nibbles_pack c (hs c (by simp)) c' (hs c' (by simp))]
    rfl

theorem str2tbcd_nibbles : ∀ b : Byte, b.toNat / 16 ≠ 15 → Diameter.str2tbcd (nibbles b) = [b] := by
  decide

theorem nibbles_of_full : ∀ b : Byte, b.toNat / 16 ≠ 15 → b.toNat % 16 ≠ 15 →
    (nibbles b).length = 2 := by decide

theorem str2tbcd_append {s : List Char} (hs : s.length = 2) (rest : List Char) :
    Diameter.str2tbcd (s ++ rest) = Diameter.str2tbcd s ++ Diameter.str2tbcd rest := by
  match s, hs with
  | [c, c'], _ => rfl

/-- **What was read is written.** -/
theorem str2tbcd_tbcd2str (bytes : List Byte) (h : Packed bytes) :
    Diameter.str2tbcd (Diameter.tbcd2str bytes) = bytes := by
  induction bytes with
  | nil => rfl
  | cons b rest ih =>
    have hhi := h.1 b List.mem_cons_self
    cases rest with
    | nil =>
      rw [tbcd2str_singleton]
      exact str2tbcd_nibbles b hhi
    | cons b' rest =>
      have hlo : b.toNat % 16 ≠ 15 := h.2 b (by simp)
      have hrest : Packed (b' :: rest) :=
        ⟨fun d hd => h.1 d (List.mem_cons_of_mem _ hd), fun d hd => h.2 d (by simp [hd])⟩
      rw [tbcd2str_cons, str2tbcd_append (nibbles_of_full b hhi hlo), str2tbcd_nibbles b hhi,
        ih hrest]
      rfl

theorem taken_str2tbcd (s : List Char) (mem : Nat → Byte) (dstlen : Nat) :
    taken (str2tbcd s (Buffer.fresh mem) dstlen) = Diameter.str2tbcd s := by
  obtain ⟨hfilled, hlen⟩ := filled_str2tbcd s (Buffer.fresh mem) dstlen
  rw [taken, hlen, hfilled.contents_of_le (Nat.le_refl _), List.take_length]

theorem taken_tbcd2str (bytes : List Byte) (mem : Nat → Char) {dstlen : Nat}
    (hroom : (Diameter.tbcd2str bytes).length ≤ dstlen) :
    taken (tbcd2str bytes (Buffer.fresh mem) dstlen) = Diameter.tbcd2str bytes := by
  obtain ⟨hfilled, hlen⟩ := filled_tbcd2str (Buffer.fresh mem) hroom
  rw [taken, hlen, hfilled.contents_of_le (by simp)]
  simp

/-- **The round trips**: text to TBCD to text, in a buffer or in a string; and TBCD to text to
TBCD. -/
theorem roundTrips :
    (∀ s : List Char, (∀ c ∈ s, c ∈ alphabet) → ∀ mem dstlen,
      let bytes := taken (str2tbcd s (Buffer.fresh mem) dstlen)
      (∀ mem' dstlen', s.length < dstlen' →
        let dec := tbcd2str bytes (Buffer.fresh mem') dstlen'
        taken dec = s ∧ dec.1.cells dec.2 = nul) ∧
      ∀ mem', (tbcd2strString bytes (Buffer.fresh mem')).2 = s) ∧
    ∀ bytes : List Byte, Packed bytes → ∀ mem dstlen, 2 * bytes.length < dstlen →
      ∀ mem' dstlen',
        taken (str2tbcd (taken (tbcd2str bytes (Buffer.fresh mem) dstlen)) (Buffer.fresh mem')
          dstlen') = bytes := by
  constructor
  · intro s hs mem dstlen bytes
    have hbytes : bytes = Diameter.str2tbcd s := taken_str2tbcd s mem dstlen
    have htext : Diameter.tbcd2str bytes = s := by rw [hbytes, tbcd2str_str2tbcd s hs]
    refine ⟨fun mem' dstlen' hroom => ?_, fun mem' => ?_⟩
    · have hroom' : (Diameter.tbcd2str bytes).length ≤ dstlen' := by
        rw [htext]
        omega
      obtain ⟨hfilled, hlen⟩ := filled_tbcd2str (Buffer.fresh mem') hroom'
      refine ⟨by rw [taken_tbcd2str _ _ hroom', htext], ?_⟩
      rw [hlen, hfilled.cell]
      simp
    · rw [tbcd2strString_eq, htext]
  · intro bytes hbytes mem dstlen hroom mem' dstlen'
    have hlen := length_tbcd2str_le bytes
    rw [taken_tbcd2str bytes mem (by omega), taken_str2tbcd, str2tbcd_tbcd2str bytes hbytes]

/-- A text of three characters. -/
theorem roundTrips_odd :
    taken (tbcd2str (taken (str2tbcd ['3', '*', 'b'] (Buffer.fresh fun _ => 0) 2))
      (Buffer.fresh fun _ => 'x') 4) = ['3', '*', 'b'] :=
  ((roundTrips.1 ['3', '*', 'b'] (by simp [alphabet]) (fun _ => 0) 2).1 (fun _ => 'x') 4 (by decide)).1

end OpenairHss.Tbcd
