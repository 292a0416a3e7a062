import OpenairHss.Air.SynchFix
import OpenairHss.Lib.Buffer
import OpenairHss.Tbcd.Codec

/-!
# The buffer of `synchFix`

`parsehex` with the memory that it writes to.  `Air.parsehex` has the bytes that are meant; here
they go into the 31 bytes of `auts`, and those that do not fit behind them.

`synchFix` passes -1 for the length, which disables the only check of it.  `parsehex_iff` says which
texts go wrong: those that are accepted and do not fit; and it says which are written behind the
buffer, some of them to be refused afterwards.
-/

namespace OpenairHss.Auts

open Air DataAccess Tbcd

/-! ### The code -/

/-- The loop of `parsehex` from the offset `i` on: what it returns, and `dst`.  `none`: `i` is no
`int` any more. -/
def parsehexLoop : List Char → Nat → Buffer Byte → Option (Bool × Buffer Byte)
  | [], _, dst => some (true, dst)
  | [_], _, dst => some (false, dst)
  | c :: d :: src, i, dst =>
    if !validHex c then some (false, dst)
    else if !validHex d then some (false, dst)
    else
      let dst := dst.write (i / 2) (toHex c <<< 4 ||| toHex d)
      if i + 2 < 2 ^ 31 then parsehexLoop src (i + 2) dst else none

/-- `parsehex`; `srclen` is an `int`. -/
def parsehex (src : List Char) (dst : Buffer Byte) (len : Int) : Option (Bool × Buffer Byte) :=
  let src := cString src
  let srclen : Int := (src.length : Int).bmod (2 ^ 32)
  if len ≠ -1 ∧ srclen ≠ len then some (false, dst)
  else if srclen.tmod 2 ≠ 0 then some (false, dst)
  else parsehexLoop src 0 dst

/-- `auts`, and what stands behind it. -/
def auts (stack : Nat → Byte) : Buffer Byte := Buffer.fresh fun i => if i < 31 then 0 else stack i

/-- The call of `synchFix`. -/
def parseAuts (synchauts : List Char) (stack : Nat → Byte) : Option (Bool × Buffer Byte) :=
  parsehex synchauts (auts stack) (-1)

/-! ### What is meant -/

def IsHex (c : Char) : Prop := (Hex.ofChar c).isSome

/-- An even number of hexadecimal digits that fit into `auts`. -/
def Fits (text : List Char) : Prop :=
  text.length % 2 = 0 ∧ (∀ c ∈ text, IsHex c) ∧ text.length / 2 ≤ 31

/-- `parsehex` refuses the text or stays within `auts`; it accepts the texts that fit and no others;
and it reads them as `convert_ascii_to_binary` does. -/
def Meets (synchauts : List Char) : Prop :=
  let text := cString synchauts
  ∀ stack : Nat → Byte, ∃ accepted dst, parseAuts synchauts stack = some (accepted, dst) ∧
    (accepted = false ∨ Buffer.Within 31 dst) ∧
    (accepted = true ↔ Fits text) ∧
    (Fits text → dst.contents (text.length / 2) =
      List.ofFn (convertAsciiToBinary (text.length / 2) (String.ofList text)))

/-- Nothing is written behind `auts`, whatever is returned. -/
def Confined (synchauts : List Char) : Prop :=
  ∀ stack : Nat → Byte, ∃ accepted dst, parseAuts synchauts stack = some (accepted, dst) ∧
    Buffer.Within 31 dst

/-- A text of even length that does not fit, and has digits among its first `n` characters only. -/
def Overlong (n : Nat) (text : List Char) : Prop :=
  text.length % 2 = 0 ∧ 62 < text.length ∧ ∀ c ∈ text.take n, IsHex c

/-! ### The loop -/

/-- **What the loop does**: it writes the bytes up to where no two digits follow, and accepts if
nothing is left; unless there are so many that `i` overflows. -/
theorem parsehexLoop_spec (src : List Char) (k : Nat) (dst : Buffer Byte) :
    (k + (Hex.decodePrefix Hex.ofChar src).length < 2 ^ 30 → ∃ dst',
      parsehexLoop src (2 * k) dst = some ((Hex.decode Hex.ofChar src).isSome, dst') ∧
        Buffer.Filled dst k (Hex.decodePrefix Hex.ofChar src) dst') ∧
    (k < 2 ^ 30 → 2 ^ 30 ≤ k + (Hex.decodePrefix Hex.ofChar src).length →
      parsehexLoop src (2 * k) dst = none) := by
  induction src using Hex.induction_on_pairs Hex.ofChar generalizing k dst with
  | nil =>
    refine ⟨fun _ => ⟨dst, rfl, Buffer.filled_nil dst k⟩, ?_⟩
    intro hk hlong
    exact absurd hlong (Nat.not_le.mpr hk)
  | single c =>
    refine ⟨fun _ => ⟨dst, rfl, Buffer.filled_nil dst k⟩, ?_⟩
    intro hk hlong
    exact absurd hlong (Nat.not_le.mpr hk)
  | digits c d v w src hc hd ih =>
    obtain ⟨hfilled, hnone⟩ := ih (k + 1) (dst.write k (Hex.pair v w))
    have hstep : parsehexLoop (c :: d :: src) (2 * k) dst =
        if 2 * (k + 1) < 2 ^ 31 then parsehexLoop src (2 * (k + 1)) (dst.write k (Hex.pair v w))
        else none := by
      rw [parsehexLoop, validHex_eq, validHex_eq, hc, hd, toHex_of_some hc, toHex_of_some hd,
        Hex.shift_or_eq_pair, Nat.mul_div_cancel_left k Nat.two_pos]
      rfl
    rw [Hex.decodePrefix_pair hc hd, List.length_cons, Hex.decode_pair hc hd, Option.isSome_map,
      hstep]
    refine ⟨?_, ?_⟩
    · intro hroom
      obtain ⟨dst', hrun, hdst'⟩ := hfilled (by omega)
      refine ⟨dst', ?_, hdst'.cons⟩
      rw [if_pos (by omega)]
      exact hrun
    · intro hk hlong
      split
      · exact hnone (by omega) (by omega)
      · rfl
  | stop c d src hno =>
    obtain ⟨hdecode, hprefix⟩ := Hex.decode_stop hno src
    have hstep : parsehexLoop (c :: d :: src) (2 * k) dst = some (false, dst) := by
      rw [parsehexLoop, validHex_eq, validHex_eq]
      cases hc : (Hex.ofChar c).isSome with
      | false => rfl
      | true =>
        cases hd : (Hex.ofChar d).isSome with
        | false => rfl
        | true => exact absurd ⟨hc, hd⟩ hno
    rw [hdecode, hprefix, hstep]
    refine ⟨fun _ => ⟨dst, rfl, Buffer.filled_nil dst k⟩, ?_⟩
    intro hk hlong
    exact absurd hlong (Nat.not_le.mpr hk)

/-- The truncation to an `int` does not change the parity. -/
theorem tmod_srclen (n : Nat) : ((n : Int).bmod (2 ^ 32)).tmod 2 ≠ 0 ↔ n % 2 ≠ 0 := by
  have hparity : (2 : Int) ∣ (n : Int).bmod (2 ^ 32) ↔ n % 2 = 0 := by
    rw [Int.bmod_def]
    split <;> omega
  rw [ne_eq, ← Int.dvd_iff_tmod_eq_zero, hparity]

/-! ### The call of `synchFix` -/

/-- What is written: nothing if the length is odd. -/
def written (text : List Char) : List Byte :=
  if text.length % 2 = 0 then Hex.decodePrefix Hex.ofChar text else []

/-- **What the call does**, as long as `i` does not overflow. -/
theorem parseAuts_of_lt {synchauts : List Char} (h : (written (cString synchauts)).length < 2 ^ 30)
    (stack : Nat → Byte) :
    ∃ dst, parseAuts synchauts stack =
        some ((Hex.decode Hex.ofChar (cString synchauts)).isSome, dst) ∧
      Buffer.Filled (auts stack) 0 (written (cString synchauts)) dst := by
  rw [parseAuts, parsehex]
  generalize cString synchauts = text at h ⊢
  rw [if_neg fun h => h.1 rfl, if_congr (tmod_srclen text.length) rfl rfl]
  unfold written at h ⊢
  by_cases heven : text.length % 2 = 0
  · rw [if_neg (not_not.mpr heven), if_pos heven]
    rw [if_pos heven] at h
    exact (parsehexLoop_spec text 0 (auts stack)).1 (by omega)
  · have hnone : (Hex.decode Hex.ofChar text).isSome = false := by
      rw [← Bool.not_eq_true, Hex.decode_isSome_iff]
      exact fun h => heven h.1
    rw [if_pos heven, if_neg heven, hnone]
    exact ⟨auts stack, rfl, Buffer.filled_nil (auts stack) 0⟩

theorem parseAuts_of_ge {synchauts : List Char}
    (h : 2 ^ 30 ≤ (written (cString synchauts)).length) (stack : Nat → Byte) :
    parseAuts synchauts stack = none := by
  rw [parseAuts, parsehex]
  generalize cString synchauts = text at h ⊢
  rw [if_neg fun h => h.1 rfl, if_congr (tmod_srclen text.length) rfl rfl]
  unfold written at h
  by_cases heven : text.length % 2 = 0
  · rw [if_pos heven] at h
    rw [if_neg (not_not.mpr heven)]
    exact (parsehexLoop_spec text 0 (auts stack)).2 (by decide) (by omega)
  · rw [if_neg heven] at h
    exact absurd h (by decide)

/-- How many bytes are written at least. -/
theorem lt_length_written_iff (text : List Char) (n : Nat) :
    n < (written text).length ↔
      text.length % 2 = 0 ∧ 2 * n < text.length ∧ ∀ c ∈ text.take (2 * (n + 1)), IsHex c := by
  unfold written
  by_cases heven : text.length % 2 = 0
  · rw [if_pos heven, ← Nat.succ_le_iff, Nat.succ_eq_add_one, Hex.le_length_decodePrefix_iff]
    constructor
    · rintro ⟨hlength, hall⟩
      exact ⟨heven, by omega, hall⟩
    · rintro ⟨-, hlength, hall⟩
      exact ⟨by omega, hall⟩
  · rw [if_neg heven]
    refine iff_of_false (Nat.not_lt_zero n) ?_
    exact fun h => heven h.1

/-- A text that is accepted is written as `convert_ascii_to_binary` converts it. -/
theorem written_of_decode {text : List Char} {bytes : List Byte}
    (h : Hex.decode Hex.ofChar text = some bytes) :
    written text = bytes ∧ text.length / 2 = bytes.length ∧
      List.ofFn (convertAsciiToBinary (text.length / 2) (String.ofList text)) = bytes := by
  have hlength := Hex.length_decode h
  have hhalf : text.length / 2 = bytes.length := by omega
  refine ⟨?_, hhalf, ?_⟩
  · rw [written, if_pos (by omega), Hex.decodePrefix_of_decode h]
  · rw [hhalf]
    refine List.ext_getElem (by simp) ?_
    intro i hi hi'
    have htext : Hex.decode Hex.ofChar (String.ofList text).toList = some bytes := by
      rw [String.toList_ofList]
      exact h
    rw [List.getElem_ofFn, convertAsciiToBinary_of_decode htext, List.getD_eq_getElem _ _ hi']

theorem fits_iff (text : List Char) :
    Fits text ↔ (Hex.decode Hex.ofChar text).isSome ∧ (written text).length ≤ 31 := by
  have hsome : (Hex.decode Hex.ofChar text).isSome ↔ text.length % 2 = 0 ∧ ∀ c ∈ text, IsHex c :=
    Hex.decode_isSome_iff text
  constructor
  · rintro ⟨heven, hall, hfits⟩
    have hdecode := hsome.mpr ⟨heven, hall⟩
    obtain ⟨bytes, hbytes⟩ := Option.isSome_iff_exists.mp hdecode
    obtain ⟨hwritten, hhalf, -⟩ := written_of_decode hbytes
    refine ⟨hdecode, ?_⟩
    rw [hwritten, ← hhalf]
    exact hfits
  · rintro ⟨hdecode, hfits⟩
    obtain ⟨heven, hall⟩ := hsome.mp hdecode
    obtain ⟨bytes, hbytes⟩ := Option.isSome_iff_exists.mp hdecode
    obtain ⟨hwritten, hhalf, -⟩ := written_of_decode hbytes
    refine ⟨heven, hall, ?_⟩
    rw [hhalf, ← hwritten]
    exact hfits

theorem meets_iff_written (synchauts : List Char) :
    Meets synchauts ↔ (written (cString synchauts)).length < 2 ^ 30 ∧
      ((Hex.decode Hex.ofChar (cString synchauts)).isSome →
        (written (cString synchauts)).length ≤ 31) := by
  by_cases hroom : (written (cString synchauts)).length < 2 ^ 30
  · constructor
    · intro h
      refine ⟨hroom, ?_⟩
      intro hsome
      obtain ⟨accepted, dst, hrun, -, hfits, -⟩ := h fun _ => 0
      obtain ⟨dst', hrun', -⟩ := parseAuts_of_lt hroom fun _ => 0
      rw [hrun, hsome] at hrun'
      obtain ⟨rfl, rfl⟩ := Prod.mk.inj (Option.some.inj hrun')
      exact ((fits_iff _).mp (hfits.mp rfl)).2
    · rintro ⟨-, hfits⟩ stack
      obtain ⟨dst, hrun, hfilled⟩ := parseAuts_of_lt hroom stack
      refine ⟨_, dst, hrun, ?_, ?_, ?_⟩
      · cases hsome : (Hex.decode Hex.ofChar (cString synchauts)).isSome with
        | false => exact Or.inl rfl
        | true => exact Or.inr ((hfilled.stays_within_iff 31).mpr (hfits hsome))
      · rw [fits_iff]
        constructor
        · intro hsome
          exact ⟨hsome, hfits hsome⟩
        · intro h
          exact h.1
      · intro htext
        obtain ⟨bytes, hbytes⟩ := Option.isSome_iff_exists.mp ((fits_iff _).mp htext).1
        obtain ⟨hwritten, hhalf, hconverted⟩ := written_of_decode hbytes
        rw [hwritten] at hfilled
        rw [hconverted, hhalf, hfilled.contents_of_le (Nat.le_refl _), List.take_length]
  · refine iff_of_false ?_ fun h => hroom h.1
    intro h
    obtain ⟨accepted, dst, hrun, -⟩ := h fun _ => 0
    rw [parseAuts_of_ge (by omega)] at hrun
    exact absurd hrun nofun

theorem confined_iff_written (synchauts : List Char) :
    Confined synchauts ↔ (written (cString synchauts)).length ≤ 31 := by
  constructor
  · intro h
    obtain ⟨accepted, dst, hrun, hwithin⟩ := h fun _ => 0
    by_cases hroom : (written (cString synchauts)).length < 2 ^ 30
    · obtain ⟨dst', hrun', hfilled⟩ := parseAuts_of_lt hroom fun _ => 0
      rw [hrun] at hrun'
      obtain ⟨-, rfl⟩ := Prod.mk.inj (Option.some.inj hrun')
      exact (hfilled.stays_within_iff 31).mp hwithin
    · rw [parseAuts_of_ge (by omega)] at hrun
      exact absurd hrun nofun
  · intro hfits stack
    have hroom : (written (cString synchauts)).length < 2 ^ 30 := by omega
    obtain ⟨dst, hrun, hfilled⟩ := parseAuts_of_lt hroom stack
    exact ⟨_, dst, hrun, (hfilled.stays_within_iff 31).mpr hfits⟩

/-- **When `parsehex` does what is meant.**  It goes wrong for the texts of even length that do not
fit and have only digits, as far as `i` can count.  And it stays within `auts` unless the first 64
characters of a text of even length are digits, also where it refuses the text afterwards. -/
theorem parsehex_iff (synchauts : List Char) :
    (Meets synchauts ↔ ¬Overlong (2 ^ 31) (cString synchauts)) ∧
      (Confined synchauts ↔ ¬Overlong 64 (cString synchauts)) := by
  rw [meets_iff_written, confined_iff_written]
  generalize cString synchauts = text
  have hover := lt_length_written_iff text 31
  have hlong := lt_length_written_iff text (2 ^ 30 - 1)
  rw [show 2 * (2 ^ 30 - 1 + 1) = 2 ^ 31 by norm_num] at hlong
  have hsome : (Hex.decode Hex.ofChar text).isSome ↔ text.length % 2 = 0 ∧ ∀ c ∈ text, IsHex c :=
    Hex.decode_isSome_iff text
  refine ⟨?_, ?_⟩
  · constructor
    · rintro ⟨hroom, hfits⟩ ⟨heven, hlength, hall⟩
      by_cases hshort : text.length ≤ 2 ^ 31
      · rw [List.take_of_length_le hshort] at hall
        have hle := hfits (hsome.mpr ⟨heven, hall⟩)
        have hlt := hover.mpr ⟨heven, hlength, fun c hc => hall c (List.mem_of_mem_take hc)⟩
        omega
      · have hlt := hlong.mpr ⟨heven, by omega, hall⟩
        omega
    · intro h
      refine ⟨?_, ?_⟩
      · by_contra hroom
        obtain ⟨heven, hlength, hall⟩ := hlong.mp (by omega)
        exact h ⟨heven, by omega, hall⟩
      · intro hdecode
        by_contra hfits
        obtain ⟨heven, hlength, -⟩ := hover.mp (by omega)
        exact h ⟨heven, hlength, fun c hc => (hsome.mp hdecode).2 c (List.mem_of_mem_take hc)⟩
  · rw [← Nat.not_lt, hover]
    rfl

/-- 64 digits are accepted, and the byte 31 is written. -/
theorem not_parsehex : ¬Meets (List.replicate 64 '0') := by
  have hrun : (parseAuts (List.replicate 64 '0') fun _ => 0).map
      (fun r => (r.1, decide (31 ∈ r.2.written))) = some (true, true) := by
    decide +kernel
  intro h
  obtain ⟨accepted, dst, hparse, hwithin, -⟩ := h fun _ => 0
  rw [hparse, Option.map_some] at hrun
  obtain ⟨rfl, hover⟩ := Prod.mk.inj (Option.some.inj hrun)
  rcases hwithin with hrefused | hwithin
  · exact absurd hrefused (by decide)
  · exact absurd (hwithin 31 (of_decide_eq_true hover)) (by decide)

/-! ### The rest of `synchFix` -/

/-- For a text that fits, `auts` is what `synchFix` goes on with. -/
theorem parseAuts_autsBuffer {text : List Char} (hnul : nul ∉ text) {bytes : List Byte}
    (h : Air.parsehex (String.ofList text) (-1) = some bytes) (hfits : bytes.length ≤ 31)
    (stack : Nat → Byte) :
    ∃ dst, parseAuts text stack = some (true, dst) ∧
      dst.contents 31 = List.ofFn (autsBuffer bytes) := by
  have hstring : cString text = text := by
    rw [cString, List.takeWhile_eq_self_iff]
    intro c hc
    rw [decide_eq_true_eq]
    rintro rfl
    exact hnul hc
  have hdecode : Hex.decode Hex.ofChar text = some bytes := by
    rw [Air.parsehex, String.toList_ofList, if_neg fun h => h.1 rfl] at h
    split at h
    · cases h
    · rw [← h, parsehexLoop_eq]
  obtain ⟨hwritten, -, -⟩ := written_of_decode hdecode
  have hroom : (written (cString text)).length < 2 ^ 30 := by
    rw [hstring, hwritten]
    omega
  obtain ⟨dst, hrun, hfilled⟩ := parseAuts_of_lt hroom stack
  rw [hstring, hdecode] at hrun
  rw [hstring, hwritten] at hfilled
  refine ⟨dst, hrun, ?_⟩
  refine List.ext_getElem (by simp) ?_
  intro i hi hi'
  have hlt : i < 31 := by simpa using hi
  rw [List.getElem_ofFn, ← Buffer.cells_of_contents rfl hi, hfilled.cell, if_pos hlt, autsBuffer]

end OpenairHss.Auts
