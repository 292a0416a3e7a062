import OpenairHss.Lib.Buffer
import OpenairHss.Lib.Hex

/-!
# Hexadecimal text

`hexa_to_ascii` and `ascii_to_hex` of `conversion.c`, with their tables.

The table of `ascii_to_hex` has the entries of `ascii_to_dec_table`: the letters are missing, in
both cases.  So a text is refused if a letter is among its digits, and a byte with one of the digits
`a` to `f` is not read back (`conversion_iff`).

The index of `hexa_to_ascii` is an `int`, and twice the index is computed on it; the index of
`ascii_to_hex` is an `unsigned`.
-/

namespace OpenairHss.Hsssec

/-! ### The code -/

def hexToAsciiTable (n : Fin 16) : BitVec 8 :=
  #v[0x30#8, 0x31#8, 0x32#8, 0x33#8, 0x34#8, 0x35#8, 0x36#8, 0x37#8,
    0x38#8, 0x39#8, 0x61#8, 0x62#8, 0x63#8, 0x64#8, 0x65#8, 0x66#8][n]

/-- `ascii_to_hex_table`: its entries 48 to 57 are the numbers 0 to 9. -/
def asciiToHexTable (c : BitVec 8) : Int :=
  (List.replicate 48 (-1) ++ [0, 1, 2, 3, 4, 5, 6, 7, 8, 9] ++
    List.replicate 198 (-1)).getD c.toNat (-1)

theorem half_lt (b : BitVec 8) : b.toNat % 16 < 16 := Nat.mod_lt _ (by decide)

/-- The loop of `hexa_to_ascii` from the index `i` on.  `none`: `2 * i` or `2 * i + 1` is no
`int`. -/
def hexaToAsciiLoop : List (BitVec 8) → Nat → Buffer (BitVec 8) → Option (Buffer (BitVec 8))
  | [], _, dst => some dst
  | b :: src, i, dst =>
    if 2 * i + 1 < 2 ^ 31 then
      let upper := (b &&& 0xf0) >>> 4
      let lower := b &&& 0x0f
      let dst := dst.write (2 * i) (hexToAsciiTable ⟨upper.toNat % 16, half_lt upper⟩)
      let dst := dst.write (2 * i + 1) (hexToAsciiTable ⟨lower.toNat % 16, half_lt lower⟩)
      hexaToAsciiLoop src (i + 1) dst
    else none

/-- `hexa_to_ascii`; `src` and `dst` are `from` and `to` in the source, and `length` is the length
of `src`. -/
def hexaToAscii (src : List (BitVec 8)) (dst : Buffer (BitVec 8)) : Option (Buffer (BitVec 8)) :=
  hexaToAsciiLoop src 0 dst

/-- `isspace`, in the locale `C`. -/
def isspace (c : BitVec 8) : Bool := c = 0x20 || (0x09 ≤ c && c ≤ 0x0d)

/-- The loop of `ascii_to_hex` up to the end of the string.  `high` is the first digit of a byte, if
one was read. -/
def asciiToHexLoop :
    List (BitVec 8) → Option Int → Nat → Buffer (BitVec 8) → Int × Buffer (BitVec 8)
  | [], none, _, dst => (1, dst)
  | [], some _, _, dst => (0, dst)
  | c :: hex, high, i, dst =>
    if isspace c then asciiToHexLoop hex high i dst
    else if asciiToHexTable c < 0 then (0, dst)
    else match high with
      | none => asciiToHexLoop hex (some (asciiToHexTable c)) i dst
      | some high =>
        -- the index is an unsigned
        asciiToHexLoop hex none ((i + 1) % 2 ^ 32)
          (dst.write i (BitVec.ofInt 8 high <<< 4 ||| BitVec.ofInt 8 (asciiToHexTable c)))

/-- A string in memory, up to its end. -/
def cString (h : List (BitVec 8)) : List (BitVec 8) := h.takeWhile (· ≠ 0)

/-- `ascii_to_hex`: what it returns, and `dst`. -/
def asciiToHex (dst : Buffer (BitVec 8)) (h : List (BitVec 8)) : Int × Buffer (BitVec 8) :=
  asciiToHexLoop (cString h) none 0 dst

/-! ### What is meant -/

/-- A hexadecimal digit, in either case. -/
def hexDigit (c : BitVec 8) : Option (Fin 16) := Hex.ofAscii c.toNat

def isdigit (c : BitVec 8) : Bool := 48 ≤ c.toNat && c.toNat ≤ 57

/-- What a string has besides white space. -/
def digits (h : List (BitVec 8)) : List (BitVec 8) := (cString h).filter fun c => !isspace c

/-- An even number of hexadecimal digits, with white space. -/
def HexText (h : List (BitVec 8)) : Prop :=
  (digits h).length % 2 = 0 ∧ ∀ c ∈ digits h, (hexDigit c).isSome

/-- `ascii_to_hex` takes a string if and only if it is such a text, and then writes the bytes that
the text denotes. -/
def Decodes (h : List (BitVec 8)) : Prop :=
  ∀ cells : Nat → BitVec 8,
    let r := asciiToHex (Buffer.fresh cells) h
    (r.1 = 1 ↔ HexText h) ∧
      ∀ bytes, Hex.decode hexDigit (digits h) = some bytes → r.2.contents bytes.length = bytes

/-- `hexa_to_ascii` writes a text for the bytes, and `ascii_to_hex` takes it, with a NUL behind it,
and writes the bytes. -/
def RoundTrips (b : List (BitVec 8)) : Prop :=
  ∀ cells cells' : Nat → BitVec 8, ∃ text, hexaToAscii b (Buffer.fresh cells) = some text ∧
    let r := asciiToHex (Buffer.fresh cells') (text.contents (2 * b.length) ++ [0])
    r.1 = 1 ∧ r.2.contents b.length = b

/-! ### Reading -/

/-- The digits of the table. -/
def tableDigit (c : BitVec 8) : Option (Fin 16) := if isdigit c then hexDigit c else none

theorem isdigit_iff (c : BitVec 8) : isdigit c = true ↔ 48 ≤ c.toNat ∧ c.toNat ≤ 57 := by
  rw [isdigit, Bool.and_eq_true, decide_eq_true_eq, decide_eq_true_eq]

theorem tableDigit_isSome (c : BitVec 8) : (tableDigit c).isSome = isdigit c := by
  rw [tableDigit]
  by_cases h : isdigit c = true
  · rw [if_pos h, h]
    exact (Hex.ofAscii_isSome_iff c.toNat).mpr (Or.inl ((isdigit_iff c).mp h))
  · rw [if_neg h, Bool.eq_false_of_not_eq_true h]
    rfl

theorem hexDigit_of_tableDigit (c : BitVec 8) (v : Fin 16) (h : tableDigit c = some v) :
    hexDigit c = some v := by
  unfold tableDigit at h
  split at h
  · exact h
  · exact absurd h nofun

theorem hexDigit_isSome {c : BitVec 8} (h : isdigit c) : (hexDigit c).isSome := by
  rw [← tableDigit_isSome] at h
  obtain ⟨v, hv⟩ := Option.isSome_iff_exists.mp h
  rw [hexDigit_of_tableDigit c v hv]
  rfl

/-- What the table has, and where. -/
theorem asciiToHexTable_eq (c : BitVec 8) :
    asciiToHexTable c = ((tableDigit c).map fun v => (v : Int)).getD (-1) := by
  have hdigits : ∀ v : Fin 10, [(0 : Int), 1, 2, 3, 4, 5, 6, 7, 8, 9].getD v (-1) = v := by decide
  rw [asciiToHexTable, tableDigit]
  by_cases hdigit : isdigit c = true
  · have hc := (isdigit_iff c).mp hdigit
    have hvalue : hexDigit c = some ⟨c.toNat - 48, by omega⟩ := dif_pos hc
    rw [if_pos hdigit, hvalue, List.getD_append _ _ _ _ (by simp; omega),
      List.getD_append_right _ _ _ _ (by simp; omega), List.length_replicate]
    exact hdigits ⟨c.toNat - 48, by omega⟩
  · rw [if_neg hdigit]
    rw [isdigit_iff] at hdigit
    by_cases hlow : c.toNat < 48
    · rw [List.getD_append _ _ _ _ (by simp; omega), List.getD_append _ _ _ _ (by simpa using hlow)]
      exact List.getD_replicate _ hlow
    · have hlt := c.isLt
      rw [List.getD_append_right _ _ _ _ (by simp; omega)]
      refine List.getD_replicate _ ?_
      simp only [List.length_append, List.length_replicate, List.length_cons, List.length_nil]
      omega

theorem isspace_of_tableDigit {c : BitVec 8} {v : Fin 16} (h : tableDigit c = some v) :
    isspace c = false := by
  have hdigit : isdigit c = true := by
    rw [← tableDigit_isSome, h]
    rfl
  rw [isdigit_iff] at hdigit
  simp only [isspace, Bool.or_eq_false_iff, Bool.and_eq_false_iff, decide_eq_false_iff_not]
  bv_omega

/-- White space is skipped. -/
theorem asciiToHexLoop_filter (hex : List (BitVec 8)) (high : Option Int) (i : Nat)
    (dst : Buffer (BitVec 8)) :
    asciiToHexLoop hex high i dst =
      asciiToHexLoop (hex.filter fun c => !isspace c) high i dst := by
  induction hex generalizing high i dst with
  | nil => rfl
  | cons c hex ih =>
    by_cases hspace : isspace c
    · rw [asciiToHexLoop.eq_def, List.filter_cons_of_neg (by simpa using hspace)]
      simp only [hspace, if_true]
      exact ih high i dst
    · rw [List.filter_cons_of_pos (by simpa using hspace), asciiToHexLoop.eq_def,
        asciiToHexLoop.eq_def (_ :: _)]
      simp only [hspace]
      cases high with
      | none => simp only [ih]
      | some high => simp only [ih]

/-- A byte is written. -/
theorem asciiToHexLoop_pair {c d : BitVec 8} {v w : Fin 16} (hc : tableDigit c = some v)
    (hd : tableDigit d = some w) (hex : List (BitVec 8)) (i : Nat) (dst : Buffer (BitVec 8)) :
    asciiToHexLoop (c :: d :: hex) none i dst =
      asciiToHexLoop hex none ((i + 1) % 2 ^ 32) (dst.write i (Hex.pair v w)) := by
  have hcv : asciiToHexTable c = (v : Int) := by
    rw [asciiToHexTable_eq, hc]
    rfl
  have hdw : asciiToHexTable d = (w : Int) := by
    rw [asciiToHexTable_eq, hd]
    rfl
  have hv : ¬(v : Int) < 0 := by omega
  have hw : ¬(w : Int) < 0 := by omega
  have hbyte : BitVec.ofInt 8 v <<< 4 ||| BitVec.ofInt 8 w = Hex.pair v w :=
    Hex.shift_or_eq_pair v w
  rw [asciiToHexLoop, isspace_of_tableDigit hc, hcv, if_neg Bool.false_ne_true, if_neg hv]
  rw [asciiToHexLoop, isspace_of_tableDigit hd, hdw, if_neg Bool.false_ne_true, if_neg hw, hbyte]

/-- What is no digit and no white space ends the loop. -/
theorem asciiToHexLoop_no {c : BitVec 8} (hspace : isspace c = false) (hc : tableDigit c = none)
    (hex : List (BitVec 8)) (high : Option Int) (i : Nat) (dst : Buffer (BitVec 8)) :
    asciiToHexLoop (c :: hex) high i dst = (0, dst) := by
  have hneg : asciiToHexTable c < 0 := by
    rw [asciiToHexTable_eq, hc]
    decide
  rw [asciiToHexLoop.eq_def]
  simp only [hspace, if_pos hneg]
  rfl

/-- A single character, or two that are not both digits. -/
theorem asciiToHexLoop_stop {c : BitVec 8} (hspace : isspace c = false) {hex : List (BitVec 8)}
    (hno : (tableDigit c).isSome → hex = [] ∨
      ∃ d hex', hex = d :: hex' ∧ isspace d = false ∧ tableDigit d = none)
    (i : Nat) (dst : Buffer (BitVec 8)) : asciiToHexLoop (c :: hex) none i dst = (0, dst) := by
  cases hc : tableDigit c with
  | none => exact asciiToHexLoop_no hspace hc hex none i dst
  | some v =>
    have hcv : asciiToHexTable c = (v : Int) := by
      rw [asciiToHexTable_eq, hc]
      rfl
    rw [asciiToHexLoop, hspace, hcv, if_neg Bool.false_ne_true, if_neg (by omega)]
    rw [hc] at hno
    rcases hno rfl with rfl | ⟨d, hex', rfl, hd, hnone⟩
    · rfl
    · exact asciiToHexLoop_no hd hnone hex' _ i dst

/-- What the loop has done from the index `i` on, if it should read `bytes?`. -/
structure Reads (dst : Buffer (BitVec 8)) (i : Nat) (bytes? : Option (List (BitVec 8)))
    (r : Int × Buffer (BitVec 8)) : Prop where
  returned : r.1 = 1 ↔ bytes?.isSome
  filled : ∀ bytes, bytes? = some bytes → i + bytes.length ≤ 2 ^ 32 → Buffer.Filled dst i bytes r.2

theorem reads_none (dst : Buffer (BitVec 8)) (i : Nat) : Reads dst i none (0, dst) :=
  ⟨iff_of_false Int.zero_ne_one Bool.false_ne_true, fun _ h => absurd h nofun⟩

/-- **What the loop reads**, of a text without white space: it ends with 1 if and only if the text
spells bytes with the digits of the table, and then has written these, as long as the index fits. -/
theorem asciiToHexLoop_reads {text : List (BitVec 8)} (hspace : ∀ c ∈ text, isspace c = false)
    (i : Nat) (dst : Buffer (BitVec 8)) :
    Reads dst i (Hex.decode tableDigit text) (asciiToHexLoop text none (i % 2 ^ 32) dst) := by
  induction text using Hex.induction_on_pairs tableDigit generalizing i dst with
  | nil =>
    refine ⟨iff_of_true rfl rfl, ?_⟩
    intro bytes h _
    obtain rfl := Option.some.inj h
    exact Buffer.filled_nil dst i
  | single c =>
    rw [asciiToHexLoop_stop (hspace c (by simp)) (fun _ => Or.inl rfl)]
    exact reads_none dst i
  | digits c d v w text hc hd ih =>
    have hrest := ih (fun c hc => hspace c (by simp [hc])) (i + 1)
      (dst.write (i % 2 ^ 32) (Hex.pair v w))
    rw [asciiToHexLoop_pair hc hd, Hex.decode_pair hc hd, Nat.mod_add_mod]
    refine ⟨?_, ?_⟩
    · rw [Option.isSome_map]
      exact hrest.returned
    · intro bytes h hroom
      obtain ⟨bytes, hbytes, rfl⟩ := Option.map_eq_some_iff.mp h
      rw [List.length_cons] at hroom
      have hi : i % 2 ^ 32 = i := Nat.mod_eq_of_lt (by omega)
      rw [hi] at hrest ⊢
      exact (hrest.filled bytes hbytes (by omega)).cons
  | stop c d text hno =>
    have hsecond : (tableDigit c).isSome → tableDigit d = none := by
      intro hc
      rw [← Option.not_isSome_iff_eq_none]
      exact fun hd => hno ⟨hc, hd⟩
    rw [(Hex.decode_stop hno text).1, asciiToHexLoop_stop (hspace c (by simp))
      fun hc => Or.inr ⟨d, text, rfl, hspace d (by simp), hsecond hc⟩]
    exact reads_none dst i

/-- The index stays an `unsigned`. -/
theorem asciiToHexLoop_cells (hex : List (BitVec 8)) (high : Option Int) {i : Nat} (hi : i < 2 ^ 32)
    (dst : Buffer (BitVec 8)) {j : Nat} (hj : 2 ^ 32 ≤ j) :
    (asciiToHexLoop hex high i dst).2.cells j = dst.cells j := by
  induction hex generalizing high i dst with
  | nil =>
    cases high with
    | none => rfl
    | some high => rfl
  | cons c hex ih =>
    rw [asciiToHexLoop.eq_def]
    dsimp only
    split
    · exact ih high hi dst
    split
    · rfl
    cases high with
    | none => exact ih _ hi dst
    | some high =>
      have hnext : (i + 1) % 2 ^ 32 < 2 ^ 32 := Nat.mod_lt _ (by decide)
      rw [ih none hnext, Buffer.write_cells_of_ne _ _ (by omega)]

/-- What `ascii_to_hex` reads of a string. -/
theorem asciiToHex_reads (h : List (BitVec 8)) (dst : Buffer (BitVec 8)) :
    Reads dst 0 (Hex.decode tableDigit (digits h)) (asciiToHex dst h) := by
  rw [asciiToHex, asciiToHexLoop_filter]
  refine asciiToHexLoop_reads ?_ 0 dst
  intro c hc
  simpa using (List.mem_filter.mp hc).2

/-! ### Writing -/

/-- The code of a digit is the table's entry. -/
theorem hexDigit_hexToAsciiTable (v : Fin 16) : hexDigit (hexToAsciiTable v) = some v := by
  revert v
  decide

theorem isdigit_hexToAsciiTable (v : Fin 16) : isdigit (hexToAsciiTable v) ↔ (v : Nat) ≤ 9 := by
  revert v
  decide

theorem isspace_hexToAsciiTable (v : Fin 16) :
    isspace (hexToAsciiTable v) = false ∧ hexToAsciiTable v ≠ 0 := by
  revert v
  decide

theorem halves_eq (b : BitVec 8) :
    (⟨((b &&& 0xf0) >>> 4).toNat % 16, half_lt _⟩ : Fin 16) = Hex.high b ∧
      (⟨(b &&& 0x0f).toNat % 16, half_lt _⟩ : Fin 16) = Hex.low b := by
  constructor
  · apply Fin.ext
    show ((b &&& 0xf0) >>> 4).toNat % 16 = Hex.high b
    rw [Hex.toNat_and_shift, Nat.mod_eq_of_lt (Hex.high b).isLt]
  · apply Fin.ext
    show (b &&& 0x0f).toNat % 16 = Hex.low b
    rw [Hex.toNat_and_low, Nat.mod_eq_of_lt (Hex.low b).isLt]

/-- **What the loop writes**, as long as the index fits. -/
theorem hexaToAsciiLoop_filled (src : List (BitVec 8)) {i : Nat} (hroom : i + src.length ≤ 2 ^ 30)
    (dst : Buffer (BitVec 8)) :
    ∃ dst', hexaToAsciiLoop src i dst = some dst' ∧
      Buffer.Filled dst (2 * i) (Hex.encode hexToAsciiTable src) dst' := by
  induction src generalizing i dst with
  | nil => exact ⟨dst, rfl, Buffer.filled_nil dst (2 * i)⟩
  | cons b src ih =>
    rw [List.length_cons] at hroom
    obtain ⟨hhigh, hlow⟩ := halves_eq b
    obtain ⟨dst', hrun, hfilled⟩ := ih (i := i + 1) (by omega)
      ((dst.write (2 * i) (hexToAsciiTable (Hex.high b))).write (2 * i + 1)
        (hexToAsciiTable (Hex.low b)))
    refine ⟨dst', ?_, ?_⟩
    · rw [hexaToAsciiLoop, if_pos (by omega)]
      dsimp only
      rw [hhigh, hlow]
      exact hrun
    · rw [Hex.encode_cons]
      exact (Buffer.Filled.cons hfilled).cons

theorem hexaToAsciiLoop_none (src : List (BitVec 8)) {i : Nat} (hroom : 2 ^ 30 < i + src.length)
    (hi : i ≤ 2 ^ 30) (dst : Buffer (BitVec 8)) : hexaToAsciiLoop src i dst = none := by
  induction src generalizing i dst with
  | nil =>
    rw [List.length_nil] at hroom
    omega
  | cons b src ih =>
    rw [List.length_cons] at hroom
    rw [hexaToAsciiLoop]
    split
    · exact ih (by omega) (by omega) _
    · rfl

/-! ### The two directions -/

/-- The text of `hexa_to_ascii`, with what ends it. -/
theorem digits_encode (b : List (BitVec 8)) :
    digits (Hex.encode hexToAsciiTable b ++ [0]) = Hex.encode hexToAsciiTable b := by
  have hno : ∀ c ∈ Hex.encode hexToAsciiTable b, isspace c = false ∧ c ≠ 0 := by
    rw [Hex.forall_mem_encode]
    intro x _
    exact ⟨isspace_hexToAsciiTable _, isspace_hexToAsciiTable _⟩
  have hstring : cString (Hex.encode hexToAsciiTable b ++ [0]) = Hex.encode hexToAsciiTable b := by
    rw [cString, List.takeWhile_append_of_pos (fun c hc => by simpa using (hno c hc).2)]
    simp
  rw [digits, hstring, List.filter_eq_self]
  intro c hc
  rw [(hno c hc).1]
  rfl

/-- The text of `hexa_to_ascii` has only digits of the table. -/
theorem isSome_decode_encode (b : List (BitVec 8)) :
    (Hex.decode tableDigit (Hex.encode hexToAsciiTable b)).isSome ↔
      ∀ x ∈ b, x.toNat / 16 ≤ 9 ∧ x.toNat % 16 ≤ 9 := by
  rw [Hex.decode_isSome_iff, Hex.length_encode, Hex.forall_mem_encode]
  simp only [tableDigit_isSome, isdigit_hexToAsciiTable]
  constructor
  · rintro ⟨-, hall⟩
    exact hall
  · intro hall
    exact ⟨Nat.mul_mod_right 2 b.length, hall⟩

theorem roundTrips_iff_nibbles (b : List (BitVec 8)) :
    RoundTrips b ↔ b.length ≤ 2 ^ 30 ∧ ∀ x ∈ b, x.toNat / 16 ≤ 9 ∧ x.toNat % 16 ≤ 9 := by
  by_cases hroom : b.length ≤ 2 ^ 30
  · have hreads : ∀ cells cells' : Nat → BitVec 8, ∃ text,
        hexaToAscii b (Buffer.fresh cells) = some text ∧
          Reads (Buffer.fresh cells') 0 (Hex.decode tableDigit (Hex.encode hexToAsciiTable b))
            (asciiToHex (Buffer.fresh cells') (text.contents (2 * b.length) ++ [0])) := by
      intro cells cells'
      obtain ⟨text, hrun, hfilled⟩ := hexaToAsciiLoop_filled b (i := 0) (by omega)
        (Buffer.fresh cells)
      have hcontents : text.contents (2 * b.length) = Hex.encode hexToAsciiTable b := by
        rw [← Hex.length_encode hexToAsciiTable b, hfilled.contents_of_le (Nat.le_refl _),
          List.take_length]
      have hread := asciiToHex_reads (Hex.encode hexToAsciiTable b ++ [0]) (Buffer.fresh cells')
      rw [digits_encode] at hread
      refine ⟨text, hrun, ?_⟩
      rw [hcontents]
      exact hread
    rw [← isSome_decode_encode]
    constructor
    · intro h
      obtain ⟨text, hrun, hreturned, -⟩ := h (fun _ => 0) (fun _ => 0)
      obtain ⟨text', hrun', hread⟩ := hreads (fun _ => 0) (fun _ => 0)
      obtain rfl := Option.some.inj (hrun.symm.trans hrun')
      exact ⟨hroom, hread.returned.mp hreturned⟩
    · rintro ⟨-, hsome⟩ cells cells'
      obtain ⟨text, hrun, hread⟩ := hreads cells cells'
      obtain ⟨bytes, hbytes⟩ := Option.isSome_iff_exists.mp hsome
      -- with all digits, the text spells the bytes it was written for
      have hall := Hex.decode_mono hexDigit_of_tableDigit hbytes
      rw [Hex.decode_encode hexToAsciiTable hexDigit_hexToAsciiTable] at hall
      obtain rfl := Option.some.inj hall
      refine ⟨text, hrun, hread.returned.mpr hsome, ?_⟩
      rw [(hread.filled b hbytes (by omega)).contents_of_le (Nat.le_refl _), List.take_length]
  · refine iff_of_false ?_ fun h => hroom h.1
    intro h
    obtain ⟨text, hrun, -⟩ := h (fun _ => 0) (fun _ => 0)
    rw [hexaToAscii, hexaToAsciiLoop_none b (by omega) (by omega)] at hrun
    exact absurd hrun nofun

theorem decodes_iff_decimal (h : List (BitVec 8)) :
    Decodes h ↔ (HexText h → (digits h).length ≤ 2 ^ 33 ∧ ∀ c ∈ digits h, isdigit c) := by
  have htable : (Hex.decode tableDigit (digits h)).isSome ↔
      (digits h).length % 2 = 0 ∧ ∀ c ∈ digits h, isdigit c := by
    rw [Hex.decode_isSome_iff]
    simp only [tableDigit_isSome]
  have hmeant : (Hex.decode hexDigit (digits h)).isSome ↔ HexText h := Hex.decode_isSome_iff _
  have hmono : ∀ bytes, Hex.decode tableDigit (digits h) = some bytes →
      Hex.decode hexDigit (digits h) = some bytes :=
    fun bytes => Hex.decode_mono hexDigit_of_tableDigit
  have hreads : ∀ cells : Nat → BitVec 8, Reads (Buffer.fresh cells) 0
      (Hex.decode tableDigit (digits h)) (asciiToHex (Buffer.fresh cells) h) :=
    fun cells => asciiToHex_reads h (Buffer.fresh cells)
  constructor
  · intro hdecodes htext
    have hsome := (hreads fun _ => 0).returned.mp ((hdecodes fun _ => 0).1.mpr htext)
    obtain ⟨bytes, hbytes⟩ := Option.isSome_iff_exists.mp hsome
    have hlength := Hex.length_decode hbytes
    refine ⟨?_, (htable.mp hsome).2⟩
    by_contra hlong
    -- the cell 2 ^ 32 is not written, and holds what was there
    have hlast : 2 ^ 32 < bytes.length := by omega
    have hcontents := (hdecodes fun _ => bytes[2 ^ 32] + 1).2 bytes (hmono bytes hbytes)
    have hcell := Buffer.cells_of_contents hcontents hlast
    rw [asciiToHex, asciiToHexLoop_cells _ _ (by decide) _ (Nat.le_refl _)] at hcell
    exact absurd (BitVec.add_right_eq_self.mp hcell) (by decide)
  · intro hall cells
    refine ⟨?_, ?_⟩
    · rw [(hreads cells).returned, htable]
      constructor
      · rintro ⟨hlength, hdigits⟩
        exact ⟨hlength, fun c hc => hexDigit_isSome (hdigits c hc)⟩
      · intro htext
        exact ⟨htext.1, (hall htext).2⟩
    · intro bytes hbytes
      have htext : HexText h := hmeant.mp (by rw [hbytes]; rfl)
      obtain ⟨hroom, hdigits⟩ := hall htext
      obtain ⟨bytes', hbytes'⟩ := Option.isSome_iff_exists.mp (htable.mpr ⟨htext.1, hdigits⟩)
      obtain rfl := Option.some.inj ((hmono bytes' hbytes').symm.trans hbytes)
      have hlength := Hex.length_decode hbytes
      rw [((hreads cells).filled bytes' hbytes' (by omega)).contents_of_le (Nat.le_refl _),
        List.take_length]

/-- **When the two functions do what is meant.**  Bytes make the round trip if and only if there are
at most `2 ^ 30` of them and none has a digit above 9; and `ascii_to_hex` is right about a string
unless it is a hexadecimal text with a letter, or one of more than `2 ^ 32` bytes. -/
theorem conversion_iff (b h : List (BitVec 8)) :
    (RoundTrips b ↔ b.length ≤ 2 ^ 30 ∧ ∀ x ∈ b, x.toNat / 16 ≤ 9 ∧ x.toNat % 16 ≤ 9) ∧
    (Decodes h ↔ (HexText h → (digits h).length ≤ 2 ^ 33 ∧ ∀ c ∈ digits h, isdigit c)) :=
  ⟨roundTrips_iff_nibbles b, decodes_iff_decimal h⟩

/-- The byte 0x0a is written as `0a`, which is refused. -/
theorem not_conversion : ¬RoundTrips [0x0a] ∧ ¬Decodes [0x30, 0x61] := by
  refine ⟨?_, ?_⟩
  · intro h
    obtain ⟨text, hrun, hreturned, -⟩ := h (fun _ => 0) (fun _ => 0)
    obtain rfl := Option.some.inj hrun
    exact absurd hreturned (by decide)
  · intro h
    have htext : HexText [0x30, 0x61] := by
      refine ⟨rfl, ?_⟩
      decide
    exact absurd ((h fun _ => 0).1.mpr htext) (by decide)

end OpenairHss.Hsssec
