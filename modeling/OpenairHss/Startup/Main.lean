import OpenairHss.Startup.Precedence
import OpenairHss.DataAccess.OpcKeys

/-!
# The start of the program

`main` takes the options, fills in `hss_config`, and then loads the operator key into the table of the
subscribers, repairs one subscriber, or serves.  The operator key is read from the text of `optkey` by
`sscanf`, if the text has 32 characters; else the key stays zero.

* `scanKey_spells`: what `sscanf` makes of 32 digits.
* `operatorKey_eq`: the operator key that the OPc keys are computed with.
* `main_migrates`: the table of the subscribers after a start that loads the key.
-/

namespace OpenairHss.Startup

open Epc Dns Assign ByteVec Hsssec Cql DataAccess

/-! ### The operator key -/

/-- The digit that a byte stands for. -/
def digit (b : UInt8) : Option (Fin 16) := Hex.ofAscii b.toNat

/-- The digits in front, `width` of them at most. -/
def scanDigits : Nat → Octets → List (Fin 16) × Octets
  | width + 1, b :: s => match digit b with
    | some d => let (ds, s) := scanDigits width s; (d :: ds, s)
    | none => ([], b :: s)
  | _, s => ([], s)

/-- The number in front, which has a digit at least. -/
def scanNumber (width : Nat) (s : Octets) : Option (BitVec 32 × Octets) :=
  match scanDigits width s with
  | ([], _) => none
  | (ds, s) => some (BitVec.ofNat 32 (ds.foldl (fun n d => 16 * n + d) 0), s)

/-- One `%02x` of `sscanf`: blanks, and then a sign, a `0x` and digits in two places. -/
def scanHex (s : Octets) : Option (BitVec 32 × Octets) :=
  match s.dropWhile fun b => b = 0x20 ∨ (0x09 ≤ b ∧ b ≤ 0x0d) with
  | 0x2d :: s => (scanNumber 1 s).map fun r => (-r.1, r.2)
  | 0x2b :: s => scanNumber 1 s
  | 0x30 :: 0x78 :: s => some (0, s)
  | 0x30 :: 0x58 :: s => some (0, s)
  | s => scanNumber 2 s

/-- An `unsigned int` is stored at byte `i`. -/
def store (mem : Nat → BitVec 8) (i : Nat) (v : BitVec 32) : Nat → BitVec 8 := fun j =>
  if i ≤ j ∧ j < i + 4 then v.extractLsb' (8 * (j - i)) 8 else mem j

/-- The conversions from number `i` on; each of them stores four bytes at byte `i`. -/
def scanKey : Nat → Nat → Octets → (Nat → BitVec 8) → Option (Nat → BitVec 8)
  | _, 0, _, mem => some mem
  | i, count + 1, s, mem => (scanHex s).bind fun r => scanKey (i + 1) count r.2 (store mem i r.1)

structure HssConfig where
  cassandra_server : Octets
  cassandra_user : Octets
  cassandra_password : Octets
  cassandra_database : Octets
  operator_key : Octets
  operator_key_bin : Bytes 16
  valid_op : Int
  freediameter_config : Octets
  random_bool : Int

/-- `fillhssconfig`, after `memset`; `none` is `abort`.  No string has a null.  The last conversion runs
into `valid_op`, which is assigned then. -/
def fillhssconfig (o : Options) : Option HssConfig :=
  let config : HssConfig :=
    { cassandra_server := o.values .cassserver
      cassandra_user := o.values .cassuser
      cassandra_password := o.values .casspwd
      cassandra_database := o.values .cassdb
      operator_key := o.values .optkey
      operator_key_bin := fun _ => 0
      valid_op := 0
      freediameter_config := o.values .diameterconfiguration
      random_bool := if o.values .randvector = true then 1 else 0 }
  if config.operator_key.length = 32 then
    (scanKey 0 16 config.operator_key fun _ => 0).map fun mem =>
      { config with operator_key_bin := fun i => mem i, valid_op := 1 }
  else some config

/-! ### The program -/

/-- What `main` has done with `fdHss`. -/
inductive Act
  | initWorkers (numworkers : Int)
  | initdb (server : Octets)
  | updateOpcKeys (opP : Bytes 16)
  | synchFix (imsi auts : Octets)
  | init (config : HssConfig)

/-- What follows when the options are there. -/
def start (o : Options) (config : HssConfig) : List Act :=
  [.initWorkers (o.values .numworkers), .initdb config.cassandra_server] ++
    if o.values .onlyloadkey = true then [.updateOpcKeys config.operator_key_bin]
    else (if o.values .reloadkey = true then [.updateOpcKeys config.operator_key_bin] else []) ++
      if o.values .synchimsi ≠ [] ∧ o.values .synchauts ≠ [] then
        [.synchFix (o.values .synchimsi) (o.values .synchauts)]
      else [.init config]

/-- `main`, with the code that it returns; `exit` is the help, and `abort` a failed assertion or a key
that cannot be read. -/
def main (files : Octets → Option Json) (args : List (Char × Octets)) :
    Options.Outcome (Nat × List Act) :=
  match Options.parse files args with
  | .exit => .exit
  | .abort => .abort
  | .done (false, _) => .done (1, [])
  | .done (true, o) => match fillhssconfig o with
    | none => .abort
    | some config => .done (0, start o config)

/-! ### What `sscanf` reads -/

theorem scanDigits_pair {c d : UInt8} {h l : Fin 16} (hc : digit c = some h) (hd : digit d = some l)
    (s : Octets) : scanDigits 2 (c :: d :: s) = ([h, l], s) := by
  rw [scanDigits, hc]
  simp only
  rw [scanDigits, hd]
  cases s <;> rfl

/-- A digit is no blank, no sign and no `x`. -/
theorem digit_some {b : UInt8} {v : Fin 16} (h : digit b = some v) :
    (b = 0x20 ∨ (0x09 ≤ b ∧ b ≤ 0x0d)) = False ∧ b ≠ 0x2d ∧ b ≠ 0x2b ∧ b ≠ 0x78 ∧ b ≠ 0x58 := by
  have hrange := (Hex.ofAscii_isSome_iff b.toNat).mp (by rw [show Hex.ofAscii b.toNat = _ from h]; rfl)
  simp only [eq_iff_iff, iff_false, ne_eq, UInt8.le_iff_toNat_le, ← UInt8.toNat_inj,
    UInt8.reduceToNat]
  omega

theorem scanNumber_pair {c d : UInt8} {h l : Fin 16} (hc : digit c = some h)
    (hd : digit d = some l) (s : Octets) :
    scanNumber 2 (c :: d :: s) = some (BitVec.ofNat 32 (16 * h + l), s) := by
  rw [scanNumber, scanDigits_pair hc hd]
  simp

theorem scanHex_pair {c d : UInt8} {h l : Fin 16} (hc : digit c = some h) (hd : digit d = some l)
    (s : Octets) : scanHex (c :: d :: s) = some (BitVec.ofNat 32 (16 * h + l), s) := by
  obtain ⟨hblank, hminus, hplus, -, -⟩ := digit_some hc
  obtain ⟨-, -, -, hx, hX⟩ := digit_some hd
  rw [← scanNumber_pair hc hd, scanHex, List.dropWhile_cons_of_neg (by simp [hblank])]
  split
  · rename_i heq
    exact absurd (List.cons.inj heq).1 hminus
  · rename_i heq
    exact absurd (List.cons.inj heq).1 hplus
  · rename_i heq
    exact absurd (List.cons.inj (List.cons.inj heq).2).1 hx
  · rename_i heq
    exact absurd (List.cons.inj (List.cons.inj heq).2).1 hX
  · rfl

theorem store_self (mem : Nat → BitVec 8) (i : Nat) (h l : Fin 16) :
    store mem i (BitVec.ofNat 32 (16 * h + l)) i = Hex.pair h l := by
  rw [store, if_pos (by omega)]
  apply BitVec.eq_of_toNat_eq
  rw [BitVec.extractLsb'_toNat, Hex.pair, BitVec.toNat_ofNat, BitVec.toNat_ofNat]
  simp

theorem store_of_lt {mem : Nat → BitVec 8} {i j : Nat} (h : j < i) (v : BitVec 32) :
    store mem i v j = mem j := if_neg (by omega)

/-- The later conversions leave the bytes that were read, and two digits make each of the others. -/
theorem scanKey_spells {s : Octets} {bytes : List (BitVec 8)}
    (h : Hex.decode digit s = some bytes) (i : Nat) (mem : Nat → BitVec 8) :
    ∃ mem', scanKey i bytes.length s mem = some mem' ∧ (∀ j < i, mem' j = mem j) ∧
      ∀ (k : Nat) (hk : k < bytes.length), mem' (i + k) = bytes[k] := by
  induction s using Hex.induction_on_pairs digit generalizing bytes i mem with
  | nil =>
    cases h
    exact ⟨mem, rfl, fun j hj => rfl, fun k hk => absurd hk (Nat.not_lt_zero k)⟩
  | single c => cases h
  | digits c d v w s hc hd ih =>
    rw [Hex.decode_pair hc hd] at h
    obtain ⟨bytes, hbytes, rfl⟩ := Option.map_eq_some_iff.mp h
    obtain ⟨mem', hscan, hbefore, hafter⟩ := ih hbytes (i + 1)
      (store mem i (BitVec.ofNat 32 (16 * v + w)))
    refine ⟨mem', ?_, ?_, ?_⟩
    · rw [List.length_cons, scanKey, scanHex_pair hc hd]
      exact hscan
    · intro j hj
      rw [hbefore j (by omega), store_of_lt hj]
    · intro k hk
      cases k with
      | zero => exact (hbefore i (Nat.lt_succ_self i)).trans (store_self mem i v w)
      | succ k =>
        have hshift : i + (k + 1) = i + 1 + k := by omega
        rw [hshift, hafter k (Nat.lt_of_succ_lt_succ hk)]
        rfl
  | stop c d s hno =>
    rw [(Hex.decode_stop hno s).1] at h
    cases h

/-! ### The key of a start -/

/-- The operator key that the options are said to give: none is taken from the command line, and none
from a text that is not of 32 characters. -/
def Configured (files : Octets → Option Json) (args : List (Char × Octets)) (K : Bytes 16) : Prop :=
  if 'o' ∈ args.map (·.1) then K = fun _ => 0
  else ∃ text, Options.filed files args .optkey = some text ∧
    if text.length = 32 then Hex.decode digit text = some (List.ofFn K) else K = fun _ => 0

theorem fillhssconfig_spelled {o : Options} {K : Bytes 16} {config : HssConfig}
    (hlength : (o.values .optkey).length = 32)
    (h : Hex.decode digit (o.values .optkey) = some (List.ofFn K))
    (hconfig : fillhssconfig o = some config) : config.operator_key_bin = K := by
  obtain ⟨mem, hscan, -, hmem⟩ := scanKey_spells h 0 fun _ => 0
  rw [List.length_ofFn] at hscan
  unfold fillhssconfig at hconfig
  simp only [hlength, if_true, hscan, Option.map_some, Option.some.injEq] at hconfig
  subst hconfig
  funext i
  have hi := hmem i (by rw [List.length_ofFn]; exact i.isLt)
  rw [Nat.zero_add, List.getElem_ofFn] at hi
  exact hi

theorem fillhssconfig_other {o : Options} {config : HssConfig}
    (hlength : (o.values .optkey).length ≠ 32) (hconfig : fillhssconfig o = some config) :
    config.operator_key_bin = fun _ => 0 := by
  unfold fillhssconfig at hconfig
  simp only [hlength, if_false, Option.some.injEq] at hconfig
  subst hconfig
  rfl

theorem at?_optkey (c : Char) (optarg : Octets) :
    (Options.option c optarg).bind (·.at? .optkey) = if c = 'o' then some [1] else none := by
  by_cases hc : c = 'o'
  · subst hc
    rfl
  · rw [if_neg hc]
    unfold Options.option
    split <;> first | rfl | exact absurd rfl hc

/-- Every `-o` assigns the same text. -/
theorem last_optkey (args : List (Char × Octets)) :
    last (Options.given args) .optkey = if 'o' ∈ args.map (·.1) then some [1] else none := by
  induction args with
  | nil => rfl
  | cons arg args ih =>
    have hhead := at?_optkey arg.1 arg.2
    rw [Options.given_cons, last_append, last_toList, ih, hhead, List.map_cons]
    by_cases hmem : 'o' ∈ args.map (·.1)
    · rw [if_pos hmem, if_pos (List.mem_cons_of_mem _ hmem)]
      rfl
    · rw [if_neg hmem, Option.none_or]
      simp only [List.mem_cons, hmem, or_false, eq_comm]

variable {files : Octets → Option Json} {args : List (Char × Octets)} {acts : List Act} {op K : Bytes 16}

/-- A start that loads the key has gone through the options. -/
theorem main_updates {code : Nat} (hmain : main files args = .done (code, acts))
    (hop : Act.updateOpcKeys op ∈ acts) :
    ∃ o config, Options.parse files args = .done (true, o) ∧ fillhssconfig o = some config ∧
      op = config.operator_key_bin := by
  unfold main at hmain
  split at hmain
  · cases hmain
  · cases hmain
  · cases hmain
    cases hop
  · rename_i o hparse
    split at hmain
    · cases hmain
    · rename_i config hconfig
      cases hmain
      refine ⟨o, config, hparse, hconfig, ?_⟩
      have hnot : Act.updateOpcKeys op ∉
          [Act.initWorkers (o.values .numworkers), .initdb config.cassandra_server] := by simp
      have hlast : Act.updateOpcKeys op ∉
          if o.values .synchimsi ≠ [] ∧ o.values .synchauts ≠ [] then
            [Act.synchFix (o.values .synchimsi) (o.values .synchauts)]
          else [.init config] := by
        split <;> simp
      have hload := (List.mem_append.mp hop).resolve_left hnot
      split at hload
      · exact Act.updateOpcKeys.inj (List.mem_singleton.mp hload)
      · have hreload := (List.mem_append.mp hload).resolve_right hlast
        split at hreload
        · exact Act.updateOpcKeys.inj (List.mem_singleton.mp hreload)
        · cases hreload

theorem operatorKey_eq {code : Nat} (hmain : main files args = .done (code, acts))
    (hop : Act.updateOpcKeys op ∈ acts) (hK : Configured files args K) : op = K := by
  obtain ⟨o, config, hparse, hconfig, rfl⟩ := main_updates hmain hop
  have hoptkey : o.values .optkey =
      ((last (Options.given args) .optkey).or (Options.filed files args .optkey)).getD [] := by
    obtain ⟨-, rfl⟩ := Options.parse_eq_iff.mp hparse
    rw [Options.values_foldl, Options.last_resolved]
    rfl
  rw [last_optkey] at hoptkey
  unfold Configured at hK
  split at hK
  · rename_i hmem
    rw [if_pos hmem] at hoptkey
    rw [hK]
    exact fillhssconfig_other (by rw [hoptkey, Option.some_or, Option.getD_some]; decide) hconfig
  · rename_i hmem
    obtain ⟨text, htext, hK⟩ := hK
    rw [if_neg hmem, Option.none_or, htext, Option.getD_some] at hoptkey
    split at hK
    · rename_i hlength
      rw [← hoptkey] at hK hlength
      exact fillhssconfig_spelled hlength hK hconfig
    · rename_i hlength
      rw [hK]
      exact fillhssconfig_other (by rwa [hoptkey]) hconfig

/-- **The start of the program brings the table up to date** for the operator key that is configured. -/
theorem main_migrates {code : Nat} {alive : Nat → Bool} {roundKeys : Rijndael.RoundKeys} {db : Db}
    {pages : List (List (List Value))} (hmain : main files args = .done (code, acts))
    (hop : Act.updateOpcKeys op ∈ acts) (hK : Configured files args K) (hdb : Provisioned db)
    (hplain : PlainImsis db) (hpages : Enumerates pages db)
    (htrue : (checkOpcKeys alive op pages ⟨db, [], roundKeys⟩).1 = some true) :
    Migrated K db (checkOpcKeys alive op pages ⟨db, [], roundKeys⟩).2.db := by
  obtain rfl := operatorKey_eq hmain hop hK
  exact (migrates_of_plain hdb hpages hplain alive roundKeys htrue).1

/-- `-q -j c`, with the operator key `ff..ff` in the file. -/
theorem main_migrates_oneRow : Migrated (fun _ => 0xff) (oneRow "001010000000001")
    (checkOpcKeys (fun _ => true) (fun _ => 0xff) (onePage "001010000000001")
      ⟨oneRow "001010000000001", [], fun _ _ _ => 0⟩).2.db := by
  have hkey : (fun i : Fin 16 => ((scanKey 0 16 (List.replicate 32 0x66) fun _ => 0).getD
      fun _ => 0) i) = (fun _ => 0xff : Bytes 16) := by
    decide
  have hmain : main (fun _ => some (Options.sampleFile (List.replicate 32 0x66)))
      [('q', []), ('j', [0x63])] =
        .done (0, [.initWorkers 4, .initdb [0x63], .updateOpcKeys fun _ => 0xff]) := by
    rw [← hkey]
    rfl
  have hnamed : (imsiKey? "001010000000001").isSome = true := by decide +kernel
  have haccepted : ¬ Rejected (oneRow "001010000000001") := by
    rintro ⟨key, row, hrow, hnone⟩
    rw [namedBy, namedBy_oneRow hrow] at hnone
    rw [hnone] at hnamed
    exact absurd hnamed Bool.false_ne_true
  refine main_migrates hmain (by simp) ?_ (provisioned_oneRow _) ?_ (enumerates_onePage _)
    (returns_of_accepted _ (provisioned_oneRow _) (enumerates_onePage _) haccepted).1
  · exact ⟨List.replicate 32 0x66, rfl, by decide⟩
  · intro key row hrow
    rw [namedBy_oneRow hrow]
    exact (by decide : Plain "001010000000001")

end OpenairHss.Startup
