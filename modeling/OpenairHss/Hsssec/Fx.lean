import OpenairHss.Lib.Bytes
import OpenairHss.Lib.Interact

/-!
# The functions of `fx.c`

The round keys of Rijndael live in one global table: `RijndaelKeySchedule` fills it and
`RijndaelEncrypt` reads it.  A function of `fx.c` is therefore a program over these two calls
(`CipherOp`), and only `BlockCipher.exec` says what they do to the table.  `alone` is the run of
such a program by a worker that nobody disturbs.

Every array loop of the source is written as the loop it is, with the index arithmetic of the
source.  Local arrays that the source leaves uninitialised start as zeroes here; each of them is
overwritten completely before it is read.
-/

namespace OpenairHss.Hsssec

open ByteVec Interact

/-! ### The cipher calls -/

/-- The calls that touch the global round key table. -/
inductive CipherOp
  | keySchedule (key : Bytes 16)
  | encrypt (input : Bytes 16)

def CipherRes : CipherOp → Type
  | .keySchedule _ => Unit
  | .encrypt _ => Bytes 16

abbrev Cipher : Type → Type := Prog CipherOp CipherRes

def rijndaelKeySchedule (key : Bytes 16) : Cipher Unit := Prog.perform (CipherOp.keySchedule key)

/-- `RijndaelEncrypt (input, output)`; the output is returned. -/
def rijndaelEncrypt (input : Bytes 16) : Cipher (Bytes 16) := Prog.perform (CipherOp.encrypt input)

/-- A block cipher with a table of round keys `R`. -/
structure BlockCipher (R : Type) where
  schedule : Bytes 16 → R
  encrypt : R → Bytes 16 → Bytes 16

namespace BlockCipher

variable {R : Type}

/-- What the two calls do to the table. -/
def exec (c : BlockCipher R) : (o : CipherOp) → R → CipherRes o × R
  | .keySchedule key, _ => ((), c.schedule key)
  | .encrypt input, table => (c.encrypt table input, table)

/-- The result of a program that runs alone, from any content of the table. -/
def alone {α : Type} (c : BlockCipher R) (p : Cipher α) (table : R) : α :=
  (p.run c.exec table).1

end BlockCipher

/-! ### MILENAGE -/

def generateAutn (sqn ak : Bytes 6) (amf : Bytes 2) (mac_a : Bytes 8) : Bytes 16 :=
  let autn : Bytes 16 := fun _ => 0
  let autn := forLoop 6 (fun i a => Function.update a (Fin.castLE (by decide) i)
    (sqn i ^^^ ak i)) autn
  -- memcpy (&autn[6], amf, 2); memcpy (&autn[8], mac_a, 8)
  let autn := forLoop 2 (fun i a => Function.update a ⟨6 + i, by omega⟩ (amf i)) autn
  forLoop 8 (fun i a => Function.update a ⟨8 + i, by omega⟩ (mac_a i)) autn

/-- `in1`, as `f1` and `f1star` fill it. -/
def fillIn1 (sqn : Bytes 6) (amf : Bytes 2) : Bytes 16 :=
  let in1 : Bytes 16 := fun _ => 0
  let in1 := forLoop 6 (fun i a => Function.update
    (Function.update a ⟨i, by omega⟩ (sqn i)) ⟨i + 8, by omega⟩ (sqn i)) in1
  forLoop 2 (fun i a => Function.update
    (Function.update a ⟨i + 6, by omega⟩ (amf i)) ⟨i + 14, by omega⟩ (amf i)) in1

/-- `for (i = 0; i < 16; i++) dst[(i + s) % 16] = a[i] ^ b[i]`. -/
def xorInto (s : Nat) (a b dst : Bytes 16) : Bytes 16 :=
  forLoop 16 (fun i d => Function.update d ⟨(i + s) % 16, Nat.mod_lt _ (by decide)⟩
    (a i ^^^ b i)) dst

/-- `for (i = 0; i < 16; i++) a[i] ^= b[i]`. -/
def xorBy (b a : Bytes 16) : Bytes 16 :=
  forLoop 16 (fun i a => Function.update a i (a i ^^^ b i)) a

/-- `a[15] ^= c`. -/
def xorLast (c : BitVec 8) (a : Bytes 16) : Bytes 16 := Function.update a 15 (a 15 ^^^ c)

/-- `for (i = 0; i < n; i++) dst[i] = out[i + s]`. -/
def takeFrom (n s : Nat) (h : s + n ≤ 16) (out : Bytes 16) : Bytes n :=
  forLoop n (fun i d => Function.update d i (out ⟨i + s, by omega⟩)) (fun _ => 0)

/-- The part that `f1` and `f1star` share: `out1` after its last exclusive or. -/
def out1 (opc k rand : Bytes 16) (sqn : Bytes 6) (amf : Bytes 2) : Cipher (Bytes 16) := do
  rijndaelKeySchedule k
  let rijndaelInput := xorInto 0 rand opc (fun _ => 0)
  let temp ← rijndaelEncrypt rijndaelInput
  let in1 := fillIn1 sqn amf
  let rijndaelInput := xorInto 8 in1 opc rijndaelInput
  let rijndaelInput := xorBy temp rijndaelInput
  let out1 ← rijndaelEncrypt rijndaelInput
  return xorBy opc out1

/-- `f1`: MAC-A. -/
def f1 (opc k rand : Bytes 16) (sqn : Bytes 6) (amf : Bytes 2) : Cipher (Bytes 8) := do
  let out1 ← out1 opc k rand sqn amf
  return takeFrom 8 0 (by decide) out1

/-- `f1star`: MAC-S. -/
def f1star (opc k rand : Bytes 16) (sqn : Bytes 6) (amf : Bytes 2) : Cipher (Bytes 8) := do
  let out1 ← out1 opc k rand sqn amf
  return takeFrom 8 8 (by decide) out1

structure F2345 where
  res : Bytes 8
  ck : Bytes 16
  ik : Bytes 16
  ak : Bytes 6

/-- `f2345`: RES, CK, IK and AK. -/
def f2345 (opc k rand : Bytes 16) : Cipher F2345 := do
  rijndaelKeySchedule k
  let rijndaelInput := xorInto 0 rand opc (fun _ => 0)
  let temp ← rijndaelEncrypt rijndaelInput
  -- OUT2, r2 = 0, c2 = 1
  let rijndaelInput := xorInto 0 temp opc rijndaelInput
  let rijndaelInput := xorLast 1 rijndaelInput
  let out ← rijndaelEncrypt rijndaelInput
  let out := xorBy opc out
  let res := takeFrom 8 8 (by decide) out
  let ak := takeFrom 6 0 (by decide) out
  -- OUT3, r3 = 32, c3 = 2
  let rijndaelInput := xorInto 12 temp opc rijndaelInput
  let rijndaelInput := xorLast 2 rijndaelInput
  let out ← rijndaelEncrypt rijndaelInput
  let out := xorBy opc out
  let ck := takeFrom 16 0 (by decide) out
  -- OUT4, r4 = 64, c4 = 4
  let rijndaelInput := xorInto 8 temp opc rijndaelInput
  let rijndaelInput := xorLast 4 rijndaelInput
  let out ← rijndaelEncrypt rijndaelInput
  let out := xorBy opc out
  let ik := takeFrom 16 0 (by decide) out
  return { res, ck, ik, ak }

/-- `f5star`: the anonymity key of a resynchronisation. -/
def f5star (opc k rand : Bytes 16) : Cipher (Bytes 6) := do
  rijndaelKeySchedule k
  let rijndaelInput := xorInto 0 rand opc (fun _ => 0)
  let temp ← rijndaelEncrypt rijndaelInput
  let rijndaelInput := xorInto 4 temp opc rijndaelInput
  let rijndaelInput := xorLast 8 rijndaelInput
  let out ← rijndaelEncrypt rijndaelInput
  let out := xorBy opc out
  return takeFrom 6 0 (by decide) out

def computeOPc (k op : Bytes 16) : Cipher (Bytes 16) := do
  rijndaelKeySchedule k
  let opc ← rijndaelEncrypt op
  return xorBy op opc

end OpenairHss.Hsssec
