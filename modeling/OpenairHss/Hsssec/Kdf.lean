import OpenairHss.Hsssec.Fx

/-!
# The vector of `kdf.c`

`derive_kasme` and `generate_vector`.  The key derivation itself is HMAC-SHA-256 of the crypto
library; it is a parameter `kdf : List (BitVec 8) → List (BitVec 8) → Bytes 32` here, taking the
key and the string of the call.
-/

namespace OpenairHss.Hsssec

open ByteVec Interact

/-- `auc_vector_t`. -/
structure AucVector where
  rand : Bytes 16
  rand_new : BitVec 8
  xres : Bytes 8
  autn : Bytes 16
  kasme : Bytes 32

theorem memcpyAt_lt {m n s : Nat} (h : s + n ≤ m) (i : Fin n) : s + (i : Nat) < m := by omega

/-- `memcpy (&dst[s], src, n)`. -/
def memcpyAt {m : Nat} (n s : Nat) (h : s + n ≤ m) (src : Bytes n) (dst : Bytes m) : Bytes m :=
  forLoop n (fun i d => Function.update d ⟨s + i, memcpyAt_lt h i⟩ (src i)) dst

variable (kdf : List (BitVec 8) → List (BitVec 8) → Bytes 32)

def deriveKasme (ck ik : Bytes 16) (plmn : Bytes 3) (sqn ak : Bytes 6) : Bytes 32 :=
  let key : Bytes 32 := fun _ => 0
  let key := memcpyAt 16 0 (by decide) ck key
  let key := memcpyAt 16 16 (by decide) ik key
  let s : Bytes 14 := fun _ => 0
  let s := Function.update s 0 0x10
  let s := memcpyAt 3 1 (by decide) plmn s
  let s := Function.update s 4 0x00
  let s := Function.update s 5 0x03
  let s := forLoop 6 (fun i s => Function.update s ⟨6 + i, by omega⟩ (sqn i ^^^ ak i)) s
  let s := Function.update s 12 0x00
  let s := Function.update s 13 0x06
  kdf (List.ofFn key) (List.ofFn s)

/-- `uint8_t amf[] = {0x80, 0x00}` of `generate_vector`. -/
def vectorAmf : Bytes 2 := ![0x80, 0x00]

/-- `generate_vector`; the RAND of the vector is an input, the other fields are written.  The
IMSI argument of the source is not used by it. -/
def generateVector (opc key : Bytes 16) (plmn : Bytes 3) (sqn : Bytes 6) (vector : AucVector) :
    Cipher AucVector := do
  let mac_a ← f1 opc key vector.rand sqn vectorAmf
  let f ← f2345 opc key vector.rand
  let autn := generateAutn sqn f.ak vectorAmf mac_a
  let kasme := deriveKasme kdf f.ck f.ik plmn sqn f.ak
  return { vector with xres := f.res, autn := autn, kasme := kasme }

end OpenairHss.Hsssec
