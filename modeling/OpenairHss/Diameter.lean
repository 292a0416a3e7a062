import Mathlib.Data.BitVec
import Mathlib.Data.UInt

/-!
# Diameter

The result codes of `common_def.h` and of the Diameter base protocol that the HSS answers with, and
the conversions of `FDUtility`.
-/

namespace OpenairHss.Diameter

def imsiLength : Nat := 15

def vendor3gpp : Nat := 10415

/-- `ER_DIAMETER_SUCCESS`, `ER_DIAMETER_INVALID_AVP_VALUE` and `ER_DIAMETER_MISSING_AVP`. -/
def erDiameterSuccess : Nat := 2001
def erDiameterInvalidAvpValue : Nat := 5004
def erDiameterMissingAvp : Nat := 5005

def diameterErrorUserUnknown : Nat := 5001
def diameterErrorRoamingNotAllowed : Nat := 5004
def diameterErrorUnknownEpsSubscription : Nat := 5420
def diameterErrorRatNotAllowed : Nat := 5421
def diameterErrorUnknownServingNode : Nat := 5423
def diameterAuthenticationDataUnavailable : Nat := 4181
def diameterErrorUserNoApnSubscription : Nat := 5451
def diameterErrorAbsentUser : Nat := 5550

def diameterErrorIsVendor (code : Nat) : Bool :=
  [5001, 5004, 5420, 5421, 5422, 4181, 5423, 5550].contains code

/-- The result of an answer: Result-Code, or Experimental-Result-Code of 3GPP. -/
inductive DiamResult
  | resultCode (code : Nat)
  | experimental (code : Nat)
  deriving DecidableEq

/-- The results among the AVPs of an answer: **exactly one Result-Code or Experimental-Result, and
not both**. -/
def OneResult (results : List DiamResult) : Prop := results.length = 1

instance (results : List DiamResult) : Decidable (OneResult results) :=
  inferInstanceAs (Decidable (results.length = 1))

/-! ### TBCD -/

/-- `FDUtility::tbcd2str`: the high nibble first; the nibble `0xf` stands for nothing, and behind a
high one the low one is not read. -/
def tbcd2str (bytes : List (BitVec 8)) : List Char :=
  let digit (n : Nat) : Option Char :=
    ['0', '1', '2', '3', '4', '5', '6', '7', '8', '9', '*', '#', 'a', 'b', 'c'][n]?
  bytes.flatMap fun b => match digit (b.toNat / 16) with
    | none => []
    | some hi => hi :: (digit (b.toNat % 16)).toList

/-- `AQFD_CHAR2TBCD`. -/
def char2tbcd (c : Char) : Nat :=
  if '0' ≤ c ∧ c ≤ '9' then c.toNat - '0'.toNat
  else if c = '*' then 10
  else if c = '#' then 11
  else if c = 'a' ∨ c = 'A' then 12
  else if c = 'b' ∨ c = 'B' then 13
  else if c = 'c' ∨ c = 'C' then 14
  else 15

/-- `FDUtility::str2tbcd`, for a text that fits into the buffer. -/
def str2tbcd : List Char → List (BitVec 8)
  | [] => []
  | [c] => [BitVec.ofNat 8 (16 * char2tbcd c + 15)]
  | c :: c' :: rest => BitVec.ofNat 8 (16 * char2tbcd c + char2tbcd c') :: str2tbcd rest

end OpenairHss.Diameter
