import Mathlib.Data.List.Basic
import Mathlib.Data.BitVec
import Mathlib.Data.UInt

/-!
# JSON documents

The values of a JSON text that has been read.  A number is an integer of 64 bits, or a number of
double precision, given by its bits.  A string is its octets, which need not be those of a text.  The
members of an object keep their order, and a name may occur more than once.
-/

/-- A number: an integer that fits into 64 bits, with or without sign, or any other, with whether it
is in the range of a `float`. -/
inductive JsonNumber
  | int (n : Int)
  | double (single : Bool) (bits : BitVec 64)
  deriving DecidableEq

inductive Json
  | null
  | bool (b : Bool)
  | number (n : JsonNumber)
  | string (s : List UInt8)
  | array (elements : List Json)
  | object (members : List (String × Json))

namespace JsonNumber

def isInt : JsonNumber → Bool
  | int n => decide (-2 ^ 31 ≤ n ∧ n < 2 ^ 31)
  | double _ _ => false

def isUint : JsonNumber → Bool
  | int n => decide (0 ≤ n ∧ n < 2 ^ 32)
  | double _ _ => false

def isInt64 : JsonNumber → Bool
  | int n => decide (-2 ^ 63 ≤ n ∧ n < 2 ^ 63)
  | double _ _ => false

def isUint64 : JsonNumber → Bool
  | int n => decide (0 ≤ n ∧ n < 2 ^ 64)
  | double _ _ => false

def isDouble : JsonNumber → Bool
  | int _ => false
  | double _ _ => true

def isFloat : JsonNumber → Bool
  | int _ => false
  | double single _ => single

end JsonNumber
