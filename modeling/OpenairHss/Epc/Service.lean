import OpenairHss.Dns.Parser
import OpenairHss.Lib.Getline

/-!
# The service field of a NAPTR record

`AppService::parse` and `AppProtocol::parse`: a service, then the protocols that it supports, each
with the usage types that it is restricted to.
-/

namespace OpenairHss.Epc

open Dns Getline

def octets (s : String) : Octets := s.toList.map fun c => UInt8.ofNat c.toNat

inductive AppServiceEnum
  | unknown
  | pgw
  | sgw
  | ggsn
  | sgsn
  | mme
  | msc
deriving DecidableEq

inductive AppProtocolEnum
  | unknown
  | gn
  | gp
  | nq
  | nqprime
  | s10
  | s11
  | s12
  | s1Mme
  | s1U
  | s16
  | s2aGtp
  | s2aMipv4
  | s2aPmip
  | s2bGtp
  | s2bPmip
  | s2cDsmip
  | s3
  | s4
  | s5Gtp
  | s5Pmip
  | s6a
  | s8Gtp
  | s8Pmip
  | sv
deriving DecidableEq

/-- The names that `Utility::getAppService` knows. -/
def appServices : List (String × AppServiceEnum) :=
  [("x-3gpp-pgw", .pgw), ("x-3gpp-sgw", .sgw), ("x-3gpp-ggsn", .ggsn), ("x-3gpp-sgsn", .sgsn),
    ("x-3gpp-mme", .mme), ("x-3gpp-msc", .msc)]

/-- The names that `Utility::getAppProtocol` knows. -/
def appProtocols : List (String × AppProtocolEnum) :=
  [("x-gn", .gn), ("x-gp", .gp), ("x-nq", .nq), ("x-nqprime", .nqprime), ("x-s10", .s10),
    ("x-s11", .s11), ("x-s12", .s12), ("x-s1-mme", .s1Mme), ("x-s1-u", .s1U), ("x-s16", .s16),
    ("x-s2a-gtp", .s2aGtp), ("x-s2a-mipv4", .s2aMipv4), ("x-s2a-pmip", .s2aPmip),
    ("x-s2b-gtp", .s2bGtp), ("x-s2b-pmip", .s2bPmip), ("x-s2c-dsmip", .s2cDsmip), ("x-s3", .s3),
    ("x-s4", .s4), ("x-s5-gtp", .s5Gtp), ("x-s5-pmip", .s5Pmip), ("x-s6a", .s6a),
    ("x-s8-gtp", .s8Gtp), ("x-s8-pmip", .s8Pmip), ("x-sv", .sv)]

def getAppService (s : Octets) : AppServiceEnum :=
  ((appServices.find? fun e => octets e.1 = s).map (·.2)).getD .unknown

def getAppProtocol (p : Octets) : AppProtocolEnum :=
  ((appProtocols.find? fun e => octets e.1 = p).map (·.2)).getD .unknown

/-- `atoi`: blanks, a sign, digits; `strtol` stops at the bounds of a `long`, which is then cut to
an `int`. -/
def atoi (s : Octets) : Int :=
  let s := s.dropWhile fun b => b = 0x20 ∨ (0x09 ≤ b ∧ b ≤ 0x0d)
  let (negative, s) := match s with
    | 0x2d :: s => (true, s)
    | 0x2b :: s => (false, s)
    | s => (false, s)
  let digits := s.takeWhile fun b => 0x30 ≤ b ∧ b ≤ 0x39
  let n : Int := digits.foldl (fun n b => n * 10 + (b.toNat - 0x30 : Nat)) 0
  let value := max (-2 ^ 63) (min (2 ^ 63 - 1) (if negative then -n else n))
  Int.bmod value (2 ^ 32)

structure AppProtocol where
  m_rawProtocol : Octets
  m_protocol : AppProtocolEnum
  m_usageTypes : List Int
deriving DecidableEq

namespace AppProtocol

def new : AppProtocol where
  m_rawProtocol := []
  m_protocol := .unknown
  m_usageTypes := []

def parse (rp : Octets) : AppProtocol :=
  match getline 0x2b rp with
  | none => { new with m_rawProtocol := rp }
  | some (arg, ss) =>
    let m_usageTypes := match getline 0x2d ss with
      | some (arg, ss) => if arg = octets "ue" then (getlines 0x2e ss).map atoi else []
      | none => []
    { m_rawProtocol := rp, m_protocol := getAppProtocol arg, m_usageTypes }

def findUsageType (p : AppProtocol) (ut : Int) : Bool := ut ∈ p.m_usageTypes

end AppProtocol

structure AppService where
  m_rawService : Octets
  m_service : AppServiceEnum
  m_protocols : List AppProtocol
deriving DecidableEq

namespace AppService

def parse (rs : Octets) : AppService :=
  match getline 0x3a rs with
  | none => ⟨rs, .unknown, []⟩
  | some (arg, ss) => ⟨rs, getAppService arg, (getlines 0x3a ss).map AppProtocol.parse⟩

def findProtocol (s : AppService) (protocol : AppProtocolEnum) : Option AppProtocol :=
  s.m_protocols.find? fun p => p.m_protocol = protocol

end AppService

example : AppService.parse (octets "x-3gpp-sgw:x-s5-gtp+ue-1.4:x-s8-gtp") =
    ⟨octets "x-3gpp-sgw:x-s5-gtp+ue-1.4:x-s8-gtp", .sgw,
      [⟨octets "x-s5-gtp+ue-1.4", .s5Gtp, [1, 4]⟩, ⟨octets "x-s8-gtp", .s8Gtp, []⟩]⟩ := by decide

end OpenairHss.Epc
