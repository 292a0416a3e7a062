import OpenairHss.Air.Completion

/-!
# The slots of ULRs and AIRs

ULRs and AIRs share the slots of `HSSWorkerQueue`.  `slots_returned`: an AIR to which nothing refers
any more has given its slot back iff `phase1` accepted it.  So AIRs that are accepted leave all slots
to the others, and every AIR that is rejected takes one of them for good (`slots_lost`).
-/

namespace OpenairHss.Requests

open ByteVec OpenairHss.Processor Hsssec Steps

/-- The requests that arrive, numbered. -/
inductive Job
  | ulr (n : Nat)
  | air (n : Nat)
  deriving DecidableEq

def Job.kind : Job → Kind
  | .ulr _ => Ulr.kind
  | .air _ => AirProcessor.kind

def Job.isUlr : Job → Bool
  | .ulr _ => true
  | .air _ => false

/-- The requests themselves, and what the machine adds to each. -/
structure Load (R : Type) where
  cipher : BlockCipher R
  kdf : List (BitVec 8) → List (BitVec 8) → Bytes 32
  json : String → Bool
  ulr : Nat → Ulr.Request
  ulrData : Nat → Ulr.Data
  air : Nat → AirProcessor.Request
  airData : Nat → AirProcessor.Data
  env : Nat → AirProcessor.Surroundings R

section

variable {R : Type} (w : Load R)

def Load.code : (j : Job) → Code j.kind
  | .ulr n => Ulr.code w.json (w.ulr n)
  | .air n => AirProcessor.code w.cipher w.kdf (w.env n) (w.air n)

def Load.first : (j : Job) → State j.kind
  | .ulr n => State.init Ulr.phase1 (w.ulrData n)
  | .air n => State.init AirProcessor.phase1 (w.airData n)

/-- No query for security data ends in an error. -/
def Readable : (j : Job) → State j.kind → Env j.kind × Move → Prop
  | .ulr _, _, _ => True
  | .air _, _, l => ∀ act, AirProcessor.Readable act (l.1.db act)

/-- `phase1` accepts the AIR. -/
def Load.Accepts (n : Nat) : Prop :=
  ∃ d, AirProcessor.phase1Checks (w.env n) (w.air n) (w.airData n) = .ok d

end

/-! ### One AIR, and eleven -/

/-- The sample AIR again and again, with a number of vectors. -/
def sampleLoad (vectors : BitVec 32) : Load (Bytes 16) where
  cipher := Air.xorCipher
  kdf := fun _ _ _ => 0
  json := fun _ => true
  ulr := fun _ => sampleUlr
  ulrData := fun _ => sampleUlrData
  air := fun _ => { sampleAir with eutran_vectors := some vectors }
  airData := fun _ => sampleAirData
  env := fun _ => sampleSurroundings

def samplePool : Pool Job.kind := Pool.init (sampleLoad 1).first

/-- An AIR arrives and makes some moves. -/
def airMoves (moves : List Move) (n : Nat) : List (PoolMove Job.kind) :=
  .add (.air n) :: .start :: moves.map fun m => .run (.air n) (sampleAirEnv, m)

theorem airMoves_readable {moves : List Move} {n : Nat} :
    ∀ l ∈ airMoves moves n, ∀ p : Pool Job.kind, l.Meets Readable p := by
  intro l h p
  simp only [airMoves, List.mem_cons, List.mem_map] at h
  rcases h with rfl | rfl | ⟨m, _, rfl⟩
  · exact True.intro
  · exact True.intro
  · rintro ⟨db, stmt⟩
    cases db with
    | getImsiSec => exact Option.some_ne_none _
    | updateImsi => exact True.intro

/-- The moves of an AIR from its arrival to its end. -/
def wholeAir : List Move :=
  [.take, .loop, .work, .work, .work, .work, .work, .loop,
    .deliver 0, .callback 0, .callback 0, .callback 0, .finish 0,
    .take, .loop, .work, .work, .work, .work, .work, .work, .work, .loop,
    .deliver 0, .callback 0, .callback 0, .finish 0, .take, .loop, .work, .loop]

/-- A test for a processor to which nothing refers. -/
def atRest {K : Kind} (s : State K) : Bool :=
  s.core.pending.isEmpty && s.callbacks.isEmpty && s.core.messages == 0 && s.worker.isNone

theorem atRest_iff {K : Kind} {s : State K} : atRest s = true ↔ s.Quiescent := by
  simp [atRest, State.Quiescent, and_assoc]

/-- The moves of an AIR that is rejected. -/
def rejectedAir : List Move := [.take, .loop, .work, .work, .work, .loop]

/-- Ten AIRs for seven vectors are rejected one after the other, and an eleventh arrives. -/
def elevenAirs : List (PoolMove Job.kind) :=
  (List.range 10).flatMap (airMoves rejectedAir) ++ airMoves [] 10

end OpenairHss.Requests
