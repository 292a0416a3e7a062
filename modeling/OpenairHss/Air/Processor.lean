import OpenairHss.Air.Vectors
import OpenairHss.Diameter
import OpenairHss.Hsssec.AccessRestriction
import OpenairHss.Processor.Machine

/-!
# The AIR processor

The checks, result handlers and phases of `AIRProcessor`, as the code of a processor.

Every rejection of `phase1` sets `ULRSTATE_PHASEFINAL`, the final state of the other machine; only a
query that cannot be issued sets `AIRSTATE_PHASEFINAL`.  Both queries are counted after they were
issued.
-/

namespace OpenairHss.AirProcessor

open ByteVec Interact OpenairHss.Processor Hsssec DataAccess Diameter

/-! ### Data -/

/-- The AVPs that the phases put into the answer. -/
inductive AiaAvp
  | origin
  | authSessionState (u32 : BitVec 32)
  | authenticationInfo (vector : AucVector)
  | result (r : DiamResult)

/-- An answer that was sent. -/
structure Aia where
  avps : List AiaAvp

structure Request where
  auth_session_state : Option (BitVec 32)
  user_name : Option String
  eutran_vectors : Option (BitVec 32)
  eutran_resync : Option (List (BitVec 8))
  utran_vectors : Option (BitVec 32)
  utran_resync : Option (List (BitVec 8))
  visited_plmn_id : Option (List (BitVec 8))

/-- What the machine adds: the option `roamallow`, memory that nobody initialised, and randomness. -/
structure Surroundings (R : Type) where
  roamallow : Bool
  u32 : BitVec 32
  imsi_hex : Nat → BitVec 8
  m_auts : Bytes 31
  sqn_nb : Int
  rands : Nat → Bytes 16
  m_vector : Nat → AucVector
  table : R

/-- The members of `AIRProcessor` that hold data. -/
structure Data where
  ans : List AiaAvp
  imsi : String
  num_vectors : BitVec 32
  plmn_id : Bytes 3
  /-- `m_auts`, if `m_auts_set`. -/
  auts : Option (Bytes 31)
  sec : ImsiSec

/-! ### Phase 1 -/

/-- A rejection: the answer so far, and the result that is added to it. -/
abbrev Rejection : Type := List AiaAvp × DiamResult

/-- `get (m_auts, m_auts_len)`: more than 31 bytes do not fit. -/
def getAuts (m_auts : Bytes 31) (avp : Option (List (BitVec 8))) : Option (Bytes 31) :=
  match avp with
  | none => none
  | some bytes => if bytes.length > 31 then none else some fun i => bytes.getD i (m_auts i)

/-- The checks of `AIRProcessor::phase1`. -/
def phase1Checks {R : Type} (env : Surroundings R) (req : Request) (d : Data) :
    Except Rejection Data := do
  let d := { d with
    ans := d.ans ++ [AiaAvp.origin, AiaAvp.authSessionState (req.auth_session_state.getD env.u32)]
    imsi := req.user_name.getD d.imsi }
  if d.imsi.length > imsiLength then .error (d.ans, .resultCode erDiameterInvalidAvpValue)
  else
    let d := { d with num_vectors := req.eutran_vectors.getD d.num_vectors }
    if req.eutran_vectors.isSome ∧ d.num_vectors > BitVec.ofNat 32 Air.authMaxEutranVectors then
      .error (d.ans, .resultCode erDiameterInvalidAvpValue)
    else
      let d := { d with auts := getAuts env.m_auts req.eutran_resync }
      let eutran_avp_found := req.eutran_vectors.isSome || d.auts.isSome
      if !eutran_avp_found ∧ req.utran_vectors.isSome then
        .error (d.ans, .experimental diameterErrorRatNotAllowed)
      else if !eutran_avp_found ∧ (getAuts env.m_auts req.utran_resync).isSome then
        .error (d.ans, .experimental diameterErrorRatNotAllowed)
      else match req.visited_plmn_id with
        | some [p0, p1, p2] =>
          let plmn_id : Bytes 3 := ![p0, p1, p2]
          if !env.roamallow ∧ applyAccessRestriction env.imsi_hex d.imsi plmn_id ≠ 0 then
            .error (d.ans, .experimental diameterErrorRoamingNotAllowed)
          else .ok { d with plmn_id := plmn_id }
        -- absent, too long for the buffer, or not of length 3
        | _ => .error (d.ans, .resultCode erDiameterInvalidAvpValue)

/-! ### Vocabulary -/

/-- The actions `AIRDB_*`. -/
inductive Db
  | getImsiSec
  | updateImsi
  deriving DecidableEq

def Db.item : Db → BitVec 32
  | .getImsiSec => 0x00000001
  | .updateImsi => 0x00000002

/-- What a query resolves to: `none` is an error code other than `CASS_OK`. -/
def Db.Fut : Db → Type
  | .getImsiSec => Option (Option SecRow)
  | .updateImsi => Option Unit

/-- The vocabulary of `AIRProcessor`; a call is an action and its statement. -/
abbrev kind : Kind where
  Act := Db × String
  Fut := fun a => a.1.Fut
  Qry := Empty
  Rep := nofun
  Data := Data
  Ans := Aia

/-- `ULRSTATE_PHASEFINAL`, of the other machine. -/
def ulrPhaseFinal : Nat := 200
def phaseFinal : Nat := 300
def phase1 : Nat := 301
def phase2 : Nat := 302
def phase3 : Nat := 303

/-! ### Result handlers and phases -/

section

variable {R : Type} (cipher : BlockCipher R)
  (kdf : List (BitVec 8) → List (BitVec 8) → Bytes 32) (env : Surroundings R)

/-- `getImsiSec (future)`.  `getImsiSecData` throws on an error. -/
def onImsiSec (fut : Option (Option SecRow)) : Proc kind Unit := do
  match fut with
  | none =>
    throwException
  | some row => match getImsiSecData env.sqn_nb row with
    | none => dbOpComplete Db.getImsiSec.item false
    | some sec =>
      updateData (K := kind) (fun d : Data => { d with sec := sec })
      dbOpComplete Db.getImsiSec.item true

/-- `updateImsi (future)`. -/
def onUpdate (fut : Option Unit) : Proc kind Unit := dbOpComplete Db.updateImsi.item fut.isSome

/-- The switch of `on_air_callback`. -/
def handler : (act : Db × String) → act.1.Fut → Proc kind Unit
  | (.getImsiSec, _), fut => onImsiSec env fut
  | (.updateImsi, _), fut => onUpdate fut

/-- The answer with a result, and the state that ends the processor. -/
def reject (final : Nat) (r : Rejection) : Proc kind Unit := do
  sendAnswer (K := kind) ⟨r.1 ++ [.result r.2]⟩
  setNextphase final

def phase1Body (req : Request) : Proc kind Unit := do
  let d : Data ← readData (K := kind)
  match phase1Checks env req d with
  | .error r => reject ulrPhaseFinal r
  | .ok d' =>
    updateData (K := kind) (fun _ => d')
    setNextphase phase2
    let success ← issue (K := kind) (.getImsiSec, getImsiSecText d'.imsi) (onImsiSec env)
    if success then incDbissued
    else reject phaseFinal (d'.ans, .experimental diameterAuthenticationDataUnavailable)

def phase2Body : Proc kind Unit := do
  let result ← readResult (K := kind)
  let d : Data ← readData (K := kind)
  if (result &&& Db.getImsiSec.item) = (0 : BitVec 32) then
    reject phaseFinal (d.ans, .experimental diameterAuthenticationDataUnavailable)
  else
    let out := cipher.alone (Air.phase2 kdf d.sec d.auts d.plmn_id d.num_vectors.toNat env.rands
      env.m_vector) env.table
    call (K := kind) (.answer
      (⟨d.ans ++ out.vectors.map .authenticationInfo ++ [.result (.resultCode erDiameterSuccess)]⟩ :
        Aia))
    updateData (K := kind) (fun d : Data => { d with sec := out.sec })
    setNextphase phase3
    let success ← issue (K := kind)
      (.updateImsi, updateRandSqnText d.imsi out.rand out.sec.sqn true) onUpdate
    if success then incDbissued else setNextphase phaseFinal

def phase3Body : Proc kind Unit := setNextphase phaseFinal

/-- The switch of `processNextPhase`. -/
def body (req : Request) (phase : Nat) : Proc kind Unit :=
  if phase = phase1 then phase1Body env req
  else if phase = phase2 then phase2Body cipher kdf env
  else if phase = phase3 then phase3Body
  else return ()

/-- `phaseReady`. -/
def ready (phase : Nat) (executed : BitVec 32) (_ : Data) : Bool :=
  if phase = phase1 then true
  else if phase = phase2 then executed &&& Db.getImsiSec.item != 0
  else if phase = phase3 then executed &&& Db.updateImsi.item != 0
  else false

/-- `AIRProcessor` for a request. -/
def code (req : Request) : Code kind where
  final := phaseFinal
  ready := ready
  body := body cipher kdf env req
  handler := handler env

end

/-- The constructor; `sec` and `plmn_id` are uninitialised memory. -/
def Data.init (sec : ImsiSec) (plmn_id : Bytes 3) : Data where
  ans := []
  imsi := ""
  num_vectors := 0
  plmn_id := plmn_id
  auts := none
  sec := sec

end OpenairHss.AirProcessor
