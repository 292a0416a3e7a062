import OpenairHss.DataAccess.Users

/-!
# The SRR

`SERIFSRcmd::process`: where a short message for a subscriber is to be sent.  The subscriber is
given by MSISDN or by IMSI.

`oneResult_iff`: when there is no subscriber with the MSISDN, the Experimental-Result is filled and
not added to the answer, which then carries no result; every other answer carries one.
-/

namespace OpenairHss.Srr

open Cql DataAccess Diameter

/-! ### Data -/

def maxMsisdnLength : Nat := 15

/-- The AVPs of the request that are read; SRR-Flags is read and not used. -/
structure Request where
  auth_session_state : Option (BitVec 32)
  msisdn : Option (List (BitVec 8))
  user_name : Option String
  sm_delivery_not_intended : Option Int

/-- What the uninitialised local variables hold; the strings of `info` are empty. -/
structure Memory where
  data : List (BitVec 8)
  info : Ulr.ImsiInfo

inductive SraAvp
  | vendorSpecificApplicationId
  | authSessionState (u32 : BitVec 32)
  | origin
  | result (r : DiamResult)
  | failedAvpMsisdn
  | userName (imsi : String)
  | servingNode (mme_name mme_realm : String) (mme_number : List (BitVec 8))
  | userIdentifier (msisdn : List (BitVec 8))

def results (avps : List SraAvp) : List DiamResult :=
  avps.filterMap fun
    | .result r => some r
    | _ => none

@[simp] theorem results_append (l l' : List SraAvp) : results (l ++ l') = results l ++ results l' :=
  List.filterMap_append

@[simp] theorem results_result (r : DiamResult) (l : List SraAvp) :
    results (.result r :: l) = r :: results l := rfl

@[simp] theorem results_failedAvp (l : List SraAvp) :
    results (.failedAvpMsisdn :: l) = results l := rfl

@[simp] theorem results_nil : results [] = [] := rfl

/-! ### The request -/

/-- The AVPs that every answer begins with. -/
def start (srr : Request) : List SraAvp :=
  [.vendorSpecificApplicationId] ++ srr.auth_session_state.toList.map .authSessionState ++ [.origin]

/-- `msisdn` and `imsi`.  A MSISDN that does not fit into `data` leaves it as it was, and `len` at its
size. -/
def user (mem : Memory) (srr : Request) : Option (String × String) :=
  match srr.msisdn, srr.user_name with
  | some bytes, _ =>
    let data := if bytes.length > maxMsisdnLength then mem.data else bytes
    some (String.ofList (tbcd2str data), "")
  | none, some user_name => some ("", user_name)
  | none, none => none

/-- The IMSI to look up: that of the MSISDN, if there is one. -/
def lookupImsi (db : Db) (msisdn imsi : String) : Option (Option String) :=
  if msisdn ≠ "" then getImsiFromMsisdn db msisdn else some (some imsi)

/-- User-Name: the IMSI, or its first digits. -/
def userName (sm_delivery_not_intended : Int) (imsi : String) : List SraAvp :=
  if sm_delivery_not_intended = 1 then
    [.userName (String.ofList (imsi.toList.take (if imsi.length = 14 then 5 else 6)))]
  else if sm_delivery_not_intended = -1 ∨ sm_delivery_not_intended = 0 then [.userName imsi]
  else []

/-- The AVPs after the result of a success; `str_msisdn` is the MSISDN as a text. -/
def routingInfo (sm_delivery_not_intended : Int) (msisdn : String) (info : Ulr.ImsiInfo)
    (mmeid : DAMmeIdentity) : List SraAvp :=
  let str_msisdn := toString info.msisdn
  userName sm_delivery_not_intended info.imsi
    ++ (if sm_delivery_not_intended = -1 then
          [.servingNode info.mmehost info.mmerealm (str2tbcd mmeid.mme_isdn.toList)]
        else [])
    ++ (if msisdn ≠ str_msisdn then [.userIdentifier (str2tbcd str_msisdn.toList)] else [])

/-- The answer for a subscriber that is to be looked up. -/
def answerFor (mem : Memory) (db : Db) (srr : Request) (msisdn imsi : String) :
    Option (List SraAvp) := do
  match ← lookupImsi db msisdn imsi with
  | none => return start srr
  | some imsi =>
    match ← getImsiInfo db imsi mem.info with
    | none => return start srr ++ [.result (.experimental diameterErrorUserUnknown)]
    | some info =>
      match ← getMmeIdentity db info.mme_id with
      | none => return start srr ++ [.result (.experimental diameterErrorUserUnknown)]
      | some mmeid =>
        if info.ms_ps_status ≠ "ATTACHED" then
          return start srr ++ [.result (.experimental diameterErrorAbsentUser)]
        else
          return start srr ++ [.result (.resultCode erDiameterSuccess)]
            ++ routingInfo (srr.sm_delivery_not_intended.getD (-1)) msisdn info mmeid

/-- `SERIFSRcmd::process`: the answer, unless the database throws. -/
def serifsrProcess (mem : Memory) (db : Db) (srr : Request) : Option (List SraAvp) :=
  match user mem srr with
  | none => some (start srr ++ [.result (.resultCode 5005), .failedAvpMsisdn])
  | some (msisdn, imsi) => answerFor mem db srr msisdn imsi

/-! ### Its results -/

/-- The request gives a MSISDN, and no subscriber has it. -/
def UnknownMsisdn (mem : Memory) (db : Db) (srr : Request) : Prop :=
  ∃ msisdn imsi, user mem srr = some (msisdn, imsi) ∧ msisdn ≠ "" ∧
    getImsiFromMsisdn db msisdn = some none

@[simp] theorem results_start (srr : Request) : results (start srr) = [] := by
  unfold start
  cases srr.auth_session_state <;> rfl

@[simp] theorem results_routingInfo (sm : Int) (msisdn : String) (info : Ulr.ImsiInfo)
    (mmeid : DAMmeIdentity) : results (routingInfo sm msisdn info mmeid) = [] := by
  have huser : results (userName sm info.imsi) = [] := by
    unfold userName
    split
    · rfl
    · split <;> rfl
  simp only [routingInfo, results_append, huser, List.nil_append, List.append_eq_nil_iff]
  constructor
  · split <;> rfl
  · split <;> rfl

/-- The answer for a subscriber carries a result iff there is somebody to look up. -/
theorem results_answerFor {mem : Memory} {db : Db} {srr : Request} {msisdn imsi : String}
    {ans : List SraAvp} (h : answerFor mem db srr msisdn imsi = some ans) :
    OneResult (results ans) ↔ lookupImsi db msisdn imsi ≠ some none := by
  obtain ⟨found, hfound, h⟩ := Option.bind_eq_some_iff.mp h
  rw [hfound]
  cases found with
  | none =>
    obtain rfl := Option.some.inj h
    exact ⟨fun h => absurd h (by simp [OneResult]), fun h => absurd rfl h⟩
  | some imsi =>
    refine iff_of_true ?_ nofun
    obtain ⟨info, -, h⟩ := Option.bind_eq_some_iff.mp h
    cases info with
    | none =>
      obtain rfl := Option.some.inj h
      simp [OneResult]
    | some info =>
      obtain ⟨mmeid, -, h⟩ := Option.bind_eq_some_iff.mp h
      cases mmeid with
      | none =>
        obtain rfl := Option.some.inj h
        simp [OneResult]
      | some mmeid =>
        dsimp only at h
        by_cases hs : info.ms_ps_status ≠ "ATTACHED"
        · rw [if_pos hs] at h
          obtain rfl := Option.some.inj h
          simp [OneResult]
        · rw [if_neg hs] at h
          obtain rfl := Option.some.inj h
          simp [OneResult]

/-- **An SRR is answered with one result iff it does not give a MSISDN that nobody has.** -/
theorem oneResult_iff {mem : Memory} {db : Db} {srr : Request} {ans : List SraAvp}
    (h : serifsrProcess mem db srr = some ans) :
    OneResult (results ans) ↔ ¬ UnknownMsisdn mem db srr := by
  unfold serifsrProcess at h
  unfold UnknownMsisdn
  cases hu : user mem srr with
  | none =>
    rw [hu] at h
    obtain rfl := Option.some.inj h
    refine iff_of_true (by simp [OneResult]) ?_
    rintro ⟨msisdn, imsi, hu', -⟩
    exact absurd hu' nofun
  | some u =>
    obtain ⟨msisdn, imsi⟩ := u
    rw [hu] at h
    rw [results_answerFor h, lookupImsi]
    by_cases hm : msisdn ≠ ""
    · rw [if_pos hm]
      refine not_congr ⟨fun hn => ⟨msisdn, imsi, rfl, hm, hn⟩, ?_⟩
      rintro ⟨msisdn', imsi', hu', -, hn⟩
      obtain ⟨rfl, rfl⟩ := Prod.mk.inj (Option.some.inj hu')
      exact hn
    · rw [if_neg hm]
      refine iff_of_true nofun ?_
      rintro ⟨msisdn', imsi', hu', hm', -⟩
      obtain ⟨rfl, rfl⟩ := Prod.mk.inj (Option.some.inj hu')
      exact hm hm'

end OpenairHss.Srr
