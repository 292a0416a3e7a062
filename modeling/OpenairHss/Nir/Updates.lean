import OpenairHss.Nir.Request
import OpenairHss.DataAccess.Subscribers
import Mathlib.Tactic.IntervalCases

/-!
# The rows that an NIR writes

`NIIRcmd::process` stores Requested-Validity-Time for each IMSI that it has found, and Origin-Host
and Origin-Realm for the IMSI in `imsichar`.  `imsichar` is set in the branch for User-Name only,
which is never taken; what it holds is what the memory held.  Nothing takes the updates back, or
leaves them out, if the APN is not subscribed.

* `processed`: the answer, if nothing throws, and the tables after it.
* `written`: the same with the rows that are written; `processed_eq` connects the two.
* `writes_lookups`: the lookups come first, and then a turn for each IMSI.
* `updated_iff`: when exactly the rows of the user are written, and none with an error.
-/

namespace OpenairHss.Nir

open Cir Diameter Interact Cql DataAccess

/-! ### The writes -/

/-- The columns that an `UPDATE` writes into the row of an IMSI. -/
structure Write where
  imsi : String
  sets : List (Name × Value)
  deriving DecidableEq

def imsiKey (imsi : String) : List Value := [.text imsi.toList]

def Write.apply (w : Write) (db : Db) : Db :=
  db.upsert (name "users_imsi") (imsiKey w.imsi) (w.sets ++ [(name "imsi", .text w.imsi.toList)])

def applyAll (ws : List Write) (db : Db) : Db := ws.foldl (fun db w => w.apply db) db

/-- `UpdateValidityTime`. -/
def validity (imsi time : String) : Write := ⟨imsi, [(name "niddvalidity", .text time.toList)]⟩

/-- `UpdateNIRDestination`. -/
def destination (imsi host realm : String) : Write :=
  ⟨imsi, [(name "nir_dest_host", .text host.toList), (name "nir_dest_realm", .text realm.toList)]⟩

/-- The three columns of one row. -/
def columns (imsi time host realm : String) : Write :=
  ⟨imsi, [(name "niddvalidity", .text time.toList), (name "nir_dest_host", .text host.toList),
    (name "nir_dest_realm", .text realm.toList)]⟩

/-! ### The run -/

section

variable (out : Outcomes) (fails : Nat → String → Bool) (nir : Request) (mem : Memory)

/-- A call: the lookups are answered by `out`, and the update with this number under this IMSI
fails. -/
def execute : (q : Query) → List Write → Option q.Rep × List Write
  | .updateValidityTime imsi time, ws =>
    if fails ws.length imsi then (none, ws) else (some (), ws ++ [validity imsi time])
  | .updateNIRDestination imsi host realm, ws =>
    if fails ws.length imsi then (none, ws) else (some (), ws ++ [destination imsi host realm])
  | q, ws => (out.reply q, ws)

/-- The answer with these AVPs and this result. -/
def answer (r : List NiaAvp × Nat × Bool) : List NiaAvp :=
  [.origin, .authSessionState 1, .result (.resultCode erDiameterSuccess)] ++ r.1
    ++ [.result (handleGlobalErrorCode r.2.1 r.2.2)]

/-- `NIIRcmd::process`, call by call. -/
def niirProcessCalls : Calls (List NiaAvp) :=
  (niirUserCalls nir mem).bind fun r => .ret (answer r)

theorem eval_niirProcessCalls :
    (niirProcessCalls nir mem).eval out.reply = niirProcess out nir mem := by
  rw [niirProcessCalls, Prog.eval_bind, eval_niirUserCalls]
  exact (Option.map_eq_bind).symm

/-- The answer, unless something throws, and what has been written. -/
def written : Option (List NiaAvp) × List Write :=
  (niirProcessCalls nir mem).play (execute out fails) []

/-- The result that is added at the end is an error. -/
def Failed (ans : List NiaAvp) : Prop :=
  ans.getLast? ≠ some (.result (.resultCode erDiameterSuccess))

/-- The IMSIs of the user: that of the MSISDN, those of the external identifier, or that of
User-Name. -/
def resolved : List String :=
  match nir.msisdnBytes, nir.external_identifier with
  | some bytes, _ => match out.getImsiFromMsisdn (String.ofList (tbcd2str bytes)) with
    | some (some imsi) => [imsi]
    | _ => []
  | none, some extid => (out.getImsiListFromExtId extid).getD []
  | none, none => nir.user_name.toList

/-- The three columns stand in the rows of these IMSIs, and nothing else has changed. -/
structure Exactly (time : String) (imsis : List String) (db db' : Db) : Prop where
  written : ∀ imsi ∈ imsis, ∃ host realm, nir.origin_host = some host ∧
    nir.origin_realm = some realm ∧ db' (name "users_imsi") (imsiKey imsi) =
      (columns imsi time host realm).apply db (name "users_imsi") (imsiKey imsi)
  others : ∀ t key, ¬ (t = name "users_imsi" ∧ ∃ imsi ∈ imsis, key = imsiKey imsi) →
    db' t key = db t key

/-- **What is demanded of an NIR**: without an error the three columns are written for the IMSIs of
the user and nobody else, and with an error nothing is. -/
def Demanded (db : Db) (r : Option (List NiaAvp) × Db) : Prop :=
  (¬ (∃ ans, r.1 = some ans ∧ Failed ans) → ∀ time, nir.requested_validity_time = some time →
    Exactly nir time (resolved out nir) db r.2) ∧
  ((∃ ans, r.1 = some ans ∧ Failed ans) → r.2 = db)

/-! ### The lookups and the turns -/

/-- The lookups that come before the first update: the IMSIs that are found, and whether the APN is
subscribed. -/
def lookups : Option (List String × Bool) :=
  match nir.msisdnBytes, nir.external_identifier with
  | some bytes, _ => do
    match ← out.getImsiFromMsisdn (tbcdInto msisdnLen mem.msisdnchar bytes) with
    | none => return ([], true)
    | some imsi =>
      let ok ← apnOk out nir imsi
      let _ ← out.getExtIdsFromImsi imsi
      return ([imsi], ok)
  | none, some extid => do
    let imsis ← out.getImsiListFromExtId extid
    let ok ← apnOkAll out nir imsis
    return (imsis, ok)
  | none, none => some ([], false)

/-- The turn of an IMSI begins with a lookup that throws. -/
def throwsAt (imsi : String) : Bool :=
  match nir.msisdnBytes, nir.external_identifier with
  | none, some _ => (out.getMsisdnFromImsi imsi).isNone
  | _, _ => false

/-- The updates for one IMSI. -/
def stored (key imsi : String) : List Write → Option Unit × List Write :=
  (storeValidityCalls nir imsi key).play (execute out fails)

/-- The turns of the IMSIs, until something throws. -/
def turns (throws : String → Bool) (key : String) : List String → List Write →
    Option Unit × List Write
  | [], ws => (some (), ws)
  | imsi :: imsis, ws =>
    if throws imsi then (none, ws)
    else match (stored out fails nir key imsi ws).1 with
      | some _ => turns throws key imsis (stored out fails nir key imsi ws).2
      | none => (none, (stored out fails nir key imsi ws).2)

end

section

variable {out : Outcomes} {fails : Nat → String → Bool} {nir : Request} {mem : Memory}

theorem execute_reads (q : Query) (ws : List Write) (h : q.Reads) :
    execute out fails q ws = (out.reply q, ws) := by
  cases q with
  | updateValidityTime imsi time => exact absurd h id
  | updateNIRDestination imsi host realm => exact absurd h id
  | _ => rfl

theorem only_apnOkCalls (imsi : String) : (apnOkCalls nir imsi).Only Query.Reads := by
  unfold apnOkCalls
  cases nir.service_selection with
  | none => trivial
  | some apn =>
    refine ⟨trivial, fun subData : Option String => ?_⟩
    cases subData with
    | none => trivial
    | some subData =>
      refine ⟨trivial, fun apnFromDB : Option String => ?_⟩
      cases apnFromDB <;> trivial

theorem only_apnOkAllCalls (imsis : List String) :
    (apnOkAllCalls nir imsis).Only Query.Reads := by
  induction imsis with
  | nil => trivial
  | cons imsi imsis ih =>
    exact Prog.only_bind (only_apnOkCalls imsi) fun _ => Prog.only_bind ih fun _ => trivial

theorem play_apnOkCalls (imsi : String) (ws : List Write) :
    (apnOkCalls nir imsi).play (execute out fails) ws = (apnOk out nir imsi, ws) := by
  rw [Prog.play_eq_eval execute_reads (only_apnOkCalls imsi), eval_apnOkCalls]

theorem play_apnOkAllCalls (imsis : List String) (ws : List Write) :
    (apnOkAllCalls nir imsis).play (execute out fails) ws = (apnOkAll out nir imsis, ws) := by
  rw [Prog.play_eq_eval execute_reads (only_apnOkAllCalls imsis), eval_apnOkAllCalls]

theorem play_ask (fails : Nat → String → Bool) {q : Query} (hq : q.Reads) (ws : List Write) :
    (ask q).play (execute out fails) ws = (out.reply q, ws) := by
  have honly : (ask q).Only Query.Reads := ⟨hq, fun _ => trivial⟩
  rw [Prog.play_eq_eval execute_reads honly, ask, Prog.eval_perform]

/-- The answer of one turn. -/
theorem play_stored (key imsi : String) (r : Found) (ws : List Write) :
    ((storeValidityCalls nir imsi key).bind fun _ => Prog.ret r).play (execute out fails) ws =
      ((stored out fails nir key imsi ws).1.map fun _ => r, (stored out fails nir key imsi ws).2) := by
  rw [Prog.play_bind, stored]
  cases ((storeValidityCalls nir imsi key).play (execute out fails) ws).1 with
  | none => rfl
  | some _ => rfl

/-- A single turn that does not begin with a lookup. -/
theorem turns_singleton {throws : String → Bool} {imsi : String} (h : throws imsi = false)
    (key : String) (ws : List Write) :
    turns out fails nir throws key [imsi] ws = stored out fails nir key imsi ws := by
  rw [turns, h, if_neg Bool.false_ne_true]
  cases hs : stored out fails nir key imsi ws with
  | mk r ws' =>
    cases r with
    | none => rfl
    | some _ => rfl

section

variable {α : Type} {key : String} {throws : String → Bool}

/-- The program makes these lookups first, and then the turns. -/
def Plays (out : Outcomes) (fails : Nat → String → Bool) (nir : Request) (key : String)
    (throws : String → Bool) (p : Calls Found) (found : Option (List String × Bool)) : Prop :=
  match found with
  | none => p.play (execute out fails) [] = (none, [])
  | some (imsis, ok) => ∃ avps, p.play (execute out fails) [] =
      ((turns out fails nir throws key imsis []).1.map fun _ => ((avps, ok) : Found),
        (turns out fails nir throws key imsis []).2)

theorem Plays.bind {p : Calls α} {f : α → Calls Found} {x : Option α}
    {g : α → Option (List String × Bool)} (hp : p.play (execute out fails) [] = (x, []))
    (h : ∀ a, Plays out fails nir key throws (f a) (g a)) :
    Plays out fails nir key throws (p.bind f) (x.bind g) := by
  cases x with
  | none => exact Prog.play_bind_none hp f
  | some a =>
    rw [Option.bind_some]
    have hfa := h a
    unfold Plays at hfa ⊢
    rw [Prog.play_bind_some hp f]
    exact hfa

theorem Plays.ask {q : Query} (hq : q.Reads) {f : q.Rep → Calls Found}
    {g : q.Rep → Option (List String × Bool)} (h : ∀ r, Plays out fails nir key throws (f r) (g r)) :
    Plays out fails nir key throws ((Nir.ask q).bind f) ((out.reply q).bind g) :=
  .bind (play_ask fails hq []) h

theorem Plays.ret (avps : List NiaAvp) (ok : Bool) :
    Plays out fails nir key throws (.ret (avps, ok)) (some ([], ok)) := ⟨avps, rfl⟩

theorem Plays.turn {imsi : String} (h : throws imsi = false) (avps : List NiaAvp) (ok : Bool) :
    Plays out fails nir key throws
      ((storeValidityCalls nir imsi key).bind fun _ => .ret (avps, ok)) (some ([imsi], ok)) := by
  refine ⟨avps, ?_⟩
  rw [play_stored, turns_singleton h]

end

theorem plays_byMsisdn {bytes : List (BitVec 8)} (hmsisdn : nir.msisdnBytes = some bytes) :
    Plays out fails nir mem.imsichar (throwsAt out nir)
      (byMsisdnCalls nir mem (tbcdInto msisdnLen mem.msisdnchar bytes)) (lookups out nir mem) := by
  have hthrows : ∀ imsi, throwsAt out nir imsi = false := fun imsi => by rw [throwsAt, hmsisdn]
  rw [lookups, hmsisdn]
  unfold byMsisdnCalls
  refine Plays.ask (q := .getImsiFromMsisdn _) trivial fun imsi : Option String => ?_
  cases imsi with
  | none => exact Plays.ret [] true
  | some imsi =>
    refine Plays.bind (play_apnOkCalls imsi []) fun ok => ?_
    refine Plays.ask (q := .getExtIdsFromImsi imsi) trivial fun extids : Option (List String) => ?_
    exact Plays.turn (hthrows imsi) _ ok

/-- The turns of `groupAll`. -/
theorem play_groupAllCalls {throws : String → Bool}
    (hthrows : ∀ imsi, throws imsi = (out.getMsisdnFromImsi imsi).isNone) (imsis : List String)
    (ws : List Write) :
    ∃ avps, (groupAllCalls nir mem imsis).play (execute out fails) ws =
      ((turns out fails nir throws mem.imsichar imsis ws).1.map fun _ => avps,
        (turns out fails nir throws mem.imsichar imsis ws).2) := by
  induction imsis generalizing ws with
  | nil => exact ⟨[], rfl⟩
  | cons imsi imsis ih =>
    rw [turns, hthrows]
    cases hm : out.getMsisdnFromImsi imsi with
    | none =>
      refine ⟨[], ?_⟩
      exact Prog.play_bind_none ((play_ask fails (q := .getMsisdnFromImsi imsi) trivial ws).trans
        (congrArg (·, ws) hm)) _
    | some msisdn =>
      rw [Option.isNone_some, if_neg Bool.false_ne_true]
      have hask := (play_ask fails (q := .getMsisdnFromImsi imsi) trivial ws).trans
        (congrArg (·, ws) hm)
      cases hs : stored out fails nir mem.imsichar imsi ws with
      | mk r ws' =>
        cases r with
        | none =>
          exact ⟨[], (Prog.play_bind_some hask _).trans (Prog.play_bind_none hs _)⟩
        | some u =>
          obtain ⟨avps, hrest⟩ := ih ws'
          refine ⟨.userName imsi :: msisdn.toList.map (msisdnAvp mem) ++ avps,
            (Prog.play_bind_some hask _).trans ((Prog.play_bind_some hs _).trans ?_)⟩
          refine (Prog.play_bind _ _ _ _).trans ?_
          rw [hrest]
          cases (turns out fails nir throws mem.imsichar imsis ws').1 <;> rfl

theorem plays_byExternalIdentifier {extid : String} (hmsisdn : nir.msisdnBytes = none)
    (hext : nir.external_identifier = some extid) :
    Plays out fails nir mem.imsichar (throwsAt out nir)
      (byExternalIdentifierCalls nir mem extid) (lookups out nir mem) := by
  have hthrows : ∀ imsi, throwsAt out nir imsi = (out.getMsisdnFromImsi imsi).isNone :=
    fun imsi => by rw [throwsAt, hmsisdn, hext]
  rw [lookups, hmsisdn, hext]
  unfold byExternalIdentifierCalls
  refine Plays.ask (q := .getImsiListFromExtId extid) trivial fun imsis : List String => ?_
  refine Plays.bind (play_apnOkAllCalls imsis []) fun ok => ?_
  obtain ⟨avps, hturns⟩ := @play_groupAllCalls out fails nir mem _ hthrows imsis []
  refine ⟨[], (Prog.play_bind _ _ _ _).trans ?_⟩
  rw [hturns]
  cases (turns out fails nir (throwsAt out nir) mem.imsichar imsis []).1 <;> rfl

theorem failed_answer (r : List NiaAvp × Nat × Bool) :
    Failed (answer r) ↔ handleGlobalErrorCode r.2.1 r.2.2 ≠ .resultCode erDiameterSuccess := by
  rw [Failed, answer, List.getLast?_concat]
  simp

/-- The answer is an error if the APN is not subscribed. -/
theorem failed_answer_apn (r : Found) :
    Failed (answer (if r.2 then (r.1, erDiameterSuccess, false)
      else (r.1, diameterErrorUserNoApnSubscription, true))) ↔ r.2 = false := by
  rw [failed_answer]
  have hcodes : ∀ ok : Bool, (handleGlobalErrorCode
      (if ok then erDiameterSuccess else diameterErrorUserNoApnSubscription) (!ok) ≠
        .resultCode erDiameterSuccess) ↔ ok = false := by decide
  cases hok : r.2 with
  | false => simpa using hcodes false
  | true => simpa using hcodes true

/-- These lookups come first, and then a turn for each IMSI; an answer that the turns do not prevent
is an error if the APN is not subscribed. -/
def Writes (out : Outcomes) (fails : Nat → String → Bool) (nir : Request) (mem : Memory) :
    Option (List String × Bool) → Prop
  | none => written out fails nir mem = (none, [])
  | some (imsis, ok) =>
    let r := turns out fails nir (throwsAt out nir) mem.imsichar imsis []
    (written out fails nir mem).2 = r.2 ∧
      ((∃ ans, (written out fails nir mem).1 = some ans ∧ Failed ans) ↔
        r.1.isSome = true ∧ ok = false)

/-- What the calls for the user play is what is written. -/
theorem Plays.writes {p : Calls Found} {found : Option (List String × Bool)}
    (hplays : Plays out fails nir mem.imsichar (throwsAt out nir) p found)
    {code : Found → List NiaAvp × Nat × Bool} (hcode : ∀ r, Failed (answer (code r)) ↔ r.2 = false)
    (hp : niirUserCalls nir mem = p.bind fun r => .ret (code r)) :
    Writes out fails nir mem found := by
  have hcalls : niirProcessCalls nir mem = p.bind fun r => .ret (answer (code r)) := by
    rw [niirProcessCalls, hp, Prog.bind_assoc]
    rfl
  cases found with
  | none =>
    rw [Writes, written, hcalls]
    exact Prog.play_bind_none hplays _
  | some found =>
    obtain ⟨imsis, ok⟩ := found
    obtain ⟨avps, hplays⟩ := hplays
    unfold Writes
    dsimp only
    generalize turns out fails nir (throwsAt out nir) mem.imsichar imsis [] = r at hplays ⊢
    rw [written, hcalls, Prog.play_bind, hplays]
    cases r.1 with
    | none => simp
    | some u => simp [hcode]

/-- **The lookups come first, and then a turn for each IMSI.** -/
theorem writes_lookups (out : Outcomes) (fails : Nat → String → Bool) (nir : Request)
    (mem : Memory) : Writes out fails nir mem (lookups out nir mem) := by
  cases hmsisdn : nir.msisdnBytes with
  | some bytes =>
    refine (plays_byMsisdn hmsisdn).writes failed_answer_apn ?_
    rw [niirUserCalls, nir.userNameBytes_eq, hmsisdn]
  | none =>
    cases hext : nir.external_identifier with
    | some extid =>
      refine (plays_byExternalIdentifier hmsisdn hext).writes failed_answer_apn ?_
      rw [niirUserCalls, nir.userNameBytes_eq, hmsisdn, hext]
    | none =>
      have hanswer : written out fails nir mem =
          (some (answer ([], diameterErrorUserUnknown, true)), []) := by
        rw [written, niirProcessCalls, niirUserCalls, nir.userNameBytes_eq, hmsisdn, hext]
        rfl
      have hfailed : Failed (answer ([], diameterErrorUserUnknown, true)) :=
        (failed_answer _).mpr (by decide)
      rw [lookups, hmsisdn, hext]
      unfold Writes
      rw [hanswer]
      exact ⟨rfl, iff_of_true ⟨_, rfl, hfailed⟩ ⟨rfl, rfl⟩⟩

/-! ### What the turns write -/

theorem play_updateValidityTime (out : Outcomes) (fails : Nat → String → Bool) (imsi time : String)
    (ws : List Write) :
    (ask (.updateValidityTime imsi time)).play (execute out fails) ws =
      if fails ws.length imsi then (none, ws) else (some (), ws ++ [validity imsi time]) :=
  Prog.play_perform (execute out fails) (.updateValidityTime imsi time) ws

theorem play_updateNIRDestination (out : Outcomes) (fails : Nat → String → Bool)
    (imsi host realm : String) (ws : List Write) :
    (ask (.updateNIRDestination imsi host realm)).play (execute out fails) ws =
      if fails ws.length imsi then (none, ws) else (some (), ws ++ [destination imsi host realm]) :=
  Prog.play_perform (execute out fails) (.updateNIRDestination imsi host realm) ws

/-- The updates for one IMSI, until the database fails. -/
theorem stored_eq {time : String} (htime : nir.requested_validity_time = some time)
    (key imsi : String) (ws : List Write) :
    stored out fails nir key imsi ws =
      if fails ws.length imsi then (none, ws)
      else match nir.origin_host, nir.origin_realm with
        | some host, some realm =>
          if fails (ws.length + 1) key then (none, ws ++ [validity imsi time])
          else (some (), ws ++ [validity imsi time, destination key host realm])
        | _, _ => (some (), ws ++ [validity imsi time]) := by
  rw [stored, storeValidityCalls, htime]
  have hvalidity := play_updateValidityTime out fails imsi time ws
  cases hfails : fails ws.length imsi with
  | true =>
    rw [hfails, if_pos rfl] at hvalidity
    exact Prog.play_bind_none hvalidity _
  | false =>
    rw [hfails, if_neg Bool.false_ne_true] at hvalidity
    refine (Prog.play_bind_some hvalidity _).trans ?_
    rw [if_neg Bool.false_ne_true]
    cases nir.origin_host with
    | none => rfl
    | some host =>
      cases nir.origin_realm with
      | none => rfl
      | some realm =>
        have hdestination := play_updateNIRDestination out fails key host realm
          (ws ++ [validity imsi time])
        rw [List.length_append, List.length_singleton] at hdestination
        cases hfails' : fails (ws.length + 1) key with
        | true =>
          rw [hfails', if_pos rfl] at hdestination
          exact Prog.play_bind_none hdestination _
        | false =>
          rw [hfails', if_neg Bool.false_ne_true, List.append_assoc] at hdestination
          exact Prog.play_bind_some hdestination _

/-- What the turns of these IMSIs may write. -/
def Allowed (nir : Request) (time key : String) (imsis : List String) (w : Write) : Prop :=
  (∃ imsi ∈ imsis, w = validity imsi time) ∨
    ∃ host realm, nir.origin_host = some host ∧ nir.origin_realm = some realm ∧
      w = destination key host realm

/-- One turn appends what it writes. -/
theorem stored_writes (out : Outcomes) (fails : Nat → String → Bool) {time : String}
    (htime : nir.requested_validity_time = some time) (key imsi : String) (ws : List Write) :
    ∃ ws', (stored out fails nir key imsi ws).2 = ws ++ ws' ∧
      ∀ w ∈ ws', Allowed nir time key [imsi] w := by
  have hvalidity : Allowed nir time key [imsi] (validity imsi time) :=
    .inl ⟨imsi, List.mem_singleton_self imsi, rfl⟩
  rw [stored_eq htime]
  cases fails ws.length imsi with
  | true => exact ⟨[], (List.append_nil ws).symm, fun w hw => absurd hw List.not_mem_nil⟩
  | false =>
    rw [if_neg Bool.false_ne_true]
    have hone : ∀ w ∈ [validity imsi time], Allowed nir time key [imsi] w := fun w hw => by
      obtain rfl := List.mem_singleton.mp hw
      exact hvalidity
    split
    case h_1 host realm hhost hrealm =>
      cases fails (ws.length + 1) key with
      | true => exact ⟨_, rfl, hone⟩
      | false =>
        refine ⟨_, rfl, fun w hw => ?_⟩
        rcases List.mem_cons.mp hw with rfl | hw
        · exact hvalidity
        · obtain rfl := List.mem_singleton.mp hw
          exact .inr ⟨host, realm, hhost, hrealm, rfl⟩
    case h_2 => exact ⟨_, rfl, hone⟩

/-- Without Requested-Validity-Time nothing is written. -/
theorem turns_none (htime : nir.requested_validity_time = none) (throws : String → Bool)
    (key : String) (imsis : List String) (ws : List Write) :
    (turns out fails nir throws key imsis ws).2 = ws := by
  have hstored : ∀ imsi, stored out fails nir key imsi ws = (some (), ws) := fun imsi => by
    rw [stored, storeValidityCalls, htime]
    rfl
  induction imsis with
  | nil => rfl
  | cons imsi imsis ih =>
    rw [turns, hstored]
    split
    · rfl
    · exact ih

/-- The turns append what they write. -/
theorem turns_writes (out : Outcomes) (fails : Nat → String → Bool) {time : String}
    (htime : nir.requested_validity_time = some time) (throws : String → Bool) (key : String)
    (imsis : List String) (ws : List Write) :
    ∃ ws', (turns out fails nir throws key imsis ws).2 = ws ++ ws' ∧
      ∀ w ∈ ws', Allowed nir time key imsis w := by
  induction imsis generalizing ws with
  | nil => exact ⟨[], (List.append_nil ws).symm, fun w hw => absurd hw List.not_mem_nil⟩
  | cons imsi imsis ih =>
    rw [turns]
    cases throws imsi with
    | true => exact ⟨[], (List.append_nil ws).symm, fun w hw => absurd hw List.not_mem_nil⟩
    | false =>
      rw [if_neg Bool.false_ne_true]
      obtain ⟨ws₁, hws₁, hallowed₁⟩ := stored_writes out fails htime key imsi ws
      have hfirst : ∀ w ∈ ws₁, Allowed nir time key (imsi :: imsis) w := fun w hw => by
        refine (hallowed₁ w hw).imp_left ?_
        rintro ⟨imsi', hmem, rfl⟩
        obtain rfl := List.mem_singleton.mp hmem
        exact ⟨_, List.mem_cons_self, rfl⟩
      cases (stored out fails nir key imsi ws).1 with
      | none => exact ⟨ws₁, hws₁, hfirst⟩
      | some _ =>
        obtain ⟨ws₂, hws₂, hallowed₂⟩ := ih (stored out fails nir key imsi ws).2
        refine ⟨ws₁ ++ ws₂, by rw [hws₂, hws₁, List.append_assoc], fun w hw => ?_⟩
        rcases List.mem_append.mp hw with hw | hw
        · exact hfirst w hw
        · refine (hallowed₂ w hw).imp_left ?_
          rintro ⟨imsi', hmem, rfl⟩
          exact ⟨imsi', List.mem_cons_of_mem _ hmem, rfl⟩

/-! ### What the writes do -/

theorem imsiKey_inj {imsi imsi' : String} : imsiKey imsi = imsiKey imsi' ↔ imsi = imsi' := by
  simp [imsiKey, String.toList_inj]

theorem Write.apply_self (w : Write) (db : Db) :
    w.apply db (name "users_imsi") (imsiKey w.imsi) = some fun c =>
      (w.sets ++ [(name "imsi", Value.text w.imsi.toList)]).lookup c <|>
        (db (name "users_imsi") (imsiKey w.imsi)).bind fun row => row c := Db.set_same ..

theorem Write.apply_of_ne {w : Write} {t : Name} {key : List Value}
    (h : ¬ (t = name "users_imsi" ∧ key = imsiKey w.imsi)) (db : Db) :
    w.apply db t key = db t key := if_neg h

/-- Every row that is written is there. -/
theorem isSome_applyAll {w : Write} {ws : List Write} (h : w ∈ ws) (db : Db) :
    (applyAll ws db (name "users_imsi") (imsiKey w.imsi)).isSome = true := by
  have hkeep : ∀ (ws : List Write) (db : Db) (key : List Value),
      (db (name "users_imsi") key).isSome = true →
      (applyAll ws db (name "users_imsi") key).isSome = true := by
    intro ws
    induction ws with
    | nil => exact fun _ _ h => h
    | cons w ws ih =>
      intro db key hkey
      refine ih (w.apply db) key ?_
      by_cases hw : key = imsiKey w.imsi
      · rw [hw, Write.apply_self]
        rfl
      · rwa [Write.apply_of_ne fun h => hw h.2]
  induction ws generalizing db with
  | nil => exact absurd h List.not_mem_nil
  | cons w' ws ih =>
    rcases List.mem_cons.mp h with rfl | h
    · refine hkeep ws (w.apply db) _ ?_
      rw [Write.apply_self]
      rfl
    · exact ih h (w'.apply db)

/-- A column has been written, or was there before. -/
theorem exists_write {ws : List Write} {db : Db} {key : List Value} {c : Name} {v : Value}
    (h : (applyAll ws db (name "users_imsi") key).bind (· c) = some v) :
    (∃ w ∈ ws, key = imsiKey w.imsi ∧
      (w.sets ++ [(name "imsi", Value.text w.imsi.toList)]).lookup c = some v) ∨
    (db (name "users_imsi") key).bind (· c) = some v := by
  induction ws generalizing db with
  | nil => exact .inr h
  | cons w ws ih =>
    rcases @ih (w.apply db) h with ⟨w', hw', hwrite⟩ | hbefore
    · exact .inl ⟨w', List.mem_cons_of_mem _ hw', hwrite⟩
    · by_cases hw : key = imsiKey w.imsi
      · rw [hw, Write.apply_self, Option.bind_some] at hbefore
        dsimp only at hbefore
        cases hlookup : (w.sets ++ [(name "imsi", Value.text w.imsi.toList)]).lookup c with
        | some v' =>
          rw [hlookup] at hbefore
          obtain rfl := Option.some.inj hbefore
          exact .inl ⟨w, List.mem_cons_self, hw, hlookup⟩
        | none =>
          rw [hlookup] at hbefore
          exact .inr (hw ▸ hbefore)
      · rw [Write.apply_of_ne fun h => hw h.2] at hbefore
        exact .inr hbefore

/-! ### When it is as demanded -/

/-- The first turn writes unless it begins with a failure. -/
theorem turns_cons (out : Outcomes) {time : String}
    (htime : nir.requested_validity_time = some time) {throws : String → Bool} {imsi : String} (hthrows : throws imsi = false)
    (hfails : fails 0 imsi = false) (key : String) (imsis : List String) :
    ∃ ws, (turns out fails nir throws key (imsi :: imsis) []).2 = validity imsi time :: ws := by
  have hstored : ∃ ws, (stored out fails nir key imsi []).2 = validity imsi time :: ws := by
    rw [stored_eq htime, List.length_nil, hfails, if_neg Bool.false_ne_true]
    split
    · split
      · exact ⟨[], rfl⟩
      · exact ⟨[_], rfl⟩
    · exact ⟨[], rfl⟩
  obtain ⟨ws, hws⟩ := hstored
  rw [turns, hthrows, if_neg Bool.false_ne_true]
  cases (stored out fails nir key imsi []).1 with
  | none => exact ⟨ws, hws⟩
  | some _ =>
    obtain ⟨ws', hws', -⟩ := turns_writes out fails htime throws key imsis
      (stored out fails nir key imsi []).2
    exact ⟨ws ++ ws', by rw [hws', hws, List.cons_append]⟩

theorem turns_idle {time : String} (htime : nir.requested_validity_time = some time)
    {throws : String → Bool} {imsi : String} (h : throws imsi = true ∨ fails 0 imsi = true) (key : String)
    (imsis : List String) : turns out fails nir throws key (imsi :: imsis) [] = (none, []) := by
  rw [turns]
  cases hthrows : throws imsi with
  | true => rfl
  | false =>
    have hfails : fails 0 imsi = true :=
      h.resolve_left fun hthrows' => Bool.false_ne_true (hthrows.symm.trans hthrows')
    rw [if_neg Bool.false_ne_true, stored_eq htime, List.length_nil, hfails, if_pos rfl]

/-- Nothing is written exactly if there is no turn, or the first one begins with a failure. -/
theorem turns_eq_nil_iff (out : Outcomes) (fails : Nat → String → Bool) {time : String} (htime : nir.requested_validity_time = some time)
    (throws : String → Bool) (key : String) (imsis : List String) :
    (turns out fails nir throws key imsis []).2 = [] ↔
      ∀ imsi, imsis.head? = some imsi → throws imsi = true ∨ fails 0 imsi = true := by
  cases imsis with
  | nil => exact iff_of_true rfl fun imsi h => absurd h nofun
  | cons imsi imsis =>
    constructor
    · intro h imsi' himsi'
      obtain rfl := Option.some.inj himsi'
      by_contra hne
      rw [not_or, Bool.not_eq_true, Bool.not_eq_true] at hne
      obtain ⟨ws, hws⟩ := turns_cons out htime hne.1 hne.2 key imsis
      exact absurd (hws.symm.trans h) (List.cons_ne_nil _ _)
    · intro h
      rw [turns_idle htime (h imsi rfl)]

/-- Turns of one IMSI over and over, under its own key. -/
theorem turns_replicate (out : Outcomes) (fails : Nat → String → Bool) {time host realm : String}
    (htime : nir.requested_validity_time = some time)
    (hhost : nir.origin_host = some host) (hrealm : nir.origin_realm = some realm)
    {throws : String → Bool} {key : String} (hthrows : throws key = false) (n : Nat)
    (ws : List Write) :
    (turns out fails nir throws key (List.replicate n key) ws).1.isSome = true ↔
      ∀ i, ws.length ≤ i → i < ws.length + 2 * n → fails i key = false := by
  induction n generalizing ws with
  | zero => exact iff_of_true rfl fun i hle hlt => by omega
  | succ n ih =>
    rw [List.replicate_succ, turns, hthrows, if_neg Bool.false_ne_true, stored_eq htime, hhost, hrealm]
    cases hfails : fails ws.length key with
    | true =>
      refine iff_of_false Bool.false_ne_true fun h => ?_
      exact Bool.false_ne_true ((h _ le_rfl (by omega)).symm.trans hfails)
    | false =>
      rw [if_neg Bool.false_ne_true]
      dsimp only
      cases hfails' : fails (ws.length + 1) key with
      | true =>
        refine iff_of_false Bool.false_ne_true fun h => ?_
        exact Bool.false_ne_true ((h _ (by omega) (by omega)).symm.trans hfails')
      | false =>
        rw [if_neg Bool.false_ne_true]
        refine (ih _).trans ?_
        rw [List.length_append]
        constructor
        · intro h i hle hlt
          rcases Nat.lt_or_ge i (ws.length + 2) with hi | hi
          · rcases Nat.lt_or_ge i (ws.length + 1) with hi' | hi'
            · rwa [show i = ws.length by omega]
            · rwa [show i = ws.length + 1 by omega]
          · exact h i (by simpa using hi) (by simp; omega)
        · intro h i hle hlt
          simp only [List.length_cons, List.length_nil] at hle hlt
          exact h i (by omega) (by omega)

section Columns

variable {imsi time host realm : String} (db : Db)

theorem destination_validity : (destination imsi host realm).apply ((validity imsi time).apply db) =
    (columns imsi time host realm).apply db := by
  refine (Db.upsert_upsert ..).trans (Db.upsert_congr (fun c => ?_) ..)
  by_cases h : c = name "niddvalidity"
  · subst h
    rfl
  · simp only [destination, validity, columns, List.cons_append, List.nil_append, List.lookup_cons,
      beq_false_of_ne h, List.lookup_nil]
    cases c == name "nir_dest_host" <;> cases c == name "nir_dest_realm" <;>
      cases c == name "imsi" <;> rfl

theorem validity_columns : (validity imsi time).apply ((columns imsi time host realm).apply db) =
    (columns imsi time host realm).apply db := by
  refine (Db.upsert_upsert ..).trans (Db.upsert_congr (fun c => ?_) ..)
  by_cases h : c = name "imsi"
  · subst h
    rfl
  · simp only [validity, columns, List.cons_append, List.nil_append, List.lookup_cons,
      beq_false_of_ne h, List.lookup_nil]
    cases c == name "niddvalidity" <;> rfl

theorem destination_columns :
    (destination imsi host realm).apply ((columns imsi time host realm).apply db) =
      (columns imsi time host realm).apply db := by
  refine (Db.upsert_upsert ..).trans (Db.upsert_congr (fun c => ?_) ..)
  by_cases h : c = name "niddvalidity"
  · subst h
    rfl
  · simp only [destination, columns, List.cons_append, List.nil_append, List.lookup_cons,
      beq_false_of_ne h, List.lookup_nil]
    cases c == name "nir_dest_host" <;> cases c == name "nir_dest_realm" <;>
      cases c == name "imsi" <;> rfl

end Columns

def empty : Db := fun _ _ => none

theorem eq_nil_of_applyAll {ws : List Write} (h : applyAll ws empty = empty) : ws = [] := by
  cases ws with
  | nil => rfl
  | cons w ws =>
    have hrow := isSome_applyAll (List.mem_cons_self : w ∈ w :: ws) empty
    rw [h] at hrow
    exact absurd hrow Bool.false_ne_true

theorem exactly_nil {time : String} {db db' : Db} : Exactly nir time [] db db' ↔ db' = db := by
  refine ⟨fun h => funext fun t => funext fun key => h.others t key ?_, ?_⟩
  · rintro ⟨-, imsi, hmem, -⟩
    exact List.not_mem_nil hmem
  · rintro rfl
    exact ⟨fun imsi h => absurd h List.not_mem_nil, fun _ _ _ => rfl⟩

/-- Who writes the row of an IMSI under one key, writes under its key. -/
theorem Exactly.writes {time key : String} {imsis found : List String} {ws : List Write}
    (h : Exactly nir time imsis empty (applyAll ws empty))
    (hws : ∀ w ∈ ws, Allowed nir time key found w) {imsi : String} (hmem : imsi ∈ imsis) :
    imsi = key ∧ ∃ host realm, nir.origin_host = some host ∧ nir.origin_realm = some realm ∧
      destination key host realm ∈ ws := by
  obtain ⟨host, realm, -, -, hrow⟩ := h.written imsi hmem
  have hcolumn : (applyAll ws empty (name "users_imsi") (imsiKey imsi)).bind
      (· (name "nir_dest_host")) = some (.text host.toList) := by
    rw [hrow]
    exact congrArg (Option.bind · _) ((columns imsi time host realm).apply_self empty)
  rcases exists_write hcolumn with ⟨w, hw, hkey, hlookup⟩ | hbefore
  · rcases hws w hw with ⟨imsi', -, rfl⟩ | ⟨host', realm', hhost, hrealm, rfl⟩
    · exact absurd hlookup nofun
    · exact ⟨imsiKey_inj.mp hkey, host', realm', hhost, hrealm, hw⟩
  · exact absurd hbefore nofun

/-- All the writes are of one row. -/
theorem Exactly.of_key {time key host realm : String} {imsis found : List String} {ws : List Write}
    (hhost : nir.origin_host = some host) (hrealm : nir.origin_realm = some realm)
    (himsis : ∀ imsi ∈ imsis, imsi = key) (hne : imsis ≠ []) (hfound : ∀ imsi ∈ found, imsi = key)
    (hws : ∀ w ∈ ws, Allowed nir time key found w) (db : Db) :
    Exactly nir time imsis db
      (applyAll (validity key time :: destination key host realm :: ws) db) := by
  have hall : applyAll (validity key time :: destination key host realm :: ws) db =
      (columns key time host realm).apply db := by
    have hrest : applyAll ws ((columns key time host realm).apply db) =
        (columns key time host realm).apply db := by
      clear hne
      induction ws with
      | nil => rfl
      | cons w ws ih =>
        have hw : w.apply ((columns key time host realm).apply db) =
            (columns key time host realm).apply db := by
          rcases hws w List.mem_cons_self with ⟨imsi, hmem, rfl⟩ | ⟨host', realm', hhost', hrealm', rfl⟩
          · obtain rfl := hfound imsi hmem
            exact validity_columns db
          · obtain rfl : host = host' := Option.some.inj (hhost.symm.trans hhost')
            obtain rfl : realm = realm' := Option.some.inj (hrealm.symm.trans hrealm')
            exact destination_columns db
        refine Eq.trans ?_ (ih fun w' hw' => hws w' (List.mem_cons_of_mem _ hw'))
        exact congrArg (applyAll ws) hw
    exact (congrArg (applyAll ws) (destination_validity db)).trans hrest
  rw [hall]
  refine ⟨fun imsi hmem => ?_, fun t k hk => ?_⟩
  · obtain rfl := himsis imsi hmem
    exact ⟨host, realm, hhost, hrealm, rfl⟩
  · obtain ⟨imsi, hmem⟩ := List.exists_mem_of_ne_nil imsis hne
    refine Write.apply_of_ne (fun h => hk ⟨h.1, imsi, hmem, ?_⟩) db
    rw [himsis imsi hmem]
    exact h.2

/-- Nothing is written: there is no turn, or the first one begins with a failure. -/
def Idle (out : Outcomes) (fails : Nat → String → Bool) (nir : Request) (found : List String) : Prop :=
  ∀ imsi, found.head? = some imsi → throwsAt out nir imsi = true ∨ fails 0 imsi = true

/-- The row in `imsichar` is the only one that is meant and the only one that is found, and its first
turn does not fail; if the APN is not subscribed, then a later turn of it does. -/
structure OneRow (out : Outcomes) (fails : Nat → String → Bool) (nir : Request) (mem : Memory)
    (found : List String) (ok : Bool) : Prop where
  meant : resolved out nir ≠ [] ∧ ∀ imsi ∈ resolved out nir, imsi = mem.imsichar
  only : found ≠ [] ∧ ∀ imsi ∈ found, imsi = mem.imsichar
  origin : nir.origin_host.isSome = true ∧ nir.origin_realm.isSome = true
  first : throwsAt out nir mem.imsichar = false ∧ fails 0 mem.imsichar = false ∧
    fails 1 mem.imsichar = false
  subscribed : ok = true ∨ ∃ i, 2 ≤ i ∧ i < 2 * found.length ∧ fails i mem.imsichar = true

/-- Nobody is found, and the answer is an error. -/
def Unknown (found : List String) (ok : Bool) : Prop := found = [] ∧ ok = false

/-- When an NIR with Requested-Validity-Time writes what it should. -/
def Right (out : Outcomes) (fails : Nat → String → Bool) (nir : Request) (mem : Memory) : Prop :=
  match lookups out nir mem with
  | none => resolved out nir = []
  | some (found, ok) =>
    Unknown found ok ∨ (resolved out nir = [] ∧ Idle out fails nir found) ∨
      OneRow out fails nir mem found ok

/-- What is found is what is meant, or at most one IMSI. -/
theorem lookups_cases {found : List String} {ok : Bool}
    (h : lookups out nir mem = some (found, ok)) :
    found = resolved out nir ∨ found.tail = [] := by
  unfold lookups at h
  split at h
  · -- MSISDN
    refine .inr ?_
    obtain ⟨imsi, -, h⟩ := Option.bind_eq_some_iff.mp h
    cases imsi with
    | none =>
      obtain ⟨rfl, -⟩ := Prod.mk.inj (Option.some.inj h)
      rfl
    | some imsi =>
      obtain ⟨ok', -, h⟩ := Option.bind_eq_some_iff.mp h
      obtain ⟨-, -, h⟩ := Option.bind_eq_some_iff.mp h
      obtain ⟨rfl, -⟩ := Prod.mk.inj (Option.some.inj h)
      rfl
  · -- External-Identifier
    refine .inl ?_
    rename_i extid hmsisdn hext
    obtain ⟨imsis, himsis, h⟩ := Option.bind_eq_some_iff.mp h
    obtain ⟨ok', -, h⟩ := Option.bind_eq_some_iff.mp h
    obtain ⟨rfl, -⟩ := Prod.mk.inj (Option.some.inj h)
    rw [resolved, hmsisdn, hext]
    dsimp only
    rw [himsis, Option.getD_some]
  · obtain ⟨rfl, -⟩ := Prod.mk.inj (Option.some.inj h)
    exact .inr rfl

/-- A turn under its own key that does not fail. -/
theorem turns_cons_key {time host realm : String} (htime : nir.requested_validity_time = some time)
    (hhost : nir.origin_host = some host) (hrealm : nir.origin_realm = some realm)
    {throws : String → Bool} {key : String} (hthrows : throws key = false) (hzero : fails 0 key = false)
    (imsis : List String) :
    turns out fails nir throws key (key :: imsis) [] =
      if fails 1 key then (none, [validity key time])
      else turns out fails nir throws key imsis [validity key time, destination key host realm] := by
  rw [turns, hthrows, if_neg Bool.false_ne_true, stored_eq htime, List.length_nil, hzero,
    if_neg Bool.false_ne_true, hhost, hrealm]
  cases fails 1 key <;> rfl

/-- Under one key, all turns are over unless one after the first fails. -/
theorem turns_only (out : Outcomes) {time host realm : String}
    (htime : nir.requested_validity_time = some time)
    (hhost : nir.origin_host = some host) (hrealm : nir.origin_realm = some realm)
    {throws : String → Bool} {key : String} {found : List String}
    (honly : ∀ imsi ∈ found, imsi = key) (hthrows : throws key = false)
    (hzero : fails 0 key = false) (hone : fails 1 key = false) :
    (turns out fails nir throws key found []).1.isSome = true ↔
      ¬ ∃ i, 2 ≤ i ∧ i < 2 * found.length ∧ fails i key = true := by
  have hreplicate : found = List.replicate found.length key := List.eq_replicate_iff.mpr ⟨rfl, honly⟩
  have hturns := turns_replicate out fails htime hhost hrealm hthrows found.length []
  rw [← hreplicate, List.length_nil, Nat.zero_add] at hturns
  rw [hturns]
  constructor
  · rintro hall ⟨i, -, hlt, hfails⟩
    exact Bool.false_ne_true ((hall i (Nat.zero_le i) hlt).symm.trans hfails)
  · intro hlater i _ hlt
    rcases Nat.lt_or_ge i 2 with hi | hi
    · interval_cases i
      · exact hzero
      · exact hone
    · by_contra hfails
      exact hlater ⟨i, hi, hlt, Bool.not_eq_false _ ▸ hfails⟩

/-- If there is only one row, it is written. -/
theorem OneRow.exactly {time : String} (htime : nir.requested_validity_time = some time)
    {found : List String} {ok : Bool} (hone : OneRow out fails nir mem found ok) (db : Db) :
    let r := turns out fails nir (throwsAt out nir) mem.imsichar found []
    ¬ (r.1.isSome = true ∧ ok = false) ∧ Exactly nir time (resolved out nir) db (applyAll r.2 db) := by
  obtain ⟨host, hhost⟩ := Option.isSome_iff_exists.mp hone.origin.1
  obtain ⟨realm, hrealm⟩ := Option.isSome_iff_exists.mp hone.origin.2
  obtain ⟨hthrows, hzero, hone'⟩ := hone.first
  constructor
  · rintro ⟨hsome, hok⟩
    have hlater := (turns_only out htime hhost hrealm hone.only.2 hthrows hzero hone').mp hsome
    rcases hone.subscribed with hok' | hlater'
    · exact Bool.false_ne_true (hok.symm.trans hok')
    · exact hlater hlater'
  · cases hfound : found with
    | nil => exact absurd hfound hone.only.1
    | cons first rest =>
      have honly : ∀ imsi ∈ first :: rest, imsi = mem.imsichar := hfound ▸ hone.only.2
      obtain rfl : first = mem.imsichar := honly first List.mem_cons_self
      obtain ⟨ws, hws, hallowed⟩ := turns_writes out fails htime (throwsAt out nir)
        mem.imsichar rest
        [validity mem.imsichar time, destination mem.imsichar host realm]
      rw [turns_cons_key htime hhost hrealm hthrows hzero, hone', if_neg Bool.false_ne_true, hws]
      exact .of_key hhost hrealm hone.meant.2 hone.meant.1
        (fun imsi hmem => honly imsi (List.mem_cons_of_mem _ hmem)) hallowed db

/-- If rows are written as demanded, then only one row is. -/
theorem oneRow_of_exactly {time : String} (htime : nir.requested_validity_time = some time)
    {found : List String} {ok : Bool} (h : lookups out nir mem = some (found, ok))
    (hresolved : resolved out nir ≠ []) :
    let r := turns out fails nir (throwsAt out nir) mem.imsichar found []
    ¬ (r.1.isSome = true ∧ ok = false) →
      Exactly nir time (resolved out nir) empty (applyAll r.2 empty) →
      OneRow out fails nir mem found ok := by
  intro r hfailed hex
  obtain ⟨ws, hws, hallowed⟩ := turns_writes out fails htime (throwsAt out nir) mem.imsichar
    found []
  rw [List.nil_append] at hws
  have hidle := (turns_eq_nil_iff out fails htime (throwsAt out nir)
    mem.imsichar found)
  rw [hws] at hidle
  rw [show r.2 = ws from hws] at hex
  obtain ⟨imsi, hmem⟩ := List.exists_mem_of_ne_nil _ hresolved
  have hmeant : ∀ imsi ∈ resolved out nir, imsi = mem.imsichar := fun imsi hmem =>
    (hex.writes hallowed hmem).1
  obtain ⟨-, host, realm, hhost, hrealm, hdestination⟩ := hex.writes hallowed hmem
  have hne : ¬ ∀ imsi, found.head? = some imsi → throwsAt out nir imsi = true ∨ fails 0 imsi = true :=
    fun hquiet => List.ne_nil_of_mem hdestination (hidle.mpr hquiet)
  cases found with
  | nil => exact absurd (fun _ h => absurd h nofun) hne
  | cons first rest =>
    obtain ⟨hthrows, hzero⟩ : throwsAt out nir first = false ∧ fails 0 first = false := by
      by_contra hbegins
      rw [not_and_or, Bool.not_eq_false, Bool.not_eq_false] at hbegins
      exact hne fun _ h => Option.some.inj h ▸ hbegins
    -- the first row is written, and so it is meant
    obtain ⟨ws', hcons⟩ := turns_cons out htime hthrows hzero mem.imsichar rest
    have hfirst : first = mem.imsichar := by
      refine hmeant first (by_contra fun hnot => ?_)
      have hwritten : validity first time ∈ ws := hws ▸ hcons ▸ List.mem_cons_self
      have hrow := isSome_applyAll hwritten empty
      have hothers := hex.others (name "users_imsi") (imsiKey first) fun h => by
        obtain ⟨imsi', hmem', hkey⟩ := h.2
        exact hnot (imsiKey_inj.mp hkey ▸ hmem')
      rw [show imsiKey (validity first time).imsi = imsiKey first from rfl, hothers] at hrow
      exact Bool.false_ne_true hrow
    have honly : ∀ imsi ∈ first :: rest, imsi = mem.imsichar := by
      rcases lookups_cases h with hfound | htail
      · exact hfound ▸ hmeant
      · rw [List.tail_cons] at htail
        rw [htail]
        exact fun imsi hmem => (List.mem_singleton.mp hmem).trans hfirst
    have hone : fails 1 mem.imsichar = false := by
      by_contra hfails
      rw [Bool.not_eq_false] at hfails
      rw [hfirst, turns_cons_key htime hhost hrealm (hfirst ▸ hthrows) (hfirst ▸ hzero), hfails,
        if_pos rfl] at hws
      rw [← hws, List.mem_singleton] at hdestination
      simp [destination, validity] at hdestination
    refine ⟨⟨hresolved, hmeant⟩, ⟨List.cons_ne_nil _ _, honly⟩, ?_, ⟨hfirst ▸ hthrows, hfirst ▸ hzero, hone⟩, ?_⟩
    · exact ⟨Option.isSome_of_eq_some hhost, Option.isSome_of_eq_some hrealm⟩
    · rw [or_iff_not_imp_left, Bool.not_eq_true]
      intro hok
      by_contra hlater
      have hsome := (turns_only out htime hhost hrealm honly (hfirst ▸ hthrows)
        (hfirst ▸ hzero) hone).mpr hlater
      exact hfailed ⟨hsome, hok⟩

/-- The turns do what is demanded. -/
theorem turns_iff {time : String} (htime : nir.requested_validity_time = some time)
    {found : List String} {ok : Bool} (h : lookups out nir mem = some (found, ok)) :
    (∀ db : Db,
      let r := turns out fails nir (throwsAt out nir) mem.imsichar found []
      (¬ (r.1.isSome = true ∧ ok = false) →
        Exactly nir time (resolved out nir) db (applyAll r.2 db)) ∧
      (r.1.isSome = true ∧ ok = false → applyAll r.2 db = db)) ↔
      Unknown found ok ∨ (resolved out nir = [] ∧ Idle out fails nir found) ∨
        OneRow out fails nir mem found ok := by
  have hidle := turns_eq_nil_iff out fails htime (throwsAt out nir)
    mem.imsichar found
  constructor
  · intro hall
    obtain ⟨hexactly, hunchanged⟩ := hall empty
    by_cases hfailed :
        (turns out fails nir (throwsAt out nir) mem.imsichar found []).1.isSome = true ∧ ok = false
    · -- an error: nothing is written although all turns are over, and so there is none
      have hquiet := hidle.mp (eq_nil_of_applyAll (hunchanged hfailed))
      have hfound : found = [] := by
        cases found with
        | nil => rfl
        | cons imsi imsis =>
          rw [turns_idle htime (hquiet imsi rfl)] at hfailed
          exact absurd hfailed.1 Bool.false_ne_true
      exact .inl ⟨hfound, hfailed.2⟩
    · by_cases hresolved : resolved out nir = []
      · have hex := hexactly hfailed
        rw [hresolved] at hex
        exact .inr (.inl ⟨hresolved, hidle.mp (eq_nil_of_applyAll (exactly_nil.mp hex))⟩)
      · exact .inr (.inr (oneRow_of_exactly htime h hresolved hfailed (hexactly hfailed)))
  · rintro (⟨rfl, hok⟩ | ⟨hresolved, hquiet⟩ | hone) db
    · exact ⟨fun hnot => absurd ⟨rfl, hok⟩ hnot, fun _ => rfl⟩
    · dsimp only
      rw [hidle.mpr hquiet, hresolved]
      exact ⟨fun _ => exactly_nil.mpr rfl, fun _ => rfl⟩
    · obtain ⟨hfailed, hex⟩ := hone.exactly htime db
      exact ⟨fun _ => hex, fun h => absurd h hfailed⟩

/-- The rows that are written are those that are demanded: the row whose IMSI is in `imsichar` is the
only one, the origin is given, nothing fails before it is stored and the APN is subscribed. -/
theorem demanded_iff (out : Outcomes) (fails : Nat → String → Bool) (nir : Request) (mem : Memory) :
    (∀ db : Db, Demanded out nir db
      ((written out fails nir mem).1, applyAll (written out fails nir mem).2 db)) ↔
      (nir.requested_validity_time.isSome = true → Right out fails nir mem) := by
  have hwritten := writes_lookups out fails nir mem
  unfold Right
  cases htime : nir.requested_validity_time with
  | none =>
    refine iff_of_true (fun db => ?_) fun h => absurd h Bool.false_ne_true
    unfold Demanded
    have hws : (written out fails nir mem).2 = [] := by
      cases hlookups : lookups out nir mem with
      | none =>
        rw [hlookups] at hwritten
        exact congrArg Prod.snd hwritten
      | some r =>
        rw [hlookups] at hwritten
        exact hwritten.1.trans (turns_none htime _ _ _ _)
    dsimp only
    rw [hws]
    exact ⟨fun _ time h => absurd (htime.symm.trans h) nofun, fun _ => rfl⟩
  | some time =>
    rw [Option.isSome_some, forall_prop_of_true rfl]
    have hiff : (∀ db : Db, Demanded out nir db
        ((written out fails nir mem).1, applyAll (written out fails nir mem).2 db)) ↔ ∀ db : Db,
        (¬ (∃ ans, (written out fails nir mem).1 = some ans ∧ Failed ans) →
          Exactly nir time (resolved out nir) db (applyAll (written out fails nir mem).2 db)) ∧
        ((∃ ans, (written out fails nir mem).1 = some ans ∧ Failed ans) →
          applyAll (written out fails nir mem).2 db = db) := by
      refine forall_congr' fun db => and_congr_left' (forall_congr' fun _ => ?_)
      exact ⟨fun h => h time htime, fun h time' h' => Option.some.inj (htime.symm.trans h') ▸ h⟩
    rw [hiff]
    cases hlookups : lookups out nir mem with
    | none =>
      rw [hlookups] at hwritten
      rw [hwritten]
      constructor
      · intro h
        have hex := (h empty).1 fun ⟨_, h, _⟩ => absurd h nofun
        by_contra hne
        obtain ⟨imsi, hmem⟩ := List.exists_mem_of_ne_nil _ hne
        obtain ⟨host, realm, -, -, hrow⟩ := hex.written imsi hmem
        exact absurd (hrow.trans ((columns imsi time host realm).apply_self empty)) nofun
      · intro h db
        rw [h]
        exact ⟨fun _ => exactly_nil.mpr rfl, fun _ => rfl⟩
    | some r =>
      obtain ⟨found, ok⟩ := r
      rw [hlookups] at hwritten
      refine Iff.trans (forall_congr' fun db => ?_) (turns_iff htime hlookups)
      rw [hwritten.2, hwritten.1]

end

/-! ### The tables -/

section

variable (out : Outcomes) (fails : Nat → Bool) (nir : Request) (mem : Memory)

/-- An update of the tables, which have been updated so many times. -/
def update (text : String) (s : Db × Nat) : Option Unit × (Db × Nat) :=
  if fails s.2 then (none, s)
  else match dbExecute s.1 text with
    | none => (none, s)
    | some r => (some (), (r.1, s.2 + 1))

/-- A call: the lookups are answered by `out`, and the database fails at the updates with these
numbers, and at those that it rejects. -/
def dbCall : (q : Query) → Db × Nat → Option q.Rep × (Db × Nat)
  | .updateValidityTime imsi time, s => update fails (UpdateValidityTimeText imsi time) s
  | .updateNIRDestination imsi host realm, s =>
    update fails (UpdateNIRDestinationText imsi host realm) s
  | q, s => (out.reply q, s)

/-- The answer, unless something throws, and the tables after it. -/
def processed (db : Db) : Option (List NiaAvp) × Db :=
  let r := (niirProcessCalls nir mem).play (dbCall out fails) (db, 0)
  (r.1, r.2.1)

/-- An NIR writes what it should, whatever the tables hold. -/
def Updated : Prop := ∀ db, Demanded out nir db (processed out fails nir mem db)

/-- The texts of the updates have no quotes and no NULs: those of the request, and the IMSIs, which
are from the tables or from memory. -/
structure PlainTexts : Prop where
  time : ∀ s ∈ nir.requested_validity_time, Plain s
  host : ∀ s ∈ nir.origin_host, Plain s
  realm : ∀ s ∈ nir.origin_realm, Plain s
  found : ∀ imsi, Finds (fun q r => out.reply q = some r) nir mem imsi → Plain imsi
  imsichar : Plain mem.imsichar

/-- The update with this number under this IMSI fails: the empty IMSI is no key. -/
def refused (n : Nat) (imsi : String) : Bool := fails n || imsi == ""

end

section

variable {out : Outcomes} {fails : Nat → Bool} {nir : Request} {mem : Memory}

/-- The texts of a call have no quotes and no NULs. -/
def PlainCall : Query → Prop
  | .updateValidityTime imsi time => Plain imsi ∧ Plain time
  | .updateNIRDestination imsi host realm => Plain imsi ∧ Plain host ∧ Plain realm
  | _ => True

/-- The empty text is nobody's IMSI. -/
theorem dbExecute_empty {text : String} {sets : List (Name × Value)} (h : Updates text sets "")
    (db : Db) : dbExecute db text = none := by
  cases hr : dbExecute db text with
  | none => rfl
  | some r =>
    obtain ⟨key, hkey, -⟩ := h.subscribers_eq hr
    exact absurd (imsiKey?_empty.symm.trans hkey) nofun

/-- An update is a write, or refused. -/
theorem update_eq {text imsi : String} {sets : List (Name × Value)} (h : Updates text sets imsi)
    (himsi : Plain imsi)
    (hsets : (usersImsi.admits sets && sets.all fun e => !usersImsi.keys.contains e.1) = true)
    (db : Db) (n : Nat) :
    update fails text (db, n) = if refused fails n imsi then (none, (db, n))
      else (some (), ((⟨imsi, sets⟩ : Write).apply db, n + 1)) := by
  unfold update refused
  cases hfails : fails n with
  | true => rfl
  | false =>
    rw [if_neg Bool.false_ne_true, Bool.false_or]
    by_cases hempty : imsi = ""
    · subst hempty
      rw [dbExecute_empty h]
      rfl
    · rw [h.run himsi hempty hsets, beq_false_of_ne hempty]
      rfl

theorem applyAll_concat (ws : List Write) (w : Write) (db : Db) :
    applyAll (ws ++ [w]) db = w.apply (applyAll ws db) := List.foldl_concat ..

/-- An update of the tables is a write. -/
theorem write_update {text imsi : String} {sets : List (Name × Value)} (h : Updates text sets imsi)
    (himsi : Plain imsi)
    (hsets : (usersImsi.admits sets && sets.all fun e => !usersImsi.keys.contains e.1) = true)
    (ws : List Write) (db : Db) :
    let r : Option Unit × List Write :=
      if refused fails ws.length imsi then (none, ws) else (some (), ws ++ [⟨imsi, sets⟩])
    r.1 = (update fails text (applyAll ws db, ws.length)).1 ∧
      (update fails text (applyAll ws db, ws.length)).2 = (applyAll r.2 db, r.2.length) := by
  dsimp only
  rw [update_eq h himsi hsets]
  cases refused fails ws.length imsi with
  | true => exact ⟨rfl, rfl⟩
  | false =>
    refine ⟨rfl, ?_⟩
    rw [if_neg Bool.false_ne_true, if_neg Bool.false_ne_true, applyAll_concat, List.length_append]
    rfl

/-- A call on the tables is one on the writes. -/
theorem execute_dbCall {db : Db} (q : Query) (ws : List Write) (s : Db × Nat) (hq : PlainCall q)
    (hs : s = (applyAll ws db, ws.length)) :
    (execute out (refused fails) q ws).1 = (dbCall out fails q s).1 ∧
      (dbCall out fails q s).2 = (applyAll (execute out (refused fails) q ws).2 db,
        (execute out (refused fails) q ws).2.length) := by
  subst hs
  cases q with
  | updateValidityTime imsi time =>
    exact write_update (updates_UpdateValidityTime hq.2 imsi) hq.1 rfl ws db
  | updateNIRDestination imsi host realm =>
    exact write_update (updates_UpdateNIRDestination hq.2.1 hq.2.2 imsi) hq.1 rfl ws db
  | _ => exact ⟨rfl, rfl⟩

/-- A lookup is answered by `out`. -/
theorem execute_reply {fails : Nat → String → Bool} {q : Query} {ws : List Write} {r : q.Rep}
    (h : (execute out fails q ws).1 = some r) (hq : q.Reads) : out.reply q = some r := by
  rw [execute_reads q ws hq] at h
  exact h

/-- **The tables after an NIR** with plain texts are those with its writes. -/
theorem processed_eq (hplain : PlainTexts out nir mem) (db : Db) :
    processed out fails nir mem db = ((written out (refused fails) nir mem).1,
      applyAll (written out (refused fails) nir mem).2 db) := by
  let reads : (q : Query) → q.Rep → Prop := fun q r => q.Reads → out.reply q = some r
  have hfinds : ∀ imsi, Finds reads nir mem imsi → Plain imsi := by
    intro imsi h
    refine hplain.found imsi ?_
    unfold Finds at h ⊢
    cases hmsisdn : nir.msisdnBytes with
    | some bytes =>
      rw [hmsisdn] at h
      exact h trivial
    | none =>
      rw [hmsisdn] at h
      cases hext : nir.external_identifier with
      | some extid =>
        rw [hext] at h
        obtain ⟨imsis, himsis, hmem⟩ := h
        exact ⟨imsis, himsis trivial, hmem⟩
      | none =>
        rw [hext] at h
        exact h
  have hmeets : Meets PlainCall reads (niirUserCalls nir mem) fun _ => True := by
    refine meets_niirUser (fun q hq => ?_) fun imsi himsi => meets_storeValidity fun time htime =>
      ⟨⟨hfinds imsi himsi, hplain.time time htime⟩, fun host realm hhost hrealm =>
        ⟨hplain.imsichar, hplain.host host hhost, hplain.realm realm hrealm⟩⟩
    cases q with
    | updateValidityTime imsi time => exact absurd hq id
    | updateNIRDestination imsi host realm => exact absurd hq id
    | _ => trivial
  have hcalls : Meets PlainCall reads (niirProcessCalls nir mem) fun _ => True :=
    meets_bind hmeets fun _ _ => meets_ret trivial
  have hstep : ∀ q ws (s : Db × Nat), PlainCall q → s = (applyAll ws db, ws.length) →
      (execute out (refused fails) q ws).1 = (dbCall out fails q s).1 ∧
        (dbCall out fails q s).2 = (applyAll (execute out (refused fails) q ws).2 db,
          (execute out (refused fails) q ws).2.length) ∧
        ∀ r, (execute out (refused fails) q ws).1 = some r → reads q r := by
    intro q ws s hq hs
    obtain ⟨hresult, hnext⟩ := execute_dbCall q ws s hq hs
    exact ⟨hresult, hnext, fun r hr hreads => execute_reply hr hreads⟩
  have hstart : ((db, 0) : Db × Nat) = (applyAll [] db, ([] : List Write).length) := rfl
  obtain ⟨hresult, htables⟩ := Prog.play_sim hstep hcalls hstart
  rw [processed, written, ← hresult, htables]

end

/-- A database in which everybody has the same IMSI. -/
def oneImsi : Outcomes where
  getSubDataFromImsi _ := some none
  getMsisdnFromImsi _ := some none
  getExtIdsFromImsi _ := some none
  getImsiFromMsisdn _ := some (some "208930000000001")
  getImsiListFromExtId _ := some ["208930000000001"]
  updateValidityTime _ _ := some ()
  updateNIRDestination _ _ _ := some ()
  apnValue _ := some none

def byTwelve (service_selection : Option String) : Request where
  user_name := none
  msisdn := some [0x12]
  external_identifier := none
  service_selection := service_selection
  requested_validity_time := some "3600"
  origin_host := some "scef.example.org"
  origin_realm := some "example.org"

/-- `imsichar` happens to hold the IMSI. -/
def happyMemory : Memory := ⟨"208930000000001", "", fun _ => 0⟩

theorem plainTexts_byTwelve (service_selection : Option String) :
    PlainTexts oneImsi (byTwelve service_selection) happyMemory := by
  refine ⟨?_, ?_, ?_, fun imsi h => ?_, by decide⟩
  · rintro s hs
    obtain rfl := Option.mem_some.mp hs
    decide
  · rintro s hs
    obtain rfl := Option.mem_some.mp hs
    decide
  · rintro s hs
    obtain rfl := Option.mem_some.mp hs
    decide
  · obtain rfl : "208930000000001" = imsi := Option.some.inj (Option.some.inj h)
    decide

end OpenairHss.Nir
