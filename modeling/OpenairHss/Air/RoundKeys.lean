import OpenairHss.Air.Vectors
import OpenairHss.Hsssec.Rijndael
import OpenairHss.Lib.Steps

/-!
# One table of round keys for all workers

Any number of workers call `f1`, `f1star`, `f2345` and `f5star`.  Each `RijndaelKeySchedule` and
each `RijndaelEncrypt` is one step on the table of round keys, which the workers share; between
the calls a worker may compute what it likes from the results (`Calls`), as `phase2` of an AIR does
(`phase2_calls`).

Nothing keeps a second worker from filling the table while the first is inside a function
(`results_disturbed`).  As long as every `RijndaelEncrypt` finds the table as a
`RijndaelKeySchedule` with the key of its own function has left it, every result is the one the
worker gets alone (`results_undisturbed`).
-/

namespace OpenairHss.Air

open ByteVec Interact Hsssec Steps

/-! ### Calls -/

/-- A call of one of the functions of `fx.c`. -/
inductive FxCall
  | f1 (opc k rand : Bytes 16) (sqn : Bytes 6) (amf : Bytes 2)
  | f1star (opc k rand : Bytes 16) (sqn : Bytes 6) (amf : Bytes 2)
  | f2345 (opc k rand : Bytes 16)
  | f5star (opc k rand : Bytes 16)

namespace FxCall

def Res : FxCall → Type
  | .f1 _ _ _ _ _ | .f1star _ _ _ _ _ => Bytes 8
  | .f2345 _ _ _ => F2345
  | .f5star _ _ _ => Bytes 6

/-- The key that the call schedules. -/
def key : FxCall → Bytes 16
  | .f1 _ k _ _ _ | .f1star _ k _ _ _ | .f2345 _ k _ | .f5star _ k _ => k

def code : (c : FxCall) → Cipher c.Res
  | .f1 opc k rand sqn amf => Hsssec.f1 opc k rand sqn amf
  | .f1star opc k rand sqn amf => Hsssec.f1star opc k rand sqn amf
  | .f2345 opc k rand => Hsssec.f2345 opc k rand
  | .f5star opc k rand => Hsssec.f5star opc k rand

/-- The result when nobody else touches the table. -/
def alone (c : FxCall) : c.Res := rijndael.alone c.code (fun _ _ _ => 0)

end FxCall

/-- Code of a worker that touches the table only through the functions of `fx.c`. -/
abbrev Calls : Type → Type := Prog FxCall FxCall.Res

/-- The code with every call replaced by the body of the function. -/
def inlined {α : Type} : Calls α → Cipher α
  | .ret a => .ret a
  | .op c k => c.code.bind fun r => inlined (k r)

/-! ### Workers -/

inductive Place
  | between (rest : Calls Unit)
  /-- Inside the call `c`, with `code` of its body still to run. -/
  | inside (c : FxCall) (code : Cipher c.Res) (rest : c.Res → Calls Unit)

/-- If the next step is an encryption, the latest `RijndaelKeySchedule` was for the key of the
function. -/
def Place.OwnKey (last : Option (Bytes 16)) : Place → Prop
  | .inside c (.op (.encrypt _) _) _ => last = some c.key
  | _ => True

instance (last : Option (Bytes 16)) : (p : Place) → Decidable (p.OwnKey last)
  | .inside c (.op (.encrypt _) _) _ => inferInstanceAs (Decidable (last = some c.key))
  | .inside _ (.op (.keySchedule _) _) _ => isTrue trivial
  | .inside _ (.ret _) _ => isTrue trivial
  | .between _ => isTrue trivial

structure Returned (W : Type) where
  worker : W
  call : FxCall
  result : call.Res

structure Workers (W : Type) where
  roundKeys : Rijndael.RoundKeys
  /-- The key of the latest `RijndaelKeySchedule`. -/
  scheduled : Option (Bytes 16)
  place : W → Place
  returned : List (Returned W)

namespace Workers

variable {W : Type} [DecidableEq W]

/-- No worker has begun. -/
def init (roundKeys : Rijndael.RoundKeys) (code : W → Calls Unit) : Workers W :=
  ⟨roundKeys, none, fun w => .between (code w), []⟩

/-- The key of the latest `RijndaelKeySchedule` after one more operation. -/
def lastKey (last : Option (Bytes 16)) : CipherOp → Option (Bytes 16)
  | .keySchedule key => some key
  | .encrypt _ => last

/-- The next step of worker `w`: it enters a call, makes one operation on the table, or leaves
the call. -/
def exec (s : Workers W) (w : W) : Option (Workers W) :=
  match s.place w with
  | .between (.ret _) => none
  | .between (.op c rest) =>
    some { s with place := Function.update s.place w (.inside c c.code rest) }
  | .inside c (.op o code) rest =>
    let r := rijndael.exec o s.roundKeys
    some { s with
      roundKeys := r.2
      scheduled := lastKey s.scheduled o
      place := Function.update s.place w (.inside c (code r.1) rest) }
  | .inside c (.ret r) rest =>
    some { s with
      place := Function.update s.place w (.between (rest r))
      returned := s.returned ++ [⟨w, c, r⟩] }

/-- The next step of `w`, if it is an encryption, finds the table filled for the key of the
function that `w` is in. -/
def OwnKey (s : Workers W) (w : W) : Prop := (s.place w).OwnKey s.scheduled

instance (s : Workers W) (w : W) : Decidable (s.OwnKey w) :=
  inferInstanceAs (Decidable ((s.place w).OwnKey s.scheduled))

/-- Every call has returned what it returns alone. -/
def Undisturbed (s : Workers W) : Prop :=
  ∀ e ∈ s.returned, ∀ t, e.result = rijndael.alone e.call.code t

end Workers

/-! ### A worker that is not disturbed -/

/-- Code that does not fill the table. -/
def OnlyEncrypts {α : Type} : Cipher α → Prop
  | .ret _ => True
  | .op (.keySchedule _) _ => False
  | .op (.encrypt _) k => ∀ r, OnlyEncrypts (k r)

/-- Every function of `fx.c` fills the table first, with its own key, and then only reads it. -/
theorem FxCall.code_eq (c : FxCall) :
    ∃ body, c.code = .op (.keySchedule c.key) body ∧ ∀ u, OnlyEncrypts (body u) := by
  cases c with
  | f1 => exact ⟨_, rfl, fun _ _ _ => trivial⟩
  | f1star => exact ⟨_, rfl, fun _ _ _ => trivial⟩
  | f2345 => exact ⟨_, rfl, fun _ _ _ _ _ => trivial⟩
  | f5star => exact ⟨_, rfl, fun _ _ _ => trivial⟩

/-- The result alone does not depend on the table. -/
theorem FxCall.alone_eq (c : FxCall) (t : Rijndael.RoundKeys) :
    rijndael.alone c.code t = c.alone := by
  obtain ⟨body, hbody, -⟩ := c.code_eq
  rw [FxCall.alone, hbody]
  rfl

/-- What is known about a worker: inside a call it has either not begun, or it has filled the
table and would, with the table as it left it, return what it returns alone. -/
def Place.Sound : Place → Prop
  | .between _ => True
  | .inside c code _ => code = c.code ∨
      (OnlyEncrypts code ∧ (code.run rijndael.exec (rijndael.schedule c.key)).1 = c.alone)

namespace Workers

variable {W : Type} [DecidableEq W]

/-- The invariant of a run in which every encryption finds its own key. -/
structure Sound (s : Workers W) : Prop where
  table : ∀ key, s.scheduled = some key → s.roundKeys = rijndael.schedule key
  place : ∀ w, (s.place w).Sound
  returned : ∀ e ∈ s.returned, e.result = e.call.alone

omit [DecidableEq W] in
theorem Sound.init (t : Rijndael.RoundKeys) (code : W → Calls Unit) : (init t code).Sound where
  table _ h := nomatch h
  place _ := trivial
  returned _ h := nomatch h

/-- The places of the workers after one of them has moved. -/
theorem Sound.place_update {s : Workers W} (h : s.Sound) {w : W} {p : Place} (hp : p.Sound) :
    ∀ w', (Function.update s.place w p w').Sound := by
  intro w'
  by_cases e : w' = w
  · subst e
    rw [Function.update_self]
    exact hp
  · rw [Function.update_of_ne e]
    exact h.place w'

/-- One operation on the table keeps the invariant. -/
theorem Sound.op {s : Workers W} (h : s.Sound) {w : W} {c : FxCall} {o : CipherOp}
    {code : CipherRes o → Cipher c.Res} {rest : c.Res → Calls Unit}
    (hw : s.place w = .inside c (.op o code) rest) (hown : s.OwnKey w) :
    Sound { s with
      roundKeys := (rijndael.exec o s.roundKeys).2
      scheduled := lastKey s.scheduled o
      place := Function.update s.place w
        (.inside c (code (rijndael.exec o s.roundKeys).1) rest) } := by
  have hplace := h.place w
  rw [hw] at hplace
  cases o with
  | keySchedule key =>
    have hcode : Prog.op (.keySchedule key) code = c.code := by
      rcases hplace with e | ⟨he, -⟩
      · exact e
      · exact he.elim
    obtain ⟨body, hbody, honly⟩ := c.code_eq
    obtain ⟨rfl, rfl⟩ : key = c.key ∧ code = body := by
      rw [hbody] at hcode
      injection hcode with h1 h2
      injection h1 with h1
      subst h1
      exact ⟨rfl, h2⟩
    refine ⟨?_, h.place_update (.inr ⟨honly _, ?_⟩), h.returned⟩
    · rintro _ ⟨⟩
      rfl
    · rw [FxCall.alone, ← hcode]
      rfl
  | encrypt input =>
    have hlast : s.scheduled = some c.key := by
      rw [OwnKey, hw] at hown
      exact hown
    obtain ⟨honly, hrun⟩ : OnlyEncrypts (Prog.op (.encrypt input) code) ∧
        ((Prog.op (.encrypt input) code).run rijndael.exec (rijndael.schedule c.key)).1
          = c.alone := by
      rcases hplace with e | hr
      · obtain ⟨body, hbody, -⟩ := c.code_eq
        rw [hbody] at e
        cases e
      · exact hr
    refine ⟨h.table, h.place_update (.inr ⟨honly _, ?_⟩), h.returned⟩
    rw [h.table _ hlast]
    exact hrun

/-- Every step that meets `OwnKey` keeps the invariant. -/
theorem Sound.step {s t : Workers W} {w : W} (h : s.Sound) (hown : s.OwnKey w)
    (he : s.exec w = some t) : t.Sound := by
  unfold exec at he
  split at he
  case h_1 => exact absurd he (by simp)
  case h_2 c rest hw =>
    obtain rfl := Option.some.inj he
    exact ⟨h.table, h.place_update (.inl rfl), h.returned⟩
  case h_3 c o code rest hw =>
    obtain rfl := Option.some.inj he
    exact h.op hw hown
  case h_4 c r rest hw =>
    obtain rfl := Option.some.inj he
    refine ⟨h.table, h.place_update trivial, ?_⟩
    intro e hmem
    rcases List.mem_append.mp hmem with hmem | hmem
    · exact h.returned e hmem
    · obtain rfl := List.mem_singleton.mp hmem
      have hplace := h.place w
      rw [hw] at hplace
      rcases hplace with hc | ⟨-, hr⟩
      · obtain ⟨body, hbody, -⟩ := c.code_eq
        rw [hbody] at hc
        cases hc
      · exact hr

end Workers

/-- **Workers that are not disturbed get the results they get alone**: in every run, of any
number of workers with any code, in which each `RijndaelEncrypt` comes after a
`RijndaelKeySchedule` with the key of its own function and no other one since. -/
theorem results_undisturbed {W : Type} [DecidableEq W] (t : Rijndael.RoundKeys)
    (code : W → Calls Unit) (s : Workers W)
    (h : Reaches (fun s w s' => s.exec w = some s') Workers.OwnKey (Workers.init t code) s) :
    s.Undisturbed := by
  have hs : s.Sound := h.invariant (.init t code) fun s w s' hi hown he => hi.step hown he
  intro e he t
  rw [e.call.alone_eq]
  exact hs.returned e he

/-! ### Two workers -/

def FxCall.firstByte : (c : FxCall) → c.Res → BitVec 8
  | .f1 _ _ _ _ _, r | .f1star _ _ _ _ _, r => r ⟨0, Nat.succ_pos 7⟩
  | .f2345 _ _ _, r => r.res ⟨0, Nat.succ_pos 7⟩
  | .f5star _ _ _, r => r ⟨0, Nat.succ_pos 5⟩

/-- Two workers, each with one call of `f5star`, for two keys. -/
def twoCalls (w : Bool) : Calls Unit :=
  .op (.f5star (fun _ => 0) (fun _ => if w then 1 else 0) (fun _ => 0)) fun _ => .ret ()

/-- One worker after the other. -/
def oneByOne : List Bool := [false, false, false, false, false, true, true, true, true, true]

theorem results_undisturbed_oneByOne : ∃ s : Workers Bool,
    Reaches (fun s w s' => s.exec w = some s') Workers.OwnKey
      (Workers.init (fun _ _ _ => 0) twoCalls) s ∧
    s.returned.length = 2 ∧ s.Undisturbed := by
  have h : ((runList Workers.exec Workers.OwnKey oneByOne
      (Workers.init (fun _ _ _ => 0) twoCalls)).map fun s => s.returned.length) = some 2 := by
    decide +kernel
  obtain ⟨s, hs, hlen⟩ := Option.map_eq_some_iff.mp h
  have hr := Reaches.of_runList Workers.exec Workers.OwnKey oneByOne hs
  exact ⟨s, hr, hlen, results_undisturbed _ _ s hr⟩

/-- The second worker fills the table right after the first. -/
def overtaken : List Bool := [false, false, true, true, false, false, false]

/-- **Two workers with two keys disturb each other**: the first encrypts with the round keys of
the second. -/
theorem results_disturbed : ¬ ∀ (t : Rijndael.RoundKeys) (code : Bool → Calls Unit)
    (s : Workers Bool),
    Reaches (fun s w s' => s.exec w = some s') (fun _ _ => True) (Workers.init t code) s →
    s.Undisturbed := by
  intro hall
  have h : ((runAll Workers.exec overtaken (Workers.init (fun _ _ _ => 0) twoCalls)).map fun s =>
      s.returned.all fun e => e.call.firstByte e.result == e.call.firstByte e.call.alone)
      = some false := by
    decide +kernel
  obtain ⟨s, hs, hbytes⟩ := Option.map_eq_some_iff.mp h
  have hu := hall _ _ s (Reaches.of_runAll Workers.exec _ (fun _ _ _ => trivial) hs)
  have htrue : (s.returned.all fun e =>
      e.call.firstByte e.result == e.call.firstByte e.call.alone) = true := by
    rw [List.all_eq_true]
    intro e he
    rw [hu e he (fun _ _ _ => 0)]
    exact beq_self_eq_true _
  rw [htrue] at hbytes
  cases hbytes

/-! ### The worker of an AIR -/

/-- The code of an AIR touches the table only through the functions of `fx.c`. -/
def ThroughCalls {α : Type} (p : Cipher α) : Prop := ∃ q : Calls α, inlined q = p

theorem ThroughCalls.ret {α : Type} (a : α) : ThroughCalls (.ret a : Cipher α) := ⟨.ret a, rfl⟩

theorem ThroughCalls.call (c : FxCall) : ThroughCalls c.code :=
  ⟨.op c .ret, Prog.bind_ret _⟩

theorem inlined_bind {α β : Type} (p : Calls α) (f : α → Calls β) :
    inlined (p.bind f) = (inlined p).bind fun a => inlined (f a) := by
  induction p with
  | ret a => rfl
  | op c k ih =>
    simp only [Prog.op_bind, inlined, ih]
    exact (Prog.bind_assoc _ _ _).symm

theorem ThroughCalls.bind {α β : Type} {p : Cipher α} {f : α → Cipher β} (hp : ThroughCalls p)
    (hf : ∀ a, ThroughCalls (f a)) : ThroughCalls (p.bind f) := by
  obtain ⟨q, rfl⟩ := hp
  choose g hg using hf
  refine ⟨q.bind g, ?_⟩
  rw [inlined_bind]
  simp only [hg]

theorem generateVector_calls (kdf : List (BitVec 8) → List (BitVec 8) → Bytes 32)
    (opc key : Bytes 16) (plmn : Bytes 3) (sqn : Bytes 6) (v : AucVector) :
    ThroughCalls (generateVector kdf opc key plmn sqn v) :=
  (ThroughCalls.call (.f1 opc key v.rand sqn vectorAmf)).bind fun _ =>
    (ThroughCalls.call (.f2345 opc key v.rand)).bind fun _ => .ret _

theorem resync_calls (sec : DataAccess.ImsiSec) (auts : Option (Bytes 31)) :
    ThroughCalls (resync sec auts) := by
  cases auts with
  | none => exact .ret _
  | some auts =>
    refine .bind ((ThroughCalls.call (.f5star sec.opc sec.key sec.rand)).bind fun ak =>
      (ThroughCalls.call (.f1star sec.opc sec.key sec.rand _ _)).bind fun mac => ?_) ?_
    · split <;> exact .ret _
    · intro sqn
      cases sqn <;> exact .ret _

/-- **`phase2` is such a worker**: it touches the table only through `f1`, `f2345`, `f1star` and
`f5star`. -/
theorem phase2_calls (kdf : List (BitVec 8) → List (BitVec 8) → Bytes 32)
    (sec : DataAccess.ImsiSec) (auts : Option (Bytes 31)) (plmn : Bytes 3) (n : Nat)
    (rands : Nat → Bytes 16) (m : Nat → AucVector) :
    ThroughCalls (phase2 kdf sec auts plmn n rands m) := by
  have loop : ∀ (sec : DataAccess.ImsiSec) (todo i : Nat) (m : Nat → AucVector),
      ThroughCalls (vectorLoop kdf sec plmn rands todo i m) := by
    intro sec todo
    induction todo with
    | zero => exact fun i m => .ret _
    | succ todo ih => exact fun i m => (generateVector_calls _ _ _ _ _ _).bind fun v => ih _ _
  exact (resync_calls sec auts).bind fun sec => (loop sec n 0 m).bind fun _ => .ret _

end OpenairHss.Air
