import OpenairHss.Lib.Interact
import OpenairHss.Lib.Steps
import Mathlib.Data.BitVec

/-!
# A processor and its threads

`ULRProcessor` and `AIRProcessor` are the same machine: phase bodies, run by a worker that holds
`m_mutex`, and database callbacks that run on threads of the driver.  `Kind` is the vocabulary of
one of them, `Code` is its text, and `exec` is one step of a processor with everything that refers
to it: the callbacks that are registered (`pending`) or running (`callbacks`), the messages in the
work queue, and the worker inside the loop of `processNextPhase`.

* `SMutex::enter` locks a recursive mutex and always waits, so `acquire (false)` never fails: a
  callback waits for the worker to leave the loop, and then its last lines are one step (`signal`).
* `setCallback` may find the future already resolved and then runs the callback inside the
  call; that is the reply `immediate`.
* The counters are `uint32_t`; they are integers here, and the tests reduce them.
* An exception that leaves a callback or a phase body ends the process (`aborted`), and after
  `delete` nothing of the processor may run any more (`deleted`); both end the run.
* Sending an answer is taken to succeed.
-/

namespace OpenairHss.Processor

open Interact Steps

structure Kind where
  Act : Type
  Fut : Act → Type
  Qry : Type
  Rep : Qry → Type
  /-- The members of the processor other than the counters and masks. -/
  Data : Type
  Ans : Type

variable {K : Kind}

inductive Reg (F : Type)
  | failed
  | registered
  | immediate (fut : F)

/-- The atomic operations of phase bodies and callbacks. -/
inductive Op (K : Kind)
  | incDb
  | decDb
  | result (item : BitVec 32) (success : Bool)
  | executed (item : BitVec 32)
  | getResult
  | getExecuted
  | setPhase (phase : Nat)
  | answer (ans : K.Ans)
  | get
  | modify (f : K.Data → K.Data)
  | register (act : K.Act)
  | ask (q : K.Qry)
  /-- `SMutexLock l (m_lstmutex)`, and its end. -/
  | lockLst
  | unlockLst
  /-- The end of the callback: `m_mutex`, `triggerNextPhase`, `m_dbissued`. -/
  | signal
  /-- The part of `getEvents (future)` under `m_mutex`. -/
  | events (item : BitVec 32) (success : Bool) (f : K.Data → K.Data)
  | throw

def Op.Res : Op K → Type
  | .getResult | .getExecuted => BitVec 32
  | .get => K.Data
  | .register act => Reg (K.Fut act)
  | .ask q => K.Rep q
  | .throw => Empty
  | _ => Unit

abbrev Proc (K : Kind) : Type → Type := Prog (Op K) Op.Res

/-! ### Code -/

def call (o : Op K) : Proc K o.Res := Prog.perform o

def incDbissued : Proc K Unit := call .incDb
def decDbissued : Proc K Unit := call .decDb
def readResult : Proc K (BitVec 32) := call .getResult
def readExecuted : Proc K (BitVec 32) := call .getExecuted
def setNextphase (phase : Nat) : Proc K Unit := call (.setPhase phase)
def sendAnswer (ans : K.Ans) : Proc K Unit := call (.answer ans)
def readData : Proc K K.Data := call .get
def updateData (f : K.Data → K.Data) : Proc K Unit := call (.modify f)
def register (act : K.Act) : Proc K (Reg (K.Fut act)) := call (.register act)
def query (q : K.Qry) : Proc K (K.Rep q) := call (.ask q)
def enterLst : Proc K Unit := call .lockLst
def leaveLst : Proc K Unit := call .unlockLst
def signal : Proc K Unit := call .signal
def completeEvents (item : BitVec 32) (success : Bool) (f : K.Data → K.Data) : Proc K Unit :=
  call (.events item success f)
def throwException : Proc K Unit := .op .throw nofun

def completeResult (item : BitVec 32) (success : Bool) : Proc K Unit :=
  call (.result item success)
def completeExecuted (item : BitVec 32) : Proc K Unit := call (.executed item)

def dbOpComplete (item : BitVec 32) (success : Bool) : Proc K Unit := do
  completeResult item success
  completeExecuted item

/-- A database call with the callback of the processor, which runs `handler` and then signals. -/
def issue (act : K.Act) (handler : K.Fut act → Proc K Unit) : Proc K Bool := do
  match ← register act with
  | .failed => return false
  | .registered => return true
  | .immediate fut =>
    handler fut
    signal
    return true

def failAll : List (BitVec 32) → Proc K Unit
  | [] => return ()
  | item :: rest => do
    dbOpComplete item false
    failAll rest

/-- A call between `atomic_inc_fetch (m_dbissued)` and, if it fails, the completion of `items` and
`atomic_dec_fetch (m_dbissued)`. -/
def issueCounted (act : K.Act) (handler : K.Fut act → Proc K Unit) (items : List (BitVec 32)) :
    Proc K Bool := do
  incDbissued
  let success ← issue act handler
  if success then return true
  else
    failAll items
    decDbissued
    return false

inductive Status
  | running
  | deleted
  | aborted
  deriving DecidableEq

structure Core (K : Kind) where
  m_nextphase : Nat
  m_msgissued : Int
  m_dbissued : Int
  m_dbevtissued : Int
  m_dbexecuted : BitVec 32
  m_dbresult : BitVec 32
  data : K.Data
  lst : Bool
  answers : List K.Ans
  /-- The phase bodies that were begun. -/
  ran : List Nat
  /-- The callbacks that are registered and not running yet. -/
  pending : List K.Act
  /-- The calls that were answered, with what their futures resolved to. -/
  resolved : List ((act : K.Act) × K.Fut act)
  messages : Nat
  status : Status

/-- The mask update of `DB_OP_COMPLETE_RESULT`.  The macro writes `!__item`, which is 0. -/
def resultMask (item : BitVec 32) (success : Bool) (result : BitVec 32) : BitVec 32 :=
  if success then result ||| item else result &&& (if item = 0 then 1 else 0)

/-- `triggerNextPhase` and the decrement after it. -/
def Core.signal (c : Core K) : Core K :=
  { c with
    m_msgissued := c.m_msgissued + 1
    messages := c.messages + 1
    m_dbissued := c.m_dbissued - 1 }

def Core.effect (c : Core K) : (o : Op K) → o.Res → Core K
  | .incDb, _ => { c with m_dbissued := c.m_dbissued + 1 }
  | .decDb, _ => { c with m_dbissued := c.m_dbissued - 1 }
  | .result item success, _ => { c with m_dbresult := resultMask item success c.m_dbresult }
  | .executed item, _ => { c with m_dbexecuted := c.m_dbexecuted ||| item }
  | .setPhase phase, _ => { c with m_nextphase := phase }
  | .answer ans, _ => { c with answers := c.answers ++ [ans] }
  | .modify f, _ => { c with data := f c.data }
  | .register act, .registered => { c with pending := c.pending ++ [act] }
  | .register act, .immediate fut => { c with resolved := c.resolved ++ [⟨act, fut⟩] }
  | .lockLst, _ => { c with lst := true }
  | .unlockLst, _ => { c with lst := false }
  | .signal, _ => c.signal
  | .events item success f, _ =>
    { c with
      data := f c.data
      m_dbresult := if success then c.m_dbresult else resultMask item false c.m_dbresult
      m_dbevtissued := c.m_dbevtissued - 1
      m_dbexecuted := if (c.m_dbevtissued - 1) % 2 ^ 32 = 0 then c.m_dbexecuted ||| item
        else c.m_dbexecuted }
  | _, _ => c

inductive RegKind
  | failed
  | async
  | inline

structure Env (K : Kind) where
  db : (act : K.Act) → K.Fut act
  reg : K.Act → RegKind
  ask : (q : K.Qry) → Option (K.Rep q)

/-- The reply to an operation, unless it throws. -/
def Env.reply (e : Env K) (c : Core K) : (o : Op K) → Option o.Res
  | .getResult => some c.m_dbresult
  | .getExecuted => some c.m_dbexecuted
  | .get => some c.data
  | .register act => some (match e.reg act with
    | .failed => Reg.failed
    | .async => Reg.registered
    | .inline => Reg.immediate (e.db act))
  | .ask q => e.ask q
  | .throw => none
  | .incDb | .decDb | .result _ _ | .executed _ | .setPhase _ | .answer _ | .modify _
  | .lockLst | .unlockLst | .signal | .events _ _ _ => some ()

/-- An operation that has to wait; `held` says that another thread holds `m_mutex`. -/
def Core.blocked (c : Core K) (held : Bool) : Op K → Bool
  | .lockLst => c.lst
  | .signal | .events _ _ _ => held
  | _ => false

structure Code (K : Kind) where
  final : Nat
  /-- `phaseReady`, for the phases other than the final one. -/
  ready : Nat → BitVec 32 → K.Data → Bool
  body : Nat → Proc K Unit
  handler : (act : K.Act) → K.Fut act → Proc K Unit

def Core.phaseReady (c : Core K) (M : Code K) : Bool :=
  if c.m_nextphase = M.final then decide (c.m_dbissued % 2 ^ 32 = 0 ∧ c.m_msgissued % 2 ^ 32 = 0)
  else M.ready c.m_nextphase c.m_dbexecuted c.data

structure State (K : Kind) where
  core : Core K
  /-- What is left of the phase body, if a worker is inside the loop. -/
  worker : Option (Proc K Unit)
  /-- What is left of the running callbacks, up to their last lines. -/
  callbacks : List (Proc K Unit)

inductive Move
  /-- A worker takes a message and enters the loop. -/
  | take
  | loop
  /-- The worker goes on with the phase body. -/
  | work
  /-- The database resolves a future: its callback starts. -/
  | deliver (i : Nat)
  | callback (i : Nat)
  /-- A callback that has done its work signals and ends. -/
  | finish (i : Nat)

/-- One operation of a thread that does not wait for a lock: the core after it and the rest of the
thread, or `none` if it throws. -/
def Core.perform (c : Core K) (e : Env K) (o : Op K) (k : o.Res → Proc K Unit) :
    Core K × Proc K Unit :=
  match e.reply c o with
  | some r => (c.effect o r, k r)
  | none => ({ c with status := .aborted }, .ret ())

def exec (M : Code K) (s : State K) (l : Env K × Move) : Option (State K) :=
  if s.core.status = .running then
    match l.2 with
    | .take => match s.worker, s.core.messages with
      | none, messages + 1 => some { s with
          core := { s.core with messages := messages, m_msgissued := s.core.m_msgissued - 1 }
          worker := some (.ret ()) }
      | _, _ => none
    | .loop => match s.worker with
      | some (.ret _) =>
        if s.core.phaseReady M then
          if s.core.m_nextphase = M.final then
            some { s with core := { s.core with status := .deleted }, worker := none }
          else some { s with
            core := { s.core with ran := s.core.ran ++ [s.core.m_nextphase] }
            worker := some (M.body s.core.m_nextphase) }
        else some { s with worker := none }
      | _ => none
    | .work => match s.worker with
      | some (.op o k) =>
        if s.core.blocked false o then none
        else some { s with
          core := (s.core.perform l.1 o k).1
          worker := some (s.core.perform l.1 o k).2 }
      | _ => none
    | .deliver i => match s.core.pending[i]? with
      | some act => some { s with
          core := { s.core with
            pending := s.core.pending.eraseIdx i
            resolved := s.core.resolved ++ [⟨act, l.1.db act⟩] }
          callbacks := s.callbacks ++ [M.handler act (l.1.db act)] }
      | none => none
    | .callback i => match s.callbacks[i]? with
      | some (.op o k) =>
        if s.core.blocked s.worker.isSome o then none
        else some { s with
          core := (s.core.perform l.1 o k).1
          callbacks := s.callbacks.set i (s.core.perform l.1 o k).2 }
      | _ => none
    | .finish i => match s.worker, s.callbacks[i]? with
      | none, some (.ret _) => some { s with
          core := s.core.signal
          callbacks := s.callbacks.eraseIdx i }
      | _, _ => none
  else none

/-- A processor that `startProcessor` has triggered. -/
def State.init (phase1 : Nat) (data : K.Data) : State K where
  core :=
    { m_nextphase := phase1, m_msgissued := 1, m_dbissued := 0, m_dbevtissued := 0
      m_dbexecuted := 0, m_dbresult := BitVec.allOnes 32, data := data, lst := false
      answers := [], ran := [], pending := [], resolved := [], messages := 1, status := .running }
  worker := none
  callbacks := []

/-- Nothing refers to the processor: no callback, no message, no worker. -/
def State.Quiescent (s : State K) : Prop :=
  s.core.pending = [] ∧ s.callbacks = [] ∧ s.core.messages = 0 ∧ s.worker = none

end OpenairHss.Processor
