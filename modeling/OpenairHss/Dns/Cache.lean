import OpenairHss.Dns.Parser
import OpenairHss.Lib.Steps
import Mathlib.Data.List.DropRight
import Mathlib.Logic.Function.Basic

/-!
# The cache of DNS queries

`CachedDNS::Cache` and `QueryProcessor` of `cdnscache.cpp`, with the `Query` of `cdnsquery.h` that the
parser fills.

`parse` of the parser model gives its query when it ends; here an exception leaves what was added
before it, and every record has the time at which it expires (`parseInto`).  c-ares, which delivers a
status with the octets of the response, and the clock are arguments.  Any number of queries may be
under way: a query begins with its look-up, and ends when it is put into the cache.  The time does not
go back, and a query object that another thread deletes is left out.
-/

namespace OpenairHss.Dns

def ResourceRecord.ttl : ResourceRecord → Int
  | .rr _ _ _ ttl | .a _ ttl _ | .ns _ ttl _ | .cname _ ttl _ | .aaaa _ ttl _ => ttl
  | .srv _ ttl _ _ _ _ | .naptr _ ttl _ _ _ _ _ _ => ttl

def Query.records (y : Query) : List ResourceRecord := y.answer ++ y.authority ++ y.additional

/-! ### Filling a query -/

/-- What `time (NULL)` says when the records are made. -/
abbrev Clock : Type := Nat → Int

structure Filling where
  st : St
  /-- `getExpires` of the records, in the order in which they were made. -/
  expires : List Int
  m_expires : Int

/-- How the parser is left other than by its end. -/
inductive Fault
  | raised (what : String)
  | outside
  | spins

/-- What is in the query when an exception is thrown stays there. -/
abbrev Fill : Type → Type := EStateM Fault Filling

def item {α : Type} (p : Parser α) : Fill α := fun f =>
  match p f.st with
  | .done a st => .ok a { f with st := st }
  | .raised what => .error (.raised what) f
  | .outside => .error .outside f
  | .spins => .error .spins f

def addQuestion (q : Question) : Fill Unit := fun f =>
  .ok () { f with st.query.question := f.st.query.question ++ [q] }

/-- The functions that add a record; the constructor of the record has read the clock. -/
def addRecord (clock : Clock) (put : ResourceRecord → Query → Query) (a : ResourceRecord) :
    Fill Unit := fun f =>
  let expires := clock f.expires.length + a.ttl
  .ok () {
    st := { f.st with query := put a f.st.query }
    expires := f.expires ++ [expires]
    m_expires := if f.m_expires = 0 ∨ expires < f.m_expires then expires else f.m_expires }

def addAnswer (clock : Clock) : ResourceRecord → Fill Unit :=
  addRecord clock fun a y => { y with answer := y.answer ++ [a] }

def addAuthority (clock : Clock) : ResourceRecord → Fill Unit :=
  addRecord clock fun a y => { y with authority := y.authority ++ [a] }

def addAdditional (clock : Clock) : ResourceRecord → Fill Unit :=
  addRecord clock fun a y => { y with additional := y.additional ++ [a] }

def forTimes : Nat → Fill Unit → Fill Unit
  | 0, _ => pure ()
  | n + 1, body => do
    body
    forTimes n body

def parseInto (m : Octets) (fuel : Nat) (clock : Clock) : Fill Unit := do
  let c ← item (parseHeader m)
  forTimes c.qd do addQuestion (← item (parseQuestion m fuel))
  forTimes c.an do addAnswer clock (← item (parseResourceRecord m fuel))
  forTimes c.ns do addAuthority clock (← item (parseResourceRecord m fuel))
  forTimes c.ar do addAdditional clock (← item (parseResourceRecord m fuel))

def Filling.init : Filling := ⟨St.init, [], 0⟩

/-! ### The cache -/

structure CachedQuery where
  query : Query
  m_expires : Int

def CachedQuery.isExpired (q : CachedQuery) (now : Int) : Bool := decide (now ≥ q.m_expires)

def Filling.built (f : Filling) : CachedQuery := ⟨f.st.query, f.m_expires⟩

inductive Resolved
  | notInitialised
  /-- c-ares is done without having called back. -/
  | silent
  | answered (status : Nat) (abuf : Octets)

def aresSuccess : Nat := 0

/-- `QueryProcessor::process`: the status is not read, and an exception is only printed. -/
def process (fuel : Nat) (clock : Clock) (_status : Nat) (abuf : Octets) :
    Except Fault CachedQuery :=
  match (parseInto abuf fuel clock).run Filling.init with
  | .ok () f => .ok f.built
  | .error (.raised _) f => .ok f.built
  | .error e _ => .error e

/-- `QueryProcessor::execute`, and the query if `getStatus` is `ARES_SUCCESS`: the status is the one
of `ares_init`. -/
def execute (fuel : Nat) (clock : Clock) : Resolved → Except Fault (Option CachedQuery)
  | .notInitialised => .ok none
  | .silent => .ok (some Filling.init.built)
  | .answered status abuf => do return some (← process fuel clock status abuf)

structure QueryCacheKey where
  m_type : Nat
  m_domain : Octets
  deriving DecidableEq

structure Cache where
  m_cache : QueryCacheKey → Option CachedQuery
  now : Int
  running : List QueryCacheKey
  /-- The responses there were, with what the clock said. -/
  finished : List (QueryCacheKey × Resolved × Clock)

namespace Cache

def init : Cache := ⟨fun _ => none, 0, [], []⟩

def lookupQuery (c : Cache) (key : QueryCacheKey) : Option CachedQuery := c.m_cache key

def query (c : Cache) (key : QueryCacheKey) (now : Int) : Option CachedQuery × Bool :=
  let q := c.lookupQuery key
  (q, q.any fun q => !q.isExpired now)

/-- A new query takes the place of an old one. -/
def store (c : Cache) (key : QueryCacheKey) (q : Option CachedQuery) :
    QueryCacheKey → Option CachedQuery :=
  match q with
  | some q => Function.update c.m_cache key (some q)
  | none => c.m_cache

end Cache

/-- A look-up, which starts a query unless it is a hit, and the end of a query. -/
inductive Action
  | query (key : QueryCacheKey) (now : Int)
  | processed (key : QueryCacheKey) (resolved : Resolved) (fuel : Nat) (clock : Clock) (now : Int)

def Cache.step (c : Cache) : Action → Option Cache
  | .query key now =>
    if now < c.now then none
    else if (c.query key now).2 then some { c with now := now }
    else some { c with now := now, running := key :: c.running }
  | .processed key resolved fuel clock now =>
    if now < c.now ∨ key ∉ c.running then none
    else match execute fuel clock resolved with
    | .error _ => none
    | .ok q => some {
        m_cache := c.store key q
        now := now
        running := c.running.erase key
        finished := (key, resolved, clock) :: c.finished }

/-! ### What is meant -/

/-- The query is the complete parse of a successful response for the key, and none of its records has
outlived its TTL. -/
def Cache.Right (c : Cache) (key : QueryCacheKey) (now : Int) (q : CachedQuery) : Prop :=
  ∃ abuf clock, (key, .answered aresSuccess abuf, clock) ∈ c.finished ∧
    (∃ fuel st, parse abuf fuel St.init = .done () st ∧ q.query = st.query) ∧
    ∀ i r, q.query.records[i]? = some r → now < clock i + r.ttl

/-- The times behind the last 0. -/
def sinceZero (l : List Int) : List Int := l.rtakeWhile fun e => decide (e ≠ 0)

/-- A query with records that expire then may be found after `now`: `m_expires` is not yet set while
it is 0, and the times before are forgotten. -/
def Served (now : Int) (l : List Int) : Prop :=
  (∀ e ∈ l, 0 ≤ e) ∧ sinceZero l ≠ [] ∧ ∀ e ∈ sinceZero l, now < e

instance (now : Int) (l : List Int) : Decidable (Served now l) :=
  inferInstanceAs (Decidable (_ ∧ _ ∧ _))

/-- The ends of a parse that are fine: nothing outside is read, and if the query may be found, the
response is successful, is parsed to its end, and no record expires at the time 0. -/
def FineEnd (status : Nat) (now : Int) : EStateM.Result Fault Filling Unit → Prop
  | .ok () f => Served now f.expires → status = aresSuccess ∧ 0 ∉ f.expires
  | .error (.raised _) f => ¬ Served now f.expires
  | .error .outside _ => False
  | .error .spins _ => True

instance (status : Nat) (now : Int) : ∀ r, Decidable (FineEnd status now r)
  | .ok () f => inferInstanceAs (Decidable (Served now f.expires → _))
  | .error (.raised _) f => inferInstanceAs (Decidable (¬ Served now f.expires))
  | .error .outside _ => .isFalse id
  | .error .spins _ => .isTrue trivial

def Action.Fine : Action → Prop
  | .processed _ (.answered status abuf) fuel clock now =>
    FineEnd status now ((parseInto abuf fuel clock).run Filling.init)
  | _ => True

end OpenairHss.Dns
