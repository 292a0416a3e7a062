import OpenairHss.Dns.Cache

/-!
# The lifetime of a query

`Cache::query` gives its callers the pointer that is in the map, and `processQuery` deletes the query
that it has replaced there, so that a query may be deleted while a caller reads it.  A `Query*` is the
number of the call of `new Query` that made the object.  What is in a query, the clock and the status of
c-ares decide which way a call goes, and are left to the events; `~Cache` at the end of the program is
left out.

* `Inv`: every object is in the map, in the hands of one thread, or deleted.
* `Fate`: what has become of a query since a caller was given it.
* `owned_once`: no query is lost, and none is deleted twice.
* `dangling_iff`: which callers have a query that was deleted.
-/

namespace OpenairHss.Dns

open Steps

/-! ### The threads -/

/-- Where a thread is in `Cache::query`. -/
inductive Call
  | idle
  /-- `lookupQuery` has returned. -/
  | found (key : QueryCacheKey) (q : Option Nat)
  /-- `QueryProcessor::execute` fills a new query. -/
  | executing (key : QueryCacheKey) (q : Nat)
  /-- `getStatus` is not `ARES_SUCCESS`, and `q` will be deleted. -/
  | failed (key : QueryCacheKey) (q : Nat)
  /-- `q` is in the map, and `oldQuery` will be deleted. -/
  | replaced (key : QueryCacheKey) (oldQuery q : Nat)
  /-- The caller, or its callback, has the query. -/
  | returned (key : QueryCacheKey) (q : Option Nat)

/-- The pointer that a thread still has use for, and its key. -/
def Call.holds : Call → Option (QueryCacheKey × Nat)
  | .found key q | .returned key q => q.map fun q => (key, q)
  | .replaced key _ q => some (key, q)
  | _ => none

/-- The object that nobody else knows, or that nobody else will delete. -/
def Call.owns : Call → Option Nat
  | .executing _ q | .failed _ q | .replaced _ q _ => some q
  | _ => none

structure QueryHeap where
  m_cache : QueryCacheKey → Option Nat
  /-- The number of calls of `new Query`. -/
  made : Nat
  deleted : List Nat
  calls : Nat → Call

namespace QueryHeap

/-- The steps of a thread. -/
inductive Event
  | lookupQuery (t : Nat) (key : QueryCacheKey)
  /-- `!q || q->isExpired ()`, with what `isExpired` says; if so, `new Query`. -/
  | isExpired (t : Nat) (expired : Bool)
  /-- The overload with a callback leaves the query to a `QueryThread`, which is one more thread. -/
  | queryThread (t : Nat)
  | failed (t : Nat)
  /-- The new query is put into the map. -/
  | stored (t : Nat) (key : QueryCacheKey)
  /-- `delete oldQuery` or `delete q`, and `query` returns. -/
  | deleted (t : Nat)
  /-- The caller is through with the query. -/
  | released (t : Nat)

def init : QueryHeap := ⟨fun _ => none, 0, [], fun _ => .idle⟩

def goes (s : QueryHeap) (t : Nat) (c : Call) : QueryHeap :=
  { s with calls := Function.update s.calls t c }

def exec (s : QueryHeap) : Event → Option QueryHeap
  | .lookupQuery t key => match s.calls t with
    | .idle => some (s.goes t (.found key (s.m_cache key)))
    | _ => none
  | .isExpired t expired => match s.calls t with
    | .found key q =>
      if q.isSome && !expired then some (s.goes t (.returned key q))
      else some { s.goes t (.executing key s.made) with made := s.made + 1 }
    | _ => none
  | .queryThread t => match s.calls t with
    | .found _ _ => some (s.goes t .idle)
    | _ => none
  | .failed t => match s.calls t with
    | .executing key q => some (s.goes t (.failed key q))
    | _ => none
  | .stored t key => match s.calls t with
    | .executing k q =>
      if k = key then some {
        s.goes t (match s.m_cache key with
          | some oldQuery => .replaced key oldQuery q
          | none => .returned key (some q)) with
        m_cache := Function.update s.m_cache key (some q) }
      else none
    | _ => none
  | .deleted t => match s.calls t with
    | .replaced key oldQuery q => some {
        s.goes t (.returned key (some q)) with deleted := s.deleted ++ [oldQuery] }
    | .failed key q => some { s.goes t (.returned key none) with deleted := s.deleted ++ [q] }
    | _ => none
  | .released t => match s.calls t with
    | .returned _ _ => some (s.goes t .idle)
    | _ => none

/-! ### The steps -/

section

variable {s s' : QueryHeap} {t u q : Nat} {key : QueryCacheKey} {a : Event}

@[grind =] theorem goes_calls (c : Call) : (s.goes t c).calls u = if u = t then c else s.calls u :=
  Function.update_apply s.calls t c u

@[grind =] theorem goes_m_cache (c : Call) : (s.goes t c).m_cache key = s.m_cache key := rfl

@[grind =] theorem goes_made (c : Call) : (s.goes t c).made = s.made := rfl

@[grind =] theorem goes_deleted (c : Call) : (s.goes t c).deleted = s.deleted := rfl

/-- What the events do. -/
inductive Step (s : QueryHeap) : Event → QueryHeap → Prop
  | lookupQuery {t : Nat} {key : QueryCacheKey} (h : s.calls t = .idle) :
    Step s (.lookupQuery t key) (s.goes t (.found key (s.m_cache key)))
  | hit {t : Nat} {key : QueryCacheKey} {q : Nat} (h : s.calls t = .found key (some q)) :
    Step s (.isExpired t false) (s.goes t (.returned key (some q)))
  | miss {t : Nat} {key : QueryCacheKey} {q : Option Nat} {expired : Bool}
    (h : s.calls t = .found key q) :
    Step s (.isExpired t expired)
      { s.goes t (.executing key s.made) with made := s.made + 1 }
  | queryThread {t : Nat} {key : QueryCacheKey} {q : Option Nat} (h : s.calls t = .found key q) :
    Step s (.queryThread t) (s.goes t .idle)
  | failed {t : Nat} {key : QueryCacheKey} {q : Nat} (h : s.calls t = .executing key q) :
    Step s (.failed t) (s.goes t (.failed key q))
  | added {t : Nat} {key : QueryCacheKey} {q : Nat} (h : s.calls t = .executing key q)
    (hkey : s.m_cache key = none) :
    Step s (.stored t key)
      { s.goes t (.returned key (some q)) with m_cache := Function.update s.m_cache key (some q) }
  | replaced {t : Nat} {key : QueryCacheKey} {oldQuery q : Nat} (h : s.calls t = .executing key q)
    (hkey : s.m_cache key = some oldQuery) :
    Step s (.stored t key)
      { s.goes t (.replaced key oldQuery q) with
        m_cache := Function.update s.m_cache key (some q) }
  | deletedOld {t : Nat} {key : QueryCacheKey} {oldQuery q : Nat}
    (h : s.calls t = .replaced key oldQuery q) :
    Step s (.deleted t)
      { s.goes t (.returned key (some q)) with deleted := s.deleted ++ [oldQuery] }
  | deletedNew {t : Nat} {key : QueryCacheKey} {q : Nat} (h : s.calls t = .failed key q) :
    Step s (.deleted t) { s.goes t (.returned key none) with deleted := s.deleted ++ [q] }
  | released {t : Nat} {key : QueryCacheKey} {q : Option Nat} (h : s.calls t = .returned key q) :
    Step s (.released t) (s.goes t .idle)

theorem step_of_exec (h : s.exec a = some s') : Step s a s' := by
  cases a with
  | lookupQuery t key =>
    simp only [exec] at h
    split at h
    case h_1 hcall =>
      cases h
      exact .lookupQuery hcall
    case h_2 => cases h
  | isExpired t expired =>
    simp only [exec] at h
    split at h
    case h_1 key q hcall =>
      split at h
      case isTrue hhit =>
        cases h
        cases q with
        | none => cases hhit
        | some q =>
          cases expired with
          | false => exact .hit hcall
          | true => cases hhit
      case isFalse =>
        cases h
        exact .miss hcall
    case h_2 => cases h
  | queryThread t =>
    simp only [exec] at h
    split at h
    case h_1 hcall =>
      cases h
      exact .queryThread hcall
    case h_2 => cases h
  | failed t =>
    simp only [exec] at h
    split at h
    case h_1 hcall =>
      cases h
      exact .failed hcall
    case h_2 => cases h
  | stored t key =>
    simp only [exec] at h
    split at h
    case h_1 k q hcall =>
      split at h
      case isTrue hk =>
        subst hk
        cases hkey : s.m_cache k with
        | none =>
          rw [hkey] at h
          cases h
          exact .added hcall hkey
        | some oldQuery =>
          rw [hkey] at h
          cases h
          exact .replaced hcall hkey
      case isFalse => cases h
    case h_2 => cases h
  | deleted t =>
    simp only [exec] at h
    split at h
    case h_1 hcall =>
      cases h
      exact .deletedOld hcall
    case h_2 hcall =>
      cases h
      exact .deletedNew hcall
    case h_3 => cases h
  | released t =>
    simp only [exec] at h
    split at h
    case h_1 hcall =>
      cases h
      exact .released hcall
    case h_2 => cases h

/-! ### Where the objects are -/

inductive Owner
  | cache (key : QueryCacheKey)
  | thread (t : Nat)
  | deleted

end

/-- The object is there. -/
def Owns (s : QueryHeap) : Owner → Nat → Prop
  | .cache key, q => s.m_cache key = some q
  | .thread t, q => (s.calls t).owns = some q
  | .deleted, q => q ∈ s.deleted

/-- Every object is in one place. -/
structure Inv (s : QueryHeap) : Prop where
  owner : ∃ owner : Nat → Owner, ∀ o q, s.Owns o q ↔ q < s.made ∧ owner q = o
  once : s.deleted.Nodup

section

variable {s s' : QueryHeap} {t u q : Nat} {key : QueryCacheKey} {a : Event}

@[grind =] theorem owns_cache : s.Owns (.cache key) q ↔ s.m_cache key = some q := Iff.rfl

@[grind =] theorem owns_thread : s.Owns (.thread t) q ↔ (s.calls t).owns = some q := Iff.rfl

@[grind =] theorem owns_deleted : s.Owns .deleted q ↔ q ∈ s.deleted := Iff.rfl

theorem inv_init : init.Inv where
  owner := by
    refine ⟨fun _ => .deleted, ?_⟩
    intro o q
    cases o <;> simp [Owns, init, Call.owns]
  once := List.nodup_nil

theorem Inv.lt_made (h : s.Inv) {o : Owner} (ho : s.Owns o q) : q < s.made := by
  obtain ⟨owner, howner⟩ := h.owner
  exact ((howner o q).mp ho).1

theorem Inv.unique (h : s.Inv) {o o' : Owner} (ho : s.Owns o q) (ho' : s.Owns o' q) : o = o' := by
  obtain ⟨owner, howner⟩ := h.owner
  exact ((howner o q).mp ho).2.symm.trans ((howner o' q).mp ho').2

/-- A thread goes on, and keeps what it owns. -/
theorem Inv.goes (h : s.Inv) {c : Call} (hc : c.owns = (s.calls t).owns) : (s.goes t c).Inv := by
  have hcalls : ∀ u, ((s.goes t c).calls u).owns = (s.calls u).owns := by
    intro u
    rw [goes_calls]
    split
    case isTrue hu => rw [hu, hc]
    case isFalse => rfl
  obtain ⟨owner, howner⟩ := h.owner
  refine ⟨⟨owner, ?_⟩, h.once⟩
  intro o q
  refine Iff.trans ?_ (howner o q)
  cases o with
  | cache key => rfl
  | thread u =>
    show ((s.goes t c).calls u).owns = some q ↔ (s.calls u).owns = some q
    rw [hcalls u]
  | deleted => rfl

/-- Some objects get new places, and perhaps were not made before. -/
theorem Inv.move (h : s.Inv) (dest : Nat → Option Owner)
    (hmade : ∀ q, q < s'.made ↔ q < s.made ∨ dest q ≠ none)
    (hdest : ∀ q d, dest q = some d → ∀ o, s'.Owns o q ↔ o = d)
    (hrest : ∀ q, dest q = none → ∀ o, s'.Owns o q ↔ s.Owns o q) (honce : s'.deleted.Nodup) :
    s'.Inv := by
  obtain ⟨owner, howner⟩ := h.owner
  refine ⟨⟨fun q => (dest q).getD (owner q), ?_⟩, honce⟩
  intro o q
  show s'.Owns o q ↔ q < s'.made ∧ (dest q).getD (owner q) = o
  rw [hmade q]
  cases hd : dest q with
  | none => simp [hrest q hd, howner o q]
  | some d => simp [hdest q d hd, eq_comm]

theorem Inv.only_thread (h : s.Inv) (ht : (s.calls t).owns = some q) :
    (∀ key, s.m_cache key ≠ some q) ∧ (∀ u, (s.calls u).owns = some q → u = t) ∧ q ∉ s.deleted := by
  have hunique : ∀ o, s.Owns o q → o = .thread t := fun o ho => h.unique ho ht
  refine ⟨?_, ?_, ?_⟩
  · intro key hkey
    cases hunique (.cache key) hkey
  · intro u hu
    exact Owner.thread.inj (hunique (.thread u) hu)
  · intro hdel
    cases hunique .deleted hdel

theorem Inv.only_cache (h : s.Inv) (hkey : s.m_cache key = some q) :
    (∀ key', s.m_cache key' = some q → key' = key) ∧ (∀ u, (s.calls u).owns ≠ some q) ∧
      q ∉ s.deleted := by
  have hunique : ∀ o, s.Owns o q → o = .cache key := fun o ho => h.unique ho hkey
  refine ⟨?_, ?_, ?_⟩
  · intro key' hkey'
    exact Owner.cache.inj (hunique (.cache key') hkey')
  · intro u hu
    cases hunique (.thread u) hu
  · intro hdel
    cases hunique .deleted hdel

/-- The new object. -/
theorem Inv.fresh (h : s.Inv) (o : Owner) : ¬ s.Owns o s.made := fun ho =>
  Nat.lt_irrefl _ (h.lt_made ho)

/-- A thread deletes what it owns. -/
theorem Inv.delete (h : s.Inv) (ht : (s.calls t).owns = some q) {c : Call} (hc : c.owns = none) :
    Inv { s.goes t c with deleted := s.deleted ++ [q] } := by
  have hlt : q < s.made := h.lt_made (o := .thread t) ht
  obtain ⟨hmap, hthread, hdel⟩ := h.only_thread ht
  refine h.move (fun q' => if q' = q then some .deleted else none) ?_ ?_ ?_ ?_
  · grind
  · intro q' d hd o
    cases o <;> grind
  · intro q' hd o
    cases o <;> grind
  · exact List.nodup_append.mpr ⟨h.once, List.nodup_singleton q, by grind⟩

theorem Inv.step (h : s.Inv) (hs : Step s a s') : s'.Inv := by
  cases hs with
  | lookupQuery hcall => exact h.goes (by rw [hcall]; rfl)
  | hit hcall => exact h.goes (by rw [hcall]; rfl)
  | queryThread hcall => exact h.goes (by rw [hcall]; rfl)
  | failed hcall => exact h.goes (by rw [hcall]; rfl)
  | released hcall => exact h.goes (by rw [hcall]; rfl)
  | @miss t key q expired hcall =>
    have hmap := fun key => h.fresh (.cache key)
    have hthread := fun u => h.fresh (.thread u)
    have hdel := h.fresh .deleted
    refine h.move (fun q' => if q' = s.made then some (.thread t) else none) ?_ ?_ ?_ h.once
    · grind
    · intro q' d hd o
      cases o <;> grind [Call.owns]
    · intro q' hd o
      cases o <;> grind [Call.owns]
  | @added t key q hcall hkey =>
    have hlt : q < s.made := h.lt_made (o := .thread t) (by rw [Owns, hcall]; rfl)
    obtain ⟨hmap, hthread, hdel⟩ := h.only_thread (t := t) (q := q) (by rw [hcall]; rfl)
    refine h.move (fun q' => if q' = q then some (.cache key) else none) ?_ ?_ ?_ h.once
    · grind
    · intro q' d hd o
      cases o <;> grind [Function.update_apply, Call.owns]
    · intro q' hd o
      cases o <;> grind [Function.update_apply, Call.owns]
  | @replaced t key oldQuery q hcall hkey =>
    have hlt : q < s.made := h.lt_made (o := .thread t) (by rw [Owns, hcall]; rfl)
    have hltOld : oldQuery < s.made := h.lt_made (o := .cache key) hkey
    obtain ⟨hmap, hthread, hdel⟩ := h.only_thread (t := t) (q := q) (by rw [hcall]; rfl)
    obtain ⟨hmapOld, hthreadOld, hdelOld⟩ := h.only_cache hkey
    refine h.move (fun q' =>
      if q' = q then some (.cache key) else if q' = oldQuery then some (.thread t) else none)
      ?_ ?_ ?_ h.once
    · grind
    · intro q' d hd o
      cases o <;> grind [Function.update_apply, Call.owns]
    · intro q' hd o
      cases o <;> grind [Function.update_apply, Call.owns]
  | deletedOld hcall => exact h.delete (by rw [hcall]; rfl) rfl
  | deletedNew hcall => exact h.delete (by rw [hcall]; rfl) rfl

theorem inv_run {as : List Event} (h : runAll exec as init = some s) : s.Inv :=
  runAll_invariant (I := fun _ s => s.Inv) h inv_init fun _ _ _ _ hu hstep =>
    hu.step (step_of_exec hstep)

/-- **No query is lost, and none is deleted twice**: what `new Query` has made is in the map under one
key, or in the hands of one thread, or it was deleted, once. -/
theorem owned_once {as : List Event} (h : runAll exec as init = some s) :
    s.deleted.Nodup ∧ (∀ o q, s.Owns o q → q < s.made) ∧ ∀ q < s.made, ∃! o, s.Owns o q := by
  have hinv := inv_run h
  refine ⟨hinv.once, fun o q => hinv.lt_made, ?_⟩
  intro q hq
  obtain ⟨owner, howner⟩ := hinv.owner
  refine ⟨owner q, (howner _ q).mpr ⟨hq, rfl⟩, ?_⟩
  intro o ho
  exact ((howner o q).mp ho).2.symm

/-! ### What becomes of a query that a caller has -/

def Event.thread : Event → Nat
  | .lookupQuery t _ | .isExpired t _ | .queryThread t | .failed t | .stored t _ | .deleted t
  | .released t => t

/-- The thread reads the pointer in the map, or puts it there. -/
def Event.obtains (t : Nat) : Event → Bool
  | .lookupQuery u _ | .stored u _ => u = t
  | _ => false

def Event.stores (key : QueryCacheKey) : Event → Bool
  | .stored _ k => k = key
  | _ => false

/-- What has happened since the thread read the pointer in the map or put it there. -/
def since (t : Nat) (as : List Event) : List Event := as.rtakeWhile fun a => !a.obtains t

/-- From the first time that a query is put into the map under the key. -/
def fromStored (key : QueryCacheKey) (as : List Event) : List Event :=
  as.dropWhile fun a => !a.stores key

/-- The first thread that has since put a query into the map under the key has deleted what was
there. -/
def Superseded (t : Nat) (key : QueryCacheKey) (as : List Event) : Prop :=
  ∃ u rest, fromStored key (since t as) = .stored u key :: rest ∧ .deleted u ∈ rest

variable {new : Nat}

theorem Step.calls_of_ne (h : Step s a s') (hu : u ≠ a.thread) : s'.calls u = s.calls u := by
  cases h <;> exact (goes_calls _).trans (if_neg hu)

theorem Step.cache (h : Step s a s') (ha : a.stores key = false) :
    s'.m_cache key = s.m_cache key := by
  cases h with
  | added hcall hkey =>
    have hne : _ ≠ key := of_decide_eq_false ha
    exact Function.update_of_ne hne.symm _ _
  | replaced hcall hkey =>
    have hne : _ ≠ key := of_decide_eq_false ha
    exact Function.update_of_ne hne.symm _ _
  | _ => rfl

theorem Step.deleted_mono (h : Step s a s') (hq : q ∈ s.deleted) : q ∈ s'.deleted := by
  cases h with
  | deletedOld hcall => exact List.mem_append_left _ hq
  | deletedNew hcall => exact List.mem_append_left _ hq
  | _ => exact hq

/-- A query that is taken out of the map is in the hands of the thread that has put a new one there. -/
theorem Step.supersede (h : Step s (.stored u key) s') (hkey : s.m_cache key = some q) :
    ∃ new, s'.calls u = .replaced key q new := by
  cases h with
  | added hcall hnone =>
    rw [hkey] at hnone
    cases hnone
  | @replaced _ _ oldQuery new hcall hold =>
    rw [hkey] at hold
    cases hold
    exact ⟨new, (goes_calls _).trans (if_pos rfl)⟩

/-- A thread that has replaced a query deletes it next. -/
theorem Step.of_replaced (h : Step s a s') (hu : s.calls u = .replaced key q new) :
    (a ≠ .deleted u ∧ s'.calls u = .replaced key q new) ∨ (a = .deleted u ∧ q ∈ s'.deleted) := by
  by_cases hthread : u = a.thread
  · refine Or.inr ?_
    cases h with
    | deletedOld hcall =>
      have heq := hcall.symm.trans (hthread ▸ hu)
      cases heq
      exact ⟨by rw [hthread]; rfl, List.mem_append_right _ (List.mem_singleton.mpr rfl)⟩
    | _ hcall => cases hcall.symm.trans (hthread ▸ hu)
  · refine Or.inl ⟨?_, ?_⟩
    · rintro rfl
      exact hthread rfl
    · rw [h.calls_of_ne hthread, hu]

theorem Step.obtained (h : Step s a s') (ha : a.obtains t = true)
    (hold : (s'.calls t).holds = some (key, q)) : s'.m_cache key = some q := by
  cases h with
  | lookupQuery hcall =>
    obtain rfl := of_decide_eq_true ha
    rw [goes_calls, if_pos rfl] at hold
    obtain ⟨p, hp, heq⟩ := Option.map_eq_some_iff.mp hold
    cases heq
    exact hp
  | added hcall hkey =>
    obtain rfl := of_decide_eq_true ha
    change ((s.goes _ _).calls _).holds = _ at hold
    rw [goes_calls, if_pos rfl] at hold
    cases hold
    exact Function.update_self key (some q) s.m_cache
  | replaced hcall hkey =>
    obtain rfl := of_decide_eq_true ha
    change ((s.goes _ _).calls _).holds = _ at hold
    rw [goes_calls, if_pos rfl] at hold
    cases hold
    exact Function.update_self key (some q) s.m_cache
  | _ => cases ha

theorem Step.kept (h : Step s a s') (ha : a.obtains t = false)
    (hold : (s'.calls t).holds = some (key, q)) : (s.calls t).holds = some (key, q) := by
  cases h <;> grind [Call.holds, Event.obtains]

/-- What has become of the query that was in the map under the key, after the events. -/
inductive Fate (s : QueryHeap) (key : QueryCacheKey) (q : Nat) (as : List Event) : Prop
  /-- It is still there. -/
  | kept (hstored : fromStored key as = []) (hkey : s.m_cache key = some q)
  /-- A thread has taken it out, and will delete it. -/
  | pending {u new : Nat} {rest : List Event} (hstored : fromStored key as = .stored u key :: rest)
    (hrest : .deleted u ∉ rest) (hcall : s.calls u = .replaced key q new)
  /-- The thread has deleted it. -/
  | gone {u : Nat} {rest : List Event} (hstored : fromStored key as = .stored u key :: rest)
    (hrest : .deleted u ∈ rest) (hdel : q ∈ s.deleted)

theorem fromStored_append {as rest : List Event} (h : fromStored key as = .stored u key :: rest) :
    fromStored key (as ++ [a]) = .stored u key :: (rest ++ [a]) := by
  unfold fromStored at h ⊢
  rw [List.dropWhile_append, h]
  rfl

theorem fromStored_append_of_nil {as : List Event} (h : fromStored key as = []) :
    fromStored key (as ++ [a]) = if a.stores key then [a] else [] := by
  unfold fromStored at h ⊢
  rw [List.dropWhile_append, h]
  cases ha : a.stores key <;> simp [ha]

/-- One step. -/
theorem Fate.step {as : List Event} (h : s.Fate key q as) (hs : Step s a s') :
    s'.Fate key q (as ++ [a]) := by
  cases h with
  | kept hstored hkey =>
    cases ha : a.stores key with
    | false =>
      refine .kept ?_ ((hs.cache ha).trans hkey)
      rw [fromStored_append_of_nil hstored, ha]
      rfl
    | true =>
      -- the thread finds the query in the map
      cases a with
      | stored u key' =>
        obtain rfl := of_decide_eq_true ha
        obtain ⟨new, hcall⟩ := hs.supersede hkey
        have hfirst : fromStored key' (as ++ [.stored u key']) = .stored u key' :: [] := by
          rw [fromStored_append_of_nil hstored, ha]
          rfl
        exact .pending hfirst List.not_mem_nil hcall
      | _ => cases ha
  | @pending u new rest hstored hrest hcall =>
    rcases hs.of_replaced hcall with ⟨hne, hcall'⟩ | ⟨rfl, hdel⟩
    · refine .pending (fromStored_append hstored) ?_ hcall'
      intro hmem
      rcases List.mem_append.mp hmem with hmem | hmem
      · exact hrest hmem
      · exact hne (List.mem_singleton.mp hmem).symm
    · exact .gone (fromStored_append hstored) (by simp) hdel
  | gone hstored hrest hdel =>
    exact .gone (fromStored_append hstored) (List.mem_append_left _ hrest) (hs.deleted_mono hdel)

/-- The whole run. -/
theorem fate_run {as : List Event} (h : runAll exec as init = some s) :
    ∀ t key q, (s.calls t).holds = some (key, q) → s.Fate key q (since t as) := by
  refine runAll_invariant
    (I := fun as s => ∀ t key q, (s.calls t).holds = some (key, q) → s.Fate key q (since t as)) h ?_ ?_
  · intro t key q hold
    cases hold
  · intro as a u v hu hstep t key q hold
    have hs := step_of_exec hstep
    cases ha : a.obtains t with
    | true =>
      have hsince : since t (as ++ [a]) = [] := List.rtakeWhile_concat_neg _ _ _ (by simp [ha])
      rw [hsince]
      exact .kept rfl (hs.obtained ha hold)
    | false =>
      have hsince : since t (as ++ [a]) = since t as ++ [a] :=
        List.rtakeWhile_concat_pos _ _ _ (by simp [ha])
      rw [hsince]
      exact (hu t key q (hs.kept ha hold)).step hs

/-- **A query is deleted under a caller**: a thread that is about to read the query it was given, or
has returned it to a caller, has one that is deleted if and only if the first thread that has put a
query into the map under the same key since, has gone on to delete what it found there. -/
theorem dangling_iff {as : List Event} (h : runAll exec as init = some s)
    (hold : (s.calls t).holds = some (key, q)) : q ∈ s.deleted ↔ Superseded t key as := by
  have hinv := inv_run h
  cases fate_run h t key q hold with
  | kept hstored hkey =>
    have hdel : q ∉ s.deleted := (hinv.only_cache hkey).2.2
    have hnot : ¬ Superseded t key as := by
      rintro ⟨u, rest, hsup, -⟩
      cases hstored.symm.trans hsup
    exact iff_of_false hdel hnot
  | pending hstored hrest hcall =>
    have hdel : q ∉ s.deleted := (hinv.only_thread (by rw [hcall]; rfl)).2.2
    have hnot : ¬ Superseded t key as := by
      rintro ⟨u, rest, hsup, hmem⟩
      cases hstored.symm.trans hsup
      exact hrest hmem
    exact iff_of_false hdel hnot
  | gone hstored hrest hdel => exact iff_of_true hdel ⟨_, _, hstored, hrest⟩

/-- A caller is safe as long as no other query of its key ends. -/
theorem kept_of_not_stored {as : List Event} (h : runAll exec as init = some s)
    (hold : (s.calls t).holds = some (key, q)) (hsince : ∀ a ∈ since t as, a.stores key = false) :
    s.m_cache key = some q := by
  have hnil : fromStored key (since t as) = [] := by
    refine List.dropWhile_eq_nil_iff.mpr ?_
    intro a ha
    rw [hsince a ha]
    rfl
  cases fate_run h t key q hold with
  | kept hstored hkey => exact hkey
  | pending hstored => cases hnil.symm.trans hstored
  | gone hstored => cases hnil.symm.trans hstored

end

def sampleKey : QueryCacheKey := ⟨35, [104, 115, 115]⟩

/-- Two threads find nothing in the map, and the second replaces the query of the first. -/
def sampleRun : List Event :=
  [.lookupQuery 0 sampleKey, .lookupQuery 1 sampleKey, .isExpired 0 true, .isExpired 1 true,
    .stored 0 sampleKey, .stored 1 sampleKey, .deleted 1]

theorem dangling_iff_sample : ∃ s, runAll exec sampleRun init = some s ∧
    (s.calls 0).holds = some (sampleKey, 0) ∧ 0 ∈ s.deleted ∧ Superseded 0 sampleKey sampleRun := by
  obtain ⟨s, hrun, hold, hdel⟩ : ∃ s, runAll exec sampleRun init = some s ∧
      (s.calls 0).holds = some (sampleKey, 0) ∧ 0 ∈ s.deleted :=
    ⟨_, rfl, rfl, List.mem_singleton.mpr rfl⟩
  exact ⟨s, hrun, hold, hdel, (dangling_iff hrun hold).mp hdel⟩

theorem owned_once_sample : ∃ s, runAll exec sampleRun init = some s ∧ s.deleted.Nodup ∧
    (∀ o q, s.Owns o q → q < s.made) ∧ ∀ q < s.made, ∃! o, s.Owns o q :=
  ⟨_, rfl, owned_once (show runAll exec sampleRun init = some _ from rfl)⟩

end QueryHeap

end OpenairHss.Dns
