import OpenairHss.Dns.Cache
import Mathlib.Data.List.Basic
import Mathlib.Tactic.Common

/-!
# What the cache serves

* `lt_expiry_iff`: `m_expires`, which takes 0 for a time that is not set, in terms of the times at
  which the records expire.
* `Follows`: the parser with a query that stays is the parser.
* `Keeps`: what a filling query has at any time, also when an exception is thrown.
* `stored_iff`: which responses may be put into the cache.
* `hits_right`: in a run with such responses only, every hit is right.
-/

namespace OpenairHss.Dns

/-! ### The time of a query -/

/-- `m_expires` after records that expire at these times. -/
def expiry (l : List Int) : Int := l.foldl (fun m e => if m = 0 ∨ e < m then e else m) 0

theorem expiry_concat (l : List Int) (e : Int) :
    expiry (l ++ [e]) = if expiry l = 0 ∨ e < expiry l then e else expiry l := by
  rw [expiry, List.foldl_append]
  rfl

theorem sinceZero_concat (l : List Int) (e : Int) :
    sinceZero (l ++ [e]) = if e = 0 then [] else sinceZero l ++ [e] := by
  rw [sinceZero, List.rtakeWhile_concat, sinceZero]
  by_cases he : e = 0 <;> simp [he]

theorem sinceZero_of_not_mem {l : List Int} (h : 0 ∉ l) : sinceZero l = l := by
  rw [sinceZero, List.rtakeWhile_eq_self_iff]
  intro e he
  rw [decide_eq_true_iff]
  rintro rfl
  exact h he

/-- A time before 1970 stays. -/
theorem expiry_neg {l : List Int} (h : ∃ e ∈ l, e < 0) : expiry l < 0 := by
  induction l using List.reverseRecOn with
  | nil => simp at h
  | append_singleton l e ih =>
    rw [expiry_concat]
    obtain ⟨x, hx, hneg⟩ := h
    rcases List.mem_append.mp hx with hx | hx
    · have := ih ⟨x, hx, hneg⟩
      split <;> omega
    · rw [List.mem_singleton.mp hx] at hneg
      split <;> omega

/-- Otherwise it is the earliest time behind the last 0. -/
theorem expiry_spec {l : List Int} (h : ∀ e ∈ l, 0 ≤ e) : 0 ≤ expiry l ∧
    (expiry l = 0 ↔ sinceZero l = []) ∧
    ∀ now, 0 ≤ now → sinceZero l ≠ [] → (now < expiry l ↔ ∀ e ∈ sinceZero l, now < e) := by
  induction l using List.reverseRecOn with
  | nil => simp [expiry, sinceZero]
  | append_singleton l e ih =>
    obtain ⟨hpos, hzero, hlt⟩ := ih fun x hx => h x (List.mem_append_left [e] hx)
    have he : 0 ≤ e := h e (List.mem_append_right l List.mem_cons_self)
    rw [expiry_concat, sinceZero_concat]
    by_cases h0 : e = 0
    · subst h0
      rw [if_pos rfl, if_pos (by omega)]
      simp
    · rw [if_neg h0]
      by_cases hl : expiry l = 0
      · rw [if_pos (Or.inl hl), hzero.mp hl]
        refine ⟨he, by simp [h0], fun now _ _ => by simp⟩
      · have hne : sinceZero l ≠ [] := fun hnil => hl (hzero.mpr hnil)
        refine ⟨by split <;> omega, ?_, fun now hnow _ => ?_⟩
        · simp only [List.append_eq_nil_iff, List.cons_ne_nil, and_false, iff_false]
          split <;> omega
        · have hbefore := hlt now hnow hne
          rw [List.forall_mem_append, ← hbefore, List.forall_mem_singleton]
          split <;> omega

/-- **When a query with these times is found.** -/
theorem lt_expiry_iff {l : List Int} {now : Int} (hnow : 0 ≤ now) : now < expiry l ↔ Served now l := by
  by_cases hl : ∀ e ∈ l, 0 ≤ e
  · obtain ⟨hpos, hzero, hlt⟩ := expiry_spec hl
    by_cases hne : sinceZero l = []
    · rw [hzero.mpr hne]
      exact ⟨fun h => by omega, fun h => absurd hne h.2.1⟩
    · exact (hlt now hnow hne).trans ⟨fun h => ⟨hl, hne, h⟩, fun h => h.2.2⟩
  · have hneg : expiry l < 0 := by
      refine expiry_neg ?_
      push Not at hl
      obtain ⟨e, he, hlt⟩ := hl
      exact ⟨e, he, by omega⟩
    exact ⟨fun h => by omega, fun h => absurd h.1 hl⟩

/-- The time passes. -/
theorem Served.mono {l : List Int} {now now' : Int} (h : Served now' l) (hle : now ≤ now') :
    Served now l := ⟨h.1, h.2.1, fun e he => by have := h.2.2 e he; omega⟩

/-! ### The parser -/

section Follows

variable {α β : Type} {x : Fill α} {p : Parser α} {k : α → Fill β} {k' : α → Parser β}

theorem fill_bind (x : Fill α) (k : α → Fill β) (f : Filling) : (x >>= k).run f =
    match x.run f with
    | .ok a f' => (k a).run f'
    | .error e f' => .error e f' := by
  show EStateM.bind x k f = _
  rw [EStateM.bind, EStateM.run]
  cases x f <;> rfl

/-- What the parser says of a run. -/
def res : EStateM.Result Fault Filling α → Res α
  | .ok a f => .done a f.st
  | .error (.raised what) _ => .raised what
  | .error .outside _ => .outside
  | .error .spins _ => .spins

/-- The runs of `x` are those of the parser. -/
def Follows (x : Fill α) (p : Parser α) : Prop := ∀ f, p f.st = res (x.run f)

theorem Follows.bind (hx : Follows x p) (hk : ∀ a, Follows (k a) (k' a)) :
    Follows (x >>= k) (p >>= k') := by
  intro f
  rw [fill_bind]
  rw [Parser.bind_apply, hx f]
  cases x.run f with
  | ok a f' => exact hk a f'
  | error e f' => cases e <;> rfl

theorem follows_item (p : Parser α) : Follows (item p) p := by
  intro f
  rw [EStateM.run, item]
  cases p f.st with
  | done a st => rfl
  | raised what => rfl
  | outside => rfl
  | spins => rfl

theorem follows_addRecord (clock : Clock) (put : ResourceRecord → Query → Query)
    (a : ResourceRecord) : Follows (addRecord clock put a) (addToQuery (put a)) := fun _ => rfl

theorem follows_addQuestion (q : Question) : Follows (addQuestion q)
    (addToQuery fun y => { y with question := y.question ++ [q] }) := fun _ => rfl

theorem Follows.forTimes {x : Fill Unit} {p : Parser Unit} (h : Follows x p) :
    ∀ n, Follows (forTimes n x) (forCount n p)
  | 0 => fun _ => rfl
  | n + 1 => h.bind fun _ => Follows.forTimes h n

/-- **The parser with a query that stays is the parser.** -/
theorem follows_parse (m : Octets) (fuel : Nat) (clock : Clock) :
    Follows (parseInto m fuel clock) (parse m fuel) := by
  refine (follows_item _).bind fun c => ?_
  refine (((follows_item _).bind fun q => follows_addQuestion q).forTimes _).bind fun _ => ?_
  refine (((follows_item _).bind fun r => follows_addRecord clock _ r).forTimes _).bind fun _ => ?_
  refine (((follows_item _).bind fun r => follows_addRecord clock _ r).forTimes _).bind fun _ => ?_
  exact ((follows_item _).bind fun r => follows_addRecord clock _ r).forTimes _

end Follows

/-! ### Records do not change the query -/

section Frame

variable {α β : Type} {p : Parser α} {k : α → Parser β} (m : Octets) (fuel : Nat)

/-- Only the offset is changed. -/
def Frame (p : Parser α) : Prop := ∀ s a s', p s = .done a s' → s'.query = s.query

theorem frame_pure (a : α) : Frame (pure a : Parser α) := by
  rintro s _ _ ⟨⟩
  rfl

theorem frame_raise (what : String) : Frame (raise what : Parser α) := by
  rintro s _ _ ⟨⟩

theorem frame_spin : Frame (spin : Parser α) := by
  rintro s _ _ ⟨⟩

theorem done_of_bind {s s' : St} {b : β} (h : (p >>= k) s = .done b s') :
    ∃ a s1, p s = .done a s1 ∧ k a s1 = .done b s' := by
  rw [Parser.bind_apply] at h
  cases hrun : p s with
  | done a s1 =>
    rw [hrun] at h
    exact ⟨a, s1, rfl, h⟩
  | raised what =>
    rw [hrun] at h
    cases h
  | outside =>
    rw [hrun] at h
    cases h
  | spins =>
    rw [hrun] at h
    cases h

theorem Frame.bind (hp : Frame p) (hk : ∀ a, Frame (k a)) : Frame (p >>= k) := by
  intro s b s' h
  obtain ⟨a, s1, hrun, hb⟩ := done_of_bind h
  rw [hk a s1 b s' hb, hp s a s1 hrun]

theorem Frame.ite {c : Prop} [Decidable c] {q : Parser α} (hp : Frame p) (hq : Frame q) :
    Frame (if c then p else q) := by
  by_cases hc : c
  · rwa [if_pos hc]
  · rwa [if_neg hc]

theorem frame_getOffset : Frame getOffset := by
  rintro s _ _ ⟨⟩
  rfl

theorem frame_getPointer : Frame (getPointer m) := by
  rintro s _ _ ⟨⟩
  rfl

theorem frame_incrementOffset (len : Nat) : Frame (incrementOffset m len) := by
  rintro s _ _ ⟨⟩
  rfl

theorem frame_deref (ptr : Option Nat) (i : Nat) : Frame (deref m ptr i) := by
  intro s a s' h
  rw [deref] at h
  split at h
  · cases h
    rfl
  · exact absurd h nofun

theorem frame_copy (ptr : Option Nat) (len : Nat) : Frame (copy m ptr len) := by
  intro s a s' h
  unfold copy at h
  split at h
  · cases h
    rfl
  · split at h
    · split at h
      · cases h
        rfl
      · exact absurd h nofun
    · exact absurd h nofun

theorem frame_getInt16 (ptr : Option Nat) (i : Nat) : Frame (getInt16 m ptr i) :=
  (frame_deref m ptr i).bind fun _ => (frame_deref m ptr (i + 1)).bind fun _ => frame_pure _

theorem frame_getInt32 (ptr : Option Nat) (i : Nat) : Frame (getInt32 m ptr i) :=
  (frame_deref m ptr i).bind fun _ => (frame_deref m ptr (i + 1)).bind fun _ =>
    (frame_deref m ptr (i + 2)).bind fun _ => (frame_deref m ptr (i + 3)).bind fun _ => frame_pure _

theorem frame_nameLoop (st : NameState) : Frame (nameLoop m fuel st) := by
  induction fuel generalizing st with
  | zero => exact frame_spin
  | succ fuel ih =>
    rw [nameLoop]
    refine (frame_deref m st.ptr 0).bind fun b => ?_
    refine (frame_pure st).ite ?_
    cases labelLength b with
    | some val =>
      refine (frame_raise _).ite ?_
      exact (frame_copy m _ val).bind fun label => (frame_deref m _ 0).bind fun b' => ih _
    | none =>
      exact ((frame_deref m st.ptr 1).bind fun b1 => ih _).ite (frame_raise _)

theorem frame_parseDomainName : Frame (parseDomainName m fuel) :=
  frame_getOffset.bind fun _ => (frame_getPointer m).bind fun _ =>
    (frame_nameLoop m fuel _).bind fun _ => (frame_incrementOffset m _).bind fun _ => frame_pure _

theorem frame_parseCharacterString : Frame (parseCharacterString m) :=
  (frame_getPointer m).bind fun _ => (frame_deref m _ 0).bind fun _ =>
    (frame_incrementOffset m 1).bind fun _ => (frame_getPointer m).bind fun _ =>
      (frame_copy m _ _).bind fun _ => (frame_incrementOffset m _).bind fun _ => frame_pure _

theorem frame_parseAddress (what : String) (size : Nat) (r : Fixed) (rdata : Option Nat) :
    Frame (parseAddress m what size r rdata) :=
  (frame_raise _).ite ((frame_copy m rdata size).bind fun _ =>
    (frame_incrementOffset m r.rdlength).bind fun _ => frame_pure _)

theorem frame_parseSRV (r : Fixed) (rdata : Option Nat) : Frame (parseSRV m fuel r rdata) :=
  (frame_getInt16 m rdata 0).bind fun _ => (frame_getInt16 m rdata 2).bind fun _ =>
    (frame_getInt16 m rdata 4).bind fun _ => (frame_incrementOffset m 6).bind fun _ =>
      (frame_parseDomainName m fuel).bind fun _ => frame_pure _

theorem frame_parseNAPTR (r : Fixed) (rdata : Option Nat) : Frame (parseNAPTR m fuel r rdata) :=
  (frame_getInt16 m rdata 0).bind fun _ => (frame_getInt16 m rdata 2).bind fun _ =>
    (frame_incrementOffset m 4).bind fun _ => (frame_parseCharacterString m).bind fun _ =>
      (frame_parseCharacterString m).bind fun _ => (frame_parseCharacterString m).bind fun _ =>
        (frame_parseDomainName m fuel).bind fun _ => frame_pure _

theorem frame_parseFixed : Frame (parseFixed m fuel) :=
  (frame_parseDomainName m fuel).bind fun _ => (frame_getPointer m).bind fun _ =>
    (frame_getInt16 m _ 0).bind fun _ => (frame_getInt16 m _ 2).bind fun _ =>
      (frame_getInt32 m _ 4).bind fun _ => (frame_getInt16 m _ 8).bind fun _ =>
        (frame_incrementOffset m 10).bind fun _ => frame_pure _

theorem frame_parseResourceRecord : Frame (parseResourceRecord m fuel) := by
  refine (frame_parseFixed m fuel).bind fun r => (frame_getPointer m).bind fun rdata => ?_
  have haddress : ∀ what size, Frame (parseAddress m what size r rdata) :=
    fun what size => frame_parseAddress m what size r rdata
  have hname := frame_parseDomainName m fuel
  refine Frame.ite ((haddress _ 4).bind fun _ => frame_pure _) ?_
  refine Frame.ite (hname.bind fun _ => frame_pure _) ?_
  refine Frame.ite (hname.bind fun _ => frame_pure _) ?_
  refine Frame.ite ((haddress _ 16).bind fun _ => frame_pure _) ?_
  refine Frame.ite (frame_parseSRV m fuel r rdata) ?_
  refine Frame.ite (frame_parseNAPTR m fuel r rdata) ?_
  exact (frame_incrementOffset m r.rdlength).bind fun _ => frame_pure _

theorem frame_parseQuestion : Frame (parseQuestion m fuel) :=
  (frame_parseDomainName m fuel).bind fun _ => (frame_getPointer m).bind fun _ =>
    (frame_getInt16 m _ 0).bind fun _ => (frame_getInt16 m _ 2).bind fun _ =>
      (frame_incrementOffset m 4).bind fun _ => frame_pure _

theorem frame_parseHeader : Frame (parseHeader m) :=
  (frame_getPointer m).bind fun _ => (frame_getInt16 m _ 4).bind fun _ =>
    (frame_getInt16 m _ 6).bind fun _ => (frame_getInt16 m _ 8).bind fun _ =>
      (frame_getInt16 m _ 10).bind fun _ => (frame_incrementOffset m 12).bind fun _ => frame_pure _

end Frame

/-! ### What a filling query has -/

section Leads

variable {α β : Type} {clock : Clock} {I J K : Filling → Prop}

/-- From `I` to `J`, also when an exception is thrown. -/
def Leads (I J : Filling → Prop) (x : Fill α) : Prop := ∀ f, I f → match x.run f with
  | .ok _ f' => J f'
  | .error _ f' => J f'

theorem Leads.bind {x : Fill α} {k : α → Fill β} (hx : Leads I J x) (hJK : ∀ f, J f → K f)
    (hk : ∀ a, Leads J K (k a)) : Leads I K (x >>= k) := by
  intro f hf
  have hx := hx f hf
  rw [fill_bind]
  cases hrun : x.run f with
  | ok a f1 =>
    rw [hrun] at hx
    exact hk a f1 hx
  | error e f1 =>
    rw [hrun] at hx
    exact hJK f1 hx

theorem Leads.forTimes {x : Fill Unit} (h : Leads I I x) : ∀ n, Leads I I (forTimes n x)
  | 0 => fun _ hf => hf
  | n + 1 => h.bind (fun _ hf => hf) fun _ => Leads.forTimes h n

/-- A function of the parser changes only the offset. -/
theorem leads_item {p : Parser α} (hp : Frame p)
    (hI : ∀ f st, st.query = f.st.query → I f → I { f with st := st }) : Leads I I (item p) := by
  intro f hf
  rw [EStateM.run, item]
  cases hrun : p f.st with
  | done a st => exact hI f st (hp f.st a st hrun) hf
  | raised what => exact hf
  | outside => exact hf
  | spins => exact hf

/-- The times are those of the records of the query. -/
structure Timed (clock : Clock) (f : Filling) : Prop where
  m_expires : f.m_expires = expiry f.expires
  expires : f.expires = f.st.query.records.mapIdx fun i r => clock i + r.ttl

/-- So far there are no authorities, and no additional records. -/
def BeforeAuthority (clock : Clock) (f : Filling) : Prop :=
  Timed clock f ∧ f.st.query.authority = [] ∧ f.st.query.additional = []

def BeforeAdditional (clock : Clock) (f : Filling) : Prop :=
  Timed clock f ∧ f.st.query.additional = []

/-- A record that becomes the last one. -/
theorem Timed.add {f : Filling} (h : Timed clock f) (put : ResourceRecord → Query → Query)
    {a : ResourceRecord} (hput : (put a f.st.query).records = f.st.query.records ++ [a]) :
    ∃ f', (addRecord clock put a).run f = .ok () f' ∧ f'.st.query = put a f.st.query ∧
      Timed clock f' := by
  have hlength : f.expires.length = f.st.query.records.length := by
    rw [h.expires, List.length_mapIdx]
  refine ⟨_, rfl, rfl, ?_, ?_⟩
  · show (if _ then _ else _) = _
    rw [h.m_expires, expiry_concat]
  · show f.expires ++ [_] = List.mapIdx _ (put a f.st.query).records
    rw [hput, List.mapIdx_append, ← h.expires, hlength]
    simp

theorem Timed.same {f : Filling} {st : St} (hq : st.query = f.st.query) (h : Timed clock f) :
    Timed clock { f with st := st } :=
  ⟨h.m_expires, by rw [hq]; exact h.expires⟩

theorem BeforeAuthority.same {f : Filling} {st : St} (hq : st.query = f.st.query)
    (h : BeforeAuthority clock f) : BeforeAuthority clock { f with st := st } := by
  refine ⟨h.1.same hq, ?_⟩
  rw [hq]
  exact h.2

theorem BeforeAdditional.same {f : Filling} {st : St} (hq : st.query = f.st.query)
    (h : BeforeAdditional clock f) : BeforeAdditional clock { f with st := st } := by
  refine ⟨h.1.same hq, ?_⟩
  rw [hq]
  exact h.2

theorem leads_addAnswer (a : ResourceRecord) :
    Leads (BeforeAuthority clock) (BeforeAuthority clock) (addAnswer clock a) := by
  rintro f ⟨ht, hau, had⟩
  obtain ⟨f', hrun, hq, ht'⟩ := ht.add
    (fun a y => { y with answer := y.answer ++ [a] }) (a := a) (by simp [Query.records, hau, had])
  rw [addAnswer, hrun]
  refine ⟨ht', ?_, ?_⟩
  · rw [hq]
    exact hau
  · rw [hq]
    exact had

theorem leads_addAuthority (a : ResourceRecord) :
    Leads (BeforeAdditional clock) (BeforeAdditional clock) (addAuthority clock a) := by
  rintro f ⟨ht, had⟩
  obtain ⟨f', hrun, hq, ht'⟩ := ht.add
    (fun a y => { y with authority := y.authority ++ [a] }) (a := a) (by simp [Query.records, had])
  rw [addAuthority, hrun]
  refine ⟨ht', ?_⟩
  rw [hq]
  exact had

theorem leads_addAdditional (a : ResourceRecord) :
    Leads (Timed clock) (Timed clock) (addAdditional clock a) := by
  intro f ht
  obtain ⟨f', hrun, _, ht'⟩ := ht.add
    (fun a y => { y with additional := y.additional ++ [a] }) (a := a) (by simp [Query.records])
  rw [addAdditional, hrun]
  exact ht'

theorem leads_addQuestion (q : Question) :
    Leads (BeforeAuthority clock) (BeforeAuthority clock) (addQuestion q) :=
  fun _ h => ⟨⟨h.1.m_expires, h.1.expires⟩, h.2⟩

/-- **The times are right at any time.** -/
theorem leads_parse (m : Octets) (fuel : Nat) (clock : Clock) :
    Leads (BeforeAuthority clock) (Timed clock) (parseInto m fuel clock) := by
  have hrecord := frame_parseResourceRecord m fuel
  have hquestions := ((leads_item (frame_parseQuestion m fuel) fun _ _ => BeforeAuthority.same).bind
    (fun _ h => h) (@leads_addQuestion clock)).forTimes
  have hanswers := ((leads_item hrecord fun _ _ => BeforeAuthority.same).bind
    (fun _ h => h) (@leads_addAnswer clock)).forTimes
  have hauthorities := ((leads_item hrecord fun _ _ => BeforeAdditional.same).bind
    (fun _ h => h) (@leads_addAuthority clock)).forTimes
  have hadditionals := ((leads_item hrecord fun _ _ => Timed.same).bind
    (fun _ h => h) (@leads_addAdditional clock)).forTimes
  refine (leads_item (frame_parseHeader m) fun _ _ => BeforeAuthority.same).bind
    (fun _ h => h.1) fun c => ?_
  refine (hquestions c.qd).bind (fun _ h => h.1) fun _ => ?_
  refine (hanswers c.an).bind (fun _ h => h.1) fun _ => ?_
  refine Leads.bind (J := BeforeAdditional clock) ?_ (fun _ h => h.1) fun _ => ?_
  · exact fun f h => hauthorities c.ns f ⟨h.1, h.2.2⟩
  · exact fun f h => hadditionals c.ar f h.1

theorem beforeAuthority_init : BeforeAuthority clock Filling.init :=
  ⟨⟨rfl, rfl⟩, rfl, rfl⟩

end Leads

/-! ### What is stored -/

section Stored

variable {fuel status : Nat} {clock : Clock} {abuf : Octets} {now t : Int} {key : QueryCacheKey}

/-- A hit at `t` would be right. -/
def RightAt (status fuel : Nat) (clock : Clock) (abuf : Octets) (t : Int) (q : CachedQuery) : Prop :=
  status = aresSuccess ∧ (∃ st, parse abuf fuel St.init = .done () st ∧ q.query = st.query) ∧
    ∀ i r, q.query.records[i]? = some r → t < clock i + r.ttl

/-- All records, by their times. -/
theorem Timed.forall_iff {f : Filling} (h : Timed clock f) :
    (∀ i r, f.st.query.records[i]? = some r → t < clock i + r.ttl) ↔ ∀ e ∈ f.expires, t < e := by
  rw [h.expires]
  constructor
  · intro hall e he
    obtain ⟨i, hi, rfl⟩ := List.mem_mapIdx.mp he
    exact hall i _ (List.getElem?_eq_getElem hi)
  · intro hall i r hr
    refine hall _ (List.mem_mapIdx.mpr ?_)
    obtain ⟨hi, hr⟩ := List.getElem?_eq_some_iff.mp hr
    exact ⟨i, hi, by rw [hr]⟩

/-- **The hits on a query are right exactly if its response was fine.** -/
theorem stored_iff (hnow : 0 ≤ now) {q : CachedQuery} (h : process fuel clock status abuf = .ok q) :
    (∀ t, now ≤ t → t < q.m_expires → RightAt status fuel clock abuf t q) ↔
      (Action.processed key (.answered status abuf) fuel clock now).Fine := by
  have htimed := leads_parse abuf fuel clock Filling.init beforeAuthority_init
  have hparse : parse abuf fuel St.init = _ := follows_parse abuf fuel clock Filling.init
  rw [process] at h
  rw [Action.Fine]
  revert h htimed hparse
  match (parseInto abuf fuel clock).run Filling.init with
  | .error .outside f => exact fun h => absurd h nofun
  | .error .spins f => exact fun h => absurd h nofun
  | .error (.raised what) f =>
    intro h htimed hparse
    obtain rfl := Except.ok.inj h
    have hserved : ∀ t, now ≤ t → (t < f.built.m_expires ↔ Served t f.expires) := by
      intro t ht
      rw [← lt_expiry_iff (by omega), ← htimed.m_expires]
      rfl
    constructor
    · intro hright hs
      obtain ⟨_, ⟨st, hst, _⟩, _⟩ := hright now (by omega) ((hserved now (by omega)).mpr hs)
      rw [hparse] at hst
      exact absurd hst nofun
    · intro hs t ht hlt
      exact absurd (((hserved t ht).mp hlt).mono ht) hs
  | .ok () f =>
    intro h htimed hparse
    obtain rfl := Except.ok.inj h
    have hserved : ∀ t, now ≤ t → (t < f.built.m_expires ↔ Served t f.expires) := by
      intro t ht
      rw [← lt_expiry_iff (by omega), ← htimed.m_expires]
      rfl
    constructor
    · intro hright hs
      obtain ⟨hstatus, _, hall⟩ := hright now (by omega) ((hserved now (by omega)).mpr hs)
      refine ⟨hstatus, fun h0 => ?_⟩
      have := htimed.forall_iff.mp hall 0 h0
      omega
    · intro hfine t ht hlt
      have hs := (hserved t ht).mp hlt
      obtain ⟨hstatus, h0⟩ := hfine (hs.mono ht)
      refine ⟨hstatus, ⟨f.st, hparse, rfl⟩, htimed.forall_iff.mpr ?_⟩
      have hafter := hs.2.2
      rwa [sinceZero_of_not_mem h0] at hafter

end Stored

/-! ### Runs -/

section Runs

variable {c c' : Cache} {key : QueryCacheKey} {now t : Int} {q : CachedQuery}

theorem Cache.Right.mono (h : c.Right key t q) (hle : ∀ x ∈ c.finished, x ∈ c'.finished) :
    c'.Right key t q := by
  obtain ⟨abuf, clock, hmem, hright⟩ := h
  exact ⟨abuf, clock, hle _ hmem, hright⟩

/-- Hits are right, now and later. -/
structure Cache.Inv (c : Cache) : Prop where
  now : 0 ≤ c.now
  right : ∀ {key q t}, c.m_cache key = some q → c.now ≤ t → t < q.m_expires → c.Right key t q

theorem inv_init : Cache.init.Inv := ⟨Int.le_refl 0, fun h => absurd h nofun⟩

/-- A query that is put into the cache. -/
theorem right_of_execute {resolved : Resolved} {fuel : Nat} {clock : Clock} (hnow : 0 ≤ now)
    (hfine : (Action.processed key resolved fuel clock now).Fine)
    (h : execute fuel clock resolved = .ok (some q)) (ht : now ≤ t) (hlt : t < q.m_expires)
    (hmem : (key, resolved, clock) ∈ c.finished) : c.Right key t q := by
  cases resolved with
  | notInitialised => exact absurd (Except.ok.inj h) nofun
  | silent =>
    -- nothing was added, so that the time of the query is not set
    obtain rfl := Option.some.inj (Except.ok.inj h)
    have hlt : t < 0 := hlt
    omega
  | answered status abuf =>
    have hprocess : process fuel clock status abuf = .ok q := by
      rw [execute] at h
      cases hp : process fuel clock status abuf with
      | error e =>
        rw [hp] at h
        exact absurd h nofun
      | ok q' =>
        rw [hp] at h
        exact congrArg Except.ok (Option.some.inj (Except.ok.inj h))
    obtain ⟨rfl, ⟨st, hst, hq⟩, hall⟩ := (stored_iff hnow hprocess).mpr hfine t ht hlt
    exact ⟨abuf, clock, hmem, ⟨fuel, st, hst, hq⟩, hall⟩

/-- One action. -/
theorem inv_step (hinv : c.Inv) {a : Action} (hfine : a.Fine) (h : c.step a = some c') :
    c'.Inv := by
  have hpos := hinv.now
  cases a with
  | query key now =>
    rw [Cache.step] at h
    split at h
    · exact absurd h nofun
    · split at h
      all_goals
        obtain rfl := Option.some.inj h
        refine ⟨?_, fun {key q t} hkey ht hlt => ?_⟩
        · show 0 ≤ now
          omega
        · have ht : now ≤ t := ht
          exact (hinv.right hkey (by omega) hlt).mono fun _ hx => hx
  | processed key resolved fuel clock now =>
    rw [Cache.step] at h
    split at h
    · exact absurd h nofun
    · rename_i hstart
      push Not at hstart
      cases hrun : execute fuel clock resolved with
      | error e =>
        rw [hrun] at h
        exact absurd h nofun
      | ok r =>
        rw [hrun] at h
        obtain rfl := Option.some.inj h
        have hnow : 0 ≤ now := by omega
        refine ⟨hnow, fun {key' q t} hkey ht hlt => ?_⟩
        have ht : now ≤ t := ht
        have hold : c.m_cache key' = some q → Cache.Right ⟨c.store key r, now, c.running.erase key,
            (key, resolved, clock) :: c.finished⟩ key' t q := fun hkey =>
          (hinv.right hkey (by omega) hlt).mono fun x hx => List.mem_cons_of_mem _ hx
        have hkey : c.store key r key' = some q := hkey
        cases r with
        | none => exact hold hkey
        | some q' =>
          rw [Cache.store] at hkey
          by_cases hk : key' = key
          · subst hk
            rw [Function.update_self] at hkey
            obtain rfl := Option.some.inj hkey
            exact right_of_execute hnow hfine hrun ht hlt List.mem_cons_self
          · rw [Function.update_of_ne hk] at hkey
            exact hold hkey

/-- The runs whose responses are all fine. -/
abbrev FineRun : Cache → Cache → Prop :=
  Steps.Reaches (fun c a c' => c.step a = some c') fun _ a => a.Fine

/-- **In a run with fine responses, every hit is the complete parse of a successful response for its
key, and no record of it has outlived its TTL.** -/
theorem hits_right (h : FineRun Cache.init c) (hnow : c.now ≤ now)
    (hhit : c.query key now = (some q, true)) : c.Right key now q := by
  have hinv : c.Inv := h.invariant inv_init fun _ _ _ hi hfine hs => inv_step hi hfine hs
  have hq : c.m_cache key = some q := congrArg Prod.fst hhit
  refine hinv.right hq hnow ?_
  have hexp : ((c.m_cache key).any fun q => !q.isExpired now) = true := congrArg Prod.snd hhit
  rw [hq] at hexp
  have hexp : (!decide (now ≥ q.m_expires)) = true := hexp
  rw [Bool.not_eq_true', decide_eq_false_iff_not] at hexp
  omega

end Runs

/-! ### Two responses -/

/-- Type A of the host "a". -/
def sampleKey : QueryCacheKey := ⟨nsTA, [0x61]⟩

/-- The address 10.0.0.1, for a minute. -/
def sampleAnswer : Octets :=
  [0, 0, 0x81, 0x80, 0, 1, 0, 1, 0, 0, 0, 0] ++ [1, 0x61, 0, 0, 1, 0, 1] ++
    [0xc0, 12, 0, 1, 0, 1, 0, 0, 0, 60, 0, 4, 10, 0, 0, 1]

/-- "Name Error", with the SOA record of the root for a minute. -/
def sampleNxDomain : Octets :=
  [0, 0, 0x81, 0x83, 0, 1, 0, 0, 0, 1, 0, 0] ++ [1, 0x61, 0, 0, 1, 0, 1] ++
    [0, 0, 6, 0, 1, 0, 0, 0, 60, 0, 22] ++ List.replicate 22 0

/-- A query that is resolved at once, at the time 100. -/
def sampleRun (status : Nat) (abuf : Octets) : List Action :=
  [.query sampleKey 100, .processed sampleKey (.answered status abuf) 9 (fun _ => 100) 100]

/-- The cache after it. -/
def sampleCache (status : Nat) (abuf : Octets) : Cache :=
  (Steps.runAll Cache.step (sampleRun status abuf) Cache.init).getD Cache.init

theorem hits_right_sample : ∃ q, (sampleCache aresSuccess sampleAnswer).query sampleKey 110 =
    (some q, true) ∧ (sampleCache aresSuccess sampleAnswer).Right sampleKey 110 q := by
  have hserved : FineEnd aresSuccess 100
      ((parseInto sampleAnswer 9 fun _ => 100).run Filling.init) := by decide +kernel
  have hsteps : Steps.runAll Cache.step (sampleRun aresSuccess sampleAnswer) Cache.init =
      some (sampleCache aresSuccess sampleAnswer) := rfl
  have hrun : FineRun Cache.init (sampleCache aresSuccess sampleAnswer) := by
    refine Steps.Reaches.of_runAll Cache.step (fun _ a => a.Fine) (fun a ha _ => ?_) hsteps
    rcases List.mem_pair.mp ha with rfl | rfl
    · trivial
    · exact hserved
  have hhit : ∃ q, (sampleCache aresSuccess sampleAnswer).query sampleKey 110 = (some q, true) :=
    ⟨_, rfl⟩
  obtain ⟨q, hq⟩ := hhit
  exact ⟨q, hq, hits_right hrun (by decide) hq⟩

/-- A negative response is served. -/
theorem nxDomain_served : ∃ c q, Steps.Reaches (fun c a c' => Cache.step c a = some c')
    (fun _ _ => True) Cache.init c ∧ c.now ≤ 110 ∧ c.query sampleKey 110 = (some q, true) ∧
      ¬ c.Right sampleKey 110 q := by
  have hsteps : Steps.runAll Cache.step (sampleRun 4 sampleNxDomain) Cache.init =
      some (sampleCache 4 sampleNxDomain) := rfl
  refine ⟨sampleCache 4 sampleNxDomain, _, ?_, by decide, rfl, ?_⟩
  · exact Steps.Reaches.of_runAll Cache.step _ (fun _ _ _ => trivial) hsteps
  · rintro ⟨abuf, clock, hmem, -⟩
    have hfinished : (sampleCache 4 sampleNxDomain).finished =
        [(sampleKey, .answered 4 sampleNxDomain, fun _ => 100)] := rfl
    rw [hfinished, List.mem_singleton] at hmem
    have hstatus : aresSuccess = 4 := (Resolved.answered.inj (congrArg (fun x => x.2.1) hmem)).1
    exact absurd hstatus (by decide)

end OpenairHss.Dns
