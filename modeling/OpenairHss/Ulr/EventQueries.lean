import OpenairHss.Lib.ControlBreak
import OpenairHss.Lib.Csv
import OpenairHss.Ulr.Processor
import Mathlib.Data.List.Dedup
import Mathlib.Data.Prod.Lex
import Mathlib.Data.String.Basic

/-!
# The queries of `getEvents`

`getEvents ()` sorts the event ids and asks for those of one SCEF after the other.  The loop is a
control break that is begun with an empty SCEF id and never sets it to that of the first event, so
the first event is asked for at the SCEF with the empty id.

* `calls_eventsLoop`: the calls are the groups of the control break, up to a call that is refused.
* `covered_iff`: queries with different SCEF ids ask for the events in their rows.
* `getEvents_covered`: when each event is asked for once, at its own SCEF.
-/

namespace OpenairHss.Ulr

open Interact Processor ControlBreak

/-! ### The calls of a piece of code -/

/-- The call was not refused. -/
def taken : RegKind → Bool
  | .failed => false
  | .async | .inline => true

/-- One operation, with the calls so far; `reg i` says what becomes of call number `i`. -/
def recorded (db : Nat → (act : kind.Act) → kind.Fut act) (reg : Nat → RegKind) (o : Op kind)
    (s : Core kind × List kind.Act) : Option (o.Res × (Core kind × List kind.Act)) :=
  ((⟨db s.2.length, fun _ => reg s.2.length, fun _ => none⟩ : Env kind).reply s.1 o).map fun r =>
    (r, s.1.effect o r, match o with
      | .register act => s.2 ++ [act]
      | _ => s.2)

/-- The list up to the first call that is refused, which has the number `n` or a greater one. -/
def upToRefused {α : Type} (reg : Nat → RegKind) : Nat → List α → List α
  | _, [] => []
  | n, a :: as => a :: if taken (reg n) then upToRefused reg (n + 1) as else []

/-- The query for some events of a SCEF. -/
def queryOf (g : String × List Nat) : kind.Act := (.getEvntsEvntids, getEventsText g.1 g.2)

/-- An event id as a row of the control break. -/
def EventId.row (id : EventId) : String × Nat := (id.scef_id, id.scef_ref_id)

section Calls

variable (db : Nat → (act : kind.Act) → kind.Fut act) (reg : Nat → RegKind)

theorem calls_issue (scef_id : String) (refs : List Nat) (c : Core kind) (calls : List kind.Act) :
    ∃ c', (issue (K := kind) (queryOf (scef_id, refs)) onEvents).exec (recorded db reg) (c, calls) =
      some (taken (reg calls.length), c', calls ++ [queryOf (scef_id, refs)]) := by
  have hregister : (register (K := kind) (queryOf (scef_id, refs))).exec (recorded db reg) (c, calls) =
      recorded db reg (.register (queryOf (scef_id, refs))) (c, calls) := Prog.exec_perform _ _ _
  unfold issue
  rw [Prog.bind_eq, Prog.exec_bind, hregister, recorded, Env.reply]
  cases reg calls.length with
  | failed => exact ⟨_, rfl⟩
  | async => exact ⟨_, rfl⟩
  | inline => exact ⟨_, rfl⟩

/-- A query is one call. -/
theorem calls_issueEvents (scef_id : String) (refs : List Nat) (c : Core kind)
    (calls : List kind.Act) :
    ∃ c', (issueEvents scef_id refs).exec (recorded db reg) (c, calls) =
      some (taken (reg calls.length), c', calls ++ [queryOf (scef_id, refs)]) := by
  obtain ⟨c', hc'⟩ := calls_issue db reg scef_id refs
    { c with m_dbissued := c.m_dbissued + 1 } calls
  have hissue := Prog.exec_bind (recorded db reg)
    (issue (K := kind) (queryOf (scef_id, refs)) onEvents)
    (fun success => if success then return true
      else do
        failAll [Db.getEvntsEvntids.item]
        decDbissued
        return false)
    ({ c with m_dbissued := c.m_dbissued + 1 }, calls)
  rw [hc', Option.bind_some] at hissue
  refine (exists_congr fun _ => Eq.congr_left hissue).mpr ?_
  cases taken (reg calls.length) with
  | true => exact ⟨_, rfl⟩
  | false => exact ⟨_, rfl⟩

/-- **The calls of the loop** are the groups of a control break, up to one that is refused. -/
theorem calls_eventsLoop (ids : List EventId) (scef_id : String) (refs : List Nat) (c : Core kind)
    (calls : List kind.Act) :
    ∃ c', (eventsLoop ids scef_id refs).exec (recorded db reg) (c, calls) =
      some ((), c', calls ++
        upToRefused reg calls.length ((groups (ids.map EventId.row) scef_id refs).map queryOf)) := by
  induction ids generalizing scef_id refs c calls with
  | nil =>
    rw [eventsLoop, List.map_nil, groups]
    by_cases h : refs.length > 0
    · obtain ⟨c', hc'⟩ := calls_issueEvents db reg scef_id refs c calls
      refine ⟨c', ?_⟩
      rw [if_pos h, if_pos h, Prog.bind_eq, Prog.exec_bind, hc']
      cases taken (reg calls.length) <;> simp [upToRefused]
    · exact ⟨c, by simp [h, upToRefused]⟩
  | cons id ids ih =>
    rw [eventsLoop, List.map_cons]
    by_cases h : scef_id ≠ id.scef_id ∧ refs.length > 0
    · obtain ⟨c', hc'⟩ := calls_issueEvents db reg scef_id refs c calls
      have hgroups : groups (id.row :: ids.map EventId.row) scef_id refs =
          (scef_id, refs) :: groups (ids.map EventId.row) id.scef_id [id.scef_ref_id] := by
        rw [EventId.row, groups, if_pos h]
      rw [if_pos h, Prog.bind_eq, Prog.exec_bind, hc', hgroups, List.map_cons, upToRefused]
      cases htaken : taken (reg calls.length) with
      | false => exact ⟨c', by simp⟩
      | true =>
        obtain ⟨c'', hc''⟩ := ih id.scef_id [id.scef_ref_id] c'
          (calls ++ [queryOf (scef_id, refs)])
        refine ⟨c'', ?_⟩
        rw [List.length_append, List.append_assoc] at hc''
        exact hc''
    · have hgroups : groups (id.row :: ids.map EventId.row) scef_id refs =
          groups (ids.map EventId.row) scef_id (refs ++ [id.scef_ref_id]) := by
        rw [EventId.row, groups, if_neg h]
      rw [if_neg h, hgroups]
      exact ih scef_id (refs ++ [id.scef_ref_id]) c calls

/-- The calls of `getEvents ()`. -/
theorem calls_getEvents (c : Core kind) :
    ∃ c', getEvents.exec (recorded db reg) (c, []) = some ((), c', upToRefused reg 0
      ((groups ((c.data.evtIdLst.insertionSort EventId.le).map EventId.row) "" []).map queryOf)) := by
  by_cases h : c.data.evtIdLst.length = 0
  · have hnil : c.data.evtIdLst = [] := List.length_eq_zero_iff.mp h
    have hcalls : getEvents.exec (recorded db reg) (c, []) =
        (if c.data.evtIdLst.length = 0 then dbOpComplete Db.getEvntsEvntids.item true
          else _ : Proc kind Unit).exec (recorded db reg) (c, []) := rfl
    rw [hcalls, if_pos h, hnil]
    exact ⟨_, rfl⟩
  · obtain ⟨c', hc'⟩ := calls_eventsLoop db reg
      (c.data.evtIdLst.insertionSort EventId.le) "" []
      { c with data := { c.data with evtIdLst := c.data.evtIdLst.insertionSort EventId.le } } []
    refine ⟨c', ?_⟩
    rw [List.nil_append] at hc'
    rw [← List.length_nil (α := kind.Act), ← hc']
    have hcalls : getEvents.exec (recorded db reg) (c, []) =
        (if c.data.evtIdLst.length = 0 then _
          else updateData (K := kind) (fun d : Data =>
            { d with evtIdLst := d.evtIdLst.insertionSort EventId.le }) >>= fun _ =>
              readData (K := kind) >>= fun d : Data => eventsLoop d.evtIdLst "" [] :
          Proc kind Unit).exec (recorded db reg) (c, []) := rfl
    rw [hcalls, if_neg h]
    rfl

end Calls

section UpToRefused

variable {α : Type} (reg : Nat → RegKind)

theorem upToRefused_map {β : Type} (f : α → β) (n : Nat) (as : List α) :
    upToRefused reg n (as.map f) = (upToRefused reg n as).map f := by
  induction as generalizing n with
  | nil => rfl
  | cons a as ih =>
    rw [List.map_cons, upToRefused, upToRefused, ih, List.map_cons]
    cases taken (reg n) <;> rfl

theorem upToRefused_prefix (n : Nat) (as : List α) : upToRefused reg n as <+: as := by
  induction as generalizing n with
  | nil => exact List.prefix_rfl
  | cons a as ih =>
    rw [upToRefused]
    cases taken (reg n) with
    | false => exact ⟨as, rfl⟩
    | true => exact (List.prefix_cons_inj a).mpr (ih (n + 1))

/-- All calls are made exactly if no call before the last one is refused. -/
theorem upToRefused_eq_iff (n : Nat) (as : List α) :
    upToRefused reg n as = as ↔ ∀ i, i + 1 < as.length → taken (reg (n + i)) = true := by
  induction as generalizing n with
  | nil => exact iff_of_true rfl nofun
  | cons a as ih =>
    rw [upToRefused, List.cons_inj_right]
    constructor
    · intro h i hi
      rw [List.length_cons] at hi
      cases htaken : taken (reg n) with
      | false =>
        rw [htaken] at h
        have hnil : as = [] := h.symm
        rw [hnil, List.length_nil] at hi
        omega
      | true =>
        rw [htaken] at h
        cases i with
        | zero => exact htaken
        | succ i =>
          rw [← Nat.succ_add_eq_add_succ]
          exact (ih (n + 1)).mp h i (by omega)
    · intro h
      cases as with
      | nil => exact ite_self _
      | cons b bs =>
        have htaken : taken (reg n) = true := h 0 (by simp)
        rw [htaken, if_pos rfl]
        refine (ih (n + 1)).mpr fun i hi => ?_
        rw [Nat.succ_add_eq_add_succ]
        exact h (i + 1) (by rw [List.length_cons]; omega)

end UpToRefused

/-! ### The statement of a query -/

/-- The characters of numbers with commas between them. -/
def numerals (refs : List Nat) : List Char :=
  [','].intercalate (refs.map fun n => (toString n).toList)

theorem not_mem_numerals {c : Char} (hc : c.isDigit = false) (hcomma : c ≠ ',') (refs : List Nat) :
    c ∉ numerals refs := by
  induction refs with
  | nil => simp [numerals]
  | cons n refs ih =>
    cases refs with
    | nil =>
      rw [numerals, List.map_singleton, List.intercalate_singleton]
      exact Csv.not_mem_toString hc n
    | cons n' refs =>
      intro h
      rw [numerals, List.map_cons, List.map_cons, List.intercalate_cons_cons, List.append_assoc,
        List.mem_append, List.mem_append, List.mem_singleton] at h
      rcases h with h | h | h
      · exact Csv.not_mem_toString hc n h
      · exact hcomma h
      · exact ih h

theorem numerals_eq_nil {refs : List Nat} (h : numerals refs = []) : refs = [] := by
  cases refs with
  | nil => rfl
  | cons n refs =>
    have hn : (toString n).toList ≠ [] := by
      rw [show (toString n).toList = Nat.toDigits 10 n from Nat.toList_repr]
      exact Nat.toDigits_ne_nil
    cases refs with
    | nil =>
      rw [numerals, List.map_singleton, List.intercalate_singleton] at h
      exact absurd h hn
    | cons n' refs =>
      rw [numerals, List.map_cons, List.map_cons, List.intercalate_cons_cons, List.append_assoc] at h
      exact absurd (List.append_eq_nil_iff.mp h).1 hn

theorem numerals_injective {refs refs' : List Nat} (h : numerals refs = numerals refs') :
    refs = refs' := by
  have hline (refs : List Nat) : numerals refs = (Csv.line (refs.map toString)).toList := by
    rw [Csv.toList_line, List.map_map]
    rfl
  have hplain (refs : List Nat) : ∀ x ∈ refs.map toString, Csv.Plain x := by
    intro x hx
    obtain ⟨n, -, rfl⟩ := List.mem_map.mp hx
    exact Csv.plain_toString n
  by_cases hnil : refs = []
  · rw [hnil] at h
    rw [hnil, numerals_eq_nil h.symm]
  · have hnil' : refs' ≠ [] := by
      intro hnil'
      rw [hnil'] at h
      exact hnil (numerals_eq_nil h)
    rw [hline, hline] at h
    have hcells := Csv.line_injective (by simpa using hnil) (by simpa using hnil') (hplain refs)
      (hplain refs') (String.toList_injective h)
    exact List.map_injective_iff.mpr (fun _ _ => Csv.toString_injective) hcells

/-- Texts are equal if they are cut at the last occurrence of a character. -/
theorem append_cons_inj_of_not_mem {α : Type} {a : α} {xs xs' zs zs' : List α} (hz : a ∉ zs)
    (hz' : a ∉ zs') (h : xs ++ a :: zs = xs' ++ a :: zs') : xs = xs' ∧ zs = zs' := by
  have hnil : ∀ {ys ws ws' : List α}, a ∉ ws → a :: ws = ys ++ a :: ws' → ys = [] := by
    intro ys ws ws' hw heq
    cases ys with
    | nil => rfl
    | cons y ys =>
      rw [List.cons_append] at heq
      injection heq with _ htail
      exact absurd (htail ▸ List.mem_append_right ys List.mem_cons_self) hw
  rcases List.append_eq_append_iff.mp h with ⟨as, rfl, has⟩ | ⟨bs, rfl, hbs⟩
  · obtain rfl := hnil hz has
    exact ⟨(List.append_nil _).symm, (List.cons.inj has).2⟩
  · obtain rfl := hnil hz' hbs
    exact ⟨List.append_nil _, (List.cons.inj hbs).2.symm⟩

/-- The statement shows what is asked for. -/
theorem queryOf_injective {g g' : String × List Nat} (h : queryOf g = queryOf g') : g = g' := by
  have hchars : ∀ g : String × List Nat, (getEventsText g.1 g.2).toList =
      "SELECT * FROM events WHERE scef_id = '".toList ++ g.1.toList ++
        "' AND scef_ref_id = ".toList ++ '(' :: (numerals g.2 ++ [')']) := by
    intro g
    have hnumerals : (",".intercalate (g.2.map toString)).toList = numerals g.2 := by
      rw [String.toList_intercalate, List.map_map]
      rfl
    unfold getEventsText
    rw [String.toList_append, String.toList_append, String.toList_append, String.toList_append,
      hnumerals]
    simp
  have hnot : ∀ refs : List Nat, '(' ∉ numerals refs ++ [')'] := by
    intro refs hmem
    rcases List.mem_append.mp hmem with hmem | hmem
    · exact not_mem_numerals (by decide) (by decide) refs hmem
    · exact absurd hmem (by decide)
  have htext := congrArg String.toList (congrArg (fun act : Db × String => act.2) h)
  have hcut := append_cons_inj_of_not_mem (hnot g.2) (hnot g'.2)
    ((hchars g).symm.trans (htext.trans (hchars g')))
  have hid := List.append_cancel_left (List.append_cancel_right hcut.1)
  exact Prod.ext (String.toList_injective hid)
    (numerals_injective (List.append_cancel_right hcut.2))

/-! ### What is asked for -/

/-- A call asks for an event. -/
def Asks (act : kind.Act) (id : EventId) : Prop :=
  ∃ refs, act = queryOf (id.scef_id, refs) ∧ id.scef_ref_id ∈ refs

/-- Calls that ask for the events of a list. -/
structure Covered (calls : List kind.Act) (ids : List EventId) : Prop where
  /-- One call asks for each event. -/
  once : ∀ id ∈ ids, ∃! i : Fin calls.length, Asks calls[i] id
  /-- A call is a query for events of one SCEF, each as often as it is in the list. -/
  own : ∀ act ∈ calls, ∃ scef_id refs, act = queryOf (scef_id, refs) ∧
    ∀ ref, refs.count ref = ids.count ⟨scef_id, ref⟩

theorem row_injective : Function.Injective EventId.row := by
  rintro ⟨s, r⟩ ⟨s', r'⟩ h
  obtain ⟨rfl, rfl⟩ := Prod.mk.inj h
  rfl

/-- Queries with different SCEF ids ask for the events in their rows. -/
theorem covered_iff {gs : List (String × List Nat)} (hnodup : (gs.map Prod.fst).Nodup)
    {ids : List EventId} : Covered (gs.map queryOf) ids ↔ (ids.map EventId.row).Perm (rows gs) := by
  have hcount : ∀ (s : String) (r : Nat), (ids.map EventId.row).count (s, r) = ids.count ⟨s, r⟩ :=
    fun s r => List.count_map_of_injective ids _ row_injective ⟨s, r⟩
  constructor
  · intro h
    rw [List.perm_iff_count]
    rintro ⟨s, r⟩
    rw [hcount]
    by_cases hs : s ∈ gs.map Prod.fst
    · obtain ⟨g, hg, rfl⟩ := List.mem_map.mp hs
      obtain ⟨s', refs, hquery, hrefs⟩ := h.own _ (List.mem_map_of_mem hg)
      obtain rfl := queryOf_injective hquery
      rw [count_rows hnodup hg, hrefs]
    · have hids : (⟨s, r⟩ : EventId) ∉ ids := by
        intro hid
        obtain ⟨i, ⟨refs, hi, -⟩, -⟩ := h.once _ hid
        obtain ⟨g, hg, hgi⟩ := List.mem_map.mp (List.getElem_mem i.isLt)
        obtain rfl := queryOf_injective (hgi.trans hi)
        exact hs (List.mem_map_of_mem hg)
      have hrows : (s, r) ∉ rows gs := by
        intro hmem
        obtain ⟨g, hg, hmem⟩ := List.mem_flatMap.mp hmem
        obtain ⟨v, -, hv⟩ := List.mem_map.mp hmem
        exact hs ((Prod.mk.inj hv).1 ▸ List.mem_map_of_mem hg)
      rw [List.count_eq_zero_of_not_mem hids, List.count_eq_zero_of_not_mem hrows]
  · intro h
    constructor
    · intro id hid
      have hrow : id.row ∈ rows gs := h.subset (List.mem_map_of_mem hid)
      obtain ⟨g, hg, hmem⟩ := List.mem_flatMap.mp hrow
      obtain ⟨v, hv, hvid⟩ := List.mem_map.mp hmem
      obtain ⟨hs, hr⟩ := Prod.mk.inj hvid
      obtain ⟨i, hi, rfl⟩ := List.getElem_of_mem hg
      have hi₁ : i < (gs.map queryOf).length := by simpa using hi
      have hi₂ : i < (gs.map Prod.fst).length := by simpa using hi
      refine ⟨⟨i, hi₁⟩, ⟨gs[i].2, ?_, hr ▸ hv⟩, ?_⟩
      · show (gs.map queryOf)[i] = _
        rw [List.getElem_map, ← hs]
      · rintro ⟨j, hj⟩ ⟨refs, hask, -⟩
        have hj' : j < gs.length := by simpa using hj
        have hquery : queryOf gs[j] = queryOf (id.scef_id, refs) := by
          rw [← hask]
          exact (List.getElem_map queryOf).symm
        have hj₂ : j < (gs.map Prod.fst).length := by simpa using hj'
        have hkey : (gs.map Prod.fst)[j] = (gs.map Prod.fst)[i] := by
          rw [List.getElem_map, List.getElem_map, queryOf_injective hquery, hs]
        exact Fin.ext ((hnodup.getElem_inj_iff).mp hkey)
    · intro act hact
      obtain ⟨g, hg, rfl⟩ := List.mem_map.mp hact
      refine ⟨g.1, g.2, rfl, fun ref => ?_⟩
      rw [← hcount, ← count_rows hnodup hg, h.count_eq]

/-! ### The events of a list -/

theorem EventId.le_iff {l r : EventId} : l.le r ↔
    l.scef_id < r.scef_id ∨ l.scef_id = r.scef_id ∧ l.scef_ref_id ≤ r.scef_ref_id := by
  unfold EventId.le
  rcases lt_trichotomy l.scef_id r.scef_id with hlt | heq | hgt
  · simp [hlt, hlt.not_gt, hlt.ne']
  · simp [heq]
  · simp [hgt, hgt.not_gt, hgt.ne']

instance : Std.Total EventId.le where
  total l r := by
    rw [EventId.le_iff, EventId.le_iff]
    rcases lt_trichotomy l.scef_id r.scef_id with hlt | heq | hgt
    · exact Or.inl (Or.inl hlt)
    · rcases Nat.le_total l.scef_ref_id r.scef_ref_id with h | h
      · exact Or.inl (Or.inr ⟨heq, h⟩)
      · exact Or.inr (Or.inr ⟨heq.symm, h⟩)
    · exact Or.inr (Or.inl hgt)

instance : IsTrans EventId EventId.le where
  trans a b c hab hbc := by
    rw [EventId.le_iff] at hab hbc ⊢
    rcases hab with hab | ⟨hab, hab'⟩
    · rcases hbc with hbc | ⟨hbc, -⟩
      · exact Or.inl (hab.trans hbc)
      · exact Or.inl (hbc ▸ hab)
    · rcases hbc with hbc | ⟨hbc, hbc'⟩
      · exact Or.inl (hab ▸ hbc)
      · exact Or.inr ⟨hab.trans hbc, Nat.le_trans hab' hbc'⟩

theorem empty_le (s : String) : "" ≤ s := by
  rw [String.le_iff_toList_le]
  exact not_lt.mp (List.not_lt_nil s.toList)

/-- The rows of the sorted list. -/
def sortedRows (ids : List EventId) : List (String × Nat) :=
  (ids.insertionSort EventId.le).map EventId.row

theorem perm_sortedRows (ids : List EventId) : (sortedRows ids).Perm (ids.map EventId.row) :=
  (List.perm_insertionSort EventId.le ids).map _

theorem sortedRows_sorted (ids : List EventId) :
    (sortedRows ids).Pairwise fun a b => a.1 ≤ b.1 := by
  rw [sortedRows, List.pairwise_map]
  refine (List.pairwise_insertionSort EventId.le ids).imp fun {a b} hab => ?_
  rcases EventId.le_iff.mp hab with h | ⟨h, -⟩
  · exact h.le
  · exact h.le

/-- The groups of the loop have different keys. -/
theorem groups_nodup (ids : List EventId) :
    ((groups (sortedRows ids) "" []).map Prod.fst).Nodup :=
  (keys_increase [] (fun r _ => empty_le r.1) (sortedRows_sorted ids)).imp fun h => ne_of_lt h

/-- The groups have the events of the list exactly if the list is empty or has an event of the SCEF
with the empty id. -/
theorem perm_rows_groups (ids : List EventId) :
    (ids.map EventId.row).Perm (rows (groups (sortedRows ids) "" [])) ↔
      ids = [] ∨ ∃ id ∈ ids, id.scef_id = "" := by
  cases hrows : sortedRows ids with
  | nil =>
    have hids : ids = [] := by
      have hlen := (perm_sortedRows ids).length_eq
      rw [hrows, List.length_nil, List.length_map] at hlen
      exact List.length_eq_zero_iff.mp hlen.symm
    exact iff_of_true (hids ▸ List.Perm.nil) (Or.inl hids)
  | cons row rest =>
    obtain ⟨s, r⟩ := row
    have hperm : ((s, r) :: rest).Perm (ids.map EventId.row) := hrows ▸ perm_sortedRows ids
    rw [rows_groups_nil]
    constructor
    · intro h
      obtain ⟨id, hid, hrow⟩ := List.mem_map.mp (h.mem_iff.mpr List.mem_cons_self)
      exact Or.inr ⟨id, hid, (Prod.mk.inj hrow).1⟩
    · rintro (rfl | ⟨id, hid, hs⟩)
      · exact absurd (hperm.subset List.mem_cons_self) List.not_mem_nil
      · have hsorted := sortedRows_sorted ids
        rw [hrows, List.pairwise_cons] at hsorted
        have hle : s ≤ id.scef_id := by
          rcases List.mem_cons.mp (hperm.mem_iff.mpr (List.mem_map_of_mem hid)) with h | h
          · exact ((Prod.mk.inj h).1).ge
          · exact hsorted.1 _ h
        rw [← le_antisymm (hs ▸ hle) (empty_le s)]
        exact hperm.symm

/-- Then there is one group for each SCEF. -/
theorem length_groups {ids : List EventId}
    (h : (ids.map EventId.row).Perm (rows (groups (sortedRows ids) "" []))) :
    (groups (sortedRows ids) "" []).length = (ids.map EventId.scef_id).dedup.length := by
  rw [← List.length_map (f := Prod.fst)]
  refine List.Perm.length_eq ((List.perm_ext_iff_of_nodup (groups_nodup ids)
    (List.nodup_dedup _)).mpr fun s => ?_)
  rw [mem_keys_iff (values_ne_nil _ _ _), List.mem_dedup, ← (h.map Prod.fst).mem_iff, List.map_map]
  rfl

theorem length_rows_groups (ids : List EventId) :
    (rows (groups (sortedRows ids) "" [])).length = ids.length := by
  have hlen := (perm_sortedRows ids).length_eq
  rw [List.length_map] at hlen
  rw [← hlen]
  cases sortedRows ids with
  | nil => rfl
  | cons row rest =>
    rw [rows_groups_nil]
    rfl

/-- Some of the groups have all rows only if they are all the groups. -/
theorem eq_of_rows_length {gs gs' : List (String × List Nat)} (h : gs' <+: gs)
    (hne : ∀ g ∈ gs, g.2 ≠ []) (hlen : (rows gs').length = (rows gs).length) : gs' = gs := by
  obtain ⟨rest, rfl⟩ := h
  cases rest with
  | nil => exact (List.append_nil gs').symm
  | cons g rest =>
    have hg : g.2.length > 0 := List.length_pos_iff.mpr (hne g (by simp))
    simp only [rows, List.flatMap_append, List.flatMap_cons, List.length_append, List.length_map]
      at hlen
    omega

/-! ### The calls of `getEvents` -/

/-- **Each event is asked for once, in a query for its own SCEF,** exactly if there are none, or one
is at the SCEF with the empty id and no call before the last one is refused. -/
theorem getEvents_covered (db : Nat → (act : kind.Act) → kind.Fut act) (reg : Nat → RegKind)
    (c : Core kind) :
    ∃ c' calls, getEvents.exec (recorded db reg) (c, []) = some ((), c', calls) ∧
      (Covered calls c.data.evtIdLst ↔
        c.data.evtIdLst = [] ∨ (∃ id ∈ c.data.evtIdLst, id.scef_id = "") ∧
          ∀ i, i + 1 < (c.data.evtIdLst.map EventId.scef_id).dedup.length →
            taken (reg i) = true) := by
  obtain ⟨c', hc'⟩ := calls_getEvents db reg c
  refine ⟨c', _, hc', ?_⟩
  generalize c.data.evtIdLst = ids
  have hprefix := upToRefused_prefix reg 0 (groups (sortedRows ids) "" [])
  have hsub := List.IsPrefix.sublist hprefix
  rw [upToRefused_map, ← sortedRows, covered_iff ((groups_nodup ids).sublist (hsub.map _))]
  constructor
  · intro h
    have hall := eq_of_rows_length hprefix (values_ne_nil _ _ _)
      (by rw [length_rows_groups, ← h.length_eq, List.length_map])
    rw [hall] at h
    have hcalls := (upToRefused_eq_iff reg 0 _).mp hall
    rw [length_groups h] at hcalls
    refine ((perm_rows_groups ids).mp h).imp_right fun hid => ⟨hid, fun i hi => ?_⟩
    rw [← Nat.zero_add i]
    exact hcalls i hi
  · intro h
    have hperm := (perm_rows_groups ids).mpr (h.imp_right And.left)
    have hall : upToRefused reg 0 (groups (sortedRows ids) "" []) = groups (sortedRows ids) "" [] := by
      refine (upToRefused_eq_iff reg 0 _).mpr fun i hi => ?_
      rw [length_groups hperm] at hi
      rcases h with rfl | ⟨-, htaken⟩
      · exact absurd hi (Nat.not_lt_zero _)
      · rw [Nat.zero_add]
        exact htaken i hi
    rw [hall]
    exact hperm

/-- A database that answers every call with an error. -/
def allFail : (act : kind.Act) → kind.Fut act
  | (.getImsiInfo, _) => none
  | (.getExtIds, _) => none
  | (.getEvntidsMsisdn, _) => none
  | (.getEvntidsExtids, _) => none
  | (.getEvntsEvntids, _) => none
  | (.getMmeidHost, _) => none
  | (.updateImsi, _) => none

/-- A processor that has collected one event, of the SCEF `a`. -/
def oneEvent : Core kind where
  m_nextphase := phase2
  m_msgissued := 0
  m_dbissued := 0
  m_dbevtissued := 0
  m_dbexecuted := 0
  m_dbresult := 0
  data := { Data.init ⟨"", "", "", "", "", 0, "", 0, "", "", 0⟩ ⟨"", "", "", "", "", 0, "", 0, "", "", 0⟩ with
    evtIdLst := [⟨"a", 1⟩] }
  lst := false
  answers := []
  ran := []
  pending := []
  resolved := []
  messages := 0
  status := .running

/-- The only event is asked for at the SCEF with the empty id. -/
theorem getEvents_not_covered : ¬ ∀ (db : Nat → (act : kind.Act) → kind.Fut act)
    (reg : Nat → RegKind) (c c' : Core kind) (calls : List kind.Act),
    getEvents.exec (recorded db reg) (c, []) = some ((), c', calls) →
      Covered calls c.data.evtIdLst := by
  intro h
  obtain ⟨c', hc'⟩ := calls_getEvents (fun _ => allFail) (fun _ => .async) oneEvent
  have hcalls : upToRefused (fun _ => RegKind.async) 0 ((groups
      ((oneEvent.data.evtIdLst.insertionSort EventId.le).map EventId.row) "" []).map queryOf) =
      [queryOf ("", [1])] := rfl
  rw [hcalls] at hc'
  obtain ⟨i, ⟨refs, hask, -⟩, -⟩ := (h _ _ _ _ _ hc').once ⟨"a", 1⟩ List.mem_cons_self
  have hmem := List.mem_singleton.mp (List.getElem_mem i.isLt)
  have hid : ("" : String) = "a" := congrArg Prod.fst (queryOf_injective (hmem.symm.trans hask))
  exact absurd hid (by decide)

end OpenairHss.Ulr
