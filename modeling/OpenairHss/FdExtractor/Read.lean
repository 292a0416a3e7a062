import OpenairHss.FdExtractor.Bound

/-!
# Reading in any order

Each access leaves the extractors in a state of `Inv`, and is answered as it is `meant`
(`access_eq`).  So the answers do not depend on the accesses before (`accesses_eq`).
-/

namespace OpenairHss.FdExtractor

section Read

variable {Ref : Type} {msg : Message Ref} {entries : Entries} {h : Heap Ref}

/-- What a resolved extractor refers to. -/
theorem Inv.reference_eq (hinv : Inv msg entries h) {p : Address} {m_entries : Entries}
    (hp : fieldAt entries p = some (.extractor m_entries))
    (hres : (h p).m_resolved = (FdExtractor.located msg p).isSome) :
    (h p).reference = FdExtractor.located msg p := by
  cases hr : (h p).reference with
  | some r => exact (hinv.located p m_entries hp r hr).symm
  | none =>
    have hnot := (hinv.clause p m_entries hp).not_resolved hr
    rw [hnot] at hres
    cases hloc : FdExtractor.located msg p with
    | none => rfl
    | some r =>
      rw [hloc] at hres
      exact absurd hres nofun

/-- An extractor other than that of the message exists if it refers to an AVP. -/
theorem Inv.exists_eq (hinv : Inv msg entries h) {p : Address} {m_entries : Entries}
    (hp : fieldAt entries p = some (.extractor m_entries)) (hne : p ≠ []) :
    (h p).exists = (h p).reference.isSome := by
  have hrefers : ∃ r, Refers (h p) r := by
    match p with
    | [] => exact absurd rfl hne
    | .field key :: q =>
      obtain ⟨m_entries', hq, hf⟩ := fieldAt_field_cases hp
      exact ⟨_, hinv.fieldBound hq hf⟩
    | .element n :: l =>
      obtain ⟨key, q, m_entries', g, rfl, hq, hf, hg⟩ := fieldAt_element_cases hp
      obtain ⟨-, habs⟩ | ⟨m_entries'', rfl, -⟩ := hg
      · exact absurd habs nofun
      · exact ⟨_, (hinv.fieldBound hq hf).2.2 n⟩
  obtain ⟨r, href, hidx⟩ := hrefers
  rw [Bool.eq_iff_iff, Object.exists, decide_eq_true_iff, hidx, href]

/-- The object of an AVP. -/
theorem Refers.answer {o : Object Ref} {r : Option Ref} (hr : Refers o r) :
    (if o.exists = true then o.reference else none) = r := by
  cases r with
  | none =>
    rw [hr.1]
    exact ite_self _
  | some c =>
    have hex : o.exists = true := by simpa [Object.exists] using hr.2.mpr rfl
    rw [if_pos hex, hr.1]

/-- An extractor is resolved before it is read. -/
theorem extractor_ready (hsingle : SingleValued msg entries) (hinv : Inv msg entries h) {p : Address}
    {m_entries : Entries} (hp : fieldAt entries p = some (.extractor m_entries)) :
    ∃ h', resolveUnless msg entries (h p).m_resolved p h = .ok h' ∧
      Inv msg entries h' ∧ (h' p).m_resolved = (located msg p).isSome := by
  obtain ⟨h', hresolve, hinv', hres⟩ := resolve_inv hsingle p h hinv m_entries hp
  refine ⟨h', ?_, hinv', hres⟩
  rw [resolveUnless]
  split
  · rename_i hdone
    rw [← hresolve, resolve_of_resolved hdone]
  · exact hresolve

/-- The owner of a field is resolved before it is read, unless the field is known to be found. -/
theorem owner_ready (hsingle : SingleValued msg entries) (hinv : Inv msg entries h) {p : Address}
    {m_entries : Entries} (hp : fieldAt entries p = some (.extractor m_entries))
    (key : FDExtractorKey) {done : Bool} (hdone : done = true → found msg h p key ≠ []) :
    ∃ h', resolveUnless msg entries done p h = .ok h' ∧
      Inv msg entries h' ∧ found msg h' p key = listed msg (.field key :: p) := by
  cases done with
  | false =>
    obtain ⟨h', hresolve, hinv', hres⟩ := resolve_inv hsingle p h hinv m_entries hp
    exact ⟨h', hresolve, hinv', hinv'.found_eq hp hres key⟩
  | true =>
    refine ⟨h, rfl, hinv, hinv.found_eq hp ?_ key⟩
    have hne := hdone rfl
    -- only a resolved extractor has found anything
    rw [found] at hne
    split at hne
    · rename_i r hr
      rw [hinv.located p m_entries hp r hr]
      by_contra hres
      exact hne (if_neg hres)
    · exact absurd rfl hne

/-- The size of a list, and whether its owner has found one. -/
theorem FieldBound.list {a : Address} {avps : List Ref} {f : Field} (hb : FieldBound h a avps f)
    (hf1 : ¬ f.Single) : (h a).size = avps.length ∧ (h a).m_resolved = avps.head?.isSome := by
  cases f with
  | avp => exact absurd trivial hf1
  | extractor m_entries => exact absurd trivial hf1
  | avpList => exact ⟨hb.1, hb.2.1⟩
  | extractorList m_entries => exact ⟨hb.1, hb.2.1⟩

theorem ne_nil_of_head? {α : Type} {l : List α} (hl : l.head?.isSome = true) : l ≠ [] := by
  rintro rfl
  exact absurd hl nofun

theorem ne_nil_of_getElem? {α : Type} {l : List α} {n : Nat} (hl : l[n]?.isSome = true) : l ≠ [] := by
  rintro rfl
  exact absurd hl nofun

/-- **One access.** -/
theorem access_eq (hsingle : SingleValued msg entries) (hinv : Inv msg entries h) (acc : Access)
    (hacc : acc.Typed entries) :
    ∃ h', access msg entries h acc = .ok (meant msg acc, h') ∧ Inv msg entries h' := by
  cases acc with
  | avp a =>
    rcases a with _ | ⟨key | n, p⟩
    · cases hacc
    · -- a field of an extractor
      obtain ⟨m_entries, hp, hf⟩ := fieldAt_field_cases hacc
      obtain ⟨h', hready, hinv', hfound⟩ := owner_ready hsingle hinv hp key fun hdone =>
        ne_nil_of_head? ((hinv.fieldBound hp hf).2.symm.trans hdone)
      have hrefers := (hinv'.fieldBound hp hf).1
      rw [hfound, listed_head?] at hrefers
      refine ⟨h', ?_, hinv'⟩
      rw [access, owner, hready]
      show Except.ok _ = _
      rw [hrefers.answer]
      rfl
    · -- an element of a list
      obtain ⟨key, p, m_entries, g, rfl, hp, hf, hg⟩ := fieldAt_element_cases hacc
      obtain ⟨rfl, -⟩ | ⟨m_entries', -, habs⟩ := hg
      · obtain ⟨h', hready, hinv', hfound⟩ := owner_ready hsingle hinv hp key fun hdone =>
          ne_nil_of_getElem? ((((hinv.fieldBound hp hf).2.2 n).2).symm.trans hdone)
        have hrefers := ((hinv'.fieldBound hp hf).2.2 n).1
        rw [hfound, listed_getElem?] at hrefers
        refine ⟨h', ?_, hinv'⟩
        rw [access, owner, hready]
        show Except.ok _ = _
        rw [hrefers.answer]
        rfl
      · cases habs
  | «exists» p =>
    obtain ⟨m_entries, hp⟩ := hacc
    obtain ⟨h', hready, hinv', hres⟩ := extractor_ready hsingle hinv hp
    refine ⟨h', ?_, hinv'⟩
    have hex : (h' p).exists = (decide (p ≠ []) && (located msg p).isSome) := by
      by_cases hnil : p = []
      · subst hnil
        rw [Object.exists, hinv'.root_idx]
        rfl
      · rw [hinv'.exists_eq hp hnil, hinv'.reference_eq hp hres, decide_eq_true hnil, Bool.true_and]
    rw [access, hready]
    show Except.ok _ = _
    rw [hex]
    rfl
  | getReference p =>
    obtain ⟨m_entries, hp⟩ := hacc
    obtain ⟨h', hready, hinv', hres⟩ := extractor_ready hsingle hinv hp
    refine ⟨h', ?_, hinv'⟩
    rw [access, hready]
    show Except.ok _ = _
    rw [hinv'.reference_eq hp hres]
    rfl
  | getList l =>
    rcases l with _ | ⟨key | n, p⟩
    · rcases hacc with hacc | ⟨m_entries, hacc⟩ <;> cases hacc
    · -- a list of an extractor
      have hlist : ∃ f, fieldAt entries (.field key :: p) = some f ∧ ¬ f.Single := by
        rcases hacc with hacc | ⟨m_entries, hacc⟩
        · exact ⟨_, hacc, id⟩
        · exact ⟨_, hacc, id⟩
      obtain ⟨f, hacc, hf1⟩ := hlist
      obtain ⟨m_entries, hp, hf⟩ := fieldAt_field_cases hacc
      have hdone := (hinv.fieldBound hp hf).list hf1
      obtain ⟨h', hready, hinv', hfound⟩ := owner_ready hsingle hinv hp key fun hdone' =>
        ne_nil_of_head? (hdone.2.symm.trans hdone')
      have hsize := ((hinv'.fieldBound hp hf).list hf1).1
      rw [hfound] at hsize
      refine ⟨h', ?_, hinv'⟩
      rw [access, owner, hready]
      show Except.ok _ = _
      rw [hsize]
      rfl
    · -- an element is no list
      exfalso
      rcases hacc with hacc | ⟨m_entries, hacc⟩
      · obtain ⟨_, _, _, _, _, _, _, ⟨-, habs⟩ | ⟨_, -, habs⟩⟩ := fieldAt_element_cases hacc
        · cases habs
        · cases habs
      · obtain ⟨_, _, _, _, _, _, _, ⟨-, habs⟩ | ⟨_, -, habs⟩⟩ := fieldAt_element_cases hacc
        · cases habs
        · cases habs

theorem accesses_of_inv (hsingle : SingleValued msg entries) (accs : List Access)
    (haccs : ∀ acc ∈ accs, acc.Typed entries) (hinv : Inv msg entries h) :
    accesses msg entries h accs = .ok (accs.map (meant msg)) := by
  induction accs generalizing h with
  | nil => rfl
  | cons acc rest ih =>
    obtain ⟨h', hacc, hinv'⟩ := access_eq hsingle hinv acc (haccs acc List.mem_cons_self)
    have hrest := ih (fun acc' hmem => haccs acc' (List.mem_cons_of_mem _ hmem)) hinv'
    rw [accesses, hacc]
    show (do return meant msg acc :: (← accesses msg entries h' rest)) = _
    rw [hrest]
    rfl

end Read

/-- **Resolution.**  The fields of a message are read in whatever order, each any number of times.  A
field for one AVP is answered with the AVP of its vendor and code in its group, a list with all of
them in the order of the message; what is absent is reported as such. -/
theorem accesses_eq {Ref : Type} (msg : Message Ref) (entries : Entries)
    (hsingle : SingleValued msg entries) (accs : List Access)
    (haccs : ∀ acc ∈ accs, acc.Typed entries) :
    accesses msg entries (fresh msg) accs = .ok (accs.map (meant msg)) :=
  accesses_of_inv hsingle accs haccs inv_fresh

/-! A message with a session id and two groups of the same code; a third group is absent. -/

def sessionId : FDExtractorKey := ⟨0, 263⟩
def supportedFeatures : FDExtractorKey := ⟨10415, 628⟩
def featureListId : FDExtractorKey := ⟨10415, 629⟩
def subscriptionData : FDExtractorKey := ⟨10415, 1400⟩

def features : Entries := [(featureListId, .avp)]

def request : Entries :=
  [(subscriptionData, .extractor features), (supportedFeatures, .extractorList features),
    (sessionId, .avp)]

/-- 0 is the message, and 4 and 5 are in the groups 2 and 3. -/
def twoGroups : Message Nat where
  root := 0
  children r := match r with
    | 0 => [2, 1, 3]
    | 2 => [4]
    | 3 => [5]
    | _ => []
  header r := match r with
    | 1 => sessionId
    | 2 | 3 => supportedFeatures
    | _ => featureListId

theorem fieldAt_request (p : Address) : ∀ f, fieldAt request p = some f →
    f = .extractor request ∨ f = .extractorList features ∨ f = .extractor features ∨ f = .avp := by
  induction p with
  | nil => exact fun f hf => Or.inl (Option.some.inj hf).symm
  | cons s p ih =>
    intro f hf
    cases s with
    | field key =>
      obtain ⟨m_entries, hp, hl⟩ := fieldAt_field_cases hf
      have hmem : (key, f) ∈ m_entries := by
        obtain ⟨l1, l2, rfl, -⟩ := List.lookup_eq_some_iff.mp hl
        simp
      rcases ih _ hp with heq | heq | heq | heq
      · cases heq
        simp only [request, List.mem_cons, Prod.mk.injEq, List.not_mem_nil, or_false] at hmem
        tauto
      · exact absurd heq nofun
      · cases heq
        simp only [features, List.mem_cons, Prod.mk.injEq, List.not_mem_nil, or_false] at hmem
        tauto
      · exact absurd heq nofun
    | element n =>
      obtain ⟨key, q, m_entries, g, rfl, hq, hg, hgf⟩ := fieldAt_element_cases hf
      have hlist := ih g (by rw [fieldAt, hq]; exact hg)
      obtain ⟨rfl, -⟩ | ⟨m_entries', rfl, rfl⟩ := hgf
      · simp at hlist
      · simp at hlist
        simp [hlist]

theorem twoGroups_singleValued : SingleValued twoGroups request := by
  intro p m_entries r key f hp _ hf hf1
  have hkey : key ≠ supportedFeatures := by
    rintro rfl
    rcases fieldAt_request p _ hp with heq | heq | heq | heq
    · cases heq
      obtain rfl : Field.extractorList features = f := Option.some.inj hf
      exact hf1
    · exact absurd heq nofun
    · cases heq
      exact absurd hf nofun
    · exact absurd heq nofun
  match r with
  | 0 =>
    have hsession : withKey twoGroups key [2, 1, 3] = withKey twoGroups key [1] := by
      simp [withKey, List.filter_cons, twoGroups, hkey.symm]
    show (withKey twoGroups key [2, 1, 3]).length ≤ 1
    rw [hsession]
    exact List.length_filter_le _ _
  | 2 => exact List.length_filter_le _ _
  | 3 => exact List.length_filter_le _ _
  | 1 => exact Nat.zero_le _
  | n + 4 => exact Nat.zero_le _

theorem accesses_eq_twoGroups :
    accesses twoGroups request (fresh twoGroups)
      [.avp [.field featureListId, .element 1, .field supportedFeatures],
        .avp [.field featureListId, .field subscriptionData], .avp [.field sessionId],
        .exists [.field subscriptionData], .getList [.field supportedFeatures],
        .avp [.field featureListId, .element 0, .field supportedFeatures]]
      = .ok [.avp (some 5), .avp none, .avp (some 1), .exists false, .size 2, .avp (some 4)] := by
  refine accesses_eq twoGroups request twoGroups_singleValued _ fun acc hacc => ?_
  simp only [List.mem_cons, List.not_mem_nil, or_false] at hacc
  rcases hacc with rfl | rfl | rfl | rfl | rfl | rfl
  · rfl
  · rfl
  · rfl
  · exact ⟨features, rfl⟩
  · exact Or.inr ⟨features, rfl⟩
  · rfl

end OpenairHss.FdExtractor
