import OpenairHss.FdExtractor.Resolve
import Mathlib.Tactic.Common

/-!
# What the extractors find

* `FieldBound`: an object, and the elements if it is a list, has the AVPs that were found for its key.
* `Inv`: an extractor that is resolved has found the children of its AVP, and one that is not has
  found nothing.  Its fields may be resolved or not.
* `resolve_inv`: resolution, of any extractor and at any time, keeps `Inv`.
* `accesses_eq`: in whatever order the fields are read, the answers are those that are `meant`.
-/

namespace OpenairHss.FdExtractor

variable {Ref : Type}

/-- The object refers to an AVP, or to none. -/
def Refers (o : Object Ref) (r : Option Ref) : Prop :=
  o.reference = r ∧ (o.m_idx ≠ -1 ↔ r.isSome = true)

/-- The objects of a field have these AVPs.  Whether an extractor is resolved is its own matter. -/
def FieldBound (h : Heap Ref) (a : Address) (avps : List Ref) : Field → Prop
  | .avp => Refers (h a) avps.head? ∧ (h a).m_resolved = avps.head?.isSome
  | .extractor _ => Refers (h a) avps.head?
  | .avpList => (h a).size = avps.length ∧ (h a).m_resolved = avps.head?.isSome ∧
      ∀ n : Nat, Refers (h (.element n :: a)) avps[n]? ∧
        (h (.element n :: a)).m_resolved = avps[n]?.isSome
  | .extractorList _ => (h a).size = avps.length ∧ (h a).m_resolved = avps.head?.isSome ∧
      ∀ n : Nat, Refers (h (.element n :: a)) avps[n]?

section Inv

variable (msg : Message Ref)

/-- The fields of the extractor at `p` have what is found among these children. -/
def Bound (h : Heap Ref) (p : Address) (m_entries : Entries) (avps : List Ref) : Prop :=
  ∀ key f, m_entries.lookup key = some f →
    FieldBound h (.field key :: p) (withKey msg key avps) f

/-- What has been found by the extractor at `p`. -/
def Clause (h : Heap Ref) (p : Address) (m_entries : Entries) : Prop :=
  0 < (h p).m_index ∧
    if (h p).m_resolved = true then
      ∃ r, (h p).reference = some r ∧ Bound msg h p m_entries (msg.children r)
    else Bound msg h p m_entries []

/-- The state of the extractors, at any time. -/
structure Inv (entries : Entries) (h : Heap Ref) : Prop where
  root_reference : (h []).reference = some msg.root
  root_idx : (h []).m_idx = -1
  clause : ∀ p m_entries, fieldAt entries p = some (.extractor m_entries) → Clause msg h p m_entries

end Inv

/-! ### Frames -/

/-- Only the objects of the field matter. -/
theorem FieldBound.congr {h h' : Heap Ref} {a : Address} {avps : List Ref} {f : Field}
    (hb : FieldBound h a avps f) (ha : h' a = h a)
    (he : ∀ n, h' (.element n :: a) = h (.element n :: a)) : FieldBound h' a avps f := by
  cases f with
  | avp => rwa [FieldBound, ha]
  | extractor m_entries => rwa [FieldBound, ha]
  | avpList => simpa only [FieldBound, ha, he] using hb
  | extractorList m_entries => simpa only [FieldBound, ha, he] using hb

/-- What a change keeps of every object, it keeps in the heap. -/
theorem modify_keeps {α : Type} (F : Object Ref → α) {g : Object Ref → Object Ref}
    (hF : ∀ o, F (g o) = F o) (h : Heap Ref) (b a : Address) : F (h.modify b g a) = F (h a) := by
  by_cases hab : a = b
  · subst hab
    rw [Heap.modify_self, hF]
  · rw [Heap.modify_of_ne _ _ hab]

/-- A change that keeps the reference and the index. -/
theorem Refers.modify {h : Heap Ref} {a b : Address} {r : Option Ref} {g : Object Ref → Object Ref}
    (hr : Refers (h a) r) (href : (g (h b)).reference = (h b).reference)
    (hidx : (g (h b)).m_idx = (h b).m_idx) : Refers (h.modify b g a) r := by
  by_cases hab : a = b
  · subst hab
    rw [Heap.modify_self, Refers, href, hidx]
    exact hr
  · rwa [Heap.modify_of_ne _ _ hab]

/-- Such a change of an extractor leaves all fields as they are. -/
theorem FieldBound.modify {entries : Entries} {h : Heap Ref} {a b : Address} {avps : List Ref}
    {f : Field} {m_entries : Entries} {g : Object Ref → Object Ref} (hb : FieldBound h a avps f)
    (hfa : fieldAt entries a = some f) (hfb : fieldAt entries b = some (.extractor m_entries))
    (href : (g (h b)).reference = (h b).reference) (hidx : (g (h b)).m_idx = (h b).m_idx) :
    FieldBound (h.modify b g) a avps f := by
  have hne : ∀ a', fieldAt entries a' ≠ some (.extractor m_entries) → h.modify b g a' = h a' := by
    intro a' ha'
    refine Heap.modify_of_ne _ _ ?_
    rintro rfl
    exact ha' hfb
  cases f with
  | avp =>
    rw [FieldBound, hne a (by rw [hfa]; exact nofun)]
    exact hb
  | extractor m_entries' => exact Refers.modify hb href hidx
  | avpList =>
    refine FieldBound.congr hb (hne a (by rw [hfa]; exact nofun)) fun n => hne _ ?_
    rw [fieldAt, hfa]
    exact nofun
  | extractorList m_entries' =>
    rw [FieldBound, hne a (by rw [hfa]; exact nofun)]
    exact ⟨hb.1, hb.2.1, fun n => Refers.modify (hb.2.2 n) href hidx⟩

theorem fieldAt_field {entries : Entries} {p : Address} {m_entries : Entries} {key : FDExtractorKey}
    (hp : fieldAt entries p = some (.extractor m_entries)) :
    fieldAt entries (.field key :: p) = m_entries.lookup key := by
  rw [fieldAt, hp]

section Loop

variable {msg : Message Ref} {entries : Entries} {h h' : Heap Ref} {p : Address}
  {m_entries : Entries} {r : Ref} {avps avps' : List Ref}

theorem withKey_append_self {key : FDExtractorKey} {c : Ref} (hc : msg.header c = key) :
    withKey msg key (avps ++ [c]) = withKey msg key avps ++ [c] := by
  simp [withKey, hc]

theorem withKey_append_of_ne {key : FDExtractorKey} {c : Ref} (hc : msg.header c ≠ key) :
    withKey msg key (avps ++ [c]) = withKey msg key avps := by
  simp [withKey, hc]

/-- While the loop of the extractor at `p` runs: it has found what there is among `avps`, and nothing
else has changed. -/
structure Running (msg : Message Ref) (entries : Entries) (h : Heap Ref) (p : Address)
    (m_entries : Entries) (r : Ref) (avps : List Ref) : Prop where
  root_reference : (h []).reference = some msg.root
  root_idx : (h []).m_idx = -1
  others : ∀ q m_entries', fieldAt entries q = some (.extractor m_entries') → q ≠ p →
    Clause msg h q m_entries'
  index : 0 < (h p).m_index
  resolved : (h p).m_resolved = true
  reference : (h p).reference = some r
  bound : Bound msg h p m_entries avps

/-- A change of an extractor that keeps what its fields are about. -/
theorem Clause.modify {q : Address} {m_entries' : Entries} {g : Object Ref → Object Ref}
    (hc : Clause msg h q m_entries') (hq : fieldAt entries q = some (.extractor m_entries'))
    (hp : fieldAt entries p = some (.extractor m_entries)) (hne : q ≠ p)
    (href : (g (h p)).reference = (h p).reference) (hidx : (g (h p)).m_idx = (h p).m_idx) :
    Clause msg (h.modify p g) q m_entries' := by
  have hbound : ∀ avps, Bound msg h q m_entries' avps → Bound msg (h.modify p g) q m_entries' avps :=
    fun avps hb key f hf => (hb key f hf).modify ((fieldAt_field hq).trans hf) hp href hidx
  rw [Clause, Heap.modify_of_ne _ _ hne]
  refine ⟨hc.1, ?_⟩
  have hc2 := hc.2
  split at hc2
  · obtain ⟨r, hr, hb⟩ := hc2
    rw [if_pos ‹_›]
    exact ⟨r, hr, hbound _ hb⟩
  · rw [if_neg ‹_›]
    exact hbound _ hc2

/-- The child is counted. -/
theorem Running.count (hrun : Running msg entries h p m_entries r avps)
    (hp : fieldAt entries p = some (.extractor m_entries)) :
    Running msg entries (h.modify p fun o => { o with m_index := (h p).m_index + 1 }) p m_entries r
      avps := by
  have hindex := hrun.index
  refine ⟨Eq.trans (modify_keeps (·.reference) (fun _ => by rfl) h p []) hrun.root_reference,
    Eq.trans (modify_keeps (·.m_idx) (fun _ => by rfl) h p []) hrun.root_idx,
    fun q m_entries' hq hne => ?_, ?_, ?_, ?_, ?_⟩
  · exact (hrun.others q m_entries' hq hne).modify hq hp hne rfl rfl
  · rw [Heap.modify_self]
    show 0 < (h p).m_index + 1
    omega
  · rw [Heap.modify_self]
    exact hrun.resolved
  · rw [Heap.modify_self]
    exact hrun.reference
  · exact fun key f hf => (hrun.bound key f hf).modify ((fieldAt_field hp).trans hf) hp rfl rfl

/-- The objects of one field of the extractor at `p` are changed. -/
theorem Running.bind (hrun : Running msg entries h p m_entries r avps)
    (hf : m_entries.lookup key = some f)
    (hframe : ∀ b, b ≠ .field key :: p → (∀ n, b ≠ .element n :: .field key :: p) → h' b = h b)
    (hbound : FieldBound h' (.field key :: p) (withKey msg key avps') f)
    (hkeys : ∀ key', key' ≠ key → withKey msg key' avps' = withKey msg key' avps)
    (hnew : ∀ b m_entries', h' b ≠ h b → fieldAt entries b = some (.extractor m_entries') →
      (h' b).m_resolved = false ∧ 0 < (h' b).m_index ∧ (h b).m_resolved = false) :
    Running msg entries h' p m_entries r avps' := by
  have hself : h' p = h p := by
    refine hframe p (fun heq => ?_) fun n heq => ?_ <;>
      · have hlen := congrArg List.length heq
        simp only [List.length_cons] at hlen
        omega
  have hnil : h' [] = h [] := hframe [] nofun fun n => nofun
  have hfields : ∀ q, q ≠ p → ∀ m_entries' avps', Bound msg h q m_entries' avps' →
      Bound msg h' q m_entries' avps' := by
    intro q hne m_entries' avps' hb key' f' hf'
    refine (hb key' f' hf').congr (hframe _ ?_ ?_) fun n => hframe _ ?_ ?_
    · simp [hne]
    · exact fun n => by simp
    · simp
    · intro n'
      simp [hne]
  refine ⟨hnil ▸ hrun.root_reference, hnil ▸ hrun.root_idx, fun q m_entries' hq hne => ?_,
    hself ▸ hrun.index, hself ▸ hrun.resolved, hself ▸ hrun.reference, fun key' f' hf' => ?_⟩
  · have hc := hrun.others q m_entries' hq hne
    by_cases hobj : h' q = h q
    · rw [Clause, hobj]
      refine ⟨hc.1, ?_⟩
      have hc2 := hc.2
      split at hc2
      · obtain ⟨r', hr', hb⟩ := hc2
        rw [if_pos ‹_›]
        exact ⟨r', hr', hfields q hne _ _ hb⟩
      · rw [if_neg ‹_›]
        exact hfields q hne _ _ hc2
    · obtain ⟨hres', hindex', hres⟩ := hnew q m_entries' hobj hq
      have hc2 := hc.2
      rw [if_neg (by simp [hres])] at hc2
      refine ⟨hindex', ?_⟩
      rw [if_neg (by simp [hres'])]
      exact hfields q hne _ _ hc2
  · by_cases hkey : key' = key
    · subst hkey
      obtain rfl : f = f' := Option.some.inj (hf.symm.trans hf')
      exact hbound
    · rw [hkeys key' hkey]
      refine (hrun.bound key' f' hf').congr (hframe _ ?_ ?_) fun n => hframe _ ?_ ?_
      · simp [hkey]
      · exact fun n => by simp
      · simp
      · intro n'
        simp [hkey]

/-- An extractor that refers to nothing is not resolved. -/
theorem Clause.not_resolved {q : Address} {m_entries' : Entries} (hc : Clause msg h q m_entries')
    (href : (h q).reference = none) : (h q).m_resolved = false := by
  by_contra hres
  have hc2 := hc.2
  rw [if_pos (by simpa using hres)] at hc2
  obtain ⟨r, hr, -⟩ := hc2
  rw [href] at hr
  exact absurd hr nofun

theorem refers_some {o : Object Ref} {c : Ref} (href : o.reference = some c) (hidx : 0 < o.m_idx) :
    Refers o (some c) := ⟨href, iff_of_true (by omega) rfl⟩

theorem Refers.none_of_nil {o : Object Ref} {l : List Ref} (h : Refers o l.head?) (hl : l = []) :
    o.reference = none := by
  rw [h.1, hl]
  rfl

theorem getElem?_append_singleton_of_ne {l : List Ref} {c : Ref} {m : Nat} (hm : m ≠ l.length) :
    (l ++ [c])[m]? = l[m]? := by
  rcases Nat.lt_or_gt_of_ne hm with hlt | hgt
  · rw [List.getElem?_append_left hlt]
  · rw [List.getElem?_eq_none (by simp; omega), List.getElem?_eq_none (by omega)]

theorem element_ne (n : Nat) (a : Address) : Step.element n :: a ≠ a := fun heq => by
  have hlen := congrArg List.length heq
  simp at hlen

theorem push_self (a : Address) (new : Object Ref) :
    h.push a new a = { h a with size := (h a).size + 1, m_resolved := true } := by
  rw [Heap.push, Heap.modify_self, Heap.modify_of_ne _ _ (element_ne _ a).symm]

theorem push_element (a : Address) (new : Object Ref) (m : Nat) :
    h.push a new (.element m :: a) = if m = (h a).size then new else h (.element m :: a) := by
  rw [Heap.push, Heap.modify_of_ne _ _ (element_ne m a)]
  split
  · rename_i hm
    rw [hm, Heap.modify_self]
  · rename_i hm
    rw [Heap.modify_of_ne]
    simpa using hm

theorem push_of_ne {a b : Address} (new : Object Ref) (hba : b ≠ a)
    (hbe : ∀ n, b ≠ .element n :: a) : h.push a new b = h b := by
  rw [Heap.push, Heap.modify_of_ne _ _ hba, Heap.modify_of_ne _ _ (hbe _)]

/-- **A new element of a list**, behind those that were there. -/
theorem push_refers (new : Object Ref) {a : Address} {ks : List Ref} {c : Ref}
    (hsize : (h a).size = ks.length) (hnew : Refers new (some c))
    (helems : ∀ m : Nat, Refers (h (.element m :: a)) ks[m]?) :
    (h.push a new a).size = (ks ++ [c]).length ∧
      (h.push a new a).m_resolved = (ks ++ [c]).head?.isSome ∧
      ∀ m : Nat, Refers (h.push a new (.element m :: a)) (ks ++ [c])[m]? := by
  refine ⟨?_, ?_, fun m => ?_⟩
  · rw [push_self, List.length_append, ← hsize]
    rfl
  · rw [push_self]
    cases ks <;> rfl
  · rw [push_element, hsize]
    split
    · rename_i hm
      rw [hm, List.getElem?_concat_length]
      exact hnew
    · rename_i hm
      rw [getElem?_append_singleton_of_ne hm]
      exact helems m

/-- **One child.** -/
theorem bindChild_running (hrun : Running msg entries h p m_entries r avps)
    (hp : fieldAt entries p = some (.extractor m_entries)) (c : Ref)
    (hsingle : ∀ f, m_entries.lookup (msg.header c) = some f → f.Single →
      withKey msg (msg.header c) avps = []) :
    ∃ h', bindChild msg p m_entries h c = .ok h' ∧
      Running msg entries h' p m_entries r (avps ++ [c]) := by
  have hkeys : ∀ key', key' ≠ msg.header c → withKey msg key' (avps ++ [c]) = withKey msg key' avps :=
    fun key' hne => withKey_append_of_ne hne.symm
  have hself : withKey msg (msg.header c) (avps ++ [c]) = withKey msg (msg.header c) avps ++ [c] :=
    withKey_append_self rfl
  cases hf : m_entries.lookup (msg.header c) with
  | none =>
    refine ⟨h, by simp only [bindChild, hf], { hrun with bound := fun key f hf' => ?_ }⟩
    rw [hkeys key fun heq => absurd (heq ▸ hf' : _ = some f) (by rw [hf]; exact nofun)]
    exact hrun.bound key f hf'
  | some f =>
    have hcount := hrun.count hp
    have hindex := hrun.index
    have ha := (fieldAt_field hp).trans hf
    have hb := hcount.bound _ f hf
    -- the field is not the extractor itself
    have hap : Step.field (msg.header c) :: p ≠ p := fun heq => by
      have hlen := congrArg List.length heq
      simp at hlen
    have hsame : (h.modify p fun o => { o with m_index := (h p).m_index + 1 })
        (.field (msg.header c) :: p) = h (.field (msg.header c) :: p) := Heap.modify_of_ne _ _ hap
    cases f with
    | avp =>
      rw [hsingle .avp hf trivial] at hb hself
      have href : (h (.field (msg.header c) :: p)).reference = none := hsame ▸ hb.1.none_of_nil rfl
      refine ⟨_, by simp only [bindChild, hf, href]; rfl,
        hcount.bind hf (fun b hba _ => Heap.modify_of_ne _ _ hba) ?_ hkeys ?_⟩
      · rw [hself, FieldBound, Heap.modify_self]
        exact ⟨refers_some rfl hindex, rfl⟩
      · intro b m_entries' hne hfb
        by_cases hba : b = .field (msg.header c) :: p
        · subst hba
          exact absurd (ha.symm.trans hfb) nofun
        · exact absurd (Heap.modify_of_ne _ _ hba) hne
    | extractor m_entries' =>
      rw [hsingle _ hf trivial] at hb hself
      refine ⟨_, by simp only [bindChild, hf]; rfl,
        hcount.bind hf (fun b hba _ => Heap.modify_of_ne _ _ hba) ?_ hkeys ?_⟩
      · rw [hself, FieldBound, Heap.modify_self]
        exact refers_some rfl hindex
      · intro b m_entries'' hne hfb
        by_cases hba : b = .field (msg.header c) :: p
        · subst hba
          have hc := hcount.others _ _ hfb hap
          rw [Heap.modify_self]
          exact ⟨hc.not_resolved (hb.none_of_nil rfl), hc.1, hc.not_resolved (hb.none_of_nil rfl)⟩
        · exact absurd (Heap.modify_of_ne _ _ hba) hne
    | avpList =>
      obtain ⟨hsize, -, helems⟩ := hb
      have hpush := push_refers
        { m_idx := (h p).m_index, m_resolved := true, reference := some c } hsize
        (refers_some rfl hindex) fun m => (helems m).1
      refine ⟨_, by simp only [bindChild, hf]; rfl,
        hcount.bind hf (fun b hba hbe => push_of_ne _ hba hbe) ?_ hkeys ?_⟩
      · rw [hself, FieldBound]
        refine ⟨hpush.1, hpush.2.1, fun m => ⟨hpush.2.2 m, ?_⟩⟩
        rw [push_element, hsize]
        split
        · rename_i hm
          rw [hm, List.getElem?_concat_length]
          rfl
        · rename_i hm
          rw [getElem?_append_singleton_of_ne hm]
          exact (helems m).2
      · intro b m_entries' hne hfb
        exfalso
        refine hne (push_of_ne _ ?_ fun n => ?_)
        · rintro rfl
          exact absurd (ha.symm.trans hfb) nofun
        · rintro rfl
          rw [fieldAt, ha] at hfb
          exact absurd hfb nofun
    | extractorList m_entries' =>
      obtain ⟨hsize, -, helems⟩ := hb
      have hpush := push_refers { m_idx := (h p).m_index, reference := some c } hsize
        (refers_some rfl hindex) helems
      refine ⟨_, by simp only [bindChild, hf]; rfl,
        hcount.bind hf (fun b hba hbe => push_of_ne _ hba hbe) ?_ hkeys ?_⟩
      · rw [hself, FieldBound]
        exact hpush
      · intro b m_entries'' hne hfb
        -- only the new element is an extractor
        have hba : b ≠ .field (msg.header c) :: p := by
          rintro rfl
          exact absurd (ha.symm.trans hfb) nofun
        by_cases hbe : ∃ n, b = .element n :: .field (msg.header c) :: p
        · obtain ⟨n, rfl⟩ := hbe
          rw [push_element] at hne ⊢
          split at hne
          · rename_i hn
            have hc := hcount.others _ _ hfb fun heq => by
              have hlen := congrArg List.length heq
              simp only [List.length_cons] at hlen
              omega
            rw [if_pos hn]
            refine ⟨rfl, Int.one_pos, hc.not_resolved ?_⟩
            rw [(helems n).1, List.getElem?_eq_none (by omega)]
          · exact absurd rfl hne
        · exact absurd (push_of_ne _ hba fun n hn => hbe ⟨n, hn⟩) hne

/-- **The loop over the children.** -/
theorem bindChildren_running (hp : fieldAt entries p = some (.extractor m_entries))
    (rest : List Ref) (hrun : Running msg entries h p m_entries r avps)
    (hsingle : ∀ key f, m_entries.lookup key = some f → f.Single →
      (withKey msg key (avps ++ rest)).length ≤ 1) :
    ∃ h', bindChildren msg p m_entries h rest = .ok h' ∧
      Running msg entries h' p m_entries r (avps ++ rest) := by
  induction rest generalizing h avps with
  | nil => exact ⟨h, rfl, by rwa [List.append_nil]⟩
  | cons c rest ih =>
    obtain ⟨h1, hchild, hrun1⟩ := bindChild_running hrun hp c fun f hf hf1 => by
      have hlen := hsingle _ f hf hf1
      simp only [withKey, List.filter_append, List.length_append, List.filter_cons,
        decide_true, if_true, List.length_cons] at hlen
      exact List.eq_nil_of_length_eq_zero (by rw [withKey]; omega)
    obtain ⟨h', hrest, hrun'⟩ := ih hrun1 (by simpa using hsingle)
    refine ⟨h', ?_, by simpa using hrun'⟩
    rw [bindChildren, hchild]
    exact hrest

end Loop

/-! ### Resolution -/

section Resolve

variable {msg : Message Ref} {entries : Entries} {h : Heap Ref}

/-- Before a field is read. -/
theorem inv_fresh : Inv msg entries (fresh msg) := by
  refine ⟨rfl, rfl, fun p m_entries _ => ?_⟩
  have hcons : ∀ s p, fresh msg (s :: p) = {} := fun s p => if_neg (List.cons_ne_nil s p)
  have hp : 0 < (fresh msg p).m_index ∧ (fresh msg p).m_resolved = false := by
    cases p with
    | nil => exact ⟨Int.one_pos, rfl⟩
    | cons s p =>
      rw [hcons]
      exact ⟨Int.one_pos, rfl⟩
  refine ⟨hp.1, ?_⟩
  rw [if_neg (by simp [hp.2])]
  intro key f _
  have hnone : Refers ({} : Object Ref) none := ⟨rfl, by simp⟩
  cases f with
  | avp =>
    rw [FieldBound, hcons]
    exact ⟨hnone, rfl⟩
  | extractor m_entries' =>
    rw [FieldBound, hcons]
    exact hnone
  | avpList =>
    rw [FieldBound, hcons]
    exact ⟨rfl, rfl, fun n => by rw [hcons]; exact ⟨hnone, rfl⟩⟩
  | extractorList m_entries' =>
    rw [FieldBound, hcons]
    exact ⟨rfl, rfl, fun n => by rw [hcons]; exact hnone⟩

/-- The AVPs that the owner of a field has found. -/
def found (msg : Message Ref) (h : Heap Ref) (p : Address) (key : FDExtractorKey) : List Ref :=
  match (h p).reference with
  | some r => if (h p).m_resolved then withKey msg key (msg.children r) else []
  | none => []

/-- A field has what its owner has found. -/
theorem Inv.fieldBound (hinv : Inv msg entries h) {p : Address} {m_entries : Entries}
    (hp : fieldAt entries p = some (.extractor m_entries)) {key : FDExtractorKey} {f : Field}
    (hf : m_entries.lookup key = some f) :
    FieldBound h (.field key :: p) (found msg h p key) f := by
  have hc := (hinv.clause p m_entries hp).2
  unfold found
  split at hc
  · obtain ⟨r, hr, hb⟩ := hc
    rw [hr]
    simp only [if_pos ‹(h p).m_resolved = true›]
    exact hb key f hf
  · have hb := hc key f hf
    split
    · rwa [if_neg ‹_›]
    · exact hb

/-- What a typed address is made of. -/
theorem fieldAt_field_cases {key : FDExtractorKey} {p : Address} {f : Field}
    (ha : fieldAt entries (.field key :: p) = some f) :
    ∃ m_entries, fieldAt entries p = some (.extractor m_entries) ∧ m_entries.lookup key = some f := by
  rw [fieldAt] at ha
  split at ha
  · rename_i m_entries hp
    exact ⟨m_entries, hp, ha⟩
  · exact absurd ha nofun

theorem fieldAt_element_cases {n : Nat} {l : Address} {f : Field}
    (ha : fieldAt entries (.element n :: l) = some f) :
    ∃ key p m_entries g, l = .field key :: p ∧ fieldAt entries p = some (.extractor m_entries) ∧
      m_entries.lookup key = some g ∧
      ((g = .avpList ∧ f = .avp) ∨ ∃ m_entries', g = .extractorList m_entries' ∧
        f = .extractor m_entries') := by
  have hlist : ∃ g, fieldAt entries l = some g ∧
      ((g = .avpList ∧ f = .avp) ∨ ∃ m_entries', g = .extractorList m_entries' ∧
        f = .extractor m_entries') := by
    rw [fieldAt] at ha
    split at ha
    · rename_i m_entries' hl
      exact ⟨_, hl, Or.inr ⟨m_entries', rfl, (Option.some.inj ha).symm⟩⟩
    · rename_i hl
      exact ⟨_, hl, Or.inl ⟨rfl, (Option.some.inj ha).symm⟩⟩
    · exact absurd ha nofun
  obtain ⟨g, hl, hg⟩ := hlist
  cases l with
  | nil =>
    cases hl
    rcases hg with ⟨hg, -⟩ | ⟨m_entries', hg, -⟩ <;> exact absurd hg nofun
  | cons s p =>
    cases s with
    | field key =>
      obtain ⟨m_entries, hp, hf⟩ := fieldAt_field_cases hl
      exact ⟨key, p, m_entries, g, rfl, hp, hf, hg⟩
    | element n' =>
      -- the elements of a list are no lists
      rw [fieldAt] at hl
      split at hl
      · cases hl
        rcases hg with ⟨hg, -⟩ | ⟨m_entries', hg, -⟩ <;> exact absurd hg nofun
      · cases hl
        rcases hg with ⟨hg, -⟩ | ⟨m_entries', hg, -⟩ <;> exact absurd hg nofun
      · exact absurd hl nofun

/-- An extractor refers to what its address stands for. -/
theorem Inv.located (hinv : Inv msg entries h) (p : Address) :
    ∀ m_entries, fieldAt entries p = some (.extractor m_entries) → ∀ r, (h p).reference = some r →
      located msg p = some r := by
  induction hn : p.length using Nat.strongRecOn generalizing p with
  | ind n ih =>
    rcases p with _ | ⟨key | i, q⟩
    · intro m_entries _ r hr
      rw [hinv.root_reference] at hr
      rwa [FdExtractor.located]
    · intro m_entries hp r hr
      obtain ⟨m_entries', hq, hf⟩ := fieldAt_field_cases hp
      have hb := hinv.fieldBound hq hf
      have hhead := hb.1.symm.trans hr
      unfold found at hhead
      split at hhead
      · rename_i rq hrq
        have hlt : q.length < n := by
          rw [← hn, List.length_cons]
          exact Nat.lt_succ_self _
        rw [FdExtractor.located, ih q.length hlt q rfl m_entries' hq rq hrq]
        split at hhead
        · exact hhead
        · cases hhead
      · cases hhead
    · intro m_entries hp r hr
      obtain ⟨key, q, m_entries', g, rfl, hq, hf, hg⟩ := fieldAt_element_cases hp
      obtain ⟨-, habs⟩ | ⟨m_entries'', rfl, -⟩ := hg
      · cases habs
      · have hb := (hinv.fieldBound hq hf).2.2 i
        have hhead := hb.1.symm.trans hr
        unfold found at hhead
        split at hhead
        · rename_i rq hrq
          have hlt : q.length < n := by
            rw [← hn, List.length_cons, List.length_cons]
            omega
          rw [FdExtractor.located, ih q.length hlt q rfl m_entries' hq rq hrq]
          split at hhead
          · exact hhead
          · cases hhead
        · cases hhead

/-- If the owner is resolved, or there is no AVP for it, all has been found. -/
theorem Inv.found_eq (hinv : Inv msg entries h) {p : Address} {m_entries : Entries}
    (hp : fieldAt entries p = some (.extractor m_entries))
    (hres : (h p).m_resolved = (FdExtractor.located msg p).isSome) (key : FDExtractorKey) :
    found msg h p key = listed msg (.field key :: p) := by
  rw [found, listed]
  cases hloc : FdExtractor.located msg p with
  | none =>
    rw [hloc] at hres
    split
    · rw [if_neg (by simp [hres])]
    · rfl
  | some r =>
    have hres' : (h p).m_resolved = true := by rw [hres, hloc]; rfl
    have hc := (hinv.clause p m_entries hp).2
    rw [if_pos hres'] at hc
    obtain ⟨r', hr', -⟩ := hc
    obtain rfl : r = r' := Option.some.inj (hloc.symm.trans (hinv.located p m_entries hp r' hr'))
    rw [hr']
    exact if_pos hres'

theorem Running.inv {p : Address} {m_entries : Entries} {r : Ref}
    (hrun : Running msg entries h p m_entries r (msg.children r))
    (hp : fieldAt entries p = some (.extractor m_entries)) : Inv msg entries h := by
  refine ⟨hrun.root_reference, hrun.root_idx, fun q m_entries' hq => ?_⟩
  by_cases hqp : q = p
  · subst hqp
    obtain rfl : m_entries = m_entries' := by
      have heq := hp.symm.trans hq
      simpa using heq
    refine ⟨hrun.index, ?_⟩
    rw [if_pos hrun.resolved]
    exact ⟨r, hrun.reference, hrun.bound⟩
  · exact hrun.others q m_entries' hq hqp

/-- **The children of an AVP are found.** -/
theorem finish_inv (hsingle : SingleValued msg entries) (hinv : Inv msg entries h) {p : Address}
    {m_entries : Entries} (hp : fieldAt entries p = some (.extractor m_entries)) {r : Ref}
    (hr : (h p).reference = some r) (hres : (h p).m_resolved = false) :
    ∃ h', finish msg entries p h = .ok h' ∧ Inv msg entries h' ∧ (h' p).m_resolved = true := by
  have hloc := hinv.located p m_entries hp r hr
  have hc := hinv.clause p m_entries hp
  have hc2 := hc.2
  rw [if_neg (by simp [hres])] at hc2
  have hstart : Running msg entries (h.modify p fun o => { o with m_resolved := true }) p m_entries r
      [] := by
    refine ⟨Eq.trans (modify_keeps (·.reference) (fun _ => by rfl) h p []) hinv.root_reference,
      Eq.trans (modify_keeps (·.m_idx) (fun _ => by rfl) h p []) hinv.root_idx,
      fun q m_entries' hq hne => ?_, ?_, ?_, ?_, ?_⟩
    · exact (hinv.clause q m_entries' hq).modify hq hp hne rfl rfl
    · rw [Heap.modify_self]
      exact hc.1
    · rw [Heap.modify_self]
    · rw [Heap.modify_self]
      exact hr
    · exact fun key f hf => (hc2 key f hf).modify ((fieldAt_field hp).trans hf) hp rfl rfl
  obtain ⟨h', hloop, hrun⟩ := bindChildren_running hp (msg.children r) hstart
    fun key f hf hf1 => hsingle p m_entries r key f hp hloc hf hf1
  refine ⟨h', ?_, Running.inv hrun hp, hrun.resolved⟩
  have href := hstart.reference
  simp only [finish, href, hp, hres]
  exact hloop

theorem listed_head? (key : FDExtractorKey) (p : Address) :
    (listed msg (.field key :: p)).head? = located msg (.field key :: p) := by
  rw [listed, located]
  split <;> rfl

theorem listed_getElem? (key : FDExtractorKey) (p : Address) (n : Nat) :
    (listed msg (.field key :: p))[n]? = located msg (.element n :: .field key :: p) := by
  rw [listed, located]
  split <;> rfl

/-- What a field refers to, once its owner has been resolved. -/
theorem Inv.single (hinv : Inv msg entries h) {p : Address} {m_entries : Entries}
    (hp : fieldAt entries p = some (.extractor m_entries))
    (hres : (h p).m_resolved = (FdExtractor.located msg p).isSome) {key : FDExtractorKey} {f : Field}
    (hf : m_entries.lookup key = some f) (hf1 : f.Single) :
    Refers (h (.field key :: p)) (FdExtractor.located msg (.field key :: p)) := by
  have hb := hinv.fieldBound hp hf
  rw [hinv.found_eq hp hres key] at hb
  cases f with
  | avp => exact listed_head? key p ▸ hb.1
  | extractor m_entries' => exact listed_head? key p ▸ hb
  | avpList => exact absurd hf1 id
  | extractorList m_entries' => exact absurd hf1 id

/-- What an element refers to, once the owner of the list has been resolved. -/
theorem Inv.element (hinv : Inv msg entries h) {p : Address} {m_entries : Entries}
    (hp : fieldAt entries p = some (.extractor m_entries))
    (hres : (h p).m_resolved = (FdExtractor.located msg p).isSome) {key : FDExtractorKey} {f : Field}
    (hf : m_entries.lookup key = some f) (hf1 : ¬ f.Single) (n : Nat) :
    Refers (h (.element n :: .field key :: p))
      (FdExtractor.located msg (.element n :: .field key :: p)) := by
  have hb := hinv.fieldBound hp hf
  rw [hinv.found_eq hp hres key] at hb
  cases f with
  | avp => exact absurd trivial hf1
  | extractor m_entries' => exact absurd trivial hf1
  | avpList => exact listed_getElem? key p n ▸ (hb.2.2 n).1
  | extractorList m_entries' => exact listed_getElem? key p n ▸ hb.2.2 n

/-- Once more. -/
theorem finish_of_resolved {p : Address} (hres : (h p).m_resolved = true) :
    finish msg entries p h = .ok h := by
  have hsame : (h.modify p fun o => { o with m_resolved := true }) = h := by
    funext a
    by_cases ha : a = p
    · subst ha
      rw [Heap.modify_self, ← hres]
    · exact Heap.modify_of_ne _ _ ha
  simp only [finish, hsame, hres]
  split <;> rfl

theorem resolve_of_resolved {p : Address} (hres : (h p).m_resolved = true) :
    resolve msg entries p h = .ok h := by
  unfold resolve
  split
  · exact if_pos hres
  · exact if_pos hres
  · exact if_pos hres
  · rfl

theorem resolve_of_reference {p : Address} {m_entries : Entries} {r : Ref}
    (hp : fieldAt entries p = some (.extractor m_entries)) (hres : (h p).m_resolved = false)
    (hr : (h p).reference = some r) : resolve msg entries p h = finish msg entries p h := by
  match p with
  | [] => simp [resolve, hres, hr]
  | .field key :: q => simp [resolve, hres, hr]
  | .element n :: l =>
    obtain ⟨key, q, _, _, rfl, _⟩ := fieldAt_element_cases hp
    simp [resolve, hres, hr]

/-- The extractor is asked after its owner. -/
theorem finish_of_refers (hsingle : SingleValued msg entries) (hinv : Inv msg entries h) {p : Address}
    {m_entries : Entries} (hp : fieldAt entries p = some (.extractor m_entries))
    (href : Refers (h p) (located msg p)) :
    ∃ h', (if (h p).exists then finish msg entries p h else .ok h) = .ok h' ∧ Inv msg entries h' ∧
      (h' p).m_resolved = (located msg p).isSome := by
  cases hloc : located msg p with
  | none =>
    rw [hloc] at href
    have hidx : ¬ (h p).m_idx ≠ -1 := fun hne => absurd (href.2.mp hne) nofun
    have hex : ¬ (h p).exists = true := by simpa [Object.exists] using hidx
    exact ⟨h, if_neg hex, hinv, (hinv.clause p m_entries hp).not_resolved href.1⟩
  | some r =>
    rw [hloc] at href
    have hex : (h p).exists = true := by simpa [Object.exists] using href.2.mpr rfl
    rw [if_pos hex]
    cases hres : (h p).m_resolved with
    | false => exact finish_inv hsingle hinv hp href.1 hres
    | true => exact ⟨h, finish_of_resolved hres, hinv, hres⟩

/-- **`FDExtractor::resolve`**, of any extractor and at any time. -/
theorem resolve_inv (hsingle : SingleValued msg entries) (p : Address) :
    ∀ h : Heap Ref, Inv msg entries h → ∀ m_entries, fieldAt entries p = some (.extractor m_entries) →
      ∃ h', resolve msg entries p h = .ok h' ∧ Inv msg entries h' ∧
        (h' p).m_resolved = (located msg p).isSome := by
  intro h hinv m_entries hp
  by_cases hres : (h p).m_resolved = true
  · refine ⟨h, resolve_of_resolved hres, hinv, ?_⟩
    have hc := (hinv.clause p m_entries hp).2
    rw [if_pos hres] at hc
    obtain ⟨r, hr, -⟩ := hc
    rw [hres, hinv.located p m_entries hp r hr]
    rfl
  · have hres' : (h p).m_resolved = false := by simpa using hres
    by_cases hrefn : ∃ r, (h p).reference = some r
    · obtain ⟨r, hr⟩ := hrefn
      have hloc := hinv.located p m_entries hp r hr
      obtain ⟨h', hfin, hinv', hres1⟩ := finish_inv hsingle hinv hp hr hres'
      exact ⟨h', (resolve_of_reference hp hres' hr).trans hfin, hinv', by rw [hres1, hloc]; rfl⟩
    · have hnone : (h p).reference = none := by
        cases hr : (h p).reference with
        | none => rfl
        | some r => exact absurd ⟨r, hr⟩ hrefn
      match p with
      | [] => exact absurd (hinv.root_reference.symm.trans hnone) nofun
      | .field key :: q =>
        obtain ⟨m_entries', hq, hf⟩ := fieldAt_field_cases hp
        obtain ⟨h1, hparent, hinv1, hres1⟩ := resolve_inv hsingle q h hinv m_entries' hq
        obtain ⟨h', hfin, hinv', hres2⟩ :=
          finish_of_refers hsingle hinv1 hp (hinv1.single hq hres1 hf trivial)
        refine ⟨h', ?_, hinv', hres2⟩
        simp only [resolve, hres', hnone, hparent]
        exact hfin
      | .element n :: l =>
        obtain ⟨key, q, m_entries', g, rfl, hq, hf, hg⟩ := fieldAt_element_cases hp
        obtain ⟨-, habs⟩ | ⟨m_entries'', rfl, -⟩ := hg
        · exact absurd habs nofun
        · obtain ⟨h1, hparent, hinv1, hres1⟩ := resolve_inv hsingle q h hinv m_entries' hq
          obtain ⟨h', hfin, hinv', hres2⟩ :=
            finish_of_refers hsingle hinv1 hp (hinv1.element hq hres1 hf id n)
          refine ⟨h', ?_, hinv', hres2⟩
          simp only [resolve, hres', hnone, hparent]
          exact hfin

end Resolve

end OpenairHss.FdExtractor
