import OpenairHss.FdExtractor.Table
import OpenairHss.FdExtractor.Read

/-!
# What is copied

* `copy_known` and `copyLoop_known`: a tree of AVPs of the dictionary, and the children of a group.
* `copy_unknown` and `copyLoop_unknown`: an AVP somewhere in the tree that is not in the dictionary.
* `addExtractor_known` and `addExtractorList_known`: what the extractors have found.
* `add_appends`: all of it.

The proofs are by recursion on the tree.  A new AVP gets the copies of the children before it is put
into the target, so that an exception below leaves the target as it was.
-/

namespace OpenairHss.FdExtractor

open Forest

variable {Store Ref Model : Type}

/-! ### Runs -/

section Runs

variable {σ α β : Type} {s s' : σ} {x : EStateM Fault σ α} {f : α → EStateM Fault σ β}

theorem bind_of_ok {a : α} (h : x.run s = .ok a s') : (x >>= f).run s = (f a).run s' := by
  show EStateM.bind x f s = (f a).run s'
  rw [EStateM.bind, show x s = .ok a s' from h]
  rfl

theorem bind_of_error {e : Fault} (h : x.run s = .error e s') :
    (x >>= f).run s = .error e s' := by
  show EStateM.bind x f s = .error e s'
  rw [EStateM.bind, show x s = .error e s' from h]

theorem ask_bind (call : Store → Except Int α) (e : Int → CopyException) (f : α → Run Store β)
    (s : Store) : (ask call e >>= f).run s = match call s with
      | .ok a => (f a).run s
      | .error ret => .error (.exception (e ret)) s := by
  cases h : call s with
  | ok a => exact bind_of_ok (by rw [EStateM.run, ask, h])
  | error ret => exact bind_of_error (by rw [EStateM.run, ask, h])

theorem make_bind (call : Store → Except Int (α × Store)) (e : Int → CopyException)
    (f : α → Run Store β) (s : Store) : (make call e >>= f).run s = match call s with
      | .ok (a, s') => (f a).run s'
      | .error ret => .error (.exception (e ret)) s := by
  cases h : call s with
  | ok p => exact bind_of_ok (by rw [EStateM.run, make, h])
  | error ret => exact bind_of_error (by rw [EStateM.run, make, h])

theorem perform_ok {call : Store → Except Int Store} (e : Int → CopyException) {s s' : Store}
    (h : call s = .ok s') : (perform call e).run s = .ok () s' := by
  rw [EStateM.run, perform, h]

end Runs

variable {fd : MsgApi Store Ref Model} {dict : Model → DictAvpData}
  {view : Store → View Ref (MsgOrAvp Model)} {n : Nat} {s : Store} {src dst : Ref} {P : Ref → Prop}

section Trees

variable [DecidableEq Ref]

/-! ### One AVP -/

/-- An AVP of the dictionary: a new one is made, filled, and added. -/
theorem copy_succ (hfd : Documented fd dict view) (n : Nat) (dst : Ref) {m : Model} {flags : BitVec 8}
    {value : Option FdJson.AvpValue}
    (hsrc : (view s).data src = some (.avp (.of dict m flags value))) :
    ∃ a s', ¬ (view s).Live a ∧
      view s' = (view s).create a (.avp (.of dict m (dict m).avp_flag_val none)) ∧
      (copy fd (n + 1) src dst).run s =
        ((if (dict m).avp_basetype = .grouped then copyall fd n src a
          else do
            let hdr ← ask (fun s => fd.fd_msg_avp_hdr s src) (.header (dict m).avp_name)
            perform (fun s => fd.fd_msg_avp_setvalue s a hdr.avp_value)
              (.value (dict m).avp_name)) >>= fun _ =>
          perform (fun s => fd.fd_msg_avp_add s dst a) (.adding (dict m).avp_name)).run s' := by
  obtain ⟨a, s', hnew, ha, hs'⟩ := hfd.new s m
  refine ⟨a, s', ha, hs', ?_⟩
  simp only [copy, ask_bind, make_bind, hfd.model hsrc, Avp.of, hfd.getval, hnew]

/-- The filled AVP is added. -/
theorem perform_add (hfd : Documented fd dict view) {a : Ref} {s' : Store}
    {t : Forest.Tree (MsgOrAvp Model)} {e : Int → CopyException} (hdst : (view s).Live dst)
    (ha : ¬ (view s).Live a) (hun : Untouched (view s) (view s'))
    (hparent : (view s').parent a = none) (ht : Holds (view s') (fun r => ¬ (view s).Live r) a t) :
    ∃ s'', (perform (fun s => fd.fd_msg_avp_add s dst a) e).run s' = .ok () s'' ∧
      Appended (view s) (view s'') dst [t] := by
  obtain ⟨s'', hadd, hs''⟩ := hfd.add (hun.live hdst) ht.live hparent
  refine ⟨s'', perform_ok e hadd, ?_⟩
  rw [hs'']
  exact Appended.adopt hdst ha hun ht

/-- The children of the source are those of the new store. -/
theorem children_create (d : MsgOrAvp Model) {v v' : View Ref (MsgOrAvp Model)} {a : Ref}
    {ts : List (Forest.Tree (MsgOrAvp Model))} (ha : ¬ v.Live a) (hv' : v' = v.create a d)
    (hsrc : v.Live src) (hts : HoldsAll v P (v.children src) ts) :
    v'.children src = v.children src ∧ HoldsAll v' (· ≠ a) (v.children src) ts := by
  have hun : Untouched v v' := by
    rw [hv']
    exact untouched_create ha d
  exact ⟨hun.children src hsrc,
    hts.mono (fun r _ hr => ⟨hun.data r hr, hun.children r hr⟩) fun r _ hr => hr.ne ha⟩

mutual

/-- **A tree of AVPs of the dictionary.** -/
theorem copy_known (hfd : Documented fd dict view) : ∀ (t : AvpTree dict) {n : Nat} {s : Store}
    {src dst : Ref} {P : Ref → Prop}, t.Known → t.depth ≤ n → (view s).Live dst →
    Holds (view s) P src t.tree →
    ∃ s', (copy fd n src dst).run s = .ok () s' ∧
      Appended (view s) (view s') dst [t.withDictFlags.tree]
  | .leaf m hm flags value, n, s, src, dst, P, _, hn, hdst, hsrc => by
    rw [AvpTree.tree, Holds] at hsrc
    obtain ⟨k, rfl⟩ : ∃ k, n = k + 1 := ⟨n - 1, by rw [AvpTree.depth] at hn; omega⟩
    obtain ⟨a, s1, ha, hs1, hcopy⟩ := copy_succ hfd k dst hsrc.2.1
    have hun : Untouched (view s) (view s1) := by
      rw [hs1]
      exact untouched_create ha _
    have hsrc1 : (view s1).data src = some (.avp (.of dict m flags value)) := by
      rw [hun.data src (by rw [View.Live, hsrc.2.1]; exact nofun), hsrc.2.1]
    have ha1 : (view s1).data a = some (.avp (.of dict m (dict m).avp_flag_val none)) := by
      rw [hs1, View.create_data, Function.update_self]
    obtain ⟨s2, hset, hs2⟩ := hfd.setvalue ha1 hm value
    rw [hs1] at hs2
    have hheld := holds_setData ha (.avp (.of dict m (dict m).avp_flag_val value))
      (.avp (.of dict m (dict m).avp_flag_val none))
    rw [← hs2] at hheld
    obtain ⟨s3, hadd, happ⟩ := perform_add (e := .adding (dict m).avp_name) hfd hdst ha
      (by rw [hs2]; exact untouched_setData ha _ _) (by rw [hs2]; exact Function.update_self ..)
      hheld
    refine ⟨s3, ?_, happ⟩
    have hfill : (perform (fun s => fd.fd_msg_avp_setvalue s a value)
        (.value (dict m).avp_name)).run s1 = .ok () s2 := perform_ok _ hset
    rw [hcopy, if_neg hm, bind_of_ok, hadd]
    simp only [ask_bind, hfd.header hsrc1, Avp.of]
    exact hfill
  | .group m hm flags avps, n, s, src, dst, P, hknown, hn, hdst, hsrc => by
    rw [AvpTree.tree, Holds] at hsrc
    rw [AvpTree.depth] at hn
    obtain ⟨k, rfl⟩ : ∃ k, n = k + 2 := ⟨n - 2, by omega⟩
    have hlive : (view s).Live src := by
      rw [View.Live, hsrc.2.1]
      exact nofun
    obtain ⟨a, s1, ha, hs1, hcopy⟩ := copy_succ hfd (k + 1) dst hsrc.2.1
    obtain ⟨hchildren, hheld⟩ := children_create _ ha hs1 hlive hsrc.2.2
    have hun : Untouched (view s) (view s1) := by
      rw [hs1]
      exact untouched_create ha _
    obtain ⟨s2, hloop, happ⟩ := copyLoop_known hfd avps (by rwa [AvpTree.Known] at hknown)
      (by omega : AvpTree.depthAll avps ≤ k) (l := []) (by rw [hs1]; exact View.create_live _ _ _)
      (hun.live hlive) (hlive.ne ha) hchildren hheld
    have happ' := happ
    rw [hs1] at happ'
    obtain ⟨s3, hadd, happ3⟩ := perform_add (e := .adding (dict m).avp_name) hfd hdst ha
      (happ'.untouched ha)
      (by rw [happ'.parent a (View.create_live _ _ _)]; exact Function.update_self ..)
      (happ'.holds ha)
    refine ⟨s3, ?_, happ3⟩
    rw [hcopy, if_pos hm, bind_of_ok, hadd]
    simp only [copyall, ask_bind, hfd.firstChild (hun.live hlive), hchildren]
    exact hloop
  | .unknown .., _, _, _, _, _, hknown, _, _, _ => by
    rw [AvpTree.Known] at hknown
    exact hknown.elim

/-- The children of a group, from one of them on. -/
theorem copyLoop_known (hfd : Documented fd dict view) : ∀ (ts : List (AvpTree dict)) {n : Nat}
    {s : Store} {src dst : Ref} {l rs : List Ref}, AvpTree.KnownAll ts → AvpTree.depthAll ts ≤ n →
    (view s).Live dst → (view s).Live src → src ≠ dst → (view s).children src = l ++ rs →
    HoldsAll (view s) (· ≠ dst) rs (AvpTree.trees ts) →
    ∃ s', (copyLoop fd n rs.head? dst).run s = .ok () s' ∧
      Appended (view s) (view s') dst (AvpTree.trees (AvpTree.withDictFlagsAll ts))
  | [], n, s, src, dst, l, rs, _, hn, hdst, hlive, hne, hrs, hts => by
    rw [AvpTree.depthAll] at hn
    obtain ⟨k, rfl⟩ : ∃ k, n = k + 1 := ⟨n - 1, by omega⟩
    cases rs with
    | nil => exact ⟨s, rfl, Appended.nil _ _⟩
    | cons r rs => exact (by rwa [AvpTree.trees, HoldsAll] at hts : False).elim
  | t :: ts, n, s, src, dst, l, rs, hknown, hn, hdst, hlive, hne, hrs, hts => by
    rw [AvpTree.depthAll] at hn
    rw [AvpTree.KnownAll] at hknown
    obtain ⟨k, rfl⟩ : ∃ k, n = k + 1 := ⟨n - 1, by omega⟩
    cases rs with
    | nil => exact (by rwa [AvpTree.trees, HoldsAll] at hts : False).elim
    | cons r rs =>
      rw [AvpTree.trees, HoldsAll] at hts
      obtain ⟨s1, hcopy, happ⟩ := copy_known hfd t hknown.1 (by omega : t.depth ≤ k) hdst hts.1
      have hrs1 : (view s1).children src = (l ++ [r]) ++ rs := by
        rw [happ.children src hlive hne, hrs, List.append_assoc, List.singleton_append]
      obtain ⟨s2, hloop, happ2⟩ := copyLoop_known hfd ts hknown.2
        (by omega : AvpTree.depthAll ts ≤ k) (happ.live hdst) (happ.live hlive) hne hrs1
        (happ.holdsAll (by simp) hts.2)
      refine ⟨s2, ?_, ?_⟩
      · have hnext := hfd.next (hrs1.trans (List.append_assoc l [r] rs))
        rw [List.head?_cons, copyLoop, bind_of_ok hcopy]
        simp only [ask_bind, hnext]
        exact hloop
      · exact happ.trans hdst happ2

end

/-! ### AVPs that are not in the dictionary -/

mutual

/-- **A tree with an AVP that is not in the dictionary.** -/
theorem copy_unknown (hfd : Documented fd dict view) : ∀ (t : AvpTree dict) {n : Nat} {s : Store}
    {src dst : Ref} {P : Ref → Prop}, ¬ t.Known → t.depth ≤ n → (view s).Live dst →
    Holds (view s) P src t.tree →
    ∃ e s', (copy fd n src dst).run s = .error (.exception e) s' ∧ Untouched (view s) (view s')
  | .leaf .., _, _, _, _, _, hunknown, _, _, _ => by
    rw [AvpTree.Known] at hunknown
    exact absurd trivial hunknown
  | .group m hm flags avps, n, s, src, dst, P, hunknown, hn, hdst, hsrc => by
    rw [AvpTree.tree, Holds] at hsrc
    rw [AvpTree.depth] at hn
    obtain ⟨k, rfl⟩ : ∃ k, n = k + 2 := ⟨n - 2, by omega⟩
    have hlive : (view s).Live src := by
      rw [View.Live, hsrc.2.1]
      exact nofun
    obtain ⟨a, s1, ha, hs1, hcopy⟩ := copy_succ hfd (k + 1) dst hsrc.2.1
    obtain ⟨hchildren, hheld⟩ := children_create _ ha hs1 hlive hsrc.2.2
    have hun : Untouched (view s) (view s1) := by
      rw [hs1]
      exact untouched_create ha _
    obtain ⟨e, s2, us, hloop, happ⟩ := copyLoop_unknown hfd avps
      (by rwa [AvpTree.Known] at hunknown) (by omega : AvpTree.depthAll avps ≤ k) (l := [])
      (by rw [hs1]; exact View.create_live _ _ _) (hun.live hlive) (hlive.ne ha) hchildren hheld
    rw [hs1] at happ
    refine ⟨e, s2, ?_, happ.untouched ha⟩
    rw [hcopy, if_pos hm]
    refine bind_of_error ?_
    simp only [copyall, ask_bind, hfd.firstChild (hun.live hlive), hchildren]
    exact hloop
  | .unknown code vendor flags, n, s, src, dst, P, _, hn, _, hsrc => by
    rw [AvpTree.tree, Holds] at hsrc
    rw [AvpTree.depth] at hn
    obtain ⟨k, rfl⟩ : ∃ k, n = k + 1 := ⟨n - 1, by omega⟩
    obtain ⟨ret, hnull⟩ := hfd.getval_null
    refine ⟨.dictData ret, s, ?_, Untouched.refl _⟩
    simp only [copy, ask_bind, hfd.model hsrc.2.1, hnull]

/-- The children before it are copied. -/
theorem copyLoop_unknown (hfd : Documented fd dict view) : ∀ (ts : List (AvpTree dict)) {n : Nat}
    {s : Store} {src dst : Ref} {l rs : List Ref}, ¬ AvpTree.KnownAll ts →
    AvpTree.depthAll ts ≤ n → (view s).Live dst → (view s).Live src → src ≠ dst →
    (view s).children src = l ++ rs → HoldsAll (view s) (· ≠ dst) rs (AvpTree.trees ts) →
    ∃ e s' us, (copyLoop fd n rs.head? dst).run s = .error (.exception e) s' ∧
      Appended (view s) (view s') dst us
  | [], _, _, _, _, _, _, hunknown, _, _, _, _, _, _ => by
    rw [AvpTree.KnownAll] at hunknown
    exact absurd trivial hunknown
  | t :: ts, n, s, src, dst, l, rs, hunknown, hn, hdst, hlive, hne, hrs, hts => by
    rw [AvpTree.depthAll] at hn
    rw [AvpTree.KnownAll] at hunknown
    obtain ⟨k, rfl⟩ : ∃ k, n = k + 1 := ⟨n - 1, by omega⟩
    cases rs with
    | nil => exact (by rwa [AvpTree.trees, HoldsAll] at hts : False).elim
    | cons r rs =>
      rw [AvpTree.trees, HoldsAll] at hts
      rw [List.head?_cons, copyLoop]
      by_cases hknown : t.Known
      · obtain ⟨s1, hcopy, happ⟩ := copy_known hfd t hknown (by omega : t.depth ≤ k) hdst hts.1
        have hrs1 : (view s1).children src = (l ++ [r]) ++ rs := by
          rw [happ.children src hlive hne, hrs, List.append_assoc, List.singleton_append]
        obtain ⟨e, s2, us, hloop, happ2⟩ := copyLoop_unknown hfd ts (fun h => hunknown ⟨hknown, h⟩)
          (by omega : AvpTree.depthAll ts ≤ k) (happ.live hdst) (happ.live hlive) hne hrs1
          (happ.holdsAll (by simp) hts.2)
        have hnext := hfd.next (hrs1.trans (List.append_assoc l [r] rs))
        refine ⟨e, s2, _, ?_, happ.trans hdst happ2⟩
        rw [bind_of_ok hcopy]
        simp only [ask_bind, hnext]
        exact hloop
      · obtain ⟨e, s1, hcopy, hun⟩ := copy_unknown hfd t hknown (by omega : t.depth ≤ k) hdst hts.1
        exact ⟨e, s1, [], bind_of_error hcopy, hun.appended hdst⟩

end

end Trees

/-! ### Extractors -/

section Extractors

variable {msg : Message Ref} {entries : Entries} {h : Heap Ref}

/-- The runs that put copies of the AVPs at `rs` into the target, which is none of them. -/
def Adds (view : Store → View Ref (MsgOrAvp Model)) (dict : Model → DictAvpData) (msg : Message Ref)
    (entries : Entries) (run : AddRun Store Ref Unit) (n : Nat) (dst : Ref) (rs : List Ref) : Prop :=
  ∀ (ts : List (AvpTree dict)) h s, AvpTree.KnownAll ts → AvpTree.depthAll ts ≤ n →
    Inv msg entries h → (view s).Live dst → HoldsAll (view s) (· ≠ dst) rs (AvpTree.trees ts) →
    ∃ h' s', run.run (h, s) = .ok () (h', s') ∧ Inv msg entries h' ∧
      Appended (view s) (view s') dst (AvpTree.trees (AvpTree.withDictFlagsAll ts))

theorem read_ok (hsingle : SingleValued msg entries) (hinv : Inv msg entries h) (acc : Access)
    (hacc : acc.Typed entries) (s : Store) : ∃ h', Inv msg entries h' ∧
      (read msg entries acc).run (h, s) = .ok (meant msg acc) (h', s) := by
  obtain ⟨h', haccess, hinv'⟩ := access_eq hsingle hinv acc hacc
  refine ⟨h', hinv', ?_⟩
  rw [EStateM.run, read, haccess]

/-- What an access answers does not change the messages. -/
theorem Adds.read (hsingle : SingleValued msg entries) (acc : Access) (hacc : acc.Typed entries)
    {f : Answer Ref → AddRun Store Ref Unit} {rs : List Ref}
    (hf : Adds view dict msg entries (f (meant msg acc)) n dst rs) :
    Adds view dict msg entries (read msg entries acc >>= f) n dst rs := by
  intro ts h s hknown hn hinv hdst hts
  obtain ⟨h', hinv', hread⟩ := read_ok hsingle hinv acc hacc s
  rw [bind_of_ok hread]
  exact hf ts h' s hknown hn hinv' hdst hts

theorem adds_pure : Adds view dict msg entries (pure ()) n dst [] := by
  intro ts h s _ _ hinv _ hts
  cases ts with
  | nil => exact ⟨h, s, rfl, hinv, Appended.nil _ _⟩
  | cons t ts => exact (by rwa [AvpTree.trees, HoldsAll] at hts : False).elim

/-- The elements of a list are its AVPs. -/
theorem located_element {l : Address} (hl : (Access.getList l).Typed entries) (i : Nat) :
    located msg (.element i :: l) = (listed msg l)[i]? := by
  rcases l with _ | ⟨key | k, p⟩
  · rcases hl with hl | ⟨_, hl⟩ <;> cases hl
  · rw [located, listed]
    cases located msg p with
    | none => rfl
    | some r => rfl
  · -- an element is no list
    rw [Access.Typed, fieldAt] at hl
    rcases hl with hl | ⟨_, hl⟩ <;> split at hl <;> cases hl

theorem depthAll_pos (ts : List (AvpTree dict)) : 1 ≤ AvpTree.depthAll ts := by
  cases ts with
  | nil => exact Nat.le_refl 1
  | cons t ts => exact Nat.le_add_right 1 _

/-- The elements of a list, from one of them on. -/
theorem addElements_known (hsingle : SingleValued msg entries)
    {add : Address → AddRun Store Ref Unit} {l : Address} (hl : (Access.getList l).Typed entries)
    (hadd : ∀ i r, located msg (.element i :: l) = some r →
      Adds view dict msg entries (add (.element i :: l)) n dst [r]) :
    ∀ (ts : List (AvpTree dict)) {fuel i : Nat} {rs : List Ref} {h : Heap Ref} {s : Store},
      (listed msg l).drop i = rs → AvpTree.KnownAll ts → AvpTree.depthAll ts ≤ n →
      AvpTree.depthAll ts ≤ fuel → Inv msg entries h → (view s).Live dst →
      HoldsAll (view s) (· ≠ dst) rs (AvpTree.trees ts) →
      ∃ h' s', (addElements msg entries add l fuel i).run (h, s) = .ok () (h', s') ∧
        Inv msg entries h' ∧
        Appended (view s) (view s') dst (AvpTree.trees (AvpTree.withDictFlagsAll ts)) := by
  intro ts
  induction ts with
  | nil =>
    intro fuel i rs h s hdrop _ _ hfuel hinv _ hts
    rw [AvpTree.depthAll] at hfuel
    obtain ⟨k, rfl⟩ : ∃ k, fuel = k + 1 := ⟨fuel - 1, by omega⟩
    obtain ⟨h', hinv', hread⟩ := read_ok hsingle hinv (.getList l) hl s
    cases rs with
    | cons r rs => exact (by rwa [AvpTree.trees, HoldsAll] at hts : False).elim
    | nil =>
      refine ⟨h', s, ?_, hinv', Appended.nil _ _⟩
      rw [addElements, bind_of_ok hread, meant]
      show (if i < (listed msg l).length then _ else _ : AddRun Store Ref Unit).run (h', s) = _
      rw [if_neg (by rw [List.drop_eq_nil_iff] at hdrop; omega)]
      rfl
  | cons t ts ih =>
    intro fuel i rs h s hdrop hknown hn hfuel hinv hdst hts
    rw [AvpTree.KnownAll] at hknown
    rw [AvpTree.depthAll] at hn hfuel
    obtain ⟨k, rfl⟩ : ∃ k, fuel = k + 1 := ⟨fuel - 1, by omega⟩
    obtain ⟨h', hinv', hread⟩ := read_ok hsingle hinv (.getList l) hl s
    cases rs with
    | nil => exact (by rwa [AvpTree.trees, HoldsAll] at hts : False).elim
    | cons r rs =>
      rw [AvpTree.trees, HoldsAll] at hts
      have hi : i < (listed msg l).length := by
        by_contra hi
        rw [List.drop_eq_nil_of_le (by omega)] at hdrop
        exact absurd hdrop nofun
      have hr : located msg (.element i :: l) = some r := by
        rw [located_element hl, ← List.head?_drop, hdrop, List.head?_cons]
      obtain ⟨h1, s1, hrun, hinv1, happ⟩ := hadd i r hr [t] h' s ⟨hknown.1, trivial⟩
        (by rw [AvpTree.depthAll, AvpTree.depthAll]; have := depthAll_pos ts; omega) hinv' hdst
        ⟨hts.1, trivial⟩
      obtain ⟨h2, s2, hloop, hinv2, happ2⟩ := @ih k (i + 1) rs h1 s1
        (by rw [← List.drop_drop, hdrop, List.drop_succ_cons, List.drop_zero]) hknown.2 (by omega)
        (by omega) hinv1 (happ.live hdst) (happ.holdsAll (by simp) hts.2)
      refine ⟨h2, s2, ?_, hinv2, happ.trans hdst happ2⟩
      rw [addElements, bind_of_ok hread, meant]
      show (if i < (listed msg l).length then _ else _ : AddRun Store Ref Unit).run (h', s) = _
      rw [if_pos hi, bind_of_ok hrun, hloop]

variable [DecidableEq Ref]

/-- One AVP is copied. -/
theorem adds_copied (hfd : Documented fd dict view) (n : Nat) (dst r : Ref) :
    Adds view dict msg entries (copied fd n r dst) n dst [r] := by
  intro ts h s hknown hn hinv hdst hts
  match ts with
  | [] => exact (by rwa [AvpTree.trees, HoldsAll] at hts : False).elim
  | t :: u :: ts =>
    rw [AvpTree.trees, HoldsAll, AvpTree.trees, HoldsAll] at hts
    exact hts.2.elim
  | [t] =>
    rw [AvpTree.trees, HoldsAll] at hts
    rw [AvpTree.KnownAll] at hknown
    rw [AvpTree.depthAll] at hn
    obtain ⟨s', hcopy, happ⟩ := copy_known hfd t hknown.1 (by omega : t.depth ≤ n) hdst hts.1
    refine ⟨h, s', ?_, hinv, happ⟩
    rw [EStateM.run, copied, show copy fd n r dst s = .ok () s' from hcopy]

theorem addExtractor_known (hfd : Documented fd dict view) (hsingle : SingleValued msg entries)
    (n : Nat) (dst : Ref) {p : Address} {m_entries : Entries}
    (hp : fieldAt entries p = some (.extractor m_entries)) (hne : p ≠ []) :
    Adds view dict msg entries (addExtractor fd msg entries n dst p) n dst
      (located msg p).toList := by
  refine Adds.read hsingle (.exists p) ⟨m_entries, hp⟩ ?_
  cases hl : located msg p with
  | none =>
    rw [meant, hl, Option.isSome_none, Bool.and_false]
    exact adds_pure
  | some r =>
    rw [meant, hl, Option.isSome_some, Bool.and_true, decide_eq_true hne]
    refine Adds.read hsingle (.getReference p) ⟨m_entries, hp⟩ ?_
    rw [meant, hl]
    exact adds_copied hfd n dst r

theorem addExtractorAvp_known (hfd : Documented fd dict view) (hsingle : SingleValued msg entries)
    (n : Nat) (dst : Ref) {a : Address} (ha : fieldAt entries a = some .avp) :
    Adds view dict msg entries (addExtractorAvp fd msg entries n dst a) n dst
      (located msg a).toList := by
  refine Adds.read hsingle (.avp a) ha ?_
  cases hl : located msg a with
  | none =>
    rw [meant, hl]
    exact adds_pure
  | some r =>
    rw [meant, hl]
    exact adds_copied hfd n dst r

theorem addExtractorList_known (hfd : Documented fd dict view) (hsingle : SingleValued msg entries)
    (n : Nat) (dst : Ref) {l : Address} {m_entries : Entries}
    (hl : fieldAt entries l = some (.extractorList m_entries)) :
    Adds view dict msg entries (addExtractorList fd msg entries n dst l) n dst (listed msg l) := by
  intro ts h s hknown hn hinv hdst hts
  refine addElements_known hsingle (Or.inr ⟨m_entries, hl⟩) (fun i r hr => ?_) ts List.drop_zero
    hknown hn hn hinv hdst hts
  have hp : fieldAt entries (.element i :: l) = some (.extractor m_entries) := by
    rw [fieldAt, hl]
  have hadds := addExtractor_known hfd hsingle n dst hp (List.cons_ne_nil _ _)
  rwa [hr] at hadds

theorem addExtractorAvpList_known (hfd : Documented fd dict view)
    (hsingle : SingleValued msg entries) (n : Nat) (dst : Ref) {l : Address}
    (hl : fieldAt entries l = some .avpList) :
    Adds view dict msg entries (addExtractorAvpList fd msg entries n dst l) n dst
      (listed msg l) := by
  intro ts h s hknown hn hinv hdst hts
  refine addElements_known hsingle (Or.inl hl) (fun i r hr => ?_) ts List.drop_zero
    hknown hn hn hinv hdst hts
  have ha : fieldAt entries (.element i :: l) = some .avp := by
    rw [fieldAt, hl]
  have hadds := addExtractorAvp_known hfd hsingle n dst ha
  rwa [hr] at hadds

end Extractors

/-- **Copying an AVP appends one deep copy of its tree to the target, with the flags of the
dictionary**, and changes nothing else, if all of its AVPs are in the dictionary; otherwise there is
an exception, and nothing is changed.  The extractors and the lists of them have the AVPs copied that
they stand for, in order. -/
theorem add_appends [DecidableEq Ref] (hfd : Documented fd dict view) :
    (∀ (t : AvpTree dict) n s src dst, t.depth ≤ n → (view s).Live dst →
      Holds (view s) (fun _ => True) src t.tree →
      (t.Known → ∃ s', (copy fd n src dst).run s = .ok () s' ∧
        Appended (view s) (view s') dst [t.withDictFlags.tree]) ∧
      (¬ t.Known → ∃ e s', (copy fd n src dst).run s = .error (.exception e) s' ∧
        Untouched (view s) (view s'))) ∧
    ∀ (msg : Message Ref) entries n dst p, SingleValued msg entries →
      (p ≠ [] → (∃ m_entries, fieldAt entries p = some (.extractor m_entries)) →
        Adds view dict msg entries (addExtractor fd msg entries n dst p) n dst
          (located msg p).toList) ∧
      (fieldAt entries p = some .avp →
        Adds view dict msg entries (addExtractorAvp fd msg entries n dst p) n dst
          (located msg p).toList) ∧
      ((∃ m_entries, fieldAt entries p = some (.extractorList m_entries)) →
        Adds view dict msg entries (addExtractorList fd msg entries n dst p) n dst
          (listed msg p)) ∧
      (fieldAt entries p = some .avpList →
        Adds view dict msg entries (addExtractorAvpList fd msg entries n dst p) n dst
          (listed msg p)) := by
  refine ⟨fun t n s src dst hn hdst hsrc => ⟨fun hknown => ?_, fun hunknown => ?_⟩,
    fun msg entries n dst p hsingle => ⟨?_, ?_, ?_, ?_⟩⟩
  · exact copy_known hfd t hknown hn hdst hsrc
  · exact copy_unknown hfd t hunknown hn hdst hsrc
  · rintro hne ⟨m_entries, hp⟩
    exact addExtractor_known hfd hsingle n dst hp hne
  · exact addExtractorAvp_known hfd hsingle n dst
  · rintro ⟨m_entries, hl⟩
    exact addExtractorList_known hfd hsingle n dst hl
  · exact addExtractorAvpList_known hfd hsingle n dst

/-! ### A message -/

/-- "User-Name" and "Monitoring-Event-Configuration", which is a group. -/
def sampleDict : Bool → DictAvpData
  | false => ⟨1, 0, "User-Name", 0x40, .octetString⟩
  | true => ⟨3122, 10415, "Monitoring-Event-Configuration", 0xC0, .grouped⟩

/-- The group has one AVP. -/
def sampleChildren (r : Nat) : List Nat := if r = 1 then [2] else []

theorem mem_sampleChildren {p c : Nat} (hc : c ∈ sampleChildren p) : p = 1 ∧ c = 2 := by
  rw [sampleChildren] at hc
  by_cases hp : p = 1
  · rw [if_pos hp, List.mem_singleton] at hc
    exact ⟨hp, hc⟩
  · rw [if_neg hp] at hc
    exact absurd hc List.not_mem_nil

theorem sampleTable_child {p c : Nat} (hc : c ∈ sampleChildren p) :
    (if c = 2 then some 1 else none) = some p := by
  obtain ⟨rfl, rfl⟩ := mem_sampleChildren hc
  rfl

theorem sampleTable_once (p : Nat) : (sampleChildren p).Nodup := by
  by_cases hp : p = 1 <;> simp [sampleChildren, hp]

theorem sampleTable_bounded {p c : Nat} (hc : c ∈ sampleChildren p) : c < 4 := by
  obtain ⟨-, rfl⟩ := mem_sampleChildren hc
  decide

/-- A target, a group with one AVP, and an AVP that is not in the dictionary. -/
def sampleTable : Table Bool where
  size := 4
  object r := match r with
    | 1 => .avp (.of sampleDict true 0x80 none)
    | 2 => .avp (.of sampleDict false 0x40 (some (.os [1, 2])))
    | 3 => .avp ⟨none, 9999, 10415, 0x80, none⟩
    | _ => .msg
  children := sampleChildren
  parent r := if r = 2 then some 1 else none
  child := @sampleTable_child
  once := sampleTable_once
  bounded := @sampleTable_bounded

/-- The group of `sampleTable`. -/
def sampleGroup : AvpTree sampleDict :=
  .group true rfl 0x80 [.leaf false (by decide) 0x40 (some (.os [1, 2]))]

theorem add_appends_sample : ∃ s', (copy (table sampleDict) 4 1 0).run sampleTable = .ok () s' ∧
    Appended sampleTable.view s'.view 0 [sampleGroup.withDictFlags.tree] := by
  refine ((add_appends (table_documented sampleDict)).1 sampleGroup 4 sampleTable 1 0 (by decide)
    ?_ ?_).1 ⟨trivial, trivial⟩
  · rw [Table.live_iff]
    decide
  · exact ⟨trivial, rfl, ⟨trivial, rfl, trivial⟩, trivial⟩

/-- An AVP that is not in the dictionary is not copied, and a copy need not have the flags of the
source. -/
theorem copy_differs :
    (∃ e s', (copy (table sampleDict) 4 3 0).run sampleTable = .error (.exception e) s' ∧
      s'.children 0 = []) ∧
    ∃ s', (copy (table sampleDict) 4 1 0).run sampleTable = .ok () s' ∧ s'.children 0 = [4] ∧
      s'.object 1 = .avp (.of sampleDict true 0x80 none) ∧
      s'.object 4 = .avp (.of sampleDict true 0xC0 none) :=
  ⟨⟨_, _, rfl, rfl⟩, _, rfl, rfl, rfl, rfl⟩

end OpenairHss.FdExtractor
