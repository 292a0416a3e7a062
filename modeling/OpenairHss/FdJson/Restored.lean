import OpenairHss.FdJson.Kept

/-!
# From AVPs to JSON and back

* `members_kept`: the AVPs of a group that are kept are written, read and added, each in its place.
* `members_of_added`: if the AVPs that are added are those of the group, they are kept.
* `restores_iff`: a tree is restored if and only if it is kept.
-/

namespace OpenairHss.FdJson

/-! ### Trees of the dictionary -/

mutual

/-- The AVPs of a tree are those of the dictionary, with values of their types. -/
def Typed (fd : FreeDiameter) : AvpTree → Prop
  | .leaf name value =>
    cName name = name ∧ ∃ d, fd.dict name = some d ∧ value.basetype = d.avp_basetype
  | .group name children =>
    (cName name = name ∧ ∃ d, fd.dict name = some d ∧ d.avp_basetype = .grouped) ∧
      TypedAll fd children

def TypedAll (fd : FreeDiameter) : List AvpTree → Prop
  | [] => True
  | a :: rest => Typed fd a ∧ TypedAll fd rest

end

mutual

def AvpTree.octets : AvpTree → List Octets
  | .leaf _ (.os data) => [data]
  | .leaf _ _ => []
  | .group _ children => octetsIn children

def octetsIn : List AvpTree → List Octets
  | [] => []
  | a :: rest => a.octets ++ octetsIn rest

end

/-- The calendar of the system is right about what are times in a tree. -/
def Covered (w : Writer) (octets : List Octets) : Prop :=
  ∀ data ∈ octets, data.length = 4 → w.system.Covers (timeSeconds data)

theorem Typed.dict {fd : FreeDiameter} {a : AvpTree} (h : Typed fd a) :
    cName a.name = a.name ∧ ∃ d, fd.dict a.name = some d := by
  cases a with
  | leaf name value =>
    rw [Typed] at h
    obtain ⟨hname, d, hd, -⟩ := h
    exact ⟨hname, d, hd⟩
  | group name children =>
    rw [Typed] at h
    obtain ⟨⟨hname, d, hd, -⟩, -⟩ := h
    exact ⟨hname, d, hd⟩

/-! ### Places -/

mutual

theorem nodes_place (path : Path) (reference : Option String) :
    (a : AvpTree) → ∀ e ∈ nodes path reference a, path <:+ e.1
  | .leaf name value => by
    intro e he
    rw [nodes] at he
    obtain rfl := List.mem_singleton.mp he
    exact List.suffix_refl path
  | .group name children => by
    intro e he
    rw [nodes] at he
    rcases List.mem_cons.mp he with rfl | he
    · exact List.suffix_refl path
    · exact (nodesFrom_place path 0 (some name) children e he).suffix

theorem nodesFrom_place (path : Path) (i : Nat) (reference : Option String) :
    (as : List AvpTree) → ∀ e ∈ nodesFrom path i reference as, From path i e.1
  | [] => by
    intro e he
    rw [nodesFrom] at he
    exact absurd he nofun
  | a :: rest => by
    intro e he
    rw [nodesFrom] at he
    rcases List.mem_append.mp he with he | he
    · exact from_of_suffix (nodes_place (i :: path) reference a e he)
    · exact (nodesFrom_place path (i + 1) reference rest e he).next

end

section Added

variable {α β : Type}

theorem added_place {A : Path → Prop} {x : Code α} (hx : About A x) : ∀ e ∈ added x, A e.1 := by
  intro e he
  obtain ⟨e', he', heq⟩ := List.mem_filterMap.mp he
  obtain ⟨ev, -, rfl⟩ := Option.map_eq_some_iff.mp heq
  exact hx.1 e' he'

theorem added_append (l : List (Path × Event)) (m : Code α) :
    added (⟨l ++ m.effects, m.result⟩ : Code α)
      = added (⟨l, .ok ()⟩ : Code Unit) ++ added m :=
  List.filterMap_append

/-- Code that adds no AVPs is run after others. -/
theorem added_behind (l : List (Path × Event)) (r : Except Stop Unit) (m : Code α)
    (hm : added m = []) :
    added (⟨l ++ m.effects, m.result⟩ : Code α) = added (⟨l, r⟩ : Code Unit) := by
  rw [added_append, hm, List.append_nil]
  rfl

/-- What is reported are no AVPs. -/
theorem added_callErrfunc (errfunc : Bool) (path : Path) (r : Report) :
    added (callErrfunc errfunc path r) = [] := by
  cases errfunc <;> rfl

/-- An exception that is caught changes nothing about the AVPs that were added. -/
theorem added_catchInfo (errfunc : Bool) (x : Code Unit) :
    added (catchInfo errfunc x) = added x := by
  obtain ⟨l, r⟩ := x
  cases r with
  | ok a => rfl
  | error s =>
    cases s with
    | runtimeInfo path i =>
      exact added_behind l _ (callErrfunc errfunc path (.info i)) (added_callErrfunc errfunc path _)
    | runtimeError f => exact added_behind l _ (Traced.raise (.runtimeError f) : Code Unit) rfl
    | nullCall => exact added_behind l _ (Traced.raise .nullCall : Code Unit) rfl
    | assertion => exact added_behind l _ (Traced.raise .assertion : Code Unit) rfl

end Added

/-! ### One AVP -/

section Code

variable {fd : FreeDiameter} {w : Writer} {errfunc : Bool} {path : Path} {reference : Option String}
  {d : DictAvp} {derived : Option String}

theorem readValue_basetype {j : Json} {v : AvpValue} (h : readValue fd d j = some v) :
    v.basetype = d.avp_basetype := by
  cases j with
  | number n => exact numberValue_basetype h
  | string s => exact stringValue_basetype h
  | _ => exact absurd h nofun

/-- The member of a value is a number or a string. -/
theorem memberValue_code {name : String} {v : AvpValue} {j j' : Json}
    (hj : memberValue w name derived v = .ok j) (hj' : rereadJson w j = some j')
    (hd : fd.dict name = some d) :
    fdJsonAddAvp fd errfunc path reference name j'
      = addValue fd path reference name d (readValue fd d j') := by
  have hkind : (∃ n, j = .number n) ∨ ∃ s, j = .string s := by
    cases v with
    | os data =>
      rw [memberValue] at hj
      cases ht : octetsText w name derived data with
      | error e =>
        rw [ht] at hj
        cases hj
      | ok s =>
        rw [ht] at hj
        exact Or.inr ⟨s, (Except.ok.inj hj).symm⟩
    | _ => exact Or.inl ⟨_, (Except.ok.inj hj).symm⟩
  have hnew : newAvp fd path name = (pure d : Code DictAvp) := by rw [newAvp, hd]
  rcases hkind with ⟨n, rfl⟩ | ⟨s, rfl⟩
  · rw [rereadJson] at hj'
    obtain ⟨n', -, rfl⟩ := Option.map_eq_some_iff.mp hj'
    rw [fdJsonAddAvp, hnew]
    rfl
  · rw [rereadJson] at hj'
    cases hj'
    rw [fdJsonAddAvp, hnew]
    rfl

/-- The AVP of a value. -/
theorem addValue_some (hworks : fd.Works) (hparent : fd.Parent reference) {name : String}
    (hd : fd.dict name = some d) {j : Json} {v : AvpValue} (hv : readValue fd d j = some v) :
    addValue fd path reference name d (readValue fd d j)
      = ⟨[(path, .added reference name (some v))], .ok ()⟩ := by
  have hbase := readValue_basetype hv
  have hgrouped : ¬ d.avp_basetype = .grouped := hbase ▸ basetype_ne_grouped v
  rw [hv, addValue, addTo_of_works hworks hparent hd (Or.inr hbase), if_neg hgrouped]

/-- The code for a group: the AVP, and the members in it. -/
theorem group_code (hworks : fd.Works) (hparent : fd.Parent reference) {name : String}
    (hd : fd.dict name = some d) {members : List (String × Json)}
    (hgrouped : d.avp_basetype = .grouped) :
    fdJsonAddAvp fd errfunc path reference name (.object members)
      = ⟨(path, .added reference name none) ::
          (addMembers fd errfunc path 0 (some name) members).effects,
        (addMembers fd errfunc path 0 (some name) members).result⟩ := by
  have hnew : newAvp fd path name = (pure d : Code DictAvp) := by rw [newAvp, hd]
  have hadd : addTo fd path reference name d d.avp_basetype.zero = _ :=
    addTo_of_works hworks hparent hd (Or.inl hgrouped)
  rw [if_pos hgrouped] at hadd
  rw [fdJsonAddAvp, hnew]
  show (addTo fd path reference name d d.avp_basetype.zero).bind _ = _
  rw [hadd]
  rfl

/-- The AVPs that were added for the members of an object: those of the first, and if it lets no
exception out, those of the rest. -/
theorem added_members_cons (i : Nat) (name : String) (j : Json) (rest : List (String × Json)) :
    added (addMembers fd errfunc path i reference ((name, j) :: rest))
      = added (fdJsonAddAvp fd errfunc (i :: path) reference (cName name) j) ++
        match (catchInfo errfunc (fdJsonAddAvp fd errfunc (i :: path) reference (cName name) j)).result with
        | .ok _ => added (addMembers fd errfunc path (i + 1) reference rest)
        | .error _ => [] := by
  rw [addMembers, ← added_catchInfo errfunc (fdJsonAddAvp fd errfunc (i :: path) reference _ j)]
  show added (Traced.bind _ _) = _
  generalize catchInfo errfunc (fdJsonAddAvp fd errfunc (i :: path) reference (cName name) j) = x
  obtain ⟨l, r⟩ := x
  cases r with
  | ok u => exact added_append l _
  | error s => exact (List.append_nil _).symm

/-! ### Groups -/

/-- The members of a group, one after the other. -/
theorem fdJsonAddMembers_cons {a : AvpTree} {rest : List AvpTree} (hd : fd.dict a.name = some d)
    (ms : List (String × Json)) :
    fdJsonAddMembers fd w derived (a :: rest) = .ok ms ↔
      ∃ j ms', fdJsonAddMember fd w (nextDerived d derived) a = .ok j ∧
        fdJsonAddMembers fd w (nextDerived d derived) rest = .ok ms' ∧ ms = (a.name, j) :: ms' := by
  rw [fdJsonAddMembers, model, hd]
  show (fdJsonAddMember fd w (nextDerived d derived) a >>= fun j =>
    fdJsonAddMembers fd w (nextDerived d derived) rest >>= fun ms' =>
      pure ((a.name, j) :: ms')) = _ ↔ _
  cases fdJsonAddMember fd w (nextDerived d derived) a with
  | error e => exact iff_of_false nofun (by rintro ⟨_, _, h, -⟩; exact absurd h nofun)
  | ok j =>
    cases fdJsonAddMembers fd w (nextDerived d derived) rest with
    | error e => exact iff_of_false nofun (by rintro ⟨_, _, -, h, -⟩; exact absurd h nofun)
    | ok ms' =>
      constructor
      · intro h
        exact ⟨j, ms', rfl, rfl, (Except.ok.inj h).symm⟩
      · rintro ⟨_, _, hj, hms, rfl⟩
        cases hj
        cases hms
        rfl

theorem rereadMembers_cons (name : String) (j : Json) (ms ms' : List (String × Json)) :
    rereadMembers w ((name, j) :: ms) = some ms' ↔
      ∃ j' ms1, rereadJson w j = some j' ∧ rereadMembers w ms = some ms1 ∧ ms' = (name, j') :: ms1 := by
  rw [rereadMembers]
  cases rereadJson w j with
  | none => exact iff_of_false nofun (by rintro ⟨_, _, h, -⟩; exact absurd h nofun)
  | some j' =>
    cases rereadMembers w ms with
    | none => exact iff_of_false nofun (by rintro ⟨_, _, -, h, -⟩; exact absurd h nofun)
    | some ms1 =>
      constructor
      · intro h
        exact ⟨j', ms1, rfl, rfl, (Option.some.inj h).symm⟩
      · rintro ⟨_, _, hj, hms, rfl⟩
        cases hj
        cases hms
        rfl

theorem covered_append {l m : List Octets} (h : Covered w (l ++ m)) : Covered w l ∧ Covered w m :=
  ⟨fun data hdata => h data (List.mem_append_left m hdata),
    fun data hdata => h data (List.mem_append_right l hdata)⟩

theorem covered_leaf {name : String} {v : AvpValue} (h : Covered w (AvpTree.leaf name v).octets) :
    ∀ data, v = .os data → data.length = 4 → w.system.Covers (timeSeconds data) := by
  rintro data rfl
  exact h data (by simp [AvpTree.octets])

mutual

/-- **An AVP that is kept** is written, read and added. -/
theorem member_kept (hworks : fd.Works) (hfaith : w.Faithful fd) (a : AvpTree) (htyped : Typed fd a)
    (hcover : Covered w a.octets) (prior : Option String) {d : DictAvp} (hd : fd.dict a.name = some d)
    (path : Path) (reference : Option String) (hparent : fd.Parent reference)
    (hkept : memberKept fd w d (nextDerived d prior) a = true) :
    ∃ j j', fdJsonAddMember fd w (nextDerived d prior) a = .ok j ∧ rereadJson w j = some j' ∧
      added (fdJsonAddAvp fd errfunc path reference a.name j') = nodes path reference a ∧
      (fdJsonAddAvp fd errfunc path reference a.name j').result = .ok () := by
  match a with
  | .leaf name v =>
    rw [Typed] at htyped
    obtain ⟨-, d', hd', hbase⟩ := htyped
    obtain rfl : d' = d := Option.some.inj (hd'.symm.trans hd)
    rw [memberKept] at hkept
    obtain ⟨j, j', v', hj, hj', hv', hexact⟩ :=
      (value_iff hfaith name hbase (covered_leaf hcover)).mpr hkept
    refine ⟨j, j', hj, hj', ?_⟩
    rw [AvpTree.name, memberValue_code hj hj' hd', addValue_some hworks hparent hd' hv', nodes, ← hexact]
    exact ⟨rfl, rfl⟩
  | .group name children =>
    rw [Typed] at htyped
    obtain ⟨⟨-, d', hd', hgrouped⟩, hchildren⟩ := htyped
    rw [memberKept] at hkept
    have hgroup : fd.Parent (some name) :=
      Parent_group (by rw [isGroup_of_grouped hd', hgrouped]; rfl)
    rw [AvpTree.octets] at hcover
    obtain ⟨ms, ms', hms, hms', hadded, hresult⟩ :=
      members_kept hworks hfaith children hchildren hcover none path 0 (some name) hgroup hkept
    refine ⟨.object ms, .object ms', ?_, ?_, ?_⟩
    · rw [fdJsonAddMember, hms]
      rfl
    · rw [rereadJson, hms']
      rfl
    · rw [AvpTree.name, group_code hworks hparent hd' hgrouped, nodes, ← hadded]
      exact ⟨rfl, hresult⟩

/-- **The AVPs of a group that are kept** are written, read and added. -/
theorem members_kept (hworks : fd.Works) (hfaith : w.Faithful fd) (as : List AvpTree)
    (htyped : TypedAll fd as) (hcover : Covered w (octetsIn as)) (prior : Option String)
    (path : Path) (i : Nat) (reference : Option String) (hparent : fd.Parent reference)
    (hkept : membersKept fd w prior as = true) :
    ∃ ms ms', fdJsonAddMembers fd w prior as = .ok ms ∧ rereadMembers w ms = some ms' ∧
      added (addMembers fd errfunc path i reference ms') = nodesFrom path i reference as ∧
      (addMembers fd errfunc path i reference ms').result = .ok () := by
  match as with
  | [] =>
    refine ⟨[], [], by rw [fdJsonAddMembers], by rw [rereadMembers], ?_⟩
    rw [addMembers, nodesFrom]
    exact ⟨rfl, rfl⟩
  | a :: rest =>
    rw [TypedAll] at htyped
    rw [octetsIn] at hcover
    obtain ⟨ha, hrest⟩ := htyped
    obtain ⟨hca, hcrest⟩ := covered_append hcover
    obtain ⟨hname, d, hd⟩ := ha.dict
    rw [membersKept, hd] at hkept
    obtain ⟨hka, hkrest⟩ := (Bool.and_eq_true _ _).mp hkept
    obtain ⟨j, j', hj, hj', haddeda, hresulta⟩ :=
      member_kept hworks hfaith a ha hca prior hd (i :: path) reference hparent hka
    obtain ⟨ms, ms', hms, hms', hadded, hresult⟩ :=
      members_kept hworks hfaith rest hrest hcrest (nextDerived d prior) path (i + 1) reference
        hparent hkrest
    refine ⟨_, _, (fdJsonAddMembers_cons hd _).mpr ⟨j, ms, hj, hms, rfl⟩,
      (rereadMembers_cons _ _ _ _).mpr ⟨j', ms', hj', hms', rfl⟩, ?_⟩
    have hcatch : catchInfo errfunc (fdJsonAddAvp fd errfunc (i :: path) reference a.name j')
        = fdJsonAddAvp fd errfunc (i :: path) reference a.name j' :=
      catchInfo_of_no_info fun p info h => absurd (hresulta.symm.trans h) nofun
    constructor
    · rw [added_members_cons, hname, hcatch, hresulta, haddeda, hadded, nodesFrom]
    · rw [addMembers, hname, hcatch]
      generalize fdJsonAddAvp fd errfunc (i :: path) reference a.name j' = x at hresulta
      obtain ⟨l, r⟩ := x
      cases hresulta
      exact hresult

end

mutual

/-- **The other way round**: an AVP that is added for itself is kept. -/
theorem member_of_added (hworks : fd.Works) (hfaith : w.Faithful fd) (a : AvpTree)
    (htyped : Typed fd a) (hcover : Covered w a.octets) (prior : Option String) {d : DictAvp}
    (hd : fd.dict a.name = some d) (path : Path) (reference : Option String)
    (hparent : fd.Parent reference) {j j' : Json}
    (hj : fdJsonAddMember fd w (nextDerived d prior) a = .ok j) (hj' : rereadJson w j = some j')
    (hadded : added (fdJsonAddAvp fd errfunc path reference a.name j') = nodes path reference a) :
    memberKept fd w d (nextDerived d prior) a = true := by
  match a with
  | .leaf name v =>
    rw [Typed] at htyped
    obtain ⟨-, d', hd', hbase⟩ := htyped
    obtain rfl : d' = d := Option.some.inj (hd'.symm.trans hd)
    rw [memberKept]
    rw [AvpTree.name, memberValue_code hj hj' hd', nodes] at hadded
    refine (value_iff hfaith name hbase (covered_leaf hcover)).mp ?_
    cases hv : readValue fd d' j' with
    | none =>
      rw [hv] at hadded
      exact absurd hadded nofun
    | some v' =>
      rw [addValue_some hworks hparent hd' hv] at hadded
      have hexact : v'.exact = v.exact := by simpa [added, Event.avp] using hadded
      exact ⟨j, j', v', hj, hj', hv, hexact⟩
  | .group name children =>
    rw [Typed] at htyped
    obtain ⟨⟨-, d', hd', hgrouped⟩, hchildren⟩ := htyped
    have hgroup : fd.Parent (some name) :=
      Parent_group (by rw [isGroup_of_grouped hd', hgrouped]; rfl)
    rw [AvpTree.octets] at hcover
    rw [memberKept]
    rw [fdJsonAddMember] at hj
    cases hms : fdJsonAddMembers fd w none children with
    | error e =>
      rw [hms] at hj
      exact absurd hj nofun
    | ok ms =>
      rw [hms] at hj
      cases hj
      rw [rereadJson] at hj'
      obtain ⟨ms', hms', rfl⟩ := Option.map_eq_some_iff.mp hj'
      rw [AvpTree.name, group_code hworks hparent hd' hgrouped, nodes] at hadded
      exact members_of_added hworks hfaith children hchildren hcover none path 0 (some name) hgroup
        hms hms' (List.cons.inj hadded).2

/-- **AVPs of a group that are added for themselves** are kept. -/
theorem members_of_added (hworks : fd.Works) (hfaith : w.Faithful fd) (as : List AvpTree)
    (htyped : TypedAll fd as) (hcover : Covered w (octetsIn as)) (prior : Option String)
    (path : Path) (i : Nat) (reference : Option String) (hparent : fd.Parent reference)
    {ms ms' : List (String × Json)} (hms : fdJsonAddMembers fd w prior as = .ok ms)
    (hms' : rereadMembers w ms = some ms')
    (hadded : added (addMembers fd errfunc path i reference ms') = nodesFrom path i reference as) :
    membersKept fd w prior as = true := by
  match as with
  | [] => rw [membersKept]
  | a :: rest =>
    rw [TypedAll] at htyped
    rw [octetsIn] at hcover
    obtain ⟨ha, hrest⟩ := htyped
    obtain ⟨hca, hcrest⟩ := covered_append hcover
    obtain ⟨hname, d, hd⟩ := ha.dict
    obtain ⟨j, ms1, hj, hms1, rfl⟩ := (fdJsonAddMembers_cons hd _).mp hms
    obtain ⟨j', ms2, hj', hms2, rfl⟩ := (rereadMembers_cons _ _ _ _).mp hms'
    rw [added_members_cons, hname, nodesFrom] at hadded
    -- the AVPs for `a` are told from those for the rest by their places
    have hplace := added_place (about_fdJsonAddAvp fd errfunc (i :: path) reference a.name j')
    have hnodes := nodes_place (i :: path) reference a
    have hfrom := fun e he => (nodesFrom_place path (i + 1) reference rest e he).not_suffix
    have hbehind := added_place (about_addMembers fd errfunc path (i + 1) reference ms2)
    have hsplit := (Traced.append_eq_append_of_disjoint (P := fun e => (i :: path) <:+ e.1) hplace
      hnodes (fun e he => by
        split at he
        · exact (hbehind e he).not_suffix
        · exact absurd he nofun) hfrom).mp hadded
    have hka := member_of_added hworks hfaith a ha hca prior hd (i :: path) reference hparent hj hj'
      hsplit.1
    obtain ⟨j1, j1', hj1, hj1', -, hresult⟩ :=
      @member_kept fd w errfunc hworks hfaith a ha hca prior d hd (i :: path) reference hparent hka
    obtain rfl : j1 = j := Except.ok.inj (hj1.symm.trans hj)
    obtain rfl : j1' = j' := Option.some.inj (hj1'.symm.trans hj')
    have hcatch : catchInfo errfunc (fdJsonAddAvp fd errfunc (i :: path) reference a.name j1')
        = fdJsonAddAvp fd errfunc (i :: path) reference a.name j1' :=
      catchInfo_of_no_info fun p info h => absurd (hresult.symm.trans h) nofun
    have hrestadded := hsplit.2
    rw [hcatch, hresult] at hrestadded
    rw [membersKept, hd]
    exact (Bool.and_eq_true _ _).mpr ⟨hka, members_of_added hworks hfaith rest hrest hcrest
      (nextDerived d prior) path (i + 1) reference hparent hms1 hms2 hrestadded⟩

end

/-! ### The document -/

/-- The AVPs that are added for a document with one member. -/
theorem added_document {json name : String} {j : Json}
    (hparse : fd.parse json = some (.object [(name, j)])) :
    added (fdJsonAddAvps fd errfunc (some json))
      = added (fdJsonAddAvp fd errfunc [0] none (cName name) j) := by
  rw [fdJsonAddAvps]
  simp only [Option.bind_some, hparse]
  rw [addDocument]
  generalize fdJsonAddAvp fd errfunc [0] none (cName name) j = x
  obtain ⟨l, r⟩ := x
  cases r with
  | ok u =>
    show added (⟨(l ++ []) ++ [], _⟩ : Code Int) = _
    rw [List.append_nil, List.append_nil]
    rfl
  | error s =>
    cases s with
    | runtimeError f =>
      refine added_behind l _ (callErrfunc errfunc [] (.failure f) >>= fun _ =>
        pure FDJSON_EXCEPTION : Code Int) ?_
      cases errfunc <;> rfl
    | runtimeInfo p info =>
      exact added_behind l _ (Traced.raise (.runtimeInfo p info) : Code Int) rfl
    | nullCall => exact added_behind l _ (Traced.raise .nullCall : Code Int) rfl
    | assertion => exact added_behind l _ (Traced.raise .assertion : Code Int) rfl

/-- The text of a tree. -/
theorem fdJsonGetJSON_iff {tree : AvpTree} (htyped : Typed fd tree) (json : String) :
    fdJsonGetJSON fd w tree = .ok json ↔
      ∃ ms, fdJsonAddMembers fd w none tree.children = .ok ms ∧
        document fd w tree = .ok (.object [(tree.name, .object ms)]) ∧
        json = w.write (.object [(tree.name, .object ms)]) := by
  obtain ⟨-, d, hd⟩ := htyped.dict
  rw [fdJsonGetJSON, document, model, hd]
  cases fdJsonAddMembers fd w none tree.children with
  | error e => exact iff_of_false nofun (by rintro ⟨_, h, -⟩; exact absurd h nofun)
  | ok ms =>
    constructor
    · intro h
      exact ⟨ms, rfl, rfl, (Except.ok.inj h).symm⟩
    · rintro ⟨_, hms, -, rfl⟩
      cases hms
      rfl

/-- What is asked, of the members that are written. -/
theorem restores_members {tree : AvpTree} (htyped : Typed fd tree)
    (hjson : ∀ doc, document fd w tree = .ok doc → fd.parse (w.write doc) = rereadJson w doc) :
    Restores fd w errfunc tree ↔
      ∃ ms ms', fdJsonAddMembers fd w none tree.children = .ok ms ∧ rereadMembers w ms = some ms' ∧
        added (fdJsonAddAvp fd errfunc [0] none tree.name (.object ms')) = nodes [0] none tree := by
  obtain ⟨hname, -⟩ := htyped.dict
  have hread : ∀ ms, rereadJson w (.object [(tree.name, .object ms)])
      = (rereadMembers w ms).map fun ms' => .object [(tree.name, .object ms')] := by
    intro ms
    rw [rereadJson, rereadMembers, rereadJson]
    cases rereadMembers w ms <;> rfl
  rw [Restores]
  constructor
  · rintro ⟨json, htext, hadded⟩
    obtain ⟨ms, hms, hdoc, rfl⟩ := (fdJsonGetJSON_iff htyped json).mp htext
    have hparse := hjson _ hdoc
    rw [hread] at hparse
    cases hms' : rereadMembers w ms with
    | none =>
      -- a text that is not parsed adds nothing
      rw [hms'] at hparse
      have hnone : added (fdJsonAddAvps fd errfunc
          (some (w.write (.object [(tree.name, .object ms)])))) = [] := by
        rw [fdJsonAddAvps, Option.bind_some, hparse]
        cases errfunc <;> rfl
      rw [hnone] at hadded
      cases tree <;> rw [nodes] at hadded <;> cases hadded
    | some ms' =>
      rw [hms'] at hparse
      rw [added_document hparse, hname] at hadded
      exact ⟨ms, ms', hms, hms', hadded⟩
  · rintro ⟨ms, ms', hms, hms', hadded⟩
    obtain ⟨-, d, hd⟩ := htyped.dict
    have hdoc : document fd w tree = .ok (.object [(tree.name, .object ms)]) := by
      rw [document, hms, model, hd]
      rfl
    have hparse := hjson _ hdoc
    rw [hread, hms'] at hparse
    refine ⟨_, (fdJsonGetJSON_iff htyped _).mpr ⟨ms, hms, hdoc, rfl⟩, ?_⟩
    rw [added_document hparse, hname]
    exact hadded

/-- **The round trip.**  The AVPs that are added for the JSON text of a tree are those of the tree, if
and only if the tree is kept. -/
theorem restores_iff (hworks : fd.Works) (hfaith : w.Faithful fd) (errfunc : Bool) (tree : AvpTree)
    (htyped : Typed fd tree) (hcover : Covered w tree.octets)
    (hjson : ∀ doc, document fd w tree = .ok doc → fd.parse (w.write doc) = rereadJson w doc) :
    Restores fd w errfunc tree ↔ treeKept fd w tree = true := by
  rw [restores_members htyped hjson]
  cases tree with
  | leaf name v =>
    rw [Typed] at htyped
    obtain ⟨-, d, hd, hbase⟩ := htyped
    have hgrouped : ¬ d.avp_basetype = .grouped := hbase ▸ basetype_ne_grouped v
    have hzero : d.avp_basetype.zero.basetype = d.avp_basetype := by
      cases hb : d.avp_basetype <;> first | rfl | exact absurd hb hgrouped
    have hadd : addTo fd [0] none name d d.avp_basetype.zero = _ :=
      addTo_of_works hworks Parent_none hd (Or.inr hzero)
    have hcode : added (fdJsonAddAvp fd errfunc [0] none name (.object []))
        = [([0], .added none name (some d.avp_basetype.zero.exact))] := by
      rw [fdJsonAddAvp, newAvp, hd]
      show added ((addTo fd [0] none name d d.avp_basetype.zero).bind _) = _
      rw [hadd, if_neg hgrouped, addMembers]
      rfl
    have hexact : d.avp_basetype.zero.exact = d.avp_basetype.zero := by
      cases d.avp_basetype <;> rfl
    rw [treeKept, decide_eq_true_iff, nodes, hbase]
    constructor
    · rintro ⟨ms, ms', hms, hms', hadded⟩
      rw [AvpTree.children, fdJsonAddMembers] at hms
      cases hms
      rw [rereadMembers] at hms'
      cases hms'
      rw [AvpTree.name, hcode, hexact] at hadded
      simpa using hadded.symm
    · intro hv
      refine ⟨[], [], by rw [AvpTree.children, fdJsonAddMembers], by rw [rereadMembers], ?_⟩
      rw [AvpTree.name, hcode, hexact, hv]
  | group name children =>
    rw [Typed] at htyped
    obtain ⟨⟨-, d, hd, hgrouped⟩, hchildren⟩ := htyped
    have hgroup : fd.Parent (some name) :=
      Parent_group (by rw [isGroup_of_grouped hd, hgrouped]; rfl)
    rw [AvpTree.octets] at hcover
    rw [treeKept]
    constructor
    · rintro ⟨ms, ms', hms, hms', hadded⟩
      rw [AvpTree.name, group_code hworks Parent_none hd hgrouped, nodes] at hadded
      exact members_of_added hworks hfaith children hchildren hcover none [0] 0 (some name) hgroup
        hms hms' (List.cons.inj hadded).2
    · intro hkept
      obtain ⟨ms, ms', hms, hms', hadded, -⟩ := @members_kept fd w errfunc hworks hfaith children
        hchildren hcover none [0] 0 (some name) hgroup hkept
      refine ⟨ms, ms', hms, hms', ?_⟩
      rw [AvpTree.name, group_code hworks Parent_none hd hgrouped, nodes, ← hadded]
      rfl

end Code

/-! ### Two trees -/

/-- A calendar for the first minute of 1970. -/
def firstMinute : Stime.System where
  gmtime s := ⟨70, 0, 1, 0, 0, s⟩
  mktime t := t.tm_sec + 60 * t.tm_min + 3600 * t.tm_hour
  time := 0

/-- A system whose addresses are digits behind a dot or a colon. -/
def textWriter (text : String) : Writer where
  system := firstMinute
  inet_ntop4 addr := 0x2E :: digitsOf addr
  inet_ntop6 addr := 0x3A :: digitsOf addr
  ofFloat _ := .double true 0
  ofDouble _ := .double true 0
  write _ := text
  reread := some

/-- A freeDiameter with some AVPs of all kinds, and the parser of one text. -/
def textDiameter (text : String) (doc : Json) : FreeDiameter where
  parse json := if json = text then some doc else none
  dict name :=
    if name = "Subscription-Data" then some ⟨.grouped, none⟩
    else if name = "Context-Identifier" then some ⟨.unsigned32, none⟩
    else if name = "MSISDN" then some ⟨.octetString, none⟩
    else if name = "Service-Selection" then some ⟨.octetString, some "UTF8String"⟩
    else if name = "Event-Timestamp" then some ⟨.octetString, some "Time"⟩
    else none
  avpNew _ := 0
  setvalue _ _ := 0
  avpAdd _ _ := 0
  inet_pton4 text := match text with
    | 0x2E :: digits => some (hexOctets digits)
    | _ => none
  inet_pton6 text := match text with
    | 0x3A :: digits => some (hexOctets digits)
    | _ => none
  parseDateTime := firstMinute.ParseDateTime
  float _ := 0

theorem textDiameter_works (text : String) (doc : Json) : (textDiameter text doc).Works :=
  ⟨fun _ _ _ => rfl, fun _ _ _ _ _ => rfl, fun _ _ _ _ _ => rfl⟩

theorem textDiameter_parse (text : String) (doc doc' : Json) :
    (textDiameter text doc).parse ((textWriter text).write doc') = some doc := if_pos rfl

theorem textWriter_faithful (text : String) (doc : Json) :
    (textWriter text).Faithful (textDiameter text doc) where
  ntop4 addr _ := by
    refine ⟨congrArg some (hexOctets_digitsOf addr), List.mem_cons_self, fun h => ?_⟩
    rcases List.mem_cons.mp h with h | h
    · exact absurd h (by decide)
    · exact ((digitsOf_spec addr).2 0 h).2 rfl
  ntop6 addr _ := by
    refine ⟨rfl, congrArg some (hexOctets_digitsOf addr), List.mem_cons_self, fun h => ?_⟩
    rcases List.mem_cons.mp h with h | h
    · exact absurd h (by decide)
    · exact ((digitsOf_spec addr).2 0 h).2 rfl
  parseDateTime := rfl
  reread _ _ := rfl

theorem firstMinute_covers : firstMinute.Covers 5 := by
  have hzone : ∃ zone, firstMinute.Zoned zone 5 := ⟨0, by decide, by decide, by decide⟩
  refine ⟨⟨by decide, ?_⟩, hzone, 5, by decide, by decide, by decide, hzone⟩
  constructor <;> decide

/-- A subscription with a number, octets, a text, a time of five seconds, and a group of its own. -/
def subscription : AvpTree :=
  .group "Subscription-Data"
    [.leaf "MSISDN" (.os [0, 0x21]), .leaf "Context-Identifier" (.u32 7),
      .leaf "Service-Selection" (.os [0x69, 0x6D, 0x73]),
      .leaf "Event-Timestamp" (.os [0x83, 0xAA, 0x7E, 0x85]),
      .group "Subscription-Data" [.leaf "MSISDN" (.os [0xFF])]]

/-- "1970-01-01T00:00:05.000". -/
def fiveSeconds : Octets :=
  [0x31, 0x39, 0x37, 0x30, 0x2D, 0x30, 0x31, 0x2D, 0x30, 0x31, 0x54, 0x30, 0x30, 0x3A, 0x30, 0x30,
    0x3A, 0x30, 0x35, 0x2E, 0x30, 0x30, 0x30]

def subscriptionDocument : Json :=
  .object [("Subscription-Data", .object
    [("MSISDN", .string [0x30, 0x78, 0x30, 0x30, 0x32, 0x31]), ("Context-Identifier", .number (.int 7)),
      ("Service-Selection", .string [0x69, 0x6D, 0x73]), ("Event-Timestamp", .string fiveSeconds),
      ("Subscription-Data", .object [("MSISDN", .string [0x30, 0x78, 0x46, 0x46])])])]

def subscriptionText : String :=
  "\x7b\"Subscription-Data\":\x7b\"MSISDN\":\"0x0021\",\"Context-Identifier\":7,\"Service-Selection\":\"ims\",\"Event-Timestamp\":\"1970-01-01T00:00:05.000\",\"Subscription-Data\":\x7b\"MSISDN\":\"0xFF\"\x7d\x7d\x7d"

theorem document_subscription :
    document (textDiameter subscriptionText subscriptionDocument) (textWriter subscriptionText)
      subscription = .ok subscriptionDocument := by
  rfl

theorem restores_iff_subscription :
    Restores (textDiameter subscriptionText subscriptionDocument) (textWriter subscriptionText) true
      subscription := by
  refine (restores_iff (textDiameter_works _ _) (textWriter_faithful _ _) true subscription ?_ ?_
    fun doc hdoc => ?_).mpr (by rfl)
  · simp only [subscription, Typed, TypedAll, and_true]
    exact ⟨⟨rfl, _, rfl, rfl⟩, ⟨rfl, _, rfl, rfl⟩, ⟨rfl, _, rfl, rfl⟩, ⟨rfl, _, rfl, rfl⟩,
      ⟨rfl, _, rfl, rfl⟩, ⟨rfl, _, rfl, rfl⟩, ⟨rfl, _, rfl, rfl⟩⟩
  · intro data hdata hlen
    have hmem : data ∈ ([[0, 0x21], [0x69, 0x6D, 0x73], [0x83, 0xAA, 0x7E, 0x85], [0xFF]] : List Octets) :=
      hdata
    simp only [List.mem_cons, List.not_mem_nil, or_false] at hmem
    rcases hmem with rfl | rfl | rfl | rfl
    · exact absurd hlen (by decide)
    · exact absurd hlen (by decide)
    · exact firstMinute_covers
    · exact absurd hlen (by decide)
  · rw [document_subscription] at hdoc
    cases hdoc
    rw [textDiameter_parse]
    rfl

/-- A subscription whose octets stand behind a text. -/
def carried : AvpTree :=
  .group "Subscription-Data" [.leaf "Service-Selection" (.os [0x69, 0x6D, 0x73]),
    .leaf "MSISDN" (.os [0x21, 0])]

def carriedDocument : Json :=
  .object [("Subscription-Data", .object
    [("Service-Selection", .string [0x69, 0x6D, 0x73]), ("MSISDN", .string [0x21, 0])])]

def carriedText : String :=
  "\x7b\"Subscription-Data\":\x7b\"Service-Selection\":\"ims\",\"MSISDN\":\"!\\u0000\"\x7d\x7d"

/-- The octets are written as a text, and lose their NUL. -/
theorem carried_not_restored :
    ¬ ∀ fd w errfunc tree, FreeDiameter.Works fd → Writer.Faithful fd w → Typed fd tree →
      Covered w tree.octets →
      (∀ doc, document fd w tree = .ok doc → fd.parse (w.write doc) = rereadJson w doc) →
      Restores fd w errfunc tree := by
  intro h
  have hdoc : document (textDiameter carriedText carriedDocument) (textWriter carriedText) carried
      = .ok carriedDocument := by rfl
  have htyped : Typed (textDiameter carriedText carriedDocument) carried := by
    simp only [carried, Typed, TypedAll, and_true]
    exact ⟨⟨rfl, _, rfl, rfl⟩, ⟨rfl, _, rfl, rfl⟩, ⟨rfl, _, rfl, rfl⟩⟩
  have hcovered : Covered (textWriter carriedText) carried.octets := by
    intro data hdata hlen
    have hmem : data ∈ ([[0x69, 0x6D, 0x73], [0x21, 0]] : List Octets) := hdata
    simp only [List.mem_cons, List.not_mem_nil, or_false] at hmem
    rcases hmem with rfl | rfl <;> exact absurd hlen (by decide)
  obtain ⟨json, hjson, hadded⟩ := h _ _ true carried (textDiameter_works carriedText carriedDocument)
    (textWriter_faithful carriedText carriedDocument) htyped hcovered fun doc hdoc' => by
      rw [hdoc] at hdoc'
      cases hdoc'
      rw [textDiameter_parse]
      rfl
  have htext : json = carriedText := by
    rw [fdJsonGetJSON, hdoc] at hjson
    exact (Except.ok.inj hjson).symm
  subst htext
  exact absurd hadded (by decide)

end OpenairHss.FdJson
