import OpenairHss.FdJson.AddAvps

/-!
# Members that cannot be converted

What is asked of `fdJsonAddAvps` (`Handles`): it returns a status, and of the members of a document
it adds all that can be converted, in their order; the others, at whatever depth, are skipped, and
reported if there is an `errfunc`.  This is `expectedMembers`.

The code catches a `runtimeInfo` around every member of an object inside of the document, but not
around the members of the document, and not around the elements of an array; it does not ask whether
`errfunc` is `NULL`; and it takes an object for an AVP that is not grouped.  So

* `sound`: nothing is wrong with a member, except inside of the groups that belong to it;
* `tolerable`: the code does as is asked with a member of an object inside of the document.

`fdJsonAddAvps_iff` says that the code does what is asked on exactly the texts that are
`manageable`.
-/

namespace OpenairHss.FdJson

section Expected

variable (fd : FreeDiameter) (errfunc : Bool)

/-! ### What is asked of the code -/

/-- A member that is skipped. -/
def skipped (path : Path) (i : Info) : List (Path × Event) :=
  if errfunc then [(path, .reported (.info i))] else []

/-- The member of a single value. -/
def expectedValue (path : Path) (reference : Option String) (name : String) (d : DictAvp)
    (value : Option AvpValue) : List (Path × Event) :=
  match value with
  | some v => [(path, .added reference name (some v))]
  | none => skipped errfunc path (.mismatch name d.type)

mutual

/-- What a member leaves. -/
def expectedAvp (path : Path) (reference : Option String) (name : String) :
    Json → List (Path × Event)
  | .bool _ => match fd.dict name with
    | none => skipped errfunc path (.unknown name)
    | some _ => skipped errfunc path (.bool name)
  | .null => match fd.dict name with
    | none => skipped errfunc path (.unknown name)
    | some _ => skipped errfunc path (.null name)
  | .number n => match fd.dict name with
    | none => skipped errfunc path (.unknown name)
    | some d => expectedValue errfunc path reference name d (numberValue fd d n)
  | .string s => match fd.dict name with
    | none => skipped errfunc path (.unknown name)
    | some d => expectedValue errfunc path reference name d (stringValue fd d s)
  | .array elements => match fd.dict name with
    | none => skipped errfunc path (.unknown name)
    | some _ => expectedElements path 0 reference name elements
  | .object members => match fd.dict name with
    | none => skipped errfunc path (.unknown name)
    | some d =>
      if d.avp_basetype = .grouped then
        (path, .added reference name none) :: expectedMembers path 0 (some name) members
      else skipped errfunc path (.mismatch name d.type)

/-- What the elements of an array leave. -/
def expectedElements (path : Path) (i : Nat) (reference : Option String) (name : String) :
    List Json → List (Path × Event)
  | [] => []
  | value :: rest =>
    expectedAvp (i :: path) reference name value ++ expectedElements path (i + 1) reference name rest

/-- What the members of an object leave. -/
def expectedMembers (path : Path) (i : Nat) (reference : Option String) :
    List (String × Json) → List (Path × Event)
  | [] => []
  | (name, value) :: rest =>
    expectedAvp (i :: path) reference (cName name) value ++ expectedMembers path (i + 1) reference rest

end

/-- **What is asked**: a status is returned, and an object is converted member by member. -/
def Handles (json : Option String) : Prop :=
  (∃ status, (fdJsonAddAvps fd errfunc json).result = .ok status) ∧
    ∀ members, json.bind fd.parse = some (.object members) →
      (fdJsonAddAvps fd errfunc json).effects = expectedMembers fd errfunc [] 0 none members

/-! ### The texts on which the code does it -/

/-- A number or a string of the type of the AVP. -/
def convertible (name : String) (value : Json) : Bool :=
  match fd.dict name, value with
  | some d, .number n => (numberValue fd d n).isSome
  | some d, .string s => (stringValue fd d s).isSome
  | _, _ => false

/-- The name of a grouped AVP. -/
def isGroup (name : String) : Bool :=
  match fd.dict name with
  | some d => decide (d.avp_basetype = .grouped)
  | none => false

mutual

/-- Nothing but arrays without a value. -/
def silent : Json → Bool
  | .array elements => silentElements elements
  | .bool _ | .null | .number _ | .string _ | .object _ => false

def silentElements : List Json → Bool
  | [] => true
  | value :: rest => silent value && silentElements rest

end

mutual

/-- No `runtimeInfo` comes out of the member. -/
def sound (name : String) : Json → Bool
  | .array elements => (fd.dict name).isSome && soundElements name elements
  | .object members => isGroup fd name && tolerableMembers members
  | .bool b => convertible fd name (.bool b)
  | .null => convertible fd name .null
  | .number n => convertible fd name (.number n)
  | .string s => convertible fd name (.string s)

def soundElements (name : String) : List Json → Bool
  | [] => true
  | value :: rest => sound name value && soundElements name rest

/-- In an object inside of the document, a `runtimeInfo` takes nothing else with it. -/
def tolerable (name : String) : Json → Bool
  | .array elements =>
    if (fd.dict name).isSome then tolerableElements name elements else errfunc
  | .object members =>
    if (fd.dict name).isSome then isGroup fd name && tolerableMembers members else errfunc
  | .bool b => errfunc || convertible fd name (.bool b)
  | .null => errfunc || convertible fd name .null
  | .number n => errfunc || convertible fd name (.number n)
  | .string s => errfunc || convertible fd name (.string s)

/-- The first element that is not sound is the last with a value. -/
def tolerableElements (name : String) : List Json → Bool
  | [] => true
  | value :: rest =>
    if sound name value then tolerableElements name rest
    else errfunc && tolerable name value && silentElements rest

def tolerableMembers : List (String × Json) → Bool
  | [] => true
  | (name, value) :: rest => tolerable (cName name) value && tolerableMembers rest

end

/-- The texts on which the code does what is asked. -/
def manageable (json : Option String) : Bool :=
  match json.bind fd.parse with
  | none => errfunc
  | some (.object members) => members.all fun m => sound fd errfunc (cName m.1) m.2
  | some _ => false

end Expected

/-! ### freeDiameter -/

/-- The base type that a value is for. -/
def AvpValue.basetype : AvpValue → BaseType
  | .i32 _ => .integer32
  | .i64 _ => .integer64
  | .u32 _ => .unsigned32
  | .u64 _ => .unsigned64
  | .f32 _ => .float32
  | .f64 _ => .float64
  | .os _ => .octetString

/-- What AVPs are added to: the message, or a grouped AVP. -/
def FreeDiameter.Parent (fd : FreeDiameter) (reference : Option String) : Prop :=
  ∀ name, reference = some name → isGroup fd name = true

/-- freeDiameter makes the AVPs of its dictionary, keeps values of their type, and adds them to a
message or to a grouped AVP. -/
structure FreeDiameter.Works (fd : FreeDiameter) : Prop where
  avpNew : ∀ name d, fd.dict name = some d → fd.avpNew name = 0
  setvalue : ∀ name d v, fd.dict name = some d → v.basetype = d.avp_basetype →
    fd.setvalue name v = 0
  avpAdd : ∀ reference name d, fd.Parent reference → fd.dict name = some d →
    fd.avpAdd reference name = 0

theorem numberValue_basetype {fd : FreeDiameter} {d : DictAvp} {n : JsonNumber} {v : AvpValue}
    (h : numberValue fd d n = some v) : v.basetype = d.avp_basetype := by
  unfold numberValue at h
  cases hb : d.avp_basetype <;> simp only [hb] at h <;>
    first
    | (split at h <;> simp at h; subst h; rfl)
    | simp at h

theorem stringValue_basetype {fd : FreeDiameter} {d : DictAvp} {s : Octets} {v : AvpValue}
    (h : stringValue fd d s = some v) : v.basetype = d.avp_basetype := by
  have hos : ∃ data, v = .os data := by
    unfold stringValue at h
    grind
  have hb : d.avp_basetype = .octetString := by
    unfold stringValue at h
    by_contra hne
    simp [hne] at h
  obtain ⟨data, rfl⟩ := hos
  exact hb.symm

theorem basetype_ne_grouped (v : AvpValue) : v.basetype ≠ .grouped := by
  cases v <;> exact nofun

/-! ### Places -/

/-- A place at the `i`-th member or after it. -/
def From (path : Path) (i : Nat) (p : Path) : Prop := ∃ j, i ≤ j ∧ (j :: path) <:+ p

theorem From.suffix {path : Path} {i : Nat} {p : Path} (h : From path i p) : path <:+ p := by
  obtain ⟨j, -, hj⟩ := h
  exact (List.suffix_cons j path).trans hj

theorem from_of_suffix {path : Path} {i : Nat} {p : Path} (h : (i :: path) <:+ p) :
    From path i p := ⟨i, Nat.le_refl i, h⟩

theorem From.next {path : Path} {i : Nat} {p : Path} (h : From path (i + 1) p) : From path i p := by
  obtain ⟨j, hj, hp⟩ := h
  exact ⟨j, by omega, hp⟩

/-- The places of the members that follow are other places. -/
theorem From.not_suffix {path : Path} {i : Nat} {p : Path} (h : From path (i + 1) p) :
    ¬ (i :: path) <:+ p := by
  intro hi
  obtain ⟨j, hj, hp⟩ := h
  have heq := (List.suffix_or_suffix_of_suffix hi hp).elim
    (fun h => h.eq_of_length (by simp)) (fun h => (h.eq_of_length (by simp)).symm)
  simp only [List.cons.injEq, and_true] at heq
  omega

theorem From.ne_nil {path : Path} {i : Nat} {p : Path} (h : From path i p) : p ≠ [] := by
  rintro rfl
  obtain ⟨j, -, hp⟩ := h
  simp at hp

section About

variable {α : Type} {A B : Path → Prop}

/-- The effects, and a `runtimeInfo`, are about places with a property. -/
def About (A : Path → Prop) (x : Code α) : Prop :=
  Traced.Within (fun e => A e.1) (fun s => ∀ p i, s = .runtimeInfo p i → A p) x

theorem About.mono {x : Code α} (h : About A x) (hAB : ∀ p, A p → B p) : About B x :=
  Traced.Within.mono h (fun _ he => hAB _ he) (fun _ hs p i hi => hAB p (hs p i hi))

variable {fd : FreeDiameter} {errfunc : Bool} {path : Path} {reference : Option String}
  {name : String} {d : DictAvp}

theorem about_callErrfunc (r : Report) (h : A path) : About A (callErrfunc errfunc path r) := by
  unfold callErrfunc
  split
  · exact Traced.within_emit h
  · exact Traced.within_raise nofun

theorem about_newAvp (h : A path) : About A (newAvp fd path name) := by
  unfold newAvp
  split
  · exact Traced.within_pure _
  · refine Traced.within_raise fun p i hi => ?_
    cases hi
    exact h

theorem about_addTo (v : AvpValue) (h : A path) : About A (addTo fd path reference name d v) := by
  unfold addTo
  split
  · exact Traced.within_raise nofun
  split
  · exact Traced.within_raise nofun
  split
  · exact Traced.within_raise nofun
  · exact Traced.within_emit h

theorem about_info (i : Info) (h : A path) : About A (Traced.raise (.runtimeInfo path i) : Code α) := by
  refine Traced.within_raise fun p i' hi => ?_
  cases hi
  exact h

theorem about_addValue (v : Option AvpValue) (h : A path) :
    About A (addValue fd path reference name d v) := by
  cases v with
  | some v => exact about_addTo v h
  | none => exact about_info _ h

theorem about_catchInfo {x : Code Unit} (hx : About A x) : About A (catchInfo errfunc x) := by
  refine Traced.within_handle hx fun s hs => ?_
  cases s with
  | runtimeInfo p i => exact about_callErrfunc _ (hs p i rfl)
  | runtimeError f => exact Traced.within_raise nofun
  | nullCall => exact Traced.within_raise nofun
  | assertion => exact Traced.within_raise nofun

end About

section Code

variable (fd : FreeDiameter) (errfunc : Bool)

mutual

/-- The code for a member is about the place of the member and the places inside of it. -/
theorem about_fdJsonAddAvp (path : Path) (reference : Option String) (name : String) :
    (value : Json) → About (path <:+ ·) (fdJsonAddAvp fd errfunc path reference name value)
  | .bool _ => by
    rw [fdJsonAddAvp]
    exact Traced.within_bind (about_newAvp (List.suffix_refl path)) fun _ =>
      about_info _ (List.suffix_refl path)
  | .null => by
    rw [fdJsonAddAvp]
    exact Traced.within_bind (about_newAvp (List.suffix_refl path)) fun _ =>
      about_info _ (List.suffix_refl path)
  | .number n => by
    rw [fdJsonAddAvp]
    exact Traced.within_bind (about_newAvp (List.suffix_refl path)) fun _ =>
      about_addValue _ (List.suffix_refl path)
  | .string s => by
    rw [fdJsonAddAvp]
    exact Traced.within_bind (about_newAvp (List.suffix_refl path)) fun _ =>
      about_addValue _ (List.suffix_refl path)
  | .array elements => by
    rw [fdJsonAddAvp]
    exact Traced.within_bind (about_newAvp (List.suffix_refl path)) fun _ =>
      (about_addElements path 0 reference name elements).mono fun _ h => h.suffix
  | .object members => by
    rw [fdJsonAddAvp]
    refine Traced.within_bind (about_newAvp (List.suffix_refl path)) fun _ =>
      Traced.within_bind (about_addTo _ (List.suffix_refl path)) fun _ => ?_
    exact (about_addMembers path 0 (some name) members).mono fun _ h => h.suffix

theorem about_addElements (path : Path) (i : Nat) (reference : Option String) (name : String) :
    (elements : List Json) →
      About (From path i) (addElements fd errfunc path i reference name elements)
  | [] => by
    rw [addElements]
    exact Traced.within_pure _
  | value :: rest => by
    rw [addElements]
    exact Traced.within_bind
      ((about_fdJsonAddAvp (i :: path) reference name value).mono fun _ h => from_of_suffix h)
      fun _ => (about_addElements path (i + 1) reference name rest).mono fun _ h => h.next

theorem about_addMembers (path : Path) (i : Nat) (reference : Option String) :
    (members : List (String × Json)) →
      About (From path i) (addMembers fd errfunc path i reference members)
  | [] => by
    rw [addMembers]
    exact Traced.within_pure _
  | (name, value) :: rest => by
    rw [addMembers]
    exact Traced.within_bind
      (about_catchInfo
        ((about_fdJsonAddAvp (i :: path) reference (cName name) value).mono
          fun _ h => from_of_suffix h))
      fun _ => (about_addMembers path (i + 1) reference rest).mono fun _ h => h.next

end

theorem skipped_place {path : Path} {i : Info} : ∀ e ∈ skipped errfunc path i, e.1 = path := by
  intro e he
  unfold skipped at he
  split at he
  · rw [List.mem_singleton.mp he]
  · exact absurd he nofun

theorem expectedValue_place {path : Path} {reference : Option String} {name : String} {d : DictAvp}
    (value : Option AvpValue) :
    ∀ e ∈ expectedValue errfunc path reference name d value, e.1 = path := by
  intro e he
  cases value with
  | none => exact skipped_place errfunc e he
  | some v => rw [List.mem_singleton.mp he]

mutual

/-- What is expected of a member is about the same places. -/
theorem expectedAvp_place (path : Path) (reference : Option String) (name : String) :
    (value : Json) →
      ∀ e ∈ expectedAvp fd errfunc path reference name value, path <:+ e.1
  | .bool _ => by
    intro e he
    rw [expectedAvp] at he
    split at he
    all_goals exact (skipped_place errfunc e he) ▸ List.suffix_refl _
  | .null => by
    intro e he
    rw [expectedAvp] at he
    split at he
    all_goals exact (skipped_place errfunc e he) ▸ List.suffix_refl _
  | .number n => by
    intro e he
    rw [expectedAvp] at he
    split at he
    · exact (skipped_place errfunc e he) ▸ List.suffix_refl _
    · exact (expectedValue_place errfunc _ e he) ▸ List.suffix_refl _
  | .string s => by
    intro e he
    rw [expectedAvp] at he
    split at he
    · exact (skipped_place errfunc e he) ▸ List.suffix_refl _
    · exact (expectedValue_place errfunc _ e he) ▸ List.suffix_refl _
  | .array elements => by
    intro e he
    rw [expectedAvp] at he
    split at he
    · exact (skipped_place errfunc e he) ▸ List.suffix_refl _
    · exact (expectedElements_place path 0 reference name elements e he).suffix
  | .object members => by
    intro e he
    rw [expectedAvp] at he
    split at he
    · exact (skipped_place errfunc e he) ▸ List.suffix_refl _
    split at he
    · rcases List.mem_cons.mp he with rfl | he
      · exact List.suffix_refl _
      · exact (expectedMembers_place path 0 (some name) members e he).suffix
    · exact (skipped_place errfunc e he) ▸ List.suffix_refl _

theorem expectedElements_place (path : Path) (i : Nat) (reference : Option String) (name : String) :
    (elements : List Json) →
      ∀ e ∈ expectedElements fd errfunc path i reference name elements, From path i e.1
  | [] => by
    intro e he
    rw [expectedElements] at he
    exact absurd he nofun
  | value :: rest => by
    intro e he
    rw [expectedElements] at he
    rcases List.mem_append.mp he with he | he
    · exact from_of_suffix (expectedAvp_place (i :: path) reference name value e he)
    · exact (expectedElements_place path (i + 1) reference name rest e he).next

theorem expectedMembers_place (path : Path) (i : Nat) (reference : Option String) :
    (members : List (String × Json)) →
      ∀ e ∈ expectedMembers fd errfunc path i reference members, From path i e.1
  | [] => by
    intro e he
    rw [expectedMembers] at he
    exact absurd he nofun
  | (name, value) :: rest => by
    intro e he
    rw [expectedMembers] at he
    rcases List.mem_append.mp he with he | he
    · exact from_of_suffix (expectedAvp_place (i :: path) reference (cName name) value e he)
    · exact (expectedMembers_place path (i + 1) reference rest e he).next

end

/-! ### `catchInfo` -/

/-- The code for the members of an object inside of the document lets no `runtimeInfo` out. -/
theorem addMembers_info (path : Path) (i : Nat) (reference : Option String)
    (members : List (String × Json)) (p : Path) (info : Info) :
    (addMembers fd errfunc path i reference members).result ≠ .error (.runtimeInfo p info) := by
  induction members generalizing i with
  | nil =>
    rw [addMembers]
    exact nofun
  | cons member rest ih =>
    obtain ⟨name, value⟩ := member
    rw [addMembers, Traced.bind_eq]
    generalize fdJsonAddAvp fd errfunc (i :: path) reference (cName name) value = x
    have hx : (catchInfo errfunc x).result ≠ .error (.runtimeInfo p info) := by
      obtain ⟨l, r⟩ := x
      unfold catchInfo
      rcases r with s | a
      · cases s with
        | runtimeInfo q info' =>
          rw [Traced.handle_error]
          cases errfunc <;> simp [callErrfunc, Traced.emit, Traced.raise]
        | _ => exact nofun
      · exact nofun
    generalize catchInfo errfunc x = y at hx
    obtain ⟨l, r⟩ := y
    cases r with
    | error s => simpa using hx
    | ok a => exact ih (i + 1)

variable {fd errfunc}

theorem catchInfo_of_no_info {x : Code Unit}
    (h : ∀ p info, x.result ≠ .error (.runtimeInfo p info)) : catchInfo errfunc x = x := by
  obtain ⟨l, r⟩ := x
  cases r with
  | ok a => rfl
  | error s =>
    cases s with
    | runtimeInfo p info => exact absurd rfl (h p info)
    | _ =>
      unfold catchInfo
      simp [Traced.raise]

/-- Without an `errfunc`, what is caught is not what is asked. -/
theorem catchInfo_false {x : Code Unit} {l : List (Path × Event)}
    (h : catchInfo false x = ⟨l, .ok ()⟩) : x = ⟨l, .ok ()⟩ := by
  obtain ⟨m, r⟩ := x
  cases r with
  | ok a => exact h
  | error s =>
    have hr := congrArg Traced.result h
    cases s <;> exact absurd hr nofun

theorem catchInfo_raise (path : Path) (i : Info) :
    catchInfo errfunc (Traced.raise (.runtimeInfo path i)) = callErrfunc errfunc path (.info i) := by
  unfold catchInfo callErrfunc
  cases errfunc <;> rfl

theorem callErrfunc_iff (path : Path) (i : Info) :
    callErrfunc errfunc path (.info i) = ⟨skipped errfunc path i, .ok ()⟩ ↔ errfunc = true := by
  unfold callErrfunc skipped
  cases errfunc with
  | false => exact iff_of_false (fun h => absurd (congrArg Traced.result h) nofun) nofun
  | true => exact iff_of_true rfl rfl

/-! ### Values -/

theorem isGroup_of_grouped {name : String} {d : DictAvp} (hd : fd.dict name = some d) :
    isGroup fd name = decide (d.avp_basetype = .grouped) := by
  rw [isGroup, hd]

theorem Parent_none : fd.Parent none := nofun

theorem Parent_group {name : String} (h : isGroup fd name = true) : fd.Parent (some name) := by
  intro name' hn
  cases hn
  exact h

section Works

variable {path : Path} {reference : Option String} {name : String}

theorem addTo_of_works (hworks : fd.Works) (hparent : fd.Parent reference) {d : DictAvp}
    (hd : fd.dict name = some d) {v : AvpValue}
    (hv : d.avp_basetype = .grouped ∨ v.basetype = d.avp_basetype) :
    addTo fd path reference name d v
      = ⟨[(path, .added reference name (if d.avp_basetype = .grouped then none else some v))],
        .ok ()⟩ := by
  have hset : ¬ (d.avp_basetype ≠ .grouped ∧ fd.setvalue name v ≠ 0) := by
    rintro ⟨hne, hs⟩
    exact hs (hworks.setvalue name d v hd (hv.resolve_left hne))
  rw [addTo, if_neg (by simp [hworks.avpNew name d hd]), if_neg hset,
    if_neg (by simp [hworks.avpAdd reference name d hparent hd])]
  rfl

/-- A member that is not converted. -/
theorem raise_ne (i : Info) (l : List (Path × Event)) :
    (Traced.raise (.runtimeInfo path i) : Code Unit) ≠ ⟨l, .ok ()⟩ :=
  fun h => absurd (congrArg Traced.result h) nofun

/-- A member of a single value, in an object of the document. -/
theorem addValue_iff (hworks : fd.Works) (hparent : fd.Parent reference) {d : DictAvp}
    (hd : fd.dict name = some d) {value : Option AvpValue}
    (hvalue : ∀ v, value = some v → v.basetype = d.avp_basetype) :
    (addValue fd path reference name d value
        = ⟨expectedValue errfunc path reference name d value, .ok ()⟩ ↔ value.isSome = true) ∧
      (catchInfo errfunc (addValue fd path reference name d value)
        = ⟨expectedValue errfunc path reference name d value, .ok ()⟩ ↔
          (errfunc || value.isSome) = true) := by
  cases value with
  | none =>
    refine ⟨iff_of_false (raise_ne _ _) nofun, ?_⟩
    show catchInfo errfunc (Traced.raise _) = _ ↔ _
    rw [catchInfo_raise, Option.isSome_none, Bool.or_false]
    exact callErrfunc_iff path _
  | some v =>
    have hb := hvalue v rfl
    have hadd : addValue fd path reference name d (some v)
        = ⟨[(path, .added reference name (some v))], .ok ()⟩ := by
      rw [addValue, addTo_of_works hworks hparent hd (Or.inr hb),
        if_neg (hb ▸ basetype_ne_grouped v)]
    refine ⟨iff_of_true hadd rfl, iff_of_true ?_ (by simp)⟩
    rw [hadd]
    rfl

/-- A member of an unknown name. -/
theorem unknown_iff (hd : fd.dict name = none) (value : Json) :
    (fdJsonAddAvp fd errfunc path reference name value
        = ⟨expectedAvp fd errfunc path reference name value, .ok ()⟩ ↔
          sound fd errfunc name value = true) ∧
      (catchInfo errfunc (fdJsonAddAvp fd errfunc path reference name value)
        = ⟨expectedAvp fd errfunc path reference name value, .ok ()⟩ ↔
          tolerable fd errfunc name value = true) := by
  have hcode : fdJsonAddAvp fd errfunc path reference name value
      = Traced.raise (.runtimeInfo path (.unknown name)) := by
    cases value <;> rw [fdJsonAddAvp, newAvp, hd] <;> rfl
  have hexpected : expectedAvp fd errfunc path reference name value
      = skipped errfunc path (.unknown name) := by
    cases value <;> rw [expectedAvp, hd]
  have hsound : sound fd errfunc name value = false := by
    cases value <;> simp [sound, convertible, isGroup, hd]
  have htolerable : tolerable fd errfunc name value = errfunc := by
    cases value <;> simp [tolerable, convertible, hd]
  rw [hcode, hexpected, hsound, htolerable, catchInfo_raise]
  exact ⟨iff_of_false (raise_ne _ _) nofun, callErrfunc_iff path _⟩

/-- A truth value or a `null`. -/
theorem info_iff {value : Json} {i : Info}
    (hcode : fdJsonAddAvp fd errfunc path reference name value
      = Traced.raise (.runtimeInfo path i)) :
    fdJsonAddAvp fd errfunc path reference name value ≠ ⟨skipped errfunc path i, .ok ()⟩ ∧
      (catchInfo errfunc (fdJsonAddAvp fd errfunc path reference name value)
        = ⟨skipped errfunc path i, .ok ()⟩ ↔ errfunc = true) := by
  rw [hcode, catchInfo_raise]
  exact ⟨raise_ne _ _, callErrfunc_iff path i⟩

/-- An object for an AVP that is not grouped adds the AVP. -/
theorem object_ne (errfunc : Bool) (path : Path) (hworks : fd.Works) (hparent : fd.Parent reference) {d : DictAvp}
    (hd : fd.dict name = some d) (hg : d.avp_basetype ≠ .grouped) (x : Code Unit) (i : Info) :
    ((addTo fd path reference name d d.avp_basetype.zero).bind fun _ => x)
        ≠ ⟨skipped errfunc path i, .ok ()⟩ ∧
      catchInfo errfunc ((addTo fd path reference name d d.avp_basetype.zero).bind fun _ => x)
        ≠ ⟨skipped errfunc path i, .ok ()⟩ := by
  have hzero : d.avp_basetype.zero.basetype = d.avp_basetype := by
    cases hb : d.avp_basetype with
    | grouped => exact absurd hb hg
    | _ => rfl
  have hskipped : ∀ l, skipped errfunc path i
      ≠ (path, .added reference name (some d.avp_basetype.zero)) :: l := by
    intro l h
    unfold skipped at h
    split at h
    · exact absurd (List.cons.inj h).1 (by simp)
    · exact absurd h nofun
  rw [addTo_of_works hworks hparent hd (Or.inr hzero), if_neg hg]
  obtain ⟨l, r⟩ := x
  refine ⟨fun h => hskipped _ (congrArg Traced.effects h).symm, fun h => ?_⟩
  have heffects := congrArg Traced.effects h
  unfold catchInfo at heffects
  cases r with
  | ok u => exact hskipped _ heffects.symm
  | error s => exact hskipped _ heffects.symm

/-! ### Arrays without a value -/

mutual

theorem expectedAvp_nil {d : DictAvp} (hd : fd.dict name = some d) (path : Path) :
    (value : Json) →
      (expectedAvp fd true path reference name value = [] ↔ silent value = true)
  | .bool _ => by simp [expectedAvp, hd, skipped, silent]
  | .null => by simp [expectedAvp, hd, skipped, silent]
  | .number n => by
    simp only [expectedAvp, hd, expectedValue, skipped, silent]
    split <;> simp
  | .string s => by
    simp only [expectedAvp, hd, expectedValue, skipped, silent]
    split <;> simp
  | .array elements => by
    rw [expectedAvp, hd, silent]
    exact expectedElements_nil hd path 0 elements
  | .object members => by
    simp only [expectedAvp, hd, skipped, silent]
    split <;> simp

theorem expectedElements_nil {d : DictAvp} (hd : fd.dict name = some d) (path : Path) (i : Nat) :
    (elements : List Json) →
      (expectedElements fd true path i reference name elements = [] ↔
        silentElements elements = true)
  | [] => by simp [expectedElements, silentElements]
  | value :: rest => by
    rw [expectedElements, silentElements, List.append_eq_nil_iff, Bool.and_eq_true,
      expectedAvp_nil hd (i :: path) value, expectedElements_nil hd path (i + 1) rest]

end

/-! ### Members -/

variable (errfunc)

mutual

/-- **One member**: in the document, and in an object inside of the document. -/
theorem fdJsonAddAvp_iff (reference : Option String) (hworks : fd.Works) (hparent : fd.Parent reference) (path : Path)
    (name : String) :
    (value : Json) →
      (fdJsonAddAvp fd errfunc path reference name value
          = ⟨expectedAvp fd errfunc path reference name value, .ok ()⟩ ↔
            sound fd errfunc name value = true) ∧
        (catchInfo errfunc (fdJsonAddAvp fd errfunc path reference name value)
          = ⟨expectedAvp fd errfunc path reference name value, .ok ()⟩ ↔
            tolerable fd errfunc name value = true)
  | .bool b => by
    cases hd : fd.dict name with
    | none => exact unknown_iff hd _
    | some d =>
      have hcode : fdJsonAddAvp fd errfunc path reference name (.bool b)
          = Traced.raise (.runtimeInfo path (.bool name)) := by
        rw [fdJsonAddAvp, newAvp, hd]
        rfl
      obtain ⟨hne, hcatch⟩ := info_iff hcode
      rw [expectedAvp, hd, hcatch]
      exact ⟨iff_of_false hne (by simp [sound, convertible, hd]), by
        simp [tolerable, convertible, hd]⟩
  | .null => by
    cases hd : fd.dict name with
    | none => exact unknown_iff hd _
    | some d =>
      have hcode : fdJsonAddAvp fd errfunc path reference name .null
          = Traced.raise (.runtimeInfo path (.null name)) := by
        rw [fdJsonAddAvp, newAvp, hd]
        rfl
      obtain ⟨hne, hcatch⟩ := info_iff hcode
      rw [expectedAvp, hd, hcatch]
      exact ⟨iff_of_false hne (by simp [sound, convertible, hd]), by
        simp [tolerable, convertible, hd]⟩
  | .number n => by
    cases hd : fd.dict name with
    | none => exact unknown_iff hd _
    | some d =>
      have hcode : fdJsonAddAvp fd errfunc path reference name (.number n)
          = addValue fd path reference name d (numberValue fd d n) := by
        rw [fdJsonAddAvp, newAvp, hd]
        rfl
      simp only [hcode, expectedAvp, sound, tolerable, convertible, hd]
      exact addValue_iff hworks hparent hd fun v => numberValue_basetype
  | .string s => by
    cases hd : fd.dict name with
    | none => exact unknown_iff hd _
    | some d =>
      have hcode : fdJsonAddAvp fd errfunc path reference name (.string s)
          = addValue fd path reference name d (stringValue fd d s) := by
        rw [fdJsonAddAvp, newAvp, hd]
        rfl
      simp only [hcode, expectedAvp, sound, tolerable, convertible, hd]
      exact addValue_iff hworks hparent hd fun v => stringValue_basetype
  | .array elements => by
    cases hd : fd.dict name with
    | none => exact unknown_iff hd _
    | some d =>
      have hcode : fdJsonAddAvp fd errfunc path reference name (.array elements)
          = addElements fd errfunc path 0 reference name elements := by
        rw [fdJsonAddAvp, newAvp, hd]
        rfl
      rw [hcode, expectedAvp, hd, sound, tolerable, hd]
      simp only [Option.isSome_some, Bool.true_and, if_true]
      exact addElements_iff reference hworks hparent hd path 0 elements
  | .object members => by
    cases hd : fd.dict name with
    | none => exact unknown_iff hd _
    | some d =>
      have hcode : fdJsonAddAvp fd errfunc path reference name (.object members)
          = (addTo fd path reference name d d.avp_basetype.zero).bind fun _ =>
              addMembers fd errfunc path 0 (some name) members := by
        rw [fdJsonAddAvp, newAvp, hd]
        rfl
      rw [hcode, expectedAvp, hd, sound, tolerable, hd]
      simp only [Option.isSome_some, if_true]
      by_cases hg : d.avp_basetype = .grouped
      · have hgroup : isGroup fd name = true := by simp [isGroup_of_grouped hd, hg]
        have hmembers := addMembers_iff (some name) hworks (Parent_group hgroup) path 0
          members
        have hno := addMembers_info fd errfunc path 0 (some name) members
        rw [addTo_of_works hworks hparent hd (Or.inl hg), if_pos hg]
        generalize addMembers fd errfunc path 0 (some name) members = x at hmembers hno
        obtain ⟨l, r⟩ := x
        rw [catchInfo_of_no_info (by simpa using hno), hgroup, Bool.true_and]
        simp only [Traced.bind_ok, Traced.mk.injEq, List.cons_append, List.nil_append, if_pos hg,
          List.cons.injEq, true_and] at hmembers ⊢
        exact ⟨hmembers, hmembers⟩
      · have hgroup : isGroup fd name = false := by simp [isGroup_of_grouped hd, hg]
        obtain ⟨hne, hcatch⟩ := object_ne errfunc path hworks hparent hd hg
          (addMembers fd errfunc path 0 (some name) members) (.mismatch name d.type)
        rw [if_neg hg, hgroup, Bool.false_and]
        exact ⟨iff_of_false hne nofun, iff_of_false hcatch nofun⟩

/-- **The elements of an array.** -/
theorem addElements_iff (reference : Option String) (hworks : fd.Works) (hparent : fd.Parent reference) {name : String}
    {d : DictAvp} (hd : fd.dict name = some d) (path : Path) (i : Nat) :
    (elements : List Json) →
      (addElements fd errfunc path i reference name elements
          = ⟨expectedElements fd errfunc path i reference name elements, .ok ()⟩ ↔
            soundElements fd errfunc name elements = true) ∧
        (catchInfo errfunc (addElements fd errfunc path i reference name elements)
          = ⟨expectedElements fd errfunc path i reference name elements, .ok ()⟩ ↔
            tolerableElements fd errfunc name elements = true)
  | [] => by
    rw [addElements, expectedElements, soundElements, tolerableElements]
    exact ⟨iff_of_true rfl rfl, iff_of_true rfl rfl⟩
  | value :: rest => by
    obtain ⟨hsound, htolerable⟩ := fdJsonAddAvp_iff reference hworks hparent (i :: path) name
      value
    obtain ⟨hsounds, htolerables⟩ := addElements_iff reference hworks hparent hd path (i + 1)
      rest
    have hx := about_fdJsonAddAvp fd errfunc (i :: path) reference name value
    have hy := (about_addElements fd errfunc path (i + 1) reference name rest).mono
      fun _ h => h.not_suffix
    have hl := expectedAvp_place fd errfunc (i :: path) reference name value
    have hm : ∀ e ∈ expectedElements fd errfunc path (i + 1) reference name rest,
        ¬ (i :: path) <:+ e.1 :=
      fun e he => (expectedElements_place fd errfunc path (i + 1) reference name rest e he).not_suffix
    rw [addElements, expectedElements, soundElements, tolerableElements, Traced.bind_eq]
    refine ⟨?_, ?_⟩
    · rw [Traced.seq_eq_iff hx hy hl hm, hsound, hsounds, Bool.and_eq_true]
    · refine (Traced.handle_seq_eq_iff (about_catchInfo hx) (about_catchInfo hy) hl hm).trans ?_
      refine (or_congr (and_congr hsound htolerables)
        (and_congr (not_congr hsound) (and_congr_left' htolerable))).trans ?_
      by_cases hs : sound fd errfunc name value = true
      · simp [hs]
      · cases errfunc with
        | false =>
          -- without an `errfunc` an element is tolerable only if it is sound
          have hne : tolerable fd false name value ≠ true :=
            fun h => hs (hsound.mp (catchInfo_false (htolerable.mpr h)))
          simp [hs, hne]
        | true => simp [hs, expectedElements_nil hd path (i + 1) rest]

/-- **The members of an object inside of the document.** -/
theorem addMembers_iff (reference : Option String) (hworks : fd.Works) (hparent : fd.Parent reference) (path : Path) (i : Nat) :
    (members : List (String × Json)) →
      (addMembers fd errfunc path i reference members
          = ⟨expectedMembers fd errfunc path i reference members, .ok ()⟩ ↔
            tolerableMembers fd errfunc members = true)
  | [] => by
    rw [addMembers, expectedMembers, tolerableMembers]
    exact iff_of_true rfl rfl
  | (name, value) :: rest => by
    have htolerable := (fdJsonAddAvp_iff reference hworks hparent (i :: path) (cName name)
      value).2
    have htolerables := addMembers_iff reference hworks hparent path (i + 1) rest
    have hx := about_fdJsonAddAvp fd errfunc (i :: path) reference (cName name) value
    have hy := (about_addMembers fd errfunc path (i + 1) reference rest).mono
      fun _ h => h.not_suffix
    have hl := expectedAvp_place fd errfunc (i :: path) reference (cName name) value
    have hm : ∀ e ∈ expectedMembers fd errfunc path (i + 1) reference rest,
        ¬ (i :: path) <:+ e.1 :=
      fun e he => (expectedMembers_place fd errfunc path (i + 1) reference rest e he).not_suffix
    rw [addMembers, expectedMembers, tolerableMembers, Traced.bind_eq,
      Traced.seq_eq_iff (about_catchInfo hx) hy hl hm, htolerable, htolerables, Bool.and_eq_true]

end

end Works

/-! ### The document -/

theorem about_addDocument (fd : FreeDiameter) (errfunc : Bool) (i : Nat)
    (members : List (String × Json)) :
    About (From [] i) (addDocument fd errfunc i members) := by
  induction members generalizing i with
  | nil => exact Traced.within_pure _
  | cons member rest ih =>
    obtain ⟨name, value⟩ := member
    rw [addDocument]
    exact Traced.within_bind
      ((about_fdJsonAddAvp fd errfunc [i] none (cName name) value).mono fun _ h => from_of_suffix h)
      fun _ => (ih (i + 1)).mono fun _ h => h.next

/-- **The members of the document.** -/
theorem addDocument_iff (hworks : fd.Works) (errfunc : Bool) (i : Nat)
    (members : List (String × Json)) :
    addDocument fd errfunc i members = ⟨expectedMembers fd errfunc [] i none members, .ok ()⟩ ↔
      (members.all fun m => sound fd errfunc (cName m.1) m.2) = true := by
  induction members generalizing i with
  | nil =>
    rw [addDocument, expectedMembers]
    exact iff_of_true rfl rfl
  | cons member rest ih =>
    obtain ⟨name, value⟩ := member
    have hsound := (fdJsonAddAvp_iff errfunc none hworks Parent_none [i] (cName name) value).1
    have hx := about_fdJsonAddAvp fd errfunc [i] none (cName name) value
    have hy := (about_addDocument fd errfunc (i + 1) rest).mono fun _ h => h.not_suffix
    have hl := expectedAvp_place fd errfunc [i] none (cName name) value
    have hm : ∀ e ∈ expectedMembers fd errfunc [] (i + 1) none rest, ¬ [i] <:+ e.1 :=
      fun e he => (expectedMembers_place fd errfunc [] (i + 1) none rest e he).not_suffix
    rw [addDocument, expectedMembers, Traced.bind_eq, Traced.seq_eq_iff hx hy hl hm, hsound,
      ih (i + 1), List.all_cons, Bool.and_eq_true]

/-- The whole of an object. -/
theorem handles_object (hworks : fd.Works) (errfunc : Bool) {json : Option String}
    {members : List (String × Json)} (hjson : json.bind fd.parse = some (.object members)) :
    Handles fd errfunc json ↔
      (members.all fun m => sound fd errfunc (cName m.1) m.2) = true := by
  rw [← addDocument_iff hworks errfunc 0 members, Handles, fdJsonAddAvps, hjson]
  have hplace := expectedMembers_place fd errfunc [] 0 none members
  simp only [Option.some.injEq, Json.object.injEq, forall_eq', Traced.bind_eq, Traced.pure_eq]
  generalize addDocument fd errfunc 0 members = x
  obtain ⟨l, r⟩ := x
  cases r with
  | ok u => simp
  | error s =>
    refine iff_of_false ?_ (fun h => absurd (congrArg Traced.result h) nofun)
    rw [Traced.bind_error, Traced.handle_error]
    rintro ⟨⟨status, hstatus⟩, heffects⟩
    cases s with
    | runtimeError f =>
      -- what is reported in the end is not about a member
      cases errfunc with
      | false => exact absurd hstatus nofun
      | true =>
        refine (hplace ([], .reported (.failure f)) ?_).ne_nil rfl
        rw [← heffects]
        simp [callErrfunc, Traced.emit]
    | _ => exact absurd hstatus nofun

/-- **The error handling**: the code does what is asked on exactly the texts that are `manageable`. -/
theorem fdJsonAddAvps_iff (hworks : fd.Works) (errfunc : Bool) (json : Option String) :
    Handles fd errfunc json ↔ manageable fd errfunc json = true := by
  cases hjson : json.bind fd.parse with
  | none =>
    rw [Handles, fdJsonAddAvps, manageable, hjson]
    cases errfunc with
    | false => exact iff_of_false (fun h => absurd h.1 (by simp [callErrfunc, Traced.raise])) nofun
    | true => exact iff_of_true ⟨⟨FDJSON_JSON_PARSING_ERROR, rfl⟩, nofun⟩ rfl
  | some doc =>
    cases doc with
    | object members =>
      rw [handles_object hworks errfunc hjson, manageable, hjson]
    | _ =>
      rw [Handles, fdJsonAddAvps, manageable, hjson]
      exact iff_of_false (fun h => absurd h.1 (by simp [Traced.raise])) nofun

end Code

/-! ### A text with an unknown member -/

/-- A freeDiameter with two AVPs, and a parser of two texts. -/
def sampleDiameter : FreeDiameter where
  parse text :=
    if text = "\x7b\"No-Such-AVP\": 1\x7d" then some (.object [("No-Such-AVP", .number (.int 1))])
    else if text = "\x7b\"APN-Configuration\": \x7b\"No-Such-AVP\": 1, \"Context-Identifier\": 1\x7d\x7d" then
      some (.object [("APN-Configuration",
        .object [("No-Such-AVP", .number (.int 1)), ("Context-Identifier", .number (.int 1))])])
    else none
  dict name :=
    if name = "APN-Configuration" then some ⟨.grouped, none⟩
    else if name = "Context-Identifier" then some ⟨.unsigned32, none⟩
    else none
  avpNew _ := 0
  setvalue _ _ := 0
  avpAdd _ _ := 0
  inet_pton4 _ := none
  inet_pton6 _ := none
  parseDateTime _ := 0
  float _ := 0

theorem sampleDiameter_works : sampleDiameter.Works := ⟨fun _ _ _ => rfl, fun _ _ _ _ _ => rfl,
  fun _ _ _ _ _ => rfl⟩

/-- Inside of a group, an unknown member is skipped. -/
theorem fdJsonAddAvps_iff_group :
    Handles sampleDiameter true
      (some "\x7b\"APN-Configuration\": \x7b\"No-Such-AVP\": 1, \"Context-Identifier\": 1\x7d\x7d") :=
  (fdJsonAddAvps_iff sampleDiameter_works true _).mpr rfl

/-- In the document, it is not: the `runtimeInfo` is not caught. -/
theorem unknown_not_handled :
    ¬ ∀ json, Handles sampleDiameter true json := by
  intro h
  obtain ⟨⟨status, hstatus⟩, -⟩ := h (some "\x7b\"No-Such-AVP\": 1\x7d")
  have hescapes : (fdJsonAddAvps sampleDiameter true (some "\x7b\"No-Such-AVP\": 1\x7d")).result
      = .error (.runtimeInfo [0] (.unknown (cName "No-Such-AVP"))) := rfl
  rw [hescapes] at hstatus
  exact absurd hstatus nofun

end OpenairHss.FdJson
