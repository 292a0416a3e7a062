import OpenairHss.Startup.Options
import Mathlib.Data.Nat.Bitwise

/-!
# Which value an option has

`Options::parse` succeeds if all options are known, what it looks at in the file has the right type, and
no required value is missing.  Of a value that has a bit, the command line decides, and of several
options for it the last one; the four numbers of the Cassandra driver have no bit, and for them the file
decides.

* `selected_assign`: the bits that are set.
* `parseAll_done_iff`: what is taken from the file.
* `parse_done_iff`: when the options are accepted.
* `parse_values`: the value of each variable.
* `config_of_accepted`: there is no start without a file.
-/

namespace OpenairHss.Startup

open Epc Dns Assign

/-! ### The bits -/

theorem OptionsSelected.value_eq (f : OptionsSelected) : f.value = 2 ^ f.ctorIdx := by
  cases f <;> rfl

theorem OptionsSelected.ctorIdx_inj {f g : OptionsSelected} : f.ctorIdx = g.ctorIdx ↔ f = g := by
  constructor
  · intro h
    rw [← OptionsSelected.ofNat_ctorIdx f, h, OptionsSelected.ofNat_ctorIdx]
  · intro h
    rw [h]

/-- The variable of a bit. -/
def OptionsSelected.setting : OptionsSelected → Setting
  | .jsoncfg => .jsoncfg
  | .diameterconfiguration => .diameterconfiguration
  | .cassserver => .cassserver
  | .cassuser => .cassuser
  | .casspwd => .casspwd
  | .cassdb => .cassdb
  | .randvector => .randvector
  | .optkey => .optkey
  | .reloadkey => .reloadkey
  | .onlyloadkey => .onlyloadkey
  | .gtwport => .gtwport
  | .gtwhost => .gtwhost
  | .restport => .restport
  | .logmaxsize => .logmaxsize
  | .lognbrfiles => .lognbrfiles
  | .logfilename => .logfilename
  | .logqueuesize => .logqueuesize
  | .numworkers => .numworkers
  | .concurrent => .concurrent
  | .statlogfilename => .statlogfilename
  | .statlognbrfiles => .statlognbrfiles
  | .statlogmaxsize => .statlogmaxsize
  | .statfrequency => .statsfrequency
  | .auditlogfilename => .auditlogfilename
  | .auditlognbrfiles => .auditlognbrfiles
  | .auditlogmaxsize => .auditlogmaxsize
  | .ossport => .ossport
  | .ossfile => .ossfile
  | .roamallow => .roamallow

theorem OptionsSelected.setting_eq {x : Setting} {f : OptionsSelected} (h : x.flag = some f) : f.setting = x := by
  cases x <;> cases h <;> rfl

theorem Setting.flag_eq_iff {x y : Setting} {f : OptionsSelected} (h : x.flag = some f) :
    y.flag = some f ↔ y = x := by
  constructor
  · intro hy
    exact (OptionsSelected.setting_eq hy).symm.trans (OptionsSelected.setting_eq h)
  · rintro rfl
    exact h

theorem OptionsSelected.flag_setting (f : OptionsSelected) : f.setting.flag = some f := by
  cases f <;> rfl

namespace Options

theorem selected_eq (o : Options) (f : OptionsSelected) :
    o.selected f = o.options.testBit f.ctorIdx := by
  rw [selected, f.value_eq, Nat.and_two_pow]
  cases o.options.testBit f.ctorIdx <;> simp

theorem selected_new (f : OptionsSelected) : new.selected f = false := by
  rw [selected_eq]
  exact Nat.zero_testBit _

theorem selected_assign (o : Options) (a : Assignment) (f : OptionsSelected) :
    (o.assign a).selected f = (decide (a.target.flag = some f) || o.selected f) := by
  rw [selected_eq, selected_eq, assign]
  cases h : a.target.flag with
  | none => simp
  | some g =>
    simp only [g.value_eq, Nat.testBit_or, Nat.testBit_two_pow, Option.some.injEq,
      OptionsSelected.ctorIdx_inj]
    exact Bool.or_comm _ _

theorem selected_foldl (as : List Assignment) (o : Options) (f : OptionsSelected) :
    (as.foldl assign o).selected f = (as.any (·.target.flag = some f) || o.selected f) := by
  induction as generalizing o with
  | nil => rfl
  | cons a as ih =>
    rw [List.foldl_cons, ih, selected_assign, List.any_cons, ← Bool.or_assoc,
      Bool.or_comm (decide _)]

theorem values_foldl (as : List Assignment) (o : Options) (x : Setting) :
    (as.foldl assign o).values x = (last as x).getD (o.values x) := by
  have hvalues : (as.foldl assign o).values = as.foldl Assignment.apply o.values := by
    induction as generalizing o with
    | nil => rfl
    | cons a as ih => exact ih (o.assign a)
  rw [hvalues, foldl_apply]

/-- An assignment to another variable sets no bit of this one. -/
theorem selected_assign_of_ne {o : Options} {a : Assignment} {x : Setting} (h : a.target ≠ x) :
    x.flag.any (o.assign a).selected = x.flag.any o.selected := by
  cases hflag : x.flag with
  | none => rfl
  | some f =>
    simp [selected_assign, Setting.flag_eq_iff hflag, h]

/-! ### The command line -/

/-- What the options of the command line set. -/
def given (args : List (Char × Octets)) : List Assignment := args.filterMap fun a => option a.1 a.2

theorem given_cons (arg : Char × Octets) (args : List (Char × Octets)) :
    given (arg :: args) = (option arg.1 arg.2).toList ++ given args := by
  unfold given
  rw [List.filterMap_cons]
  cases option arg.1 arg.2 <;> rfl

theorem parseInputOptions_known {args : List (Char × Octets)}
    (h : ∀ a ∈ args, (option a.1 a.2).isSome) (o : Options) (result : Bool) :
    parseInputOptions o result args = .done (result, (given args).foldl assign o) := by
  induction args generalizing o with
  | nil => rfl
  | cons arg args ih =>
    obtain ⟨c, optarg⟩ := arg
    obtain ⟨a, ha⟩ := Option.isSome_iff_exists.mp (h _ (List.mem_cons_self ..))
    have hhelp : c ≠ 'h' := by
      rintro rfl
      cases ha
    have ha : option c optarg = some a := ha
    rw [parseInputOptions, if_neg hhelp, given_cons, ha]
    exact ih (fun b hb => h b (List.mem_cons_of_mem _ hb)) _

theorem parseInputOptions_false (args : List (Char × Octets)) (o o' : Options) :
    parseInputOptions o false args ≠ .done (true, o') := by
  induction args generalizing o with
  | nil => simp [parseInputOptions]
  | cons arg args ih =>
    rw [parseInputOptions]
    split
    · simp
    · split
      · exact ih _
      · exact ih _

theorem parseInputOptions_unknown {args : List (Char × Octets)}
    (h : ¬ ∀ a ∈ args, (option a.1 a.2).isSome) (o o' : Options) (result : Bool) :
    parseInputOptions o result args ≠ .done (true, o') := by
  induction args generalizing o with
  | nil => simp at h
  | cons arg args ih =>
    rw [parseInputOptions]
    split
    · simp
    · split
      · rename_i a ha
        refine ih (fun hrest => h ?_) _
        rw [List.forall_mem_cons]
        exact ⟨by rw [ha]; rfl, hrest⟩
      · exact parseInputOptions_false args _ _

/-! ### The file -/

/-- What an entry finds in its section. -/
def Entry.found (e : Entry) (jsonSection : Json) : Option Assignment :=
  match member e.name jsonSection with
  | some (some v) => match e.read v with
    | .value a => some ⟨e.setting, a⟩
    | _ => none
  | _ => none

/-- The section is an object, and the member is missing or has the right type. -/
def Entry.Readable (e : Entry) (jsonSection : Json) : Prop :=
  ∃ v, member e.name jsonSection = some v ∧ ∀ w ∈ v, ∃ a, e.read w = .value a

theorem Entry.target_found {e : Entry} {jsonSection : Json} {a : Assignment}
    (h : e.found jsonSection = some a) : a.target = e.setting := by
  unfold Entry.found at h
  split at h
  · split at h
    · cases h
      rfl
    · cases h
  · cases h

theorem parseEntry_skipped {o : Options} {e : Entry} (h : e.setting.flag.any o.selected = true)
    (jsonSection : Json) : parseEntry o jsonSection e = .done (true, o) := if_pos h

theorem parseEntry_done_iff {o o' : Options} {jsonSection : Json} {e : Entry}
    (h : e.setting.flag.any o.selected = false) :
    parseEntry o jsonSection e = .done (true, o') ↔
      e.Readable jsonSection ∧ o' = (e.found jsonSection).toList.foldl assign o := by
  rw [parseEntry, h, if_neg Bool.false_ne_true, Entry.found, Entry.Readable]
  cases hmember : member e.name jsonSection with
  | none => simp
  | some m =>
    cases m with
    | none => simp [eq_comm]
    | some v =>
      cases hread : e.read v with
      | wrong => simp [hread]
      | abort => simp [hread]
      | value a => simp [hread, eq_comm]

/-- The members that are looked for, each in its section. -/
def parseAll (o : Options) : List (Json × Entry) → Outcome (Bool × Options)
  | [] => .done (true, o)
  | p :: ps => (parseEntry o p.1 p.2).andThen fun o => parseAll o ps

/-- A section that is there, with its members. -/
def lookup (doc : Json) (name : String) (es : List Entry) : List (Json × Entry) :=
  match member name doc with
  | some (some jsonSection) => es.map (jsonSection, ·)
  | _ => []

def lookups (doc : Json) : List (Json × Entry) :=
  lookup doc "common" commonEntries ++ lookup doc "hss" hssEntries

theorem andThen_done_iff {x : Outcome (Bool × Options)} {f : Options → Outcome (Bool × Options)}
    {o' : Options} :
    x.andThen f = .done (true, o') ↔ ∃ o, x = .done (true, o) ∧ f o = .done (true, o') := by
  unfold Outcome.andThen
  split
  · simp
  · rename_i hnot
    constructor
    · intro h
      exact (hnot o' h).elim
    · rintro ⟨o, h, -⟩
      exact (hnot o h).elim

theorem parseEntries_eq (o : Options) (jsonSection : Json) (es : List Entry) :
    parseEntries o jsonSection es = parseAll o (es.map (jsonSection, ·)) := by
  induction es generalizing o with
  | nil => rfl
  | cons e es ih =>
    rw [parseEntries, List.map_cons, parseAll]
    congr 1
    funext o
    exact ih o

theorem parseSection_eq (o : Options) (doc : Json) (name : String) (es : List Entry) :
    parseSection o doc name es = parseAll o (lookup doc name es) := by
  unfold parseSection lookup
  cases member name doc with
  | none => rfl
  | some s =>
    cases s with
    | none => rfl
    | some jsonSection => exact parseEntries_eq o jsonSection es

theorem parseAll_append (o : Options) (ps qs : List (Json × Entry)) :
    parseAll o (ps ++ qs) = (parseAll o ps).andThen fun o => parseAll o qs := by
  induction ps generalizing o with
  | nil => rfl
  | cons p ps ih =>
    rw [List.cons_append, parseAll, parseAll]
    cases parseEntry o p.1 p.2 with
    | exit => rfl
    | abort => rfl
    | done r =>
      obtain ⟨ret, o⟩ := r
      cases ret with
      | false => rfl
      | true => exact ih o

theorem parseJson_object (o : Options) (members : List (String × Json)) :
    parseJson o (some (.object members)) = parseAll o (lookups (.object members)) := by
  rw [parseJson, parseSection_eq, lookups, parseAll_append]
  congr 1
  funext o
  exact parseSection_eq o _ _ _

/-- What the file sets, if the values with `skip` are not looked for. -/
def taken (skip : Setting → Bool) (ps : List (Json × Entry)) : List Assignment :=
  ps.filterMap fun p => if skip p.2.setting then none else p.2.found p.1

theorem taken_cons (skip : Setting → Bool) (p : Json × Entry) (ps : List (Json × Entry)) :
    taken skip (p :: ps) =
      (if skip p.2.setting then none else p.2.found p.1).toList ++ taken skip ps := by
  unfold taken
  rw [List.filterMap_cons]
  cases (if skip p.2.setting then none else p.2.found p.1) <;> rfl

/-- The values that are skipped are settled before the file is read. -/
theorem parseAll_done_iff {ps : List (Json × Entry)} (h : (ps.map (·.2.setting)).Nodup)
    {skip : Setting → Bool} {o : Options}
    (hskip : ∀ p ∈ ps, p.2.setting.flag.any o.selected = skip p.2.setting) (o' : Options) :
    parseAll o ps = .done (true, o') ↔
      (∀ p ∈ ps, skip p.2.setting = false → p.2.Readable p.1) ∧
        o' = (taken skip ps).foldl assign o := by
  induction ps generalizing o with
  | nil =>
    constructor
    · intro hdone
      cases hdone
      exact ⟨fun p hp => absurd hp List.not_mem_nil, rfl⟩
    · rintro ⟨-, rfl⟩
      rfl
  | cons p ps ih =>
    rw [List.map_cons, List.nodup_cons] at h
    obtain ⟨hp, h⟩ := h
    obtain ⟨hfirst, hrest⟩ := List.forall_mem_cons.mp hskip
    rw [parseAll, List.forall_mem_cons, taken_cons, andThen_done_iff]
    cases hcase : skip p.2.setting with
    | true =>
      rw [parseEntry_skipped (hfirst.trans hcase)]
      simp [ih h hrest]
    | false =>
      -- the bit that `p` sets is none of those that the others ask for
      have hrest' : ∀ q ∈ ps, q.2.setting.flag.any
          ((p.2.found p.1).toList.foldl assign o).selected = skip q.2.setting := by
        intro q hq
        rw [← hrest q hq]
        cases hfound : p.2.found p.1 with
        | none => rfl
        | some a =>
          refine selected_assign_of_ne fun htarget => hp ?_
          rw [← Entry.target_found hfound, htarget]
          exact List.mem_map_of_mem hq
      have hstep : ∀ o₁, parseEntry o p.1 p.2 = .done (true, o₁) ↔ p.2.Readable p.1 ∧
          o₁ = (p.2.found p.1).toList.foldl assign o := fun _ =>
        parseEntry_done_iff (hfirst.trans hcase)
      simp only [hstep, and_assoc, exists_and_left, exists_eq_left, ih h hrest', true_implies,
        Bool.false_eq_true, if_false, List.foldl_append]

theorem nodup_lookups (doc : Json) : ((lookups doc).map (·.2.setting)).Nodup := by
  have hall : ((commonEntries ++ hssEntries).map (·.setting)).Nodup := by decide
  have hlookup : ∀ (name : String) (es : List Entry),
      ((lookup doc name es).map (·.2.setting)).Sublist (es.map (·.setting)) := by
    intro name es
    unfold lookup
    split
    · rw [List.map_map]
      exact List.Sublist.refl _
    · exact List.nil_sublist _
  rw [List.map_append] at hall
  rw [lookups, List.map_append]
  exact hall.sublist ((hlookup _ _).append (hlookup _ _))

/-! ### The whole -/

/-- The file that the command line names, if any. -/
def config (args : List (Char × Octets)) : Octets := (last (given args) .jsoncfg).getD []

/-- What is looked for in the file. -/
def looked (files : Octets → Option Json) (args : List (Char × Octets)) : List (Json × Entry) :=
  if config args = [] then [] else (files (config args)).elim [] lookups

/-- The value has a bit, and the command line has set it. -/
def settled (args : List (Char × Octets)) (x : Setting) : Bool :=
  x.flag.isSome && (last (given args) x).isSome

/-- The value that the file has. -/
def filed (files : Octets → Option Json) (args : List (Char × Octets)) (x : Setting) :
    Option x.Type' :=
  last ((looked files args).filterMap fun p => p.2.found p.1) x

/-- The value that is given, on the command line or in the file. -/
def resolved (files : Octets → Option Json) (args : List (Char × Octets)) (x : Setting) :
    Option x.Type' :=
  if x.flag.isSome then (last (given args) x).or (filed files args x)
  else (filed files args x).or (last (given args) x)

/-- All options are known, the file can be read as far as it is looked at, and nothing is missing. -/
structure Accepted (files : Octets → Option Json) (args : List (Char × Octets)) : Prop where
  known : ∀ a ∈ args, (option a.1 a.2).isSome
  document : config args ≠ [] → ∃ members, files (config args) = some (.object members)
  readable : ∀ p ∈ looked files args, settled args p.2.setting = false → p.2.Readable p.1
  complete : ∀ f ∈ required, (resolved files args f.setting).isSome

variable {files : Octets → Option Json} {args : List (Char × Octets)}

theorem selected_iff {as : List Assignment} {x : Setting} {f : OptionsSelected}
    (h : x.flag = some f) : (as.foldl assign new).selected f = (last as x).isSome := by
  rw [selected_foldl, selected_new, Bool.or_false, Bool.eq_iff_iff, last_isSome, List.any_eq_true]
  simp only [decide_eq_true_eq, Setting.flag_eq_iff h]

theorem any_selected (args : List (Char × Octets)) (x : Setting) :
    x.flag.any ((given args).foldl assign new).selected = settled args x := by
  cases h : x.flag with
  | none => simp [settled, h]
  | some f => rw [Option.any_some, selected_iff h, settled, h, Option.isSome_some, Bool.true_and]

theorem taken_eq (skip : Setting → Bool) (ps : List (Json × Entry)) :
    taken skip ps =
      (ps.filterMap fun p => p.2.found p.1).filter fun a => !skip a.target := by
  induction ps with
  | nil => rfl
  | cons p ps ih =>
    rw [taken_cons, ih, List.filterMap_cons]
    cases hfound : p.2.found p.1 with
    | none => simp
    | some a =>
      rw [List.filter_cons, Entry.target_found hfound]
      cases skip p.2.setting <;> rfl

/-- The file is the later of the two, but it is asked only for what is not settled. -/
theorem last_resolved (files : Octets → Option Json) (args : List (Char × Octets)) (x : Setting) :
    last (given args ++ taken (settled args) (looked files args)) x = resolved files args x := by
  have hfiled : last (taken (settled args) (looked files args)) x =
      if !settled args x then filed files args x else none := by
    rw [taken_eq]
    exact last_filter (fun x => !settled args x) _ x
  rw [last_append, hfiled, resolved, settled]
  cases x.flag.isSome with
  | false => rfl
  | true =>
    cases last (given args) x with
    | none => simp
    | some a => rfl

theorem values_config (args : List (Char × Octets)) :
    ((given args).foldl assign new).values .jsoncfg = config args := values_foldl _ _ _

theorem parseJson_of_not_object {doc : Option Json} (h : ∀ members, doc ≠ some (.object members))
    (o o' : Options) : parseJson o doc ≠ .done (true, o') := by
  unfold parseJson
  split
  · exact absurd rfl (h _)
  · simp

/-- The part that reads the file. -/
theorem file_done_iff {o : Options} :
    (if config args ≠ [] then parseJson ((given args).foldl assign new) (files (config args))
      else .done (true, (given args).foldl assign new)) = .done (true, o) ↔
      (config args ≠ [] → ∃ members, files (config args) = some (.object members)) ∧
        (∀ p ∈ looked files args, settled args p.2.setting = false → p.2.Readable p.1) ∧
        o = (given args ++ taken (settled args) (looked files args)).foldl assign new := by
  rw [List.foldl_append]
  by_cases hconfig : config args = []
  · have hlooked : looked files args = [] := if_pos hconfig
    rw [if_neg (not_not_intro hconfig), hlooked]
    constructor
    · intro h
      cases h
      exact ⟨fun hne => absurd hconfig hne, fun p hp => absurd hp List.not_mem_nil, rfl⟩
    · rintro ⟨-, -, rfl⟩
      rfl
  · rw [if_pos hconfig]
    by_cases hobject : ∃ members, files (config args) = some (.object members)
    · obtain ⟨members, hmembers⟩ := hobject
      have hlooked : looked files args = lookups (.object members) := by
        rw [looked, if_neg hconfig, hmembers]
        rfl
      rw [hmembers, parseJson_object, hlooked,
        parseAll_done_iff (nodup_lookups _) fun p _ => any_selected args p.2.setting]
      simp
    · have hnot : ∀ members, files (config args) ≠ some (.object members) := fun members h =>
        hobject ⟨members, h⟩
      simp [parseJson_of_not_object hnot, hnot, hconfig]

theorem validateOptions_iff (files : Octets → Option Json) (args : List (Char × Octets)) :
    ((given args ++ taken (settled args) (looked files args)).foldl assign new).validateOptions =
      true ↔ ∀ f ∈ required, (resolved files args f.setting).isSome := by
  rw [validateOptions, List.all_eq_true]
  refine forall₂_congr fun f _ => ?_
  rw [selected_iff (OptionsSelected.flag_setting f), last_resolved]

theorem parse_eq_iff {o : Options} :
    parse files args = .done (true, o) ↔ Accepted files args ∧
      o = (given args ++ taken (settled args) (looked files args)).foldl assign new := by
  rw [parse, andThen_done_iff]
  simp only [andThen_done_iff]
  by_cases hknown : ∀ a ∈ args, (option a.1 a.2).isSome
  · simp only [parseInputOptions_known hknown, Outcome.done.injEq, Prod.mk.injEq, true_and,
      exists_eq_left', values_config, file_done_iff]
    constructor
    · rintro ⟨o', ⟨hdocument, hreadable, rfl⟩, hvalid, rfl⟩
      exact ⟨⟨hknown, hdocument, hreadable, (validateOptions_iff files args).mp hvalid⟩, rfl⟩
    · rintro ⟨h, rfl⟩
      exact ⟨_, ⟨h.document, h.readable, rfl⟩, (validateOptions_iff files args).mpr h.complete, rfl⟩
  · constructor
    · rintro ⟨_, ⟨_, hinput, _⟩, _⟩
      exact absurd hinput (parseInputOptions_unknown hknown _ _ _)
    · rintro ⟨h, -⟩
      exact absurd h.known hknown

/-- The options are accepted if they are known, readable and complete, and only then. -/
theorem parse_done_iff (files : Octets → Option Json) (args : List (Char × Octets)) :
    (∃ o, parse files args = .done (true, o)) ↔ Accepted files args := by
  constructor
  · rintro ⟨o, h⟩
    exact (parse_eq_iff.mp h).1
  · intro h
    exact ⟨_, parse_eq_iff.mpr ⟨h, rfl⟩⟩

/-- After options that are accepted a variable has the value that is resolved for it, or the one it
has started with. -/
theorem parse_values {o : Options} (h : parse files args = .done (true, o)) (x : Setting) :
    o.values x = (resolved files args x).getD x.start := by
  obtain ⟨-, rfl⟩ := parse_eq_iff.mp h
  rw [values_foldl, last_resolved]
  rfl

theorem option_ne_ossport {c : Char} {optarg : Octets} {a : Assignment}
    (h : option c optarg = some a) : a.target ≠ .ossport := by
  unfold option at h
  split at h <;> cases h <;> simp

/-- No command line is enough: the port of the OSS interface is in the file only. -/
theorem config_of_accepted (h : Accepted files args) : config args ≠ [] := by
  intro hconfig
  have hgiven : ¬ (last (given args) .ossport).isSome := by
    rw [last_isSome]
    rintro ⟨a, ha, htarget⟩
    obtain ⟨arg, -, harg⟩ := List.mem_filterMap.mp ha
    exact option_ne_ossport harg htarget
  have hlooked : looked files args = [] := if_pos hconfig
  have hport := h.complete .ossport (by decide)
  rw [OptionsSelected.setting, resolved, filed, hlooked, Option.not_isSome_iff_eq_none.mp hgiven]
    at hport
  exact absurd hport (by decide)

/-- A file with all that is asked for. -/
def sampleFile (optkey : Octets) : Json :=
  .object [("common", .object [("fdcfg", .string [0x66])]),
    ("hss", .object [("casssrv", .string [0x63]), ("cassusr", .string [0x75]),
      ("casspwd", .string [0x70]), ("cassdb", .string [0x64]),
      ("casscoreconnections", .number (.int 4)), ("optkey", .string optkey),
      ("gtwport", .number (.int 1)), ("gtwhost", .string [0x68]), ("restport", .number (.int 2)),
      ("logsize", .number (.int 1)), ("lognumber", .number (.int 1)), ("logname", .string [0x6c]),
      ("logqsize", .number (.int 1)), ("statlogsize", .number (.int 1)),
      ("statlognumber", .number (.int 1)), ("statlogname", .string [0x73]),
      ("statfreq", .number (.int 2000)), ("auditlogsize", .number (.int 1)),
      ("auditlognumber", .number (.int 1)), ("auditlogname", .string [0x61]),
      ("numworkers", .number (.int 4)), ("concurrent", .number (.int 10)),
      ("ossport", .number (.int 3)), ("ossfile", .string [0x6f])])]

/-- `--casscoreconnections 7 --statfrequency 9 -j c` -/
def sampleArgs : List (Char × Octets) := [('C', [0x37]), ('W', [0x39]), ('j', [0x63])]

/-- The file decides the number of connections, and the command line the frequency. -/
theorem parse_values_sample : ∃ o, parse (fun _ => some (sampleFile [])) sampleArgs = .done (true, o) ∧
    o.values .casscoreconnections = (4 : Int) ∧ o.values .statsfrequency = (9 : Int) ∧
    o.values .cassmaxconnections = (2 : Int) := by
  have hparse : parse (fun _ => some (sampleFile [])) sampleArgs = .done (true,
      (given sampleArgs ++ taken (settled sampleArgs)
        (looked (fun _ => some (sampleFile [])) sampleArgs)).foldl assign new) := by
    rfl
  exact ⟨_, hparse, (parse_values hparse .casscoreconnections).trans rfl,
    (parse_values hparse .statsfrequency).trans rfl,
    (parse_values hparse .cassmaxconnections).trans rfl⟩

end Options

end OpenairHss.Startup
