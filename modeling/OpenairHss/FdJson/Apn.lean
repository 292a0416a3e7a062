import OpenairHss.FdJson.AddAvps
import OpenairHss.Lib.UnorderedMap

/-!
# The APN of a subscription

`checkAPNSubscribed` of `s6t_impl.cpp`, with `fdJsonGetApnValueFromSubData` and `parseRecursive` of
`fdjson.cpp`: the document is flattened into a hash map, and the first entry of the map whose key
contains "Service-Selection" is compared with the APN.

* `parseMembers_eq`: the map has the leaves of the document (`memberLeaves`), and for members with
  the same spelled path the first of them.
* `checkAPNSubscribed_iff`: the answer is right, in whatever order the map is walked, if and only if
  the document is `Telling`.
-/

namespace OpenairHss.FdJson

open UnorderedMap (emplace emplaceAll Walks)

/-! ### The code -/

/-- A quotient, rounded half to even. -/
def roundedQuotient (a b : Nat) : Nat :=
  let q := a / b
  let r := a % b
  if 2 * r > b ∨ (2 * r = b ∧ q % 2 = 1) then q + 1 else q

/-- `std::to_string (double)`: six digits after the point. -/
def doubleText (bits : BitVec 64) : String :=
  let exponent := bits.toNat / 2 ^ 52 % 2 ^ 11
  let fraction := bits.toNat % 2 ^ 52
  let mantissa := if exponent = 0 then fraction else fraction + 2 ^ 52
  let power := if exponent = 0 then 1 else exponent
  let millionths :=
    if 1075 ≤ power then mantissa * 10 ^ 6 * 2 ^ (power - 1075)
    else roundedQuotient (mantissa * 10 ^ 6) (2 ^ (1075 - power))
  let digits := toString (millionths % 10 ^ 6)
  (if bits.getLsbD 63 then "-" else "") ++ toString (millionths / 10 ^ 6) ++ "."
    ++ String.ofList (List.replicate (6 - digits.length) '0') ++ digits

/-- What is stored for a number. -/
def numberText (n : JsonNumber) : Option Octets :=
  match n with
  | .double _ bits => some (cString (doubleText bits))
  | .int i => if n.isInt then some (cString (toString i)) else none

def separator : Octets := [0x3A, 0x3A]

def serviceSelection : Octets :=
  [0x53, 0x65, 0x72, 0x76, 0x69, 0x63, 0x65, 0x2D, 0x53, 0x65, 0x6C, 0x65, 0x63, 0x74, 0x69, 0x6F,
    0x6E]

/-- The entries of the hash map. -/
abbrev Entries : Type := List (Octets × Octets)

def innerScope (scope name : Octets) : Octets :=
  if scope = [] then name else scope ++ separator ++ name

mutual

/-- `parseRecursive`, from where the scope is that of the member. -/
def parseValue (scope : Octets) (values : Entries) : Json → Entries
  | .object members => parseMembers scope values members
  | .string s => emplace values (scope ++ separator) (untilNul s)
  | .number n => match numberText n with
    | some text => emplace values (scope ++ separator) text
    | none => values
  | .array _ | .bool _ | .null => values

/-- The loop over the members of an object. -/
def parseMembers (scope : Octets) (values : Entries) : List (String × Json) → Entries
  | [] => values
  | (name, value) :: rest =>
    parseMembers scope (parseValue (innerScope scope (cString name)) values value) rest

end

section Code

variable (parse : String → Option Json) (order : Entries → Entries)

/-- The search in the map. -/
def selects (entry : Octets × Octets) : Bool := decide (serviceSelection <:+: entry.1)

/-- `fdJsonGetApnValueFromSubData`: `none` is an assertion of RapidJSON, for a document that is not
an object; `order` is the order in which the map is walked. -/
def fdJsonGetApnValueFromSubData (json : String) : Option (Option Octets) :=
  match parse json with
  | none => some none
  | some (.object members) =>
    some (((order (parseMembers [] [] members)).find? selects).map Prod.snd)
  | some _ => none

/-- `checkAPNSubscribed`, with what `getSubDataFromImsi` finds. -/
def checkAPNSubscribed (subDataFromDB : Option String) (apn : Octets) : Option Bool :=
  match subDataFromDB with
  | none => some false
  | some json => match fdJsonGetApnValueFromSubData parse order json with
    | none => none
    | some none => some false
    | some (some apnFromDB) => some (decide (apn = apnFromDB))

end Code

/-! ### What is asked -/

def stringOctets (s : String) : Octets := s.toUTF8.data.toList

example : stringOctets "Service-Selection" = serviceSelection := by decide

mutual

/-- A member of the name Service-Selection, at any depth, is the string `apn`. -/
def subscribes (apn : Octets) : Json → Bool
  | .object members => subscribesMember apn members
  | .array elements => subscribesElement apn elements
  | .null | .bool _ | .number _ | .string _ => false

def subscribesElement (apn : Octets) : List Json → Bool
  | [] => false
  | value :: rest => subscribes apn value || subscribesElement apn rest

def subscribesMember (apn : Octets) : List (String × Json) → Bool
  | [] => false
  | (name, value) :: rest =>
    (match value with
      | .string s => decide (name = "Service-Selection" ∧ s = apn)
      | _ => false)
    || subscribes apn value || subscribesMember apn rest

end

/-- **What is asked**: the answer says whether the document subscribes to the APN. -/
def Answers (parse : String → Option Json) (order : Entries → Entries) (json : String)
    (apn : Octets) : Prop :=
  ∃ answer, checkAPNSubscribed parse order (some json) apn = some answer ∧
    (answer = true ↔ ∃ doc, parse json = some doc ∧ subscribes apn doc = true)

/-! ### The leaves of a document -/

mutual

/-- The texts that are reached through objects alone, with the names on the way. -/
def leaves (names : List Octets) : Json → List (List Octets × Octets)
  | .object members => memberLeaves names members
  | .string s => [(names, untilNul s)]
  | .number n => (numberText n).toList.map fun text => (names, text)
  | .array _ | .bool _ | .null => []

def memberLeaves (names : List Octets) : List (String × Json) → List (List Octets × Octets)
  | [] => []
  | (name, value) :: rest => leaves (names ++ [cString name]) value ++ memberLeaves names rest

end

/-- A path, spelled: leading names without a letter are not seen. -/
def spelled (names : List Octets) : Octets := names.foldl innerScope []

/-- The entry for a leaf. -/
def leafEntry (leaf : List Octets × Octets) : Octets × Octets := (spelled leaf.1 ++ separator, leaf.2)

/-- A leaf whose path contains "Service-Selection", and of the leaves with the same spelled path the
first. -/
def Candidate (members : List (String × Json)) (path text : Octets) : Prop :=
  serviceSelection <:+: path ∧ UnorderedMap.first ((memberLeaves [] members).map leafEntry) path = some text

/-- All candidates say the same, and it is the truth. -/
def Telling (apn : Octets) : Json → Prop
  | .object members =>
    if subscribesMember apn members then
      (∃ path text, Candidate members path text) ∧
        ∀ path text, Candidate members path text → text = apn
    else ∀ path text, Candidate members path text → text ≠ apn
  | _ => False

/-! ### The map -/

theorem spelled_append (names : List Octets) (name : Octets) :
    spelled (names ++ [name]) = innerScope (spelled names) name := by
  rw [spelled, List.foldl_append]
  rfl

mutual

theorem parseValue_eq (names : List Octets) (values : Entries) :
    (value : Json) →
      parseValue (spelled names) values value
        = emplaceAll values ((leaves names value).map leafEntry)
  | .object members => by
    rw [parseValue, leaves]
    exact parseMembers_eq names values members
  | .string s => by
    rw [parseValue, leaves]
    rfl
  | .number n => by
    rw [parseValue, leaves]
    cases numberText n <;> rfl
  | .array _ => by
    rw [parseValue, leaves]
    rfl
  | .bool _ => by
    rw [parseValue, leaves]
    rfl
  | .null => by
    rw [parseValue, leaves]
    rfl

/-- **The map has the leaves of the document**. -/
theorem parseMembers_eq (names : List Octets) (values : Entries) :
    (members : List (String × Json)) →
      parseMembers (spelled names) values members
        = emplaceAll values ((memberLeaves names members).map leafEntry)
  | [] => by
    rw [parseMembers, memberLeaves]
    rfl
  | (name, value) :: rest => by
    rw [parseMembers, memberLeaves, ← spelled_append, parseValue_eq (names ++ [cString name]) values value,
      parseMembers_eq names _ rest, List.map_append, UnorderedMap.emplaceAll_append]

end

/-- The entries of the map that are found are the candidates. -/
theorem candidate_iff (members : List (String × Json)) (e : Octets × Octets) :
    Candidate members e.1 e.2 ↔ e ∈ parseMembers [] [] members ∧ selects e = true := by
  have hmap : parseMembers [] [] members
      = emplaceAll [] ((memberLeaves [] members).map leafEntry) := parseMembers_eq [] [] members
  have hkeyed := UnorderedMap.keyed_emplaceAll (m := []) List.nodup_nil
    ((memberLeaves [] members).map leafEntry)
  obtain ⟨path, text⟩ := e
  rw [hmap, hkeyed.mem_iff, UnorderedMap.first_emplaceAll, List.nil_append, selects,
    decide_eq_true_iff]
  exact And.comm

/-! ### The answer -/

/-- The answer for an object, by the entry that is found. -/
theorem answers_object {parse : String → Option Json} {order : Entries → Entries} {json : String}
    {apn : Octets} {members : List (String × Json)} (hparse : parse json = some (.object members)) :
    Answers parse order json apn ↔
      ((∃ e, (order (parseMembers [] [] members)).find? selects = some e ∧ e.2 = apn) ↔
        subscribesMember apn members = true) := by
  have hsubscribes : (∃ doc, parse json = some doc ∧ subscribes apn doc = true) ↔
      subscribesMember apn members = true := by
    rw [hparse]
    constructor
    · rintro ⟨doc, hdoc, h⟩
      cases hdoc
      rwa [subscribes] at h
    · intro h
      exact ⟨_, rfl, by rwa [subscribes]⟩
  rw [Answers, hsubscribes]
  simp only [checkAPNSubscribed, fdJsonGetApnValueFromSubData, hparse]
  cases (order (parseMembers [] [] members)).find? selects with
  | none => simp
  | some e =>
    simp only [Option.map_some, Option.some.injEq, exists_eq_left', decide_eq_true_iff,
      @eq_comm _ apn]

/-- **The answer is right, in all orders of the map**, on the documents that are telling. -/
theorem checkAPNSubscribed_iff (parse : String → Option Json) (json : String) (apn : Octets) :
    (∀ order, Walks order → Answers parse order json apn) ↔
      ∀ doc, parse json = some doc → Telling apn doc := by
  cases hparse : parse json with
  | none =>
    refine iff_of_true (fun order _ => ⟨false, ?_, ?_⟩) nofun
    · simp [checkAPNSubscribed, fdJsonGetApnValueFromSubData, hparse]
    · simp [hparse]
  | some doc =>
    simp only [Option.some.injEq, forall_eq']
    cases doc with
    | object members =>
      have hanswers : ∀ order, Answers parse order json apn ↔ _ := fun order => answers_object hparse
      simp only [hanswers]
      refine (UnorderedMap.forall_walks_find?_iff (m := parseMembers [] [] members) (p := selects)
        (P := fun found => (∃ e, found = some e ∧ e.2 = apn) ↔
          subscribesMember apn members = true)).trans ?_
      have hcandidates : (∀ e ∈ parseMembers [] [] members, selects e = false) ↔
          ¬ ∃ path text, Candidate members path text := by
        constructor
        · rintro h ⟨path, text, hc⟩
          obtain ⟨hmem, hselects⟩ := (candidate_iff members (path, text)).mp hc
          exact absurd hselects (by simp [h _ hmem])
        · intro h e he
          by_contra hselects
          exact h ⟨e.1, e.2, (candidate_iff members e).mpr ⟨he, by simpa using hselects⟩⟩
      have heach : (∀ e ∈ parseMembers [] [] members, selects e = true →
            ((∃ e', some e = some e' ∧ e'.2 = apn) ↔ subscribesMember apn members = true)) ↔
          ∀ path text, Candidate members path text →
            (text = apn ↔ subscribesMember apn members = true) := by
        constructor
        · intro h path text hc
          obtain ⟨hmem, hselects⟩ := (candidate_iff members (path, text)).mp hc
          simpa using h _ hmem hselects
        · intro h e he hselects
          simpa using h e.1 e.2 ((candidate_iff members e).mpr ⟨he, hselects⟩)
      rw [hcandidates, heach, Telling]
      by_cases hs : subscribesMember apn members = true
      · simp [hs]
      · simp [hs]
    | _ =>
      refine iff_of_false (fun h => ?_) id
      obtain ⟨answer, hanswer, -⟩ := h id fun m => List.Perm.refl m
      simp [checkAPNSubscribed, fdJsonGetApnValueFromSubData, hparse] at hanswer

/-- The APN configurations of a profile are an array, and an array is not looked into. -/
theorem apn_in_array_not_found :
    ¬ ∀ parse order json apn, Walks order → Answers parse order json apn := by
  intro h
  obtain ⟨answer, hanswer, hiff⟩ := h
    (fun _ => some (.object [("APN-Configuration",
      .array [.object [("Service-Selection", .string (stringOctets "internet"))]])]))
    id "\x7b\"APN-Configuration\": [\x7b\"Service-Selection\": \"internet\"\x7d]\x7d"
    (stringOctets "internet") fun m => List.Perm.refl m
  have hfalse : answer = false := (Option.some.inj hanswer).symm
  refine absurd (hiff.mpr ⟨_, rfl, ?_⟩) (by simp [hfalse])
  simp [subscribes, subscribesMember, subscribesElement]

end OpenairHss.FdJson
