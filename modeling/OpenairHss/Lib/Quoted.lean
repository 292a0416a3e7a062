import OpenairHss.Lib.Cql

/-!
# Texts between quotes

A program that puts a text between two quotes of a statement means the string constant with that
text.  `esc` is the text that really spells the constant: every quote is doubled.

* `prefix_of_str`: a string constant that has been read was spelled.
* `spells_itself`: a text between quotes that spells itself has no quote.
* `reads_iff`: a statement with texts put in is read as it is meant exactly if all of them are
  plain.
* `lexFrom_unread`: without quotes around it, a name with an `@` behind it is no token.
-/

namespace Cql

/-! ### Spelling a constant -/

/-- The text up to its first NUL, as it is read. -/
def cut (cs : List Char) : List Char := cs.takeWhile (· ≠ '\x00')

/-- The text that spells a string constant, without the quotes around it. -/
def esc (s : List Char) : List Char := s.flatMap fun c => if c = '\'' then ['\'', '\''] else [c]

@[simp] theorem esc_nil : esc [] = [] := rfl

theorem esc_quote (s : List Char) : esc ('\'' :: s) = '\'' :: '\'' :: esc s := rfl

theorem esc_cons {c : Char} (h : c ≠ '\'') (s : List Char) : esc (c :: s) = c :: esc s := by
  simp [esc, h]

theorem esc_eq_self {s : List Char} (h : ∀ c ∈ s, c ≠ '\'') : esc s = s := by
  induction s with
  | nil => rfl
  | cons c s ih =>
    rw [esc_cons (h c List.mem_cons_self), ih fun c hc => h c (List.mem_cons_of_mem _ hc)]

/-- The tokens of a text, for an automaton that is inside of something. -/
def lexFrom (m : Mode) (cs : List Char) : Option (List Tok) :=
  (scan m cs).bind fun r => (finish r.1).map (r.2 ++ ·)

theorem lexFrom_nil (m : Mode) : lexFrom m [] = finish m := by
  simp [lexFrom, scan]

theorem lexFrom_append {m m' : Mode} {ts : List Tok} {a : List Char} (h : scan m a = some (m', ts))
    (b : List Char) : lexFrom m (a ++ b) = (lexFrom m' b).map (ts ++ ·) := by
  rw [lexFrom, scan_append h, lexFrom]
  cases scan m' b with
  | none => rfl
  | some r => simp [Function.comp_def]

theorem lexFrom_append_none {m : Mode} {a : List Char} (h : scan m a = none) (b : List Char) :
    lexFrom m (a ++ b) = none := by
  have hscan : scan m (a ++ b) = none := by
    induction a generalizing m with
    | nil => exact absurd h nofun
    | cons c a ih =>
      rw [scan] at h
      rw [List.cons_append, scan]
      cases hr : step m c with
      | none => rfl
      | some r =>
        rw [hr, Option.bind_some, Option.map_eq_none_iff] at h
        rw [Option.bind_some, ih h, Option.map_none]
  rw [lexFrom, hscan, Option.bind_none]

theorem lexFrom_cons {m m' : Mode} {ts : List Tok} {c : Char} (h : step m c = some (m', ts))
    (cs : List Char) : lexFrom m (c :: cs) = (lexFrom m' cs).map (ts ++ ·) := by
  refine lexFrom_append (a := [c]) ?_ cs
  simp [scan, h]

/-- The string constants that can be read next, inside a string and after a quote in one. -/
theorem spelled (cs : List Char) :
    (∀ acc s ts, lexFrom (.str acc) cs = some (.str s :: ts) →
      ∃ body, s = acc ++ body ∧ esc body ++ ['\''] <+: cs) ∧
    ∀ acc s ts, lexFrom (.quote acc) cs = some (.str s :: ts) →
      s = acc ∨ ∃ body, s = acc ++ '\'' :: body ∧ '\'' :: (esc body ++ ['\'']) <+: cs := by
  induction cs with
  | nil =>
    refine ⟨fun acc s ts h => (by cases h), fun acc s ts h => Or.inl ?_⟩
    rw [lexFrom_nil] at h
    exact (Tok.str.inj (List.cons.inj (Option.some.inj h)).1).symm
  | cons c cs ih =>
    obtain ⟨hstr, hquote⟩ := ih
    by_cases hc : c = '\''
    · subst hc
      refine ⟨fun acc s ts h => ?_, fun acc s ts h => Or.inr ?_⟩
      · have hstep : step (.str acc) '\'' = some (.quote acc, []) := rfl
        rw [lexFrom_cons hstep] at h
        obtain ⟨toks, htoks, rfl⟩ := Option.map_eq_some_iff.mp h
        rcases hquote acc s ts htoks with rfl | ⟨body, rfl, hpre⟩
        · exact ⟨[], (List.append_nil _).symm, ⟨cs, rfl⟩⟩
        · exact ⟨'\'' :: body, rfl, (List.prefix_cons_inj _).mpr hpre⟩
      · -- a doubled quote
        have hstep : step (.quote acc) '\'' = some (.str (acc ++ ['\'']), []) := rfl
        rw [lexFrom_cons hstep] at h
        obtain ⟨toks, htoks, rfl⟩ := Option.map_eq_some_iff.mp h
        obtain ⟨body, rfl, hpre⟩ := hstr _ s ts htoks
        exact ⟨body, by simp, (List.prefix_cons_inj _).mpr hpre⟩
    · refine ⟨fun acc s ts h => ?_, fun acc s ts h => Or.inl ?_⟩
      · have hstep : step (.str acc) c = some (.str (acc ++ [c]), []) := by rw [step, if_neg hc]
        rw [lexFrom_cons hstep] at h
        obtain ⟨toks, htoks, rfl⟩ := Option.map_eq_some_iff.mp h
        obtain ⟨body, rfl, hpre⟩ := hstr _ s ts htoks
        refine ⟨c :: body, by simp, ?_⟩
        rw [esc_cons hc]
        exact (List.prefix_cons_inj _).mpr hpre
      · -- the end of the constant
        rw [lexFrom, scan, step, if_neg hc, restart] at h
        cases hr : start c with
        | none => rw [hr] at h; cases h
        | some r =>
          rw [hr] at h
          obtain ⟨r₂, hr₂, h⟩ := Option.bind_eq_some_iff.mp h
          obtain ⟨r₃, -, rfl⟩ := Option.map_eq_some_iff.mp hr₂
          obtain ⟨toks, -, htoks⟩ := Option.map_eq_some_iff.mp h
          exact (Tok.str.inj (List.cons.inj htoks).1).symm

/-- **A string constant that has been read was spelled**, after what had been read of it. -/
theorem prefix_of_str {cs acc s : List Char} {ts : List Tok}
    (h : lexFrom (.str acc) cs = some (.str s :: ts)) :
    ∃ body, s = acc ++ body ∧ esc body ++ ['\''] <+: cs := (spelled cs).1 acc s ts h

/-- Inside of a token that is not a string constant. -/
def Mode.bare : Mode → Bool
  | .word _ => true
  | .minus => true
  | .num _ _ => true
  | _ => false

theorem restart_ne_str {t : Tok} (ht : ∀ s, t ≠ .str s) {c : Char} {r : Mode × List Tok}
    (h : restart t c = some r) : ∃ t' ts, r.2 = t' :: ts ∧ ∀ s, t' ≠ .str s := by
  obtain ⟨r', -, rfl⟩ := Option.map_eq_some_iff.mp h
  exact ⟨t, r'.2, rfl, ht⟩

theorem step_bare {m : Mode} (hm : m.bare = true) {c : Char} {r : Mode × List Tok}
    (h : step m c = some r) :
    r.1.bare = true ∧ r.2 = [] ∨ ∃ t ts, r.2 = t :: ts ∧ ∀ s, t ≠ .str s := by
  cases m with
  | word acc =>
    rw [step] at h
    split at h
    · obtain rfl := Option.some.inj h
      exact Or.inl ⟨rfl, rfl⟩
    · exact Or.inr (restart_ne_str (fun _ => Tok.noConfusion) h)
  | minus =>
    rw [step] at h
    obtain ⟨-, h⟩ := Option.ite_none_right_eq_some.mp h
    obtain rfl := Option.some.inj h
    exact Or.inl ⟨rfl, rfl⟩
  | num neg n =>
    rw [step] at h
    split at h
    · obtain rfl := Option.some.inj h
      exact Or.inl ⟨rfl, rfl⟩
    · obtain ⟨-, h⟩ := Option.ite_none_left_eq_some.mp h
      exact Or.inr (restart_ne_str (fun _ => Tok.noConfusion) h)
  | _ => cases hm

/-- The token that is being read is not a string constant. -/
theorem head_ne_str {cs : List Char} {m : Mode} (hm : m.bare = true) {t : Tok} {ts : List Tok}
    (h : lexFrom m cs = some (t :: ts)) (s : List Char) : t ≠ .str s := by
  induction cs generalizing m with
  | nil =>
    rw [lexFrom_nil] at h
    cases m with
    | word acc =>
      obtain ⟨rfl, -⟩ := List.cons.inj (Option.some.inj h)
      exact Tok.noConfusion
    | minus => cases h
    | num neg n =>
      obtain ⟨rfl, -⟩ := List.cons.inj (Option.some.inj h)
      exact Tok.noConfusion
    | _ => cases hm
  | cons c cs ih =>
    cases hstep : step m c with
    | none =>
      rw [lexFrom, scan, hstep] at h
      cases h
    | some r =>
      rw [lexFrom_cons hstep] at h
      obtain ⟨toks, htoks, he⟩ := Option.map_eq_some_iff.mp h
      rcases step_bare hm hstep with ⟨hbare, hnil⟩ | ⟨t', ts', hcons, hne⟩
      · rw [hnil, List.nil_append] at he
        exact ih hbare (htoks.trans (congrArg some he))
      · rw [hcons] at he
        exact (List.cons.inj he).1 ▸ hne s

/-- **A string constant that is read next was spelled**, after blanks. -/
theorem prefix_of_between {cs s : List Char} {ts : List Tok}
    (h : lexFrom .between cs = some (.str s :: ts)) :
    ∃ k, List.replicate k ' ' ++ '\'' :: (esc s ++ ['\'']) <+: cs := by
  induction cs with
  | nil => cases h
  | cons c cs ih =>
    cases hstep : step .between c with
    | none =>
      rw [lexFrom, scan, hstep] at h
      cases h
    | some r =>
      rw [lexFrom_cons hstep] at h
      obtain ⟨toks, htoks, he⟩ := Option.map_eq_some_iff.mp h
      rw [step, start] at hstep
      split_ifs at hstep with hblank hquote
      · obtain rfl := Option.some.inj hstep
        obtain ⟨k, hk⟩ := ih (htoks.trans (congrArg some he))
        subst hblank
        exact ⟨k + 1, (List.prefix_cons_inj _).mpr hk⟩
      · obtain rfl := Option.some.inj hstep
        obtain ⟨body, rfl, hpre⟩ := prefix_of_str (htoks.trans (congrArg some he))
        subst hquote
        exact ⟨0, (List.prefix_cons_inj _).mpr hpre⟩
      all_goals obtain rfl := Option.some.inj hstep
      · exact absurd rfl (head_ne_str rfl (htoks.trans (congrArg some he)) s)
      · exact absurd rfl (head_ne_str rfl (htoks.trans (congrArg some he)) s)
      · exact absurd rfl (head_ne_str rfl (htoks.trans (congrArg some he)) s)
      · cases (List.cons.inj he).1

/-- Whether a character is neither a blank nor a quote. -/
def solid (c : Char) : Bool := c != ' ' && c != '\''

theorem countP_esc (s : List Char) : (esc s).countP solid = s.countP solid := by
  induction s with
  | nil => rfl
  | cons c s ih =>
    by_cases hc : c = '\''
    · subst hc
      rw [esc_quote, List.countP_cons_of_neg (by decide), List.countP_cons_of_neg (by decide),
        List.countP_cons_of_neg (by decide), ih]
    · rw [esc_cons hc, List.countP_cons, List.countP_cons, ih]

theorem length_le_esc (s : List Char) : s.length ≤ (esc s).length := by
  induction s with
  | nil => exact Nat.le_refl _
  | cons c s ih =>
    by_cases hc : c = '\''
    · subst hc
      rw [esc_quote]
      exact Nat.le_succ_of_le (Nat.succ_le_succ ih)
    · rw [esc_cons hc]
      exact Nat.succ_le_succ ih

/-- **A text without quotes around it does not stand for itself**: what follows it after a blank
would have to belong to it. -/
theorem not_bare {s u : List Char} {c : Char} (hc : solid c = true) (ts : List Tok) :
    lexFrom .between (cut (s ++ ' ' :: c :: u)) ≠ some (.str s :: ts) := by
  intro h
  obtain ⟨k, hk⟩ := prefix_of_between h
  have hlong : s ++ [' ', c] <+: List.replicate k ' ' ++ '\'' :: (esc s ++ ['\'']) := by
    have hshort : s ++ [' ', c] <+: s ++ ' ' :: c :: u := ⟨u, by simp⟩
    refine List.prefix_of_prefix_length_le hshort (hk.trans (List.takeWhile_prefix _)) ?_
    have := length_le_esc s
    simp only [List.length_append, List.length_replicate, List.length_cons, List.length_nil]
    omega
  have hcount := hlong.sublist.countP_le (p := solid)
  have hblanks : (List.replicate k ' ').countP solid = 0 :=
    List.countP_eq_zero.mpr fun d hd => by rw [List.eq_of_mem_replicate hd]; decide
  rw [List.countP_append, List.countP_append, hblanks, List.countP_cons_of_neg (by decide),
    List.countP_cons_of_pos hc, List.countP_cons_of_neg (by decide), List.countP_append, countP_esc,
    List.countP_cons_of_neg (by decide)] at hcount
  simp only [List.countP_nil] at hcount
  omega

/-- A text that would have to be read on by quotes it does not have. -/
theorem spells_itself_after {v u : List Char} (hu : u.head? ≠ some '\'') (j : Nat)
    (h : List.replicate j '\'' ++ (esc v ++ ['\'']) <+: v ++ '\'' :: u) :
    j = 0 ∧ ∀ c ∈ v, c ≠ '\'' := by
  induction v generalizing j with
  | nil =>
    cases j with
    | zero => exact ⟨rfl, nofun⟩
    | succ j =>
      refine absurd ?_ hu
      have h' : List.replicate j '\'' ++ ['\''] <+: u := (List.prefix_cons_inj _).mp h
      rw [← List.replicate_succ'] at h'
      obtain ⟨t, rfl⟩ := h'
      rfl
  | cons c v ih =>
    by_cases hc : c = '\''
    · subst hc
      have h' : List.replicate (j + 1) '\'' ++ (esc v ++ ['\'']) <+: v ++ '\'' :: u := by
        rw [esc_quote, List.cons_append, List.cons_append, ← List.singleton_append,
          ← List.append_assoc, ← List.replicate_succ', List.replicate_succ, List.cons_append,
          List.cons_append, List.prefix_cons_inj] at h
        rw [List.replicate_succ', List.append_assoc]
        exact h
      exact absurd (ih (j + 1) h').1 (Nat.succ_ne_zero j)
    · cases j with
      | zero =>
        rw [esc_cons hc] at h
        obtain ⟨-, hv⟩ := ih 0 ((List.prefix_cons_inj _).mp h)
        refine ⟨rfl, fun d hd => ?_⟩
        rcases List.mem_cons.mp hd with rfl | hd
        · exact hc
        · exact hv d hd
      | succ j =>
        obtain ⟨t, ht⟩ := h
        exact absurd (List.cons.inj ht).1.symm hc

/-- **A text between quotes that spells itself has no quote.** -/
theorem spells_itself {v u : List Char} (hu : u.head? ≠ some '\'')
    (h : esc v ++ ['\''] <+: v ++ '\'' :: u) : ∀ c ∈ v, c ≠ '\'' :=
  (spells_itself_after hu 0 h).2

/-! ### Templates -/

/-- The tokens of the text of a statement. -/
def tokens (text : String) : Option (List Tok) := lex (cut text.toList)

theorem cut_append {a : List Char} (h : ∀ c ∈ a, c ≠ '\x00') (b : List Char) :
    cut (a ++ b) = a ++ cut b :=
  List.takeWhile_append_of_pos fun c hc => decide_eq_true (h c hc)

theorem cut_append_of_nul {a : List Char} (h : ¬ ∀ c ∈ a, c ≠ '\x00') (b : List Char) :
    cut (a ++ b) = cut a := by
  have hlen : (a.takeWhile (fun c => decide (c ≠ '\x00'))).length ≠ a.length := by
    intro hlen
    have ha := (List.takeWhile_prefix (l := a) fun c => decide (c ≠ '\x00')).eq_of_length hlen
    exact h fun c hc => of_decide_eq_true (List.takeWhile_eq_self_iff.mp ha c hc)
  rw [cut, List.takeWhile_append, if_neg hlen]
  rfl

theorem noNul_of_mem_cut {cs : List Char} {c : Char} (h : c ∈ cut cs) : c ≠ '\x00' :=
  of_decide_eq_true (List.mem_takeWhile_imp (p := fun c => decide (c ≠ '\x00')) h)

/-- **A text that is put in and read as meant is plain.** -/
theorem plain_of_lexFrom {s : String} {acc u : List Char} {ts : List Tok}
    (hu : u.head? ≠ some '\'')
    (h : lexFrom (.str acc) (cut (s.toList ++ '\'' :: u)) = some (.str (acc ++ s.toList) :: ts)) :
    Plain s := by
  obtain ⟨body, hbody, hpre⟩ := prefix_of_str h
  obtain rfl := List.append_cancel_left hbody
  have hquote : ∀ c ∈ s.toList, c ≠ '\'' := spells_itself hu (hpre.trans (List.takeWhile_prefix _))
  have hcut : ∀ c ∈ esc s.toList ++ ['\''], c ≠ '\x00' := fun c hc =>
    noNul_of_mem_cut (hpre.subset hc)
  rw [esc_eq_self hquote] at hcut
  exact fun c hc => ⟨hquote c hc, hcut c (List.mem_append_left _ hc)⟩

/-- A statement with places for texts between quotes, for an automaton that is inside of something,
and the tokens that are meant.  The literal after a text begins with a quote, which is not doubled. -/
inductive Template : Mode → List Part → List Tok → Prop
  | nil {m : Mode} {ts : List Tok} (h : finish m = some ts) : Template m [] ts
  | lit {m m' : Mode} {l : List Char} {ps : List Part} {ts ts' : List Tok}
      (h : scan m l = some (m', ts)) (hl : (l.all (· != '\x00')) = true) (t : Template m' ps ts') :
      Template m (.lit (String.ofList l) :: ps) (ts ++ ts')
  | str {m' : Mode} {acc l : List Char} {s : String} {c : Char} {ps : List Part} {ts ts' : List Tok}
      (hc : (c != '\'') = true)
      (h : scan (.str (acc ++ s.toList)) ('\'' :: c :: l) = some (m', ts))
      (hl : (('\'' :: c :: l).all (· != '\x00')) = true) (t : Template m' ps ts') :
      Template (.str acc) (.str s :: .lit (String.ofList ('\'' :: c :: l)) :: ps) (ts ++ ts')
  | last {acc : List Char} {s : String} :
      Template (.str acc) [.str s, .lit "'"] [.str (acc ++ s.toList)]
  | nat {n : Nat} {ps : List Part} {ts : List Tok} (t : Template (.num false n) ps ts) :
      Template .between (.nat n :: ps) ts
  | int {i : Int} {ps : List Part} {ts : List Tok}
      (t : Template (.num (decide (i < 0)) i.natAbs) ps ts) : Template .between (.int i :: ps) ts

/-- A text that is put in is plain. -/
def Part.Plain : Part → Prop
  | .str s => Cql.Plain s
  | _ => True

namespace Template

theorem noNul {l : List Char} (hl : (l.all (· != '\x00')) = true) : ∀ c ∈ l, c ≠ '\x00' :=
  fun c hc => bne_iff_ne.mp (List.all_eq_true.mp hl c hc)

/-- The end of a string constant. -/
theorem scan_quote_cons {acc : List Char} {c : Char} (hc : c ≠ '\'') {cs : List Char} {m : Mode}
    {ts : List Tok} (h : scan (.str acc) ('\'' :: c :: cs) = some (m, ts)) :
    ∃ ts', ts = .str acc :: ts' := by
  rw [scan, step, if_pos rfl, Option.bind_some, scan, step, if_neg hc, restart] at h
  obtain ⟨r₁, h₁, he⟩ := Option.map_eq_some_iff.mp h
  obtain ⟨rfl, rfl⟩ := Prod.mk.inj he
  obtain ⟨r₂, h₂, h₁⟩ := Option.bind_eq_some_iff.mp h₁
  obtain ⟨r₃, -, rfl⟩ := Option.map_eq_some_iff.mp h₂
  obtain ⟨r₄, -, rfl⟩ := Option.map_eq_some_iff.mp h₁
  exact ⟨r₃.2 ++ r₄.2, rfl⟩

/-- What the parts are meant to be read as, for an automaton that is inside of something. -/
theorem bind_scanParts_cons {m m' : Mode} {p : Part} {ts ts' : List Tok} {ps : List Part}
    (h : scanPart m p = some (m', ts))
    (hps : ((scanParts m' ps).bind fun r => (finish r.1).map (r.2 ++ ·)) = some ts') :
    ((scanParts m (p :: ps)).bind fun r => (finish r.1).map (r.2 ++ ·)) = some (ts ++ ts') := by
  obtain ⟨r, hr, hfin⟩ := Option.bind_eq_some_iff.mp hps
  obtain ⟨toks, htoks, rfl⟩ := Option.map_eq_some_iff.mp hfin
  rw [scanParts, h, Option.bind_some, hr, Option.map_some, Option.bind_some, htoks, Option.map_some,
    List.append_assoc]

/-- The tokens of a template are those that its parts are meant to be read as. -/
theorem bind_scanParts {m : Mode} {ps : List Part} {ts : List Tok} (t : Template m ps ts) :
    ((scanParts m ps).bind fun r => (finish r.1).map (r.2 ++ ·)) = some ts := by
  induction t with
  | nil h => rw [scanParts, Option.bind_some, h]; rfl
  | lit h hl t ih =>
    refine bind_scanParts_cons ?_ ih
    rw [scanPart, String.toList_ofList, h]
  | @str m' acc l s c ps ts ts' hc h hl t ih =>
    have hs : scanPart (.str acc) (.str s) = some (.str (acc ++ s.toList), []) := rfl
    have hl : scanPart (.str (acc ++ s.toList)) (.lit (String.ofList ('\'' :: c :: l))) =
        some (m', ts) := by
      rw [scanPart, String.toList_ofList, h]
    have hrest := bind_scanParts_cons hs (bind_scanParts_cons hl ih)
    exact hrest
  | last => rfl
  | @nat n ps ts t ih =>
    have hn : scanPart .between (.nat n) = some (.num false n, []) := rfl
    have hrest := bind_scanParts_cons hn ih
    exact hrest
  | @int i ps ts t ih =>
    have hi : scanPart .between (.int i) = some (.num (decide (i < 0)) i.natAbs, []) := rfl
    have hrest := bind_scanParts_cons hi ih
    exact hrest

theorem lexParts_eq {ps : List Part} {ts : List Tok} (t : Template .between ps ts) :
    lexParts ps = some ts := t.bind_scanParts

/-- A text that is scanned, and the rest. -/
theorem lexFrom_cut_iff {m m' : Mode} {a : List Char} {ts ts' : List Tok}
    (h : scan m a = some (m', ts)) (ha : ∀ c ∈ a, c ≠ '\x00') (b : List Char) :
    lexFrom m (cut (a ++ b)) = some (ts ++ ts') ↔ lexFrom m' (cut b) = some ts' := by
  rw [cut_append ha, lexFrom_append h, Option.map_eq_some_iff]
  constructor
  · rintro ⟨toks, htoks, he⟩
    rw [htoks, List.append_cancel_left he]
  · exact fun htoks => ⟨ts', htoks, rfl⟩

/-- **A template is read as it is meant exactly if the texts put in are plain.** -/
theorem lexFrom_iff {m : Mode} {ps : List Part} {ts : List Tok} (t : Template m ps ts) :
    lexFrom m (cut (ps.flatMap fun p => p.text.toList)) = some ts ↔ ∀ s, .str s ∈ ps → Plain s := by
  induction t with
  | nil h =>
    rw [List.flatMap_nil, cut, List.takeWhile_nil, lexFrom_nil, h]
    exact iff_of_true rfl nofun
  | @lit m m' l ps ts ts' h hl t ih =>
    rw [List.flatMap_cons, Part.text, String.toList_ofList, lexFrom_cut_iff h (noNul hl), ih]
    simp
  | @str m' acc l s c ps ts ts' hc h hl t ih =>
    rw [List.flatMap_cons, List.flatMap_cons, Part.text, Part.text, String.toList_ofList]
    by_cases hs : Plain s
    · have hscan := scan_plain (fun c hc => (hs c hc).1) acc
      rw [← List.nil_append (ts ++ ts'), lexFrom_cut_iff hscan (fun c hc => (hs c hc).2),
        lexFrom_cut_iff h (noNul hl), ih]
      simp [hs]
    · -- the constant is read first
      obtain ⟨ts₀, rfl⟩ := scan_quote_cons (bne_iff_ne.mp hc) h
      refine iff_of_false (fun h' => hs ?_) fun h' => hs (h' s List.mem_cons_self)
      exact plain_of_lexFrom (u := c :: l ++ ps.flatMap fun p => p.text.toList)
        (fun h => bne_iff_ne.mp hc (Option.some.inj h)) h'
  | @last acc s =>
    rw [List.flatMap_cons, List.flatMap_cons, Part.text, Part.text, List.flatMap_nil]
    by_cases hs : Plain s
    · have hscan := scan_plain (fun c hc => (hs c hc).1) acc
      rw [← List.nil_append [_], lexFrom_cut_iff hscan (fun c hc => (hs c hc).2)]
      refine iff_of_true rfl ?_
      simp [hs]
    · refine iff_of_false (fun h' => hs ?_) fun h' => hs (h' s List.mem_cons_self)
      exact plain_of_lexFrom (u := []) nofun h'
  | @nat n ps ts t ih =>
    rw [List.flatMap_cons, Part.text, ← List.nil_append ts, lexFrom_cut_iff (scan_nat n) (repr_noNul n), ih]
    simp
  | @int i ps ts t ih =>
    rw [List.flatMap_cons, Part.text, ← List.nil_append ts,
      lexFrom_cut_iff (scan_int i) (Part.Sound.noNul (p := .int i) trivial), ih]
    simp

theorem tokens_iff {ps : List Part} {ts : List Tok} (t : Template .between ps ts) :
    tokens (render ps) = some ts ↔ ∀ s, .str s ∈ ps → Plain s := by
  rw [← t.lexFrom_iff, tokens, render_toList]
  rfl

/-- A text that begins with a literal. -/
theorem lexFrom_lit {m m' : Mode} {l : List Char} {ts : List Tok} (h : scan m l = some (m', ts))
    (hl : (l.all (· != '\x00')) = true) (tail : String) :
    lexFrom m (cut (String.ofList l ++ tail).toList) =
      (lexFrom m' (cut tail.toList)).map (ts ++ ·) := by
  rw [String.toList_append, String.toList_ofList, cut_append (noNul hl), lexFrom_append h]

/-- A text that begins with a text that is put in. -/
theorem lexFrom_str {s : String} (hs : Plain s) (acc : List Char) (tail : String) :
    lexFrom (.str acc) (cut (s ++ tail).toList) =
      lexFrom (.str (acc ++ s.toList)) (cut tail.toList) := by
  rw [String.toList_append, cut_append fun c hc => (hs c hc).2,
    lexFrom_append (scan_plain (fun c hc => (hs c hc).1) acc)]
  exact congrFun Option.map_id _

/-- A text that begins with a number. -/
theorem lexFrom_nat (n : Nat) (tail : String) :
    lexFrom .between (cut (toString n ++ tail).toList) =
      lexFrom (.num false n) (cut tail.toList) := by
  have hnul : ∀ c ∈ (toString n).toList, c ≠ '\x00' := repr_noNul n
  rw [String.toList_append, cut_append hnul, lexFrom_append (scan_nat n)]
  exact congrFun Option.map_id _

theorem lexFrom_int (i : Int) (tail : String) :
    lexFrom .between (cut (toString i ++ tail).toList) =
      lexFrom (.num (decide (i < 0)) i.natAbs) (cut tail.toList) := by
  have hnul : ∀ c ∈ (toString i).toList, c ≠ '\x00' := Part.Sound.noNul (p := .int i) trivial
  rw [String.toList_append, cut_append hnul, lexFrom_append (scan_int i)]
  exact congrFun Option.map_id _

/-- A text is read as some tokens, and what comes after them. -/
def Begins (m : Mode) (text : String) (ts : List Tok) (rest : Option (List Tok)) : Prop :=
  lexFrom m (cut text.toList) = rest.map (ts ++ ·)

namespace Begins

variable {m m' : Mode} {tail : String} {ts ts' : List Tok} {rest : Option (List Tok)}

theorem here : Begins m tail [] (lexFrom m (cut tail.toList)) := (congrFun Option.map_id _).symm

theorem lit {l : List Char} (h : scan m l = some (m', ts)) (hl : (l.all (· != '\x00')) = true)
    (t : Begins m' tail ts' rest) : Begins m (String.ofList l ++ tail) (ts ++ ts') rest := by
  rw [Begins, lexFrom_lit h hl, t, Option.map_map]
  simp only [Function.comp_def, List.append_assoc]

theorem str {s : String} {acc : List Char} (hs : Plain s)
    (t : Begins (.str (acc ++ s.toList)) tail ts rest) : Begins (.str acc) (s ++ tail) ts rest := by
  rw [Begins, lexFrom_str hs]
  exact t

theorem nat {n : Nat} (t : Begins (.num false n) tail ts rest) :
    Begins .between (toString n ++ tail) ts rest := by
  rw [Begins, lexFrom_nat]
  exact t

theorem int {i : Int} (t : Begins (.num (decide (i < 0)) i.natAbs) tail ts rest) :
    Begins .between (toString i ++ tail) ts rest := by
  rw [Begins, lexFrom_int]
  exact t

end Begins

/-- A blank before the last semicolon does not matter. -/
theorem lexFrom_semicolon (m : Mode) (s : String) :
    lexFrom m (cut (s ++ "' ;").toList) = lexFrom m (cut (s ++ "';").toList) := by
  rw [String.toList_append, String.toList_append]
  by_cases hs : ∀ c ∈ s.toList, c ≠ '\x00'
  · have hblank : cut "' ;".toList = ['\'', ' ', ';'] := by decide
    have hnone : cut "';".toList = ['\'', ';'] := by decide
    rw [cut_append hs, cut_append hs, hblank, hnone]
    cases hscan : scan m s.toList with
    | none => rw [lexFrom_append_none hscan, lexFrom_append_none hscan]
    | some r =>
      rw [lexFrom_append hscan, lexFrom_append hscan]
      congr 1
      cases r.1 <;> rfl
  · rw [cut_append_of_nul hs, cut_append_of_nul hs]

/-- **The text of a template with plain texts is run as the statement that it is meant to be.** -/
theorem execute {S : Schema} {keyspace : Name} {stmt : Stmt} {ps : List Part} {ts : List Tok}
    (t : Template .between ps ts) (hparse : parse keyspace ts = some stmt) (h : ∀ p ∈ ps, p.Plain)
    (db : Db) : Cql.execute S keyspace db (render ps) = exec S db stmt := by
  have htokens : lex ((render ps).toList.takeWhile (· ≠ '\x00')) = some ts :=
    t.tokens_iff.mpr fun s hs => h (.str s) hs
  simp only [Cql.execute, htokens, bind, Option.bind_some, hparse]

end Template

/-! ### Texts without quotes around them -/

/-- Inside a word or a number, or between tokens. -/
def Mode.Bare : Mode → Prop
  | .between | .word _ | .num _ _ => True
  | .minus | .str _ | .quote _ => False

/-- A character of a word or a number, or a dot. -/
def Bare (c : Char) : Prop := isWordPart c = true ∨ c = '.'

theorem Bare.start {c : Char} (hc : Bare c) {r : Mode × List Tok} (h : Cql.start c = some r) :
    r.1.Bare := by
  have hquote : c ≠ '\'' := by
    rintro rfl
    exact absurd hc (by unfold Bare; decide)
  have hminus : c ≠ '-' := by
    rintro rfl
    exact absurd hc (by unfold Bare; decide)
  unfold Cql.start at h
  rw [if_neg hquote, if_neg hminus] at h
  split at h
  · obtain rfl := Option.some.inj h
    exact trivial
  split at h
  · obtain rfl := Option.some.inj h
    exact trivial
  split at h
  · obtain rfl := Option.some.inj h
    exact trivial
  split at h
  · obtain rfl := Option.some.inj h
    exact trivial
  · cases h

theorem Bare.restart {c : Char} (hc : Bare c) {t : Tok} {r : Mode × List Tok}
    (h : Cql.restart t c = some r) : r.1.Bare := by
  obtain ⟨r', hr', rfl⟩ := Option.map_eq_some_iff.mp h
  have hbare : r'.1.Bare := hc.start hr'
  exact hbare

theorem Bare.step {c : Char} (hc : Bare c) {m : Mode} (hm : m.Bare) {r : Mode × List Tok}
    (h : Cql.step m c = some r) : r.1.Bare := by
  cases m with
  | between => exact hc.start h
  | word acc =>
    rw [Cql.step] at h
    split at h
    · obtain rfl := Option.some.inj h
      exact trivial
    · exact hc.restart h
  | num neg n =>
    rw [Cql.step] at h
    split at h
    · obtain rfl := Option.some.inj h
      exact trivial
    · split at h
      · cases h
      · exact hc.restart h
  | minus | str | quote => exact hm.elim

/-- **No token goes on with this character, and none starts with it.** -/
theorem scan_at {user : List Char} (huser : ∀ c ∈ user, Bare c) {m : Mode} (hm : m.Bare)
    (rest : List Char) : scan m (user ++ '@' :: rest) = none := by
  induction user generalizing m with
  | nil =>
    have hstep : step m '@' = none := by
      cases m with
      | between | word | num => rfl
      | minus | str | quote => exact hm.elim
    rw [List.nil_append, scan, hstep]
    rfl
  | cons c user ih =>
    rw [List.cons_append, scan]
    cases hstep : step m c with
    | none => rfl
    | some r =>
      have hr : r.1.Bare := (huser c List.mem_cons_self).step hm hstep
      rw [Option.bind_some, ih (fun c' hc' => huser c' (List.mem_cons_of_mem _ hc')) hr]
      rfl
/-- A text with an `@` behind a name of letters, digits, `_` and dots. -/
def Unread (s : String) : Prop := ∃ user rest, s.toList = user ++ '@' :: rest ∧ ∀ c ∈ user, Bare c

theorem lexFrom_unread {s : String} (h : Unread s) (tail : String) :
    lexFrom .between (cut (s ++ tail).toList) = none := by
  obtain ⟨user, rest, hs, huser⟩ := h
  have hnul : ∀ c ∈ user, c ≠ '\x00' := by
    rintro c hc rfl
    exact absurd (huser _ hc) (by unfold Bare; decide)
  have hat : cut ('@' :: (rest ++ tail.toList)) = '@' :: cut (rest ++ tail.toList) :=
    List.takeWhile_cons_of_pos (by decide)
  have hscan : scan .between (user ++ '@' :: cut (rest ++ tail.toList)) = none :=
    scan_at huser (m := .between) trivial _
  rw [String.toList_append, hs, List.append_assoc, List.cons_append, cut_append hnul, hat, lexFrom,
    hscan]
  rfl

end Cql
