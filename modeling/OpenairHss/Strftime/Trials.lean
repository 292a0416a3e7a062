import OpenairHss.Strftime.Formats

/-!
# Formats out of step

Formats that do not stay in step are not printed.  Three moments are enough to see it.

A specifier that is expanded wrong, or is taken for one although it is not, shows in the year 6 BC,
where every text differs from the letter of its specifier.  An ordinary character that is dropped puts
the output behind what is expected by some characters, and it does not catch up: "%g" and "%V", whose
texts are longer than they should be, could make up for it only if the characters left out were the
century, and that is another one in 1985 than in 2001.

* `Trial.letter`: output that is behind is copied on.
* `lag`: it stays behind.
-/

namespace OpenairHss.Strftime

/-- The output is a text, without a fault. -/
def Agrees (o : Output Fault Char) (l : List Char) : Prop := o.fault = none ∧ o.items = l

theorem agrees_text_append {w l : List Char} {p : Output Fault Char} :
    Agrees (.text w ++ p) (w ++ l) ↔ Agrees p l := by
  rw [Agrees, Agrees, Output.fault_text_append, Output.items_text_append, List.append_cancel_left_eq]

theorem not_agrees_pastEnd (w l : List Char) : ¬ Agrees (.text w ++ pastEnd) l := by
  rintro ⟨h, _⟩
  exact absurd h nofun

/-- A character that is missing is found at another place. -/
theorem mem_of_append_cons {α : Type} {a : α} {w u x y : List α} (h : w ++ a :: x = u ++ y)
    (hlen : w.length < u.length) : a ∈ u := by
  have hat : (w ++ a :: x)[w.length]? = some a := by simp
  rw [h, List.getElem?_append_left hlen] at hat
  exact List.mem_of_getElem? hat

/-! ### Moments to try -/

structure Trial where
  zone : Zone
  moment : Moment
  exact : zone.Exact

def Trial.output (T : Trial) : Specifier → Output Fault Char :=
  printed T.zone T.moment.tm T.moment.micros

/-- A zone without daylight saving. -/
def zoneOf (timezone : Int) : Zone where
  timezone := timezone
  mktime t :=
    let days := daysBefore (t.tm_year + 1900) +
      daysTo (t.tm_year + 1900) (t.tm_mon + 1).toNat t.tm_mday.toNat
    (((days - daysBefore 1970) * 24 + t.tm_hour) * 60 + t.tm_min) * 60 + t.tm_sec + timezone

theorem zoneOf_exact (timezone : Int) : (zoneOf timezone).Exact := by
  intro m h
  have hyear : m.tm.tm_year + 1900 = m.year := Int.sub_add_cancel m.year 1900
  have hmon : (m.tm.tm_mon + 1).toNat = m.month := by
    rw [show m.tm.tm_mon + 1 = (m.month : Int) from Int.sub_add_cancel _ _, Int.toNat_natCast]
  have hday : m.tm.tm_mday.toNat = m.day := Int.toNat_natCast m.day
  have hoffset : m.offset = -timezone := h
  simp only [zoneOf, hyear, hmon, hday, Moment.epoch, Moment.days, Moment.dayOfYear, hoffset]
  change _ = _ - -timezone
  rw [Int.sub_neg]
  rfl

/-- 6 BC, an hour east of UTC. -/
def longAgo : Trial where
  zone := zoneOf (-3600)
  moment :=
    { year := -5, month := 2, day := 3, hour := 4, minute := 5, second := 6, micros := 999999,
      offset := 3600, zoneName := "CET".toList, month_mem := by decide, day_mem := by decide,
      hour_le := by decide, minute_le := by decide, second_le := by decide, micros_lt := by decide }
  exact := zoneOf_exact _

/-- A Friday of 2001. -/
def recent : Trial where
  zone := zoneOf 0
  moment :=
    { year := 2001, month := 2, day := 2, hour := 4, minute := 5, second := 6, micros := 999999,
      offset := 0, zoneName := "UTC".toList, month_mem := by decide, day_mem := by decide,
      hour_le := by decide, minute_le := by decide, second_le := by decide, micros_lt := by decide }
  exact := zoneOf_exact _

/-- A Friday of 1985. -/
def earlier : Trial where
  zone := zoneOf 0
  moment :=
    { year := 1985, month := 2, day := 1, hour := 4, minute := 5, second := 6, micros := 999999,
      offset := 0, zoneName := "UTC".toList, month_mem := by decide, day_mem := by decide,
      hour_le := by decide, minute_le := by decide, second_le := by decide, micros_lt := by decide }
  exact := zoneOf_exact _

/-- What the moments have in common: no text is empty or has a '%', and the composed specifiers read
behind their formats. -/
structure Trial.Usual (T : Trial) : Prop where
  expansion_ne (s : Specifier) : T.moment.expansion s ≠ []
  literal_not_mem (s : Specifier) : '%' ∉ T.moment.expansion s
  fault_again (s : Specifier) : s.again.isSome → (T.output s).fault ≠ none
  fault_direct (s : Specifier) : s.again = none → (T.output s).fault = none

/-- The years of "%g" and "%V". -/
def Specifier.weekYear (s : Specifier) : Bool := s == .TWO_DIG_YEAR || s == .ISO_WEEK_NUM

/-- What the three moments print and expand, specifier by specifier. -/
theorem tried : ∀ s ∈ Specifier.all,
    (∀ T ∈ [longAgo, recent, earlier], T.moment.expansion s ≠ [] ∧
      '%' ∉ T.moment.expansion s ∧ ((T.output s).fault = none ↔ s.again = none)) ∧
    ((recent.moment.expansion s).length = (earlier.moment.expansion s).length ∧
      (s.again = none → (recent.output s).items.length = (earlier.output s).items.length ∧
        (s.weekYear = false →
          (recent.output s).items.length ≤ (recent.moment.expansion s).length))) ∧
    (s.again = none →
      (longAgo.output s).items ≠ [] ∧ (longAgo.output s).items.head? ≠ some s.char ∧
        (s.right = false →
          (longAgo.output s).items.head? ≠ (longAgo.moment.expansion s).head?)) ∧
    ((longAgo.moment.expansion s).head? ≠ some 'E' ∧
      (longAgo.moment.expansion s).head? ≠ some 'O') ∧
    (s.weekYear = true →
      (recent.output s).items = ['2', '0', '0', '1'] ∧
        (earlier.output s).items = ['1', '9', '8', '5'] ∧
        (recent.moment.expansion s = ['0', '1'] ∨ recent.moment.expansion s = ['0', '5'])) := by
  decide +kernel

theorem Trial.usual {T : Trial} (hT : T ∈ [longAgo, recent, earlier]) : T.Usual where
  expansion_ne s := ((tried s s.mem_all).1 T hT).1
  literal_not_mem s := ((tried s s.mem_all).1 T hT).2.1
  fault_again s hs := by
    rw [Ne, ((tried s s.mem_all).1 T hT).2.2]
    exact Option.isSome_iff_ne_none.mp hs
  fault_direct s := ((tried s s.mem_all).1 T hT).2.2.mpr

theorem longAgo_usual : longAgo.Usual := Trial.usual (by simp)

theorem recent_usual : recent.Usual := Trial.usual (by simp)

theorem earlier_usual : earlier.Usual := Trial.usual (by simp)

/-- The composed specifiers read behind the formats they stand for. -/
theorem not_agrees_composed {T : Trial} (hT : T.Usual) {s : Specifier} (hs : s.again ≠ none)
    {p : Output Fault Char} {l : List Char} : ¬ Agrees (T.output s ++ p) l := by
  intro h
  have hfault := hT.fault_again s (Option.isSome_iff_ne_none.mpr hs)
  obtain ⟨e, he⟩ := Option.ne_none_iff_exists'.mp hfault
  rw [Agrees, Output.fault_append_of_some _ he] at h
  exact absurd h.1 nofun

/-- In 2001 and in 1985 the texts have the same lengths, and only the years of "%g" and "%V" are longer
than they should be. -/
theorem lengths (s : Specifier) :
    (recent.moment.expansion s).length = (earlier.moment.expansion s).length ∧
      (s.again = none → (recent.output s).items.length = (earlier.output s).items.length ∧
        (s.weekYear = false → (recent.output s).items.length ≤ (recent.moment.expansion s).length)) :=
  (tried s s.mem_all).2.1

/-- In 6 BC the first characters tell the texts apart: what is expanded wrong, and what is a letter. -/
theorem heads (s : Specifier) (h : s.again = none) :
    (longAgo.output s).items ≠ [] ∧ (longAgo.output s).items.head? ≠ some s.char ∧
      (s.right = false →
        (longAgo.output s).items.head? ≠ (longAgo.moment.expansion s).head?) :=
  (tried s s.mem_all).2.2.1 h

/-- No text begins with the letter of a modifier. -/
theorem head_ne_modifier (modifier : Modifier) (s : Specifier) :
    (longAgo.moment.expansion s).head? ≠ some modifier.char := by
  obtain ⟨hera, hmodifier⟩ := (tried s s.mem_all).2.2.2.1
  cases modifier with
  | ALTERNATE_ERA => exact hera
  | MODIFIER => exact hmodifier

/-! ### The output stays behind -/

theorem ofChar_modifier (modifier : Modifier) : Specifier.ofChar modifier.char = none := by
  cases modifier <;> decide

/-- If the output is behind, what is copied instead of a letter is an ordinary character. -/
theorem Trial.letter (T : Trial) {last : Bool} {c : Char} (hc : c ≠ '%') {w u : List Char}
    (hlen : w.length < u.length) (hu : '%' ∉ u) {pieces : List Piece}
    (h : Agrees (.text w ++ scanned T.output (c :: textOf last pieces))
      (u ++ expansionOf T.moment last pieces)) :
    ∃ d hd rest, pieces = .ordinary d hd :: rest ∧
      Agrees (scanned T.output (textOf last rest))
        (u.drop (w.length + 1) ++ d :: expansionOf T.moment last rest) := by
  -- what is copied is no '%'
  have hliteral (rest : List Char) (htext : textOf last pieces = '%' :: rest) : False := by
    rw [htext, scanned_letter _ hc] at h
    exact hu (mem_of_append_cons h.2 hlen)
  cases pieces with
  | nil =>
    cases last with
    | false =>
      rw [textOf, if_neg Bool.false_ne_true, scanned_end _ hc] at h
      exact absurd h (not_agrees_pastEnd w _)
    | true => exact (hliteral [] rfl).elim
  | cons p pieces =>
    cases p with
    | ordinary d hd =>
      refine ⟨d, hd, pieces, rfl, ?_⟩
      have htext : textOf last (.ordinary d hd :: pieces) = d :: textOf last pieces := rfl
      rw [htext, scanned_letter _ hc] at h
      refine ⟨h.1, ?_⟩
      have hitems : w ++ d :: (scanned T.output (textOf last pieces)).items =
          u ++ d :: expansionOf T.moment last pieces := h.2
      have hdrop := congrArg (List.drop (w.length + 1)) hitems
      have hleft (x : List Char) : List.drop (w.length + 1) (w ++ d :: x) = x := by
        rw [← List.drop_drop, List.drop_left]
        rfl
      rw [hleft, List.drop_append_of_le_length hlen] at hdrop
      exact hdrop
    | percent => exact (hliteral _ rfl).elim
    | specifier s => exact (hliteral _ rfl).elim
    | modified modifier s => exact (hliteral _ rfl).elim

/-- Output that is behind by some characters, of which the last is the same at both moments. -/
def Lags (last : Bool) (pieces : List Piece) : Prop :=
  ∀ (v₁ v₂ : List Char) (b : Char), v₁.length = v₂.length → '%' ∉ v₁ → '%' ∉ v₂ → b ≠ '%' →
    Agrees (scanned recent.output (textOf last pieces))
      (v₁ ++ b :: expansionOf recent.moment last pieces) →
    ¬ Agrees (scanned earlier.output (textOf last pieces))
      (v₂ ++ b :: expansionOf earlier.moment last pieces)

/-- A letter, after the texts `w₁` and `w₂` instead of `e₁` and `e₂`. -/
theorem Lags.letter {last : Bool} {pieces : List Piece}
    (ih : ∀ d hd rest, pieces = .ordinary d hd :: rest → Lags last rest) {c b : Char} (hc : c ≠ '%')
    (hb : b ≠ '%') (w₁ w₂ : List Char) {v₁ v₂ e₁ e₂ : List Char} (hw : w₁.length = w₂.length)
    (hv : v₁.length = v₂.length) (he : e₁.length = e₂.length)
    (hlen : w₁.length < v₁.length + 1 + e₁.length) (hv₁ : '%' ∉ v₁) (hv₂ : '%' ∉ v₂) (he₁ : '%' ∉ e₁)
    (he₂ : '%' ∉ e₂)
    (h₁ : Agrees (.text w₁ ++ scanned recent.output (c :: textOf last pieces))
      (v₁ ++ b :: (e₁ ++ expansionOf recent.moment last pieces))) :
    ¬ Agrees (.text w₂ ++ scanned earlier.output (c :: textOf last pieces))
      (v₂ ++ b :: (e₂ ++ expansionOf earlier.moment last pieces)) := by
  intro h₂
  have hbehind (v e : List Char) (hv : '%' ∉ v) (he : '%' ∉ e) : '%' ∉ v ++ b :: e := by
    rw [List.mem_append, List.mem_cons]
    rintro (h | h | h)
    · exact hv h
    · exact hb h.symm
    · exact he h
  have hu₁ := hbehind v₁ e₁ hv₁ he₁
  have hu₂ := hbehind v₂ e₂ hv₂ he₂
  have hlength₁ : (v₁ ++ b :: e₁).length = v₁.length + 1 + e₁.length := by simp; omega
  have hlength₂ : (v₂ ++ b :: e₂).length = v₁.length + 1 + e₁.length := by simp; omega
  rw [← List.cons_append, ← List.append_assoc] at h₁ h₂
  obtain ⟨d, hd, rest, hpieces, h₁⟩ := recent.letter hc (by omega) hu₁ h₁
  obtain ⟨d', hd', rest', hpieces', h₂⟩ := earlier.letter hc (by omega) hu₂ h₂
  obtain ⟨hp, rfl⟩ := List.cons.inj (hpieces.symm.trans hpieces')
  obtain rfl : d = d' := Piece.ordinary.inj hp
  refine ih d hd rest hpieces _ _ d ?_ ?_ ?_ hd.1 h₁ h₂
  · rw [List.length_drop, List.length_drop]
    omega
  · exact fun hmem => hu₁ (List.mem_of_mem_drop hmem)
  · exact fun hmem => hu₂ (List.mem_of_mem_drop hmem)

/-- The years of "%g" and "%V" do not catch up either. -/
theorem weekYear_length {s : Specifier} (hs : s.weekYear = true) {v₁ v₂ x₁ x₂ y₁ y₂ : List Char} {b : Char}
    (hv : v₁.length = v₂.length)
    (h₁ : (recent.output s).items ++ x₁ = v₁ ++ b :: (recent.moment.expansion s ++ y₁))
    (h₂ : (earlier.output s).items ++ x₂ = v₂ ++ b :: (earlier.moment.expansion s ++ y₂)) :
    (recent.output s).items.length < v₁.length + 1 + (recent.moment.expansion s).length := by
  obtain ⟨hrecent, hearlier, hexpansion⟩ := (tried s s.mem_all).2.2.2.2 hs
  have hlen : (recent.moment.expansion s).length = 2 := by
    rcases hexpansion with h | h <;> rw [h] <;> rfl
  rw [hrecent] at h₁ ⊢
  rw [hearlier] at h₂
  match v₁, v₂, hv with
  | [], _, _ =>
    rcases hexpansion with h | h <;> simp [h] at h₁
  | [a₁], [a₂], _ =>
    -- the century is that of both years
    simp only [List.cons_append, List.nil_append, List.cons.injEq] at h₁ h₂
    exact absurd (h₁.2.1.trans h₂.2.1.symm) (by decide)
  | _ :: _ :: v₁, _, _ =>
    simp only [List.length_cons, List.length_nil, hlen]
    omega

/-- Once behind, the output stays behind. -/
theorem lag (last : Bool) (pieces : List Piece) : Lags last pieces := by
  induction hn : pieces.length using Nat.strongRecOn generalizing pieces with
  | ind n ih =>
    intro v₁ v₂ b hv hv₁ hv₂ hb h₁ h₂
    cases pieces with
    | nil =>
      have hlen := congrArg List.length h₁.2
      cases last with
      | false => simp [scanned, textOf, expansionOf] at hlen
      | true => simp [scanned, textOf, expansionOf] at hlen
    | cons p pieces =>
      have hrest (d : Char) (hd : d ≠ '%' ∧ d ≠ '\x00') (rest : List Piece)
          (hpieces : pieces = .ordinary d hd :: rest) : Lags last rest := by
        subst hpieces
        exact ih rest.length (by simp at hn; omega) rest rfl
      cases p with
      | percent =>
        have hitems : [] ++ '%' :: (scanned recent.output (textOf last pieces)).items =
            (v₁ ++ [b]) ++ '%' :: expansionOf recent.moment last pieces := by
          rw [List.append_assoc]
          exact h₁.2
        rcases List.mem_append.mp (mem_of_append_cons hitems (by simp)) with h | h
        · exact hv₁ h
        · exact hb (List.mem_singleton.mp h).symm
      | ordinary c hc =>
        have hc' : '%' ∉ [c] := fun h => hc.1 (List.mem_singleton.mp h).symm
        exact Lags.letter hrest hc.1 hb [] [] rfl hv rfl (by simp) hv₁ hv₂ hc' hc' h₁ h₂
      | modified modifier s =>
        have htext : textOf last (.modified modifier s :: pieces) =
            '%' :: modifier.char :: s.char :: textOf last pieces := rfl
        rw [htext, scanned_default _ (ofChar_modifier modifier)] at h₁ h₂
        have hpos := List.length_pos_of_ne_nil (recent_usual.expansion_ne s)
        exact Lags.letter hrest s.char_ne_literal hb [modifier.char] [modifier.char] rfl hv
          (lengths s).1 (by simp; omega) hv₁ hv₂ (recent_usual.literal_not_mem s)
          (earlier_usual.literal_not_mem s) h₁ h₂
      | specifier s =>
        have htext : textOf last (.specifier s :: pieces) = '%' :: s.char :: textOf last pieces := rfl
        rw [htext, scanned_specifier] at h₁ h₂
        cases hs : s.again with
        | some own => exact not_agrees_composed recent_usual (by rw [hs]; exact Option.some_ne_none own) h₁
        | none =>
          rw [Output.eq_text (recent_usual.fault_direct s hs)] at h₁
          rw [Output.eq_text (earlier_usual.fault_direct s hs)] at h₂
          obtain ⟨hexpansion, hitems⟩ := lengths s
          obtain ⟨hitems, hle⟩ := hitems hs
          have hlen : (recent.output s).items.length <
              v₁.length + 1 + (recent.moment.expansion s).length := by
            cases hweek : s.weekYear with
            | true => exact weekYear_length hweek hv h₁.2 h₂.2
            | false =>
              have := hle hweek
              omega
          exact Lags.letter hrest s.char_ne_literal hb _ _ hitems hv hexpansion hlen hv₁ hv₂
            (recent_usual.literal_not_mem s) (earlier_usual.literal_not_mem s) h₁ h₂

end OpenairHss.Strftime
