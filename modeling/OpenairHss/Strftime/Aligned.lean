import OpenairHss.Strftime.Trials

/-!
# The formats that are printed

* `aligned_of_agrees`: a format that is printed at the moments to try stays in step.
* `prints_iff`: the formats that are printed are those that stay in step.
* `format_time_into_string_eq`: what `format_time_into_string` makes of such a format.
-/

namespace OpenairHss.Strftime

def Trial.Tried (T : Trial) : Prop := T = longAgo ∨ T = recent ∨ T = earlier

/-- The rest of a format is printed. -/
def Trial.Stays (T : Trial) (last behind : Bool) (pieces : List Piece) : Prop :=
  Agrees (scanned T.output ((if behind then ['%'] else []) ++ textOf last pieces))
    (expansionOf T.moment last pieces)

theorem Agrees.head {o : Output Fault Char} {l : List Char} (h : Agrees o l) :
    o.items.head? = l.head? := congrArg List.head? h.2

/-- No text begins with '%'. -/
theorem not_agrees_literal {p : Output Fault Char} {e l : List Char} (he : e ≠ []) (hliteral : '%' ∉ e) :
    ¬ Agrees (.text ['%'] ++ p) (e ++ l) := by
  intro h
  exact hliteral (mem_of_append_cons (w := []) h.2 (List.length_pos_of_ne_nil he))

/-- A specifier at the beginning is expanded right, and what follows stays in step. -/
theorem right_of_agrees {s : Specifier} {p : Output Fault Char} {l : List Char}
    (h : Agrees (longAgo.output s ++ p) (longAgo.moment.expansion s ++ l)) : s.right = true := by
  by_contra hright
  have hs : s.again = none := by
    by_contra hagain
    exact not_agrees_composed longAgo_usual hagain h
  obtain ⟨hne, _, hwrong⟩ := heads s hs
  refine hwrong (Bool.eq_false_iff.mpr hright) ?_
  rw [Output.eq_text (longAgo_usual.fault_direct s hs)] at h
  have hhead : ((longAgo.output s).items ++ p.items).head? = _ := h.head
  rwa [List.head?_append_of_ne_nil _ hne, List.head?_append_of_ne_nil _ (longAgo_usual.expansion_ne s)]
    at hhead

/-- A letter behind "%%" is no specifier's. -/
theorem ofChar_of_agrees {c : Char} {rest l : List Char}
    (h : Agrees (scanned longAgo.output ('%' :: c :: rest)) (c :: l)) : Specifier.ofChar c = none := by
  by_contra hsome
  obtain ⟨s, hs⟩ := Option.ne_none_iff_exists'.mp hsome
  obtain rfl := Specifier.char_of_ofChar hs
  rw [scanned_specifier] at h
  by_cases hagain : s.again = none
  · obtain ⟨hne, hletter, _⟩ := heads s hagain
    rw [Output.eq_text (longAgo_usual.fault_direct s hagain)] at h
    have hhead : ((longAgo.output s).items ++ _).head? = _ := h.head
    rw [List.head?_append_of_ne_nil _ hne] at hhead
    exact hletter hhead
  · exact not_agrees_composed longAgo_usual hagain h

/-- An ordinary character that the loop does not find behind a letter is dropped. -/
theorem not_agrees_ordinary {last : Bool} {c : Char} (hc : c ≠ '%' ∧ c ≠ '\x00') {pieces : List Piece}
    (h₁ : Agrees (scanned recent.output (textOf last (.ordinary c hc :: pieces)))
      (expansionOf recent.moment last (.ordinary c hc :: pieces))) :
    ¬ Agrees (scanned earlier.output (textOf last (.ordinary c hc :: pieces)))
      (expansionOf earlier.moment last (.ordinary c hc :: pieces)) := by
  intro h₂
  have hc' : '%' ∉ [c] := fun h => hc.1 (List.mem_singleton.mp h).symm
  obtain ⟨d, hd, rest, hpieces, h₁⟩ := recent.letter hc.1 (w := []) (u := [c]) (by simp) hc' h₁
  obtain ⟨d', hd', rest', hpieces', h₂⟩ := earlier.letter hc.1 (w := []) (u := [c]) (by simp) hc' h₂
  obtain ⟨hp, rfl⟩ := List.cons.inj (hpieces.symm.trans hpieces')
  obtain rfl : d = d' := Piece.ordinary.inj hp
  exact lag last rest [] [] d rfl nofun nofun hd.1 h₁ h₂

/-- Behind the letter of a specifier stands an ordinary character or "%%", or a '%' that ends the
format. -/
theorem aligned_of_letter {last : Bool} {s : Specifier} (hright : s.right = true) {pieces : List Piece}
    (h : ∀ T : Trial, T.Tried → Agrees (scanned T.output (s.char :: textOf last pieces))
      (expansionOf T.moment last pieces))
    (ih : ∀ (behind : Bool) (rest : List Piece), rest.length < pieces.length →
      (∀ T : Trial, T.Tried → T.Stays last behind rest) → aligned last behind rest = true) :
    aligned last false (.specifier s :: pieces) = true := by
  have hago := h longAgo (Or.inl rfl)
  match pieces with
  | [] =>
    cases last with
    | false =>
      have htext : s.char :: textOf false [] = [s.char] := rfl
      rw [htext, scanned_end _ s.char_ne_literal] at hago
      exact absurd hago (not_agrees_pastEnd [] _)
    | true =>
      rw [aligned, hright]
      rfl
  | .ordinary c hc :: pieces =>
    rw [aligned, hright, Bool.true_and]
    refine ih false pieces (by simp) fun T hT => ?_
    have hT' : Agrees (scanned T.output (s.char :: c :: textOf last pieces)) _ := h T hT
    rw [scanned_letter _ s.char_ne_literal] at hT'
    exact agrees_text_append.mp hT'
  | .percent :: pieces =>
    rw [aligned, hright, Bool.true_and]
    refine ih true pieces (by simp) fun T hT => ?_
    have hT' : Agrees (scanned T.output (s.char :: '%' :: '%' :: textOf last pieces)) _ := h T hT
    rw [scanned_letter _ s.char_ne_literal] at hT'
    exact agrees_text_append.mp hT'
  | .specifier s' :: pieces =>
    have hago' : Agrees (scanned longAgo.output
        (s.char :: '%' :: s'.char :: textOf last pieces)) _ := hago
    rw [scanned_letter _ s.char_ne_literal] at hago'
    exact absurd hago'
      (not_agrees_literal (longAgo_usual.expansion_ne s') (longAgo_usual.literal_not_mem s'))
  | .modified modifier s' :: pieces =>
    have hago' : Agrees (scanned longAgo.output
        (s.char :: '%' :: modifier.char :: s'.char :: textOf last pieces)) _ := hago
    rw [scanned_letter _ s.char_ne_literal] at hago'
    exact absurd hago'
      (not_agrees_literal (longAgo_usual.expansion_ne s') (longAgo_usual.literal_not_mem s'))

/-- The induction is on the length of the format; each case of `aligned` takes off one or two pieces,
and the others differ at one of the moments. -/
theorem aligned_of_agrees {last : Bool} (pieces : List Piece) (behind : Bool)
    (h : ∀ T : Trial, T.Tried → T.Stays last behind pieces) : aligned last behind pieces = true := by
  induction hn : pieces.length using Nat.strongRecOn generalizing pieces behind with
  | ind n ih =>
    have hago := h longAgo (Or.inl rfl)
    match behind, pieces, hn with
    | false, [], _ => rfl
    | true, [], _ =>
      cases last with
      | false => exact absurd hago.2 (List.cons_ne_nil _ _)
      | true => rfl
    | false, .percent :: pieces, hn =>
      refine ih pieces.length (by simp at hn; omega) pieces false (fun T hT => ?_) rfl
      exact agrees_text_append.mp (h T hT)
    | true, .percent :: pieces, hn =>
      refine ih pieces.length (by simp at hn; omega) pieces true (fun T hT => ?_) rfl
      exact agrees_text_append.mp (h T hT)
    | false, .ordinary c hc :: pieces, _ =>
      exact absurd (h earlier (Or.inr (Or.inr rfl)))
        (not_agrees_ordinary hc (h recent (Or.inr (Or.inl rfl))))
    | true, .ordinary c hc :: pieces, hn =>
      have hnone : Specifier.ofChar c = none := ofChar_of_agrees hago
      rw [aligned, hnone, Option.isNone_none, Bool.true_and]
      refine ih pieces.length (by simp at hn; omega) pieces false (fun T hT => ?_) rfl
      have hT' : Agrees (scanned T.output ('%' :: c :: textOf last pieces)) _ := h T hT
      rw [scanned_default _ hnone] at hT'
      exact agrees_text_append.mp hT'
    | false, .modified modifier s :: pieces, _ =>
      have hago' : Agrees (scanned longAgo.output
          ('%' :: modifier.char :: s.char :: textOf last pieces)) _ := hago
      rw [scanned_default _ (ofChar_modifier modifier)] at hago'
      have hhead : some modifier.char = (longAgo.moment.expansion s ++ _).head? := hago'.head
      rw [List.head?_append_of_ne_nil _ (longAgo_usual.expansion_ne s)] at hhead
      exact absurd hhead.symm (head_ne_modifier modifier s)
    | true, .modified modifier s :: pieces, _ =>
      exact absurd hago
        (not_agrees_literal (longAgo_usual.expansion_ne s) (longAgo_usual.literal_not_mem s))
    | true, .specifier s :: pieces, _ =>
      exact absurd hago
        (not_agrees_literal (longAgo_usual.expansion_ne s) (longAgo_usual.literal_not_mem s))
    | false, .specifier s :: pieces, hn =>
      have hstart (T : Trial) (hT : T.Tried) :
          Agrees (T.output s ++ scanned T.output (s.char :: textOf last pieces))
            (T.moment.expansion s ++ expansionOf T.moment last pieces) := by
        rw [← scanned_specifier]
        exact h T hT
      have hright : s.right = true := right_of_agrees (hstart longAgo (Or.inl rfl))
      have hbehind (T : Trial) (hT : T.Tried) :
          Agrees (scanned T.output (s.char :: textOf last pieces))
            (expansionOf T.moment last pieces) := by
        have := hstart T hT
        rw [Trial.output, printed_right T.zone T.moment hright] at this
        exact agrees_text_append.mp this
      exact aligned_of_letter hright hbehind fun behind rest hrest hstays =>
        ih rest.length (by simp at hn; omega) rest behind hstays rfl

/-! ### Formats -/

theorem Format.scanned_text {f : Format} (h : aligned f.last false f.pieces = true) (zone : Zone)
    (m : Moment) : scanned (printed zone m.tm m.micros) f.text = .text (f.expansion m) :=
  scanned_aligned zone m h

theorem Format.format_time_into_specs_eq (f : Format) (zone : Zone) (m : Moment) (dest : Dest) :
    format_time_into_specs zone m.tm m.micros f.text dest =
      (scanned (printed zone m.tm m.micros) f.text).feed dest :=
  specs_scanned zone m.tm m.micros 0 (nul_not_mem_textOf f.last f.pieces) dest

/-- With enough room the output shows. -/
theorem Format.Prints.agrees {f : Format} (h : f.Prints) (T : Trial) :
    Agrees (scanned T.output f.text) (f.expansion T.moment) := by
  have hprints := h T.zone T.exact T.moment
    ⟨[], (scanned T.output f.text).items.length + (f.expansion T.moment).length⟩
  rw [f.format_time_into_specs_eq] at hprints
  exact Output.feed_inj (Nat.le_refl _) hprints

/-- The formats that are printed, whatever the time and the room are. -/
theorem Format.prints_iff (f : Format) : f.Prints ↔ aligned f.last false f.pieces = true := by
  constructor
  · intro h
    exact aligned_of_agrees f.pieces false fun T _ => h.agrees T
  · intro h zone _ m dest
    rw [f.format_time_into_specs_eq, f.scanned_text h]
    rfl

/-- "%H:%M". -/
def hourMinute : Format :=
  ⟨[.specifier .HOUR_AS_24_CLK, .ordinary ':' (by decide), .specifier .MIN_AS_DECIMAL], false⟩

/-- With room for six characters the function reads behind the terminator. -/
theorem hourMinute_readsOn :
    format_time_into_specs recent.zone recent.moment.tm recent.moment.micros hourMinute.text ⟨[], 6⟩ =
      .error .pastFormat ∧ ¬ hourMinute.Prints := by
  have hfault : format_time_into_specs recent.zone recent.moment.tm recent.moment.micros
      hourMinute.text ⟨[], 6⟩ = .error .pastFormat := by
    decide +kernel
  refine ⟨hfault, fun h => ?_⟩
  have hprints := h recent.zone recent.exact recent.moment ⟨[], 6⟩
  rw [hfault] at hprints
  exact absurd hprints nofun

/-- The text, if there is room for it and its terminator. -/
theorem Format.format_time_into_string_eq {f : Format} (h : aligned f.last false f.pieces = true)
    (zone : Zone) (m : Moment) (max_limit : Nat) :
    format_time_into_string zone m.tm m.micros max_limit (some f.text) =
      if (f.expansion m).length < max_limit then
        .ok ((f.expansion m).length, ⟨f.expansion m ++ ['\x00'], max_limit - (f.expansion m).length - 1⟩)
      else .ok (0, ⟨(f.expansion m).take max_limit, 0⟩) := by
  have hspecs : format_time_into_specs zone m.tm m.micros f.text ⟨[], max_limit⟩ =
      .ok ⟨(f.expansion m).take max_limit, max_limit - (f.expansion m).length⟩ := by
    rw [f.format_time_into_specs_eq, f.scanned_text h]
    rfl
  rw [format_time_into_string, Option.getD_some, hspecs]
  by_cases hroom : (f.expansion m).length < max_limit
  · have hleft : max_limit - (f.expansion m).length ≠ 0 := by omega
    rw [if_pos hroom, List.take_of_length_le (by omega)]
    refine (if_neg hleft).trans ?_
    rw [Space.put, if_neg hleft]
    rfl
  · have hleft : max_limit - (f.expansion m).length = 0 := by omega
    rw [if_neg hroom, hleft]
    rfl

end OpenairHss.Strftime
