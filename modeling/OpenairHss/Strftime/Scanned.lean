import OpenairHss.Strftime.Specs

/-!
# What a format makes of the loop

`scanned` is the output of the loop for the rest of a format, as if the room did not end.  The function
writes as much of it as there is room for (`specs_scanned`), so that it never writes at `max_limit`,
and the only fault is a read behind the terminator.
-/

namespace OpenairHss.Strftime

/-- The terminator is copied, and the next round reads behind it. -/
def pastEnd : Output Fault Char := .failing .pastFormat '\x00'

/-- The output for the rest of a format.  A character that is no specifier's beginning stands for the
one behind it, and so does the letter of a specifier after its text. -/
def scanned (σ : Specifier → Output Fault Char) : List Char → Output Fault Char
  | [] => .text []
  | [c] => if c = '%' then .text ['%'] else pastEnd
  | c :: d :: rest =>
    if c = '%' then
      match Specifier.ofChar d with
      | some s => σ s ++ scanned σ (d :: rest)
      | none => .text [d] ++ scanned σ rest
    else .text [d] ++ scanned σ rest

/-! ### Reading -/

theorem charAt_end (before : List Char) : charAt before before.length = .ok '\x00' := by
  rw [charAt, if_neg (by omega), Int.toNat_natCast]
  simp

theorem charAt_append (before : List Char) (c : Char) (rest : List Char) :
    charAt (before ++ c :: rest) before.length = .ok c := by
  rw [charAt, if_neg (by simp; omega), Int.toNat_natCast]
  simp

theorem charAt_past (time_format : List Char) {i : Int} (h : (time_format.length : Int) < i) :
    charAt time_format i = .error .pastFormat := if_pos (Or.inr h)

/-! ### Rounds -/

section Rounds

variable {handle : Char → Specifier → Dest → Except Fault Dest} {time_format : List Char} {i : Int}
  {dest : Dest}

theorem copyNext_of_room {a : Char} (h : dest.room ≠ 0) (ha : charAt time_format (i + 1) = .ok a) :
    copyNext time_format i dest = .ok (dest.add [a], some (i + 2)) := by
  rw [copyNext, if_neg h, ha]
  change (dest.put Fault.pastLimit a).bind _ = _
  rw [Space.put_of_room _ _ h]
  rfl

theorem step_end (h : charAt time_format i = .ok '\x00') :
    step handle time_format i dest = .ok (dest, none) := by
  rw [step, h]
  rfl

theorem step_ordinary {c : Char} (h : charAt time_format i = .ok c) (hc : c ≠ '\x00')
    (hliteral : c ≠ '%') : step handle time_format i dest = copyNext time_format i dest := by
  rw [step, h]
  exact (if_neg hc).trans (if_neg hliteral)

theorem step_last (h : charAt time_format i = .ok '%')
    (hnext : charAt time_format (i + 1) = .ok '\x00') :
    step handle time_format i dest = copyNext time_format (i - 1) dest := by
  rw [step, h]
  change (charAt time_format (i + 1)).bind _ = _
  rw [hnext]
  rfl

theorem step_literal {temp : Char} (h : charAt time_format i = .ok '%')
    (hnext : charAt time_format (i + 1) = .ok temp) (htemp : temp ≠ '\x00') :
    step handle time_format i dest =
      match Specifier.ofChar temp with
      | some s => (handle '%' s dest).bind fun dest => .ok (dest, some (i + 1))
      | none => copyNext time_format i dest := by
  rw [step, h]
  change (charAt time_format (i + 1)).bind _ = _
  rw [hnext]
  exact if_neg htemp

theorem loop_succ (fuel : Nat) (i : Int) (dest : Dest) :
    loop handle time_format (fuel + 1) i dest = (step handle time_format i dest).bind fun p =>
      match p.2 with
      | none => .ok p.1
      | some i => loop handle time_format fuel i p.1 := rfl

/-- A round that copies a character, and the rounds after it. -/
theorem loop_copy {fuel : Nat} {j : Int} {a : Char} {p : Output Fault Char}
    (hstep : step handle time_format i dest = copyNext time_format j dest)
    (ha : charAt time_format (j + 1) = .ok a)
    (hrest : ∀ dest, loop handle time_format fuel (j + 2) dest = p.feed dest) :
    loop handle time_format (fuel + 1) i dest = (.text [a] ++ p : Output Fault Char).feed dest := by
  rw [loop_succ, hstep]
  by_cases h : dest.room = 0
  · rw [Output.feed_of_room _ h, copyNext, if_pos h]
    rfl
  · rw [copyNext_of_room h ha, Output.feed_append]
    exact hrest _

/-- A round that copies the terminator. -/
theorem loop_pastEnd {fuel : Nat} {j : Int}
    (hstep : step handle time_format i dest = copyNext time_format j dest)
    (ha : charAt time_format (j + 1) = .ok '\x00') (hpast : (time_format.length : Int) < j + 2) :
    loop handle time_format (fuel + 2) i dest = pastEnd.feed dest := by
  rw [loop_succ, hstep]
  by_cases h : dest.room = 0
  · rw [Output.feed_of_room _ h, copyNext, if_pos h]
    rfl
  · have hfault : pastEnd.feed dest = .error .pastFormat := if_pos (Nat.pos_of_ne_zero h)
    rw [copyNext_of_room h ha, hfault]
    change loop handle time_format (fuel + 1) (j + 2) _ = _
    rw [loop_succ, step, charAt_past _ hpast]
    rfl

end Rounds

/-- The loop writes what is scanned.  The induction is on the length of the rest; a specifier takes
its round, and leaves its letter to the next. -/
theorem loop_scanned {handle : Char → Specifier → Dest → Except Fault Dest}
    {σ : Specifier → Output Fault Char} {time_format : List Char}
    (hhandle : ∀ s, ['%', s.char] <:+: time_format → ∀ dest, handle '%' s dest = (σ s).feed dest)
    (hnul : '\x00' ∉ time_format) (rest before : List Char) (h : time_format = before ++ rest)
    (fuel : Nat) (hfuel : rest.length + 2 ≤ fuel) (dest : Dest) :
    loop handle time_format fuel before.length dest = (scanned σ rest).feed dest := by
  induction hn : rest.length using Nat.strongRecOn generalizing rest before fuel dest with
  | ind n ih =>
    obtain ⟨fuel, rfl⟩ : ∃ k, fuel = k + 2 := ⟨fuel - 2, by omega⟩
    -- the text, from the next character on
    have hat (before : List Char) (c : Char) (rest : List Char)
        (h : time_format = before ++ c :: rest) : charAt time_format before.length = .ok c := by
      rw [h, charAt_append]
    have hend (before : List Char) (h : time_format = before) :
        charAt time_format before.length = .ok '\x00' := by
      rw [h, charAt_end]
    have hne (c : Char) (hc : c ∈ time_format) : c ≠ '\x00' := by
      rintro rfl
      exact hnul hc
    match rest, h, hn, hfuel with
    | [], h, _, _ =>
      rw [List.append_nil] at h
      rw [loop_succ, step_end (hend before h), scanned, Output.feed_text, Space.add_nil]
      rfl
    | [c], h, hn, _ =>
      have hnext : charAt time_format (before.length + 1) = .ok '\x00' := by
        have := hend (before ++ [c]) h
        rwa [List.length_append, Int.natCast_add] at this
      have hlength : time_format.length = before.length + 1 := by rw [h]; simp
      rw [scanned]
      by_cases hliteral : c = '%'
      · subst hliteral
        rw [if_pos rfl]
        have hrest (dest : Dest) : loop handle time_format (fuel + 1) (before.length - 1 + 2) dest =
            (Output.text []).feed dest := by
          rw [loop_succ, step_end (by rw [← hnext]; congr 1; omega), Output.feed_text, Space.add_nil]
          rfl
        have hhere : charAt time_format (before.length - 1 + 1) = .ok '%' := by
          rw [Int.sub_add_cancel]
          exact hat before _ [] h
        exact loop_copy (step_last (hat before _ [] h) hnext) hhere hrest
      · rw [if_neg hliteral]
        have hc := hne c (by rw [h]; simp)
        exact loop_pastEnd (step_ordinary (hat before c [] h) hc hliteral) hnext (by omega)
    | c :: d :: rest, h, hn, hfuel =>
      have hlong : time_format = before ++ [c] ++ d :: rest := by simpa using h
      have hnext : charAt time_format (before.length + 1) = .ok d := by
        have := hat (before ++ [c]) d rest hlong
        rwa [List.length_append, Int.natCast_add] at this
      have hcopied (dest : Dest) : loop handle time_format (fuel + 1) (before.length + 2) dest =
          (scanned σ rest).feed dest := by
        have := ih rest.length (by simp at hn; omega) rest (before ++ [c, d]) (by simpa using h)
          (fuel + 1) (by simp at hfuel; omega) dest rfl
        rwa [List.length_append, Int.natCast_add] at this
      have hd := hne d (by rw [h]; simp)
      rw [scanned]
      by_cases hliteral : c = '%'
      · subst hliteral
        rw [if_pos rfl]
        have hstep (dest : Dest) : step handle time_format before.length dest =
            match Specifier.ofChar d with
            | some s => (handle '%' s dest).bind fun dest => .ok (dest, some (before.length + 1))
            | none => copyNext time_format before.length dest :=
          step_literal (hat before _ _ h) hnext hd
        cases hs : Specifier.ofChar d with
        | none =>
          simp only [hs] at hstep
          exact loop_copy (hstep dest) hnext hcopied
        | some s =>
          simp only [hs] at hstep
          have hoccurs : ['%', s.char] <:+: time_format :=
            ⟨before, rest, by rw [Specifier.char_of_ofChar hs, h]; simp⟩
          rw [loop_succ, hstep, hhandle s hoccurs, Output.feed_append]
          cases (σ s).feed dest with
          | error e => rfl
          | ok dest =>
            have := ih (d :: rest).length (by simp at hn ⊢; omega) (d :: rest) (before ++ ['%']) hlong
              (fuel + 1) (by simp at hfuel ⊢; omega) dest rfl
            rw [List.length_append, Int.natCast_add] at this
            exact this
      · rw [if_neg hliteral]
        have hc := hne c (by rw [h]; simp)
        exact loop_copy (step_ordinary (hat before c _ h) hc hliteral) hnext hcopied

/-! ### The function -/

section Function

variable (zone : Zone) (t : Tm) (tv_usec : Int)

/-- The output of a case that does not call the function again. -/
def direct (s : Specifier) : Output Fault Char := .text (buffers zone t tv_usec '%' s).flatten

/-- The output of a case. -/
def printed (s : Specifier) : Output Fault Char :=
  match s.again with
  | some time_format => scanned (direct zone t tv_usec) time_format
  | none => direct zone t tv_usec s

theorem add_timeformat_to_string_eq (buffer : List Char) (dest : Dest) :
    add_timeformat_to_string buffer dest = .ok (dest.add buffer) := by
  induction buffer generalizing dest with
  | nil => rw [add_timeformat_to_string, Space.add_nil]
  | cons c buffer ih =>
    rw [add_timeformat_to_string]
    by_cases h : dest.room = 0
    · rw [if_pos h, Space.add_of_room _ h]
    · rw [if_neg h, Space.put_of_room _ _ h]
      change add_timeformat_to_string buffer (dest.add [c]) = _
      rw [ih, ← Space.add_append, List.singleton_append]

theorem foldlM_add (bs : List (List Char)) (dest : Dest) :
    bs.foldlM (fun dest buffer => add_timeformat_to_string buffer dest) dest =
      .ok (dest.add bs.flatten) := by
  induction bs generalizing dest with
  | nil => rw [List.flatten_nil, Space.add_nil]; rfl
  | cons b bs ih =>
    rw [List.foldlM_cons, add_timeformat_to_string_eq, List.flatten_cons, Space.add_append]
    exact ih _

theorem switch_direct (again : List Char → Dest → Except Fault Dest) {s : Specifier}
    (h : s.again = none) (dest : Dest) :
    switch zone t tv_usec again '%' s dest = (direct zone t tv_usec s).feed dest := by
  rw [switch, h]
  exact foldlM_add _ dest

/-- The formats of the program's own, in which no case calls the function again. -/
theorem again_formats : ∀ s ∈ Specifier.all, ∀ f ∈ s.again, '\x00' ∉ f ∧
    ∀ s' ∈ Specifier.all, s'.again = none ∨ ¬ ['%', s'.char] <:+: f := by
  decide +kernel

theorem again_direct {s s' : Specifier} {time_format : List Char} (h : s.again = some time_format)
    (hoccurs : ['%', s'.char] <:+: time_format) : s'.again = none := by
  rcases (again_formats s s.mem_all time_format h).2 s' s'.mem_all with hnone | hnot
  · exact hnone
  · exact absurd hoccurs hnot

theorem nul_not_mem_again {s : Specifier} {time_format : List Char} (h : s.again = some time_format) :
    '\x00' ∉ time_format :=
  (again_formats s s.mem_all time_format h).1

/-- However many calls are granted beyond the two that happen. -/
theorem specs_scanned (nesting : Nat) {time_format : List Char} (hnul : '\x00' ∉ time_format)
    (dest : Dest) :
    specs zone t tv_usec (nesting + 2) time_format dest =
      (scanned (printed zone t tv_usec) time_format).feed dest := by
  rw [specs]
  refine loop_scanned (fun s _ dest => ?_) hnul time_format [] rfl _ (Nat.le_refl _) dest
  cases hs : s.again with
  | none =>
    rw [switch_direct _ _ _ _ hs, printed, hs]
  | some own =>
    rw [switch, printed, hs]
    exact loop_scanned (fun s' hoccurs dest => switch_direct _ _ _ _ (again_direct hs hoccurs) dest)
      (nul_not_mem_again hs) own [] rfl _ (Nat.le_refl _) dest

end Function

end OpenairHss.Strftime
