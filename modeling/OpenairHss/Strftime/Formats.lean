import OpenairHss.Strftime.Moment
import OpenairHss.Strftime.Scanned

/-!
# Formats

A format is made of specifiers, with and without a modifier, of "%%" and of ordinary characters, and
may end with a single '%'.  It `Prints` if `format_time_into_specs` writes the texts of its pieces,
whatever the time and the room are.

After the text of a specifier the loop stands on its letter, and copies what is behind.  So an ordinary
character has to stand behind a specifier, and a specifier has to be followed by one, or by "%%", of
which it takes the first character and leaves the second.  `aligned` says which formats stay in step.

* `scanned_aligned`: such a format is printed.
-/

namespace OpenairHss.Strftime

/-- ALTERNATE_ERA and MODIFIER. -/
inductive Modifier
  | ALTERNATE_ERA
  | MODIFIER
  deriving DecidableEq

def Modifier.char : Modifier → Char
  | ALTERNATE_ERA => 'E'
  | MODIFIER => 'O'

inductive Piece
  | ordinary (c : Char) (h : c ≠ '%' ∧ c ≠ '\x00')
  | percent
  | specifier (s : Specifier)
  | modified (modifier : Modifier) (s : Specifier)

def Piece.text : Piece → List Char
  | ordinary c _ => [c]
  | percent => ['%', '%']
  | specifier s => ['%', s.char]
  | modified modifier s => ['%', modifier.char, s.char]

/-- In the C locale the modifiers change nothing. -/
def Piece.expansion (m : Moment) : Piece → List Char
  | ordinary c _ => [c]
  | percent => ['%']
  | specifier s => m.expansion s
  | modified _ s => m.expansion s

/-- The text of a format; `last` is for a single '%' at its end. -/
def textOf (last : Bool) : List Piece → List Char
  | [] => if last then ['%'] else []
  | p :: pieces => p.text ++ textOf last pieces

def expansionOf (m : Moment) (last : Bool) : List Piece → List Char
  | [] => if last then ['%'] else []
  | p :: pieces => p.expansion m ++ expansionOf m last pieces

structure Format where
  pieces : List Piece
  last : Bool

def Format.text (f : Format) : List Char := textOf f.last f.pieces

def Format.expansion (f : Format) (m : Moment) : List Char := expansionOf m f.last f.pieces

/-- The pieces are written, as far as there is room, without a fault. -/
def Format.Prints (f : Format) : Prop :=
  ∀ zone : Zone, zone.Exact → ∀ (m : Moment) (dest : Dest),
    format_time_into_specs zone m.tm m.micros f.text dest = .ok (dest.add (f.expansion m))

/-- The formats that stay in step; `behind` is for the second half of "%%" that the loop still stands
on, which makes a specifier of a letter behind it. -/
def aligned (last : Bool) : Bool → List Piece → Bool
  | false, [] => true
  | true, [] => last
  | behind, .percent :: pieces => aligned last behind pieces
  | true, .ordinary c _ :: pieces => (Specifier.ofChar c).isNone && aligned last false pieces
  | false, [.specifier s] => s.right && last
  | false, .specifier s :: .ordinary _ _ :: pieces => s.right && aligned last false pieces
  | false, .specifier s :: .percent :: pieces => s.right && aligned last true pieces
  | _, _ => false

/-! ### Formats in step -/

section Scanned

variable (σ : Specifier → Output Fault Char)

theorem scanned_literal (rest : List Char) :
    scanned σ ('%' :: '%' :: rest) = .text ['%'] ++ scanned σ rest := rfl

theorem scanned_specifier (s : Specifier) (rest : List Char) :
    scanned σ ('%' :: s.char :: rest) = σ s ++ scanned σ (s.char :: rest) := by
  rw [scanned, if_pos rfl, Specifier.ofChar_char]

theorem scanned_default {c : Char} (h : Specifier.ofChar c = none) (rest : List Char) :
    scanned σ ('%' :: c :: rest) = .text [c] ++ scanned σ rest := by
  rw [scanned, if_pos rfl, h]

theorem scanned_letter {c : Char} (h : c ≠ '%') (d : Char) (rest : List Char) :
    scanned σ (c :: d :: rest) = .text [d] ++ scanned σ rest := by
  rw [scanned, if_neg h]

theorem scanned_end {c : Char} (h : c ≠ '%') : scanned σ [c] = pastEnd := by
  rw [scanned, if_neg h]

end Scanned

theorem printed_right (zone : Zone) (m : Moment) {s : Specifier} (h : s.right = true) :
    printed zone m.tm m.micros s = .text (m.expansion s) := by
  have hagain : s.again = none := by
    rw [Specifier.right, Bool.and_eq_true] at h
    exact Option.isNone_iff_eq_none.mp h.1
  rw [printed, hagain, ← m.flatten_buffers zone h]
  rfl

theorem scanned_right (zone : Zone) (m : Moment) {s : Specifier} (h : s.right = true)
    {rest l : List Char} (hrest : scanned (printed zone m.tm m.micros) (s.char :: rest) = .text l) :
    scanned (printed zone m.tm m.micros) ('%' :: s.char :: rest) = .text (m.expansion s ++ l) := by
  rw [scanned_specifier, printed_right zone m h, hrest, Output.text_append_text]

/-- Piece by piece. -/
theorem scanned_aligned (zone : Zone) (m : Moment) {last behind : Bool} {pieces : List Piece}
    (h : aligned last behind pieces = true) :
    scanned (printed zone m.tm m.micros) ((if behind then ['%'] else []) ++ textOf last pieces) =
      .text (expansionOf m last pieces) := by
  fun_induction aligned last behind pieces with
  | case1 => cases last <;> rfl
  | case2 =>
    subst h
    rfl
  | case3 behind pieces ih =>
    cases behind with
    | false => exact (scanned_literal _ _).trans (congrArg (Output.text ['%'] ++ ·) (ih h))
    | true => exact (scanned_literal _ _).trans (congrArg (Output.text ['%'] ++ ·) (ih h))
  | case4 c hc pieces ih =>
    rw [Bool.and_eq_true] at h
    refine (scanned_default _ (Option.isNone_iff_eq_none.mp h.1) _).trans ?_
    exact congrArg (Output.text [c] ++ ·) (ih h.2)
  | case5 s =>
    rw [Bool.and_eq_true] at h
    obtain ⟨hs, rfl⟩ := h
    exact scanned_right zone m hs (scanned_letter _ s.char_ne_literal '%' [])
  | case6 s c hc pieces ih =>
    rw [Bool.and_eq_true] at h
    refine scanned_right zone m h.1 ((scanned_letter _ s.char_ne_literal c _).trans ?_)
    exact congrArg (Output.text [c] ++ ·) (ih h.2)
  | case7 s pieces ih =>
    rw [Bool.and_eq_true] at h
    refine scanned_right zone m h.1 ((scanned_letter _ s.char_ne_literal '%' _).trans ?_)
    exact congrArg (Output.text ['%'] ++ ·) (ih h.2)
  | case8 => cases h

theorem nul_not_mem_textOf (last : Bool) (pieces : List Piece) : '\x00' ∉ textOf last pieces := by
  have hchar (s : Specifier) : s.char ≠ '\x00' := by cases s <;> decide
  have hmodifier (modifier : Modifier) : modifier.char ≠ '\x00' := by cases modifier <;> decide
  induction pieces with
  | nil => cases last <;> decide
  | cons p pieces ih =>
    rw [textOf, List.mem_append]
    rintro (h | h)
    · cases p with
      | ordinary c hc => exact hc.2 (List.mem_singleton.mp h).symm
      | percent => exact absurd h (by decide)
      | specifier s =>
        rcases List.mem_cons.mp h with h | h
        · exact absurd h (by decide)
        · exact hchar s (List.mem_singleton.mp h).symm
      | modified modifier s =>
        rcases List.mem_cons.mp h with h | h
        · exact absurd h (by decide)
        · rcases List.mem_cons.mp h with h | h
          · exact hmodifier modifier h.symm
          · exact hchar s (List.mem_singleton.mp h).symm
    · exact ih h

end OpenairHss.Strftime
