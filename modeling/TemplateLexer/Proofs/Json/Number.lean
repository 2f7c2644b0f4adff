import TemplateLexer.Proofs.Json.Grammar

/-!
# Numerals read to exactly their end

A numeral of the grammar is read as a whole, part by part, provided that what
follows it does not begin as a further digit, a fraction or an exponent does.
-/

namespace TemplateLexer

namespace Json

def EndsDigits (rest : Text) : Prop :=
  ∀ c, rest.head? = some c → c.isDigit = false

def EndsFraction (rest : Text) : Prop :=
  ∀ c, rest.head? = some c → c.isDigit = false ∧ c ≠ '.'

/-- No further part of a numeral follows. -/
def EndsNumeral (rest : Text) : Prop :=
  ∀ c, rest.head? = some c → c.isDigit = false ∧ c ≠ '.' ∧ c ≠ 'e' ∧ c ≠ 'E'

section

variable {digits fraction exponent numeral rest : Text}

theorem EndsFraction.endsDigits (h : EndsFraction rest) : EndsDigits rest :=
  fun c hc => (h c hc).1

theorem IsFraction.endsDigits (h : IsFraction fraction) (hrest : EndsDigits rest) :
    EndsDigits (fraction ++ rest) := by
  cases h with
  | none => exact hrest
  | digits digits_of =>
      intro c hc
      obtain rfl : '.' = c := by simpa using hc
      rfl

theorem IsExponent.endsFraction (h : IsExponent exponent) (hrest : EndsNumeral rest) :
    EndsFraction (exponent ++ rest) := by
  have hmark {mark : Char} (mark_of : mark = 'e' ∨ mark = 'E') :
      mark.isDigit = false ∧ mark ≠ '.' := by
    rcases mark_of with rfl | rfl <;> decide
  intro c hc
  cases h with
  | none =>
      obtain ⟨hdigit, hpoint, -⟩ := hrest c hc
      exact ⟨hdigit, hpoint⟩
  | unsigned mark mark_of digits_of =>
      obtain rfl : mark = c := by simpa using hc
      exact hmark mark_of
  | signed mark sign mark_of sign_of digits_of =>
      obtain rfl : mark = c := by simpa using hc
      exact hmark mark_of

theorem IsDigits.exists_cons (h : IsDigits digits) :
    ∃ first rest, digits = first :: rest ∧ first.isDigit = true := by
  obtain ⟨first, tail, rfl⟩ := List.exists_cons_of_ne_nil h.1
  exact ⟨first, tail, rfl, h.2 first List.mem_cons_self⟩

theorem readDigits_append (h : IsDigits digits) (hrest : EndsDigits rest) :
    readDigits (digits ++ rest) = .ok (digits, rest) := by
  obtain ⟨first, tail, rfl, hfirst⟩ := h.exists_cons
  have hstop : rest.takeWhile Char.isDigit = [] ∧ rest.dropWhile Char.isDigit = rest := by
    cases rest with
    | nil => simp
    | cons c rest => simp [hrest c rfl]
  rw [List.cons_append, readDigits, if_pos hfirst, ← List.cons_append,
    List.takeWhile_append_of_pos h.2, List.dropWhile_append_of_pos h.2, hstop.1, hstop.2,
    List.append_nil]

theorem readWhole_append (h : IsWhole digits) (hrest : EndsDigits rest) :
    readWhole (digits ++ rest) = .ok (digits, rest) := by
  obtain ⟨hdigits, hzero⟩ := h
  have hlength : ¬ (digits.head? = some '0' ∧ digits.length ≠ 1) := by
    rcases hzero with rfl | hhead
    · decide
    · exact fun hlong => hhead hlong.1
  simp only [readWhole, readDigits_append hdigits hrest, bind, Except.bind, if_neg hlength]

theorem readFraction_append (h : IsFraction fraction) (hrest : EndsFraction rest) :
    ∃ read, readFraction (fraction ++ rest) = .ok (read, rest) := by
  cases h with
  | none =>
      refine ⟨none, ?_⟩
      cases rest with
      | nil => rfl
      | cons c rest => simp [readFraction, (hrest c rfl).2]
  | @digits digits digits_of =>
      refine ⟨some digits, ?_⟩
      simp [readFraction, readDigits_append digits_of hrest.endsDigits, bind, Except.bind]

theorem readSign_of_isDigits (h : IsDigits digits) (rest : Text) :
    readSign (digits ++ rest) = (false, digits ++ rest) := by
  obtain ⟨first, tail, rfl, hfirst⟩ := h.exists_cons
  have hplus : first ≠ '+' := by
    rintro rfl
    cases hfirst
  have hminus : first ≠ '-' := by
    rintro rfl
    cases hfirst
  simp [readSign, hplus, hminus]

theorem readExponent_append (h : IsExponent exponent) (hrest : EndsNumeral rest) :
    ∃ read, readExponent (exponent ++ rest) = .ok (read, rest) := by
  have hends : EndsDigits rest := fun c hc => (hrest c hc).1
  cases h with
  | none =>
      refine ⟨none, ?_⟩
      cases rest with
      | nil => rfl
      | cons c rest =>
          obtain ⟨-, -, hlower, hupper⟩ := hrest c rfl
          simp [readExponent, hlower, hupper]
  | @unsigned digits mark mark_of digits_of =>
      refine ⟨some (digitsValue digits), ?_⟩
      rw [List.cons_append, readExponent, if_pos mark_of]
      simp [readSign_of_isDigits digits_of, readDigits_append digits_of hends, bind, Except.bind]
  | @signed digits mark sign mark_of sign_of digits_of =>
      refine ⟨some (if sign = '-' then -digitsValue digits else digitsValue digits), ?_⟩
      rw [List.cons_append, readExponent, if_pos mark_of]
      rcases sign_of with rfl | rfl <;>
        simp [readSign, readDigits_append digits_of hends, bind, Except.bind]

theorem readNumeral_append (h : IsMagnitude numeral) (negative : Bool) (hrest : EndsNumeral rest) :
    ∃ read, readNumeral negative (numeral ++ rest) = .ok (read, rest) := by
  obtain @⟨whole, fraction, exponent, whole_of, fraction_of, exponent_of⟩ := h
  have hexponent : EndsFraction (exponent ++ rest) := exponent_of.endsFraction hrest
  have hfraction : EndsDigits (fraction ++ (exponent ++ rest)) :=
    fraction_of.endsDigits hexponent.endsDigits
  obtain ⟨readExp, hreadExp⟩ := readExponent_append exponent_of hrest
  obtain ⟨readFrac, hreadFrac⟩ := readFraction_append fraction_of hexponent
  refine ⟨⟨negative, whole, readFrac, readExp⟩, ?_⟩
  rw [List.append_assoc, List.append_assoc]
  simp only [readNumeral, readWhole_append whole_of hfraction, hreadFrac, hreadExp, bind,
    Except.bind]

theorem skipNumeral_append (h : IsMagnitude numeral) (hrest : EndsNumeral rest) :
    skipNumeral (numeral ++ rest) = .ok rest := by
  obtain ⟨read, hread⟩ := readNumeral_append h false hrest
  rw [skipNumeral, hread]

end

end Json

end TemplateLexer
