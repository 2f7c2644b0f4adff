import TemplateLexer.LexError

/-!
# What a message tells of its error

A message ends in the digits of the offset, and a blank stands before them.  So
however the chunk in front looks, reading from the end finds the offset first,
and the fixed words around a chunk leave only the chunk itself.
-/

namespace TemplateLexer

/-- An error over some chunk, or over the delimiters of some kind of tag. -/
inductive LexError.IsMade : LexError → Prop where
  | malformed (chunk : Text) (offset : Nat) : IsMade (.malformed chunk offset)
  | unterminated (kind : TagKind) (offset : Nat) : IsMade (.unterminated kind offset)

section

variable {error other : LexError} {chunk chunk' front front' digits digits' : Text}
  {separator : Char}

theorem takeWhile_reverse_digits (hdigits : ∀ c ∈ digits, c.isDigit)
    (hseparator : separator.isDigit = false) (front : Text) :
    (front ++ separator :: digits).reverse.takeWhile Char.isDigit = digits.reverse := by
  have hreverse : ∀ c ∈ digits.reverse, c.isDigit := by simpa using hdigits
  rw [List.reverse_append, List.reverse_cons, List.append_assoc,
    List.takeWhile_append_of_pos hreverse]
  simp [hseparator]

theorem append_digits_inj (hdigits : ∀ c ∈ digits, c.isDigit) (hdigits' : ∀ c ∈ digits', c.isDigit)
    (hseparator : separator.isDigit = false)
    (h : front ++ separator :: digits = front' ++ separator :: digits') :
    front = front' ∧ digits = digits' := by
  have hlast := takeWhile_reverse_digits hdigits hseparator front
  rw [h, takeWhile_reverse_digits hdigits' hseparator, List.reverse_inj] at hlast
  subst hlast
  exact ⟨List.append_cancel_right h, rfl⟩

theorem toDigits_ten_injective {offset offset' : Nat}
    (h : Nat.toDigits 10 offset = Nat.toDigits 10 offset') : offset = offset' := by
  calc
    offset = Nat.ofDigitChars 10 (Nat.toDigits 10 offset) 0 := Nat.ofDigitChars_ten_toDigits.symm
    _ = Nat.ofDigitChars 10 (Nat.toDigits 10 offset') 0 := by rw [h]
    _ = offset' := Nat.ofDigitChars_ten_toDigits

theorem LexError.message_eq (error : LexError) :
    error.message =
      (error.kind.message ++ " at byte".toList) ++ ' ' :: Nat.toDigits 10 error.offset := by
  simp [message]

theorem LexError.kind_message_and_offset_eq (h : error.message = other.message) :
    error.kind.message = other.kind.message ∧ error.offset = other.offset := by
  rw [message_eq, message_eq] at h
  have hdigit (offset : Nat) : ∀ c ∈ Nat.toDigits 10 offset, c.isDigit := fun c hc =>
    Nat.isDigit_of_mem_toDigits (by decide) (by decide) hc
  obtain ⟨hfront, hoffset⟩ := append_digits_inj (hdigit _) (hdigit _) (by decide) h
  exact ⟨List.append_cancel_right hfront, toDigits_ten_injective hoffset⟩

theorem message_malformedTag_inj
    (h : (LexErrorKind.malformedTag chunk).message = (LexErrorKind.malformedTag chunk').message) :
    chunk = chunk' :=
  List.append_cancel_left (List.append_cancel_right h)

theorem message_malformedTag_ne {opener closer : Text} :
    (LexErrorKind.malformedTag chunk).message ≠
      (LexErrorKind.unterminatedTag opener closer).message := by
  intro h
  have hfirst : some 'm' = some 'u' := congrArg List.head? h
  cases hfirst

theorem message_delimiters_inj {kind kind' : TagKind}
    (h : (LexErrorKind.unterminatedTag kind.opener kind.closer).message =
      (LexErrorKind.unterminatedTag kind'.opener kind'.closer).message) : kind = kind' := by
  cases kind <;> cases kind' <;> first | rfl | exact absurd h (by decide)

/--
Errors over chunks and over the delimiters of tags have one message only if they
are one error, though the chunk stands in the message as it is and may hold
whatever a message holds.
-/
theorem LexError.message_eq_iff_eq (herror : IsMade error) (hother : IsMade other) :
    error.message = other.message ↔ error = other := by
  constructor
  · intro h
    obtain ⟨hkind, hoffset⟩ := kind_message_and_offset_eq h
    cases herror with
    | malformed chunk offset =>
        cases hother with
        | malformed chunk' offset' =>
            cases hoffset
            rw [message_malformedTag_inj hkind]
        | unterminated kind' offset' => exact absurd hkind message_malformedTag_ne
    | unterminated kind offset =>
        cases hother with
        | malformed chunk' offset' => exact absurd hkind.symm message_malformedTag_ne
        | unterminated kind' offset' =>
            cases hoffset
            rw [message_delimiters_inj hkind]
  · exact congrArg message

theorem LexError.message_of_message_ne :
    let error := malformed ['{', '#', '}'] 3
    let nested := malformed error.message 3
    error.IsMade ∧ nested.IsMade ∧ nested.message ≠ error.message ∧
      (unterminated .var 3).message ≠ (unterminated .block 3).message := by
  intro error nested
  have herror : error.IsMade := .malformed _ _
  have hnested : nested.IsMade := .malformed _ _
  refine ⟨herror, hnested, ?_, ?_⟩
  · rw [Ne, message_eq_iff_eq hnested herror]
    decide
  · rw [Ne, message_eq_iff_eq (.unterminated _ _) (.unterminated _ _)]
    decide

/-- The markers of a tag are fixed: freely chosen ones can trade words between them. -/
example :
    (LexErrorKind.unterminatedTag "a` is never closed by `b".toList ['c']).message =
      (LexErrorKind.unterminatedTag ['a'] "b` is never closed by `c".toList).message := by
  rfl

end

end TemplateLexer
