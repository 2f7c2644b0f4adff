import TemplateLexer.Json.Literal
import TemplateLexer.Json.Typed

/-!
# Strings written and read back

A text written as a JSON string is read back as it was, whatever follows the
string.  A character that stands for itself is read as it stands; every other
one is written as an escape, and the string then counts as escaped.  So a
reader that takes strings without escapes only takes the texts of plain
characters, and says of any other which text it was.
-/

namespace TemplateLexer

namespace Json

/-- The character stands for itself in a JSON string. -/
def IsPlain (c : Char) : Prop :=
  c ≠ '"' ∧ c ≠ '\\' ∧ 0x20 ≤ c.toNat

instance (c : Char) : Decidable (IsPlain c) :=
  inferInstanceAs (Decidable (_ ∧ _))

section

variable {c meant : Char} {text code rest : Text}

theorem escape_of_isPlain (h : IsPlain c) : escape c = [c] := by
  obtain ⟨hquote, hbackslash, hcontrol⟩ := h
  have hne (d : Char) (hd : d.toNat < 0x20) : c ≠ d := by
    rintro rfl
    omega
  rw [escape, if_neg hquote, if_neg hbackslash, if_neg (hne _ (by decide)),
    if_neg (hne _ (by decide)), if_neg (hne _ (by decide)), if_neg (hne _ (by decide)),
    if_neg (hne _ (by decide)), if_neg (Nat.not_lt_of_le hcontrol)]

theorem hexValue?_digitChar : ∀ digit < 16, hexValue? (Nat.digitChar digit) = some digit := by
  decide

theorem readHex4_digitChar {value : Nat} (h : value < 0x100) (rest : Text) :
    readHex4 ('0' :: '0' :: Nat.digitChar (value / 16) :: Nat.digitChar (value % 16) :: rest) =
      .ok (value, rest) := by
  have hzero : hexValue? '0' = some 0 := hexValue?_digitChar 0 (by decide)
  have hupper := hexValue?_digitChar (value / 16) (by omega)
  have hlower := hexValue?_digitChar (value % 16) (by omega)
  have hvalue : value / 16 * 16 + value % 16 = value := by omega
  simp [readHex4, hex4?, hzero, hupper, hlower, hvalue]

theorem readCodePoint_of_readHex4 {value : Nat} (hvalue : value < 0xD800 ∨ 0xE000 ≤ value)
    (h : readHex4 text = .ok (value, rest)) :
    readCodePoint text = .ok (Char.ofNat value, rest) := by
  have hleading : isLeadingSurrogate value = false := by
    simp only [isLeadingSurrogate, Bool.and_eq_false_iff, decide_eq_false_iff_not]
    omega
  have htrailing : isTrailingSurrogate value = false := by
    simp only [isTrailingSurrogate, Bool.and_eq_false_iff, decide_eq_false_iff_not]
    omega
  simp only [readCodePoint, h, bind, Except.bind, hleading, htrailing, Bool.false_eq_true, if_false]

theorem exists_escape_code (h : ¬ IsPlain c) :
    ∃ code, escape c = '\\' :: code ∧ ∀ rest, readEscape (code ++ rest) = .ok (c, rest) := by
  by_cases hquote : c = '"'
  · subst hquote
    exact ⟨['"'], rfl, fun _ => rfl⟩
  by_cases hbackslash : c = '\\'
  · subst hbackslash
    exact ⟨['\\'], rfl, fun _ => rfl⟩
  by_cases hbackspace : c = '\x08'
  · subst hbackspace
    exact ⟨['b'], rfl, fun _ => rfl⟩
  by_cases hfeed : c = '\x0c'
  · subst hfeed
    exact ⟨['f'], rfl, fun _ => rfl⟩
  by_cases hnewline : c = '\n'
  · subst hnewline
    exact ⟨['n'], rfl, fun _ => rfl⟩
  by_cases hreturn : c = '\r'
  · subst hreturn
    exact ⟨['r'], rfl, fun _ => rfl⟩
  by_cases htab : c = '\t'
  · subst htab
    exact ⟨['t'], rfl, fun _ => rfl⟩
  have hcontrol : c.toNat < 0x20 := Nat.lt_of_not_le fun hle => h ⟨hquote, hbackslash, hle⟩
  refine ⟨['u', '0', '0', Nat.digitChar (c.toNat / 16), Nat.digitChar (c.toNat % 16)], ?_, ?_⟩
  · rw [escape, if_neg hquote, if_neg hbackslash, if_neg hbackspace, if_neg hfeed,
      if_neg hnewline, if_neg hreturn, if_neg htab, if_pos hcontrol]
  · intro rest
    have hread := readCodePoint_of_readHex4 (by omega)
      (readHex4_digitChar (Nat.lt_trans hcontrol (by decide)) rest)
    rw [Char.ofNat_toNat] at hread
    exact hread

theorem readString_quote (rest : Text) : readString ('"' :: rest) = .ok (⟨[], false⟩, rest) := by
  rw [readString, if_pos rfl]

theorem readString_of_isPlain (h : IsPlain c) (rest : Text) :
    readString (c :: rest) =
      (readString rest).map fun (tail, rest) => (⟨c :: tail.value, tail.escaped⟩, rest) := by
  obtain ⟨hquote, hbackslash, hcontrol⟩ := h
  rw [readString, if_neg hquote, if_neg hbackslash, if_neg (Nat.not_lt_of_le hcontrol)]

theorem readString_of_readEscape (h : readEscape text = .ok (meant, rest)) :
    readString ('\\' :: text) =
      (readString rest).map fun (tail, rest) => (⟨meant :: tail.value, true⟩, rest) := by
  rw [readString, if_neg (by decide), if_pos rfl]
  split
  · next heq => rw [h] at heq; cases heq
  · next heq => rw [h] at heq; cases heq; rfl

theorem readString_escape_append (c : Char) (rest : Text) :
    readString (escape c ++ rest) =
      (readString rest).map fun (tail, rest) =>
        (⟨c :: tail.value, tail.escaped || !decide (IsPlain c)⟩, rest) := by
  by_cases hplain : IsPlain c
  · rw [escape_of_isPlain hplain, List.singleton_append, readString_of_isPlain hplain]
    simp [hplain]
  · obtain ⟨code, hcode, hread⟩ := exists_escape_code hplain
    rw [hcode, List.cons_append, readString_of_readEscape (hread rest)]
    simp [hplain]

theorem readString_flatMap_escape (text rest : Text) :
    readString (text.flatMap escape ++ '"' :: rest) =
      .ok (⟨text, !text.all (IsPlain ·)⟩, rest) := by
  induction text with
  | nil => simp [readString_quote]
  | cons c text ih =>
      rw [List.flatMap_cons, List.append_assoc, readString_escape_append, ih]
      simp [Except.map, Bool.or_comm]

theorem literal_append (text rest : Text) :
    literal text ++ rest = '"' :: (text.flatMap escape ++ '"' :: rest) := by
  simp [literal]

theorem literal_append_injective {other back : Text}
    (h : literal text ++ rest = literal other ++ back) : text = other ∧ rest = back := by
  rw [literal_append, literal_append, List.cons.injEq] at h
  have hread := congrArg readString h.2
  rw [readString_flatMap_escape, readString_flatMap_escape] at hread
  simp only [Except.ok.injEq, Prod.mk.injEq, StringValue.mk.injEq] at hread
  exact ⟨hread.1.1, hread.2⟩

theorem skipBlank_of_not_isBlank (h : isBlank c = false) (rest : Text) :
    skipBlank (c :: rest) = c :: rest :=
  List.dropWhile_cons_of_neg (by simp [h])

theorem skipMark_cons (h : isBlank c = false) (rest : Text) : skipMark c (c :: rest) = .ok rest := by
  simp [skipMark, skipBlank_of_not_isBlank h]

theorem readVerbatim_quote (text : Text) :
    readVerbatim ('"' :: text) = (do
      let (read, rest) ← readString text
      if read.escaped then reject (.wrongType (.string read.value) "a borrowed string".toList)
      else .ok (read.value, rest)) := by
  rw [readVerbatim, skipBlank_of_not_isBlank rfl]
  simp only [if_pos]

theorem readVerbatim_literal_append (text rest : Text) :
    readVerbatim (literal text ++ rest) =
      if text.all (IsPlain ·) then .ok (text, rest)
      else reject (.wrongType (.string text) "a borrowed string".toList) := by
  rw [literal_append, readVerbatim_quote, readString_flatMap_escape]
  cases text.all (IsPlain ·) <;> rfl

theorem Choice.readName_literal_append {κ : Type} {choice : Choice κ} {value : κ}
    (hfind : (choice.values.find? fun other => choice.name other == choice.name value) = some value)
    (rest : Text) : choice.readName (literal (choice.name value) ++ rest) = .ok (value, rest) := by
  rw [literal_append, readName, skipMark_cons rfl]
  simp [bind, Except.bind, readString_flatMap_escape, hfind]

theorem Choice.read_member {κ α : Type} {choice : Choice κ} {value : κ}
    (hfind : (choice.values.find? fun other => choice.name other == choice.name value) = some value)
    (bare : κ → Except ReadError α) (content : κ → Reader α) (text : Text) :
    choice.read bare content ('{' :: (literal (choice.name value) ++ ':' :: text)) = (do
      let (result, rest) ← content value text
      .ok (result, ← skipMark '}' rest)) := by
  rw [Choice.read, skipBlank_of_not_isBlank rfl]
  simp only [if_pos, readName_literal_append hfind, bind, Except.bind,
    skipMark_cons (by decide : isBlank ':' = false)]

end

end Json

end TemplateLexer
