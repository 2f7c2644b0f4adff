import TemplateLexer.Proofs.Json.Skip

/-!
# Names however they are written

A string is read as the text that it spells, whichever of its characters are
escaped and how.  So a choice is read from any spelling of its name, alone or
as the key of an object that holds null.
-/

namespace TemplateLexer

namespace Json

section

variable {code escape text rest : Text} {c : Char}

theorem readCodePoint_of_surrogates {first second : Text} {leading trailing : Nat}
    (hfirst : readHex4 first = .ok (leading, '\\' :: 'u' :: second))
    (hsecond : readHex4 second = .ok (trailing, rest))
    (hleading : 0xD800 ≤ leading ∧ leading < 0xDC00)
    (htrailing : 0xDC00 ≤ trailing ∧ trailing < 0xE000) :
    readCodePoint first = .ok (Char.ofNat (combineSurrogates leading trailing), rest) := by
  have hnot : isTrailingSurrogate leading = false := by
    simp only [isTrailingSurrogate, Bool.and_eq_false_iff, decide_eq_false_iff_not]
    omega
  have hlead : isLeadingSurrogate leading = true := by
    simp only [isLeadingSurrogate, Bool.and_eq_true, decide_eq_true_eq]
    omega
  have htrail : isTrailingSurrogate trailing = true := by
    simp only [isTrailingSurrogate, Bool.and_eq_true, decide_eq_true_eq]
    omega
  have hword : skipWord ['\\', 'u'] ('\\' :: 'u' :: second) = .ok second :=
    skipWord_append ['\\', 'u'] second
  simp only [readCodePoint, hfirst, hword, hsecond, hnot, hlead, htrail, bind, Except.bind,
    Bool.false_eq_true, if_false, if_true]

theorem IsEscapeFor.readEscape_append (h : IsEscapeFor c escape) (rest : Text) :
    readEscape (escape ++ rest) = .ok (c, rest) := by
  cases h with
  | letter name known =>
      obtain ⟨hmeant, hname⟩ := letterEscape?_of_known known
      simp [readEscape, hname, hmeant]
  | code first second third fourth value =>
      have hvalid : c.toNat < 0xD800 ∨ 0xE000 ≤ c.toNat :=
        c.valid.imp_right fun h => Nat.succ_le_of_lt h.1
      have hread := readCodePoint_of_readHex4 hvalid (readHex4_append value rest)
      rwa [Char.ofNat_toNat] at hread
  | surrogates first second third fourth fifth sixth seventh eighth leading trailing value value'
      isLeading isTrailing meant =>
      have hread := readCodePoint_of_surrogates (readHex4_append value _)
        (readHex4_append value' rest) isLeading isTrailing
      rwa [combineSurrogates, ← meant, Char.ofNat_toNat] at hread

theorem readString_append (h : Spells code text) (rest : Text) :
    ∃ escaped, readString (code ++ '"' :: rest) = .ok (⟨text, escaped⟩, rest) := by
  induction h with
  | nil => exact ⟨false, readString_quote rest⟩
  | plain c plain _ ih =>
      obtain ⟨escaped, hread⟩ := ih
      exact ⟨escaped, by rw [List.cons_append, readString_of_isPlain plain, hread]; rfl⟩
  | escaped c escape_for _ ih =>
      obtain ⟨escaped, hread⟩ := ih
      refine ⟨true, ?_⟩
      rw [List.cons_append, List.append_assoc,
        readString_of_readEscape (escape_for.readEscape_append _), hread]
      rfl

/-- The text is a value of the choice: its name as a string, or as the key of an object with null. -/
inductive Choice.IsWritten {κ : Type} (choice : Choice κ) (value : κ) : Text → Prop where
  | name {code : Text} (spelled : Spells code (choice.name value)) :
      IsWritten choice value ('"' :: (code ++ ['"']))
  | object {code : Text} (inside behindName behindColon behindNull : Blanks)
      (spelled : Spells code (choice.name value)) :
      IsWritten choice value ('{' :: (inside.val ++ '"' :: (code ++ '"' :: (behindName.val ++
        ':' :: (behindColon.val ++ 'n' :: 'u' :: 'l' :: 'l' :: (behindNull.val ++ ['}']))))))

theorem readNull_append (blanks : Blanks) (rest : Text) :
    readNull (blanks.val ++ 'n' :: 'u' :: 'l' :: 'l' :: rest) = .ok ((), rest) := by
  rw [readNull, skipBlank_append, skipBlank_of_not_isBlank rfl]
  rfl

section

variable {κ : Type} {choice : Choice κ} {value : κ}
  (hfind : (choice.values.find? fun other => choice.name other == choice.name value) = some value)

include hfind

theorem Choice.readName_append (h : Spells code (choice.name value)) (blanks : Blanks)
    (rest : Text) :
    choice.readName (blanks.val ++ '"' :: (code ++ '"' :: rest)) = .ok (value, rest) := by
  obtain ⟨escaped, hread⟩ := readString_append h rest
  simp only [readName, skipMark_append, skipMark_cons (by decide : isBlank '"' = false), hread,
    bind, Except.bind, hfind]

theorem Choice.readBare_append (h : choice.IsWritten value text) (blanks : Blanks)
    (rest : Text) : choice.readBare (blanks.val ++ (text ++ rest)) = .ok (value, rest) := by
  rw [readBare, read, skipBlank_append]
  cases h with
  | @name code spelled =>
      have hname : choice.readName ('"' :: (code ++ '"' :: rest)) = .ok (value, rest) :=
        readName_append hfind spelled .none rest
      rw [List.cons_append, List.append_assoc, List.singleton_append,
        skipBlank_of_not_isBlank rfl]
      simp only [hname, bind, Except.bind]
      rfl
  | @object code inside behindName behindColon behindNull spelled =>
      have hname := readName_append hfind spelled inside
      simp only [List.cons_append, List.append_assoc, List.nil_append,
        skipBlank_of_not_isBlank (by decide : isBlank '{' = false), if_true, hname, skipMark_append,
        skipMark_cons (by decide : isBlank ':' = false), readNull_append,
        skipMark_cons (by decide : isBlank '}' = false), bind, Except.bind, Except.map]

end

end

end Json

end TemplateLexer
