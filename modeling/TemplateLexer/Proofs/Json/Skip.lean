import Mathlib.Data.List.DropRight
import TemplateLexer.Proofs.Json.Number

/-!
# Values skipped to exactly their end

Whatever is a value by the grammar is passed over to its last character, and
skipping goes on with what encloses it.  Scalars are read from the left, so a
numeral ends only where no digit, point or exponent follows; everything else
ends by itself.
-/

namespace TemplateLexer

namespace Json

section

variable {enclosure : Enclosure} {enclosing : List Enclosure} {code key numeral text value rest : Text}
  {c : Char}

theorem skipBlank_append (blanks : Blanks) (text : Text) :
    skipBlank (blanks.val ++ text) = skipBlank text :=
  List.dropWhile_append_of_pos blanks.property

theorem skipBlank_skipBlank (text : Text) : skipBlank (skipBlank text) = skipBlank text := by
  rw [skipBlank, skipBlank, List.dropWhile_idempotent]

theorem skipMark_append (blanks : Blanks) (mark : Char) (text : Text) :
    skipMark mark (blanks.val ++ text) = skipMark mark text := by
  rw [skipMark, skipBlank_append, skipMark]

theorem skipWord_append (word rest : Text) : skipWord word (word ++ rest) = .ok rest := by
  induction word with
  | nil => rfl
  | cons letter word ih => rw [List.cons_append, skipWord, if_pos rfl, ih]

theorem letterEscape?_of_known {name meant : Char} (h : (name, meant) ∈ letterMeanings) :
    letterEscape? name = some meant ∧ name ≠ 'u' := by
  have hall : ∀ entry ∈ letterMeanings,
      letterEscape? entry.1 = some entry.2 ∧ entry.1 ≠ 'u' := by decide
  exact hall (name, meant) h

theorem readHex4_append {first second third fourth : Char} {value : Nat}
    (h : hex4? first second third fourth = some value) (rest : Text) :
    readHex4 (first :: second :: third :: fourth :: rest) = .ok (value, rest) := by
  rw [readHex4, h]

theorem skipString_escape {escape : Text} (h : skipEscape (escape ++ rest) = .ok rest) :
    skipString ('\\' :: (escape ++ rest)) = skipString rest := by
  rw [skipString, if_neg (by decide), if_pos rfl]
  split
  · next heq => rw [h] at heq; cases heq
  · next heq => rw [h] at heq; cases heq; rfl

theorem skipString_append (h : IsStringCode code) (rest : Text) :
    skipString (code ++ '"' :: rest) = .ok rest := by
  induction h with
  | nil => rw [List.nil_append, skipString, if_pos rfl]
  | plain c plain _ ih =>
      obtain ⟨hquote, hbackslash, hcontrol⟩ := plain
      rw [List.cons_append, skipString, if_neg hquote, if_neg hbackslash,
        if_neg (Nat.not_lt_of_le hcontrol), ih]
  | @letter code name meant known _ ih =>
      obtain ⟨hescape, hname⟩ := letterEscape?_of_known known
      have hskip : skipEscape ([name] ++ (code ++ '"' :: rest)) = .ok (code ++ '"' :: rest) := by
        simp [skipEscape, hname, hescape]
      exact (skipString_escape hskip).trans ih
  | @unit code first second third fourth value value_eq _ ih =>
      have hskip : skipEscape (['u', first, second, third, fourth] ++ (code ++ '"' :: rest)) =
          .ok (code ++ '"' :: rest) := by
        simp [skipEscape, readHex4_append value_eq, Except.map]
      exact (skipString_escape hskip).trans ih

theorem ne_of_isDigit {d : Char} (hc : c.isDigit = true) (hd : d.isDigit = false) : c ≠ d := by
  rintro rfl
  rw [hc] at hd
  cases hd

theorem isBlank_of_isDigit (hc : c.isDigit = true) : isBlank c = false := by
  simp [isBlank, ne_of_isDigit hc]

theorem IsMagnitude.exists_cons (h : IsMagnitude numeral) :
    ∃ first tail, numeral = first :: tail ∧ first.isDigit = true := by
  obtain ⟨whole_of, -, -⟩ := h
  obtain ⟨first, tail, rfl, hfirst⟩ := whole_of.1.exists_cons
  exact ⟨first, _, rfl, hfirst⟩

theorem skipScalar_append (h : IsScalar text) (hrest : EndsNumeral rest) :
    skipScalar (text ++ rest) = .ok rest := by
  cases h with
  | nullWord => exact skipWord_append ['u', 'l', 'l'] rest
  | trueWord => exact skipWord_append ['r', 'u', 'e'] rest
  | falseWord => exact skipWord_append ['a', 'l', 's', 'e'] rest
  | number magnitude =>
      have hskip := skipNumeral_append magnitude hrest
      obtain ⟨first, tail, rfl, hfirst⟩ := magnitude.exists_cons
      rw [List.cons_append] at hskip ⊢
      rw [skipScalar, if_neg (ne_of_isDigit hfirst rfl), if_neg (ne_of_isDigit hfirst rfl),
        if_neg (ne_of_isDigit hfirst rfl), if_neg (ne_of_isDigit hfirst rfl),
        if_neg (ne_of_isDigit hfirst rfl), if_pos hfirst, hskip]
  | negative magnitude => exact skipNumeral_append magnitude hrest
  | string code_of =>
      rw [List.cons_append, List.append_assoc]
      exact skipString_append code_of rest

theorem IsScalar.exists_cons (h : IsScalar text) :
    ∃ c tail, text = c :: tail ∧ isBlank c = false ∧ ∀ enclosure : Enclosure,
      c ≠ enclosure.opener ∧ c ≠ enclosure.closer := by
  cases h with
  | nullWord | trueWord | falseWord | negative | string =>
      exact ⟨_, _, rfl, by decide, fun enclosure => by cases enclosure <;> decide⟩
  | number magnitude =>
      obtain ⟨first, tail, rfl, hfirst⟩ := magnitude.exists_cons
      refine ⟨first, tail, rfl, isBlank_of_isDigit hfirst, fun enclosure => ?_⟩
      cases enclosure <;> exact ⟨ne_of_isDigit hfirst rfl, ne_of_isDigit hfirst rfl⟩

theorem IsJson.exists_cons (h : IsJson .value text) :
    ∃ c tail, text = c :: tail ∧ isBlank c = false ∧ ∀ enclosure : Enclosure,
      c ≠ enclosure.closer := by
  cases h with
  | scalar scalar =>
      obtain ⟨c, tail, rfl, hblank, hbracket⟩ := scalar.exists_cons
      exact ⟨c, tail, rfl, hblank, fun enclosure => (hbracket enclosure).2⟩
  | empty enclosure | enclosed enclosure =>
      refine ⟨_, _, rfl, by cases enclosure <;> rfl, fun other => ?_⟩
      cases enclosure <;> cases other <;> decide

/-! ## One step of skipping -/

def resume : Except ReadError SkipState → Except ReadError Text
  | .error error => .error error
  | .ok (.finished rest) => .ok rest
  | .ok (.before enclosing rest) => skipFrom enclosing rest

theorem skipFrom_eq_resume (enclosing : List Enclosure) (text : Text) :
    skipFrom enclosing text = resume (skipStep enclosing text) := by
  rw [skipFrom.eq_def]
  split
  · next heq => rw [heq]; rfl
  · next heq => rw [heq]; rfl
  · next heq => rw [heq]; rfl

theorem skipFrom_append (enclosing : List Enclosure) (blanks : Blanks) (text : Text) :
    skipFrom enclosing (blanks.val ++ text) = skipFrom enclosing text := by
  rw [skipFrom_eq_resume, skipStep, skipBlank_append, ← skipStep, ← skipFrom_eq_resume]

theorem isBlank_closer (enclosure : Enclosure) : isBlank enclosure.closer = false := by
  cases enclosure <;> rfl

theorem endsNumeral_append (blanks : Blanks) (h : EndsNumeral text) :
    EndsNumeral (blanks.val ++ text) := by
  obtain ⟨blanks, hblanks⟩ := blanks
  cases blanks with
  | nil => exact h
  | cons blank blanks =>
      intro c hc
      obtain rfl : blank = c := by simpa using hc
      have hblank : isBlank blank = true := hblanks blank List.mem_cons_self
      simp only [isBlank, Bool.or_eq_true, beq_iff_eq] at hblank
      rcases hblank with ((rfl | rfl) | rfl) | rfl <;> decide

theorem endsNumeral_comma (rest : Text) : EndsNumeral (',' :: rest) := by
  intro c hc
  obtain rfl : ',' = c := by simpa using hc
  decide

theorem endsNumeral_closer (enclosure : Enclosure) (rest : Text) :
    EndsNumeral (enclosure.closer :: rest) := by
  intro c hc
  obtain rfl : enclosure.closer = c := by simpa using hc
  cases enclosure <;> decide

theorem skipStep_scalar_append (h : IsScalar text) (hrest : EndsNumeral rest) :
    skipStep enclosing (text ++ rest) = skipEnd enclosing rest := by
  have hskip := skipScalar_append h hrest
  obtain ⟨c, tail, rfl, hblank, hbracket⟩ := h.exists_cons
  rw [List.cons_append] at hskip ⊢
  have hskipped : skipStep enclosing (c :: (tail ++ rest)) =
      skipScalar (c :: (tail ++ rest)) >>= skipEnd enclosing := by
    rw [skipStep, skipBlank_of_not_isBlank hblank]
    have harray : c ≠ '[' := (hbracket .array).1
    have hobject : c ≠ '{' := (hbracket .object).1
    simp only [if_neg harray, if_neg hobject]
  rw [hskipped, hskip]
  rfl

theorem skipStep_opener (enclosure : Enclosure) (enclosing : List Enclosure) (text : Text) :
    skipStep enclosing (enclosure.opener :: text) = skipOpening enclosure enclosing text := by
  cases enclosure with
  | array => rw [skipStep, skipBlank_of_not_isBlank rfl]; rfl
  | object => rw [skipStep, skipBlank_of_not_isBlank rfl]; rfl

theorem skipEnd_closer (enclosure : Enclosure) (enclosing : List Enclosure) (blanks : Blanks)
    (rest : Text) :
    skipEnd (enclosure :: enclosing) (blanks.val ++ enclosure.closer :: rest) =
      skipEnd enclosing rest := by
  rw [skipEnd, skipBlank_append, skipBlank_of_not_isBlank (isBlank_closer enclosure)]
  cases enclosure <;> rfl

theorem skipEnd_comma (enclosure : Enclosure) (enclosing : List Enclosure) (blanks : Blanks)
    (rest : Text) :
    skipEnd (enclosure :: enclosing) (blanks.val ++ ',' :: rest) =
      (skipKey enclosure rest).map (.before (enclosure :: enclosing)) := by
  rw [skipEnd, skipBlank_append, skipBlank_of_not_isBlank rfl]
  rfl

theorem skipKey_append {key : Text} (h : IsKey enclosure key) (text : Text) :
    skipKey enclosure (key ++ text) = .ok text := by
  cases h with
  | array => rfl
  | @object code before after code_of =>
      have hassoc : before.val ++ '"' :: (code ++ '"' :: (after.val ++ [':'])) ++ text =
          before.val ++ '"' :: (code ++ '"' :: (after.val ++ ':' :: text)) := by simp
      simp only [hassoc, skipKey, skipMark_append, skipMark_cons (by decide : isBlank '"' = false),
        skipString_append code_of, skipMark_cons (by decide : isBlank ':' = false), bind,
        Except.bind]

theorem resume_skipKey_skipBlank (enclosure : Enclosure) (enclosing : List Enclosure)
    (text : Text) :
    resume ((skipKey enclosure (skipBlank text)).map (.before enclosing)) =
      resume ((skipKey enclosure text).map (.before enclosing)) := by
  cases enclosure with
  | array =>
      change skipFrom enclosing (skipBlank text) = skipFrom enclosing text
      rw [skipFrom_eq_resume, skipStep, skipBlank_skipBlank, ← skipStep, ← skipFrom_eq_resume]
  | object => simp only [skipKey, skipMark, skipBlank_skipBlank]

theorem skipBlank_item (key_of : IsKey enclosure key) (before : Blanks)
    (value_of : IsJson .value value) (rest : Text) :
    ∃ c tail, skipBlank (key ++ (before.val ++ (value ++ rest))) = c :: tail ∧
      c ≠ enclosure.closer := by
  cases key_of with
  | array =>
      obtain ⟨c, tail, rfl, hblank, hcloser⟩ := value_of.exists_cons
      refine ⟨c, tail ++ rest, ?_, hcloser .array⟩
      rw [List.nil_append, skipBlank_append, List.cons_append, skipBlank_of_not_isBlank hblank]
  | @object code blanks after code_of =>
      refine ⟨'"', code ++ '"' :: (after.val ++ [':']) ++ (before.val ++ (value ++ rest)), ?_,
        by decide⟩
      rw [List.append_assoc, skipBlank_append, List.cons_append, skipBlank_of_not_isBlank rfl]

theorem IsJson.skipBlank_items (h : IsJson (.items enclosure) text) (rest : Text) :
    ∃ c tail, skipBlank (text ++ rest) = c :: tail ∧ c ≠ enclosure.closer := by
  cases h with
  | last key_of before after value_of | more key_of before after value_of =>
      simp only [List.append_assoc]
      exact skipBlank_item key_of before value_of _

/-- Skipping a value, or the items up to the end of an enclosure, goes on behind it. -/
def IsPassed : Form → Text → Prop
  | .value, text => ∀ enclosing rest, EndsNumeral rest →
      skipFrom enclosing (text ++ rest) = resume (skipEnd enclosing rest)
  | .items enclosure, text => ∀ enclosing rest,
      resume ((skipKey enclosure (text ++ enclosure.closer :: rest)).map
        (.before (enclosure :: enclosing))) = resume (skipEnd enclosing rest)

theorem IsPassed.item (h : IsPassed .value value) (key_of : IsKey enclosure key) (before : Blanks)
    (hrest : EndsNumeral rest) :
    resume ((skipKey enclosure (key ++ (before.val ++ (value ++ rest)))).map
      (.before (enclosure :: enclosing))) = resume (skipEnd (enclosure :: enclosing) rest) := by
  rw [skipKey_append key_of]
  change skipFrom (enclosure :: enclosing) (before.val ++ (value ++ rest)) = _
  rw [skipFrom_append, h (enclosure :: enclosing) rest hrest]

theorem IsJson.isPassed {form : Form} (h : IsJson form text) : IsPassed form text := by
  -- What encloses the value varies: skipping holds the open brackets in a list of its own.
  induction h with
  | scalar scalar =>
      intro enclosing rest hrest
      rw [skipFrom_eq_resume, skipStep_scalar_append scalar hrest]
  | empty enclosure inside =>
      intro enclosing rest hrest
      rw [List.cons_append, List.append_assoc, List.singleton_append, skipFrom_eq_resume,
        skipStep_opener, skipOpening, skipBlank_append,
        skipBlank_of_not_isBlank (isBlank_closer enclosure)]
      simp only [if_pos]
  | enclosed enclosure items_of ih =>
      intro enclosing rest hrest
      obtain ⟨c, tail, hskip, hcloser⟩ := items_of.skipBlank_items (enclosure.closer :: rest)
      rw [List.cons_append, List.append_assoc, List.singleton_append, skipFrom_eq_resume,
        skipStep_opener, skipOpening, hskip]
      simp only [if_neg hcloser]
      rw [← hskip, resume_skipKey_skipBlank, ih]
  | last key_of before after value_of ih =>
      intro enclosing rest
      simp only [List.append_assoc]
      rw [ih.item key_of before (endsNumeral_append after (endsNumeral_closer _ rest)),
        skipEnd_closer]
  | more key_of before after value_of items_of ih ihItems =>
      intro enclosing rest
      simp only [List.append_assoc, List.cons_append]
      rw [ih.item key_of before (endsNumeral_append after (endsNumeral_comma _)), skipEnd_comma,
        ihItems]

theorem skipValue_append (h : IsValue value) (before : Blanks) (hrest : EndsNumeral rest) :
    skipValue (before.val ++ (value ++ rest)) = .ok rest := by
  rw [skipValue, skipFrom_append, IsJson.isPassed h [] rest hrest]
  rfl

end

end Json

end TemplateLexer
