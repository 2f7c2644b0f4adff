import Mathlib.Data.List.Basic
import TemplateLexer.Proofs.Json.Literal
import TemplateLexer.Text.Quoted

/-!
# Quoted texts read back

In a quoted text a character has one of three forms: a letter or its code
behind a backslash, or itself.  No form begins with another one, so the text is
read back character by character, whatever follows it, and reading takes
exactly what quoting writes.  A quoted text holds no control character, and
within it a double quote stands behind the backslash that escapes it.
-/

namespace TemplateLexer

namespace Text

def letterEscapes : List (Char × Char) :=
  [('t', '\t'), ('r', '\r'), ('n', '\n'), ('"', '"'), ('\\', '\\'), ('0', '\x00')]

def IsVisible (c : Char) : Prop :=
  0x20 ≤ c.toNat ∧ c.toNat ≠ 0x7F

instance (c : Char) : Decidable (IsVisible c) :=
  inferInstanceAs (Decidable (_ ∧ _))

inductive EscapeForm (c : Char) : Text → Prop where
  | letter (name : Char) (known : (name, c) ∈ letterEscapes) : EscapeForm c ['\\', name]
  | code : EscapeForm c ('\\' :: 'u' :: '{' :: (Nat.toDigits 16 c.toNat ++ ['}']))
  | verbatim (visible : IsVisible c) (quote : c ≠ '"') (backslash : c ≠ '\\') : EscapeForm c [c]

section

variable {c : Char} {text form front rest value before after : Text}

theorem isVisible_of_not_isNonprinting (h : isNonprinting c = false) : IsVisible c := by
  rw [isNonprinting] at h
  split at h
  · simpa [IsVisible] using h
  · constructor <;> omega

theorem escapeForm_escape (c : Char) : EscapeForm c (escape c) := by
  by_cases htab : c = '\t'
  · subst htab
    exact .letter 't' (by decide)
  by_cases hreturn : c = '\r'
  · subst hreturn
    exact .letter 'r' (by decide)
  by_cases hnewline : c = '\n'
  · subst hnewline
    exact .letter 'n' (by decide)
  by_cases hquote : c = '"'
  · subst hquote
    exact .letter '"' (by decide)
  by_cases hbackslash : c = '\\'
  · subst hbackslash
    exact .letter '\\' (by decide)
  by_cases hnull : c.toNat = 0
  · obtain rfl : c = '\x00' := Char.toNat_inj.mp hnull
    exact .letter '0' (by decide)
  rw [escape, if_neg htab, if_neg hreturn, if_neg hnewline, if_neg hquote, if_neg hbackslash,
    if_neg hnull]
  cases hcontrol : isNonprinting c with
  | true => exact .code
  | false => exact .verbatim (isVisible_of_not_isNonprinting hcontrol) hquote hbackslash

theorem exists_of_mem_toDigits_sixteen {n : Nat} {digit : Char}
    (h : digit ∈ Nat.toDigits 16 n) : ∃ value < 16, digit = Nat.digitChar value := by
  induction n using Nat.base_induction 16 (by decide) with
  | single n hn =>
      rw [Nat.toDigits_of_lt_base hn, List.mem_singleton] at h
      exact ⟨n, hn, h⟩
  | digit n value hvalue hn ih =>
      rw [← Nat.toDigits_append_toDigits (by decide) hn hvalue, Nat.toDigits_of_lt_base hvalue,
        List.mem_append, List.mem_singleton] at h
      rcases h with h | h
      · exact ih h
      · exact ⟨value, hvalue, h⟩

theorem isVisible_digitChar : ∀ value < 16, IsVisible (Nat.digitChar value) ∧
    Nat.digitChar value ≠ '"' ∧ Nat.digitChar value ≠ '}' := by
  decide

def hexNumber (digits : Text) : Nat :=
  digits.foldl (fun value digit => 16 * value + (Json.hexValue? digit).getD 0) 0

theorem hexNumber_toDigits (n : Nat) : hexNumber (Nat.toDigits 16 n) = n := by
  induction n using Nat.base_induction 16 (by decide) with
  | single n hn => simp [hexNumber, Nat.toDigits_of_lt_base hn, Json.hexValue?_digitChar n hn]
  | digit n value hvalue hn ih =>
      rw [hexNumber] at ih ⊢
      rw [← Nat.toDigits_append_toDigits (by decide) hn hvalue, Nat.toDigits_of_lt_base hvalue,
        List.foldl_append, ih]
      simp [Json.hexValue?_digitChar value hvalue]

def unescapedHead? : Text → Option (Char × Text)
  | [] => none
  | '\\' :: 'u' :: '{' :: rest =>
      some (Char.ofNat (hexNumber (rest.takeWhile (· ≠ '}'))), (rest.dropWhile (· ≠ '}')).tail)
  | '\\' :: name :: rest => (letterEscapes.lookup name).map fun c => (c, rest)
  | c :: rest => some (c, rest)

/-- Reads one character of a quoted text, only in the form that it has there. -/
def unescape? (text : Text) : Option (Char × Text) :=
  (unescapedHead? text).filter fun (c, rest) => escape c ++ rest = text

theorem EscapeForm.unescapedHead?_append (h : EscapeForm c form) (rest : Text) :
    unescapedHead? (form ++ rest) = some (c, rest) := by
  cases h with
  | letter name known =>
      have hletters : ∀ entry ∈ letterEscapes,
          entry.1 ≠ 'u' ∧ letterEscapes.lookup entry.1 = some entry.2 := by decide
      obtain ⟨hname, hlookup⟩ := hletters (name, c) known
      simp [unescapedHead?, hname, hlookup]
  | code =>
      have hdigits : ∀ digit ∈ Nat.toDigits 16 c.toNat, decide (digit ≠ '}') = true := by
        intro digit hmem
        obtain ⟨value, hvalue, rfl⟩ := exists_of_mem_toDigits_sixteen hmem
        exact decide_eq_true (isVisible_digitChar value hvalue).2.2
      have htake : (Nat.toDigits 16 c.toNat ++ '}' :: rest).takeWhile (· ≠ '}') =
          Nat.toDigits 16 c.toNat := by
        rw [List.takeWhile_append_of_pos hdigits]
        simp
      have hdrop : (Nat.toDigits 16 c.toNat ++ '}' :: rest).dropWhile (· ≠ '}') = '}' :: rest := by
        rw [List.dropWhile_append_of_pos hdigits]
        simp
      simp only [List.cons_append, List.append_assoc, List.nil_append, unescapedHead?, htake,
        hdrop, hexNumber_toDigits, Char.ofNat_toNat, List.tail_cons]
  | verbatim visible quote backslash => simp [unescapedHead?, backslash]

theorem unescape?_eq_some_iff : unescape? text = some (c, rest) ↔ text = escape c ++ rest := by
  rw [unescape?, Option.filter_eq_some_iff, decide_eq_true_eq]
  constructor
  · rintro ⟨-, h⟩
    exact h.symm
  · rintro rfl
    exact ⟨(escapeForm_escape c).unescapedHead?_append rest, rfl⟩

theorem EscapeForm.ne_nil (h : EscapeForm c form) : form ≠ [] := by
  cases h <;> simp

theorem EscapeForm.head?_ne_quote (h : EscapeForm c form) : form.head? ≠ some '"' := by
  cases h with
  | letter | code => simp
  | verbatim visible quote backslash => simpa using quote

theorem length_lt_of_unescape? (h : unescape? text = some (c, rest)) :
    rest.length < text.length := by
  have hpos := List.length_pos_iff.mpr (escapeForm_escape c).ne_nil
  rw [unescape?_eq_some_iff.mp h, List.length_append]
  omega

/-! ## Reading a text -/

def unquoteBehind? (text : Text) : Option (Text × Text) :=
  match text with
  | '"' :: rest => some ([], rest)
  | text =>
      match _h : unescape? text with
      | none => none
      | some (c, rest) => (unquoteBehind? rest).map fun (value, rest) => (c :: value, rest)
termination_by text.length
decreasing_by exact length_lt_of_unescape? ‹_›

theorem unquoteBehind?_of_unescape? (h : unescape? text = some (c, rest)) :
    unquoteBehind? text =
      (unquoteBehind? rest).map fun (value, rest) => (c :: value, rest) := by
  have hhead : text.head? ≠ some '"' := by
    rw [unescape?_eq_some_iff.mp h, List.head?_append_of_ne_nil _ (escapeForm_escape c).ne_nil]
    exact (escapeForm_escape c).head?_ne_quote
  rw [unquoteBehind?.eq_def]
  split
  · simp at hhead
  · split
    · next hnone => rw [h] at hnone; cases hnone
    · next hsome => rw [h] at hsome; cases hsome; rfl

theorem unquoteBehind?_eq_some_iff :
    unquoteBehind? text = some (value, rest) ↔ text = value.flatMap escape ++ '"' :: rest := by
  constructor
  · intro h
    fun_induction unquoteBehind? text generalizing value rest with
    | case1 behind => cases h; rfl
    | case2 => cases h
    | case3 text _ c behind hread ih =>
        obtain ⟨⟨tail, after⟩, htail, heq⟩ := Option.map_eq_some_iff.mp h
        cases heq
        rw [unescape?_eq_some_iff.mp hread, ih htail, List.flatMap_cons, List.append_assoc]
  · rintro rfl
    induction value with
    | nil => rw [List.flatMap_nil, List.nil_append, unquoteBehind?]
    | cons c value ih =>
        rw [List.flatMap_cons, List.append_assoc,
          unquoteBehind?_of_unescape? (unescape?_eq_some_iff.mpr rfl), ih]
        rfl

theorem EscapeForm.isVisible (h : EscapeForm c form) : ∀ d ∈ form, IsVisible d := by
  cases h with
  | letter name known =>
      have hletters : ∀ entry ∈ letterEscapes, IsVisible entry.1 := by decide
      have hname : IsVisible name := hletters (name, c) known
      simpa using And.intro (by decide : IsVisible '\\') hname
  | code =>
      intro d hmem
      simp only [List.mem_cons, List.mem_append, List.mem_nil_iff, or_false] at hmem
      rcases hmem with rfl | rfl | rfl | hdigit | rfl
      · decide
      · decide
      · decide
      · obtain ⟨value, hvalue, rfl⟩ := exists_of_mem_toDigits_sixteen hdigit
        exact (isVisible_digitChar value hvalue).1
      · decide
  | verbatim visible quote backslash => simpa using visible

theorem isVisible_of_mem_quoted (h : c ∈ quoted text) : IsVisible c := by
  rw [quoted, List.cons_append, List.mem_cons, List.mem_append, List.mem_singleton,
    List.mem_flatMap] at h
  rcases h with rfl | ⟨d, -, hmem⟩ | rfl
  · decide
  · exact (escapeForm_escape d).isVisible c hmem
  · decide

/-- The text ends with a backslash that escapes what comes next, being itself not escaped. -/
def endsEscaping (text : Text) : Bool :=
  text.foldl (fun escaping c => !escaping && c == '\\') false

theorem endsEscaping_append (h : endsEscaping front = false) (rest : Text) :
    endsEscaping (front ++ rest) = endsEscaping rest := by
  rw [endsEscaping] at h
  rw [endsEscaping, List.foldl_append, h, endsEscaping]

theorem endsEscaping_concat (hc : c ≠ '\\') (front : Text) :
    endsEscaping (front ++ [c]) = false := by
  rw [endsEscaping, List.foldl_append]
  simp [hc]

theorem EscapeForm.endsEscaping_eq (h : EscapeForm c form) : endsEscaping form = false := by
  cases h with
  | letter => rfl
  | code => exact endsEscaping_concat (by decide) ('\\' :: 'u' :: '{' :: _)
  | verbatim visible quote backslash => exact endsEscaping_concat backslash []

theorem endsEscaping_flatMap_escape (text : Text) :
    endsEscaping (text.flatMap escape) = false := by
  induction text with
  | nil => rfl
  | cons c text ih =>
      rw [List.flatMap_cons, endsEscaping_append (escapeForm_escape c).endsEscaping_eq, ih]

theorem append_cons_eq_append_cons (h : before ++ c :: after = front ++ c :: rest) :
    (before = front ∧ after = rest) ∨
      (∃ between, front = before ++ c :: between ∧ after = between ++ c :: rest) ∨
        ∃ between, before = front ++ c :: between ∧ rest = between ++ c :: after := by
  rw [List.append_eq_append_iff] at h
  rcases h with ⟨tail, rfl, htail⟩ | ⟨tail, rfl, htail⟩
  · cases tail with
    | nil => exact .inl ⟨by simp, by simpa using htail⟩
    | cons d tail =>
        obtain ⟨rfl, hafter⟩ := List.cons.inj htail
        exact .inr (.inl ⟨tail, rfl, hafter⟩)
  · cases tail with
    | nil => exact .inl ⟨by simp, by simpa [eq_comm] using htail⟩
    | cons d tail =>
        obtain ⟨rfl, hrest⟩ := List.cons.inj htail
        exact .inr (.inr ⟨tail, rfl, hrest⟩)

theorem EscapeForm.endsEscaping_before_quote (h : EscapeForm c form)
    (hsplit : form = before ++ '"' :: after) : endsEscaping before = true := by
  have hmem : '"' ∈ form := by
    rw [hsplit]
    simp
  cases h with
  | letter name known =>
      cases before with
      | nil => cases hsplit
      | cons first before =>
          obtain ⟨rfl, hrest⟩ := List.cons.inj hsplit
          cases before with
          | nil => rfl
          | cons second before => simp at hrest
  | code =>
      have hdigit : '"' ∈ Nat.toDigits 16 c.toNat := by simpa using hmem
      obtain ⟨value, hvalue, hquote⟩ := exists_of_mem_toDigits_sixteen hdigit
      exact absurd hquote.symm (isVisible_digitChar value hvalue).2.1
  | verbatim visible quote backslash => exact absurd (List.mem_singleton.mp hmem).symm quote

theorem endsEscaping_before_quote (h : text.flatMap escape = before ++ '"' :: after) :
    endsEscaping before = true := by
  induction text generalizing before with
  | nil => simp at h
  | cons c text ih =>
      have hclosed := (escapeForm_escape c).endsEscaping_eq
      rw [List.flatMap_cons, List.append_eq_append_iff] at h
      rcases h with ⟨front, rfl, hrest⟩ | ⟨tail, hform, htail⟩
      · rw [endsEscaping_append hclosed]
        exact ih hrest
      · cases tail with
        | nil =>
            rw [List.append_nil] at hform
            rw [← hform, ← List.append_nil (escape c), endsEscaping_append hclosed]
            exact ih htail.symm
        | cons d tail =>
            obtain ⟨rfl, -⟩ := List.cons.inj htail
            exact (escapeForm_escape c).endsEscaping_before_quote hform

end

end Text

end TemplateLexer
