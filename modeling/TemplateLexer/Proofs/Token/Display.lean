import Mathlib.Logic.Function.Basic
import TemplateLexer.Proofs.Text.Quoted
import TemplateLexer.Proofs.Token.Json

/-!
# Tokens read back from their displayed form

The displayed form of a token is the name of its kind and the quoted value
between parentheses.  It is read back as the token, so no two tokens have one
displayed form, whatever their values hold.
-/

namespace TemplateLexer

open Text

namespace Token

def ofDisplay? (text : Text) : Option Token := do
  let kind ← TokenKind.all.find? fun kind => kind.displayName = text.takeWhile (· ≠ '(')
  match text.dropWhile (· ≠ '(') with
  | '(' :: '"' :: quoted =>
      let (value, rest) ← unquoteBehind? quoted
      if rest = [')'] then some (ofKind kind value) else none
  | _ => none

theorem kind_ofKind (kind : TokenKind) (value : Text) : (ofKind kind value).kind = kind := by
  cases kind <;> rfl

theorem value_ofKind (kind : TokenKind) (value : Text) : (ofKind kind value).value = value := by
  cases kind <;> rfl

section

variable {token other : Token} {text before after : Text}

theorem display_eq (token : Token) :
    token.display = token.kind.displayName ++
      '(' :: '"' :: (token.value.flatMap escape ++ ['"', ')']) := by
  simp [display, quoted]

theorem find?_displayName_eq (kind : TokenKind) :
    (TokenKind.all.find? fun other => other.displayName = kind.displayName) = some kind := by
  cases kind with
  | text => decide
  | tag kind => cases kind <;> decide

theorem displayName_plain (kind : TokenKind) :
    ∀ c ∈ kind.displayName, IsVisible c ∧ c ≠ '(' ∧ c ≠ '"' ∧ c ≠ '\\' := by
  have hall : (kind.displayName.all fun c =>
      decide (IsVisible c ∧ c ≠ '(' ∧ c ≠ '"' ∧ c ≠ '\\')) = true := by
    cases kind with
    | text => decide
    | tag kind => cases kind <;> decide
  intro c hmem
  exact of_decide_eq_true (List.all_eq_true.mp hall c hmem)

theorem ofDisplay?_eq_some_iff : ofDisplay? text = some token ↔ text = token.display := by
  constructor
  · intro h
    obtain ⟨kind, hkind, h⟩ := Option.bind_eq_some_iff.mp h
    have hname : kind.displayName = text.takeWhile (· ≠ '(') := by
      simpa using List.find?_some hkind
    split at h
    · next quoted hrest =>
        obtain ⟨⟨value, rest⟩, hread, h⟩ := Option.bind_eq_some_iff.mp h
        dsimp only at h
        split at h
        · next hclosed =>
            cases h
            have htext := (text.takeWhile_append_dropWhile (p := (· ≠ '('))).symm
            rw [← hname, hrest, unquoteBehind?_eq_some_iff.mp hread, hclosed] at htext
            rw [htext, display_eq, kind_ofKind, value_ofKind]
        · cases h
    · cases h
  · rintro rfl
    have hname : ∀ c ∈ token.kind.displayName, decide (c ≠ '(') = true := by
      intro c hmem
      exact decide_eq_true (displayName_plain token.kind c hmem).2.1
    have hread : unquoteBehind? (token.value.flatMap escape ++ ['"', ')']) =
        some (token.value, [')']) := unquoteBehind?_eq_some_iff.mpr rfl
    rw [display_eq, ofDisplay?, List.takeWhile_append_of_pos hname,
      List.dropWhile_append_of_pos hname]
    simp [find?_displayName_eq, hread, ofKind_kind_value]

theorem ofDisplay?_display (token : Token) : ofDisplay? token.display = some token :=
  ofDisplay?_eq_some_iff.mpr rfl

theorem display_injective : Function.Injective display := by
  intro token other h
  have hread := ofDisplay?_display token
  rw [h, ofDisplay?_display, Option.some.injEq] at hread
  exact hread.symm

theorem isVisible_of_mem_display {c : Char} (h : c ∈ token.display) : IsVisible c := by
  rw [display, List.mem_append, List.mem_append, List.mem_append, List.mem_singleton,
    List.mem_singleton] at h
  rcases h with ((hname | rfl) | hquoted) | rfl
  · exact (displayName_plain token.kind c hname).1
  · decide
  · exact isVisible_of_mem_quoted hquoted
  · decide

theorem endsEscaping_displayName (kind : TokenKind) :
    endsEscaping (kind.displayName ++ ['(']) = false :=
  endsEscaping_concat (by decide) _

theorem endsEscaping_eq_false_iff (h : token.display = before ++ '"' :: after) :
    endsEscaping before = false ↔
      before = token.kind.displayName ++ ['('] ∨ after = [')'] := by
  have hname : '"' ∉ token.kind.displayName ++ ['('] := by
    intro hmem
    rw [List.mem_append] at hmem
    rcases hmem with hmem | hmem
    · exact (displayName_plain token.kind '"' hmem).2.2.1 rfl
    · simp at hmem
  have hopened (text : Text) :
      endsEscaping (token.kind.displayName ++ ['('] ++ '"' :: text) = endsEscaping text := by
    have hquote : endsEscaping ['"'] = false := rfl
    rw [endsEscaping_append (endsEscaping_displayName token.kind)]
    exact endsEscaping_append hquote text
  have hsplit : before ++ '"' :: after = (token.kind.displayName ++ ['(']) ++
      '"' :: (token.value.flatMap escape ++ '"' :: [')']) := by
    rw [← h, display_eq]
    simp
  rcases append_cons_eq_append_cons hsplit with
    ⟨rfl, -⟩ | ⟨between, hfront, -⟩ | ⟨between, rfl, hinside⟩
  · simp [endsEscaping_displayName]
  · rw [hfront] at hname
    simp at hname
  · rw [hopened]
    rcases append_cons_eq_append_cons hinside.symm with
      ⟨rfl, rfl⟩ | ⟨behind, hvalue, rfl⟩ | ⟨behind, -, hclosed⟩
    · simp [endsEscaping_flatMap_escape]
    · have hlength : behind ++ '"' :: [')'] ≠ [')'] := by
        intro heq
        simpa using congrArg List.length heq
      simp [endsEscaping_before_quote hvalue, hlength]
    · have hquote : '"' ∈ [')'] := by
        rw [hclosed]
        simp
      simp at hquote

/--
The displayed form of a token is read back as the token and nothing else is, so
it tells the kind and the value whatever the value holds.  It shows no control
character of ASCII, and the only double quotes in it behind no escaping
backslash are the two around the value.
-/
theorem display_is_unambiguous_and_safe :
    (∀ token text, ofDisplay? text = some token ↔ text = token.display) ∧
      (∀ token other : Token, token.display = other.display → token = other) ∧
      ∀ token : Token,
        (∀ c ∈ token.display, 0x20 ≤ c.toNat ∧ c.toNat ≠ 0x7F) ∧
        token.display = token.kind.displayName ++ ['('] ++
          '"' :: (token.value.flatMap escape ++ '"' :: [')']) ∧
        ∀ before after, token.display = before ++ '"' :: after →
          (endsEscaping before = false ↔
            before = token.kind.displayName ++ ['('] ∨ after = [')']) := by
  refine ⟨fun _ _ => ofDisplay?_eq_some_iff, fun _ _ => (display_injective ·), fun token =>
    ⟨fun _ => isVisible_of_mem_display, ?_, fun _ _ => endsEscaping_eq_false_iff⟩⟩
  rw [display_eq]
  simp

theorem display_of_misleading_value :
    let token : Token := .tag .block ['\\', '"', ')', '\x00', '1', 'T', '(', '"']
    let before := token.kind.displayName ++ ['(', '"', '\\', '\\', '\\']
    let after := [')', '\\', '0', '1', 'T', '(', '\\', '"', '"', ')']
    token.display = before ++ '"' :: after ∧ endsEscaping before ≠ false ∧
      ofDisplay? token.display = some token := by
  intro token before after
  obtain ⟨hread, -, hsafe⟩ := display_is_unambiguous_and_safe
  have hdisplay : token.display = before ++ '"' :: after := by rfl
  refine ⟨hdisplay, ?_, (hread token token.display).mpr rfl⟩
  rw [Ne, (hsafe token).2.2 before after hdisplay]
  decide

end

end Token

end TemplateLexer
