import Mathlib.Logic.Function.Basic
import TemplateLexer.Proofs.Json.Literal
import TemplateLexer.Token.Json

/-!
# Tokens written as JSON and read back

The written form of a token tells its kind and its value, so different tokens
have different forms.  Reading takes the value as it stands in the text.  It
gives the token back when nothing in the value had to be escaped, and otherwise
fails with a message that quotes the value; it never gives another token.
-/

namespace TemplateLexer

open Json

namespace Token

variable {token other : Token}

theorem toJson_eq (token : Token) :
    token.toJson =
      '{' :: (literal token.kind.name ++ ':' :: (literal token.value ++ ['}'])) := by
  simp [toJson, object, List.intercalate]

theorem find?_name_eq (kind : TokenKind) :
    (TokenKind.choice.values.find? fun other => other.name == kind.name) = some kind := by
  cases kind with
  | text => decide
  | tag kind => cases kind <;> decide

theorem ofKind_kind_value (token : Token) : ofKind token.kind token.value = token := by
  cases token <;> rfl

theorem readJson_toJson (token : Token) :
    readJson token.toJson =
      if token.value.all (IsPlain ·) then .ok (token, [])
      else reject (.wrongType (.string token.value) "a borrowed string".toList) := by
  rw [toJson_eq, readJson]
  change TokenKind.choice.read _ _
    ('{' :: (literal (TokenKind.choice.name token.kind) ++ ':' :: _)) = _
  rw [Choice.read_member (find?_name_eq token.kind), readVerbatim_literal_append]
  cases token.value.all (IsPlain ·) with
  | true =>
      simp only [if_pos, Except.map, ofKind_kind_value, bind, Except.bind,
        skipMark_cons (by decide : isBlank '}' = false)]
  | false => rfl

theorem ofJson_toJson (token : Token) :
    ofJson token.toJson =
      if token.value.all (IsPlain ·) then .ok token
      else reject (.wrongType (.string token.value) "a borrowed string".toList) := by
  rw [ofJson, readAll, readJson_toJson]
  cases token.value.all (IsPlain ·) <;> rfl

theorem ofJson_toJson_eq_ok_iff :
    ofJson token.toJson = .ok other ↔ other = token ∧ ∀ c ∈ token.value, IsPlain c := by
  have hplain : token.value.all (IsPlain ·) ↔ ∀ c ∈ token.value, IsPlain c := by simp
  rw [ofJson_toJson, ← hplain]
  cases token.value.all (IsPlain ·) with
  | true => simp [eq_comm]
  | false => simp [reject]

theorem ofJson_toJson_of_not_isPlain {c : Char} (hmem : c ∈ token.value) (hc : ¬ IsPlain c) :
    ofJson token.toJson =
      .error (.rejected (.wrongType (.string token.value) "a borrowed string".toList)) := by
  have hescaped : ¬ token.value.all (IsPlain ·) := by
    rw [List.all_eq_true]
    intro hplain
    exact hc (by simpa using hplain c hmem)
  rw [ofJson_toJson, if_neg hescaped]
  rfl

theorem toJson_injective : Function.Injective toJson := by
  intro token other h
  rw [toJson_eq, toJson_eq, List.cons.injEq] at h
  obtain ⟨hname, htail⟩ := literal_append_injective h.2
  obtain ⟨hvalue, -⟩ := literal_append_injective (List.cons.inj htail).2
  have hkind := find?_name_eq token.kind
  rw [hname, find?_name_eq other.kind, Option.some.injEq] at hkind
  rw [← ofKind_kind_value token, ← ofKind_kind_value other, hkind, hvalue]

theorem message_of_escaped (value : Text) :
    (Mismatch.wrongType (.string value) "a borrowed string".toList).message =
      "invalid type: string ".toList ++ value.quoted ++ ", expected a borrowed string".toList := by
  have hfound : "invalid type: string ".toList = "invalid type: ".toList ++ "string ".toList := rfl
  have hexpected : ", expected a borrowed string".toList =
      ", expected ".toList ++ "a borrowed string".toList := rfl
  rw [hfound, hexpected]
  change "invalid type: ".toList ++ ("string ".toList ++ value.quoted) ++
    ", expected ".toList ++ "a borrowed string".toList = _
  simp only [List.append_assoc]

/--
The written form of a token is read back as the token exactly when no character
of its value is a quote, a backslash or a control character below the space.
Otherwise reading fails, and the message quotes the value as it was.  No token
is read back as another one, and none has the written form of another one.
-/
theorem json_round_trip_of_plain_values :
    (∀ token : Token,
      (ofJson token.toJson = .ok token ↔
        ∀ c ∈ token.value, c ≠ '"' ∧ c ≠ '\\' ∧ 0x20 ≤ c.toNat) ∧
      ((∃ c ∈ token.value, c = '"' ∨ c = '\\' ∨ c.toNat < 0x20) →
        ∃ cause, ofJson token.toJson = .error (.rejected cause) ∧
          cause.message = "invalid type: string ".toList ++ token.value.quoted ++
            ", expected a borrowed string".toList) ∧
      ∀ other, ofJson token.toJson = .ok other → other = token) ∧
      Function.Injective toJson := by
  refine ⟨?_, toJson_injective⟩
  intro token
  refine ⟨?_, ?_, fun other h => (ofJson_toJson_eq_ok_iff.mp h).1⟩
  · rw [ofJson_toJson_eq_ok_iff, and_iff_right rfl]
    exact Iff.rfl
  · rintro ⟨c, hmem, hc⟩
    refine ⟨_, ofJson_toJson_of_not_isPlain hmem ?_, message_of_escaped token.value⟩
    rintro ⟨hquote, hbackslash, hcontrol⟩
    rcases hc with rfl | rfl | hlt
    · exact hquote rfl
    · exact hbackslash rfl
    · exact Nat.not_le_of_lt hlt hcontrol

theorem json_round_trip_of_escaped_and_plain :
    let escaped : Token := .tag .block ['a', '"', '\x1f']
    let plain : Token := .text ['→', '\x7f']
    (∃ c ∈ escaped.value, c = '"' ∨ c = '\\' ∨ c.toNat < 0x20) ∧
      (∃ cause, ofJson escaped.toJson = .error (.rejected cause) ∧
        cause.message = "invalid type: string ".toList ++
          ['"', 'a', '\\', '"', '\\', 'u', '{', '1', 'f', '}', '"'] ++
            ", expected a borrowed string".toList) ∧
      ofJson plain.toJson = .ok plain ∧
      ∀ other, other ≠ plain → ofJson plain.toJson ≠ .ok other := by
  intro escaped plain
  obtain ⟨-, hfails, -⟩ := json_round_trip_of_plain_values.1 escaped
  obtain ⟨hreads, -, hother⟩ := json_round_trip_of_plain_values.1 plain
  have hquote : ∃ c ∈ escaped.value, c = '"' ∨ c = '\\' ∨ c.toNat < 0x20 :=
    ⟨'"', by decide, .inl rfl⟩
  have hquoted : escaped.value.quoted =
      ['"', 'a', '\\', '"', '\\', 'u', '{', '1', 'f', '}', '"'] := by
    rfl
  have hplain : ∀ c ∈ plain.value, IsPlain c := by
    simp [plain, value, IsPlain]
  rw [hquoted] at hfails
  exact ⟨hquote, hfails hquote, hreads.mpr hplain,
    fun other hne hread => hne (hother other hread)⟩

end Token

end TemplateLexer
