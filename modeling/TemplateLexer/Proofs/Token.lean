import TemplateLexer.Proofs.Chunk
import TemplateLexer.Proofs.Text.Trim
import TemplateLexer.Token

/-!
# Payloads

Taking two characters off each end works on every text of four characters or
more, whatever the characters are, and on no shorter one.  A tag of four
characters or more is its opener, an inside, and its closer.
-/

namespace TemplateLexer

open Text

variable {kind : TagKind} {text inner : Text} {mode : TrimMode}

theorem payload?_append (mode : TrimMode) (a b c d : Char) (inner : Text) :
    payload? mode ([a, b] ++ inner ++ [c, d]) = some (inner.trim mode ' ') := by
  have hfirst : (charIndices ([a, b] ++ inner ++ [c, d]))[2]?.map Prod.fst =
      some (byteLength [a, b]) := by
    rw [charIndices, List.append_assoc, charIndicesFrom_append, List.getElem?_append_right (by
      simp [charIndicesFrom])]
    cases inner <;> simp [charIndicesFrom]
  have hlast : (charIndices ([a, b] ++ inner ++ [c, d])).reverse[1]?.map Prod.fst =
      some (byteLength ([a, b] ++ inner)) := by
    rw [charIndices, charIndicesFrom_append]
    simp [charIndicesFrom]
  obtain ⟨⟨first, x⟩, hx, rfl⟩ := Option.map_eq_some_iff.mp hfirst
  obtain ⟨⟨last, y⟩, hy, rfl⟩ := Option.map_eq_some_iff.mp hlast
  simp only [payload?, hx, hy, bind, Option.bind_some, slice?_append]

theorem exists_ends_of_length (h : 4 ≤ text.length) :
    ∃ a b inner c d, text = [a, b] ++ inner ++ [c, d] := by
  match text, h with
  | a :: b :: rest, h =>
      have hrest : 2 ≤ rest.length := by simpa using h
      obtain ⟨c, d, hends⟩ : ∃ c d, rest.drop (rest.length - 2) = [c, d] := by
        apply List.length_eq_two.mp
        rw [List.length_drop]
        omega
      refine ⟨a, b, rest.take (rest.length - 2), c, d, ?_⟩
      rw [List.append_assoc, ← hends, List.take_append_drop]
      rfl

theorem payload?_eq_none_iff : payload? mode text = none ↔ text.length < 4 := by
  constructor
  · intro h
    by_contra hlength
    obtain ⟨a, b, inner, c, d, rfl⟩ := exists_ends_of_length (Nat.le_of_not_lt hlength)
    rw [payload?_append] at h
    cases h
  · intro h
    match text, h with
    | [], _ => rfl
    | [a], _ => rfl
    | [a, b], _ => rfl
    | [a, b, c], _ =>
        have hb := b.utf8Size_pos
        have hcrossed : ¬ a.utf8Size + b.utf8Size ≤ a.utf8Size := by omega
        simp [payload?, charIndices, charIndicesFrom, slice?, hcrossed]

theorem payload?_eq_some_iff {value : Text} :
    payload? mode text = some value ↔
      ∃ (a b : Char) (inner : Text) (c d : Char),
        text = [a, b] ++ inner ++ [c, d] ∧ value = inner.trim mode ' ' := by
  constructor
  · intro h
    have hlength : ¬ text.length < 4 := by
      intro hshort
      rw [payload?_eq_none_iff.mpr hshort] at h
      cases h
    obtain ⟨a, b, inner, c, d, rfl⟩ := exists_ends_of_length (Nat.le_of_not_lt hlength)
    rw [payload?_append, Option.some.injEq] at h
    exact ⟨a, b, inner, c, d, rfl, h.symm⟩
  · rintro ⟨a, b, inner, c, d, rfl, rfl⟩
    exact payload?_append mode a b c d inner

namespace TagKind

theorem startingWith?_eq_some_iff :
    startingWith? text = some kind ↔ kind.opener <+: text := by
  constructor
  · intro h
    simpa using List.find?_some h
  · intro h
    cases hfound : startingWith? text with
    | none =>
        have hnone := List.find?_eq_none.mp hfound kind (mem_all kind)
        exact absurd h (by simpa using hnone)
    | some other =>
        have hother : other.opener <+: text := by simpa using List.find?_some hfound
        rw [opener_prefix_inj hother h]

theorem startingWith?_eq_none_iff :
    startingWith? text = none ↔ ∀ kind : TagKind, ¬ kind.opener <+: text := by
  rw [Option.eq_none_iff_forall_ne_some]
  exact forall_congr' fun kind => not_congr startingWith?_eq_some_iff

theorem IsTag.exists_inner (h : kind.IsTag text) (hlength : 4 ≤ text.length) :
    ∃ inner, text = kind.opener ++ inner ++ kind.closer ∧
      Unmarked [kind.closer] inner kind.closer := by
  obtain ⟨hopener, body, rfl, hbody⟩ := h
  have hlong : kind.opener.length ≤ body.length := by
    simp at hlength ⊢
    omega
  obtain ⟨inner, rfl⟩ := List.prefix_of_prefix_length_le hopener (List.prefix_append _ _) hlong
  exact ⟨inner, rfl, (unmarked_append.mp hbody).2⟩

theorem IsTag.overlapped (h : kind.IsTag text) (hlength : text.length < 4) :
    kind ≠ .var ∧ text = '{' :: kind.closer := by
  obtain ⟨hopener, body, rfl, -⟩ := h
  match body, hlength with
  | [], _ => cases kind <;> simp [opener, closer] at hopener
  | [c], _ =>
      cases kind with
      | var => simp [opener, closer] at hopener
      | block => simpa [opener, closer, eq_comm] using hopener
      | comment => simpa [opener, closer, eq_comm] using hopener
  | _ :: _ :: _, hlength =>
      simp at hlength
      omega

end TagKind

theorem Token.ofText?_of_opener (h : kind.opener <+: text) :
    Token.ofText? mode text = (text.payload? mode).map (Token.tag kind) := by
  rw [ofText?, TagKind.startingWith?_eq_some_iff.mpr h]

theorem Token.ofText?_eq_some_iff {token : Token} :
    Token.ofText? mode text = some token ↔
      (token = .text text ∧ ∀ kind : TagKind, ¬ kind.opener <+: text) ∨
        ∃ kind value, token = .tag kind value ∧ kind.opener <+: text ∧
          payload? mode text = some value := by
  cases hkind : TagKind.startingWith? text with
  | none =>
      have hno := TagKind.startingWith?_eq_none_iff.mp hkind
      simp [ofText?, hkind, hno, eq_comm]
  | some opening =>
      have hopening := TagKind.startingWith?_eq_some_iff.mp hkind
      rw [ofText?_of_opener hopening, Option.map_eq_some_iff]
      constructor
      · rintro ⟨value, hvalue, rfl⟩
        exact .inr ⟨opening, value, rfl, hopening, hvalue⟩
      · rintro (⟨-, hno⟩ | ⟨kind, value, rfl, hopener, hvalue⟩)
        · exact absurd hopening (hno opening)
        · obtain rfl := TagKind.opener_prefix_inj hopener hopening
          exact ⟨value, hvalue, rfl⟩

theorem Token.ofText?_eq_none_iff :
    Token.ofText? mode text = none ↔
      (∃ kind : TagKind, kind.opener <+: text) ∧ text.length < 4 := by
  cases hkind : TagKind.startingWith? text with
  | none =>
      have hno := TagKind.startingWith?_eq_none_iff.mp hkind
      simp [ofText?, hkind, hno]
  | some opening =>
      have hopening := TagKind.startingWith?_eq_some_iff.mp hkind
      rw [ofText?_of_opener hopening, Option.map_eq_none_iff, payload?_eq_none_iff,
        iff_and_self]
      exact fun _ => ⟨opening, hopening⟩

theorem Token.ofText?_behind_opener (mode : TrimMode) (kind : TagKind) (inner : Text) (c d : Char) :
    Token.ofText? mode (kind.opener ++ inner ++ [c, d]) =
      some (.tag kind (inner.trim mode ' ')) := by
  have hopener : kind.opener <+: kind.opener ++ inner ++ [c, d] := by
    simp [List.append_assoc]
  rw [ofText?_of_opener hopener]
  cases kind <;> exact congrArg _ (payload?_append mode _ _ c d inner)

theorem Token.ofText?_delimited (mode : TrimMode) (kind : TagKind) (inner : Text) :
    Token.ofText? mode (kind.opener ++ inner ++ kind.closer) =
      some (.tag kind (inner.trim mode ' ')) := by
  cases kind <;> exact ofText?_behind_opener mode _ inner _ _

/--
Any text of four characters or more has a payload, the trimmed part between
its first two and last two characters, and no shorter one has.  The token of a
text depends on how the text begins and, behind an opener, on its payload: what
the last two characters are does not matter.
-/
theorem payload_and_token_by_position (mode : TrimMode) (text : Text) :
    (payload? mode text = none ↔ text.length < 4) ∧
      (∀ value, payload? mode text = some value ↔
        ∃ (a b : Char) (inner : Text) (c d : Char),
          text = [a, b] ++ inner ++ [c, d] ∧ value = inner.trim mode ' ') ∧
      (Token.ofText? mode text = none ↔
        (∃ kind : TagKind, kind.opener <+: text) ∧ text.length < 4) ∧
      (∀ token, Token.ofText? mode text = some token ↔
        (token = .text text ∧ ∀ kind : TagKind, ¬ kind.opener <+: text) ∨
          ∃ kind value, token = .tag kind value ∧ kind.opener <+: text ∧
            payload? mode text = some value) ∧
      ∀ (kind : TagKind) (c d : Char), Token.ofText? mode (kind.opener ++ text ++ [c, d]) =
        some (.tag kind (text.trim mode ' ')) := by
  exact ⟨payload?_eq_none_iff, fun _ => payload?_eq_some_iff, Token.ofText?_eq_none_iff,
    fun _ => Token.ofText?_eq_some_iff,
    fun kind c d => Token.ofText?_behind_opener mode kind text c d⟩

example :
    payload? .standard ['→', '😀', 'x'] = none ∧
      payload? .standard ['→', '😀', ' ', 'x', 'é', '}'] = some ['x'] ∧
      Token.ofText? .standard ['{', '%', '→', '😀'] = some (.tag .block []) := by
  decide

end TemplateLexer
