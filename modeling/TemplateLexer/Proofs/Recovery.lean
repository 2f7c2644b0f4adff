import TemplateLexer.Proofs.ChunkForm

/-!
# The recoveries as views of one list of tokens

Whatever the recovery, lexing is determined by the tokens of lossless lexing.
A token that begins with an opener is one that had to be recovered, and whether
the closer stands in it tells what was wrong.  The legacy rules replace such
tokens and leave the others alone; strict lexing stops at the first of them.
-/

namespace TemplateLexer

open Text

section

variable {mode : TrimMode} {source part value : Text} {kind : TagKind} {offset : Nat}
  {chunk : Chunk} {tokens front back : List Token}

theorem Lexer.tokenize_legacy (source : Text) (mode : TrimMode) :
    Lexer.tokenize ⟨source, ⟨.legacy, mode⟩⟩ =
      .ok (((chunks source).map (Chunk.token mode)).map Token.inLegacy) := by
  rw [tokenize_eq_mapM, mapM_eq_ok_iff_map_eq, List.map_map, List.map_map]
  apply List.map_congr_left
  intro chunk hmem
  exact Chunk.item_legacy (form_of_mem hmem)

theorem Chunk.text_of_token (h : chunk.token mode = .text value) : chunk.text = value := by
  obtain ⟨kind, start, text⟩ := chunk
  cases kind with
  | text => simpa [token] using h
  | unterminated kind => simpa [token] using h
  | tag kind =>
      unfold token Token.ofText? at h
      cases hkind : TagKind.startingWith? text with
      | none => simpa [hkind] using h
      | some found =>
          cases hpayload : payload? mode text <;> simp_all

theorem Lexer.toList_tokens_strict
    (hsplit : (chunks source).map (Chunk.token mode) = front ++ .text value :: back)
    (hfront : ∀ token ∈ front, token.recovered? = none) (hopener : kind.opener <+: value) :
    ∃ offset, FiniteStream.toList (Lexer.tokens ⟨source, ⟨.strict, mode⟩⟩) =
      front.map .ok ++ [.error ⟨kind.refusal value, offset⟩] := by
  obtain ⟨before, rest, hchunks, rfl, hrest⟩ := List.map_eq_append_iff.mp hsplit
  obtain ⟨chunk, after, rfl, htoken, rfl⟩ := List.map_eq_cons_iff.mp hrest
  have hform : ∀ chunk ∈ chunks source, chunk.kind.Form chunk.text := fun chunk => form_of_mem
  rw [hchunks] at hform
  have hbefore : before.mapM (Chunk.item ⟨.strict, mode⟩) =
      .ok (before.map (Chunk.token mode)) := by
    apply (mapM_item_strict_eq_ok_iff _).mpr ⟨rfl, hfront⟩
    intro first hfirst
    exact hform first (List.mem_append_left _ hfirst)
  have hitem := Chunk.item_strict (hform chunk (by simp)) mode
  have hrecovered : (chunk.token mode).recovered? = some kind := by
    rw [htoken, Token.recovered?_text_eq_some_iff]
    exact hopener
  rw [hrecovered, Chunk.text_of_token htoken] at hitem
  refine ⟨chunk.start, ?_⟩
  rw [toList_tokens, hchunks]
  exact throughError_of_split hbefore hitem

theorem Chunk.token_ne_empty (hmem : chunk ∈ chunks source) : chunk.token mode ≠ .text [] := by
  intro h
  exact (segmentation_chunks source).text_ne_nil chunk hmem (Chunk.text_of_token h)

theorem Chunk.inLegacy_token_eq_empty_iff (hform : chunk.kind.Form chunk.text) :
    (chunk.token mode).inLegacy = .text [] ↔ ∃ kind, chunk.kind = .unterminated kind := by
  cases hform using Chunk.form_cases with
  | text hne hpart =>
      rw [token_text, Token.inLegacy_of_recovered?_eq_none (Token.recovered?_text_eq_none hpart)]
      simpa using hne
  | delimited hinner =>
      rw [token_delimited, Token.inLegacy_of_recovered?_eq_none Token.recovered?_tag]
      simp
  | overlapped hkind =>
      rw [token_overlapped hkind, Token.inLegacy_overlapped hkind]
      simp
  | unterminated hopener hpart =>
      rw [token_unterminated, Token.inLegacy_unterminated hopener hpart]
      simp

theorem eq_nil_of_inLegacy_eq
    (h : ((chunks source).map (Chunk.token mode)).map Token.inLegacy =
      front ++ .text [] :: back) : back = [] := by
  rw [List.map_map] at h
  obtain ⟨before, rest, hchunks, -, hrest⟩ := List.map_eq_append_iff.mp h
  obtain ⟨chunk, after, rfl, hempty, rfl⟩ := List.map_eq_cons_iff.mp hrest
  have hmem : chunk ∈ chunks source := by
    simp [hchunks]
  obtain ⟨kind, hkind⟩ := (Chunk.inLegacy_token_eq_empty_iff (form_of_mem hmem)).mp hempty
  -- The empty text is from an unterminated tag, and no chunk follows such a tag.
  obtain ⟨-, -, rfl⟩ :=
    (segmentation_chunks source).unterminated_last before chunk after hchunks kind hkind
  rfl

theorem empty_mem_legacy_iff :
    .text [] ∈ ((chunks source).map (Chunk.token mode)).map Token.inLegacy ↔
      ∃ chunk ∈ chunks source, ∃ kind, chunk.kind = .unterminated kind := by
  rw [List.map_map, List.mem_map]
  refine exists_congr fun chunk => and_congr_right fun hmem => ?_
  exact Chunk.inLegacy_token_eq_empty_iff (form_of_mem hmem)

theorem empty_not_mem_strict :
    .ok (.text []) ∉ FiniteStream.toList (Lexer.tokens ⟨source, ⟨.strict, mode⟩⟩) := by
  intro h
  rw [Lexer.toList_tokens] at h
  obtain ⟨chunk, hmem, hitem⟩ := List.mem_map.mp (mem_of_mem_throughError h)
  rw [Chunk.item_strict (form_of_mem hmem)] at hitem
  cases hrecovered : (chunk.token mode).recovered? with
  | none =>
      rw [hrecovered, Except.ok.injEq] at hitem
      exact Chunk.token_ne_empty hmem hitem
  | some kind => simp [hrecovered] at hitem

end

/--
The tokens of lossless lexing tell what every recovery makes of the text.  The
legacy rules replace the recovered ones, each by itself, and only there does
empty text come from.  Strict lexing ends in front of the first recovered one,
with the error that its text calls for.
-/
theorem recoveries_view_lossless_tokens (source : Text) (mode : TrimMode) :
    ∃ tokens, Lexer.tokenize ⟨source, ⟨.lossless, mode⟩⟩ = .ok tokens ∧
      Lexer.tokenize ⟨source, ⟨.legacy, mode⟩⟩ = .ok (tokens.map Token.inLegacy) ∧
      ((∀ token ∈ tokens, token.recovered? = none) →
        Lexer.tokenize ⟨source, ⟨.strict, mode⟩⟩ = .ok tokens) ∧
      (∀ (front back : List Token) (value : Text) (kind : TagKind),
        tokens = front ++ .text value :: back →
          (∀ token ∈ front, token.recovered? = none) → kind.opener <+: value →
            ∃ offset, FiniteStream.toList (Lexer.tokens ⟨source, ⟨.strict, mode⟩⟩) =
              front.map .ok ++ [.error ⟨kind.refusal value, offset⟩]) ∧
      .text [] ∉ tokens ∧
      .ok (.text []) ∉ FiniteStream.toList (Lexer.tokens ⟨source, ⟨.strict, mode⟩⟩) ∧
      (∀ front back, tokens.map Token.inLegacy = front ++ .text [] :: back → back = []) ∧
      (.text [] ∈ tokens.map Token.inLegacy ↔
        ∃ chunk ∈ chunks source, ∃ kind, chunk.kind = .unterminated kind) := by
  refine ⟨_, Lexer.tokenize_lossless source mode, Lexer.tokenize_legacy source mode, ?_, ?_, ?_,
    empty_not_mem_strict, fun _ _ => eq_nil_of_inLegacy_eq, empty_mem_legacy_iff⟩
  · intro hsound
    exact Lexer.tokenize_strict_eq_ok_iff.mpr ⟨Lexer.tokenize_lossless source mode, hsound⟩
  · intro front back value kind hsplit hfront hopener
    exact Lexer.toList_tokens_strict hsplit hfront hopener
  · intro hempty
    obtain ⟨chunk, hmem, htoken⟩ := List.mem_map.mp hempty
    exact Chunk.token_ne_empty hmem htoken

theorem recoveries_view_broken_tags :
    let source : Text := ['é', '{', '#', '}', '{', '{', ' ', 'x', '}', '}', '{', '%']
    let tokens : List Token :=
      [.text ['é'], .text ['{', '#', '}'], .tag .var ['x'], .text ['{', '%']]
    Lexer.tokenize ⟨source, ⟨.lossless, .standard⟩⟩ = .ok tokens ∧
      Lexer.tokenize ⟨source, ⟨.legacy, .standard⟩⟩ =
        .ok [.text ['é'], .tag .comment [], .tag .var ['x'], .text []] ∧
      ∃ offset, FiniteStream.toList (Lexer.tokens ⟨source, ⟨.strict, .standard⟩⟩) =
        [.ok (.text ['é']), .error ⟨.malformedTag ['{', '#', '}'], offset⟩] := by
  intro source tokens
  have htokens : Lexer.tokenize ⟨source, ⟨.lossless, .standard⟩⟩ = .ok tokens := by
    decide +kernel
  obtain ⟨found, hfound, hlegacy, -, hstrict, -⟩ :=
    recoveries_view_lossless_tokens source .standard
  obtain rfl : tokens = found := by
    simpa [htokens] using hfound
  refine ⟨htokens, hlegacy, ?_⟩
  exact hstrict [.text ['é']] _ _ .comment rfl (by decide) (by decide)

end TemplateLexer
